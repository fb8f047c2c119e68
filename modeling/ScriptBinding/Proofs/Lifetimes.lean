import ScriptBinding.Proofs.Ownership
import ScriptBinding.Proofs.Withdrawals

/-! # What outlives its script

Scripts are loaded on workers, each parser with a context of its own, and they are unloaded on any
thread, while the main thread drains the queue now and then. What a worker takes back is taken back
behind what it has handed over. The main thread takes back at once: what still waits in the queue
then is bound and registered afterwards, and outlives its script.
-/

namespace ScriptBinding

/-- A host, the contexts of the parsers that work on it, and the scripts that they have loaded. -/
structure Site where
  registry : Registry
  parts : List ContextPart
  generations : GenerationCounter
  host : Host
  contexts : Nat → Context
  /-- The scripts, by their generations. -/
  scripts : Nat → Option Handle

/-- A script with other structures. -/
def Handle.holding (structures : List LoadedStructure) (handle : Handle) : Handle :=
  { handle with loaded := { handle.loaded with structures } }

namespace Site

/-- What can be done at a site. A context is that of the parser that does it, and a script is given
by its generation. -/
inductive Step where
  /-- Load a script on a worker. -/
  | load (context : Nat) (source : ScriptSource)
  /-- Move on to no script. -/
  | finish (thread : Thread) (context : Nat)
  /-- Do the jobs that wait, on the main thread. -/
  | drain
  | settle (thread : Thread) (context : Nat) (script : Nat)
  | unload (thread : Thread) (context : Nat) (script : Nat)

/-- A site without scripts. -/
def start (registry : Registry) (parts : List ContextPart) (generations : GenerationCounter)
    (host : Host) : Site where
  registry := registry
  parts := parts
  generations := generations
  host := host
  contexts := fun _ => .withParts parts
  scripts := fun _ => none

/-- A parser at work. -/
def session (context : Nat) (site : Site) : Session :=
  ⟨site.registry, site.parts, site.generations, ⟨site.host, site.contexts context⟩⟩

/-- The site once a parser has done something. -/
def resume (context : Nat) (session : Session) (site : Site) : Site :=
  { site with
    generations := session.generations
    host := session.workspace.host
    contexts := Function.update site.contexts context session.workspace.context }

/-- Keep what has become of a script. -/
def keep (script : Nat) (handle : Handle) (site : Site) : Site :=
  { site with scripts := Function.update site.scripts script (some handle) }

/-- Do something at a site. -/
def step (site : Site) : Step → Site
  | .load context source =>
    let (loaded, session) := (site.session context).load .worker source
    (site.resume context session).keep loaded.script.generation ⟨loaded, false⟩
  | .finish thread context =>
    site.resume context ((site.session context).setScript thread none)
  | .drain => { site with host := (site.host.runPending .main).2 }
  | .settle thread context script =>
    match site.scripts script with
    | none => site
    | some handle =>
      let ((settled, _), session) := (site.session context).settle thread [handle.loaded]
      (site.resume context session).keep script
        ⟨settled.headD handle.loaded, handle.unloaded⟩
  | .unload thread context script =>
    match site.scripts script with
    | none => site
    | some handle =>
      let (unloaded, session) := (site.session context).unload thread handle.loaded
      (site.resume context session).keep script ⟨unloaded, true⟩

def run (steps : List Step) (site : Site) : Site :=
  steps.foldl step site

/-- What the jobs that wait will put under tickets, if they are overtaken by what the thread submits.
-/
def overtaken (thread : Thread) (site : Site) : List (Nat × Binding) :=
  match thread with
  | .main => site.host.queued.flatMap Job.puts
  | .worker => []

/-! ## Parsers at work -/

/-- What a parser works on. -/
def workspace (context : Nat) (site : Site) : Workspace :=
  ⟨site.host, site.contexts context⟩

/-- The site once a parser has done something with what it works on. -/
def enter (context : Nat) (workspace : Workspace) (site : Site) : Site :=
  { site with
    host := workspace.host
    contexts := Function.update site.contexts context workspace.context }

variable {site : Site} {context other : Nat} {workspace : Workspace}

@[simp] theorem workspace_enter (context : Nat) (workspace : Workspace) (site : Site) :
    (site.enter context workspace).workspace context = workspace := by
  simp only [enter, Site.workspace, Function.update_self]

@[simp] theorem enter_enter (context : Nat) (first second : Workspace) (site : Site) :
    (site.enter context first).enter context second = site.enter context second := by
  simp only [enter, Function.update_idem]

@[simp] theorem workspace_keep (context script : Nat) (handle : Handle) (site : Site) :
    (site.keep script handle).workspace context = site.workspace context := rfl

@[simp] theorem keep_enter (context script : Nat) (handle : Handle) (workspace : Workspace)
    (site : Site) :
    (site.keep script handle).enter context workspace =
      (site.enter context workspace).keep script handle := rfl

@[simp] theorem keep_keep (script : Nat) (first second : Handle) (site : Site) :
    (site.keep script first).keep script second = site.keep script second := by
  simp only [keep, Function.update_idem]

theorem scripts_keep_self (script : Nat) (handle : Handle) (site : Site) :
    (site.keep script handle).scripts script = some handle :=
  Function.update_self ..

theorem scripts_keep_of_ne {script : Nat} (apart : other ≠ script) (handle : Handle) (site : Site) :
    (site.keep script handle).scripts other = site.scripts other :=
  Function.update_of_ne apart ..

theorem of_scripts_keep {script : Nat} {handle kept : Handle}
    (found : (site.keep script handle).scripts other = some kept) :
    other = script ∧ kept = handle ∨ other ≠ script ∧ site.scripts other = some kept := by
  by_cases here : other = script
  · subst here
    rw [scripts_keep_self] at found
    exact Or.inl ⟨rfl, (Option.some.inj found).symm⟩
  · rw [scripts_keep_of_ne here] at found
    exact Or.inr ⟨here, found⟩

theorem contexts_enter_self (context : Nat) (workspace : Workspace) (site : Site) :
    (site.enter context workspace).contexts context = workspace.context :=
  Function.update_self ..

theorem contexts_enter_of_ne (apart : other ≠ context) (workspace : Workspace) (site : Site) :
    (site.enter context workspace).contexts other = site.contexts other :=
  Function.update_of_ne apart ..

theorem contexts_enter_cases (context : Nat) (workspace : Workspace) (site : Site) (other : Nat) :
    other = context ∧ (site.enter context workspace).contexts other = workspace.context ∨
      other ≠ context ∧ (site.enter context workspace).contexts other = site.contexts other := by
  by_cases here : other = context
  · subst here
    exact Or.inl ⟨rfl, contexts_enter_self ..⟩
  · exact Or.inr ⟨here, contexts_enter_of_ne here ..⟩

/-! ## What a ledger says about a site -/

/-- A binding is in the ledger, or waits for its script to be left. -/
def Known (ledger : Ledger) (site : Site) : Placement := fun ticket binding =>
  ledger.Has ticket binding ∨ ∃ context, (ticket, binding) ∈ (site.contexts context).awaits

/-- What is known of a script: its tickets are for its own bindings, and unloading it takes back all
that is known of it. -/
structure Manages (ledger : Ledger) (site : Site) (script : Nat) (handle : Handle) : Prop where
  generation : handle.loaded.script.generation = script
  past : script < site.generations.next
  used : ∀ ticket ∈ ticketsOf handle.loaded.structures, ticket < site.host.nextTicket
  own : ∀ ticket ∈ ticketsOf handle.loaded.structures, ∀ binding,
    site.Known ledger ticket binding → binding.script = handle.loaded.script
  emptied : handle.unloaded = true → handle.loaded.structures = []
  takesBack : handle.unloaded = false → ∀ ticket binding, site.Known ledger ticket binding →
    binding.script = handle.loaded.script → handle.loaded.TakesBack ticket binding

/-- The site does what the ledger says. -/
structure Tracks (ledger : Ledger) (site : Site) : Prop where
  follows : site.host.Follows ledger
  permits : ∀ context, site.host.Permits ledger (site.contexts context).awaits
  /-- No ticket waits in two contexts. -/
  apart : ∀ first second ticket binding other, (ticket, binding) ∈ (site.contexts first).awaits →
    (ticket, other) ∈ (site.contexts second).awaits → first = second
  current : ∀ context script, (site.contexts context).script = some script →
    script.generation < site.generations.next
  past : ∀ ticket binding, ledger.Has ticket binding →
    binding.script.generation < site.generations.next
  manages : ∀ script handle, site.scripts script = some handle → site.Manages ledger script handle
  /-- Only what is of scripts that have been unloaded is going to be taken back. -/
  takes : ∀ job ∈ ledger.waiting, ∀ ticket binding, job.takes ticket binding = true →
    ticket < site.host.nextTicket ∧ (site.Known ledger ticket binding →
      ∀ handle, site.scripts binding.script.generation = some handle →
        binding.script = handle.loaded.script → handle.unloaded = true)

/-- A script has been unloaded, and this is what will be left of it. -/
structure Leaves (ledger : Ledger) (site : Site) (script : Script) (left : Placement) : Prop where
  unloaded : ∃ handle, site.scripts script.generation = some handle ∧
    handle.loaded.script = script ∧ handle.unloaded = true
  awaits : ∀ context ticket binding, (ticket, binding) ∈ (site.contexts context).awaits →
    binding.script ≠ script
  outcome : ∀ ticket binding, binding.script = script →
    (ledger.outcome ticket binding ↔ left ticket binding)

/-- The site does what the later ledger says, and what will be left of scripts is the same. -/
structure Leads (ledger : Ledger) (site : Site) (later : Ledger) (after : Site) : Prop where
  tracks : after.Tracks later
  leaves : ∀ script left, site.Leaves ledger script left → after.Leaves later script left

variable {Possible : EventFilter → Prop} {ledger later : Ledger} {after : Site} {thread : Thread}
  {jobs : List Job}

theorem Leads.trans {middle final : Site} {between last : Ledger}
    (first : Leads ledger site between middle) (second : Leads between middle last final) :
    Leads ledger site last final where
  tracks := second.tracks
  leaves := fun script left leaves => second.leaves script left (first.leaves script left leaves)

theorem Leads.refl (tracks : site.Tracks ledger) : Leads ledger site ledger site :=
  ⟨tracks, fun _ _ leaves => leaves⟩

/-- What is known of a script stays so where nothing new is known under its tickets, or of it. -/
theorem Manages.of_fewer {script : Nat} {handle : Handle}
    (manages : site.Manages ledger script handle)
    (generations : site.generations.next ≤ after.generations.next)
    (nextTicket : site.host.nextTicket ≤ after.host.nextTicket)
    (known : ∀ ticket binding, after.Known later ticket binding →
      ticket ∈ ticketsOf handle.loaded.structures ∨ binding.script = handle.loaded.script →
        site.Known ledger ticket binding) : after.Manages later script handle where
  generation := manages.generation
  past := manages.past.trans_le generations
  used := fun ticket own => (manages.used ticket own).trans_le nextTicket
  own := fun ticket own binding now =>
    manages.own ticket own binding (known ticket binding now (Or.inl own))
  emptied := manages.emptied
  takesBack := fun live ticket binding now isOwn =>
    manages.takesBack live ticket binding (known ticket binding now (Or.inr isOwn)) isOwn

namespace Tracks

theorem known_past (tracks : site.Tracks ledger) {ticket : Nat} {binding : Binding}
    (known : site.Known ledger ticket binding) :
    binding.script.generation < site.generations.next := by
  rcases known with has | ⟨context, waits⟩
  · exact tracks.past ticket binding has
  · exact tracks.current context _ (Context.script_of_mem_awaits waits)

theorem known_used (tracks : site.Tracks ledger) {ticket : Nat} {binding : Binding}
    (known : site.Known ledger ticket binding) : ticket < site.host.nextTicket := by
  rcases known with has | ⟨context, waits⟩
  · exact tracks.follows.used ticket binding has
  · exact (tracks.permits context).used ticket binding waits

/-- Nothing becomes known by what has been known before. -/
theorem of_fewer (tracks : site.Tracks ledger) (generations : after.generations = site.generations)
    (scripts : after.scripts = site.scripts)
    (nextTicket : after.host.nextTicket = site.host.nextTicket)
    (follows : after.host.Follows later)
    (permits : ∀ context, after.host.Permits later (after.contexts context).awaits)
    (awaits : ∀ context, ∀ put ∈ (after.contexts context).awaits,
      put ∈ (site.contexts context).awaits)
    (current : ∀ context script, (after.contexts context).script = some script →
      script.generation < site.generations.next)
    (has : ∀ ticket binding, later.Has ticket binding → site.Known ledger ticket binding)
    (takes : ∀ job ∈ later.waiting, job ∈ ledger.waiting ∨
      ∀ ticket binding, job.takes ticket binding = false) : after.Tracks later := by
  have known {ticket : Nat} {binding : Binding} (new : after.Known later ticket binding) :
      site.Known ledger ticket binding :=
    new.elim (has ticket binding) fun ⟨context, waits⟩ => Or.inr ⟨context, awaits context _ waits⟩
  refine ⟨follows, permits, ?_, generations ▸ current, ?_, ?_, ?_⟩
  · intro first second ticket binding other waits also
    exact tracks.apart first second ticket binding other (awaits first _ waits)
      (awaits second _ also)
  · rw [generations]
    exact fun ticket binding new => tracks.known_past (has ticket binding new)
  · intro script handle found
    rw [scripts] at found
    exact (tracks.manages script handle found).of_fewer (generations ▸ Nat.le_refl _)
      nextTicket.ge fun _ _ new _ => known new
  · intro job member ticket binding takes'
    rcases takes job member with old | never
    · rw [nextTicket, scripts]
      obtain ⟨used, unloaded⟩ := tracks.takes job old ticket binding takes'
      exact ⟨used, fun new => unloaded (known new)⟩
    · rw [never] at takes'
      cases takes'

end Tracks

/-- What is left of a script stays the same when what is submitted has nothing to do with it. -/
theorem Leaves.submit {script : Script} {left : Placement} (leaves : site.Leaves ledger script left)
    (unloaded : ∀ handle, site.scripts script.generation = some handle → handle.unloaded = true →
      ∃ same, after.scripts script.generation = some same ∧
        same.loaded.script = handle.loaded.script ∧ same.unloaded = true)
    (awaits : ∀ context, ∀ put ∈ (after.contexts context).awaits, put.2.script = script →
      put ∈ (site.contexts context).awaits)
    (puts : ∀ job ∈ jobs, ∀ put ∈ job.puts, put.2.script ≠ script)
    (takes : ∀ ticket binding, binding.script = script → ledger.Has ticket binding →
      ∀ job ∈ jobs, job.takes ticket binding = false) :
    after.Leaves (ledger.submit thread jobs) script left := by
  obtain ⟨⟨handle, found, owner, isUnloaded⟩, noneWaits, outcome⟩ := leaves
  obtain ⟨same, kept, sameOwner, still⟩ := unloaded handle found isUnloaded
  refine ⟨⟨same, kept, sameOwner.trans owner, still⟩, ?_, ?_⟩
  · intro context ticket binding waits isOwn
    exact noneWaits context ticket binding (awaits context _ waits isOwn) isOwn
  · intro ticket binding isOwn
    rw [← outcome ticket binding isOwn]
    exact Ledger.outcome_submit_iff (fun job member put => puts job member _ put isOwn)
      (takes ticket binding isOwn)

/-! ## Going on -/

/-- In every context the same script is current, and the same waits for it to be left. -/
theorem same_contexts
    (withdraws : Workspace.Withdraws thread jobs (site.workspace context) workspace)
    (other : Nat) :
    ((site.enter context workspace).contexts other).script = (site.contexts other).script ∧
      ((site.enter context workspace).contexts other).awaits = (site.contexts other).awaits := by
  by_cases here : other = context
  · subst here
    rw [contexts_enter_self]
    exact ⟨withdraws.script, withdraws.awaits⟩
  · rw [contexts_enter_of_ne here]
    exact ⟨rfl, rfl⟩

/-- Nothing happens to a site where nothing is submitted. -/
theorem Tracks.quiet (tracks : site.Tracks ledger)
    (quiet : Workspace.Withdraws .main [] (site.workspace context) workspace) :
    Leads ledger site ledger (site.enter context workspace) where
  tracks := by
    have same := same_contexts quiet
    have follows := quiet.follows ledger tracks.follows
    have permits (other : Nat) := quiet.permits ledger _ (tracks.permits other)
    simp only [Ledger.submit_nil] at follows permits
    refine tracks.of_fewer rfl rfl quiet.nextTicket follows (fun other => ?_)
      (fun other put waits => (same other).2 ▸ waits) (fun other script current => ?_)
      (fun _ _ has => Or.inl has) fun _ member => Or.inl member
    · rw [(same other).2]
      exact permits other
    · rw [(same other).1] at current
      exact tracks.current other script current
  leaves := fun _ _ leaves => ⟨leaves.unloaded, fun other ticket binding waits =>
    leaves.awaits other ticket binding ((same_contexts quiet other).2 ▸ waits), leaves.outcome⟩

/-! ## Leaving scripts -/

/-- What waits after moving on has waited before. -/
theorem awaits_leave (thread : Thread) (context : Nat) (next : Option Script) (site : Site)
    (other : Nat) : ∀ put ∈
      ((site.enter context ((site.workspace context).setScript thread next)).contexts other).awaits,
      put ∈ (site.contexts other).awaits := by
  intro put waits
  by_cases here : other = context
  · subst here
    rw [contexts_enter_self] at waits
    rcases (site.workspace other).setScript_context thread next with ⟨_, none⟩ | ⟨same, _⟩
    · rw [none] at waits
      exact absurd waits List.not_mem_nil
    · rw [same] at waits
      exact waits
  · rwa [contexts_enter_of_ne here] at waits

/-- What moving on submits has waited, and takes nothing back. -/
theorem leavings_spec (context : Nat) (next : Option Script) (site : Site) :
    ∀ job ∈ (site.workspace context).leavings next,
      (∀ put ∈ job.puts, put ∈ (site.contexts context).awaits) ∧
        ∀ ticket binding, job.takes ticket binding = false := by
  intro job member
  rcases (site.workspace context).leavings_cases next with none | ⟨only, one, put, takes⟩
  · rw [none] at member
    exact absurd member List.not_mem_nil
  · rw [one] at member
    rw [List.mem_singleton.mp member, put]
    exact ⟨fun _ waits => waits, takes⟩

/-- Moving on makes nothing known. -/
theorem known_leave {context : Nat} {next : Option Script} {ticket : Nat} {binding : Binding}
    (known : (site.enter context ((site.workspace context).setScript thread next)).Known
      (ledger.submit thread ((site.workspace context).leavings next)) ticket binding) :
    site.Known ledger ticket binding := by
  rcases known with has | ⟨other, waits⟩
  · rcases Ledger.has_submit has with before | ⟨job, member, put⟩
    · exact Or.inl before
    · exact Or.inr ⟨context, (leavings_spec context next site job member).1 _ put⟩
  · exact Or.inr ⟨other, awaits_leave thread context next site other _ waits⟩

theorem Tracks.leave (tracks : site.Tracks ledger) (thread : Thread) (context : Nat)
    (next : Option Script)
    (past : ∀ script, next = some script → script.generation < site.generations.next) :
    Leads ledger site (ledger.submit thread ((site.workspace context).leavings next))
      (site.enter context ((site.workspace context).setScript thread next)) := by
  let workspace := site.workspace context
  have leavings := leavings_spec context next site
  constructor
  case tracks =>
    refine tracks.of_fewer rfl rfl (workspace.setScript_nextTicket thread next)
      (workspace.setScript_follows thread next tracks.follows (tracks.permits context)) ?_
      (awaits_leave thread context next site) ?_ (fun _ _ has => known_leave (Or.inl has)) ?_
    · intro other
      by_cases here : other = context
      · subst here
        rw [contexts_enter_self]
        rcases workspace.setScript_context thread next with ⟨_, none⟩ | ⟨same, none⟩
        · rw [none]
          exact .of_nil
        · change (workspace.setScript thread next).host.Permits
            (ledger.submit thread (workspace.leavings next)) _
          rw [same, none, Ledger.submit_nil]
          exact tracks.permits other
      · rw [contexts_enter_of_ne here]
        refine workspace.setScript_permits thread next (tracks.permits other) ?_
        intro ticket binding waits kept also
        exact here (tracks.apart other context ticket binding kept waits also)
    · intro other script current
      by_cases here : other = context
      · subst here
        rw [contexts_enter_self] at current
        rcases workspace.setScript_context thread next with ⟨moved, _⟩ | ⟨same, _⟩
        · exact past script (moved.symm.trans current)
        · rw [same] at current
          exact tracks.current other script current
      · rw [contexts_enter_of_ne here] at current
        exact tracks.current other script current
    · intro job member
      cases thread with
      | main => exact Or.inl member
      | worker =>
        exact (List.mem_append.mp member).imp_right fun new => (leavings job new).2
  case leaves =>
    intro script left leaves
    refine leaves.submit (fun handle found unloaded => ⟨handle, found, rfl, unloaded⟩)
      (fun other put waits _ => awaits_leave thread context next site other put waits) ?_
      fun ticket binding _ _ job member => (leavings job member).2 ticket binding
    exact fun job member put there =>
      leaves.awaits context put.1 put.2 ((leavings job member).1 put there)

/-! ## Draining the queue -/

theorem Tracks.drain (tracks : site.Tracks ledger) :
    Leads ledger site ledger.drain (site.step .drain) where
  tracks := by
    have step := Host.performAll_step ledger.waiting
      { site.host with queue := site.host.queue.drain.2 }
    refine tracks.of_fewer rfl rfl ?_ tracks.follows.drain
      (fun context => (tracks.permits context).drain tracks.follows)
      (fun _ _ waits => waits) tracks.current
      (fun ticket binding has => Or.inl (Ledger.has_of_outcome (Ledger.has_drain has)))
      (fun _ member => absurd member List.not_mem_nil)
    change (site.host.runPending .main).2.nextTicket = _
    rw [Host.runPending_main tracks.follows.queue]
    exact step.nextTicket
  leaves := fun _ _ leaves => ⟨leaves.unloaded, leaves.awaits, leaves.outcome⟩

/-! ## Taking back -/

/-- What may become of a script when jobs are submitted that take back what is under its tickets. -/
structure Reduces (ledger : Ledger) (site : Site) (thread : Thread) (jobs : List Job)
    (before after : Handle) : Prop where
  owner : after.loaded.script = before.loaded.script
  tickets : ∀ ticket ∈ ticketsOf after.loaded.structures,
    ticket ∈ ticketsOf before.loaded.structures
  unloaded : before.unloaded = true → after.unloaded = true
  emptied : after.unloaded = true → after.loaded.structures = []
  withdraws : ∀ job ∈ jobs, job.puts = [] ∧ ∀ ticket binding, job.takes ticket binding = true →
    ticket ∈ ticketsOf before.loaded.structures
  /-- A job that waits is one of a script that has been unloaded. -/
  waits : thread = .worker → jobs = [] ∨ after.unloaded = true
  takesBack : after.unloaded = false → ∀ ticket binding,
    site.Known (ledger.submit thread jobs) ticket binding →
      before.loaded.TakesBack ticket binding → after.loaded.TakesBack ticket binding

section Withdrawal

variable {script : Nat} {before handle : Handle}

/-- Taking back makes nothing known. -/
theorem known_withdraw
    (withdraws : Workspace.Withdraws thread jobs (site.workspace context) workspace)
    (noPuts : ∀ job ∈ jobs, job.puts = []) {ticket : Nat} {binding : Binding}
    (known : ((site.enter context workspace).keep script handle).Known
      (ledger.submit thread jobs) ticket binding) : site.Known ledger ticket binding := by
  rcases known with has | ⟨other, waits⟩
  · rcases Ledger.has_submit has with old | ⟨job, member, put⟩
    · exact Or.inl old
    · rw [noPuts job member] at put
      exact absurd put List.not_mem_nil
  · exact Or.inr ⟨other, (same_contexts withdraws other).2 ▸ waits⟩

/-- What is known of the script itself. -/
theorem Manages.withdraw (manages : site.Manages ledger script before)
    (withdraws : Workspace.Withdraws thread jobs (site.workspace context) workspace)
    (reduces : site.Reduces ledger thread jobs before handle) :
    ((site.enter context workspace).keep script handle).Manages (ledger.submit thread jobs) script
      handle where
  generation := reduces.owner ▸ manages.generation
  past := manages.past
  used := by
    intro ticket own
    exact (manages.used ticket (reduces.tickets ticket own)).trans_eq withdraws.nextTicket.symm
  own := by
    intro ticket own binding new
    rw [reduces.owner]
    exact manages.own ticket (reduces.tickets ticket own) binding
      (known_withdraw withdraws (fun job member => (reduces.withdraws job member).1) new)
  emptied := reduces.emptied
  takesBack := by
    intro live ticket binding new isOwn
    rw [reduces.owner] at isOwn
    have wasLive : before.unloaded = false := by
      rw [← Bool.not_eq_true]
      intro unloaded
      rw [reduces.unloaded unloaded] at live
      cases live
    have known := known_withdraw withdraws (fun job member => (reduces.withdraws job member).1) new
    refine reduces.takesBack live ticket binding ?_
      (manages.takesBack wasLive ticket binding known isOwn)
    exact new.imp_right fun ⟨other, waits⟩ => ⟨other, (same_contexts withdraws other).2 ▸ waits⟩

/-- What is going to be taken back then is of scripts that have been unloaded, as this one has been
if its own jobs have to wait. -/
theorem Tracks.takes_withdraw (tracks : site.Tracks ledger)
    (found : site.scripts script = some before)
    (reduces : site.Reduces ledger thread jobs before handle) {job : Job}
    (member : job ∈ (ledger.submit thread jobs).waiting) {ticket : Nat} {binding : Binding}
    (takes : job.takes ticket binding = true) :
    ticket < site.host.nextTicket ∧ (site.Known ledger ticket binding → ∀ kept,
      (site.keep script handle).scripts binding.script.generation = some kept →
        binding.script = kept.loaded.script → kept.unloaded = true) := by
  have new : job ∈ ledger.waiting ∨ thread = .worker ∧ job ∈ jobs := by
    cases thread with
    | main => exact Or.inl member
    | worker => exact (List.mem_append.mp member).imp_right fun now => ⟨rfl, now⟩
  rcases new with old | ⟨rfl, now⟩
  · obtain ⟨used, unloaded⟩ := tracks.takes job old ticket binding takes
    refine ⟨used, fun known kept found' isOwn => ?_⟩
    rcases of_scripts_keep found' with ⟨here, rfl⟩ | ⟨_, old⟩
    · rw [here] at unloaded
      exact reduces.unloaded (unloaded known before found (isOwn.trans reduces.owner))
    · exact unloaded known kept old isOwn
  · have manages := tracks.manages script before found
    have own := (reduces.withdraws job now).2 ticket binding takes
    refine ⟨manages.used ticket own, fun known kept found' _ => ?_⟩
    have owner := manages.own ticket own binding known
    have unloaded : handle.unloaded = true := by
      rcases reduces.waits rfl with none | unloaded
      · rw [none] at now
        exact absurd now List.not_mem_nil
      · exact unloaded
    rcases of_scripts_keep found' with ⟨_, rfl⟩ | ⟨apart, _⟩
    · exact unloaded
    · exact absurd (owner ▸ manages.generation) apart

theorem Tracks.tracks_withdraw (tracks : site.Tracks ledger)
    (found : site.scripts script = some before)
    (withdraws : Workspace.Withdraws thread jobs (site.workspace context) workspace)
    (reduces : site.Reduces ledger thread jobs before handle) :
    ((site.enter context workspace).keep script handle).Tracks (ledger.submit thread jobs) := by
  have same := same_contexts withdraws
  have known {ticket : Nat} {binding : Binding}
      (new : ((site.enter context workspace).keep script handle).Known
        (ledger.submit thread jobs) ticket binding) : site.Known ledger ticket binding :=
    known_withdraw withdraws (fun job member => (reduces.withdraws job member).1) new
  have nextTicket : workspace.host.nextTicket = site.host.nextTicket := withdraws.nextTicket
  constructor
  case follows => exact withdraws.follows ledger tracks.follows
  case permits =>
    intro other
    change workspace.host.Permits _ ((site.enter context workspace).contexts other).awaits
    rw [(same other).2]
    exact withdraws.permits ledger _ (tracks.permits other)
  case apart =>
    intro first second ticket binding other waits also
    exact tracks.apart first second ticket binding other ((same first).2 ▸ waits)
      ((same second).2 ▸ also)
  case current =>
    exact fun other script current => tracks.current other script ((same other).1 ▸ current)
  case past => exact fun ticket binding has => tracks.known_past (known (Or.inl has))
  case manages =>
    intro other kept found'
    rcases of_scripts_keep found' with ⟨rfl, rfl⟩ | ⟨_, old⟩
    · exact (tracks.manages other before found).withdraw withdraws reduces
    · exact (tracks.manages other kept old).of_fewer (Nat.le_refl _) nextTicket.ge
        fun _ _ new _ => known new
  case takes =>
    intro job member ticket binding takes
    obtain ⟨used, unloaded⟩ := tracks.takes_withdraw found reduces member takes
    exact ⟨used.trans_eq nextTicket.symm, fun new => unloaded (known new)⟩

/-- What has been left of other scripts has no ticket of this one. -/
theorem Leaves.withdraw {gone : Script} {left : Placement} (leaves : site.Leaves ledger gone left)
    (manages : site.Manages ledger script before) (found : site.scripts script = some before)
    (withdraws : Workspace.Withdraws thread jobs (site.workspace context) workspace)
    (reduces : site.Reduces ledger thread jobs before handle) :
    ((site.enter context workspace).keep script handle).Leaves (ledger.submit thread jobs) gone
      left := by
  refine leaves.submit ?_ ?_ ?_ ?_
  · intro kept found' unloaded
    by_cases here : gone.generation = script
    · rw [here, found] at found'
      obtain rfl := Option.some.inj found'
      exact ⟨handle, here ▸ scripts_keep_self .., reduces.owner, reduces.unloaded unloaded⟩
    · exact ⟨kept, (scripts_keep_of_ne here ..).trans found', rfl, unloaded⟩
  · exact fun other put waits _ => (same_contexts withdraws other).2 ▸ waits
  · intro job member put now
    rw [(reduces.withdraws job member).1] at now
    exact absurd now List.not_mem_nil
  · intro ticket binding isOwn has job member
    rw [← Bool.not_eq_true]
    intro takes
    have own := (reduces.withdraws job member).2 ticket binding takes
    have owner := manages.own ticket own binding (Or.inl has)
    obtain ⟨kept, found', _, unloaded⟩ := leaves.unloaded
    have here : gone.generation = script := by
      rw [← manages.generation, ← owner, isOwn]
    rw [here, found] at found'
    obtain rfl := Option.some.inj found'
    rw [manages.emptied unloaded] at own
    exact absurd own List.not_mem_nil

theorem Tracks.withdraw (tracks : site.Tracks ledger) (found : site.scripts script = some before)
    (withdraws : Workspace.Withdraws thread jobs (site.workspace context) workspace)
    (reduces : site.Reduces ledger thread jobs before handle) :
    Leads ledger site (ledger.submit thread jobs)
      ((site.enter context workspace).keep script handle) where
  tracks := tracks.tracks_withdraw found withdraws reduces
  leaves := fun _ _ leaves =>
    leaves.withdraw (tracks.manages script before found) found withdraws reduces

end Withdrawal

/-- What else is kept of a script does not matter. -/
theorem Reduces.of_same {before after : Handle} {script : Nat}
    (manages : site.Manages ledger script before)
    (owner : after.loaded.script = before.loaded.script)
    (structures : after.loaded.structures = before.loaded.structures)
    (unloaded : after.unloaded = before.unloaded) : site.Reduces ledger thread [] before after where
  owner := owner
  tickets := fun _ own => structures ▸ own
  unloaded := fun was => unloaded.trans was
  emptied := fun is => structures.trans (manages.emptied (unloaded ▸ is))
  withdraws := fun _ absent => absurd absent List.not_mem_nil
  waits := fun _ => Or.inl rfl
  takesBack := by
    rintro _ ticket binding _ ⟨own, takes⟩
    exact ⟨own.trans owner.symm, structures ▸ takes⟩

theorem enter_workspace (context : Nat) (site : Site) :
    site.enter context (site.workspace context) = site := by
  simp only [enter, Site.workspace, Function.update_eq_self]

/-- Nothing happens to a site where something else is noted about a script. -/
theorem Tracks.keepSame (tracks : site.Tracks ledger) {script : Nat} {before : Handle}
    (found : site.scripts script = some before) (after : Handle)
    (owner : after.loaded.script = before.loaded.script)
    (structures : after.loaded.structures = before.loaded.structures)
    (unloaded : after.unloaded = before.unloaded) :
    Leads ledger site ledger (site.keep script after) := by
  have kept := tracks.withdraw found
    (show Workspace.Withdraws .main [] (site.workspace 0) _ from .refl _)
    (show site.Reduces ledger .main [] before after from
      .of_same (tracks.manages script before found) owner structures unloaded)
  rwa [Ledger.submit_nil, enter_workspace] at kept

/-- What unloading submits takes back what is under tickets of the script. -/
theorem Reduces.unload {handle : Handle} {structures : List LoadedStructure}
    (own : ∀ loaded ∈ structures, loaded ∈ handle.loaded.structures) :
    site.Reduces ledger thread (structures.flatMap Loading.withdrawals) handle handle.unload where
  owner := rfl
  tickets := fun _ absent => absurd absent List.not_mem_nil
  unloaded := fun _ => rfl
  emptied := fun _ => rfl
  withdraws := by
    intro job member
    obtain ⟨loaded, there, withdraws⟩ := List.mem_flatMap.mp member
    obtain ⟨noPuts, takes⟩ := Loading.withdrawals_spec withdraws
    exact ⟨noPuts, fun ticket binding taken =>
      mem_ticketsOf.mpr ⟨loaded, own loaded there, takes ticket binding taken⟩⟩
  waits := fun _ => Or.inr rfl
  takesBack := fun live => nomatch live

/-- What is left of a script when it is unloaded is what the main thread has not waited for. -/
theorem Tracks.withdraw_leaves (tracks : site.Tracks ledger) {script : Nat} {handle : Handle}
    (found : site.scripts script = some handle) (live : handle.unloaded = false)
    (noneWaits : ∀ context, ∀ put ∈ (site.contexts context).awaits,
      put.2.script ≠ handle.loaded.script)
    (withdraws : Workspace.Withdraws thread
      (handle.loaded.structures.reverse.flatMap Loading.withdrawals) (site.workspace context)
      workspace) :
    ((site.enter context workspace).keep script handle.unload).Leaves
      (ledger.submit thread (handle.loaded.structures.reverse.flatMap Loading.withdrawals))
      handle.loaded.script fun ticket binding => thread = .main ∧ (ticket, binding) ∈ ledger.puts := by
  have manages := tracks.manages script handle found
  have reduces : site.Reduces ledger thread _ handle handle.unload :=
    Reduces.unload fun loaded member => List.mem_reverse.mp member
  refine ⟨⟨handle.unload, ?_, rfl, rfl⟩, ?_, ?_⟩
  · rw [manages.generation]
    exact Function.update_self ..
  · intro other ticket binding waits
    have same := (same_contexts withdraws other).2
    exact noneWaits other _ (same ▸ waits)
  · intro ticket binding isOwn
    refine Ledger.outcome_submit_of_taken (fun job member put => ?_) (fun has job member => ?_)
      fun has => ?_
    · rw [(reduces.withdraws job member).1] at put
      exact List.not_mem_nil put
    · rw [← Bool.not_eq_true]
      intro takes
      have unloaded := (tracks.takes job member ticket binding takes).2 (Or.inl has) handle
        (by rw [isOwn, manages.generation, found]) isOwn
      rw [live] at unloaded
      cases unloaded
    · obtain ⟨_, inner, member, job, withdrawn, takes⟩ :=
        manages.takesBack live ticket binding (Or.inl has) isOwn
      exact ⟨job, List.mem_flatMap.mpr ⟨inner, List.mem_reverse.mpr member, withdrawn⟩, takes⟩

/-! ## Unloading scripts -/

/-- Unloading a script that no other parser works on leaves exactly what the main thread has not
waited for. -/
theorem Tracks.unload (tracks : site.Tracks ledger) (thread : Thread) (context : Nat) {script : Nat}
    {handle : Handle} (found : site.scripts script = some handle) :
    ∃ later, Leads ledger site later (site.step (.unload thread context script)) ∧
      (handle.unloaded = false →
        (∀ other ≠ context, (site.contexts other).script ≠ some handle.loaded.script) →
        (site.step (.unload thread context script)).Leaves later handle.loaded.script
          fun ticket binding => thread = .main ∧ (ticket, binding) ∈ ledger.puts) := by
  let workspace := site.workspace context
  let finished := workspace.setScript thread none
  let started := finished.setScript thread (some handle.loaded.script)
  let unloaded :=
    (Loading.each (Loading.unload thread) handle.loaded.structures.reverse started).2
  let ended := unloaded.setScript thread none
  let swept := ended.inHost fun host =>
    { host with functions := (host.functions.withdrawScript handle.loaded.script).2 }
  have manages := tracks.manages script handle found
  have isAfter : site.step (.unload thread context script) =
      (site.enter context swept).keep script handle.unload := by
    unfold step
    dsimp only
    rw [found]
    rfl
  have first := tracks.leave thread context none fun _ absent => nomatch absent
  have second := first.tracks.leave thread context (some handle.loaded.script) (by
    intro other same
    obtain rfl := Option.some.inj same
    exact manages.generation ▸ manages.past)
  rw [workspace_enter, enter_enter] at second
  have taken : Workspace.Withdraws thread
      (handle.loaded.structures.reverse.flatMap Loading.withdrawals)
      ((site.enter context started).workspace context) unloaded := by
    rw [workspace_enter]
    exact Loading.each_unload_withdraws thread _ started
  have third := second.tracks.withdraw found taken
    (Reduces.unload fun loaded member => List.mem_reverse.mp member)
  rw [enter_enter] at third
  have fourth := third.tracks.leave thread context none fun _ absent => nomatch absent
  rw [workspace_keep, workspace_enter, keep_enter, enter_enter] at fourth
  have quiet : Workspace.Withdraws .main [] ended swept := by
    refine ⟨rfl, rfl, rfl, fun ledger follows => ?_, fun ledger puts permits => ?_⟩
    · rw [Ledger.submit_nil]
      exact follows.of_same rfl rfl rfl rfl rfl rfl (Nat.le_refl _)
    · rw [Ledger.submit_nil]
      exact permits.of_same rfl (Nat.le_refl _)
  have last := fourth.tracks.quiet (by rw [workspace_keep, workspace_enter]; exact quiet)
  rw [keep_enter, enter_enter] at last
  rw [isAfter]
  refine ⟨_, (((first.trans second).trans third).trans fourth).trans last, fun live others => ?_⟩
  have none : started.context.awaits = [] :=
    Workspace.awaits_setScript thread _ (Workspace.awaits_finish thread workspace)
  have left := second.tracks.withdraw_leaves found live (by
    intro other put waits
    by_cases here : other = context
    · subst here
      rw [contexts_enter_self, none] at waits
      exact absurd waits List.not_mem_nil
    · rw [contexts_enter_of_ne here] at waits
      intro same
      exact others other here (same ▸ Context.script_of_mem_awaits waits)) taken
  rw [enter_enter] at left
  have overtaken (jobs others : List Job) : (fun ticket binding => thread = Thread.main ∧
      (ticket, binding) ∈ ((ledger.submit thread jobs).submit thread others).puts) =
        fun ticket binding => thread = Thread.main ∧ (ticket, binding) ∈ ledger.puts := by
    cases thread with
    | main => rfl
    | worker =>
      funext ticket binding
      exact propext (iff_of_false (fun left => nomatch left.1) fun left => nomatch left.1)
  rw [overtaken] at left
  exact last.leaves _ _ (fourth.leaves _ _ left)

/-! ## Settling scripts -/

/-- What becomes of a script when one of its structures is settled. -/
theorem Reduces.replace {handle : Handle} {script : Nat} {done rest : List LoadedStructure}
    {first changed : LoadedStructure} (manages : site.Manages ledger script handle)
    (whole : handle.loaded.structures = done ++ first :: rest)
    (same : changed.inner = first.inner)
    (withdraws : ∀ job ∈ jobs, job.puts = [] ∧ ∀ ticket binding,
      job.takes ticket binding = true → first.inner.ticket? = some ticket)
    (takesBack : ∀ ticket binding, site.Known (ledger.submit .main jobs) ticket binding →
      (∃ job ∈ Loading.withdrawals first, job.takes ticket binding = true) →
      ∃ job ∈ Loading.withdrawals changed, job.takes ticket binding = true) :
    site.Reduces ledger .main jobs handle (handle.holding (done ++ changed :: rest)) where
  owner := rfl
  tickets := by
    intro ticket own
    obtain ⟨loaded, member, found⟩ := mem_ticketsOf.mp own
    rw [whole]
    rcases List.mem_append.mp member with early | late
    · exact mem_ticketsOf.mpr ⟨loaded, List.mem_append_left _ early, found⟩
    · rcases List.mem_cons.mp late with rfl | later
      · exact mem_ticketsOf.mpr
          ⟨first, List.mem_append_right _ List.mem_cons_self, same ▸ found⟩
      · exact mem_ticketsOf.mpr
          ⟨loaded, List.mem_append_right _ (List.mem_cons_of_mem _ later), found⟩
  unloaded := id
  emptied := by
    intro unloaded
    rw [manages.emptied unloaded] at whole
    exact absurd whole.symm (List.append_ne_nil_of_right_ne_nil done (List.cons_ne_nil first rest))
  withdraws := by
    intro job member
    obtain ⟨noPuts, takes⟩ := withdraws job member
    refine ⟨noPuts, fun ticket binding taken => mem_ticketsOf.mpr ⟨first, ?_,
      takes ticket binding taken⟩⟩
    rw [whole]
    exact List.mem_append_right _ List.mem_cons_self
  waits := fun absent => nomatch absent
  takesBack := by
    rintro live ticket binding known ⟨owner, inner, member, takes⟩
    rw [whole] at member
    refine ⟨owner, ?_⟩
    rcases List.mem_append.mp member with early | late
    · exact ⟨inner, List.mem_append_left _ early, takes⟩
    · rcases List.mem_cons.mp late with rfl | later
      · exact ⟨changed, List.mem_append_right _ List.mem_cons_self,
          takesBack ticket binding known takes⟩
      · exact ⟨inner, List.mem_append_right _ (List.mem_cons_of_mem _ later), takes⟩

/-- To settle a structure is to change nothing, or to give up its command. What fails then is not
known any more. -/
theorem Tracks.settle_withdraws (tracks : site.Tracks ledger) (context : Nat)
    (first : LoadedStructure) (info : ScriptInfo) :
    ∃ jobs : List Job,
      Workspace.Withdraws .main jobs (site.workspace context)
        (first.inner.settle info (site.workspace context)).2.2 ∧
      (∀ job ∈ jobs, job.puts = [] ∧ ∀ ticket binding, job.takes ticket binding = true →
        first.inner.ticket? = some ticket) ∧
      ((first.inner.settle info (site.workspace context)).1 ≠ .done () →
        ∀ ticket binding, site.Known (ledger.submit .main jobs) ticket binding →
          ∀ job ∈ Loading.withdrawals first, job.takes ticket binding = false) := by
  rcases first.inner.settle_withdraws info (site.workspace context) with ⟨done, withdraws⟩ |
    ⟨command, text, isCommand, refused, withdraws⟩
  · refine ⟨[], withdraws, fun _ absent => absurd absent List.not_mem_nil, ?_⟩
    intro fails ticket binding _ job member
    rw [← Bool.not_eq_true]
    exact fun takes => fails (done ticket ((Loading.withdrawals_spec member).2 ticket binding takes))
  · have withdrawals : first.inner.withdrawals = [.unregister command.ticket] := by
      rw [isCommand]
      rfl
    refine ⟨_, withdraws, fun job member => ?_, ?_⟩
    · rw [← withdrawals] at member
      exact Structure.withdrawals_spec member
    · intro _ ticket binding known job member
      rw [← Bool.not_eq_true]
      intro takes
      have taken : (Job.unregister command.ticket).takes ticket binding = true := by
        unfold Loading.withdrawals at member
        split at member
        · rw [withdrawals] at member
          rwa [List.mem_singleton.mp member] at takes
        · exact absurd member List.not_mem_nil
      have same : command.ticket = ticket := by
        cases binding with
        | trigger script draft => cases taken
        | command order => exact beq_iff_eq.mp taken
      have used : site.host.registrations ticket ≠ {} := by
        intro unused
        rw [same] at refused
        change (site.host.registrations ticket).refusal = some text at refused
        rw [unused] at refused
        cases refused
      rcases known with (placed | waits) | ⟨other, waits⟩
      · rcases placed with put | ⟨_, stays⟩
        · exact absurd put List.not_mem_nil
        · rw [taken] at stays
          cases stays
      · exact used (tracks.follows.admits.unused ticket binding waits)
      · exact used ((tracks.permits other).unused ticket binding waits)

theorem Tracks.settle (tracks : site.Tracks ledger) (thread : Thread) (context : Nat) {script : Nat}
    {handle : Handle} (found : site.scripts script = some handle) {done rest : List LoadedStructure}
    {first : LoadedStructure} (whole : handle.loaded.structures = done ++ first :: rest)
    (settlement : Loading.Settlement) :
    let result := Loading.settle thread handle.loaded.script first settlement
      (site.workspace context)
    ∃ later, Leads ledger site later ((site.enter context result.2.2).keep script
      (handle.holding (done ++ result.1 :: rest))) := by
  have manages := tracks.manages script handle found
  obtain ⟨jobs, withdraws, spec, given⟩ :=
    tracks.settle_withdraws context first settlement.info
  unfold Loading.settle
  dsimp only
  split
  · split
    · next isDone =>
      refine ⟨_, tracks.withdraw found (withdraws.quiet (.of_quiet (.noteCall _ _)))
        (.replace manages whole rfl spec fun _ _ _ takes => takes)⟩
    · next failure fails =>
      have failed : (first.inner.settle settlement.info (site.workspace context)).1 ≠ .done () := by
        intro isDone
        rw [isDone] at fails
        cases fails
      let changed : LoadedStructure := { first with loaded := false }
      have taken := tracks.withdraw found
        (withdraws.quiet (.of_quiet (.noteCall ⟨.settle, first.index, false⟩ _)))
        (show site.Reduces ledger .main jobs handle (handle.holding (done ++ changed :: rest)) from
          .replace manages whole rfl spec (by
            rintro ticket binding known ⟨job, member, takes⟩
            rw [given failed ticket binding known job member] at takes
            cases takes))
      have left := taken.tracks.leave thread context (some handle.loaded.script) (by
        intro other same
        obtain rfl := Option.some.inj same
        exact manages.generation ▸ manages.past)
      rw [workspace_keep, workspace_enter, keep_enter, enter_enter] at left
      have last := left.tracks.quiet (by
        rw [workspace_keep, workspace_enter]
        exact .of_still (.reportAt first.line failure _))
      rw [keep_enter, enter_enter] at last
      exact ⟨_, (taken.trans left).trans last⟩
  · exact ⟨ledger.submit .main [], tracks.withdraw found (.refl _)
      (.replace manages whole rfl (fun _ absent => absurd absent List.not_mem_nil)
        fun _ _ _ takes => takes)⟩

theorem Tracks.settleAll (thread : Thread) (context : Nat) {script : Nat}
    (rest : List LoadedStructure) : ∀ {site : Site} {ledger : Ledger} (_ : site.Tracks ledger)
    {handle : Handle} (_ : site.scripts script = some handle) (done : List LoadedStructure)
    (_ : handle.loaded.structures = done ++ rest) (settlement : Loading.Settlement),
    let result := Loading.settleAll thread handle.loaded.script rest settlement
      (site.workspace context)
    ∃ later, Leads ledger site later ((site.enter context result.2.2).keep script
      (handle.holding (done ++ result.1))) := by
  induction rest with
  | nil =>
    intro site ledger tracks handle found done whole _
    rw [List.append_nil] at whole
    have same : handle.holding (done ++ []) = handle := by
      rw [List.append_nil, ← whole]
      rfl
    refine ⟨ledger, ?_⟩
    dsimp only [Loading.settleAll]
    rw [same, enter_workspace]
    exact tracks.keepSame found handle rfl rfl rfl
  | cons first others ih =>
    intro site ledger tracks handle found done whole settlement
    obtain ⟨between, one⟩ := tracks.settle thread context found whole settlement
    generalize settles : Loading.settle thread handle.loaded.script first settlement
      (site.workspace context) = result at one
    obtain ⟨changed, settled, after⟩ := result
    obtain ⟨later, rest⟩ := ih one.tracks (scripts_keep_self ..) (done ++ [changed])
      (List.append_cons done changed others) settled
    dsimp only at rest
    rw [workspace_keep, workspace_enter, keep_enter, enter_enter, keep_keep,
      ← List.append_cons] at rest
    refine ⟨later, one.trans ?_⟩
    dsimp only [Loading.settleAll]
    rw [settles]
    exact rest

theorem Tracks.settleScript (tracks : site.Tracks ledger) (thread : Thread) (context : Nat)
    {script : Nat} {handle : Handle} (found : site.scripts script = some handle) :
    ∃ later, Leads ledger site later (site.step (.settle thread context script)) := by
  obtain ⟨between, settles⟩ := Tracks.settleAll thread context handle.loaded.structures tracks found
    [] rfl ⟨handle.loaded.info, 0⟩
  have left := settles.tracks.leave thread context none fun _ absent => nomatch absent
  rw [workspace_keep, workspace_enter, keep_enter, enter_enter] at left
  let result := Loading.settleScript thread handle.loaded (site.workspace context)
  have last := left.tracks.keepSame (scripts_keep_self ..) ⟨result.1.1, handle.unloaded⟩ rfl rfl rfl
  rw [keep_keep] at last
  have isAfter : site.step (.settle thread context script) =
      (site.enter context (result.2.setScript thread none)).keep script
        ⟨result.1.1, handle.unloaded⟩ := by
    unfold step
    dsimp only
    rw [found]
    rfl
  rw [isAfter]
  exact ⟨_, (settles.trans left).trans last⟩

/-! ## Loading scripts -/

/-- Generations are handed out. -/
theorem Tracks.advance (tracks : site.Tracks ledger) {generations : GenerationCounter}
    (later : site.generations.next ≤ generations.next) :
    Leads ledger site ledger { site with generations } where
  tracks := by
    refine ⟨tracks.follows, tracks.permits, tracks.apart, ?_, ?_, ?_, tracks.takes⟩
    · exact fun context script current => (tracks.current context script current).trans_le later
    · exact fun ticket binding has => (tracks.past ticket binding has).trans_le later
    · intro script handle found
      exact (tracks.manages script handle found).of_fewer later (Nat.le_refl _)
        fun _ _ known _ => known
  leaves := fun _ _ leaves => ⟨leaves.unloaded, leaves.awaits, leaves.outcome⟩

section Admission

variable {script : Script} {loaded : LoadedScript} {handed : List (Nat × Command)}
  (pass : Loading.WorkerPass Possible site.registry script (site.workspace context) loaded
    workspace handed)

include pass

/-- What is known once a script is loaded has been known before, or unloading the script takes it
back. -/
theorem known_load {number : Nat} {handle : Handle} {ticket : Nat} {binding : Binding}
    (known : ((site.enter context workspace).keep number handle).Known
      (ledger.submit .worker (handed.map Job.ofCommand)) ticket binding) :
    site.Known ledger ticket binding ∨ loaded.TakesBack ticket binding := by
  rcases known with has | ⟨other, waits⟩
  · exact (pass.has has).imp Or.inl And.left
  · change (ticket, binding) ∈ ((site.enter context workspace).contexts other).awaits at waits
    rcases contexts_enter_cases context workspace site other with ⟨_, whole⟩ | ⟨_, whole⟩
    · rw [whole] at waits
      exact Or.inr (pass.takesBack_of_awaits waits).1
    · rw [whole] at waits
      exact Or.inl (Or.inr ⟨other, waits⟩)

/-- Nothing new is known under a ticket that has been handed out before. -/
theorem known_load_used {number : Nat} {handle : Handle} {ticket : Nat} {binding : Binding}
    (known : ((site.enter context workspace).keep number handle).Known
      (ledger.submit .worker (handed.map Job.ofCommand)) ticket binding)
    (used : ticket < site.host.nextTicket) : site.Known ledger ticket binding :=
  (known_load pass known).resolve_right fun takesBack =>
    Nat.not_lt.mpr (pass.fresh ticket takesBack.mem_ticketsOf).1 used

/-- No ticket of the script waits anywhere else. -/
theorem Tracks.apart_load (tracks : site.Tracks ledger) {first second ticket : Nat}
    {binding other : Binding}
    (waits : (ticket, binding) ∈ ((site.enter context workspace).contexts first).awaits)
    (also : (ticket, other) ∈ ((site.enter context workspace).contexts second).awaits) :
    first = second := by
  have fresh {second ticket : Nat} {binding kept : Binding}
      (waits : (ticket, binding) ∈ workspace.context.awaits)
      (also : (ticket, kept) ∈ (site.contexts second).awaits) : False :=
    Nat.not_lt.mpr (pass.fresh ticket (pass.takesBack_of_awaits waits).1.mem_ticketsOf).1
      ((tracks.permits second).used ticket kept also)
  rcases contexts_enter_cases context workspace site first with ⟨here, whole⟩ | ⟨_, whole⟩ <;>
    rcases contexts_enter_cases context workspace site second with ⟨there, kept⟩ | ⟨_, kept⟩ <;>
      rw [whole] at waits <;> rw [kept] at also
  · exact here.trans there.symm
  · exact (fresh waits also).elim
  · exact (fresh also waits).elim
  · exact tracks.apart first second ticket binding other waits also

/-- What is known of the script itself. -/
theorem Tracks.manages_load (tracks : site.Tracks ledger)
    (past : script.generation < site.generations.next)
    (unknown : ∀ ticket binding, site.Known ledger ticket binding →
      binding.script.generation ≠ script.generation) :
    ((site.enter context workspace).keep script.generation ⟨loaded, false⟩).Manages
      (ledger.submit .worker (handed.map Job.ofCommand)) script.generation ⟨loaded, false⟩ where
  generation := congrArg Script.generation pass.owner
  past := past
  used := fun ticket own => (pass.fresh ticket own).2
  own := by
    intro ticket own binding now
    rcases known_load pass now with known | takesBack
    · exact absurd (tracks.known_used known) (Nat.not_lt.mpr (pass.fresh ticket own).1)
    · exact takesBack.1
  emptied := fun unloaded => nomatch unloaded
  takesBack := by
    intro _ ticket binding now isOwn
    refine (known_load pass now).resolve_left fun known => unknown ticket binding known ?_
    rw [isOwn]
    exact congrArg Script.generation pass.owner

theorem Tracks.tracks_load (tracks : site.Tracks ledger)
    (past : script.generation < site.generations.next)
    (unknown : ∀ ticket binding, site.Known ledger ticket binding →
      binding.script.generation ≠ script.generation) :
    ((site.enter context workspace).keep script.generation ⟨loaded, false⟩).Tracks
      (ledger.submit .worker (handed.map Job.ofCommand)) := by
  constructor
  case follows => exact pass.follows tracks.follows
  case permits =>
    intro other
    change workspace.host.Permits _ ((site.enter context workspace).contexts other).awaits
    rcases contexts_enter_cases context workspace site other with ⟨_, whole⟩ | ⟨_, whole⟩
    · exact whole ▸ pass.permits_awaits tracks.follows
    · exact whole ▸ pass.permits (tracks.permits other)
  case apart => exact fun _ _ _ _ _ => tracks.apart_load pass
  case current =>
    intro other next isCurrent
    change ((site.enter context workspace).contexts other).script = some next at isCurrent
    rcases contexts_enter_cases context workspace site other with ⟨_, whole⟩ | ⟨_, whole⟩
    · rw [whole, pass.current] at isCurrent
      exact Option.some.inj isCurrent ▸ past
    · rw [whole] at isCurrent
      exact tracks.current other next isCurrent
  case past =>
    intro ticket binding has
    rcases pass.has has with before | ⟨takesBack, _⟩
    · exact tracks.past ticket binding before
    · rw [takesBack.1, pass.owner]
      exact past
  case manages =>
    intro other kept found
    rcases of_scripts_keep found with ⟨rfl, rfl⟩ | ⟨apart, before⟩
    · exact tracks.manages_load pass past unknown
    · have manages := tracks.manages other kept before
      refine manages.of_fewer (Nat.le_refl _) pass.later fun ticket binding now whose => ?_
      rcases whose with own | isOwn
      · exact known_load_used pass now (manages.used ticket own)
      · refine (known_load pass now).resolve_right fun takesBack => apart ?_
        rw [← manages.generation, ← isOwn, takesBack.1, pass.owner]
  case takes =>
    intro job member ticket binding takes
    have waited : job ∈ ledger.waiting := by
      rcases List.mem_append.mp member with before | now
      · exact before
      · obtain ⟨_, _, rfl⟩ := List.mem_map.mp now
        cases takes
    obtain ⟨used, unloaded⟩ := tracks.takes job waited ticket binding takes
    refine ⟨used.trans_le pass.later, fun now kept found isOwn => ?_⟩
    have before := known_load_used pass now used
    rcases of_scripts_keep found with ⟨same, _⟩ | ⟨_, found⟩
    · exact absurd same (unknown ticket binding before)
    · exact unloaded before kept found isOwn

/-- Loading a script has nothing to do with what has been left of others. -/
theorem Leaves.load {gone : Script} {left : Placement} (leaves : site.Leaves ledger gone left)
    (new : site.scripts script.generation = none) (handle : Handle) :
    ((site.enter context workspace).keep script.generation handle).Leaves
      (ledger.submit .worker (handed.map Job.ofCommand)) gone left := by
  have generation : gone.generation ≠ script.generation := by
    intro same
    obtain ⟨kept, found, _⟩ := leaves.unloaded
    rw [same, new] at found
    cases found
  have apart : gone ≠ script := fun same => generation (congrArg Script.generation same)
  refine leaves.submit (fun kept found unloaded => ⟨kept, ?_, rfl, unloaded⟩) ?_ ?_ ?_
  · exact (scripts_keep_of_ne generation ..).trans found
  · intro other put waits isOwn
    change put ∈ ((site.enter context workspace).contexts other).awaits at waits
    rcases contexts_enter_cases context workspace site other with ⟨_, whole⟩ | ⟨_, whole⟩
    · rw [whole] at waits
      refine absurd (isOwn.symm.trans ?_) apart
      exact (pass.takesBack_of_awaits waits).1.1.trans pass.owner
    · rwa [whole] at waits
  · intro job member put now isOwn
    refine apart (isOwn.symm.trans ?_)
    have handedOver := pass.takesBack_of_handed (List.mem_flatMap.mpr ⟨job, member, now⟩)
    exact handedOver.1.1.trans pass.owner
  · intro ticket binding _ _ job member
    obtain ⟨_, _, rfl⟩ := List.mem_map.mp member
    rfl

end Admission

/-- Loading the script that has just become current, on a worker. -/
theorem Tracks.loadCurrent (tracks : site.Tracks ledger) (makes : site.registry.MakesOwn Possible)
    (context : Nat) {script : Script} (nodes : List Node)
    (current : (site.contexts context).script = some script)
    (none : (site.contexts context).currentDrafts = [])
    (past : script.generation < site.generations.next)
    (new : site.scripts script.generation = Option.none)
    (unknown : ∀ ticket binding, site.Known ledger ticket binding →
      binding.script.generation ≠ script.generation) :
    let result := Loading.loadCurrent site.registry .worker script nodes (site.workspace context)
    ∃ later, Leads ledger site later
      ((site.enter context result.2).keep script.generation ⟨result.1, false⟩) := by
  intro result
  obtain ⟨handed, pass⟩ := Loading.loadCurrent_worker nodes makes
    (show (site.workspace context).context.script = some script from current) none
    tracks.follows.unused
  exact ⟨ledger.submit .worker (handed.map Job.ofCommand), tracks.tracks_load pass past unknown,
    fun _ _ leaves => leaves.load pass new _⟩

/-- Loading a script on a worker. -/
theorem Tracks.load (tracks : site.Tracks ledger) (makes : site.registry.MakesOwn Possible)
    (context : Nat) (source : ScriptSource) :
    ∃ later, Leads ledger site later (site.step (.load context source)) := by
  let script : Script := ⟨source.path, site.generations.next⟩
  let advanced : Site := { site with generations := ⟨site.generations.next + 1⟩ }
  let started := (site.workspace context).setScript .worker (some script)
  have first : Leads ledger site ledger advanced := tracks.advance (Nat.le_succ _)
  have second := first.tracks.leave .worker context (some script) (by
    intro other same
    obtain rfl := Option.some.inj same
    exact Nat.lt_succ_self _)
  have leaves : (site.workspace context).leaves (some script) = true := by
    rw [Workspace.leaves, Bool.not_eq_true']
    exact Script.sameCurrent_of_newer (tracks.current context)
  obtain ⟨_, current, none⟩ := Workspace.setScript_of_leaves .worker leaves
  have new : site.scripts script.generation = Option.none := by
    cases found : site.scripts script.generation with
    | none => rfl
    | some handle => exact absurd (tracks.manages _ handle found).past (Nat.lt_irrefl _)
  obtain ⟨later, third⟩ := second.tracks.loadCurrent makes context source.tree.nodes
    (by rw [contexts_enter_self]; exact current) (by rw [contexts_enter_self]; exact none)
    (Nat.lt_succ_self _) new fun ticket binding known =>
      Nat.ne_of_lt (tracks.known_past (known_leave known))
  rw [workspace_enter, enter_enter] at third
  exact ⟨later, (first.trans second).trans third⟩

/-! ## Runs -/

/-- A site goes on doing what a ledger says, whatever is done. -/
theorem Tracks.step (tracks : site.Tracks ledger) (makes : site.registry.MakesOwn Possible)
    (step : Step) : ∃ later, Leads ledger site later (site.step step) := by
  cases step with
  | load context source => exact tracks.load makes context source
  | finish thread context =>
    exact ⟨_, tracks.leave thread context none fun _ absent => nomatch absent⟩
  | drain => exact ⟨_, tracks.drain⟩
  | settle thread context script =>
    cases found : site.scripts script with
    | none =>
      refine ⟨ledger, ?_⟩
      unfold Site.step
      dsimp only
      rw [found]
      exact .refl tracks
    | some handle => exact tracks.settleScript thread context found
  | unload thread context script =>
    cases found : site.scripts script with
    | none =>
      refine ⟨ledger, ?_⟩
      unfold Site.step
      dsimp only
      rw [found]
      exact .refl tracks
    | some handle =>
      obtain ⟨later, leads, _⟩ := tracks.unload thread context found
      exact ⟨later, leads⟩

theorem step_registry (step : Step) (site : Site) : (site.step step).registry = site.registry := by
  cases step with
  | settle thread context script =>
    unfold Site.step
    dsimp only
    cases site.scripts script <;> rfl
  | unload thread context script =>
    unfold Site.step
    dsimp only
    cases site.scripts script <;> rfl
  | _ => rfl

theorem run_registry (steps : List Step) (site : Site) :
    (site.run steps).registry = site.registry := by
  induction steps generalizing site with
  | nil => rfl
  | cons first others ih => exact (ih (site.step first)).trans (step_registry first site)

theorem Tracks.run (tracks : site.Tracks ledger) (makes : site.registry.MakesOwn Possible)
    (steps : List Step) : ∃ later, Leads ledger site later (site.run steps) := by
  induction steps generalizing site ledger with
  | nil => exact ⟨ledger, .refl tracks⟩
  | cons first others ih =>
    obtain ⟨between, one⟩ := tracks.step makes first
    obtain ⟨later, rest⟩ := ih one.tracks (by rw [step_registry]; exact makes)
    exact ⟨later, one.trans rest⟩

theorem Tracks.start (registry : Registry) (parts : List ContextPart)
    {generations : GenerationCounter} {host : Host} {placed : Placement}
    (follows : host.Follows ⟨placed, []⟩)
    (past : ∀ ticket binding, placed ticket binding →
      binding.script.generation < generations.next) :
    (start registry parts generations host).Tracks ⟨placed, []⟩ := by
  obtain ⟨noScript, noDrafts⟩ := Context.withParts_idle parts
  have none (context : Nat) :
      ((Site.start registry parts generations host).contexts context).awaits = [] :=
    Context.awaits_of_none noDrafts
  refine ⟨follows, fun context => ?_, fun first second ticket binding other waits => ?_,
    fun context script current => ?_, fun ticket binding has => ?_,
    fun script handle found => (nomatch found), fun job waits => ?_⟩
  · rw [none]
    exact .of_nil
  · rw [none] at waits
    exact absurd waits List.not_mem_nil
  · change (Context.withParts parts).script = some script at current
    rw [noScript] at current
    cases current
  · rcases has with placed | waits
    · exact past ticket binding placed
    · exact absurd waits List.not_mem_nil
  · exact absurd waits List.not_mem_nil

end Site

/-! ## What is left of scripts -/

/-- These bindings are what the tables of the host hold of a script, all of them except for commands
that the host has refused. -/
structure Host.Retains (script : Script) (left : List (Nat × Binding)) (host : Host) : Prop where
  subscriptions : ∀ subscription, subscription.trigger.script = script →
    (subscription ∈ host.bus.subscriptions ↔ ∃ ticket draft,
      (ticket, .trigger script draft) ∈ left ∧
        subscription ∈ draft.subscriptions host.config.defaultPriority script)
  selfRegistered : ∀ trigger, trigger.script = script →
    (trigger ∈ host.bus.selfRegistered ↔ ∃ ticket draft,
      (ticket, .trigger script draft) ∈ left ∧ trigger ∈ draft.selfRegistered script)
  commands : ∀ name command, command.script = script →
    (host.commands.commands.get? name = some command ↔ command.name = name ∧
      ∃ ticket, (ticket, .command command) ∈ left ∧ (host.registrations ticket).refusal = none)

namespace Host

variable {host : Host} {placed : Placement} {script : Script} {left : List (Nat × Binding)}

/-- The tables hold of a script what is under tickets. -/
theorem Carries.retains (carries : host.Carries placed)
    (same : ∀ ticket binding, binding.script = script →
      (placed ticket binding ↔ (ticket, binding) ∈ left)) : host.Retains script left where
  subscriptions := by
    intro subscription isOwn
    rw [carries.subscriptions]
    constructor
    · rintro ⟨ticket, owner, draft, there, shows⟩
      have owns := congrArg Trigger.script (TriggerDraft.trigger_of_mem_subscriptions shows)
      obtain rfl : script = owner := isOwn.symm.trans owns
      exact ⟨ticket, draft, (same ticket _ rfl).mp there, shows⟩
    · rintro ⟨ticket, draft, there, shows⟩
      exact ⟨ticket, script, draft, (same ticket (.trigger script draft) rfl).mpr there, shows⟩
  selfRegistered := by
    intro trigger isOwn
    rw [carries.selfRegistered]
    constructor
    · rintro ⟨ticket, owner, draft, there, shows⟩
      have owns := congrArg Trigger.script (TriggerDraft.trigger_of_mem_selfRegistered shows)
      obtain rfl : script = owner := isOwn.symm.trans owns
      exact ⟨ticket, draft, (same ticket _ rfl).mp there, shows⟩
    · rintro ⟨ticket, draft, there, shows⟩
      exact ⟨ticket, script, draft, (same ticket (.trigger script draft) rfl).mpr there, shows⟩
  commands := by
    intro name command isOwn
    rw [carries.reflects.command_iff]
    refine and_congr_right fun _ => exists_congr fun ticket => ?_
    rw [← same ticket (.command command) isOwn]
    constructor
    · intro registered
      have there := carries.registered ticket command registered
      refine ⟨there, ?_⟩
      rcases carries.kept ticket command there with kept | ⟨text, kept⟩
      · rw [kept]
      · rw [Host.registered, kept] at registered
        cases registered
    · rintro ⟨there, accepted⟩
      rcases carries.kept ticket command there with kept | ⟨text, kept⟩
      · rw [Host.registered, kept]
      · rw [kept] at accepted
        cases accepted

end Host

namespace Site

/-- **What outlives its script.** Scripts are loaded on workers, settled and unloaded on any thread,
and the queue is drained now and then, on a host that shows what earlier scripts have put under tickets.
Once a script has been unloaded that no other parser was working on, and the queue has been drained,
the tables of the host hold nothing of it if it was unloaded by a worker. If it was unloaded by the
main thread, they hold exactly what jobs put there that were waiting in the queue then, all of it
except for commands that the host has refused. -/
theorem run_retains {Possible : EventFilter → Prop} (registry : Registry)
    (makes : registry.MakesOwn Possible) (parts : List ContextPart)
    (generations : GenerationCounter) (host : Host) (placed : Placement)
    (follows : host.Follows ⟨placed, []⟩)
    (past : ∀ ticket binding, placed ticket binding →
      binding.script.generation < generations.next) (steps : List Step) :
    let site := (start registry parts generations host).run steps
    ∀ script handle, site.scripts script = some handle → handle.unloaded = false →
      ∀ thread context,
        (∀ other ≠ context, (site.contexts other).script ≠ some handle.loaded.script) →
        ∀ more, let after := (site.step (.unload thread context script)).run more
          after.host.queued = [] →
            after.host.Retains handle.loaded.script (site.overtaken thread) := by
  intro site script handle found live thread context others more after drained
  obtain ⟨between, first⟩ :=
    (Tracks.start registry parts follows past).run makes steps
  have makes' : site.registry.MakesOwn Possible := by
    rw [run_registry]
    exact makes
  obtain ⟨unloaded, second, leaves⟩ := first.tracks.unload thread context found
  obtain ⟨last, third⟩ := second.tracks.run (by rw [step_registry]; exact makes') more
  have left := third.leaves _ _ (leaves live others)
  have none : last.waiting = [] := by
    rw [← third.tracks.follows.queued]
    exact drained
  refine third.tracks.follows.carries.retains fun ticket binding isOwn => ?_
  have outcome := left.outcome ticket binding isOwn
  rw [Ledger.outcome, none] at outcome
  refine Iff.trans outcome ?_
  unfold overtaken
  rw [first.tracks.follows.queued]
  cases thread with
  | main => exact and_iff_right rfl
  | worker => exact iff_of_false (fun absent => nomatch absent.1) List.not_mem_nil

/-! ## An event that outlives its script -/

/-- A script with one event has been loaded and left on a worker. -/
def chatSite : Site :=
  (start Diary.chatRegistry [] {} {}).run [.load 0 Diary.chatSource, .finish .worker 0]

/-- The script with the event. -/
def chatScript : Script :=
  ⟨⟨"chat.sk"⟩, 1⟩

/-- The script has become current on a new host. -/
def chatStart : Workspace :=
  (Workspace.mk {} (.withParts [])).setScript .worker (some chatScript)

/-- The script is loaded, the main thread unloads it, and the queue is drained. -/
theorem chatSite_runs :
    ((chatSite.scripts 1).map (fun handle => (handle.loaded.script, handle.unloaded)) =
        some (chatScript, false) ∧ (chatSite.contexts 0).script = none) ∧
      let site := (chatSite.step (.unload .main 1 1)).run [.drain]
      (site.scripts 1).map (fun handle => (handle.loaded.script, handle.unloaded)) =
          some (chatScript, true) ∧
        site.host.queued.length = 0 ∧
        site.host.bus.subscriptions.map (·.trigger.script) = [chatScript] := by
  let nodes := Diary.chatSource.tree.nodes
  let claimed := Loading.claimAll Diary.chatRegistry.preloading (Loading.topSections 0 nodes)
  let preloading := Loading.each Loading.initialisePreloading claimed.1
    (Loading.reportPlain nodes chatStart)
  have sorted : (preloading.1 ++ (Loading.each (Loading.initialiseNormal Diary.chatRegistry.normal)
      claimed.2 preloading.2).1).reduceOption.Pairwise
        (fun first second => Loading.before first second) := by
    decide +kernel
  -- The sort is taken out of what remains to be computed.
  have taken := Loading.initialiseAll_of_sorted sorted
  have loads (registry : Registry) :
      (start registry [] {} {}).run [.load 0 Diary.chatSource, .finish .worker 0] =
        let result := Loading.loadCurrent registry .worker chatScript nodes chatStart
        (Site.mk registry [] ({} : GenerationCounter).take.2 result.2.host
            (Function.update (fun _ => .withParts []) 0 result.2.context)
            (Function.update (fun _ => none) 1 (some ⟨result.1, false⟩))).step
          (.finish .worker 0) := rfl
  unfold chatSite
  rw [loads]
  unfold Loading.loadCurrent
  rw [taken]
  decide +kernel

/-- The trigger of the event is on the bus, though its script has been unloaded and the queue has
been drained. -/
theorem chat_outlives :
    let site := (chatSite.step (.unload .main 1 1)).run [.drain]
    (site.scripts 1).map (fun handle => (handle.loaded.script, handle.unloaded)) =
        some (chatScript, true) ∧
      site.host.queued.length = 0 ∧
      site.host.bus.subscriptions.map (·.trigger.script) = [chatScript] :=
  chatSite_runs.2

theorem chatRegistry_builtIn : Diary.chatRegistry.BuiltIn := by
  rintro ⟨info, create⟩ member
  unfold Diary.chatRegistry at member
  generalize registers : Registry.registerEvent "chat" ["chat"] (.simple "chat") ["chat"] {} =
    result at member
  cases result with
  | error failure => exact absurd member List.not_mem_nil
  | ok registry =>
    rcases Registry.mem_registerEvent registers member with ⟨rfl, isEvent⟩ | absent
    · exact (Descriptor.Standard.event info (.simple "chat") trivial _ _ isEvent).builtIn
    · exact absurd absent List.not_mem_nil

/-- Loading a script and leaving it is nothing to the other contexts. -/
theorem contexts_load_finish {context other : Nat} (apart : other ≠ context) (source : ScriptSource)
    (site : Site) : (site.run [.load context source, .finish .worker context]).contexts other =
      site.contexts other :=
  (contexts_enter_of_ne apart ..).trans (contexts_enter_of_ne apart ..)

theorem chat_retained :
    ((chatSite.step (.unload .main 1 1)).run [.drain]).host.Retains chatScript
      (chatSite.overtaken .main) := by
  obtain ⟨⟨loaded, left⟩, _, drained, _⟩ := chatSite_runs
  obtain ⟨handle, found, same⟩ := Option.map_eq_some_iff.mp loaded
  obtain ⟨owner, live⟩ := Prod.mk.inj same
  have others : ∀ other ≠ 1, (chatSite.contexts other).script ≠ some handle.loaded.script := by
    intro other _ current
    by_cases here : other = 0
    · rw [here, left] at current
      cases current
    · have idle := contexts_load_finish here Diary.chatSource (start Diary.chatRegistry [] {} {})
      unfold chatSite at current
      rw [idle] at current
      have noScript := (Context.withParts_idle []).1
      cases noScript.symm.trans current
  have queued := List.eq_nil_of_length_eq_zero drained
  rw [← owner]
  unfold chatSite at found others queued ⊢
  exact run_retains Diary.chatRegistry chatRegistry_builtIn.makesOwn [] {} {}
    (fun _ _ => False) .new (fun _ _ absent => absent.elim)
    [.load 0 Diary.chatSource, .finish .worker 0] 1 handle found live .main 1 others [.drain] queued

end Site

end ScriptBinding

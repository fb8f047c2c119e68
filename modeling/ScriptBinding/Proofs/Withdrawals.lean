import ScriptBinding.Proofs.EventBinding
import ScriptBinding.Proofs.WorkerLoading

/-! # Taking back, handing over

The ledger of a host follows what is done with scripts: leaving one hands over the triggers that
wait for it, loading one on a worker hands over its commands, and unloading one submits jobs that
take back what its structures have bound. What is refused is given up when a structure is settled.
-/

namespace ScriptBinding

/-! ## What waits for a script to be left -/

/-- What leaving the current script puts under tickets. -/
def Context.awaits (context : Context) : List (Nat × Binding) :=
  context.script.toList.flatMap fun script => (Job.bind script context.currentDrafts).puts

namespace Context

variable {context : Context} {ticket : Nat} {binding : Binding}

theorem mem_awaits : (ticket, binding) ∈ context.awaits ↔ ∃ script, context.script = some script ∧
    ∃ draft ∈ context.currentDrafts, draft.ticket = ticket ∧ .trigger script draft = binding := by
  simp only [awaits, Job.puts, List.mem_flatMap, Option.mem_toList, List.mem_map,
    Prod.mk.injEq]

/-- What waits is of the current script. -/
theorem script_of_mem_awaits (member : (ticket, binding) ∈ context.awaits) :
    context.script = some binding.script := by
  obtain ⟨script, current, _, _, _, rfl⟩ := mem_awaits.mp member
  exact current

theorem awaits_of_none (none : context.currentDrafts = []) : context.awaits = [] := by
  rw [awaits, none]
  exact List.flatMap_eq_nil_iff.mpr fun _ _ => rfl

end Context

/-! ## Jobs that put nothing under tickets -/

namespace Workspace

/-- The current script and what waits for it to be left are the same, and jobs have been submitted
that put nothing under tickets: a ledger of the host goes on with these. -/
structure Withdraws (thread : Thread) (jobs : List Job) (before after : Workspace) : Prop where
  script : after.context.script = before.context.script
  drafts : after.context.currentDrafts = before.context.currentDrafts
  nextTicket : after.host.nextTicket = before.host.nextTicket
  follows : ∀ ledger, before.host.Follows ledger →
    after.host.Follows (ledger.submit thread jobs)
  permits : ∀ ledger puts, before.host.Permits ledger puts →
    after.host.Permits (ledger.submit thread jobs) puts

namespace Withdraws

variable {thread : Thread} {before middle after : Workspace} {jobs others : List Job}

theorem trans (first : Withdraws thread jobs before middle)
    (second : Withdraws thread others middle after) :
    Withdraws thread (jobs ++ others) before after where
  script := second.script.trans first.script
  drafts := second.drafts.trans first.drafts
  nextTicket := second.nextTicket.trans first.nextTicket
  follows := by
    intro ledger follows
    rw [Ledger.submit_append]
    exact second.follows _ (first.follows ledger follows)
  permits := by
    intro ledger puts permits
    rw [Ledger.submit_append]
    exact second.permits _ puts (first.permits ledger puts permits)

/-- What waits for the current script to be left is the same. -/
theorem awaits (withdraws : Withdraws thread jobs before after) :
    after.context.awaits = before.context.awaits := by
  rw [Context.awaits, Context.awaits, withdraws.script, withdraws.drafts]

theorem of_quiet (quiet : before.Quiet after) : Withdraws thread [] before after where
  script := quiet.steady.script
  drafts := by rw [Context.currentDrafts, Context.currentDrafts, quiet.steady.drafts]
  nextTicket := quiet.steady.nextTicket
  follows := by
    intro ledger follows
    rw [Ledger.submit_nil]
    exact follows.of_quiet quiet
  permits := by
    intro ledger puts permits
    rw [Ledger.submit_nil]
    exact permits.of_same quiet.registrations quiet.steady.nextTicket.ge

theorem of_untouched (untouched : before.Untouched after)
    (drafts : after.context.drafts = before.context.drafts) : Withdraws thread [] before after where
  script := untouched.script
  drafts := by rw [Context.currentDrafts, Context.currentDrafts, drafts]
  nextTicket := untouched.nextTicket
  follows := by
    intro ledger follows
    rw [Ledger.submit_nil]
    exact follows.of_same untouched.config untouched.bus untouched.commands untouched.queue
      untouched.bound untouched.registrations untouched.nextTicket.ge
  permits := by
    intro ledger puts permits
    rw [Ledger.submit_nil]
    exact permits.of_same untouched.registrations untouched.nextTicket.ge

theorem of_still (still : before.Still after) : Withdraws thread [] before after :=
  .of_untouched still.untouched still.drafts

theorem refl (workspace : Workspace) : Withdraws thread [] workspace workspace :=
  .of_still (.refl workspace)

/-- A part without jobs behind another part. -/
theorem quiet (first : Withdraws thread jobs before middle)
    (second : Withdraws thread [] middle after) : Withdraws thread jobs before after := by
  have whole := first.trans second
  rwa [List.append_nil] at whole

theorem submit (thread : Thread) {job : Job} (none : job.puts = []) (workspace : Workspace) :
    Withdraws thread [job] workspace (workspace.submit thread job) where
  script := rfl
  drafts := rfl
  nextTicket := Host.submit_nextTicket thread job workspace.host
  follows := fun ledger follows => follows.submit thread (none ▸ .of_nil)
  permits := by
    intro ledger puts permits
    refine permits.submit thread fun ticket binding _ other now => ?_
    rw [none] at now
    exact List.not_mem_nil now

end Withdraws

end Workspace

open Workspace (Withdraws)

namespace CommandStructure

variable {host : Host}

/-- A command that the host has not refused stays as it is. -/
theorem settle_of_none (command : CommandStructure) (info : ScriptInfo)
    (none : (host.registrations command.ticket).refusal = none) :
    command.settle host info = (.ok (), (host.takeRefusal command.ticket).2, info) := by
  have taken := (Host.takeRefusal_spec command.ticket host).2.1.trans none
  unfold settle
  generalize host.takeRefusal command.ticket = result at taken ⊢
  obtain ⟨_, after⟩ := result
  cases taken
  rfl

/-- A command that the host has refused fails, and is not counted any more. -/
theorem settle_of_some (command : CommandStructure) (info : ScriptInfo) {text : String}
    (refused : (host.registrations command.ticket).refusal = some text) :
    command.settle host info = (.error (.host text), (host.takeRefusal command.ticket).2,
      match command.name with
      | some name => uncount name info
      | none => info) := by
  have taken := (Host.takeRefusal_spec command.ticket host).2.1.trans refused
  unfold settle
  generalize host.takeRefusal command.ticket = result at taken ⊢
  obtain ⟨_, after⟩ := result
  cases taken
  rfl

end CommandStructure

namespace Structure

/-- What unloading a structure submits. -/
def withdrawals : Structure → List Job
  | event inner => [.unbind inner.ticket]
  | command inner => [.unregister inner.ticket]
  | _ => []

variable {inner : Structure} {job : Job}

/-- What unloading submits puts nothing under tickets, and takes back what is under the ticket of
the structure. -/
theorem withdrawals_spec (member : job ∈ inner.withdrawals) :
    job.puts = [] ∧ ∀ ticket binding, job.takes ticket binding = true →
      inner.ticket? = some ticket := by
  cases inner with
  | event event =>
    rw [List.mem_singleton.mp member]
    refine ⟨rfl, fun ticket binding takes => ?_⟩
    cases binding with
    | trigger script draft => exact congrArg some (beq_iff_eq.mp takes)
    | command order => cases takes
  | command command =>
    rw [List.mem_singleton.mp member]
    refine ⟨rfl, fun ticket binding takes => ?_⟩
    cases binding with
    | trigger script draft => cases takes
    | command order => exact congrArg some (beq_iff_eq.mp takes)
  | _ => exact absurd member List.not_mem_nil

theorem takes_of_event {event : EventStructure} (isEvent : inner.event? = some event)
    (script : Script) (draft : TriggerDraft) :
    ∃ job ∈ inner.withdrawals, job.takes event.ticket (.trigger script draft) = true := by
  cases inner with
  | event own =>
    obtain rfl := Option.some.inj isEvent
    exact ⟨.unbind own.ticket, List.mem_singleton_self _, beq_self_eq_true _⟩
  | _ => cases isEvent

theorem takes_of_command {ticket : Nat} (isCommand : inner.commandTicket? = some ticket)
    (order : Command) : ∃ job ∈ inner.withdrawals, job.takes ticket (.command order) = true := by
  cases inner with
  | command own =>
    obtain rfl := Option.some.inj isCommand
    exact ⟨.unregister own.ticket, List.mem_singleton_self _, beq_self_eq_true _⟩
  | _ => cases isCommand

theorem unload_withdraws (thread : Thread) (inner : Structure) (workspace : Workspace) :
    Withdraws thread inner.withdrawals workspace (inner.unload thread workspace).2.2 := by
  cases inner with
  | function inner =>
    obtain ⟨untouched, drafts⟩ := inner.unload_untouched workspace
    exact .of_untouched untouched drafts
  | command inner => exact .submit thread rfl workspace
  | event inner => exact .submit thread rfl workspace
  | custom inner => exact .of_still (inner.respond_still .unload workspace)
  | options inner => exact .refl workspace
  | aliases => exact .refl workspace
  | defaults inner => exact .refl workspace

/-- To settle a structure is to change nothing, or to give up a command that has been refused. -/
theorem settle_withdraws (info : ScriptInfo) (inner : Structure) (workspace : Workspace) :
    (∀ ticket, inner.ticket? = some ticket → (inner.settle info workspace).1 = .done ()) ∧
        Withdraws .main [] workspace (inner.settle info workspace).2.2 ∨
      ∃ command text, inner = .command command ∧
        (workspace.host.registrations command.ticket).refusal = some text ∧
        Withdraws .main [.unregister command.ticket] workspace
          (inner.settle info workspace).2.2 := by
  cases inner with
  | command inner =>
    obtain ⟨step, _, commands, registrations⟩ :=
      Host.takeRefusal_spec inner.ticket workspace.host
    dsimp only [settle]
    cases refused : (workspace.host.registrations inner.ticket).refusal with
    | none =>
      have kept : (workspace.host.takeRefusal inner.ticket).2.registrations =
          workspace.host.registrations := by
        rw [registrations, Function.update_eq_iff]
        refine ⟨?_, fun _ _ => rfl⟩
        rw [← refused]
      rw [inner.settle_of_none info refused]
      refine Or.inl ⟨fun _ _ => rfl, rfl, rfl, step.nextTicket, fun ledger follows => ?_,
        fun ledger puts permits => ?_⟩
      · rw [Ledger.submit_nil]
        exact follows.of_same step.config step.bus commands step.queue step.bound kept
          step.nextTicket.ge
      · rw [Ledger.submit_nil]
        exact permits.of_same kept step.nextTicket.ge
    | some text =>
      rw [inner.settle_of_some info refused]
      exact Or.inr ⟨inner, text, rfl, refused, rfl, rfl, step.nextTicket,
        fun ledger follows => follows.takeRefusal refused,
        fun ledger puts permits => permits.takeRefusal refused⟩
  | custom inner =>
    exact Or.inl ⟨fun _ absent => (by cases absent), .of_still (inner.respond_still .settle workspace)⟩
  | _ => exact Or.inl ⟨fun _ _ => rfl, .refl workspace⟩

end Structure

namespace Loading

/-- What unloading a structure of a script submits. -/
def withdrawals (loaded : LoadedStructure) : List Job :=
  if loaded.loaded then loaded.inner.withdrawals else []

theorem withdrawals_spec {loaded : LoadedStructure} {job : Job}
    (member : job ∈ withdrawals loaded) : job.puts = [] ∧ ∀ ticket binding,
      job.takes ticket binding = true → loaded.inner.ticket? = some ticket := by
  unfold withdrawals at member
  split at member
  · exact Structure.withdrawals_spec member
  · exact absurd member List.not_mem_nil

theorem unload_withdraws (thread : Thread) (loaded : LoadedStructure) (workspace : Workspace) :
    Withdraws thread (withdrawals loaded) workspace (unload thread loaded workspace).2 := by
  unfold unload withdrawals
  split
  · exact (loaded.inner.unload_withdraws thread workspace).quiet
      (.of_quiet (conclude_quiet .unload loaded _))
  · exact .refl workspace

theorem each_unload_withdraws (thread : Thread) (structures : List LoadedStructure)
    (workspace : Workspace) :
    Withdraws thread (structures.flatMap withdrawals) workspace
      (each (unload thread) structures workspace).2 := by
  induction structures generalizing workspace with
  | nil => exact .refl workspace
  | cons first others ih => exact (unload_withdraws thread first workspace).trans (ih _)

end Loading

/-! ## Leaving scripts -/

namespace Workspace

variable {workspace : Workspace} {next : Option Script} {ledger : Ledger}
  {puts : List (Nat × Binding)}

/-- What moving on to a script, or to none, submits. -/
def leavings (next : Option Script) (workspace : Workspace) : List Job :=
  if workspace.leaves next then workspace.flushed else []

/-- What moving on submits is the job that binds what waits, if anything. -/
theorem leavings_cases (next : Option Script) (workspace : Workspace) :
    workspace.leavings next = [] ∨ ∃ job : Job, workspace.leavings next = [job] ∧
      job.puts = workspace.context.awaits ∧ ∀ ticket binding, job.takes ticket binding = false := by
  unfold leavings flushed
  split
  · split
    · exact Or.inl rfl
    · cases current : workspace.context.script with
      | none => exact Or.inl rfl
      | some script =>
        refine Or.inr ⟨_, rfl, ?_, fun _ _ => rfl⟩
        rw [Context.awaits, current, Option.toList_some, List.flatMap_singleton]
  · exact Or.inl rfl

/-- The host submits what moving on submits, or only writes to its log. -/
theorem setScript_host (thread : Thread) (next : Option Script) (workspace : Workspace) :
    (workspace.leavings next = [] ∧ ∃ entries,
        (workspace.setScript thread next).host = workspace.host.write entries) ∨
      ∃ job, workspace.leavings next = [job] ∧
        (workspace.setScript thread next).host = workspace.host.submit thread job := by
  have still : workspace.host = workspace.host.write [] := by
    rw [Host.write, List.append_nil]
  unfold leavings
  cases leaves : workspace.leaves next with
  | false =>
    rw [setScript_of_stays thread leaves]
    exact Or.inl ⟨rfl, [], still⟩
  | true =>
    rw [Workspace.leaves, Bool.not_eq_true'] at leaves
    rw [setScript_of_moves leaves]
    change (workspace.flushed = [] ∧ ∃ entries,
      (workspace.flush thread).host = _) ∨ ∃ job, workspace.flushed = [job] ∧
        (workspace.flush thread).host = _
    unfold flush flushed
    dsimp only
    split
    · exact Or.inl ⟨rfl, [], still⟩
    · cases workspace.context.script with
      | none => exact Or.inl ⟨rfl, _, rfl⟩
      | some script => exact Or.inr ⟨_, rfl, rfl⟩

theorem setScript_nextTicket (thread : Thread) (next : Option Script) (workspace : Workspace) :
    (workspace.setScript thread next).host.nextTicket = workspace.host.nextTicket := by
  rcases workspace.setScript_host thread next with ⟨_, entries, same⟩ | ⟨job, _, same⟩
  · rw [same]
    rfl
  · rw [same]
    exact Host.submit_nextTicket thread job workspace.host

/-- What moving on submits is what the ledger goes on with. -/
theorem setScript_follows (thread : Thread) (next : Option Script)
    (follows : workspace.host.Follows ledger)
    (permits : workspace.host.Permits ledger workspace.context.awaits) :
    (workspace.setScript thread next).host.Follows
      (ledger.submit thread (workspace.leavings next)) := by
  rcases workspace.setScript_host thread next with ⟨none, entries, same⟩ | ⟨job, one, same⟩
  · rw [none, same, Ledger.submit_nil]
    exact follows.of_same rfl rfl rfl rfl rfl rfl (Nat.le_refl _)
  · rw [one, same]
    rcases workspace.leavings_cases next with none | ⟨other, also, put, _⟩
    · rw [one] at none
      cases none
    · obtain rfl : job = other := List.singleton_inj.mp (one.symm.trans also)
      exact follows.submit thread (put ▸ permits)

/-- Bindings stay permitted when a script is left for which others wait. -/
theorem setScript_permits (thread : Thread) (next : Option Script)
    (permits : workspace.host.Permits ledger puts)
    (apart : ∀ ticket binding, (ticket, binding) ∈ puts →
      ∀ other, (ticket, other) ∉ workspace.context.awaits) :
    (workspace.setScript thread next).host.Permits
      (ledger.submit thread (workspace.leavings next)) puts := by
  rcases workspace.setScript_host thread next with ⟨none, entries, same⟩ | ⟨job, one, same⟩
  · rw [none, same, Ledger.submit_nil]
    exact permits.of_same rfl (Nat.le_refl _)
  · rw [one, same]
    rcases workspace.leavings_cases next with none | ⟨other, also, put, _⟩
    · rw [one] at none
      cases none
    · obtain rfl : job = other := List.singleton_inj.mp (one.symm.trans also)
      exact permits.submit thread (put ▸ apart)

/-- Once a script has been left nothing waits for it; a script that stays current has submitted
nothing. -/
theorem setScript_context (thread : Thread) (next : Option Script) (workspace : Workspace) :
    (workspace.setScript thread next).context.script = next ∧
        (workspace.setScript thread next).context.awaits = [] ∨
      workspace.setScript thread next = workspace ∧ workspace.leavings next = [] := by
  unfold leavings
  cases leaves : workspace.leaves next with
  | true =>
    obtain ⟨_, script, none⟩ := setScript_of_leaves thread leaves
    exact Or.inl ⟨script, Context.awaits_of_none none⟩
  | false => exact Or.inr ⟨setScript_of_stays thread leaves, rfl⟩

/-- Where nothing waits, nothing waits after moving on. -/
theorem awaits_setScript (thread : Thread) (next : Option Script)
    (none : workspace.context.awaits = []) :
    (workspace.setScript thread next).context.awaits = [] := by
  rcases workspace.setScript_context thread next with ⟨_, left⟩ | ⟨same, _⟩
  · exact left
  · rw [same]
    exact none

/-- Without a script nothing waits. -/
theorem awaits_finish (thread : Thread) (workspace : Workspace) :
    (workspace.setScript thread none).context.awaits = [] := by
  cases current : workspace.context.script with
  | none =>
    refine awaits_setScript thread none ?_
    rw [Context.awaits, current]
    rfl
  | some script =>
    have leaves : workspace.leaves none = true := by
      rw [Workspace.leaves, current]
      rfl
    exact Context.awaits_of_none (setScript_of_leaves thread leaves).2.2

end Workspace

/-! ## Loading scripts on a worker -/

/-- Unloading the script takes this binding back. -/
def LoadedScript.TakesBack (loaded : LoadedScript) (ticket : Nat) (binding : Binding) : Prop :=
  binding.script = loaded.script ∧ ∃ inner ∈ loaded.structures,
    ∃ job ∈ Loading.withdrawals inner, job.takes ticket binding = true

theorem LoadedScript.TakesBack.mem_ticketsOf {loaded : LoadedScript} {ticket : Nat}
    {binding : Binding} (takesBack : loaded.TakesBack ticket binding) :
    ticket ∈ ticketsOf loaded.structures := by
  obtain ⟨_, inner, member, job, withdraws, takes⟩ := takesBack
  exact ScriptBinding.mem_ticketsOf.mpr
    ⟨inner, member, (Loading.withdrawals_spec withdraws).2 ticket binding takes⟩

/-- What commands that have been handed over put under tickets. -/
theorem Job.mem_puts_ofCommand {handed : List (Nat × Command)} {ticket : Nat} {binding : Binding} :
    (ticket, binding) ∈ (handed.map Job.ofCommand).flatMap Job.puts ↔
      ∃ command, (ticket, command) ∈ handed ∧ binding = .command command := by
  constructor
  · intro member
    obtain ⟨_, registers, put⟩ := List.mem_flatMap.mp member
    obtain ⟨⟨own, command⟩, there, rfl⟩ := List.mem_map.mp registers
    obtain ⟨rfl, rfl⟩ := Prod.mk.inj (List.mem_singleton.mp put)
    exact ⟨command, there, rfl⟩
  · rintro ⟨command, there, rfl⟩
    exact List.mem_flatMap.mpr
      ⟨.register ticket command, List.mem_map_of_mem there, List.mem_singleton_self _⟩

theorem Ledger.puts_submit_worker (jobs : List Job) (ledger : Ledger) :
    (ledger.submit .worker jobs).puts = ledger.puts ++ jobs.flatMap Job.puts :=
  List.flatMap_append

namespace Loading.WorkerPass

variable {Possible : EventFilter → Prop} {registry : Registry} {script : Script}
  {before after : Workspace} {loaded : LoadedScript} {handed : List (Nat × Command)}
  {ledger : Ledger} {ticket : Nat} {binding : Binding}

/-- Unloading the script takes the commands back that have been handed over. -/
theorem takesBack_of_handed
    (pass : WorkerPass Possible registry script before loaded after handed)
    (put : (ticket, binding) ∈ (handed.map Job.ofCommand).flatMap Job.puts) :
    loaded.TakesBack ticket binding ∧ ticket ∈ commandTicketsOf loaded.structures := by
  obtain ⟨command, there, rfl⟩ := Job.mem_puts_ofCommand.mp put
  have own : ticket ∈ commandTicketsOf (loaded.structures.filter (·.loaded)) :=
    pass.tickets ▸ List.mem_map_of_mem there
  obtain ⟨inner, member, isCommand⟩ := mem_commandTicketsOf.mp own
  obtain ⟨owned, isLoaded⟩ := List.mem_filter.mp member
  obtain ⟨job, withdraws, takes⟩ := Structure.takes_of_command isCommand command
  refine ⟨⟨(pass.owners _ there).trans pass.owner.symm, inner, owned, job, ?_, takes⟩,
    mem_commandTicketsOf.mpr ⟨inner, owned, isCommand⟩⟩
  rw [withdrawals, if_pos isLoaded]
  exact withdraws

/-- Unloading the script takes back what waits for it to be left. -/
theorem takesBack_of_awaits
    (pass : WorkerPass Possible registry script before loaded after handed)
    (waits : (ticket, binding) ∈ after.context.awaits) :
    loaded.TakesBack ticket binding ∧ ticket ∈ eventTicketsOf loaded.structures := by
  obtain ⟨owner, current, draft, member, rfl, rfl⟩ := Context.mem_awaits.mp waits
  obtain rfl : owner = script := Option.some.inj (current.symm.trans pass.current)
  obtain ⟨results, perm, waiting⟩ := pass.waiting
  obtain ⟨inner, there, event, draftOf⟩ := waiting.mem_tickets draft member
  have owned := perm.mem_iff.mpr there
  obtain ⟨job, withdraws, takes⟩ := Structure.takes_of_event draftOf.isEvent owner draft
  have isLoaded := pass.events inner owned (by rw [draftOf.isEvent]; rfl)
  refine ⟨⟨pass.owner.symm, inner, owned, job, ?_, draftOf.ticket ▸ takes⟩,
    mem_eventTicketsOf.mpr ⟨inner, owned, ?_⟩⟩
  · rw [withdrawals, if_pos isLoaded]
    exact withdraws
  · rw [Structure.eventTicket?, draftOf.isEvent, draftOf.ticket]
    rfl

/-- Whatever the ledger has once a script is loaded it has had before, or the script takes it
back. -/
theorem has (pass : WorkerPass Possible registry script before loaded after handed)
    (has : (ledger.submit .worker (handed.map Job.ofCommand)).Has ticket binding) :
    ledger.Has ticket binding ∨
      loaded.TakesBack ticket binding ∧ ticket ∈ commandTicketsOf loaded.structures :=
  (Ledger.has_submit has).imp_right fun put => pass.takesBack_of_handed (List.mem_flatMap.mpr put)

/-- Bindings stay permitted when a script is loaded on a worker. -/
theorem permits (pass : WorkerPass Possible registry script before loaded after handed)
    {puts : List (Nat × Binding)} (permits : before.host.Permits ledger puts) :
    after.host.Permits (ledger.submit .worker (handed.map Job.ofCommand)) puts where
  distinct := permits.distinct
  free := by
    intro ticket binding put other has
    rcases pass.has has with old | ⟨takesBack, _⟩
    · exact permits.free ticket binding put other old
    · exact absurd (permits.used ticket binding put)
        (Nat.not_lt.mpr (pass.fresh ticket takesBack.mem_ticketsOf).1)
  used := fun ticket binding put => (permits.used ticket binding put).trans_le pass.later
  unused := by
    rw [pass.hands.registrations]
    exact permits.unused

theorem follows (pass : WorkerPass Possible registry script before loaded after handed)
    (follows : before.host.Follows ledger) :
    after.host.Follows (ledger.submit .worker (handed.map Job.ofCommand)) := by
  have fresh {ticket : Nat} {binding : Binding}
      (put : (ticket, binding) ∈ (handed.map Job.ofCommand).flatMap Job.puts) :=
    pass.fresh ticket (pass.takesBack_of_handed put).1.mem_ticketsOf
  have distinct : (((handed.map Job.ofCommand).flatMap Job.puts).map Prod.fst).Nodup := by
    have tickets : ((handed.map Job.ofCommand).flatMap Job.puts).map Prod.fst =
        handed.map Prod.fst := by
      rw [List.flatMap_map, List.map_flatMap]
      exact List.flatMap_pure_eq_map _ handed
    rw [tickets, pass.tickets]
    have owned := (commandTicketsOf_sublist loaded.structures)
    exact pass.distinct.sublist ((List.filter_sublist.filterMap _).trans owned)
  refine ⟨follows.carries.of_same pass.config pass.bus pass.hands.commands pass.bound
    pass.hands.registrations, ?_, ?_, ?_, ?_⟩
  · rw [pass.hands.queue, follows.queue, ← List.map_append]
    rfl
  · rw [Ledger.puts_submit_worker]
    refine ⟨?_, ?_, ?_⟩
    · rw [List.map_append]
      refine List.nodup_append.mpr ⟨follows.admits.distinct, distinct, ?_⟩
      rintro ticket old _ new rfl
      obtain ⟨⟨_, binding⟩, waits, rfl⟩ := List.mem_map.mp old
      obtain ⟨⟨_, other⟩, put, rfl⟩ := List.mem_map.mp new
      exact absurd (follows.used _ binding (Or.inr waits)) (Nat.not_lt.mpr (fresh put).1)
    · intro ticket binding put other placed
      rcases List.mem_append.mp put with old | new
      · exact follows.admits.free ticket binding old other placed
      · exact absurd (follows.used _ other (Or.inl placed)) (Nat.not_lt.mpr (fresh new).1)
    · intro ticket binding put
      rw [pass.hands.registrations]
      rcases List.mem_append.mp put with old | new
      · exact follows.admits.unused ticket binding old
      · exact follows.unused ticket (fresh new).1
  · intro ticket binding has
    rcases pass.has has with old | ⟨takesBack, _⟩
    · exact (follows.used ticket binding old).trans_le pass.later
    · exact (pass.fresh ticket takesBack.mem_ticketsOf).2
  · intro ticket above
    rw [pass.hands.registrations]
    exact follows.unused ticket (pass.later.trans above)

/-- What waits for the script that has been loaded is permitted. -/
theorem permits_awaits (pass : WorkerPass Possible registry script before loaded after handed)
    (follows : before.host.Follows ledger) :
    after.host.Permits (ledger.submit .worker (handed.map Job.ofCommand))
      after.context.awaits where
  distinct := by
    obtain ⟨results, perm, waiting⟩ := pass.waiting
    have tickets : after.context.awaits.map Prod.fst =
        after.context.currentDrafts.map TriggerDraft.ticket := by
      rw [Context.awaits, pass.current, Option.toList_some, List.flatMap_singleton]
      exact List.map_map
    rw [tickets]
    exact ((perm.filterMap _).nodup_iff.mp pass.distinct).sublist waiting.tickets
  free := by
    intro ticket binding waits other has
    obtain ⟨takesBack, isEvent⟩ := pass.takesBack_of_awaits waits
    rcases pass.has has with old | ⟨_, isCommand⟩
    · exact absurd (follows.used ticket other old)
        (Nat.not_lt.mpr (pass.fresh ticket takesBack.mem_ticketsOf).1)
    · exact not_mem_commandTicketsOf pass.distinct isEvent isCommand
  used := fun ticket binding waits =>
    (pass.fresh ticket (pass.takesBack_of_awaits waits).1.mem_ticketsOf).2
  unused := by
    intro ticket binding waits
    rw [pass.hands.registrations]
    exact follows.unused ticket
      (pass.fresh ticket (pass.takesBack_of_awaits waits).1.mem_ticketsOf).1

end Loading.WorkerPass

end ScriptBinding

import ScriptBinding.Proofs.Reports
import ScriptBinding.Proofs.Submissions

/-! # Scripts whose jobs are deferred

A script that is loaded in both runs comes to the same, once the direct run is compared with what
settling makes of the script in the deferred one.
-/

namespace ScriptBinding

/-- Two loads of a script come to the same, apart from structures that are not loaded. -/
structure LoadedScript.Matches (one other : LoadedScript) : Prop where
  script : other.script = one.script
  info : other.info = one.info
  errors : other.errors = one.errors
  structures : other.structures.filter (·.loaded) = one.structures.filter (·.loaded)

/-- How a script has fared that has been loaded in both runs, on a host that has done the jobs of
the deferred one. -/
structure LoadedScript.Fares (host : Host) (direct deferred : LoadedScript) : Prop where
  script : deferred.script = direct.script
  structures : List.Forall₂ (LoadedStructure.Fares host) direct.structures deferred.structures
  info : host.discount deferred.structures deferred.info = direct.info
  errors : direct.errors = deferred.errors + host.refusedCount deferred

namespace LoadedScript.Fares

variable {host after : Host} {direct deferred : LoadedScript}

theorem later (fares : direct.Fares host deferred)
    (same : ∀ loaded ∈ deferred.structures, after.refuses loaded = host.refuses loaded) :
    direct.Fares after deferred where
  script := fares.script
  structures := LoadedStructure.Fares.allLater fares.structures same
  info := (Host.discount_congr same _).trans fares.info
  errors := fares.errors.trans (congrArg _ (Host.refusedCount_congr same).symm)

theorem allLater {direct deferred : List LoadedScript}
    (fares : List.Forall₂ (Fares host) direct deferred)
    (same : ∀ loaded ∈ deferred, ∀ inner ∈ loaded.structures,
      after.refuses inner = host.refuses inner) :
    List.Forall₂ (Fares after) direct deferred := by
  induction fares with
  | nil => exact .nil
  | cons first _ ih =>
    exact .cons (first.later (same _ List.mem_cons_self))
      (ih fun loaded member => same loaded (List.mem_cons_of_mem _ member))

/-- Settling leaves the structures loaded that are loaded in the direct run. -/
theorem filter_settled {direct deferred : List LoadedStructure}
    (fares : List.Forall₂ (LoadedStructure.Fares host) direct deferred) :
    (deferred.map host.settled).filter (·.loaded) = direct.filter (·.loaded) := by
  induction fares with
  | nil => rfl
  | cons first _ ih =>
    rw [List.map_cons, List.filter_cons, List.filter_cons, ih]
    cases first with
    | same accepted => rw [Host.settled, accepted, if_neg Bool.false_ne_true]
    | refused dropped refuses =>
      rw [Host.settled, refuses, if_pos rfl, dropped, if_neg Bool.false_ne_true,
        if_neg Bool.false_ne_true]

/-- Once it has been settled, the script agrees with that of the direct run. -/
theorem matches_settled (fares : direct.Fares host deferred) :
    direct.Matches (host.settledScript deferred) where
  script := fares.script
  info := fares.info
  errors := fares.errors.symm
  structures := filter_settled fares.structures

end LoadedScript.Fares

/-! ## Moving on to a script -/

namespace Workspace

variable {start : Host} {jobs : List Job} {fresh : Nat → Prop} {gap : Nat}
  {direct deferred : Workspace}

/-- The triggers of a script are bound in the direct run, and going to be bound in the deferred one.
-/
theorem Alike.bind (alike : Alike gap direct deferred)
    (lags : Lags start jobs fresh direct deferred) (script : Script) (drafts : List TriggerDraft) :
    Alike gap (direct.submit .main (.bind script drafts))
        (deferred.submit .worker (.bind script drafts)) ∧
      Lags start (jobs ++ [.bind script drafts]) fresh
        (direct.submit .main (.bind script drafts))
        (deferred.submit .worker (.bind script drafts)) := by
  obtain ⟨step, _⟩ := Host.perform_bind script drafts direct.host
  have bound : (direct.submit .main (.bind script drafts)).host =
      direct.host.perform (.bind script drafts) :=
    Host.submit_main (.bind script drafts) direct.host
  have waits : (deferred.submit .worker (.bind script drafts)).host.queue.waiting =
      (jobs ++ [Job.bind script drafts]).map Work.single := by
    rw [List.map_append, ← lags.defers.queue]
    rfl
  constructor
  · exact
      { alike with
        classes := alike.classes.trans (step.classes.symm.trans (congrArg Host.classes bound.symm))
        functions :=
          alike.functions.trans (step.functions.symm.trans (congrArg Host.functions bound.symm))
        store := alike.store.trans (step.store.symm.trans (congrArg Host.store bound.symm))
        nextTicket := alike.nextTicket.trans
          (step.nextTicket.symm.trans (congrArg Host.nextTicket bound.symm)) }
  · refine ⟨{ lags.defers with queue := waits }, ?_, fun ticket isFresh => ?_⟩
    · rw [bound, Host.ahead_append]
      exact lags.matched.perform _
    · have unused := lags.unused ticket isFresh
      refine ⟨unused.atStart, ?_, ?_⟩
      · rw [bound, step.registrations]
        exact unused.done
      · rw [Host.ahead_append]
        exact (Host.perform_spares (.bind _ _) _).trans unused.waiting

/-- A script is finished in both runs. -/
theorem Alike.flush (alike : Alike gap direct deferred)
    (lags : Lags start jobs fresh direct deferred) :
    ∃ more, (∀ job ∈ more, ∀ ticket, job.Spares ticket) ∧
      Alike gap (direct.flush .main) (deferred.flush .worker) ∧
      Lags start (jobs ++ more) fresh (direct.flush .main) (deferred.flush .worker) := by
  have quiet {one other : Workspace} (alike : Alike gap one other)
      (first : direct.host.Idle one.host) (second : deferred.host.Idle other.host) :
      ∃ more, (∀ job ∈ more, ∀ ticket, job.Spares ticket) ∧ Alike gap one other ∧
        Lags start (jobs ++ more) fresh one other := by
    refine ⟨[], fun _ absent => absurd absent List.not_mem_nil, alike, ?_⟩
    rw [List.append_nil]
    exact lags.of_idle first second
  have drafts : deferred.context.currentDrafts = direct.context.currentDrafts := by
    rw [Context.currentDrafts, alike.drafts, Context.currentDrafts]
  unfold Workspace.flush
  dsimp only
  rw [drafts, alike.script]
  split
  · exact quiet alike (.refl _) (.refl _)
  · cases direct.context.script with
    | none => exact quiet { alike with } (.write _ _) (.write _ _)
    | some script =>
      refine ⟨[.bind script direct.context.currentDrafts], fun job member ticket => ?_,
        alike.bind lags script _⟩
      rw [List.mem_singleton.mp member]
      exact .bind _ _

theorem moved_commands (next : Option Script) (context : Context) :
    (context.moved next).currentCommands = [] := by
  simp only [Context.currentCommands, Context.moved]
  cases context.commands <;> rfl

/-- Both runs have nothing of their script yet. -/
theorem Alike.moved (alike : Alike gap direct deferred) (next : Option Script) :
    Abreast gap [] (direct.inContext (·.moved next)) (deferred.inContext (·.moved next)) where
  classes := alike.classes
  functions := alike.functions
  store := alike.store
  nextTicket := alike.nextTicket
  script := rfl
  inHand := congrArg (Option.map _) alike.inHand
  options := congrArg (Option.map _) alike.options
  aliases := congrArg (Option.map _) alike.aliases
  drafts := congrArg (Option.map _) alike.drafts
  events := alike.events
  structureCount := rfl
  triggerCount := rfl
  functionCount := rfl
  recorded := alike.recorded
  directNames := moved_commands next direct.context
  deferredNames := moved_commands next deferred.context
  distinct := List.nodup_nil
  among := fun _ absent => absurd absent List.not_mem_nil
  accepted := rfl
  count := rfl

/-- Moving on to another script, or to none, in both runs. -/
theorem Alike.setScript (alike : Alike gap direct deferred)
    (lags : Lags start jobs fresh direct deferred) {next : Option Script}
    (moves : Script.sameCurrent direct.context.script next = false) :
    ∃ more, (∀ job ∈ more, ∀ ticket, job.Spares ticket) ∧
      Abreast gap [] (direct.setScript .main next) (deferred.setScript .worker next) ∧
      Lags start (jobs ++ more) fresh (direct.setScript .main next)
        (deferred.setScript .worker next) := by
  obtain ⟨more, spare, flushed, lags⟩ := alike.flush lags
  rw [setScript_of_moves moves, setScript_of_moves (alike.script ▸ moves)]
  exact ⟨more, spare, flushed.moved next, lags.of_idle (.refl _) (.refl _)⟩

/-- The counters of the direct run are those of the deferred one without what the host refuses. -/
theorem Abreast.discounted {refused : List String} (abreast : Abreast gap refused direct deferred) :
    { deferred.context.info with
        commands := deferred.context.info.commands - refused.length
        commandNames := deferred.context.info.commandNames.filter (· ∉ refused) } =
      direct.context.info := by
  rw [ScriptInfo.mk.injEq]
  refine ⟨abreast.structureCount, abreast.triggerCount, abreast.functionCount, ?_,
    abreast.accepted.symm⟩
  rw [abreast.count, Nat.add_sub_cancel]

end Workspace

/-! ## Loading a script -/

namespace Loading

open Workspace (Abreast Alike Lags)

/-- The commands that a script hands to the host when it is loaded. -/
def scriptSubmissions (registry : Registry) (thread : Thread) (nodes : List Node)
    (workspace : Workspace) : List Submission :=
  let (structures, workspace) := initialiseAll registry nodes workspace
  submissions thread structures workspace

/-- What loading a script in both runs has come to: `next` is the first ticket that is new to it,
`more` are the jobs that have been submitted. -/
structure ScriptPaired (start : Host) (jobs : List Job) (next : Nat) (more : List Job)
    (direct deferred : LoadedScript × Workspace) : Prop where
  fares : direct.1.Fares (start.ahead (jobs ++ more)) deferred.1
  builtIn : ∀ loaded ∈ deferred.1.structures, loaded.inner.isBuiltIn = true
  spares : ∀ job ∈ more, ∀ ticket < next, job.Spares ticket
  fresh : ∀ ticket ∈ commandTicketsOf deferred.1.structures,
    next ≤ ticket ∧ ticket < deferred.2.host.nextTicket
  distinct : (commandTicketsOf deferred.1.structures).Nodup
  later : next ≤ deferred.2.host.nextTicket
  alike : ∃ gap, Alike gap direct.2 deferred.2
  lags : Lags start (jobs ++ more) (deferred.2.host.nextTicket ≤ ·) direct.2 deferred.2

variable {start : Host} {jobs : List Job} {gap : Nat} {direct deferred : Workspace}
  {Possible : EventFilter → Prop} {registry : Registry} {script : Script}

/-- Mending structures that are built in is only noted in the context. -/
theorem each_afterLoad_builtIn (structures : List LoadedStructure) (workspace : Workspace)
    (builtIn : ∀ loaded ∈ structures, loaded.inner.isBuiltIn = true) :
    ∃ calls, each afterLoad structures workspace =
      (structures, workspace.inContext ({ · with calls })) := by
  induction structures generalizing workspace with
  | nil => exact ⟨workspace.context.calls, rfl⟩
  | cons first others ih =>
    have one : ∃ calls, afterLoad first workspace =
        (first, workspace.inContext ({ · with calls })) := by
      unfold afterLoad
      split
      · rw [Structure.afterLoad_eq workspace (builtIn first List.mem_cons_self)]
        exact ⟨_, rfl⟩
      · exact ⟨workspace.context.calls, rfl⟩
    obtain ⟨calls, mended⟩ := one
    obtain ⟨final, rest⟩ := ih (workspace.inContext ({ · with calls }))
      fun loaded member => builtIn loaded (List.mem_cons_of_mem _ member)
    refine ⟨final, ?_⟩
    rw [each, mended]
    dsimp only
    rw [rest]
    rfl

/-- Loading the script that has just become current. -/
theorem loadCurrent_paired (nodes : List Node) (makes : registry.MakesOwn Possible)
    (creates : ∀ descriptor ∈ registry.all, ∀ ticket, (descriptor.create ticket).isBuiltIn = true)
    (current : direct.context.script = some script) (abreast : Abreast gap [] direct deferred)
    (lags : Lags start jobs (deferred.host.nextTicket ≤ ·) direct deferred)
    (forGood : RefusedForGood (scriptSubmissions registry .main nodes direct)) :
    ∃ more, ScriptPaired start jobs deferred.host.nextTicket more
      (loadCurrent registry .main script nodes direct)
      (loadCurrent registry .worker script nodes deferred) := by
  have alsoCurrent := abreast.script.trans current
  obtain ⟨_, _, taken⟩ := initialiseAll_pass nodes makes current
  obtain ⟨results, perm, headers⟩ := initialiseAll_pass nodes makes alsoCurrent
  have took := initialiseAll_abreast abreast nodes creates
  have remembers := (remembers_carried .worker).loadCurrent registry script nodes deferred
  have before := abreast.recorded
  unfold scriptSubmissions at forGood
  unfold loadCurrent at remembers ⊢
  generalize initialiseAll registry nodes direct = one,
    initialiseAll registry nodes deferred = other at *
  cases took with
  | @same structures between also builtIn abreast =>
    have tickets := (perm.filterMap (·.inner.ticket?))
    have inRange : ∀ ticket ∈ commandTicketsOf structures,
        deferred.host.nextTicket ≤ ticket ∧ ticket < also.host.nextTicket := fun ticket member =>
      headers.fresh ticket (tickets.mem_iff.mp (mem_ticketsOf_of_command member))
    have distinct : (commandTicketsOf structures).Nodup :=
      (tickets.nodup_iff.mpr headers.distinct).sublist (commandTicketsOf_sublist structures)
    have frame := each_frame .worker structures (headers.current.trans alsoCurrent)
      fun loaded member => headers.declares loaded (perm.mem_iff.mp member)
    have readyLags : Lags start jobs (deferred.host.nextTicket ≤ ·) between also := lags.of_idle
      ⟨taken.config, taken.bus, taken.bound, taken.commands, taken.registrations, taken.queue⟩
      ⟨headers.config, headers.bus, headers.bound, headers.commands, headers.registrations,
        headers.queue⟩
    obtain ⟨more, names, pass⟩ := each_paired structures builtIn distinct
      (fun ticket member => (inRange ticket member).1) abreast readyLags forGood
      fun _ _ _ => List.not_mem_nil
    have length := pass.fares.length_eq
    dsimp only at remembers ⊢
    generalize each (load .main) structures between = one,
      each (load .worker) structures also = other at *
    obtain ⟨direct', between'⟩ := one
    obtain ⟨deferred', also'⟩ := other
    dsimp only at *
    obtain ⟨calls, mended⟩ := each_afterLoad_builtIn direct' between' fun loaded member =>
      pass.builtIn loaded (List.mem_append_left _ member)
    obtain ⟨alsoCalls, alsoMended⟩ := each_afterLoad_builtIn deferred' also' fun loaded member =>
      pass.builtIn loaded (List.mem_append_right _ member)
    rw [alsoMended] at remembers
    rw [mended, alsoMended]
    dsimp only
    have final : Abreast (gap + names.length) names
        ((between'.inContext ({ · with calls })).inContext
          (·.updateInfo fun info => { info with structures := direct'.length }))
        ((also'.inContext ({ · with calls := alsoCalls })).inContext
          (·.updateInfo fun info => { info with structures := deferred'.length })) :=
      { pass.abreast with structureCount := length.symm }
    have after : also'.host.nextTicket = also.host.nextTicket := frame.steady.nextTicket
    refine ⟨more, ⟨rfl, pass.fares, ?_, ?_⟩, fun loaded member => pass.builtIn loaded
      (List.mem_append_right _ member), ?_, ?_, pass.own ▸ distinct, after ▸ headers.later,
      ⟨_, final.toAlike⟩, ?_⟩
    · rw [Host.discount, CommandStructure.foldl_uncount, pass.those]
      exact final.discounted
    · have recorded := final.recorded
      have kept := remembers.length_le
      change _ = _ + (deferred'.filter _).length
      rw [pass.count]
      dsimp only at *
      omega
    · exact fun job member ticket below => pass.spares job member ticket fun own =>
        absurd (inRange ticket own).1 (Nat.not_le.mpr below)
    · intro ticket member
      exact after ▸ inRange ticket (pass.own ▸ member)
    · refine .of_idle (pass.lags.mono fun ticket above => ?_) (.refl _) (.refl _)
      refine ⟨headers.later.trans (after ▸ above), fun own => ?_⟩
      exact absurd (inRange ticket own).2 (Nat.not_lt.mpr (after ▸ above))

end Loading

end ScriptBinding

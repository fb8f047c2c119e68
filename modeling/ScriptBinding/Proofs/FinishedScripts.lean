import Mathlib.Data.List.Perm.Basic
import ScriptBinding.Proofs.Headers

/-! # Scripts on the main thread, from their first section to their end

A script that is loaded on the main thread has its commands and its functions at once, and its
triggers as soon as it is finished: they are bound behind those that are there, in the order in
which they wait.
-/

namespace ScriptBinding

namespace Context

/-- A new context has no script, and nothing waits in it. -/
theorem withParts_idle (parts : List ContextPart) :
    (withParts parts).script = none ∧ (withParts parts).currentDrafts = [] := by
  have kept (context : Context) (idle : context.script = none ∧ context.currentDrafts = []) :
      (parts.foldl build context).script = none ∧
        (parts.foldl build context).currentDrafts = [] := by
    induction parts generalizing context with
    | nil => exact idle
    | cons part others ih =>
      refine ih _ ?_
      cases part with
      | drafts => exact ⟨idle.1, rfl⟩
      | _ => exact idle
  exact kept {} ⟨rfl, rfl⟩

end Context

namespace Workspace

variable {script : Script} {workspace : Workspace}

/-- The main thread binds what waits at once. -/
theorem flush_main (current : workspace.context.script = some script) :
    (workspace.flush .main).host =
      workspace.host.perform (.bind script workspace.context.currentDrafts) := by
  unfold flush
  dsimp only
  split
  · next none =>
    rw [List.isEmpty_iff.mp none]
    rfl
  · rw [current]
    exact Host.submit_main (.bind script workspace.context.currentDrafts) workspace.host

theorem flush_of_none {thread : Thread} (none : workspace.context.currentDrafts = []) :
    workspace.flush thread = workspace := by
  unfold flush
  rw [none]
  rfl

theorem flush_context (thread : Thread) (workspace : Workspace) :
    (workspace.flush thread).context = workspace.context := by
  unfold flush
  dsimp only
  split
  · rfl
  · split <;> rfl

theorem setScript_of_moves {thread : Thread} {next : Option Script}
    (moves : Script.sameCurrent workspace.context.script next = false) :
    workspace.setScript thread next = (workspace.flush thread).inContext (·.moved next) := by
  unfold setScript
  rw [moves]
  rfl

theorem moved_drafts (next : Option Script) (context : Context) :
    (context.moved next).currentDrafts = [] := by
  simp only [Context.currentDrafts, Context.moved]
  cases context.drafts <;> rfl

theorem finish_main (current : workspace.context.script = some script) :
    (workspace.setScript .main none).host =
      workspace.host.perform (.bind script workspace.context.currentDrafts) := by
  have moves : Script.sameCurrent workspace.context.script none = false := by
    rw [current]
    rfl
  rw [setScript_of_moves moves]
  exact flush_main current

/-- Without a current script there is none to finish. -/
theorem finish_of_none {thread : Thread} (noScript : workspace.context.script = none) :
    workspace.setScript thread none = workspace := by
  unfold setScript
  rw [noScript]
  rfl

/-- Nothing waits outside of scripts. -/
def Orderly (workspace : Workspace) : Prop :=
  workspace.context.script = none → workspace.context.currentDrafts = []

theorem finish_context (thread : Thread) (orderly : workspace.Orderly) :
    (workspace.setScript thread none).context.script = none ∧
      (workspace.setScript thread none).context.currentDrafts = [] := by
  cases current : workspace.context.script with
  | none =>
    rw [finish_of_none current]
    exact ⟨current, orderly current⟩
  | some script =>
    have moves : Script.sameCurrent workspace.context.script none = false := by
      rw [current]
      rfl
    rw [setScript_of_moves moves]
    exact ⟨rfl, moved_drafts none _⟩

theorem orderly_finish (thread : Thread) (orderly : workspace.Orderly) :
    (workspace.setScript thread none).Orderly :=
  fun _ => (finish_context thread orderly).2

/-- Moving on to another script binds what finishing the current one binds. -/
theorem start_script (thread : Thread) (orderly : workspace.Orderly)
    (moves : Script.sameCurrent workspace.context.script (some script) = false) :
    (workspace.setScript thread (some script)).host = (workspace.setScript thread none).host ∧
      (workspace.setScript thread (some script)).context.script = some script ∧
      (workspace.setScript thread (some script)).context.currentDrafts = [] := by
  rw [setScript_of_moves moves]
  refine ⟨?_, rfl, moved_drafts _ _⟩
  cases current : workspace.context.script with
  | none =>
    rw [finish_of_none current, flush_of_none (orderly current)]
    rfl
  | some _ =>
    have moves : Script.sameCurrent workspace.context.script none = false := by
      rw [current]
      rfl
    rw [setScript_of_moves moves]
    rfl

end Workspace

namespace Loading

variable {Possible : EventFilter → Prop} {registry : Registry} {script : Script}

/-- Mending never changes a structure. -/
theorem afterLoad_quiet (loaded : LoadedStructure) (workspace : Workspace) :
    (afterLoad loaded workspace).1 = loaded ∧ workspace.Quiet (afterLoad loaded workspace).2 := by
  have inner : (loaded.inner.afterLoad workspace).2.1 = loaded.inner := by
    cases loaded.inner <;> rfl
  unfold afterLoad
  split
  · refine ⟨?_, ?_⟩
    · rw [conclude_structure, inner]
    · exact (Workspace.Quiet.of_still (loaded.inner.afterLoad_still workspace)).trans
        (conclude_quiet .afterLoad loaded _)
  · exact ⟨rfl, .refl workspace⟩

theorem each_afterLoad (structures : List LoadedStructure) (workspace : Workspace) :
    (each afterLoad structures workspace).1 = structures ∧
      workspace.Quiet (each afterLoad structures workspace).2 := by
  induction structures generalizing workspace with
  | nil => exact ⟨rfl, .refl workspace⟩
  | cons first others ih =>
    obtain ⟨same, quiet⟩ := afterLoad_quiet first workspace
    obtain ⟨sameRest, quietRest⟩ := ih (afterLoad first workspace).2
    refine ⟨?_, quiet.trans quietRest⟩
    exact congrArg₂ List.cons same sameRest

/-- What loading a script does on any thread, before the script is finished. -/
structure ScriptFrame (Possible : EventFilter → Prop) (registry : Registry) (script : Script)
    (before : Workspace) (loaded : LoadedScript) (after : Workspace) : Prop where
  owner : loaded.script = script
  config : after.host.config = before.host.config
  classes : after.host.classes = before.host.classes
  bus : after.host.bus = before.host.bus
  bound : after.host.bound = before.host.bound
  current : after.context.script = some script
  later : before.host.nextTicket ≤ after.host.nextTicket
  fresh : ∀ ticket ∈ ticketsOf loaded.structures,
    before.host.nextTicket ≤ ticket ∧ ticket < after.host.nextTicket
  distinct : (ticketsOf loaded.structures).Nodup
  functions : FunctionTable.GrownBy script before.host.functions after.host.functions
  declares : ∀ inner ∈ loaded.structures, inner.inner.DeclaresIn script
  events : ∀ inner ∈ loaded.structures, inner.inner.event?.isSome = true → inner.loaded = true
  waiting : ∃ results, loaded.structures.Perm results ∧
    Waits Possible registry results after.context.currentDrafts

/-- What loading a script on the main thread does, before the script is finished. -/
structure ScriptPass (Possible : EventFilter → Prop) (registry : Registry) (script : Script)
    (before : Workspace) (loaded : LoadedScript) (after : Workspace) : Prop extends
    ScriptFrame Possible registry script before loaded after where
  queue : after.host.queue = before.host.queue
  sound : after.host.Sound
  others : ∀ ticket ∉ commandTicketsOf loaded.structures,
    after.host.registrations ticket = before.host.registrations ticket
  registered : ∀ inner ∈ loaded.structures, inner.Registered script after.host

/-- Structures that have been loaded can be put in the order in which they took their headers. -/
theorem perm_of_kinds {structures ordered results : List LoadedStructure}
    (kinds : structures.map LoadedStructure.kind = ordered.map LoadedStructure.kind)
    (perm : ordered.Perm results) :
    ∃ others, structures.Perm others ∧
      others.map LoadedStructure.kind = results.map LoadedStructure.kind := by
  have related : List.Forall₂ (fun a b => LoadedStructure.kind a = LoadedStructure.kind b)
      ordered structures :=
    List.forall₂_map_left_iff.mp (List.forall₂_map_right_iff.mp
      (List.forall₂_eq_eq_eq ▸ kinds.symm))
  obtain ⟨others, same, reordered⟩ := List.perm_comp_forall₂ perm.symm related
  refine ⟨others, reordered.symm, ?_⟩
  have flipped := List.Forall₂.flip same
  rw [← List.forall₂_eq_eq_eq, List.forall₂_map_left_iff, List.forall₂_map_right_iff]
  exact flipped.imp fun _ _ equal => equal.symm

/-- The steps of loading the script that has just become current. -/
theorem loadCurrent_split {workspace : Workspace} (thread : Thread) (nodes : List Node)
    (makes : registry.MakesOwn Possible) (current : workspace.context.script = some script) :
    ∃ ordered results between structures loaded,
      ordered.Perm results ∧
      HeaderPass Possible registry script workspace results between ∧
      each (load thread) ordered between = (structures, loaded) ∧
      (loadCurrent registry thread script nodes workspace).1.script = script ∧
      (loadCurrent registry thread script nodes workspace).1.structures = structures ∧
      loaded.Quiet (loadCurrent registry thread script nodes workspace).2 := by
  obtain ⟨results, perm, headers⟩ := initialiseAll_pass nodes makes current
  unfold loadCurrent
  generalize initialiseAll registry nodes workspace = initialised at *
  obtain ⟨ordered, between⟩ := initialised
  refine ⟨ordered, results, between, _, _, perm, headers, rfl, rfl, ?_, ?_⟩
  · exact (each_afterLoad _ _).1
  · obtain ⟨_, quiet⟩ := each_afterLoad (each (load thread) ordered between).1
      (each (load thread) ordered between).2
    refine quiet.trans ⟨?_, rfl, rfl, rfl, rfl⟩
    constructor <;> rfl

/-- What has been handed out, declared and buffered once a script is loaded, on any thread. -/
theorem ScriptFrame.of_passes {workspace between final after : Workspace} {loaded : LoadedScript}
    {ordered results : List LoadedStructure} (owner : loaded.script = script)
    (current : workspace.context.script = some script)
    (noneWait : workspace.context.currentDrafts = []) (perm : ordered.Perm results)
    (headers : HeaderPass Possible registry script workspace results between)
    (loads : LoadFrame script ordered between loaded.structures final) (quiet : final.Quiet after) :
    ScriptFrame Possible registry script workspace loaded after := by
  have steady := loads.steady.trans quiet.steady
  have sameTickets : (ticketsOf loaded.structures).Perm (ticketsOf results) := by
    rw [ticketsOf_of_kinds loads.kinds]
    exact perm.filterMap _
  refine ⟨owner, steady.config.trans headers.config, steady.classes.trans headers.classes,
    steady.bus.trans headers.bus, steady.bound.trans headers.bound,
    (steady.script.trans headers.current).trans current,
    headers.later.trans_eq steady.nextTicket.symm, ?_, ?_, ?_, loads.declares, loads.events, ?_⟩
  · intro ticket member
    have range := headers.fresh ticket (sameTickets.mem_iff.mp member)
    exact ⟨range.1, range.2.trans_eq steady.nextTicket.symm⟩
  · exact sameTickets.nodup_iff.mpr headers.distinct
  · refine headers.functions.trans (loads.functions.trans ?_)
    exact quiet.functions ▸ .refl _
  · obtain ⟨drafts, appended, waits⟩ := headers.waiting
    obtain ⟨others, reordered, kinds⟩ := perm_of_kinds loads.kinds perm
    refine ⟨others, reordered, ?_⟩
    have sameDrafts : after.context.currentDrafts = drafts := by
      rw [noneWait, List.nil_append] at appended
      rw [← appended, Context.currentDrafts, Context.currentDrafts, steady.drafts]
    exact sameDrafts.symm ▸ waits.of_kinds kinds

/-- Loading the script that has just become current, on the main thread. -/
theorem loadCurrent_main {workspace : Workspace} (nodes : List Node)
    (makes : registry.MakesOwn Possible) (current : workspace.context.script = some script)
    (none : workspace.context.currentDrafts = []) (sound : workspace.host.Sound)
    (unused : ∀ ticket, workspace.host.nextTicket ≤ ticket →
      workspace.host.registrations ticket = {}) :
    ScriptPass Possible registry script workspace
      (loadCurrent registry .main script nodes workspace).1
      (loadCurrent registry .main script nodes workspace).2 := by
  obtain ⟨ordered, results, between, structures, final, perm, headers, whole, owner, same, quiet⟩ :=
    loadCurrent_split .main nodes makes current
  have tickets : (ticketsOf ordered).Perm (ticketsOf results) := perm.filterMap _
  have there := headers.current.trans current
  have declares : ∀ loaded ∈ ordered, loaded.inner.DeclaresIn script :=
    fun loaded member => headers.declares loaded (perm.mem_iff.mp member)
  have frame := each_frame .main ordered there declares
  have loads := each_load ordered there (sound.of_same headers.commands headers.registrations)
    (tickets.nodup_iff.mpr headers.distinct) declares (by
      intro ticket member
      rw [headers.registrations]
      exact unused ticket (headers.fresh ticket (tickets.mem_iff.mp member)).1)
  rw [whole, ← same] at frame loads
  refine ⟨.of_passes owner current none perm headers frame quiet,
    quiet.queue.trans (loads.queue.trans headers.queue), quiet.sound loads.sound, ?_, ?_⟩
  · intro ticket absent
    rw [commandTicketsOf_of_kinds frame.kinds] at absent
    rw [quiet.registrations, loads.others ticket absent, headers.registrations]
  · intro inner member
    refine Registered.of_same (loads.registered inner member) fun ticket _ => ?_
    exact congrFun quiet.registrations ticket

/-! ## A script that has been loaded and finished -/

/-- What a script has gained once it has been loaded and finished on the main thread. -/
structure Gains (Possible : EventFilter → Prop) (registry : Registry) (before : Host)
    (loaded : LoadedScript) (after : Host) : Prop where
  config : after.config = before.config
  classes : after.classes = before.classes
  queue : after.queue = before.queue
  later : before.nextTicket ≤ after.nextTicket
  fresh : ∀ ticket ∈ ticketsOf loaded.structures,
    before.nextTicket ≤ ticket ∧ ticket < after.nextTicket
  distinct : (ticketsOf loaded.structures).Nodup
  sound : after.Sound
  tidy : after.Tidy
  functions : FunctionTable.GrownBy loaded.script before.functions after.functions
  others : ∀ ticket ∉ commandTicketsOf loaded.structures,
    after.registrations ticket = before.registrations ticket
  registered : ∀ inner ∈ loaded.structures, inner.Registered loaded.script after
  declares : ∀ inner ∈ loaded.structures, inner.inner.DeclaresIn loaded.script
  events : ∀ inner ∈ loaded.structures, inner.inner.event?.isSome = true → inner.loaded = true
  triggers : ∃ results drafts, loaded.structures.Perm results ∧
    Waits Possible registry results drafts ∧
    after.bound = Host.boundAfter loaded.script drafts before.bound ∧
    after.bus.subscriptions = before.bus.subscriptions ++
      drafts.flatMap (·.subscriptions before.config.defaultPriority loaded.script) ∧
    after.bus.selfRegistered =
      before.bus.selfRegistered ++ drafts.flatMap (·.selfRegistered loaded.script)

/-- Finishing the script that has been loaded binds its triggers. -/
theorem ScriptPass.finish {before after : Workspace} {loaded : LoadedScript}
    (pass : ScriptPass Possible registry script before loaded after) (tidy : before.host.Tidy)
    (unbound : ∀ ticket, before.host.nextTicket ≤ ticket → before.host.bound ticket = none) :
    Gains Possible registry before.host loaded (after.setScript .main none).host := by
  obtain rfl := pass.owner
  obtain ⟨results, perm, waits⟩ := pass.waiting
  obtain ⟨step, bound, subscriptions, selfRegistered⟩ :=
    Host.perform_bind loaded.script after.context.currentDrafts after.host
  have tickets : (ticketsOf loaded.structures).Perm (ticketsOf results) := perm.filterMap _
  have distinct : (after.context.currentDrafts.map TriggerDraft.ticket).Nodup :=
    (tickets.nodup_iff.mp pass.distinct).sublist waits.tickets
  have free : ∀ draft ∈ after.context.currentDrafts, after.host.bound draft.ticket = none := by
    intro draft member
    have own := waits.tickets.subset (List.mem_map_of_mem member)
    rw [pass.bound]
    exact unbound _ (pass.fresh _ (tickets.mem_iff.mpr own)).1
  rw [Workspace.finish_main pass.current]
  refine ⟨step.config.trans pass.config, step.classes.trans pass.classes,
    step.queue.trans pass.queue, pass.later.trans_eq step.nextTicket.symm, ?_, pass.distinct,
    pass.sound.of_same step.commands step.registrations,
    (tidy.of_same pass.bus pass.bound).bind distinct free, ?_, ?_, ?_, pass.declares,
    pass.events, results, _, perm, waits, pass.bound ▸ bound, ?_, ?_⟩
  · intro ticket member
    have range := pass.fresh ticket member
    exact ⟨range.1, range.2.trans_eq step.nextTicket.symm⟩
  · rw [step.functions]
    exact pass.functions
  · intro ticket absent
    rw [step.registrations]
    exact pass.others ticket absent
  · intro inner member
    refine Registered.of_same (pass.registered inner member) fun ticket _ => ?_
    exact congrFun step.registrations ticket
  · rw [subscriptions, pass.bus, pass.config]
  · rw [selfRegistered, pass.bus]

/-- Loading and finishing a script on the main thread. -/
theorem loadScript_main {workspace : Workspace} (source : ScriptSource)
    (makes : registry.MakesOwn Possible) (orderly : workspace.Orderly)
    (moves : Script.sameCurrent workspace.context.script (some script) = false)
    (sound : (workspace.setScript .main none).host.Sound)
    (tidy : (workspace.setScript .main none).host.Tidy)
    (unused : ∀ ticket, (workspace.setScript .main none).host.nextTicket ≤ ticket →
      (workspace.setScript .main none).host.registrations ticket = {})
    (unbound : ∀ ticket, (workspace.setScript .main none).host.nextTicket ≤ ticket →
      (workspace.setScript .main none).host.bound ticket = none) :
    let (loaded, after) := loadScript registry .main script source workspace
    loaded.script = script ∧ after.context.script = some script ∧
      Gains Possible registry (workspace.setScript .main none).host loaded
        (after.setScript .main none).host := by
  obtain ⟨host, current, none⟩ := Workspace.start_script .main orderly moves
  rw [← host] at sound tidy unused unbound ⊢
  have pass := loadCurrent_main source.tree.nodes makes current none sound unused
  exact ⟨pass.owner, pass.current, pass.finish tidy unbound⟩

end Loading

end ScriptBinding

import ScriptBinding.Proofs.PhaseOrder
import ScriptBinding.Proofs.StructureKinds

/-! # Loading scripts on the main thread

What loading a script on the main thread adds to the host: functions of the script, commands of the
script under the tickets of its loaded command structures, and nothing else. Its triggers wait.
-/

namespace ScriptBinding

/-- The tickets of structures. -/
def ticketsOf (structures : List LoadedStructure) : List Nat :=
  structures.filterMap (·.inner.ticket?)

theorem mem_ticketsOf {structures : List LoadedStructure} {ticket : Nat} :
    ticket ∈ ticketsOf structures ↔
      ∃ loaded ∈ structures, loaded.inner.ticket? = some ticket :=
  List.mem_filterMap

/-- The tickets of the events among some structures. -/
def eventTicketsOf (structures : List LoadedStructure) : List Nat :=
  structures.filterMap (·.inner.eventTicket?)

/-- The tickets of the commands among some structures. -/
def commandTicketsOf (structures : List LoadedStructure) : List Nat :=
  structures.filterMap (·.inner.commandTicket?)

theorem mem_eventTicketsOf {structures : List LoadedStructure} {ticket : Nat} :
    ticket ∈ eventTicketsOf structures ↔
      ∃ loaded ∈ structures, loaded.inner.eventTicket? = some ticket :=
  List.mem_filterMap

theorem mem_commandTicketsOf {structures : List LoadedStructure} {ticket : Nat} :
    ticket ∈ commandTicketsOf structures ↔
      ∃ loaded ∈ structures, loaded.inner.commandTicket? = some ticket :=
  List.mem_filterMap

theorem mem_ticketsOf_of_event {structures : List LoadedStructure} {ticket : Nat}
    (member : ticket ∈ eventTicketsOf structures) : ticket ∈ ticketsOf structures := by
  obtain ⟨loaded, there, found⟩ := mem_eventTicketsOf.mp member
  refine mem_ticketsOf.mpr ⟨loaded, there, ?_⟩
  rw [Structure.ticket?_eq, found]
  rfl

theorem mem_ticketsOf_of_command {structures : List LoadedStructure} {ticket : Nat}
    (member : ticket ∈ commandTicketsOf structures) : ticket ∈ ticketsOf structures := by
  obtain ⟨loaded, there, found⟩ := mem_commandTicketsOf.mp member
  obtain ⟨command, isCommand, rfl⟩ := Option.map_eq_some_iff.mp found
  exact mem_ticketsOf.mpr ⟨loaded, there, Structure.ticket?_of_command? isCommand⟩

theorem commandTicketsOf_sublist (structures : List LoadedStructure) :
    (commandTicketsOf structures).Sublist (ticketsOf structures) := by
  induction structures with
  | nil => exact .slnil
  | cons first others ih =>
    rw [commandTicketsOf, ticketsOf, List.filterMap_cons, List.filterMap_cons,
      Structure.commandTicket?_eq]
    cases first.inner.event?.isSome with
    | true =>
      cases first.inner.ticket? with
      | none => exact ih
      | some ticket => exact ih.cons ticket
    | false =>
      cases first.inner.ticket? with
      | none => exact ih
      | some ticket => exact ih.cons_cons ticket

/-- No ticket is that of an event and that of a command. -/
theorem not_mem_commandTicketsOf {structures : List LoadedStructure} {ticket : Nat}
    (distinct : (ticketsOf structures).Nodup) (isEvent : ticket ∈ eventTicketsOf structures) :
    ticket ∉ commandTicketsOf structures := by
  intro isCommand
  induction structures with
  | nil => exact List.not_mem_nil isEvent
  | cons first others ih =>
    obtain ⟨event, member, own⟩ := mem_eventTicketsOf.mp isEvent
    obtain ⟨command, there, also⟩ := mem_commandTicketsOf.mp isCommand
    have first? {ticket : Nat} (found : first.inner.ticket? = some ticket) :
        ticket ∉ ticketsOf others := by
      rw [ticketsOf, List.filterMap_cons, found] at distinct
      exact (List.nodup_cons.mp distinct).1
    have rest : (ticketsOf others).Nodup :=
      distinct.sublist ((List.sublist_cons_self first others).filterMap _)
    have eventTicket : event.inner.ticket? = some ticket := by
      rw [Structure.ticket?_eq, own]
      rfl
    have commandTicket : command.inner.ticket? = some ticket := by
      obtain ⟨_, found, rfl⟩ := Option.map_eq_some_iff.mp also
      exact Structure.ticket?_of_command? found
    rcases List.mem_cons.mp member with rfl | later
    · rcases List.mem_cons.mp there with rfl | afterwards
      · rw [Structure.commandTicket?_eq] at also
        obtain ⟨_, found, _⟩ := Option.map_eq_some_iff.mp own
        rw [found] at also
        cases also
      · exact first? eventTicket (mem_ticketsOf.mpr ⟨command, afterwards, commandTicket⟩)
    · rcases List.mem_cons.mp there with rfl | afterwards
      · exact first? commandTicket (mem_ticketsOf.mpr ⟨event, later, eventTicket⟩)
      · exact ih rest (mem_eventTicketsOf.mpr ⟨event, later, own⟩)
          (mem_commandTicketsOf.mpr ⟨command, afterwards, also⟩)

/-- What loading does not change of a structure. -/
def LoadedStructure.kind (loaded : LoadedStructure) :
    Nat × String × Nat × Int × Option Nat × Option EventStructure :=
  (loaded.index, loaded.key, loaded.line, loaded.priority, loaded.inner.ticket?,
    loaded.inner.event?)

theorem ticketsOf_eq_kinds (structures : List LoadedStructure) :
    ticketsOf structures = (structures.map LoadedStructure.kind).filterMap (·.2.2.2.2.1) := by
  rw [List.filterMap_map]
  rfl

theorem ticketsOf_of_kinds {structures others : List LoadedStructure}
    (kinds : structures.map LoadedStructure.kind = others.map LoadedStructure.kind) :
    ticketsOf structures = ticketsOf others := by
  rw [ticketsOf_eq_kinds, kinds, ← ticketsOf_eq_kinds]

theorem commandTicketsOf_of_kinds {structures others : List LoadedStructure}
    (kinds : structures.map LoadedStructure.kind = others.map LoadedStructure.kind) :
    commandTicketsOf structures = commandTicketsOf others := by
  have eq_kinds (structures : List LoadedStructure) : commandTicketsOf structures =
      (structures.map LoadedStructure.kind).filterMap fun kind =>
        if kind.2.2.2.2.2.isSome then none else kind.2.2.2.2.1 := by
    rw [List.filterMap_map]
    exact List.filterMap_congr fun loaded _ => loaded.inner.commandTicket?_eq
  rw [eq_kinds, kinds, ← eq_kinds]

/-- A command structure is marked as loaded exactly if its command is registered. -/
def LoadedStructure.Registered (script : Script) (host : Host) (loaded : LoadedStructure) : Prop :=
  ∀ command, loaded.inner.command? = some command →
    if loaded.loaded then
      ∃ registered : Command, command.name = some registered.name ∧ registered.script = script ∧
        host.registrations command.ticket = { registered := some registered }
    else host.registrations command.ticket = {}

/-- Only the log and the records of the context have changed. -/
structure Workspace.Quiet (before after : Workspace) : Prop where
  steady : before.Steady after
  queue : after.host.queue = before.host.queue
  commands : after.host.commands = before.host.commands
  registrations : after.host.registrations = before.host.registrations
  functions : after.host.functions = before.host.functions

namespace Workspace.Quiet

theorem refl (workspace : Workspace) : Quiet workspace workspace :=
  ⟨.refl workspace, rfl, rfl, rfl, rfl⟩

theorem trans {first second third : Workspace} (before : Quiet first second)
    (after : Quiet second third) : Quiet first third :=
  ⟨before.steady.trans after.steady, after.queue.trans before.queue,
    after.commands.trans before.commands, after.registrations.trans before.registrations,
    after.functions.trans before.functions⟩

theorem of_still {before after : Workspace} (still : before.Still after) : Quiet before after :=
  ⟨.of_untouched still.untouched still.drafts, still.untouched.queue, still.untouched.commands,
    still.untouched.registrations, still.functions⟩

theorem noteCall (call : PhaseCall) (workspace : Workspace) :
    Quiet workspace (workspace.inContext (·.noteCall call)) := by
  refine ⟨?_, rfl, rfl, rfl, rfl⟩
  constructor <;> rfl

theorem sound {before after : Workspace} (quiet : Quiet before after)
    (sound : before.host.Sound) : after.host.Sound :=
  sound.of_same quiet.commands quiet.registrations

end Workspace.Quiet

namespace Loading

theorem conclude_quiet (phase : Phase) (loaded : LoadedStructure)
    (result : Outcome Unit × Structure × Workspace) :
    result.2.2.Quiet (conclude phase loaded result).2.2 := by
  obtain ⟨outcome, inner, after⟩ := result
  unfold conclude
  dsimp only
  split
  · exact .noteCall _ after
  · exact (Workspace.Quiet.noteCall _ after).trans (.of_still (.reportAt _ _ _))

theorem conclude_structure (phase : Phase) (loaded : LoadedStructure)
    (result : Outcome Unit × Structure × Workspace) :
    (conclude phase loaded result).2.1 = { loaded with inner := result.2.1 } :=
  (conclude_calls phase loaded result).1

theorem preload_structure (loaded : LoadedStructure) (workspace : Workspace) :
    (preload loaded workspace).1 =
      { loaded with inner := (loaded.inner.preload workspace).2.1, preloaded := true } := by
  have concluded := conclude_structure .preload loaded (loaded.inner.preload workspace)
  unfold preload
  generalize conclude .preload loaded (loaded.inner.preload workspace) = result at *
  obtain ⟨_, after, _⟩ := result
  simp only at concluded
  rw [concluded]

/-- What a pass of loading does to some structures and to the workspace, on any thread. -/
structure LoadFrame (script : Script) (structures : List LoadedStructure) (before : Workspace)
    (results : List LoadedStructure) (after : Workspace) : Prop where
  kinds : results.map LoadedStructure.kind = structures.map LoadedStructure.kind
  steady : before.Steady after
  functions : FunctionTable.GrownBy script before.host.functions after.host.functions
  declares : ∀ loaded ∈ results, loaded.inner.DeclaresIn script
  events : ∀ loaded ∈ results, loaded.inner.event?.isSome = true → loaded.loaded = true

/-- What a pass of loading does on the main thread, where commands are registered at once. -/
structure LoadPass (script : Script) (structures : List LoadedStructure) (before : Workspace)
    (results : List LoadedStructure) (after : Workspace) : Prop where
  queue : after.host.queue = before.host.queue
  sound : after.host.Sound
  others : ∀ ticket, ticket ∉ commandTicketsOf structures →
    after.host.registrations ticket = before.host.registrations ticket
  registered : ∀ loaded ∈ results, loaded.Registered script after.host

variable {script : Script} {workspace : Workspace}

/-- What preloading does to a structure that has taken its header, whatever comes of it. -/
structure PreloadPass (script : Script) (loaded : LoadedStructure) (before : Workspace)
    (result : LoadedStructure) (after : Workspace) : Prop where
  kind : result.kind = loaded.kind
  command : result.inner.command? = loaded.inner.command?
  declares : result.inner.DeclaresIn script
  unloaded : result.loaded = loaded.loaded
  steady : before.Steady after
  queue : after.host.queue = before.host.queue
  commands : after.host.commands = before.host.commands
  registrations : after.host.registrations = before.host.registrations
  functions : FunctionTable.GrownBy script before.host.functions after.host.functions

theorem preload_pass (loaded : LoadedStructure) (current : workspace.context.script = some script)
    (declares : loaded.inner.DeclaresIn script) :
    PreloadPass script loaded workspace (preload loaded workspace).1
      (preload loaded workspace).2 := by
  have spec := loaded.inner.preload_spec current declares
  obtain ⟨untouched, drafts⟩ := loaded.inner.preload_untouched workspace
  have quiet := conclude_quiet .preload loaded (loaded.inner.preload workspace)
  have same := conclude_structure .preload loaded (loaded.inner.preload workspace)
  unfold preload
  generalize conclude .preload loaded (loaded.inner.preload workspace) = concluded at *
  obtain ⟨success, after, final⟩ := concluded
  simp only at quiet same
  subst same
  refine ⟨?_, spec.command, spec.declares, rfl, ?_, ?_, ?_, ?_, ?_⟩
  · simp only [LoadedStructure.kind, spec.ticket, spec.event]
  · exact (Workspace.Steady.of_untouched untouched drafts).trans quiet.steady
  · exact quiet.queue.trans untouched.queue
  · exact quiet.commands.trans untouched.commands
  · exact quiet.registrations.trans untouched.registrations
  · exact quiet.functions ▸ spec.functions

/-- A structure whose body is to be loaded, which is preloaded first unless it has been. -/
def readied (loaded : LoadedStructure) (workspace : Workspace) : LoadedStructure × Workspace :=
  if loaded.preloaded then (loaded, workspace) else preload loaded workspace

/-- Load the body of a structure that has been preloaded. -/
def loadBody (thread : Thread) (loaded : LoadedStructure) (workspace : Workspace) :
    LoadedStructure × Workspace :=
  let (success, loaded, after) := conclude .load loaded (loaded.inner.load thread workspace)
  ({ loaded with loaded := success }, after)

theorem load_eq (thread : Thread) (loaded : LoadedStructure) (workspace : Workspace) :
    load thread loaded workspace =
      loadBody thread (readied loaded workspace).1 (readied loaded workspace).2 := rfl

theorem readied_pass (loaded : LoadedStructure) (current : workspace.context.script = some script)
    (declares : loaded.inner.DeclaresIn script) :
    PreloadPass script loaded workspace (readied loaded workspace).1
      (readied loaded workspace).2 := by
  unfold readied
  split
  · exact ⟨rfl, rfl, declares, rfl, .refl workspace, rfl, rfl, rfl, .refl _⟩
  · exact preload_pass loaded current declares

/-- Loading a structure comes down to loading its body, once it has been preloaded. -/
theorem load_split (thread : Thread) (loaded : LoadedStructure)
    (current : workspace.context.script = some script)
    (declares : loaded.inner.DeclaresIn script) :
    ∃ ready between, PreloadPass script loaded workspace ready between ∧
      load thread loaded workspace =
        ({ (conclude .load ready (ready.inner.load thread between)).2.1 with
            loaded := (conclude .load ready (ready.inner.load thread between)).1 },
          (conclude .load ready (ready.inner.load thread between)).2.2) :=
  ⟨_, _, readied_pass loaded current declares, load_eq thread loaded workspace⟩

/-! ## Loading structures on any thread -/

theorem LoadFrame.cons {first result : LoadedStructure} {others results : List LoadedStructure}
    {before between after : Workspace} (one : LoadFrame script [first] before [result] between)
    (rest : LoadFrame script others between results after) :
    LoadFrame script (first :: others) before (result :: results) after where
  kinds := by
    have kind := one.kinds
    simp only [List.map_cons, List.map_nil, List.cons.injEq, and_true] at kind
    rw [List.map_cons, List.map_cons, kind, rest.kinds]
  steady := one.steady.trans rest.steady
  functions := one.functions.trans rest.functions
  declares := by
    intro loaded member
    rcases List.mem_cons.mp member with rfl | later
    · exact one.declares loaded List.mem_cons_self
    · exact rest.declares loaded later
  events := by
    intro loaded member
    rcases List.mem_cons.mp member with rfl | later
    · exact one.events loaded List.mem_cons_self
    · exact rest.events loaded later

/-- Concluding a phase succeeds exactly if its outcome is a success. -/
theorem conclude_success (phase : Phase) (loaded : LoadedStructure)
    (result : Outcome Unit × Structure × Workspace) :
    (conclude phase loaded result).1 = true ↔ result.1 = .done () := by
  obtain ⟨outcome, inner, after⟩ := result
  cases outcome with
  | done value => exact ⟨fun _ => rfl, fun _ => rfl⟩
  | failed failure => exact ⟨nofun, nofun⟩
  | crashed message => exact ⟨nofun, nofun⟩

theorem load_frame (thread : Thread) (loaded : LoadedStructure)
    (current : workspace.context.script = some script)
    (declares : loaded.inner.DeclaresIn script) :
    LoadFrame script [loaded] workspace [(load thread loaded workspace).1]
      (load thread loaded workspace).2 := by
  obtain ⟨ready, between, early, whole⟩ := load_split thread loaded current declares
  have spec := ready.inner.load_spec thread (early.steady.script.trans current) early.declares
  have quiet := conclude_quiet .load ready (ready.inner.load thread between)
  have same := conclude_structure .load ready (ready.inner.load thread between)
  have success := conclude_success .load ready (ready.inner.load thread between)
  rw [whole]
  generalize conclude .load ready (ready.inner.load thread between) = concluded at *
  generalize ready.inner.load thread between = result at *
  obtain ⟨done, after, final⟩ := concluded
  simp only at quiet same success ⊢
  subst same
  have kind : ({ ready with inner := result.2.1 } : LoadedStructure).kind = loaded.kind := by
    simp only [LoadedStructure.kind, spec.ticket, spec.event]
    exact early.kind
  refine ⟨?_, early.steady.trans (spec.steady.trans quiet.steady), ?_, ?_, ?_⟩
  · rw [List.map_singleton, List.map_singleton, ← kind]
    rfl
  · exact early.functions.trans (quiet.functions ▸ spec.functions)
  · intro other member
    rw [List.mem_singleton.mp member]
    exact spec.declares
  · intro other member isEvent
    rw [List.mem_singleton.mp member] at isEvent ⊢
    refine success.mpr (spec.eventDone ?_)
    rw [← spec.event]
    exact isEvent

/-- Loading structures one after the other. -/
theorem each_frame (thread : Thread) (structures : List LoadedStructure)
    (current : workspace.context.script = some script)
    (declares : ∀ loaded ∈ structures, loaded.inner.DeclaresIn script) :
    LoadFrame script structures workspace (each (load thread) structures workspace).1
      (each (load thread) structures workspace).2 := by
  induction structures generalizing workspace with
  | nil =>
    have none {Meets : LoadedStructure → Prop} : ∀ loaded ∈ [], Meets loaded :=
      fun _ member => absurd member List.not_mem_nil
    exact ⟨rfl, .refl workspace, .refl _, none, none⟩
  | cons first others ih =>
    have one := load_frame thread first current (declares first List.mem_cons_self)
    exact one.cons (ih (one.steady.script.trans current)
      fun loaded member => declares loaded (List.mem_cons_of_mem _ member))

/-! ## Loading structures on the main thread -/

theorem Registered.of_same {loaded : LoadedStructure} {before after : Host}
    (registered : loaded.Registered script before)
    (same : ∀ ticket, loaded.inner.ticket? = some ticket →
      after.registrations ticket = before.registrations ticket) :
    loaded.Registered script after := by
  intro command found
  rw [same command.ticket (Structure.ticket?_of_command? found)]
  exact registered command found

/-- Passes over single structures make up a pass over all, if no two share a ticket. -/
theorem LoadPass.cons {first result : LoadedStructure} {others results : List LoadedStructure}
    {before between after : Workspace} (one : LoadPass script [first] before [result] between)
    (rest : LoadPass script others between results after)
    (ticket : result.inner.ticket? = first.inner.ticket?)
    (apart : ∀ ticket, first.inner.ticket? = some ticket → ticket ∉ ticketsOf others) :
    LoadPass script (first :: others) before (result :: results) after where
  queue := rest.queue.trans one.queue
  sound := rest.sound
  others := by
    intro ticket absent
    have inRest : ticket ∉ commandTicketsOf others := by
      intro member
      obtain ⟨loaded, there, found⟩ := mem_commandTicketsOf.mp member
      exact absent (mem_commandTicketsOf.mpr ⟨loaded, List.mem_cons_of_mem _ there, found⟩)
    have inFirst : ticket ∉ commandTicketsOf [first] := by
      intro member
      obtain ⟨loaded, there, found⟩ := mem_commandTicketsOf.mp member
      rw [List.mem_singleton.mp there] at found
      exact absent (mem_commandTicketsOf.mpr ⟨first, List.mem_cons_self, found⟩)
    exact (rest.others ticket inRest).trans (one.others ticket inFirst)
  registered := by
    intro loaded member
    rcases List.mem_cons.mp member with rfl | later
    · refine Registered.of_same (one.registered loaded List.mem_cons_self) ?_
      intro own found
      exact rest.others own fun member =>
        apart own (ticket ▸ found) (mem_ticketsOf_of_command member)
    · exact rest.registered loaded later

/-- Which structures are commands can be told from their tickets. -/
theorem command?_of_same {first second : Structure} (ticket : first.ticket? = second.ticket?)
    (event : first.event? = second.event?) {command : CommandStructure}
    (found : first.command? = some command) :
    ∃ other, second.command? = some other ∧ other.ticket = command.ticket := by
  cases first <;> cases found
  cases second with
  | command other => exact ⟨other, rfl, (Option.some.inj ticket).symm⟩
  | event other => cases event
  | options _ => cases ticket
  | function _ => cases ticket
  | aliases => cases ticket
  | defaults _ => cases ticket
  | custom _ => cases ticket

/-- Loading a structure that has been preloaded. -/
theorem body_pass (loaded : LoadedStructure) (current : workspace.context.script = some script)
    (sound : workspace.host.Sound) (declares : loaded.inner.DeclaresIn script)
    (unused : ∀ command, loaded.inner.command? = some command →
      workspace.host.registrations command.ticket = {}) :
    LoadPass script [loaded] workspace
      [{ (conclude .load loaded (loaded.inner.load .main workspace)).2.1 with
        loaded := (conclude .load loaded (loaded.inner.load .main workspace)).1 }]
      (conclude .load loaded (loaded.inner.load .main workspace)).2.2 := by
  have frame := loaded.inner.load_spec .main current declares
  have spec := loaded.inner.load_main current sound unused
  have quiet := conclude_quiet .load loaded (loaded.inner.load .main workspace)
  have same := conclude_structure .load loaded (loaded.inner.load .main workspace)
  have success := conclude_success .load loaded (loaded.inner.load .main workspace)
  generalize conclude .load loaded (loaded.inner.load .main workspace) = concluded at *
  generalize loaded.inner.load .main workspace = result at *
  obtain ⟨done, after, final⟩ := concluded
  simp only at quiet same success ⊢
  subst same
  refine ⟨quiet.queue.trans spec.queue, quiet.sound spec.sound, ?_, ?_⟩
  · intro ticket absent
    rw [quiet.registrations]
    refine spec.others ticket fun found => absent ?_
    exact mem_commandTicketsOf.mpr ⟨loaded, List.mem_cons_self, found⟩
  · intro other member
    rw [List.mem_singleton.mp member]
    intro command found
    obtain ⟨own, isCommand, ticket⟩ := command?_of_same frame.ticket frame.event found
    rw [quiet.registrations, ← ticket]
    rcases spec.command own isCommand with ⟨failure, outcome, _, unchanged⟩ |
      ⟨registered, outcome, named, owner, kept⟩
    · have notDone : done = false := by
        rw [← Bool.not_eq_true, success, outcome]
        exact nofun
      simp only [notDone, Bool.false_eq_true, if_false]
      rw [unchanged]
      exact unused own isCommand
    · have isDone : done = true := success.mpr outcome
      simp only [isDone, if_true]
      have sameCommand : command = { own with name := some registered.name } :=
        Option.some.inj (found.symm.trans named)
      exact ⟨registered, by rw [sameCommand], owner, kept⟩

/-- Loading one structure on the main thread. -/
theorem load_one (loaded : LoadedStructure) (current : workspace.context.script = some script)
    (sound : workspace.host.Sound) (declares : loaded.inner.DeclaresIn script)
    (unused : ∀ ticket, loaded.inner.ticket? = some ticket →
      workspace.host.registrations ticket = {}) :
    LoadPass script [loaded] workspace [(load .main loaded workspace).1]
      (load .main loaded workspace).2 := by
  obtain ⟨ready, between, early, whole⟩ := load_split .main loaded current declares
  have body := body_pass ready (early.steady.script.trans current)
    (sound.of_same early.commands early.registrations) early.declares (by
      intro own found
      rw [early.registrations]
      exact unused _ (Structure.ticket?_of_command? (early.command ▸ found)))
  have tickets : commandTicketsOf [ready] = commandTicketsOf [loaded] :=
    commandTicketsOf_of_kinds (by rw [List.map_cons, List.map_cons, early.kind])
  rw [whole]
  refine ⟨body.queue.trans early.queue, body.sound, ?_, body.registered⟩
  intro ticket absent
  rw [← tickets] at absent
  rw [body.others ticket absent, early.registrations]

/-- Loading structures one after the other on the main thread. -/
theorem each_load (structures : List LoadedStructure)
    (current : workspace.context.script = some script) (sound : workspace.host.Sound)
    (distinct : (ticketsOf structures).Nodup)
    (declares : ∀ loaded ∈ structures, loaded.inner.DeclaresIn script)
    (unused : ∀ ticket ∈ ticketsOf structures, workspace.host.registrations ticket = {}) :
    LoadPass script structures workspace (each (load .main) structures workspace).1
      (each (load .main) structures workspace).2 := by
  induction structures generalizing workspace with
  | nil => exact ⟨rfl, sound, fun _ _ => rfl, fun _ member => absurd member List.not_mem_nil⟩
  | cons first others ih =>
    have frame := load_frame .main first current (declares first List.mem_cons_self)
    have one := load_one first current sound (declares first List.mem_cons_self)
      fun ticket found => unused ticket
        (mem_ticketsOf.mpr ⟨first, List.mem_cons_self, found⟩)
    have same : (load .main first workspace).1.inner.ticket? = first.inner.ticket? := by
      have kind := frame.kinds
      simp only [List.map_cons, List.map_nil, List.cons.injEq, and_true,
        LoadedStructure.kind, Prod.mk.injEq] at kind
      exact kind.2.2.2.2.1
    have apart : ∀ ticket, first.inner.ticket? = some ticket → ticket ∉ ticketsOf others := by
      intro ticket found
      rw [ticketsOf, List.filterMap_cons, found] at distinct
      exact (List.nodup_cons.mp distinct).1
    have restDistinct : (ticketsOf others).Nodup := by
      refine List.Nodup.sublist ?_ distinct
      exact (List.sublist_cons_self first others).filterMap _
    refine one.cons (ih (frame.steady.script.trans current) one.sound restDistinct
      (fun loaded member => declares loaded (List.mem_cons_of_mem _ member)) ?_) same apart
    intro ticket member
    rw [one.others ticket]
    · obtain ⟨loaded, there, found⟩ := mem_ticketsOf.mp member
      exact unused ticket
        (mem_ticketsOf.mpr ⟨loaded, List.mem_cons_of_mem _ there, found⟩)
    · intro inFirst
      obtain ⟨loaded, there, found⟩ := mem_ticketsOf.mp (mem_ticketsOf_of_command inFirst)
      rw [List.mem_singleton.mp there] at found
      exact apart ticket found member

end Loading

end ScriptBinding

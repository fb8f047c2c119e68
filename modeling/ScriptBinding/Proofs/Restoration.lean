import ScriptBinding.Proofs.CommandLabels
import ScriptBinding.Proofs.Generations
import ScriptBinding.Proofs.Unloading

/-! # What unloading restores

A script that is unloaded takes back what its load has bound, whatever else the host is bound to.
The commands go in the opposite order, so that each finds the table as it was left by its
registration; a trigger is found by its ticket, which no other trigger has; and a function by the
load that has declared it.
-/

namespace ScriptBinding

/-! ## Commands -/

/-- A command that is registered and then removed leaves no trace. -/
theorem CommandTable.Consistent.unregister_register {table after : CommandTable} {command : Command}
    (consistent : table.Consistent) (registers : table.register command = .ok after) :
    (after.unregister command.name).2 = table := by
  obtain ⟨free, commands, labels⟩ := register_ok registers
  have unnamed : table.commands.get? command.name = none := by
    refine Option.eq_none_iff_forall_ne_some.mpr fun other found => ?_
    have taken := (consistent.label_iff command.name command.name).mpr
      ⟨other, found, consistent.named _ _ found ▸ name_mem_labels other⟩
    rw [free _ (name_mem_labels command)] at taken
    cases taken
  have sameCommands : (after.unregister command.name).2.commands = table.commands := by
    refine Table.ext_get? fun name => ?_
    rw [unregister_commands, commands, Table.get?_insert]
    by_cases here : command.name = name
    · rw [if_pos here, ← here, unnamed]
    · rw [if_neg here, if_neg here]
  have sameLabels : (after.unregister command.name).2.labels = table.labels := by
    refine Table.ext_get? fun label => Option.ext fun name => ?_
    rw [(consistent.register registers).unregister_labels, labels, Table.get?_insertAll_const]
    by_cases own : label ∈ command.labels
    · rw [if_pos own, free label own, Option.some.injEq]
      exact ⟨fun both => absurd both.2.symm both.1, nofun⟩
    · rw [if_neg own]
      refine ⟨And.right, fun there => ⟨?_, there⟩⟩
      rintro rfl
      obtain ⟨other, found, _⟩ := (consistent.label_iff label command.name).mp there
      rw [unnamed] at found
      cases found
  have sameCount : (after.unregister command.name).2.offMain = table.offMain := by
    unfold CommandTable.register at registers
    split at registers
    · cases registers
    · cases Except.ok.inj registers
      unfold CommandTable.unregister
      split <;> rfl
  exact (CommandTable.mk.injEq ..).mpr ⟨sameCommands, sameLabels, sameCount⟩

/-- The same commands are registered, under the same tickets. -/
structure Host.SameCommands (host other : Host) : Prop where
  commands : other.commands = host.commands
  registrations : other.registrations = host.registrations

namespace Host.SameCommands

variable {first second third : Host}

theorem refl (host : Host) : SameCommands host host :=
  ⟨rfl, rfl⟩

theorem trans (one : SameCommands first second) (two : SameCommands second third) :
    SameCommands first third :=
  ⟨two.commands.trans one.commands, two.registrations.trans one.registrations⟩

theorem of_untouched {before after : Workspace} (untouched : before.Untouched after) :
    before.host.SameCommands after.host :=
  ⟨untouched.commands, untouched.registrations⟩

theorem of_quiet {before after : Workspace} (quiet : before.Quiet after) :
    before.host.SameCommands after.host :=
  ⟨quiet.commands, quiet.registrations⟩

/-- Taking back a command that has been registered under a ticket that was free. -/
theorem of_unregister {ticket : Nat} {command : Command} {table : CommandTable}
    (consistent : first.commands.Consistent) (free : first.registrations ticket = {})
    (registers : first.commands.register command = .ok table)
    (commands : second.commands = table)
    (registrations : second.registrations =
      Function.update first.registrations ticket { registered := some command }) :
    SameCommands first (second.unregisterUnder ticket) := by
  have found : (second.registrations ticket).registered = some command := by
    rw [registrations, Function.update_self]
  obtain ⟨_, left, kept⟩ := unregisterUnder_of_some found
  refine ⟨?_, ?_⟩
  · rw [left, commands, consistent.unregister_register registers]
  · rw [kept, registrations, Function.update_self, Function.update_idem, ← free,
      Function.update_eq_self]

end Host.SameCommands

namespace Loading

variable {script : Script} {workspace : Workspace}

/-- What loading a structure registers: nothing, or a command under the ticket of the structure. -/
inductive Registers (before : Host) (result : LoadedStructure) (after : Host) : Prop
  | nothing (idle : result.loaded = true → result.inner.commandTicket? = none)
      (same : before.SameCommands after)
  | command (ticket : Nat) (command : Command) (table : CommandTable)
      (own : result.inner.commandTicket? = some ticket) (isLoaded : result.loaded = true)
      (registers : before.commands.register command = .ok table)
      (commands : after.commands = table)
      (registrations : after.registrations =
        Function.update before.registrations ticket { registered := some command })

theorem Registers.after {before host after final : Host} {result : LoadedStructure}
    (early : before.SameCommands host) (registers : Registers host result after)
    (late : after.SameCommands final) : Registers before result final := by
  cases registers with
  | nothing idle same => exact .nothing idle (early.trans (same.trans late))
  | command ticket command table own isLoaded registers commands registrations =>
    refine .command ticket command table own isLoaded (early.commands ▸ registers) ?_ ?_
    · exact late.commands.trans commands
    · rw [late.registrations, registrations, early.registrations]

/-- Loading a command registers it under its ticket, if that is free, or else it fails. -/
theorem command_registers (command : CommandStructure)
    (free : workspace.host.registrations command.ticket = {}) :
    (∃ failure, (command.load .main workspace).1 = .error failure ∧
        workspace.host.SameCommands (command.load .main workspace).2.host) ∨
      ∃ loaded table, (command.load .main workspace).1 =
          .ok { command with name := some loaded.name } ∧
        workspace.host.commands.register loaded = .ok table ∧
        (command.load .main workspace).2.host.commands = table ∧
        (command.load .main workspace).2.host.registrations =
          Function.update workspace.host.registrations command.ticket
            { registered := some loaded } := by
  rcases command.load_reads .main workspace with ⟨failure, after, restored, same⟩ |
    ⟨_, loaded, after, _, _, restored, same⟩
  · rw [same]
    exact Or.inl ⟨failure, rfl, restored.commands, restored.registrations⟩
  · rw [← restored.registrations] at free
    obtain ⟨host, _, ⟨failure, _, commands, registrations, submits⟩ |
      ⟨table, taken, commands, registrations, submits⟩⟩ :=
      CommandStructure.submit_registers loaded command.ticket after free
    · rw [same, submits]
      exact Or.inl ⟨_, rfl, commands.trans restored.commands,
        registrations.trans restored.registrations⟩
    · rw [same, submits]
      refine Or.inr ⟨loaded, table, rfl, restored.commands ▸ taken, commands, ?_⟩
      exact registrations.trans (by rw [restored.registrations])

/-- What loading the body of a structure registers. -/
theorem loadBody_registers (ready : LoadedStructure)
    (free : ∀ ticket, ready.inner.commandTicket? = some ticket →
      workspace.host.registrations ticket = {}) :
    Registers workspace.host (loadBody .main ready workspace).1
      (loadBody .main ready workspace).2.host := by
  have quiet := conclude_quiet .load ready (ready.inner.load .main workspace)
  have concluded := conclude_structure .load ready (ready.inner.load .main workspace)
  have success := conclude_success .load ready (ready.inner.load .main workspace)
  unfold loadBody
  generalize conclude .load ready (ready.inner.load .main workspace) = result at *
  obtain ⟨done, loaded, after⟩ := result
  dsimp only at quiet concluded success ⊢
  subst concluded
  have idle (noCommand : (ready.inner.load .main workspace).2.1.commandTicket? = none)
      (untouched : workspace.Untouched (ready.inner.load .main workspace).2.2) :
      Registers workspace.host
        { ready with inner := (ready.inner.load .main workspace).2.1, loaded := done } after.host :=
    .nothing (fun _ => noCommand) ((Host.SameCommands.of_untouched untouched).trans (.of_quiet quiet))
  cases same : ready.inner with
  | command command =>
    rw [same] at free quiet success
    have registered := command_registers command (free command.ticket rfl)
    dsimp only [Structure.load] at quiet success ⊢
    generalize command.load .main workspace = ran at quiet success registered ⊢
    obtain ⟨outcome, between⟩ := ran
    rcases registered with ⟨failure, rfl, kept⟩ | ⟨taken, table, rfl, registers, commands, kept⟩
    · refine .nothing (fun isLoaded => ?_) (kept.trans (.of_quiet quiet))
      cases success.mp isLoaded
    · refine .command command.ticket taken table rfl (success.mpr rfl) registers ?_ ?_
      · exact quiet.commands.trans commands
      · exact quiet.registrations.trans kept
  | function function =>
    rw [same] at idle
    exact idle rfl (function.load_untouched workspace).1
  | options options =>
    rw [same] at idle
    exact idle rfl (options.apply_still workspace).untouched
  | custom custom =>
    rw [same] at idle
    exact idle rfl (custom.respond_still .load workspace).untouched
  | aliases =>
    rw [same] at idle
    exact idle rfl (.refl workspace)
  | defaults defaults =>
    rw [same] at idle
    exact idle rfl (.refl workspace)
  | event event =>
    rw [same] at idle
    exact idle rfl (.refl workspace)

/-- What a structure has registered, unloading it takes back. -/
theorem Registers.unload {before : Host} {result : LoadedStructure} {after : Host}
    (registers : Registers before result after) (consistent : before.commands.Consistent)
    (free : ∀ ticket, result.inner.commandTicket? = some ticket →
      before.registrations ticket = {})
    (same : after.SameCommands workspace.host) :
    before.SameCommands (unload .main result workspace).2.host := by
  have concluded := conclude_quiet .unload result (result.inner.unload .main workspace)
  have whole (isLoaded : result.loaded = true) : (Loading.unload .main result workspace).2 =
      (conclude .unload result (result.inner.unload .main workspace)).2.2 := by
    rw [Loading.unload, if_pos isLoaded]
  cases registers with
  | nothing idle kept =>
    cases isLoaded : result.loaded with
    | true =>
      rw [whole isLoaded]
      obtain ⟨commands, registrations⟩ := unload_noCommand (idle isLoaded) workspace
      exact (kept.trans same).trans ((Host.SameCommands.mk commands registrations).trans
        (.of_quiet concluded))
    | false =>
      rw [Loading.unload, if_neg (by rw [isLoaded]; exact Bool.false_ne_true)]
      exact kept.trans same
  | command ticket command table own isLoaded registers commands registrations =>
    rw [whole isLoaded]
    refine Host.SameCommands.trans ?_ (.of_quiet concluded)
    have host : (result.inner.unload .main workspace).2.2.host =
        workspace.host.unregisterUnder ticket := by
      cases isCommand : result.inner with
      | command inner =>
        rw [isCommand] at own
        obtain rfl := Option.some.inj own
        exact Host.submit_main (.unregister inner.ticket) workspace.host
      | _ => rw [isCommand] at own; cases own
    rw [host]
    exact .of_unregister consistent (free ticket own) registers (same.commands.trans commands)
      (same.registrations.trans registrations)

/-- A table stays consistent when something is registered. -/
theorem Registers.consistent {before : Host} {result : LoadedStructure} {after : Host}
    (registers : Registers before result after) (consistent : before.commands.Consistent) :
    after.commands.Consistent := by
  cases registers with
  | nothing _ same => exact same.commands ▸ consistent
  | command _ _ _ _ _ registers commands _ => exact commands ▸ consistent.register registers

/-- Only the ticket of the structure is registered under. -/
theorem Registers.others {before : Host} {result : LoadedStructure} {after : Host} {other : Nat}
    (registers : Registers before result after)
    (apart : result.inner.commandTicket? ≠ some other) :
    after.registrations other = before.registrations other := by
  cases registers with
  | nothing _ same => rw [same.registrations]
  | command ticket _ _ own _ _ _ registrations =>
    rw [registrations, Function.update_of_ne]
    rintro rfl
    exact apart own

theorem load_registers (loaded : LoadedStructure)
    (current : workspace.context.script = some script) (declares : loaded.inner.DeclaresIn script)
    (free : ∀ ticket, loaded.inner.commandTicket? = some ticket →
      workspace.host.registrations ticket = {}) :
    Registers workspace.host (load .main loaded workspace).1 (load .main loaded workspace).2.host := by
  have ready := readied_pass loaded current declares
  rw [load_eq]
  refine .after ⟨ready.commands, ready.registrations⟩ (loadBody_registers _ ?_) (.refl _)
  intro ticket own
  rw [ready.registrations]
  refine free ticket ?_
  rw [Structure.commandTicket?, ← ready.command]
  exact own

theorem each_append {α β : Type} (act : α → Workspace → β × Workspace) (items others : List α)
    (workspace : Workspace) :
    (each act (items ++ others) workspace).2 = (each act others (each act items workspace).2).2 := by
  induction items generalizing workspace with
  | nil => rfl
  | cons first rest ih => exact ih _

/-- Structures of the current script that are about to be loaded, and whose commands find the table
consistent and their tickets free. -/
structure Loadable (script : Script) (structures : List LoadedStructure) (workspace : Workspace) :
    Prop where
  current : workspace.context.script = some script
  declares : ∀ loaded ∈ structures, loaded.inner.DeclaresIn script
  consistent : workspace.host.commands.Consistent
  distinct : (commandTicketsOf structures).Nodup
  free : ∀ ticket ∈ commandTicketsOf structures, workspace.host.registrations ticket = {}

namespace Loadable

variable {first : LoadedStructure} {others : List LoadedStructure}

theorem registers (loadable : Loadable script (first :: others) workspace) :
    Registers workspace.host (load .main first workspace).1 (load .main first workspace).2.host :=
  load_registers first loadable.current (loadable.declares first List.mem_cons_self)
    fun ticket own => loadable.free ticket (mem_commandTicketsOf.mpr ⟨first, List.mem_cons_self, own⟩)

/-- Loading a structure does not change its ticket. -/
theorem ticket (loadable : Loadable script (first :: others) workspace) :
    (load .main first workspace).1.inner.commandTicket? = first.inner.commandTicket? := by
  have frame := load_frame .main first loadable.current (loadable.declares first List.mem_cons_self)
  have kind := (List.cons.inj frame.kinds).1
  simp only [LoadedStructure.kind, Prod.mk.injEq] at kind
  rw [Structure.commandTicket?_eq, Structure.commandTicket?_eq, kind.2.2.2.2.1, kind.2.2.2.2.2]

/-- The other structures can be loaded next. -/
theorem rest (loadable : Loadable script (first :: others) workspace) :
    Loadable script others (load .main first workspace).2 where
  current :=
    (load_frame .main first loadable.current
      (loadable.declares first List.mem_cons_self)).steady.script.trans loadable.current
  declares := fun loaded member => loadable.declares loaded (List.mem_cons_of_mem _ member)
  consistent := loadable.registers.consistent loadable.consistent
  distinct := loadable.distinct.sublist ((List.sublist_cons_self first others).filterMap _)
  free := by
    intro other member
    obtain ⟨loaded, there, own⟩ := mem_commandTicketsOf.mp member
    rw [loadable.registers.others]
    · exact loadable.free other (mem_commandTicketsOf.mpr ⟨loaded, List.mem_cons_of_mem _ there, own⟩)
    · intro same
      have distinct := loadable.distinct
      rw [commandTicketsOf, List.filterMap_cons, ← loadable.ticket, same] at distinct
      exact (List.nodup_cons.mp distinct).1 member

end Loadable

/-- Loading structures keeps the table consistent, and registers under their tickets only. -/
theorem each_load_registers (structures : List LoadedStructure) {workspace : Workspace}
    (loadable : Loadable script structures workspace) :
    (each (load .main) structures workspace).2.host.commands.Consistent ∧
      ∀ other ∉ commandTicketsOf structures,
        (each (load .main) structures workspace).2.host.registrations other =
          workspace.host.registrations other := by
  induction structures generalizing workspace with
  | nil => exact ⟨loadable.consistent, fun _ _ => rfl⟩
  | cons first others ih =>
    obtain ⟨consistent, kept⟩ := ih loadable.rest
    refine ⟨consistent, fun other absent => (kept other fun member => ?_).trans ?_⟩
    · obtain ⟨loaded, there, own⟩ := mem_commandTicketsOf.mp member
      exact absent (mem_commandTicketsOf.mpr ⟨loaded, List.mem_cons_of_mem _ there, own⟩)
    · refine loadable.registers.others fun own => absent ?_
      exact mem_commandTicketsOf.mpr ⟨first, List.mem_cons_self, loadable.ticket ▸ own⟩

/-- Structures that are unloaded in the opposite order leave the commands as they were before they
were loaded, whatever else has been done since. -/
theorem each_unload_commands (structures : List LoadedStructure) {before after : Workspace}
    (loadable : Loadable script structures before)
    (same : (each (load .main) structures before).2.host.SameCommands after.host) :
    before.host.SameCommands
      (each (unload .main) (each (load .main) structures before).1.reverse after).2.host := by
  induction structures generalizing before with
  | nil => exact same
  | cons first others ih =>
    have restored := ih loadable.rest same
    change before.host.SameCommands (each (unload .main) ((load .main first before).1 ::
      (each (load .main) others (load .main first before).2).1).reverse after).2.host
    rw [List.reverse_cons, each_append]
    refine loadable.registers.unload loadable.consistent (fun own found => ?_) restored
    exact loadable.free own
      (mem_commandTicketsOf.mpr ⟨first, List.mem_cons_self, loadable.ticket ▸ found⟩)

end Loading

/-! ## Scripts -/

/-- The host keeps its tables in order: no ticket that is still to be handed out is in use, and
everything on it belongs to a load before the next one. -/
structure Host.Ready (next : Nat) (host : Host) : Prop where
  predates : host.Predates next
  commands : host.commands.Consistent
  bodies : host.functions.BodiesDeclared
  unregistered : ∀ ticket, host.nextTicket ≤ ticket → host.registrations ticket = {}
  unbound : ∀ ticket, host.nextTicket ≤ ticket → host.bound ticket = none
  subscriptions : ∀ subscription ∈ host.bus.subscriptions,
    subscription.trigger.ticket < host.nextTicket ∧ subscription.trigger.script.generation < next
  selfRegistered : ∀ trigger ∈ host.bus.selfRegistered,
    trigger.ticket < host.nextTicket ∧ trigger.script.generation < next

/-- A new host is ready. -/
theorem Host.ready_new (next : Nat) : ({} : Host).Ready next where
  predates := predates_new next
  commands := .empty 0
  bodies := fun _ _ found => by cases found
  unregistered := fun _ _ => rfl
  unbound := fun _ _ => rfl
  subscriptions := fun _ member => by cases member
  selfRegistered := fun _ member => by cases member

/-- What scripts are bound to is as it was, and tickets may have been handed out. -/
structure Host.Restores (before after : Host) : Prop where
  config : after.config = before.config
  classes : after.classes = before.classes
  functions : after.functions = before.functions
  commands : after.commands = before.commands
  registrations : after.registrations = before.registrations
  bound : after.bound = before.bound
  subscriptions : after.bus.subscriptions = before.bus.subscriptions
  selfRegistered : after.bus.selfRegistered = before.bus.selfRegistered
  later : before.nextTicket ≤ after.nextTicket

theorem Host.Restores.refl (host : Host) : Restores host host := by
  constructor <;> rfl

theorem Host.Restores.trans {first second third : Host} (one : Restores first second)
    (two : Restores second third) : Restores first third where
  config := two.config.trans one.config
  classes := two.classes.trans one.classes
  functions := two.functions.trans one.functions
  commands := two.commands.trans one.commands
  registrations := two.registrations.trans one.registrations
  bound := two.bound.trans one.bound
  subscriptions := two.subscriptions.trans one.subscriptions
  selfRegistered := two.selfRegistered.trans one.selfRegistered
  later := one.later.trans two.later

/-- A host that is restored is ready again, and for later loads. -/
theorem Host.Restores.ready {before after : Host} {next later : Nat}
    (restores : before.Restores after) (ready : before.Ready next) (le : next ≤ later) :
    after.Ready later where
  predates := fun generation mentions => (ready.predates generation
    (mentions.of_same restores.functions restores.commands restores.registrations)).trans_le le
  commands := restores.commands ▸ ready.commands
  bodies := restores.functions ▸ ready.bodies
  unregistered := fun ticket unused =>
    restores.registrations ▸ ready.unregistered ticket (restores.later.trans unused)
  unbound := fun ticket unused =>
    restores.bound ▸ ready.unbound ticket (restores.later.trans unused)
  subscriptions := by
    rw [restores.subscriptions]
    intro subscription member
    obtain ⟨ticket, earlier⟩ := ready.subscriptions subscription member
    exact ⟨ticket.trans_le restores.later, earlier.trans_le le⟩
  selfRegistered := by
    rw [restores.selfRegistered]
    intro trigger member
    obtain ⟨ticket, earlier⟩ := ready.selfRegistered trigger member
    exact ⟨ticket.trans_le restores.later, earlier.trans_le le⟩

namespace Loading

variable {Possible : EventFilter → Prop} {registry : Registry} {script : Script}

/-- What has been handed out, declared and buffered once a script is loaded, on any host. -/
theorem loadCurrent_frame {workspace : Workspace} (thread : Thread) (nodes : List Node)
    (makes : registry.MakesOwn Possible) (current : workspace.context.script = some script)
    (noneWait : workspace.context.currentDrafts = []) :
    ScriptFrame Possible registry script workspace
      (loadCurrent registry thread script nodes workspace).1
      (loadCurrent registry thread script nodes workspace).2 := by
  obtain ⟨ordered, results, between, structures, final, perm, headers, whole, owner, same, quiet⟩ :=
    loadCurrent_split thread nodes makes current
  have declares : ∀ loaded ∈ ordered, loaded.inner.DeclaresIn script :=
    fun loaded member => headers.declares loaded (perm.mem_iff.mp member)
  have frame := each_frame thread ordered (headers.current.trans current) declares
  rw [whole, ← same] at frame
  exact .of_passes owner current noneWait perm headers frame quiet

/-- The structures that have taken their headers on a host that is in order can be loaded. -/
theorem HeaderPass.loadable {workspace between : Workspace} {ordered results : List LoadedStructure}
    (headers : HeaderPass Possible registry script workspace results between)
    (perm : ordered.Perm results) (current : workspace.context.script = some script)
    (ready : workspace.host.Ready script.generation) : Loadable script ordered between where
  current := headers.current.trans current
  declares := fun loaded member => headers.declares loaded (perm.mem_iff.mp member)
  consistent := headers.commands ▸ ready.commands
  distinct := (commandTicketsOf_sublist ordered).nodup
    ((perm.filterMap _).nodup_iff.mpr headers.distinct)
  free := by
    intro ticket member
    have there := (perm.filterMap _).mem_iff.mp ((commandTicketsOf_sublist ordered).subset member)
    rw [headers.registrations]
    exact ready.unregistered ticket (headers.fresh ticket there).1

/-- Loading a script keeps the table consistent, and registers only under tickets that are handed
out. -/
theorem loadCurrent_registers {workspace : Workspace} (nodes : List Node)
    (makes : registry.MakesOwn Possible) (current : workspace.context.script = some script)
    (ready : workspace.host.Ready script.generation) :
    (loadCurrent registry .main script nodes workspace).2.host.commands.Consistent ∧
      ∀ ticket, (loadCurrent registry .main script nodes workspace).2.host.nextTicket ≤ ticket →
        (loadCurrent registry .main script nodes workspace).2.host.registrations ticket = {} := by
  obtain ⟨ordered, results, between, structures, final, perm, headers, whole, _, _, quiet⟩ :=
    loadCurrent_split .main nodes makes current
  have loadable := headers.loadable perm current ready
  have frame := each_frame .main ordered loadable.current loadable.declares
  obtain ⟨consistent, kept⟩ := each_load_registers ordered loadable
  rw [whole] at frame consistent kept
  have nextTicket := (frame.steady.trans quiet.steady).nextTicket
  refine ⟨quiet.commands ▸ consistent, fun ticket unused => ?_⟩
  rw [nextTicket] at unused
  rw [quiet.registrations, kept, headers.registrations]
  · exact ready.unregistered ticket (headers.later.trans unused)
  · intro member
    have there := (perm.filterMap _).mem_iff.mp ((commandTicketsOf_sublist ordered).subset member)
    exact absurd (headers.fresh ticket there).2 (Nat.not_lt_of_le unused)

/-- Unloading what has been loaded takes back the commands, whatever else has been done since. -/
theorem loadCurrent_unload_commands {workspace : Workspace} (nodes : List Node)
    (makes : registry.MakesOwn Possible) (current : workspace.context.script = some script)
    (ready : workspace.host.Ready script.generation) (after : Workspace)
    (same : (loadCurrent registry .main script nodes workspace).2.host.SameCommands after.host) :
    workspace.host.SameCommands (each (unload .main)
      (loadCurrent registry .main script nodes workspace).1.structures.reverse after).2.host := by
  obtain ⟨ordered, results, between, structures, final, perm, headers, whole, _, structures_eq, quiet⟩ :=
    loadCurrent_split .main nodes makes current
  have started : workspace.host.SameCommands between.host := ⟨headers.commands, headers.registrations⟩
  have late : (each (load .main) ordered between).2.host.SameCommands after.host := by
    rw [whole]
    exact (Host.SameCommands.of_quiet quiet).trans same
  have restored := each_unload_commands ordered
    (headers.loadable perm current ready) late
  rw [whole, ← structures_eq] at restored
  exact started.trans restored

/-- The triggers that wait for a script have the tickets of its events. -/
theorem ScriptFrame.drafted {before after : Workspace} {loaded : LoadedScript}
    (frame : ScriptFrame Possible registry script before loaded after) :
    ∀ draft ∈ after.context.currentDrafts, draft.ticket ∈ eventTicketsOf loaded.structures := by
  obtain ⟨results, perm, waits⟩ := frame.waiting
  intro draft member
  obtain ⟨inner, there, event, draftOf⟩ := waits.mem_tickets draft member
  refine mem_eventTicketsOf.mpr ⟨inner, perm.mem_iff.mpr there, ?_⟩
  rw [Structure.eventTicket?, draftOf.isEvent, draftOf.ticket]
  rfl

/-- The triggers of a script that has been loaded and finished are kept under its own tickets. -/
theorem ScriptFrame.keepsOwn {before after : Workspace} {loaded : LoadedScript}
    (frame : ScriptFrame Possible registry script before loaded after)
    (ready : before.host.Ready script.generation) {ticket : Nat}
    (own : ticket ∈ eventTicketsOf loaded.structures) :
    (after.host.perform (.bind script after.context.currentDrafts)).KeepsOwn ticket := by
  obtain ⟨results, perm, waits⟩ := frame.waiting
  obtain ⟨_, bound, subscriptions, selfRegistered⟩ :=
    Host.perform_bind script after.context.currentDrafts after.host
  have distinct : (after.context.currentDrafts.map TriggerDraft.ticket).Nodup :=
    waits.tickets.nodup ((perm.filterMap _).nodup_iff.mp frame.distinct)
  have fresh := (frame.fresh ticket (mem_ticketsOf_of_event own)).1
  by_cases drafted : ∃ draft ∈ after.context.currentDrafts, draft.ticket = ticket
  · obtain ⟨draft, member, rfl⟩ := drafted
    have kept : (after.host.perform (.bind script after.context.currentDrafts)).bound draft.ticket =
        some (draft.toTrigger script) := by
      rw [bound, Host.boundAfter_of_mem distinct member]
    refine ⟨fun trigger found => ?_, fun none => ?_, fun none => ?_⟩
    · cases kept.symm.trans found
      rfl
    · cases kept.symm.trans none
    · cases kept.symm.trans none
  · have undrafted : ∀ draft ∈ after.context.currentDrafts, draft.ticket ≠ ticket :=
      fun draft member same => drafted ⟨draft, member, same⟩
    refine ⟨fun trigger found => ?_, fun _ subscription member => ?_, fun _ trigger member => ?_⟩
    · rw [bound, Host.boundAfter_of_not_mem undrafted, frame.bound, ready.unbound ticket fresh]
        at found
      cases found
    · rw [subscriptions, frame.bus, List.mem_append] at member
      rcases member with old | new
      · exact ((ready.subscriptions subscription old).1.trans_le fresh).ne
      · obtain ⟨draft, there, subscribed⟩ := List.mem_flatMap.mp new
        rw [TriggerDraft.trigger_of_mem_subscriptions subscribed]
        exact undrafted draft there
    · rw [selfRegistered, frame.bus, List.mem_append] at member
      rcases member with old | new
      · exact ((ready.selfRegistered trigger old).1.trans_le fresh).ne
      · obtain ⟨draft, there, registered⟩ := List.mem_flatMap.mp new
        rw [TriggerDraft.trigger_of_mem_selfRegistered registered]
        exact undrafted draft there

/-- Items that are put behind others are gone again once all of them are dropped, and none of the
others. -/
theorem filter_append_of_kept {α : Type} {stays : α → Bool} {first second : List α}
    (kept : ∀ item ∈ first, stays item = true) (dropped : ∀ item ∈ second, stays item = false) :
    (first ++ second).filter stays = first := by
  have none : second.filter stays = [] :=
    List.filter_eq_nil_iff.mpr fun item member => by rw [dropped item member]; exact Bool.false_ne_true
  rw [List.filter_append, List.filter_eq_self.mpr kept, none, List.append_nil]

/-- A script that is loaded on a host that is ready and unloaded again leaves the host as it was. -/
theorem loadCurrent_unload {workspace : Workspace} (nodes : List Node)
    (makes : registry.MakesOwn Possible) (current : workspace.context.script = some script)
    (noneWait : workspace.context.currentDrafts = [])
    (ready : workspace.host.Ready script.generation) :
    workspace.host.Restores
      (unloadScript .main (loadCurrent registry .main script nodes workspace).1
        (loadCurrent registry .main script nodes workspace).2).2.host := by
  have frame := loadCurrent_frame .main nodes makes current noneWait
  have commands := loadCurrent_unload_commands nodes makes current ready
  generalize loadCurrent registry .main script nodes workspace = result at *
  obtain ⟨loaded, after⟩ := result
  dsimp only at frame commands ⊢
  obtain ⟨step, bound, subscriptions, selfRegistered⟩ :=
    Host.perform_bind script after.context.currentDrafts after.host
  have finished := Workspace.finish_main frame.current
  obtain rfl := frame.owner
  obtain ⟨started, between, same, whole, takes, left, _, _⟩ := unloadScript_split loaded
    (fun none => by rw [frame.current] at none; cases none)
    (fun ticket own => finished ▸ frame.keepsOwn ready own) frame.declares frame.events
  rw [finished] at same
  have fresh {ticket : Nat} (own : ticket ∈ eventTicketsOf loaded.structures) :
      workspace.host.nextTicket ≤ ticket :=
    (frame.fresh ticket (mem_ticketsOf_of_event own)).1
  have sameCommands : workspace.host.SameCommands between.host := by
    rw [← whole]
    refine commands started ?_
    rw [same]
    exact ⟨step.commands, step.registrations⟩
  rw [left]
  constructor
  case config => exact takes.config.trans (same ▸ step.config.trans frame.config)
  case classes => exact takes.classes.trans (same ▸ step.classes.trans frame.classes)
  case commands => exact sameCommands.commands
  case registrations => exact sameCommands.registrations
  case later => exact frame.later.trans_eq (takes.nextTicket.trans (same ▸ step.nextTicket)).symm
  case functions =>
    refine frame.functions.withdrawScript ready.bodies (fun name => ?_) ?_
    · refine Bool.eq_false_iff.mpr fun owned => ?_
      obtain ⟨signature, found, owner⟩ := FunctionTable.ownedBy_iff.mp owned
      have earlier := ready.predates _ (.signature name signature found)
      rw [Script.generation_eq_of_same owner] at earlier
      exact absurd earlier (Nat.lt_irrefl _)
    · rw [← step.functions, ← same]
      exact takes.functions
  case bound =>
    funext ticket
    change between.host.bound ticket = _
    rw [takes.bound, same, bound]
    simp only [mem_eventTicketsOf_reverse]
    by_cases own : ticket ∈ eventTicketsOf loaded.structures
    · rw [if_pos own, ready.unbound ticket (fresh own)]
    · rw [if_neg own, Host.boundAfter_of_not_mem, frame.bound]
      rintro draft member rfl
      exact own (frame.drafted draft member)
  case subscriptions =>
    refine takes.subscriptions.trans ?_
    simp only [mem_eventTicketsOf_reverse]
    rw [same, subscriptions, frame.bus]
    refine filter_append_of_kept (fun subscription member => ?_) fun subscription member => ?_
    · refine decide_eq_true fun own => ?_
      exact absurd (fresh own) (Nat.not_le_of_lt (ready.subscriptions subscription member).1)
    · obtain ⟨draft, there, subscribed⟩ := List.mem_flatMap.mp member
      rw [TriggerDraft.trigger_of_mem_subscriptions subscribed]
      exact decide_eq_false (not_not_intro (frame.drafted draft there))
  case selfRegistered =>
    refine takes.selfRegistered.trans ?_
    simp only [mem_eventTicketsOf_reverse]
    rw [same, selfRegistered, frame.bus]
    refine filter_append_of_kept (fun trigger member => ?_) fun trigger member => ?_
    · refine decide_eq_true fun own => ?_
      exact absurd (fresh own) (Nat.not_le_of_lt (ready.selfRegistered trigger member).1)
    · obtain ⟨draft, there, registered⟩ := List.mem_flatMap.mp member
      rw [TriggerDraft.trigger_of_mem_selfRegistered registered]
      exact decide_eq_false (not_not_intro (frame.drafted draft there))

/-- Unloading a script finishes the current one first, if it has not been finished yet. -/
theorem unloadScript_finish {thread : Thread} {workspace : Workspace} (orderly : workspace.Orderly)
    (loaded : LoadedScript) :
    unloadScript thread loaded (workspace.setScript thread none) =
      unloadScript thread loaded workspace := by
  have stays : (workspace.setScript thread none).setScript thread none =
      workspace.setScript thread none :=
    Workspace.finish_of_none (Workspace.finish_context thread orderly).1
  unfold unloadScript
  rw [stays]

end Loading

end ScriptBinding

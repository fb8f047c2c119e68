import ScriptBinding.Proofs.CommandTable
import ScriptBinding.Proofs.LowerCase
import ScriptBinding.Proofs.Traces

/-! # Labels of commands

The table keeps two maps, from names to commands and from labels to names. Registering and removing
commands keep them in step, so a label is the label of at most one command. The labels that reading
a command makes are in the form in which labels are looked up, so any spelling of them leads to
their command.
-/

namespace ScriptBinding

/-! ## Labels that have been read -/

namespace Command

/-- The label is in the form in which labels are looked up. -/
def IsLabel (label : String) : Prop :=
  ∃ written, lookupLabel written = label

/-- The command is what reading some section gives. -/
def IsRead (command : Command) : Prop :=
  ∃ header body workspace, (Workspace.readCommand header body workspace).1 = .ok command

/-- A text is the label with the case of some ASCII letters changed and any slashes in front. -/
def Spells (label written : String) : Prop :=
  ∃ slashes changed, written.toList = List.replicate slashes '/' ++ String.toList changed ∧
    Text.equalIgnoringAsciiCase changed label = true

/-- A label does not start with a slash. -/
theorem IsLabel.head? {label : String} (isLabel : IsLabel label) :
    label.toList.head? ≠ some '/' := by
  obtain ⟨written, rfl⟩ := isLabel
  unfold lookupLabel Text.lower
  rw [String.toList_ofList]
  apply Text.head?_lowerFrom (Text.solitary_signs '/' (by decide))
  intro starts
  have kept := List.head?_dropWhile_not (· == '/') written.toList
  rw [Text.dropLeading, String.toList_ofList] at starts
  rw [starts] at kept
  cases kept

/-- Every spelling of a label is looked up as the label. -/
theorem IsLabel.lookupLabel {label written : String} (isLabel : IsLabel label)
    (spells : Spells label written) : lookupLabel written = label := by
  obtain ⟨slashes, changed, spelled, same⟩ := spells
  have unslashed : changed.toList.head? ≠ some '/' := by
    intro starts
    apply isLabel.head?
    obtain ⟨source, rfl⟩ := isLabel
    have image := (eq_of_beq same).trans (Text.map_asciiLower_lower _)
    rw [← Command.lookupLabel] at image
    rw [← image, List.head?_map, starts]
    rfl
  have dropped : Text.dropLeading '/' written = changed := by
    have ahead : ∀ c ∈ List.replicate slashes '/', (c == '/') = true := by
      intro c member
      rw [List.eq_of_mem_replicate member]
      rfl
    rw [Text.dropLeading, spelled, List.dropWhile_append_of_pos ahead]
    cases chars : changed.toList with
    | nil => exact (String.toList_inj.mp chars).symm
    | cons first others =>
      rw [chars] at unslashed
      have other : ¬ (first == '/') = true := by
        simpa using unslashed
      rw [List.dropWhile_cons, if_neg other, ← chars, String.ofList_toList]
  obtain ⟨source, rfl⟩ := isLabel
  rw [Command.lookupLabel, dropped]
  exact Text.lower_of_changed same

end Command

namespace CommandReading

/-- Every label of the command is in the form in which labels are looked up. -/
def Labelled (command : Command) : Prop :=
  ∀ label ∈ command.labels, Command.IsLabel label

theorem readHeader_labelled {classes : ClassRegistry} {script : Script} {header : String}
    {line : Nat} {command : Command}
    (read : readHeader classes script header line = .ok command) : Labelled command := by
  unfold readHeader at read
  dsimp only at read
  split at read
  · split at read
    · cases read
    · cases Except.ok.inj read
      exact List.forall_mem_singleton.mpr ⟨_, rfl⟩
  · cases read

theorem aliasesOf_isLabel {name value label : String} (member : label ∈ aliasesOf name value) :
    Command.IsLabel label := by
  obtain ⟨written, _, rfl⟩ := List.mem_map.mp (List.mem_filter.mp member).1
  exact ⟨_, rfl⟩

theorem applyEntry_labelled {reading : CommandReading} (key value : String) (line : Nat)
    (labelled : Labelled reading.command) :
    Labelled (reading.applyEntry key value line).command := by
  unfold applyEntry
  split
  case h_5 =>
    have own := labelled reading.command.name List.mem_cons_self
    exact List.forall_mem_cons.mpr ⟨own, fun label => aliasesOf_isLabel⟩
  case h_6 => split <;> exact labelled
  all_goals exact labelled

theorem apply_labelled {reading : CommandReading} (node : Node)
    (labelled : Labelled reading.command) : Labelled (reading.apply node).command := by
  unfold apply
  split
  · exact applyEntry_labelled _ _ _ labelled
  · split <;> exact labelled
  · exact labelled

theorem applyAll_labelled {command : Command} (tree : Section) (labelled : Labelled command) :
    Labelled (applyAll tree command).command := by
  unfold applyAll
  have kept (nodes : List Node) (reading : CommandReading) (labelled : Labelled reading.command) :
      Labelled (nodes.foldl apply reading).command := by
    induction nodes generalizing reading with
    | nil => exact labelled
    | cons node others ih => exact ih _ (apply_labelled node labelled)
  exact kept _ _ labelled

end CommandReading

/-- The name and the aliases of a command that has been read are in the form of labels. -/
theorem Command.IsRead.labelled {command : Command} (read : command.IsRead) :
    CommandReading.Labelled command := by
  obtain ⟨header, body, workspace, read⟩ := read
  rw [Workspace.readCommand_eq_leave] at read
  unfold Workspace.commandIn at read
  dsimp only at read
  split at read
  · cases read
  split at read
  · cases read
  next announced isAnnounced =>
    split at read
    · cases read
    next trigger _ =>
      cases items : (Item.readBody workspace.bodyScope trigger).1 with
      | error failure =>
        simp only [items, Except.map] at read
        cases read
      | ok found =>
        simp only [items, Except.map] at read
        cases Except.ok.inj read
        exact CommandReading.applyAll_labelled body
          (CommandReading.readHeader_labelled isAnnounced)

/-! ## Two maps in step -/

namespace CommandTable

/-- Every command is kept under its name, and the labels of the commands lead to their names. -/
structure Consistent (table : CommandTable) : Prop where
  named : ∀ name command, table.commands.get? name = some command → command.name = name
  label_iff : ∀ label name, table.labels.get? label = some name ↔
    ∃ command, table.commands.get? name = some command ∧ label ∈ command.labels

variable {table : CommandTable} {command other : Command} {name label : String}

theorem Consistent.empty (offMain : Nat) : Consistent { offMain } where
  named := by simp
  label_iff := by simp

/-- Different commands have no label in common. -/
theorem Consistent.apart (consistent : table.Consistent) {second : String}
    (found : table.commands.get? name = some command)
    (there : table.commands.get? second = some other) (own : label ∈ command.labels)
    (shared : label ∈ other.labels) : name = second := by
  have one := (consistent.label_iff label name).mpr ⟨command, found, own⟩
  have two := (consistent.label_iff label second).mpr ⟨other, there, shared⟩
  exact Option.some.inj (one.symm.trans two)

/-- A command is refused exactly if one of its labels is taken. -/
theorem register_error_iff : (∃ failure, table.register command = .error failure) ↔
    ∃ label ∈ command.labels, table.labels.contains label = true := by
  unfold register
  cases taken : command.labels.find? table.labels.contains with
  | none =>
    have free := List.find?_eq_none.mp taken
    simp only [reduceCtorEq, exists_false, false_iff, not_exists, not_and]
    exact free
  | some label =>
    simp only [Except.error.injEq, exists_eq', true_iff]
    exact ⟨label, List.mem_of_find?_eq_some taken, List.find?_some taken⟩

/-- What the table holds once it has taken a command. -/
theorem register_ok {after : CommandTable} (registers : table.register command = .ok after) :
    (∀ label ∈ command.labels, table.labels.get? label = none) ∧
      after.commands = table.commands.insert command.name command ∧
      after.labels = table.labels.insertAll (command.labels.map (·, command.name)) := by
  unfold register at registers
  split at registers
  · cases registers
  · next free =>
    cases Except.ok.inj registers
    refine ⟨fun label own => ?_, rfl, rfl⟩
    simpa [Table.contains] using List.find?_eq_none.mp free label own

theorem Consistent.register (consistent : table.Consistent) {after : CommandTable}
    (registers : table.register command = .ok after) : after.Consistent := by
  obtain ⟨free, commands, labels⟩ := register_ok registers
  have unnamed : table.commands.get? command.name = none := by
    refine Option.eq_none_iff_forall_ne_some.mpr fun other found => ?_
    have named := consistent.named _ _ found
    have taken := (consistent.label_iff command.name command.name).mpr
      ⟨other, found, named ▸ name_mem_labels other⟩
    rw [free _ (name_mem_labels command)] at taken
    cases taken
  refine ⟨fun name other found => ?_, fun label name => ?_⟩
  · rw [commands, Table.get?_insert] at found
    by_cases here : command.name = name
    · rw [if_pos here, Option.some.injEq] at found
      exact found ▸ here
    · rw [if_neg here] at found
      exact consistent.named name other found
  rw [labels, commands, Table.get?_insertAll_const, Table.get?_insert]
  by_cases own : label ∈ command.labels
  · rw [if_pos own, Option.some.injEq]
    by_cases here : command.name = name
    · simp only [here, ↓reduceIte, Option.some.injEq, exists_eq_left', own]
    · simp only [here, ↓reduceIte, false_iff, not_exists, not_and]
      intro other found shared
      have taken := (consistent.label_iff label name).mpr ⟨other, found, shared⟩
      rw [free label own] at taken
      cases taken
  · rw [if_neg own, consistent.label_iff]
    by_cases here : command.name = name
    · subst here
      simp only [unnamed, ↓reduceIte, reduceCtorEq, false_and, exists_false, Option.some.injEq,
        exists_eq_left', own]
    · simp only [here, ↓reduceIte]

/-- Removing tells whether there was a command with the name. -/
theorem unregister_isSome (table : CommandTable) (name : String) :
    (table.unregister name).1 = (table.commands.get? name).isSome := by
  unfold unregister
  cases table.commands.get? name <;> rfl

/-- Removing a name takes its command away and no other. -/
theorem unregister_commands (table : CommandTable) (name other : String) :
    (table.unregister name).2.commands.get? other =
      if name = other then none else table.commands.get? other := by
  unfold unregister
  cases found : table.commands.get? name with
  | none =>
    by_cases here : name = other
    · rw [if_pos here, ← here, found]
    · rw [if_neg here]
  | some command => exact Table.get?_erase _ _ _

/-- Removing a name takes away the labels that lead to it and no others. -/
theorem Consistent.unregister_labels (consistent : table.Consistent) {name label other : String} :
    (table.unregister name).2.labels.get? label = some other ↔
      other ≠ name ∧ table.labels.get? label = some other := by
  have leads := consistent.label_iff label
  unfold CommandTable.unregister
  cases found : table.commands.get? name with
  | none =>
    refine ⟨fun there => ⟨?_, there⟩, And.right⟩
    rintro rfl
    obtain ⟨command, same, _⟩ := (leads other).mp there
    rw [found] at same
    cases same
  | some command =>
    dsimp only
    rw [Table.get?_eraseAll]
    by_cases own : label ∈ command.labels
    · rw [if_pos own, (leads name).mpr ⟨command, found, own⟩, Option.some.injEq]
      exact ⟨nofun, fun both => absurd both.2.symm both.1⟩
    · rw [if_neg own]
      refine ⟨fun there => ⟨?_, there⟩, And.right⟩
      rintro rfl
      obtain ⟨again, same, shared⟩ := (leads other).mp there
      rw [found, Option.some.injEq] at same
      exact own (same ▸ shared)

theorem Consistent.unregister (consistent : table.Consistent) (name : String) :
    (table.unregister name).2.Consistent := by
  refine ⟨fun other command found => ?_, fun label other => ?_⟩
  · rw [unregister_commands] at found
    by_cases here : name = other
    · rw [if_pos here] at found
      cases found
    · rw [if_neg here] at found
      exact consistent.named other command found
  · rw [consistent.unregister_labels, unregister_commands, consistent.label_iff]
    by_cases here : name = other
    · simp [here]
    · simp [here, Ne.symm here]

end CommandTable

/-! ## Editing the table of a host -/

/-- A registration or a removal, by either thread. -/
inductive TableEdit where
  | register (thread : Thread) (command : Command)
  | unregister (thread : Thread) (name : String)

/-- The command that an edit registers is one that has been read. -/
def TableEdit.IsRead : TableEdit → Prop
  | .register _ command => command.IsRead
  | .unregister _ _ => True

namespace Host

/-- Edit the command table. -/
def edit (host : Host) : TableEdit → Host
  | .register thread command => (host.registerCommand thread command).2
  | .unregister thread name => (host.unregisterCommand thread name).2

/-- Edit the command table many times. -/
def editAll (edits : List TableEdit) (host : Host) : Host :=
  edits.foldl edit host

/-- The table is consistent, and its labels are in the form in which labels are looked up. -/
structure Catalogued (host : Host) : Prop where
  consistent : host.commands.Consistent
  labelled : ∀ name command, host.commands.commands.get? name = some command →
    CommandReading.Labelled command

/-- What holds of the commands of a host, what edits do to them and what their labels lead to. -/
structure ServesCommands (host : Host) : Prop where
  named : ∀ name command, host.commands.commands.get? name = some command → command.name = name
  /-- The labels are those of the registered commands, and lead to their names. -/
  label_iff : ∀ label name, host.commands.labels.get? label = some name ↔
    ∃ command, host.commands.commands.get? name = some command ∧ label ∈ command.labels
  /-- Commands with different names have no label in common. -/
  apart : ∀ first second one other, host.commands.commands.get? first = some one →
    host.commands.commands.get? second = some other → first ≠ second →
      ∀ label ∈ one.labels, label ∉ other.labels
  /-- A command that meets a taken label changes nothing; a worker is noted for the attempt. -/
  refuses : ∀ thread command, (∃ label ∈ command.labels, host.commands.labels.contains label) →
    ∃ failure, host.registerCommand thread command = (.error failure, host.touchCommands thread)
  /-- A command that meets no taken label is taken beside the others. -/
  takes : ∀ thread command, (¬ ∃ label ∈ command.labels, host.commands.labels.contains label) →
    (host.registerCommand thread command).1 = .ok () ∧
      (host.registerCommand thread command).2.commands.commands =
        host.commands.commands.insert command.name command
  /-- Removing a name removes the command with this name, if there is one, and no other. -/
  removes : ∀ thread name other,
    (host.unregisterCommand thread name).1 = (host.commands.commands.get? name).isSome ∧
      (host.unregisterCommand thread name).2.commands.commands.get? other =
        if name = other then none else host.commands.commands.get? other
  /-- The labels that lead to the name go with the command, and no others. -/
  removes_label : ∀ thread name label other,
    (host.unregisterCommand thread name).2.commands.labels.get? label = some other ↔
      other ≠ name ∧ host.commands.labels.get? label = some other
  /-- Every spelling of a label finds its own command. -/
  finds : ∀ name command label written, host.commands.commands.get? name = some command →
    label ∈ command.labels → Command.Spells label written →
      host.commands.contains written = true ∧ host.commands.get? written = some command
  /-- Every spelling of a label runs the body of its own command. -/
  runs : ∀ name command label written arguments,
    host.commands.commands.get? name = some command → label ∈ command.labels →
      Command.Spells label written →
        host.dispatch written arguments =
          let (flow, state) := host.environment.run command.items 0
            ⟨CommandTable.event command arguments, host.effects⟩
          (flow.map fun _ => true, { host with effects := state.effects })

variable {host : Host}

/-! ### Edits keep the table consistent -/

theorem Catalogued.touchCommands (catalogued : host.Catalogued) (thread : Thread) :
    (host.touchCommands thread).Catalogued := by
  cases thread with
  | main => exact catalogued
  | worker =>
    exact ⟨⟨catalogued.consistent.named, catalogued.consistent.label_iff⟩, catalogued.labelled⟩

theorem registerCommand_of_error {thread : Thread} {command : Command} {failure : Failure}
    (refused : (host.touchCommands thread).commands.register command = .error failure) :
    host.registerCommand thread command = (.error failure, host.touchCommands thread) := by
  simp only [registerCommand, refused]

theorem registerCommand_of_ok {thread : Thread} {command : Command} {after : CommandTable}
    (registers : (host.touchCommands thread).commands.register command = .ok after) :
    host.registerCommand thread command =
      (.ok (), { host.touchCommands thread with commands := after }) := by
  simp only [registerCommand, registers]

theorem Catalogued.register (catalogued : host.Catalogued) (thread : Thread) {command : Command}
    (labelled : CommandReading.Labelled command) :
    (host.registerCommand thread command).2.Catalogued := by
  have touched := catalogued.touchCommands thread
  cases registers : (host.touchCommands thread).commands.register command with
  | error failure =>
    rw [registerCommand_of_error registers]
    exact touched
  | ok after =>
    rw [registerCommand_of_ok registers]
    refine ⟨touched.consistent.register registers, fun name other found => ?_⟩
    dsimp only at found
    rw [(CommandTable.register_ok registers).2.1, Table.get?_insert] at found
    by_cases here : command.name = name
    · rw [if_pos here, Option.some.injEq] at found
      exact found ▸ labelled
    · rw [if_neg here] at found
      exact touched.labelled name other found

theorem Catalogued.unregister (catalogued : host.Catalogued) (thread : Thread) (name : String) :
    (host.unregisterCommand thread name).2.Catalogued := by
  have touched := catalogued.touchCommands thread
  refine ⟨touched.consistent.unregister name, fun other command found => ?_⟩
  have kept := CommandTable.unregister_commands (host.touchCommands thread).commands name other
  rw [show (host.unregisterCommand thread name).2.commands =
    ((host.touchCommands thread).commands.unregister name).2 from rfl, kept] at found
  by_cases here : name = other
  · rw [if_pos here] at found
    cases found
  · rw [if_neg here] at found
    exact touched.labelled other command found

theorem Catalogued.edit (catalogued : host.Catalogued) {edit : TableEdit} (read : edit.IsRead) :
    (host.edit edit).Catalogued := by
  cases edit with
  | register thread command => exact catalogued.register thread read.labelled
  | unregister thread name => exact catalogued.unregister thread name

theorem Catalogued.editAll (catalogued : host.Catalogued) {edits : List TableEdit}
    (read : ∀ edit ∈ edits, edit.IsRead) : (host.editAll edits).Catalogued := by
  unfold Host.editAll
  induction edits generalizing host with
  | nil => exact catalogued
  | cons first others ih =>
    obtain ⟨own, later⟩ := List.forall_mem_cons.mp read
    exact ih (catalogued.edit own) later

/-! ### What a consistent table answers -/

theorem touchCommands_commands (thread : Thread) (host : Host) :
    (host.touchCommands thread).commands.commands = host.commands.commands := by
  cases thread <;> rfl

theorem touchCommands_labels (thread : Thread) (host : Host) :
    (host.touchCommands thread).commands.labels = host.commands.labels := by
  cases thread <;> rfl

theorem registerCommand_of_taken (thread : Thread) {command : Command}
    (taken : ∃ label ∈ command.labels, host.commands.labels.contains label) :
    ∃ failure,
      host.registerCommand thread command = (.error failure, host.touchCommands thread) := by
  rw [← touchCommands_labels thread, ← CommandTable.register_error_iff] at taken
  obtain ⟨failure, refused⟩ := taken
  exact ⟨failure, registerCommand_of_error refused⟩

theorem registerCommand_of_free (thread : Thread) {command : Command}
    (free : ¬ ∃ label ∈ command.labels, host.commands.labels.contains label) :
    (host.registerCommand thread command).1 = .ok () ∧
      (host.registerCommand thread command).2.commands.commands =
        host.commands.commands.insert command.name command := by
  rw [← touchCommands_labels thread, ← CommandTable.register_error_iff] at free
  cases registers : (host.touchCommands thread).commands.register command with
  | error failure => exact absurd ⟨failure, registers⟩ free
  | ok after =>
    rw [registerCommand_of_ok registers, ← touchCommands_commands thread host]
    refine ⟨rfl, ?_⟩
    exact (CommandTable.register_ok registers).2.1

/-- Every spelling of a label leads to the command that has it. -/
theorem Catalogued.labels_get? (catalogued : host.Catalogued) {name label written : String}
    {command : Command} (found : host.commands.commands.get? name = some command)
    (own : label ∈ command.labels) (spells : Command.Spells label written) :
    host.commands.labels.get? (Command.lookupLabel written) = some name := by
  rw [(catalogued.labelled name command found label own).lookupLabel spells]
  exact (catalogued.consistent.label_iff label name).mpr ⟨command, found, own⟩

theorem Catalogued.get? (catalogued : host.Catalogued) {name label written : String}
    {command : Command} (found : host.commands.commands.get? name = some command)
    (own : label ∈ command.labels) (spells : Command.Spells label written) :
    host.commands.get? written = some command := by
  rw [CommandTable.get?, catalogued.labels_get? found own spells]
  exact found

theorem Catalogued.serves (catalogued : host.Catalogued) : host.ServesCommands where
  named := catalogued.consistent.named
  label_iff := catalogued.consistent.label_iff
  apart := fun _ _ _ _ found there differ _ own shared =>
    differ (catalogued.consistent.apart found there own shared)
  refuses := fun thread _ => registerCommand_of_taken thread
  takes := fun thread _ => registerCommand_of_free thread
  removes := by
    intro thread name other
    rw [← touchCommands_commands thread host]
    exact ⟨CommandTable.unregister_isSome _ name, CommandTable.unregister_commands _ name other⟩
  removes_label := by
    intro thread name label other
    rw [← touchCommands_labels thread host]
    exact (catalogued.touchCommands thread).consistent.unregister_labels
  finds := by
    intro name command label written found own spells
    refine ⟨?_, catalogued.get? found own spells⟩
    rw [CommandTable.contains, Table.contains, catalogued.labels_get? found own spells]
    rfl
  runs := by
    intro name command label written arguments found own spells
    simp only [dispatch, CommandTable.dispatch, catalogued.get? found own spells]

/-- **Labels lead to their own commands.** Whatever commands that have been read are registered and
whatever names are removed, by either thread, the labels are those of the registered commands, and
the host answers every spelling of a label for its own command. -/
theorem editAll_serves (host : Host) (edits : List TableEdit)
    (read : ∀ edit ∈ edits, edit.IsRead) :
    (({ host with commands := {} } : Host).editAll edits).ServesCommands := by
  have empty : ({ host with commands := {} } : Host).Catalogued :=
    ⟨.empty 0, fun name command found => by cases found⟩
  exact (empty.editAll read).serves

/-! ### A command with two aliases -/

/-- A command is read, with slashes and capitals in its labels. -/
def readPing : Except Failure Command :=
  (Workspace.readCommand "/Ping" ⟨"command /Ping", 1,
      [.simple "aliases: /P, PONG" 2, .nested "trigger" 3 [.simple "send \"pong\"" 4]]⟩
    { context := { script := some ⟨⟨"ping.sk"⟩, 1⟩ } }).1

/-- An alias is no name, so removing it leaves the command with all its labels. -/
theorem readPing_serves : ∃ command, readPing = .ok command ∧
    command.labels = ["ping", "p", "pong"] ∧
    (∀ edit ∈ [TableEdit.register .main command, .unregister .worker "pong"], edit.IsRead) ∧
    (({ ({} : Host) with commands := {} } : Host).editAll
      [.register .main command, .unregister .worker "pong"]).ServesCommands := by
  have labels : readPing.toOption.map Command.labels = some ["ping", "p", "pong"] := by
    decide +kernel
  cases read : readPing with
  | error failure =>
    rw [read] at labels
    cases labels
  | ok command =>
    rw [read] at labels
    have isRead : ∀ edit ∈ [TableEdit.register .main command, .unregister .worker "pong"],
        edit.IsRead :=
      List.forall_mem_cons.mpr ⟨⟨_, _, _, read⟩, List.forall_mem_singleton.mpr trivial⟩
    exact ⟨command, rfl, Option.some.inj labels, isRead, editAll_serves {} _ isRead⟩

end Host

end ScriptBinding

import Mathlib.Logic.Function.Basic
import ScriptBinding.Command.Table

/-! # The command table and the registrations

What is registered under tickets determines the command table, and no two tickets share a label.
Registering a command under a free ticket and taking it back keep it so.
-/

namespace ScriptBinding

namespace Table

variable {α : Type}

theorem get?_eraseAll (keys : List String) (table : Table α) (key : String) :
    (table.eraseAll keys).get? key = if key ∈ keys then none else table.get? key := by
  unfold eraseAll
  induction keys generalizing table with
  | nil => rfl
  | cons first others ih =>
    rw [List.foldl_cons, ih, get?_erase]
    by_cases here : first = key
    · simp [here]
    · have apart : key ≠ first := fun same => here same.symm
      simp [here, apart]

/-- Giving many keys the same value. -/
theorem get?_insertAll_const (keys : List String) (value : α) (table : Table α) (key : String) :
    (table.insertAll (keys.map (·, value))).get? key =
      if key ∈ keys then some value else table.get? key := by
  unfold insertAll
  induction keys generalizing table with
  | nil => rfl
  | cons first others ih =>
    rw [List.map_cons, List.foldl_cons, ih, get?_insert]
    by_cases here : first = key
    · simp [here]
    · have apart : key ≠ first := fun same => here same.symm
      simp [here, apart]

end Table

namespace CommandTable

/-- The table shows what is registered under tickets, and no two tickets share a label. -/
structure Reflects (table : CommandTable) (registered : Nat → Option Command) : Prop where
  command_iff : ∀ name command, table.commands.get? name = some command ↔
    command.name = name ∧ ∃ ticket, registered ticket = some command
  label_iff : ∀ label name, table.labels.get? label = some name ↔
    ∃ ticket command, registered ticket = some command ∧ command.name = name ∧
      label ∈ command.labels
  apart : ∀ first second command other, registered first = some command →
    registered second = some other → ∀ label ∈ command.labels, label ∈ other.labels →
      first = second

theorem Reflects.empty : Reflects {} fun _ => none where
  command_iff := by simp
  label_iff := by simp
  apart := by simp

theorem name_mem_labels (command : Command) : command.name ∈ command.labels :=
  List.mem_cons_self

/-- Two tables that show the same registrations hold the same commands under the same labels. -/
theorem Reflects.unique {table other : CommandTable} {registered : Nat → Option Command}
    (first : table.Reflects registered) (second : other.Reflects registered) :
    table.commands = other.commands ∧ table.labels = other.labels := by
  constructor
  · refine Table.ext_get? fun name => Option.ext fun command => ?_
    rw [first.command_iff, second.command_iff]
  · refine Table.ext_get? fun label => Option.ext fun name => ?_
    rw [first.label_iff, second.label_iff]

variable {table : CommandTable} {registered : Nat → Option Command} {command : Command}
  {ticket : Nat}

/-- A command is refused exactly if one of its labels is taken. -/
theorem Reflects.register_error_iff (reflects : table.Reflects registered) :
    (∃ failure, table.register command = .error failure) ↔
      ∃ ticket other, registered ticket = some other ∧
        ∃ label ∈ command.labels, label ∈ other.labels := by
  unfold register
  cases taken : command.labels.find? table.labels.contains with
  | none =>
    have free := List.find?_eq_none.mp taken
    simp only [reduceCtorEq, exists_false, false_iff]
    rintro ⟨ticket, other, found, label, own, shared⟩
    have there := (reflects.label_iff label other.name).mpr ⟨ticket, other, found, rfl, shared⟩
    exact free label own (by rw [Table.contains, there]; rfl)
  | some label =>
    have contained := List.find?_some taken
    obtain ⟨name, there⟩ := Option.isSome_iff_exists.mp contained
    obtain ⟨ticket, other, found, _, shared⟩ := (reflects.label_iff label name).mp there
    simp only [Except.error.injEq, exists_eq', true_iff]
    exact ⟨ticket, other, found, label, List.mem_of_find?_eq_some taken, shared⟩

/-- What a command that is taken makes of the table. -/
theorem eq_of_register {after : CommandTable} (registers : table.register command = .ok after) :
    after = { table with
      commands := table.commands.insert command.name command
      labels := table.labels.insertAll (command.labels.map (·, command.name)) } := by
  unfold register at registers
  split at registers
  · cases registers
  · exact (Except.ok.inj registers).symm

/-- No other command has a label of a command that is taken. -/
theorem Reflects.labels_free (reflects : table.Reflects registered) {after : CommandTable}
    (registers : table.register command = .ok after) {used : Nat} {other : Command}
    (found : registered used = some other) : ∀ label ∈ command.labels, label ∉ other.labels := by
  intro label own shared
  obtain ⟨failure, refused⟩ :=
    reflects.register_error_iff.mpr ⟨used, other, found, label, own, shared⟩
  rw [refused] at registers
  cases registers

/-- What is registered once a free ticket is used: the new command, or one from before. -/
theorem exists_update_iff (unused : registered ticket = none) {Meets : Command → Prop} :
    (∃ used other, Function.update registered ticket (some command) used = some other ∧
      Meets other) ↔ Meets command ∨ ∃ used other, registered used = some other ∧ Meets other := by
  constructor
  · rintro ⟨used, other, found, meets⟩
    by_cases same : used = ticket
    · subst same
      rw [Function.update_self, Option.some.injEq] at found
      exact Or.inl (found ▸ meets)
    · rw [Function.update_of_ne same] at found
      exact Or.inr ⟨used, other, found, meets⟩
  · rintro (meets | ⟨used, other, found, meets⟩)
    · exact ⟨ticket, command, Function.update_self .., meets⟩
    · have differ : used ≠ ticket := by
        rintro rfl
        rw [unused] at found
        cases found
      exact ⟨used, other, (Function.update_of_ne differ ..).trans found, meets⟩

/-- A command that is taken is shown under its ticket. -/
theorem Reflects.register (reflects : table.Reflects registered)
    (unused : registered ticket = none) {after : CommandTable}
    (registers : table.register command = .ok after) :
    after.Reflects (Function.update registered ticket (some command)) := by
  have free {used : Nat} {other : Command} (found : registered used = some other) :=
    reflects.labels_free registers found
  obtain rfl := eq_of_register registers
  constructor
  case command_iff =>
    intro name other
    have either : (∃ used kept, Function.update registered ticket (some command) used =
        some kept ∧ kept = other) ↔
          command = other ∨ ∃ used kept, registered used = some kept ∧ kept = other :=
      exists_update_iff unused
    simp only [exists_eq_right] at either
    rw [either, Table.get?_insert]
    by_cases here : command.name = name
    · rw [if_pos here, Option.some.injEq]
      constructor
      · rintro rfl
        exact ⟨here, Or.inl rfl⟩
      · rintro ⟨named, same | ⟨used, found⟩⟩
        · exact same
        · have own : command.name ∈ other.labels := by
            rw [here, ← named]
            exact name_mem_labels other
          exact absurd own (free found _ (name_mem_labels command))
    · rw [if_neg here, reflects.command_iff]
      refine and_congr_right fun named => ⟨Or.inr, fun either => either.resolve_left ?_⟩
      rintro rfl
      exact here named
  case label_iff =>
    intro label name
    rw [Table.get?_insertAll_const, exists_update_iff unused]
    by_cases own : label ∈ command.labels
    · rw [if_pos own, Option.some.injEq]
      refine ⟨fun same => Or.inl ⟨same, own⟩, ?_⟩
      rintro (⟨same, _⟩ | ⟨used, other, found, _, shared⟩)
      · exact same
      · exact absurd shared (free found label own)
    · rw [if_neg own, reflects.label_iff]
      exact ⟨Or.inr, fun either => either.resolve_left fun here => own here.2⟩
  case apart =>
    intro first second one two foundOne foundTwo label here there
    by_cases isFirst : first = ticket <;> by_cases isSecond : second = ticket
    · rw [isFirst, isSecond]
    · subst isFirst
      rw [Function.update_self, Option.some.injEq] at foundOne
      rw [Function.update_of_ne isSecond] at foundTwo
      subst foundOne
      exact absurd there (free foundTwo label here)
    · subst isSecond
      rw [Function.update_self, Option.some.injEq] at foundTwo
      rw [Function.update_of_ne isFirst] at foundOne
      subst foundTwo
      exact absurd here (free foundOne label there)
    · rw [Function.update_of_ne isFirst] at foundOne
      rw [Function.update_of_ne isSecond] at foundTwo
      exact reflects.apart first second one two foundOne foundTwo label here there

/-- A command that is taken back is shown no longer, and the others stay. -/
theorem Reflects.unregister (reflects : table.Reflects registered)
    (used : registered ticket = some command) :
    (table.unregister command.name).2.Reflects (Function.update registered ticket none) := by
  have found := (reflects.command_iff command.name command).mpr ⟨rfl, ticket, used⟩
  have alone : ∀ other used', registered used' = some other → used' ≠ ticket →
      ∀ label ∈ command.labels, label ∉ other.labels := by
    intro other used' foundOther differ label own shared
    exact differ (reflects.apart _ _ _ _ foundOther used label shared own)
  have remains (used' : Nat) (other : Command) :
      Function.update registered ticket none used' = some other ↔
        used' ≠ ticket ∧ registered used' = some other := by
    by_cases same : used' = ticket
    · subst same
      simp
    · simp [same]
  unfold CommandTable.unregister
  rw [found]
  refine ⟨?_, ?_, ?_⟩
  · intro name other
    simp only [remains]
    rw [Table.get?_erase]
    by_cases here : command.name = name
    · rw [if_pos here]
      refine ⟨nofun, ?_⟩
      rintro ⟨named, used', differ, foundOther⟩
      refine absurd ?_ (alone other used' foundOther differ _ (name_mem_labels command))
      rw [here, ← named]
      exact name_mem_labels other
    · rw [if_neg here, reflects.command_iff]
      refine and_congr_right fun named => exists_congr fun used' => ?_
      refine ⟨fun foundOther => ⟨?_, foundOther⟩, And.right⟩
      rintro rfl
      rw [used, Option.some.injEq] at foundOther
      exact here (foundOther ▸ named)
  · intro label name
    simp only [remains]
    rw [Table.get?_eraseAll]
    by_cases own : label ∈ command.labels
    · rw [if_pos own]
      refine ⟨nofun, ?_⟩
      rintro ⟨used', other, ⟨differ, foundOther⟩, _, shared⟩
      exact absurd shared (alone other used' foundOther differ label own)
    · rw [if_neg own, reflects.label_iff]
      refine exists_congr fun used' => exists_congr fun other => ?_
      refine ⟨fun ⟨foundOther, rest⟩ => ⟨⟨?_, foundOther⟩, rest⟩,
        fun ⟨⟨_, foundOther⟩, rest⟩ => ⟨foundOther, rest⟩⟩
      rintro rfl
      rw [used, Option.some.injEq] at foundOther
      exact own (foundOther ▸ rest.2)
  · intro first second one two foundOne foundTwo label here there
    exact reflects.apart first second one two ((remains first one).mp foundOne).2
      ((remains second two).mp foundTwo).2 label here there

end CommandTable

end ScriptBinding

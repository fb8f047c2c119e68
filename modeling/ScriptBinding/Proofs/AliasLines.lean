import ScriptBinding.AliasTable

/-! # Lines of aliases that are at fault

The lines of a section of aliases are loaded one after the other, each into the table that the lines
before it have left. A line at fault that stands for no items is left out. A line of which only some
references are unknown is not: its alias gets the items that are left, in place of any it had. So a
section is loaded as if its lines at fault were not there, exactly if every one of them stands for
no items, or for those that its alias has already.
-/

namespace ScriptBinding.AliasTable

/-! ## What a line stands for -/

/-- The items that one piece of a line adds to those of the others; a name that is no alias adds
none. -/
def itemsIn (table : AliasTable) (piece : List Char) : List String :=
  match Text.between? '\x7b' '\x7d' piece with
  | none => [Text.lower (String.ofList piece)]
  | some name => (table.items? (String.ofList name)).getD []

/-- The items that the value of a line stands for. -/
def itemsOfValue (table : AliasTable) (value : String) : List String :=
  (piecesOf value).flatMap table.itemsIn

theorem collect_items (table : AliasTable) (line : Nat) (pieces : List (List Char)) :
    (table.collect line pieces).1 = pieces.flatMap table.itemsIn := by
  induction pieces with
  | nil => rfl
  | cons piece others ih =>
    rw [List.flatMap_cons, ← ih, collect, itemsIn, itemsOf]
    cases Text.between? '\x7b' '\x7d' piece with
    | none => rfl
    | some name => cases found : table.items? (String.ofList name) <;> simp only [found] <;> rfl

/-- A line defines its alias if it stands for some items. -/
theorem loadNode_entry (table : AliasTable) (key value : String) (line : Nat) :
    (table.loadNode (.entry key value line)).1 =
      if table.itemsOfValue value = [] then table
      else table.insert (lookupName key) (table.itemsOfValue value) := by
  have items : (table.collect line (piecesOf value)).1 = table.itemsOfValue value :=
    table.collect_items line (piecesOf value)
  simp only [loadNode, items, List.isEmpty_iff]
  split <;> rfl

/-! ## Turns -/

/-- A line, with the table that it is loaded into. -/
structure Turn where
  table : AliasTable
  node : Node

/-- The lines of a section, each with the table that those before it have left. -/
def turns : List Node → AliasTable → List Turn
  | [], _ => []
  | node :: others, table => ⟨table, node⟩ :: turns others (table.loadNode node).1

namespace Turn

/-- Errors are returned for the line. -/
def Faulty (turn : Turn) : Prop :=
  (turn.table.loadNode turn.node).2 ≠ []

instance (turn : Turn) : Decidable turn.Faulty :=
  inferInstanceAs (Decidable (_ ≠ _))

/-- The line leaves every alias as it was. -/
def Leaves (turn : Turn) : Prop :=
  (turn.table.loadNode turn.node).1 = turn.table

/-- The line stands for no items, or for those that its alias has already. -/
def Idle (turn : Turn) : Prop :=
  ∀ key value line, turn.node = .entry key value line →
    turn.table.itemsOfValue value = [] ∨
      turn.table.items? key = some (turn.table.itemsOfValue value)

/-- A line leaves the aliases alone exactly if it has nothing to add. -/
theorem leaves_iff (turn : Turn) : turn.Leaves ↔ turn.Idle := by
  obtain ⟨table, node⟩ := turn
  cases node with
  | simple key line => exact ⟨fun _ _ _ _ other => (nomatch other), fun _ => rfl⟩
  | nested key line nodes => exact ⟨fun _ _ _ _ other => (nomatch other), fun _ => rfl⟩
  | entry key value line =>
    have idle : Idle ⟨table, .entry key value line⟩ ↔
        table.itemsOfValue value = [] ∨ table.items? key = some (table.itemsOfValue value) := by
      refine ⟨fun idle => idle key value line rfl, fun given key value line same => ?_⟩
      cases same
      exact given
    rw [idle, Leaves, loadNode_entry]
    by_cases none : table.itemsOfValue value = []
    · simp only [none, ↓reduceIte, true_or]
    · simp only [none, ↓reduceIte, false_or]
      constructor
      · intro same
        have own := Table.get?_insert_self table (lookupName key) (table.itemsOfValue value)
        rwa [same] at own
      · intro has
        refine Table.ext_get? fun other => ?_
        rw [Table.get?_insert]
        split
        · next here => exact here ▸ has.symm
        · rfl

end Turn

/-! ## Sections -/

/-- The lines of a section for which no errors are returned. -/
def sound (nodes : List Node) (table : AliasTable) : List Node :=
  ((turns nodes table).filter fun turn => ¬ turn.Faulty).map Turn.node

theorem load_cons (node : Node) (others : List Node) (table : AliasTable) :
    load (node :: others) table =
      ((load others (table.loadNode node).1).1,
        (table.loadNode node).2 ++ (load others (table.loadNode node).1).2) := rfl

/-- The lines without errors are loaded without errors again, and to the same end if the others have
left the aliases alone. -/
theorem load_sound {nodes : List Node} {table : AliasTable}
    (leaves : ∀ turn ∈ turns nodes table, turn.Faulty → turn.Leaves) :
    load (sound nodes table) table = ((load nodes table).1, []) := by
  induction nodes generalizing table with
  | nil => rfl
  | cons node others ih =>
    obtain ⟨first, later⟩ := List.forall_mem_cons.mp leaves
    by_cases faulty : Turn.Faulty ⟨table, node⟩
    · have same : (table.loadNode node).1 = table := first faulty
      have dropped : sound (node :: others) table = sound others (table.loadNode node).1 := by
        simp [sound, turns, faulty]
      have rest := ih later
      rw [same] at rest
      rw [dropped, same, rest, load_cons, same]
    · have none : (table.loadNode node).2 = [] := Decidable.not_not.mp faulty
      have kept : sound (node :: others) table =
          node :: sound others (table.loadNode node).1 := by
        simp [sound, turns, faulty]
      rw [kept, load_cons, load_cons, ih later, none, List.nil_append]

/-- **Bad lines of aliases.** A section is loaded as the lines in it for which no errors are
returned would be by themselves, and every other line leaves all aliases as they were, exactly if
each line with an error stands for no items or for those that its alias has already: references to
unknown names are errors, but the other items of their line still define its alias. -/
theorem load_skips_iff (nodes : List Node) (table : AliasTable) :
    (load (sound nodes table) table = ((load nodes table).1, []) ∧
        ∀ turn ∈ turns nodes table, turn.Faulty → turn.Leaves) ↔
      ∀ turn ∈ turns nodes table, turn.Faulty → turn.Idle := by
  constructor
  · rintro ⟨-, leaves⟩ turn member faulty
    exact turn.leaves_iff.mp (leaves turn member faulty)
  · intro idle
    have leaves : ∀ turn ∈ turns nodes table, turn.Faulty → turn.Leaves :=
      fun turn member faulty => turn.leaves_iff.mpr (idle turn member faulty)
    exact ⟨load_sound leaves, leaves⟩

/-- A line with an unknown name among its items takes the place of an earlier alias, which is there
if only the line without errors is loaded. -/
theorem sword_replaces_axe :
    load [.entry "tools" "axe" 2, .entry "tools" "\x7bnope\x7d, sword" 3] .empty =
        (Table.empty.insert "tools" ["sword"], [.config 3 "'nope' is not an alias"]) ∧
      load (sound [.entry "tools" "axe" 2, .entry "tools" "\x7bnope\x7d, sword" 3] .empty) .empty =
        (Table.empty.insert "tools" ["axe"], []) ∧
      (Table.empty.insert "tools" ["sword"] : AliasTable) ≠ Table.empty.insert "tools" ["axe"] := by
  decide +kernel

end ScriptBinding.AliasTable

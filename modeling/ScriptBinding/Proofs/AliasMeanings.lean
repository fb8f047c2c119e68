import ScriptBinding.Proofs.AliasLines
import ScriptBinding.Proofs.CharacterSets
import ScriptBinding.Proofs.LowerCase
import ScriptBinding.Proofs.TextLiterals
import ScriptBinding.Proofs.Traces
import ScriptBinding.Structure.Aliases

/-! # What aliases stand for

A reference is replaced once, by the items that the table has for its name. That is enough: the
items in the table are never references themselves. So an alias stands for what is left when every
reference in its line, in the lines that those references are defined by, and so on, is written out,
each as it was defined when the line with the reference was loaded. Lines that come later change
nothing about that.
-/

namespace ScriptBinding

/-! ## Items in lower case -/

namespace Text

/-- Only a blank becomes a blank. -/
theorem solitary_of_isBlank {c : Char} (blank : isBlank c = true) : Solitary c := by
  have apart : (CharSet.blank.ranges.all fun range =>
      lowerEntries.all (fun entry => decide (range.2 < entry.image entry.first ∨
        entry.image entry.last < range.1)) &&
      ['i', Char.ofNat 0x307, Char.ofNat 0x3C2, Char.ofNat 0x3C3].all fun other =>
        decide (range.2 < other.toNat ∨ other.toNat < range.1)) = true := by
    decide +kernel
  rw [← CharSet.contains_blank, CharSet.contains, CharSet.hasPoint, inRanges,
    List.any_eq_true] at blank
  obtain ⟨range, member, within⟩ := blank
  obtain ⟨entries, others⟩ := Bool.and_eq_true_iff.mp (List.all_eq_true.mp apart range member)
  simp only [Bool.and_eq_true, decide_eq_true_eq] at within
  refine ⟨fun entry there => ?_, fun there => ?_⟩
  · have beside := of_decide_eq_true (List.all_eq_true.mp entries entry there)
    omega
  · have beside := of_decide_eq_true (List.all_eq_true.mp others c there)
    omega

/-- A text that has no blanks at its ends has none in lower case. -/
theorem trimChars_lowerFrom {chars : List Char} (trimmed : trimChars chars = chars)
    (before : List Char) : trimChars (lowerFrom before chars) = lowerFrom before chars := by
  obtain ⟨starts, ends⟩ := trimChars_eq_self_iff.mp trimmed
  refine trimChars_eq_self_iff.mpr ⟨fun c first => ?_, fun c last => ?_⟩
  · rw [← Bool.not_eq_true]
    intro blank
    have own : chars.head? = some c := Classical.not_not.mp fun other =>
      head?_lowerFrom (solitary_of_isBlank blank) other first
    exact absurd blank (Bool.eq_false_iff.mp (starts c own))
  · rw [← Bool.not_eq_true]
    intro blank
    have own : chars.getLast? = some c := Classical.not_not.mp fun other =>
      getLast?_lowerFrom (solitary_of_isBlank blank) other last
    exact absurd blank (Bool.eq_false_iff.mp (ends c own))

/-- A text stands between two characters at its ends if it does in lower case. -/
theorem between?_of_lowerFrom {opening closing : Char} {before chars inner : List Char}
    (opens : Solitary opening) (closes : Solitary closing) (differ : opening ≠ closing)
    (braced : lowerFrom before chars = opening :: inner ++ [closing]) :
    ∃ name, between? opening closing chars = some name := by
  have first : chars.head? = some opening := Classical.not_not.mp fun other =>
    head?_lowerFrom opens other (by rw [braced]; rfl)
  have last : chars.getLast? = some closing := Classical.not_not.mp fun other =>
    getLast?_lowerFrom closes other (by rw [braced, List.getLast?_concat])
  obtain ⟨rest, rfl⟩ := List.head?_eq_some_iff.mp first
  rcases List.eq_nil_or_concat rest with rfl | ⟨name, final, rfl⟩
  · exact absurd (Option.some.inj last) differ
  · rw [List.concat_eq_append, ← List.cons_append] at last ⊢
    rw [List.getLast?_concat] at last
    cases last
    exact ⟨name, between?_eq_some.mpr rfl⟩

end Text

namespace AliasTable

/-- The text stands for itself: it is in lower case and not empty, has no blanks at its ends, and is
not a name in braces. -/
structure IsItem (item : String) : Prop where
  lower : Text.lower item = item
  trimmed : Text.trim item = item
  nonempty : item ≠ ""
  noReference : ∀ name, item.toList ≠ '\x7b' :: name ++ ['\x7d']

/-- A piece that is no reference stands for itself once it is in lower case. -/
theorem isItem_lower {value : String} {piece : List Char} (member : piece ∈ piecesOf value)
    (plain : Text.between? '\x7b' '\x7d' piece = none) :
    IsItem (Text.lower (String.ofList piece)) := by
  obtain ⟨part, filled⟩ := List.mem_filter.mp member
  obtain ⟨raw, -, rfl⟩ := List.mem_map.mp part
  have written : Text.trimChars raw ≠ [] := by simpa using filled
  have trimmed := Text.trimChars_trimChars raw
  generalize Text.trimChars raw = piece at *
  have image : (Text.lower (String.ofList piece)).toList = Text.lowerFrom [] piece := by
    rw [Text.lower, String.toList_ofList, String.toList_ofList]
  refine ⟨Text.lower_eq_self fun c => Text.isLower_of_mem_lower, ?_, fun empty => ?_,
    fun name braced => ?_⟩
  · rw [← String.toList_inj, Text.toList_trim, image, Text.trimChars_lowerFrom trimmed]
  · obtain ⟨front, splits, some, -⟩ := Text.lowerFrom_append [] piece []
    rw [List.append_nil] at splits
    rw [← String.toList_inj, image, splits] at empty
    exact some written (List.append_eq_nil_iff.mp empty).1
  · have alone := Text.solitary_signs
    obtain ⟨inner, found⟩ := Text.between?_of_lowerFrom (alone '\x7b' (by decide))
      (alone '\x7d' (by decide)) (by decide) (image.symm.trans braced)
    rw [found] at plain
    cases plain

/-! ## Definitions -/

/-- What a piece of a line means. -/
inductive Meaning where
  /-- An item. -/
  | item (text : String)
  /-- A name, with the definition that it has. -/
  | reference (name : String) (definition : List Meaning)
  /-- A name that is no alias. -/
  | unknown (name : String)

namespace Meaning

/-- The items that are left when every reference is written out. -/
def items : Meaning → List String
  | item text => [text]
  | reference _ definition => allItems definition
  | unknown _ => []
where
  /-- The items of some pieces. -/
  allItems : List Meaning → List String
    | [] => []
    | meaning :: others => meaning.items ++ allItems others

/-- The name in a piece of the line itself that is no alias. -/
def unknown? : Meaning → Option String
  | unknown name => some name
  | _ => none

theorem allItems_map {α : Type} (meaning : α → Meaning) (pieces : List α) :
    items.allItems (pieces.map meaning) = pieces.flatMap fun piece => (meaning piece).items := by
  induction pieces with
  | nil => rfl
  | cons piece others ih => rw [List.map_cons, items.allItems, ih, List.flatMap_cons]

end Meaning

open Meaning.items (allItems)

/-- What a piece of a line means by the given definitions. -/
def meaningOf (definition? : String → Option (List Meaning)) (piece : List Char) : Meaning :=
  match Text.between? '\x7b' '\x7d' piece with
  | none => .item (Text.lower (String.ofList piece))
  | some name =>
    match definition? (lookupName (String.ofList name)) with
    | some definition => .reference (String.ofList name) definition
    | none => .unknown (String.ofList name)

/-- The definition of a name behind some lines, the last of which comes first. It is that of the
last line for the name that has any items, by the definitions behind the lines before that one. -/
def definition? : List Node → String → Option (List Meaning)
  | [], _ => none
  | .entry key value _ :: earlier, name =>
    let meanings := (piecesOf value).map (meaningOf (definition? earlier))
    if lookupName key = name ∧ allItems meanings ≠ [] then some meanings
    else definition? earlier name
  | _ :: earlier, name => definition? earlier name

/-- What is wrong with a line behind some others, the last of which comes first. -/
def faultsOf (earlier : List Node) : Node → List Failure
  | .entry key value line =>
    let meanings := (piecesOf value).map (meaningOf (definition? earlier))
    (meanings.filterMap Meaning.unknown?).map
        (fun name => .config line s!"'{name}' is not an alias") ++
      if allItems meanings = [] then [.config line s!"Alias '{lookupName key}' has no items"]
      else []
  | other => [.config other.line "Invalid line in aliases section"]

/-- What is wrong with some lines behind others, the last of which comes first. -/
def faults : List Node → List Node → List Failure
  | _, [] => []
  | earlier, node :: others => faultsOf earlier node ++ faults (node :: earlier) others

/-! ## Lines -/

variable {table : AliasTable} {earlier : List Node}

/-- The table holds the items of every definition that there is behind the lines. -/
def Holds (table : AliasTable) (earlier : List Node) : Prop :=
  ∀ name, table.get? name = (definition? earlier name).map allItems

theorem Holds.itemsIn (holds : table.Holds earlier) (piece : List Char) :
    table.itemsIn piece = (meaningOf (definition? earlier) piece).items := by
  unfold AliasTable.itemsIn meaningOf
  cases Text.between? '\x7b' '\x7d' piece with
  | none => rfl
  | some name =>
    dsimp only
    rw [items?, holds]
    cases definition? earlier (lookupName (String.ofList name)) <;> rfl

theorem Holds.itemsOfValue (holds : table.Holds earlier) (value : String) :
    table.itemsOfValue value =
      allItems ((piecesOf value).map (meaningOf (definition? earlier))) := by
  rw [Meaning.allItems_map, AliasTable.itemsOfValue]
  exact congrArg (List.flatMap · (piecesOf value)) (funext holds.itemsIn)

/-- The only pieces that are at fault are names that are no aliases. -/
theorem Holds.collect_failures (holds : table.Holds earlier) (line : Nat)
    (pieces : List (List Char)) :
    (table.collect line pieces).2 =
      ((pieces.map (meaningOf (definition? earlier))).filterMap Meaning.unknown?).map
        fun name => .config line s!"'{name}' is not an alias" := by
  induction pieces with
  | nil => rfl
  | cons piece others ih =>
    rw [collect, itemsOf, List.map_cons, List.filterMap_cons, meaningOf]
    cases Text.between? '\x7b' '\x7d' piece with
    | none => exact ih
    | some name =>
      dsimp only
      rw [items?, holds]
      cases definition? earlier (lookupName (String.ofList name)) with
      | some definition => exact ih
      | none => exact congrArg (_ :: ·) ih

/-- One more line is loaded as the definitions behind the lines before it have it. -/
theorem Holds.loadNode (holds : table.Holds earlier) (node : Node) :
    (table.loadNode node).1.Holds (node :: earlier) ∧
      (table.loadNode node).2 = faultsOf earlier node := by
  cases node with
  | simple key line => exact ⟨holds, rfl⟩
  | nested key line nodes => exact ⟨holds, rfl⟩
  | entry key value line =>
    constructor
    · intro name
      rw [loadNode_entry, holds.itemsOfValue, definition?]
      by_cases none : allItems ((piecesOf value).map (meaningOf (definition? earlier))) = []
      · rw [if_pos none, if_neg fun both => both.2 none]
        exact holds name
      · rw [if_neg none, Table.get?_insert]
        by_cases here : lookupName key = name
        · rw [if_pos here, if_pos ⟨here, none⟩]
          rfl
        · rw [if_neg here, if_neg fun both => here both.1]
          exact holds name
    · have items := (table.collect_items line (piecesOf value)).trans (holds.itemsOfValue value)
      rw [AliasTable.loadNode, faultsOf]
      dsimp only
      rw [items, holds.collect_failures]
      simp only [List.isEmpty_iff]
      split
      · rfl
      · rw [List.append_nil]

/-- Every alias has items, and no reference is left among them. -/
def Expanded (table : AliasTable) : Prop :=
  ∀ name items, table.get? name = some items → items ≠ [] ∧ ∀ item ∈ items, IsItem item

/-- One more line leaves nothing to expand if there was nothing before. -/
theorem Expanded.loadNode (expanded : table.Expanded) (node : Node) :
    (table.loadNode node).1.Expanded := by
  cases node with
  | simple key line => exact expanded
  | nested key line nodes => exact expanded
  | entry key value line =>
    rw [loadNode_entry]
    split
    · exact expanded
    · next some =>
      intro name items found
      rw [Table.get?_insert] at found
      split at found
      · cases found
        refine ⟨some, fun item member => ?_⟩
        obtain ⟨piece, part, inside⟩ := List.mem_flatMap.mp member
        unfold itemsIn at inside
        split at inside
        · next plain =>
          rw [List.mem_singleton.mp inside]
          exact isItem_lower part plain
        · next reference _ =>
          cases known : table.items? (String.ofList reference) with
          | none =>
            rw [known] at inside
            cases inside
          | some own =>
            rw [known] at inside
            exact (expanded _ own known).2 item inside
      · exact expanded name items found

/-! ## Sections -/

theorem Holds.load (holds : table.Holds earlier) (nodes : List Node) :
    (load nodes table).1.Holds (nodes.reverse ++ earlier) ∧
      (load nodes table).2 = faults earlier nodes := by
  induction nodes generalizing table earlier with
  | nil => exact ⟨holds, rfl⟩
  | cons node others ih =>
    obtain ⟨first, failures⟩ := holds.loadNode node
    obtain ⟨last, rest⟩ := ih first
    rw [load_cons, failures, rest, List.reverse_cons, List.append_assoc]
    exact ⟨last, rfl⟩

theorem Expanded.load (expanded : table.Expanded) (nodes : List Node) :
    (load nodes table).1.Expanded := by
  induction nodes generalizing table with
  | nil => exact expanded
  | cons node others ih => exact ih (expanded.loadNode node)

/-- Load sections one after the other. -/
def loadEach : List (List Node) → AliasTable → AliasTable × List Failure
  | [], table => (table, [])
  | nodes :: others, table =>
    let (first, failures) := load nodes table
    let (last, rest) := loadEach others first
    (last, failures ++ rest)

theorem load_append (nodes others : List Node) (table : AliasTable) :
    load (nodes ++ others) table =
      ((load others (load nodes table).1).1,
        (load nodes table).2 ++ (load others (load nodes table).1).2) := by
  induction nodes generalizing table with
  | nil => rfl
  | cons node rest ih => rw [List.cons_append, load_cons, load_cons, ih, List.append_assoc]

/-- Sections are loaded as their lines are in a single one. -/
theorem loadEach_eq_load (sections : List (List Node)) (table : AliasTable) :
    loadEach sections table = load sections.flatten table := by
  induction sections generalizing table with
  | nil => rfl
  | cons nodes others ih =>
    rw [List.flatten_cons, load_append, ← ih]
    rfl

/-- Lines for other names leave the definition of a name as it is. -/
theorem definition?_append {name : String} {later : List Node}
    (others : ∀ key value line, .entry key value line ∈ later → lookupName key ≠ name) :
    definition? (later ++ earlier) name = definition? earlier name := by
  induction later with
  | nil => rfl
  | cons node rest ih =>
    have behind := ih fun key value line member =>
      others key value line (List.mem_cons_of_mem _ member)
    cases node with
    | simple key line => exact behind
    | nested key line nodes => exact behind
    | entry key value line =>
      have other := others key value line List.mem_cons_self
      rw [List.cons_append, definition?]
      rw [if_neg fun both => other both.1]
      exact behind

/-- What the aliases are behind some sections. -/
structure Expands (sections : List (List Node)) (loaded : AliasTable × List Failure) : Prop where
  /-- A name stands for its definition with all references written out, each as it was defined
  behind the lines before the one it is in. -/
  complete : ∀ name,
    loaded.1.get? name = (definition? sections.flatten.reverse name).map allItems
  /-- There are items for every alias, and no references among them. -/
  expanded : loaded.1.Expanded
  /-- A name that is no alias leaves an error. -/
  faults : loaded.2 = faults [] sections.flatten
  /-- Later sections change no alias that they have no line for, whatever its definition refers
  to. -/
  lasting : ∀ later name,
    (∀ key value line, .entry key value line ∈ later.flatten → lookupName key ≠ name) →
      (loadEach (sections ++ later) .empty).1.get? name = loaded.1.get? name

/-- **Aliases are complete.** Whatever sections are loaded one after the other, every alias has its
full expansion. -/
theorem loadEach_expands (sections : List (List Node)) :
    Expands sections (loadEach sections .empty) := by
  have start : Holds .empty [] := fun name => rfl
  have behind (lines : List Node) := start.load lines
  simp only [List.append_nil] at behind
  have none : Expanded .empty := fun name items found => nomatch found
  rw [loadEach_eq_load]
  refine ⟨(behind sections.flatten).1, none.load sections.flatten, (behind sections.flatten).2, ?_⟩
  intro later name others
  rw [loadEach_eq_load, (behind _).1, (behind _).1, List.flatten_append, List.reverse_append]
  refine congrArg (Option.map allItems) (definition?_append fun key value line member => ?_)
  exact others key value line (List.mem_reverse.mp member)

/-- An alias may refer to what its name stood for before, and keeps what it referred to. -/
example :
    let loaded := loadEach [[.entry "tools" "Axe, \x7bnope\x7d" 2],
      [.entry "kit" "\x7b tools \x7d, rope" 5, .entry "tools" "\x7bTools\x7d, sword" 6]] .empty
    loaded.1.items? "KIT" = some ["axe", "rope"] ∧
      loaded.1.items? "tools" = some ["axe", "sword"] ∧
      loaded.2 = [.config 2 "'nope' is not an alias"] := by
  decide +kernel

end AliasTable

/-- The alias sections of a script are loaded into one table, in their order. -/
theorem AliasesStructure.currentAliases_init (bodies : List Section) (workspace : Workspace) :
    (bodies.foldl (fun workspace body => init body workspace) workspace).context.currentAliases =
      (AliasTable.loadEach (bodies.map fun body => (body.convertToEntries 0 "=").nodes)
        workspace.context.currentAliases).1 := by
  induction bodies generalizing workspace with
  | nil => rfl
  | cons body others ih =>
    rw [List.foldl_cons, ih, init]
    dsimp only
    rw [Workspace.reportAll_eq_leave]
    rfl

end ScriptBinding

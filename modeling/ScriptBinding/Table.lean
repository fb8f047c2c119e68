/-! # Tables

A table gives a value to each of finitely many texts. Its entries are kept in the order of their
keys, so two tables that answer alike are equal (`Table.ext_get?`).
-/

namespace ScriptBinding

/-- A value for each of finitely many keys. -/
structure Table (α : Type) where
  /-- The keys with their values, in the order of the keys. -/
  entries : List (String × α)
  sorted : entries.Pairwise (fun a b => a.1 < b.1)

namespace Table

variable {α : Type}

/-- The value of a key in a list of entries. -/
def find (key : String) : List (String × α) → Option α
  | [] => none
  | entry :: others => if entry.1 = key then some entry.2 else find key others

/-- Put a value in its place among sorted entries. -/
def place (key : String) (value : α) : List (String × α) → List (String × α)
  | [] => [(key, value)]
  | entry :: others =>
    if key < entry.1 then (key, value) :: entry :: others
    else if key = entry.1 then (key, value) :: others
    else entry :: place key value others

theorem mem_place {key : String} {value : α} {entry : String × α}
    {entries : List (String × α)} (member : entry ∈ place key value entries) :
    entry = (key, value) ∨ entry ∈ entries := by
  induction entries with
  | nil => simpa [place] using member
  | cons first others ih =>
    unfold place at member
    split at member
    · simpa using member
    · split at member
      · rcases List.mem_cons.mp member with same | later
        · exact Or.inl same
        · exact Or.inr (List.mem_cons_of_mem _ later)
      · rcases List.mem_cons.mp member with same | later
        · exact Or.inr (same ▸ List.mem_cons_self)
        · exact (ih later).imp_right (List.mem_cons_of_mem _)

theorem place_sorted {key : String} {value : α} {entries : List (String × α)}
    (sorted : entries.Pairwise (fun a b => a.1 < b.1)) :
    (place key value entries).Pairwise (fun a b => a.1 < b.1) := by
  induction entries with
  | nil => simp [place]
  | cons first others ih =>
    obtain ⟨least, rest⟩ := List.pairwise_cons.mp sorted
    unfold place
    split
    · next before =>
      refine List.pairwise_cons.mpr ⟨?_, sorted⟩
      intro entry member
      rcases List.mem_cons.mp member with rfl | later
      · exact before
      · exact String.lt_trans before (least _ later)
    · next notBefore =>
      split
      · next same => exact List.pairwise_cons.mpr ⟨fun entry later => same ▸ least _ later, rest⟩
      · next differ =>
        refine List.pairwise_cons.mpr ⟨?_, ih rest⟩
        intro entry member
        rcases mem_place member with rfl | later
        · exact Std.lt_of_le_of_ne (String.not_lt.mp notBefore) (Ne.symm differ)
        · exact least _ later

/-- The table without entries. -/
def empty : Table α :=
  ⟨[], List.Pairwise.nil⟩

instance : Inhabited (Table α) := ⟨empty⟩

/-- The value of a key. -/
def get? (table : Table α) (key : String) : Option α :=
  find key table.entries

/-- The key has a value. -/
def contains (table : Table α) (key : String) : Bool :=
  (table.get? key).isSome

/-- Give a key a value, in place of any it had. -/
def insert (key : String) (value : α) (table : Table α) : Table α :=
  ⟨place key value table.entries, place_sorted table.sorted⟩

/-- Take the value of a key away. -/
def erase (key : String) (table : Table α) : Table α :=
  ⟨table.entries.filter (·.1 ≠ key), table.sorted.filter _⟩

/-- Give each key of a list its value, the last one given counting. -/
def insertAll (given : List (String × α)) (table : Table α) : Table α :=
  given.foldl (fun table entry => table.insert entry.1 entry.2) table

/-- Take the values of some keys away. -/
def eraseAll (keys : List String) (table : Table α) : Table α :=
  keys.foldl (fun table key => table.erase key) table

/-- The keys in their order. -/
def keys (table : Table α) : List String :=
  table.entries.map Prod.fst

/-- The values in the order of their keys. -/
def values (table : Table α) : List α :=
  table.entries.map Prod.snd

/-- The number of keys. -/
def size (table : Table α) : Nat :=
  table.entries.length

/-- There is no key. -/
def isEmpty (table : Table α) : Bool :=
  table.entries.isEmpty

theorem find_place (key other : String) (value : α) (entries : List (String × α)) :
    find other (place key value entries) =
      if key = other then some value else find other entries := by
  induction entries with
  | nil => simp [place, find]
  | cons first others ih =>
    unfold place
    split
    · simp [find]
    · split
      · next same =>
        by_cases equal : key = other
        · simp [find, equal]
        · simp [find, equal, ← same]
      · next notBefore differ =>
        by_cases here : first.1 = other
        · have : key ≠ other := fun h => differ (h.trans here.symm)
          simp [find, here, this]
        · simp [find, here, ih]

theorem find_filter_ne (key other : String) (entries : List (String × α)) :
    find other (entries.filter (·.1 ≠ key)) =
      if key = other then none else find other entries := by
  induction entries with
  | nil => simp [find]
  | cons first others ih =>
    by_cases removed : first.1 = key
    · by_cases equal : key = other
      · subst equal; simpa [removed] using ih
      · have : first.1 ≠ other := fun h => equal (removed.symm.trans h)
        simpa [removed, equal, find, this] using ih
    · by_cases here : first.1 = other
      · have : key ≠ other := fun h => removed (here.trans h.symm)
        rw [List.filter_cons_of_pos (by simpa using removed)]
        simp [find, here, this]
      · simpa [removed, find, here] using ih

@[simp] theorem get?_empty (key : String) : (empty : Table α).get? key = none := rfl

theorem get?_insert (table : Table α) (key other : String) (value : α) :
    (table.insert key value).get? other = if key = other then some value else table.get? other :=
  find_place key other value table.entries

theorem get?_erase (table : Table α) (key other : String) :
    (table.erase key).get? other = if key = other then none else table.get? other :=
  find_filter_ne key other table.entries

@[simp] theorem get?_insert_self (table : Table α) (key : String) (value : α) :
    (table.insert key value).get? key = some value := by
  simp [get?_insert]

@[simp] theorem get?_erase_self (table : Table α) (key : String) :
    (table.erase key).get? key = none := by
  simp [get?_erase]

theorem find_eq_none_of_before {key : String} {entries : List (String × α)}
    (before : ∀ entry ∈ entries, key < entry.1) : find key entries = none := by
  induction entries with
  | nil => rfl
  | cons first others ih =>
    have differ : first.1 ≠ key := fun same =>
      String.lt_irrefl _ (same ▸ before first List.mem_cons_self : first.1 < first.1)
    simp [find, differ, ih fun entry member => before entry (List.mem_cons_of_mem _ member)]

theorem entries_eq_of_find {a b : List (String × α)}
    (sortedA : a.Pairwise (fun x y => x.1 < y.1)) (sortedB : b.Pairwise (fun x y => x.1 < y.1))
    (same : ∀ key, find key a = find key b) : a = b := by
  induction a generalizing b with
  | nil =>
    cases b with
    | nil => rfl
    | cons first others => simpa [find] using same first.1
  | cons x as ih =>
    cases b with
    | nil => simpa [find] using same x.1
    | cons y bs =>
      obtain ⟨leastX, restA⟩ := List.pairwise_cons.mp sortedA
      obtain ⟨leastY, restB⟩ := List.pairwise_cons.mp sortedB
      have keys : x.1 = y.1 := by
        rcases Std.lt_trichotomy x.1 y.1 with before | equal | after
        · have absent : find x.1 (y :: bs) = none := by
            apply find_eq_none_of_before
            intro entry member
            rcases List.mem_cons.mp member with rfl | later
            · exact before
            · exact String.lt_trans before (leastY _ later)
          have := same x.1
          rw [absent] at this
          simp [find] at this
        · exact equal
        · have absent : find y.1 (x :: as) = none := by
            apply find_eq_none_of_before
            intro entry member
            rcases List.mem_cons.mp member with rfl | later
            · exact after
            · exact String.lt_trans after (leastX _ later)
          have := same y.1
          rw [absent] at this
          simp [find] at this
      have values : x.2 = y.2 := by simpa [find, keys] using same x.1
      have others : as = bs := by
        refine ih restA restB fun key => ?_
        by_cases here : x.1 = key
        · have absentA : find key as = none :=
            find_eq_none_of_before fun entry member => here ▸ leastX entry member
          have absentB : find key bs = none :=
            find_eq_none_of_before fun entry member => here ▸ keys ▸ leastY entry member
          rw [absentA, absentB]
        · have := same key
          simpa [find, here, ← keys] using this
      rw [others, Prod.ext keys values]

/-- Two tables that answer alike are equal. -/
theorem ext_get? {a b : Table α} (same : ∀ key, a.get? key = b.get? key) : a = b := by
  obtain ⟨entriesA, sortedA⟩ := a
  obtain ⟨entriesB, sortedB⟩ := b
  have equal : entriesA = entriesB := entries_eq_of_find sortedA sortedB same
  subst equal
  rfl

instance [DecidableEq α] : DecidableEq (Table α) := fun a b =>
  if equal : a.entries = b.entries then
    isTrue (by cases a; cases b; cases equal; rfl)
  else isFalse fun same => equal (congrArg entries same)

end Table

end ScriptBinding

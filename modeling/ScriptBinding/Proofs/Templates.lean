import ScriptBinding.Proofs.DefaultNames
import ScriptBinding.Structure.Variables
import Mathlib.Algebra.Order.BigOperators.Group.List
import Mathlib.Algebra.Order.Group.Nat
import Mathlib.Data.List.Forall2

/-! # Templates

A name is cut into segments at pairs of colons, before as well as after it is put in lower case. A
default variable answers for the names that have as many segments as its own name, and the same ones
but for those in angle brackets. The place of a type is in angle brackets, but the segment it stands
in need not be: of a segment that has more around the place, no other text is ever accepted. And a
segment that is written in angle brackets accepts any text, with or without the place of a type.
-/

namespace ScriptBinding

/-! ## Cells -/

section Cells

variable {α β : Type}

/-- Put an element in front of the first cell. -/
def intoFirst (a : α) : List (List α) → List (List α)
  | [] => [[a]]
  | first :: others => (a :: first) :: others

/-- The cells of a list, between pairs of marks. -/
def cells (mark : α → Bool) : List α → List (List α)
  | [] => [[]]
  | [a] => [[a]]
  | a :: b :: rest =>
    if mark a && mark b then [] :: cells mark rest else intoFirst a (cells mark (b :: rest))

theorem cells_ne_nil (mark : α → Bool) (list : List α) : cells mark list ≠ [] := by
  fun_cases cells mark list with
  | case1 => exact List.cons_ne_nil _ _
  | case2 a => exact List.cons_ne_nil _ _
  | case3 a b rest pair => exact List.cons_ne_nil _ _
  | case4 a b rest apart =>
    cases cells mark (b :: rest) <;> exact List.cons_ne_nil _ _

theorem mem_of_mem_cells {mark : α → Bool} {list cell : List α} {a : α}
    (among : cell ∈ cells mark list) (member : a ∈ cell) : a ∈ list := by
  fun_induction cells mark list generalizing cell with
  | case1 => simp_all
  | case2 b => simp_all
  | case3 b c rest pair ih =>
    rcases List.mem_cons.mp among with rfl | later
    · cases member
    · exact List.mem_cons_of_mem _ (List.mem_cons_of_mem _ (ih later member))
  | case4 b c rest apart ih =>
    obtain ⟨first, others, split⟩ := List.exists_cons_of_ne_nil (cells_ne_nil mark (c :: rest))
    rw [split] at ih among
    rcases List.mem_cons.mp among with rfl | later
    · rcases List.mem_cons.mp member with rfl | inside
      · exact List.mem_cons_self
      · exact List.mem_cons_of_mem _ (ih List.mem_cons_self inside)
    · exact List.mem_cons_of_mem _ (ih (List.mem_cons_of_mem _ later) member)

theorem map_intoFirst (f : α → β) (a : α) (list : List (List α)) :
    (intoFirst a list).map (List.map f) = intoFirst (f a) (list.map (List.map f)) := by
  cases list <;> rfl

theorem cells_cons_of_not {mark : α → Bool} {a : α} (other : mark a = false) (list : List α) :
    cells mark (a :: list) = intoFirst a (cells mark list) := by
  cases list with
  | nil => rfl
  | cons b rest => simp only [cells, other, Bool.false_and, Bool.false_eq_true, ↓reduceIte]

theorem foldr_intoFirst (list first : List α) (others : List (List α)) :
    list.foldr intoFirst (first :: others) = (list ++ first) :: others := by
  induction list with
  | nil => rfl
  | cons a list ih => rw [List.foldr_cons, ih, intoFirst, List.cons_append]

/-- Without marks everything goes into the first cell. -/
theorem cells_append_of_not {mark : α → Bool} {list : List α} (none : ∀ a ∈ list, mark a = false)
    (rest : List α) : cells mark (list ++ rest) = list.foldr intoFirst (cells mark rest) := by
  induction list with
  | nil => rfl
  | cons a list ih =>
    obtain ⟨other, later⟩ := List.forall_mem_cons.mp none
    rw [List.cons_append, cells_cons_of_not other, ih later, List.foldr_cons]

/-- The cells of the images are the images of the cells. -/
theorem cells_map (mark : β → Bool) (f : α → β) (list : List α) :
    cells mark (list.map f) = (cells (fun a => mark (f a)) list).map (List.map f) := by
  fun_induction cells (fun a => mark (f a)) list with
  | case1 => rfl
  | case2 a => rfl
  | case3 a b rest pair ih =>
    simp only [List.map_cons, cells, pair, ↓reduceIte, ih, List.map_nil]
  | case4 a b rest apart ih =>
    rw [List.map_cons] at ih
    simp only [List.map_cons, cells, apart, ↓reduceIte, ih, map_intoFirst, Bool.false_eq_true]

/-- An element at the start of a cell can be exchanged for another one of its kind. -/
theorem exists_cells_set {mark : α → Bool} {list : List α} {i : Nat} {a b : α} {cell : List α}
    (there : (cells mark list)[i]? = some (a :: cell)) (alike : mark b = mark a) :
    ∃ other : List α, other.map mark = list.map mark ∧ (∀ c ∈ other, c = b ∨ c ∈ list) ∧
      cells mark other = (cells mark list).set i (b :: cell) := by
  fun_induction cells mark list generalizing i with
  | case1 => cases i <;> simp at there
  | case2 c =>
    cases i with
    | succ i => simp at there
    | zero =>
      obtain ⟨rfl, rfl⟩ := by simpa using there
      exact ⟨[b], by simp [alike], by simp, rfl⟩
  | case3 c d rest pair ih =>
    cases i with
    | zero => simp at there
    | succ i =>
      obtain ⟨other, marks, among, same⟩ := ih (by simpa using there)
      refine ⟨c :: d :: other, by simp [marks], fun e member => ?_, by simp [cells, pair, same]⟩
      simp only [List.mem_cons] at member ⊢
      rcases member with rfl | rfl | later
      · exact Or.inr (Or.inl rfl)
      · exact Or.inr (Or.inr (Or.inl rfl))
      · exact (among e later).imp_right fun there => Or.inr (Or.inr there)
  | case4 c d rest apart ih =>
    obtain ⟨first, others, split⟩ := List.exists_cons_of_ne_nil (cells_ne_nil mark (d :: rest))
    rw [split, intoFirst] at there ⊢
    cases i with
    | zero =>
      obtain ⟨rfl, rfl⟩ := by simpa using there
      refine ⟨b :: d :: rest, by simp [alike], by simp +contextual, ?_⟩
      rw [← alike] at apart
      simp [cells, apart, split, intoFirst]
    | succ i =>
      obtain ⟨other, marks, among, same⟩ := ih (i := i + 1) (by simpa [split] using there)
      obtain ⟨e, more, rfl⟩ : ∃ e more, other = e :: more := by
        cases other with
        | nil => simp at marks
        | cons e more => exact ⟨e, more, rfl⟩
      obtain ⟨own, -⟩ : mark e = mark d ∧ _ := by simpa using marks
      refine ⟨c :: e :: more, by simpa using marks, fun x member => ?_, ?_⟩
      · rcases List.mem_cons.mp member with rfl | later
        · exact Or.inr List.mem_cons_self
        · exact (among x later).imp_right (List.mem_cons_of_mem _)
      · rw [← own] at apart
        simp only [cells, apart, Bool.false_eq_true, ↓reduceIte, same, split, List.set_cons_succ,
          intoFirst]

end Cells

namespace VariableStore

open Text (cut? afterLead?)

/-- The character ends a segment if another one of its kind is next to it. -/
def isColon (c : Char) : Bool :=
  c == ':'

theorem segments_of_cut {name before after : List Char}
    (found : cut? [':', ':'] name = some (before, after)) :
    segments name = before :: segments after := by
  rw [segments]
  split
  · next none => cases none.symm.trans found
  · next again =>
    cases found.symm.trans again
    rfl

theorem segments_of_none {name : List Char} (none : cut? [':', ':'] name = none) :
    segments name = [name] := by
  rw [segments]
  split
  · rfl
  · next found => cases none.symm.trans found

/-- Segments are the cells between pairs of colons. -/
theorem segments_eq_cells (name : List Char) : segments name = cells isColon name := by
  fun_induction cells isColon name with
  | case1 => exact segments_of_none rfl
  | case2 a =>
    refine segments_of_none (Text.cut?_eq_none_iff.mpr fun inside => ?_)
    have short := inside.length_le
    simp at short
  | case3 a b rest pair ih =>
    obtain ⟨rfl, rfl⟩ : a = ':' ∧ b = ':' := by simpa [isColon] using pair
    have found : cut? [':', ':'] (':' :: ':' :: rest) = some ([], rest) :=
      Text.cut?_of_lead (Text.afterLead?_eq_some.mpr rfl)
    rw [segments_of_cut found, ih]
  | case4 a b rest apart ih =>
    have notHere : afterLead? [':', ':'] (a :: b :: rest) = none := by
      refine Option.eq_none_iff_forall_ne_some.mpr fun behind leads => apart ?_
      obtain ⟨rfl, rfl, -⟩ := by simpa using Text.afterLead?_eq_some.mp leads
      rfl
    have whole := Text.cut?_cons notHere
    cases found : cut? [':', ':'] (b :: rest) with
    | none =>
      rw [found, Option.map_none] at whole
      rw [segments_of_none whole, ← ih, segments_of_none found, intoFirst]
    | some sides =>
      rw [found, Option.map_some] at whole
      rw [segments_of_cut whole, ← ih, segments_of_cut found, intoFirst]

/-- A colon is written as it is, and anything else as some characters without colons. -/
def Fits (colon : Bool) (text : List Char) : Prop :=
  if colon then text = [':'] else text ≠ [] ∧ ':' ∉ text

variable {α : Type} {colon : α → Bool} {text : α → List Char} {parts : List α}

theorem cells_append_of_plain {chars : List Char} (plain : ':' ∉ chars) (rest : List Char) :
    cells isColon (chars ++ rest) = chars.foldr intoFirst (cells isColon rest) := by
  refine cells_append_of_not (fun c member => beq_eq_false_iff_ne.mpr ?_) rest
  rintro rfl
  exact plain member

theorem map_flatMap_intoFirst (a : α) {list : List (List α)} (some : list ≠ []) :
    (intoFirst a list).map (List.flatMap text) =
      (text a).foldr intoFirst (list.map (List.flatMap text)) := by
  obtain ⟨first, others, rfl⟩ := List.exists_cons_of_ne_nil some
  rw [List.map_cons, foldr_intoFirst, intoFirst, List.map_cons, List.flatMap_cons]

/-- The segments of what parts are written as are what the cells of the parts are written as. -/
theorem segments_flatMap (fits : ∀ part ∈ parts, Fits (colon part) (text part)) :
    segments (parts.flatMap text) = (cells colon parts).map (List.flatMap text) := by
  rw [segments_eq_cells]
  fun_induction cells colon parts with
  | case1 => rfl
  | case2 a =>
    have own := fits a List.mem_cons_self
    rw [List.flatMap_singleton]
    by_cases marked : colon a
    · rw [Fits, if_pos marked] at own
      simp [own, cells]
    · rw [Fits, if_neg marked] at own
      have single := cells_append_of_plain own.2 []
      rw [List.append_nil] at single
      rw [single, cells, foldr_intoFirst]
      simp
  | case3 a b rest pair ih =>
    obtain ⟨own, next, later⟩ := by simpa only [List.forall_mem_cons] using fits
    obtain ⟨marked, other⟩ := Bool.and_eq_true_iff.mp pair
    rw [Fits, if_pos marked] at own
    rw [Fits, if_pos other] at next
    rw [List.map_cons, ← ih later, List.flatMap_cons, List.flatMap_cons, own, next]
    rfl
  | case4 a b rest apart ih =>
    obtain ⟨own, next, later⟩ := by simpa only [List.forall_mem_cons] using fits
    rw [List.flatMap_cons, map_flatMap_intoFirst a (cells_ne_nil _ _),
      ← ih (List.forall_mem_cons.mpr ⟨next, later⟩)]
    by_cases marked : colon a
    · -- What follows a single colon does not start with another one.
      have other : ¬ colon b := fun other => apart (by rw [marked, other]; rfl)
      rw [Fits, if_pos marked] at own
      rw [Fits, if_neg other] at next
      obtain ⟨c, more, begins⟩ := List.exists_cons_of_ne_nil next.1
      have differs : isColon c = false := by
        refine beq_eq_false_iff_ne.mpr ?_
        rintro rfl
        exact next.2 (begins ▸ List.mem_cons_self)
      rw [own, List.flatMap_cons, begins]
      simp only [List.cons_append, List.nil_append, cells, differs, Bool.and_false,
        Bool.false_eq_true, ↓reduceIte, List.foldr_cons, List.foldr_nil]
    · rw [Fits, if_neg marked] at own
      exact cells_append_of_plain own.2 _

/-! ## Segments and lower case -/

/-- Lower-casing writes every character as some characters, and no other than a colon with one. -/
theorem exists_lowered (before chars : List Char) : ∃ blocks : List (Char × List Char),
    blocks.map Prod.fst = chars ∧ Text.lowerFrom before chars = blocks.flatMap Prod.snd ∧
      ∀ block ∈ blocks, Fits (isColon block.1) block.2 := by
  induction chars generalizing before with
  | nil => exact ⟨[], rfl, rfl, List.forall_mem_nil _⟩
  | cons c rest ih =>
    obtain ⟨blocks, rfl, later, fits⟩ := ih (c :: before)
    obtain ⟨image, splits, some, only⟩ :=
      Text.lowerFrom_cons_solitary before c (blocks.map Prod.fst)
    by_cases colon : c = ':'
    · subst colon
      have settled : Text.IsLower (Text.asciiLower ':') := by decide +kernel
      refine ⟨(':', [':']) :: blocks, rfl, ?_, List.forall_mem_cons.mpr ⟨rfl, fits⟩⟩
      rw [Text.lowerFrom_cons_of_settled settled, later]
      rfl
    · have plain : ':' ∉ image := fun member =>
        colon (only ':' member (Text.solitary_signs ':' (by decide)))
      have marked : isColon c = false := beq_eq_false_iff_ne.mpr colon
      refine ⟨(c, image) :: blocks, rfl, ?_, List.forall_mem_cons.mpr ⟨?_, fits⟩⟩
      · rw [splits, later, List.flatMap_cons]
      · simp only [Fits, marked, Bool.false_eq_true, ↓reduceIte]
        exact ⟨some, plain⟩

/-- A name has as many segments in lower case as it had before. -/
theorem length_segments_lower (name : String) :
    (segments (Text.lower name).toList).length = (segments name.toList).length := by
  obtain ⟨blocks, whole, lowered, fits⟩ := exists_lowered [] name.toList
  rw [Text.lower, String.toList_ofList, lowered, segments_flatMap fits, ← whole,
    segments_eq_cells, cells_map, List.length_map, List.length_map]

/-! ## A single variable -/

theorem answersFor_iff (templates names : List (List Char)) : answersFor templates names = true ↔
    List.Forall₂ (fun template name => isPlaceholder template = true ∨ template = name)
      templates names := by
  fun_induction answersFor templates names with
  | case1 => simp
  | case2 template templates name names ih =>
    rw [Bool.and_eq_true, Bool.or_eq_true, beq_iff_eq, ih, List.forall₂_cons]
  | case3 templates names notBoth notCons =>
    refine ⟨nofun, fun both => ?_⟩
    cases both with
    | nil => exact absurd rfl (notBoth rfl)
    | cons first later => exact absurd rfl (notCons _ _ _ _ rfl)

/-- A store that holds one variable. -/
def only (name : String) (value : Value) : VariableStore :=
  VariableStore.set name (some value) {}

/-- A single variable is the value of the names that its own name answers for. -/
theorem resolve?_only {name : String} (settled : Text.lower name = name) (value : Value)
    (asked : String) : (only name value).resolve? asked =
      if answersFor (segments name.toList) (segments (Text.lower asked).toList) then some value
      else none := by
  have entries : (only name value).table.entries = [(name, value)] := by
    change Table.place (Text.lower name) value [] = _
    rw [settled, Table.place]
  unfold resolve?
  dsimp only
  rw [Table.get?, entries, Table.find, Table.find]
  by_cases same : name = Text.lower asked
  · have answers : answersFor (segments name.toList) (segments (Text.lower asked).toList) :=
      answersFor_iff _ _ |>.mpr (same ▸ List.forall₂_same.mpr fun _ _ => Or.inr rfl)
    rw [if_pos same, if_pos answers]
  · rw [if_neg same, List.find?_singleton]
    dsimp only
    split <;> rfl

end VariableStore

/-! ## Templates -/

namespace DefaultName

open VariableStore (Fits segments isPlaceholder only answersFor answersFor_iff)

/-- The part is the place of a type. -/
def Part.IsPlace : Part → Prop
  | char _ => False
  | place _ => True

/-- The part ends a segment if another one of its kind is next to it. -/
def Part.isColon : Part → Bool
  | char c => VariableStore.isColon c
  | place _ => false

/-- The parts of a template between pairs of colons. -/
def parted (template : List Part) : List (List Part) :=
  cells Part.isColon template

/-- The text can stand for the part in a name. -/
def Part.Takes : Part → List Char → Prop
  | char c, text => text = [c]
  | place _, text => text ≠ [] ∧ ':' ∉ text

/-- The name is written as the template with some text in place of each type. -/
def Instance (template : List Part) (chars : List Char) : Prop :=
  ∃ blocks : List (Part × List Char), blocks.map Prod.fst = template ∧
    blocks.flatMap Prod.snd = chars ∧ ∀ block ∈ blocks, block.1.Takes block.2

variable {template : List Part}

theorem fits_char (c : Char) : Fits (VariableStore.isColon c) [c] := by
  by_cases colon : c = ':'
  · subst colon
    rfl
  · have other : VariableStore.isColon c = false := beq_eq_false_iff_ne.mpr colon
    simp only [Fits, other, Bool.false_eq_true, ↓reduceIte]
    exact ⟨List.cons_ne_nil _ _, fun member => colon (List.mem_singleton.mp member).symm⟩

theorem Part.Tidy.fits {part : Part} (tidy : part.Tidy) : Fits part.isColon part.stored := by
  cases part with
  | char c => exact fits_char c
  | place code =>
    refine ⟨List.cons_ne_nil _ _, fun member => ?_⟩
    simp only [stored, List.cons_append, List.mem_cons, List.mem_append, List.not_mem_nil,
      or_false] at member
    rcases member with colon | among | colon
    · exact absurd colon (by decide)
    · exact (tidy.2 ':' among).2 rfl
    · exact absurd colon (by decide)

theorem segments_stored (tidy : ∀ part ∈ template, part.Tidy) :
    segments (template.flatMap Part.stored) =
      (parted template).map (List.flatMap Part.stored) :=
  VariableStore.segments_flatMap fun part member => (tidy part member).fits

/-! ### Lower case -/

/-- What can stand for a part can do so in lower case, and with its ASCII letters in any case. -/
theorem Part.Takes.lowered {part : Part} {text written : List Char} (takes : part.Takes text)
    (tidy : part.Tidy) (alike : written.map Text.asciiLower = text.map Text.asciiLower)
    (before rest : List Char) : ∃ image, Text.lowerFrom before (written ++ rest) =
      image ++ Text.lowerFrom (written.reverse ++ before) rest ∧ part.Takes image := by
  cases part with
  | char c =>
    subst takes
    obtain ⟨d, rfl, image⟩ : ∃ d, written = [d] ∧ Text.asciiLower d = c := by
      simpa [tidy.asciiLower] using alike
    refine ⟨[c], ?_, rfl⟩
    rw [List.singleton_append, Text.lowerFrom_cons_of_settled (image ▸ tidy), image]
    rfl
  | place code =>
    obtain ⟨some, plain⟩ := takes
    obtain ⟨image, splits, filled, only⟩ := Text.lowerFrom_append before written rest
    have colon := Text.solitary_signs ':' (by decide)
    refine ⟨image, splits, filled ?_, fun member => plain ?_⟩
    · rintro rfl
      exact some (List.map_eq_nil_iff.mp alike.symm)
    · have there : Text.asciiLower ':' ∈ text.map Text.asciiLower :=
        alike ▸ List.mem_map_of_mem (only ':' member colon)
      obtain ⟨c, among, same⟩ := List.mem_map.mp there
      exact colon.eq_of_asciiLower same ▸ among

/-- A name in lower case is written as the same template. -/
theorem Instance.lowered {chars asked : List Char} (written : Instance template chars)
    (tidy : ∀ part ∈ template, part.Tidy)
    (alike : asked.map Text.asciiLower = chars.map Text.asciiLower) (before : List Char) :
    Instance template (Text.lowerFrom before asked) := by
  obtain ⟨blocks, rfl, rfl, takes⟩ := written
  induction blocks generalizing asked before with
  | nil =>
    obtain rfl := List.map_eq_nil_iff.mp alike
    exact ⟨[], rfl, rfl, takes⟩
  | cons block blocks ih =>
    obtain ⟨own, later⟩ := List.forall_mem_cons.mp takes
    obtain ⟨ownTidy, laterTidy⟩ := List.forall_mem_cons.mp tidy
    rw [List.flatMap_cons, List.map_append] at alike
    obtain ⟨first, rest, rfl, here, there⟩ := List.map_eq_append_iff.mp alike
    obtain ⟨image, splits, takesImage⟩ := own.lowered ownTidy here before rest
    obtain ⟨images, same, whole, each⟩ := ih _ laterTidy later there
    refine ⟨(block.1, image) :: images, ?_, ?_, List.forall_mem_cons.mpr ⟨takesImage, each⟩⟩
    · rw [List.map_cons, List.map_cons, same]
    · rw [List.flatMap_cons, splits, whole]

/-! ### Matching -/

theorem Part.Takes.fits {part : Part} {text : List Char} (takes : part.Takes text) :
    Fits part.isColon text := by
  cases part with
  | char c => exact takes ▸ fits_char c
  | place code => exact takes

/-- A template answers for a name that is written as it exactly if each of its segments is in angle
brackets, or is written as it is stored. -/
theorem answersFor_blocks {blocks : List (Part × List Char)}
    (tidy : ∀ part ∈ blocks.map Prod.fst, part.Tidy)
    (takes : ∀ block ∈ blocks, block.1.Takes block.2) :
    answersFor (segments ((blocks.map Prod.fst).flatMap Part.stored))
      (segments (blocks.flatMap Prod.snd)) = true ↔
        ∀ cell ∈ cells (fun block => block.1.isColon) blocks,
          isPlaceholder ((cell.map Prod.fst).flatMap Part.stored) = true ∨
            (cell.map Prod.fst).flatMap Part.stored = cell.flatMap Prod.snd := by
  rw [answersFor_iff, segments_stored tidy, parted, cells_map,
    VariableStore.segments_flatMap fun block member => (takes block member).fits, List.map_map,
    List.forall₂_map_left_iff, List.forall₂_map_right_iff, List.forall₂_same]
  rfl

/-- The shortest text that can stand for the part. -/
def Part.sample : Part → List Char
  | char c => [c]
  | place _ => ['x']

theorem Part.takes_sample (part : Part) : part.Takes part.sample := by
  cases part with
  | char c => rfl
  | place code => exact ⟨List.cons_ne_nil _ _, by simp [sample]⟩

theorem isLower_sample (tidy : ∀ part ∈ template, part.Tidy) :
    ∀ c ∈ template.flatMap Part.sample, Text.IsLower c := by
  have letter : Text.IsLower 'x' := by decide +kernel
  intro c member
  obtain ⟨part, among, inside⟩ := List.mem_flatMap.mp member
  cases part with
  | char d => exact List.mem_singleton.mp inside ▸ tidy _ among
  | place code => exact List.mem_singleton.mp inside ▸ letter

theorem Part.length_sample_le (part : Part) : part.sample.length ≤ part.stored.length := by
  cases part <;> simp [sample, stored]

/-- A segment with the place of a type in it is not written as its sample. -/
theorem length_sample_lt {segment : List Part} (typed : ∃ part ∈ segment, part.IsPlace) :
    (segment.flatMap Part.sample).length < (segment.flatMap Part.stored).length := by
  rw [List.length_flatMap, List.length_flatMap]
  obtain ⟨part, member, isPlace⟩ := typed
  refine List.sum_lt_sum _ _ (fun part _ => part.length_sample_le) ⟨part, member, ?_⟩
  cases part with
  | char c => cases isPlace
  | place code => simp [Part.sample, Part.stored]

/-- The parts with their samples. -/
def sampled (parts : List Part) : List (Part × List Char) :=
  parts.map fun part => (part, part.sample)

@[simp] theorem map_fst_sampled (parts : List Part) : (sampled parts).map Prod.fst = parts := by
  rw [sampled, List.map_map]
  exact List.map_id' parts

@[simp] theorem flatMap_snd_sampled (parts : List Part) :
    (sampled parts).flatMap Prod.snd = parts.flatMap Part.sample := by
  rw [sampled, List.flatMap_map]

/-- A segment without the place of a type is written in one way only. -/
theorem stored_eq_of_untyped {cell : List (Part × List Char)}
    (takes : ∀ block ∈ cell, block.1.Takes block.2)
    (untyped : ∀ part ∈ cell.map Prod.fst, ¬ part.IsPlace) :
    (cell.map Prod.fst).flatMap Part.stored = cell.flatMap Prod.snd := by
  rw [List.flatMap_map]
  refine List.flatMap_congr fun block member => ?_
  obtain ⟨part, text⟩ := block
  have own := takes _ member
  cases part with
  | char c => exact own.symm
  | place code => exact absurd trivial (untyped _ (List.mem_map_of_mem member))

/-! ### What a template answers for -/

/-- A template answers for all names that are written as it exactly if the segments with the place
of a type in them are in angle brackets. -/
theorem answersFor_instances_iff (tidy : ∀ part ∈ template, part.Tidy) :
    (∀ chars, (∀ c ∈ chars, Text.IsLower c) → Instance template chars →
      answersFor (segments (template.flatMap Part.stored)) (segments chars) = true) ↔
      ∀ segment ∈ parted template, (∃ part ∈ segment, part.IsPlace) →
        isPlaceholder (segment.flatMap Part.stored) = true := by
  constructor
  · intro answers segment among typed
    have takes : ∀ block ∈ sampled template, block.1.Takes block.2 :=
      List.forall_mem_map.mpr fun part _ => part.takes_sample
    have cell : sampled segment ∈ cells (fun block => block.1.isColon) (sampled template) := by
      rw [sampled, cells_map]
      exact List.mem_map_of_mem among
    have lower : ∀ c ∈ (sampled template).flatMap Prod.snd, Text.IsLower c := by
      rw [flatMap_snd_sampled]
      exact isLower_sample tidy
    have whole := answers _ lower ⟨_, map_fst_sampled template, rfl, takes⟩
    have own := (answersFor_blocks (by rwa [map_fst_sampled]) takes).mp
      (by rwa [map_fst_sampled]) _ cell
    rw [map_fst_sampled, flatMap_snd_sampled] at own
    refine own.resolve_right fun same => ?_
    exact Nat.ne_of_gt (length_sample_lt typed) (congrArg List.length same)
  · rintro bracketed chars - ⟨blocks, rfl, rfl, takes⟩
    refine (answersFor_blocks tidy takes).mpr fun cell among => ?_
    have segment : cell.map Prod.fst ∈ parted (blocks.map Prod.fst) := by
      rw [parted, cells_map]
      exact List.mem_map_of_mem among
    by_cases typed : ∃ part ∈ cell.map Prod.fst, part.IsPlace
    · exact Or.inl (bracketed _ segment typed)
    · refine Or.inr (stored_eq_of_untyped (fun block member => ?_) ?_)
      · exact takes block (mem_of_mem_cells among member)
      · simpa only [not_exists, not_and] using typed

/-- A segment in angle brackets without the place of a type starts with the bracket itself. -/
theorem exists_bracket {segment : List Part} (untyped : ∀ part ∈ segment, ¬ part.IsPlace)
    (bracketed : isPlaceholder (segment.flatMap Part.stored) = true) :
    ∃ others, segment = .char '<' :: others := by
  simp only [isPlaceholder, Bool.and_eq_true, beq_iff_eq] at bracketed
  obtain ⟨⟨-, opens⟩, -⟩ := bracketed
  cases segment with
  | nil => cases opens
  | cons part others =>
    cases part with
    | char c =>
      obtain rfl : c = '<' := Option.some.inj opens
      exact ⟨others, rfl⟩
    | place code => exact absurd trivial (untyped _ List.mem_cons_self)

/-- A segment in angle brackets without the place of a type answers for another text. -/
theorem exists_answersFor_of_bracketed (tidy : ∀ part ∈ template, part.Tidy) {i : Nat}
    {segment : List Part} (place : (parted template)[i]? = some segment)
    (untyped : ∀ part ∈ segment, ¬ part.IsPlace)
    (bracketed : isPlaceholder (segment.flatMap Part.stored) = true) :
    ∃ chars, (∀ c ∈ chars, Text.IsLower c) ∧
      (segments chars)[i]? ≠ some (segment.flatMap Part.stored) ∧
      answersFor (segments (template.flatMap Part.stored)) (segments chars) = true := by
  obtain ⟨others, rfl⟩ := exists_bracket untyped bracketed
  obtain ⟨inside, own⟩ := List.getElem?_eq_some_iff.mp place
  -- The bracket at the start of the segment is exchanged for a letter.
  have letter : (Part.char 'y').Tidy := by
    change Text.IsLower 'y'
    decide +kernel
  obtain ⟨other, -, members, exchanged⟩ := exists_cells_set (b := .char 'y') place (by decide)
  have otherTidy : ∀ part ∈ other, part.Tidy := fun part member =>
    (members part member).elim (fun same => same ▸ letter) (tidy part)
  have written := segments_stored otherTidy
  rw [parted, exchanged, List.map_set] at written
  refine ⟨other.flatMap Part.stored, isLower_stored otherTidy, ?_, ?_⟩
  · rw [written, List.getElem?_set_self (by rwa [List.length_map])]
    simp [Part.stored]
  · rw [answersFor_iff, written, segments_stored tidy, parted]
    refine List.forall₂_iff_get.mpr ⟨(List.length_set ..).symm, fun j here there => ?_⟩
    rw [List.get_eq_getElem, List.get_eq_getElem, List.getElem_set]
    split
    · next same =>
      subst same
      rw [List.getElem_map]
      exact Or.inl (own ▸ bracketed)
    · exact Or.inr rfl

/-- A segment that is not in angle brackets answers for itself only. -/
theorem getElem?_of_answersFor (tidy : ∀ part ∈ template, part.Tidy) {chars : List Char} {i : Nat}
    {segment : List Part} (place : (parted template)[i]? = some segment)
    (bare : isPlaceholder (segment.flatMap Part.stored) = false)
    (answers : answersFor (segments (template.flatMap Part.stored)) (segments chars) = true) :
    (segments chars)[i]? = some (segment.flatMap Part.stored) := by
  have pairs := answersFor_iff _ _ |>.mp answers
  rw [segments_stored tidy] at pairs
  obtain ⟨inside, own⟩ := List.getElem?_eq_some_iff.mp place
  have here : i < ((parted template).map (List.flatMap Part.stored)).length := by
    rwa [List.length_map]
  have there : i < (segments chars).length := pairs.length_eq ▸ here
  have pair := pairs.get here there
  rw [List.get_eq_getElem, List.get_eq_getElem, List.getElem_map, own] at pair
  rw [List.getElem?_eq_getElem there, pair.resolve_left (by simp [bare])]

/-- A template leaves a name alone that differs from it in a segment without the place of a type,
exactly if no such segment is in angle brackets. -/
theorem answersFor_differing_iff (tidy : ∀ part ∈ template, part.Tidy) :
    (∀ (chars : List Char) (i : Nat) (segment : List Part), (∀ c ∈ chars, Text.IsLower c) →
      (parted template)[i]? = some segment → (∀ part ∈ segment, ¬ part.IsPlace) →
      (segments chars)[i]? ≠ some (segment.flatMap Part.stored) →
      answersFor (segments (template.flatMap Part.stored)) (segments chars) = false) ↔
      ∀ segment ∈ parted template, (∀ part ∈ segment, ¬ part.IsPlace) →
        isPlaceholder (segment.flatMap Part.stored) = false := by
  constructor
  · intro leaves segment among untyped
    refine Bool.eq_false_iff.mpr fun bracketed => ?_
    obtain ⟨i, place⟩ := List.mem_iff_getElem?.mp among
    obtain ⟨chars, lower, differs, answers⟩ :=
      exists_answersFor_of_bracketed tidy place untyped bracketed
    exact Bool.eq_false_iff.mp (leaves chars i segment lower place untyped differs) answers
  · intro bare chars i segment _ place untyped differs
    have open_ := bare segment (List.mem_of_getElem? place) untyped
    exact Bool.eq_false_iff.mpr fun answers =>
      differs (getElem?_of_answersFor tidy place open_ answers)

/-- What a single default variable is the value of. -/
structure Serves (template : List Part) (name : String) (value : Value) : Prop where
  /-- It is the value of all names that are written as its template, in any case, exactly if every
  segment with the place of a type in it is in angle brackets. -/
  reached : (∀ chars asked, Instance template chars →
      Text.equalIgnoringAsciiCase asked (String.ofList chars) = true →
      (only name value).resolve? asked = some value) ↔
    ∀ segment ∈ parted template, (∃ part ∈ segment, part.IsPlace) →
      isPlaceholder (segment.flatMap Part.stored) = true
  /-- It is not the value of a name with another number of segments. -/
  counted : ∀ asked, (segments asked.toList).length ≠ (parted template).length →
    (only name value).resolve? asked = none
  /-- It is not the value of a name that differs in a segment without the place of a type, exactly
  if no such segment is in angle brackets. -/
  told : (∀ (asked : String) (i : Nat) (segment : List Part), (parted template)[i]? = some segment →
      (∀ part ∈ segment, ¬ part.IsPlace) →
      (segments (Text.lower asked).toList)[i]? ≠ some (segment.flatMap Part.stored) →
      (only name value).resolve? asked = none) ↔
    ∀ segment ∈ parted template, (∀ part ∈ segment, ¬ part.IsPlace) →
      isPlaceholder (segment.flatMap Part.stored) = false

theorem serves {name : String} (tidy : ∀ part ∈ template, part.Tidy)
    (stored : name.toList = template.flatMap Part.stored) (value : Value) :
    Serves template name value := by
  have settled : Text.lower name = name :=
    Text.lower_eq_self (stored ▸ isLower_stored tidy)
  have resolves (asked : String) : (only name value).resolve? asked =
      if answersFor (segments (template.flatMap Part.stored)) (segments (Text.lower asked).toList)
        then some value else none := by
    rw [VariableStore.resolve?_only settled, stored]
  have found (asked : String) : (only name value).resolve? asked = some value ↔
      answersFor (segments (template.flatMap Part.stored))
        (segments (Text.lower asked).toList) = true := by
    rw [resolves, Option.ite_none_right_eq_some, and_iff_left rfl]
  have missed (asked : String) : (only name value).resolve? asked = none ↔
      answersFor (segments (template.flatMap Part.stored))
        (segments (Text.lower asked).toList) = false := by
    rw [resolves, ite_eq_right_iff, Bool.eq_false_iff]
    exact imp_congr_right fun _ => iff_of_false (Option.some_ne_none _) not_false
  have own {chars : List Char} (lower : ∀ c ∈ chars, Text.IsLower c) :
      (Text.lower (String.ofList chars)).toList = chars := by
    rw [Text.lower_eq_self (by rwa [String.toList_ofList]), String.toList_ofList]
  refine ⟨?_, fun asked differs => (missed asked).mpr ?_, ?_⟩
  · rw [← answersFor_instances_iff tidy]
    constructor
    · intro answers chars lower written
      have whole := (found _).mp (answers chars _ written (beq_self_eq_true _))
      rwa [own lower] at whole
    · intro answers chars asked written alike
      refine (found asked).mpr ?_
      refine answers _ (fun c => Text.isLower_of_mem_lower) ?_
      rw [Text.lower, String.toList_ofList]
      exact written.lowered tidy ((eq_of_beq alike).trans (by rw [String.toList_ofList])) []
  · refine Bool.eq_false_iff.mpr fun answers => differs ?_
    have lengths := (answersFor_iff _ _ |>.mp answers).length_eq
    rw [segments_stored tidy, List.length_map, VariableStore.length_segments_lower] at lengths
    exact lengths.symm
  · rw [← answersFor_differing_iff tidy]
    constructor
    · intro leaves chars i segment lower place untyped differs
      rw [← own lower] at differs ⊢
      exact (missed _).mp (leaves _ i segment place untyped differs)
    · intro leaves asked i segment place untyped differs
      exact (missed asked).mpr (leaves _ i segment (fun c => Text.isLower_of_mem_lower) place
        untyped differs)

end DefaultName

namespace VariablesStructure

open DefaultName (Part Reads Serves unwrap)

/-- An entry that is stored has a name and a value, and no variable had the name. -/
theorem seed_eq_stored {classes : ClassRegistry} {store after : VariableStore}
    {key written name : String} {line : Nat}
    (seeds : seed classes store key written line = .ok (some name, after)) :
    DefaultName.read classes key line = .ok name ∧ store.get? name = none ∧
      ∃ value, storedValue classes written line = .ok value ∧
        after = store.set name (some value) := by
  unfold seed at seeds
  split at seeds
  · cases seeds
  · next named =>
    split at seeds
    · cases seeds
    · next free =>
      split at seeds
      · cases seeds
      · next value valued =>
        cases seeds
        exact ⟨named, Option.not_isSome_iff_eq_none.mp free, value, valued, rfl⟩

/-- **Default variables.** An entry that is stored under a name with types in it answers for the
names that are written as it exactly if each segment with a type in it is in brackets. Names with
another number of segments are never found. Names that differ in a segment without a type are never
found exactly if no such segment is in brackets itself. -/
theorem seed_serves {classes : ClassRegistry} (tidy : classes.Tidy) {store after : VariableStore}
    {key written name : String} {line : Nat}
    (seeds : seed classes store key written line = .ok (some name, after)) :
    ∃ template value, Reads classes (unwrap key) template ∧
      name.toList = template.flatMap Part.stored ∧ after.get? name = some value ∧
      Serves template name value := by
  obtain ⟨named, -, value, -, rfl⟩ := seed_eq_stored seeds
  obtain ⟨template, reads, stored⟩ := (DefaultName.read_eq_ok_iff tidy).mp named
  have parts := reads.parts_tidy tidy fun c member => DefaultName.unwrap_lower member
  refine ⟨template, value, reads, stored, ?_, DefaultName.serves parts stored value⟩
  exact Table.get?_insert_self store.table (Text.lower name) value

/-- A name that ends with the type of players is stored with the code name of their class. -/
theorem seed_player {key written : String} {line : Nat} {value : Value} (before : List Char)
    (unsigned : DefaultName.Unsigned before) (own : unwrap key = before ++ "%player%".toList)
    (valued : storedValue .standard written line = .ok value) :
    seed .standard {} key written line = .ok (some (String.ofList (before ++ "<player>".toList)),
      VariableStore.only (String.ofList (before ++ "<player>".toList)) value) := by
  have known : (ClassRegistry.standard.ofUserInput? "player").map (·.codeName) =
      some "player" := by
    decide +kernel
  obtain ⟨info, found, code⟩ := Option.map_eq_some_iff.mp known
  have inside : String.ofList "player".toList = "player" := String.ofList_toList
  have reads : Reads .standard (before ++ '%' :: ("player".toList ++ '%' :: []))
      (before.map .char ++ .place info.codeName.toList :: [].map .char) :=
    .type unsigned (by decide) (by decide +kernel) (inside.symm ▸ found) (.rest (by decide))
  have named : DefaultName.read .standard key line =
      .ok (String.ofList (before ++ "<player>".toList)) := by
    refine (DefaultName.read_eq_ok_iff ClassRegistry.standard_tidy).mpr
      ⟨_, own ▸ reads, ?_⟩
    rw [DefaultName.flatMap_type, code, String.toList_ofList]
    simp
  unfold seed
  rw [named, valued]
  rfl

/-- The score of each player is stored under a name that answers for all of them. -/
theorem score_serves :
    seed .standard {} "\x7bscore::%player%\x7d" "0" 2 =
        .ok (some "score::<player>", VariableStore.only "score::<player>" (.integer 0)) ∧
      ∃ template value, Reads .standard (unwrap "\x7bscore::%player%\x7d") template ∧
        "score::<player>".toList = template.flatMap Part.stored ∧
        (VariableStore.only "score::<player>" (.integer 0)).get? "score::<player>" = some value ∧
        Serves template "score::<player>" value := by
  have seeds : seed .standard {} "\x7bscore::%player%\x7d" "0" 2 =
      .ok (some "score::<player>", VariableStore.only "score::<player>" (.integer 0)) :=
    seed_player "score::".toList (by decide) (by decide) (by decide +kernel)
  exact ⟨seeds, seed_serves ClassRegistry.standard_tidy seeds⟩

/-- A type that shares its segment with other text does not answer for a player, and a segment in
brackets answers for any text although it has no type in it. -/
theorem kills_serves_none :
    seed .standard {} "\x7bkills-%player%\x7d" "0" 2 =
        .ok (some "kills-<player>", VariableStore.only "kills-<player>" (.integer 0)) ∧
      (VariableStore.only "kills-<player>" (.integer 0)).resolve? "kills-bob" = none ∧
      seed .standard {} "\x7b<x>::%player%\x7d" "1" 2 =
        .ok (some "<x>::<player>", VariableStore.only "<x>::<player>" (.integer 1)) ∧
      (VariableStore.only "<x>::<player>" (.integer 1)).resolve? "y::bob" = some (.integer 1) := by
  refine ⟨?_, ?_, ?_, ?_⟩
  · exact seed_player "kills-".toList (by decide) (by decide) (by decide +kernel)
  · rw [VariableStore.resolve?_only (by decide +kernel), VariableStore.segments_eq_cells,
      VariableStore.segments_eq_cells]
    decide +kernel
  · exact seed_player "<x>::".toList (by decide) (by decide) (by decide +kernel)
  · rw [VariableStore.resolve?_only (by decide +kernel), VariableStore.segments_eq_cells,
      VariableStore.segments_eq_cells]
    decide +kernel

end VariablesStructure

end ScriptBinding

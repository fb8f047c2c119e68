import Mathlib.Data.List.Lex
import ScriptBinding.Path
import ScriptBinding.Proofs.ReadTrees
import ScriptBinding.Proofs.TreeWriting

/-! # Paths in order

Paths are compared by their components, from the first to the last, and components by their kinds
and names. This orders all lists of components, so that two paths that differ in them always stand
in the same order. A path that leads on by names has their components behind its own.
-/

namespace ScriptBinding.Path

/-! ## The order -/

namespace Component

theorem not_precedes_self (component : Component) : component.precedes component = false := by
  cases component with
  | name text => simp [precedes]
  | top => rfl
  | here => rfl
  | up => rfl

theorem precedes_trans {a b c : Component} (first : a.precedes b = true)
    (second : b.precedes c = true) : a.precedes c = true := by
  cases a <;> cases b <;> cases c <;>
    simp_all only [precedes, Bool.false_eq_true, decide_eq_true_eq]
  exact String.lt_trans first second

theorem eq_of_not_precedes {a b : Component} (notBefore : a.precedes b = false)
    (notBehind : b.precedes a = false) : a = b := by
  cases a <;> cases b <;> simp_all only [precedes, Bool.true_eq_false, decide_eq_false_iff_not]
  exact congrArg name (String.le_antisymm notBehind notBefore)

/-- Of two components that differ, one precedes the other. -/
instance : IsStrictTotalOrder Component (fun a b => a.precedes b = true) where
  irrefl component := by simp [not_precedes_self]
  trans _ _ _ := precedes_trans
  trichotomous _ _ notBefore notBehind :=
    eq_of_not_precedes (Bool.eq_false_iff.mpr notBefore) (Bool.eq_false_iff.mpr notBehind)

end Component

/-- Lists of components are compared where they first differ. -/
theorem precedesBy_iff_lex {as bs : List Component} :
    precedesBy as bs = true ↔ List.Lex (fun a b => a.precedes b = true) as bs := by
  induction as generalizing bs with
  | nil =>
    cases bs with
    | nil => simp [precedesBy]
    | cons b bs => exact ⟨fun _ => .nil, fun _ => rfl⟩
  | cons a as ih =>
    cases bs with
    | nil => simp [precedesBy]
    | cons b bs =>
      rw [precedesBy]
      by_cases same : a = b
      · subst same
        rw [if_pos rfl, ih, List.lex_cons_iff]
      · rw [if_neg same]
        constructor
        · exact fun before => .rel before
        · intro before
          cases before with
          | rel before => exact before
          | cons _ => exact absurd rfl same

/-- The order of paths leaves out no step between two of them. -/
theorem precedes_or_precedes {a b c : Path} (before : a.precedes c = true) :
    a.precedes b = true ∨ b.precedes c = true := by
  simp only [precedes, precedesBy_iff_lex] at *
  exact IsOrderConnected.conn _ _ _ before

theorem not_precedes_of_precedes {a b : Path} (before : a.precedes b = true) :
    b.precedes a = false := by
  rw [precedes, precedesBy_iff_lex] at before
  rw [precedes, Bool.eq_false_iff, ne_eq, precedesBy_iff_lex]
  exact Std.Asymm.asymm _ _ before

/-- Of two paths with different components, one precedes the other. -/
theorem precedes_of_not_precedes {a b : Path} (differ : a.components ≠ b.components)
    (notBehind : b.precedes a = false) : a.precedes b = true := by
  rw [precedes, Bool.eq_false_iff, ne_eq, precedesBy_iff_lex] at notBehind
  rw [precedes, precedesBy_iff_lex]
  by_contra notBefore
  exact differ (Std.Trichotomous.trichotomous _ _ notBefore notBehind)

/-! ## Paths below a folder -/

/-- The text is the name of an entry of a folder. -/
structure IsName (name : String) : Prop where
  notEmpty : name ≠ ""
  notHere : name ≠ "."
  notUp : name ≠ ".."
  noSlash : '/' ∉ name.toList

instance (name : String) : Decidable (IsName name) :=
  decidable_of_iff (name ≠ "" ∧ name ≠ "." ∧ name ≠ ".." ∧ '/' ∉ name.toList)
    ⟨fun ⟨notEmpty, notHere, notUp, noSlash⟩ => ⟨notEmpty, notHere, notUp, noSlash⟩,
      fun isName => ⟨isName.notEmpty, isName.notHere, isName.notUp, isName.noSlash⟩⟩

/-- What stands below a folder at the end of some names, one below the other. -/
def below (folder : Path) (names : List String) : Path :=
  names.foldl (fun path name => path.join ⟨name⟩) folder

theorem split_slash (front behind : List Char) :
    Text.split '/' (String.ofList (front ++ '/' :: behind)) =
      Text.split '/' (String.ofList front) ++ Text.split '/' (String.ofList behind) := by
  simp only [Text.split, String.toList_ofList, ← List.map_append]
  apply congrArg
  induction front with
  | nil => rfl
  | cons c front ih =>
    by_cases slash : c = '/'
    · rw [List.cons_append, Text.pieces, if_pos slash, Text.pieces, if_pos slash, ih]
      rfl
    · rw [List.cons_append, Text.pieces, if_neg slash, Text.pieces, if_neg slash, ih]
      cases some : Text.pieces '/' front with
      | nil => exact absurd some (Text.pieces_ne_nil _ _)
      | cons first others => rfl

theorem steps_append (front behind : List String) :
    steps (front ++ behind) = steps front ++ steps behind :=
  List.filterMap_append

theorem IsName.steps {name : String} (isName : IsName name) :
    Path.steps (Text.split '/' name) = [.name name] := by
  simp [Text.split, Text.pieces_of_not_mem isName.noSlash, Path.steps, isName.notEmpty,
    isName.notHere, isName.notUp]

/-- Where the characters before a slash lead to. -/
def beforeSlash (front : List Char) : List Component :=
  if front = [] then [.top] else components ⟨String.ofList front⟩

theorem components_slash (front behind : List Char) :
    components ⟨String.ofList (front ++ '/' :: behind)⟩ =
      beforeSlash front ++ steps (Text.split '/' (String.ofList behind)) := by
  unfold beforeSlash
  cases front with
  | nil =>
    simp [components, isAbsolute, Text.startsWith, Text.afterLead?, Text.split, Text.pieces, steps]
  | cons c front =>
    have absolute : isAbsolute ⟨String.ofList (c :: front ++ '/' :: behind)⟩ =
        isAbsolute ⟨String.ofList (c :: front)⟩ := by
      simp only [isAbsolute, Text.startsWith, String.toList_ofList, List.cons_append]
      by_cases slash : '/' = c
      · simp [Text.afterLead?, ← slash]
      · simp [Text.afterLead?, slash]
    have first : (Text.split '/' (String.ofList (c :: front ++ '/' :: behind))).head? =
        (Text.split '/' (String.ofList (c :: front))).head? := by
      rw [split_slash, List.head?_append_of_ne_nil]
      exact fun none => Text.pieces_ne_nil _ _ (List.map_eq_nil_iff.mp none)
    rw [if_neg (List.cons_ne_nil c front)]
    simp only [components, absolute, first]
    rw [split_slash, steps_append]
    split
    · rfl
    · split <;> rfl

theorem IsName.relative {name : String} (isName : IsName name) : isAbsolute ⟨name⟩ = false := by
  rw [isAbsolute, Text.startsWith, Option.isSome_eq_false_iff, Option.isNone_iff_eq_none,
    Option.eq_none_iff_forall_ne_some]
  intro rest found
  apply isName.noSlash
  rw [Text.afterLead?_eq_some.mp found]
  exact List.mem_cons_self

theorem IsName.components {name : String} (isName : IsName name) :
    Path.components ⟨name⟩ = [.name name] := by
  have single : Text.split '/' name = [name] := by
    simp [Text.split, Text.pieces_of_not_mem isName.noSlash]
  rw [Path.components, isName.relative, if_neg Bool.false_ne_true, isName.steps, single, if_neg]
  exact fun same => isName.notHere (Option.some.inj same)

/-- An entry of a folder has the components of the folder and its own name. -/
theorem components_join (folder : Path) {name : String} (isName : IsName name) :
    (folder.join ⟨name⟩).components = folder.components ++ [.name name] := by
  rw [join, if_neg (Bool.eq_false_iff.mp isName.relative)]
  split
  · next joins =>
    rcases Bool.or_eq_true_iff.mp joins with empty | slash
    · have none : folder = ⟨""⟩ := congrArg Path.mk (of_decide_eq_true empty)
      subst none
      rw [String.empty_append, isName.components]
      rfl
    · obtain ⟨front, found⟩ := Option.isSome_iff_exists.mp slash
      have whole := Text.beforeEnd?_eq_some.mp found
      have ended : folder = ⟨String.ofList (front ++ '/' :: [])⟩ := by
        rw [← whole, String.ofList_toList]
      have joined : folder.raw ++ name = String.ofList (front ++ '/' :: name.toList) := by
        rw [← String.toList_inj]
        simp [whole]
      rw [joined, components_slash, String.ofList_toList, isName.steps, ended, components_slash]
      simp [Text.split, Text.pieces, steps]
  · next joins =>
    have some : folder.raw.toList ≠ [] := by
      simp only [Bool.or_eq_true, decide_eq_true_eq, not_or] at joins
      exact fun none => joins.1 (String.toList_eq_nil_iff.mp none)
    have joined : folder.raw ++ "/" ++ name =
        String.ofList (folder.raw.toList ++ '/' :: name.toList) := by
      rw [← String.toList_inj]
      simp
    rw [joined, components_slash, beforeSlash, if_neg some, String.ofList_toList,
      String.ofList_toList, isName.steps]

theorem components_below (folder : Path) {names : List String}
    (areNames : ∀ name ∈ names, IsName name) :
    (folder.below names).components = folder.components ++ names.map .name := by
  induction names generalizing folder with
  | nil => exact (List.append_nil _).symm
  | cons name names ih =>
    obtain ⟨isName, areNames⟩ := List.forall_mem_cons.mp areNames
    rw [below, List.foldl_cons, ← below, ih _ areNames, components_join folder isName,
      List.append_assoc]
    rfl

theorem fileName?_join (folder : Path) {name : String} (isName : IsName name) :
    (folder.join ⟨name⟩).fileName? = some name := by
  rw [fileName?, components_join folder isName, List.getLast?_concat]

end ScriptBinding.Path

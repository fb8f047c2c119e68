import ScriptBinding.Proofs.PatternMatching
import ScriptBinding.Value.Standard

/-! # How classes are written

The ways to write a class are expressions over a whole text. What the expressions of the standard
classes match is never empty, and has none of the signs in it that stand around a type in a
signature.
-/

namespace ScriptBinding

namespace Regex

/-- An expression has no conditions, and no set of it has any of these characters. -/
def Spares (chars : List Char) : Regex → Prop
  | empty => True
  | set own _ => ∀ c ∈ chars, own.contains c = false
  | edge _ => False
  | cat a b | alt a b => a.Spares chars ∧ b.Spares chars
  | repeated _ _ _ body | group _ body => body.Spares chars

/-- Every match of an expression takes some character. -/
def takesSome : Regex → Bool
  | empty | edge _ => false
  | set _ _ => true
  | cat a b => a.takesSome || b.takesSome
  | alt a b => a.takesSome && b.takesSome
  | repeated least _ _ body => 0 < least && body.takesSome
  | group _ body => body.takesSome

variable {regex : Regex} {chars : List Char} {kept : String → Bool}

theorem Spares.edgeless (spares : regex.Spares chars) : regex.Edgeless := by
  induction regex with
  | empty | set => trivial
  | edge condition => exact spares
  | cat a b first second | alt a b first second => exact ⟨first spares.1, second spares.2⟩
  | repeated least most greedy body ih => exact ih spares
  | group bracket body ih => exact ih spares

/-- The characters that an expression spares are met on none of its traces. -/
theorem Spares.only (spares : regex.Spares chars) :
    Only (fun event => ∀ c ∈ chars, event ≠ .char c) (regex.traces kept) := by
  induction regex with
  | empty => exact only_one
  | set own nesting =>
    rintro _ ⟨d, has, rfl⟩ event member c among
    rw [List.mem_singleton.mp member]
    intro same
    have absent := spares c among
    rw [← Event.char.inj same, has] at absent
    cases absent
  | edge condition => exact spares.elim
  | cat a b first second => exact (first spares.1).mul (second spares.2)
  | alt a b first second => exact (first spares.1).add (second spares.2)
  | repeated least most greedy body ih => exact (ih spares).copied least most
  | group bracket body ih =>
    exact (ih spares).grouped fun _ _ _ => ⟨fun _ _ => nofun, fun _ _ => nofun⟩

/-- All traces meet some character. -/
def Moving (language : Language Event) : Prop :=
  ∀ trace ∈ language, charsOf trace ≠ []

theorem Moving.mul_left {L M : Language Event} (moving : Moving L) : Moving (L * M) := by
  rintro _ ⟨early, one, late, other, rfl⟩ none
  rw [charsOf_append] at none
  exact moving early one (List.append_eq_nil_iff.mp none).1

theorem Moving.mul_right {L M : Language Event} (moving : Moving M) : Moving (L * M) := by
  rintro _ ⟨early, one, late, other, rfl⟩ none
  rw [charsOf_append] at none
  exact moving late other (List.append_eq_nil_iff.mp none).2

theorem moving_of_takesSome (takesSome : regex.takesSome = true) :
    Moving (regex.traces kept) := by
  induction regex with
  | empty | edge => cases takesSome
  | set own nesting =>
    rintro _ ⟨d, has, rfl⟩
    exact List.cons_ne_nil _ _
  | cat a b first second =>
    exact (Bool.or_eq_true_iff.mp takesSome).elim (fun one => (first one).mul_left)
      fun other => (second other).mul_right
  | alt a b first second =>
    obtain ⟨one, other⟩ := Bool.and_eq_true_iff.mp takesSome
    exact fun trace member => member.elim (first one trace) (second other trace)
  | repeated least most greedy body ih =>
    obtain ⟨required, inner⟩ := Bool.and_eq_true_iff.mp takesSome
    obtain ⟨fewer, rfl⟩ := Nat.exists_eq_succ_of_ne_zero (Nat.pos_iff_ne_zero.mp
      (of_decide_eq_true required))
    have several : Moving (body.traces kept ^ (fewer + 1)) := by
      rw [pow_succ]
      exact (ih inner).mul_right
    cases most with
    | none => exact several.mul_left
    | some most => exact several.mul_left
  | group bracket body ih =>
    have inner := ih takesSome
    change Moving (grouped kept bracket.name? (body.traces kept))
    unfold grouped
    split
    · split
      · exact inner.mul_right.mul_left
      · exact inner
    · exact inner

/-- The expression between the ends of a text. -/
def held (regex : Regex) : Regex :=
  .cat (.edge .textStart) (.cat regex (.edge .textEnd))

/-- An expression between the ends of a text matches only texts without the characters it spares,
and with some if it takes some. -/
theorem Spares.of_matchesIn {machine : Machine} {text : List Char} (spares : regex.Spares chars)
    (takesSome : regex.takesSome = true) (proper : regex.held.Proper)
    (compiled : regex.held.machine? = some machine) (found : machine.matchesIn text = true) :
    text ≠ [] ∧ ∀ c ∈ chars, c ∉ text := by
  have finds : Finds machine (fun _ => false) (regex.traces fun _ => false) := by
    have moves : Only (Event.MarksOnly fun _ => False) (regex.traces fun _ => false) :=
      spares.edgeless.only fun _ _ asked => absurd asked Bool.false_ne_true
    have tame : regex.Tame fun _ => false := (spares.edgeless.plain fun _ _ => rfl).tame
    exact finds_of_machine? compiled proper ⟨trivial, tame, trivial⟩ rfl moves
  obtain ⟨final, search⟩ := Option.isSome_iff_exists.mp found
  obtain ⟨trace, member, rfl, _⟩ := finds.bindings text _ (congrArg (Option.map _) search)
  refine ⟨moving_of_takesSome takesSome trace member, fun c among has => ?_⟩
  obtain ⟨event, there, isChar⟩ := List.mem_filterMap.mp has
  cases event with
  | char d =>
    have spared := spares.only trace member _ there c among
    exact spared (congrArg Event.char (Option.some.inj isChar))
  | «at» condition => cases isChar
  | mark name opens => cases isChar

/-! ## Words -/

/-- A letter, whatever its case. -/
def letter (c : Char) : Regex :=
  .oneOf (.foldIf true (.single c))

/-- The expressions of a word in which a question mark makes the letter before it optional. -/
def spelled : List Char → List Regex
  | c :: '?' :: rest => .repeated 0 (some 1) true (letter c) :: spelled rest
  | c :: rest => letter c :: spelled rest
  | [] => []

theorem spares_spelled {word : List Char}
    (apart : ∀ d ∈ word, ∀ c ∈ chars, Text.foldChar c ≠ Text.foldChar d) :
    ∀ item ∈ spelled word, item.Spares chars := by
  have own {d : Char} (others : ∀ c ∈ chars, Text.foldChar c ≠ Text.foldChar d) :
      (letter d).Spares chars := by
    intro c among
    refine Bool.eq_false_iff.mpr fun has => others c among ?_
    exact ((CharSet.contains_folded_single d c).mp has).symm
  induction word using spelled.induct with
  | case1 c rest ih =>
    obtain ⟨first, later⟩ := List.forall_mem_cons.mp apart
    exact List.forall_mem_cons.mpr ⟨own first, ih (List.forall_mem_cons.mp later).2⟩
  | case2 c rest plain ih =>
    obtain ⟨first, later⟩ := List.forall_mem_cons.mp apart
    rw [spelled.eq_2 c rest plain]
    exact List.forall_mem_cons.mpr ⟨own first, ih later⟩
  | case3 => exact fun _ absent => absurd absent List.not_mem_nil

end Regex

/-! ## Classes -/

/-- The signs that stand around a type in a signature, and the end of a line. -/
def Signature.signs : List Char := [',', '=', ')', '\n']

/-- A text is not empty and has none of the signs in it that stand around a type. -/
def Signature.PlainType (chars : List Char) : Prop :=
  chars ≠ [] ∧ ∀ c ∈ signs, c ∉ chars

/-- Whatever names the class is plain, once the blanks around it are dropped. -/
def ClassInfo.Plain (info : ClassInfo) : Prop :=
  ∀ input, info.accepts input = true → Signature.PlainType (Text.trimChars input.toList)

/-- Whatever is recognised as a class is plain, once the blanks around it are dropped. -/
def ClassRegistry.Plain (classes : ClassRegistry) : Prop :=
  ∀ info ∈ classes.classes, info.Plain

namespace ClassInfo

/-- A way to write a class is a word of small letters and blanks, some of them optional. -/
structure Wordlike (written : String) : Prop where
  read : Regex.read? { ignoreCase := true } ("^(?:".toList ++ written.toList ++ ")$".toList) =
    some (Regex.group .plain (.catAll (Regex.spelled written.toList))).held
  letters : written.toList ⊆ "abcdefghijklmnopqrstuvwxyz ?".toList
  takesSome : (Regex.catAll (Regex.spelled written.toList)).takesSome = true

theorem Plain.user {info : ClassInfo} {written : List String} (none : info.userInput = [])
    (wordlike : ∀ word ∈ written, Wordlike word) : (info.user written).Plain := by
  have all : ("abcdefghijklmnopqrstuvwxyz ?".toList.all fun d =>
      Signature.signs.all fun c => Text.foldChar c != Text.foldChar d) = true := by
    decide +kernel
  have apart (d : Char) (there : d ∈ "abcdefghijklmnopqrstuvwxyz ?".toList) (c : Char)
      (sign : c ∈ Signature.signs) : Text.foldChar c ≠ Text.foldChar d :=
    bne_iff_ne.mp (List.all_eq_true.mp (List.all_eq_true.mp all d there) c sign)
  intro input accepts
  obtain ⟨machine, member, found⟩ := List.any_eq_true.mp accepts
  rw [ClassInfo.user, none, List.nil_append] at member
  obtain ⟨word, among, compiled⟩ := List.mem_filterMap.mp member
  have own := wordlike word among
  have items := Regex.spares_spelled fun d there => apart d (own.letters there)
  rw [userRegex?, Regex.parse?, own.read, Option.bind_some] at compiled
  have spares : (Regex.group .plain (.catAll (Regex.spelled word.toList))).Spares Signature.signs :=
    (catAll_iff (Regex.Spares _) trivial (fun _ _ => Iff.rfl) _).mpr items
  exact spares.of_matchesIn own.takesSome (Regex.read?_proper own.read) compiled found

end ClassInfo

/-- The standard classes are written plainly. -/
theorem ClassRegistry.standard_plain : standard.Plain := by
  have single {written : String} (wordlike : ClassInfo.Wordlike written) :
      ∀ word ∈ [written], ClassInfo.Wordlike word :=
    List.forall_mem_singleton.mpr wordlike
  have texts : ∀ word ∈ ["texts?", "strings?"], ClassInfo.Wordlike word :=
    List.forall_mem_cons.mpr ⟨⟨rfl, by decide, rfl⟩, single ⟨rfl, by decide, rfl⟩⟩
  simp only [Plain, standard, ClassInfo.standard, List.forall_mem_cons, List.not_mem_nil,
    false_implies, implies_true, and_true]
  exact ⟨.user rfl (single ⟨rfl, by decide, rfl⟩), .user rfl (single ⟨rfl, by decide, rfl⟩),
    .user rfl (single ⟨rfl, by decide, rfl⟩), .user rfl (single ⟨rfl, by decide, rfl⟩),
    .user rfl (single ⟨rfl, by decide, rfl⟩), .user rfl (single ⟨rfl, by decide, rfl⟩),
    .user rfl (single ⟨rfl, by decide, rfl⟩), .user rfl texts,
    .user rfl (single ⟨rfl, by decide, rfl⟩)⟩

end ScriptBinding

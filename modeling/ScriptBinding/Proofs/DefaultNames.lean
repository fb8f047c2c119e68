import ScriptBinding.Proofs.LowerCase
import ScriptBinding.Proofs.Substitutions
import ScriptBinding.Proofs.TextLiterals
import ScriptBinding.Variable.DefaultName

/-! # Names of default variables

A name is read if it can be split at its percent signs into texts and types that are known. It is
stored with the code name of its class in the place of each type, in angle brackets. A stored name
is in lower case and has no percent signs and no braces, so that reading it again can only take the
blanks at its ends away. A name in braces keeps the blanks inside them, and an empty pair of braces
is read as an empty name.
-/

namespace ScriptBinding

namespace DefaultName

/-- The signs that no stored name has. -/
def signs : List Char := ['%', '\x7b', '\x7d']

/-- None of the signs stands among the characters. -/
def Unsigned (chars : List Char) : Prop :=
  ∀ c ∈ chars, c ∉ signs

instance (chars : List Char) : Decidable (Unsigned chars) :=
  List.decidableBAll _ chars

theorem unsigned_append {first second : List Char} :
    Unsigned (first ++ second) ↔ Unsigned first ∧ Unsigned second :=
  List.forall_mem_append

theorem unsigned_iff {chars : List Char} :
    Unsigned chars ↔ '%' ∉ chars ∧ hasBrace chars = false := by
  simp only [Unsigned, signs, hasBrace, List.mem_cons, List.not_mem_nil, or_false, not_or,
    List.any_eq_false, Bool.or_eq_true, beq_iff_eq]
  constructor
  · intro unsigned
    exact ⟨fun member => (unsigned _ member).1 rfl, fun c member => (unsigned c member).2⟩
  · rintro ⟨percent, braces⟩ c member
    exact ⟨fun same => percent (same ▸ member), braces c member⟩

end DefaultName

/-! ## Code names -/

/-- The characters are in lower case, without colons and signs, and there are some. -/
def DefaultName.TidyCode (code : List Char) : Prop :=
  code ≠ [] ∧ ∀ c ∈ code, Text.IsLower c ∧ c ∉ ':' :: signs

instance (code : List Char) : Decidable (DefaultName.TidyCode code) :=
  @instDecidableAnd _ _ inferInstance (List.decidableBAll _ code)

/-- The code name of the class is tidy. -/
def ClassInfo.Tidy (info : ClassInfo) : Prop :=
  DefaultName.TidyCode info.codeName.toList

/-- All code names are tidy. -/
def ClassRegistry.Tidy (classes : ClassRegistry) : Prop :=
  ∀ info ∈ classes.classes, info.Tidy

theorem ClassRegistry.standard_tidy : standard.Tidy := by
  have named : standard.classes.map (·.codeName) =
      ["boolean", "integer", "number", "timespan", "world", "player", "offlineplayer", "text",
        "object"] := rfl
  have tidy : ∀ codeName ∈ standard.classes.map (·.codeName),
      DefaultName.TidyCode codeName.toList := by
    rw [named]
    decide +kernel
  exact fun info member => tidy _ (List.mem_map_of_mem member)

theorem ClassRegistry.Tidy.of_ofUserInput? {classes : ClassRegistry} (tidy : classes.Tidy)
    {input : String} {info : ClassInfo} (known : classes.ofUserInput? input = some info) :
    info.Tidy :=
  tidy info (List.mem_of_find?_eq_some known)

namespace DefaultName

open Text (cut? References)

/-! ## What is read -/

/-- A part of the name of a default variable. -/
inductive Part where
  | char (c : Char)
  /-- The place of a type, with the code name of its class. -/
  | place (code : List Char)

/-- A part as it is stored. -/
def Part.stored : Part → List Char
  | char c => [c]
  | place code => '<' :: code ++ ['>']

/-- The part is written in lower case, and the code name in a place is not empty and has no colon
in it. -/
def Part.Tidy : Part → Prop
  | char c => Text.IsLower c
  | place code => code ≠ [] ∧ ∀ c ∈ code, Text.IsLower c ∧ c ≠ ':'

/-- The characters are split at their percent signs: what stands between two successive ones is a
type that is known, and there are no braces. -/
inductive Reads (classes : ClassRegistry) : List Char → List Part → Prop
  | rest {tail : List Char} (unsigned : Unsigned tail) : Reads classes tail (tail.map .char)
  | type {before type behind : List Char} {template : List Part} {info : ClassInfo}
      (unsigned : Unsigned before) (named : type ≠ []) (inside : Unsigned type)
      (known : classes.ofUserInput? (String.ofList type) = some info)
      (later : Reads classes behind template) :
      Reads classes (before ++ '%' :: (type ++ '%' :: behind))
        (before.map .char ++ .place info.codeName.toList :: template)

theorem flatMap_char (chars : List Char) : (chars.map Part.char).flatMap Part.stored = chars := by
  rw [List.flatMap_map]
  exact List.flatMap_singleton' chars

theorem flatMap_type (before : List Char) (code : List Char) (template : List Part) :
    (before.map Part.char ++ .place code :: template).flatMap Part.stored =
      before ++ ('<' :: code ++ ['>']) ++ template.flatMap Part.stored := by
  rw [List.flatMap_append, flatMap_char, List.flatMap_cons, Part.stored, ← List.append_assoc]

variable {classes : ClassRegistry} {chars : List Char} {template : List Part}

theorem placeholder_eq_ok_iff {line : Nat} {name type segment : List Char} :
    placeholder classes line name type = .ok segment ↔ type ≠ [] ∧ hasBrace type = false ∧
      ∃ info, classes.ofUserInput? (String.ofList type) = some info ∧
        segment = '<' :: info.codeName.toList ++ ['>'] := by
  unfold placeholder
  by_cases bad : type.isEmpty || hasBrace type
  · simp only [bad, ↓reduceIte, reduceCtorEq, false_iff]
    rintro ⟨named, braceless, -⟩
    simp [named, braceless] at bad
  · obtain ⟨named, braceless⟩ : type ≠ [] ∧ hasBrace type = false := by simpa using bad
    rw [if_neg bad]
    cases classes.ofUserInput? (String.ofList type) with
    | none => simp
    | some info => simp [named, braceless, eq_comm]

/-- What can be split at its percent signs is filled with segments. -/
theorem Reads.fill (reads : Reads classes chars template) (line : Nat) (name : List Char) :
    ∃ filled, DefaultName.fill classes line name (References.scan ['%'] '%' chars).found =
        .ok filled ∧ (References.scan ['%'] '%' chars).unclosed = none ∧
      template.flatMap Part.stored = filled ++ (References.scan ['%'] '%' chars).tail := by
  induction reads with
  | rest unsigned =>
    have none := Text.cut?_singleton_eq_none_iff.mpr (unsigned_iff.mp unsigned).1
    rw [References.scan_of_none none]
    exact ⟨[], rfl, rfl, flatMap_char _⟩
  | @type before type behind template info unsigned named inside known later ih =>
    obtain ⟨filled, fills, closed, whole⟩ := ih
    have opens : cut? ['%'] (before ++ '%' :: (type ++ '%' :: behind)) =
        some (before, type ++ '%' :: behind) :=
      Text.cut?_singleton_iff.mpr ⟨rfl, (unsigned_iff.mp unsigned).1⟩
    have closes : cut? ['%'] (type ++ '%' :: behind) = some (type, behind) :=
      Text.cut?_singleton_iff.mpr ⟨rfl, (unsigned_iff.mp inside).1⟩
    have segment : placeholder classes line name type =
        .ok ('<' :: info.codeName.toList ++ ['>']) :=
      placeholder_eq_ok_iff.mpr ⟨named, (unsigned_iff.mp inside).2, info, known, rfl⟩
    rw [References.scan_of_closed opens closes]
    refine ⟨before ++ ('<' :: info.codeName.toList ++ ['>']) ++ filled, ?_, closed, ?_⟩
    · simp only [References.cons, DefaultName.fill, segment, fills]
    · rw [flatMap_type, whole]
      simp [References.cons]

/-- What has been filled with segments has been split at its percent signs. -/
theorem reads_of_fill {line : Nat} {name filled : List Char}
    (fills : fill classes line name (References.scan ['%'] '%' chars).found = .ok filled)
    (closed : (References.scan ['%'] '%' chars).unclosed = none)
    (braceless : hasBrace (filled ++ (References.scan ['%'] '%' chars).tail) = false) :
    ∃ template, Reads classes chars template ∧
      template.flatMap Part.stored = filled ++ (References.scan ['%'] '%' chars).tail := by
  fun_induction References.scan ['%'] '%' chars generalizing filled with
  | case1 chars none =>
    cases fills
    exact ⟨_, .rest (unsigned_iff.mpr ⟨Text.cut?_singleton_eq_none_iff.mp none, braceless⟩),
      flatMap_char _⟩
  | case2 chars before inside opened unclosed => cases closed
  | case3 chars before inside opened type behind closes ih =>
    obtain ⟨rfl, noOpening⟩ := Text.cut?_singleton_iff.mp opened
    obtain ⟨rfl, noClosing⟩ := Text.cut?_singleton_iff.mp closes
    unfold References.cons at *
    dsimp only [fill] at fills
    split at fills
    · cases fills
    · next segment found =>
      split at fills
      · cases fills
      · next rest later =>
        obtain ⟨named, inside, info, known, rfl⟩ := placeholder_eq_ok_iff.mp found
        cases fills
        have parts := braceless
        simp only [hasBrace, List.any_append, Bool.or_eq_false_iff] at parts
        obtain ⟨template, reads, whole⟩ := ih later closed (by
          simp only [hasBrace, List.any_append, Bool.or_eq_false_iff]
          exact ⟨parts.1.2, parts.2⟩)
        refine ⟨_, .type (unsigned_iff.mpr ⟨noOpening, parts.1.1.1⟩) named
          (unsigned_iff.mpr ⟨noClosing, inside⟩) known reads, ?_⟩
        rw [flatMap_type, whole]
        simp

/-- What is stored for a name has no signs if the code names have none. -/
theorem Reads.unsigned (reads : Reads classes chars template) (tidy : classes.Tidy) :
    Unsigned (template.flatMap Part.stored) := by
  induction reads with
  | rest unsigned => rwa [flatMap_char]
  | type unsigned _ _ known _ ih =>
    have code := (tidy.of_ofUserInput? known).2
    rw [flatMap_type, unsigned_append, unsigned_append]
    refine ⟨⟨unsigned, fun c member sign => ?_⟩, ih⟩
    simp only [List.cons_append, List.mem_cons, List.mem_append, List.not_mem_nil,
      or_false] at member
    rcases member with rfl | among | rfl
    · revert sign
      decide
    · exact (code c among).2 (List.mem_cons_of_mem _ sign)
    · revert sign
      decide

/-- A name is read exactly if its percent signs enclose types that are known, and it has no other
signs: it is stored with the code names of the classes in the place of the types. -/
theorem read_eq_ok_iff (tidy : classes.Tidy) {written name : String} {line : Nat} :
    read classes written line = .ok name ↔ ∃ template, Reads classes (unwrap written) template ∧
      name.toList = template.flatMap Part.stored := by
  unfold read
  dsimp only
  constructor
  · intro reads
    split at reads
    · cases reads
    · next filled fills =>
      split at reads
      · cases reads
      · next proper =>
        split at reads
        · cases reads
        · next braceless =>
          simp only [Bool.or_eq_true, not_or, Bool.not_eq_true] at proper braceless
          obtain ⟨template, splits, whole⟩ :=
            reads_of_fill fills (Option.not_isSome_iff_eq_none.mp (by simp [proper.1])) braceless
          refine ⟨template, splits, ?_⟩
          rw [← Except.ok.inj reads, String.toList_ofList, whole]
  · rintro ⟨template, reads, stored⟩
    obtain ⟨filled, fills, closed, whole⟩ := reads.fill line (unwrap written)
    obtain ⟨noPercent, braceless⟩ := unsigned_iff.mp (whole ▸ reads.unsigned tidy)
    simp only [fills, closed, Option.isSome_none, Bool.false_or, List.contains_eq_mem,
      decide_eq_true_eq, noPercent, ↓reduceIte, braceless, Bool.false_eq_true, Except.ok.injEq]
    rw [← whole, ← stored, String.ofList_toList]

/-! ## What is stored -/

theorem unwrap_lower {written : String} {c : Char} (member : c ∈ unwrap written) :
    Text.IsLower c := by
  suffices c ∈ (Text.lower (Text.trim written)).toList from Text.isLower_of_mem_lower this
  unfold unwrap at member
  dsimp only at member
  cases inner : Text.between? '\x7b' '\x7d' (Text.lower (Text.trim written)).toList with
  | none => rwa [inner] at member
  | some chars =>
    rw [inner, Option.getD_some] at member
    rw [Text.between?_eq_some.mp inner]
    simp [member]

/-- The parts of a name in lower case are tidy if the code names are. -/
theorem Reads.parts_tidy {classes : ClassRegistry} {chars : List Char}
    (reads : Reads classes chars template) (tidy : classes.Tidy)
    (settled : ∀ c ∈ chars, Text.IsLower c) : ∀ part ∈ template, part.Tidy := by
  have written {before : List Char} (settled : ∀ c ∈ before, Text.IsLower c) :
      ∀ part ∈ before.map Part.char, part.Tidy :=
    List.forall_mem_map.mpr settled
  induction reads with
  | rest unsigned => exact written settled
  | @type before type behind template info _ _ _ known _ ih =>
    obtain ⟨first, later⟩ := List.forall_mem_append.mp settled
    have code := tidy.of_ofUserInput? known
    refine List.forall_mem_append.mpr ⟨written first, List.forall_mem_cons.mpr ⟨?_, ?_⟩⟩
    · exact ⟨code.1, fun c member =>
        ⟨(code.2 c member).1, fun colon => (code.2 c member).2 (colon ▸ List.mem_cons_self)⟩⟩
    · exact ih fun c member => later c (by simp [member])

/-- What is stored for tidy parts is in lower case. -/
theorem isLower_stored (tidy : ∀ part ∈ template, part.Tidy) :
    ∀ c ∈ template.flatMap Part.stored, Text.IsLower c := by
  intro c member
  obtain ⟨part, among, inside⟩ := List.mem_flatMap.mp member
  have own := tidy part among
  cases part with
  | char d => exact List.mem_singleton.mp inside ▸ own
  | place code =>
    have brackets : Text.IsLower '<' ∧ Text.IsLower '>' := by decide +kernel
    simp only [Part.stored, List.cons_append, List.mem_cons, List.mem_append, List.not_mem_nil,
      or_false] at inside
    rcases inside with rfl | within | rfl
    · exact brackets.1
    · exact (own.2 c within).1
    · exact brackets.2

/-- Names are their own lower-case form. -/
theorem lower_of_read (tidy : classes.Tidy) {written name : String} {line : Nat}
    (named : read classes written line = .ok name) : Text.lower name = name := by
  obtain ⟨template, reads, stored⟩ := (read_eq_ok_iff tidy).mp named
  have parts := reads.parts_tidy tidy fun c member => unwrap_lower member
  exact Text.lower_eq_self (stored ▸ isLower_stored parts)

/-- Only for an empty name an empty one is stored. -/
theorem Reads.stored_eq_nil_iff (reads : Reads classes chars template) :
    template.flatMap Part.stored = [] ↔ chars = [] := by
  cases reads with
  | rest unsigned => rw [flatMap_char]
  | type _ _ _ _ later =>
    rw [flatMap_type]
    simp

/-- A text of signs is the lower-case form of itself only. -/
theorem lower_eq_iff_of_signs {text written : String} (isSigns : text.toList ⊆ signs)
    (same : Text.lower text = text) : Text.lower written = text ↔ written = text := by
  constructor
  · intro lowered
    have solitary : ∀ c ∈ signs, Text.Solitary c := fun c member =>
      Text.solitary_signs c (List.mem_cons_of_mem _ (List.mem_cons_of_mem _ member))
    have image : Text.lowerFrom [] written.toList = text.toList := by
      rw [← lowered, Text.lower, String.toList_ofList]
    exact String.toList_inj.mp
      (Text.eq_of_lowerFrom_solitary image fun c member => solitary c (isSigns member))
  · rintro rfl
    exact same

/-- A name is empty exactly if nothing is written but blanks, and a pair of braces at most. -/
theorem unwrap_eq_nil_iff (written : String) : unwrap written = [] ↔
    Text.trim written = "" ∨ Text.trim written = "\x7b\x7d" := by
  have blank : Text.lower (Text.trim written) = "" ↔ Text.trim written = "" :=
    lower_eq_iff_of_signs (by decide) rfl
  have braces : Text.lower (Text.trim written) = "\x7b\x7d" ↔ Text.trim written = "\x7b\x7d" :=
    lower_eq_iff_of_signs (by decide) (by decide +kernel)
  rw [← blank, ← braces, ← String.toList_inj, ← String.toList_inj]
  unfold unwrap
  dsimp only
  generalize (Text.lower (Text.trim written)).toList = lowered
  cases inner : Text.between? '\x7b' '\x7d' lowered with
  | none =>
    have open_ : lowered ≠ ['\x7b', '\x7d'] := by
      rintro rfl
      cases inner
    simp [open_]
  | some chars =>
    rw [Text.between?_eq_some.mp inner]
    simp

/-- A text in lower case without signs is read as it is, but for the blanks at its ends. -/
theorem read_of_unsigned (tidy : classes.Tidy) {name : String} (unsigned : Unsigned name.toList)
    (settled : ∀ c ∈ name.toList, Text.IsLower c) (line : Nat) :
    read classes name line = .ok (Text.trim name) := by
  have among : ∀ c ∈ (Text.trim name).toList, c ∈ name.toList := by
    rw [Text.toList_trim]
    exact (Text.trimChars_sublist _).subset
  have own : unwrap name = (Text.trim name).toList := by
    have open_ : Text.between? '\x7b' '\x7d' (Text.trim name).toList = none := by
      refine Option.eq_none_iff_forall_ne_some.mpr fun inner closes => ?_
      have brace : '\x7b' ∈ (Text.trim name).toList := by
        rw [Text.between?_eq_some.mp closes]
        exact List.mem_cons_self
      exact unsigned _ (among _ brace) (by decide)
    unfold unwrap
    dsimp only
    rw [Text.lower_eq_self fun c member => settled c (among c member), open_, Option.getD_none]
  have reads : Reads classes (unwrap name) ((Text.trim name).toList.map .char) :=
    own.symm ▸ .rest fun c member => unsigned c (among c member)
  exact (read_eq_ok_iff tidy).mpr ⟨_, reads, (flatMap_char _).symm⟩

/-- What is stored for a text that has been read as a name. -/
structure Settles (written name : String) : Prop where
  /-- The code names of their classes stand in the place of the types between successive percent
  signs, and nothing else has changed. -/
  places : ∃ template, Reads .standard (unwrap written) template ∧
    name.toList = template.flatMap Part.stored
  unsigned : ∀ sign ∈ signs, sign ∉ name.toList
  /-- The name is empty only if nothing was written but blanks, or a pair of braces. -/
  empty : name = "" ↔ Text.trim written = "" ∨ Text.trim written = "\x7b\x7d"
  /-- Reading the name again succeeds, and takes the blanks at its ends away. -/
  again : ∀ line, read .standard name line = .ok (Text.trim name)
  /-- So it leaves the name as it is exactly if it has none. -/
  settled : (∀ line, read .standard name line = .ok name) ↔ Text.trim name = name

/-- **Names of default variables.** A text is read as a name exactly if its percent signs enclose
types that are known and it has no other signs. The name has no signs, and is empty only if nothing
is written in it. Reading it again always succeeds, and changes it exactly if there are blanks at
its ends, as the braces of a name may leave there. -/
theorem read_settles (written : String) (line : Nat) :
    match read .standard written line with
    | .ok name => Settles written name
    | .error _ => ∀ template, ¬ Reads .standard (unwrap written) template := by
  have tidy := ClassRegistry.standard_tidy
  cases found : read .standard written line with
  | error failure =>
    intro template reads
    have succeeds : read .standard written line = .ok _ :=
      (read_eq_ok_iff tidy).mpr ⟨template, reads, String.toList_ofList⟩
    cases succeeds.symm.trans found
  | ok name =>
    obtain ⟨template, reads, stored⟩ := (read_eq_ok_iff tidy).mp found
    have unsigned : Unsigned name.toList := stored ▸ reads.unsigned tidy
    have again := read_of_unsigned tidy unsigned
      (stored ▸ isLower_stored (reads.parts_tidy tidy fun c member => unwrap_lower member))
    refine ⟨⟨template, reads, stored⟩, fun sign isSign member => unsigned sign member isSign, ?_,
      again, ?_⟩
    · rw [← unwrap_eq_nil_iff, ← reads.stored_eq_nil_iff, ← stored, ← String.toList_inj]
      exact Iff.rfl
    · simp only [again, Except.ok.injEq, forall_const]

/-- The blanks inside the braces of a name are lost when the stored name is read again, and a pair
of braces is read as an empty name. -/
theorem braces_keep_blanks :
    read .standard "\x7b a \x7d" 1 = .ok " a " ∧ read .standard " a " 1 = .ok "a" ∧
      read .standard "\x7b\x7d" 1 = .ok "" := by
  decide +kernel

end DefaultName

end ScriptBinding

import ScriptBinding.Item.Arguments
import ScriptBinding.Proofs.ArgumentBinding
import ScriptBinding.Proofs.ClassNames
import ScriptBinding.Proofs.HeaderPriorities

/-! # Writing signatures

A signature is written with its parameters between commas, and is read again as it was, unless a
default has a comma or a line feed in it. The arguments of a call are taken apart with regard to
quotes and parentheses, but the parameters of a signature are not.
-/

namespace ScriptBinding

namespace Text

theorem dropWhile_isBlank_cons {c : Char} (solid : isBlank c = false) (chars : List Char) :
    (c :: chars).dropWhile isBlank = c :: chars :=
  List.dropWhile_cons_of_neg (Bool.eq_false_iff.mp solid)

theorem cut?_of_not_mem {mark : Char} {chars : List Char} (absent : mark ∉ chars) :
    cut? [mark] chars = none := by
  induction chars with
  | nil => rfl
  | cons c others ih =>
    obtain ⟨other, later⟩ := List.ne_and_not_mem_of_not_mem_cons absent
    simp only [cut?, afterLead?, if_neg other, ih later, Option.map_none]

end Text

namespace Signature

open Text (isBlank isWord trimChars)

/-! ## Names -/

/-- The name at the start of a text, and words behind it. -/
def IsName (starts : Char → Bool) (chars : List Char) : Prop :=
  ∃ first others, chars = first :: others ∧ starts first = true ∧
    ∀ c ∈ others, isWord c = true

/-- No blank starts a name. -/
theorem startsName_of_isBlank {c : Char} (blank : isBlank c = true) :
    startsName c = false ∧ startsFunctionName c = false := by
  have all : ∀ point ∈ Text.blankPoints, startsName (Char.ofNat point) = false ∧
      startsFunctionName (Char.ofNat point) = false := by
    decide +kernel
  have own := all _ (Text.mem_blankPoints blank)
  rwa [Char.ofNat_toNat] at own

theorem readName?_append {starts : Char → Bool} {name : List Char} (isName : IsName starts name)
    {sign : Char} (ends : isWord sign = false) (rest : List Char) :
    readName? starts (name ++ sign :: rest) = some (name, sign :: rest) := by
  obtain ⟨first, others, rfl, starting, words⟩ := isName
  have other : ¬ isWord sign = true := Bool.eq_false_iff.mp ends
  rw [List.cons_append, readName?, if_pos starting, List.takeWhile_append_of_pos words,
    List.dropWhile_append_of_pos words, List.takeWhile_cons_of_neg other,
    List.dropWhile_cons_of_neg other, List.append_nil]

/-! ## What is written -/

/-- A parameter as it is written. -/
structure WrittenParameter where
  name : String
  type : String
  default : Option String

/-- A signature as it is written. -/
structure Written where
  name : String
  parameters : List WrittenParameter
  returnType : Option String

/-- The name, the type and perhaps the default, between signs and single spaces. -/
def WrittenParameter.chars (parameter : WrittenParameter) : List Char :=
  parameter.name.toList ++ ':' :: ' ' :: parameter.type.toList ++
    (parameter.default.map fun default => ' ' :: '=' :: ' ' :: default.toList).getD []

namespace Written

/-- The parameters, between commas and single spaces. -/
def inside (written : Written) : List Char :=
  List.intercalate [',', ' '] (written.parameters.map (·.chars))

/-- The return type, behind its mark. -/
def ending (written : Written) : List Char :=
  (written.returnType.map fun type => ' ' :: ':' :: ':' :: ' ' :: type.toList).getD []

/-- The text of a signature. -/
def render (written : Written) : String :=
  String.ofList (written.name.toList ++ '(' :: (written.inside ++ ')' :: written.ending))

end Written

/-! ### What fits -/

/-- The text is recognised as a class, and there are no blanks around it. -/
structure IsType (classes : ClassRegistry) (written : String) : Prop where
  recognised : (classes.ofUserInput? written).isSome = true
  trimmed : trimChars written.toList = written.toList

/-- A parameter has a name and a known type, and its default is a single argument of a call. -/
structure WrittenParameter.Fits (classes : ClassRegistry) (parameter : WrittenParameter) :
    Prop where
  name : IsName startsName parameter.name.toList
  type : IsType classes parameter.type
  default : ∀ text, parameter.default = some text → Arguments.split text.toList = [text.toList]

/-- A signature has a name, parameters of different names, and perhaps a known return type. -/
structure Written.Fits (classes : ClassRegistry) (written : Written) : Prop where
  name : IsName startsFunctionName written.name.toList
  differ : written.parameters.Pairwise fun earlier later =>
    Text.equalIgnoringAsciiCase earlier.name later.name = false
  parameters : ∀ parameter ∈ written.parameters, parameter.Fits classes
  returnType : ∀ type, written.returnType = some type → IsType classes type

/-- The code name of the class that a text is recognised as. -/
def codeName (classes : ClassRegistry) (written : String) : String :=
  ((classes.ofUserInput? written).map (·.codeName)).getD written

/-- The signature that is meant. -/
def Written.signature (classes : ClassRegistry) (script : Script) (line : Nat) (written : Written) :
    Signature where
  script
  name := written.name
  parameters := written.parameters.map fun parameter =>
    ⟨parameter.name, codeName classes parameter.type, parameter.default⟩
  returnType := written.returnType.map (codeName classes)
  line

/-- No default has one of the characters in it that end a parameter or a line. -/
def Written.Separable (written : Written) : Prop :=
  ∀ parameter ∈ written.parameters, ∀ text, parameter.default = some text →
    ',' ∉ text.toList ∧ '\n' ∉ text.toList

/-! ## Reading what is written -/

variable {classes : ClassRegistry} {line : Nat}

theorem typeNamed_of_isType {type : String} (isType : IsType classes type) :
    typeNamed classes line type = .ok (codeName classes type) := by
  obtain ⟨info, found⟩ := Option.isSome_iff_exists.mp isType.recognised
  rw [typeNamed, codeName, found]
  rfl

theorem plain_of_isType {type : String} (plain : classes.Plain) (isType : IsType classes type) :
    PlainType type.toList := by
  obtain ⟨info, found⟩ := Option.isSome_iff_exists.mp isType.recognised
  have search : classes.classes.find? (·.accepts type) = some info := found
  have accepts : info.accepts type = true :=
    List.find?_some (p := (ClassInfo.accepts · type)) search
  exact isType.trimmed ▸ plain info (List.mem_of_find?_eq_some search) type accepts

/-- A single argument is not empty, and there are no blanks around it. -/
theorem trimmed_of_split {chars : List Char} (single : Arguments.split chars = [chars]) :
    chars ≠ [] ∧ trimChars chars = chars := by
  unfold Arguments.split at single
  dsimp only at single
  split at single
  · cases single
  · next some =>
    obtain ⟨piece, -, same⟩ :=
      List.mem_map.mp (single ▸ List.mem_singleton_self chars :
        chars ∈ (Arguments.pieces false 0 chars).map trimChars)
    refine ⟨?_, ?_⟩
    · rintro rfl
      exact some single
    · rw [← same]
      exact Text.trimChars_trimChars piece

/-! ### Parameters -/

theorem cutDefault_of_type {type : List Char} (plain : PlainType type) :
    cutDefault type = (type, none) := by
  obtain ⟨nonempty, spared⟩ := plain
  cases type with
  | nil => exact absurd rfl nonempty
  | cons first others =>
    have absent : '=' ∉ others := fun member =>
      spared '=' (by decide) (List.mem_cons_of_mem first member)
    rw [cutDefault, Text.cut?_of_not_mem absent]

theorem cutDefault_append {type : List Char} (plain : PlainType type)
    (trimmed : trimChars type = type) (default : List Char) :
    cutDefault (type ++ ' ' :: '=' :: ' ' :: default) = (type, some (trimChars default)) := by
  obtain ⟨nonempty, spared⟩ := plain
  cases type with
  | nil => exact absurd rfl nonempty
  | cons first others =>
    have absent : '=' ∉ others ++ [' '] := by
      rw [List.mem_append, List.mem_singleton, not_or]
      exact ⟨fun member => spared '=' (by decide) (List.mem_cons_of_mem first member), by decide⟩
    have cut := Text.cut?_append absent (' ' :: default)
    rw [List.append_assoc, List.singleton_append] at cut
    rw [List.cons_append, cutDefault, cut]
    have blank : ∀ c ∈ [' '], isBlank c = true := List.forall_mem_singleton.mpr rfl
    have ends := Text.trimEndChars_append_of_blank blank (first :: others)
    have solid := Text.trimEndChars_eq_self_iff.mpr (Text.trimChars_eq_self_iff.mp trimmed).2
    have starts := Text.trimChars_append_of_blank blank default
    exact congrArg₂ (fun type value => (type, some value)) (ends.trans solid) starts

theorem readParameter?_chars {parameter : WrittenParameter} (plain : classes.Plain)
    (fits : parameter.Fits classes) :
    readParameter? parameter.chars = some (parameter.name.toList, parameter.type.toList,
      parameter.default.map String.toList) := by
  have typePlain := plain_of_isType plain fits.type
  obtain ⟨first, others, written⟩ := List.exists_cons_of_ne_nil typePlain.1
  have solid : isBlank first = false :=
    (Text.trimChars_eq_self_iff.mp fits.type.trimmed).1 first (by rw [written]; rfl)
  have noWord : isWord ':' = false := by decide +kernel
  have noBlank : isBlank ':' = false := by decide
  have space : isBlank ' ' = true := by decide
  rw [WrittenParameter.chars, List.append_assoc, List.cons_append, readParameter?,
    readName?_append fits.name noWord]
  simp only [Text.dropWhile_isBlank_cons noBlank, List.cons_append,
    List.dropWhile_cons_of_pos space, written, Text.dropWhile_isBlank_cons solid]
  rw [← List.cons_append, ← written]
  cases given : parameter.default with
  | none =>
    rw [Option.map_none, Option.map_none, Option.getD_none, List.append_nil,
      cutDefault_of_type typePlain]
  | some default =>
    rw [Option.map_some, Option.map_some, Option.getD_some,
      cutDefault_append typePlain fits.type.trimmed,
      (trimmed_of_split (fits.default default given)).2]

/-- A text that starts with a name and ends with a trimmed text has no blanks around it. -/
theorem trimmed_of_name {starts : Char → Bool} {name ending : List Char}
    (solid : ∀ c, isBlank c = true → starts c = false) (isName : IsName starts name)
    (between : List Char) (nonempty : ending ≠ []) (trimmed : trimChars ending = ending) :
    trimChars (name ++ (between ++ ending)) = name ++ (between ++ ending) := by
  refine Text.trimChars_eq_self_iff.mpr ⟨?_, ?_⟩
  · obtain ⟨first, others, rfl, starting, -⟩ := isName
    intro c isFirst
    obtain rfl := Option.some.inj isFirst
    refine Bool.eq_false_iff.mpr fun blank => ?_
    rw [solid first blank] at starting
    cases starting
  · have last := List.getLast?_isSome.mpr nonempty
    rw [← List.append_assoc, List.getLast?_append, Option.or_of_isSome last]
    exact (Text.trimChars_eq_self_iff.mp trimmed).2

theorem not_mem_name {starts : Char → Bool} {name : List Char} {c : Char}
    (isName : IsName starts name) (noStart : starts c = false) (noWord : isWord c = false) :
    c ∉ name := by
  obtain ⟨first, others, rfl, starting, words⟩ := isName
  refine List.not_mem_cons_of_ne_of_not_mem ?_ fun member => ?_
  · rintro rfl
    rw [noStart] at starting
    cases starting
  · have own := words c member
    rw [noWord] at own
    cases own

/-- The text of a parameter has a character in it that its default has, one of its own signs, or one
of those that neither names nor types have. -/
theorem not_mem_chars {parameter : WrittenParameter} {c : Char} (sign : c ∈ signs)
    (plain : classes.Plain) (fits : parameter.Fits classes)
    (own : c ≠ '=')
    (absent : ∀ text, parameter.default = some text → c ∉ text.toList) : c ∉ parameter.chars := by
  have all : (signs.all fun c => decide
      (startsName c = false ∧ isWord c = false ∧ c ≠ ':' ∧ c ≠ ' ')) = true := by
    decide +kernel
  obtain ⟨noStart, noWord, noColon, noSpace⟩ := of_decide_eq_true (List.all_eq_true.mp all c sign)
  have noName := not_mem_name fits.name noStart noWord
  have noType := (plain_of_isType plain fits.type).2 c sign
  have noDefault :
      c ∉ (parameter.default.map fun default => ' ' :: '=' :: ' ' :: default.toList).getD [] := by
    cases given : parameter.default with
    | none => exact List.not_mem_nil
    | some default => simp [noSpace, own, absent default given]
  simp [WrittenParameter.chars, noName, noColon, noSpace, noType, noDefault]

theorem trimChars_chars {parameter : WrittenParameter} (plain : classes.Plain)
    (fits : parameter.Fits classes) :
    trimChars parameter.chars = parameter.chars ∧ parameter.chars ≠ [] := by
  have solid : ∀ c, isBlank c = true → startsName c = false :=
    fun c blank => (startsName_of_isBlank blank).1
  refine ⟨?_, by simp [WrittenParameter.chars]⟩
  rw [WrittenParameter.chars]
  cases given : parameter.default with
  | none =>
    rw [Option.map_none, Option.getD_none, List.append_nil]
    exact trimmed_of_name solid fits.name [':', ' '] (plain_of_isType plain fits.type).1
      fits.type.trimmed
  | some default =>
    obtain ⟨nonempty, trimmed⟩ := trimmed_of_split (fits.default default given)
    have whole := trimmed_of_name solid fits.name
      (':' :: ' ' :: (parameter.type.toList ++ [' ', '=', ' '])) nonempty trimmed
    simpa using whole

/-! ### Lists of parameters -/

/-- The pieces between commas, without the blanks around them, are those that were put together. -/
theorem pieces_intercalate {texts : List (List Char)} (some : texts ≠ [])
    (apart : ∀ text ∈ texts, ',' ∉ text) (lead : List Char)
    (blank : ∀ c ∈ lead, isBlank c = true) :
    (Text.pieces ',' (lead ++ List.intercalate [',', ' '] texts)).map trimChars =
      texts.map trimChars := by
  have noLead : ',' ∉ lead := fun member => absurd (blank ',' member) (by decide)
  induction texts generalizing lead with
  | nil => exact absurd rfl some
  | cons first others ih =>
    obtain ⟨own, later⟩ := List.forall_mem_cons.mp apart
    have absent : ',' ∉ lead ++ first := fun member =>
      (List.mem_append.mp member).elim noLead own
    have start := Text.trimChars_append_of_blank blank first
    cases others with
    | nil =>
      rw [List.intercalate_singleton, Text.pieces_of_not_mem absent]
      exact congrArg (fun text => [text]) start
    | cons second rest =>
      have behind := ih (List.cons_ne_nil _ _) later [' '] (List.forall_mem_singleton.mpr rfl)
        (by decide)
      have whole : lead ++ List.intercalate [',', ' '] (first :: second :: rest) =
          lead ++ first ++ ',' :: ([' '] ++ List.intercalate [',', ' '] (second :: rest)) := by
        simp [List.intercalate_cons_cons]
      rw [whole, Text.pieces_append absent, List.map_cons, behind, start]
      rfl

theorem not_mem_intercalate {c : Char} {between : List Char} {texts : List (List Char)}
    (noBetween : c ∉ between) (absent : ∀ text ∈ texts, c ∉ text) :
    c ∉ List.intercalate between texts := by
  induction texts with
  | nil => exact List.not_mem_nil
  | cons first others ih =>
    obtain ⟨own, later⟩ := List.forall_mem_cons.mp absent
    cases others with
    | nil =>
      rw [List.intercalate_singleton]
      exact own
    | cons second rest =>
      rw [List.intercalate_cons_cons]
      simp only [List.mem_append, not_or]
      exact ⟨⟨own, noBetween⟩, ih later⟩

/-- The text in which parameters are written is taken apart into them. -/
theorem parameterTexts_inside {written : Written} (plain : classes.Plain)
    (fits : written.Fits classes) (separable : written.Separable) :
    parameterTexts written.inside =
      written.parameters.map fun parameter => String.ofList parameter.chars := by
  have own := fun parameter member => trimChars_chars plain (fits.parameters parameter member)
  have trimmed : (written.parameters.map (·.chars)).map trimChars =
      written.parameters.map (·.chars) := by
    rw [List.map_map]
    exact List.map_congr_left fun parameter member => (own parameter member).1
  have apart : ∀ text ∈ written.parameters.map (·.chars), ',' ∉ text := by
    refine List.forall_mem_map.mpr fun parameter member => ?_
    exact not_mem_chars (by decide) plain (fits.parameters parameter member) (by decide)
      fun text given => (separable parameter member text given).1
  have nonempty : ∀ text ∈ written.parameters.map (·.chars), (!text.isEmpty) = true := by
    refine List.forall_mem_map.mpr fun parameter member => ?_
    simpa using (own parameter member).2
  rw [parameterTexts, Written.inside]
  by_cases none : written.parameters = []
  · rw [none]
    rfl
  · have some : written.parameters.map (·.chars) ≠ [] := mt List.map_eq_nil_iff.mp none
    have taken := pieces_intercalate some apart [] (fun _ absent => absurd absent List.not_mem_nil)
    rw [List.nil_append] at taken
    rw [taken, trimmed, List.filter_eq_self.mpr nonempty, List.map_map]
    rfl

/-! ### The parts of a signature -/

theorem readParameters?_of_not_mem {chars : List Char} (absent : ')' ∉ chars) :
    readParameters? chars = none := by
  induction chars with
  | nil => rfl
  | cons c others ih =>
    obtain ⟨other, later⟩ := List.ne_and_not_mem_of_not_mem_cons absent
    rw [readParameters?, ih later]
    simp [Ne.symm other]

/-- The parenthesis that closes the parameters is the last one there is. -/
theorem readParameters?_append {inside ending : List Char} {returned : Option (List Char)}
    (oneLine : '\n' ∉ inside) (last : ')' ∉ ending) (read : readReturn? ending = some returned) :
    readParameters? (inside ++ ')' :: ending) = some (inside, returned) := by
  induction inside with
  | nil => simp [readParameters?, readParameters?_of_not_mem last, read]
  | cons c others ih =>
    obtain ⟨other, later⟩ := List.ne_and_not_mem_of_not_mem_cons oneLine
    simp [readParameters?, ih later, Ne.symm other]

theorem readReturn?_ending {written : Written} (plain : classes.Plain)
    (fits : written.Fits classes) :
    readReturn? written.ending = some (written.returnType.map String.toList) ∧
      ')' ∉ written.ending := by
  unfold Written.ending
  cases given : written.returnType with
  | none => exact ⟨rfl, List.not_mem_nil⟩
  | some type =>
    have isType := fits.returnType type given
    obtain ⟨nonempty, spared⟩ := plain_of_isType plain isType
    have space : ∀ c ∈ [' '], isBlank c = true := List.forall_mem_singleton.mpr rfl
    have oneLine := spared '\n' (by decide)
    have trimmed : trimChars (' ' :: type.toList) = type.toList :=
      (Text.trimChars_append_of_blank space type.toList).trans isType.trimmed
    have read :
        readReturn? (' ' :: ':' :: ':' :: ' ' :: type.toList) = some (some type.toList) := by
      have colon : (' ' :: ':' :: ':' :: ' ' :: type.toList).dropWhile isBlank =
          ':' :: ':' :: ' ' :: type.toList := rfl
      simp [readReturn?, colon, afterReturns?, trimmed, nonempty, oneLine]
    exact ⟨read, by simp [spared ')' (by decide)]⟩

theorem trimChars_render {written : Written} (plain : classes.Plain)
    (fits : written.Fits classes) : trimChars written.render.toList = written.render.toList := by
  have solid : ∀ c, isBlank c = true → startsFunctionName c = false :=
    fun c blank => (startsName_of_isBlank blank).2
  rw [Written.render, String.toList_ofList, Written.ending]
  cases given : written.returnType with
  | none =>
    exact trimmed_of_name solid fits.name ('(' :: written.inside) (List.cons_ne_nil ')' [])
      (by decide)
  | some type =>
    have isType := fits.returnType type given
    have whole := trimmed_of_name solid fits.name
      ('(' :: (written.inside ++ [')', ' ', ':', ':', ' '])) (plain_of_isType plain isType).1
      isType.trimmed
    simpa using whole

theorem readParts?_render {written : Written} (plain : classes.Plain)
    (fits : written.Fits classes) (separable : written.Separable) :
    readParts? written.render.toList =
      some (written.name.toList, written.inside, written.returnType.map String.toList) := by
  have noWord : isWord '(' = false := by decide +kernel
  have noBlank : isBlank '(' = false := by decide
  have oneLine : '\n' ∉ written.inside := by
    refine not_mem_intercalate (by decide) (List.forall_mem_map.mpr fun parameter member => ?_)
    exact not_mem_chars (by decide) plain (fits.parameters parameter member) (by decide)
      fun text given => (separable parameter member text given).2
  obtain ⟨returned, last⟩ := readReturn?_ending plain fits
  rw [readParts?, trimChars_render plain fits, Written.render, String.toList_ofList,
    readName?_append fits.name noWord]
  simp only [Text.dropWhile_isBlank_cons noBlank, readParameters?_append oneLine last returned,
    Option.map_some]

/-! ### Whole signatures -/

theorem addParameter_chars {function : String} {before : List Parameter}
    {parameter : WrittenParameter} (plain : classes.Plain) (fits : parameter.Fits classes)
    (fresh : ∀ earlier ∈ before,
      Text.equalIgnoringAsciiCase earlier.name parameter.name = false) :
    addParameter classes line function before (String.ofList parameter.chars) =
      .ok ⟨parameter.name, codeName classes parameter.type, parameter.default⟩ := by
  have noOther : (before.any fun earlier =>
      Text.equalIgnoringAsciiCase earlier.name parameter.name) = false :=
    List.any_eq_false.mpr fun earlier member => Bool.eq_false_iff.mp (fresh earlier member)
  have default : (parameter.default.map String.toList).map String.ofList = parameter.default := by
    cases parameter.default <;> simp
  simp only [addParameter, String.toList_ofList, readParameter?_chars plain fits,
    String.ofList_toList, noOther, Bool.false_eq_true, ↓reduceIte, typeNamed_of_isType fits.type,
    default]

theorem addParameters_chars {function : String} {before : List Parameter}
    {parameters : List WrittenParameter} (plain : classes.Plain)
    (fits : ∀ parameter ∈ parameters, parameter.Fits classes)
    (differ : parameters.Pairwise fun earlier later =>
      Text.equalIgnoringAsciiCase earlier.name later.name = false)
    (fresh : ∀ earlier ∈ before, ∀ parameter ∈ parameters,
      Text.equalIgnoringAsciiCase earlier.name parameter.name = false) :
    addParameters classes line function before
        (parameters.map fun parameter => String.ofList parameter.chars) =
      .ok (before ++ parameters.map fun parameter =>
        ⟨parameter.name, codeName classes parameter.type, parameter.default⟩) := by
  induction parameters generalizing before with
  | nil => rw [List.map_nil, List.map_nil, List.append_nil, addParameters]
  | cons first others ih =>
    obtain ⟨own, later⟩ := List.forall_mem_cons.mp fits
    obtain ⟨apart, rest⟩ := List.pairwise_cons.mp differ
    have added : addParameter classes line function before (String.ofList first.chars) =
        .ok ⟨first.name, codeName classes first.type, first.default⟩ :=
      addParameter_chars plain own fun earlier member =>
        fresh earlier member first List.mem_cons_self
    rw [List.map_cons, addParameters, added]
    dsimp only
    rw [ih later rest, List.map_cons, List.append_assoc, List.singleton_append]
    intro earlier member parameter among
    rcases List.mem_append.mp member with old | new
    · exact fresh earlier old parameter (List.mem_cons_of_mem _ among)
    · rw [List.mem_singleton.mp new]
      exact apart parameter among

/-- What is written is read as it was meant. -/
theorem read_render {written : Written} (plain : classes.Plain) (fits : written.Fits classes)
    (separable : written.Separable) (script : Script) (line : Nat) :
    Signature.read classes script written.render line =
      .ok (written.signature classes script line) := by
  have parameters : addParameters classes line written.name []
      (parameterTexts written.inside) = .ok (written.signature classes script line).parameters := by
    rw [parameterTexts_inside plain fits separable]
    exact addParameters_chars plain fits.parameters fits.differ
      fun _ absent => absurd absent List.not_mem_nil
  have returned : readType classes line (written.returnType.map String.toList) =
      .ok (written.returnType.map (codeName classes)) := by
    cases given : written.returnType with
    | none => rfl
    | some type =>
      simp only [Option.map_some, readType, String.ofList_toList,
        typeNamed_of_isType (fits.returnType type given), Except.map]
  simp only [Signature.read, readParts?_render plain fits separable, String.ofList_toList,
    parameters, returned]
  rfl

/-! ## Defaults that are read -/

/-- The parameters of a signature are written on one line. -/
theorem oneLine_of_readParameters? {chars inside : List Char} {returned : Option (List Char)}
    (read : readParameters? chars = some (inside, returned)) : '\n' ∉ inside := by
  induction chars generalizing inside returned with
  | nil => cases read
  | cons c others ih =>
    unfold readParameters? at read
    dsimp only at read
    rcases Option.or_eq_some_iff.mp read with further | ⟨-, here⟩
    · split at further
      · cases further
      · next other =>
        obtain ⟨⟨found, after⟩, inner, same⟩ := Option.map_eq_some_iff.mp further
        cases same
        exact List.not_mem_cons_of_ne_of_not_mem (Ne.symm other) (ih inner)
    · split at here
      · obtain ⟨type, -, same⟩ := Option.map_eq_some_iff.mp here
        cases same
        exact List.not_mem_nil
      · cases here

theorem cutDefault_subset {chars type default : List Char}
    (cut : cutDefault chars = (type, some default)) : default ⊆ chars := by
  cases chars with
  | nil => cases cut
  | cons first others =>
    rw [cutDefault] at cut
    split at cut
    · next before value found =>
      split at cut
      · cases cut
      · cases cut
        have part : value ⊆ others := by
          rw [Text.eq_of_cut? found]
          exact List.subset_append_right _ value
        exact fun c member =>
          List.mem_cons_of_mem _ (part ((Text.trimChars_sublist value).subset member))
    · cases cut

/-- The default of a parameter is a part of its text. -/
theorem default_subset {chars name type default : List Char}
    (read : readParameter? chars = some (name, type, some default)) : default ⊆ chars := by
  unfold readParameter? at read
  split at read
  · cases read
  · next rest found =>
    have behind : rest ⊆ chars := by
      cases chars with
      | nil => cases found
      | cons first others =>
        rw [readName?] at found
        split at found
        · cases found
          exact List.subset_cons_of_subset first (List.dropWhile_suffix isWord).subset
        · cases found
    split at read
    · next written colon =>
      have inner : written ⊆ chars := fun c member =>
        behind ((List.dropWhile_suffix isBlank).subset (colon ▸ List.mem_cons_of_mem _ member))
      split at read
      · cases read
      · simp only [Option.some.injEq, Prod.mk.injEq] at read
        have part := cutDefault_subset read.2
        exact fun c member => inner ((List.dropWhile_suffix isBlank).subset (part member))
    · cases read

theorem default_of_addParameter {function : String} {before : List Parameter} {written : String}
    {parameter : Parameter} {default : String}
    (added : addParameter classes line function before written = .ok parameter)
    (given : parameter.default = some default) : default.toList ⊆ written.toList := by
  unfold addParameter at added
  split at added
  · cases added
  · next name type value read =>
    dsimp only at added
    split at added
    · cases added
    · split at added
      · cases added
      · cases added
        obtain ⟨chars, rfl, rfl⟩ := Option.map_eq_some_iff.mp given
        rw [String.toList_ofList]
        exact default_subset read

theorem default_of_addParameters {function : String} {before after : List Parameter}
    {texts : List String} (added : addParameters classes line function before texts = .ok after) :
    ∀ parameter ∈ after, parameter ∈ before ∨
      ∃ text ∈ texts, ∀ default, parameter.default = some default →
        default.toList ⊆ text.toList := by
  induction texts generalizing before with
  | nil =>
    cases added
    exact fun parameter member => Or.inl member
  | cons written others ih =>
    unfold addParameters at added
    split at added
    · cases added
    · next one first =>
      intro parameter member
      rcases ih added parameter member with old | ⟨text, among, within⟩
      · rcases List.mem_append.mp old with old | new
        · exact Or.inl old
        · obtain rfl := List.mem_singleton.mp new
          exact Or.inr ⟨written, List.mem_cons_self, fun _ given =>
            default_of_addParameter first given⟩
      · exact Or.inr ⟨text, List.mem_cons_of_mem _ among, within⟩

theorem mem_parameterTexts {inside : List Char} {text : String}
    (member : text ∈ parameterTexts inside) : ',' ∉ text.toList ∧ text.toList ⊆ inside := by
  obtain ⟨chars, kept, rfl⟩ := List.mem_map.mp member
  obtain ⟨piece, part, rfl⟩ := List.mem_map.mp (List.mem_filter.mp kept).1
  obtain ⟨absent, within⟩ := Text.mem_pieces part
  rw [String.toList_ofList]
  have trimmed := (Text.trimChars_sublist piece).subset
  exact ⟨fun comma => absent (trimmed comma), fun c own => within (trimmed own)⟩

theorem oneLine_of_readParts? {chars name inside : List Char} {returned : Option (List Char)}
    (read : readParts? chars = some (name, inside, returned)) : '\n' ∉ inside := by
  unfold readParts? at read
  split at read
  · cases read
  · split at read
    · obtain ⟨⟨found, type⟩, parameters, same⟩ := Option.map_eq_some_iff.mp read
      cases same
      exact oneLine_of_readParameters? parameters
    · cases read

/-- No default that is read has a comma or a line feed in it. -/
theorem read_separable {script : Script} {text : String} {signature : Signature}
    (read : Signature.read classes script text line = .ok signature) :
    ∀ parameter ∈ signature.parameters, ∀ default, parameter.default = some default →
      ',' ∉ default.toList ∧ '\n' ∉ default.toList := by
  unfold Signature.read at read
  split at read
  · cases read
  · next name inside returned parts =>
    dsimp only at read
    split at read
    · cases read
    · next parameters added =>
      split at read
      · cases read
      · cases read
        intro parameter member default given
        rcases default_of_addParameters added parameter member with absent | ⟨text, among, within⟩
        · exact absurd absent List.not_mem_nil
        · obtain ⟨noComma, part⟩ := mem_parameterTexts among
          exact ⟨fun comma => noComma (within default given comma),
            fun feed => oneLine_of_readParts? parts (part (within default given feed))⟩

/-- **Signatures are read as they are written** where their defaults have neither commas nor line
feeds in them, and only there. -/
theorem read_render_iff {written : Written} (plain : classes.Plain) (fits : written.Fits classes)
    (script : Script) (line : Nat) :
    Signature.read classes script written.render line =
        .ok (written.signature classes script line) ↔ written.Separable := by
  refine ⟨fun read parameter member text given => ?_, fun separable =>
    read_render plain fits separable script line⟩
  exact read_separable read ⟨parameter.name, codeName classes parameter.type, parameter.default⟩
    (List.mem_map_of_mem member) text given

theorem isName_letter {starts : Char → Bool} {c : Char} (starting : starts c = true) :
    IsName starts [c] :=
  ⟨c, [], rfl, starting, fun _ absent => absurd absent List.not_mem_nil⟩

theorem isType_boolean : IsType .standard "boolean" :=
  ⟨by decide +kernel, by decide⟩

/-- A signature with a default in parentheses. -/
def flipped : Written :=
  ⟨"f", [⟨"v", "boolean", some "not(on)"⟩], some "boolean"⟩

/-- It is read as it is written. -/
theorem flipped_reads : flipped.render = "f(v: boolean = not(on)) :: boolean" ∧
    ClassRegistry.standard.Plain ∧ flipped.Fits .standard ∧ flipped.Separable ∧
      Signature.read .standard ⟨⟨"a.sk"⟩, 1⟩ flipped.render 1 =
        .ok (flipped.signature .standard ⟨⟨"a.sk"⟩, 1⟩ 1) := by
  have fits : flipped.Fits .standard :=
    { name := isName_letter (by decide)
      differ := List.pairwise_singleton _ _
      parameters := List.forall_mem_singleton.mpr
        { name := isName_letter (by decide)
          type := isType_boolean
          default := by
            rintro text ⟨⟩
            decide }
      returnType := by
        rintro type ⟨⟩
        exact isType_boolean }
  have separable : flipped.Separable := by
    refine List.forall_mem_singleton.mpr ?_
    rintro text ⟨⟩
    decide
  exact ⟨by decide, ClassRegistry.standard_plain, fits, separable,
    (read_render_iff ClassRegistry.standard_plain fits _ _).mpr separable⟩

/-- A signature with a comma in the parentheses of its default. -/
def chosen : Written :=
  ⟨"f", [⟨"v", "boolean", some "any(on, off)"⟩], none⟩

/-- It is taken apart at the comma, and not read at all. -/
theorem chosen_fails : chosen.render = "f(v: boolean = any(on, off))" ∧
    chosen.Fits .standard ∧
      (Signature.read .standard ⟨⟨"a.sk"⟩, 1⟩ chosen.render 1).toOption = none := by
  have fits : chosen.Fits .standard :=
    { name := isName_letter (by decide)
      differ := List.pairwise_singleton _ _
      parameters := List.forall_mem_singleton.mpr
        { name := isName_letter (by decide)
          type := isType_boolean
          default := by
            rintro text ⟨⟩
            decide }
      returnType := by
        rintro type ⟨⟩ }
  exact ⟨by decide, fits, by decide +kernel⟩

end Signature

end ScriptBinding

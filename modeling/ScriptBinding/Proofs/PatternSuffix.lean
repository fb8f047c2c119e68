import ScriptBinding.Proofs.HeaderPriorities
import ScriptBinding.Proofs.MachineFronts
import ScriptBinding.Proofs.PatternExtension

/-! # Patterns with a priority behind them

The patterns of an event have an optional part for a priority at their end. Where that part takes
the name of a priority from the end of a header, the rest of the pattern has taken what it takes
when it is matched by itself against the header without the priority.
-/

namespace ScriptBinding

/-! ## Machines between the ends of a text -/

namespace Regex.Machine

variable {items middle : List Regex}

/-- The code for some expressions at the start of a text. -/
def leading (items : List Regex) : List Instruction :=
  (catAll (edge .textStart :: items)).reduced.code 0

/-- The machine for some expressions between the ends of a text. -/
def held (items : List Regex) : Machine :=
  ofReduced (catAll (edge .textStart :: items ++ [edge .textEnd])).reduced

theorem length_leading (items : List Regex) :
    (leading items).length = (catAll (edge .textStart :: items)).reduced.codeLength :=
  Reduced.length_code _ 0

theorem leading_append (items middle : List Regex) : leading (items ++ middle) =
    leading items ++ (catAll middle).reduced.code (leading items).length := by
  rw [leading, ← List.cons_append, code_catAll_append, length_leading, Nat.zero_add]
  rfl

theorem code_held (items : List Regex) : (held items).code =
    (leading items ++ ([Instruction.check .textEnd] ++ [Instruction.accept])).toArray := by
  rw [held, ofReduced, code_catAll_append, List.append_assoc]
  rfl

theorem code_held_append (items middle : List Regex) : (held (items ++ middle)).code =
    (leading items ++ ((catAll middle).reduced.code (leading items).length ++
      ([Instruction.check .textEnd] ++ [Instruction.accept]))).toArray := by
  rw [code_held, leading_append, List.append_assoc]

/-- Behind the code for the first expressions stands that for the others. -/
theorem has_held (items middle : List Regex) :
    Has (held (items ++ middle)).fetch (leading items).length
      ((catAll middle).reduced.code (leading items).length ++
        ([Instruction.check .textEnd] ++ [Instruction.accept])) := by
  have whole : Has (held (items ++ middle)).fetch 0 (leading items ++
      ((catAll middle).reduced.code (leading items).length ++
        ([Instruction.check .textEnd] ++ [Instruction.accept]))) := by
    intro index instruction there
    rw [fetch, code_held_append, List.getElem?_toArray, Nat.zero_add]
    exact there
  have behind := whole.right
  rwa [Nat.zero_add] at behind

theorem stays_leading {property : Event → Prop} (start : property (.at .textStart))
    (meets : ∀ item ∈ items, item.Meets property) :
    Stays property 0 (leading items).length 0 (leading items) := by
  have whole : (catAll (edge .textStart :: items)).Meets property :=
    (catAll_iff (Regex.Meets property) trivial (fun _ _ => Iff.rfl) _).mpr
      (List.forall_mem_cons.mpr ⟨start, meets⟩)
  have stays := stays_code whole.reduced 0
  rwa [Nat.zero_add, ← length_leading] at stays

theorem stays_textEnd (address : Nat) : Stays (fun _ => True) (address + 1) (address + 1) address
    [.check .textEnd] :=
  stays_one ⟨nofun, List.forall_mem_singleton.mpr ⟨le_rfl, le_rfl⟩, fun _ _ => trivial⟩

/-- The start of the text is asked for first. -/
theorem starts_held (items : List Regex) :
    (held items).code[0]? = some (.check .textStart) := by
  rw [code_held, List.getElem?_toArray, leading, code_catAll_cons]
  rfl

theorem begins_alone {property : Event → Prop} (start : property (.at .textStart))
    (meets : ∀ item ∈ items, item.Meets property) :
    Begins property (leading items) (held items) :=
  begins_of_code (code_held items) (stays_leading start meets) (stays_textEnd _)

theorem closes_held (items : List Regex) : Closes (held items) (leading items) where
  begins := begins_alone trivial fun _ _ => .of_all fun _ => trivial
  check := by
    rw [code_held, List.getElem?_toArray, List.getElem?_append_right le_rfl, Nat.sub_self]
    rfl

/-- A machine leaves its first expressions for good, if the code of the others leads on. -/
theorem begins_held {property : Event → Prop} {high : Nat} (start : property (.at .textStart))
    (meets : ∀ item ∈ items, item.Meets property)
    (behind : Stays (fun _ => True) ((leading items).length + 1) high (leading items).length
      ((catAll middle).reduced.code (leading items).length)) :
    Begins property (leading items) (held (items ++ middle)) := by
  have isCode := code_held_append items middle
  rw [← List.append_assoc _ [Instruction.check .textEnd]] at isCode
  have last := (stays_textEnd ((leading items).length + (catAll middle).reduced.codeLength)).widen
    (Nat.succ_le_succ (Nat.le_add_right (leading items).length _)) (Nat.le_max_right high _)
  rw [← Reduced.length_code _ (leading items).length] at last
  exact begins_of_code isCode (stays_leading start meets)
    ((behind.widen le_rfl (Nat.le_max_left _ _)).append last)

/-- What a machine gives from behind its first expressions are the marks of a trace of the others
that is met up to the end of the text. -/
theorem gives_held {kept : String → Bool} {property : String → Prop} {steps : Nat}
    {upTo rest : List Char} {marks : List Mark}
    (gives : Gives (held (items ++ middle)) steps (.between upTo rest)
      ⟨(leading items).length, []⟩ marks)
    (only : Only (Event.MarksOnly property) ((catAll middle).reduced.traces kept)) :
    ∃ trace ∈ (catAll middle).reduced.traces kept, charsOf trace = rest ∧
      marks.filter (kept ·.name) = (marksOf upTo.length trace).reverse := by
  obtain ⟨whole, ⟨steps, accepts⟩, passed, passes, same⟩ := gives.trace kept
  have has := has_held items middle
  obtain ⟨trace, member, _, _, _, onward, rfl⟩ :=
    (leadsBy_code _ _ has.left).splits _ _ accepts
  have last := has.right
  rw [Reduced.length_code] at last
  cases onward with
  | check here behind =>
    cases last.head.symm.trans here
    cases behind with
    | accept =>
      obtain ⟨isRest, isMarks⟩ := chars_of_passes (only trace member) passes
      refine ⟨trace, member, isRest, ?_⟩
      rw [same, isMarks, List.filter_nil, List.append_nil]
    | _ here => cases last.tail.head.symm.trans here
  | _ here => cases last.head.symm.trans here

end Regex.Machine

namespace EventStructure

open Piece Regex Machine

/-! ## The part for a priority -/

/-- The part for a priority at the end of the pattern of an event. -/
def priorityPiece : Piece :=
  .optional [.mk none prioritySuffix] false

/-- The name of a priority, within a line. -/
def namedRegex : Regex :=
  .repeated 1 none true (.oneOf .exceptLineFeed)

/-- The expressions for the words of a priority and its name, whose group has the given number. -/
def priorityItems (number : Nat) : List Regex :=
  blanksRegex :: ("with".toList.map literalRegex ++ blanksRegex ::
    ("priority".toList.map literalRegex ++
      [blanksRegex, .group (.named (Capture.raw.groupName number)) namedRegex]))

/-- The expression for the part for a priority. -/
@[irreducible]
def priorityRegex (number : Nat) : Regex :=
  .repeated 0 (some 1) true (.group .plain (.group .plain (catAll (priorityItems number))))

theorem regexOf?_prioritySuffix (number : Nat) :
    regexOf? number prioritySuffix = some (priorityItems number) := by
  have reads : Regex.read? flags ".+".toList = some namedRegex := by rfl
  have named : regexOf? number [.raw ".+".toList] =
      some [.group (.named (Capture.raw.groupName number)) namedRegex] := by
    rw [regexOf?, regex?, reads]
    rfl
  exact regexOf?_blanks
    (regexOf?_word _ (regexOf?_blanks (regexOf?_word _ (regexOf?_blanks named))))

theorem regexOf?_priorityPiece (number : Nat) :
    regexOf? number [priorityPiece] = some [priorityRegex number] := by
  have alternative : regexOfAlternative? number (.mk none prioritySuffix) =
      some (catAll (priorityItems number)) := by
    rw [regexOfAlternative?, regexOf?_prioritySuffix]
    rfl
  have only : regexOfEach? number [.mk none prioritySuffix] =
      some [catAll (priorityItems number)] := by
    rw [regexOfEach?, alternative]
    rfl
  rw [regexOf?, priorityPiece, regex?, only, priorityRegex]
  rfl

theorem takesNothing_priorityItems (number : Nat) :
    (Regex.group .plain (catAll (priorityItems number))).reduced.takesNothing = false := by
  have blanks : blanksRegex.reduced.takesNothing = false := rfl
  change (Regex.cat blanksRegex (catAll _)).reduced.takesNothing = false
  rw [reduced_cat, Reduced.takesNothing_concat, blanks, Bool.false_and]

/-- A machine leaves what stands in front of the part for a priority for good. -/
theorem begins_priority {property : Event → Prop} {items : List Regex} (number : Nat)
    (start : property (.at .textStart)) (meets : ∀ item ∈ items, item.Meets property) :
    Begins property (leading items) (held (items ++ [priorityRegex number])) := by
  have onward := stays_optional (takesNothing_priorityItems number) (leading items).length
  rw [← priorityRegex] at onward
  exact begins_held start meets onward

theorem branched_prioritySuffix : AllBranched prioritySuffix := by
  have word (word : List Char) {others : List Piece} (branched : AllBranched others) :
      AllBranched (word.map .literal ++ others) := by
    induction word with
    | nil => exact branched
    | cons _ _ ih => exact ⟨trivial, ih⟩
  exact ⟨trivial, word _ ⟨trivial, word _ ⟨trivial, trivial, trivial⟩⟩⟩

theorem captures_priorityPiece : capturesOf [priorityPiece] = [.raw] := by
  have word (word : List Char) (others : List Piece) :
      capturesOf (word.map .literal ++ others) = capturesOf others := by
    induction word with
    | nil => rfl
    | cons _ _ ih => exact ih
  have inside : capturesOf prioritySuffix = [.raw] := by
    rw [prioritySuffix, capturesOf, word, capturesOf, word]
    rfl
  rw [capturesOf, priorityPiece, captures, capturesOfEach, capturesOfAlternative, inside]
  rfl

theorem implements_priority (number : Nat) :
    Implements number [.raw] (DerivesAll [priorityPiece]) (catAll [priorityRegex number]) := by
  have alone : AllStandAlone [priorityPiece] := ⟨⟨Registry.alone_prioritySuffix, trivial⟩, trivial⟩
  have branched : AllBranched [priorityPiece] :=
    ⟨⟨List.cons_ne_nil _ _, branched_prioritySuffix, trivial⟩, trivial⟩
  obtain ⟨made, same, implements⟩ := implementedAll [priorityPiece] number alone branched
  rw [regexOf?_priorityPiece] at same
  rw [captures_priorityPiece, ← Option.some.inj same] at implements
  exact implements

theorem groupNames_priority (number : Nat) :
    (catAll [priorityRegex number]).groupNames = [Capture.raw.groupName number] := by
  have word (word : List Char) : (word.map literalRegex).flatMap groupNames = [] :=
    List.flatMap_eq_nil_iff.mpr (List.forall_mem_map.mpr fun _ _ => rfl)
  rw [catAll, priorityRegex, groupNames, groupNames, groupNames, Bracket.name?, Option.toList_none,
    List.nil_append, List.nil_append, groupNames_catAll, priorityItems, List.flatMap_cons,
    List.flatMap_append, word,
    List.flatMap_cons, List.flatMap_append, word]
  rfl

theorem marksOf_map (offset : Nat) (word : List Char) : marksOf offset (word.map .char) = [] := by
  induction word generalizing offset with
  | nil => rfl
  | cons c rest ih => exact ih (offset + 1)

/-- What the part for a priority finds in the rest of a text, and its marks there. -/
theorem gives_priority {items : List Regex} {number steps : Nat} {upTo rest : List Char}
    {marks : List Mark}
    (gives : Gives (held (items ++ [priorityRegex number])) steps (.between upTo rest)
      ⟨(leading items).length, []⟩ marks) :
    (∀ mark ∈ marks, mark.name = Capture.raw.groupName number) ∧
      ∃ findings, DerivesAll [priorityPiece] rest findings ∧ ∀ result,
        Pattern.recordAll (bindings (upTo ++ rest) marks) number [.raw] result =
          result.with findings := by
  have implements := implements_priority number
  have asks : Asks (fun _ => true) (catAll [priorityRegex number])
      (Capture.names number [.raw]) := by
    refine ⟨?_, fun name => ?_⟩
    · rw [groupNames_priority]
      exact List.nodup_singleton _
    · rw [groupNames_priority]
      exact fun member => iff_of_true rfl member
  have traces := (denotes_reduced implements.proper (implements.tame _ asks)).traces
  have only := asks.only implements.edgeless
  have realizes := implements.realizes _ asks
  rw [← traces] at only realizes
  obtain ⟨trace, member, rfl, isMarks⟩ := gives_held gives only
  have all : marks.filter (fun _ => true) = marks := List.filter_eq_self.mpr fun _ _ => rfl
  rw [all] at isMarks
  obtain ⟨findings, derives, shows⟩ := realizes.sound trace member
  constructor
  · intro mark there
    rw [isMarks] at there
    obtain ⟨opens, met⟩ := name_of_mem_marksOf (List.mem_reverse.mp there)
    exact List.mem_singleton.mp (only trace member _ met)
  · have avoids : Avoids (Capture.names number [.raw]) (upTo.map .char) :=
      fun _ _ => List.forall_mem_map.mpr fun _ _ => trivial
    refine ⟨findings, derives, fun result => ?_⟩
    have recorded := shows (upTo.map .char) [] avoids avoids_nil result
    rw [List.append_nil, taken, charsOf_append, charsOf_map, marksOf_append, charsOf_map,
      marksOf_map, Nat.zero_add, List.nil_append, ← isMarks] at recorded
    exact recorded

/-- A part for a priority is left out, or it takes the rest of a text with the two words and blanks
around them, and finds what stands behind, within a line. -/
theorem words_of_derives {text : List Char} {findings : Findings}
    (derives : DerivesAll [priorityPiece] text findings) :
    text = [] ∧ findings.raws = [] ∨ ∃ before first between second behind named,
      IsGap before ∧ first.map Text.asciiLower = "with".toList ∧ IsGap between ∧
      second.map Text.asciiLower = "priority".toList ∧ IsGap behind ∧
      text = before ++ (first ++ (between ++ (second ++ (behind ++ named)))) ∧
      findings.raws = [String.ofList named] ∧ '\n' ∉ named := by
  have reads : Regex.read? flags ".+".toList = some namedRegex := by rfl
  cases derives with
  | cons here none =>
    cases none
    rw [List.append_nil, Findings.append_empty]
    cases here with
    | skipped => exact Or.inl ⟨rfl, rfl⟩
    | present body =>
      cases body with
      | later absent => cases absent
      | here taken =>
        cases taken with
        | plain derived =>
          obtain ⟨before, text, rfl, gapBefore, derived⟩ := derivesAll_blanks derived
          obtain ⟨first, text, rfl, isFirst, derived⟩ := derivesAll_word (by decide) derived
          obtain ⟨between, text, rfl, gapBetween, derived⟩ := derivesAll_blanks derived
          obtain ⟨second, text, rfl, isSecond, derived⟩ := derivesAll_word (by decide) derived
          obtain ⟨behind, text, rfl, gapBehind, derived⟩ := derivesAll_blanks derived
          cases derived with
          | cons own none =>
            cases none
            cases own with
            | raw read fits =>
              cases reads.symm.trans read
              have all := (mem_words_repeated.mp fits).2
              exact Or.inr ⟨before, first, between, second, behind, _, gapBefore, isFirst,
                gapBetween, isSecond, gapBehind, by rw [List.append_nil], rfl,
                fun member => (CharSet.contains_exceptLineFeed _).mp (all _ member) rfl⟩

/-! ## Where the words for a priority stand -/

theorem isBlank_of_asciiLower {c : Char} (letter : Text.asciiLower c ∈ Text.priorityLetters) :
    Text.isBlank c = false := by
  refine Bool.not_eq_true _ ▸ fun blank => ?_
  have all : Text.blankPoints.all (fun point =>
      Text.asciiLower (Char.ofNat point) ∉ Text.priorityLetters) = true := by
    decide +kernel
  have own := of_decide_eq_true (List.all_eq_true.mp all _ (Text.mem_blankPoints blank))
  rw [Char.ofNat_toNat] at own
  exact own letter

/-- The end of a word of the priority is no blank. -/
theorem ends_of_word {front word text : List Char} (isWord : text.map Text.asciiLower = word)
    (letters : word ⊆ Text.priorityLetters) (nonempty : word ≠ []) :
    ∀ c ∈ (front ++ text).getLast?, Text.isBlank c = false := by
  intro c isLast
  have solid : text ≠ [] := fun none => nonempty (by rw [← isWord, none]; rfl)
  rw [List.getLast?_append_of_ne_nil _ solid] at isLast
  refine isBlank_of_asciiLower (letters ?_)
  rw [← isWord]
  exact List.mem_map_of_mem (List.mem_of_getLast? isLast)

/-- Blanks at the end of a text are told from what stands before them. -/
theorem append_blank_inj {text other gap more : List Char} (same : text ++ gap = other ++ more)
    (ends : ∀ c ∈ text.getLast?, Text.isBlank c = false)
    (others : ∀ c ∈ other.getLast?, Text.isBlank c = false)
    (blank : ∀ c ∈ gap, Text.isBlank c = true) (blanks : ∀ c ∈ more, Text.isBlank c = true) :
    text = other := by
  rw [← Text.trimEndChars_eq_self_iff.mpr ends, ← Text.trimEndChars_append_of_blank blank, same,
    Text.trimEndChars_append_of_blank blanks, Text.trimEndChars_eq_self_iff.mpr others]

/-- The words for a priority with single spaces, and behind them any more blanks within the line. -/
def IsWords (words : List Char) : Prop :=
  ∃ plain gap, words = plain ++ gap ∧ plain.map Text.asciiLower = priorityWords ∧
    ∀ c ∈ gap, Text.isBlank c = true ∧ c ≠ '\n'

theorem IsWords.split {words : List Char} (isWords : IsWords words) :
    ∃ space first between second behind,
      words = space ++ (first ++ (between ++ (second ++ behind))) ∧ space.length = 1 ∧
        IsGap space ∧ first.map Text.asciiLower = "with".toList ∧ IsGap between ∧
        second.map Text.asciiLower = "priority".toList ∧ IsGap behind := by
  obtain ⟨plain, gap, rfl, isPlain, blank⟩ := isWords
  have spelt : priorityWords =
      [' '] ++ ("with".toList ++ ([' '] ++ ("priority".toList ++ [' ']))) := rfl
  rw [spelt] at isPlain
  obtain ⟨space, rest, rfl, isSpace, isRest⟩ := List.map_eq_append_iff.mp isPlain
  obtain ⟨first, rest, rfl, isFirst, isRest⟩ := List.map_eq_append_iff.mp isRest
  obtain ⟨between, rest, rfl, isBetween, isRest⟩ := List.map_eq_append_iff.mp isRest
  obtain ⟨second, behind, rfl, isSecond, isBehind⟩ := List.map_eq_append_iff.mp isRest
  obtain ⟨nonempty, blanks⟩ := isGap_of_space isBehind
  refine ⟨space, first, between, second, behind ++ gap, by simp only [List.append_assoc], ?_,
    isGap_of_space isSpace, isFirst, isGap_of_space isBetween, isSecond,
    List.append_ne_nil_of_left_ne_nil nonempty _,
    List.forall_mem_append.mpr ⟨blanks, fun c member => (blank c member).1⟩⟩
  rw [← List.length_map (f := Text.asciiLower), isSpace]
  rfl

theorem IsWords.inLine {words : List Char} (isWords : IsWords words) : '\n' ∉ words := by
  obtain ⟨plain, gap, rfl, isPlain, blank⟩ := isWords
  refine fun member => (List.mem_append.mp member).elim (fun early => ?_)
    fun late => (blank _ late).2 rfl
  have lower := List.mem_map_of_mem (f := Text.asciiLower) early
  rw [isPlain] at lower
  exact absurd lower (by decide)

/-- Where a text ends in the words for a priority with single spaces, these are the words that are
found at its end with any blanks around them. -/
theorem eq_of_words {upTo text before first between second behind words : List Char}
    (gapBefore : IsGap before) (isFirst : first.map Text.asciiLower = "with".toList)
    (gapBetween : IsGap between) (isSecond : second.map Text.asciiLower = "priority".toList)
    (gapBehind : IsGap behind) (isWords : IsWords words)
    (ends : ∀ c ∈ text.getLast?, Text.isBlank c = false)
    (same : upTo ++ (before ++ (first ++ (between ++ (second ++ behind)))) = text ++ words) :
    upTo = text := by
  obtain ⟨space, first', between', second', behind', rfl, isOne, -, isFirst', isBetween, isSecond',
    isBehind⟩ := isWords.split
  have length {text word : List Char} (isWord : text.map Text.asciiLower = word) :
      text.length = word.length := by rw [← isWord, List.length_map]
  simp only [← List.append_assoc] at same
  have upToSecond := append_blank_inj same (ends_of_word isSecond (by decide) (by decide))
    (ends_of_word isSecond' (by decide) (by decide)) gapBehind.2 isBehind.2
  have upToBetween := (List.append_inj' upToSecond (by rw [length isSecond, length isSecond'])).1
  have upToFirst := append_blank_inj upToBetween (ends_of_word isFirst (by decide) (by decide))
    (ends_of_word isFirst' (by decide) (by decide)) gapBetween.2 isBetween.2
  have front := (List.append_inj' upToFirst (by rw [length isFirst, length isFirst'])).1
  -- One blank is left behind the text, and there is one at least behind what stands before.
  obtain ⟨c, rfl⟩ := List.length_eq_one_iff.mp isOne
  obtain ⟨nonempty, blanks⟩ := gapBefore
  rw [← List.dropLast_append_getLast nonempty, ← List.append_assoc] at front
  obtain ⟨front, -⟩ := List.append_inj' front rfl
  rcases List.eq_nil_or_concat before.dropLast with none | ⟨others, last, more⟩
  · rw [← front, none, List.append_nil]
  · have blank := blanks last (List.mem_of_mem_dropLast (by rw [more]; simp))
    have solid := ends last (by rw [← front, more]; simp)
    rw [blank] at solid
    cases solid

end EventStructure

/-! ## Marks of other texts and other groups -/

namespace Capture

/-- A raw expression shares its name with no group of another number. -/
theorem number_of_groupName {number place : Nat} {capture : Capture}
    (same : raw.groupName number = capture.groupName place) : number = place := by
  have chars := congrArg String.toList same
  have digits : Nat.toDigits 10 number = Nat.toDigits 10 place := by
    cases capture with
    | argument | mark => exact absurd (congrArg List.head? chars) (by simp [groupName, toString])
    | raw => simpa [groupName, toString] using chars
  rw [← Nat.ofDigitChars_ten_toDigits (n := number), digits, Nat.ofDigitChars_ten_toDigits]

theorem exists_of_mem_names {number : Nat} {captures : List Capture} {name : String}
    (member : name ∈ names number captures) :
    ∃ capture place, place < number + captures.length ∧ name = groupName place capture := by
  induction captures generalizing number with
  | nil => cases member
  | cons capture others ih =>
    rcases List.mem_cons.mp member with rfl | later
    · exact ⟨capture, number, Nat.lt_add_of_pos_right (Nat.succ_pos _), rfl⟩
    · obtain ⟨own, place, below, rfl⟩ := ih later
      refine ⟨own, place, ?_, rfl⟩
      rw [List.length_cons]
      omega

end Capture

/-- What is recorded does not depend on what has been recorded before. -/
theorem Pattern.recordAll_with (bindings : Regex.Bindings) (number : Nat)
    (captures : List Capture) : ∃ findings, ∀ result,
      recordAll bindings number captures result = result.with findings := by
  induction captures generalizing number with
  | nil => exact ⟨{}, fun result => result.with_empty.symm⟩
  | cons capture others ih =>
    obtain ⟨findings, recorded⟩ := ih (number + 1)
    refine ⟨capture.finds (bindings.lookup (capture.groupName number)) ++ findings,
      fun result => ?_⟩
    rw [recordAll, record_eq, recorded, ← MatchResult.with_append]

namespace Regex

variable {text : List Char} {name : String}

/-- What groups have taken in a text does not depend on what comes behind it. -/
theorem Machine.bindings_append {marks : List Mark}
    (within : ∀ mark ∈ marks, mark.offset ≤ text.length) (tail : List Char) :
    bindings (text ++ tail) marks = bindings text marks := by
  induction marks with
  | nil => rfl
  | cons mark earlier ih =>
    obtain ⟨own, before⟩ := List.forall_mem_cons.mp within
    rw [bindings, bindings, ih before]
    split
    · rfl
    · split
      · rfl
      · next start found =>
        have early := before start (List.mem_of_find?_eq_some found)
        rw [List.drop_append_of_le_length early, List.take_append_of_le_length]
        rw [List.length_drop]
        exact Nat.sub_le_sub_right own _

/-- Earlier marks of other names say nothing about a name. -/
theorem lookup_bindings_later {marks earlier : List Mark}
    (avoid : ∀ mark ∈ earlier, mark.name ≠ name) :
    (Machine.bindings text (marks ++ earlier)).lookup name =
      (Machine.bindings text marks).lookup name := by
  let kept (other : String) : Bool := other == name
  have asked : kept name = true := beq_self_eq_true name
  have own (marks : List Mark) : (Machine.bindings text (marks.filter (kept ·.name))).lookup name =
      (Machine.bindings text marks).lookup name := lookup_bindings_filter asked marks
  have none : earlier.filter (kept ·.name) = [] :=
    List.filter_eq_nil_iff.mpr fun mark member same => avoid mark member (eq_of_beq same)
  rw [← own, List.filter_append, none, List.append_nil, own]

end Regex

namespace EventStructure

open Piece Regex Machine

/-! ## Arrivals at a priority -/

section Arrivals

variable {items : List Regex} {number : Nat} {text words named : List Char}

theorem wordOn_words (isWords : IsWords words) (tail : List Char) :
    wordOn (words ++ tail).head? = false := by
  obtain ⟨space, first, between, second, behind, rfl, -, ⟨nonempty, blank⟩, -⟩ := isWords.split
  have none : Text.blankPoints.all (fun point => !Text.isWord (Char.ofNat point)) = true := by
    decide +kernel
  obtain ⟨c, others, rfl⟩ := List.exists_cons_of_ne_nil nonempty
  have own := List.all_eq_true.mp none _ (Text.mem_blankPoints (blank c List.mem_cons_self))
  rw [Char.ofNat_toNat] at own
  simpa [wordOn] using own

/-- Expressions that match a text by themselves arrive at its end. -/
theorem arrives_alone {marks : List Mark} {names : List String}
    (meets : ∀ item ∈ items, item.Meets (Event.Forward names))
    (found : (held items).searchFrom 0 none text = some marks) {tail : List Char}
    (apart : wordOn tail.head? = false) :
    Arrives (leading items) [] (text ++ tail) [{}] text marks := by
  have begins : Begins (Event.Forward names) (leading items) (held items) :=
    begins_alone ⟨nofun, nofun⟩ meets
  obtain ⟨upTo, rest, marks, more, steps, rfl, arrives, gives, rfl⟩ :=
    search_arrives begins (closes_held items) (fun _ => id) apart (starts_held items) found
  have onward : Gives (held (items ++ [])) steps (.between upTo rest)
      ⟨(leading items).length, []⟩ more := by
    rw [List.append_nil]
    exact gives
  have only : Only (Event.MarksOnly fun _ => False) ((catAll []).reduced.traces fun _ => true) :=
    only_one
  obtain ⟨trace, member, rfl, isMore⟩ := gives_held onward only
  obtain rfl := (Language.mem_one trace).mp member
  have none : more = [] := by simpa [marksOf] using isMore
  rw [none]
  simpa [charsOf] using arrives

variable {names : List String} (meets : ∀ item ∈ items, item.Meets (Event.Forward names))
  (fresh : Capture.raw.groupName number ∉ names)
  (isWords : IsWords words)
  (ends : ∀ c ∈ text.getLast?, Text.isBlank c = false)

include meets fresh isWords ends

/-- Where the part for a priority has taken its name, what stands in front of it has arrived at the
end of the text without the priority. -/
theorem eq_of_taken {upTo rest : List Char} {steps : Nat} {marks more : List Mark}
    (whole : upTo ++ rest = text ++ (words ++ named))
    (arrives : Arrives (leading items) [] (text ++ (words ++ named)) [{}] upTo marks)
    (gives : Gives (held (items ++ [priorityRegex number])) steps (.between upTo rest)
      ⟨(leading items).length, []⟩ more)
    (took : (bindings (text ++ (words ++ named)) (more ++ marks)).lookup
      (Capture.raw.groupName number) = some named) :
    upTo = text ∧ '\n' ∉ named := by
  obtain ⟨-, findings, derives, shows⟩ := gives_priority gives
  have known := arrives.marks (stays_leading ⟨nofun, nofun⟩ meets)
    (List.forall_mem_singleton.mpr fun _ absent => absurd absent List.not_mem_nil)
  have avoid : ∀ mark ∈ marks, mark.name ≠ Capture.raw.groupName number :=
    fun mark member same => fresh (same ▸ (known mark member).1)
  have found : findings.raws = [String.ofList named] := by
    rw [lookup_bindings_later avoid, ← whole] at took
    have recorded := shows { expr := "" }
    rw [Pattern.recordAll, Pattern.recordAll, Pattern.record_eq, took] at recorded
    exact (congrArg MatchResult.raws recorded).symm
  rcases words_of_derives derives with ⟨_, none⟩ | ⟨before, first, between, second, behind, other,
    gapBefore, isFirst, gapBetween, isSecond, gapBehind, rfl, isOther, inLine⟩
  · rw [none] at found
    cases found
  · obtain rfl : other = named := by
      rw [isOther] at found
      simpa using congrArg String.toList (List.head_eq_of_cons_eq found)
    have same : upTo ++ (before ++ (first ++ (between ++ (second ++ behind)))) = text ++ words := by
      simpa only [← List.append_assoc, List.append_cancel_right_eq] using whole
    exact ⟨eq_of_words gapBefore isFirst gapBetween isSecond gapBehind isWords ends same, inLine⟩

end Arrivals

end EventStructure

end ScriptBinding

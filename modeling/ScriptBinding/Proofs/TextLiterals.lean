import ScriptBinding.Proofs.ArgumentBinding
import ScriptBinding.Proofs.TreeWriting

/-! # Texts as literals

A text is written as a literal in quotes, with each of its own quotes doubled. The class of texts
reads a literal back as the text it was written for, and no class that is asked before it reads one
at all. What a call binds to a parameter is the literal without the quotes around it: the quotes
inside it stay doubled. So an argument and a default have the value of the literal for the texts
without quotes, and for no others.
-/

namespace ScriptBinding

namespace Text

/-- The characters, with two quotes in place of each. -/
def doubleQuotes (chars : List Char) : List Char :=
  chars.flatMap fun c => if c = '"' then ['"', '"'] else [c]

/-- A text as it is written in a script. -/
def literal (text : String) : String :=
  String.ofList ('"' :: doubleQuotes text.toList ++ ['"'])

theorem doubleQuotes_cons (c : Char) (chars : List Char) : doubleQuotes (c :: chars) =
    (if c = '"' then ['"', '"'] else [c]) ++ doubleQuotes chars :=
  List.flatMap_cons

theorem undouble_doubleQuotes (chars : List Char) :
    Value.undouble (doubleQuotes chars) = chars := by
  induction chars with
  | nil => rfl
  | cons c chars ih =>
    rw [doubleQuotes_cons]
    by_cases quote : c = '"'
    · rw [if_pos quote, quote]
      exact congrArg ('"' :: ·) ih
    · have alone := Value.undouble.eq_2 c (doubleQuotes chars) fun _ same => absurd same quote
      rw [if_neg quote, List.singleton_append, alone, ih]

theorem length_doubleQuotes (chars : List Char) :
    (doubleQuotes chars).length = chars.length + chars.count '"' := by
  induction chars with
  | nil => rfl
  | cons c chars ih =>
    rw [doubleQuotes_cons, List.length_append, ih, List.count_cons, List.length_cons]
    by_cases quote : c = '"'
    · simp only [quote, ↓reduceIte, List.length_cons, List.length_nil, beq_self_eq_true]
      omega
    · simp only [quote, ↓reduceIte, List.length_cons, List.length_nil, beq_iff_eq]
      omega

/-- Doubling its quotes leaves a text as it is exactly if there are none. -/
theorem doubleQuotes_eq_self_iff {chars : List Char} :
    doubleQuotes chars = chars ↔ '"' ∉ chars := by
  constructor
  · intro same
    have longer := congrArg List.length same
    rw [length_doubleQuotes] at longer
    exact List.count_eq_zero.mp (by omega)
  · intro none
    have alone : ∀ c ∈ chars, (if c = '"' then ['"', '"'] else [c]) = [c] := by
      rintro c member
      exact if_neg (by rintro rfl; exact none member)
    rw [doubleQuotes, List.flatMap_def, List.map_congr_left alone, ← List.flatMap_def]
    exact List.flatMap_singleton' chars

theorem toList_literal (text : String) :
    (literal text).toList = '"' :: doubleQuotes text.toList ++ ['"'] :=
  String.toList_ofList

/-- A text is no word that starts with another character. -/
theorem ofList_cons_ne {c : Char} {chars : List Char} {word : String}
    (first : word.toList.head? ≠ some c) : String.ofList (c :: chars) ≠ word := by
  rintro rfl
  rw [String.toList_ofList] at first
  exact first rfl

/-- What stands between two characters at the ends. -/
theorem between?_eq_some {opening closing : Char} {chars inner : List Char} :
    between? opening closing chars = some inner ↔ chars = opening :: inner ++ [closing] := by
  rw [between?, Option.bind_eq_some_iff]
  constructor
  · rintro ⟨rest, starts, ends⟩
    obtain ⟨reversed, behind, rfl⟩ := Option.map_eq_some_iff.mp ends
    have whole : rest = reversed.reverse ++ [closing] := by
      have own := congrArg List.reverse (afterLead?_eq_some.mp behind)
      rwa [List.reverse_append, List.reverse_reverse, List.reverse_reverse] at own
    rw [afterLead?_eq_some.mp starts, whole]
    rfl
  · rintro rfl
    refine ⟨inner ++ [closing], afterLead?_eq_some.mpr rfl, Option.map_eq_some_iff.mpr ?_⟩
    refine ⟨inner.reverse, afterLead?_eq_some.mpr ?_, List.reverse_reverse inner⟩
    rw [List.reverse_append]

theorem trimChars_literal (text : String) :
    trimChars (literal text).toList = (literal text).toList := by
  rw [toList_literal]
  refine trimChars_eq_self_iff.mpr ⟨fun c first => ?_, fun c last => ?_⟩
  · cases first
    decide
  · rw [List.getLast?_append] at last
    cases last
    decide

theorem trim_literal (text : String) : trim (literal text) = literal text := by
  rw [trim, trimChars_literal, String.ofList_toList]

end Text

/-! ## Literals of other classes

No literal of a class that is asked before the class of texts starts with a quote. -/

namespace Value

variable {text : String} {rest : List Char}

theorem readBoolean?_of_quote (starts : text.toList = '"' :: rest) : readBoolean? text = none := by
  obtain ⟨others, lower⟩ : ∃ others, Text.lower text = String.ofList ('"' :: others) :=
    ⟨_, by rw [Text.lower, starts]; rfl⟩
  have other (word : String) (first : word.toList.head? ≠ some '"') : Text.lower text ≠ word :=
    lower ▸ Text.ofList_cons_ne first
  simp only [readBoolean?, other "true" (by decide), other "yes" (by decide),
    other "on" (by decide), other "false" (by decide), other "no" (by decide),
    other "off" (by decide)]
  rfl

theorem readInteger?_of_quote (starts : text.toList = '"' :: rest) : readInteger? text = none := by
  rw [readInteger?, starts]
  rfl

theorem readNumber?_of_quote (starts : text.toList = '"' :: rest) : readNumber? text = none := by
  have other (word : String) (first : word.toList.head? ≠ some '"') :
      String.ofList (('"' :: rest).map Text.asciiLower) ≠ word :=
    Text.ofList_cons_ne first
  have body : (if ('"' :: rest).head? == some '-' || ('"' :: rest).head? == some '+' then
      ('"' :: rest).drop 1 else '"' :: rest) = '"' :: rest := rfl
  have unread : Number.read? ('"' :: rest) = none := by
    simp only [Number.read?, body, other "inf" (by decide), other "infinity" (by decide),
      other "nan" (by decide)]
    rfl
  rw [readNumber?, starts, Number.readFinite?, unread]
  rfl

theorem readTimespan?_of_quote (starts : text.toList = '"' :: rest) :
    readTimespan? text = none := by
  rw [readTimespan?, starts]
  rfl

theorem readNamed?_of_quote {word : String} {c : Char} {others : List Char}
    (isWord : word.toList = c :: others ∧ c ≠ '"') (starts : text.toList = '"' :: rest) :
    readNamed? word text = none := by
  rw [readNamed?, starts, isWord.1, Text.afterLead?, if_neg isWord.2]
  rfl

/-- The readers of the standard classes, in the order in which they are asked. -/
theorem readers_standard : ClassRegistry.standard.classes.map (·.read) =
    [some readBoolean?, some readInteger?, some readNumber?, some readTimespan?,
      some (readNamed? "world"), some (readNamed? "player"), none, some readText?, none] :=
  rfl

/-- Every literal that starts with a quote is one of the class of texts. -/
theorem parse?_of_quote (starts : (Text.trim text).toList = '"' :: rest) :
    ClassRegistry.standard.parse? text = readText? (Text.trim text) := by
  have world : "world".toList = 'w' :: "orld".toList ∧ 'w' ≠ '"' := by decide
  have player : "player".toList = 'p' :: "layer".toList ∧ 'p' ≠ '"' := by decide
  have asked : ClassRegistry.standard.parse? text =
      (ClassRegistry.standard.classes.map (·.read)).findSome? fun reader =>
        reader.bind fun read => read (Text.trim text) := by
    rw [List.findSome?_map]
    rfl
  rw [asked, readers_standard]
  simp only [List.findSome?_cons, Option.bind_some, readBoolean?_of_quote starts,
    readInteger?_of_quote starts, readNumber?_of_quote starts, readTimespan?_of_quote starts,
    readNamed?_of_quote world starts, readNamed?_of_quote player starts]
  cases readText? (Text.trim text) <;> rfl

theorem readText?_literal (text : String) : readText? (Text.literal text) = some (.text text) := by
  rw [readText?, Text.toList_literal, Text.between?_eq_some.mpr rfl, Option.map_some,
    Text.undouble_doubleQuotes, String.ofList_toList]

/-- The literal of a text is read as the text. -/
theorem parse?_literal (text : String) :
    ClassRegistry.standard.parse? (Text.literal text) = some (.text text) := by
  have trimmed : (Text.trim (Text.literal text)).toList =
      '"' :: (Text.doubleQuotes text.toList ++ ['"']) := by
    rw [Text.trim_literal, Text.toList_literal]
    rfl
  rw [parse?_of_quote trimmed, Text.trim_literal, readText?_literal]

end Value

/-! ## Literals in calls -/

namespace Signature

/-- The value of a literal as an argument still has its quotes doubled. -/
theorem argumentValue_literal (text : String) :
    argumentValue (Text.literal text) = String.ofList (Text.doubleQuotes text.toList) := by
  dsimp only [argumentValue]
  rw [Text.trimChars_literal, Text.toList_literal, Text.between?_eq_some.mpr rfl, Option.getD_some]

/-- Wherever a parameter gets `written`, from a call or as its default, its local value is `value`
when the body runs. -/
def BindsAs (written value : String) : Prop :=
  ∀ (environment : Environment) (name : String) (function : Function) (arguments : List String)
    (i : Nat) (parameter : Parameter),
    environment.functions.bodies.get? name = some function →
    NamesDiffer function.signature.parameters →
    (∀ other ∈ function.signature.parameters.drop arguments.length, other.default.isSome = true) →
    function.signature.parameters[i]? = some parameter →
    arguments[i]?.or parameter.default = some written →
    ∃ event, function.event name arguments = .ok event ∧
      event.field? ("_" ++ parameter.name) = some value ∧
      ∀ depth < environment.maxDepth, ∀ effects,
        environment.call depth name arguments effects =
          let (flow, state) := environment.run function.items (depth + 1) ⟨event, effects⟩
          (flow.map Flow.result, state.effects)

/-- A function with one parameter that returns the local value of it. -/
def echo : Function :=
  ⟨⟨⟨⟨"a.sk"⟩, 1⟩, "echo", [⟨"v", "text", none⟩], none, 1⟩, [.answer (some "\x7b_v\x7d") 2]⟩

/-- What a host with this function alone offers to calls. -/
def echoing : Environment :=
  ⟨{ bodies := Table.empty.insert "echo" echo }, .recording, 64⟩

/-- A parameter gets the value of an argument, and no other. -/
theorem bindsAs_iff {written value : String} :
    BindsAs written value ↔ argumentValue written = value := by
  constructor
  · intro binds
    obtain ⟨event, bound, field, -⟩ := binds echoing "echo" echo [written] 0 _ rfl
      (List.pairwise_singleton _ _) (fun _ absent => by cases absent) rfl rfl
    obtain ⟨_, given, own⟩ := field?_bind (List.pairwise_singleton _ _) bound (i := 0) rfl
    cases given
    exact Option.some.inj (own.symm.trans field)
  · rintro rfl environment name function arguments i parameter found differ left there gets
    obtain ⟨event, bound⟩ : ∃ event, function.event name arguments = .ok event :=
      bind_ok_iff.mpr left
    obtain ⟨_, given, field⟩ := field?_bind differ bound there
    cases given.symm.trans gets
    exact ⟨event, bound, field, fun depth room effects =>
      Environment.call_of_bound found bound room effects⟩

/-- **Literals of texts.** The literal of a text is read as the text. An argument and a default of
the same form give a parameter the text with its quotes doubled, so they give it the text exactly
if there are no quotes in it. -/
theorem literal_reads (text : String) :
    ClassRegistry.standard.parse? (Text.literal text) = some (.text text) ∧
      BindsAs (Text.literal text) (String.ofList (Text.doubleQuotes text.toList)) ∧
      (BindsAs (Text.literal text) text ↔ '"' ∉ text.toList) := by
  refine ⟨Value.parse?_literal text, bindsAs_iff.mpr (argumentValue_literal text), ?_⟩
  rw [bindsAs_iff, argumentValue_literal, ← Text.doubleQuotes_eq_self_iff]
  constructor
  · intro same
    rw [← String.toList_ofList (l := Text.doubleQuotes text.toList), same]
  · intro same
    rw [same, String.ofList_toList]

/-- A quote inside a text arrives twice. -/
theorem literal_doubled :
    Text.literal "a\"b" = "\"a\"\"b\"" ∧
      ClassRegistry.standard.parse? "\"a\"\"b\"" = some (.text "a\"b") ∧
      echoing.call 0 "echo" ["\"a\"\"b\""] [] = (.ok (some "a\"\"b"), []) ∧
      ¬ BindsAs "\"a\"\"b\"" "a\"b" := by
  have written : Text.literal "a\"b" = "\"a\"\"b\"" := by decide
  refine ⟨written, written ▸ Value.parse?_literal _, by decide +kernel, ?_⟩
  rw [bindsAs_iff]
  decide

end Signature

end ScriptBinding

import ScriptBinding.Proofs.MachineTraces
import ScriptBinding.Proofs.PatternGrammar

/-! # Matching is deriving

A compiled pattern matches a header exactly when the header without the blanks at its ends can be
derived from the pattern. What it records is what one derivation finds.

Every piece is implemented by its expression: the traces of the expression are the derivations of
the piece, and the groups met on a trace tell what the derivation finds. The groups of a piece have
numbers of their own, so that what is recorded for them does not depend on the pieces around it.
-/

namespace ScriptBinding

/-! ## Recording -/

namespace Capture

/-- The names of groups, numbered in a row. -/
def names (number : Nat) : List Capture → List String
  | [] => []
  | capture :: others => capture.groupName number :: names (number + 1) others

theorem names_append (number : Nat) (captures others : List Capture) :
    names number (captures ++ others) =
      names number captures ++ names (number + captures.length) others := by
  induction captures generalizing number with
  | nil => rfl
  | cons capture rest ih =>
    rw [List.cons_append, names, ih, names, List.cons_append, List.length_cons,
      Nat.add_right_comm, Nat.add_assoc]

/-- What a group finds by the text that it has taken. -/
def finds (capture : Capture) (taken : Option (List Char)) : Findings :=
  match capture with
  | argument type =>
    { arguments := [taken.map fun text => ⟨type, String.ofList (Text.trimChars text)⟩] }
  | raw => { raws := (taken.map String.ofList).toList }
  | mark value => if taken.isSome then { mark := value } else {}

/-- How many groups are placeholders. -/
def slots : List Capture → Nat
  | [] => 0
  | argument _ :: others => slots others + 1
  | _ :: others => slots others

theorem slots_append (captures others : List Capture) :
    slots (captures ++ others) = slots captures + slots others := by
  induction captures with
  | nil => exact (Nat.zero_add _).symm
  | cons capture rest ih =>
    cases capture with
    | argument type => exact (congrArg Nat.succ ih).trans (Nat.succ_add _ _).symm
    | raw => exact ih
    | mark value => exact ih

end Capture

/-- A result with further findings. -/
def MatchResult.with (result : MatchResult) (findings : Findings) : MatchResult :=
  { result with
    arguments := result.arguments ++ findings.arguments
    raws := result.raws ++ findings.raws
    mark := result.mark ^^^ findings.mark }

theorem MatchResult.with_append (result : MatchResult) (first rest : Findings) :
    result.with (first ++ rest) = (result.with first).with rest := by
  change result.with (first.append rest) = _
  simp [MatchResult.with, Findings.append, Nat.xor_assoc]

theorem MatchResult.with_empty (result : MatchResult) : result.with {} = result := by
  simp [MatchResult.with]

namespace Pattern

theorem record_eq (bindings : Regex.Bindings) (number : Nat) (capture : Capture)
    (result : MatchResult) : record bindings number capture result =
      result.with (capture.finds (bindings.lookup (capture.groupName number))) := by
  unfold record Capture.finds
  cases capture with
  | argument type => simp [MatchResult.with]
  | raw => simp [MatchResult.with]
  | mark value =>
    dsimp only
    split <;> simp [MatchResult.with]

theorem recordAll_append (bindings : Regex.Bindings) (number : Nat)
    (captures others : List Capture) (result : MatchResult) :
    recordAll bindings number (captures ++ others) result =
      recordAll bindings (number + captures.length) others
        (recordAll bindings number captures result) := by
  induction captures generalizing number result with
  | nil => rfl
  | cons capture rest ih =>
    rw [List.cons_append, recordAll, ih, recordAll, List.length_cons, Nat.add_right_comm,
      Nat.add_assoc]

/-- Only the groups that are recorded matter. -/
theorem recordAll_congr {bindings others : Regex.Bindings} {number : Nat} {captures : List Capture}
    (same : ∀ name ∈ Capture.names number captures, bindings.lookup name = others.lookup name)
    (result : MatchResult) :
    recordAll bindings number captures result = recordAll others number captures result := by
  induction captures generalizing number result with
  | nil => rfl
  | cons capture rest ih =>
    obtain ⟨own, later⟩ := List.forall_mem_cons.mp same
    rw [recordAll, recordAll, record_eq, record_eq, own]
    exact ih later _

/-- Of groups that have taken nothing, the placeholders are recorded as left out. -/
theorem recordAll_missed {bindings : Regex.Bindings} {number : Nat} {captures : List Capture}
    (none : ∀ name ∈ Capture.names number captures, bindings.lookup name = none)
    (result : MatchResult) : recordAll bindings number captures result =
      result.with (.missed (Capture.slots captures)) := by
  induction captures generalizing number result with
  | nil => exact (MatchResult.with_empty result).symm
  | cons capture rest ih =>
    obtain ⟨own, later⟩ := List.forall_mem_cons.mp none
    rw [recordAll, record_eq, own, ih later, ← MatchResult.with_append]
    congr 1
    change Findings.append _ _ = _
    cases capture <;>
      simp [Capture.finds, Findings.append, Findings.missed, Capture.slots, List.replicate_succ]

end Pattern

/-! ## What a trace shows -/

open Regex

/-- No condition and no mark of these names is met. -/
def Avoids (names : List String) (trace : List Event) : Prop :=
  ∀ name ∈ names, ∀ event ∈ trace, event.MarksOnly (· ≠ name)

section Avoids

variable {names others : List String} {trace rest : List Event}

theorem Avoids.append (early : Avoids names trace) (late : Avoids names rest) :
    Avoids names (trace ++ rest) :=
  fun name member => List.forall_mem_append.mpr ⟨early name member, late name member⟩

theorem avoids_append :
    Avoids (names ++ others) trace ↔ Avoids names trace ∧ Avoids others trace :=
  List.forall_mem_append

theorem avoids_nil : Avoids names [] :=
  fun _ _ _ absent => absurd absent List.not_mem_nil

theorem avoids_mark {name : String} (absent : name ∉ names) (opens : Bool) :
    Avoids names [.mark name opens] := by
  intro other member event there
  cases List.mem_singleton.mp there
  exact fun same => absent (same ▸ member)

/-- A trace whose marks are among some names avoids all others. -/
theorem avoids_of_marksOnly {property : String → Prop}
    (marks : ∀ event ∈ trace, event.MarksOnly property) (apart : ∀ name ∈ names, ¬ property name) :
    Avoids names trace := by
  intro name member event there
  have own := marks event there
  cases event with
  | char c => trivial
  | «at» condition => exact own
  | mark other opens => exact fun same => apart name member (same ▸ own)

end Avoids

/-- In any surroundings that do not mention its groups, a trace shows these findings. -/
def Shows (number : Nat) (captures : List Capture) (trace : List Event) (findings : Findings) :
    Prop :=
  ∀ early late, Avoids (Capture.names number captures) early →
    Avoids (Capture.names number captures) late →
    ∀ result, Pattern.recordAll (taken (early ++ (trace ++ late))) number captures result =
      result.with findings

namespace Shows

variable {number : Nat} {captures others : List Capture} {trace rest : List Event}
  {first second : Findings}

/-- What is met around a trace changes nothing, if it does not mention the groups. -/
theorem widen {early late : List Event} (shows : Shows number captures trace first)
    (before : Avoids (Capture.names number captures) early)
    (behind : Avoids (Capture.names number captures) late) :
    Shows number captures (early ++ (trace ++ late)) first := by
  intro start ending avoidStart avoidEnding result
  have own := shows (start ++ early) (late ++ ending) (avoidStart.append before)
    (behind.append avoidEnding) result
  simp only [List.append_assoc] at own ⊢
  exact own

/-- Findings of groups that are numbered in a row. -/
theorem both (one : Shows number captures trace first)
    (other : Shows (number + captures.length) others trace second) :
    Shows number (captures ++ others) trace (first ++ second) := by
  intro early late avoidEarly avoidLate result
  rw [Capture.names_append, avoids_append] at avoidEarly avoidLate
  rw [Pattern.recordAll_append, one early late avoidEarly.1 avoidLate.1,
    other early late avoidEarly.2 avoidLate.2, MatchResult.with_append]

theorem append (one : Shows number captures trace first)
    (other : Shows (number + captures.length) others rest second)
    (behind : Avoids (Capture.names number captures) rest)
    (before : Avoids (Capture.names (number + captures.length) others) trace) :
    Shows number (captures ++ others) (trace ++ rest) (first ++ second) := by
  have whole := other.widen before avoids_nil
  rw [List.append_nil] at whole
  exact (one.widen avoids_nil behind).both whole

/-- Groups that are not met are left out. -/
theorem missed (avoids : Avoids (Capture.names number captures) trace) :
    Shows number captures trace (.missed (Capture.slots captures)) := by
  intro early late avoidEarly avoidLate result
  have all := avoidEarly.append (avoids.append avoidLate)
  exact Pattern.recordAll_missed
    (fun name member => lookup_taken_of_avoids (all name member)) result

theorem nothing (number : Nat) (trace : List Event) : Shows number [] trace {} :=
  fun _ _ _ _ result => (MatchResult.with_empty result).symm

/-- A group finds what is met between its marks. -/
theorem group {capture : Capture} {name : String} (isName : capture.groupName number = name)
    (inner : Avoids [name] trace) :
    Shows number [capture] (.mark name true :: (trace ++ [.mark name false]))
      (capture.finds (some (charsOf trace))) := by
  intro early late _ avoidLate result
  subst isName
  have behind := avoidLate _ List.mem_cons_self
  have own := inner _ List.mem_cons_self
  rw [Pattern.recordAll, Pattern.recordAll, Pattern.record_eq, List.cons_append, List.append_assoc,
    List.singleton_append, lookup_taken own behind]

end Shows

theorem charsOf_map (word : List Char) : charsOf (word.map .char) = word := by
  induction word with
  | nil => rfl
  | cons c rest ih => exact congrArg (c :: ·) ih

/-! ## What an expression implements -/

/-- The traces of a language are derivations, and show what the derivations find. -/
structure Realizes (number : Nat) (captures : List Capture)
    (derives : List Char → Findings → Prop) (language : Language Event) : Prop where
  sound : ∀ trace ∈ language,
    ∃ findings, derives (charsOf trace) findings ∧ Shows number captures trace findings
  complete : ∀ text findings, derives text findings → ∃ trace ∈ language, charsOf trace = text

/-- The groups of an expression have names of their own, of which these are asked for. -/
structure Asks (kept : String → Bool) (regex : Regex) (names : List String) : Prop where
  distinct : regex.groupNames.Nodup
  asked : ∀ name ∈ regex.groupNames, kept name = true ↔ name ∈ names

/-- An expression implements what can be derived, by groups that are numbered in a row. -/
structure Implements (number : Nat) (captures : List Capture)
    (derives : List Char → Findings → Prop) (regex : Regex) : Prop where
  proper : regex.Proper
  edgeless : regex.Edgeless
  names : ∀ name ∈ Capture.names number captures, name ∈ regex.groupNames
  tame : ∀ kept, Asks kept regex (Capture.names number captures) → regex.Tame kept
  realizes : ∀ kept, Asks kept regex (Capture.names number captures) →
    Realizes number captures derives (regex.traces kept)

section Asks

variable {kept : String → Bool} {a b : Regex} {names others : List String}

/-- The marks met on the way through an expression are those asked for. -/
theorem Asks.only (asks : Asks kept a names) (edgeless : a.Edgeless) :
    Only (Event.MarksOnly (· ∈ names)) (a.traces kept) :=
  edgeless.only fun name member asked => (asks.asked name member).mp asked

/-- Two expressions that share no names, each with its own of those asked for. -/
theorem Asks.split (distinct : (a.groupNames ++ b.groupNames).Nodup)
    (asked : ∀ name ∈ a.groupNames ++ b.groupNames, kept name = true ↔ name ∈ names ++ others)
    (first : ∀ name ∈ names, name ∈ a.groupNames) (second : ∀ name ∈ others, name ∈ b.groupNames) :
    Asks kept a names ∧ Asks kept b others ∧ ∀ name ∈ names, name ∉ others := by
  obtain ⟨one, other, apart⟩ := List.nodup_append'.mp distinct
  refine ⟨⟨one, fun name member => ?_⟩, ⟨other, fun name member => ?_⟩, fun name early late => ?_⟩
  · rw [asked name (List.mem_append_left _ member), List.mem_append]
    exact or_iff_left fun late => apart member (second name late)
  · rw [asked name (List.mem_append_right _ member), List.mem_append]
    exact or_iff_right fun early => apart (first name early) member
  · exact apart (first name early) (second name late)

end Asks

namespace Implements

variable {number : Nat} {captures others : List Capture} {a b regex : Regex}
  {derives more : List Char → Findings → Prop}

theorem congr (implements : Implements number captures derives regex)
    (same : ∀ text findings, derives text findings ↔ more text findings) :
    Implements number captures more regex :=
  (funext fun text => funext fun findings => propext (same text findings)) ▸ implements

/-- An expression none of whose groups is recorded. -/
theorem plain (proper : regex.Proper) (edgeless : regex.Edgeless) :
    Implements number [] (fun text findings => text ∈ regex.words ∧ findings = {}) regex := by
  have isPlain {kept : String → Bool} (asks : Asks kept regex []) : regex.Plain kept := by
    refine edgeless.plain fun name member => Bool.eq_false_iff.mpr fun asked => ?_
    exact absurd ((asks.asked name member).mp asked) List.not_mem_nil
  refine ⟨proper, edgeless, fun _ absent => absurd absent List.not_mem_nil,
    fun kept asks => (isPlain asks).tame, fun kept asks => ?_⟩
  rw [(isPlain asks).traces_eq]
  constructor
  · rintro _ ⟨word, member, rfl⟩
    exact ⟨{}, ⟨(charsOf_map word).symm ▸ member, rfl⟩, .nothing number _⟩
  · rintro text _ ⟨member, rfl⟩
    exact ⟨text.map .char, ⟨text, member, rfl⟩, charsOf_map text⟩

/-- One expression behind the other. -/
theorem cat (first : Implements number captures derives a)
    (second : Implements (number + captures.length) others more b) :
    Implements number (captures ++ others)
      (fun text findings => ∃ early late found rest, derives early found ∧ more late rest ∧
        text = early ++ late ∧ findings = found ++ rest) (.cat a b) where
  proper := ⟨first.proper, second.proper⟩
  edgeless := ⟨first.edgeless, second.edgeless⟩
  names := by
    intro name member
    rw [Capture.names_append, List.mem_append] at member
    exact List.mem_append.mpr (member.imp (first.names name) (second.names name))
  tame := by
    intro kept asks
    rw [Capture.names_append] at asks
    obtain ⟨one, other, _⟩ := Asks.split asks.distinct asks.asked first.names second.names
    exact ⟨first.tame kept one, second.tame kept other⟩
  realizes := by
    intro kept asks
    rw [Capture.names_append] at asks
    obtain ⟨one, other, apart⟩ := Asks.split asks.distinct asks.asked first.names second.names
    have early := first.realizes kept one
    have late := second.realizes kept other
    constructor
    · rintro _ ⟨trace, here, rest, behind, rfl⟩
      obtain ⟨found, derived, shows⟩ := early.sound trace here
      obtain ⟨found', derived', shows'⟩ := late.sound rest behind
      refine ⟨found ++ found', ⟨_, _, found, found', derived, derived', charsOf_append _ _, rfl⟩,
        shows.append shows' ?_ ?_⟩
      · exact avoids_of_marksOnly (other.only second.edgeless rest behind) apart
      · exact avoids_of_marksOnly (one.only first.edgeless trace here)
          fun name own there => apart name there own
    · rintro _ _ ⟨text, text', found, found', derived, derived', rfl, rfl⟩
      obtain ⟨trace, here, rfl⟩ := early.complete text found derived
      obtain ⟨rest, behind, rfl⟩ := late.complete text' found' derived'
      exact ⟨trace ++ rest, Language.append_mem_mul here behind, charsOf_append _ _⟩

/-- One expression or the other; the placeholders of the one that is not taken are left out. -/
theorem alt (first : Implements number captures derives a)
    (second : Implements (number + captures.length) others more b) :
    Implements number (captures ++ others)
      (fun text findings =>
        (∃ found, derives text found ∧ findings = found ++ .missed (Capture.slots others)) ∨
        ∃ found, more text found ∧ findings = .missed (Capture.slots captures) ++ found)
      (.alt a b) where
  proper := ⟨first.proper, second.proper⟩
  edgeless := ⟨first.edgeless, second.edgeless⟩
  names := by
    intro name member
    rw [Capture.names_append, List.mem_append] at member
    exact List.mem_append.mpr (member.imp (first.names name) (second.names name))
  tame := by
    intro kept asks
    rw [Capture.names_append] at asks
    obtain ⟨one, other, _⟩ := Asks.split asks.distinct asks.asked first.names second.names
    exact ⟨first.tame kept one, second.tame kept other⟩
  realizes := by
    intro kept asks
    rw [Capture.names_append] at asks
    obtain ⟨one, other, apart⟩ := Asks.split asks.distinct asks.asked first.names second.names
    have early := first.realizes kept one
    have late := second.realizes kept other
    constructor
    · rintro trace (here | here)
      · obtain ⟨found, derived, shows⟩ := early.sound trace here
        have avoids : Avoids (Capture.names (number + captures.length) others) trace :=
          avoids_of_marksOnly (one.only first.edgeless trace here)
            fun name own there => apart name there own
        exact ⟨_, Or.inl ⟨found, derived, rfl⟩, shows.both (.missed avoids)⟩
      · obtain ⟨found, derived, shows⟩ := late.sound trace here
        have avoids : Avoids (Capture.names number captures) trace :=
          avoids_of_marksOnly (other.only second.edgeless trace here) apart
        exact ⟨_, Or.inr ⟨found, derived, rfl⟩, (Shows.missed avoids).both shows⟩
    · rintro text _ (⟨found, derived, rfl⟩ | ⟨found, derived, rfl⟩)
      · obtain ⟨trace, here, same⟩ := early.complete text found derived
        exact ⟨trace, Or.inl here, same⟩
      · obtain ⟨trace, here, same⟩ := late.complete text found derived
        exact ⟨trace, Or.inr here, same⟩

/-- An expression or nothing. -/
theorem optional (body : Implements number captures derives regex) :
    Implements number captures
      (fun text findings => derives text findings ∨
        text = [] ∧ findings = .missed (Capture.slots captures))
      (.repeated 0 (some 1) true (.group .plain regex)) where
  proper := body.proper
  edgeless := body.edgeless
  names := body.names
  tame := fun kept asks => Or.inr ⟨rfl, rfl, body.tame kept ⟨asks.distinct, asks.asked⟩⟩
  realizes := by
    intro kept asks
    have inner := body.realizes kept ⟨asks.distinct, asks.asked⟩
    have same : (Regex.repeated 0 (some 1) true (.group .plain regex)).traces kept =
        1 + regex.traces kept := by
      change copied 0 (some 1) (regex.traces kept) = _
      simp only [copied, pow_zero, Nat.sub_zero, pow_one, one_mul]
    rw [same]
    constructor
    · rintro trace (none | here)
      · rw [(Language.mem_one trace).mp none]
        exact ⟨_, Or.inr ⟨rfl, rfl⟩, .missed avoids_nil⟩
      · obtain ⟨found, derived, shows⟩ := inner.sound trace here
        exact ⟨found, Or.inl derived, shows⟩
    · rintro text findings (derived | ⟨rfl, rfl⟩)
      · obtain ⟨trace, here, same⟩ := inner.complete text findings derived
        exact ⟨trace, Or.inr here, same⟩
      · exact ⟨[], Or.inl Language.nil_mem_one, rfl⟩

/-- A group is numbered behind what it contains. -/
theorem named {capture : Capture} {name : String} (body : Implements number captures derives regex)
    (isName : capture.groupName (number + captures.length) = name) :
    Implements number (captures ++ [capture])
      (fun text findings => ∃ found, derives text found ∧
        findings = found ++ capture.finds (some text)) (.group (.named name) regex) := by
  have names : Capture.names number (captures ++ [capture]) =
      Capture.names number captures ++ [name] := by
    rw [Capture.names_append, ← isName]
    rfl
  have apart {kept : String → Bool}
      (asks : Asks kept (.group (.named name) regex)
        (Capture.names number (captures ++ [capture]))) :
      Asks kept regex (Capture.names number captures) ∧ name ∉ Capture.names number captures ∧
        kept name = true := by
    obtain ⟨distinct, asked⟩ := asks
    rw [names] at asked
    obtain ⟨fresh, inner⟩ := List.nodup_cons.mp distinct
    refine ⟨⟨inner, fun other member => ?_⟩, fun own => fresh (body.names name own), ?_⟩
    · rw [asked other (List.mem_cons_of_mem _ member), List.mem_append, List.mem_singleton]
      exact or_iff_left fun same => fresh (same ▸ member)
    · exact (asked name List.mem_cons_self).mpr
        (List.mem_append_right _ (List.mem_singleton_self name))
  refine ⟨body.proper, body.edgeless, fun other member => ?_,
    fun kept asks => body.tame kept (apart asks).1, fun kept asks => ?_⟩
  · rw [names, List.mem_append, List.mem_singleton] at member
    exact List.mem_cons.mpr (member.symm.imp id (body.names other))
  · obtain ⟨inner, fresh, asked⟩ := apart asks
    have realizes := body.realizes kept inner
    have same : (Regex.group (.named name) regex).traces kept =
        {[.mark name true]} * regex.traces kept * {[.mark name false]} := if_pos asked
    have text (trace : List Event) :
        charsOf ([.mark name true] ++ trace ++ [.mark name false]) = charsOf trace := by
      rw [charsOf_append, charsOf_append]
      exact List.append_nil _
    rw [same]
    constructor
    · rintro _ ⟨_, ⟨_, rfl, trace, here, rfl⟩, _, rfl, rfl⟩
      obtain ⟨found, derived, shows⟩ := realizes.sound trace here
      have own : Avoids [name] trace :=
        avoids_of_marksOnly (inner.only body.edgeless trace here)
          (List.forall_mem_singleton.mpr fresh)
      refine ⟨_, ⟨found, (text trace).symm ▸ derived, rfl⟩, ?_⟩
      dsimp only
      rw [text, List.append_assoc]
      exact (shows.widen (avoids_mark fresh true) (avoids_mark fresh false)).both
        (.group isName own)
    · rintro word _ ⟨found, derived, rfl⟩
      obtain ⟨trace, here, rfl⟩ := realizes.complete word found derived
      exact ⟨_, Language.append_mem_mul (Language.append_mem_mul rfl here) rfl, text trace⟩

theorem bracketed (body : Implements number captures derives regex) :
    Implements number captures derives (.group .plain regex) :=
  ⟨body.proper, body.edgeless, body.names,
    fun kept asks => body.tame kept ⟨asks.distinct, asks.asked⟩,
    fun kept asks => body.realizes kept ⟨asks.distinct, asks.asked⟩⟩

end Implements

/-! ## Pieces -/

namespace Piece

/-- The words of a repetition of single characters that is not empty. -/
theorem mem_words_repeated {chars : CharSet} {greedy : Bool} {text : List Char} :
    text ∈ (Regex.repeated 1 none greedy (.oneOf chars)).words ↔
      text ≠ [] ∧ ∀ c ∈ text, chars.contains c = true := by
  change text ∈ copied 1 none (Regex.oneOf chars).words ↔ _
  rw [copied, pow_one]
  constructor
  · rintro ⟨_, ⟨c, has, rfl⟩, _, ⟨parts, rfl, each⟩, rfl⟩
    refine ⟨List.cons_ne_nil c _, List.forall_mem_cons.mpr ⟨has, fun d member => ?_⟩⟩
    obtain ⟨part, there, own⟩ := List.mem_flatten.mp member
    obtain ⟨e, has', rfl⟩ := each part there
    exact List.mem_singleton.mp own ▸ has'
  · rintro ⟨nonempty, all⟩
    obtain ⟨c, rest, rfl⟩ := List.exists_cons_of_ne_nil nonempty
    obtain ⟨own, later⟩ := List.forall_mem_cons.mp all
    refine Language.append_mem_mul (a := [c]) ⟨c, own, rfl⟩
      ⟨rest.map ([·]), ?_, fun part member => ?_⟩
    · rw [List.flatten_eq_flatMap, List.flatMap_map]
      exact (List.flatMap_singleton' rest).symm
    · obtain ⟨d, there, rfl⟩ := List.mem_map.mp member
      exact ⟨d, later d there, rfl⟩

variable {number : Nat} {text : List Char} {findings : Findings}

theorem implements_literal (c : Char) :
    Implements number [] (Derives (.literal c)) (literalRegex c) := by
  have proper : (literalRegex c).Proper := (CharSet.proper_single c).folded
  refine (Implements.plain proper trivial).congr fun text findings => ?_
  constructor
  · rintro ⟨⟨d, has, rfl⟩, rfl⟩
    exact .literal ((CharSet.contains_folded_single c d).mp has)
  · intro derives
    cases derives with
    | literal alike => exact ⟨⟨_, (CharSet.contains_folded_single c _).mpr alike, rfl⟩, rfl⟩

theorem implements_blanks : Implements number [] (Derives .blanks) blanksRegex := by
  have proper : blanksRegex.Proper := CharSet.proper_blank
  refine (Implements.plain proper trivial).congr fun text findings => ?_
  rw [blanksRegex, mem_words_repeated]
  simp only [CharSet.contains_blank]
  constructor
  · rintro ⟨⟨nonempty, all⟩, rfl⟩
    exact .blanks nonempty all
  · intro derives
    cases derives with
    | blanks nonempty all => exact ⟨⟨nonempty, all⟩, rfl⟩

/-- A recorded group around an expression none of whose groups is recorded. -/
theorem implements_group {capture : Capture} {regex : Regex} (proper : regex.Proper)
    (edgeless : regex.Edgeless) :
    Implements number [capture]
      (fun text findings => text ∈ regex.words ∧ findings = capture.finds (some text))
      (.group (.named (capture.groupName number)) regex) := by
  refine ((Implements.plain proper edgeless).named rfl).congr fun text findings => ?_
  constructor
  · rintro ⟨_, ⟨member, rfl⟩, rfl⟩
    exact ⟨member, Findings.empty_append _⟩
  · rintro ⟨member, rfl⟩
    exact ⟨{}, ⟨member, rfl⟩, (Findings.empty_append _).symm⟩

theorem implements_raw {source : List Char} {regex : Regex}
    (reads : Regex.read? flags source = some regex) (edgeless : regex.Edgeless) :
    Implements number [.raw] (Derives (.raw source))
      (.group (.named (Capture.raw.groupName number)) regex) := by
  refine (implements_group (Regex.read?_proper reads) edgeless).congr fun text findings => ?_
  constructor
  · rintro ⟨member, rfl⟩
    exact .raw reads member
  · intro derives
    cases derives with
    | raw same member =>
      cases reads.symm.trans same
      exact ⟨member, rfl⟩

theorem implements_argument (type : String) :
    Implements number [.argument type] (Derives (.argument type))
      (.group (.named ((Capture.argument type).groupName number)) argumentRegex) := by
  have proper : argumentRegex.Proper := CharSet.proper_exceptLineFeed
  refine (implements_group proper trivial).congr fun text findings => ?_
  rw [argumentRegex, mem_words_repeated]
  have line : (∀ c ∈ text, CharSet.exceptLineFeed.contains c = true) ↔ '\n' ∉ text := by
    simp only [CharSet.contains_exceptLineFeed]
    exact ⟨fun all member => all _ member rfl, fun absent c member same => absent (same ▸ member)⟩
  rw [line]
  constructor
  · rintro ⟨⟨nonempty, line⟩, rfl⟩
    exact .argument nonempty line
  · intro derives
    cases derives with
    | argument nonempty line => exact ⟨⟨nonempty, line⟩, rfl⟩

mutual

theorem slots_captures : ∀ piece : Piece, Capture.slots piece.captures = piece.placeholders
  | .literal _ | .blanks | .raw _ | .argument _ => rfl
  | .optional alternatives _ | .choice alternatives => slots_capturesOfEach alternatives

theorem slots_capturesOf :
    ∀ pieces : List Piece, Capture.slots (capturesOf pieces) = placeholdersOf pieces
  | [] => rfl
  | piece :: others => by
    rw [capturesOf, Capture.slots_append, slots_captures piece, slots_capturesOf others,
      placeholdersOf]

theorem slots_capturesOfAlternative : ∀ alternative : Alternative,
    Capture.slots (capturesOfAlternative alternative) = placeholdersOfAlternative alternative
  | .mk none body => slots_capturesOf body
  | .mk (some value) body => by
    rw [capturesOfAlternative, Capture.slots_append, slots_capturesOf body]
    rfl

theorem slots_capturesOfEach : ∀ alternatives : List Alternative,
    Capture.slots (capturesOfEach alternatives) = placeholdersOfEach alternatives
  | [] => rfl
  | alternative :: others => by
    rw [capturesOfEach, Capture.slots_append, slots_capturesOfAlternative alternative,
      slots_capturesOfEach others, placeholdersOfEach]

end

section Parts

variable {alternatives : List Alternative} {piece : Piece} {others : List Piece}
  {captures rest : List Capture} {body first last : Regex}

theorem implements_optional
    (inner : Implements number (capturesOfEach alternatives) (DerivesOne alternatives) body) :
    Implements number (capturesOfEach alternatives) (Derives (.optional alternatives false))
      (.repeated 0 (some 1) true (.group .plain (.group .plain body))) := by
  refine inner.bracketed.optional.congr fun text findings => ?_
  rw [slots_capturesOfEach]
  constructor
  · rintro (derived | ⟨rfl, rfl⟩)
    · exact .present derived
    · exact .skipped
  · intro derives
    cases derives with
    | present derived => exact Or.inl derived
    | skipped => exact Or.inr ⟨rfl, rfl⟩

theorem implements_spaced
    (inner : Implements number (capturesOfEach alternatives) (DerivesOne alternatives) body) :
    Implements number (capturesOfEach alternatives) (Derives (.optional alternatives true))
      (.repeated 0 (some 1) true (.group .plain (.cat (.group .plain body) blanksRegex))) := by
  have both := (inner.bracketed.cat implements_blanks).optional
  rw [List.append_nil] at both
  refine both.congr fun text findings => ?_
  rw [slots_capturesOfEach]
  constructor
  · rintro (⟨_, _, _, _, derived, blank, rfl, rfl⟩ | ⟨rfl, rfl⟩)
    · cases blank with
      | blanks nonempty all => exact Findings.append_empty _ ▸ .spaced derived nonempty all
    · exact .skipped
  · intro derives
    cases derives with
    | spaced derived nonempty all =>
      exact Or.inl ⟨_, _, _, _, derived, .blanks nonempty all, rfl, (Findings.append_empty _).symm⟩
    | skipped => exact Or.inr ⟨rfl, rfl⟩

theorem implements_choice
    (inner : Implements number (capturesOfEach alternatives) (DerivesOne alternatives) body) :
    Implements number (capturesOfEach alternatives) (Derives (.choice alternatives))
      (.group .plain body) := by
  refine inner.bracketed.congr fun text findings => ⟨.choice, fun derives => ?_⟩
  cases derives with
  | choice derived => exact derived

theorem implements_nil : Implements number (capturesOf []) (DerivesAll []) .empty := by
  have proper : Regex.Proper .empty := trivial
  refine (Implements.plain proper trivial).congr fun text findings => ?_
  constructor
  · rintro ⟨none, rfl⟩
    rw [(Language.mem_one text).mp none]
    exact .nil
  · intro derives
    cases derives
    exact ⟨Language.nil_mem_one, rfl⟩

/-- The last piece of a sequence. -/
theorem implements_last (here : Implements number piece.captures (Derives piece) first) :
    Implements number (capturesOf [piece]) (DerivesAll [piece]) first := by
  have same : capturesOf [piece] = piece.captures := List.append_nil _
  rw [same]
  refine here.congr fun text findings => ⟨fun derived => ?_, fun derives => ?_⟩
  · have all := DerivesAll.cons derived .nil
    rwa [List.append_nil, Findings.append_empty] at all
  · cases derives with
    | cons derived none =>
      cases none
      rwa [List.append_nil, Findings.append_empty]

theorem implements_cons (here : Implements number piece.captures (Derives piece) first)
    (behind : Implements (number + piece.captures.length) (capturesOf others) (DerivesAll others)
      last) :
    Implements number (capturesOf (piece :: others)) (DerivesAll (piece :: others))
      (.cat first last) := by
  refine (here.cat behind).congr fun text findings => ⟨?_, fun derives => ?_⟩
  · rintro ⟨_, _, _, _, derived, derived', rfl, rfl⟩
    exact .cons derived derived'
  · cases derives with
    | cons derived derived' => exact ⟨_, _, _, _, derived, derived', rfl, rfl⟩

theorem implements_plain {pieces : List Piece}
    (inner : Implements number (capturesOf pieces) (DerivesAll pieces) body) :
    Implements number (capturesOf pieces) (DerivesAlternative (.mk none pieces)) body := by
  refine inner.congr fun text findings => ⟨.plain, fun derives => ?_⟩
  cases derives with
  | plain derived => exact derived

theorem implements_marked {pieces : List Piece} (value : Nat)
    (inner : Implements number (capturesOf pieces) (DerivesAll pieces) body) :
    Implements number (capturesOf pieces ++ [.mark value])
      (DerivesAlternative (.mk (some value) pieces))
      (.group (.named ((Capture.mark value).groupName (number + (capturesOf pieces).length)))
        body) := by
  refine (inner.named rfl).congr fun text findings => ⟨?_, fun derives => ?_⟩
  · rintro ⟨found, derived, rfl⟩
    exact .marked derived
  · cases derives with
    | marked derived => exact ⟨_, derived, rfl⟩

theorem ne_nil_of_regexOf? {items : List Regex}
    (made : regexOf? number (piece :: others) = some items) : items ≠ [] := by
  unfold regexOf? at made
  split at made
  · cases made
    exact List.cons_ne_nil _ _
  · cases made

variable {alternative : Alternative}

theorem ne_nil_of_regexOfEach? {others : List Alternative} {bodies : List Regex}
    (made : regexOfEach? number (alternative :: others) = some bodies) : bodies ≠ [] := by
  unfold regexOfEach? at made
  split at made
  · cases made
    exact List.cons_ne_nil _ _
  · cases made

/-- The last alternative of a choice. -/
theorem implements_only
    (here : Implements number (capturesOfAlternative alternative) (DerivesAlternative alternative)
      first) :
    Implements number (capturesOfEach [alternative]) (DerivesOne [alternative]) first := by
  have same : capturesOfEach [alternative] = capturesOfAlternative alternative :=
    List.append_nil _
  rw [same]
  refine here.congr fun text findings => ⟨fun derived => ?_, fun derives => ?_⟩
  · exact Findings.append_empty findings ▸ DerivesOne.here derived
  · cases derives with
    | here derived =>
      change DerivesAlternative alternative text (_ ++ {})
      rwa [Findings.append_empty]
    | later derived => cases derived

theorem implements_either {others : List Alternative}
    (here : Implements number (capturesOfAlternative alternative) (DerivesAlternative alternative)
      first)
    (behind : Implements (number + (capturesOfAlternative alternative).length)
      (capturesOfEach others) (DerivesOne others) last) :
    Implements number (capturesOfEach (alternative :: others)) (DerivesOne (alternative :: others))
      (.alt first last) := by
  refine (here.alt behind).congr fun text findings => ?_
  rw [slots_capturesOfAlternative, slots_capturesOfEach]
  constructor
  · rintro (⟨_, derived, rfl⟩ | ⟨_, derived, rfl⟩)
    · exact .here derived
    · exact .later derived
  · intro derives
    cases derives with
    | here derived => exact Or.inl ⟨_, derived, rfl⟩
    | later derived => exact Or.inr ⟨_, derived, rfl⟩

end Parts

mutual

/-- Every piece is implemented by its expression. -/
theorem implemented : ∀ (piece : Piece) (number : Nat), piece.StandsAlone → piece.Branched →
    ∃ regex, piece.regex? number = some regex ∧
      Implements number piece.captures (Derives piece) regex
  | .literal c, _, _, _ => ⟨_, rfl, implements_literal c⟩
  | .blanks, _, _, _ => ⟨_, rfl, implements_blanks⟩
  | .raw _, number, ⟨regex, reads, edgeless⟩, _ =>
    ⟨_, congrArg (Option.map _) reads, implements_raw reads edgeless⟩
  | .argument type, _, _, _ => ⟨_, rfl, implements_argument type⟩
  | .optional alternatives absorbs, number, alone, ⟨nonempty, branched⟩ => by
    obtain ⟨bodies, made, inner⟩ := implementedEach alternatives number nonempty alone branched
    refine ⟨_, congrArg (Option.map _) made, ?_⟩
    cases absorbs with
    | false => exact implements_optional inner
    | true => exact implements_spaced inner
  | .choice alternatives, number, alone, ⟨nonempty, branched⟩ => by
    obtain ⟨bodies, made, inner⟩ := implementedEach alternatives number nonempty alone branched
    exact ⟨_, congrArg (Option.map _) made, implements_choice inner⟩

theorem implementedAll : ∀ (pieces : List Piece) (number : Nat), AllStandAlone pieces →
    AllBranched pieces → ∃ items, regexOf? number pieces = some items ∧
      Implements number (capturesOf pieces) (DerivesAll pieces) (catAll items)
  | [], _, _, _ => ⟨[], rfl, implements_nil⟩
  | [piece], number, ⟨own, _⟩, ⟨branched, _⟩ => by
    obtain ⟨first, made, here⟩ := implemented piece number own branched
    refine ⟨[first], ?_, implements_last here⟩
    rw [regexOf?, made]
    rfl
  | piece :: next :: others, number, ⟨own, later⟩, ⟨branched, rest⟩ => by
    obtain ⟨first, made, here⟩ := implemented piece number own branched
    obtain ⟨items, more, behind⟩ :=
      implementedAll (next :: others) (number + piece.captures.length) later rest
    refine ⟨first :: items, by rw [regexOf?, made, more], ?_⟩
    obtain ⟨second, items, rfl⟩ := List.exists_cons_of_ne_nil (ne_nil_of_regexOf? more)
    exact implements_cons here behind

theorem implementedAlternative : ∀ (alternative : Alternative) (number : Nat),
    AlternativeStandsAlone alternative → AlternativeBranched alternative →
    ∃ regex, regexOfAlternative? number alternative = some regex ∧
      Implements number (capturesOfAlternative alternative) (DerivesAlternative alternative) regex
  | .mk none body, number, alone, branched => by
    obtain ⟨items, made, inner⟩ := implementedAll body number alone branched
    exact ⟨_, congrArg (Option.map _) made, implements_plain inner⟩
  | .mk (some value) body, number, alone, branched => by
    obtain ⟨items, made, inner⟩ := implementedAll body number alone branched
    exact ⟨_, congrArg (Option.map _) made, implements_marked value inner⟩

theorem implementedEach : ∀ (alternatives : List Alternative) (number : Nat), alternatives ≠ [] →
    EachStandsAlone alternatives → EachBranched alternatives →
    ∃ bodies, regexOfEach? number alternatives = some bodies ∧
      Implements number (capturesOfEach alternatives) (DerivesOne alternatives) (altAll bodies)
  | [], _, nonempty, _, _ => absurd rfl nonempty
  | [alternative], number, _, ⟨own, _⟩, ⟨branched, _⟩ => by
    obtain ⟨first, made, here⟩ := implementedAlternative alternative number own branched
    refine ⟨[first], ?_, implements_only here⟩
    rw [regexOfEach?, made]
    rfl
  | alternative :: next :: others, number, _, ⟨own, later⟩, ⟨branched, rest⟩ => by
    obtain ⟨first, made, here⟩ := implementedAlternative alternative number own branched
    obtain ⟨bodies, more, behind⟩ :=
      implementedEach (next :: others) (number + (capturesOfAlternative alternative).length)
        (List.cons_ne_nil _ _) later rest
    refine ⟨first :: bodies, by rw [regexOfEach?, made, more], ?_⟩
    obtain ⟨second, bodies, rfl⟩ := List.exists_cons_of_ne_nil (ne_nil_of_regexOfEach? more)
    exact implements_either here behind

end

end Piece

/-! ## Whole patterns -/

section Whole

/-- What holds of a sequence when it holds of both its sides holds of all its parts. -/
theorem catAll_iff (property : Regex → Prop) (empty : property .empty)
    (cat : ∀ a b, property (.cat a b) ↔ property a ∧ property b) (items : List Regex) :
    property (catAll items) ↔ ∀ item ∈ items, property item := by
  induction items with
  | nil => exact iff_of_true empty fun _ absent => absurd absent List.not_mem_nil
  | cons first others ih =>
    rw [List.forall_mem_cons]
    cases others with
    | nil => exact (and_iff_left fun _ absent => absurd absent List.not_mem_nil).symm
    | cons second rest => exact (cat first _).trans (and_congr_right' ih)

theorem groupNames_catAll (items : List Regex) :
    (catAll items).groupNames = items.flatMap groupNames := by
  induction items with
  | nil => rfl
  | cons first others ih =>
    cases others with
    | nil => exact (List.append_nil _).symm
    | cons second rest => exact congrArg (first.groupNames ++ ·) ih

variable {pieces : List Piece} {items : List Regex} {machine : Machine}

end Whole

namespace Pattern

theorem eq_of_compile {source : String} {pattern : Pattern}
    (compiles : compile source = .ok pattern) :
    pattern.source = source ∧ Piece.readPattern source.toList = .ok pattern.pieces ∧
      (Piece.wholeRegex? pattern.pieces).bind Regex.machine? = some pattern.machine := by
  unfold compile at compiles
  split at compiles
  · cases compiles
  · next reads =>
    split at compiles
    · cases compiles
    · next machine =>
      cases compiles
      exact ⟨rfl, reads, machine⟩

theorem exists_of_isOk {source : String} (isOk : (compile source).isOk = true) :
    ∃ pattern, compile source = .ok pattern := by
  cases made : compile source with
  | error problem =>
    rw [made] at isOk
    cases isOk
  | ok pattern => exact ⟨pattern, rfl⟩

end Pattern

end ScriptBinding

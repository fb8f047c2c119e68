import ScriptBinding.Proofs.BufferedEvents
import ScriptBinding.Proofs.Dispatch
import ScriptBinding.Proofs.LowerCase
import ScriptBinding.Proofs.PatternMatching
import ScriptBinding.Proofs.StandardStructures
import ScriptBinding.Proofs.TreeWriting

/-! # Priorities in headers

The patterns of events end in an optional part for a priority, with any blanks between its words. A
header is cut behind the last place where these words stand between single spaces. A priority that
is written so is refused, or kept as it is named last. A header can be found through a priority
with other blanks: that one is not seen.
-/

namespace ScriptBinding

namespace Text

/-! ## The last occurrence of a mark -/

theorem eq_of_cutLast? {mark chars before after : List Char}
    (found : cutLast? mark chars = some (before, after)) : chars = before ++ (mark ++ after) := by
  induction chars generalizing before with
  | nil =>
    obtain ⟨rest, lead, same⟩ := Option.map_eq_some_iff.mp found
    cases same
    have whole := afterLead?_eq_some.mp lead
    exact whole
  | cons c tail ih =>
    unfold cutLast? at found
    split at found
    · next later =>
      cases found
      rw [List.cons_append, ← ih later]
    · obtain ⟨rest, lead, same⟩ := Option.map_eq_some_iff.mp found
      cases same
      have whole := afterLead?_eq_some.mp lead
      exact whole

theorem cutLast?_eq_none_iff {mark chars : List Char} :
    cutLast? mark chars = none ↔ ¬ mark <:+: chars := by
  have leads (chars : List Char) : afterLead? mark chars = none ↔ ¬ mark <+: chars := by
    rw [Option.eq_none_iff_forall_ne_some]
    refine ⟨fun absent ⟨rest, whole⟩ => absent rest (afterLead?_eq_some.mpr whole.symm), ?_⟩
    exact fun absent rest found => absent ⟨rest, (afterLead?_eq_some.mp found).symm⟩
  induction chars with
  | nil =>
    rw [cutLast?, Option.map_eq_none_iff, leads, List.prefix_nil, List.infix_nil]
  | cons c tail ih =>
    have splits : ¬ mark <:+: c :: tail ↔
        afterLead? mark (c :: tail) = none ∧ cutLast? mark tail = none :=
      (not_congr List.infix_cons_iff).trans (not_or.trans (and_congr (leads _).symm ih.symm))
    rw [splits, cutLast?]
    split
    · next later => simp [later]
    · next later => simp [later]

/-! ## Lower case keeps blanks -/

/-- The code points of the blanks. -/
def blankPoints : List Nat :=
  [9, 10, 11, 12, 13, 0x20, 0x85, 0xA0, 0x1680, 0x2000, 0x2001, 0x2002, 0x2003, 0x2004, 0x2005,
    0x2006, 0x2007, 0x2008, 0x2009, 0x200A, 0x2028, 0x2029, 0x202F, 0x205F, 0x3000]

theorem mem_blankPoints {c : Char} (blank : isBlank c = true) : c.toNat ∈ blankPoints := by
  simp only [isBlank, Bool.or_eq_true, Bool.and_eq_true, decide_eq_true_eq, beq_iff_eq] at blank
  simp only [blankPoints, List.mem_cons, List.not_mem_nil, or_false]
  omega

theorem lowerChar_of_isBlank {c : Char} (blank : isBlank c = true) :
    c.toNat ≠ 0x3A3 ∧ lowerChar c = [c] := by
  have all : ∀ point ∈ blankPoints,
      point ≠ 0x3A3 ∧ lowerChar (Char.ofNat point) = [Char.ofNat point] := by
    decide +kernel
  have own := all _ (mem_blankPoints blank)
  rwa [Char.ofNat_toNat] at own

theorem mem_lowerFrom_of_isBlank {before chars : List Char} {c : Char} (blank : isBlank c = true)
    (member : c ∈ chars) : c ∈ lowerFrom before chars := by
  induction chars generalizing before with
  | nil => exact absurd member List.not_mem_nil
  | cons first others ih =>
    rcases List.mem_cons.mp member with rfl | later
    · obtain ⟨noSigma, same⟩ := lowerChar_of_isBlank blank
      unfold lowerFrom
      dsimp only
      rw [if_neg (by simpa using noSigma), same]
      exact List.mem_append_left _ (List.mem_singleton_self c)
    · exact List.mem_append_right _ (ih later)

/-! ## Letters that have no relatives beyond ASCII -/

/-- The letters of the words before a priority. -/
def priorityLetters : List Char := "withprory".toList

theorem asciiLower_of_foldChar {c d : Char} (letter : c ∈ priorityLetters)
    (alike : foldChar c = foldChar d) : asciiLower d = c := by
  have all : priorityLetters.all (fun c => chosenPoint c.toNat = c.toNat ∧ asciiLower c = c ∧
      ∀ point ∈ (CharSet.single c).foldSources, asciiLower (Char.ofNat point) = c) = true := by
    decide +kernel
  obtain ⟨chosen, lower, sources⟩ := of_decide_eq_true (List.all_eq_true.mp all c letter)
  have same := (foldChar_eq_iff c d).mp alike
  rw [chosen] at same
  rcases moved_or_chosen d.toNat with moved | itself
  · rw [← same] at moved
    have own : (CharSet.single c).hasPoint c.toNat = true := by
      simp [CharSet.single, CharSet.hasPoint, inRanges]
    have source := sources _ (CharSet.mem_foldSources.mpr ⟨_, moved, own⟩)
    rwa [Char.ofNat_toNat] at source
  · rw [← CharSet.toNat_injective (same.trans itself)]
    exact lower

end Text

namespace EventPriority

theorem isBlank_of_mem_name (priority : EventPriority) {c : Char}
    (member : c ∈ priority.name.toList) : Text.isBlank c = false := by
  have solid : priority.name.toList.all (!Text.isBlank ·) = true := by
    cases priority <;> decide +kernel
  simpa using List.all_eq_true.mp solid c member

/-- The word for a priority has no blank inside. -/
theorem isBlank_of_read? {word : List Char} {priority : EventPriority}
    (reads : read? (String.ofList word) = some priority) :
    ∀ c ∈ Text.trimChars word, Text.isBlank c = false := by
  intro c member
  refine Bool.not_eq_true _ ▸ fun blank => ?_
  have named : priority.name = Text.lower (Text.trim (String.ofList word)) := by
    simpa using List.find?_some reads
  have inName : c ∈ priority.name.toList := by
    rw [named, Text.lower, String.toList_ofList, Text.toList_trim, String.toList_ofList]
    exact Text.mem_lowerFrom_of_isBlank blank member
  rw [isBlank_of_mem_name priority inName] at blank
  cases blank

end EventPriority

namespace EventStructure

/-! ## Priorities at the end of a text -/

/-- Blanks, but not none. -/
def IsGap (text : List Char) : Prop :=
  text ≠ [] ∧ ∀ c ∈ text, Text.isBlank c = true

/-- A text gives a priority at its end: the two words for it, whatever the case of their letters,
with blanks around them, and behind them the name. -/
inductive GivesPriority : List Char → List Char → Prop
  | intro (front : List Char) {before first between second behind named : List Char}
      (gapBefore : IsGap before) (isFirst : first.map Text.asciiLower = "with".toList)
      (gapBetween : IsGap between) (isSecond : second.map Text.asciiLower = "priority".toList)
      (gapBehind : IsGap behind) (starts : ∃ c ∈ named.head?, Text.isBlank c = false) :
      GivesPriority (front ++ (before ++ (first ++ (between ++ (second ++ (behind ++ named))))))
        named

/-- The last priority that a text gives at its end. -/
structure LastPriority (text named : List Char) : Prop where
  gives : GivesPriority text named
  last : ∀ other, GivesPriority text other → named.length ≤ other.length

variable {text named other : List Char}

theorem GivesPriority.longer (gives : GivesPriority text named) {whole : List Char}
    (ends : text <:+ whole) : GivesPriority whole named := by
  obtain ⟨start, rfl⟩ := ends
  cases gives with
  | intro front gapBefore isFirst gapBetween isSecond gapBehind starts =>
    rw [← List.append_assoc]
    exact .intro (start ++ front) gapBefore isFirst gapBetween isSecond gapBehind starts

/-- There is a blank in front of the name. -/
theorem GivesPriority.spaced (gives : GivesPriority text named) :
    ∃ blank, Text.isBlank blank = true ∧ blank :: named <:+ text := by
  cases gives with
  | @intro front before first between second behind named _ _ _ _ gapBehind _ =>
    obtain ⟨nonempty, blanks⟩ := gapBehind
    refine ⟨behind.getLast nonempty, blanks _ (List.getLast_mem nonempty), ?_⟩
    have ends : behind.getLast nonempty :: named <:+ behind ++ named :=
      ⟨behind.dropLast, by rw [List.append_cons, List.dropLast_append_getLast]⟩
    refine ends.trans ?_
    simp only [← List.append_assoc _ _ (behind ++ named)]
    exact List.suffix_append _ _

theorem GivesPriority.trimmed (gives : GivesPriority text named)
    (ends : ∀ c ∈ text.getLast?, Text.isBlank c = false) : Text.trimChars named = named := by
  obtain ⟨_, _, part⟩ := gives.spaced
  refine Text.trimChars_eq_self_iff.mpr
    ⟨?_, Text.ends_of_suffix ((List.suffix_cons _ _).trans part) ends⟩
  cases gives with
  | intro _ _ _ _ _ _ starts =>
    obtain ⟨first, isFirst, solid⟩ := starts
    intro c member
    rw [← Option.mem_unique isFirst member]
    exact solid

/-- The name of a priority that is not the last has a blank inside. -/
theorem GivesPriority.isBlank_of_shorter (gives : GivesPriority text named)
    (later : GivesPriority text other) (shorter : other.length < named.length) :
    ∃ c ∈ named, Text.isBlank c = true := by
  obtain ⟨_, _, whole⟩ := gives.spaced
  obtain ⟨blank, isBlank, part⟩ := later.spaced
  have inside : blank :: other <:+ named :=
    List.suffix_of_suffix_length_le part ((List.suffix_cons _ _).trans whole) shorter
  exact ⟨blank, inside.subset List.mem_cons_self, isBlank⟩

theorem GivesPriority.exists_last (gives : GivesPriority text named) :
    ∃ last, LastPriority text last := by
  obtain ⟨last, isLast, least⟩ := (measure List.length).wf.has_min
    {named | GivesPriority text named} ⟨named, gives⟩
  exact ⟨last, isLast, fun other given => Nat.le_of_not_lt (least other given)⟩

/-- A name without blanks inside is that of the last priority. -/
theorem LastPriority.eq (last : LastPriority text named) (gives : GivesPriority text other)
    (solid : ∀ c ∈ other, Text.isBlank c = false) : other = named := by
  have short : other.length ≤ named.length := by
    refine Nat.le_of_not_lt fun shorter => ?_
    obtain ⟨c, member, blank⟩ := gives.isBlank_of_shorter last.gives shorter
    rw [solid c member] at blank
    cases blank
  obtain ⟨_, _, whole⟩ := last.gives.spaced
  obtain ⟨_, _, part⟩ := gives.spaced
  exact (List.suffix_of_suffix_length_le ((List.suffix_cons _ _).trans part)
    ((List.suffix_cons _ _).trans whole) short).eq_of_length (short.antisymm (last.last _ gives))

/-- What stands behind the two words and the blanks, in a text that does not end in a blank. -/
theorem gives_of_words (front : List Char) {before first between second behind rest : List Char}
    (gapBefore : IsGap before) (isFirst : first.map Text.asciiLower = "with".toList)
    (gapBetween : IsGap between) (isSecond : second.map Text.asciiLower = "priority".toList)
    (gapBehind : IsGap behind)
    (whole : text = front ++ (before ++ (first ++ (between ++ (second ++ (behind ++ rest))))))
    (ends : ∀ c ∈ text.getLast?, Text.isBlank c = false) :
    GivesPriority text (rest.dropWhile Text.isBlank) := by
  have named : rest.dropWhile Text.isBlank ≠ [] := by
    intro absent
    have blanks : ∀ c ∈ behind ++ rest, Text.isBlank c = true :=
      List.forall_mem_append.mpr ⟨gapBehind.2, List.dropWhile_eq_nil_iff.mp absent⟩
    have nonempty : behind ++ rest ≠ [] := List.append_ne_nil_of_left_ne_nil gapBehind.1 rest
    have last : text.getLast? = some ((behind ++ rest).getLast nonempty) := by
      rw [whole, ← List.getLast?_eq_some_getLast]
      simp only [← List.append_assoc _ _ (behind ++ rest)]
      exact List.getLast?_append_of_ne_nil _ nonempty
    have blank := blanks _ (List.getLast_mem nonempty)
    rw [ends _ last] at blank
    cases blank
  have more : IsGap (behind ++ rest.takeWhile Text.isBlank) :=
    ⟨List.append_ne_nil_of_left_ne_nil gapBehind.1 _,
      List.forall_mem_append.mpr ⟨gapBehind.2, fun _ => List.mem_takeWhile_imp⟩⟩
  have starts : ∃ c ∈ (rest.dropWhile Text.isBlank).head?, Text.isBlank c = false :=
    ⟨_, List.head?_eq_some_head named, by simpa using List.head_dropWhile_not _ named⟩
  have gives := GivesPriority.intro front gapBefore isFirst gapBetween isSecond more starts
  rwa [List.append_assoc behind, List.takeWhile_append_dropWhile, ← whole] at gives

/-! ## Priorities behind the plain words -/

/-- The words for a priority are in a header as they are looked for, with single spaces. -/
def PlainlyGiven (header : List Char) : Prop :=
  priorityWords <:+: (stripOn header).map Text.asciiLower

theorem stripOn_suffix (header : List Char) : stripOn header <:+ header := by
  unfold stripOn
  split
  · exact (List.dropWhile_suffix _).trans (List.drop_suffix _ _)
  · exact List.suffix_rfl

theorem cutPriority?_eq_none_iff : cutPriority? (stripOn text) = none ↔ ¬ PlainlyGiven text := by
  rw [cutPriority?, Option.map_eq_none_iff, Text.cutLast?_eq_none_iff, PlainlyGiven]

theorem isGap_of_space {text : List Char} (space : text.map Text.asciiLower = [' ']) :
    IsGap text := by
  obtain ⟨c, rest, rfl, lower, none⟩ := List.map_eq_cons_iff.mp space
  obtain rfl := List.map_eq_nil_iff.mp none
  have blank : Text.isBlank c = true := by
    by_cases ascii : c.toNat < 128
    · have all : ∀ point < 128, Text.asciiLower (Char.ofNat point) = ' ' →
          Text.isBlank (Char.ofNat point) = true := by
        decide +kernel
      have own := all _ ascii
      rw [Char.ofNat_toNat] at own
      exact own lower
    · rw [Text.asciiLower_of_not_ascii ascii] at lower
      rw [lower]
      rfl
  exact ⟨List.cons_ne_nil _ _, List.forall_mem_singleton.mpr blank⟩

theorem gives_of_cutPriority? {rest written : List Char}
    (cut : cutPriority? text = some (rest, written))
    (ends : ∀ c ∈ text.getLast?, Text.isBlank c = false) : GivesPriority text written := by
  obtain ⟨⟨before, after⟩, found, same⟩ := Option.map_eq_some_iff.mp cut
  obtain ⟨-, rfl⟩ := Prod.mk.inj same
  obtain ⟨front, tail, rfl, rfl, isTail⟩ :=
    List.map_eq_append_iff.mp (Text.eq_of_cutLast? found)
  obtain ⟨words, behind, rfl, isWords, -⟩ := List.map_eq_append_iff.mp isTail
  have named : Text.trimChars ((front ++ (words ++ behind)).drop
      ((front.map Text.asciiLower).length + priorityWords.length)) =
        behind.dropWhile Text.isBlank := by
    rw [← isWords, List.length_map, List.length_map, ← List.length_append, ← List.append_assoc,
      List.drop_left]
    exact Text.trimChars_of_suffix ((List.suffix_append _ _).trans (List.suffix_append _ _)) ends
  rw [named]
  have spelt : priorityWords =
      [' '] ++ ("with".toList ++ ([' '] ++ ("priority".toList ++ [' ']))) := rfl
  rw [spelt] at isWords
  obtain ⟨gap, words, rfl, isGap, isWords⟩ := List.map_eq_append_iff.mp isWords
  obtain ⟨first, words, rfl, isFirst, isWords⟩ := List.map_eq_append_iff.mp isWords
  obtain ⟨between, words, rfl, isBetween, isWords⟩ := List.map_eq_append_iff.mp isWords
  obtain ⟨second, last, rfl, isSecond, isLast⟩ := List.map_eq_append_iff.mp isWords
  exact gives_of_words front (isGap_of_space isGap) isFirst (isGap_of_space isBetween) isSecond
    (isGap_of_space isLast) (by simp only [List.append_assoc]) ends

/-! ## Priorities that patterns derive -/

/-- The part at the end of the patterns of events. -/
def prioritySuffix : List Piece :=
  .blanks :: ("with".toList.map .literal ++
    .blanks :: ("priority".toList.map .literal ++ [.blanks, .raw ".+".toList]))

/-- A header is derived from a pattern through the priority at its end. -/
def DerivesPriority (pattern : Pattern) (text : List Char) : Prop :=
  ∃ body front ending found named,
    pattern.pieces = body ++ [.optional [.mk none prioritySuffix] false] ∧
      Piece.DerivesAll body front found ∧ Piece.DerivesAll prioritySuffix ending named ∧
      text = front ++ ending

open Piece (DerivesAll)

theorem derivesAll_word {word : List Char} (letters : word ⊆ Text.priorityLetters)
    {others : List Piece} {text : List Char} {found : Findings}
    (derives : DerivesAll (word.map .literal ++ others) text found) :
    ∃ front rest, text = front ++ rest ∧ front.map Text.asciiLower = word ∧
      DerivesAll others rest found := by
  induction word generalizing text found with
  | nil => exact ⟨[], text, rfl, rfl, derives⟩
  | cons c word ih =>
    obtain ⟨isLetter, later⟩ := List.cons_subset.mp letters
    cases derives with
    | cons here behind =>
      cases here with
      | literal alike =>
        obtain ⟨front, rest, rfl, spelt, derived⟩ := ih later behind
        rw [Findings.empty_append]
        refine ⟨_ :: front, rest, rfl, ?_, derived⟩
        rw [List.map_cons, spelt, Text.asciiLower_of_foldChar isLetter alike]

theorem derivesAll_blanks {others : List Piece} {text : List Char} {found : Findings}
    (derives : DerivesAll (.blanks :: others) text found) :
    ∃ gap rest, text = gap ++ rest ∧ IsGap gap ∧ DerivesAll others rest found := by
  cases derives with
  | cons here behind =>
    cases here with
    | blanks nonempty all =>
      rw [Findings.empty_append]
      exact ⟨_, _, rfl, ⟨nonempty, all⟩, behind⟩

/-- A header that is derived through the priority of a pattern gives one. -/
theorem gives_of_derives {pattern : Pattern} (derives : DerivesPriority pattern text)
    (ends : ∀ c ∈ text.getLast?, Text.isBlank c = false) :
    ∃ named, GivesPriority text named := by
  obtain ⟨_, front, ending, _, _, -, -, derived, rfl⟩ := derives
  obtain ⟨before, ending, rfl, gapBefore, derived⟩ := derivesAll_blanks derived
  obtain ⟨first, ending, rfl, isFirst, derived⟩ := derivesAll_word (by decide) derived
  obtain ⟨between, ending, rfl, gapBetween, derived⟩ := derivesAll_blanks derived
  obtain ⟨second, ending, rfl, isSecond, derived⟩ := derivesAll_word (by decide) derived
  obtain ⟨behind, ending, rfl, gapBehind, -⟩ := derivesAll_blanks derived
  exact ⟨_, gives_of_words front gapBefore isFirst gapBetween isSecond gapBehind rfl ends⟩

end EventStructure

namespace TriggerDraft

/-- A trigger that waits is subscribed at a priority, whatever that of the host. -/
def BindsAt (priority : EventPriority) (draft : TriggerDraft) : Prop :=
  ∀ (script : Script) (host : Host), (host.bindDraft script draft).bus.subscriptions =
    host.bus.subscriptions ++
      (Host.draftClasses draft).map (⟨·, priority, draft.toTrigger script⟩)

theorem bindsAt_of_priority {draft : TriggerDraft} {priority : EventPriority}
    (given : draft.priority = some priority) (subscribes : draft.filter.registersItself = false) :
    draft.BindsAt priority := by
  intro script host
  rw [(Host.bindDraft_spec script draft host).2.2.1, subscriptions, given, subscribes]
  rfl

end TriggerDraft

theorem EventFilter.registersItself_start (header : MatchResult) (filter : EventFilter) :
    (filter.start header).2.1.registersItself = filter.registersItself := by
  cases filter <;> rfl

namespace EventStructure

/-! ## What becomes of a priority -/

/-- An event of this filter has no priorities. -/
def Unranked (filter : EventFilter) : Prop :=
  filter.registersItself = true ∨ filter.takesPriority = false

/-- What taking a header comes to for an event when the priority that the header gives last is
heeded. -/
structure Heeds (filter : EventFilter) (line : Nat) (named : List Char) (before : Workspace)
    (result : Outcome Bool × Structure × Workspace) : Prop where
  /-- An event that has no priorities rejects the header. -/
  refused : Unranked filter →
    result.1 = .failed (.parse line "This event doesn't support event priority")
  /-- If the header is taken, the priority is kept, and the trigger is bound at it. -/
  kept : result.1 = .done true → ∃ priority event started,
    EventPriority.read? (String.ofList named) = some priority ∧ result.2.1 = .event event ∧
      event.priority = some priority ∧ event.filter = some started ∧
        (started.loads = true → ∃ draft : TriggerDraft, draft.ticket = event.ticket ∧
          draft.BindsAt priority ∧
          result.2.2.context.currentDrafts = before.context.currentDrafts ++ [draft])

variable {filter : EventFilter} {line : Nat} {text named : List Char}

/-- A priority behind the plain words is read as it is named last, unless it is refused. -/
theorem readPriority_plain (filter : EventFilter) (line : Nat) (last : LastPriority text named)
    (ends : ∀ c ∈ text.getLast?, Text.isBlank c = false) (plain : PlainlyGiven text) :
    (Unranked filter → readPriority filter line (stripOn text) =
        .error (.parse line "This event doesn't support event priority")) ∧
      ∀ given rest, readPriority filter line (stripOn text) = .ok (given, rest) →
        ¬ Unranked filter ∧ ∃ priority, given = some priority ∧
          EventPriority.read? (String.ofList named) = some priority := by
  cases cut : cutPriority? (stripOn text) with
  | none => exact absurd plain (cutPriority?_eq_none_iff.mp cut)
  | some sides =>
    obtain ⟨front, written⟩ := sides
    unfold readPriority
    rw [cut]
    dsimp only
    by_cases unranked : Unranked filter
    · have refuses : (filter.registersItself || !filter.takesPriority) = true := by
        simpa [Unranked] using unranked
      rw [if_pos refuses]
      exact ⟨fun _ => rfl, nofun⟩
    · have accepts : ¬ (filter.registersItself || !filter.takesPriority) = true := by
        simpa [Unranked] using unranked
      rw [if_neg accepts]
      refine ⟨fun refused => absurd refused unranked, fun given rest reads => ?_⟩
      cases isPriority : EventPriority.read? (String.ofList written) with
      | none =>
        rw [isPriority] at reads
        cases reads
      | some priority =>
        rw [isPriority] at reads
        obtain ⟨rfl, rfl⟩ := Prod.mk.inj (Except.ok.inj reads)
        have gives := gives_of_cutPriority? cut
          (Text.ends_of_suffix (stripOn_suffix text) ends)
        have solid := EventPriority.isBlank_of_read? isPriority
        rw [gives.trimmed (Text.ends_of_suffix (stripOn_suffix text) ends)] at solid
        rw [last.eq (gives.longer (stripOn_suffix text)) solid] at isPriority
        exact ⟨unranked, priority, rfl, isPriority⟩

/-- Without the plain words no priority is read. -/
theorem readPriority_hidden (hidden : ¬ PlainlyGiven text) :
    readPriority filter line (stripOn text) = .ok (none, stripOn text) := by
  unfold readPriority
  rw [cutPriority?_eq_none_iff.mpr hidden]

theorem start_same (info : EventInfo) (filter : EventFilter) (header : MatchResult)
    (body : Section) (event : EventStructure) (workspace : Workspace) :
    (start info filter header body event workspace).2.1.priority = event.priority ∧
      (start info filter header body event workspace).2.1.ticket = event.ticket := by
  unfold start
  dsimp only
  split
  · split <;> exact ⟨rfl, rfl⟩
  · exact ⟨rfl, rfl⟩

/-- If a filter takes its header and loads bodies, its trigger waits with the priority of the
event. -/
theorem start_kept {info : EventInfo} {filter : EventFilter} {header : MatchResult}
    {body : Section} {event : EventStructure} {workspace : Workspace}
    (taken : (start info filter header body event workspace).1 = .ok true) :
    ∃ started items, (start info filter header body event workspace).2.1.filter = some started ∧
      started.registersItself = filter.registersItself ∧
      (started.loads = true →
        (start info filter header body event workspace).2.2.context.currentDrafts =
          workspace.context.currentDrafts ++
            [⟨event.ticket, info, started, body.line, items, event.priority⟩]) := by
  have same := filter.registersItself_start header
  unfold start at taken ⊢
  generalize filter.start header = started at *
  obtain ⟨takes, started, notes⟩ := started
  dsimp only at *
  cases takes with
  | false => cases taken
  | true =>
    rw [if_pos rfl] at taken ⊢
    by_cases loads : started.loads = true
    · rw [if_pos loads] at taken ⊢
      rcases buffer_cases info started body { event with filter := some started }
        (workspace.inHost (·.note notes)) with ⟨failure, failed, _⟩ | ⟨items, _, _, restored⟩
      · rw [failed] at taken
        cases taken
      · exact ⟨started, items, rfl, same, fun _ => restored.drafts⟩
    · rw [if_neg loads] at taken ⊢
      exact ⟨started, [], rfl, same, fun loadsToo => absurd loadsToo loads⟩

/-- An event that has been given its priority heeds it. -/
theorem heeds_of_start (event : EventStructure) {priority : EventPriority}
    {workspace : Workspace} (ready : Workspace) (ranked : ¬ Unranked filter)
    (given : event.priority = some priority)
    (isPriority : EventPriority.read? (String.ofList named) = some priority)
    (sameDrafts : ready.context.currentDrafts = workspace.context.currentDrafts)
    (info : EventInfo) (header : MatchResult) (body : Section) :
    Heeds filter line named workspace
      (.ofExcept (start info filter header body event ready).1,
        .event (start info filter header body event ready).2.1,
        (start info filter header body event ready).2.2.inContext (·.takeInHand none none)) where
  refused unranked := absurd unranked ranked
  kept done := by
    have taken : (start info filter header body event ready).1 = .ok true := by
      generalize (start info filter header body event ready).1 = answer at done
      cases answer with
      | error failure => cases done
      | ok accepted => exact congrArg Except.ok (Outcome.done.inj done)
    obtain ⟨samePriority, sameTicket⟩ := start_same info filter header body event ready
    obtain ⟨started, items, isFilter, same, waits⟩ := start_kept taken
    refine ⟨priority, _, started, isPriority, rfl, samePriority.trans given, isFilter,
      fun loads => ?_⟩
    have subscribes : started.registersItself = false := by
      rw [same]
      simpa using fun registers => ranked (Or.inl registers)
    exact ⟨_, sameTicket.symm, TriggerDraft.bindsAt_of_priority given subscribes,
      (waits loads).trans (congrArg (· ++ _) sameDrafts)⟩

end EventStructure

namespace Loading

open EventStructure

variable {descriptor : Descriptor} {filter : EventFilter} {info : EventInfo}

/-- A new event is given its header with its descriptor in hand. -/
theorem takeHeader_event {assignment : Assignment}
    (creates : assignment.descriptor.create =
      fun ticket => .event { ticket, unused := some filter })
    (isEvent : assignment.descriptor.event = some info) (workspace : Workspace) :
    takeHeader assignment workspace =
      let result := initWith info assignment.header assignment.top.body
        { ticket := workspace.host.nextTicket, unused := some filter } (inHand assignment workspace)
      (.ofExcept result.1, .event result.2.1, result.2.2.inContext (·.takeInHand none none)) := by
  have given : init assignment.header assignment.top.body
      { ticket := workspace.host.nextTicket, unused := some filter }
      (inHand assignment workspace) =
        initWith info assignment.header assignment.top.body
          { ticket := workspace.host.nextTicket, unused := some filter }
          (inHand assignment workspace) := by
    have info : ((inHand assignment workspace).context.sectionInHand.getD {}).info =
        some assignment.descriptor.toStructureInfo := rfl
    simp only [init, info, isEvent]
    rfl
  rw [takeHeader_eq, creates, ← given]
  rfl

/-- An event heeds a priority that is written plainly, and does not see any other. -/
theorem takeHeader_heeds (assignment : Assignment)
    (creates : assignment.descriptor.create =
      fun ticket => .event { ticket, unused := some filter })
    (isEvent : assignment.descriptor.event = some info) {text named : List Char}
    (isText : Text.trimChars assignment.header.expr.toList = text)
    (last : LastPriority text named) (workspace : Workspace) :
    (PlainlyGiven text → Heeds filter assignment.top.body.line named workspace
        (takeHeader assignment workspace)) ∧
      (¬ PlainlyGiven text → ∀ event, (takeHeader assignment workspace).2.1 = .event event →
        event.priority = none) := by
  have ends : ∀ c ∈ text.getLast?, Text.isBlank c = false := by
    rw [← isText]
    exact Text.ends_trimChars _
  rw [takeHeader_event creates isEvent, initWith]
  dsimp only
  rw [isText]
  constructor
  · intro plain
    obtain ⟨refused, accepted⟩ :=
      readPriority_plain filter assignment.top.body.line last ends plain
    cases reads : readPriority filter assignment.top.body.line (stripOn text) with
    | error failure =>
      refine ⟨fun unranked => ?_, nofun⟩
      rw [refused unranked] at reads
      rw [← Except.error.inj reads]
      rfl
    | ok outcome =>
      obtain ⟨given, rest⟩ := outcome
      obtain ⟨ranked, priority, rfl, isPriority⟩ := accepted given rest reads
      have sameDrafts : (inHand assignment workspace).context.currentDrafts =
          workspace.context.currentDrafts := rfl
      exact heeds_of_start
        { ticket := workspace.host.nextTicket, unused := none, priority := some priority }
        (inHand assignment workspace) ranked rfl isPriority sameDrafts ..
  · intro hidden event isEvent
    rw [readPriority_hidden hidden] at isEvent
    cases Structure.event.inj isEvent
    exact (start_same ..).1

end Loading

/-! ## Registered events -/

namespace Pattern

theorem recordAll_expr (bindings : Regex.Bindings) (number : Nat) (captures : List Capture)
    (result : MatchResult) : (recordAll bindings number captures result).expr = result.expr := by
  induction captures generalizing number result with
  | nil => rfl
  | cons capture others ih =>
    rw [recordAll, ih]
    cases capture with
    | argument type => rfl
    | raw => rfl
    | mark value =>
      unfold record
      dsimp only
      split <;> rfl

/-- A match keeps the header without the blanks at its ends. -/
theorem expr_of_match? {pattern : Pattern} {expr : String} {result : MatchResult}
    (matched : pattern.match? expr = some result) : result.expr = Text.trim expr := by
  obtain ⟨bindings, _, rfl⟩ := Option.map_eq_some_iff.mp matched
  exact recordAll_expr ..

end Pattern

/-- A descriptor finds a header through the priority at the end of the pattern that matches it. -/
def Descriptor.FindsPriority (descriptor : Descriptor) (key : String) (header : MatchResult) :
    Prop :=
  descriptor.match? key = some header ∧
    ∃ pattern, descriptor.patterns[header.pattern]? = some pattern ∧
      EventStructure.DerivesPriority pattern (Text.trimChars key.toList)

theorem Descriptor.trimChars_of_match? {descriptor : Descriptor} {key : String}
    {header : MatchResult} (matched : descriptor.match? key = some header) :
    Text.trimChars header.expr.toList = Text.trimChars key.toList := by
  obtain ⟨_, result, _, found, shape, _⟩ := Descriptor.finds_of_match? matched
  have same : header.expr = result.expr := by rw [shape]
  rw [same, Pattern.expr_of_match? found, Text.toList_trim, Text.trimChars_trimChars]

namespace Registry

open EventStructure Loading

/-- The only descriptor of a registry in which one event with one pattern is registered. -/
theorem exists_single (name : String) (classes : List String) (filter : EventFilter)
    (source : String) (isOk : (Pattern.compile (eventPattern source)).isOk = true) :
    ∃ after descriptor pattern, ({} : Registry).registerEvent name classes filter [source] =
        .ok after ∧ descriptor ∈ after.all ∧ descriptor.patterns = [pattern] ∧
      Pattern.compile (eventPattern source) = .ok pattern := by
  obtain ⟨pattern, compiles⟩ := Pattern.exists_of_isOk isOk
  let descriptor : Descriptor :=
    { id := eventId name
      order := none
      patterns := [pattern]
      event := some ⟨name, classes.map EventClass.of⟩
      create := fun ticket => .event { ticket, unused := some filter } }
  refine ⟨({} : Registry).add descriptor, descriptor, pattern, ?_, List.mem_singleton_self _, rfl,
    compiles⟩
  unfold registerEvent
  rw [List.map_singleton, Pattern.compileAll, compiles]
  rfl

theorem alone_word (word : List Char) {others : List Piece} (alone : Piece.AllStandAlone others) :
    Piece.AllStandAlone (word.map .literal ++ others) := by
  induction word with
  | nil => exact alone
  | cons _ _ ih => exact ⟨trivial, ih⟩

theorem alone_prioritySuffix : Piece.AllStandAlone prioritySuffix := by
  have raw : Piece.StandsAlone (.raw ".+".toList) :=
    ⟨.repeated 1 none true (.oneOf .exceptLineFeed), rfl, trivial⟩
  exact ⟨trivial, alone_word _ ⟨trivial, alone_word _ ⟨trivial, raw, trivial⟩⟩⟩

/-- A header that is found through the priority of a registered event gives a priority. Where it
stands behind the plain words, events without priorities reject the header, and others keep the
priority that is named last, if they take the header at all. Behind any other blanks it is not
seen. -/
theorem registerEvent_heeds {registry after : Registry} {name : String}
    {classes : List String} {filter : EventFilter} {sources : List String}
    (registers : registry.registerEvent name classes filter sources = .ok after)
    {descriptor : Descriptor} (member : descriptor ∈ after.all) (isNew : descriptor ∉ registry.all)
    {top : TopSection} {header : MatchResult}
    (finds : descriptor.FindsPriority top.body.key header) (workspace : Workspace) :
    ∃ named, LastPriority (Text.trimChars top.body.key.toList) named ∧
      (PlainlyGiven (Text.trimChars top.body.key.toList) →
        Heeds filter top.body.line named workspace
          (takeHeader ⟨descriptor, header, top⟩ workspace)) ∧
      (¬ PlainlyGiven (Text.trimChars top.body.key.toList) → ∀ event,
        (takeHeader ⟨descriptor, header, top⟩ workspace).2.1 = .event event →
          event.priority = none) := by
  obtain ⟨matched, pattern, _, derives⟩ := finds
  obtain ⟨creates, isEvent⟩ := (mem_registerEvent registers member).resolve_right isNew
  obtain ⟨_, gives⟩ := gives_of_derives derives (Text.ends_trimChars _)
  obtain ⟨named, last⟩ := gives.exists_last
  exact ⟨named, last, takeHeader_heeds ⟨descriptor, header, top⟩ creates isEvent
    (Descriptor.trimChars_of_match? matched) last workspace⟩

end Registry

end ScriptBinding

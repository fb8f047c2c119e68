import ScriptBinding.Proofs.PriorityHeaders

/-! # What events are given

The filter of an event is given what the pattern of the event finds in a header, without the words
of a priority that is accepted. If the last raw expression of the pattern has taken the name of that
priority, the filter is given what it is given for the header without the priority, and the name
behind its own raw expressions. Where raw expressions ask for the end of the text, or have taken the
words of the priority themselves, it may be given something else.
-/

namespace ScriptBinding

namespace Pattern

/-- Patterns are compiled one by one. -/
theorem getElem?_compileAll {sources : List String} {patterns : List Pattern}
    (compiles : compileAll sources = .ok patterns) {place : Nat} {source : String}
    (isSource : sources[place]? = some source) :
    ∃ pattern, patterns[place]? = some pattern ∧ compile source = .ok pattern := by
  induction sources generalizing patterns place with
  | nil => cases isSource
  | cons first others ih =>
    unfold compileAll at compiles
    split at compiles
    · cases compiles
    · next pattern compiled =>
      cases rest : compileAll others with
      | error problem =>
        rw [rest] at compiles
        cases compiles
      | ok patterns =>
        rw [rest] at compiles
        cases compiles
        cases place with
        | zero =>
          cases isSource
          exact ⟨pattern, rfl, compiled⟩
        | succ place => exact ih rest isSource

end Pattern

namespace EventStructure

/-! ## The header without its priority -/

/-- What is stripped off the start of a text is stripped off what comes before its end. -/
theorem stripOn_of_append {text tail front : List Char}
    (strips : stripOn (text ++ tail) = front ++ tail) : stripOn text = front := by
  unfold stripOn at strips
  split at strips
  · next starts =>
    have long := congrArg List.length starts
    have short :=
      (List.dropWhile_suffix Text.isBlank (l := (text ++ tail).drop onWord.length)).length_le
    rw [strips] at short
    simp only [List.length_map, List.length_take, List.length_drop, List.length_append]
      at long short
    have three : onWord.length = 3 := rfl
    have inside : onWord.length ≤ text.length := by omega
    rw [List.take_append_of_le_length inside] at starts
    rw [List.drop_append_of_le_length inside, List.dropWhile_append] at strips
    rw [stripOn, if_pos starts]
    split at strips
    · next blank =>
      have none : front = [] := by
        have shorter := (List.dropWhile_suffix Text.isBlank (l := tail)).length_le
        rw [strips, List.length_append] at shorter
        exact List.length_eq_zero_iff.mp (by omega)
      rw [none, List.isEmpty_iff.mp blank]
    · exact List.append_cancel_right strips
  · next other =>
    obtain rfl := List.append_cancel_right strips
    rw [stripOn, if_neg]
    intro starts
    have long := congrArg List.length starts
    rw [List.length_map, List.length_take] at long
    refine other ?_
    rw [List.take_append_of_le_length (by omega)]
    exact starts

/-- What is cut from the end of a header, with the words in front of it. -/
theorem eq_of_cutPriority? {header rest written : List Char}
    (cut : cutPriority? header = some (rest, written))
    (ends : ∀ c ∈ header.getLast?, Text.isBlank c = false) :
    ∃ front plain gap, header = front ++ ((plain ++ gap) ++ written) ∧
      plain.map Text.asciiLower = priorityWords ∧ (∀ c ∈ gap, Text.isBlank c = true) ∧
      rest = Text.trimEndChars front := by
  obtain ⟨⟨before, after⟩, found, same⟩ := Option.map_eq_some_iff.mp cut
  obtain ⟨rfl, rfl⟩ := Prod.mk.inj same
  obtain ⟨front, tail, rfl, rfl, isTail⟩ :=
    List.map_eq_append_iff.mp (Text.eq_of_cutLast? found)
  obtain ⟨plain, behind, rfl, isPlain, -⟩ := List.map_eq_append_iff.mp isTail
  have ending : behind <:+ front ++ (plain ++ behind) :=
    (List.suffix_append _ _).trans (List.suffix_append _ _)
  refine ⟨front, plain, behind.takeWhile Text.isBlank, ?_, isPlain,
    fun _ => List.mem_takeWhile_imp, ?_⟩
  · rw [← isPlain, List.length_map, List.length_map, ← List.length_append,
      ← List.append_assoc front,
      List.drop_left, Text.trimChars_of_suffix ending ends, List.append_assoc plain,
      List.takeWhile_append_dropWhile, List.append_assoc]
  · rw [List.length_map, List.take_left]

/-- A priority that is read has been cut from the end of the header. -/
theorem cut_of_readPriority {filter : EventFilter} {line : Nat} {header rest : List Char}
    {priority : EventPriority}
    (accepted : readPriority filter line header = .ok (some priority, rest)) :
    ∃ written, cutPriority? header = some (rest, written) ∧
      EventPriority.read? (String.ofList written) = some priority := by
  unfold readPriority at accepted
  split at accepted
  · cases accepted
  · next front written cut =>
    split at accepted
    · cases accepted
    · split at accepted
      · next reads =>
        obtain ⟨isPriority, rfl⟩ := Prod.mk.inj (Except.ok.inj accepted)
        exact ⟨written, cut, reads.trans isPriority⟩
      · cases accepted

/-- A text gives the priority that is named behind the plain words for one. -/
theorem gives_of_isWords (text : List Char) {words named : List Char} (isWords : IsWords words)
    (solid : ∀ c ∈ named, Text.isBlank c = false) (nonempty : named ≠ []) :
    GivesPriority (text ++ (words ++ named)) named := by
  obtain ⟨space, first, between, second, behind, rfl, -, gapBefore, isFirst, gapBetween, isSecond,
    gapBehind⟩ := isWords.split
  have gives := GivesPriority.intro text gapBefore isFirst gapBetween isSecond gapBehind
    ⟨_, List.head?_eq_some_head nonempty, solid _ (List.head_mem nonempty)⟩
  simpa only [List.append_assoc] using gives

/-- Where a header ends in the words for a priority and its name, what is left of it is the header
without them. -/
theorem readPriority_ranked {filter : EventFilter} {line : Nat} {text words named rest : List Char}
    {priority : EventPriority} (isWords : IsWords words)
    (ends : ∀ c ∈ text.getLast?, Text.isBlank c = false)
    (solid : ∀ c ∈ named, Text.isBlank c = false) (nonempty : named ≠ [])
    (accepted : readPriority filter line (stripOn (text ++ (words ++ named))) =
      .ok (some priority, rest)) :
    EventPriority.read? (String.ofList named) = some priority ∧ rest = stripOn text := by
  obtain ⟨written, cut, reads⟩ := cut_of_readPriority accepted
  have whole : ∀ c ∈ (text ++ (words ++ named)).getLast?, Text.isBlank c = false := by
    rw [← List.append_assoc, List.getLast?_append_of_ne_nil _ nonempty]
    exact fun c isLast => solid c (List.mem_of_getLast? isLast)
  have suffix := stripOn_suffix (text ++ (words ++ named))
  have gives := (gives_of_cutPriority? cut (Text.ends_of_suffix suffix whole)).longer suffix
  -- The name has no blank inside, and neither has what is read: both are the last word.
  have same : named = written := by
    obtain ⟨last, isLast⟩ := gives.exists_last
    have solidWritten := EventPriority.isBlank_of_read? reads
    rw [gives.trimmed whole] at solidWritten
    rw [isLast.eq gives solidWritten]
    exact isLast.eq (gives_of_isWords text isWords solid nonempty) solid
  subst same
  obtain ⟨front, plain, gap, isHeader, isPlain, blank, rfl⟩ :=
    eq_of_cutPriority? cut (Text.ends_of_suffix suffix whole)
  obtain ⟨start, isWhole⟩ := suffix
  rw [isHeader, ← List.append_assoc, ← List.append_assoc, ← List.append_assoc text,
    List.append_cancel_right_eq] at isWhole
  obtain rfl : start ++ front = text := by
    obtain ⟨space, first, between, second, behind, rfl, -, gapBefore, isFirst, gapBetween, isSecond,
      gapBehind⟩ := IsWords.split ⟨plain, [], (List.append_nil plain).symm, isPlain, nofun⟩
    have gapWhole : IsGap (behind ++ gap) :=
      ⟨List.append_ne_nil_of_left_ne_nil gapBehind.1 _,
        List.forall_mem_append.mpr ⟨gapBehind.2, blank⟩⟩
    refine eq_of_words gapBefore isFirst gapBetween isSecond gapWhole isWords ends ?_
    simpa only [List.append_assoc] using isWhole
  obtain rfl := List.append_cancel_left isWhole
  refine ⟨reads, ?_⟩
  rw [stripOn_of_append isHeader, Text.trimEndChars_eq_self_iff.mpr
    (Text.ends_of_suffix (List.suffix_append start front) ends)]

/-! ## What a filter is given -/

/-- The priority that a header gives, if any, and what the filter is given for the header, unless it
is refused. -/
def given (filter : EventFilter) (line : Nat) (header : MatchResult) :
    Except Failure (Option EventPriority × MatchResult) :=
  (readPriority filter line (stripOn (Text.trimChars header.expr.toList))).map fun read =>
    (read.1, { header with expr := String.ofList read.2 })

theorem given_eq_ok {filter : EventFilter} {line : Nat} {header handed : MatchResult}
    {priority : Option EventPriority} :
    given filter line header = .ok (priority, handed) ↔ ∃ rest,
      readPriority filter line (stripOn (Text.trimChars header.expr.toList)) =
        .ok (priority, rest) ∧
        handed = { header with expr := String.ofList rest } := by
  unfold given
  cases readPriority filter line (stripOn (Text.trimChars header.expr.toList)) with
  | error failure => exact ⟨nofun, nofun⟩
  | ok read =>
    obtain ⟨found, rest⟩ := read
    constructor
    · intro same
      obtain ⟨rfl, rfl⟩ := Prod.mk.inj (Except.ok.inj same)
      exact ⟨rest, rfl, rfl⟩
    · rintro ⟨_, same, rfl⟩
      obtain ⟨rfl, rfl⟩ := Prod.mk.inj (Except.ok.inj same)
      rfl

/-- A new event starts its filter on what the filter is given, and keeps the priority. -/
theorem initWith_given {info : EventInfo} {filter : EventFilter} {header handed : MatchResult}
    {body : Section} {priority : Option EventPriority}
    (accepted : given filter body.line header = .ok (priority, handed)) (ticket : Nat)
    (workspace : Workspace) :
    initWith info header body { ticket, unused := some filter } workspace =
      start info filter handed body { ticket, unused := none, priority } workspace := by
  obtain ⟨rest, reads, rfl⟩ := given_eq_ok.mp accepted
  unfold initWith
  dsimp only
  rw [reads]
  dsimp only
  rw [Option.or_none]

/-- What an event is given for a header with a priority next to what it is given for the header
without: its pattern finds the same in both, and the name of the priority behind its own raw
expressions. -/
structure GivesAlike (filter : EventFilter) (line : Nat) (pattern : Pattern)
    (text named : List Char)
    (own handed : MatchResult) (priority : EventPriority) : Prop where
  /-- The priority that is kept is the one that is named. -/
  isNamed : EventPriority.read? (String.ofList named) = some priority
  /-- The pattern of the event finds in the header without a priority what it finds there without
  the part for one. -/
  alone : pattern.match? (String.ofList text) = some own
  expr : handed.expr = String.ofList (stripOn text)
  arguments : handed.arguments = own.arguments
  mark : handed.mark = own.mark
  raws : handed.raws = own.raws ++ [String.ofList named]
  /-- The header without a priority may still be cut, but its findings are handed on as they are. -/
  same : ∀ other bare, given filter line own = .ok (other, bare) →
    bare.arguments = handed.arguments ∧ bare.mark = handed.mark ∧
      bare.raws ++ [String.ofList named] = handed.raws

theorem givesAlike_of_ranked {filter : EventFilter} {line : Nat} {source key : String}
    {pattern bare : Pattern}
    (compiles : Pattern.compile (Registry.eventPattern source) = .ok pattern)
    (alone : Pattern.compile ("[on] " ++ source) = .ok bare)
    (openEnded : Piece.AllOpenEnded bare.pieces)
    {text words named : List Char} (ranked : pattern.Ranked key text words named)
    (solid : ∀ c ∈ named, Text.isBlank c = false) {own header handed : MatchResult}
    (itself : bare.match? (String.ofList text) = some own)
    (matched : pattern.match? key = some header) {place : Nat} {priority : EventPriority}
    (accepted : given filter line { header with pattern := place } = .ok (some priority, handed)) :
    GivesAlike filter line pattern text named own handed priority := by
  obtain ⟨items, ranks⟩ := Pattern.exists_ranks openEnded compiles alone
  obtain ⟨rest, reads, rfl⟩ := given_eq_ok.mp accepted
  cases Option.some.inj (matched.symm.trans (ranked.match?_ranked ranks itself))
  have nonempty : named ≠ [] := by
    rintro rfl
    obtain ⟨space, first, between, second, behind, isWords, -, -, -, -, -, ⟨solidNot, blank⟩⟩ :=
      ranked.isWords.split
    have last := ranked.isText
    rw [List.append_nil, isWords] at last
    simp only [← List.append_assoc _ _ behind] at last
    have isLast : behind.getLast solidNot ∈ (Text.trimChars key.toList).getLast? := by
      rw [last, List.getLast?_append_of_ne_nil _ solidNot, List.getLast?_eq_some_getLast solidNot]
      rfl
    have own := Text.ends_trimChars key.toList _ isLast
    rw [blank _ (List.getLast_mem solidNot)] at own
    cases own
  rw [Text.toList_trim, Text.trimChars_trimChars, ranked.isText] at reads
  obtain ⟨isNamed, rfl⟩ := readPriority_ranked ranked.isWords ranked.ends solid nonempty reads
  refine ⟨isNamed, ranked.match?_alone ranks itself, rfl, rfl, rfl, rfl, fun other bare gives => ?_⟩
  obtain ⟨rest, -, rfl⟩ := given_eq_ok.mp gives
  exact ⟨rfl, rfl, rfl⟩

end EventStructure

namespace Registry

open EventStructure Loading

/-- The patterns of a new event are those it is registered with, each with the part for a priority.
-/
theorem compileAll_of_registerEvent {registry after : Registry} {name : String}
    {classes : List String} {filter : EventFilter} {sources : List String} {descriptor : Descriptor}
    (registers : registry.registerEvent name classes filter sources = .ok after)
    (member : descriptor ∈ after.all) (isNew : descriptor ∉ registry.all) :
    Pattern.compileAll (sources.map eventPattern) = .ok descriptor.patterns := by
  unfold registerEvent at registers
  dsimp only at registers
  split at registers
  · cases Except.ok.inj registers
    exact absurd member isNew
  · split at registers
    · cases registers
    · next patterns compiles =>
      cases Except.ok.inj registers
      rcases mem_add member with rfl | old
      · exact compiles
      · exact absurd old isNew

/-- A header that is accepted with a priority, when the part for a priority at the end of the pattern
has taken its name, and the pattern by itself matches the header without the priority: the filter
of the event is started on what the pattern finds by itself, and the name of the priority. -/
theorem registerEvent_givesAlike {registry after : Registry} {name : String}
    {classes : List String} {filter : EventFilter} {sources : List String}
    (registers : registry.registerEvent name classes filter sources = .ok after)
    {descriptor : Descriptor} (member : descriptor ∈ after.all) (isNew : descriptor ∉ registry.all)
    {top : TopSection} {header : MatchResult}
    (matched : descriptor.match? top.body.key = some header)
    {source : String} (isSource : sources[header.pattern]? = some source)
    {pattern bare : Pattern} (isPattern : descriptor.patterns[header.pattern]? = some pattern)
    (alone : Pattern.compile ("[on] " ++ source) = .ok bare)
    (openEnded : Piece.AllOpenEnded bare.pieces)
    {text words named : List Char} (ranked : pattern.Ranked top.body.key text words named)
    (solid : ∀ c ∈ named, Text.isBlank c = false)
    {own : MatchResult} (itself : bare.match? (String.ofList text) = some own)
    {priority : EventPriority} {handed : MatchResult}
    (accepted : given filter top.body.line header = .ok (some priority, handed))
    (workspace : Workspace) :
    GivesAlike filter top.body.line pattern text named own handed priority ∧
      takeHeader ⟨descriptor, header, top⟩ workspace =
        let result := start ⟨name, classes.map EventClass.of⟩ filter handed top.body
          { ticket := workspace.host.nextTicket, unused := none, priority := some priority }
          (inHand ⟨descriptor, header, top⟩ workspace)
        (.ofExcept result.1, .event result.2.1,
          result.2.2.inContext (·.takeInHand none none)) := by
  obtain ⟨creates, isEvent⟩ := (mem_registerEvent registers member).resolve_right isNew
  obtain ⟨registered, there, compiles⟩ := Pattern.getElem?_compileAll
    (compileAll_of_registerEvent registers member isNew)
    (List.getElem?_map.trans (congrArg (Option.map eventPattern) isSource))
  obtain rfl := Option.some.inj (there.symm.trans isPattern)
  obtain ⟨_, result, here, found, shape, -⟩ := Descriptor.finds_of_match? matched
  obtain rfl := Option.some.inj (here.symm.trans isPattern)
  constructor
  · exact givesAlike_of_ranked compiles alone openEnded ranked solid itself found (shape ▸ accepted)
  · refine (takeHeader_event creates isEvent workspace).trans ?_
    rw [initWith_given accepted]

/-- What holds of a pattern that is compiled. -/
theorem exists_compiled {source : String} (holds : Pattern → Bool)
    (checks : (Pattern.compile source).toOption.any holds = true) :
    ∃ pattern, Pattern.compile source = .ok pattern ∧ holds pattern = true := by
  cases compiles : Pattern.compile source with
  | error problem =>
    rw [compiles] at checks
    cases checks
  | ok pattern =>
    rw [compiles] at checks
    exact ⟨pattern, rfl, checks⟩

/-- The only descriptor of a registry in which one event with one pattern is registered, and the
pattern by itself. -/
theorem exists_event (name source : String) (holds alone : Pattern → Bool)
    (checks : (Pattern.compile (eventPattern source)).toOption.any holds = true)
    (itself : (Pattern.compile ("[on] " ++ source)).toOption.any alone = true) :
    ∃ after descriptor pattern bare, ({} : Registry).registerEvent name [name] (.simple name)
        [source] = .ok after ∧ descriptor ∈ after.all ∧ descriptor.patterns = [pattern] ∧
      Pattern.compile (eventPattern source) = .ok pattern ∧ holds pattern = true ∧
      Pattern.compile ("[on] " ++ source) = .ok bare ∧ alone bare = true := by
  obtain ⟨made, compiles, isHeld⟩ := exists_compiled holds checks
  obtain ⟨bare, bareCompiles, bareHolds⟩ := exists_compiled alone itself
  obtain ⟨after, descriptor, pattern, registers, member, isOnly, compiled⟩ :=
    exists_single name [name] (.simple name) source (by rw [compiles]; rfl)
  obtain rfl := Except.ok.inj (compiles.symm.trans compiled)
  exact ⟨after, descriptor, made, bare, registers, member, isOnly, compiled, isHeld, bareCompiles,
    bareHolds⟩

/-- What a descriptor with one pattern finds. -/
theorem match?_of_only {descriptor : Descriptor} {pattern : Pattern} {key : String}
    {result : MatchResult} (isOnly : descriptor.patterns = [pattern])
    (found : pattern.match? key = some result) :
    descriptor.match? key = some { result with pattern := 0 } := by
  rw [Descriptor.match?, isOnly, Pattern.firstMatch?, found]

/-- A hit of a player by some amount, with a priority. -/
def rankedHit : TopSection :=
  ⟨0, ⟨"on hit Alex by 3 with priority HIGH", 1, [.simple "send \"x\"" 2]⟩⟩

/-- The placeholders of a hit. -/
def hitArguments : List (Option Argument) :=
  [some ⟨"player", "Alex"⟩, some ⟨"number", "3"⟩]

/-- Both placeholders of a hit are the same with and without a priority, also the last one, which
could take the words of the priority. -/
theorem hit_givesAlike :
    ∃ after descriptor pattern bare header own handed,
      ({} : Registry).registerEvent "hit" ["hit"] (.simple "hit") ["hit %player%[ by %number%]"] =
        .ok after ∧ descriptor ∈ after.all ∧
      descriptor.match? rankedHit.body.key = some header ∧ header.pattern = 0 ∧
      descriptor.patterns = [pattern] ∧
      Pattern.compile ("[on] " ++ "hit %player%[ by %number%]") = .ok bare ∧
      Piece.AllOpenEnded bare.pieces ∧
      pattern.Ranked rankedHit.body.key "on hit Alex by 3".toList " with priority ".toList
        "HIGH".toList ∧
      bare.match? "on hit Alex by 3" = some own ∧ own.arguments = hitArguments ∧
      given (.simple "hit") 1 header = .ok (some .high, handed) ∧
      GivesAlike (.simple "hit") 1 pattern "on hit Alex by 3".toList "HIGH".toList own handed
        .high := by
  obtain ⟨after, descriptor, pattern, bare, registers, member, isOnly, compiles, finds, alone,
    itself⟩ := exists_event "hit" "hit %player%[ by %number%]"
      (fun pattern => pattern.match? rankedHit.body.key =
        some ⟨rankedHit.body.key, 0, hitArguments, ["HIGH"], 0⟩ ∧
          pattern.priorityTaken? rankedHit.body.key = some "HIGH".toList)
      (fun bare => bare.match? "on hit Alex by 3" =
        some ⟨"on hit Alex by 3", 0, hitArguments, [], 0⟩)
      (by decide +kernel) (by decide +kernel)
  obtain ⟨found, taken⟩ := of_decide_eq_true finds
  have matched := match?_of_only isOnly found
  have pieces : bare.pieces = .optional [.mk none ("on".toList.map .literal)] true ::
      ("hit".toList.map .literal ++ [.blanks, .argument "player",
        .optional [.mk none (.blanks :: ("by".toList.map .literal ++
          [.blanks, .argument "number"]))] false]) :=
    Except.ok.inj ((Pattern.eq_of_compile alone).2.1.symm.trans rfl)
  have openEnded : Piece.AllOpenEnded bare.pieces := by
    rw [pieces]
    simp [Piece.AllOpenEnded, Piece.OpenEnded, Piece.EachOpenEnded, Piece.AlternativeOpenEnded]
  have last : "on hit Alex by 3".toList.getLast? = some '3' := by decide
  have ranked : pattern.Ranked rankedHit.body.key "on hit Alex by 3".toList
      " with priority ".toList "HIGH".toList :=
    { isText := by decide +kernel
      isWords := ⟨" with priority ".toList, [], by decide, by decide +kernel, nofun⟩
      ends := fun c isLast => Option.some.inj (last.symm.trans isLast) ▸ rfl
      taken }
  have solid : ∀ c ∈ "HIGH".toList, Text.isBlank c = false := by
    have each : "HIGH".toList.all (!Text.isBlank ·) = true := by decide
    exact fun c member => by simpa using List.all_eq_true.mp each c member
  have accepted : given (.simple "hit") 1 ⟨rankedHit.body.key, 0, hitArguments, ["HIGH"], 0⟩ =
      .ok (some .high, ⟨"hit Alex by 3", 0, hitArguments, ["HIGH"], 0⟩) := by
    rfl
  have isPattern : descriptor.patterns[0]? = some pattern := by
    rw [isOnly]
    rfl
  have alike := registerEvent_givesAlike registers member List.not_mem_nil matched rfl isPattern
    alone openEnded ranked solid (of_decide_eq_true itself) accepted {}
  exact ⟨after, descriptor, pattern, bare, _, _, _, registers, member, matched, rfl, isOnly, alone,
    openEnded, ranked, of_decide_eq_true itself, rfl, accepted, alike.1⟩

/-- A raw expression that can take anything takes the words of the priority, which is accepted all
the same: the filter is given more than for the header without the priority. -/
theorem say_givesMore :
    ∃ after descriptor pattern bare header own handed,
      ({} : Registry).registerEvent "say" ["say"] (.simple "say") ["say <.+>"] = .ok after ∧
      descriptor ∈ after.all ∧ descriptor.patterns = [pattern] ∧
      Pattern.compile ("[on] " ++ "say <.+>") = .ok bare ∧
      descriptor.match? "on say hello with priority high" = some header ∧
      given (.simple "say") 1 header = .ok (some .high, handed) ∧ handed.expr = "say hello" ∧
      bare.match? "on say hello" = some own ∧ pattern.match? "on say hello" = some own ∧
      own.raws = ["hello"] ∧ handed.raws = ["hello with priority high"] := by
  obtain ⟨after, descriptor, pattern, bare, registers, member, isOnly, -, finds, alone, itself⟩ :=
    exists_event "say" "say <.+>"
      (fun pattern => pattern.match? "on say hello with priority high" =
        some ⟨"on say hello with priority high", 0, [], ["hello with priority high"], 0⟩ ∧
          pattern.match? "on say hello" = some ⟨"on say hello", 0, [], ["hello"], 0⟩)
      (fun bare => bare.match? "on say hello" = some ⟨"on say hello", 0, [], ["hello"], 0⟩)
      (by decide +kernel) (by decide +kernel)
  obtain ⟨found, same⟩ := of_decide_eq_true finds
  have accepted : given (.simple "say") 1
      ⟨"on say hello with priority high", 0, [], ["hello with priority high"], 0⟩ =
        .ok (some .high, ⟨"say hello", 0, [], ["hello with priority high"], 0⟩) := by
    rfl
  exact ⟨after, descriptor, pattern, bare, _, _, _, registers, member, isOnly, alone,
    match?_of_only isOnly found, accepted, rfl, of_decide_eq_true itself, same, rfl, rfl⟩

end Registry

end ScriptBinding

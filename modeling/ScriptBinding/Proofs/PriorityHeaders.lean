import ScriptBinding.Proofs.MachinePreference
import ScriptBinding.Proofs.PatternSuffix

/-! # Headers with and without a priority

The pattern of an event is run with a part for a priority at its end. Where that part takes the name
of a priority, the rest of the pattern has come to the same end, with the same marks, as in a run by
itself against the header without the priority. This needs that no raw expression asks for the end of
the text or of a line: such an end is elsewhere when a priority is behind it.
-/

namespace ScriptBinding

/-! ## Raw expressions that do not ask for an end -/

namespace Piece

mutual

/-- The raw expressions of a piece are expressions by themselves, and do not ask for the end of the
text or of a line. -/
def OpenEnded : Piece → Prop
  | .literal _ | .blanks | .argument _ => True
  | .optional alternatives _ | .choice alternatives => EachOpenEnded alternatives
  | .raw text => ∃ regex, Regex.read? flags text = some regex ∧ regex.Meets Regex.Event.Endless

/-- The raw expressions of a sequence are open ended. -/
def AllOpenEnded : List Piece → Prop
  | [] => True
  | piece :: others => piece.OpenEnded ∧ AllOpenEnded others

/-- The raw expressions of an alternative are open ended. -/
def AlternativeOpenEnded : Alternative → Prop
  | .mk _ body => AllOpenEnded body

/-- The raw expressions of some alternatives are open ended. -/
def EachOpenEnded : List Alternative → Prop
  | [] => True
  | alternative :: others => AlternativeOpenEnded alternative ∧ EachOpenEnded others

end

theorem meets_catAll {property : Regex.Event → Prop} {items : List Regex}
    (meets : ∀ item ∈ items, item.Meets property) : (Regex.catAll items).Meets property :=
  (catAll_iff (Regex.Meets property) trivial (fun _ _ => Iff.rfl) _).mpr meets

theorem meets_altAll {property : Regex.Event → Prop} {bodies : List Regex}
    (meets : ∀ body ∈ bodies, body.Meets property) : (Regex.altAll bodies).Meets property := by
  induction bodies with
  | nil => trivial
  | cons first others ih =>
    obtain ⟨own, later⟩ := List.forall_mem_cons.mp meets
    cases others with
    | nil => exact own
    | cons => exact ⟨own, ih later⟩

theorem meets_named (name : String) {body : Regex} (meets : body.Meets Regex.Event.Endless) :
    (Regex.group (.named name) body).Meets Regex.Event.Endless :=
  ⟨fun _ _ _ => ⟨nofun, nofun⟩, meets⟩

theorem meets_plain {body : Regex} (meets : body.Meets Regex.Event.Endless) :
    (Regex.group .plain body).Meets Regex.Event.Endless :=
  ⟨nofun, meets⟩

mutual

theorem OpenEnded.regex? : ∀ (piece : Piece) (number : Nat), piece.OpenEnded →
    ∃ regex, piece.regex? number = some regex ∧ regex.Meets Regex.Event.Endless
  | .literal _, _, _ => ⟨_, rfl, trivial⟩
  | .blanks, _, _ => ⟨_, rfl, trivial⟩
  | .argument _, _, _ => ⟨_, rfl, meets_named _ trivial⟩
  | .raw _, _, ⟨_, reads, endless⟩ =>
    ⟨_, congrArg (Option.map _) reads, meets_named _ endless⟩
  | .choice alternatives, number, openEnded => by
    obtain ⟨bodies, made, endless⟩ := EachOpenEnded.regexOfEach? alternatives number openEnded
    exact ⟨_, congrArg (Option.map _) made, meets_plain (meets_altAll endless)⟩
  | .optional alternatives absorbs, number, openEnded => by
    obtain ⟨bodies, made, endless⟩ := EachOpenEnded.regexOfEach? alternatives number openEnded
    refine ⟨_, congrArg (Option.map _) made, meets_plain ?_⟩
    cases absorbs with
    | false => exact meets_plain (meets_altAll endless)
    | true => exact ⟨meets_plain (meets_altAll endless), trivial⟩

theorem AllOpenEnded.regexOf? : ∀ (pieces : List Piece) (number : Nat), AllOpenEnded pieces →
    ∃ items, regexOf? number pieces = some items ∧ ∀ item ∈ items, item.Meets Regex.Event.Endless
  | [], _, _ => ⟨[], rfl, fun _ absent => absurd absent List.not_mem_nil⟩
  | piece :: others, number, ⟨own, later⟩ => by
    obtain ⟨first, made, here⟩ := OpenEnded.regex? piece number own
    obtain ⟨items, more, behind⟩ :=
      AllOpenEnded.regexOf? others (number + piece.captures.length) later
    exact ⟨first :: items, by rw [Piece.regexOf?, made, more],
      List.forall_mem_cons.mpr ⟨here, behind⟩⟩

theorem AlternativeOpenEnded.regexOfAlternative? : ∀ (alternative : Alternative) (number : Nat),
    AlternativeOpenEnded alternative → ∃ regex,
      regexOfAlternative? number alternative = some regex ∧ regex.Meets Regex.Event.Endless
  | .mk none body, number, openEnded => by
    obtain ⟨items, made, endless⟩ := AllOpenEnded.regexOf? body number openEnded
    exact ⟨_, congrArg (Option.map _) made, meets_catAll endless⟩
  | .mk (some _) body, number, openEnded => by
    obtain ⟨items, made, endless⟩ := AllOpenEnded.regexOf? body number openEnded
    exact ⟨_, congrArg (Option.map _) made, meets_named _ (meets_catAll endless)⟩

theorem EachOpenEnded.regexOfEach? : ∀ (alternatives : List Alternative) (number : Nat),
    EachOpenEnded alternatives → ∃ bodies, regexOfEach? number alternatives = some bodies ∧
      ∀ body ∈ bodies, body.Meets Regex.Event.Endless
  | [], _, _ => ⟨[], rfl, fun _ absent => absurd absent List.not_mem_nil⟩
  | alternative :: others, number, ⟨own, later⟩ => by
    obtain ⟨first, made, here⟩ :=
      AlternativeOpenEnded.regexOfAlternative? alternative number own
    obtain ⟨bodies, more, behind⟩ := EachOpenEnded.regexOfEach? others
      (number + (capturesOfAlternative alternative).length) later
    exact ⟨first :: bodies, by rw [Piece.regexOfEach?, made, more],
      List.forall_mem_cons.mpr ⟨here, behind⟩⟩

end

end Piece

namespace EventStructure

open Piece Regex Machine

/-! ## The code for a priority -/

/-- The expressions for the words of a priority, with the blanks around them. -/
def wordItems : List Regex :=
  blanksRegex :: ("with".toList.map literalRegex ++ blanksRegex ::
    ("priority".toList.map literalRegex ++ [blanksRegex]))

/-- The code for the name of a priority. -/
def nameCode (number start : Nat) : List Instruction :=
  [.mark (Capture.raw.groupName number) true, .take .exceptLineFeed,
    .fork (start + 1) (start + 3), .mark (Capture.raw.groupName number) false]

theorem priorityItems_eq (number : Nat) : priorityItems number =
    wordItems ++ [.group (.named (Capture.raw.groupName number)) namedRegex] := by
  simp only [priorityItems, wordItems, List.cons_append, List.append_assoc, List.nil_append]

theorem code_named (number start : Nat) :
    (catAll [.group (.named (Capture.raw.groupName number)) namedRegex]).reduced.code start =
      nameCode number start := by
  have reduced : (catAll [.group (.named (Capture.raw.groupName number)) namedRegex]).reduced =
      .group (some (Capture.raw.groupName number))
        (.repeated 1 none true (.set .exceptLineFeed)) := rfl
  rw [reduced]
  simp [Reduced.code, Reduced.inARow, Reduced.goOnOr, Reduced.codeLength, nameCode]

/-- The code of the words, when a fork stands in front of it. -/
def wordCode (start : Nat) : List Instruction :=
  (catAll wordItems).reduced.code (start + 1)

theorem code_priorityItems (number start : Nat) :
    (Regex.group .plain (catAll (priorityItems number))).reduced.code (start + 1) =
      wordCode start ++ nameCode number (start + 1 + (wordCode start).length) := by
  rw [reduced_plain, priorityItems_eq, code_catAll_append, code_named, wordCode,
    Reduced.length_code]

theorem code_priority (number start : Nat) :
    (catAll [priorityRegex number]).reduced.code start =
      .fork (start + 1) (start + ((wordCode start).length + 4 + 1)) ::
        (wordCode start ++ nameCode number (start + 1 + (wordCode start).length)) := by
  have length : (Regex.group .plain (catAll (priorityItems number))).reduced.codeLength =
      (wordCode start).length + 4 := by
    rw [← Reduced.length_code _ (start + 1), code_priorityItems, List.length_append]
    rfl
  rw [catAll, priorityRegex, code_optional (takesNothing_priorityItems number), length,
    code_priorityItems]

theorem stays_reduced (regex : Regex) (start : Nat) :
    Stays (fun _ => True) start (start + (regex.reduced.code start).length) start
      (regex.reduced.code start) := by
  have meets : regex.Meets (fun _ => True) := .of_all fun _ => trivial
  rw [Reduced.length_code]
  exact stays_code meets.reduced start

/-- In a machine, an optional part starts at one address: code that leads to another address, there
a group that takes the rest of a line, and the end of the text. -/
structure PartFrom (machine : Machine) (start named number : Nat) : Prop where
  fork : machine.fetch start = some (.fork (start + 1) (named + 4))
  leads : ∀ address, start < address → address < named → ∃ instruction,
    machine.fetch address = some instruction ∧
      instruction.Stays (fun _ => True) (start + 1) named address
  name : Has machine.fetch named
    (nameCode number named ++ [Instruction.check .textEnd, Instruction.accept])

section Part

variable {machine : Machine} {start named number : Nat} {thread : Regex.Thread}
  {place : Place} {steps : Nat} {final : List Mark}

theorem partFrom_of_has {words : List Instruction}
    (stays : Stays (fun _ => True) (start + 1) (start + 1 + words.length) (start + 1) words)
    (has : Has machine.fetch start (.fork (start + 1) (start + (words.length + 4 + 1)) ::
      (words ++ (nameCode number (start + 1 + words.length) ++
        [Instruction.check .textEnd, Instruction.accept])))) :
    PartFrom machine start (start + 1 + words.length) number := by
  have leave : start + (words.length + 4 + 1) = start + 1 + words.length + 4 := by omega
  refine ⟨leave ▸ has.head, fun address past below => ?_, has.tail.right⟩
  obtain ⟨index, rfl⟩ := Nat.exists_eq_add_of_le (Nat.succ_le_of_lt past)
  have early := List.getElem?_eq_getElem (Nat.lt_of_add_lt_add_left below)
  exact ⟨_, has.tail.left index _ early, stays index _ early⟩

theorem partFrom_priority (items : List Regex) (number : Nat) :
    PartFrom (held (items ++ [priorityRegex number])) (leading items).length
      ((leading items).length + 1 + (wordCode (leading items).length).length) number := by
  have has := has_held items [priorityRegex number]
  rw [code_priority, List.cons_append, List.append_assoc] at has
  exact partFrom_of_has (stays_reduced _ _) has

/-- Without a character, the part goes on no further than to where its group waits for one. -/
theorem PartFrom.opensWithin (part : PartFrom machine start named number)
    (past : start < thread.address)
    (within : thread.address ≤ named + 1) {instruction : Instruction}
    (here : machine.fetch thread.address = some instruction) :
    instruction ≠ .accept ∧ ∀ next ∈ successors place thread instruction,
      start < next.address ∧ next.address ≤ named + 1 := by
  rcases Nat.lt_or_ge thread.address named with early | late
  · obtain ⟨_, there, stays⟩ := part.leads _ past early
    cases there.symm.trans here
    refine ⟨stays.goesOn, fun next opened => ?_⟩
    have target := stays.within _ (target_of_mem_successors opened)
    exact ⟨target.1, target.2.trans (Nat.le_succ _)⟩
  · rcases Nat.le_succ_iff.mp within with at_most | last
    · obtain stands : thread.address = named := at_most.antisymm late
      rw [stands, part.name.head] at here
      cases here
      refine ⟨nofun, fun next opened => ?_⟩
      rw [List.mem_singleton.mp (target_of_mem_successors opened), stands]
      exact ⟨Nat.lt_succ_of_lt (stands ▸ past), le_rfl⟩
    · rw [last, part.name.tail.head] at here
      cases here
      exact ⟨nofun, fun _ absent => absurd absent List.not_mem_nil⟩

/-- In front of the name of a priority, no text ends. -/
theorem PartFrom.fails (part : PartFrom machine start named number)
    (gives : Gives machine steps place thread final) (ends : place.rest = [])
    (past : start < thread.address) (within : thread.address ≤ named + 1) : False := by
  induction gives with
  | @accept place thread here =>
    have goesOn : _ ∧ ∀ next ∈ successors place thread .accept, _ :=
      part.opensWithin past within here
    exact goesOn.1 rfl
  | take => cases ends
  | move here opened _ ih =>
    obtain ⟨past, within⟩ := (part.opensWithin past within here).2 _ opened
    exact ih ends past within

/-- At the end of a text, the part may be left out. -/
theorem PartFrom.accepts (part : PartFrom machine start named number) (early : List Char) :
    ∃ steps final, Gives machine steps (.between early []) ⟨start, []⟩ final := by
  have behind := part.name.tail.tail.tail.tail
  have leaves : Gives machine 1 (.between early []) ⟨named + 4, []⟩ _ :=
    .move behind.head (List.mem_singleton_self _) (.accept behind.tail.head)
  exact ⟨_, _, .move part.fork (List.mem_cons_of_mem _ (List.mem_singleton_self _)) leaves⟩

/-- Behind the first character of the name, the rest of a line belongs to it. -/
theorem PartFrom.takesRest (part : PartFrom machine start named number) {offset : Nat}
    {before : Option Char} {chars : List Char} (inLine : '\n' ∉ chars) (marks : List Mark) :
    ∃ steps final, Gives machine steps ⟨offset, before, chars⟩ ⟨named + 2, marks⟩ final := by
  have takes := part.name.tail
  have again := takes.tail
  have closes := again.tail
  have ends := closes.tail
  induction chars generalizing offset before with
  | nil =>
    have leaves : Gives machine 2 ⟨offset, before, []⟩ ⟨named + 3, marks⟩ _ :=
      .move closes.head (List.mem_singleton_self _)
        (.move ends.head (List.mem_singleton_self _) (.accept ends.tail.head))
    exact ⟨_, _, .move again.head (List.mem_cons_of_mem _ (List.mem_singleton_self _)) leaves⟩
  | cons c rest ih =>
    obtain ⟨isNot, later⟩ := not_or.mp (List.mem_cons.not.mp inLine)
    obtain ⟨steps, final, onward⟩ :
        ∃ steps final, Gives machine steps ⟨offset + 1, some c, rest⟩ ⟨named + 2, marks⟩ final :=
      ih later
    have once : Gives machine (steps + 1) ⟨offset, before, c :: rest⟩ ⟨named + 1, marks⟩ final :=
      .take takes.head ((CharSet.contains_exceptLineFeed c).mpr (Ne.symm isNot)) onward
    exact ⟨_, _, .move again.head List.mem_cons_self once⟩

/-- A thread behind the start of the part that has taken a character stands in front of the name of
the priority, where no text ends, or in the name. -/
theorem PartFrom.goesOn (part : PartFrom machine start named number) {text tail : List Char}
    (inLine : '\n' ∉ tail) (past : start < thread.address) (within : thread.address ≤ named + 4)
    (taken : ∃ address chars, machine.code[address]? = some (.take chars) ∧
      thread.address = address + 1)
    (succeeds : Succeeds machine (.between text []) [thread]) :
    Succeeds machine (.between text tail) [thread] := by
  obtain ⟨other, member, steps, final, gives⟩ := succeeds
  cases List.mem_singleton.mp member
  have behind : named + 1 < thread.address :=
    Nat.lt_of_not_le fun within => part.fails gives rfl past within
  obtain ⟨address, chars, here, stands⟩ := taken
  have inName := part.name.tail.tail
  -- The instructions behind the one that takes the name take nothing.
  have only : address = named + 1 := by
    have cases : address = named + 1 ∨ address = named + 2 ∨ address = named + 3 := by omega
    rcases cases with taking | forks | closes
    · exact taking
    · cases (forks ▸ here).symm.trans inName.head
    · cases (closes ▸ here).symm.trans inName.tail.head
  obtain ⟨_, marks⟩ := thread
  cases stands.trans (congrArg (· + 1) only)
  exact ⟨_, member, part.takesRest inLine marks⟩

end Part

end EventStructure

/-! ## A pattern with and without the part for a priority -/

namespace Pattern

open Regex Machine EventStructure

/-- What the last raw expression of a pattern, which is that of the priority in the pattern of an
event, takes from a header. -/
def priorityTaken? (pattern : Pattern) (expr : String) : Option (List Char) :=
  (pattern.machine.search? (Text.trimChars expr.toList)).bind
    (·.lookup (Capture.raw.groupName (pattern.captures.length - 1)))

variable {source : String} {pattern bare : Pattern}

/-- The pattern of an event is the pattern without the part for a priority, and that part. -/
theorem pieces_eventPattern (compiles : compile (Registry.eventPattern source) = .ok pattern)
    (alone : compile ("[on] " ++ source) = .ok bare) :
    pattern.pieces = bare.pieces ++ [priorityPiece] := by
  have suffix : Piece.readPattern "[ with priority <.+>]".toList = .ok [priorityPiece] := by rfl
  have whole := Piece.readPattern_append (eq_of_compile alone).2.1 suffix (by decide)
  rw [← String.toList_append] at whole
  exact Except.ok.inj ((eq_of_compile compiles).2.1.symm.trans whole)

/-- A pattern whose raw expressions are expressions by themselves is run between the ends of the
text. -/
theorem machine_eq_held {items : List Regex} (compiles : compile source = .ok pattern)
    (made : Piece.regexOf? 0 pattern.pieces = some items) :
    pattern.machine = held items ∧ (items.flatMap groupNames).Nodup := by
  have compiled := (eq_of_compile compiles).2.2
  rw [Piece.wholeRegex?, made] at compiled
  obtain ⟨same, distinct⟩ := eq_ofReduced_of_machine? compiled
  rw [groupNames_catAll, List.flatMap_append, List.flatMap_cons] at distinct
  exact ⟨same, (List.append_nil (items.flatMap groupNames)) ▸ distinct⟩

/-- How a pattern is run by itself, and with the part for a priority behind it. -/
structure Ranks (pattern bare : Pattern) (items : List Regex) : Prop where
  captures : pattern.captures = bare.captures ++ [.raw]
  machine : pattern.machine = held (items ++ [priorityRegex bare.captures.length])
  alone : bare.machine = held items
  meets : ∀ item ∈ items, item.Meets (Event.Forward (items.flatMap groupNames))
  fresh : Capture.raw.groupName bare.captures.length ∉ items.flatMap groupNames

theorem exists_ranks (openEnded : Piece.AllOpenEnded bare.pieces)
    (compiles : compile (Registry.eventPattern source) = .ok pattern)
    (alone : compile ("[on] " ++ source) = .ok bare) : ∃ items, Ranks pattern bare items := by
  obtain ⟨items, made, endless⟩ := openEnded.regexOf? _ 0
  have pieces := pieces_eventPattern compiles alone
  have registered : Piece.regexOf? 0 pattern.pieces =
      some (items ++ [priorityRegex bare.captures.length]) := by
    rw [pieces]
    exact Piece.regexOf?_append made ((Nat.zero_add _).symm ▸ regexOf?_priorityPiece _)
  obtain ⟨machine, distinct⟩ := machine_eq_held compiles registered
  refine ⟨items, ?_, machine, (machine_eq_held alone made).1, fun item member => ?_,
    fun member => ?_⟩
  · rw [Pattern.captures, pieces, Piece.capturesOf_append, captures_priorityPiece]
    rfl
  · exact (endless item member).forward fun name own => List.mem_flatMap.mpr ⟨item, member, own⟩
  · rw [List.flatMap_append, List.flatMap_singleton] at distinct
    have own : Capture.raw.groupName bare.captures.length ∈
        (priorityRegex bare.captures.length).groupNames :=
      groupNames_priority _ ▸ List.mem_singleton_self _
    exact (List.nodup_append'.mp distinct).2.2 member own

variable {items : List Regex} {key : String} {text words named : List Char}
  {header own : MatchResult}

/-- A header with a priority: the words of the priority stand behind some text, and the last raw
expression of the pattern takes what stands behind them. -/
structure Ranked (pattern : Pattern) (key : String) (text words named : List Char) : Prop where
  isText : Text.trimChars key.toList = text ++ (words ++ named)
  isWords : IsWords words
  ends : ∀ c ∈ text.getLast?, Text.isBlank c = false
  taken : pattern.priorityTaken? key = some named

theorem Ranked.trimmed (ranked : Ranked pattern key text words named) :
    Text.trimChars text = text := by
  have whole := Text.trimChars_eq_self_iff.mp (Text.trimChars_trimChars key.toList)
  refine Text.trimChars_eq_self_iff.mpr ⟨fun c isFirst => whole.1 c ?_, ranked.ends⟩
  rw [ranked.isText, List.head?_append, Option.mem_def.mp isFirst]
  exact Option.some_or

/-- What the pattern records when the marks of the part for a priority come on top of those of the
pattern by itself. -/
theorem Ranks.recorded (ranks : Ranks pattern bare items) {more marks : List Mark}
    (only : ∀ mark ∈ more, mark.name = Capture.raw.groupName bare.captures.length)
    (within : ∀ mark ∈ marks, mark.offset ≤ text.length) (tail : List Char) (expr : String) :
    recordAll (bindings (text ++ tail) (more ++ marks)) 0 pattern.captures { expr := expr } =
      (recordAll (bindings text marks) 0 bare.captures { expr := expr }).with
        (Capture.raw.finds ((bindings (text ++ tail) (more ++ marks)).lookup
          (Capture.raw.groupName bare.captures.length))) := by
  have same : ∀ name ∈ Capture.names 0 bare.captures,
      (bindings (text ++ tail) (more ++ marks)).lookup name =
        (bindings text marks).lookup name := by
    intro name member
    obtain ⟨capture, place, below, rfl⟩ := Capture.exists_of_mem_names member
    have avoid : ∀ mark ∈ more, mark.name ≠ capture.groupName place := by
      intro mark there same
      have number := Capture.number_of_groupName ((only mark there).symm.trans same)
      omega
    rw [lookup_bindings_append avoid, bindings_append within]
  rw [ranks.captures, recordAll_append, recordAll_congr same, Nat.zero_add, recordAll, recordAll,
    record_eq]

/-- What the pattern finds in a header with a priority, next to what it finds by itself in the header
without. -/
structure Finds (bare : Pattern) (items : List Regex) (text tail named : List Char)
    (own : MatchResult) (more marks : List Mark) : Prop where
  found : (held (items ++ [priorityRegex bare.captures.length])).searchFrom 0 none (text ++ tail) =
    some (more ++ marks)
  taken : (bindings (text ++ tail) (more ++ marks)).lookup
    (Capture.raw.groupName bare.captures.length) = some named
  arrives : Arrives (leading items) [] (text ++ tail) [{}] text marks
  within : ∀ mark ∈ marks, mark.offset ≤ text.length
  avoid : ∀ mark ∈ marks, mark.name ≠ Capture.raw.groupName bare.captures.length
  inLine : '\n' ∉ named
  only : ∀ mark ∈ more, mark.name = Capture.raw.groupName bare.captures.length
  own : recordAll (bindings text marks) 0 bare.captures { expr := String.ofList text } = own

theorem Ranked.finds (ranked : Ranked pattern key text words named)
    (ranks : Ranks pattern bare items) (itself : bare.match? (String.ofList text) = some own) :
    ∃ more marks, Finds bare items text (words ++ named) named own more marks := by
  obtain ⟨_, search, taken⟩ := Option.bind_eq_some_iff.mp ranked.taken
  rw [ranks.captures, List.length_append, List.length_singleton, Nat.add_sub_cancel] at taken
  rw [ranked.isText, ranks.machine] at search
  obtain ⟨final, found, rfl⟩ := Option.map_eq_some_iff.mp search
  obtain ⟨_, search, isOwn⟩ := Option.map_eq_some_iff.mp itself
  rw [String.toList_ofList, ranked.trimmed, ranks.alone] at search
  obtain ⟨marks, alone, rfl⟩ := Option.map_eq_some_iff.mp search
  have begins : Begins (Event.Forward (items.flatMap groupNames)) (leading items)
      (held (items ++ [priorityRegex bare.captures.length])) :=
    begins_priority _ ⟨nofun, nofun⟩ ranks.meets
  have apart : wordOn ([] : List Char).head? = false := rfl
  obtain ⟨upTo, rest, marks', more, steps, whole, arrives, gives, rfl⟩ :=
    search_arrives begins (closes_held _) (fun _ => id) apart (starts_held _) found
  rw [List.append_nil] at arrives
  obtain ⟨rfl, inLine⟩ :=
    eq_of_taken ranks.meets ranks.fresh ranked.isWords ranked.ends whole arrives
    gives taken
  obtain rfl := arrives.unique (arrives_alone ranks.meets alone (wordOn_words ranked.isWords named))
  have within := arrives.marks (stays_leading ⟨nofun, nofun⟩ ranks.meets)
    (List.forall_mem_singleton.mpr fun _ absent => absurd absent List.not_mem_nil)
  refine ⟨more, _, found, taken, arrives, fun mark there => (within mark there).2,
    fun mark there same => ranks.fresh (same ▸ (within mark there).1), inLine,
    (gives_priority gives).1, ?_⟩
  rw [← isOwn, Text.trim, String.toList_ofList, ranked.trimmed]

/-- A pattern matches the header of an event by itself, and with the part for a priority the header
with the priority: what it finds is the same, and the name of the priority. -/
theorem Ranked.match?_ranked (ranked : Ranked pattern key text words named)
    (ranks : Ranks pattern bare items) (itself : bare.match? (String.ofList text) = some own) :
    pattern.match? key =
      some { own with expr := Text.trim key, raws := own.raws ++ [String.ofList named] } := by
  obtain ⟨more, marks, finds⟩ := ranked.finds ranks itself
  obtain ⟨findings, recorded⟩ := recordAll_with (bindings text marks) 0 bare.captures
  rw [Pattern.match?, ranked.isText, ranks.machine, Machine.search?, finds.found,
    Option.map_some, Option.map_some, ranks.recorded finds.only finds.within, finds.taken,
    recorded, ← finds.own, recorded]
  simp [MatchResult.with, Capture.finds]

/-- At the end of a text, the part for a priority is left out. -/
theorem lookup_of_ended {number steps : Nat} {added marks : List Mark}
    (gives : Gives (held (items ++ [priorityRegex number])) steps (.between text [])
      ⟨(leading items).length, []⟩ added)
    (avoid : ∀ mark ∈ marks, mark.name ≠ Capture.raw.groupName number) :
    (bindings (text ++ []) (added ++ marks)).lookup (Capture.raw.groupName number) = none := by
  obtain ⟨-, findings, derives, shows⟩ := gives_priority gives
  have recorded := shows { expr := "" }
  rw [lookup_bindings_later avoid]
  rw [recordAll, recordAll, record_eq] at recorded
  have raws := congrArg MatchResult.raws recorded
  rcases words_of_derives derives with ⟨_, none⟩ | ⟨before, _, _, _, _, _, gapBefore, _, _, _, _,
    isText, _⟩
  · simpa [MatchResult.with, Capture.finds, none] using raws
  · exact absurd (List.append_eq_nil_iff.mp isText.symm).1 gapBefore.1

theorem searchFrom_of_run {machine : Machine} {chars : List Char} {final : List Mark}
    (found : machine.run 0 none chars [{}] none = some final) :
    machine.searchFrom 0 none chars = some final := by
  cases chars with
  | nil => exact found
  | cons c rest =>
    unfold searchFrom
    rw [found]

/-- The pattern of an event finds in a header without a priority what it finds there without the
part for one, if it does so in the header with a priority. -/
theorem Ranked.match?_alone (ranked : Ranked pattern key text words named)
    (ranks : Ranks pattern bare items) (itself : bare.match? (String.ofList text) = some own) :
    pattern.match? (String.ofList text) = some own := by
  obtain ⟨more, marks, finds⟩ := ranked.finds ranks itself
  have begins : Begins (Event.Forward (items.flatMap groupNames)) (leading items)
      (held (items ++ [priorityRegex bare.captures.length])) :=
    begins_priority _ ⟨nofun, nofun⟩ ranks.meets
  have closes := closes_held (items ++ [priorityRegex bare.captures.length])
  have part := partFrom_priority items bare.captures.length
  have apart := wordOn_words ranked.isWords named
  have inLine : '\n' ∉ words ++ named := by
    rw [List.mem_append, not_or]
    exact ⟨ranked.isWords.inLine, finds.inLine⟩
  obtain ⟨threads, reaches, runs⟩ := (reaches_start _ _ _ (text ++ (words ++ named))).append begins
    closes
  rw [List.nil_append] at reaches runs
  have found := (runs _).symm.trans (run_of_searchFrom (starts_held _) finds.found)
  have length : (leading (items ++ [priorityRegex bare.captures.length])).length =
      (leading items).length + 1 + (wordCode (leading items).length).length + 4 := by
    rw [leading_append, code_priority, List.length_append, List.length_cons, List.length_append]
    change _ + (_ + 4 + 1) = _
    omega
  obtain ⟨_, _, accepts⟩ := part.accepts text
  obtain ⟨shorter, ends, added, steps, gives, rfl⟩ := reaches.ends begins closes (fun _ => id) apart
    accepts (fun thread past within => part.goesOn inLine past (length ▸ within)) finds.arrives
      found
    (fun ⟨_, _, _, _, _, whole, elsewhere, arrives, gives, same⟩ => elsewhere
      (eq_of_taken ranks.meets ranks.fresh ranked.isWords ranked.ends whole arrives gives
        (same ▸ finds.taken)).1)
  have search := searchFrom_of_run ((runs []).trans ends)
  have recorded := ranks.recorded (gives_priority gives).1 finds.within [] (String.ofList text)
  rw [lookup_of_ended gives finds.avoid, finds.own] at recorded
  rw [List.append_nil] at search recorded
  rw [Pattern.match?, Text.trim, String.toList_ofList, ranked.trimmed, ranks.machine,
    Machine.search?, search, Option.map_some, Option.map_some, recorded]
  exact congrArg some own.with_empty

end Pattern

end ScriptBinding

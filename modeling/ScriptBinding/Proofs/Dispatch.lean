import ScriptBinding.Proofs.Reports

/-! # Every section has one turn

Descriptors are gone through one after the other, and so are the sections that they leave. What
comes of it can be said of each section by itself: it has one turn, in which one new structure of
the descriptor that it belongs to is given its header, or none if no descriptor matches it. A
section that leaves no structure leaves one diagnostic of the loader.
-/

namespace ScriptBinding

/-! ## First matches -/

/-- The header is what the first pattern that matches the key finds, with the place of that
pattern. -/
def Descriptor.Finds (descriptor : Descriptor) (key : String) (header : MatchResult) : Prop :=
  ∃ pattern result, descriptor.patterns[header.pattern]? = some pattern ∧
    pattern.match? key = some result ∧ header = { result with pattern := header.pattern } ∧
    ∀ earlier < header.pattern, ∀ other, descriptor.patterns[earlier]? = some other →
      other.match? key = none

theorem Pattern.firstMatch?_finds {key : String} {place : Nat} {patterns : List Pattern}
    {header : MatchResult} (found : Pattern.firstMatch? key place patterns = some header) :
    ∃ index pattern result, header.pattern = place + index ∧ patterns[index]? = some pattern ∧
      pattern.match? key = some result ∧ header = { result with pattern := header.pattern } ∧
      ∀ earlier < index, ∀ other, patterns[earlier]? = some other → other.match? key = none := by
  induction patterns generalizing place with
  | nil => cases found
  | cons pattern others ih =>
    unfold firstMatch? at found
    cases matched : pattern.match? key with
    | some result =>
      rw [matched] at found
      cases found
      exact ⟨0, pattern, result, rfl, rfl, matched, rfl, nofun⟩
    | none =>
      rw [matched] at found
      obtain ⟨index, later, result, same, there, own, shape, first⟩ := ih found
      refine ⟨index + 1, later, result, by omega, there, own, shape, fun earlier less other => ?_⟩
      cases earlier with
      | zero => exact fun here => Option.some.inj here ▸ matched
      | succ earlier => exact first earlier (Nat.lt_of_succ_lt_succ less) other

theorem Descriptor.finds_of_match? {descriptor : Descriptor} {key : String} {header : MatchResult}
    (found : descriptor.match? key = some header) : descriptor.Finds key header := by
  obtain ⟨index, pattern, result, same, there, own, shape, first⟩ := Pattern.firstMatch?_finds found
  rw [Nat.zero_add] at same
  subst same
  exact ⟨pattern, result, there, own, shape, first⟩

/-- The first descriptor that matches a key, with those before it. -/
theorem Descriptor.first?_split {key : String} {descriptors : List Descriptor}
    {descriptor : Descriptor} {header : MatchResult}
    (found : Descriptor.first? key descriptors = some (descriptor, header)) :
    descriptor.match? key = some header ∧
      ∃ before after, descriptors = before ++ descriptor :: after ∧
        ∀ earlier ∈ before, earlier.match? key = none := by
  induction descriptors with
  | nil => cases found
  | cons first others ih =>
    unfold first? at found
    cases matched : first.match? key with
    | some result =>
      rw [matched] at found
      cases found
      exact ⟨matched, [], others, rfl, fun _ absent => absurd absent List.not_mem_nil⟩
    | none =>
      rw [matched] at found
      obtain ⟨own, before, after, rfl, none⟩ := ih found
      refine ⟨own, first :: before, after, rfl, fun earlier member => ?_⟩
      rcases List.mem_cons.mp member with rfl | later
      · exact matched
      · exact none earlier later

/-- The place, the header and the line of a structure, which are those of its section. -/
def LoadedStructure.origin (loaded : LoadedStructure) : Nat × String × Nat :=
  (loaded.index, loaded.key, loaded.line)

namespace Loading

/-! ## The descriptor of a section -/

/-- The descriptor that a section belongs to: the first preloading one that matches it, by the order
that it gives and then by its number, and only where there is none, the first of the others by
number. -/
inductive Chosen (descriptors : List Descriptor) (top : TopSection) (descriptor : Descriptor) : Prop
  | preloading (order : Int) (number : Nat) (registered : descriptors[number]? = some descriptor)
      (gives : descriptor.order = some order) (takes : descriptor.takes top = true)
      (first : ∀ other place, preloadsAt descriptors top other place →
        order < other ∨ order = other ∧ number ≤ place)
  | normal (number : Nat) (left : ∀ order place, ¬ preloadsAt descriptors top order place)
      (registered : descriptors[number]? = some descriptor) (unordered : descriptor.order = none)
      (takes : descriptor.takes top = true)
      (first : ∀ earlier < number, ∀ other, descriptors[earlier]? = some other →
        other.order = none → other.takes top = false)

theorem takes_of_match? {descriptor : Descriptor} {top : TopSection} {header : MatchResult}
    (found : descriptor.match? top.body.key = some header) : descriptor.takes top = true := by
  rw [Descriptor.takes, found, Option.isSome_some]

theorem not_takes_of_match? {descriptor : Descriptor} {top : TopSection}
    (found : descriptor.match? top.body.key = none) : ¬ descriptor.takes top = true := by
  rw [Descriptor.takes, found, Option.isSome_none]
  exact Bool.false_ne_true

/-- Numbered entries in front of one that is sorted behind them. -/
theorem map_fst_split {entries : List (Descriptor × Nat)} {before after : List Descriptor}
    {descriptor : Descriptor} (split : entries.map Prod.fst = before ++ descriptor :: after) :
    ∃ earlier number later, entries = earlier ++ (descriptor, number) :: later ∧
      earlier.map Prod.fst = before := by
  obtain ⟨earlier, rest, rfl, isBefore, isRest⟩ := List.map_eq_append_iff.mp split
  obtain ⟨⟨_, number⟩, later, rfl, rfl, _⟩ := List.map_eq_cons_iff.mp isRest
  exact ⟨earlier, number, later, rfl, isBefore⟩

/-- A section that preloading descriptors claim goes to the one it belongs to. -/
theorem chosen_of_preloading {descriptors : List Descriptor}
    (numbered : Registry.Numbered descriptors) {top : TopSection} {descriptor : Descriptor}
    {header : MatchResult}
    (found : Descriptor.first? top.body.key (numbered.entries.map Prod.fst) =
      some (descriptor, header)) : Chosen descriptors top descriptor := by
  obtain ⟨own, before, after, split, refused⟩ := Descriptor.first?_split found
  obtain ⟨earlier, number, later, entries, isBefore⟩ := map_fst_split split
  have here : (descriptor, number) ∈ numbered.entries := by rw [entries]; simp
  obtain ⟨registered, ordered⟩ := (numbered.mem_iff descriptor number).mp here
  obtain ⟨order, gives⟩ := Option.isSome_iff_exists.mp ordered
  refine .preloading order number registered gives (takes_of_match? own) ?_
  rintro otherOrder place ⟨other, otherRegistered, otherGives, takes⟩
  have there := (numbered.mem_iff other place).mpr ⟨otherRegistered, by rw [otherGives]; rfl⟩
  have sorted := numbered.sorted
  rw [entries] at there sorted
  rcases List.mem_append.mp there with inFront | behind
  · have none := refused other (isBefore ▸ List.mem_map_of_mem (f := Prod.fst) inFront)
    exact absurd takes (not_takes_of_match? none)
  · rcases List.mem_cons.mp behind with same | beyond
    · obtain ⟨rfl, rfl⟩ := Prod.mk.inj same
      exact Or.inr ⟨Option.some.inj (gives.symm.trans otherGives), le_rfl⟩
    · have rank := (List.pairwise_cons.mp (List.pairwise_append.mp sorted).2.1).1 _ beyond
      simp only [Registry.ranked, gives, otherGives, Option.getD_some] at rank
      exact rank.imp_right fun same => ⟨same.1, same.2.le⟩

/-- A place in a list of which some members are left out. -/
theorem getElem?_of_filter_split {α : Type} {stays : α → Bool} {items before after : List α}
    {item : α} (split : items.filter stays = before ++ item :: after) :
    ∃ number : Nat, items[number]? = some item ∧
      ∀ earlier < number, ∀ other, items[earlier]? = some other → stays other = true →
        other ∈ before := by
  obtain ⟨front, back, rfl, isBefore, isRest⟩ := List.filter_eq_append_iff.mp split
  obtain ⟨dropped, rest, rfl, none, stays', _⟩ := List.filter_eq_cons_iff.mp isRest
  refine ⟨front.length + dropped.length, by simp, fun earlier less other there kept => ?_⟩
  rw [← List.append_assoc, List.getElem?_append_left (by simpa using less)] at there
  rcases List.mem_append.mp (List.mem_of_getElem? there) with inFront | inDropped
  · exact isBefore ▸ List.mem_filter.mpr ⟨inFront, kept⟩
  · exact absurd kept (none other inDropped)

/-- A section that preloading descriptors leave goes to the one it belongs to. -/
theorem chosen_of_normal {descriptors : List Descriptor} {top : TopSection}
    {descriptor : Descriptor} {header : MatchResult}
    (left : ∀ order place, ¬ preloadsAt descriptors top order place)
    (found : Descriptor.first? top.body.key (descriptors.filter (·.order.isNone)) =
      some (descriptor, header)) : Chosen descriptors top descriptor := by
  obtain ⟨own, before, after, split, refused⟩ := Descriptor.first?_split found
  have member : descriptor ∈ descriptors.filter (·.order.isNone) := first?_mem found
  obtain ⟨number, registered, front⟩ := getElem?_of_filter_split split
  refine .normal number left registered (Option.isNone_iff_eq_none.mp (List.mem_filter.mp member).2)
    (takes_of_match? own) fun earlier less other there unordered => ?_
  have none := refused other (front earlier less other there (by rw [unordered]; rfl))
  exact Bool.not_eq_true _ ▸ not_takes_of_match? none

/-! ## Turns -/

/-- The line of a node, unless it has none. -/
def lineOf (line : Nat) : Option Nat :=
  if line = 0 then none else some line

/-- The diagnostic of the loader about a node that is not understood. -/
def notUnderstoodAt (script : Option Script) (line : Nat) (key : String) : Diagnostic :=
  ⟨.parse, s!"Can't understand this structure: {key}", script.map Script.name, lineOf line⟩

/-- The diagnostic of the loader about a failure in a section, at the line that the failure names or
else at that of the section. -/
def failedAt (script : Option Script) (line : Nat) (failure : Failure) : Diagnostic :=
  ⟨failure.kind, failure.text, script.map Script.name, failure.line?.or (lineOf line)⟩

theorem report_notUnderstood (line : Nat) (key : String) (workspace : Workspace) :
    (workspace.report (notUnderstood line key)).context.diagnostics =
      workspace.context.diagnostics ++ [notUnderstoodAt workspace.context.script line key] := rfl

theorem reportAt_failure (line : Nat) (failure : Failure) (workspace : Workspace) :
    (workspace.reportAt line failure).context.diagnostics =
      workspace.context.diagnostics ++ [failedAt workspace.context.script line failure] := by
  have placed : (failure.atLine line).kind = failure.kind ∧
      (failure.atLine line).text = failure.text ∧
      (failure.atLine line).line?.or (lineOf line) = failure.line?.or (lineOf line) := by
    unfold Failure.atLine
    split
    case h_4 => exact ⟨rfl, rfl, rfl⟩
    all_goals
      refine ⟨rfl, rfl, ?_⟩
      by_cases zero : line = 0 <;> simp [Failure.line?, lineOf, zero]
  obtain ⟨kind, text, place⟩ := placed
  change workspace.context.diagnostics ++ [⟨(failure.atLine line).kind, (failure.atLine line).text,
    workspace.context.script.map Script.name, (failure.atLine line).line?.or (lineOf line)⟩] = _
  rw [kind, text, place]
  rfl

/-- The place, the header and the line of a section. -/
def TopSection.origin (top : TopSection) : Nat × String × Nat :=
  (top.index, top.body.key, top.body.line)

/-- The turn of a section when the headers of a script are taken. -/
structure Turn where
  top : TopSection
  /-- The descriptor that the section is given to, with what it has found. -/
  assignment : Option Assignment
  before : Workspace
  /-- The structure that is kept. -/
  kept : Option LoadedStructure
  after : Workspace

namespace Turn

/-- How the one structure that is given the header fares, if there is one. -/
def outcome (turn : Turn) : Option (Except Failure Bool) :=
  turn.assignment.map fun assignment =>
    (takeHeader assignment turn.before).1.guarded turn.top.body.key

/-- What that structure leaves when it is given the header. -/
def taken (turn : Turn) : Workspace :=
  match turn.assignment with
  | none => turn.before
  | some assignment => (takeHeader assignment turn.before).2.2

/-- The section is given to the descriptor that it belongs to, with what that finds in the header,
and to none only if no descriptor matches it. -/
def Given (descriptors : List Descriptor) (turn : Turn) : Prop :=
  match turn.assignment with
  | none => ∀ descriptor ∈ descriptors, descriptor.takes turn.top = false
  | some assignment => assignment.top = turn.top ∧
      Chosen descriptors turn.top assignment.descriptor ∧
      assignment.descriptor.Finds turn.top.body.key assignment.header

/-- A section that takes its header is kept as a structure. Any other leaves none, and one
diagnostic of the loader. -/
def Judged (turn : Turn) : Prop :=
  let diagnostics := turn.taken.context.diagnostics
  let script := turn.before.context.script
  match turn.outcome with
  | some (.ok true) =>
    (∃ loaded, turn.kept = some loaded ∧ loaded.origin = turn.top.origin) ∧
      ∀ assignment, turn.assignment = some assignment → assignment.descriptor.order = none →
        turn.after.context.diagnostics = diagnostics
  | none | some (.ok false) =>
    turn.kept = none ∧ turn.after.context.diagnostics =
      diagnostics ++ [notUnderstoodAt script turn.top.body.line turn.top.body.key]
  | some (.error failure) =>
    turn.kept = none ∧ turn.after.context.diagnostics =
      diagnostics ++ [failedAt script turn.top.body.line failure]

/-- The turn of a section is as it should be. -/
structure Exact (descriptors : List Descriptor) (turn : Turn) : Prop where
  given : turn.Given descriptors
  /-- Giving a structure its header withdraws no diagnostic. -/
  own : turn.before.Remembers turn.taken
  judged : turn.Judged

/-- Turns that follow each other from one workspace to another. -/
def Chained : Workspace → List Turn → Workspace → Prop
  | start, [], final => final = start
  | start, turn :: others, final => turn.before = start ∧ Chained turn.after others final

theorem Chained.append {first second : List Turn} {start between final : Workspace}
    (before : Chained start first between) (after : Chained between second final) :
    Chained start (first ++ second) final := by
  induction first generalizing start with
  | nil => exact before ▸ after
  | cons turn others ih => exact ⟨before.1, ih before.2⟩

end Turn

theorem takeHeader_keeps (assignment : Assignment) (workspace : Workspace) :
    workspace.Remembers (takeHeader assignment workspace).2.2 ∧
      (takeHeader assignment workspace).2.2.context.script = workspace.context.script := by
  rw [takeHeader_eq]
  let before := inHand assignment workspace
  exact ⟨Structure.init_remembers _ assignment.header assignment.top.body before,
    (Structure.init_untouched assignment.header assignment.top.body before _).script⟩

/-- The turn of a section that is given to a descriptor, and is not preloaded. -/
def turnOf (assignment : Assignment) (workspace : Workspace) : Turn :=
  ⟨assignment.top, some assignment, workspace, (initialise assignment workspace).1,
    (initialise assignment workspace).2⟩

theorem initialise_exact {descriptors : List Descriptor} {assignment : Assignment}
    (workspace : Workspace) (chosen : Chosen descriptors assignment.top assignment.descriptor)
    (finds : assignment.descriptor.Finds assignment.top.body.key assignment.header) :
    (turnOf assignment workspace).Exact descriptors := by
  obtain ⟨remembers, script⟩ := takeHeader_keeps assignment workspace
  refine ⟨⟨rfl, chosen, finds⟩, remembers, ?_⟩
  unfold turnOf Turn.Judged Turn.outcome Turn.taken initialise
  dsimp only [Option.map_some]
  generalize takeHeader assignment workspace = result at *
  obtain ⟨outcome, inner, after⟩ := result
  dsimp only at *
  cases outcome.guarded assignment.top.body.key with
  | error failure => exact ⟨rfl, script ▸ reportAt_failure _ _ _⟩
  | ok takes =>
    cases takes with
    | true => exact ⟨⟨_, rfl, rfl⟩, fun _ _ _ => rfl⟩
    | false => exact ⟨rfl, script ▸ report_notUnderstood _ _ _⟩

/-- The turn of a section that is given to a preloading descriptor. -/
def earlyTurnOf (assignment : Assignment) (workspace : Workspace) : Turn :=
  ⟨assignment.top, some assignment, workspace, (initialisePreloading assignment workspace).1,
    (initialisePreloading assignment workspace).2⟩

theorem preload_origin (loaded : LoadedStructure) (workspace : Workspace) :
    (preload loaded workspace).1.origin = loaded.origin := by
  obtain ⟨_, ⟨inner, same⟩, _⟩ := preload_calls loaded workspace
  rw [same]
  rfl

theorem initialisePreloading_exact {descriptors : List Descriptor} {assignment : Assignment}
    (workspace : Workspace) (chosen : Chosen descriptors assignment.top assignment.descriptor)
    (finds : assignment.descriptor.Finds assignment.top.body.key assignment.header)
    (ordered : assignment.descriptor.order.isSome = true) :
    (earlyTurnOf assignment workspace).Exact descriptors := by
  have one := initialise_exact workspace chosen finds
  rcases initialised : initialise assignment workspace with ⟨_ | loaded, after⟩
  · have same : earlyTurnOf assignment workspace = turnOf assignment workspace := by
      unfold earlyTurnOf turnOf initialisePreloading
      rw [initialised]
    exact same ▸ one
  · refine ⟨one.given, one.own, ?_⟩
    have judged := one.judged
    have kept : (turnOf assignment workspace).kept = some loaded := congrArg Prod.fst initialised
    have preloaded : (earlyTurnOf assignment workspace).kept = some (preload loaded after).1 := by
      unfold earlyTurnOf initialisePreloading
      rw [initialised]
    have outcome : (earlyTurnOf assignment workspace).outcome =
        (turnOf assignment workspace).outcome := rfl
    unfold Turn.Judged at judged ⊢
    rw [outcome]
    rw [kept] at judged
    generalize (turnOf assignment workspace).outcome = outcome at judged ⊢
    rcases outcome with _ | _ | _ | _
    · exact absurd judged.1 nofun
    · exact absurd judged.1 nofun
    · exact absurd judged.1 nofun
    · obtain ⟨⟨_, ⟨⟩, origin⟩, _⟩ := judged
      refine ⟨⟨_, preloaded, (preload_origin _ after).trans origin⟩, ?_⟩
      rintro _ ⟨⟩ unordered
      rw [unordered] at ordered
      cases ordered

/-- The turn of a section that no preloading descriptor claims. -/
def lateTurnOf (descriptors : List Descriptor) (top : TopSection) (workspace : Workspace) : Turn :=
  ⟨top, assign? descriptors top, workspace, (initialiseNormal descriptors top workspace).1,
    (initialiseNormal descriptors top workspace).2⟩

theorem initialiseNormal_exact {descriptors others : List Descriptor} {top : TopSection}
    (workspace : Workspace)
    (given : ∀ assignment, assign? others top = some assignment →
      Chosen descriptors top assignment.descriptor ∧
        assignment.descriptor.Finds top.body.key assignment.header)
    (unmatched : assign? others top = none →
      ∀ descriptor ∈ descriptors, descriptor.takes top = false) :
    (lateTurnOf others top workspace).Exact descriptors := by
  cases found : assign? others top with
  | none =>
    have same : lateTurnOf others top workspace =
        ⟨top, none, workspace, none,
          workspace.report (notUnderstood top.body.line top.body.key)⟩ := by
      unfold lateTurnOf initialiseNormal
      rw [found]
    rw [same]
    exact ⟨unmatched found, .refl workspace, rfl, report_notUnderstood _ _ _⟩
  | some assignment =>
    have top? := assign?_top found
    subst top?
    obtain ⟨chosen, finds⟩ := given assignment found
    have same : lateTurnOf others assignment.top workspace = turnOf assignment workspace := by
      unfold lateTurnOf turnOf initialiseNormal
      rw [found]
    rw [same]
    exact initialise_exact workspace chosen finds

/-! ## The turns of a script -/

/-- One turn after the other. -/
theorem each_turns {α : Type} (descriptors : List Descriptor)
    (act : α → Workspace → Option LoadedStructure × Workspace) {items : List α}
    (turnOf : α → Workspace → Turn)
    (does : ∀ item workspace, (turnOf item workspace).before = workspace ∧
      ((turnOf item workspace).kept, (turnOf item workspace).after) = act item workspace)
    (exact' : ∀ item ∈ items, ∀ workspace, (turnOf item workspace).Exact descriptors)
    (top : α → TopSection) (tops : ∀ item workspace, (turnOf item workspace).top = top item)
    (workspace : Workspace) :
    ∃ turns, Turn.Chained workspace turns (each act items workspace).2 ∧
      (∀ turn ∈ turns, turn.Exact descriptors) ∧ turns.map Turn.top = items.map top ∧
      turns.map Turn.kept = (each act items workspace).1 := by
  induction items generalizing workspace with
  | nil => exact ⟨[], rfl, fun _ member => absurd member List.not_mem_nil, rfl, rfl⟩
  | cons item others ih =>
    obtain ⟨before, made⟩ := does item workspace
    obtain ⟨turns, chained, all, sections, kept⟩ :=
      ih (fun other member => exact' other (List.mem_cons_of_mem _ member)) (act item workspace).2
    rw [← made] at chained kept
    refine ⟨turnOf item workspace :: turns, ⟨before, ?_⟩, ?_, ?_, ?_⟩
    · simpa only [each, ← made] using chained
    · intro turn member
      rcases List.mem_cons.mp member with rfl | later
      · exact exact' item List.mem_cons_self workspace
      · exact all turn later
    · rw [List.map_cons, List.map_cons, tops, sections]
    · simp only [each, ← made, List.map_cons, kept]

/-- Sections are claimed or left, each once. -/
theorem claimAll_perm (descriptors : List Descriptor) (sections : List TopSection) :
    ((claimAll descriptors sections).1.map (·.top) ++ (claimAll descriptors sections).2).Perm
      sections := by
  induction descriptors generalizing sections with
  | nil => exact .refl _
  | cons descriptor others ih =>
    obtain ⟨taken, left⟩ := claim_eq descriptor sections
    rw [claimAll]
    dsimp only
    rw [List.map_append, taken, List.append_assoc]
    refine .trans (.append_left _ (ih _)) ?_
    rw [left]
    exact List.filter_append_perm _ sections

section

variable {descriptors : List Descriptor} (numbered : Registry.Numbered descriptors)
  {sections : List TopSection}

/-- A section that is claimed goes to the descriptor that it belongs to, which is preloading. -/
theorem claimed_given {assignment : Assignment}
    (member : assignment ∈ (claimAll (numbered.entries.map Prod.fst) sections).1) :
    Chosen descriptors assignment.top assignment.descriptor ∧
      assignment.descriptor.Finds assignment.top.body.key assignment.header ∧
      assignment.descriptor.order.isSome = true := by
  have found := claimAll_first? assignment member
  obtain ⟨entry, here, same⟩ := List.mem_map.mp (first?_mem found)
  obtain ⟨_, ordered⟩ := (numbered.mem_iff entry.1 entry.2).mp here
  exact ⟨chosen_of_preloading numbered found,
    Descriptor.finds_of_match? (Descriptor.first?_split found).1, same ▸ ordered⟩

theorem no_preloading_of_left {top : TopSection}
    (member : top ∈ (claimAll (numbered.entries.map Prod.fst) sections).2) :
    ∀ order place, ¬ preloadsAt descriptors top order place := by
  rw [claimAll_left] at member
  exact (left_iff numbered top).mp (List.mem_filter.mp member).2

/-- A section that is left goes to the descriptor that it belongs to, which is not preloading. -/
theorem left_given {top : TopSection}
    (member : top ∈ (claimAll (numbered.entries.map Prod.fst) sections).2) {assignment : Assignment}
    (found : assign? (descriptors.filter (·.order.isNone)) top = some assignment) :
    Chosen descriptors top assignment.descriptor ∧
      assignment.descriptor.Finds top.body.key assignment.header := by
  unfold assign? at found
  obtain ⟨⟨descriptor, header⟩, first, rfl⟩ := Option.map_eq_some_iff.mp found
  exact ⟨chosen_of_normal (no_preloading_of_left numbered member) first,
    Descriptor.finds_of_match? (Descriptor.first?_split first).1⟩

/-- A section that is left and then goes to no descriptor is matched by none. -/
theorem left_unmatched {top : TopSection}
    (member : top ∈ (claimAll (numbered.entries.map Prod.fst) sections).2)
    (unmatched : assign? (descriptors.filter (·.order.isNone)) top = none) :
    ∀ descriptor ∈ descriptors, descriptor.takes top = false := by
  intro descriptor there
  rw [← Option.not_isSome_iff_eq_none, assign?_isSome, List.any_eq_true] at unmatched
  refine Bool.not_eq_true _ ▸ fun takes => ?_
  cases gives : descriptor.order with
  | none => exact unmatched ⟨descriptor, List.mem_filter.mpr ⟨there, by rw [gives]; rfl⟩, takes⟩
  | some order =>
    obtain ⟨number, registered⟩ := List.getElem?_of_mem there
    exact no_preloading_of_left numbered member order number ⟨descriptor, registered, gives, takes⟩

end

/-- Taking the headers of a script goes through its sections, each of which has one turn. -/
theorem initialiseAll_turns (descriptors : List Descriptor) (nodes : List Node)
    (workspace : Workspace) :
    ∃ turns, Turn.Chained (reportPlain nodes workspace) turns
        (initialiseAll (Registry.ofList descriptors) nodes workspace).2 ∧
      (∀ turn ∈ turns, turn.Exact descriptors) ∧
      (turns.map Turn.top).Perm (topSections 0 nodes) ∧
      (initialiseAll (Registry.ofList descriptors) nodes workspace).1.Perm
        (turns.filterMap Turn.kept) := by
  obtain ⟨normal, numbered, preloading⟩ := Registry.ofList_numbered descriptors
  unfold initialiseAll
  rw [normal, preloading]
  have perm := claimAll_perm (numbered.entries.map Prod.fst) (topSections 0 nodes)
  have claimed : ∀ assignment ∈ (claimAll _ (topSections 0 nodes)).1, _ :=
    fun assignment member => claimed_given numbered member
  have given : ∀ top ∈ (claimAll _ (topSections 0 nodes)).2,
      ∀ assignment, assign? _ top = some assignment → _ :=
    fun top member assignment found => left_given numbered member found
  have unmatched : ∀ top ∈ (claimAll _ (topSections 0 nodes)).2, assign? _ top = none → _ :=
    fun top member none => left_unmatched numbered member none
  generalize claimAll (numbered.entries.map Prod.fst) (topSections 0 nodes) = sections at *
  obtain ⟨assignments, rest⟩ := sections
  obtain ⟨early, firstChained, firstExact, firstTops, firstKept⟩ :=
    each_turns descriptors initialisePreloading earlyTurnOf (fun _ _ => ⟨rfl, rfl⟩)
      (fun assignment member workspace =>
        have ⟨chosen, finds, ordered⟩ := claimed assignment member
        initialisePreloading_exact workspace chosen finds ordered)
      (·.top) (fun _ _ => rfl) (reportPlain nodes workspace)
  dsimp only
  obtain ⟨late, lastChained, lastExact, lastTops, lastKept⟩ :=
    each_turns descriptors (initialiseNormal (descriptors.filter (·.order.isNone)))
      (lateTurnOf (descriptors.filter (·.order.isNone)))
      (fun _ _ => ⟨rfl, rfl⟩)
      (fun top member workspace => initialiseNormal_exact workspace
        (given top member) (unmatched top member))
      id (fun _ _ => rfl) (each initialisePreloading assignments (reportPlain nodes workspace)).2
  refine ⟨early ++ late, firstChained.append lastChained, ?_, ?_, ?_⟩
  · intro turn member
    exact (List.mem_append.mp member).elim (firstExact turn) (lastExact turn)
  · rw [List.map_append, firstTops, lastTops, List.map_id]
    exact perm
  · refine (List.mergeSort_perm _ _).trans ?_
    rw [← firstKept, ← lastKept, ← List.map_append, List.reduceOption, List.filterMap_map]
    exact .refl _

/-! ## Calls for headers -/

/-- The call by which the structure at a place is given its header. -/
def isHeaderCall (place : Nat) (call : PhaseCall) : Bool :=
  call.phase == .init && call.place == place

namespace Schedule

variable {descriptors : List Descriptor} {nodes : List Node}

theorem countP_headers (place : Nat) (fates : Fates) (places : List Nat)
    (calls : Fate → Nat → List PhaseCall)
    (one : ∀ fate other, (calls fate other).countP (isHeaderCall place) =
      if other = place then 1 else 0) :
    (places.flatMap fun place => calls (fates place) place).countP (isHeaderCall place) =
      places.count place := by
  induction places with
  | nil => rfl
  | cons first others ih =>
    rw [List.flatMap_cons, List.countP_append, ih, one, List.count_cons, Nat.add_comm]
    simp only [beq_iff_eq]

theorem countP_none {place : Nat} {calls : List PhaseCall}
    (other : ∀ call ∈ calls, call.phase ≠ .init) : calls.countP (isHeaderCall place) = 0 := by
  refine List.countP_eq_zero.mpr fun call member is => ?_
  rw [isHeaderCall, Bool.and_eq_true, beq_iff_eq] at is
  exact other call member is.1

theorem earlyCalls_countP (place : Nat) (fate : Fate) (other : Nat) :
    (earlyCalls fate other).countP (isHeaderCall place) = if other = place then 1 else 0 := by
  unfold earlyCalls Fate.call
  split <;> by_cases same : other = place <;> simp [isHeaderCall, same]

theorem lateCalls_phase {early : List Nat} {fate : Fate} {place : Nat} :
    ∀ call ∈ lateCalls early fate place, call.phase ≠ .init := by
  intro call member
  unfold lateCalls at member
  split at member <;> simp [Fate.call] at member
  · rw [member]
    exact Phase.noConfusion
  · rcases member with rfl | rfl <;> exact Phase.noConfusion

/-- A load gives a header once for each place of the schedule. -/
theorem loadingCalls_countP (schedule : Schedule descriptors nodes) (fates : Fates) (place : Nat) :
    (schedule.loadingCalls fates).countP (isHeaderCall place) = schedule.places.count place := by
  have bodies : (schedule.bodyCalls fates).countP (isHeaderCall place) = 0 := by
    refine countP_none fun call member => ?_
    obtain ⟨other, _, there⟩ := List.mem_flatMap.mp member
    exact lateCalls_phase call there
  have mending : ((schedule.kept fates).map fun place =>
      (fates place).call .afterLoad place).countP (isHeaderCall place) = 0 := by
    refine countP_none fun call member => ?_
    obtain ⟨other, _, rfl⟩ := List.mem_map.mp member
    exact nofun
  have one (fate : Fate) (other : Nat) : [fate.call .init other].countP (isHeaderCall place) =
      if other = place then 1 else 0 := by
    by_cases same : other = place <;> simp [isHeaderCall, Fate.call, same]
  have normal : (schedule.normal.map fun place => (fates place).call .init place).countP
      (isHeaderCall place) = schedule.normal.count place := by
    rw [List.map_eq_flatMap]
    exact countP_headers place fates _ (fun fate other => [fate.call .init other]) one
  rw [loadingCalls, List.countP_append, List.countP_append, bodies, mending, headerCalls,
    List.countP_append, countP_headers place fates _ _ (earlyCalls_countP place), normal, places,
    List.count_append]
  rfl

theorem takes_of_preloadsAt {top : TopSection} {order : Int} {number : Nat}
    (preloads : preloadsAt descriptors top order number) :
    ∃ descriptor ∈ descriptors, descriptor.takes top = true := by
  obtain ⟨descriptor, registered, _, takes⟩ := preloads
  exact ⟨descriptor, List.mem_of_getElem? registered, takes⟩

/-- The schedule has the place of a section exactly if some descriptor matches the section. -/
theorem mem_places_iff (schedule : Schedule descriptors nodes) {top : TopSection}
    (there : top ∈ topSections 0 nodes)
    (chosen : (∃ descriptor ∈ descriptors, descriptor.takes top = true) →
      ∃ descriptor, Chosen descriptors top descriptor) :
    top.index ∈ schedule.places ↔ ∃ descriptor ∈ descriptors, descriptor.takes top = true := by
  rw [places, List.mem_append, List.mem_map]
  constructor
  · rintro (⟨taking, member, place⟩ | member)
    · obtain ⟨other, here, index, preloads, _⟩ := (schedule.mem_early taking).mp member
      have same := eq_of_index_eq here there (index.trans place)
      exact takes_of_preloadsAt (same ▸ preloads)
    · obtain ⟨other, here, index, _, descriptor, registered, _, takes⟩ :=
        (schedule.mem_normal top.index).mp member
      have same := eq_of_index_eq here there index
      exact ⟨descriptor, registered, same ▸ takes⟩
  · intro matched
    obtain ⟨descriptor, own⟩ := chosen matched
    cases own with
    | preloading order number registered gives takes first =>
      refine Or.inl ⟨⟨order, number, top.index⟩, (schedule.mem_early _).mpr ?_, rfl⟩
      exact ⟨top, there, rfl, ⟨descriptor, registered, gives, takes⟩, first⟩
    | normal number left registered unordered takes first =>
      refine Or.inr ((schedule.mem_normal _).mpr ⟨top, there, rfl, left, descriptor, ?_⟩)
      exact ⟨List.mem_of_getElem? registered, unordered, takes⟩

end Schedule

/-! ## Dispatch -/

/-- The diagnostics about the nodes of a script that are no sections. -/
def plainDiagnostics (script : Option Script) (nodes : List Node) : List Diagnostic :=
  (nodes.filter (·.section?.isNone)).map fun node => notUnderstoodAt script node.line node.key

theorem reportPlain_diagnostics (nodes : List Node) (workspace : Workspace) :
    (reportPlain nodes workspace).context.diagnostics =
      workspace.context.diagnostics ++ plainDiagnostics workspace.context.script nodes := by
  unfold reportPlain
  induction nodes generalizing workspace with
  | nil => exact (List.append_nil _).symm
  | cons node others ih =>
    rw [List.foldl_cons, ih]
    cases node with
    | nested key line nodes => rfl
    | simple key line => exact List.append_assoc _ [_] _
    | entry key value line => exact List.append_assoc _ [_] _

theorem load_origin (thread : Thread) (loaded : LoadedStructure) (workspace : Workspace) :
    (load thread loaded workspace).1.origin = loaded.origin := by
  have preloaded : (if loaded.preloaded then (loaded, workspace)
      else preload loaded workspace).1.origin = loaded.origin := by
    split
    · rfl
    · exact preload_origin loaded workspace
  unfold load
  generalize (if loaded.preloaded then (loaded, workspace)
    else preload loaded workspace) = start at *
  obtain ⟨ready, between⟩ := start
  have same := (conclude_calls .load ready (ready.inner.load thread between)).1
  dsimp only at *
  generalize conclude .load ready (ready.inner.load thread between) = concluded at *
  obtain ⟨success, after, final⟩ := concluded
  rw [show after = _ from same]
  exact preloaded

theorem each_load_origin (thread : Thread) (structures : List LoadedStructure)
    (workspace : Workspace) :
    (each (load thread) structures workspace).1.map LoadedStructure.origin =
      structures.map LoadedStructure.origin := by
  induction structures generalizing workspace with
  | nil => rfl
  | cons first others ih => exact congrArg₂ List.cons (load_origin thread first workspace) (ih _)

/-- What a load keeps of taking the headers: the structures, and every diagnostic. -/
theorem loadCurrent_keeps (registry : Registry) (thread : Thread) (script : Script)
    (nodes : List Node) (workspace : Workspace) :
    (loadCurrent registry thread script nodes workspace).1.structures.map LoadedStructure.origin =
        (initialiseAll registry nodes workspace).1.map LoadedStructure.origin ∧
      (initialiseAll registry nodes workspace).2.Remembers
        (loadCurrent registry thread script nodes workspace).2 := by
  refine ⟨?_, (remembers_carried thread).afterHeaders registry script nodes workspace⟩
  unfold loadCurrent
  dsimp only
  rw [(each_afterLoad _ _).1, each_load_origin]

theorem setScript_diagnostics (thread : Thread) (script : Option Script) (workspace : Workspace) :
    (workspace.setScript thread script).context.diagnostics = workspace.context.diagnostics := by
  unfold Workspace.setScript
  split
  · rfl
  · change (workspace.flush thread).context.diagnostics = _
    rw [Workspace.flush_context]

/-- A section that some descriptor matches belongs to one: it has a turn. -/
theorem chosen_of_turns {descriptors : List Descriptor} {turns : List Turn} {top : TopSection}
    (all : ∀ turn ∈ turns, turn.Exact descriptors) (member : top ∈ turns.map Turn.top)
    (matched : ∃ descriptor ∈ descriptors, descriptor.takes top = true) :
    ∃ descriptor, Chosen descriptors top descriptor := by
  obtain ⟨turn, there, rfl⟩ := List.mem_map.mp member
  have given := (all turn there).given
  unfold Turn.Given at given
  split at given
  · obtain ⟨descriptor, registered, takes⟩ := matched
    rw [given descriptor registered] at takes
    cases takes
  · exact ⟨_, given.2.1⟩

/-- Every section of a script has one turn, one after the other, whatever comes of the others. In
its turn a section is given to the first preloading descriptor that matches it, by order and number,
or where there is none to the first of the others by number, with what its first matching pattern
has found; one that no descriptor matches is given to none. So over the whole load there is one call
for the header of each section that is matched, and none for the others. A node that is no section
leaves one diagnostic at its line, and so does a section that is not kept, behind what its own
structure has reported: at its line, unless the structure fails with a failure that names another.
The structures of the script are those of the sections that are kept. -/
theorem loadScript_dispatches (descriptors : List Descriptor) (thread : Thread) (script : Script)
    (source : ScriptSource) (workspace : Workspace) :
    let nodes := source.tree.nodes
    let start := workspace.setScript thread (some script)
    let result := loadScript (Registry.ofList descriptors) thread script source workspace
    ∃ turns final calls,
      (turns.map Turn.top).Perm (topSections 0 nodes) ∧
      (∀ turn ∈ turns, turn.Exact descriptors) ∧
      Turn.Chained (reportPlain nodes start) turns final ∧ final.Remembers result.2 ∧
      (reportPlain nodes start).context.diagnostics =
        workspace.context.diagnostics ++ plainDiagnostics start.context.script nodes ∧
      (result.1.structures.map LoadedStructure.origin).Perm
        ((turns.filterMap Turn.kept).map LoadedStructure.origin) ∧
      result.2.context.calls = workspace.context.calls ++ calls ∧
      ∀ top ∈ topSections 0 nodes, calls.countP (isHeaderCall top.index) =
        if descriptors.any (·.takes top) then 1 else 0 := by
  intro nodes start result
  obtain ⟨turns, chained, all, perm, kept⟩ := initialiseAll_turns descriptors nodes start
  obtain ⟨origins, remembers⟩ :=
    loadCurrent_keeps (Registry.ofList descriptors) thread script nodes start
  obtain ⟨schedule, fates, _, calls⟩ := loadScript_calls descriptors thread script source workspace
  refine ⟨turns, _, schedule.loadingCalls fates, perm, all, chained, remembers, ?_, ?_, calls, ?_⟩
  · rw [reportPlain_diagnostics, setScript_diagnostics]
  · exact origins ▸ kept.map LoadedStructure.origin
  · intro top there
    have isIn := schedule.mem_places_iff there (chosen_of_turns all (perm.mem_iff.mpr there))
    rw [← List.any_eq_true] at isIn
    rw [schedule.loadingCalls_countP]
    by_cases matched : descriptors.any (·.takes top) = true
    · rw [if_pos matched]
      exact List.count_eq_one_of_mem schedule.places_nodup (isIn.mpr matched)
    · rw [if_neg matched]
      exact List.count_eq_zero.mpr fun here => matched (isIn.mp here)

/-- A descriptor of structures that refuse their header, and name a line far below. -/
def refusing (patterns : List Pattern) : Descriptor where
  id := "trace"
  order := none
  patterns
  event := none
  create _ := .custom
    { behaviour :=
        { respond := fun _ _ _ => { outcome := .failed (.config 99 "init refused") }
          priority := fun _ => 1000
          describe := fun _ => "trace" } }

/-- A script with one section, in its first line. -/
def traceSource : ScriptSource :=
  ⟨⟨"t.sk"⟩, ⟨"", 0, [.nested "trace" 1 [.simple "x" 2]]⟩⟩

/-- The one diagnostic about a section need not be at the line of the section. -/
theorem trace_reported_below :
    (topSections 0 traceSource.tree.nodes).map (·.body.line) = [1] ∧
      (Pattern.compileAll ["trace"]).toOption.map (fun patterns =>
        (loadScript (Registry.ofList [refusing patterns]) .main ⟨traceSource.path, 1⟩ traceSource
          {}).2.context.diagnostics.map (·.line)) = some [some 99] := by
  decide +kernel

end Loading

end ScriptBinding

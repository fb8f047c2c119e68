import Mathlib.Data.List.Induction
import Mathlib.Data.List.TakeWhile
import ScriptBinding.Node.Parser

/-! # Which texts are trees

The significant lines of a text are a tree when their margins are made of one character and every
line stands at a level that is open: that of a section above it, or a deeper one behind a header.
The tree then holds every line once, in the order of the text, as deep as there are sections open
around it. A text that is no tree is refused for its first line that does not fit.
-/

namespace ScriptBinding

namespace Line

/-! ## Comments -/

/-- A text in which every sign that could start a comment is doubled. -/
def doubled : List Char → List Char
  | [] => []
  | c :: rest => if c = '#' then '#' :: '#' :: doubled rest else c :: doubled rest

/-- The comment of a line starts at a sign that is not doubled. -/
def IsComment (comment : List Char) : Prop :=
  comment = [] ∨ ∃ rest, comment = '#' :: rest ∧ rest.head? ≠ some '#'

theorem dropComment_doubled (kept : List Char) {comment : List Char} (starts : IsComment comment) :
    dropComment (doubled kept ++ comment) = kept := by
  induction kept with
  | nil =>
    rcases starts with rfl | ⟨rest, rfl, single⟩
    · rfl
    · cases rest with
      | nil => rfl
      | cons c rest =>
        have other : c ≠ '#' := fun same => single (by rw [same]; rfl)
        simp [doubled, dropComment, other]
  | cons c kept ih =>
    by_cases sign : c = '#'
    · subst sign
      simp only [doubled, ↓reduceIte, List.cons_append, dropComment, ih]
    · simp [doubled, dropComment, sign, ih]

theorem exists_comment (raw : List Char) :
    ∃ comment, raw = doubled (dropComment raw) ++ comment ∧ IsComment comment := by
  fun_induction dropComment raw with
  | case1 => exact ⟨[], rfl, Or.inl rfl⟩
  | case2 rest ih =>
    obtain ⟨comment, split, starts⟩ := ih
    refine ⟨comment, ?_, starts⟩
    simp only [doubled, ↓reduceIte, List.cons_append, ← split]
  | case3 rest single =>
    refine ⟨'#' :: rest, rfl, Or.inr ⟨rest, rfl, fun sign => ?_⟩⟩
    obtain ⟨tail, rfl⟩ := List.head?_eq_some_iff.mp sign
    exact single tail rfl rfl
  | case4 c rest _ sign ih =>
    obtain ⟨comment, split, starts⟩ := ih
    refine ⟨comment, ?_, starts⟩
    simp only [doubled, sign, ↓reduceIte, List.cons_append, ← split]

/-- What is left of a line without its comment, in which doubled signs stand for themselves. -/
theorem dropComment_eq_iff (raw kept : List Char) :
    dropComment raw = kept ↔ ∃ comment, raw = doubled kept ++ comment ∧ IsComment comment := by
  constructor
  · rintro rfl
    exact exists_comment raw
  · rintro ⟨comment, rfl, starts⟩
    exact dropComment_doubled kept starts

end Line

/-! ## Margins -/

/-- A line that is neither blank nor a comment, as it is written. -/
structure WrittenLine where
  /-- The tabs and spaces that the line starts with. -/
  margin : List Char
  /-- What the line says, without blanks at its ends. -/
  content : List Char
  /-- The place of the line in the file, counted from one. -/
  number : Nat
  isMargin : ∀ c ∈ margin, Line.isMargin c = true

namespace WrittenLine

/-- A line of a file with its number. -/
def ofRaw (raw : List Char) (number : Nat) : WrittenLine where
  margin := Line.margin raw
  content := Line.content raw
  number
  isMargin := fun _ member => List.mem_takeWhile_imp member

/-- The line, of whose margin the length is kept. -/
def toLine (line : WrittenLine) : Line :=
  ⟨line.margin.length, String.ofList line.content, line.number⟩

/-- The line is indented by tabs and spaces together. -/
def Mixed (line : WrittenLine) : Prop :=
  ' ' ∈ line.margin ∧ '\t' ∈ line.margin

/-- No margin mixes tabs and spaces, and all of them are made of the same character. -/
structure Uniform (lines : List WrittenLine) : Prop where
  unmixed : ∀ line ∈ lines, ¬ line.Mixed
  oneStyle : ∀ line ∈ lines, ∀ other ∈ lines, ∀ c ∈ line.margin, ∀ d ∈ other.margin, c = d

/-- Why the margin of a line does not fit those of the lines before it. -/
inductive Misfit (before : List WrittenLine) (line : WrittenLine) : IndentError → Prop
  | mixed (mixes : line.Mixed) : Misfit before line (.mixed line.number)
  | otherStyle {other : WrittenLine} {c d : Char} (unmixed : ¬ line.Mixed)
      (earlier : other ∈ before)
      (known : c ∈ other.margin) (own : d ∈ line.margin) (differs : c ≠ d) :
      Misfit before line (.otherStyle line.number)

/-- The first line whose margin does not fit those of the lines before it. -/
def FirstMisfit (lines : List WrittenLine) (error : IndentError) : Prop :=
  ∃ before line behind, lines = before ++ line :: behind ∧ Uniform before ∧
    Misfit before line error

/-- The first character that some lines are indented by. -/
def style? (lines : List WrittenLine) : Option Char :=
  (lines.flatMap margin).head?

variable {before lines : List WrittenLine} {line : WrittenLine}

theorem mem_of_style? {c : Char} (known : style? before = some c) :
    ∃ other ∈ before, c ∈ other.margin := by
  have member := List.mem_of_head? known
  simpa only [List.mem_flatMap] using member

theorem style?_append (before lines : List WrittenLine) :
    style? (before ++ lines) = (style? before).or (style? lines) := by
  rw [style?, List.flatMap_append, List.head?_append]
  rfl

/-- A margin that does not mix tabs and spaces is made of its first character. -/
theorem eq_of_unmixed (unmixed : ¬ line.Mixed) {c d : Char} (first : c ∈ line.margin)
    (second : d ∈ line.margin) : c = d := by
  have firstKind := line.isMargin c first
  have secondKind := line.isMargin d second
  simp only [Line.isMargin, Bool.or_eq_true, beq_iff_eq] at firstKind secondKind
  rcases firstKind with rfl | rfl <;> rcases secondKind with rfl | rfl
  · rfl
  · exact absurd ⟨first, second⟩ unmixed
  · exact absurd ⟨second, first⟩ unmixed
  · rfl

theorem Uniform.concat (uniform : Uniform before) (unmixed : ¬ line.Mixed)
    (fits : ∀ c ∈ style? before, ∀ d ∈ line.margin, c = d) : Uniform (before ++ [line]) := by
  have across : ∀ other ∈ before, ∀ c ∈ other.margin, ∀ d ∈ line.margin, c = d := by
    intro other earlier c member d own
    cases known : style? before with
    | none =>
      have absent := List.flatMap_eq_nil_iff.mp (List.head?_eq_none_iff.mp known) other earlier
      simp [absent] at member
    | some style =>
      obtain ⟨first, firstEarlier, firstMember⟩ := mem_of_style? known
      rw [← fits style (by rw [known]; rfl) d own]
      exact uniform.oneStyle other earlier first firstEarlier c member style firstMember
  refine ⟨?_, ?_⟩
  · intro other member
    rcases List.mem_append.mp member with earlier | last
    · exact uniform.unmixed other earlier
    · rwa [List.mem_singleton.mp last]
  · intro first firstMember second secondMember c own d other
    rcases List.mem_append.mp firstMember with earlier | last <;>
      rcases List.mem_append.mp secondMember with later | last'
    · exact uniform.oneStyle first earlier second later c own d other
    · exact across first earlier c own d (List.mem_singleton.mp last' ▸ other)
    · exact (across second later d other c (List.mem_singleton.mp last ▸ own)).symm
    · exact eq_of_unmixed unmixed (List.mem_singleton.mp last ▸ own)
        (List.mem_singleton.mp last' ▸ other)

/-- Checking one margin against the style of the lines before it. -/
theorem checkMargin_spec (uniform : Uniform before) (line : WrittenLine) :
    match Line.checkMargin (style? before) line.number line.margin with
    | .ok style => style = style? (before ++ [line]) ∧ Uniform (before ++ [line])
    | .error error => Misfit before line error := by
  unfold Line.checkMargin
  by_cases mixes : (line.margin.contains ' ' && line.margin.contains '\t') = true
  · rw [if_pos mixes]
    simp only [Bool.and_eq_true, List.contains_iff_mem] at mixes
    exact .mixed mixes
  rw [if_neg mixes]
  simp only [Bool.and_eq_true, List.contains_iff_mem] at mixes
  have own : style? [line] = line.margin.head? := by rw [style?, List.flatMap_singleton]
  rw [style?_append, own]
  cases known : style? before with
  | none =>
    have concat := uniform.concat mixes (by simp [known])
    cases first : line.margin.head? with
    | none => exact ⟨rfl, concat⟩
    | some d => exact ⟨rfl, concat⟩
  | some c =>
    cases first : line.margin.head? with
    | none =>
      refine ⟨rfl, uniform.concat mixes ?_⟩
      simp [List.head?_eq_none_iff.mp first]
    | some d =>
      have member := List.mem_of_head? first
      by_cases same : c = d
      · simp only [same, ↓reduceIte]
        refine ⟨rfl, uniform.concat mixes ?_⟩
        intro style isStyle e there
        rw [known, Option.mem_some_iff] at isStyle
        rw [← isStyle, same]
        exact eq_of_unmixed mixes member there
      · simp only [same, ↓reduceIte]
        obtain ⟨other, earlier, there⟩ := mem_of_style? known
        exact .otherStyle mixes earlier there member same

/-! ## Reading lines -/

/-- The significant lines among those of a file, the first of which has the given number. -/
def allFrom (number : Nat) (raws : List (List Char)) : List WrittenLine :=
  ((raws.zipIdx number).filter fun raw => !(Line.content raw.1).isEmpty).map fun raw =>
    ofRaw raw.1 raw.2

/-- The significant lines of a text. -/
def all (text : String) : List WrittenLine :=
  allFrom 1 (Text.lines text)

/-- Reading succeeds when all margins fit, and else names the first that does not. -/
theorem readFrom_spec (uniform : Uniform before) (number : Nat) (raws : List (List Char)) :
    match Line.readFrom (style? before) number raws with
    | .ok lines => lines = (allFrom number raws).map toLine ∧
      Uniform (before ++ allFrom number raws)
    | .error error => ∃ passed line behind, allFrom number raws = passed ++ line :: behind ∧
      Uniform (before ++ passed) ∧ Misfit (before ++ passed) line error := by
  induction raws generalizing before number with
  | nil => exact ⟨rfl, by simpa [allFrom] using uniform⟩
  | cons raw others ih =>
    rw [Line.readFrom]
    by_cases blank : (Line.content raw).isEmpty = true
    · have skipped : allFrom number (raw :: others) = allFrom (number + 1) others := by
        simp [allFrom, blank]
      rw [if_pos blank, skipped]
      exact ih uniform (number + 1)
    have first : allFrom number (raw :: others) =
        ofRaw raw number :: allFrom (number + 1) others := by
      simp [allFrom, blank]
    rw [if_neg blank, first]
    have checked := checkMargin_spec uniform (ofRaw raw number)
    change match Line.checkMargin (style? before) number (Line.margin raw) with
      | .ok style => _ | .error error => _ at checked
    cases check : Line.checkMargin (style? before) number (Line.margin raw) with
    | error error =>
      rw [check] at checked
      exact ⟨[], ofRaw raw number, _, rfl, by simpa using uniform, by simpa using checked⟩
    | ok style =>
      rw [check] at checked
      obtain ⟨rfl, grown⟩ := checked
      have rest := ih grown (number + 1)
      dsimp only
      cases read : Line.readFrom (style? (before ++ [ofRaw raw number])) (number + 1) others with
      | error error =>
        rw [read] at rest
        obtain ⟨passed, line, behind, split, fine, misfit⟩ := rest
        rw [List.append_assoc] at fine misfit
        exact ⟨ofRaw raw number :: passed, line, behind, by rw [split]; rfl, fine, misfit⟩
      | ok lines =>
        rw [read] at rest
        obtain ⟨rfl, fine⟩ := rest
        rw [List.append_assoc] at fine
        exact ⟨rfl, fine⟩

end WrittenLine

/-- The significant lines of a text. -/
def Line.significant (text : String) : List Line :=
  (WrittenLine.all text).map WrittenLine.toLine

/-- A text is read as its significant lines, or refused for the first margin that does not fit. -/
theorem Line.read_spec (text : String) :
    match Line.read text with
    | .ok lines => lines = Line.significant text ∧ WrittenLine.Uniform (WrittenLine.all text)
    | .error error => WrittenLine.FirstMisfit (WrittenLine.all text) error := by
  have uniform : WrittenLine.Uniform [] := ⟨by simp, by simp⟩
  exact WrittenLine.readFrom_spec uniform 1 (Text.lines text)

/-! ## Levels -/

/-- Where a line stands. -/
structure Standing where
  /-- The indentation of the line. -/
  level : Nat := 0
  /-- The indentations of the headers of the sections it stands in, the innermost first. -/
  outer : List Nat := []
  /-- The line is a header. -/
  opens : Bool := false

namespace Standing

/-- The levels that are open at a line. -/
def levels (standing : Standing) : List Nat :=
  standing.level :: standing.outer

/-- A line may follow: it is deeper than the line above it, which is a header, or exactly as deep as
one of the levels that are open. -/
def Admits (standing : Standing) (line : Line) : Prop :=
  (standing.opens = true ∧ standing.level < line.indent) ∨ line.indent ∈ standing.levels

instance (standing : Standing) (line : Line) : Decidable (standing.Admits line) :=
  inferInstanceAs (Decidable (_ ∨ _))

/-- Where the next line stands: the levels below its own stay open. -/
def next (standing : Standing) (line : Line) : Standing where
  level := line.indent
  outer := standing.levels.filter (· < line.indent)
  opens := line.header?.isSome

/-- Where the last of some lines stands. Above the first line, only the level of the file is
open. -/
def after (standing : Standing) (lines : List Line) : Standing :=
  lines.foldl next standing

/-- Every one of some lines may follow those before it. -/
def AdmitsAll (standing : Standing) (lines : List Line) : Prop :=
  ∀ before line behind, lines = before ++ line :: behind → (standing.after before).Admits line

/-- The first of some lines that may not follow those before it. -/
def FirstMisplaced (standing : Standing) (lines : List Line) (error : IndentError) : Prop :=
  ∃ before line behind, lines = before ++ line :: behind ∧ standing.AdmitsAll before ∧
    ¬ (standing.after before).Admits line ∧ error = .unexpected line.number

end Standing

/-- A line as a node: a header as a section that shows nothing of what is below it. -/
def Line.toNode (line : Line) : Node :=
  match line.header? with
  | none => .simple line.text line.number
  | some key => .nested key line.number []

/-- A node without those below it. -/
def Node.alone : Node → Node
  | .nested key line _ => .nested key line []
  | other => other

/-- One row for each node of a list of trees, with its depth, in the order of the text. -/
def Node.outline (depth : Nat) (nodes : List Node) : List (Nat × Node) :=
  (Node.rows.rowsOf depth nodes).map fun row => (row.1, row.2.alone)

theorem Node.outline_nested (depth : Nat) (key : String) (line : Nat) (nodes others : List Node) :
    Node.outline depth (.nested key line nodes :: others) =
      (depth, .nested key line []) ::
        (Node.outline (depth + 1) nodes ++ Node.outline depth others) := by
  simp [outline, rows.rowsOf, rows, alone]

/-- One row for each of some lines, with the number of sections it stands in. -/
def Standing.outline (standing : Standing) : List Line → List (Nat × Node)
  | [] => []
  | line :: others =>
    ((standing.next line).outer.length, line.toNode) :: (standing.next line).outline others

namespace Standing

variable {standing : Standing} {line : Line} {lines others : List Line}

theorem admitsAll_nil : standing.AdmitsAll [] := by
  rintro before line behind split
  simp at split

theorem admitsAll_cons :
    standing.AdmitsAll (line :: others) ↔
      standing.Admits line ∧ (standing.next line).AdmitsAll others := by
  constructor
  · intro all
    refine ⟨all [] line others rfl, fun before other behind split => ?_⟩
    exact all (line :: before) other behind (by rw [split]; rfl)
  · rintro ⟨first, rest⟩ before other behind split
    cases before with
    | nil =>
      obtain ⟨rfl, rfl⟩ := List.cons.inj split
      exact first
    | cons head before =>
      obtain ⟨rfl, rfl⟩ := List.cons.inj split
      exact rest before other behind rfl

theorem FirstMisplaced.cons {error : IndentError} (admitted : standing.Admits line)
    (misplaced : (standing.next line).FirstMisplaced others error) :
    standing.FirstMisplaced (line :: others) error := by
  obtain ⟨before, other, behind, rfl, fine, refused, rfl⟩ := misplaced
  exact ⟨line :: before, other, behind, rfl, admitsAll_cons.mpr ⟨admitted, fine⟩, refused, rfl⟩

/-- The rows of some lines, as long as each of them may follow those before it. -/
def walk (standing : Standing) : List Line → Except IndentError (List (Nat × Node))
  | [] => .ok []
  | line :: others =>
    if standing.Admits line then
      ((standing.next line).walk others).map
        (((standing.next line).outer.length, line.toNode) :: ·)
    else .error (.unexpected line.number)

theorem walk_spec (standing : Standing) (lines : List Line) :
    match standing.walk lines with
    | .ok rows => rows = standing.outline lines ∧ standing.AdmitsAll lines
    | .error error => standing.FirstMisplaced lines error := by
  induction lines generalizing standing with
  | nil => exact ⟨rfl, admitsAll_nil⟩
  | cons line others ih =>
    rw [walk]
    by_cases admitted : standing.Admits line
    · rw [if_pos admitted]
      have rest := ih (standing.next line)
      cases walked : (standing.next line).walk others with
      | error error =>
        rw [walked] at rest
        exact rest.cons admitted
      | ok rows =>
        rw [walked] at rest
        obtain ⟨rfl, fine⟩ := rest
        exact ⟨rfl, admitsAll_cons.mpr ⟨admitted, fine⟩⟩
    · rw [if_neg admitted]
      exact ⟨[], line, others, rfl, admitsAll_nil, admitted, rfl⟩

theorem walk_append (standing : Standing) (lines others : List Line) :
    standing.walk (lines ++ others) =
      match standing.walk lines with
      | .error error => .error error
      | .ok rows => ((standing.after lines).walk others).map (rows ++ ·) := by
  induction lines generalizing standing with
  | nil =>
    simp only [List.nil_append, walk, after, List.foldl_nil]
    cases standing.walk others <;> rfl
  | cons line lines ih =>
    simp only [List.cons_append, walk, ih]
    by_cases admitted : standing.Admits line
    · simp only [if_pos admitted]
      cases (standing.next line).walk lines with
      | error error => rfl
      | ok rows =>
        change Except.map _ (Except.map _ (((standing.next line).after lines).walk others)) =
          Except.map _ (((standing.next line).after lines).walk others)
        cases ((standing.next line).after lines).walk others <;> rfl
    · simp only [if_neg admitted]

/-! ## Leaving a section

Deeper lines open and close levels above the one of their header only. Behind them it is as if they
had not been there.
-/

theorem filter_of_imp {strong weak : Nat → Bool} (levels : List Nat)
    (imp : ∀ level, strong level = true → weak level = true) :
    (levels.filter weak).filter strong = levels.filter strong := by
  rw [List.filter_filter]
  refine List.filter_congr fun level _ => ?_
  rw [Bool.and_eq_left_iff_imp]
  exact imp level

theorem levels_next (standing : Standing) (line : Line) :
    (standing.next line).levels = line.indent :: standing.levels.filter (· < line.indent) := rfl

theorem levels_after_deeper (standing : Standing) {level : Nat}
    (deeper : ∀ line ∈ lines, level < line.indent) :
    (standing.after lines).levels.filter (· ≤ level) = standing.levels.filter (· ≤ level) := by
  induction lines generalizing standing with
  | nil => rfl
  | cons line lines ih =>
    have own := deeper line List.mem_cons_self
    have rest := ih (standing.next line) fun other member =>
      deeper other (List.mem_cons_of_mem _ member)
    refine rest.trans ?_
    rw [levels_next, List.filter_cons_of_neg (by simpa using own)]
    refine filter_of_imp _ fun open' lower => ?_
    simp only [decide_eq_true_eq] at lower ⊢
    omega

theorem level_after_deeper {standing : Standing} {level : Nat} (least : level ≤ standing.level)
    (deeper : ∀ line ∈ lines, level < line.indent) : level ≤ (standing.after lines).level := by
  cases lines using List.reverseRecOn with
  | nil => exact least
  | append_singleton lines last =>
    simpa [after, List.foldl_append, next] using (deeper last (by simp)).le

/-- Only the levels down to that of a line matter for what may follow it. -/
theorem walk_congr {standing other : Standing} {level : Nat}
    (levels : standing.levels.filter (· ≤ level) = other.levels.filter (· ≤ level))
    (least : level ≤ standing.level) (otherLeast : level ≤ other.level)
    (back : ∀ line ∈ lines.head?, line.indent ≤ level) :
    standing.walk lines = other.walk lines := by
  cases lines with
  | nil => rfl
  | cons line lines =>
    have notDeeper : line.indent ≤ level := back line rfl
    have member (some : Standing) :
        line.indent ∈ some.levels ↔ line.indent ∈ some.levels.filter (· ≤ level) := by
      rw [List.mem_filter, and_iff_left (by simpa using notDeeper)]
    have below (some : Standing) : some.levels.filter (· < line.indent) =
        (some.levels.filter (· ≤ level)).filter (· < line.indent) := by
      refine (filter_of_imp _ fun open' lower => ?_).symm
      simp only [decide_eq_true_eq] at lower ⊢
      omega
    have admits : standing.Admits line ↔ other.Admits line := by
      have first : ¬ standing.level < line.indent := by omega
      have second : ¬ other.level < line.indent := by omega
      simp only [Admits, first, second, and_false, false_or, member, levels]
    have same : standing.next line = other.next line := by
      simp only [next, below standing, below other, levels]
    simp only [walk, same, admits]

/-- A line at the level of the line above it stands in the same sections. -/
theorem admits_here {level : Nat} {outer : List Nat} (opens : Bool) (same : line.indent = level)
    (lower : ∀ around ∈ outer, around < level) :
    Admits ⟨level, outer, opens⟩ line ∧
      next ⟨level, outer, opens⟩ line = ⟨level, outer, line.header?.isSome⟩ := by
  refine ⟨Or.inr (by simp [levels, same]), ?_⟩
  have stay : (level :: outer).filter (· < level) = outer := by
    rw [List.filter_cons_of_neg (by simp)]
    exact List.filter_eq_self.mpr fun around member => by simpa using lower around member
  simp only [next, levels, same, stay]

/-- The first line of a section sets its level. -/
theorem walk_enter {level : Nat} {outer : List Nat} (lower : ∀ around ∈ outer, around < level)
    (deeper : ∀ line ∈ lines, level < line.indent) :
    walk ⟨level, outer, true⟩ lines =
      walk ⟨(lines.head?.map Line.indent).getD level, level :: outer, false⟩ lines := by
  cases lines with
  | nil => rfl
  | cons line others =>
    have own : level < line.indent := deeper line List.mem_cons_self
    have inside : ∀ around ∈ level :: outer, around < line.indent := by
      rintro around (_ | ⟨_, member⟩)
      · exact own
      · exact (lower around member).trans own
    obtain ⟨admitted, same⟩ := admits_here false rfl inside
    have entered : next ⟨level, outer, true⟩ line =
        ⟨line.indent, level :: outer, line.header?.isSome⟩ := by
      have stay : (level :: outer).filter (· < line.indent) = level :: outer :=
        List.filter_eq_self.mpr fun around member => by simpa using inside around member
      simp only [next, levels, stay]
    have header : Admits ⟨level, outer, true⟩ line := Or.inl ⟨rfl, own⟩
    rw [walk, if_pos header, entered]
    simp only [List.head?_cons, Option.map_some, Option.getD_some]
    rw [walk, if_pos admitted, same]

/-- Behind a section its header counts as the line above. -/
theorem walk_leave {level : Nat} {outer : List Nat} (deeper : ∀ line ∈ lines, level < line.indent)
    (back : ∀ line ∈ others.head?, line.indent ≤ level) :
    (after ⟨level, outer, true⟩ lines).walk others = walk ⟨level, outer, true⟩ others :=
  walk_congr (levels_after_deeper _ deeper) (level_after_deeper le_rfl deeper) le_rfl back

/-- The lines behind a section start at the level of its header or above. -/
theorem head_behind (level : Nat) (lines : List Line) :
    ∀ line ∈ (lines.dropWhile (level < ·.indent)).head?, line.indent ≤ level := by
  intro line first
  have stops := List.head?_dropWhile_not (fun line : Line => decide (level < line.indent)) lines
  rw [Option.mem_def.mp first] at stops
  simpa using stops

/-- The lines behind a header: first those of its section, and then the others. -/
theorem walk_section {level : Nat} {outer : List Nat} (lower : ∀ around ∈ outer, around < level)
    (lines : List Line) :
    let body := lines.takeWhile (level < ·.indent)
    let others := lines.dropWhile (level < ·.indent)
    walk ⟨level, outer, true⟩ lines =
      match walk ⟨(body.head?.map Line.indent).getD level, level :: outer, false⟩ body with
      | .error error => .error error
      | .ok rows => (walk ⟨level, outer, true⟩ others).map (rows ++ ·) := by
  intro body others
  have deeper : ∀ line ∈ body, level < line.indent := fun line member => by
    simpa using List.mem_takeWhile_imp member
  have back : ∀ line ∈ others.head?, line.indent ≤ level := head_behind level lines
  rw [← List.takeWhile_append_dropWhile (l := lines) (p := (level < ·.indent)), walk_append,
    walk_enter lower deeper]
  cases walk ⟨(body.head?.map Line.indent).getD level, level :: outer, false⟩ body with
  | error error => rfl
  | ok rows => exact congrArg (Except.map (rows ++ ·)) (walk_leave deeper back)

end Standing

namespace Line

open Standing (walk)

variable {lines : List Line}

/-- The lines of a section are deeper than its header, and so than those of the sections around. -/
theorem inside_section {level : Nat} {outer : List Nat} (lower : ∀ around ∈ outer, around < level) :
    ∀ line ∈ lines.takeWhile (level < ·.indent), ∀ around ∈ level :: outer,
      around < line.indent := by
  intro line member around isAround
  have deeper : level < line.indent := by simpa using List.mem_takeWhile_imp member
  rcases List.mem_cons.mp isAround with rfl | further
  · exact deeper
  · exact (lower around further).trans deeper

/-- The rows of the trees of some lines are those that the lines get one after the other, where all
of them are deeper than the headers of the sections around them. -/
theorem trees_outline (level : Nat) (lines : List Line) (outer : List Nat) (opens : Bool)
    (inside : ∀ line ∈ lines, ∀ around ∈ outer, around < line.indent)
    (back : opens = true → ∀ line ∈ lines.head?, line.indent ≤ level) :
    (trees level lines).map (Node.outline outer.length) = walk ⟨level, outer, opens⟩ lines := by
  -- The sections around vary: the lines below a header are walked with its level among the outer.
  fun_induction trees level lines generalizing outer opens with
  | case1 => rfl
  | case2 level line others differs =>
    have refused : ¬ Standing.Admits ⟨level, outer, opens⟩ line := by
      rintro (⟨isOpen, deeper⟩ | member)
      · exact absurd deeper (Nat.not_lt.mpr (back isOpen line rfl))
      · rcases List.mem_cons.mp member with same | around
        · exact differs same
        · exact Nat.lt_irrefl _ (inside line List.mem_cons_self _ around)
    rw [walk, if_neg refused]
    rfl
  | case3 level line others same plain ih =>
    have lower := of_not_not same ▸ inside line List.mem_cons_self
    obtain ⟨admitted, next⟩ := Standing.admits_here opens (of_not_not same) lower
    have rest := ih outer false
      (fun other member => inside other (List.mem_cons_of_mem _ member)) nofun
    rw [walk, if_pos admitted, next, plain, Option.isSome_none, ← rest, toNode, plain]
    cases trees level others <;> rfl
  | case4 level line others same key header body error failed ih =>
    have lower := of_not_not same ▸ inside line List.mem_cons_self
    obtain ⟨admitted, next⟩ := Standing.admits_here opens (of_not_not same) lower
    have below := ih (level :: outer) false (inside_section lower) nofun
    rw [walk, if_pos admitted, next, header, Option.isSome_some, Standing.walk_section lower others,
      ← below, failed]
    rfl
  | case5 level line others same key header body nodes built ih₁ ih₂ =>
    have lower := of_not_not same ▸ inside line List.mem_cons_self
    obtain ⟨admitted, next⟩ := Standing.admits_here opens (of_not_not same) lower
    have below := ih₁ (level :: outer) false (inside_section lower) nofun
    have rest := ih₂ outer true (fun other member => inside other
      (List.mem_cons_of_mem _ (List.dropWhile_subset _ member)))
      (fun _ => Standing.head_behind level others)
    rw [walk, if_pos admitted, next, header, Option.isSome_some, Standing.walk_section lower others,
      ← below, built, ← rest, toNode, header]
    cases trees level (others.dropWhile (level < ·.indent)) with
    | error error => rfl
    | ok later => exact congrArg Except.ok (Node.outline_nested _ _ _ _ _)

/-- The trees of some lines hold the lines one after the other, or the first line that may not
follow those before it is named. -/
theorem trees_spec (lines : List Line) :
    match trees 0 lines with
    | .ok nodes => Node.outline 0 nodes = Standing.outline {} lines ∧ Standing.AdmitsAll {} lines
    | .error error => Standing.FirstMisplaced {} lines error := by
  have walked := Standing.walk_spec {} lines
  rw [← trees_outline 0 lines [] false (by simp) nofun] at walked
  cases built : trees 0 lines with
  | error error =>
    rw [built] at walked
    exact walked
  | ok nodes =>
    rw [built] at walked
    exact walked

end Line

/-! ## Trees of texts -/

/-- A text that has a first line that does not fit does not fit as a whole. -/
theorem WrittenLine.FirstMisfit.not_uniform {lines : List WrittenLine} {error : IndentError}
    (misfit : WrittenLine.FirstMisfit lines error) : ¬ WrittenLine.Uniform lines := by
  obtain ⟨before, line, behind, rfl, _, reason⟩ := misfit
  intro uniform
  have member : line ∈ before ++ line :: behind := by simp
  cases reason with
  | mixed mixes => exact uniform.unmixed line member mixes
  | otherStyle _ earlier known own differs =>
    exact differs (uniform.oneStyle _ (List.mem_append_left _ earlier) line member _ known _ own)

theorem Standing.FirstMisplaced.not_admitsAll {standing : Standing} {lines : List Line}
    {error : IndentError} (misplaced : standing.FirstMisplaced lines error) :
    ¬ standing.AdmitsAll lines := by
  obtain ⟨before, line, behind, split, _, refused, _⟩ := misplaced
  exact fun all => refused (all before line behind split)

/-- A text is a tree exactly if no margin mixes tabs and spaces, all margins are made of the same
character and every significant line stands at a level that is open, or deeper than a header right
above it. The tree holds every significant line once, in the order of the text, under its number, as
deep as there are sections open around it, and a header as a section. Otherwise the first line is
named whose margin does not fit, and if all do, the first one that stands at no open level. -/
theorem Section.parse_exact (name text : String) :
    ((∃ tree, Section.parse name text = .ok tree) ↔
      WrittenLine.Uniform (WrittenLine.all text) ∧
        Standing.AdmitsAll {} (Line.significant text)) ∧
    match Section.parse name text with
    | .ok tree => tree.key = name ∧ tree.line = 0 ∧
        Node.outline 0 tree.nodes = Standing.outline {} (Line.significant text)
    | .error error => WrittenLine.FirstMisfit (WrittenLine.all text) error ∨
        WrittenLine.Uniform (WrittenLine.all text) ∧
          Standing.FirstMisplaced {} (Line.significant text) error := by
  have read := Line.read_spec text
  cases lines : Line.read text with
  | error error =>
    rw [lines] at read
    have parsed : Section.parse name text = .error error := by simp only [Section.parse, lines]
    rw [parsed]
    exact ⟨⟨nofun, fun fine => absurd fine.1 read.not_uniform⟩, Or.inl read⟩
  | ok found =>
    rw [lines] at read
    obtain ⟨rfl, uniform⟩ := read
    have built := Line.trees_spec (Line.significant text)
    cases trees : Line.trees 0 (Line.significant text) with
    | error error =>
      rw [trees] at built
      have parsed : Section.parse name text = .error error := by
        simp only [Section.parse, lines, trees, Except.map]
      rw [parsed]
      exact ⟨⟨nofun, fun fine => absurd fine.2 built.not_admitsAll⟩, Or.inr ⟨uniform, built⟩⟩
    | ok nodes =>
      rw [trees] at built
      have parsed : Section.parse name text = .ok ⟨name, 0, nodes⟩ := by
        simp only [Section.parse, lines, trees, Except.map]
      rw [parsed]
      exact ⟨⟨fun _ => ⟨uniform, built.2⟩, fun _ => ⟨_, rfl⟩⟩, rfl, rfl, built.1⟩

example : Section.parse "t" "a:\n  b # c\n" = .ok ⟨"t", 0, [.nested "a" 1 [.simple "b" 2]]⟩ := by
  cbv

example : Section.parse "t" "a:\n    b:\n  c\n" = .error (.unexpected 3) := by cbv

end ScriptBinding

import Mathlib.Data.List.TakeWhile
import ScriptBinding.Proofs.Indentation

/-! # Writing trees

A tree is written with one line for each node, the nodes of a section deeper than its header by as
much as is chosen for that section. Reading the text gives the tree back, its nodes numbered in the
order of the lines.
-/

namespace ScriptBinding

/-! ## Trimmed texts -/

namespace Text

theorem dropWhile_isBlank_eq_self_iff {chars : List Char} :
    chars.dropWhile isBlank = chars ↔ ∀ c ∈ chars.head?, isBlank c = false := by
  cases chars with
  | nil => simp
  | cons c others =>
    rw [List.head?_cons, List.dropWhile_cons]
    cases blank : isBlank c with
    | false => simp [blank]
    | true =>
      have shorter := (List.dropWhile_suffix isBlank (l := others)).length_le
      have differs : others.dropWhile isBlank ≠ c :: others := fun same => by
        rw [same, List.length_cons] at shorter
        omega
      simp [blank, differs]

theorem trimEndChars_eq_self_iff {chars : List Char} :
    trimEndChars chars = chars ↔ ∀ c ∈ chars.getLast?, isBlank c = false := by
  rw [trimEndChars, dropEndWhile, List.reverse_eq_iff, dropWhile_isBlank_eq_self_iff,
    List.head?_reverse]

theorem trimChars_append_of_blank {lead : List Char} (blank : ∀ c ∈ lead, isBlank c = true)
    (chars : List Char) : trimChars (lead ++ chars) = trimChars chars := by
  rw [trimChars, List.dropWhile_append_of_pos blank]
  rfl

theorem trimEndChars_append_of_blank {ending : List Char} (blank : ∀ c ∈ ending, isBlank c = true)
    (chars : List Char) : trimEndChars (chars ++ ending) = trimEndChars chars := by
  rw [trimEndChars, dropEndWhile, List.reverse_append,
    List.dropWhile_append_of_pos fun c member => blank c (List.mem_reverse.mp member)]
  rfl

/-- What is trimmed is what is left of the start without the blanks at the end. -/
theorem trimChars_prefix_dropWhile (chars : List Char) :
    trimChars chars <+: chars.dropWhile isBlank := by
  rw [trimChars, trimEndChars, dropEndWhile, ← List.reverse_suffix, List.reverse_reverse]
  exact List.dropWhile_suffix isBlank

theorem trimChars_sublist (chars : List Char) : (trimChars chars).Sublist chars :=
  (trimChars_prefix_dropWhile chars).sublist.trans (List.dropWhile_suffix isBlank).sublist

/-- A text is trimmed if neither its first nor its last character is blank. -/
theorem trimChars_eq_self_iff {chars : List Char} : trimChars chars = chars ↔
    (∀ c ∈ chars.head?, isBlank c = false) ∧ ∀ c ∈ chars.getLast?, isBlank c = false := by
  rw [← dropWhile_isBlank_eq_self_iff, ← trimEndChars_eq_self_iff]
  constructor
  · intro trimmed
    have ending := (List.dropWhile_suffix isBlank (l := chars)).length_le
    have starting := (trimChars_prefix_dropWhile chars).length_le
    rw [trimmed] at starting
    have front : chars.dropWhile isBlank = chars :=
      (List.dropWhile_suffix isBlank).eq_of_length (ending.antisymm starting)
    rw [trimChars, front] at trimmed
    exact ⟨front, trimmed⟩
  · rintro ⟨front, back⟩
    rw [trimChars, front, back]

theorem ends_of_suffix {ending text : List Char} (part : ending <:+ text)
    (ends : ∀ c ∈ text.getLast?, isBlank c = false) :
    ∀ c ∈ ending.getLast?, isBlank c = false := by
  obtain ⟨start, rfl⟩ := part
  intro c isLast
  refine ends c ?_
  rw [List.getLast?_append, Option.mem_def.mp isLast]
  exact Option.some_or

theorem starts_of_prefix {start text : List Char} (part : start <+: text)
    (starts : ∀ c ∈ text.head?, isBlank c = false) : ∀ c ∈ start.head?, isBlank c = false := by
  obtain ⟨ending, rfl⟩ := part
  intro c isFirst
  refine starts c ?_
  rw [List.head?_append, Option.mem_def.mp isFirst]
  exact Option.some_or

/-- The end of a text that does not end in a blank has blanks at its start only. -/
theorem trimChars_of_suffix {ending text : List Char} (part : ending <:+ text)
    (ends : ∀ c ∈ text.getLast?, isBlank c = false) :
    trimChars ending = ending.dropWhile isBlank :=
  trimEndChars_eq_self_iff.mpr (ends_of_suffix ((List.dropWhile_suffix _).trans part) ends)

theorem ends_trimEndChars (text : List Char) :
    ∀ c ∈ (trimEndChars text).getLast?, isBlank c = false := by
  intro c isLast
  rw [trimEndChars, dropEndWhile, List.getLast?_reverse] at isLast
  have solid := List.head?_dropWhile_not isBlank text.reverse
  rw [Option.mem_def.mp isLast] at solid
  simpa using solid

theorem ends_trimChars (text : List Char) :
    ∀ c ∈ (trimChars text).getLast?, isBlank c = false :=
  ends_trimEndChars (text.dropWhile isBlank)

theorem trimChars_trimChars (text : List Char) : trimChars (trimChars text) = trimChars text := by
  refine trimChars_eq_self_iff.mpr ⟨?_, ends_trimChars text⟩
  refine starts_of_prefix (trimChars_prefix_dropWhile text) fun c isFirst => ?_
  have solid := List.head?_dropWhile_not isBlank text
  rw [Option.mem_def.mp isFirst] at solid
  simpa using solid

/-! ## Lines of a text -/

/-- Lines as one text, each of them ended by a line feed, the last one if asked for. -/
def joinLines (ended : Bool) : List (List Char) → List Char
  | [] => []
  | [last] => if ended then last ++ ['\n'] else last
  | line :: others => line ++ '\n' :: joinLines ended others

theorem pieces_ne_nil (separator : Char) (chars : List Char) : pieces separator chars ≠ [] := by
  cases chars with
  | nil => exact List.cons_ne_nil _ _
  | cons c others =>
    unfold pieces
    split
    · exact List.cons_ne_nil _ _
    · split <;> exact List.cons_ne_nil _ _

theorem pieces_of_not_mem {separator : Char} {chars : List Char} (absent : separator ∉ chars) :
    pieces separator chars = [chars] := by
  induction chars with
  | nil => rfl
  | cons c others ih =>
    rw [List.mem_cons, not_or] at absent
    rw [pieces, if_neg (Ne.symm absent.1), ih absent.2]

theorem pieces_append {separator : Char} {chars : List Char} (absent : separator ∉ chars)
    (others : List Char) :
    pieces separator (chars ++ separator :: others) = chars :: pieces separator others := by
  induction chars with
  | nil => rw [List.nil_append, pieces, if_pos rfl]
  | cons c rest ih =>
    rw [List.mem_cons, not_or] at absent
    rw [List.cons_append, pieces, if_neg (Ne.symm absent.1), ih absent.2]

/-- No piece has the separator in it, and all its characters are those of the text. -/
theorem mem_pieces {separator : Char} {chars piece : List Char}
    (member : piece ∈ pieces separator chars) : separator ∉ piece ∧ piece ⊆ chars := by
  induction chars generalizing piece with
  | nil =>
    rw [List.mem_singleton.mp member]
    exact ⟨List.not_mem_nil, List.nil_subset _⟩
  | cons c others ih =>
    unfold pieces at member
    split at member
    · rcases List.mem_cons.mp member with rfl | later
      · exact ⟨List.not_mem_nil, List.nil_subset _⟩
      · exact (ih later).imp_right (List.subset_cons_of_subset c)
    · next other =>
      split at member
      · next none => exact absurd none (pieces_ne_nil separator others)
      · next first rest split =>
        rw [split] at ih
        rcases List.mem_cons.mp member with rfl | later
        · obtain ⟨absent, within⟩ := ih List.mem_cons_self
          exact ⟨List.not_mem_cons_of_ne_of_not_mem (Ne.symm other) absent,
            List.cons_subset_cons c within⟩
        · exact (ih (List.mem_cons_of_mem _ later)).imp_right (List.subset_cons_of_subset c)

theorem closedLines_cons (line : List Char) {others : List (List Char)} (more : others ≠ []) :
    closedLines (line :: others) = dropReturn line :: closedLines others := by
  cases others with
  | nil => exact absurd rfl more
  | cons second rest => rfl

theorem dropReturn_eq_self {line : List Char} (noReturn : line.getLast? ≠ some '\r') :
    dropReturn line = line := by
  have other : beforeEnd? ['\r'] line = none := by
    rw [beforeEnd?, Option.map_eq_none_iff]
    rw [← List.head?_reverse] at noReturn
    cases chars : line.reverse with
    | nil => rfl
    | cons c others =>
      rw [chars, List.head?_cons, ne_eq, Option.some.injEq] at noReturn
      simp [afterLead?, Ne.symm noReturn]
  rw [dropReturn, other]
  rfl

/-- Lines that are joined are the lines of the text. -/
theorem lines_joinLines (ended : Bool) {raws : List (List Char)}
    (whole : ∀ raw ∈ raws, raw ≠ [] ∧ '\n' ∉ raw ∧ raw.getLast? ≠ some '\r') :
    lines (String.ofList (joinLines ended raws)) = raws := by
  rw [lines, String.toList_ofList]
  fun_induction joinLines ended raws with
  | case1 => rfl
  | case2 last ended =>
    obtain ⟨written, unbroken, noReturn⟩ := whole last List.mem_cons_self
    rw [pieces_append unbroken, closedLines_cons _ (pieces_ne_nil _ _),
      dropReturn_eq_self noReturn]
    rfl
  | case3 last notEnded =>
    obtain ⟨written, unbroken, noReturn⟩ := whole last List.mem_cons_self
    rw [pieces_of_not_mem unbroken, closedLines, if_neg]
    rwa [List.isEmpty_iff]
  | case4 line others more ih =>
    obtain ⟨written, unbroken, noReturn⟩ := whole line List.mem_cons_self
    rw [pieces_append unbroken, closedLines_cons _ (pieces_ne_nil _ _),
      dropReturn_eq_self noReturn, ih fun raw member => whole raw (List.mem_cons_of_mem _ member)]

end Text

/-! ## Significant lines, as they are written -/

namespace Line

/-- The line behind its margin, with the signs doubled that could start a comment. -/
def written (style : Char) (line : Line) : List Char :=
  List.replicate line.indent style ++ doubled line.text.toList

/-- The line says something, has no blanks at its ends and no break inside. -/
structure Clean (line : Line) : Prop where
  written : line.text.toList ≠ []
  trimmed : Text.trimChars line.text.toList = line.text.toList
  unbroken : '\n' ∉ line.text.toList

variable {style : Char} {line : Line}

theorem isBlank_of_isMargin {c : Char} (isMargin : Line.isMargin c = true) :
    Text.isBlank c = true := by
  simp only [Line.isMargin, Bool.or_eq_true, beq_iff_eq] at isMargin
  rcases isMargin with rfl | rfl <;> rfl

theorem mem_doubled {c : Char} {chars : List Char} : c ∈ doubled chars ↔ c ∈ chars := by
  fun_induction doubled chars with
  | case1 => exact Iff.rfl
  | case2 rest ih => simp [ih]
  | case3 d rest _ ih => simp [ih]

theorem getLast?_doubled (chars : List Char) : (doubled chars).getLast? = chars.getLast? := by
  fun_induction doubled chars with
  | case1 => rfl
  | case2 rest ih =>
    rw [List.getLast?_cons, List.getLast?_cons, ih, List.getLast?_cons, Option.getD_some]
  | case3 c rest _ ih => rw [List.getLast?_cons, ih, List.getLast?_cons]

theorem dropComment_written (isMargin : Line.isMargin style = true) (line : Line) :
    dropComment (line.written style) = List.replicate line.indent style ++ line.text.toList := by
  have noSign : style ≠ '#' := by
    rintro rfl
    cases isMargin
  have whole : line.written style =
      doubled (List.replicate line.indent style ++ line.text.toList) ++ [] := by
    rw [List.append_nil, written]
    induction line.indent with
    | zero => rfl
    | succ count ih =>
      rw [List.replicate_succ, List.cons_append, ih, List.cons_append, doubled, if_neg noSign]
  rw [whole]
  exact dropComment_doubled _ (Or.inl rfl)

namespace Clean

variable (clean : line.Clean)

include clean

theorem head (c : Char) (first : line.text.toList.head? = some c) : Text.isBlank c = false :=
  (Text.trimChars_eq_self_iff.mp clean.trimmed).1 c first

theorem getLast?_append (chars : List Char) :
    (chars ++ line.text.toList).getLast? = line.text.toList.getLast? := by
  rw [List.getLast?_append, Option.or_of_isSome]
  exact List.getLast?_isSome.mpr clean.written

theorem trimEnd_append (chars : List Char) :
    Text.trimEndChars (chars ++ line.text.toList) = chars ++ line.text.toList := by
  rw [Text.trimEndChars_eq_self_iff, clean.getLast?_append]
  exact (Text.trimChars_eq_self_iff.mp clean.trimmed).2

theorem content_written (isMargin : Line.isMargin style = true) :
    content (line.written style) = line.text.toList := by
  have margin : ∀ c ∈ List.replicate line.indent style, Text.isBlank c = true := fun c member =>
    List.eq_of_mem_replicate member ▸ isBlank_of_isMargin isMargin
  have front := Text.dropWhile_isBlank_eq_self_iff.mpr clean.head
  rw [content, dropComment_written isMargin, clean.trimEnd_append, Text.trimChars,
    List.dropWhile_append_of_pos margin, front]
  exact clean.trimEnd_append []

theorem margin_written (isMargin : Line.isMargin style = true) :
    margin (line.written style) = List.replicate line.indent style := by
  have inside : ∀ c ∈ List.replicate line.indent style, Line.isMargin c = true := fun c member =>
    List.eq_of_mem_replicate member ▸ isMargin
  rw [margin, dropComment_written isMargin, clean.trimEnd_append,
    List.takeWhile_append_of_pos inside]
  cases chars : line.text.toList with
  | nil => exact absurd chars clean.written
  | cons c others =>
    have visible := clean.head c (by rw [chars]; rfl)
    have outside : ¬ Line.isMargin c = true := fun inMargin => by
      rw [isBlank_of_isMargin inMargin] at visible
      cases visible
    rw [List.takeWhile_cons_of_neg outside, List.append_nil]

/-- Written lines have an end that is no return, so they are the lines of their text. -/
theorem whole (isMargin : Line.isMargin style = true) :
    line.written style ≠ [] ∧ '\n' ∉ line.written style ∧
      (line.written style).getLast? ≠ some '\r' := by
  have last : (line.written style).getLast? = line.text.toList.getLast? := by
    have some : (doubled line.text.toList).getLast?.isSome = true := by
      rw [getLast?_doubled]
      exact List.getLast?_isSome.mpr clean.written
    rw [Line.written, List.getLast?_append, Option.or_of_isSome some, getLast?_doubled]
  refine ⟨fun empty => ?_, ?_, fun isReturn => ?_⟩
  · rw [empty, List.getLast?_nil, eq_comm, List.getLast?_eq_none_iff] at last
    exact clean.written last
  · rw [Line.written, List.mem_append, not_or, mem_doubled]
    refine ⟨fun inMargin => ?_, clean.unbroken⟩
    cases List.eq_of_mem_replicate inMargin
    cases isMargin
  · rw [last] at isReturn
    cases (Text.trimChars_eq_self_iff.mp clean.trimmed).2 _ isReturn

end Clean

/-- A margin in the style of the file fits, and shows the style unless it is empty. -/
theorem checkMargin_replicate (isMargin : Line.isMargin style = true) {known : Option Char}
    (fits : ∀ c ∈ known, c = style) (number indent : Nat) :
    checkMargin known number (List.replicate indent style) =
      .ok (if indent = 0 then known else some style) := by
  have pure : ¬ ((List.replicate indent style).contains ' ' &&
      (List.replicate indent style).contains '\t') = true := by
    simp only [List.contains_iff_mem, Bool.and_eq_true, List.mem_replicate, not_and]
    rintro ⟨-, rfl⟩ - tab
    cases tab
  unfold checkMargin
  rw [if_neg pure, List.head?_replicate]
  split_ifs
  · rfl
  · cases known with
    | none => rfl
    | some c =>
      cases fits c rfl
      exact if_pos rfl

/-- Reading lines that are written in one style, in a file of that style. -/
theorem readFrom_written (isMargin : Line.isMargin style = true) {known : Option Char}
    (fits : ∀ c ∈ known, c = style) {lines : List Line} (clean : ∀ line ∈ lines, line.Clean)
    {number : Nat} (numbers : lines.map Line.number = List.range' number lines.length) :
    readFrom known number (lines.map (written style)) = .ok lines := by
  induction lines generalizing known number with
  | nil => rfl
  | cons line others ih =>
    have own := clean line List.mem_cons_self
    rw [List.map_cons, List.length_cons, List.range'_succ, List.cons.injEq] at numbers
    obtain ⟨first, later⟩ := numbers
    have shown : ∀ c ∈ (if line.indent = 0 then known else some style), c = style := by
      split_ifs
      · exact fits
      · exact fun c member => (Option.mem_some_iff.mp member).symm
    have rest := ih shown (fun other member => clean other (List.mem_cons_of_mem _ member)) later
    have same : (⟨line.indent, String.ofList line.text.toList, number⟩ : Line) = line := by
      rw [String.ofList_toList, ← first]
    rw [List.map_cons, readFrom, own.content_written isMargin, own.margin_written isMargin,
      if_neg (by simpa using own.written), checkMargin_replicate isMargin fits]
    dsimp only
    rw [rest, Except.map, List.length_replicate, same]

end Line

/-! ## Trees -/

namespace Node

/-- The node can stand in a tree that has been read: keys are trimmed and have no breaks, and a line
says something and does not end like a header. -/
def Readable : Node → Prop
  | .simple key _ => key.toList ≠ [] ∧ Text.trimChars key.toList = key.toList ∧
      '\n' ∉ key.toList ∧ key.toList.getLast? ≠ some ':'
  | .entry _ _ _ => False
  | .nested key _ nodes => Text.trimChars key.toList = key.toList ∧ '\n' ∉ key.toList ∧
      AllReadable nodes
where
  /-- All of the nodes can stand in a tree that has been read. -/
  AllReadable : List Node → Prop
    | [] => True
    | node :: others => node.Readable ∧ AllReadable others

/-- The lines for a node and those below it, one for each, with a colon behind the headers. The
section with number `n` has its nodes deeper than its header by `extra n`. -/
def layout (extra : Nat → Nat) (indent number : Nat) : Node → List Line
  | .simple key _ => [⟨indent, key, number⟩]
  | .entry key value _ => [⟨indent, key ++ ": " ++ value, number⟩]
  | .nested key _ nodes =>
    ⟨indent, key ++ ":", number⟩ :: layoutAll extra (indent + extra number) (number + 1) nodes
where
  /-- The lines for a list of trees. -/
  layoutAll (extra : Nat → Nat) (indent number : Nat) : List Node → List Line
    | [] => []
    | node :: others =>
      node.layout extra indent number ++ layoutAll extra indent (number + node.size) others

/-- The node with new line numbers for itself and those below it, in the order of the text. -/
def renumber (number : Nat) : Node → Node
  | .simple key _ => .simple key number
  | .entry key value _ => .entry key value number
  | .nested key _ nodes => .nested key number (renumberAll (number + 1) nodes)
where
  /-- A list of trees with new line numbers. -/
  renumberAll (number : Nat) : List Node → List Node
    | [] => []
    | node :: others => node.renumber number :: renumberAll (number + node.size) others

open layout (layoutAll)
open renumber (renumberAll)
open Readable (AllReadable)
open size (sizes)

/-- The text of a list of trees. -/
def write (style : Char) (extra : Nat → Nat) (ended : Bool) (nodes : List Node) : String :=
  String.ofList (Text.joinLines ended ((layoutAll extra 0 1 nodes).map (Line.written style)))

/-- The line numbers of the nodes of a list of trees, in the order of the text. -/
def lineNumbers (nodes : List Node) : List Nat :=
  (rows.rowsOf 0 nodes).map (·.2.line)

variable (extra : Nat → Nat)

mutual

theorem number_layout (indent number : Nat) (node : Node) :
    (node.layout extra indent number).map Line.number = List.range' number node.size := by
  match node with
  | .simple key line => rfl
  | .entry key value line => rfl
  | .nested key line nodes =>
    rw [layout, List.map_cons, number_layoutAll, size, Nat.add_comm 1, List.range'_succ]

theorem number_layoutAll (indent number : Nat) (nodes : List Node) :
    (layoutAll extra indent number nodes).map Line.number = List.range' number (sizes nodes) := by
  match nodes with
  | [] => rfl
  | node :: others =>
    rw [layoutAll, List.map_append, number_layout, number_layoutAll, sizes,
      List.range'_append_1]

end

mutual

theorem indent_layout (indent number : Nat) (node : Node) :
    ∀ line ∈ node.layout extra indent number, indent ≤ line.indent := by
  match node with
  | .simple key line => exact List.forall_mem_singleton.mpr (Nat.le_refl _)
  | .entry key value line => exact List.forall_mem_singleton.mpr (Nat.le_refl _)
  | .nested key line nodes =>
    refine List.forall_mem_cons.mpr ⟨Nat.le_refl _, fun line member => ?_⟩
    exact (Nat.le_add_right _ _).trans (indent_layoutAll _ _ nodes line member)

theorem indent_layoutAll (indent number : Nat) (nodes : List Node) :
    ∀ line ∈ layoutAll extra indent number nodes, indent ≤ line.indent := by
  match nodes with
  | [] => exact fun _ absent => absurd absent List.not_mem_nil
  | node :: others =>
    exact List.forall_mem_append.mpr ⟨indent_layout indent number node,
      indent_layoutAll indent _ others⟩

end

/-- The first of the lines stands at the indentation of the trees. -/
theorem head_layoutAll (indent number : Nat) (nodes : List Node) :
    ∀ line ∈ (layoutAll extra indent number nodes).head?, line.indent = indent := by
  match nodes with
  | [] => exact nofun
  | .simple key line :: others => rintro _ ⟨⟩; rfl
  | .entry key value line :: others => rintro _ ⟨⟩; rfl
  | .nested key line nodes :: others => rintro _ ⟨⟩; rfl

theorem clean_header {key : String} (trimmed : Text.trimChars key.toList = key.toList)
    (unbroken : '\n' ∉ key.toList) (indent number : Nat) :
    Line.Clean ⟨indent, key ++ ":", number⟩ := by
  have chars : (key ++ ":").toList = key.toList ++ [':'] := String.toList_append
  refine ⟨?_, ?_, ?_⟩ <;> dsimp only <;> rw [chars]
  · exact List.append_ne_nil_of_right_ne_nil _ (List.cons_ne_nil _ _)
  · refine Text.trimChars_eq_self_iff.mpr ⟨fun c first => ?_, fun c last => ?_⟩
    · rw [List.head?_append] at first
      cases start : key.toList.head? with
      | none =>
        rw [start] at first
        cases first
        rfl
      | some d =>
        rw [start] at first
        cases first
        exact (Text.trimChars_eq_self_iff.mp trimmed).1 c start
    · rw [List.getLast?_concat] at last
      cases last
      rfl
  · rw [List.mem_append, not_or]
    exact ⟨unbroken, by decide⟩

mutual

theorem clean_layout (indent number : Nat) (node : Node) (readable : node.Readable) :
    ∀ line ∈ node.layout extra indent number, line.Clean := by
  match node with
  | .simple key line =>
    obtain ⟨written, trimmed, unbroken, -⟩ := readable
    exact List.forall_mem_singleton.mpr ⟨written, trimmed, unbroken⟩
  | .nested key line nodes =>
    obtain ⟨trimmed, unbroken, below⟩ := readable
    exact List.forall_mem_cons.mpr ⟨clean_header trimmed unbroken _ _,
      clean_layoutAll _ _ nodes below⟩

theorem clean_layoutAll (indent number : Nat) (nodes : List Node) (readable : AllReadable nodes) :
    ∀ line ∈ layoutAll extra indent number nodes, line.Clean := by
  match nodes with
  | [] => exact fun _ absent => absurd absent List.not_mem_nil
  | node :: others =>
    exact List.forall_mem_append.mpr ⟨clean_layout indent number node readable.1,
      clean_layoutAll indent _ others readable.2⟩

end

mutual

theorem lineNumbers_renumber (depth number : Nat) (node : Node) :
    ((node.renumber number).rows depth).map (·.2.line) = List.range' number node.size := by
  match node with
  | .simple key line => rfl
  | .entry key value line => rfl
  | .nested key line nodes =>
    rw [renumber, rows, List.map_cons, lineNumbers_renumberAll, size, Nat.add_comm 1,
      List.range'_succ]
    rfl

theorem lineNumbers_renumberAll (depth number : Nat) (nodes : List Node) :
    (rows.rowsOf depth (renumberAll number nodes)).map (·.2.line) =
      List.range' number (sizes nodes) := by
  match nodes with
  | [] => rfl
  | node :: others =>
    rw [renumberAll, rows.rowsOf, List.map_append, lineNumbers_renumber, lineNumbers_renumberAll,
      sizes, List.range'_append_1]

end

/-! ### Headers -/

theorem header?_line {key : String} (other : key.toList.getLast? ≠ some ':') (indent number : Nat) :
    Line.header? ⟨indent, key, number⟩ = none := by
  rw [Line.header?, Option.map_eq_none_iff, Text.beforeEnd?, Option.map_eq_none_iff]
  rw [← List.head?_reverse] at other
  dsimp only
  cases chars : key.toList.reverse with
  | nil => rfl
  | cons c others =>
    rw [chars, List.head?_cons, ne_eq, Option.some.injEq] at other
    simp [Text.afterLead?, Ne.symm other]

theorem header?_header {key : String} (trimmed : Text.trimChars key.toList = key.toList)
    (indent number : Nat) : Line.header? ⟨indent, key ++ ":", number⟩ = some key := by
  have chars : (key ++ ":").toList = key.toList ++ [':'] := String.toList_append
  have before : Text.beforeEnd? [':'] (key ++ ":").toList = some key.toList := by
    rw [chars, Text.beforeEnd?, List.reverse_append]
    simp [Text.afterLead?]
  have back := Text.trimEndChars_eq_self_iff.mpr (Text.trimChars_eq_self_iff.mp trimmed).2
  rw [Line.header?, before, Option.map_some, back, String.ofList_toList]

/-- The lines below a header are those deeper than it, up to the next tree. -/
theorem span_layoutAll {level inner : Nat} (deeper : level < inner) (first second : Nat)
    (below others : List Node) :
    let body := layoutAll extra inner first below
    let rest := layoutAll extra level second others
    (body ++ rest).takeWhile (level < ·.indent) = body ∧
      (body ++ rest).dropWhile (level < ·.indent) = rest := by
  intro body rest
  have inside : ∀ line ∈ body, decide (level < line.indent) = true := fun line member =>
    decide_eq_true (deeper.trans_le (indent_layoutAll extra inner first below line member))
  have head := head_layoutAll extra level second others
  have stops : rest.takeWhile (level < ·.indent) = [] ∧
      rest.dropWhile (level < ·.indent) = rest := by
    cases lines : rest with
    | nil => exact ⟨rfl, rfl⟩
    | cons line later =>
      have here : line.indent = level := head line (congrArg List.head? lines)
      simp [here]
  rw [List.takeWhile_append_of_pos inside, List.dropWhile_append_of_pos inside, stops.1, stops.2,
    List.append_nil]
  exact ⟨rfl, rfl⟩

/-- The first of the lines below a header sets the level for the others. -/
theorem trees_entered (level inner number : Nat) (nodes : List Node) :
    let body := layoutAll extra inner number nodes
    Line.trees ((body.head?.map Line.indent).getD level) body = Line.trees inner body := by
  intro body
  have head := head_layoutAll extra inner number nodes
  cases lines : body with
  | nil => simp only [Line.trees]
  | cons line later =>
    rw [List.head?_cons, Option.map_some, Option.getD_some, head line (congrArg List.head? lines)]

/-- The lines of some trees are read as the trees. -/
theorem trees_layoutAll {extra : Nat → Nat} (positive : ∀ number, 0 < extra number)
    (level number : Nat) (nodes : List Node) (readable : AllReadable nodes) :
    Line.trees level (layoutAll extra level number nodes) = .ok (renumberAll number nodes) := by
  match nodes with
  | [] => simp only [layoutAll, renumberAll, Line.trees]
  | .simple key line :: others =>
    obtain ⟨⟨-, -, -, noHeader⟩, rest⟩ := readable
    have later := trees_layoutAll positive level (number + 1) others rest
    simp only [layoutAll, layout, size, List.singleton_append]
    rw [Line.trees, if_neg (not_not_intro rfl), header?_line noHeader, later]
    rfl
  | .nested key line nodes :: others =>
    obtain ⟨⟨trimmed, -, below⟩, rest⟩ := readable
    have inner := trees_layoutAll positive (level + extra number) (number + 1) nodes below
    have later := trees_layoutAll positive level (number + (1 + sizes nodes)) others rest
    have deeper : level < level + extra number := Nat.lt_add_of_pos_right (positive number)
    have spans := span_layoutAll extra deeper (number + 1) (number + (1 + sizes nodes)) nodes
      others
    simp only [layoutAll, layout, size, List.cons_append]
    rw [Line.trees, if_neg (not_not_intro rfl), header?_header trimmed]
    dsimp only
    rw [spans.1, spans.2, trees_entered, inner, later]
    rfl

end Node

open Node.renumber (renumberAll)

/-- The tree of a text that has been written. -/
theorem Section.parse_layout (name : String) {style : Char} (isMargin : style = ' ' ∨ style = '\t')
    {extra : Nat → Nat} (positive : ∀ number, 0 < extra number) (ended : Bool)
    {nodes : List Node} (readable : Node.Readable.AllReadable nodes) :
    Section.parse name (Node.write style extra ended nodes) =
      .ok ⟨name, 0, renumberAll 1 nodes⟩ := by
  have isMargin : Line.isMargin style = true := by
    rcases isMargin with rfl | rfl <;> rfl
  have clean := Node.clean_layoutAll extra 0 1 nodes readable
  have numbers := Node.number_layoutAll extra 0 1 nodes
  have count := congrArg List.length numbers
  rw [List.length_map, List.length_range'] at count
  have lines : Text.lines (Node.write style extra ended nodes) =
      (Node.layout.layoutAll extra 0 1 nodes).map (Line.written style) := by
    refine Text.lines_joinLines ended fun raw member => ?_
    obtain ⟨line, there, rfl⟩ := List.mem_map.mp member
    exact (clean line there).whole isMargin
  have read : Line.read (Node.write style extra ended nodes) =
      .ok (Node.layout.layoutAll extra 0 1 nodes) := by
    rw [Line.read, lines]
    exact Line.readFrom_written isMargin (fun _ absent => absurd absent (Option.not_mem_none _))
      clean (count ▸ numbers)
  simp only [Section.parse, read, Node.trees_layoutAll positive 0 1 nodes readable, Except.map]

/-- **What is written is read back.** Trees whose keys can have been read, written in one style with
any deeper margins below their headers, are read as the same trees, their nodes numbered one after
the other in the order of the text. -/
theorem Section.parse_write (name : String) {style : Char} (isMargin : style = ' ' ∨ style = '\t')
    {extra : Nat → Nat} (positive : ∀ number, 0 < extra number) (ended : Bool)
    {nodes : List Node} (readable : Node.Readable.AllReadable nodes) :
    Section.parse name (Node.write style extra ended nodes) = .ok ⟨name, 0, renumberAll 1 nodes⟩ ∧
      Node.lineNumbers (renumberAll 1 nodes) = List.range' 1 (Node.size.sizes nodes) :=
  ⟨Section.parse_layout name isMargin positive ended readable,
    Node.lineNumbers_renumberAll 0 1 nodes⟩

/-! ### A tree with signs and colons in its keys -/

/-- A section whose key ends in a colon, with a sign and an empty header below it. -/
def signNodes : List Node :=
  [.nested "a:" 0 [.simple "b # c" 0, .nested "" 0 [], .nested "d" 0 [.simple "#" 0]],
    .simple "e" 0]

theorem parse_write_signs : (∀ number : Nat, 0 < number + 1) ∧
    Node.Readable.AllReadable signNodes ∧
    Node.write '\t' (· + 1) false signNodes =
      "a::\n\t\tb ## c\n\t\t:\n\t\td:\n\t\t\t\t\t\t\t##\ne" ∧
    Section.parse "signs" (Node.write '\t' (· + 1) false signNodes) =
      .ok ⟨"signs", 0, [.nested "a:" 1 [.simple "b # c" 2, .nested "" 3 [],
        .nested "d" 4 [.simple "#" 5]], .simple "e" 6]⟩ := by
  have readable : Node.Readable.AllReadable signNodes := by
    simp only [signNodes, Node.Readable.AllReadable, Node.Readable]
    decide +kernel
  exact ⟨Nat.succ_pos, readable, by decide +kernel,
    (Section.parse_write "signs" (Or.inr rfl) Nat.succ_pos false readable).1⟩

end ScriptBinding

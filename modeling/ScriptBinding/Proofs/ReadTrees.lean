import ScriptBinding.Proofs.FailureLines

/-! # What reading gives can be written

The significant lines of a text are not empty, have no blanks at their ends and no breaks inside.
A line that is no header does not end in a colon, and the key of a header is trimmed again when the
colon is gone. So every tree that has been read can be written, and reading it gives it back.
-/

namespace ScriptBinding

namespace Text

theorem beforeEnd?_eq_some {ending chars before : List Char} :
    beforeEnd? ending chars = some before ↔ chars = before ++ ending := by
  rw [beforeEnd?, Option.map_eq_some_iff]
  constructor
  · rintro ⟨reversed, found, rfl⟩
    have whole := congrArg List.reverse (afterLead?_eq_some.mp found)
    simpa using whole
  · rintro rfl
    exact ⟨before.reverse, afterLead?_eq_some.mpr (by simp), List.reverse_reverse before⟩

/-- A text that does not end in a blank has the same end when it is trimmed. -/
theorem getLast?_trimChars {chars : List Char} (ends : ∀ c ∈ chars.getLast?, isBlank c = false) :
    (trimChars chars).getLast? = chars.getLast? := by
  rw [trimChars_of_suffix (List.suffix_refl chars) ends]
  cases last : chars.getLast? with
  | none =>
    rw [List.getLast?_eq_none_iff.mp last]
    rfl
  | some c =>
    obtain ⟨front, rfl⟩ := List.getLast?_eq_some_iff.mp last
    have solid := ends c last
    rw [List.dropWhile_append]
    split <;> simp [solid]

/-- Text that can stand on a line by itself. -/
structure Inline (chars : List Char) : Prop where
  written : chars ≠ []
  trimmed : trimChars chars = chars
  unbroken : '\n' ∉ chars

/-- What is left of a text without breaks when it is trimmed, if anything is. -/
theorem Inline.of_trim {chars : List Char} (unbroken : '\n' ∉ chars)
    (visible : trimChars chars ≠ []) : Inline (trimChars chars) :=
  ⟨visible, trimChars_trimChars chars,
    fun inside => unbroken ((trimChars_sublist chars).subset inside)⟩

theorem dropReturn_subset (line : List Char) : dropReturn line ⊆ line := by
  unfold dropReturn
  cases found : beforeEnd? ['\r'] line with
  | none => exact List.Subset.refl _
  | some before =>
    rw [beforeEnd?_eq_some.mp found]
    exact List.subset_append_left _ _

theorem subset_of_mem_closedLines {parts : List (List Char)} {line : List Char}
    (member : line ∈ closedLines parts) : ∃ part ∈ parts, line ⊆ part := by
  fun_induction closedLines parts with
  | case1 => exact absurd member List.not_mem_nil
  | case2 last => exact absurd member List.not_mem_nil
  | case3 last => exact ⟨last, List.mem_cons_self, by rw [List.mem_singleton.mp member]; simp⟩
  | case4 part others _ ih =>
    rcases List.mem_cons.mp member with rfl | later
    · exact ⟨part, List.mem_cons_self, dropReturn_subset part⟩
    · obtain ⟨other, there, within⟩ := ih later
      exact ⟨other, List.mem_cons_of_mem _ there, within⟩

/-- A line of a text has no break inside. -/
theorem unbroken_of_mem_lines {text : String} {line : List Char} (member : line ∈ lines text) :
    '\n' ∉ line := by
  obtain ⟨part, there, within⟩ := subset_of_mem_closedLines member
  exact fun inside => (mem_pieces there).1 (within inside)

end Text

namespace Line

open Text (isBlank trimChars)

theorem dropComment_subset (raw : List Char) : dropComment raw ⊆ raw := by
  obtain ⟨comment, whole, -⟩ := exists_comment raw
  intro c member
  rw [whole]
  exact List.mem_append_left _ (mem_doubled.mpr member)

theorem content_subset (raw : List Char) : content raw ⊆ raw := by
  intro c member
  have kept := (Text.trimChars_sublist _).subset member
  rw [Text.trimEndChars, Text.dropEndWhile, List.mem_reverse] at kept
  have behind := (List.dropWhile_suffix isBlank).subset kept
  exact dropComment_subset raw (List.mem_reverse.mp behind)

/-- The significant lines of a text can be written. -/
theorem clean_significant (text : String) : ∀ line ∈ significant text, line.Clean := by
  intro line member
  simp only [significant, WrittenLine.all, WrittenLine.allFrom, List.mem_map, List.mem_filter]
    at member
  obtain ⟨_, ⟨⟨raw, number⟩, ⟨there, visible⟩, rfl⟩, rfl⟩ := member
  have isText : (WrittenLine.ofRaw raw number).toLine.text.toList = content raw :=
    String.toList_ofList
  have unbroken : '\n' ∉ raw :=
    Text.unbroken_of_mem_lines (List.fst_mem_of_mem_zipIdx there)
  constructor <;> rw [isText]
  · simpa using visible
  · exact Text.trimChars_trimChars _
  · exact fun inside => unbroken (content_subset raw inside)

variable {line : Line}

theorem header?_eq_some {key : String} : line.header? = some key ↔
    ∃ before, line.text.toList = before ++ [':'] ∧
      key = String.ofList (Text.trimEndChars before) := by
  rw [header?, Option.map_eq_some_iff]
  refine exists_congr fun before => ?_
  rw [Text.beforeEnd?_eq_some, eq_comm (a := key)]

theorem getLast?_of_header?_none (none : line.header? = none) :
    line.text.toList.getLast? ≠ some ':' := by
  intro isLast
  obtain ⟨before, whole⟩ := List.getLast?_eq_some_iff.mp isLast
  rw [header?_eq_some.mpr ⟨before, whole, rfl⟩] at none
  cases none

/-- The key of a header is trimmed, and has no break inside. -/
theorem Clean.header (clean : line.Clean) {key : String} (header : line.header? = some key) :
    trimChars key.toList = key.toList ∧ '\n' ∉ key.toList := by
  obtain ⟨before, whole, rfl⟩ := header?_eq_some.mp header
  have starts := (Text.trimChars_eq_self_iff.mp clean.trimmed).1
  have isPrefix : Text.trimEndChars before <+: before := by
    rw [Text.trimEndChars, Text.dropEndWhile, ← List.reverse_suffix, List.reverse_reverse]
    exact List.dropWhile_suffix isBlank
  rw [String.toList_ofList]
  refine ⟨Text.trimChars_eq_self_iff.mpr ⟨?_, Text.ends_trimEndChars before⟩, fun inside => ?_⟩
  · refine Text.starts_of_prefix (isPrefix.trans ?_) starts
    exact whole ▸ List.prefix_append before [':']
  · exact clean.unbroken (whole ▸ List.mem_append_left _ (isPrefix.subset inside))

end Line

open Node.Readable (AllReadable)

/-- Lines that can be written are trees that can be written. -/
theorem Line.readable_trees (level : Nat) (lines : List Line) : (∀ line ∈ lines, line.Clean) →
    ∀ nodes, Line.trees level lines = .ok nodes → AllReadable nodes := by
  fun_induction Line.trees level lines with
  | case1 =>
    rintro - nodes ⟨⟩
    trivial
  | case2 =>
    intro _ nodes built
    cases built
  | case3 level line others _ plain ih =>
    intro clean nodes built
    obtain ⟨own, later⟩ := List.forall_mem_cons.mp clean
    obtain ⟨rest, read, rfl⟩ := eq_ok_of_map built
    exact ⟨⟨own.written, own.trimmed, own.unbroken, getLast?_of_header?_none plain⟩,
      ih later rest read⟩
  | case4 =>
    intro _ nodes built
    cases built
  | case5 level line others _ key header body below made ihBelow ihOthers =>
    intro clean nodes built
    obtain ⟨own, later⟩ := List.forall_mem_cons.mp clean
    obtain ⟨rest, read, rfl⟩ := eq_ok_of_map built
    obtain ⟨trimmed, unbroken⟩ := own.header header
    have inBody (other : Line) (member : other ∈ body) : other.Clean :=
      later other ((List.takeWhile_sublist _).subset member)
    refine ⟨⟨trimmed, unbroken, ihBelow inBody below made⟩, ihOthers ?_ rest read⟩
    exact fun other member => later other ((List.dropWhile_sublist _).subset member)

/-- A tree that has been read can be written. -/
theorem Section.readable_parse {name text : String} {tree : Section}
    (parses : Section.parse name text = .ok tree) : AllReadable tree.nodes := by
  have read := Line.read_spec text
  unfold Section.parse at parses
  cases lines : Line.read text with
  | error problem =>
    rw [lines] at parses
    cases parses
  | ok found =>
    rw [lines] at parses read
    obtain ⟨nodes, built, rfl⟩ := eq_ok_of_map parses
    rw [read.1] at built
    exact Line.readable_trees 0 _ (Line.clean_significant text) nodes built

end ScriptBinding

import ScriptBinding.Proofs.EntryConversion
import ScriptBinding.Proofs.LoadedOptions
import ScriptBinding.Proofs.ReadTrees

/-! # Writing options

The options of a script that has been read can be written on lines of their own below one header,
with a colon between key and value. What is read again is cut at the first colon of the line. A key
takes the headers around it with it, and these may have colons in them: so the options come back
just if there is none in their keys.
-/

namespace ScriptBinding

namespace Text

/-! ## Joined texts -/

/-- Text that can stand on a line before other text. -/
structure Leading (chars : List Char) : Prop where
  starts : ∀ c ∈ chars.head?, isBlank c = false
  unbroken : '\n' ∉ chars

variable {chars others : List Char}

theorem Inline.starts (inline : Inline chars) : ∀ c ∈ chars.head?, isBlank c = false :=
  (trimChars_eq_self_iff.mp inline.trimmed).1

theorem Inline.ends (inline : Inline chars) : ∀ c ∈ chars.getLast?, isBlank c = false :=
  (trimChars_eq_self_iff.mp inline.trimmed).2

theorem Inline.leading (inline : Inline chars) : Leading chars :=
  ⟨inline.starts, inline.unbroken⟩

theorem Leading.append (leads : Leading chars) (follows : Leading others) :
    Leading (chars ++ others) := by
  refine ⟨fun c first => ?_, ?_⟩
  · rw [List.head?_append, Option.mem_def, Option.or_eq_some_iff] at first
    rcases first with here | ⟨-, there⟩
    · exact leads.starts c here
    · exact follows.starts c there
  · rw [List.mem_append, not_or]
    exact ⟨leads.unbroken, follows.unbroken⟩

theorem getLast?_append_inline (inline : Inline others) :
    (chars ++ others).getLast? = others.getLast? := by
  rw [List.getLast?_append, Option.or_of_isSome]
  exact List.getLast?_isSome.mpr inline.written

theorem Leading.inline (leads : Leading chars) (inline : Inline others) :
    Inline (chars ++ others) := by
  have joined := leads.append inline.leading
  refine ⟨List.append_ne_nil_of_right_ne_nil _ inline.written, ?_, joined.unbroken⟩
  refine trimChars_eq_self_iff.mpr ⟨joined.starts, ?_⟩
  rw [getLast?_append_inline inline]
  exact inline.ends

end Text

open Text (Inline Leading trimChars)
open Node.Readable (AllReadable)
open Node.renumber (renumberAll)

/-! ## Options that fit on a line -/

/-- The key and the value that a line of options is cut into. -/
def Options.sides? (text : String) : Option (String × String) :=
  Node.cutEntry? ":" text

/-- The option can be written on a line, which does not become a header. -/
structure Options.Fits (definition : String × String) : Prop where
  key : Inline definition.1.toList
  value : Inline definition.2.toList
  noHeader : definition.2.toList.getLast? ≠ some ':'

namespace OptionsStructure

open Options (Fits sides?)
open flatten (flattenAll)
open Node.convert (convertAll)

variable {lead : String}

/-- A line is cut at its first colon, which does not stand at its end. -/
theorem fits_of_cut (leads : Leading lead.toList) {text key value : String} {line : Nat}
    (readable : (Node.simple text line).Readable) (cut : sides? text = some (key, value)) :
    Fits (lead ++ key, value) := by
  obtain ⟨-, trimmed, unbroken, noHeader⟩ := readable
  obtain ⟨before, after, first, named, rfl, rfl⟩ := Node.cutEntry?_eq_some_iff.mp cut
  have whole : text.toList = before ++ [':'] ++ after := first.whole
  rw [whole] at trimmed unbroken noHeader
  have written : after ≠ [] := by
    rintro rfl
    exact noHeader (by simp)
  have last : (before ++ [':'] ++ after).getLast? = after.getLast? := by
    rw [List.getLast?_append, Option.or_of_isSome]
    exact List.getLast?_isSome.mpr written
  have ends := (Text.trimChars_eq_self_iff.mp trimmed).2
  rw [last] at ends noHeader
  have kept := Text.getLast?_trimChars ends
  have visible : trimChars after ≠ [] := by
    rw [← List.getLast?_isSome, kept]
    exact List.getLast?_isSome.mpr written
  have inKey : Inline (trimChars before) :=
    .of_trim (fun inside => unbroken (by simp [inside])) named
  have inValue : Inline (trimChars after) :=
    .of_trim (fun inside => unbroken (by simp [inside])) visible
  constructor
  · simpa using leads.inline inKey
  · simpa using inValue
  · simpa [kept] using noHeader

/-- What stands before the keys of a section below a header. -/
theorem leading_header (leads : Leading lead.toList) {key : String}
    (trimmed : trimChars key.toList = key.toList) (unbroken : '\n' ∉ key.toList) :
    Leading (lead ++ key ++ ".").toList := by
  have ofKey : Leading key.toList := ⟨(Text.trimChars_eq_self_iff.mp trimmed).1, unbroken⟩
  have dot : Leading ['.'] := ⟨by simp [Text.isBlank], by decide⟩
  simpa using (leads.append ofKey).append dot

/-- What a plain line defines. -/
theorem flatten_line (lead text : String) (number : Nat) :
    (flatten lead ((Node.simple text number).convert ":" (-1))).1 =
      (sides? text).toList.map fun sides => (lead ++ sides.1, sides.2) := by
  rw [Node.convert, Node.ofLine, sides?]
  cases Node.cutEntry? ":" text <;> rfl

mutual

/-- What a tree that has been read defines fits on lines. -/
theorem fits_flatten {lead : String} (leads : Leading lead.toList) (node : Node)
    (readable : node.Readable) :
    ∀ definition ∈ (flatten lead (node.convert ":" (-1))).1, Fits definition := by
  match node with
  | .simple text line =>
    rw [flatten_line]
    cases cut : sides? text with
    | none => exact fun _ absent => absurd absent List.not_mem_nil
    | some sides => exact List.forall_mem_singleton.mpr (fits_of_cut leads readable cut)
  | .nested key line nodes =>
    obtain ⟨trimmed, unbroken, below⟩ := readable
    have endless : Node.SameReach (-1 - 1) (-1) := Or.inr ⟨by decide, by decide⟩
    rw [Node.convert, if_neg (by decide), Node.convertAll_sameReach endless]
    exact fits_flattenAll (leading_header leads trimmed unbroken) nodes below

/-- What trees that have been read define fits on lines. -/
theorem fits_flattenAll {lead : String} (leads : Leading lead.toList) (nodes : List Node)
    (readable : AllReadable nodes) :
    ∀ definition ∈ (flattenAll lead (convertAll ":" (-1) nodes)).1, Fits definition := by
  match nodes with
  | [] => exact fun _ absent => absurd absent List.not_mem_nil
  | node :: others =>
    exact List.forall_mem_append.mpr ⟨fits_flatten leads node readable.1,
      fits_flattenAll leads others readable.2⟩

end

theorem fits_definitions {body : Section} (readable : AllReadable body.nodes) :
    ∀ definition ∈ definitions body, Fits definition :=
  fits_flattenAll ⟨by simp, by simp⟩ body.nodes readable

end OptionsStructure

/-! ## Lines for options -/

namespace Options

open OptionsStructure (definitions)

/-- The option as it is written. -/
def line (entry : String × String) : String :=
  entry.1 ++ ": " ++ entry.2

variable {entry : String × String}

theorem toList_line (entry : String × String) :
    (line entry).toList = entry.1.toList ++ ':' :: ' ' :: entry.2.toList := by
  simp [line]

theorem Fits.readable (fits : Fits entry) (number : Nat) :
    (Node.simple (line entry) number).Readable := by
  have lead : Leading (entry.1.toList ++ [':', ' ']) :=
    fits.key.leading.append ⟨by simp [Text.isBlank], by decide⟩
  have inline : Inline (line entry).toList := by
    simpa [toList_line] using lead.inline fits.value
  refine ⟨inline.written, inline.trimmed, inline.unbroken, ?_⟩
  have split : (line entry).toList = entry.1.toList ++ [':', ' '] ++ entry.2.toList := by
    simp [toList_line]
  rw [split, Text.getLast?_append_inline fits.value]
  exact fits.noHeader

/-- The line is cut where it was joined, unless there is a colon before. -/
theorem Fits.sides?_line (fits : Fits entry) (plain : ':' ∉ entry.1.toList) :
    sides? (line entry) = some entry := by
  have first : Text.FirstAt ":".toList (line entry).toList entry.1.toList
      ([' '] ++ entry.2.toList) :=
    Text.cut?_eq_some_iff.mp (Text.cut?_singleton_iff.mpr ⟨toList_line entry, plain⟩)
  have blank : trimChars ([' '] ++ entry.2.toList) = entry.2.toList :=
    (Text.trimChars_append_of_blank (List.forall_mem_singleton.mpr rfl) _).trans fits.value.trimmed
  refine Node.cutEntry?_eq_some_iff.mpr ⟨_, _, first, ?_, ?_, ?_⟩
  · rw [fits.key.trimmed]
    exact fits.key.written
  · rw [fits.key.trimmed, String.ofList_toList]
  · rw [blank, String.ofList_toList]

/-- No key that is cut off a line has a colon. -/
theorem plain_of_cut {text : String} (cut : sides? text = some entry) :
    ':' ∉ entry.1.toList := by
  obtain ⟨before, after, first, -, key, -⟩ := Node.cutEntry?_eq_some_iff.mp cut
  have plain := (Text.cut?_singleton_iff.mp (Text.cut?_eq_some_iff.mpr first)).2
  rw [key, String.toList_ofList]
  exact fun inside => plain ((Text.trimChars_sublist before).subset inside)

/-- The nodes for some options. -/
def nodes (entries : List (String × String)) : List Node :=
  entries.map fun entry => .simple (line entry) 0

/-- What the lines for some options define. -/
theorem definitions_nodes (key : String) (number start : Nat) (entries : List (String × String)) :
    definitions ⟨key, number, renumberAll start (nodes entries)⟩ =
      entries.filterMap fun entry => sides? (line entry) := by
  induction entries generalizing start with
  | nil => rfl
  | cons entry others ih =>
    have first : definitions ⟨key, number, renumberAll start (nodes (entry :: others))⟩ =
        (OptionsStructure.flatten "" ((Node.simple (line entry) start).convert ":" (-1))).1 ++
          definitions ⟨key, number, renumberAll (start + 1) (nodes others)⟩ := rfl
    rw [first, OptionsStructure.flatten_line, ih (start + 1), List.filterMap_cons]
    cases sides? (line entry) <;> simp

/-! ## Reading the lines again -/

/-- A way to write options below a header. -/
structure Writing (options : Options) where
  /-- The options in the order in which they are written. -/
  entries : List (String × String)
  perm : entries.Perm options.entries
  /-- What the margin is made of. -/
  style : Char
  isMargin : style = ' ' ∨ style = '\t'
  width : Nat
  deeper : 0 < width
  /-- The last line is ended as well. -/
  ended : Bool

namespace Writing

variable {options : Options} (writing : options.Writing)

/-- The text, with a line for each option. -/
def text : String :=
  Node.write writing.style (fun _ => writing.width) writing.ended
    [.nested "options" 0 (nodes writing.entries)]

/-- The section that the text is read as. -/
def body : Section :=
  ⟨"options", 1, renumberAll 2 (nodes writing.entries)⟩

theorem allReadable_nodes {entries : List (String × String)}
    (fit : ∀ entry ∈ entries, Fits entry) : AllReadable (nodes entries) := by
  induction entries with
  | nil => trivial
  | cons entry others ih =>
    obtain ⟨first, rest⟩ := List.forall_mem_cons.mp fit
    exact ⟨first.readable 0, ih rest⟩

/-- The text is read as one section. -/
theorem parse_text (fit : ∀ entry ∈ options.entries, Fits entry) (name : String) :
    Section.parse name writing.text = .ok ⟨name, 0, [writing.body.toNode]⟩ := by
  have readable : AllReadable [.nested "options" 0 (nodes writing.entries)] := by
    refine ⟨⟨by decide, by decide, ?_⟩, trivial⟩
    exact allReadable_nodes fun entry member => fit entry (writing.perm.mem_iff.mp member)
  exact Section.parse_layout name writing.isMargin (fun _ => writing.deeper) writing.ended readable

/-- A sign is doubled in the text. -/
example : (⟨_, .refl _, ' ', Or.inl rfl, 2, Nat.two_pos, true⟩ :
    Writing (Table.empty.insert "a.b" "c # d")).text = "options:\n  a.b: c ## d\n" := by
  decide +kernel

/-- The section defines the same options just if no key has a colon. -/
theorem definitions_iff (fit : ∀ entry ∈ options.entries, Fits entry) :
    Table.empty.insertAll (definitions writing.body) = options ↔
      ∀ key ∈ options.keys, ':' ∉ key.toList := by
  rw [body, definitions_nodes]
  constructor
  · intro same key member
    obtain ⟨entry, held, rfl⟩ := List.mem_map.mp member
    rw [← same] at held
    obtain ⟨_, -, cut⟩ := List.mem_filterMap.mp (mem_of_mem_insertAll held)
    exact plain_of_cut cut
  · intro plain
    have kept : writing.entries.filterMap (fun entry => sides? (line entry)) =
        writing.entries := by
      refine (List.filterMap_congr fun entry member => ?_).trans List.filterMap_some
      have here := writing.perm.mem_iff.mp member
      exact (fit entry here).sides?_line (plain _ (List.mem_map_of_mem here))
    rw [kept]
    exact insertAll_of_perm writing.perm

end Writing

/-- However the options are written, the text is a tree, and what has been loaded from it are the
same options just if no key has a colon. -/
def ReturnWithoutColons (options : Options) : Prop :=
  ∀ (writing : options.Writing) (path : Path), ∃ tree,
    Section.parse path.raw writing.text = .ok tree ∧
      ∀ (thread : Thread) (script : Script) (workspace : Workspace),
        Script.sameCurrent workspace.context.script (some script) = false →
        ((Loading.loadScript .standard thread script ⟨path, tree⟩
            workspace).2.context.currentOptions = options ↔
          ∀ key ∈ options.keys, ':' ∉ key.toList)

end Options

/-- Sections with this header are sections of options. -/
theorem Registry.standard_options : Registry.standard.isOptions "options" = true := by
  decide +kernel

theorem Options.returnWithoutColons {options : Options}
    (fit : ∀ entry ∈ options.entries, Fits entry) : options.ReturnWithoutColons := by
  intro writing path
  refine ⟨_, writing.parse_text fit path.raw, fun thread script workspace moves => ?_⟩
  have single := Loading.definitionsOf_single writing.body Registry.standard_options
  rw [Loading.loadScript_options Registry.standard_lead thread script _ moves, single]
  exact writing.definitions_iff fit

namespace Loading

/-- The sections at the top of a tree that has been read. -/
theorem readable_topSections {nodes : List Node} (readable : AllReadable nodes) {index : Nat}
    {top : TopSection} (member : top ∈ topSections index nodes) : AllReadable top.body.nodes := by
  induction nodes generalizing index with
  | nil => exact absurd member List.not_mem_nil
  | cons node others ih =>
    obtain ⟨first, rest⟩ := readable
    rcases List.mem_append.mp member with here | later
    · cases node with
      | nested key line below =>
        rw [List.mem_singleton.mp here]
        exact first.2.2
      | simple key line => exact absurd here List.not_mem_nil
      | entry key value line => exact absurd here List.not_mem_nil
    · exact ih rest later

/-- **Options are read again as they were written, unless a colon is in a key.** For a script that
has been read and loaded, and for each of its sections of options by itself: however the options
are written, one on each line below a header, reading and loading that text gives the same options
just if none of their keys has a colon. -/
theorem options_return {source : ScriptSource} {text : String}
    (parses : Section.parse source.path.raw text = .ok source.tree) (thread : Thread)
    (script : Script) {workspace : Workspace}
    (moves : Script.sameCurrent workspace.context.script (some script) = false) :
    (loadScript .standard thread script source
        workspace).2.context.currentOptions.ReturnWithoutColons ∧
      ∀ top ∈ optionSections .standard source.tree.nodes, ∀ before,
        (({} : OptionsStructure).init top.body before).1.entries.ReturnWithoutColons := by
  have fit (top : TopSection) (member : top ∈ optionSections .standard source.tree.nodes) :
      ∀ entry ∈ OptionsStructure.definitions top.body, Options.Fits entry :=
    OptionsStructure.fits_definitions (readable_topSections (Section.readable_parse parses)
      (List.mem_filter.mp member).1)
  constructor
  · rw [loadScript_options Registry.standard_lead thread script _ moves]
    refine Options.returnWithoutColons fun entry member => ?_
    obtain ⟨top, there, defined⟩ := List.mem_flatMap.mp (Options.mem_of_mem_insertAll member)
    exact fit top there entry defined
  · intro top there before
    refine Options.returnWithoutColons fun entry member => ?_
    exact fit top there entry (Options.mem_of_mem_insertAll member)

/-- A script of one section. -/
def sourceOf (body : Section) : ScriptSource :=
  ⟨⟨"options.sk"⟩, "options.sk", 0, [body.toNode]⟩

/-- The context once the script has been loaded first of all. -/
def contextAfter (registry : Registry) (body : Section) : Context :=
  (loadScript registry .main ⟨⟨"options.sk"⟩, 1⟩ (sourceOf body) {}).2.context

theorem contextAfter_spec {registry : Registry} (leads : registry.OptionsLead) (body : Section)
    (options : registry.isOptions body.key = true) :
    (contextAfter registry body).currentOptions =
        Table.empty.insertAll (OptionsStructure.definitions body) ∧
      (OptionsStructure.faults body = [] → (contextAfter registry body).diagnostics = []) := by
  unfold contextAfter sourceOf
  constructor
  · rw [loadScript_options leads .main _ _ rfl, definitionsOf_single body options]
  · intro faultless
    exact loadScript_quiet leads .main _ _ _ options faultless rfl

/-- Options with a sign and a colon in a value. -/
def colorOptions : Section :=
  ⟨"options", 1, [.simple "greeting: hi" 2, .nested "colors" 3 [.simple "main: red # 1: x" 4]]⟩

theorem colors_return :
    Section.parse "options.sk" "options:\n  greeting: hi\n  colors:\n    main: red ## 1: x\n" =
        .ok (sourceOf colorOptions).tree ∧
      Script.sameCurrent ({} : Workspace).context.script (some ⟨⟨"options.sk"⟩, 1⟩) = false ∧
      (contextAfter .standard colorOptions).currentOptions.entries =
        [("colors.main", "red # 1: x"), ("greeting", "hi")] ∧
      (contextAfter .standard colorOptions).currentOptions.ReturnWithoutColons := by
  have spec := contextAfter_spec Registry.standard_lead colorOptions Registry.standard_options
  have parses : Section.parse (sourceOf colorOptions).path.raw
      "options:\n  greeting: hi\n  colors:\n    main: red ## 1: x\n" =
        .ok (sourceOf colorOptions).tree := by cbv
  refine ⟨parses, rfl, ?_, ?_⟩
  · rw [spec.1]
    decide +kernel
  · rw [contextAfter]
    exact (options_return parses .main _ rfl).1

/-- A section of options with a colon in a header. -/
def colonOptions : Section :=
  ⟨"options", 1, [.nested "a:b" 2 [.simple "c: v" 3]]⟩

/-- What its only option is read as again. -/
def cutOptions : Section :=
  ⟨"options", 1, [.simple "a:b.c: v" 2]⟩

/-- The key of the option is cut at its own colon when it is read again. -/
theorem colon_cuts_key :
    Section.parse "options.sk" "options:\n  a:b:\n    c: v\n" =
        .ok (sourceOf colonOptions).tree ∧
      (contextAfter .standard colonOptions).diagnostics = [] ∧
      (contextAfter .standard colonOptions).currentOptions.entries = [("a:b.c", "v")] ∧
      Section.parse "options.sk" "options:\n  a:b.c: v\n" = .ok (sourceOf cutOptions).tree ∧
      (contextAfter .standard cutOptions).currentOptions.entries = [("a", "b.c: v")] := by
  have leads := Registry.standard_lead
  have first := contextAfter_spec leads colonOptions Registry.standard_options
  have second := contextAfter_spec leads cutOptions Registry.standard_options
  have faultless : OptionsStructure.faults colonOptions = [] :=
    List.isEmpty_iff.mp (by decide +kernel)
  refine ⟨by cbv, first.2 faultless, ?_, by cbv, ?_⟩
  · rw [first.1]
    decide +kernel
  · rw [second.1]
    decide +kernel

end Loading

end ScriptBinding

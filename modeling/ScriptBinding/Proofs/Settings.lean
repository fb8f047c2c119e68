import Mathlib.Logic.Relation
import ScriptBinding.Config
import ScriptBinding.Proofs.FailureLines

/-! # Settings by their last entries

The settings are read from the lines of a file that are entries of it: those at the margin that are
cut by a colon. Each setting has the value that its last entry stands for, whatever stands in the
other lines, so entries for different settings may change places and lines that are no entries for
any setting may be put in anywhere. An entry that cannot be read stands for the default. Only the
priority of triggers is treated otherwise: an entry for it that cannot be read leaves the value of
the entries before it.
-/

namespace ScriptBinding.Config

/-! ## Fields -/

/-- What a setting is. -/
def Field.Value : Field → Type
  | defaultPriority => EventPriority
  | asyncLoading => Bool
  | scriptsFolder => Path
  | scriptExtension => String
  | disabledLead => String
  | maxCallDepth => Nat
  | verbosity => Verbosity

/-- The value of a setting. -/
def get (config : Config) : (field : Field) → field.Value
  | .defaultPriority => config.defaultPriority
  | .asyncLoading => config.asyncLoading
  | .scriptsFolder => config.scriptsFolder
  | .scriptExtension => config.scriptExtension
  | .disabledLead => config.disabledLead
  | .maxCallDepth => config.maxCallDepth
  | .verbosity => config.verbosity

/-- The value of a setting in a file that says nothing about it. -/
def Field.default (field : Field) : field.Value :=
  get {} field

/-- The value that a text stands for, if it can be read. -/
def Field.read? : (field : Field) → String → Option field.Value
  | .defaultPriority, text => EventPriority.read? text
  | .asyncLoading, text => readBool? text
  | .scriptsFolder, text => some (Path.mk text)
  | .scriptExtension, text => some (Text.dropLeading '.' text)
  | .disabledLead, text => some text
  | .maxCallDepth, text => readDepth? text
  | .verbosity, text => Verbosity.read? text

/-- The value of a setting when a text is given for it that cannot be read. -/
def Field.fallback : (field : Field) → field.Value → field.Value
  | .defaultPriority, current => current
  | field, _ => field.default

/-- The value of a setting after a text has been given for it. -/
def Field.next (field : Field) (current : field.Value) (text : String) : field.Value :=
  (field.read? text).getD (field.fallback current)

variable {config : Config} {field : Field}

theorem ext_get {other : Config} (same : ∀ field, config.get field = other.get field) :
    config = other := by
  have priority : config.defaultPriority = other.defaultPriority := same .defaultPriority
  have async : config.asyncLoading = other.asyncLoading := same .asyncLoading
  have folder : config.scriptsFolder = other.scriptsFolder := same .scriptsFolder
  have extension : config.scriptExtension = other.scriptExtension := same .scriptExtension
  have lead : config.disabledLead = other.disabledLead := same .disabledLead
  have depth : config.maxCallDepth = other.maxCallDepth := same .maxCallDepth
  have verbosity : config.verbosity = other.verbosity := same .verbosity
  cases config
  cases other
  subst priority async folder extension lead depth verbosity
  rfl

theorem get_set_self (field : Field) (text : String) (config : Config) :
    (config.set field text).1.get field = field.next (config.get field) text := by
  cases field with
  | defaultPriority =>
    rw [set, Field.next, Field.read?]
    cases EventPriority.read? text <;> rfl
  | asyncLoading =>
    rw [set, Field.next, Field.read?]
    cases readBool? text <;> rfl
  | scriptsFolder => rfl
  | scriptExtension => rfl
  | disabledLead => rfl
  | maxCallDepth =>
    rw [set, Field.next, Field.read?]
    cases readDepth? text <;> rfl
  | verbosity =>
    rw [set, Field.next, Field.read?]
    cases Verbosity.read? text <;> rfl

/-- A setting changes no other one. -/
theorem get_set_of_ne {other : Field} (differ : other ≠ field) (text : String)
    (config : Config) : (config.set field text).1.get other = config.get other := by
  unfold set
  cases field with
  | defaultPriority => cases EventPriority.read? text <;> cases other <;> trivial
  | asyncLoading => cases readBool? text <;> cases other <;> trivial
  | scriptsFolder => cases other <;> trivial
  | scriptExtension => cases other <;> trivial
  | disabledLead => cases other <;> trivial
  | maxCallDepth => cases readDepth? text <;> cases other <;> trivial
  | verbosity => cases Verbosity.read? text <;> cases other <;> trivial

theorem Field.ofKey?_eq_some_iff {key : String} :
    Field.ofKey? key = some field ↔ Text.lower key = field.key := by
  unfold Field.ofKey?
  constructor
  · intro found
    have own := List.find?_some found
    exact (beq_iff_eq.mp own).symm
  · intro same
    rw [same]
    cases field <;> decide

/-! ## Entries -/

/-- The key and the value of an entry at the top of a file. -/
def entryOf? : Node → Option (String × String)
  | .entry key value _ => some (key, value)
  | _ => none

/-- The value that an entry gives for a setting, if its key is the one of the setting, whatever the
case of its letters. -/
def valueFor? (field : Field) (entry : String × String) : Option String :=
  if Text.lower entry.1 = field.key then some entry.2 else none

/-- The values that the nodes of a file give for a setting. -/
def valuesOf (nodes : List Node) (field : Field) : List String :=
  (nodes.filterMap entryOf?).filterMap (valueFor? field)

theorem get_apply (name : String) (node : Node) (config : Config) (field : Field) :
    (config.apply name node).1.get field =
      (valuesOf [node] field).foldl field.next (config.get field) := by
  cases node with
  | simple key line => rfl
  | nested key line nodes => rfl
  | entry key value line =>
    have only : valuesOf [.entry key value line] field =
        (valueFor? field (key, value)).toList := by
      cases found : valueFor? field (key, value) <;> simp [valuesOf, entryOf?, found]
    rw [only, valueFor?, apply]
    cases known : Field.ofKey? key with
    | none =>
      have other : Text.lower key ≠ field.key := fun same => by
        rw [Field.ofKey?_eq_some_iff.mpr same] at known
        cases known
      rw [if_neg other]
      rfl
    | some own =>
      have isKey := Field.ofKey?_eq_some_iff.mp known
      by_cases same : field = own
      · subst same
        rw [if_pos isKey]
        exact get_set_self field value config
      · have other : Text.lower key ≠ field.key := fun key => by
          rw [Field.ofKey?_eq_some_iff.mpr key] at known
          exact same (Option.some.inj known)
        rw [if_neg other]
        exact get_set_of_ne same value config

/-- The nodes of a file change a setting by the values they give for it, one after the other. -/
theorem get_applyAll (name : String) (nodes : List Node) (config : Config) (field : Field) :
    (applyAll name nodes config).1.get field =
      (valuesOf nodes field).foldl field.next (config.get field) := by
  induction nodes generalizing config with
  | nil => rfl
  | cons node others ih =>
    have parts : valuesOf (node :: others) field = valuesOf [node] field ++ valuesOf others field := by
      rw [valuesOf, valuesOf, valuesOf, ← List.filterMap_append, ← List.filterMap_append]
      rfl
    rw [applyAll, ih, get_apply, parts, List.foldl_append]

/-! ## Last values -/

/-- The value that the last of some texts stands for, or the default when there is none or it cannot
be read. -/
def Field.last (field : Field) (texts : List String) : field.Value :=
  (texts.getLast?.bind field.read?).getD field.default

/-- Of the texts given for a setting that falls back to its default, only the last one counts. -/
theorem Field.foldl_next_of_ne (other : field ≠ .defaultPriority) (texts : List String) :
    texts.foldl field.next field.default = field.last texts := by
  have falls : ∀ current, field.fallback current = field.default := by
    intro current
    cases field <;> first | rfl | exact absurd rfl other
  cases texts using List.reverseRecOn with
  | nil => rfl
  | append_singleton earlier text =>
    rw [List.foldl_append, List.foldl_cons, List.foldl_nil, next, falls, last, List.getLast?_concat]
    rfl

/-- The value that the last of some texts stands for that can be read, or the default when there is
none. -/
def Field.lastReadable (field : Field) (texts : List String) : field.Value :=
  (texts.filterMap field.read?).getLast?.getD field.default

/-- Of the texts given for the priority, the last one counts that can be read. -/
theorem Field.foldl_next_priority (texts : List String) :
    texts.foldl (next .defaultPriority) (default .defaultPriority) =
      lastReadable .defaultPriority texts := by
  induction texts using List.reverseRecOn with
  | nil => rfl
  | append_singleton earlier text ih =>
    rw [List.foldl_append, List.foldl_cons, List.foldl_nil, ih, next]
    cases found : read? .defaultPriority text with
    | none => simp [lastReadable, found, fallback]
    | some priority => simp [lastReadable, found]

/-! ## Lines -/

/-- The entry that a line is among those with an indentation: it has this indentation, is no header,
and its key is cut off at its first colon. -/
def entryAt? (level : Nat) (line : Line) : Option (String × String) :=
  if line.indent = level ∧ line.header? = none then Node.cutEntry? ":" line.text else none

/-- The entry of the settings that a line of a file is, as it is written. -/
def entryIn? (raw : List Char) : Option (String × String) :=
  entryAt? 0 (WrittenLine.ofRaw raw 0).toLine

/-- The value that a line of a file gives for a setting. -/
def valueIn? (field : Field) (raw : List Char) : Option String :=
  (entryIn? raw).bind (valueFor? field)

/-- The values that a text gives for a setting, in the order of its lines. -/
def valuesIn (text : String) (field : Field) : List String :=
  (Text.lines text).filterMap (valueIn? field)

open Node.convert (convertAll)

theorem entryOf?_ofLine (text : String) (number : Nat) :
    entryOf? (Node.ofLine ":" text number) = Node.cutEntry? ":" text := by
  rw [Node.ofLine]
  cases Node.cutEntry? ":" text with
  | none => rfl
  | some sides => rfl

theorem entryOf?_nested (levels : Int) (key : String) (line : Nat) (nodes : List Node) :
    entryOf? ((Node.nested key line nodes).convert ":" levels) = none := by
  rw [Node.convert]
  split <;> rfl

/-- The entries at the top of a tree are those among the lines with the least indentation: no line
inside a section has it. -/
theorem entries_trees (levels : Int) (level : Nat) (lines : List Line) :
    ∀ nodes, Line.trees level lines = .ok nodes →
      (convertAll ":" levels nodes).filterMap entryOf? = lines.filterMap (entryAt? level) := by
  fun_induction Line.trees level lines with
  | case1 =>
    intro nodes built
    cases built
    rfl
  | case2 =>
    intro nodes built
    cases built
  | case3 level line others same plain ih =>
    intro nodes built
    obtain ⟨rest, read, rfl⟩ := eq_ok_of_map built
    have own : entryAt? level line = Node.cutEntry? ":" line.text :=
      if_pos ⟨not_not.mp same, plain⟩
    rw [convertAll, List.filterMap_cons, List.filterMap_cons, ih rest read, own, Node.convert,
      entryOf?_ofLine]
  | case4 =>
    intro nodes built
    cases built
  | case5 level line others same key header body below made ihBelow ihOthers =>
    intro nodes built
    obtain ⟨rest, read, rfl⟩ := eq_ok_of_map built
    have own : entryAt? level line = none := if_neg fun both => by
      rw [header] at both
      cases both.2
    have inside : body.filterMap (entryAt? level) = [] := by
      rw [List.filterMap_eq_nil_iff]
      intro deep member
      have deeper : level < deep.indent := by simpa using List.mem_takeWhile_imp member
      exact if_neg fun both => absurd both.1 deeper.ne'
    have skipped : others.filterMap (entryAt? level) =
        (others.dropWhile (level < ·.indent)).filterMap (entryAt? level) := by
      conv_lhs => rw [← List.takeWhile_append_dropWhile (p := (level < ·.indent)) (l := others)]
      rw [List.filterMap_append, inside, List.nil_append]
    rw [convertAll, List.filterMap_cons, List.filterMap_cons, ihOthers rest read, own,
      entryOf?_nested, skipped]

theorem entryIn?_of_blank {raw : List Char} (blank : Line.content raw = []) :
    entryIn? raw = none := by
  rw [entryIn?, entryAt?, WrittenLine.toLine, WrittenLine.ofRaw, blank]
  split <;> rfl

/-- The entries among the significant lines of a text are those among all its lines. -/
theorem entries_significant (text : String) :
    (Line.significant text).filterMap (entryAt? 0) = (Text.lines text).filterMap entryIn? := by
  have all : ∀ (raws : List (List Char)) (number : Nat),
      ((WrittenLine.allFrom number raws).map WrittenLine.toLine).filterMap (entryAt? 0) =
        raws.filterMap entryIn? := by
    intro raws
    induction raws with
    | nil => intro number; rfl
    | cons raw others ih =>
      intro number
      by_cases blank : Line.content raw = []
      · have skipped : WrittenLine.allFrom number (raw :: others) =
            WrittenLine.allFrom (number + 1) others := by
          simp [WrittenLine.allFrom, blank]
        rw [skipped, ih, List.filterMap_cons, entryIn?_of_blank blank]
      · have first : WrittenLine.allFrom number (raw :: others) =
            WrittenLine.ofRaw raw number :: WrittenLine.allFrom (number + 1) others := by
          simp [WrittenLine.allFrom, blank]
        rw [first, List.map_cons, List.filterMap_cons, List.filterMap_cons, ih]
        rfl
  exact all (Text.lines text) 1

/-- The values that the nodes of a file give for a setting are those that its lines give. -/
theorem valuesOf_parse {name text : String} {tree : Section}
    (parsed : Section.parse name text = .ok tree) (field : Field) :
    valuesOf (tree.convertToEntries (-1) ":").nodes field = valuesIn text field := by
  have read := Line.read_spec text
  unfold Section.parse at parsed
  cases lines : Line.read text with
  | error problem =>
    rw [lines] at parsed
    cases parsed
  | ok found =>
    rw [lines] at parsed read
    obtain ⟨nodes, built, rfl⟩ := eq_ok_of_map parsed
    rw [read.1] at built
    have entries : (convertAll ":" (-1) nodes).filterMap entryOf? =
        (Text.lines text).filterMap entryIn? :=
      (entries_trees (-1) 0 _ nodes built).trans (entries_significant text)
    rw [valuesOf, Section.convertToEntries, entries, List.filterMap_filterMap]
    rfl

/-! ## Flat texts -/

/-- Lines that are not indented are trees. -/
theorem exists_trees_of_flat {lines : List Line} (flat : ∀ line ∈ lines, line.indent = 0) :
    ∃ nodes, Line.trees 0 lines = .ok nodes := by
  induction lines with
  | nil => exact ⟨[], by rw [Line.trees]⟩
  | cons line others ih =>
    obtain ⟨own, later⟩ := List.forall_mem_cons.mp flat
    obtain ⟨nodes, built⟩ := ih later
    have none : others.takeWhile (0 < ·.indent) = [] := by
      cases others with
      | nil => rfl
      | cons next rest =>
        have shallow : ¬ 0 < next.indent := by rw [later next List.mem_cons_self]; decide
        exact List.takeWhile_cons_of_neg (by simpa using shallow)
    have all : others.dropWhile (0 < ·.indent) = others := by
      simpa [none] using List.takeWhile_append_dropWhile (p := (0 < ·.indent)) (l := others)
    rw [Line.trees, if_neg (not_not.mpr own)]
    cases line.header? with
    | none => exact ⟨_, by rw [built]; rfl⟩
    | some key =>
      dsimp only
      rw [none, all, built, Line.trees]
      exact ⟨_, rfl⟩

/-- A text without indented lines is a tree. -/
theorem exists_tree_of_flat (name : String) {text : String}
    (flat : ∀ raw ∈ Text.lines text, Line.margin raw = []) :
    ∃ tree, Section.parse name text = .ok tree := by
  have margins : ∀ line ∈ WrittenLine.all text, line.margin = [] := by
    intro line member
    simp only [WrittenLine.all, WrittenLine.allFrom, List.mem_map, List.mem_filter] at member
    obtain ⟨⟨raw, number⟩, ⟨there, -⟩, rfl⟩ := member
    exact flat raw (List.fst_mem_of_mem_zipIdx there)
  have uniform : WrittenLine.Uniform (WrittenLine.all text) := by
    refine ⟨?_, ?_⟩
    · intro line member mixed
      rw [WrittenLine.Mixed, margins line member] at mixed
      exact absurd mixed.1 List.not_mem_nil
    · intro line member other _ c inside
      rw [margins line member] at inside
      exact absurd inside List.not_mem_nil
  have read := Line.read_spec text
  rw [Section.parse]
  cases lines : Line.read text with
  | error problem =>
    rw [lines] at read
    exact absurd uniform read.not_uniform
  | ok found =>
    rw [lines] at read
    obtain ⟨nodes, built⟩ : ∃ nodes, Line.trees 0 found = .ok nodes := by
      apply exists_trees_of_flat
      intro line member
      rw [read.1, Line.significant] at member
      obtain ⟨written, there, rfl⟩ := List.mem_map.mp member
      rw [WrittenLine.toLine, margins written there, List.length_nil]
    exact ⟨⟨name, 0, nodes⟩, by dsimp only; rw [built]; rfl⟩

/-! ## Edits -/

/-- A change of the lines of a file that says the same about every setting. -/
inductive Edit : List (List Char) → List (List Char) → Prop
  /-- Two lines change places, of which not both are entries for one setting. -/
  | swap (before : List (List Char)) (first second : List Char) (behind : List (List Char))
      (apart : ∀ field, valueIn? field first = none ∨ valueIn? field second = none) :
      Edit (before ++ first :: second :: behind) (before ++ second :: first :: behind)
  /-- A line is put in that is no entry for any setting. -/
  | insert (before : List (List Char)) (line : List Char) (behind : List (List Char))
      (idle : ∀ field, valueIn? field line = none) :
      Edit (before ++ behind) (before ++ line :: behind)

theorem Edit.values {lines others : List (List Char)} (edit : Edit lines others)
    (field : Field) : lines.filterMap (valueIn? field) = others.filterMap (valueIn? field) := by
  cases edit with
  | swap before first second behind apart =>
    rw [List.filterMap_append, List.filterMap_append, List.filterMap_cons, List.filterMap_cons,
      List.filterMap_cons, List.filterMap_cons]
    cases apart field with
    | inl none => rw [none]
    | inr none => rw [none]
  | insert before line behind idle =>
    rw [List.filterMap_append, List.filterMap_append, List.filterMap_cons, idle field]

/-- Texts whose lines are edited give the same values for every setting. -/
theorem valuesIn_of_edits {text other : String}
    (edits : Relation.ReflTransGen Edit (Text.lines text) (Text.lines other)) (field : Field) :
    valuesIn text field = valuesIn other field := by
  have same : ∀ lines, Relation.ReflTransGen Edit (Text.lines text) lines →
      valuesIn text field = lines.filterMap (valueIn? field) := by
    intro lines edited
    induction edited with
    | refl => rfl
    | tail _ edit ih => rw [ih, edit.values field]
  exact same _ edits

/-! ## Settings -/

/-- The settings that a text which is a tree gives, one by one. -/
theorem parse_get {name text : String} {tree : Section}
    (parsed : Section.parse name text = .ok tree) :
    ∃ config, (parse name text).1 = .ok config ∧ ∀ field,
      config.get field = (valuesIn text field).foldl field.next field.default := by
  refine ⟨_, by rw [parse, parsed], fun field => ?_⟩
  rw [get_applyAll, valuesOf_parse parsed]
  rfl

/-- What the last text stands for is what the last one stands for that can be read, exactly if it can
be read itself or the default is left. -/
theorem Field.lastReadable_eq_last_iff (field : Field) (texts : List String) :
    field.lastReadable texts = field.last texts ↔
      ∀ text ∈ texts.getLast?, field.read? text = none → field.lastReadable texts = field.default := by
  cases texts using List.reverseRecOn with
  | nil => exact ⟨fun _ _ none => absurd none (Option.not_mem_none _), fun _ => rfl⟩
  | append_singleton earlier text =>
    rw [List.getLast?_concat, last, List.getLast?_concat, Option.bind_some]
    cases found : field.read? text with
    | none =>
      refine ⟨fun same _ _ _ => same, fun given => given text rfl found⟩
    | some value =>
      have own : field.lastReadable (earlier ++ [text]) = value := by
        simp [lastReadable, found]
      refine ⟨fun _ other isLast unreadable => ?_, fun _ => own⟩
      rw [← Option.some.inj isLast, found] at unreadable
      cases unreadable

/-- **Settings by their last entries.** A text that is a tree gives settings. Each of them but the
priority has the value that its last entry stands for, or its default when there is none or it
cannot be read; the priority has the value of the last entry for it that can be read. So all of them
are what their last entries say exactly if the last entry for the priority can be read, or those for
it that can be read leave the default. Another text, which is a tree as it always is without
indented lines, gives the same settings when its lines come from those of the first one by moving
lines past others that are not for the same setting, and by putting in lines that are for none. -/
theorem parse_settles {name text : String} {tree : Section}
    (parsed : Section.parse name text = .ok tree) :
    ∃ config, (parse name text).1 = .ok config ∧
      (∀ field, field ≠ .defaultPriority → config.get field = field.last (valuesIn text field)) ∧
      config.get .defaultPriority =
        Field.lastReadable .defaultPriority (valuesIn text .defaultPriority) ∧
      ((∀ field, config.get field = field.last (valuesIn text field)) ↔
        ∀ last ∈ (valuesIn text .defaultPriority).getLast?,
          Field.read? .defaultPriority last = none →
            Field.lastReadable .defaultPriority (valuesIn text .defaultPriority) =
              Field.default .defaultPriority) ∧
      ∀ otherName other, Relation.ReflTransGen Edit (Text.lines text) (Text.lines other) →
        (∃ otherTree, Section.parse otherName other = .ok otherTree) ∨
          (∀ raw ∈ Text.lines other, Line.margin raw = []) →
        (parse otherName other).1 = .ok config := by
  obtain ⟨config, read, values⟩ := parse_get parsed
  have uniform : ∀ field, field ≠ .defaultPriority →
      config.get field = field.last (valuesIn text field) := by
    intro field differs
    rw [values field, Field.foldl_next_of_ne differs]
  have priority : config.get .defaultPriority =
      Field.lastReadable .defaultPriority (valuesIn text .defaultPriority) := by
    rw [values .defaultPriority, Field.foldl_next_priority]
  refine ⟨config, read, uniform, priority, ?_, ?_⟩
  · rw [← Field.lastReadable_eq_last_iff, ← priority]
    constructor
    · intro all
      exact all .defaultPriority
    · intro own field
      by_cases same : field = .defaultPriority
      · subst same
        exact own
      · exact uniform field same
  · intro otherName other edits isTree
    obtain ⟨otherTree, otherParsed⟩ : ∃ otherTree, Section.parse otherName other = .ok otherTree :=
      isTree.elim id (exists_tree_of_flat otherName)
    obtain ⟨otherConfig, otherRead, otherValues⟩ := parse_get otherParsed
    have same : otherConfig = config := by
      apply ext_get
      intro field
      rw [otherValues field, values field, valuesIn_of_edits edits field]
    rw [otherRead, same]

/-- A file with two entries for the depth of calls, the last of which is no number. -/
def wrongDepth : String :=
  "max function call depth: 9\nmax function call depth: deep"

theorem wrongDepth_settles : ∃ tree, Section.parse "config.sk" wrongDepth = .ok tree ∧
    ∃ config, (parse "config.sk" wrongDepth).1 = .ok config ∧
      config.get .maxCallDepth = Field.last .maxCallDepth (valuesIn wrongDepth .maxCallDepth) := by
  obtain ⟨tree, parsed⟩ : ∃ tree, Section.parse "config.sk" wrongDepth = .ok tree :=
    exists_tree_of_flat "config.sk" (by decide +kernel)
  obtain ⟨config, read, uniform, -⟩ := parse_settles parsed
  exact ⟨tree, parsed, config, read, uniform .maxCallDepth (by decide)⟩

/-- A file with two entries for the priority, the last of which is no priority. -/
def wrongPriority : String :=
  "default event priority: high\ndefault event priority: soon"

/-- The last entry cannot be read, and the priority is not the default. -/
theorem wrongPriority_keeps_high : ∃ config, (parse "config.sk" wrongPriority).1 = .ok config ∧
    config.get .defaultPriority = EventPriority.high ∧
    Field.last .defaultPriority (valuesIn wrongPriority .defaultPriority) =
      EventPriority.normal := by
  obtain ⟨tree, parsed⟩ : ∃ tree, Section.parse "config.sk" wrongPriority = .ok tree :=
    exists_tree_of_flat "config.sk" (by decide +kernel)
  have given : valuesIn wrongPriority .defaultPriority = ["high", "soon"] := by
    decide +kernel
  have high : Field.read? .defaultPriority "high" = some EventPriority.high := by
    change EventPriority.read? "high" = _
    decide +kernel
  have soon : Field.read? .defaultPriority "soon" = none := by
    change EventPriority.read? "soon" = none
    decide +kernel
  obtain ⟨config, read, values⟩ := parse_get parsed
  refine ⟨config, read, ?_, ?_⟩
  · rw [values, given, List.foldl_cons, List.foldl_cons, List.foldl_nil, Field.next, soon,
      Field.next, high]
    rfl
  · rw [given, Field.last, List.getLast?_cons_cons, List.getLast?_singleton, Option.bind_some, soon]
    rfl

end ScriptBinding.Config

import Mathlib.Data.List.Infix
import ScriptBinding.Proofs.HeaderPriorities
import ScriptBinding.Proofs.PathOrder
import ScriptBinding.Session

/-! # Scans of folders

A folder is scanned for the files below it that have the extension of scripts, leaving out files and
folders whose names start with the lead of what is disabled. What can be read of them is listed in
the order of the paths, every file once.
-/

namespace ScriptBinding

/-! ## Names of scripts -/

namespace Text

/-- A cut at the last occurrence of a character has none of it behind. -/
theorem cutLast?_eq_some_iff {mark : Char} {chars before after : List Char} :
    cutLast? [mark] chars = some (before, after) ↔
      chars = before ++ mark :: after ∧ mark ∉ after := by
  induction chars generalizing before with
  | nil => simp [cutLast?, afterLead?]
  | cons c tail ih =>
    constructor
    · intro found
      refine ⟨eq_of_cutLast? found, ?_⟩
      rw [cutLast?] at found
      split at found
      · next sides later =>
        cases found
        exact (ih.mp later).2
      · next absent =>
        obtain ⟨rest, lead, same⟩ := Option.map_eq_some_iff.mp found
        cases same
        obtain ⟨-, rfl⟩ := List.cons.inj (afterLead?_eq_some.mp lead)
        intro member
        exact cutLast?_eq_none_iff.mp absent ((List.singleton_infix_iff mark tail).mpr member)
    · rintro ⟨whole, last⟩
      cases before with
      | nil =>
        obtain ⟨rfl, rfl⟩ := List.cons.inj whole
        have absent : cutLast? [c] tail = none := by
          rw [cutLast?_eq_none_iff, List.singleton_infix_iff]
          exact last
        simp [cutLast?, absent, afterLead?]
      | cons d before =>
        obtain ⟨rfl, others⟩ := List.cons.inj whole
        rw [cutLast?, ih.mpr ⟨others, last⟩]

end Text

namespace Config

/-- The name has the extension of scripts, whatever its case, and something before it. -/
def IsScriptName (config : Config) (name : String) : Prop :=
  ∃ stem extension : List Char, stem ≠ [] ∧ name.toList = stem ++ '.' :: extension ∧
    '.' ∉ extension ∧
      Text.equalIgnoringAsciiCase (String.ofList extension) config.scriptExtension = true

/-- The name starts with the lead of what is disabled, if there is one. -/
def LeavesOut (config : Config) (name : String) : Prop :=
  config.disabledLead ≠ "" ∧ config.disabledLead.toList <+: name.toList

theorem disables_iff {config : Config} {name : String} :
    config.disables name = true ↔ config.LeavesOut name := by
  rw [disables, LeavesOut, Bool.and_eq_true, bne_iff_ne, Text.startsWith, Option.isSome_iff_exists]
  refine and_congr_right fun _ => exists_congr fun rest => ?_
  rw [Text.afterLead?_eq_some, eq_comm]

theorem disables_eq_false_iff {config : Config} {name : String} :
    config.disables name = false ↔ ¬ config.LeavesOut name := by
  rw [← disables_iff, Bool.not_eq_true]

/-- Whether an entry of a folder is a script is seen from its name. -/
theorem isScriptFile_join {config : Config} (folder : Path) {name : String}
    (isName : Path.IsName name) : config.isScriptFile (folder.join ⟨name⟩) = true ↔
      config.IsScriptName name ∧ ¬ config.LeavesOut name := by
  rw [isScriptFile, Path.extension?, Path.fileName?_join folder isName, Option.bind_some,
    ← disables_eq_false_iff]
  constructor
  · intro isScript
    split at isScript
    · next named found =>
      cases named
      rw [Bool.and_eq_true, Bool.not_eq_true'] at isScript
      refine ⟨?_, isScript.2⟩
      split at found
      · next first stem extension cut =>
        cases found
        obtain ⟨whole, last⟩ := Text.cutLast?_eq_some_iff.mp cut
        exact ⟨first :: stem, extension, List.cons_ne_nil _ _, whole, last, isScript.1⟩
      · exact absurd found (by simp)
    · exact absurd isScript Bool.false_ne_true
  · intro ⟨⟨stem, extension, notEmpty, whole, last, same⟩, enabled⟩
    obtain ⟨first, stem, rfl⟩ := List.exists_cons_of_ne_nil notEmpty
    simp [Text.cutLast?_eq_some_iff.mpr ⟨whole, last⟩, same, enabled]

end Config

/-! ## What a folder holds -/

namespace FileTree

/-- The entries of every folder in the tree have names, and no two of them the same one. -/
def Sound : FileTree → Prop
  | file _ => True
  | folder entries => SoundAll entries
where
  /-- The entries are those of a folder in such a tree. -/
  SoundAll : List (String × FileTree) → Prop
    | [] => True
    | (name, entry) :: others =>
      Path.IsName name ∧ name ∉ others.map Prod.fst ∧ Sound entry ∧ SoundAll others

/-- A file with the given content stands at the end of the names, one below the other. -/
inductive Holds : FileTree → List String → Option String → Prop
  | here (text : Option String) : Holds (.file text) [] text
  | inside {entries : List (String × FileTree)} {name : String} {entry : FileTree}
      {names : List String} {text : Option String} (isEntry : (name, entry) ∈ entries)
      (holds : Holds entry names text) : Holds (.folder entries) (name :: names) text

theorem sound_of_mem {entries : List (String × FileTree)} (sound : Sound.SoundAll entries)
    {name : String} {entry : FileTree} (isEntry : (name, entry) ∈ entries) :
    Path.IsName name ∧ entry.Sound := by
  induction entries with
  | nil => exact absurd isEntry List.not_mem_nil
  | cons first others ih =>
    obtain ⟨isName, -, soundFirst, soundOthers⟩ := sound
    rcases List.mem_cons.mp isEntry with rfl | later
    · exact ⟨isName, soundFirst⟩
    · exact ih soundOthers later

theorem Holds.areNames {tree : FileTree} {names : List String} {text : Option String}
    (holds : tree.Holds names text) (sound : tree.Sound) : ∀ name ∈ names, Path.IsName name := by
  induction holds with
  | here => exact fun _ member => absurd member List.not_mem_nil
  | inside isEntry _ ih =>
    have entry := sound_of_mem sound isEntry
    exact List.forall_mem_cons.mpr ⟨entry.1, ih entry.2⟩

theorem lookup_eq_some_iff {entries : List (String × FileTree)} (sound : Sound.SoundAll entries)
    {name : String} {entry : FileTree} :
    entries.lookup name = some entry ↔ (name, entry) ∈ entries := by
  induction entries with
  | nil => simp
  | cons first others ih =>
    obtain ⟨known, inner⟩ := first
    obtain ⟨-, fresh, -, soundOthers⟩ := sound
    by_cases same : name = known
    · subst same
      have absent : (name, entry) ∉ others := fun later => fresh (List.mem_map_of_mem later)
      simp [absent, eq_comm]
    · rw [List.lookup_cons, beq_false_of_ne same, ih soundOthers]
      simp [same]

/-- What a tree holds at the end of some names is what they lead to when they are followed. -/
theorem holds_iff_follow {tree : FileTree} (sound : tree.Sound) (around : List FileTree)
    {names : List String} {text : Option String} : tree.Holds names text ↔
      (∀ name ∈ names, Path.IsName name) ∧ tree.follow around names = some (.file text) := by
  induction names generalizing tree around with
  | nil =>
    constructor
    · intro holds
      cases holds
      exact ⟨fun _ member => absurd member List.not_mem_nil, rfl⟩
    · intro ⟨_, found⟩
      cases found
      exact .here text
  | cons name names ih =>
    rw [List.forall_mem_cons]
    constructor
    · intro holds
      cases holds with
      | @inside entries _ entry _ _ isEntry holds =>
        obtain ⟨isName, soundEntry⟩ := sound_of_mem sound isEntry
        obtain ⟨areNames, found⟩ := (ih soundEntry (folder entries :: around)).mp holds
        refine ⟨⟨isName, areNames⟩, ?_⟩
        simp [follow, isFolder, entry?, isName.notEmpty, isName.notHere, isName.notUp,
          (lookup_eq_some_iff sound).mpr isEntry, found]
    · intro ⟨⟨isName, areNames⟩, found⟩
      cases tree with
      | file text => exact nomatch found
      | folder entries =>
        simp only [follow, isFolder, entry?, isName.notEmpty, isName.notHere, isName.notUp,
          Bool.not_true, Bool.or_self, Bool.false_eq_true, decide_false, ↓reduceIte] at found
        split at found
        · exact nomatch found
        · next inner isEntry =>
          have member := (lookup_eq_some_iff sound).mp isEntry
          exact .inside member ((ih (sound_of_mem sound member).2 _).mpr ⟨areNames, found⟩)

theorem holds_cons {name : String} {entry : FileTree} {others : List (String × FileTree)}
    {names : List String} {text : Option String} :
    (folder ((name, entry) :: others)).Holds names text ↔
      (∃ inner, entry.Holds inner text ∧ names = name :: inner) ∨
        (folder others).Holds names text := by
  constructor
  · intro holds
    cases holds with
    | inside isEntry holds =>
      rcases List.mem_cons.mp isEntry with first | later
      · cases first
        exact .inl ⟨_, holds, rfl⟩
      · exact .inr (.inside later holds)
  · rintro (⟨inner, holds, rfl⟩ | holds)
    · exact .inside List.mem_cons_self holds
    · cases holds with
      | inside isEntry holds => exact .inside (List.mem_cons_of_mem _ isEntry) holds

/-- The file is a script that the names lead to, and no folder on the way is left out. -/
structure Reaches (config : Config) (path : Path) (names : List String) (file : Path) : Prop where
  isBelow : file = path.below names
  isScript : config.isScriptFile file = true
  enabled : ∀ folder ∈ names.dropLast, config.disables folder = false

theorem reaches_cons {config : Config} {path file : Path} {name : String} {entry : FileTree}
    {names : List String} {text : Option String} (holds : entry.Holds names text) :
    Reaches config path (name :: names) file ↔
      (entry.isFolder && config.disables name) = false ∧
        Reaches config (path.join ⟨name⟩) names file := by
  have passed : (∀ folder ∈ (name :: names).dropLast, config.disables folder = false) ↔
      (entry.isFolder && config.disables name) = false ∧
        ∀ folder ∈ names.dropLast, config.disables folder = false := by
    cases holds with
    | here text => simp [isFolder]
    | inside isEntry holds => simp [isFolder]
  constructor
  · intro reaches
    obtain ⟨opened, enabled⟩ := passed.mp reaches.enabled
    exact ⟨opened, reaches.isBelow, reaches.isScript, enabled⟩
  · intro ⟨opened, reaches⟩
    exact ⟨reaches.isBelow, reaches.isScript, passed.mpr ⟨opened, reaches.enabled⟩⟩

mutual

/-- The scripts of a tree are the files that can be reached. -/
theorem mem_scripts {config : Config} {path : Path} {file : Path × Option String}
    (tree : FileTree) : file ∈ tree.scripts config path ↔
      ∃ names, tree.Holds names file.2 ∧ Reaches config path names file.1 := by
  cases tree with
  | file text =>
    rw [scripts]
    constructor
    · intro member
      split at member
      · next isScript =>
        cases List.mem_singleton.mp member
        exact ⟨[], .here text, rfl, isScript, fun _ inside => absurd inside List.not_mem_nil⟩
      · exact absurd member List.not_mem_nil
    · intro ⟨names, holds, reaches⟩
      obtain ⟨reached, content⟩ := file
      cases holds
      cases reaches.isBelow
      rw [if_pos reaches.isScript]
      exact List.mem_singleton_self _
  | folder entries => rw [scripts, mem_scriptsOf]

theorem mem_scriptsOf {config : Config} {path : Path} {file : Path × Option String}
    (entries : List (String × FileTree)) : file ∈ scripts.scriptsOf config path entries ↔
      ∃ names, (folder entries).Holds names file.2 ∧ Reaches config path names file.1 := by
  cases entries with
  | nil =>
    refine iff_of_false List.not_mem_nil ?_
    intro ⟨names, holds, reaches⟩
    cases holds with
    | inside isEntry => exact absurd isEntry List.not_mem_nil
  | cons first others =>
    obtain ⟨name, entry⟩ := first
    have inEntry : (file ∈ if entry.isFolder && config.disables name then []
        else scripts config (path.join ⟨name⟩) entry) ↔
        ∃ inner, entry.Holds inner file.2 ∧ Reaches config path (name :: inner) file.1 := by
      cases closed : entry.isFolder && config.disables name with
      | true =>
        refine iff_of_false List.not_mem_nil ?_
        intro ⟨inner, holds, reaches⟩
        exact absurd ((reaches_cons holds).mp reaches).1 (by simp [closed])
      | false =>
        rw [if_neg Bool.false_ne_true, mem_scripts entry]
        refine exists_congr fun inner => and_congr_right fun holds => ?_
        rw [reaches_cons holds, closed, eq_self_iff_true, true_and]
    rw [scripts.scriptsOf, List.mem_append, inEntry, mem_scriptsOf others]
    simp only [holds_cons, or_and_right, exists_or]
    refine or_congr_left ⟨?_, ?_⟩
    · intro ⟨inner, holds, reaches⟩
      exact ⟨name :: inner, ⟨inner, holds, rfl⟩, reaches⟩
    · rintro ⟨names, ⟨inner, holds, rfl⟩, reaches⟩
      exact ⟨inner, holds, reaches⟩

end

theorem components_of_holds {tree : FileTree} {names : List String} {text : Option String}
    (holds : tree.Holds names text) (sound : tree.Sound) (path : Path) :
    (path.below names).components = path.components ++ names.map .name :=
  Path.components_below path (holds.areNames sound)

mutual

/-- No two scripts of a tree have the same components. -/
theorem scripts_distinct {config : Config} {path : Path} (tree : FileTree) (sound : tree.Sound) :
    (tree.scripts config path).Pairwise fun a b => a.1.components ≠ b.1.components := by
  cases tree with
  | file text =>
    rw [scripts]
    split
    · exact List.pairwise_singleton _ _
    · exact .nil
  | folder entries => exact scriptsOf_distinct entries sound

theorem scriptsOf_distinct {config : Config} {path : Path} (entries : List (String × FileTree))
    (sound : Sound.SoundAll entries) :
    (scripts.scriptsOf config path entries).Pairwise
      fun a b => a.1.components ≠ b.1.components := by
  cases entries with
  | nil => exact .nil
  | cons first others =>
    obtain ⟨name, entry⟩ := first
    obtain ⟨isName, fresh, soundEntry, soundOthers⟩ := sound
    rw [scripts.scriptsOf, List.pairwise_append]
    refine ⟨?_, scriptsOf_distinct others soundOthers, ?_⟩
    · split
      · exact .nil
      · exact scripts_distinct entry soundEntry
    · intro a inEntry b inOthers same
      split at inEntry
      · exact absurd inEntry List.not_mem_nil
      · obtain ⟨inner, holds, reaches⟩ := (mem_scripts entry).mp inEntry
        obtain ⟨names, elsewhere, reached⟩ := (mem_scriptsOf others).mp inOthers
        rw [reaches.isBelow, reached.isBelow, components_of_holds holds soundEntry,
          components_of_holds elsewhere soundOthers, Path.components_join path isName,
          List.append_assoc] at same
        cases elsewhere with
        | inside isEntry _ =>
          have first := (List.cons.inj (List.append_cancel_left same)).1
          cases first
          exact fresh (List.mem_map_of_mem isEntry)

end

/-- Files with different components are sorted so that each path precedes those behind it. -/
theorem mergeSort_precedes {files : List (Path × Option String)}
    (distinct : files.Pairwise fun a b => a.1.components ≠ b.1.components) :
    (files.mergeSort fun a b => !b.1.precedes a.1).Pairwise
      fun a b => a.1.precedes b.1 = true := by
  have trans (a b c : Path × Option String) (first : (!b.1.precedes a.1) = true)
      (second : (!c.1.precedes b.1) = true) : (!c.1.precedes a.1) = true := by
    rw [Bool.not_eq_true'] at *
    by_contra before
    rcases Path.precedes_or_precedes (b := b.1) (Bool.not_eq_false _ ▸ before) with h | h
    · exact Bool.false_ne_true (second.symm.trans h)
    · exact Bool.false_ne_true (first.symm.trans h)
  have total (a b : Path × Option String) :
      (!b.1.precedes a.1 || !a.1.precedes b.1) = true := by
    cases before : b.1.precedes a.1 with
    | false => rfl
    | true => rw [Path.not_precedes_of_precedes before]; rfl
  have sorted := List.pairwise_mergeSort trans total files
  have apart := (List.mergeSort_perm files fun a b => !b.1.precedes a.1).symm.pairwise distinct
    fun differ => Ne.symm differ
  refine (sorted.and apart).imp ?_
  intro a b ⟨notBehind, differ⟩
  exact Path.precedes_of_not_precedes differ (by simpa using notBehind)

/-- The scripts of a folder are the files below it with the name of a script. -/
theorem mem_scripts_folder {config : Config} {path : Path} {file : Path × Option String}
    {entries : List (String × FileTree)} (sound : (folder entries).Sound) :
    file ∈ (folder entries).scripts config path ↔
      ∃ folders name, (folder entries).Holds (folders ++ [name]) file.2 ∧
        config.IsScriptName name ∧ ¬ config.LeavesOut name ∧
        (∀ folder ∈ folders, ¬ config.LeavesOut folder) ∧
        file.1 = path.below (folders ++ [name]) := by
  have named {folders : List String} {name : String}
      (holds : (folder entries).Holds (folders ++ [name]) file.2) :
      config.isScriptFile (path.below (folders ++ [name])) = true ↔
        config.IsScriptName name ∧ ¬ config.LeavesOut name := by
    rw [Path.below, List.foldl_append]
    exact Config.isScriptFile_join _ (holds.areNames sound name (by simp))
  rw [mem_scripts]
  constructor
  · rintro ⟨names, holds, reaches⟩
    have notEmpty : names ≠ [] := by
      cases holds
      exact List.cons_ne_nil _ _
    have isScript := reaches.isScript
    have isBelow := reaches.isBelow
    rw [← List.dropLast_append_getLast notEmpty] at holds isBelow
    rw [isBelow, named holds] at isScript
    refine ⟨_, _, holds, isScript.1, isScript.2, ?_, isBelow⟩
    intro folder member
    exact Config.disables_eq_false_iff.mp (reaches.enabled folder member)
  · rintro ⟨folders, name, holds, isScript, notLeft, opened, isBelow⟩
    refine ⟨folders ++ [name], holds, isBelow, ?_, ?_⟩
    · rw [isBelow]
      exact (named holds).mpr ⟨isScript, notLeft⟩
    · rw [List.dropLast_concat]
      exact fun folder member => Config.disables_eq_false_iff.mpr (opened folder member)

end FileTree

namespace Session

theorem toOption_readSource {path : Path} {text : Option String} {source : ScriptSource} :
    (readSource path text).1.toOption = some source ↔
      ∃ content, text = some content ∧ path = source.path ∧
        Section.parse path.raw content = .ok source.tree := by
  cases text with
  | none => simp [readSource, FileTree.readText, Except.toOption]
  | some content =>
    simp only [readSource, FileTree.readText, ScriptSource.ofText, Option.some.injEq,
      exists_eq_left']
    constructor
    · intro read
      split at read
      · next tree parsed =>
        cases read
        exact ⟨rfl, parsed⟩
      · exact nomatch read
    · rintro ⟨rfl, parsed⟩
      rw [parsed]
      rfl

/-- Whether a file is among the sources depends on the file alone. -/
theorem readSources_eq (files : List (Path × Option String)) : (readSources files).1 =
    files.filterMap fun file => (readSource file.1 file.2).1.toOption := by
  induction files with
  | nil => rfl
  | cons file others ih =>
    cases read : readSource file.1 file.2 with
    | mk result warnings =>
      cases result with
      | ok source => simp [readSources, read, ih, Except.toOption]
      | error problem => simp [readSources, read, ih, Except.toOption]

theorem mem_readSources {files : List (Path × Option String)} {source : ScriptSource} :
    source ∈ (readSources files).1 ↔ ∃ text, (source.path, some text) ∈ files ∧
      Section.parse source.path.raw text = .ok source.tree := by
  rw [readSources_eq, List.mem_filterMap]
  constructor
  · intro ⟨⟨path, text⟩, member, read⟩
    obtain ⟨content, rfl, rfl, parsed⟩ := toOption_readSource.mp read
    exact ⟨content, member, parsed⟩
  · intro ⟨text, member, parsed⟩
    exact ⟨_, member, toOption_readSource.mpr ⟨text, rfl, rfl, parsed⟩⟩

/-- Scanning a folder gives its scripts that can be read, in the order of their paths. What is no
folder cannot be scanned. -/
theorem collectSources_exact (config : Config) (path : Path) (tree : Option FileTree)
    (sound : ∀ found ∈ tree, found.Sound) :
    match tree with
    | some (.folder entries) => ∃ sources log,
      collectSources config path tree = .ok (sources, log) ∧
        sources.Pairwise (fun a b => a.path.precedes b.path = true) ∧
        ∀ source, source ∈ sources ↔ ∃ folders name text,
          (FileTree.folder entries).Holds (folders ++ [name]) (some text) ∧
          config.IsScriptName name ∧ ¬ config.LeavesOut name ∧
          (∀ folder ∈ folders, ¬ config.LeavesOut folder) ∧
          source.path = path.below (folders ++ [name]) ∧
          Section.parse source.path.raw text = .ok source.tree
    | _ => collectSources config path tree = .error (.notFound s!"Scripts folder {path.raw}") := by
  cases tree with
  | none => rfl
  | some tree =>
    cases tree with
    | file text => rfl
    | folder entries =>
      have sound := sound _ rfl
      refine ⟨_, _, rfl, ?_, ?_⟩
      · rw [readSources_eq, List.pairwise_filterMap]
        refine (FileTree.mergeSort_precedes (FileTree.scripts_distinct _ sound)).imp ?_
        intro a b before source read later readLater
        obtain ⟨_, _, at_, _⟩ := toOption_readSource.mp read
        obtain ⟨_, _, laterAt, _⟩ := toOption_readSource.mp readLater
        rwa [← at_, ← laterAt]
      · intro source
        rw [mem_readSources]
        simp only [List.mem_mergeSort, FileTree.mem_scripts_folder sound]
        constructor
        · intro ⟨text, ⟨folders, name, holds, isScript, notLeft, opened, isBelow⟩, parsed⟩
          exact ⟨folders, name, text, holds, isScript, notLeft, opened, isBelow, parsed⟩
        · intro ⟨folders, name, text, holds, isScript, notLeft, opened, isBelow, parsed⟩
          exact ⟨text, ⟨folders, name, holds, isScript, notLeft, opened, isBelow⟩, parsed⟩

/-- A folder with a script in a folder of its own, a folder that is disabled, a file without a stem
and one that is not text. -/
def sampleFolder : FileTree :=
  .folder [("sub", .folder [("b.SK", .file (some "")), (".sk", .file (some ""))]),
    ("-off", .folder [("c.sk", .file (some ""))]), ("raw.sk", .file none)]

theorem sampleFolder_scanned : sampleFolder.Sound ∧
    ∃ sources log, collectSources {} ⟨"scripts"⟩ (some sampleFolder) = .ok (sources, log) ∧
      sources.Pairwise (fun a b => a.path.precedes b.path = true) ∧
      ⟨⟨"scripts/sub/b.SK"⟩, ⟨"scripts/sub/b.SK", 0, []⟩⟩ ∈ sources := by
  have sound : sampleFolder.Sound :=
    ⟨by decide, by decide, ⟨by decide, by decide, trivial, by decide, by decide, trivial, trivial⟩,
      by decide, by decide, ⟨by decide, by decide, trivial, trivial⟩,
      by decide, by decide, trivial, trivial⟩
  refine ⟨sound, ?_⟩
  obtain ⟨sources, log, found, sorted, listed⟩ := collectSources_exact {} ⟨"scripts"⟩
    (some sampleFolder) (by rintro _ ⟨⟩; exact sound)
  refine ⟨sources, log, found, sorted, (listed _).mpr ⟨["sub"], "b.SK", "", ?_⟩⟩
  refine ⟨.inside List.mem_cons_self (.inside List.mem_cons_self (.here _)),
    ⟨['b'], ['S', 'K'], by decide⟩, fun disabled => absurd disabled.2 (by decide), ?_, by decide, ?_⟩
  · rintro _ (_ | ⟨_, ⟨⟩⟩) disabled
    exact absurd disabled.2 (by decide)
  · have noLines : Line.read "" = .ok [] := rfl
    rw [Section.parse, noLines]
    simp [Line.trees, Except.map]

end Session

end ScriptBinding

import ScriptBinding.Proofs.OptionValues

/-! # The options of a script that has been loaded

Once a script is loaded, its options are those that its sections of options define, a later
definition of a key in place of an earlier one. A table is made again from its entries, in whatever
order they are taken.
-/

namespace ScriptBinding

namespace Options

/-- A key has the value of one of its definitions. -/
theorem mem_of_lastDefinition {definitions : List (String × String)} {key value : String}
    (last : lastDefinition key definitions = some value) : (key, value) ∈ definitions := by
  induction definitions with
  | nil => cases last
  | cons first others ih =>
    obtain ⟨name, defined⟩ := first
    rw [lastDefinition, Option.or_eq_some_iff] at last
    rcases last with later | ⟨-, here⟩
    · exact List.mem_cons_of_mem _ (ih later)
    · by_cases same : name = key
      · rw [if_pos same, Option.some.injEq] at here
        rw [same, here]
        exact List.mem_cons_self
      · rw [if_neg same] at here
        cases here

/-- Of a key that is not defined twice, every definition is the last one. -/
theorem lastDefinition_of_mem {definitions : List (String × String)}
    (distinct : (definitions.map Prod.fst).Nodup) {key value : String}
    (member : (key, value) ∈ definitions) : lastDefinition key definitions = some value := by
  induction definitions with
  | nil => exact absurd member List.not_mem_nil
  | cons first others ih =>
    obtain ⟨fresh, later⟩ := List.nodup_cons.mp distinct
    rw [lastDefinition]
    rcases List.mem_cons.mp member with rfl | there
    · have none : lastDefinition key others = none := by
        refine Option.eq_none_iff_forall_ne_some.mpr fun other found => fresh ?_
        exact List.mem_map.mpr ⟨_, mem_of_lastDefinition found, rfl⟩
      simp [none]
    · rw [ih later there, Option.some_or]

theorem nodup_keys (options : Options) : (options.entries.map Prod.fst).Nodup := by
  refine List.pairwise_map.mpr (options.sorted.imp fun {first second} less same => ?_)
  rw [same] at less
  exact String.lt_irrefl _ less

/-- A table is made again from its entries in any order. -/
theorem insertAll_of_perm {options : Options} {definitions : List (String × String)}
    (same : definitions.Perm options.entries) : Table.empty.insertAll definitions = options := by
  refine Table.ext_get? fun key => ?_
  have distinct : (definitions.map Prod.fst).Nodup :=
    (same.map Prod.fst).nodup_iff.mpr options.nodup_keys
  rw [get?_insertAll, Table.get?_empty, Option.or_none, ← lastDefinition_entries]
  refine Option.ext fun value => ⟨fun found => ?_, fun found => ?_⟩
  · exact lastDefinition_of_mem options.nodup_keys (same.mem_iff.mp (mem_of_lastDefinition found))
  · exact lastDefinition_of_mem distinct (same.mem_iff.mpr (mem_of_lastDefinition found))

/-- What a table holds that is made from definitions is one of them. -/
theorem mem_of_mem_insertAll {definitions : List (String × String)} {entry : String × String}
    (member : entry ∈ (Table.empty.insertAll definitions : Options).entries) :
    entry ∈ definitions := by
  have held := lastDefinition_of_mem (nodup_keys _) member
  rw [lastDefinition_entries, get?_insertAll, Table.get?_empty, Option.or_none] at held
  exact mem_of_lastDefinition held

end Options

/-- The lines of a section of options that are no entries, as they are reported. -/
def OptionsStructure.faults (body : Section) : List Failure :=
  (flatten.flattenAll "" (body.convertToEntries (-1) ":").nodes).2

namespace Structure

/-- Mending a structure never changes the options. -/
theorem afterLoad_options (inner : Structure) (workspace : Workspace) :
    (inner.afterLoad workspace).2.2.context.currentOptions = workspace.context.currentOptions := by
  cases inner with
  | custom inner =>
    change (Workspace.reportAll _ _).context.currentOptions = _
    rw [Workspace.reportAll_eq_leave]
    rfl
  | _ => rfl

end Structure

namespace Loading

variable {registry : Registry} {workspace : Workspace} {definitions : List (String × String)}

theorem afterLoad_shows (loaded : LoadedStructure) (shows : workspace.Shows definitions) :
    (afterLoad loaded workspace).2.Shows definitions := by
  unfold afterLoad
  split
  · exact conclude_shows .afterLoad loaded _
      (shows.of_same (loaded.inner.afterLoad_options workspace))
  · exact shows

theorem each_afterLoad_shows (structures : List LoadedStructure)
    (shows : workspace.Shows definitions) :
    (each afterLoad structures workspace).2.Shows definitions := by
  induction structures generalizing workspace with
  | nil => exact shows
  | cons first others ih => exact ih (afterLoad_shows first shows)

/-- A script that becomes current starts without options. -/
theorem setScript_options (thread : Thread) {script : Script}
    (moves : Script.sameCurrent workspace.context.script (some script) = false) :
    (workspace.setScript thread (some script)).context.currentOptions = .empty := by
  rw [Workspace.setScript_of_moves moves]
  change ((workspace.flush thread).context.options.map fun _ => Table.empty).getD .empty = _
  cases (workspace.flush thread).context.options <;> rfl

/-- Once a script is loaded, its options are those its sections define. -/
theorem loadScript_options (leads : registry.OptionsLead) (thread : Thread) (script : Script)
    (source : ScriptSource)
    (moves : Script.sameCurrent workspace.context.script (some script) = false) :
    (loadScript registry thread script source workspace).2.context.currentOptions =
      Table.empty.insertAll (definitionsOf (optionSections registry source.tree.nodes)) := by
  have prepared := initialiseAll_prepared leads source.tree.nodes
    (setScript_options thread moves)
  have loaded := each_load_shows thread (initialiseAll registry source.tree.nodes
    (workspace.setScript thread (some script))).1 prepared.shows
  refine Table.ext_get? fun key => (each_afterLoad_shows _ loaded key).trans ?_
  rw [Options.lastDefinition_append, flatMap_overlay, Lays.lastDefinition prepared.lays,
    Option.or_self, Options.get?_insertAll, Table.get?_empty, Option.or_none]

/-! ## A script with one section of options -/

/-- A header of options is taken by the first of the preloading descriptors. -/
theorem exists_first (leads : registry.OptionsLead) {key : String}
    (options : registry.isOptions key = true) :
    ∃ first others header, registry.preloading = first :: others ∧ first.MakesOptions ∧
      first.match? key = some header := by
  cases preloading : registry.preloading with
  | nil =>
    have none := first?_others key leads.normal
    rw [Registry.isOptions, Registry.match?, Registry.all, preloading, List.nil_append, none]
      at options
    cases options
  | cons first others =>
    rw [isOptions_eq leads preloading, Bool.and_eq_true, Option.isSome_iff_exists] at options
    obtain ⟨makes, header, matched⟩ := options
    refine ⟨first, others, header, rfl, ?_, matched⟩
    rcases leads.first first (by rw [preloading]; rfl) with isOne | isOther
    · exact isOne
    · rw [isOther 0] at makes
      cases makes

theorem definitionsOf_single (body : Section) (options : registry.isOptions body.key = true) :
    definitionsOf (optionSections registry [body.toNode]) =
      OptionsStructure.definitions body := by
  have alone : optionSections registry [body.toNode] = [⟨0, body⟩] :=
    List.filter_cons_of_pos options
  rw [alone, definitionsOf, List.flatMap_singleton]

theorem claimAll_nil (descriptors : List Descriptor) : claimAll descriptors [] = ([], []) := by
  induction descriptors with
  | nil => rfl
  | cons descriptor others ih => simp [claimAll, claim, ih]

/-- Taking the header of a section of options reports only lines that are no entries. -/
theorem initialisePreloading_quiet (assignment : Assignment)
    (makes : assignment.descriptor.MakesOptions)
    (faultless : OptionsStructure.faults assignment.top.body = []) (workspace : Workspace) :
    ∃ inner calls, initialisePreloading assignment workspace = (some ⟨.options inner,
      assignment.top.body.key, assignment.top.body.line, assignment.top.index, 10, true, false⟩,
      calls) ∧ calls.context.diagnostics = workspace.context.diagnostics := by
  have init (start : Workspace) :
      (Structure.options {}).init assignment.header assignment.top.body start =
        (.done true, .options ⟨Table.empty.insertAll
          (OptionsStructure.definitions assignment.top.body)⟩, start) := by
    change (Outcome.done true, Structure.options _, start.reportAll
      (OptionsStructure.faults assignment.top.body)) = _
    rw [faultless]
    rfl
  unfold initialisePreloading initialise takeHeader
  simp only [makes _, init]
  exact ⟨_, _, rfl, rfl⟩

/-- A script with one section of options reports nothing if every line of it is an entry. -/
theorem loadScript_quiet (leads : registry.OptionsLead) (thread : Thread) (script : Script)
    (path : Path) (name : String) {body : Section} (options : registry.isOptions body.key = true)
    (faultless : OptionsStructure.faults body = [])
    (moves : Script.sameCurrent workspace.context.script (some script) = false) :
    (loadScript registry thread script ⟨path, name, 0, [body.toNode]⟩
      workspace).2.context.diagnostics = workspace.context.diagnostics := by
  obtain ⟨first, others, header, preloading, makes, matched⟩ := exists_first leads options
  have claimed : claimAll registry.preloading (topSections 0 [body.toNode]) =
      ([⟨first, header, ⟨0, body⟩⟩], []) := by
    have alone : topSections 0 [body.toNode] = [⟨0, body⟩] := rfl
    simp [alone, preloading, claimAll, claim, matched, claimAll_nil]
  have start : (workspace.setScript thread (some script)).context.diagnostics =
      workspace.context.diagnostics := by
    rw [Workspace.setScript_of_moves moves]
    change (workspace.flush thread).context.diagnostics = _
    unfold Workspace.flush
    dsimp only
    split
    · rfl
    · split <;> rfl
  obtain ⟨inner, prepared, taken, quiet⟩ := initialisePreloading_quiet
    ⟨first, header, ⟨0, body⟩⟩ makes faultless
    (reportPlain [body.toNode] (workspace.setScript thread (some script)))
  simp only [loadScript, loadCurrent, initialiseAll, claimed, each, taken, List.append_nil,
    List.reduceOption_cons_of_some, List.reduceOption_nil, List.mergeSort_singleton]
  exact quiet.trans start

end Loading

end ScriptBinding

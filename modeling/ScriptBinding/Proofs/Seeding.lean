import ScriptBinding.Proofs.BodyAccounts
import ScriptBinding.Proofs.DefaultNames
import Mathlib.Data.List.Induction
import Mathlib.Data.List.Nodup

/-! # Seeding

A node of a section of variables defines a variable if it is an entry whose name and value can be
read. The nodes are taken one after the other: the first one to define a variable gives it its
value, unless it had one before the section. An entry whose name has a value by then is passed over,
whatever its own value is, and any other node that defines nothing is reported.
-/

namespace ScriptBinding

open Failure (Holds)

theorem filterMap_concat {α β : Type} (f : α → Option β) (list : List α) (a : α) :
    (list ++ [a]).filterMap f = list.filterMap f ++ (f a).toList := by
  rw [List.filterMap_append]
  cases image : f a with
  | none => rw [List.filterMap_cons_none image, List.filterMap_nil, Option.toList_none]
  | some b => rw [List.filterMap_cons_some image, List.filterMap_nil, Option.toList_some]

/-! ## Values that are stored -/

/-- Values of the class of the value are stored, and as they are. -/
def ClassRegistry.Savable (classes : ClassRegistry) (value : Value) : Prop :=
  ∃ info, classes.classOf? value = some info ∧ info.serializable = true ∧ info.storedAs = none

namespace VariablesStructure

/-- What is stored for a value: offline players in place of players, and no worlds. -/
def kept? : Value → Option Value
  | .object "world" _ => none
  | .object "player" data => some (.object "offlineplayer" data)
  | value => some value

/-- What the standard class of this name says about storing its values: worlds are not stored,
players as something else, and all other values as they are. -/
def traits (className : String) : Bool × Option String :=
  if className = "world" then (false, none)
  else if className = "player" then (true, some "offlineplayer")
  else (true, none)

theorem traits_standard {info : ClassInfo} (member : info ∈ ClassRegistry.standard.classes) :
    (info.serializable, info.storedAs) = traits info.codeName := by
  have all : ∀ entry ∈ ClassRegistry.standard.classes.map fun info =>
      (info.codeName, info.serializable, info.storedAs), entry.2 = traits entry.1 := by
    have entries : (ClassRegistry.standard.classes.map fun info =>
        (info.codeName, info.serializable, info.storedAs)) =
          [("boolean", true, none), ("integer", true, none), ("number", true, none),
            ("timespan", true, none), ("world", false, none),
            ("player", true, some "offlineplayer"), ("offlineplayer", true, none),
            ("text", true, none), ("object", true, none)] := rfl
    rw [entries]
    decide
  exact all _ (List.mem_map_of_mem member)

/-- Values of unknown classes are stored like objects. -/
theorem traits_of_value {value : Value} {info : ClassInfo}
    (known : ClassRegistry.standard.classOf? value = some info) :
    (info.serializable, info.storedAs) = traits value.className := by
  unfold ClassRegistry.classOf? at known
  cases found : ClassRegistry.standard.named? value.className with
  | some own =>
    rw [found, Option.some_or] at known
    cases known
    have named : info.codeName = value.className := by simpa using List.find?_some found
    exact named ▸ traits_standard (List.mem_of_find?_eq_some found)
  | none =>
    rw [found, Option.none_or] at known
    have named : info.codeName = "object" := by simpa using List.find?_some known
    have world : value.className ≠ "world" := fun same => by rw [same] at found; cases found
    have player : value.className ≠ "player" := fun same => by rw [same] at found; cases found
    rw [traits_standard (List.mem_of_find?_eq_some known), named, traits, traits, if_neg world,
      if_neg player]
    rfl

theorem eq_object_of_className {value : Value} {className : String}
    (named : value.className = className)
    (foreign : className ∉ ["boolean", "integer", "number", "text"]) :
    ∃ data, value = .object className data := by
  subst named
  cases value with
  | object className data => exact ⟨data, rfl⟩
  | _ => exact absurd (by simp [Value.className]) foreign

/-- A value is kept as its class says. -/
theorem kept?_eq (value : Value) : kept? value =
    match traits value.className with
    | (false, _) => none
    | (true, none) => some value
    | (true, some _) => Value.toOfflinePlayer? value := by
  unfold kept?
  split
  · rfl
  · rfl
  · next notWorld notPlayer =>
    have world : value.className ≠ "world" := fun named =>
      (eq_object_of_className named (by decide)).elim fun data same => notWorld data same
    have player : value.className ≠ "player" := fun named =>
      (eq_object_of_className named (by decide)).elim fun data same => notPlayer data same
    rw [traits, if_neg world, if_neg player]

/-- What is stored can be stored. -/
theorem savable_of_kept? {value kept : Value} (keeps : kept? value = some kept) :
    ClassRegistry.standard.Savable kept := by
  have plain : traits kept.className = (true, none) := by
    rw [kept?_eq] at keeps
    split at keeps
    · cases keeps
    · next same =>
      cases keeps
      exact same
    · obtain ⟨data, rfl⟩ : ∃ data, kept = .object "offlineplayer" data := by
        cases value <;> cases keeps
        exact ⟨_, rfl⟩
      rfl
  obtain ⟨info, known⟩ :=
    Option.isSome_iff_exists.mp (ClassRegistry.standard_knowsObjects.classOf? kept)
  exact ⟨info, known, Prod.ext_iff.mp ((traits_of_value known).trans plain)⟩

/-- A written value is stored if it can be read and is kept. -/
theorem storedValue_eq_ok_iff {written : String} {line : Nat} {value : Value} :
    storedValue .standard written line = .ok value ↔
      (ClassRegistry.standard.parse? written).bind kept? = some value := by
  unfold storedValue
  cases ClassRegistry.standard.parse? written with
  | none => simp
  | some own =>
    obtain ⟨info, known⟩ :=
      Option.isSome_iff_exists.mp (ClassRegistry.standard_knowsObjects.classOf? own)
    obtain ⟨isSerializable, target⟩ := Prod.ext_iff.mp (traits_of_value known)
    dsimp only at isSerializable target
    simp only [known, isSerializable, target, Option.bind_some, kept?_eq]
    unfold traits
    by_cases world : own.className = "world"
    · simp [world]
    rw [if_neg world]
    by_cases player : own.className = "player"
    · obtain ⟨data, rfl⟩ := eq_object_of_className player (by decide)
      have converted : ClassRegistry.standard.convert? (.object "player" data) "offlineplayer" =
          Value.toOfflinePlayer? (.object "player" data) := rfl
      simp [player, converted, Value.toOfflinePlayer?]
    · simp [player]

/-! ## Definitions -/

/-- The variable that a node defines, with its value. -/
def definition? : Node → Option (String × Value)
  | .entry key written line =>
    match DefaultName.read .standard key line,
      (ClassRegistry.standard.parse? written).bind kept? with
    | .ok name, some value => some (name, value)
    | _, _ => none
  | _ => none

/-- The variables that nodes define, in the order of the nodes. -/
def definitions (nodes : List Node) : List (String × Value) :=
  nodes.filterMap definition?

theorem definition?_eq_some_iff {node : Node} {name : String} {value : Value} :
    definition? node = some (name, value) ↔ ∃ key written line, node = .entry key written line ∧
      DefaultName.read .standard key line = .ok name ∧
      (ClassRegistry.standard.parse? written).bind kept? = some value := by
  cases node with
  | simple key line => simp [definition?]
  | nested key line nodes => simp [definition?]
  | entry key written line =>
    unfold definition?
    dsimp only
    split
    · next named valued => simp [named, valued]
    · next apart =>
      refine iff_of_false nofun ?_
      rintro ⟨_, _, _, same, named, valued⟩
      cases same
      exact apart _ _ named valued

theorem definitions_concat (nodes : List Node) (node : Node) :
    definitions (nodes ++ [node]) = definitions nodes ++ (definition? node).toList :=
  filterMap_concat definition? nodes node

/-- The name is that of a variable before the section, or of one that the nodes define. -/
def Taken (before : VariableStore) (nodes : List Node) (name : String) : Prop :=
  before.table.contains name = true ∨ name ∈ (definitions nodes).map Prod.fst

/-- The table after the nodes: that before them, and their first definitions of other names. -/
def Filled (before : VariableStore) (nodes : List Node) (after : VariableStore) : Prop :=
  ∀ name, after.table.get? name = (before.table.get? name).or ((definitions nodes).lookup name)

/-- What becomes of a node. -/
inductive Fate where
  | stored (name : String) (value : Value)
  | skipped (name : String)
  | reported (failure : Failure)

/-- What can become of a node, given the names that have a value by then. -/
inductive Becomes (taken : String → Prop) : Node → Fate → Prop
  | stored {key written : String} {line : Nat} {name : String} {value : Value}
      (named : DefaultName.read .standard key line = .ok name) (free : ¬ taken name)
      (valued : (ClassRegistry.standard.parse? written).bind kept? = some value) :
      Becomes taken (.entry key written line) (.stored name value)
  | skipped {key written : String} {line : Nat} {name : String}
      (named : DefaultName.read .standard key line = .ok name) (isTaken : taken name) :
      Becomes taken (.entry key written line) (.skipped name)
  | unnamed {key written : String} {line : Nat} {failure : Failure}
      (refused : DefaultName.read .standard key line = .error failure)
      (holds : failure.Holds line) : Becomes taken (.entry key written line) (.reported failure)
  | unvalued {key written : String} {line : Nat} {name : String} {failure : Failure}
      (named : DefaultName.read .standard key line = .ok name) (free : ¬ taken name)
      (refused : (ClassRegistry.standard.parse? written).bind kept? = none)
      (holds : failure.Holds line) : Becomes taken (.entry key written line) (.reported failure)
  | foreign {node : Node} {failure : Failure}
      (other : ∀ key written line, node ≠ .entry key written line)
      (holds : failure.Holds node.line) : Becomes taken node (.reported failure)

/-- What becomes of nodes, each of which finds the names taken that those before it define. -/
inductive Fares (before : VariableStore) : List Node → List Fate → Prop
  | nil : Fares before [] []
  | concat {nodes : List Node} {fates : List Fate} {node : Node} {fate : Fate}
      (earlier : Fares before nodes fates) (becomes : Becomes (Taken before nodes) node fate) :
      Fares before (nodes ++ [node]) (fates ++ [fate])

namespace Fate

/-- The name that is given a value. -/
def stored? : Fate → Option String
  | stored name _ => some name
  | _ => none

/-- What is reported. -/
def failure? : Fate → Option Failure
  | reported failure => some failure
  | _ => none

/-- The variables after a node. -/
def into (store : VariableStore) : Fate → VariableStore
  | stored name value => store.set name (some value)
  | _ => store

/-- What seeding a node gives. -/
def result (store : VariableStore) : Fate → Except Failure (Option String × VariableStore)
  | reported failure => .error failure
  | fate => .ok (fate.stored?, fate.into store)

end Fate

variable {before store : VariableStore} {nodes : List Node} {fates : List Fate} {node : Node}
  {fate : Fate}

/-- Names are taken if the table has a value for them. -/
theorem Filled.taken_iff (filled : Filled before nodes store) {name : String} :
    (store.table.get? name).isSome ↔ Taken before nodes name := by
  rw [filled, Option.isSome_or, Bool.or_eq_true, Taken, Table.contains]
  refine or_congr_right (not_iff_not.mp ?_)
  rw [Option.not_isSome_iff_eq_none, List.lookup_eq_none_iff]
  constructor
  · intro differ member
    obtain ⟨entry, among, rfl⟩ := List.mem_map.mp member
    exact bne_iff_ne.mp (differ entry among) rfl
  · intro absent entry among
    exact bne_iff_ne.mpr fun same => absent (same ▸ List.mem_map_of_mem among)

/-- What one node does depends on the names that are taken. -/
theorem seedNode_becomes (filled : Filled before nodes store) (node : Node) :
    ∃ fate, Becomes (Taken before nodes) node fate ∧
      seedNode .standard store node = fate.result store := by
  cases node with
  | simple key line => exact ⟨.reported (.config line _), .foreign nofun rfl, rfl⟩
  | nested key line children => exact ⟨.reported (.config line _), .foreign nofun rfl, rfl⟩
  | entry key written line =>
    cases named : DefaultName.read .standard key line with
    | error failure =>
      refine ⟨.reported failure, .unnamed named (DefaultName.read_holds named), ?_⟩
      simp only [seedNode, seed, named, Fate.result]
    | ok name =>
      have taken : (store.get? name).isSome ↔ Taken before nodes name := by
        rw [VariableStore.get?, DefaultName.lower_of_read ClassRegistry.standard_tidy named]
        exact filled.taken_iff
      by_cases isTaken : Taken before nodes name
      · refine ⟨.skipped name, .skipped named isTaken, ?_⟩
        simp only [seedNode, seed, named, if_pos (taken.mpr isTaken), Fate.result, Fate.stored?,
          Fate.into]
      · have free : ¬ (store.get? name).isSome := fun found => isTaken (taken.mp found)
        cases valued : storedValue .standard written line with
        | error failure =>
          refine ⟨.reported failure, .unvalued named isTaken ?_ ?_, ?_⟩
          · refine Option.eq_none_iff_forall_ne_some.mpr fun value keeps => ?_
            cases valued.symm.trans (storedValue_eq_ok_iff.mpr keeps)
          · exact storedValue_holds ClassRegistry.standard_knowsObjects valued
          · simp only [seedNode, seed, named, if_neg free, valued, Fate.result]
        | ok value =>
          refine ⟨.stored name value, .stored named isTaken (storedValue_eq_ok_iff.mp valued), ?_⟩
          simp only [seedNode, seed, named, if_neg free, valued, Fate.result, Fate.stored?,
            Fate.into]

/-- A definition of a name that is taken changes nothing. -/
theorem Filled.concat (filled : Filled before nodes store)
    (idle : ∀ name value, definition? node = some (name, value) → Taken before nodes name) :
    Filled before (nodes ++ [node]) store := by
  intro name
  rw [filled, definitions_concat, List.lookup_append, ← Option.or_assoc, ← filled]
  cases found : store.table.get? name with
  | some value => rfl
  | none =>
    cases defined : definition? node with
    | none => rfl
    | some entry =>
      obtain ⟨other, value⟩ := entry
      have taken := filled.taken_iff.mpr (idle other value defined)
      have differs : name ≠ other := by
        rintro rfl
        rw [found] at taken
        cases taken
      simp [List.lookup_cons, beq_false_of_ne differs]

/-- A node is the first one to define a variable, or it changes nothing. -/
theorem Becomes.first_or_idle {taken : String → Prop} (becomes : Becomes taken node fate) :
    (∃ name value, fate = .stored name value ∧ definition? node = some (name, value) ∧
      ¬ taken name ∧ Text.lower name = name) ∨
    ((∀ store, fate.into store = store) ∧ fate.stored? = none ∧
      ∀ name value, definition? node = some (name, value) → taken name) := by
  cases becomes with
  | @stored key written line name value named free valued =>
    exact Or.inl ⟨name, value, rfl,
      definition?_eq_some_iff.mpr ⟨key, written, line, rfl, named, valued⟩, free,
      DefaultName.lower_of_read ClassRegistry.standard_tidy named⟩
  | skipped named isTaken =>
    refine Or.inr ⟨fun _ => rfl, rfl, fun name value defined => ?_⟩
    obtain ⟨_, _, _, same, again, -⟩ := definition?_eq_some_iff.mp defined
    cases same
    cases named.symm.trans again
    exact isTaken
  | unnamed refused =>
    refine Or.inr ⟨fun _ => rfl, rfl, fun name value defined => ?_⟩
    obtain ⟨_, _, _, same, named, -⟩ := definition?_eq_some_iff.mp defined
    cases same
    cases refused.symm.trans named
  | unvalued _ _ refused =>
    refine Or.inr ⟨fun _ => rfl, rfl, fun name value defined => ?_⟩
    obtain ⟨_, _, _, same, -, valued⟩ := definition?_eq_some_iff.mp defined
    cases same
    cases refused.symm.trans valued
  | foreign other =>
    refine Or.inr ⟨fun _ => rfl, rfl, fun name value defined => ?_⟩
    obtain ⟨_, _, _, same, -⟩ := definition?_eq_some_iff.mp defined
    exact absurd same (other _ _ _)

/-- The variables after a node are those before it, and the one that it is the first to define. -/
theorem Becomes.filled (becomes : Becomes (Taken before nodes) node fate)
    (filled : Filled before nodes store) :
    Filled before (nodes ++ [node]) (fate.into store) := by
  obtain ⟨name, value, rfl, defined, free, lower⟩ | ⟨unchanged, -, idle⟩ := becomes.first_or_idle
  · have absent : store.table.get? name = none :=
      Option.not_isSome_iff_eq_none.mp fun found => free (filled.taken_iff.mp found)
    intro other
    rw [definitions_concat, defined, List.lookup_append, ← Option.or_assoc, ← filled]
    change (store.table.insert (Text.lower name) value).get? other = _
    rw [Table.get?_insert, lower]
    by_cases same : name = other
    · subst same
      simp [absent]
    · simp [same, beq_false_of_ne (Ne.symm same), List.lookup_cons]
  · rw [unchanged]
    exact filled.concat idle

/-- The names that are given values are those that are new and defined, each of them once. -/
theorem Fares.names (fares : Fares before nodes fates) :
    (fates.filterMap Fate.stored?).Nodup ∧ ∀ name, name ∈ fates.filterMap Fate.stored? ↔
      before.table.contains name = false ∧ name ∈ (definitions nodes).map Prod.fst := by
  induction fares with
  | nil => simp [definitions]
  | @concat nodes fates node fate _ becomes ih =>
    obtain ⟨nodup, names⟩ := ih
    rw [filterMap_concat, definitions_concat, List.map_append]
    obtain ⟨name, value, rfl, defined, free, -⟩ | ⟨-, none, idle⟩ := becomes.first_or_idle
    · rw [Taken, not_or, Bool.not_eq_true] at free
      simp only [Fate.stored?, defined, Option.toList_some]
      refine ⟨nodup.append (List.nodup_singleton name) ?_, fun other => ?_⟩
      · rw [List.disjoint_singleton]
        exact fun among => free.2 ((names name).mp among).2
      · simp only [List.mem_append, List.mem_singleton, List.map_cons, List.map_nil, names]
        constructor
        · rintro (⟨new, among⟩ | rfl)
          · exact ⟨new, Or.inl among⟩
          · exact ⟨free.1, Or.inr rfl⟩
        · rintro ⟨new, among | rfl⟩
          · exact Or.inl ⟨new, among⟩
          · exact Or.inr rfl
    · rw [none, Option.toList_none, List.append_nil]
      refine ⟨nodup, fun other => (names other).trans (and_congr_right fun new => ?_)⟩
      rw [List.mem_append]
      refine (or_iff_left_of_imp fun again => ?_).symm
      obtain ⟨⟨_, value⟩, defined, rfl⟩ := List.mem_map.mp again
      have taken := idle _ value (Option.mem_toList.mp defined)
      exact taken.resolve_left (by simp [new])

/-! ## Sections -/

variable {defaults : VariablesStructure} {workspace : Workspace}

/-- The state after nodes have fared as they did. -/
def seedingState (defaults : VariablesStructure) (workspace : Workspace) (fates : List Fate)
    (store : VariableStore) : VariablesStructure × Workspace :=
  (⟨defaults.seeded ++ fates.filterMap Fate.stored?⟩,
    (workspace.inHost ({ · with store })).reportAll (fates.filterMap Fate.failure?))

theorem initNode_seedingState (classes : workspace.host.classes = .standard)
    (result : seedNode .standard store node = fate.result store) :
    initNode (seedingState defaults workspace fates store) node =
      seedingState defaults workspace (fates ++ [fate]) (fate.into store) := by
  have own : seedNode (seedingState defaults workspace fates store).2.host.classes
      (seedingState defaults workspace fates store).2.host.store node = fate.result store := by
    rw [← result]
    simp only [seedingState, Workspace.reportAll_eq_leave, Workspace.leave, Workspace.inHost,
      classes]
  have failures := filterMap_concat Fate.failure? fates fate
  have names := filterMap_concat Fate.stored? fates fate
  unfold initNode
  dsimp only
  rw [own]
  unfold seedingState
  rw [failures, names]
  cases fate with
  | stored name value =>
    simp only [Workspace.reportAll_eq_leave]
    simp [Fate.result, Fate.stored?, Fate.failure?, Fate.into, Workspace.leave, Workspace.inHost]
  | skipped name =>
    simp only [Workspace.reportAll_eq_leave]
    simp [Fate.result, Fate.stored?, Fate.failure?, Fate.into, Workspace.leave, Workspace.inHost]
  | reported failure =>
    simp [Fate.result, Fate.stored?, Fate.failure?, Fate.into, Workspace.reportAll]

/-- Nodes fare one after the other. -/
theorem foldl_initNode (defaults : VariablesStructure)
    (classes : workspace.host.classes = .standard) (nodes : List Node) :
    ∃ fates after, Fares workspace.host.store nodes fates ∧
      Filled workspace.host.store nodes after ∧
      nodes.foldl initNode (defaults, workspace) = seedingState defaults workspace fates after := by
  induction nodes using List.reverseRecOn with
  | nil =>
    refine ⟨[], workspace.host.store, .nil, fun name => ?_, ?_⟩
    · exact (Option.or_none ..).symm
    · simp [seedingState, Workspace.reportAll, Workspace.inHost]
  | append_singleton nodes node ih =>
    obtain ⟨fates, store, fares, filled, folds⟩ := ih
    obtain ⟨fate, becomes, result⟩ := seedNode_becomes filled node
    refine ⟨fates ++ [fate], fate.into store, fares.concat becomes, becomes.filled filled, ?_⟩
    rw [List.foldl_append, folds, List.foldl_cons, List.foldl_nil]
    exact initNode_seedingState classes result

/-- What nodes make of the variables before them. -/
structure Seeds (before : VariableStore) (nodes : List Node) (fates : List Fate)
    (after : VariableStore) : Prop where
  /-- Each node is stored, passed over or reported, by the names that are taken by then. -/
  fares : Fares before nodes fates
  /-- A variable that has a value keeps it. -/
  kept : ∀ name value, before.table.get? name = some value → after.table.get? name = some value
  /-- Any other one gets the value of its first definition. -/
  added : ∀ name, before.table.get? name = none →
    after.table.get? name = (definitions nodes).lookup name
  savable : ∀ name value, before.table.get? name = none → after.table.get? name = some value →
    ClassRegistry.standard.Savable value
  /-- The names that are stored are the new ones, each of them once. -/
  fresh : (fates.filterMap Fate.stored?).Nodup ∧ ∀ name, name ∈ fates.filterMap Fate.stored? ↔
    before.table.get? name = none ∧ (after.table.get? name).isSome = true

theorem savable_of_definition {name : String} {value : Value}
    (defined : (name, value) ∈ definitions nodes) : ClassRegistry.standard.Savable value := by
  obtain ⟨node, -, own⟩ := List.mem_filterMap.mp defined
  obtain ⟨_, written, _, -, -, valued⟩ := definition?_eq_some_iff.mp own
  obtain ⟨literal, -, keeps⟩ := Option.bind_eq_some_iff.mp valued
  exact savable_of_kept? keeps

theorem Fares.seeds (fares : Fares before nodes fates) (filled : Filled before nodes store) :
    Seeds before nodes fates store := by
  have added (name : String) (new : before.table.get? name = none) :
      store.table.get? name = (definitions nodes).lookup name := by
    rw [filled, new, Option.none_or]
  refine ⟨fares, fun name value found => ?_, added, fun name value new found => ?_, ?_⟩
  · rw [filled, found, Option.some_or]
  · rw [added name new] at found
    obtain ⟨first, others, whole, -⟩ := List.lookup_eq_some_iff.mp found
    have member : (name, value) ∈ definitions nodes := by simp [whole]
    exact savable_of_definition member
  · obtain ⟨nodup, names⟩ := fares.names
    refine ⟨nodup, fun name => (names name).trans ?_⟩
    rw [Table.contains, Option.isSome_eq_false_iff, Option.isNone_iff_eq_none]
    refine and_congr_right fun new => ?_
    rw [filled.taken_iff, Taken, Table.contains, new]
    simp

theorem notes_reported (script : Option Script) (failures : List Failure) :
    (Workspace.reported script failures).notes = [] := by
  induction failures with
  | nil => rfl
  | cons failure others ih => exact ih

/-- **Seeding.** A section of variables succeeds, whatever its nodes and the variables there are. It
overwrites nothing, gives the new variables the values of their first definitions, remembers their
names, and leaves one diagnostic for each node that is reported. -/
theorem init_seeds (header : MatchResult) (body : Section) (defaults : VariablesStructure)
    (workspace : Workspace) (classes : workspace.host.classes = .standard) :
    ∃ fates after,
      Seeds workspace.host.store (body.convertToEntries 0 "=").nodes fates after.host.store ∧
      after.context = { workspace.context with
        diagnostics := workspace.context.diagnostics ++
          (fates.filterMap Fate.failure?).map fun failure => ⟨failure.kind, failure.text,
            workspace.context.script.map Script.name, failure.line?⟩ } ∧
      after.host = { workspace.host with store := after.host.store, log := after.host.log } ∧
      Structure.init header body workspace (.defaults defaults) =
        (.done true, .defaults ⟨defaults.seeded ++ fates.filterMap Fate.stored?⟩, after) := by
  obtain ⟨fates, store, fares, filled, folds⟩ :=
    foldl_initNode defaults classes (body.convertToEntries 0 "=").nodes
  refine ⟨fates, (seedingState defaults workspace fates store).2, ?_, ?_, ?_, ?_⟩
  · rw [seedingState, Workspace.reportAll_eq_leave]
    exact fares.seeds filled
  · rw [seedingState, Workspace.reportAll_eq_leave, Workspace.leave,
      Workspace.diagnostics_reported]
    rfl
  · rw [seedingState, Workspace.reportAll_eq_leave, Workspace.leave, notes_reported,
      List.append_nil]
    rfl
  · rw [Structure.init, init, folds]
    rfl

/-- A section that gives a variable two values. -/
def scores : Section :=
  ⟨"variables", 1, [.simple "\x7bscore\x7d = 1" 2, .simple "\x7bScore\x7d = 2" 3]⟩

/-- The first value counts. -/
theorem scores_seed : ∃ fates after,
    Seeds {} (scores.convertToEntries 0 "=").nodes fates after.host.store ∧
      Structure.init ⟨"variables", 0, [], [], 0⟩ scores {} (.defaults {}) =
        (.done true, .defaults ⟨fates.filterMap Fate.stored?⟩, after) ∧
      after.host.store.get? "score" = some (.integer 1) := by
  obtain ⟨fates, after, seeds, -, -, succeeds⟩ :=
    init_seeds ⟨"variables", 0, [], [], 0⟩ scores {} {} rfl
  have first : (definitions (scores.convertToEntries 0 "=").nodes).lookup "score" =
      some (.integer 1) := by
    decide +kernel
  exact ⟨fates, after, seeds, succeeds, (seeds.added "score" rfl).trans first⟩

end VariablesStructure

end ScriptBinding

import ScriptBinding.Proofs.BufferedEvents
import ScriptBinding.Proofs.Tallies

/-! # How many bodies a script owns

A function gets its body under a name that had none: the name was free when its signature was
declared, and no other structure has declared it since. So every function that is loaded adds one
body to those of its script, and nothing else in a load does.
-/

namespace ScriptBinding

namespace Table

variable {α : Type}

/-- A new entry stands beside those that were there. -/
theorem place_perm {key : String} {value : α} {entries : List (String × α)}
    (free : find key entries = none) :
    (place key value entries).Perm ((key, value) :: entries) := by
  induction entries with
  | nil => exact .refl _
  | cons first others ih =>
    rw [find] at free
    split at free
    · cases free
    · next differ =>
      rw [place]
      split
      · exact .refl _
      · rw [if_neg (Ne.symm differ)]
        exact ((ih free).cons first).trans (.swap _ _ _)

theorem values_insert {table : Table α} {key : String} (free : table.get? key = none) (value : α) :
    (table.insert key value).values.Perm (value :: table.values) :=
  (place_perm free).map Prod.snd

end Table

namespace FunctionTable

variable {functions after : FunctionTable} {function : Function}

/-- The bodies that a script owns. -/
def bodiesOf (script : Script) (functions : FunctionTable) : List Function :=
  functions.bodies.values.filter (·.signature.script.same script)

/-- What giving a declared function its body changes. -/
theorem attach_eq_ok (attached : functions.attach function = .ok after) :
    after.signatures = functions.signatures ∧
      after.bodies = functions.bodies.insert function.signature.name function ∧
      functions.signature? function.signature.name ≠ none := by
  unfold attach at attached
  dsimp only at attached
  split at attached
  · next declared =>
    cases Except.ok.inj attached
    refine ⟨rfl, rfl, fun none => ?_⟩
    rw [declares, none] at declared
    cases declared
  · cases attached

/-- A body that is new is the one that its script has gained. -/
theorem length_bodiesOf (free : functions.bodies.get? function.signature.name = none)
    (attached : functions.attach function = .ok after) (script : Script) :
    (after.bodiesOf script).length = (functions.bodiesOf script).length +
      if function.signature.script.same script then 1 else 0 := by
  rw [bodiesOf, (attach_eq_ok attached).2.1,
    ((Table.values_insert free function).filter _).length_eq, List.filter_cons]
  split <;> rfl

theorem BodiesDeclared.attach (declared : functions.BodiesDeclared)
    (attached : functions.attach function = .ok after) : after.BodiesDeclared := by
  obtain ⟨signatures, bodies, taken⟩ := attach_eq_ok attached
  intro name body found
  rw [bodies, Table.get?_insert] at found
  rw [signature?, signatures]
  split at found
  · next here => exact Option.ne_none_iff_exists'.mp (here ▸ taken)
  · exact declared name body found

/-- A name that nothing has declared has no body. -/
theorem BodiesDeclared.bare (declared : functions.BodiesDeclared) {name : String}
    (free : functions.signature? name = none) : functions.bodies.get? name = none := by
  cases found : functions.bodies.get? name with
  | none => rfl
  | some function =>
    obtain ⟨signature, taken⟩ := declared name function found
    rw [free] at taken
    cases taken

end FunctionTable

/-- The signature that a structure has declared. -/
def Structure.signature? (inner : Structure) : Option Signature :=
  inner.function?.bind (·.signature)

/-- The signatures that structures have declared. -/
def signaturesOf (structures : List LoadedStructure) : List Signature :=
  structures.filterMap (·.inner.signature?)

theorem signaturesOf_cons (loaded : LoadedStructure) (others : List LoadedStructure) :
    signaturesOf (loaded :: others) = loaded.inner.signature?.toList ++ signaturesOf others := by
  rw [signaturesOf, List.filterMap_cons]
  cases loaded.inner.signature? <;> rfl

/-- A structure whose signature would be of every script has none. -/
theorem Structure.signature?_of_declares {inner : Structure}
    (declares : ∀ script, inner.DeclaresIn script) : inner.signature? = none := by
  cases inner with
  | function inner =>
    cases found : inner.signature with
    | none => exact found
    | some signature =>
      have first :=
        declares ⟨signature.script.path, signature.script.generation + 1⟩ signature found
      have generation := congrArg Script.generation first
      exact absurd generation (Nat.succ_ne_self _).symm
  | _ => rfl

namespace Loading

variable {registry : Registry} {Possible : EventFilter → Prop} {script : Script}
  {workspace : Workspace}

/-! ## Declaring -/

/-- What a pass over structures declares: names that were free, each once. It adds no bodies. -/
structure Declaring (before : FunctionTable) (results : List LoadedStructure)
    (after : FunctionTable) : Prop where
  bodies : after.bodies = before.bodies
  kept : ∀ name, after.signature? name = none → before.signature? name = none
  free : ∀ signature ∈ signaturesOf results, before.signature? signature.name = none
  taken : ∀ signature ∈ signaturesOf results, after.signature? signature.name ≠ none
  distinct : ((signaturesOf results).map Signature.name).Nodup

theorem Declaring.nothing {before after : FunctionTable} {results : List LoadedStructure}
    (same : after = before) (none : signaturesOf results = []) :
    Declaring before results after where
  bodies := congrArg FunctionTable.bodies same
  kept := fun _ free => same ▸ free
  free := fun _ member => absurd (none ▸ member) List.not_mem_nil
  taken := fun _ member => absurd (none ▸ member) List.not_mem_nil
  distinct := by rw [none]; exact List.nodup_nil

theorem Declaring.append {before between after : FunctionTable}
    {first second : List LoadedStructure} (one : Declaring before first between)
    (two : Declaring between second after) : Declaring before (first ++ second) after where
  bodies := two.bodies.trans one.bodies
  kept := fun name free => one.kept name (two.kept name free)
  free := by
    intro signature member
    rw [signaturesOf, List.filterMap_append] at member
    rcases List.mem_append.mp member with here | there
    · exact one.free signature here
    · exact one.kept _ (two.free signature there)
  taken := by
    intro signature member
    rw [signaturesOf, List.filterMap_append] at member
    rcases List.mem_append.mp member with here | there
    · exact fun none => one.taken signature here (two.kept _ none)
    · exact two.taken signature there
  distinct := by
    rw [signaturesOf, List.filterMap_append, List.map_append]
    refine List.nodup_append.mpr ⟨one.distinct, two.distinct, ?_⟩
    intro name here _ there same
    obtain ⟨signature, first, rfl⟩ := List.mem_map.mp here
    obtain ⟨other, second, rfl⟩ := List.mem_map.mp there
    exact one.taken signature first (same ▸ two.free other second)

/-- Preloading declares the signature of a function under a name that was free, or does nothing to
the functions. -/
theorem preload_declaring (inner : Structure) (current : workspace.context.script = some script) :
    ((inner.preload workspace).2.1.signature? = inner.signature? ∧
        (inner.preload workspace).2.2.host.functions = workspace.host.functions) ∨
      ∃ signature functions, (inner.preload workspace).2.1.signature? = some signature ∧
        workspace.host.functions.declare signature = .ok functions ∧
        (inner.preload workspace).2.2.host.functions = functions := by
  cases inner with
  | function inner =>
    dsimp only [Structure.preload]
    rcases Structure.preload_function inner current with ⟨failure, same⟩ |
      ⟨signature, functions, _, declared, same⟩
    · rw [same]
      exact Or.inl ⟨rfl, rfl⟩
    · rw [same]
      exact Or.inr ⟨signature, functions, rfl, declared, rfl⟩
  | custom inner => exact Or.inl ⟨rfl, (inner.respond_still .preload workspace).functions⟩
  | options inner => exact Or.inl ⟨rfl, (inner.apply_still workspace).functions⟩
  | _ => exact Or.inl ⟨rfl, rfl⟩

/-- What declaring a signature changes. -/
theorem declare_eq_ok {functions after : FunctionTable} {signature : Signature}
    (declared : functions.declare signature = .ok after) :
    functions.signature? signature.name = none ∧ after.bodies = functions.bodies ∧
      ∀ name, after.signature? name =
        if signature.name = name then some signature else functions.signature? name := by
  unfold FunctionTable.declare at declared
  split at declared
  · cases declared
  · next free =>
    cases Except.ok.inj declared
    exact ⟨free, rfl, fun name => Table.get?_insert ..⟩

/-- A structure is preloaded beside others: what is declared then is new. -/
theorem preloaded_functions (loaded : LoadedStructure)
    (current : workspace.context.script = some script) :
    ((preload loaded workspace).1.inner.signature? = loaded.inner.signature? ∧
        (preload loaded workspace).2.host.functions = workspace.host.functions) ∨
      ∃ signature functions, (preload loaded workspace).1.inner.signature? = some signature ∧
        workspace.host.functions.declare signature = .ok functions ∧
        (preload loaded workspace).2.host.functions = functions := by
  have either := preload_declaring loaded.inner current
  have quiet := conclude_quiet .preload loaded (loaded.inner.preload workspace)
  have same := preload_structure loaded workspace
  have after : (preload loaded workspace).2 =
      (conclude .preload loaded (loaded.inner.preload workspace)).2.2 := rfl
  rw [same, after, quiet.functions]
  exact either

theorem Declaring.preload {loaded : LoadedStructure} {before : FunctionTable}
    (declaring : Declaring before [loaded] workspace.host.functions)
    (none : loaded.inner.signature? = none) (current : workspace.context.script = some script) :
    Declaring before [(preload loaded workspace).1] (preload loaded workspace).2.host.functions := by
  have signatures : signaturesOf [(Loading.preload loaded workspace).1] =
      (Loading.preload loaded workspace).1.inner.signature?.toList := by
    rw [signaturesOf_cons]
    exact List.append_nil _
  rcases preloaded_functions loaded current with ⟨same, functions⟩ |
    ⟨signature, functions, declared, declares, after⟩
  · rw [same, none] at signatures
    exact { declaring with
      bodies := functions ▸ declaring.bodies
      kept := functions ▸ declaring.kept
      free := fun _ member => absurd (signatures ▸ member) List.not_mem_nil
      taken := fun _ member => absurd (signatures ▸ member) List.not_mem_nil
      distinct := by rw [signatures]; exact List.nodup_nil }
  · obtain ⟨free, bodies, found⟩ := declare_eq_ok declares
    rw [declared] at signatures
    rw [after]
    refine ⟨bodies.trans declaring.bodies, ?_, ?_, ?_, ?_⟩
    · intro name absent
      rw [found] at absent
      split at absent
      · cases absent
      · exact declaring.kept name absent
    · intro other member
      rw [signatures, Option.toList_some] at member
      rw [List.mem_singleton.mp member]
      exact declaring.kept _ free
    · intro other member
      rw [signatures, Option.toList_some] at member
      rw [List.mem_singleton.mp member, found, if_pos rfl]
      exact Option.some_ne_none _
    · rw [signatures]
      exact List.nodup_singleton _

/-- Taking a header declares nothing. -/
theorem initialise_declaring {assignment : Assignment}
    (makes : assignment.descriptor.MakesOwn Possible) (workspace : Workspace) :
    Declaring workspace.host.functions (initialise assignment workspace).1.toList
      (initialise assignment workspace).2.host.functions := by
  let inner := assignment.descriptor.create workspace.host.nextTicket
  have waits := init_waits assignment.header assignment.top.body (inHand assignment workspace)
    inner (makes.filters _)
  have declares (script : Script) := init_declares assignment.header assignment.top.body
    (inHand assignment workspace) inner (makes.declares workspace.host.nextTicket script)
  unfold initialise
  rw [takeHeader_eq, show assignment.descriptor.create workspace.host.nextTicket = inner from rfl]
  generalize inner.init assignment.header assignment.top.body (inHand assignment workspace) =
    result at *
  obtain ⟨outcome, after, final⟩ := result
  dsimp only at waits declares ⊢
  have same : final.host.functions = workspace.host.functions := by
    rcases waits with ⟨still, _⟩ | ⟨_, _, _, _, still, _⟩
    · exact still.functions
    · exact still.functions
  split
  · refine .nothing same ?_
    rw [Option.toList_some, signaturesOf_cons, Structure.signature?_of_declares declares]
    rfl
  · exact .nothing same rfl
  · exact .nothing same rfl

theorem initialisePreloading_declaring {assignment : Assignment}
    (makes : assignment.descriptor.MakesOwn Possible)
    (matched : registry.match? assignment.top.body.key =
      some (assignment.descriptor, assignment.header))
    (current : workspace.context.script = some script) :
    Declaring workspace.host.functions (initialisePreloading assignment workspace).1.toList
      (initialisePreloading assignment workspace).2.host.functions := by
  have pass (owner : Script) : HeaderPass Possible registry owner workspace
      (initialise assignment workspace).1.toList (initialise assignment workspace).2 :=
    initialise_pass makes matched
  have declaring := initialise_declaring makes workspace
  unfold initialisePreloading
  generalize initialise assignment workspace = initialised at *
  obtain ⟨_ | loaded, between⟩ := initialised
  · exact declaring
  · exact declaring.preload
      (Structure.signature?_of_declares fun owner => (pass owner).declares loaded List.mem_cons_self)
      ((pass script).current.trans current)

theorem initialiseNormal_declaring {descriptors : List Descriptor} {top : TopSection}
    (makes : ∀ descriptor ∈ descriptors, descriptor.MakesOwn Possible) (workspace : Workspace) :
    Declaring workspace.host.functions (initialiseNormal descriptors top workspace).1.toList
      (initialiseNormal descriptors top workspace).2.host.functions := by
  unfold initialiseNormal
  cases found : assign? descriptors top with
  | none => exact .nothing rfl rfl
  | some assignment =>
    refine initialise_declaring (makes _ ?_) workspace
    obtain ⟨⟨descriptor, header⟩, first, rfl⟩ := Option.map_eq_some_iff.mp found
    exact first?_mem first

theorem each_declaring {α : Type} {act : α → Workspace → Option LoadedStructure × Workspace}
    (items : List α) (workspace : Workspace) (current : workspace.context.script = some script)
    (kept : ∀ item before, (act item before).2.context.script = before.context.script)
    (one : ∀ item ∈ items, ∀ before : Workspace, before.context.script = some script →
      Declaring before.host.functions (act item before).1.toList (act item before).2.host.functions) :
    Declaring workspace.host.functions (each act items workspace).1.reduceOption
      (each act items workspace).2.host.functions := by
  induction items generalizing workspace with
  | nil => exact .nothing rfl rfl
  | cons item others ih =>
    rw [each_cons_reduceOption]
    exact (one item List.mem_cons_self workspace current).append
      (ih (act item workspace).2 ((kept item workspace).trans current)
        fun other member => one other (List.mem_cons_of_mem _ member))

/-- Taking the headers of a script declares the functions that are preloaded then. -/
theorem initialiseAll_declaring (nodes : List Node) (makes : registry.MakesOwn Possible)
    (current : workspace.context.script = some script) :
    ∃ results, (initialiseAll registry nodes workspace).1.Perm results ∧
      Declaring workspace.host.functions results
        (initialiseAll registry nodes workspace).2.host.functions := by
  have plain := reportPlain_still nodes workspace
  let claimed := claimAll registry.preloading (topSections 0 nodes)
  let start := reportPlain nodes workspace
  have here : start.context.script = some script := plain.untouched.script.trans current
  have keptEarly (assignment : Assignment) (before : Workspace) :
      (initialisePreloading assignment before).2.context.script = before.context.script :=
    (initialisePreloading_buffers .main assignment before).script
  have early : Declaring start.host.functions
      (each initialisePreloading claimed.1 start).1.reduceOption
      (each initialisePreloading claimed.1 start).2.host.functions := by
    refine each_declaring _ _ here keptEarly ?_
    intro assignment member before current
    have matched := match?_of_claimed registry (topSections 0 nodes) assignment member
    exact initialisePreloading_declaring (makes _ (first?_mem matched)) matched current
  let middle := (each initialisePreloading claimed.1 start).2
  have between : middle.context.script = some script :=
    (each_buffers (initialisePreloading_buffers .main) claimed.1 start).script.trans here
  have late : Declaring middle.host.functions
      (each (initialiseNormal registry.normal) claimed.2 middle).1.reduceOption
      (each (initialiseNormal registry.normal) claimed.2 middle).2.host.functions := by
    refine each_declaring _ _ between
      (fun top before => (initialiseNormal_buffers .main registry.normal top before).script) ?_
    intro top _ before _
    exact initialiseNormal_declaring
      (fun descriptor member => makes descriptor (List.mem_append_right _ member)) before
  refine ⟨_, List.mergeSort_perm _ _, ?_⟩
  rw [List.reduceOption_append]
  have quiet : start.host.functions = workspace.host.functions := plain.functions
  exact quiet ▸ early.append late

/-! ## Giving bodies -/

/-- Functions that have been declared have no bodies yet, and no two of them have one name. -/
structure Expecting (functions : FunctionTable) (signatures : List Signature) : Prop where
  declared : functions.BodiesDeclared
  taken : ∀ signature ∈ signatures, functions.signature? signature.name ≠ none
  bare : ∀ signature ∈ signatures, functions.bodies.get? signature.name = none
  distinct : (signatures.map Signature.name).Nodup

/-- What has just been declared has no body yet. -/
theorem Declaring.expecting {before after : FunctionTable} {results : List LoadedStructure}
    (declaring : Declaring before results after) (declared : before.BodiesDeclared) :
    Expecting after (signaturesOf results) where
  declared := by
    intro name function found
    rw [declaring.bodies] at found
    obtain ⟨signature, taken⟩ := declared name function found
    refine Option.ne_none_iff_exists'.mp fun free => ?_
    rw [declaring.kept name free] at taken
    cases taken
  taken := declaring.taken
  bare := by
    intro signature member
    rw [declaring.bodies]
    exact declared.bare (declaring.free signature member)
  distinct := declaring.distinct

namespace Expecting

variable {functions after : FunctionTable} {signature : Signature} {signatures : List Signature}

theorem perm {others : List Signature} (expecting : Expecting functions signatures)
    (perm : signatures.Perm others) : Expecting functions others where
  declared := expecting.declared
  taken := fun signature member => expecting.taken signature (perm.mem_iff.mpr member)
  bare := fun signature member => expecting.bare signature (perm.mem_iff.mpr member)
  distinct := (perm.map _).nodup_iff.mp expecting.distinct

/-- One function fewer is expected to get a body. -/
theorem behind {first : List Signature} (expecting : Expecting functions (first ++ signatures)) :
    Expecting functions signatures where
  declared := expecting.declared
  taken := fun signature member => expecting.taken signature (List.mem_append_right _ member)
  bare := fun signature member => expecting.bare signature (List.mem_append_right _ member)
  distinct := expecting.distinct.sublist ((List.sublist_append_right _ _).map _)

/-- A function that has just been declared is expected to get a body, too. -/
theorem declare (expecting : Expecting functions signatures)
    (declares : functions.declare signature = .ok after) :
    Expecting after (signature :: signatures) := by
  obtain ⟨free, bodies, found⟩ := declare_eq_ok declares
  have apart : ∀ other ∈ signatures, signature.name ≠ other.name := by
    intro other member same
    exact expecting.taken other member (same ▸ free)
  refine ⟨?_, ?_, ?_, ?_⟩
  · intro name function has
    rw [bodies] at has
    obtain ⟨other, taken⟩ := expecting.declared name function has
    rw [found]
    split
    · exact ⟨signature, rfl⟩
    · exact ⟨other, taken⟩
  · refine List.forall_mem_cons.mpr ⟨?_, fun other member => ?_⟩
    · rw [found, if_pos rfl]
      exact Option.some_ne_none _
    · rw [found, if_neg (apart other member)]
      exact expecting.taken other member
  · rw [bodies]
    exact List.forall_mem_cons.mpr ⟨expecting.declared.bare free, expecting.bare⟩
  · refine List.nodup_cons.mpr ⟨fun member => ?_, expecting.distinct⟩
    obtain ⟨other, there, same⟩ := List.mem_map.mp member
    exact apart other there same.symm

/-- A function gets its body. -/
theorem attach {items : List Item} (expecting : Expecting functions (signature :: signatures))
    (attached : functions.attach ⟨signature, items⟩ = .ok after) :
    Expecting after signatures := by
  obtain ⟨sameSignatures, bodies, _⟩ := FunctionTable.attach_eq_ok attached
  refine ⟨expecting.declared.attach attached, ?_, ?_, (List.nodup_cons.mp expecting.distinct).2⟩
  · intro other member
    rw [FunctionTable.signature?, sameSignatures]
    exact expecting.taken other (List.mem_cons_of_mem _ member)
  · intro other member
    rw [bodies, Table.get?_insert, if_neg]
    · exact expecting.bare other (List.mem_cons_of_mem _ member)
    · intro same
      exact (List.nodup_cons.mp expecting.distinct).1
        (List.mem_map.mpr ⟨other, member, same.symm⟩)

end Expecting

/-- Loading a structure leaves the functions alone, or it gives the function that the structure is
its body. -/
theorem load_functions (thread : Thread) (inner : Structure)
    (current : workspace.context.script = some script) :
    let result := inner.load thread workspace
    (result.2.2.host.functions = workspace.host.functions ∧
        (result.1 = .done () → result.2.1.function? = none)) ∨
      ∃ function signature items, inner.function? = some function ∧
        function.signature = some signature ∧ result.1 = .done () ∧
        result.2.1.function? = some function ∧
        workspace.host.functions.attach ⟨signature, items⟩ = .ok result.2.2.host.functions := by
  cases inner with
  | function function =>
    dsimp only [Structure.load]
    unfold FunctionStructure.load
    split
    · exact Or.inl ⟨rfl, nofun⟩
    · next body _ =>
      split
      · exact Or.inl ⟨rfl, nofun⟩
      · next signature declared =>
        unfold FunctionStructure.loadBody
        rw [Workspace.reading_readBody]
        cases (Item.readBody (workspace.scopeFor FunctionStructure.bodyEvent) body).1 with
        | error failure => exact Or.inl ⟨rfl, nofun⟩
        | ok items =>
          dsimp only
          split
          · exact Or.inl ⟨rfl, nofun⟩
          · next functions attached =>
            exact Or.inr ⟨function, signature, items, rfl, declared, rfl, rfl, attached⟩
  | command inner =>
    dsimp only [Structure.load]
    rcases inner.load_cases thread current with ⟨_, after, still, same⟩ |
      ⟨loaded, after, _, still, same⟩
    · rw [same]
      exact Or.inl ⟨still.functions, nofun⟩
    · have kept := (CommandStructure.submit_steady thread loaded inner.ticket after).2
      rw [same]
      generalize CommandStructure.submit thread loaded inner.ticket after = submitted at *
      obtain ⟨_ | _, final⟩ := submitted
      · exact Or.inl ⟨kept.trans still.functions, nofun⟩
      · exact Or.inl ⟨kept.trans still.functions, fun _ => rfl⟩
  | options inner => exact Or.inl ⟨(inner.apply_still workspace).functions, fun _ => rfl⟩
  | custom inner => exact Or.inl ⟨(inner.respond_still .load workspace).functions, fun _ => rfl⟩
  | _ => exact Or.inl ⟨rfl, fun _ => rfl⟩

/-- What a pass of loading does to the bodies: each function that is loaded then adds one to those
of the script, and nothing else does. -/
def Embodies (script : Script) (before : FunctionTable) (results : List LoadedStructure)
    (after : FunctionTable) : Prop :=
  ∀ owner, (after.bodiesOf owner).length = (before.bodiesOf owner).length +
    if script.same owner then (loadedFunctions results).length else 0

theorem Embodies.cons {first : LoadedStructure} {others : List LoadedStructure}
    {before between after : FunctionTable} (one : Embodies script before [first] between)
    (rest : Embodies script between others after) :
    Embodies script before (first :: others) after := by
  intro owner
  have joined : loadedFunctions (first :: others) =
      loadedFunctions [first] ++ loadedFunctions others := by
    rw [loadedFunctions, loadedFunctions, loadedFunctions, ← List.filterMap_append,
      ← List.filter_append, List.singleton_append]
  rw [rest owner, one owner, joined, List.length_append]
  split
  · exact Nat.add_assoc ..
  · rfl

/-- A structure is readied while other functions are expected to get bodies. -/
theorem readied_expecting {signatures : List Signature} (loaded : LoadedStructure)
    (current : workspace.context.script = some script)
    (expecting : Expecting workspace.host.functions
      (loaded.inner.signature?.toList ++ signatures)) :
    Expecting (readied loaded workspace).2.host.functions
        ((readied loaded workspace).1.inner.signature?.toList ++ signatures) ∧
      (readied loaded workspace).2.host.functions.bodies = workspace.host.functions.bodies := by
  unfold readied
  split
  · exact ⟨expecting, rfl⟩
  · rcases preloaded_functions loaded current with ⟨same, functions⟩ |
      ⟨signature, functions, declared, declares, after⟩
    · rw [same, functions]
      exact ⟨expecting, rfl⟩
    · rw [declared, after]
      exact ⟨expecting.behind.declare declares, (declare_eq_ok declares).2.1⟩

/-- Loading one structure. -/
theorem load_embodies (thread : Thread) {signatures : List Signature} (loaded : LoadedStructure)
    (current : workspace.context.script = some script) (declares : loaded.inner.DeclaresIn script)
    (expecting : Expecting workspace.host.functions
      (loaded.inner.signature?.toList ++ signatures)) :
    Expecting (load thread loaded workspace).2.host.functions signatures ∧
      Embodies script workspace.host.functions [(load thread loaded workspace).1]
        (load thread loaded workspace).2.host.functions := by
  obtain ⟨ready, bodies⟩ := readied_expecting loaded current expecting
  have pass := readied_pass loaded current declares
  rw [load_eq]
  generalize readied loaded workspace = start at *
  obtain ⟨loaded, between⟩ := start
  dsimp only at ready bodies pass ⊢
  have either := load_functions thread loaded.inner (pass.steady.script.trans current)
  have quiet := conclude_quiet .load loaded (loaded.inner.load thread between)
  have same := conclude_structure .load loaded (loaded.inner.load thread between)
  have success := conclude_success .load loaded (loaded.inner.load thread between)
  unfold loadBody
  generalize conclude .load loaded (loaded.inner.load thread between) = concluded at *
  generalize loaded.inner.load thread between = result at *
  obtain ⟨done, after, final⟩ := concluded
  dsimp only at either quiet same success ⊢
  subst same
  have bodiesOf (owner : Script) : between.host.functions.bodiesOf owner =
      workspace.host.functions.bodiesOf owner := by
    rw [FunctionTable.bodiesOf, bodies]
    rfl
  rw [quiet.functions]
  rcases either with ⟨functions, noFunction⟩ |
    ⟨function, signature, items, isFunction, declared, outcome, still, attached⟩
  · rw [functions]
    refine ⟨ready.behind, fun owner => ?_⟩
    have none : loadedFunctions [{ loaded with inner := result.2.1, loaded := done }] = [] := by
      cases done with
      | false => rfl
      | true => simp [loadedFunctions, noFunction (success.mp rfl)]
    rw [none, bodiesOf]
    split <;> rfl
  · have isSignature : loaded.inner.signature? = some signature := by
      rw [Structure.signature?, isFunction]
      exact declared
    rw [isSignature] at ready
    refine ⟨ready.attach attached, fun owner => ?_⟩
    have isDone : done = true := success.mpr outcome
    have one : loadedFunctions [{ loaded with inner := result.2.1, loaded := done }] =
        [function] := by
      simp [loadedFunctions, isDone, still]
    have own : signature.script = script := by
      have declares := pass.declares
      cases inner : loaded.inner with
      | function _ =>
        rw [inner] at declares isFunction
        cases isFunction
        exact declares signature declared
      | _ =>
        rw [inner] at isFunction
        cases isFunction
    rw [one, ← bodiesOf, ← own]
    exact FunctionTable.length_bodiesOf (ready.bare signature List.mem_cons_self) attached owner

/-- Loading structures one after the other. -/
theorem each_embodies (thread : Thread) (structures : List LoadedStructure)
    (current : workspace.context.script = some script)
    (declares : ∀ loaded ∈ structures, loaded.inner.DeclaresIn script)
    (expecting : Expecting workspace.host.functions (signaturesOf structures)) :
    (each (load thread) structures workspace).2.host.functions.BodiesDeclared ∧
      Embodies script workspace.host.functions (each (load thread) structures workspace).1
        (each (load thread) structures workspace).2.host.functions := by
  induction structures generalizing workspace with
  | nil =>
    refine ⟨expecting.declared, fun owner => ?_⟩
    rw [show loadedFunctions (each (load thread) [] workspace).1 = [] from rfl]
    split <;> rfl
  | cons first others ih =>
    rw [signaturesOf_cons] at expecting
    have here := declares first List.mem_cons_self
    obtain ⟨rest, one⟩ := load_embodies thread first current here expecting
    have frame := load_frame thread first current here
    obtain ⟨declared, later⟩ := ih (frame.steady.script.trans current)
      (fun loaded member => declares loaded (List.mem_cons_of_mem _ member)) rest
    exact ⟨declared, one.cons later⟩

/-- A script that is loaded owns one body more for each of its functions that are loaded. -/
theorem loadCurrent_embodies (thread : Thread) (nodes : List Node)
    (makes : registry.MakesOwn Possible) (current : workspace.context.script = some script)
    (declared : workspace.host.functions.BodiesDeclared) :
    (loadCurrent registry thread script nodes workspace).2.host.functions.BodiesDeclared ∧
      Embodies script workspace.host.functions
        (loadCurrent registry thread script nodes workspace).1.structures
        (loadCurrent registry thread script nodes workspace).2.host.functions := by
  obtain ⟨results, perm, declaring⟩ := initialiseAll_declaring nodes makes current
  obtain ⟨headed, samePerm, headers⟩ := initialiseAll_pass nodes makes current
  unfold loadCurrent
  dsimp only
  generalize initialiseAll registry nodes workspace = initialised at *
  obtain ⟨ordered, between⟩ := initialised
  have declares : ∀ loaded ∈ ordered, loaded.inner.DeclaresIn script :=
    fun loaded member => headers.declares loaded (samePerm.mem_iff.mp member)
  have expecting : Expecting between.host.functions (signaturesOf ordered) :=
    (declaring.expecting declared).perm (perm.symm.filterMap _)
  obtain ⟨stillDeclared, bodies⟩ :=
    each_embodies thread ordered (headers.current.trans current) declares expecting
  generalize each (load thread) ordered between = bound at *
  obtain ⟨structures, final⟩ := bound
  obtain ⟨same, quiet⟩ := each_afterLoad structures final
  generalize each afterLoad structures final = mended at *
  obtain ⟨others, last⟩ := mended
  obtain rfl := same
  have functions : last.host.functions = final.host.functions := quiet.functions
  have whole : (last.inContext (·.updateInfo fun info =>
      { info with structures := others.length })).host.functions = final.host.functions := functions
  have unchanged : between.host.functions.bodies = workspace.host.functions.bodies :=
    declaring.bodies
  rw [whole]
  refine ⟨stillDeclared, fun owner => ?_⟩
  rw [bodies owner, FunctionTable.bodiesOf, unchanged]
  rfl

end Loading

end ScriptBinding

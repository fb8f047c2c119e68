import ScriptBinding.Proofs.HostBodies
import ScriptBinding.Proofs.StandardStructures
import ScriptBinding.Session

/-! # Loaded scripts find the functions they call

A body is read when the functions it calls are declared, which may be before they have bodies. While
scripts are loaded, declarations are only added. A load without errors gives every function that it
declares a body, so that no body of the host calls a function without one.
-/

namespace ScriptBinding

open Workspace (Retains Extends)

/-! ## Functions that have no body yet -/

namespace Structure

/-- The signature that a structure has declared. -/
def declared? : Structure → Option Signature
  | function inner => inner.signature
  | _ => none

/-- The structure has declared a function of this name. -/
def Promises (inner : Structure) (name : String) : Prop :=
  ∃ signature, inner.declared? = some signature ∧ signature.name = name

variable {inner : Structure} {workspace : Workspace}

/-- A signature is of one script only, so that a structure that is made for any script has declared
none. -/
theorem declared?_eq_none (declares : ∀ script, inner.DeclaresIn script) :
    inner.declared? = none := by
  cases inner with
  | function function =>
    cases found : function.signature with
    | none => exact found
    | some signature =>
      have first := declares ⟨signature.script.path, signature.script.generation + 1⟩ signature found
      have generation := congrArg Script.generation first
      exact absurd generation (Nat.ne_of_lt (Nat.lt_succ_self _))
  | _ => rfl

theorem init_declared? (header : MatchResult) (body : Section) :
    (inner.init header body workspace).2.1.declared? = inner.declared? := by
  cases inner with
  | function inner =>
    dsimp only [init]
    split
    · next taken =>
      unfold FunctionStructure.init at taken
      split at taken
      · cases taken
        rfl
      · cases taken
    · rfl
  | command inner =>
    dsimp only [init]
    split <;> rfl
  | _ => rfl

theorem init_functions (header : MatchResult) (body : Section) :
    (inner.init header body workspace).2.2.host.functions = workspace.host.functions := by
  by_cases isEvent : ∃ event, inner = .event event
  · obtain ⟨event, rfl⟩ := isEvent
    have answers := event.init_answers header body workspace
    dsimp only [init]
    generalize event.init header body workspace = result at *
    cases answers with
    | nothing _ _ _ restored => exact restored.functions
    | waits _ _ _ _ _ _ _ _ _ _ _ _ _ _ _ restored => exact restored.functions
  · exact (init_still header body workspace inner
      fun event same => isEvent ⟨event, same⟩).functions

/-- What preloading declares, the structure has declared. -/
theorem preload_promises {name : String}
    (declared : (inner.preload workspace).2.2.host.functions.Declares name) :
    workspace.host.functions.Declares name ∨ (inner.preload workspace).2.1.Promises name := by
  have still {after : Workspace} (still : workspace.Still after)
      (declared : after.host.functions.Declares name) : workspace.host.functions.Declares name :=
    still.functions ▸ declared
  cases inner with
  | function inner =>
    dsimp only [preload] at declared ⊢
    rcases inner.preload_cases workspace with ⟨_, same⟩ | ⟨signature, functions, declares, same⟩
    · rw [same] at declared ⊢
      exact Or.inl declared
    · rw [same] at declared ⊢
      unfold FunctionTable.declare at declares
      split at declares
      · cases declares
      · cases declares
        by_cases here : signature.name = name
        · exact Or.inr ⟨signature, rfl, here⟩
        · refine Or.inl ?_
          change (Table.get? (Table.insert _ _ _) name).isSome = true at declared
          rw [Table.get?_insert, if_neg here] at declared
          exact declared
  | options inner => exact Or.inl (still (inner.apply_still workspace) declared)
  | custom inner => exact Or.inl (still (inner.respond_still .preload workspace) declared)
  | aliases => exact Or.inl declared
  | defaults inner => exact Or.inl declared
  | command inner => exact Or.inl declared
  | event inner => exact Or.inl declared

/-- Loading declares nothing, and if it succeeds the function that has been declared has a body. -/
theorem load_promises (thread : Thread) (name : String) :
    ((inner.load thread workspace).2.2.host.functions.Declares name →
        workspace.host.functions.Declares name) ∧
      ((inner.load thread workspace).1 = .done () → inner.Promises name →
        (inner.load thread workspace).2.2.host.functions.HasBody name) := by
  have other {functions : FunctionTable} (same : functions = workspace.host.functions)
      (none : inner.declared? = none) (result : Prop) :
      (functions.Declares name → workspace.host.functions.Declares name) ∧
        (result → inner.Promises name → functions.HasBody name) := by
    refine ⟨same ▸ id, fun _ ⟨_, promised, _⟩ => ?_⟩
    rw [none] at promised
    cases promised
  cases inner with
  | function inner =>
    rcases inner.load_cases workspace with ⟨failure, traces, same⟩ |
      ⟨_, signature, items, _, functions, _, isSignature, _, attached, same⟩
    · dsimp only [load]
      rw [same]
      exact ⟨id, nofun⟩
    · have after := FunctionTable.attach_eq attached
      dsimp only [load]
      rw [same]
      refine ⟨fun declared => ?_, ?_⟩
      · change functions.Declares name at declared
        rw [after] at declared
        exact declared
      · rintro - ⟨promised, found, rfl⟩
        obtain rfl : promised = signature := Option.some.inj (found.symm.trans isSignature)
        change functions.HasBody promised.name
        rw [after, FunctionTable.HasBody, Table.get?_insert_self]
        rfl
  | command inner =>
    refine other ?_ rfl _
    have functions : (inner.load thread workspace).2.host.functions = workspace.host.functions := by
      rcases inner.load_reads thread workspace with ⟨_, _, restored, same⟩ |
        ⟨_, loaded, after, _, _, restored, same⟩
      · rw [same]
        exact restored.functions
      · rw [same]
        exact (CommandStructure.submit_steady thread loaded inner.ticket after).2.trans
          restored.functions
    dsimp only [load]
    generalize inner.load thread workspace = result at *
    obtain ⟨outcome, after⟩ := result
    cases outcome <;> exact functions
  | options inner => exact other (inner.apply_still workspace).functions rfl _
  | custom inner => exact other (inner.respond_still .load workspace).functions rfl _
  | aliases => exact other rfl rfl _
  | defaults inner => exact other rfl rfl _
  | event inner => exact other rfl rfl _

end Structure

namespace Loading

/-- Every declared function has a body, or one of some structures has declared it. -/
def Owes (structures : List LoadedStructure) (functions : FunctionTable) : Prop :=
  ∀ name, functions.Declares name →
    functions.HasBody name ∨ ∃ loaded ∈ structures, loaded.inner.Promises name

/-- Taking headers declares only what the new structures have declared, and these are preloaded by
then. -/
structure Opens (before : Workspace) (results : List LoadedStructure) (after : Workspace) :
    Prop where
  declares : ∀ name, after.host.functions.Declares name →
    before.host.functions.Declares name ∨ ∃ loaded ∈ results, loaded.inner.Promises name
  fresh : ∀ loaded ∈ results, loaded.preloaded = true ∨ loaded.inner.declared? = none

variable {Possible : EventFilter → Prop} {registry : Registry} {workspace : Workspace}

theorem Opens.of_same {before after : Workspace} {results : List LoadedStructure}
    (same : after.host.functions = before.host.functions)
    (fresh : ∀ loaded ∈ results, loaded.inner.declared? = none) : Opens before results after :=
  ⟨fun _ declared => Or.inl (same ▸ declared), fun loaded member => Or.inr (fresh loaded member)⟩

theorem Opens.append {before between after : Workspace} {results others : List LoadedStructure}
    (first : Opens before results between) (second : Opens between others after) :
    Opens before (results ++ others) after := by
  refine ⟨fun name declared => ?_, List.forall_mem_append.mpr ⟨first.fresh, second.fresh⟩⟩
  rcases second.declares name declared with old | ⟨loaded, member, promises⟩
  · refine (first.declares name old).imp_right ?_
    rintro ⟨loaded, member, promises⟩
    exact ⟨loaded, List.mem_append_left _ member, promises⟩
  · exact Or.inr ⟨loaded, List.mem_append_right _ member, promises⟩

/-- A structure that has taken its header has not declared anything yet. -/
theorem initialise_functions {assignment : Assignment}
    (makes : assignment.descriptor.MakesOwn Possible) (workspace : Workspace) :
    (initialise assignment workspace).2.host.functions = workspace.host.functions ∧
      ∀ loaded ∈ (initialise assignment workspace).1, loaded.inner.declared? = none := by
  let inner := assignment.descriptor.create workspace.host.nextTicket
  let ready := inHand assignment workspace
  have functions : (inner.init assignment.header assignment.top.body ready).2.2.host.functions =
      workspace.host.functions := Structure.init_functions _ _
  have undeclared : (inner.init assignment.header assignment.top.body ready).2.1.declared? = none :=
    (Structure.init_declared? _ _).trans (Structure.declared?_eq_none (makes.declares _))
  have taken : takeHeader assignment workspace =
      ((inner.init assignment.header assignment.top.body ready).1,
        (inner.init assignment.header assignment.top.body ready).2.1,
        (inner.init assignment.header assignment.top.body ready).2.2.inContext
          (·.takeInHand none none)) := rfl
  unfold initialise
  rw [taken]
  generalize inner.init assignment.header assignment.top.body ready = result at *
  obtain ⟨outcome, after, final⟩ := result
  simp only at functions undeclared ⊢
  split
  · refine ⟨functions, ?_⟩
    rintro _ ⟨⟩
    exact undeclared
  · exact ⟨functions, fun _ absent => absurd absent (Option.not_mem_none _)⟩
  · exact ⟨functions, fun _ absent => absurd absent (Option.not_mem_none _)⟩

theorem initialise_opens {assignment : Assignment}
    (makes : assignment.descriptor.MakesOwn Possible) (workspace : Workspace) :
    Opens workspace (initialise assignment workspace).1.toList
      (initialise assignment workspace).2 := by
  obtain ⟨functions, undeclared⟩ := initialise_functions makes workspace
  exact .of_same functions fun loaded member => undeclared loaded (Option.mem_toList.mp member)

theorem preload_declares {loaded : LoadedStructure} {name : String}
    (declared : (preload loaded workspace).2.host.functions.Declares name) :
    workspace.host.functions.Declares name ∨
      (preload loaded workspace).1.inner.Promises name := by
  have functions : (preload loaded workspace).2.host.functions =
      (loaded.inner.preload workspace).2.2.host.functions :=
    (conclude_quiet .preload loaded (loaded.inner.preload workspace)).functions
  rw [functions] at declared
  rw [preload_structure]
  exact Structure.preload_promises declared

theorem initialisePreloading_opens {assignment : Assignment}
    (makes : assignment.descriptor.MakesOwn Possible) (workspace : Workspace) :
    Opens workspace (initialisePreloading assignment workspace).1.toList
      (initialisePreloading assignment workspace).2 := by
  obtain ⟨functions, undeclared⟩ := initialise_functions makes workspace
  unfold initialisePreloading
  generalize initialise assignment workspace = result at *
  obtain ⟨_ | loaded, between⟩ := result
  · exact .of_same functions fun _ absent => absurd absent List.not_mem_nil
  · refine ⟨fun name declared => ?_, fun other member => Or.inl ?_⟩
    · refine (preload_declares declared).imp (fun old => functions ▸ old) fun promises => ?_
      exact ⟨_, List.mem_singleton_self _, promises⟩
    · rw [List.mem_singleton.mp member, preload_structure]

theorem initialiseNormal_opens {descriptors : List Descriptor}
    (makes : ∀ descriptor ∈ descriptors, descriptor.MakesOwn Possible) (top : TopSection)
    (workspace : Workspace) :
    Opens workspace (initialiseNormal descriptors top workspace).1.toList
      (initialiseNormal descriptors top workspace).2 := by
  unfold initialiseNormal
  cases found : assign? descriptors top with
  | none =>
    exact .of_same (Workspace.Still.report _ workspace).functions
      fun _ absent => absurd absent List.not_mem_nil
  | some assignment =>
    obtain ⟨⟨descriptor, header⟩, first, rfl⟩ := Option.map_eq_some_iff.mp found
    exact initialise_opens (makes descriptor (first?_mem first)) workspace

theorem each_opens {α : Type} {act : α → Workspace → Option LoadedStructure × Workspace}
    {items : List α}
    (one : ∀ item ∈ items, ∀ before, Opens before (act item before).1.toList (act item before).2)
    (workspace : Workspace) :
    Opens workspace (each act items workspace).1.reduceOption (each act items workspace).2 := by
  induction items generalizing workspace with
  | nil => exact .of_same rfl fun _ absent => absurd absent List.not_mem_nil
  | cons first others ih =>
    have joined : (each act (first :: others) workspace).1.reduceOption =
        (act first workspace).1.toList ++
          (each act others (act first workspace).2).1.reduceOption := by
      change ((act first workspace).1 :: _).reduceOption = _
      cases (act first workspace).1 <;> rfl
    rw [joined]
    exact (one first List.mem_cons_self workspace).append
      (ih (fun item member => one item (List.mem_cons_of_mem _ member)) _)

/-- What a script declares while its headers are taken, its structures have declared. -/
theorem initialiseAll_opens (makes : registry.MakesOwn Possible) (nodes : List Node)
    (workspace : Workspace) :
    Opens workspace (initialiseAll registry nodes workspace).1
      (initialiseAll registry nodes workspace).2 := by
  let claimed := claimAll registry.preloading (topSections 0 nodes)
  let start := reportPlain nodes workspace
  have plain := (reportPlain_still nodes workspace).functions
  have early := each_opens (fun assignment member before => initialisePreloading_opens
    (makes _ (first?_mem (match?_of_claimed registry (topSections 0 nodes) assignment member)))
    before) start
  have late := each_opens (fun top (_ : top ∈ claimed.2) => initialiseNormal_opens
    (fun descriptor member => makes descriptor (List.mem_append_right _ member)) top)
    (each initialisePreloading claimed.1 start).2
  have whole := early.append late
  rw [← List.reduceOption_append] at whole
  have same (loaded : LoadedStructure) :
      loaded ∈ (initialiseAll registry nodes workspace).1 ↔ _ :=
    (List.mergeSort_perm _ before).mem_iff
  refine ⟨fun name declared => ?_, fun loaded member => whole.fresh loaded ((same loaded).mp member)⟩
  refine (whole.declares name declared).imp (fun old => plain ▸ old) ?_
  rintro ⟨loaded, member, promises⟩
  exact ⟨loaded, (same loaded).mpr member, promises⟩

/-! ## Loads without errors -/

/-- A function that is loaded without errors has its body. -/
theorem body_owes {thread : Thread} {loaded : LoadedStructure} {others : List LoadedStructure}
    (owes : Owes (loaded :: others) workspace.host.functions)
    (silent : (conclude .load loaded (loaded.inner.load thread
      workspace)).2.2.context.diagnostics.length ≤ workspace.context.diagnostics.length) :
    Owes others (conclude .load loaded (loaded.inner.load thread workspace)).2.2.host.functions := by
  have remembers := loaded.inner.load_remembers thread workspace
  have kept := (loaded.inner.load_extends thread workspace).hasBody
  have succeeded : (loaded.inner.load thread workspace).1 = .done () := by
    by_contra failed
    have reports := conclude_reports .load loaded _ failed
    exact Nat.lt_irrefl _ (reports.trans_le (silent.trans remembers.length_le))
  rw [(conclude_quiet .load loaded (loaded.inner.load thread workspace)).functions]
  intro name declared
  obtain ⟨old, given⟩ := loaded.inner.load_promises thread name
  rcases owes name (old declared) with has | ⟨promising, member, promises⟩
  · exact Or.inl (kept name has)
  · rcases List.mem_cons.mp member with rfl | later
    · exact Or.inl (given succeeded promises)
    · exact Or.inr ⟨promising, later, promises⟩

theorem load_owes {thread : Thread} {loaded : LoadedStructure} {others : List LoadedStructure}
    (owes : Owes (loaded :: others) workspace.host.functions)
    (fresh : loaded.preloaded = true ∨ loaded.inner.declared? = none)
    (silent : (load thread loaded workspace).2.context.diagnostics.length ≤
      workspace.context.diagnostics.length) :
    Owes others (load thread loaded workspace).2.host.functions := by
  unfold load at silent ⊢
  cases preloaded : loaded.preloaded with
  | true =>
    simp only [preloaded, ↓reduceIte] at silent ⊢
    exact body_owes owes silent
  | false =>
    simp only [preloaded, Bool.false_eq_true, ↓reduceIte, false_or] at silent fresh ⊢
    have remembers := (remembers_carried thread).preloadOne loaded workspace
    have kept := ((extends_carried thread).preloadOne loaded workspace).hasBody
    refine body_owes ?_ (silent.trans remembers.length_le)
    intro name declared
    rcases preload_declares declared with old | promises
    · rcases owes name old with has | ⟨promising, member, promises⟩
      · exact Or.inl (kept name has)
      · rcases List.mem_cons.mp member with rfl | later
        · obtain ⟨signature, found, _⟩ := promises
          rw [fresh] at found
          cases found
        · exact Or.inr ⟨promising, List.mem_cons_of_mem _ later, promises⟩
    · exact Or.inr ⟨_, List.mem_cons_self, promises⟩

theorem each_load_owes (thread : Thread) {structures : List LoadedStructure}
    (owes : Owes structures workspace.host.functions)
    (fresh : ∀ loaded ∈ structures, loaded.preloaded = true ∨ loaded.inner.declared? = none)
    (silent : (each (load thread) structures workspace).2.context.diagnostics.length ≤
      workspace.context.diagnostics.length) :
    Owes [] (each (load thread) structures workspace).2.host.functions := by
  have carried := remembers_carried thread
  induction structures generalizing workspace with
  | nil => exact owes
  | cons first others ih =>
    have one := (carried.loadOne first workspace).length_le
    have rest := (carried.bodies others (load thread first workspace).2).length_le
    refine ih (load_owes owes (fresh first List.mem_cons_self) (rest.trans silent))
      (fun loaded member => fresh loaded (List.mem_cons_of_mem _ member)) (silent.trans one)

/-- A script that is loaded without errors gives every function that it declares a body. -/
theorem loadCurrent_owes {thread : Thread} {script : Script} {nodes : List Node}
    (makes : registry.MakesOwn Possible) (owes : Owes [] workspace.host.functions)
    (noErrors : (loadCurrent registry thread script nodes workspace).1.errors = 0) :
    Owes [] (loadCurrent registry thread script nodes workspace).2.host.functions := by
  have carried := remembers_carried thread
  have opens := initialiseAll_opens makes nodes workspace
  have headers := (carried.initialiseAll registry nodes workspace).length_le
  have keeps := ((extends_carried thread).initialiseAll registry nodes workspace).hasBody
  unfold loadCurrent at noErrors ⊢
  generalize initialiseAll registry nodes workspace = initialised at *
  obtain ⟨structures, between⟩ := initialised
  simp only at opens headers keeps noErrors ⊢
  have bodies := (carried.bodies structures between).length_le
  have started : Owes structures between.host.functions := by
    intro name declared
    rcases opens.declares name declared with old | promised
    · rcases owes name old with has | ⟨_, absent, _⟩
      · exact Or.inl (keeps name has)
      · exact absurd absent List.not_mem_nil
    · exact Or.inr promised
  have loaded := each_load_owes thread started opens.fresh
  generalize each (load thread) structures between = loading at *
  obtain ⟨results, ended⟩ := loading
  simp only at bodies loaded noErrors ⊢
  have mended := (carried.mending results ended).length_le
  have silent := Nat.sub_eq_zero_iff_le.mp noErrors
  have quiet := (each_afterLoad results ended).2.functions
  change Owes [] (each afterLoad results ended).2.host.functions
  rw [quiet]
  exact loaded (mended.trans (silent.trans headers))

/-- Settling takes note of refusals, and leaves bodies and functions alone. -/
theorem settle_retains (thread : Thread) (script : Script) (loaded : LoadedStructure)
    (settlement : Settlement) (workspace : Workspace) :
    workspace.Retains (settle thread script loaded settlement workspace).2.2 := by
  have answered : workspace.Retains (loaded.inner.settle settlement.info workspace).2.2 := by
    cases loaded.inner with
    | command inner =>
      dsimp only [Structure.settle, CommandStructure.settle]
      split
      all_goals
        next taken =>
        obtain ⟨_, rfl⟩ := Prod.mk.inj taken
        refine .of_same ?_ ?_ ?_ ?_ ?_ <;> rfl
    | custom inner => exact .of_still (inner.respond_still .settle workspace)
    | _ => exact .refl workspace
  have noted (call : PhaseCall) := answered.trans (.of_quiet (.noteCall call _))
  unfold settle
  dsimp only
  split
  · split
    · exact noted _
    · exact (noted _).trans ((Retains.setScript thread _ _).trans (.of_still (.reportAt _ _ _)))
  · exact .refl workspace

theorem settleAll_retains (thread : Thread) (script : Script) (structures : List LoadedStructure)
    (settlement : Settlement) (workspace : Workspace) :
    workspace.Retains (settleAll thread script structures settlement workspace).2.2 := by
  induction structures generalizing settlement workspace with
  | nil => exact .refl workspace
  | cons first others ih =>
    exact (settle_retains thread script first settlement workspace).trans (ih _ _)

/-- A script that is settled has all the errors it had before. -/
theorem each_settle_retains (thread : Thread) (scripts : List LoadedScript)
    (workspace : Workspace) :
    workspace.Retains (each (settleScript thread) scripts workspace).2 ∧
      ((∀ settled ∈ (each (settleScript thread) scripts workspace).1, settled.1.errors = 0) →
        ∀ loaded ∈ scripts, loaded.errors = 0) := by
  induction scripts generalizing workspace with
  | nil => exact ⟨.refl workspace, fun _ _ absent => absurd absent List.not_mem_nil⟩
  | cons first others ih =>
    obtain ⟨retains, rest⟩ := ih (settleScript thread first workspace).2
    have one := settleAll_retains thread first.script first.structures ⟨first.info, 0⟩ workspace
    refine ⟨one.trans retains, fun noErrors => List.forall_mem_cons.mpr ⟨?_, ?_⟩⟩
    · exact Nat.eq_zero_of_add_eq_zero_right (noErrors _ List.mem_cons_self)
    · exact rest fun settled member => noErrors settled (List.mem_cons_of_mem _ member)

end Loading

/-! ## Sessions -/

/-- What loading scripts does in a session. -/
structure Session.Adds (before : Session) (scripts : List LoadedScript) (after : Session) :
    Prop where
  registry : after.registry = before.registry
  extends' : before.workspace.Extends after.workspace
  complete : (∀ loaded ∈ scripts, loaded.errors = 0) →
    Loading.Owes [] before.workspace.host.functions → Loading.Owes [] after.workspace.host.functions

namespace Session.Adds

variable {Possible : EventFilter → Prop}

theorem of_retains {before after : Session} {scripts : List LoadedScript}
    (registry : after.registry = before.registry)
    (retains : before.workspace.Retains after.workspace) : Adds before scripts after :=
  ⟨registry, .of_retains retains, fun _ => retains.functions ▸ id⟩

theorem append {first second third : Session} {scripts others : List LoadedScript}
    (before : Adds first scripts second) (after : Adds second others third) :
    Adds first (scripts ++ others) third := by
  refine ⟨after.registry.trans before.registry, before.extends'.trans after.extends', ?_⟩
  intro noErrors complete
  obtain ⟨here, there⟩ := List.forall_mem_append.mp noErrors
  exact after.complete there (before.complete here complete)

theorem retain {before between after : Session} {scripts : List LoadedScript}
    (adds : Adds before scripts between) (registry : after.registry = between.registry)
    (retains : between.workspace.Retains after.workspace) : Adds before scripts after := by
  have whole := adds.append (of_retains registry retains : Adds between [] after)
  rwa [List.append_nil] at whole

theorem load {session : Session} (makes : session.registry.MakesOwn Possible) (thread : Thread)
    (source : ScriptSource) :
    Adds session [(session.load thread source).1] (session.load thread source).2 := by
  let script : Script := ⟨source.path, session.generations.next⟩
  have moves := Retains.setScript thread (some script) session.workspace
  have loads := (Loading.extends_carried thread).loadCurrent session.registry script
    source.tree.nodes (session.workspace.setScript thread (some script))
  refine ⟨rfl, (Extends.of_retains moves).trans loads, fun noErrors complete => ?_⟩
  refine Loading.loadCurrent_owes makes ?_ (noErrors _ List.mem_cons_self)
  rw [moves.functions]
  exact complete

theorem loadEach (thread : Thread) (sources : List ScriptSource) {session : Session}
    (makes : session.registry.MakesOwn Possible) :
    Adds session (session.loadEach thread sources).1 (session.loadEach thread sources).2 := by
  induction sources generalizing session with
  | nil => exact of_retains rfl (.refl session.workspace)
  | cons source others ih =>
    have first := load makes thread source
    exact first.append (ih (first.registry ▸ makes))

theorem loadAll (thread : Thread) (sources : List ScriptSource) {session : Session}
    (makes : session.registry.MakesOwn Possible) :
    Adds session (session.loadAll thread sources).1 (session.loadAll thread sources).2 := by
  have loads := loadEach thread sources makes
  have finishes := Retains.setScript thread none (session.loadEach thread sources).2.workspace
  refine loads.retain rfl (finishes.trans ?_)
  refine .of_same ?_ ?_ ?_ ?_ ?_ <;> rfl

/-- A new context has no bodies. -/
theorem loadOnWorker (sources : List ScriptSource) {session : Session}
    (makes : session.registry.MakesOwn Possible) :
    Adds session (session.loadOnWorker sources).1 (session.loadOnWorker sources).2 := by
  let renewed := session.inWorkspace ({ · with context := .withParts session.parts })
  have renews : Adds session [] renewed := by
    refine of_retains rfl ⟨rfl, fun items runs => ?_⟩
    cases runs with
    | host items runs => exact .host items runs
    | draft draft member =>
      change draft ∈ (Context.withParts session.parts).currentDrafts at member
      rw [(Context.withParts_idle session.parts).2] at member
      exact absurd member List.not_mem_nil
  exact renews.append (loadAll .worker sources makes)

end Session.Adds

/-! ## Runs -/

/-- A session, and the scripts that it has loaded and not unloaded. -/
structure Stage where
  session : Session
  scripts : List LoadedScript := []

namespace Stage

/-- What can be done with a session that unloads nothing. -/
inductive Step where
  | load (thread : Thread) (source : ScriptSource)
  | loadAll (thread : Thread) (sources : List ScriptSource)
  /-- Load scripts on a worker, with a new context. -/
  | loadOnWorker (sources : List ScriptSource)
  /-- Move on to a script, or to none. -/
  | setScript (thread : Thread) (script : Option Script)
  /-- Do the jobs that wait, and settle the scripts. -/
  | runPending (thread : Thread)
  | fire (event : HostEvent)
  | dispatch (label arguments : String)
  | call (function : String) (arguments : List String) (depth : Nat)

/-- A stage without scripts. -/
def start (registry : Registry) (parts : List ContextPart) (host : Host) : Stage where
  session := .start registry parts host

def host (stage : Stage) : Host :=
  stage.session.workspace.host

/-- Let something happen on the host. -/
def inHost (change : Host → Host) (stage : Stage) : Stage :=
  { stage with session := stage.session.inWorkspace (·.inHost change) }

def step (stage : Stage) : Step → Stage
  | .load thread source =>
    let (loaded, session) := stage.session.load thread source
    ⟨session, stage.scripts ++ [loaded]⟩
  | .loadAll thread sources =>
    let (scripts, session) := stage.session.loadAll thread sources
    ⟨session, stage.scripts ++ scripts⟩
  | .loadOnWorker sources =>
    let (scripts, session) := stage.session.loadOnWorker sources
    ⟨session, stage.scripts ++ scripts⟩
  | .setScript thread script =>
    { stage with session := stage.session.setScript thread script }
  | .runPending thread =>
    let ((_, scripts), session) := stage.session.runPending thread stage.scripts
    ⟨session, scripts⟩
  | .fire event => stage.inHost fun host => (host.fire event).2.2
  | .dispatch label arguments => stage.inHost fun host => (host.dispatch label arguments).2
  | .call function arguments depth =>
    stage.inHost fun host => (host.call function arguments depth).2

def run (steps : List Step) (stage : Stage) : Stage :=
  steps.foldl step stage

/-- Bodies call only declared functions, and without errors every declared function has a body. -/
structure Checked (stage : Stage) : Prop where
  builtIn : stage.session.registry.BuiltIn
  resolved : stage.session.workspace.Resolved
  complete : (∀ loaded ∈ stage.scripts, loaded.errors = 0) → Loading.Owes [] stage.host.functions

variable {stage : Stage}

theorem Checked.add (checked : stage.Checked) {scripts : List LoadedScript} {session : Session}
    (adds : stage.session.Adds scripts session) : Checked ⟨session, stage.scripts ++ scripts⟩ where
  builtIn := adds.registry ▸ checked.builtIn
  resolved := adds.extends'.resolved checked.resolved
  complete := by
    intro noErrors
    obtain ⟨here, there⟩ := List.forall_mem_append.mp noErrors
    exact adds.complete there (checked.complete here)

theorem Checked.retain (checked : stage.Checked) {after : Stage}
    (registry : after.session.registry = stage.session.registry)
    (retains : stage.session.workspace.Retains after.session.workspace)
    (errors : (∀ loaded ∈ after.scripts, loaded.errors = 0) →
      ∀ loaded ∈ stage.scripts, loaded.errors = 0) : after.Checked where
  builtIn := registry ▸ checked.builtIn
  resolved := (Extends.of_retains retains).resolved checked.resolved
  complete := by
    intro noErrors
    change Loading.Owes [] after.session.workspace.host.functions
    rw [retains.functions]
    exact checked.complete (errors noErrors)

theorem Checked.step (checked : stage.Checked) (step : Step) : (stage.step step).Checked := by
  have makes := checked.builtIn.makesOwn
  cases step with
  | load thread source => exact checked.add (.load makes thread source)
  | loadAll thread sources => exact checked.add (.loadAll thread sources makes)
  | loadOnWorker sources => exact checked.add (.loadOnWorker sources makes)
  | setScript thread script =>
    exact checked.retain rfl (.setScript thread script stage.session.workspace) id
  | runPending thread =>
    let drained := stage.session.workspace.inHost fun host => (host.runPending thread).2
    obtain ⟨settles, errors⟩ := Loading.each_settle_retains thread stage.scripts drained
    have finished := ((Retains.runPending thread stage.session.workspace).trans settles).trans
      (.setScript thread none (Loading.each (Loading.settleScript thread) stage.scripts drained).2)
    refine checked.retain rfl (finished.trans ?_) fun noErrors => errors fun settled member => ?_
    · refine .of_same ?_ ?_ ?_ ?_ ?_ <;> rfl
    · exact noErrors settled.1 (List.mem_map_of_mem member)
  | fire event =>
    refine checked.retain rfl (.of_same ?_ ?_ ?_ ?_ ?_) id <;> rfl
  | dispatch label arguments =>
    refine checked.retain rfl (.of_same ?_ ?_ ?_ ?_ ?_) id <;> rfl
  | call function arguments depth =>
    refine checked.retain rfl (.of_same ?_ ?_ ?_ ?_ ?_) id <;> rfl

theorem Checked.run (checked : stage.Checked) (steps : List Step) : (stage.run steps).Checked := by
  induction steps generalizing stage with
  | nil => exact checked
  | cons first others ih => exact ih (checked.step first)

theorem Checked.closed (checked : stage.Checked)
    (noErrors : ∀ loaded ∈ stage.scripts, loaded.errors = 0) : stage.host.functions.Closed where
  bodies := fun name declared => (checked.complete noErrors name declared).resolve_right
    fun ⟨_, absent, _⟩ => absurd absent List.not_mem_nil
  resolved := fun name function found => checked.resolved _ (.host _ (.function name function found))

theorem execute_findsBodies {environment : Environment} {trigger : Trigger}
    (finds : ∀ state, FindsBodies (environment.run trigger.items 0 state).1) (state : RunState) :
    FindsBodies (trigger.execute environment state).1 := by
  unfold Trigger.execute
  split
  · exact (finds state).map _
  · exact .ok false

/-- An entry of the log that tells of another failure than that a function has no body. -/
def TellsOther (entry : LogEntry) : Prop :=
  ∃ (trigger : Trigger) (failure : Failure), entry = trigger.failureEntry failure ∧
    ∀ name, failure ≠ .notLoaded name

/-- What is logged while an event is fired are other failures of the bodies that are subscribed. -/
theorem fire_tellsOther {environment : Environment} {bus : EventBus} (state : RunState)
    (bodies : ∀ subscription ∈ bus.subscriptions, ∀ state,
      FindsBodies (environment.run subscription.trigger.items 0 state).1) :
    ∀ entry ∈ (bus.fire environment state).log, TellsOther entry := by
  have shown (dispatch : EventBus.Dispatch) {trigger : Trigger}
      (finds : ∀ state, FindsBodies (environment.run trigger.items 0 state).1)
      (before : ∀ entry ∈ dispatch.log, TellsOther entry) :
      ∀ entry ∈ (dispatch.show environment trigger).log, TellsOther entry := by
    have executed := execute_findsBodies finds dispatch.state
    unfold EventBus.Dispatch.show
    split
    · exact before
    · exact before
    · next failure after failed =>
      rw [failed] at executed
      refine List.forall_mem_append.mpr ⟨before, List.forall_mem_singleton.mpr ?_⟩
      exact ⟨trigger, failure, rfl, fun name same => executed name (congrArg Except.error same)⟩
  have listens : ∀ subscription ∈ bus.listeners state.event.eventClass,
      subscription ∈ bus.subscriptions := fun subscription member =>
    (List.mem_filter.mp ((List.mergeSort_perm _ _).mem_iff.mp member)).1
  have folded (listeners : List Subscription) (dispatch : EventBus.Dispatch)
      (subscribed : ∀ subscription ∈ listeners, subscription ∈ bus.subscriptions)
      (before : ∀ entry ∈ dispatch.log, TellsOther entry) :
      ∀ entry ∈ (listeners.foldl (fun dispatch subscription =>
        dispatch.show environment subscription.trigger) dispatch).log, TellsOther entry := by
    induction listeners generalizing dispatch with
    | nil => exact before
    | cons first others ih =>
      obtain ⟨here, there⟩ := List.forall_mem_cons.mp subscribed
      exact ih _ there (shown dispatch (bodies first here) before)
  exact folded _ { state } listens fun _ absent => absurd absent List.not_mem_nil

theorem dispatch_findsBodies {host : Host} (label arguments : String)
    (bodies : ∀ name command, host.commands.commands.get? name = some command →
      ∀ state, FindsBodies (host.environment.run command.items 0 state).1) :
    FindsBodies (host.dispatch label arguments).1 := by
  unfold Host.dispatch CommandTable.dispatch
  dsimp only
  split
  · exact .ok false
  · next command found =>
    obtain ⟨name, _, registered⟩ := Option.bind_eq_some_iff.mp found
    exact (bodies name command registered _).map _

/-- **Calls are checked when scripts are loaded.** On a host without functions, whose bodies call
none, scripts are loaded with built-in structures (as the standard ones are) and without errors, and
jobs, events, commands and calls are run between. At any point no body that the host holds, or that
waits to be bound, runs into a function without a body, and neither does an event that is fired, a
command that is dispatched or a declared function that is called. -/
theorem calls_find_bodies (registry : Registry) (builtIn : registry.BuiltIn)
    (parts : List ContextPart) (host : Host) (functionless : host.functions = {})
    (callless : ∀ items, host.MayRun items → Item.callees.calleesAll items = [])
    (steps : List Step) :
    let stage := (start registry parts host).run steps
    (∀ loaded ∈ stage.scripts, loaded.errors = 0) →
      (∀ items, stage.session.workspace.MayRun items → ∀ depth state,
        FindsBodies (stage.host.environment.run items depth state).1) ∧
      (∀ event, ∀ entry ∈
          (stage.host.bus.fire stage.host.environment ⟨event, stage.host.effects⟩).log,
        TellsOther entry) ∧
      (∀ label arguments, FindsBodies (stage.host.dispatch label arguments).1) ∧
      ∀ name, stage.host.functions.Declares name → ∀ arguments depth,
        FindsBodies (stage.host.call name arguments depth).1 := by
  intro stage noErrors
  have none (name : String) : ¬ host.functions.Declares name := by
    rw [functionless]
    exact fun declared => by cases declared
  have begins : (start registry parts host).Checked := by
    refine ⟨builtIn, fun items runs name calls => ?_, fun _ name declared => ?_⟩
    · cases runs with
      | host items runs =>
        rw [callless items runs] at calls
        exact absurd calls List.not_mem_nil
      | draft draft member =>
        change draft ∈ (Context.withParts parts).currentDrafts at member
        rw [(Context.withParts_idle parts).2] at member
        exact absurd member List.not_mem_nil
    · exact absurd declared (none name)
  have checked : stage.Checked := begins.run steps
  have closed := checked.closed noErrors
  have bodies (items : List Item) (runs : stage.session.workspace.MayRun items) :=
    closed.run_findsBodies stage.host.sink stage.host.config.maxCallDepth
      (checked.resolved items runs)
  refine ⟨bodies, fun event => ?_, fun label arguments => ?_, fun name declared arguments depth => ?_⟩
  · exact fire_tellsOther _ fun subscription member =>
      bodies _ (.host _ (.subscribed subscription member)) 0
  · exact dispatch_findsBodies label arguments fun name command found =>
      bodies _ (.host _ (.command name command found)) 0
  · exact closed.call_findsBodies stage.host.sink _ declared arguments stage.host.effects

/-! ## A function that calls itself -/

/-- A registry of functions alone. -/
def functionRegistry : Registry :=
  (Registry.register "function" (some 20) (fun _ => .function {}) ["function <.+>"]
    {}).toOption.getD {}

theorem functionRegistry_builtIn : functionRegistry.BuiltIn := by
  rintro ⟨info, create⟩ member
  unfold functionRegistry at member
  generalize registers : Registry.register "function" (some 20) (fun _ => .function {})
    ["function <.+>"] {} = result at member
  cases result with
  | error failure => exact absurd member List.not_mem_nil
  | ok registry =>
    rcases Registry.mem_register registers member with ⟨rfl, noEvent⟩ | absent
    · exact (Descriptor.Standard.function info noEvent).builtIn
    · exact absurd absent List.not_mem_nil

/-- A script whose function calls itself. -/
def loopSource : ScriptSource :=
  ⟨⟨"loop.sk"⟩, ⟨"", 0, [.nested "function loop()" 1 [.simple "loop()" 2]]⟩⟩

/-- The script has become current on a new host. -/
def loopStart : Workspace :=
  (Workspace.mk {} (.withParts [])).setScript .main (some ⟨⟨"loop.sk"⟩, 1⟩)

/-- The script has been loaded. -/
def loopStage : Stage :=
  (start functionRegistry [] {}).run [.load .main loopSource]

theorem loopStage_loads :
    (∀ loaded ∈ loopStage.scripts, loaded.errors = 0) ∧
      loopStage.host.functions.Declares "loop" := by
  let nodes := loopSource.tree.nodes
  let claimed := Loading.claimAll functionRegistry.preloading (Loading.topSections 0 nodes)
  have loads (registry : Registry) : (start registry [] {}).run [.load .main loopSource] =
      let result := Loading.loadCurrent registry .main ⟨⟨"loop.sk"⟩, 1⟩ nodes loopStart
      ⟨⟨registry, [], ({} : GenerationCounter).take.2, result.2⟩, [result.1]⟩ := rfl
  let preloading := Loading.each Loading.initialisePreloading claimed.1
    (Loading.reportPlain nodes loopStart)
  let others := Loading.each (Loading.initialiseNormal functionRegistry.normal) claimed.2
    preloading.2
  have sorted : (preloading.1 ++ others.1).reduceOption.Pairwise
      (fun first second => Loading.before first second) := by
    decide +kernel
  -- The sort is taken out of what remains to be computed.
  have taken := Loading.initialiseAll_of_sorted sorted
  unfold Stage.host loopStage
  rw [loads]
  unfold Loading.loadCurrent
  rw [taken, List.forall_mem_singleton]
  unfold FunctionTable.Declares
  decide +kernel

theorem loop_finds_body :
    loopStage.host.functions.Declares "loop" ∧
      ∀ arguments depth, FindsBodies (loopStage.host.call "loop" arguments depth).1 := by
  obtain ⟨noErrors, declared⟩ := loopStage_loads
  exact ⟨declared, (calls_find_bodies functionRegistry functionRegistry_builtIn [] {} rfl
    (fun _ runs => absurd runs Host.not_mayRun_new) [.load .main loopSource] noErrors).2.2.2
    "loop" declared⟩

end Stage

end ScriptBinding

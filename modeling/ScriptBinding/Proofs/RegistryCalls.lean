import ScriptBinding.Proofs.Claiming
import ScriptBinding.Proofs.FailureLines
import ScriptBinding.Proofs.Jobs

/-! # What calls leave in a registry

A call registers its descriptor if every pattern of it compiles and no descriptor has its id yet;
any other call leaves the registry as it was. So whatever is called, a registry holds the first
descriptor that compiles for each id: the preloading ones in the order they give, and those of one
order, like all the others, in the order of the calls.
-/

namespace ScriptBinding

namespace Registry

/-! ## The order of preloading descriptors -/

/-- The first descriptor does not come behind the second one. -/
def noLater (a b : Descriptor) : Bool :=
  decide (a.order.getD 0 ≤ b.order.getD 0)

theorem noLater_trans (a b c : Descriptor) (first : noLater a b = true)
    (second : noLater b c = true) : noLater a c = true := by
  simp only [noLater, decide_eq_true_eq] at *
  exact Int.le_trans first second

theorem noLater_total (a b : Descriptor) : (noLater a b || noLater b a) = true := by
  simp only [noLater, Bool.or_eq_true, decide_eq_true_eq]
  exact Int.le_total _ _

/-- Numbered descriptors that are ranked are in the order of a stable sort. -/
theorem zipIdxLE_of_ranked {a b : Descriptor × Nat} (before : ranked a b) :
    List.zipIdxLE noLater a b = true := by
  simp only [ranked] at before
  have first : noLater a.1 b.1 = true := decide_eq_true (by omega)
  rw [List.zipIdxLE, if_pos first]
  split
  · next second =>
    have level := of_decide_eq_true second
    exact decide_eq_true (by omega)
  · rfl

/-- What comes before and behind of one another has one number. -/
theorem number_eq_of_zipIdxLE {a b : Descriptor × Nat} (one : List.zipIdxLE noLater a b = true)
    (two : List.zipIdxLE noLater b a = true) : a.2 = b.2 := by
  unfold List.zipIdxLE at one two
  split at one
  · next first =>
    split at one
    · next second =>
      rw [if_pos second, if_pos first] at two
      exact Nat.le_antisymm (of_decide_eq_true one) (of_decide_eq_true two)
    · next second =>
      rw [if_neg second] at two
      cases two
  · cases one

/-- The preloading descriptors are those that give an order, sorted by it and otherwise as they
were registered. -/
theorem ofList_preloading (descriptors : List Descriptor) : (ofList descriptors).preloading =
    (descriptors.filter (·.order.isSome)).mergeSort noLater := by
  obtain ⟨-, numbered, preloading⟩ := ofList_numbered descriptors
  have sorted := List.pairwise_mergeSort (List.zipIdxLE_trans noLater_trans)
    (List.zipIdxLE_total noLater_total) descriptors.zipIdx
  have mem_iff (entry : Descriptor × Nat) : entry ∈ numbered.entries ↔
      entry ∈ (descriptors.zipIdx.mergeSort (List.zipIdxLE noLater)).filter
        (·.1.order.isSome) := by
    rw [numbered.mem_iff, List.mem_filter, List.mem_mergeSort, List.mem_zipIdx_iff_getElem?]
  have once : numbered.entries.Nodup := by
    refine numbered.sorted.imp fun before same => ?_
    simp only [ranked, same] at before
    omega
  have numbers : descriptors.zipIdx.Nodup := by
    refine List.Nodup.of_map Prod.snd ?_
    rw [List.zipIdx_map_snd]
    exact List.nodup_range'
  -- Both lists hold the numbered descriptors that have an order, and are sorted by it and then by
  -- the numbers, so they are the same.
  have entries : numbered.entries =
      (descriptors.zipIdx.mergeSort (List.zipIdxLE noLater)).filter (·.1.order.isSome) := by
    refine List.Perm.eq_of_pairwise (fun a b here there one two => ?_)
      (numbered.sorted.imp zipIdxLE_of_ranked) (sorted.filter _) ?_
    · have level := number_eq_of_zipIdxLE one two
      have first := ((numbered.mem_iff a.1 a.2).mp here).1
      have second := ((numbered.mem_iff b.1 b.2).mp ((mem_iff b).mpr there)).1
      rw [level, second] at first
      exact Prod.ext (Option.some.inj first).symm level
    · refine (List.perm_ext_iff_of_nodup once ?_).mpr mem_iff
      exact ((List.mergeSort_perm _ _).nodup_iff.mpr numbers).filter _
  have whole : (descriptors.zipIdx.mergeSort (List.zipIdxLE noLater)).map Prod.fst =
      descriptors.mergeSort noLater := List.mergeSort_zipIdx
  rw [preloading, entries, ← EventBus.filter_mergeSort noLater_trans noLater_total, ← whole,
    List.filter_map]
  rfl

/-- A registry has the descriptors that were registered. -/
theorem perm_ofList (descriptors : List Descriptor) :
    (ofList descriptors).all.Perm descriptors := by
  have others : descriptors.filter (·.order.isNone) =
      descriptors.filter fun descriptor => !descriptor.order.isSome := by
    simp only [Option.not_isSome]
  rw [all, ofList_preloading, (ofList_numbered descriptors).1, others]
  exact ((List.mergeSort_perm _ _).append_right _).trans (List.filter_append_perm _ _)

theorem contains_ofList (descriptors : List Descriptor) (id : String) :
    (ofList descriptors).contains id = descriptors.any (·.id == id) :=
  (perm_ofList descriptors).any_eq

/-! ## One descriptor for each id -/

/-- The first descriptor of each id. -/
def firstOfEach : List Descriptor → List Descriptor
  | [] => []
  | descriptor :: others =>
    descriptor :: (firstOfEach others).filter (·.id != descriptor.id)

theorem firstOfEach_sublist (descriptors : List Descriptor) :
    (firstOfEach descriptors).Sublist descriptors := by
  induction descriptors with
  | nil => exact List.Sublist.slnil
  | cons descriptor others ih => exact (List.filter_sublist.trans ih).cons_cons _

/-- One more descriptor counts if no other has its id. -/
theorem firstOfEach_concat (descriptors : List Descriptor) (last : Descriptor) :
    firstOfEach (descriptors ++ [last]) =
      if descriptors.any (·.id == last.id) then firstOfEach descriptors
      else firstOfEach descriptors ++ [last] := by
  induction descriptors with
  | nil => rfl
  | cons descriptor others ih =>
    rw [List.cons_append, firstOfEach, ih, firstOfEach, List.any_cons]
    by_cases same : descriptor.id = last.id
    · have dropped : [last].filter (·.id != descriptor.id) = [] := by simp [same]
      rw [beq_iff_eq.mpr same, Bool.true_or, if_pos rfl]
      split
      · rfl
      · rw [List.filter_append, dropped, List.append_nil]
    · have kept : [last].filter (·.id != descriptor.id) = [last] := by simp [Ne.symm same]
      rw [beq_false_of_ne same, Bool.false_or]
      split
      · rfl
      · rw [List.filter_append, kept, List.cons_append]

theorem nodup_firstOfEach (descriptors : List Descriptor) :
    ((firstOfEach descriptors).map (·.id)).Nodup := by
  induction descriptors with
  | nil => exact List.nodup_nil
  | cons descriptor others ih =>
    rw [firstOfEach, List.map_cons, List.nodup_cons]
    refine ⟨fun member => ?_, ih.sublist (List.filter_sublist.map _)⟩
    obtain ⟨other, kept, same⟩ := List.mem_map.mp member
    exact bne_iff_ne.mp (List.mem_filter.mp kept).2 same

/-- The first descriptor of an id is found under it. -/
theorem find?_firstOfEach (descriptors : List Descriptor) (id : String) :
    (firstOfEach descriptors).find? (·.id == id) = descriptors.find? (·.id == id) := by
  induction descriptors with
  | nil => rfl
  | cons descriptor others ih =>
    rw [firstOfEach, List.find?_cons, List.find?_cons]
    cases same : descriptor.id == id with
    | true => rfl
    | false =>
      have both : (fun other : Descriptor =>
          decide ((other.id != descriptor.id) = true ∧ (other.id == id) = true)) =
          fun other => other.id == id := by
        funext other
        by_cases here : other.id = id
        · simp [here, Ne.symm (ne_of_beq_false same)]
        · simp [here]
      rw [List.find?_filter, ← ih, both]

theorem find?_eq_some_iff_mem {descriptors : List Descriptor} {descriptor : Descriptor}
    {id : String} (distinct : (descriptors.map (·.id)).Nodup) :
    descriptors.find? (·.id == id) = some descriptor ↔
      descriptor ∈ descriptors ∧ descriptor.id = id := by
  constructor
  · intro found
    have named := List.find?_some found
    exact ⟨List.mem_of_find?_eq_some found, beq_iff_eq.mp named⟩
  · rintro ⟨member, rfl⟩
    cases found : descriptors.find? (·.id == descriptor.id) with
    | none => exact absurd (beq_self_eq_true _) (List.find?_eq_none.mp found _ member)
    | some other =>
      have named := List.find?_some found
      have there := List.mem_of_find?_eq_some found
      exact congrArg some
        (List.inj_on_of_nodup_map distinct there member (beq_iff_eq.mp named))

/-- Where no id is there twice, the order does not matter for what is found under one. -/
theorem find?_of_perm {descriptors others : List Descriptor} (perm : descriptors.Perm others)
    (distinct : (descriptors.map (·.id)).Nodup) (id : String) :
    descriptors.find? (·.id == id) = others.find? (·.id == id) := by
  have otherDistinct := (perm.map (·.id)).nodup_iff.mp distinct
  refine Option.ext fun descriptor => ?_
  rw [find?_eq_some_iff_mem distinct, find?_eq_some_iff_mem otherDistinct, perm.mem_iff]

end Registry

/-! ## Calls -/

/-- A call that registers something. -/
inductive RegistryCall where
  /-- Structures, which are preloading if they have an order. -/
  | structures (id : String) (order : Option Int) (create : Nat → Structure)
      (patterns : List String)
  /-- An event. -/
  | event (name : String) (classes : List String) (filter : EventFilter) (patterns : List String)

namespace RegistryCall

/-- The id that a call asks for. -/
def id : RegistryCall → String
  | structures id _ _ _ => id
  | event name _ _ _ => Registry.eventId name

/-- The descriptor that a call offers, if its patterns compile. -/
def descriptor : RegistryCall → Except PatternError Descriptor
  | structures id order create sources =>
    (Pattern.compileAll sources).map fun patterns =>
      { id, order, patterns, event := none, create }
  | event name classes filter sources =>
    (Pattern.compileAll (sources.map Registry.eventPattern)).map fun patterns =>
      { id := Registry.eventId name
        order := none
        patterns
        event := some ⟨name, classes.map EventClass.of⟩
        create := fun ticket => .event { ticket, unused := some filter } }

/-- The descriptors that calls offer, in the order of the calls. -/
def offered (calls : List RegistryCall) : List Descriptor :=
  calls.filterMap fun call => call.descriptor.toOption

/-- The descriptors that calls register: the first one that is offered for each id. -/
def accepted (calls : List RegistryCall) : List Descriptor :=
  Registry.firstOfEach (offered calls)

variable {call : RegistryCall} {offer : Descriptor}

theorem mem_offered {calls : List RegistryCall} :
    offer ∈ offered calls ↔ ∃ call ∈ calls, call.descriptor = .ok offer := by
  have only (call : RegistryCall) :
      call.descriptor.toOption = some offer ↔ call.descriptor = .ok offer := by
    cases call.descriptor <;> simp [Except.toOption]
  simp only [offered, List.mem_filterMap, only]

theorem id_of_descriptor (offers : call.descriptor = .ok offer) : offer.id = call.id := by
  cases call with
  | structures id order create sources =>
    obtain ⟨patterns, -, rfl⟩ := eq_ok_of_map offers
    rfl
  | event name classes filter sources =>
    obtain ⟨patterns, -, rfl⟩ := eq_ok_of_map offers
    rfl

/-- The id of an event is made of its name. -/
theorem id_of_event (offers : call.descriptor = .ok offer) {info : EventInfo}
    (isEvent : offer.event = some info) : offer.id = Registry.eventId info.name := by
  cases call with
  | structures id order create sources =>
    obtain ⟨patterns, -, rfl⟩ := eq_ok_of_map offers
    cases isEvent
  | event name classes filter sources =>
    obtain ⟨patterns, -, rfl⟩ := eq_ok_of_map offers
    cases isEvent
    rfl

end RegistryCall

namespace Registry

open RegistryCall (accepted offered)

/-- Make a call. One that fails leaves the registry as it was. -/
def perform (call : RegistryCall) (registry : Registry) : Except PatternError Unit × Registry :=
  let result := match call with
    | .structures id order create patterns => registry.register id order create patterns
    | .event name classes filter patterns => registry.registerEvent name classes filter patterns
  match result with
  | .ok after => (.ok (), after)
  | .error error => (.error error, registry)

/-- Make calls one after the other. -/
def performAll (calls : List RegistryCall) (registry : Registry) : Registry :=
  calls.foldl (fun registry call => (registry.perform call).2) registry

/-- A call whose id is free adds what it offers. -/
theorem perform_eq (call : RegistryCall) (registry : Registry) :
    registry.perform call =
      if registry.contains call.id then (.ok (), registry)
      else
        match call.descriptor with
        | .error error => (.error error, registry)
        | .ok descriptor => (.ok (), registry.add descriptor) := by
  by_cases taken : registry.contains call.id = true
  · rw [if_pos taken]
    cases call <;>
      simp only [RegistryCall.id] at taken <;>
      simp only [perform, register, registerEvent, if_pos taken]
  · rw [if_neg taken]
    cases call with
    | structures id order create sources =>
      simp only [RegistryCall.id] at taken
      simp only [perform, register, if_neg taken, RegistryCall.descriptor]
      cases Pattern.compileAll sources <;> rfl
    | event name classes filter sources =>
      simp only [RegistryCall.id] at taken
      simp only [perform, registerEvent, if_neg taken, RegistryCall.descriptor]
      cases Pattern.compileAll (sources.map eventPattern) <;> rfl

/-- Calls leave the registry of the descriptors that they register. -/
theorem performAll_eq (calls : List RegistryCall) :
    performAll calls {} = ofList (accepted calls) := by
  induction calls using List.reverseRecOn with
  | nil => rfl
  | append_singleton calls last ih =>
    have step : performAll (calls ++ [last]) {} = ((performAll calls {}).perform last).2 := by
      rw [performAll, List.foldl_append]
      rfl
    -- An id is taken if it has been offered, whichever of its descriptors was registered.
    have known (id : String) : (ofList (accepted calls)).contains id =
        (offered calls).any (·.id == id) := by
      rw [contains_ofList, ← List.isSome_find?, accepted, find?_firstOfEach, List.isSome_find?]
    rw [step, ih, perform_eq, known]
    unfold accepted offered
    rw [List.filterMap_append, List.filterMap_cons, List.filterMap_nil]
    cases offers : last.descriptor with
    | error error =>
      rw [Except.toOption, List.append_nil]
      split <;> rfl
    | ok descriptor =>
      rw [Except.toOption]
      dsimp only
      rw [firstOfEach_concat, RegistryCall.id_of_descriptor offers]
      split
      · rfl
      · rw [ofList, ofList, List.foldl_append]
        rfl

/-- What a registry is behind calls. -/
structure Records (calls : List RegistryCall) (registry : Registry) : Prop where
  /-- The preloading descriptors are sorted by their order, and otherwise stand as registered. -/
  preloading : registry.preloading =
    ((accepted calls).filter (·.order.isSome)).mergeSort noLater
  /-- The others stand as registered, those of events among them. -/
  normal : registry.normal = (accepted calls).filter (·.order.isNone)
  /-- No id is there twice. -/
  distinct : (registry.all.map (·.id)).Nodup
  /-- No event is there twice, whatever the case of its name. -/
  events : registry.all.Pairwise fun a b =>
    ∀ one ∈ a.event, ∀ other ∈ b.event, Text.lower one.name ≠ Text.lower other.name
  /-- The first descriptor that compiles for an id is the one that is registered. -/
  first : ∀ id, registry.all.find? (·.id == id) = (offered calls).find? (·.id == id)
  /-- A further call fails exactly if its id is free and one of its patterns does not compile. -/
  refused : ∀ call error, (registry.perform call).1 = .error error ↔
    registry.contains call.id = false ∧ call.descriptor = .error error
  /-- Such a call leaves the registry as it was, and so does one whose id is taken. -/
  unchanged : ∀ call, registry.contains call.id = true ∨
    (∃ error, call.descriptor = .error error) → (registry.perform call).2 = registry

/-- **Registries are well formed.** Whatever calls are made, they leave the descriptors that are
accepted, each where it belongs. -/
theorem performAll_records (calls : List RegistryCall) :
    Records calls (performAll calls {}) := by
  have perm := perm_ofList (accepted calls)
  have distinct := ((perm.map (·.id)).nodup_iff).mpr (nodup_firstOfEach (offered calls))
  rw [performAll_eq]
  refine ⟨ofList_preloading _, (ofList_numbered _).1, distinct, ?_, fun id => ?_,
    fun call error => ?_, fun call => ?_⟩
  · have named (descriptor : Descriptor) (member : descriptor ∈ (ofList (accepted calls)).all)
        (info : EventInfo) (isEvent : info ∈ descriptor.event) :
        descriptor.id = eventId info.name := by
      have offer := (firstOfEach_sublist _).subset (perm.mem_iff.mp member)
      obtain ⟨call, -, offers⟩ := RegistryCall.mem_offered.mp offer
      exact RegistryCall.id_of_event offers isEvent
    refine (List.pairwise_map.mp distinct).imp_of_mem fun here there apart => ?_
    intro one isOne other isOther same
    rw [named _ here one isOne, named _ there other isOther, eventId, eventId, same] at apart
    exact apart rfl
  · rw [find?_of_perm perm distinct, accepted, find?_firstOfEach]
  · rw [perform_eq]
    split
    · next taken => simp [taken]
    · next free =>
      rw [Bool.not_eq_true] at free
      cases call.descriptor <;> simp [free]
  · rw [perform_eq]
    rintro (taken | ⟨error, fails⟩)
    · rw [if_pos taken]
    · rw [fails]
      split <;> rfl

/-- Of two descriptors of one order the one that was registered first stays first. -/
example :
    let call (id : String) (order : Option Int) (source : String) : RegistryCall :=
      .structures id order (fun _ => .aliases) [source]
    ((performAll [call "late" (some 20) "late", call "plain" none "plain",
      call "early" (some 10) "early", call "later" (some 20) "later", call "open" none "(open",
      call "early" none "again"] {}).all.map (·.id)) = ["early", "late", "later", "plain"] := by
  decide +kernel

end Registry

end ScriptBinding

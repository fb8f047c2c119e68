import ScriptBinding.Proofs.ArgumentBinding

/-! # Composition of bodies

Running two bodies in a row is running the first and then, if that came to its end, the second. A
block is its header, and its items in its place if the host accepts it. What ends a body, a return
or a failed call, ends it from inside any number of blocks, with the state at that point; no
further. A call leaves the event of its caller alone, and all that it leaves behind is the texts
that its own body hands to the host.
-/

namespace ScriptBinding

namespace Item

variable {sink : Sink} {caller : Caller}

/-- Go on behind what came to its end. -/
def andThen (ended : Except Failure Flow × RunState)
    (next : RunState → Except Failure Flow × RunState) : Except Failure Flow × RunState :=
  match ended with
  | (.ok .finished, after) => next after
  | ended => ended

theorem andThen_of_ended {ended : Except Failure Flow} {after : RunState}
    (next : RunState → Except Failure Flow × RunState) (unfinished : ended ≠ .ok .finished) :
    andThen (ended, after) next = (ended, after) := by
  unfold andThen
  split
  · next same =>
    cases same
    exact absurd rfl unfinished
  · rfl

theorem andThen_assoc (ended : Except Failure Flow × RunState)
    (next last : RunState → Except Failure Flow × RunState) :
    andThen (andThen ended next) last = andThen ended fun state => andThen (next state) last := by
  obtain ⟨flow, after⟩ := ended
  by_cases finished : flow = .ok .finished
  · rw [finished]
    rfl
  · rw [andThen_of_ended _ finished, andThen_of_ended _ finished, andThen_of_ended _ finished]

theorem runAll_cons (item : Item) (others : List Item) (state : RunState) :
    run.runAll sink caller (item :: others) state =
      andThen (run sink caller item state) (run.runAll sink caller others) := by
  rw [run.runAll]
  rfl

theorem runAll_append (first second : List Item) (state : RunState) :
    run.runAll sink caller (first ++ second) state =
      andThen (run.runAll sink caller first state) (run.runAll sink caller second) := by
  induction first generalizing state with
  | nil => rfl
  | cons item others ih =>
    rw [List.cons_append, runAll_cons, runAll_cons, andThen_assoc]
    exact congrArg _ (funext ih)

theorem runAll_block (header : String) (line : Nat) (items others : List Item)
    (state : RunState) :
    run.runAll sink caller (.block header line items :: others) state =
      let (accepted, after) := state.perform sink (state.event.expand header)
      if accepted then run.runAll sink caller (items ++ others) after
      else run.runAll sink caller others after := by
  rw [runAll_cons, run]
  cases state.perform sink (state.event.expand header) with
  | mk accepted after =>
    cases accepted with
    | false => rfl
    | true => exact (runAll_append items others after).symm

/-! ## What ends a body -/

/-- Running items comes to an item, among them or inside their blocks, in the given state. -/
inductive ComesTo (sink : Sink) (caller : Caller) :
    List Item → RunState → Item → RunState → Prop
  | here {item : Item} {others : List Item} {state : RunState} :
      ComesTo sink caller (item :: others) state item state
  | later {first item : Item} {others : List Item} {state after inner : RunState}
      (ended : run sink caller first state = (.ok .finished, after))
      (rest : ComesTo sink caller others after item inner) :
      ComesTo sink caller (first :: others) state item inner
  | inside {header : String} {line : Nat} {items others : List Item} {item : Item}
      {state after inner : RunState}
      (accepted : state.perform sink (state.event.expand header) = (true, after))
      (body : ComesTo sink caller items after item inner) :
      ComesTo sink caller (.block header line items :: others) state item inner

theorem run_block_of_accepted {header : String} {line : Nat} {items : List Item}
    {state after : RunState}
    (accepted : state.perform sink (state.event.expand header) = (true, after)) :
    run sink caller (.block header line items) state = run.runAll sink caller items after := by
  rw [run, accepted]
  rfl

/-- An item that does not come to its end ends the body. -/
theorem ComesTo.runAll_eq {items : List Item} {item : Item} {state inner after : RunState}
    {ended : Except Failure Flow} (comes : ComesTo sink caller items state item inner)
    (ends : run sink caller item inner = (ended, after)) (unfinished : ended ≠ .ok .finished) :
    run.runAll sink caller items state = (ended, after) := by
  induction comes with
  | here => rw [runAll_cons, ends, andThen_of_ended _ unfinished]
  | later finished _ ih =>
    rw [runAll_cons, finished]
    exact ih ends
  | inside accepted _ ih =>
    rw [runAll_cons, run_block_of_accepted accepted, ih ends, andThen_of_ended _ unfinished]

/-- The item is a block. -/
def isBlock : Item → Bool
  | block _ _ _ => true
  | _ => false

mutual

/-- Where an item does not come to its end, one in it that is no block does not. -/
theorem exists_comesTo_of_run {item : Item} {state after : RunState} {ended : Except Failure Flow}
    (ends : run sink caller item state = (ended, after)) (unfinished : ended ≠ .ok .finished)
    (others : List Item) :
    ∃ last inner, last.isBlock = false ∧ ComesTo sink caller (item :: others) state last inner ∧
      run sink caller last inner = (ended, after) := by
  match item with
  | .effect text line | .answer value line | .call name arguments line =>
    exact ⟨_, state, rfl, .here, ends⟩
  | .block header line items =>
    cases heard : state.perform sink (state.event.expand header) with
    | mk accepted middle =>
      cases accepted with
      | false =>
        rw [run, heard] at ends
        cases ends
        exact absurd rfl unfinished
      | true =>
        rw [run_block_of_accepted heard] at ends
        obtain ⟨last, inner, leaf, comes, same⟩ := exists_comesTo ends unfinished
        exact ⟨last, inner, leaf, .inside heard comes, same⟩

/-- Where a body does not come to its end, one of its items that is no block does not. -/
theorem exists_comesTo {items : List Item} {state after : RunState} {ended : Except Failure Flow}
    (ends : run.runAll sink caller items state = (ended, after))
    (unfinished : ended ≠ .ok .finished) :
    ∃ last inner, last.isBlock = false ∧ ComesTo sink caller items state last inner ∧
      run sink caller last inner = (ended, after) := by
  match items with
  | [] =>
    cases ends
    exact absurd rfl unfinished
  | item :: others =>
    rw [runAll_cons] at ends
    cases first : run sink caller item state with
    | mk flow middle =>
      rw [first] at ends
      by_cases finished : flow = .ok .finished
      · rw [finished] at ends first
        have rest : run.runAll sink caller others middle = (ended, after) := ends
        obtain ⟨last, inner, leaf, comes, same⟩ := exists_comesTo rest unfinished
        exact ⟨last, inner, leaf, .later first comes, same⟩
      · rw [andThen_of_ended _ finished] at ends
        exact exists_comesTo_of_run (first.trans ends) unfinished others

end

theorem run_call (name : String) (arguments : List String) (line : Nat) (state : RunState) :
    run sink caller (.call name arguments line) state =
      match caller name (arguments.map state.event.expand) state.effects with
      | (.ok _, effects) => (.ok .finished, { state with effects })
      | (.error failure, effects) => (.error failure, { state with effects }) := by
  rw [run]
  cases caller name (arguments.map state.event.expand) state.effects with
  | mk result effects => cases result <;> rfl

/-- What does not come to its end, and is no block, is a return or a call that fails. -/
theorem eq_answer_or_eq_call {last : Item} {inner after : RunState}
    {ended : Except Failure Flow} (leaf : last.isBlock = false)
    (ends : run sink caller last inner = (ended, after)) (unfinished : ended ≠ .ok .finished) :
    (∃ written line, last = .answer written line ∧
      ended = .ok (.answered (written.map inner.event.expand)) ∧ after = inner) ∨
    ∃ name arguments line failure effects, last = .call name arguments line ∧
      caller name (arguments.map inner.event.expand) inner.effects = (.error failure, effects) ∧
      ended = .error failure ∧ after = { inner with effects } := by
  cases last with
  | effect text line =>
    rw [run] at ends
    cases ends
    exact absurd rfl unfinished
  | answer written line =>
    rw [run] at ends
    cases ends
    exact .inl ⟨written, line, rfl, rfl, rfl⟩
  | call name arguments line =>
    rw [run_call] at ends
    split at ends
    · cases ends
      exact absurd rfl unfinished
    · next failure effects called =>
      cases ends
      exact .inr ⟨name, arguments, line, failure, effects, rfl, called, rfl, rfl⟩
  | block header line items => cases leaf

/-- A body is left with a result exactly where it comes to a return. -/
theorem runAll_answered_iff {items : List Item} {state after : RunState} {value : Option String} :
    run.runAll sink caller items state = (.ok (.answered value), after) ↔
      ∃ written line, ComesTo sink caller items state (.answer written line) after ∧
        written.map after.event.expand = value := by
  constructor
  · intro ends
    obtain ⟨last, inner, leaf, comes, same⟩ := exists_comesTo ends nofun
    obtain ⟨written, line, rfl, value, rfl⟩ | ⟨_, _, _, _, _, _, _, failed, _⟩ :=
      eq_answer_or_eq_call leaf same nofun
    · cases value
      exact ⟨written, line, comes, rfl⟩
    · cases failed
  · rintro ⟨written, line, comes, rfl⟩
    exact comes.runAll_eq (by rw [run]) nofun

/-- A body fails exactly where it comes to a call that fails. -/
theorem runAll_failed_iff {items : List Item} {state after : RunState} {failure : Failure} :
    run.runAll sink caller items state = (.error failure, after) ↔
      ∃ name arguments line inner,
        ComesTo sink caller items state (.call name arguments line) inner ∧
        caller name (arguments.map inner.event.expand) inner.effects =
          (.error failure, after.effects) ∧ after.event = inner.event := by
  constructor
  · intro ends
    obtain ⟨last, inner, leaf, comes, same⟩ := exists_comesTo ends nofun
    obtain ⟨_, _, _, answered, _⟩ | ⟨name, arguments, line, _, effects, rfl, called, failed, rfl⟩ :=
      eq_answer_or_eq_call leaf same nofun
    · cases answered
    · cases failed
      exact ⟨name, arguments, line, inner, comes, called, rfl⟩
  · rintro ⟨name, arguments, line, inner, comes, called, sameEvent⟩
    refine comes.runAll_eq ?_ nofun
    rw [run_call, called, ← sameEvent]

end Item

/-! ## What a run leaves behind -/

/-- The state behind earlier effects. -/
def RunState.behind (earlier : List String) (state : RunState) : RunState :=
  { state with effects := earlier ++ state.effects }

@[simp] theorem RunState.event_behind (earlier : List String) (state : RunState) :
    (state.behind earlier).event = state.event := rfl

/-- What a call does depends on the effects before it in nothing but that it keeps them. -/
def Caller.Appends (caller : Caller) : Prop :=
  ∀ name arguments earlier effects, caller name arguments (earlier ++ effects) =
    ((caller name arguments effects).1, earlier ++ (caller name arguments effects).2)

namespace Item

variable {sink : Sink} {caller : Caller}

theorem perform_behind (sink : Sink) (text : String) (earlier : List String) (state : RunState) :
    (state.behind earlier).perform sink text =
      ((state.perform sink text).1, (state.perform sink text).2.behind earlier) := by
  simp only [RunState.perform, RunState.behind, List.append_assoc]

theorem effect_behind (sink : Sink) (text : String) (earlier : List String) (state : RunState) :
    (state.behind earlier).effect sink text = (state.effect sink text).behind earlier := by
  unfold RunState.effect
  split
  · rfl
  · split
    · rfl
    · rw [perform_behind]

mutual

theorem run_behind (appends : caller.Appends) (item : Item) (earlier : List String)
    (state : RunState) :
    run sink caller item (state.behind earlier) =
      ((run sink caller item state).1, (run sink caller item state).2.behind earlier) := by
  match item with
  | .effect text line => rw [run, run, effect_behind]; rfl
  | .answer value line => rw [run, run]; rfl
  | .call name arguments line =>
    have called := appends name (arguments.map state.event.expand) earlier state.effects
    rw [run, run]
    simp only [RunState.behind, called]
  | .block header line items =>
    rw [run, run, RunState.event_behind, perform_behind]
    dsimp only
    split
    · exact runAll_behind appends items earlier _
    · rfl

theorem runAll_behind (appends : caller.Appends) (items : List Item) (earlier : List String)
    (state : RunState) :
    run.runAll sink caller items (state.behind earlier) =
      ((run.runAll sink caller items state).1,
        (run.runAll sink caller items state).2.behind earlier) := by
  match items with
  | [] => rfl
  | item :: others =>
    rw [runAll_cons, runAll_cons, run_behind appends]
    cases run sink caller item state with
    | mk flow after =>
      by_cases finished : flow = .ok .finished
      · rw [finished]
        exact runAll_behind appends others earlier after
      · rw [andThen_of_ended _ finished, andThen_of_ended _ finished]

end

end Item

theorem FunctionTable.call_appends (functions : FunctionTable) (sink : Sink) (levels : Nat) :
    Caller.Appends (functions.call sink levels) := by
  induction levels with
  | zero => exact fun _ _ _ _ => rfl
  | succ levels ih =>
    intro name arguments earlier effects
    cases found : functions.bodies.get? name with
    | none => rw [call_of_free found, call_of_free found]
    | some function =>
      cases bound : function.event name arguments with
      | error failure => rw [call_of_unbound found bound, call_of_unbound found bound]
      | ok event =>
        rw [call_of_bound found bound, call_of_bound found bound]
        have body : Item.run.runAll sink (functions.call sink levels) function.items
            ⟨event, earlier ++ effects⟩ = _ :=
          Item.runAll_behind ih function.items earlier ⟨event, effects⟩
        rw [body]
        rfl

namespace Environment

variable {environment : Environment}

/-- What a call runs: the function with this name, on an event with the arguments. -/
def entry (environment : Environment) (depth : Nat) (name : String) (arguments : List String) :
    Except Failure (Function × HostEvent) :=
  if depth < environment.maxDepth then
    match environment.functions.bodies.get? name with
    | none => .error (.notLoaded name)
    | some function => (function.event name arguments).map fun event => (function, event)
  else .error .stackOverflow

theorem entry_eq_ok {depth : Nat} {name : String} {arguments : List String} {function : Function}
    {event : HostEvent} :
    environment.entry depth name arguments = .ok (function, event) ↔
      depth < environment.maxDepth ∧ environment.functions.bodies.get? name = some function ∧
        function.event name arguments = .ok event := by
  unfold entry
  by_cases room : depth < environment.maxDepth
  · rw [if_pos room]
    cases found : environment.functions.bodies.get? name with
    | none => simp
    | some other =>
      cases bound : other.event name arguments with
      | error failure =>
        simp only [bound, Except.map, reduceCtorEq, Option.some.injEq, false_iff]
        rintro ⟨-, rfl, binds⟩
        cases bound.symm.trans binds
      | ok own =>
        simp only [bound, Except.map, room, true_and, Except.ok.injEq, Prod.mk.injEq,
          Option.some.injEq]
        constructor
        · rintro ⟨rfl, rfl⟩
          exact ⟨rfl, bound⟩
        · rintro ⟨rfl, binds⟩
          exact ⟨rfl, Except.ok.inj (bound.symm.trans binds)⟩
  · rw [if_neg room]
    simp [room]

/-- A call runs the body of the function on an event of its own. -/
theorem call_eq (depth : Nat) (name : String) (arguments effects : List String) :
    environment.call depth name arguments effects =
      match environment.entry depth name arguments with
      | .error failure => (.error failure, effects)
      | .ok (function, event) =>
        let (flow, state) := environment.run function.items (depth + 1) ⟨event, effects⟩
        (flow.map Flow.result, state.effects) := by
  by_cases room : depth < environment.maxDepth
  · have levels : environment.maxDepth - depth = environment.maxDepth - (depth + 1) + 1 := by omega
    rw [entry, if_pos room]
    cases found : environment.functions.bodies.get? name with
    | none => rw [call, levels, FunctionTable.call_of_free found]
    | some function =>
      cases bound : function.event name arguments with
      | error failure =>
        rw [call, levels, FunctionTable.call_of_unbound found bound]
        simp only [bound, Except.map]
      | ok event =>
        rw [call_of_bound found bound room effects]
        simp only [bound, Except.map]
  · rw [entry, if_neg room, call, Nat.sub_eq_zero_of_le (Nat.le_of_not_lt room)]
    rfl

/-- A call adds to the effects before it what it does without them. -/
theorem call_appends (depth : Nat) (name : String) (arguments effects : List String) :
    environment.call depth name arguments effects =
      ((environment.call depth name arguments []).1,
        effects ++ (environment.call depth name arguments []).2) := by
  have appended := environment.functions.call_appends environment.sink
    (environment.maxDepth - depth) name arguments effects []
  rw [List.append_nil] at appended
  exact appended

/-- How bodies, and what stands in them, are put together. -/
structure Compositional (environment : Environment) : Prop where
  /-- Two bodies in a row are the first, and the second if the first came to its end. -/
  append : ∀ (depth : Nat) (first second : List Item) (state : RunState),
    environment.run (first ++ second) depth state =
      match environment.run first depth state with
      | (.ok .finished, after) => environment.run second depth after
      | ended => ended
  /-- A block is its header, and its items in its place if the host accepts the header. -/
  block : ∀ (depth : Nat) (header : String) (line : Nat) (items others : List Item)
      (state : RunState),
    environment.run (.block header line items :: others) depth state =
      let (accepted, after) := state.perform environment.sink (state.event.expand header)
      if accepted then environment.run (items ++ others) depth after
      else environment.run others depth after
  /-- A body ends with a result where it comes to a return, in the state at that point. -/
  answered : ∀ (depth : Nat) (items : List Item) (state after : RunState) (value : Option String),
    environment.run items depth state = (.ok (.answered value), after) ↔
      ∃ written line,
        Item.ComesTo environment.sink (environment.call depth) items state
          (.answer written line) after ∧
        written.map after.event.expand = value
  /-- A body fails where it comes to a call that fails, in the state behind that call. -/
  failed : ∀ (depth : Nat) (items : List Item) (state after : RunState) (failure : Failure),
    environment.run items depth state = (.error failure, after) ↔
      ∃ name arguments line inner,
        Item.ComesTo environment.sink (environment.call depth) items state
          (.call name arguments line) inner ∧
        environment.call depth name (arguments.map inner.event.expand) inner.effects =
          (.error failure, after.effects) ∧
        after.event = inner.event
  /-- A call keeps the event, and puts its own effects behind those before it. -/
  call : ∀ (depth : Nat) (name : String) (arguments : List String) (line : Nat)
      (others : List Item) (state : RunState),
    environment.run (.call name arguments line :: others) depth state =
      let (result, effects) := environment.call depth name (arguments.map state.event.expand) []
      let after := ⟨state.event, state.effects ++ effects⟩
      match result with
      | .ok _ => environment.run others depth after
      | .error failure => (.error failure, after)
  /-- The effects of a call are those of the body it runs. -/
  callee : ∀ (depth : Nat) (name : String) (arguments : List String),
    environment.call depth name arguments [] =
      match environment.entry depth name arguments with
      | .error failure => (.error failure, [])
      | .ok (function, event) =>
        let (flow, state) := environment.run function.items (depth + 1) ⟨event, []⟩
        (flow.map Flow.result, state.effects)

/-- **Bodies compose.** -/
theorem compositional (environment : Environment) : environment.Compositional where
  append := fun _ => Item.runAll_append
  block := fun _ => Item.runAll_block
  answered := fun _ _ _ _ _ => Item.runAll_answered_iff
  failed := fun _ _ _ _ _ => Item.runAll_failed_iff
  call := by
    intro depth name arguments line others state
    rw [run, Item.runAll_cons, Item.run_call, call_appends]
    cases environment.call depth name (arguments.map state.event.expand) [] with
    | mk result effects => cases result <;> rfl
  callee := fun depth name arguments => call_eq depth name arguments []

end Environment

end ScriptBinding

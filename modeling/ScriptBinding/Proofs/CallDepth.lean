import Mathlib.Logic.ExistsUnique
import Mathlib.Tactic.ByContra
import ScriptBinding.Proofs.BodyCalls

/-! # Depth of calls

A call is refused when too many others have not ended yet. Bodies are described here by rules that
count how deep they run and look at the limit for that only; what follows from the rules is that
every body ends, that none runs below the limit, and that a limit which is not met changes nothing.
-/

namespace ScriptBinding

/-- A body that runs for a call, and how deep it runs. -/
structure BodyEntry where
  function : String
  depth : Nat

/-- What a call comes to: the bodies that ran for it, its result, and the effects after it. -/
structure CallOutcome where
  entered : List BodyEntry
  result : Except Failure (Option String)
  effects : List String

/-- What a body comes to: the bodies that ran for its calls, how it ended, and the state after it.
-/
structure BodyOutcome where
  entered : List BodyEntry
  ended : Except Failure Flow
  after : RunState

/-! ## What a call does -/

namespace FunctionTable

variable {functions : FunctionTable} {name : String} {function : Function}
  {arguments : List String}

/-- A call without an argument that it needs fails. -/
theorem call_of_unbound {failure : Failure} (found : functions.bodies.get? name = some function)
    (unbound : function.event name arguments = .error failure) (sink : Sink) (remaining : Nat)
    (effects : List String) :
    functions.call sink (remaining + 1) name arguments effects = (.error failure, effects) := by
  simp only [call, found, unbound]

/-- A call whose arguments are bound runs the body with one level less. -/
theorem call_of_bound {event : HostEvent} (found : functions.bodies.get? name = some function)
    (bound : function.event name arguments = .ok event) (sink : Sink) (remaining : Nat)
    (effects : List String) :
    functions.call sink (remaining + 1) name arguments effects =
      let (flow, state) :=
        Item.run.runAll sink (functions.call sink remaining) function.items ⟨event, effects⟩
      (flow.map Flow.result, state.effects) := by
  simp only [call, found, bound]

end FunctionTable

namespace Environment

variable (environment : Environment)

mutual

/-- A call from the given depth ends, and comes to this. -/
inductive Calls : Nat → String → List String → List String → CallOutcome → Prop
  | overflows {depth : Nat} {name : String} {arguments effects : List String}
      (full : environment.maxDepth ≤ depth) :
      Calls depth name arguments effects ⟨[], .error .stackOverflow, effects⟩
  | unknown {depth : Nat} {name : String} {arguments effects : List String}
      (room : depth < environment.maxDepth)
      (free : environment.functions.bodies.get? name = none) :
      Calls depth name arguments effects ⟨[], .error (.notLoaded name), effects⟩
  | unbound {depth : Nat} {name : String} {arguments effects : List String}
      {function : Function} {failure : Failure}
      (room : depth < environment.maxDepth)
      (found : environment.functions.bodies.get? name = some function)
      (bound : function.event name arguments = .error failure) :
      Calls depth name arguments effects ⟨[], .error failure, effects⟩
  | enters {depth : Nat} {name : String} {arguments effects : List String}
      {function : Function} {event : HostEvent} {outcome : BodyOutcome}
      (room : depth < environment.maxDepth)
      (found : environment.functions.bodies.get? name = some function)
      (bound : function.event name arguments = .ok event)
      (body : Runs (depth + 1) function.items ⟨event, effects⟩ outcome) :
      Calls depth name arguments effects ⟨⟨name, depth + 1⟩ :: outcome.entered,
        outcome.ended.map Flow.result, outcome.after.effects⟩

/-- A body that runs at the given depth ends, and comes to this. -/
inductive Runs : Nat → List Item → RunState → BodyOutcome → Prop
  | nil {depth : Nat} {state : RunState} : Runs depth [] state ⟨[], .ok .finished, state⟩
  | effect {depth : Nat} {text : String} {line : Nat} {others : List Item} {state : RunState}
      {outcome : BodyOutcome}
      (rest : Runs depth others (state.effect environment.sink (state.event.expand text)) outcome) :
      Runs depth (.effect text line :: others) state outcome
  | answer {depth : Nat} {value : Option String} {line : Nat} {others : List Item}
      {state : RunState} :
      Runs depth (.answer value line :: others) state
        ⟨[], .ok (.answered (value.map state.event.expand)), state⟩
  | call {depth : Nat} {name : String} {arguments : List String} {line : Nat}
      {others : List Item} {state : RunState} {entered : List BodyEntry} {value : Option String}
      {effects : List String} {outcome : BodyOutcome}
      (called : Calls depth name (arguments.map state.event.expand) state.effects
        ⟨entered, .ok value, effects⟩)
      (rest : Runs depth others { state with effects } outcome) :
      Runs depth (.call name arguments line :: others) state
        ⟨entered ++ outcome.entered, outcome.ended, outcome.after⟩
  | failedCall {depth : Nat} {name : String} {arguments : List String} {line : Nat}
      {others : List Item} {state : RunState} {entered : List BodyEntry} {failure : Failure}
      {effects : List String}
      (called : Calls depth name (arguments.map state.event.expand) state.effects
        ⟨entered, .error failure, effects⟩) :
      Runs depth (.call name arguments line :: others) state
        ⟨entered, .error failure, { state with effects }⟩
  | refusedBlock {depth : Nat} {header : String} {line : Nat} {items others : List Item}
      {state inner : RunState} {outcome : BodyOutcome}
      (refused : state.perform environment.sink (state.event.expand header) = (false, inner))
      (rest : Runs depth others inner outcome) :
      Runs depth (.block header line items :: others) state outcome
  | block {depth : Nat} {header : String} {line : Nat} {items others : List Item}
      {state inner middle : RunState} {entered : List BodyEntry} {outcome : BodyOutcome}
      (accepted : state.perform environment.sink (state.event.expand header) = (true, inner))
      (body : Runs depth items inner ⟨entered, .ok .finished, middle⟩)
      (rest : Runs depth others middle outcome) :
      Runs depth (.block header line items :: others) state
        ⟨entered ++ outcome.entered, outcome.ended, outcome.after⟩
  | leftBlock {depth : Nat} {header : String} {line : Nat} {items others : List Item}
      {state inner : RunState} {outcome : BodyOutcome}
      (accepted : state.perform environment.sink (state.event.expand header) = (true, inner))
      (body : Runs depth items inner outcome)
      (left : outcome.ended ≠ .ok .finished) :
      Runs depth (.block header line items :: others) state outcome

end

variable {environment}

/-! ## One outcome -/

mutual

theorem Calls.unique {depth : Nat} {name : String} {arguments effects : List String}
    {first second : CallOutcome} (one : environment.Calls depth name arguments effects first)
    (other : environment.Calls depth name arguments effects second) : first = second := by
  match one with
  | .overflows full =>
    cases other with
    | overflows => rfl
    | unknown room | unbound room | enters room => omega
  | .unknown room free =>
    cases other with
    | overflows full => omega
    | unknown => rfl
    | unbound _ found | enters _ found => cases free.symm.trans found
  | .unbound room found bound =>
    cases other with
    | overflows full => omega
    | unknown _ free => cases free.symm.trans found
    | unbound _ again refused =>
      cases found.symm.trans again
      cases bound.symm.trans refused
      rfl
    | enters _ again accepted =>
      cases found.symm.trans again
      cases bound.symm.trans accepted
  | .enters room found bound body =>
    cases other with
    | overflows full => omega
    | unknown _ free => cases free.symm.trans found
    | unbound _ again refused =>
      cases found.symm.trans again
      cases bound.symm.trans refused
    | enters _ again accepted inside =>
      cases found.symm.trans again
      cases bound.symm.trans accepted
      rw [body.unique inside]

theorem Runs.unique {depth : Nat} {items : List Item} {state : RunState}
    {first second : BodyOutcome} (one : environment.Runs depth items state first)
    (other : environment.Runs depth items state second) : first = second := by
  match one with
  | .nil => cases other; rfl
  | .effect rest =>
    cases other with
    | effect again => exact rest.unique again
  | .answer => cases other; rfl
  | .call called rest =>
    cases other with
    | call calledAgain again =>
      cases called.unique calledAgain
      rw [rest.unique again]
    | failedCall calledAgain => cases called.unique calledAgain
  | .failedCall called =>
    cases other with
    | call calledAgain => cases called.unique calledAgain
    | failedCall calledAgain => cases called.unique calledAgain; rfl
  | .refusedBlock refused rest =>
    cases other with
    | refusedBlock same again =>
      cases refused.symm.trans same
      exact rest.unique again
    | block accepted | leftBlock accepted => cases refused.symm.trans accepted
  | .block accepted body rest =>
    cases other with
    | refusedBlock refused => cases refused.symm.trans accepted
    | block same inside again =>
      cases accepted.symm.trans same
      cases body.unique inside
      rw [rest.unique again]
    | leftBlock same inside left =>
      cases accepted.symm.trans same
      cases body.unique inside
      exact absurd rfl left
  | .leftBlock accepted body left =>
    cases other with
    | refusedBlock refused => cases refused.symm.trans accepted
    | block same inside =>
      cases accepted.symm.trans same
      cases body.unique inside
      exact absurd rfl left
    | leftBlock same inside =>
      cases accepted.symm.trans same
      exact body.unique inside

end

/-! ## Bodies that run stay within the limit -/

mutual

theorem Calls.within {depth : Nat} {name : String} {arguments effects : List String}
    {outcome : CallOutcome} (calls : environment.Calls depth name arguments effects outcome) :
    ∀ entry ∈ outcome.entered, depth < entry.depth ∧ entry.depth ≤ environment.maxDepth := by
  match calls with
  | .overflows _ | .unknown _ _ | .unbound _ _ _ =>
    exact fun _ absent => absurd absent List.not_mem_nil
  | .enters room _ _ body =>
    refine List.forall_mem_cons.mpr ⟨⟨Nat.lt_succ_self depth, room⟩, fun entry inside => ?_⟩
    exact (body.within entry inside).imp_left (Nat.lt_trans (Nat.lt_succ_self depth))

theorem Runs.within {depth : Nat} {items : List Item} {state : RunState} {outcome : BodyOutcome}
    (runs : environment.Runs depth items state outcome) :
    ∀ entry ∈ outcome.entered, depth < entry.depth ∧ entry.depth ≤ environment.maxDepth := by
  match runs with
  | .nil | .answer => exact fun _ absent => absurd absent List.not_mem_nil
  | .effect rest | .refusedBlock _ rest => exact rest.within
  | .call called rest => exact List.forall_mem_append.mpr ⟨called.within, rest.within⟩
  | .failedCall called => exact called.within
  | .block _ body rest => exact List.forall_mem_append.mpr ⟨body.within, rest.within⟩
  | .leftBlock _ body _ => exact body.within

end

/-! ## Every body ends -/

/-- Once the calls it makes end, a body ends, and it comes to what running it gives. -/
theorem Runs.of_calls {depth : Nat}
    (called : ∀ name arguments effects, ∃ entered,
      environment.Calls depth name arguments effects
        ⟨entered, (environment.call depth name arguments effects).1,
          (environment.call depth name arguments effects).2⟩)
    (items : List Item) (state : RunState) :
    ∃ entered, environment.Runs depth items state
      ⟨entered, (environment.run items depth state).1, (environment.run items depth state).2⟩ := by
  match items with
  | [] => exact ⟨[], .nil⟩
  | .effect text line :: others =>
    obtain ⟨entered, rest⟩ := of_calls called others
      (state.effect environment.sink (state.event.expand text))
    exact ⟨entered, .effect rest⟩
  | .answer value line :: others => exact ⟨[], .answer⟩
  | .call name arguments line :: others =>
    obtain ⟨entered, first⟩ := called name (arguments.map state.event.expand) state.effects
    simp only [run, Item.run.runAll, Item.run]
    cases answer : environment.call depth name (arguments.map state.event.expand)
      state.effects with
    | mk result effects =>
      rw [answer] at first
      cases result with
      | error failure => exact ⟨entered, .failedCall first⟩
      | ok value =>
        obtain ⟨later, rest⟩ := of_calls called others { state with effects }
        exact ⟨entered ++ later, .call first rest⟩
  | .block header line items :: others =>
    simp only [run, Item.run.runAll, Item.run]
    cases heard : state.perform environment.sink (state.event.expand header) with
    | mk accepted inner =>
      cases accepted with
      | false =>
        obtain ⟨entered, rest⟩ := of_calls called others inner
        exact ⟨entered, .refusedBlock heard rest⟩
      | true =>
        obtain ⟨entered, body⟩ := of_calls called items inner
        rw [run] at body
        simp only [↓reduceIte]
        split
        · next middle ended =>
          rw [ended] at body
          obtain ⟨later, rest⟩ := of_calls called others middle
          exact ⟨entered ++ later, .block heard body rest⟩
        · next left =>
          exact ⟨entered, .leftBlock heard body fun ended => left _ (Prod.ext ended rfl)⟩

/-- A call ends, and comes to what calling gives. -/
theorem Calls.of_call (depth : Nat) (name : String) (arguments effects : List String) :
    ∃ entered, environment.Calls depth name arguments effects
      ⟨entered, (environment.call depth name arguments effects).1,
        (environment.call depth name arguments effects).2⟩ := by
  -- The levels that remain decrease from a call to the calls of its body.
  induction levels : environment.maxDepth - depth generalizing depth name arguments effects with
  | zero =>
    have full : environment.maxDepth ≤ depth := Nat.le_of_sub_eq_zero levels
    rw [call, levels]
    exact ⟨[], .overflows full⟩
  | succ remaining ih =>
    have room : depth < environment.maxDepth := by omega
    have fewer : environment.maxDepth - (depth + 1) = remaining := by omega
    rw [call, levels]
    cases found : environment.functions.bodies.get? name with
    | none =>
      rw [FunctionTable.call_of_free found]
      exact ⟨[], .unknown room found⟩
    | some function =>
      cases bound : function.event name arguments with
      | error failure =>
        rw [FunctionTable.call_of_unbound found bound]
        exact ⟨[], .unbound room found bound⟩
      | ok event =>
        obtain ⟨entered, body⟩ := Runs.of_calls
          (fun name arguments effects => ih (depth + 1) name arguments effects fewer)
          function.items ⟨event, effects⟩
        rw [FunctionTable.call_of_bound found bound, ← fewer]
        exact ⟨⟨name, depth + 1⟩ :: entered, .enters room found bound body⟩

/-- A body ends, and comes to what running it gives. -/
theorem Runs.of_run (items : List Item) (depth : Nat) (state : RunState) :
    ∃ entered, environment.Runs depth items state
      ⟨entered, (environment.run items depth state).1, (environment.run items depth state).2⟩ :=
  Runs.of_calls (Calls.of_call depth) items state

end Environment

/-! ## Larger limits -/

/-- The second caller does what the first does, unless that runs out of levels. -/
def Caller.Continues (caller other : Caller) : Prop :=
  ∀ name arguments effects, (caller name arguments effects).1 ≠ .error .stackOverflow →
    other name arguments effects = caller name arguments effects

namespace Item

variable {sink : Sink} {caller other : Caller}

mutual

theorem run_of_continues (continues : caller.Continues other) (item : Item) (state : RunState)
    (enough : (run sink caller item state).1 ≠ .error .stackOverflow) :
    run sink other item state = run sink caller item state := by
  match item with
  | .effect text line => rfl
  | .answer value line => rfl
  | .call name arguments line =>
    have called := continues name (arguments.map state.event.expand) state.effects
    unfold run at enough ⊢
    rw [called]
    intro overflow
    simp only [overflow] at enough
    exact enough rfl
  | .block header line items =>
    unfold run at enough ⊢
    dsimp only at enough ⊢
    split at enough
    · next accepted =>
      rw [if_pos accepted, if_pos accepted]
      exact runAll_of_continues continues items _ enough
    · next refused => rw [if_neg refused, if_neg refused]

theorem runAll_of_continues (continues : caller.Continues other) (items : List Item)
    (state : RunState)
    (enough : (run.runAll sink caller items state).1 ≠ .error .stackOverflow) :
    run.runAll sink other items state = run.runAll sink caller items state := by
  match items with
  | [] => rfl
  | item :: others =>
    unfold run.runAll at enough ⊢
    have first : (run sink caller item state).1 ≠ .error .stackOverflow →
        run sink other item state = run sink caller item state :=
      run_of_continues continues item state
    cases ended : run sink caller item state with
    | mk flow after =>
      rw [ended] at enough first
      match flow with
      | .ok .finished =>
        rw [first nofun]
        exact runAll_of_continues continues others after enough
      | .ok (.answered value) => rw [first nofun]
      | .error failure => rw [first enough]

end

/-- A body fails where its first item does. -/
theorem runAll_of_failed {item : Item} {state : RunState} {failure : Failure} (others : List Item)
    (failed : (run sink caller item state).1 = .error failure) :
    (run.runAll sink caller (item :: others) state).1 = .error failure := by
  unfold run.runAll
  split
  · next ended =>
    rw [ended] at failed
    cases failed
  · exact failed

end Item

/-- Only the limit is overflown: arguments that cannot be bound are another failure. -/
theorem Signature.bind_ne_stackOverflow (function : String) (parameters : List Parameter)
    (arguments : List String) (event : HostEvent) :
    Signature.bind function parameters arguments event ≠ .error .stackOverflow := by
  induction parameters generalizing arguments event with
  | nil => exact nofun
  | cons parameter others ih =>
    unfold Signature.bind
    split
    · exact nofun
    · exact ih _ _

/-- A change of its value does not make a result overflow. -/
theorem Failure.map_eq_stackOverflow {α β : Type} {result : Except Failure α} {change : α → β} :
    result.map change = .error .stackOverflow ↔ result = .error .stackOverflow := by
  cases result with
  | ok value => exact ⟨nofun, nofun⟩
  | error failure => simp only [Except.map, Except.error.injEq]

namespace FunctionTable

variable (functions : FunctionTable) (sink : Sink)

/-- With more levels a call does what it does with fewer, if these are enough. -/
theorem call_continues {levels more : Nat} (larger : levels ≤ more) :
    Caller.Continues (functions.call sink levels) (functions.call sink more) := by
  induction levels generalizing more with
  | zero => exact fun _ _ _ enough => absurd rfl enough
  | succ levels ih =>
    obtain ⟨rest, rfl⟩ : ∃ rest, more = rest + 1 := ⟨more - 1, by omega⟩
    have deeper : Caller.Continues (functions.call sink levels) (functions.call sink rest) :=
      ih (by omega)
    intro name arguments effects enough
    cases found : functions.bodies.get? name with
    | none => rw [call_of_free found, call_of_free found]
    | some function =>
      cases bound : function.event name arguments with
      | error failure => rw [call_of_unbound found bound, call_of_unbound found bound]
      | ok event =>
        rw [call_of_bound found bound] at enough ⊢
        rw [call_of_bound found bound]
        rw [Item.runAll_of_continues deeper function.items ⟨event, effects⟩]
        exact fun overflow => enough (Failure.map_eq_stackOverflow.mpr overflow)

/-! ## Chains of calls -/

mutual

/-- A call is the first of so many, each but the first made by the body that the one before it
runs. -/
inductive CallNests : Nat → String → List String → List String → Prop
  | call {name : String} {arguments effects : List String} : CallNests 1 name arguments effects
  | inside {length : Nat} {name : String} {arguments effects : List String} {function : Function}
      {event : HostEvent}
      (found : functions.bodies.get? name = some function)
      (bound : function.event name arguments = .ok event)
      (body : Nests length function.items ⟨event, effects⟩) :
      CallNests (length + 1) name arguments effects

/-- At some point a body makes a chain of so many calls, each but the first made by the body that
the one before it runs. What stands before that point ends, given levels enough. -/
inductive Nests : Nat → List Item → RunState → Prop
  | nothing {items : List Item} {state : RunState} : Nests 0 items state
  | call {length : Nat} {name : String} {arguments : List String} {line : Nat}
      {others : List Item} {state : RunState}
      (called : CallNests length name (arguments.map state.event.expand) state.effects) :
      Nests length (.call name arguments line :: others) state
  | block {length : Nat} {header : String} {line : Nat} {items others : List Item}
      {state inner : RunState}
      (accepted : state.perform sink (state.event.expand header) = (true, inner))
      (body : Nests length items inner) :
      Nests length (.block header line items :: others) state
  | later {length levels : Nat} {item : Item} {others : List Item} {state after : RunState}
      (ended : item.run sink (functions.call sink levels) state = (.ok .finished, after))
      (rest : Nests length others after) :
      Nests length (item :: others) state

end

variable {functions sink}

/-- What ends with some levels ends in the same way with others, or they are not enough. -/
theorem run_of_ended {levels other : Nat} {item : Item} {state after : RunState}
    (ended : item.run sink (functions.call sink levels) state = (.ok .finished, after))
    (enough : (item.run sink (functions.call sink other) state).1 ≠ .error .stackOverflow) :
    item.run sink (functions.call sink other) state = (.ok .finished, after) := by
  have fromLevels := Item.run_of_continues
    (functions.call_continues sink (Nat.le_max_left levels other)) item state
    (by rw [ended]; exact nofun)
  have fromOther := Item.run_of_continues
    (functions.call_continues sink (Nat.le_max_right levels other)) item state enough
  rw [← fromOther, fromLevels, ended]

section Overflow

variable {levels : Nat}

mutual

/-- Where an item runs out of levels, a chain of one call more has been made. -/
theorem nests_of_run
    (called : ∀ name arguments effects,
      (functions.call sink levels name arguments effects).1 = .error .stackOverflow →
        CallNests functions sink (levels + 1) name arguments effects)
    (item : Item) (others : List Item) (state : RunState)
    (overflow : (item.run sink (functions.call sink levels) state).1 = .error .stackOverflow) :
    Nests functions sink (levels + 1) (item :: others) state := by
  match item with
  | .effect text line | .answer value line => cases overflow
  | .call name arguments line =>
    unfold Item.run at overflow
    exact .call (called _ _ _ (Failure.map_eq_stackOverflow.mp overflow))
  | .block header line items =>
    unfold Item.run at overflow
    dsimp only at overflow
    split at overflow
    · next accepted =>
      exact .block (Prod.ext accepted rfl) (nests_of_runAll called items _ overflow)
    · cases overflow

theorem nests_of_runAll
    (called : ∀ name arguments effects,
      (functions.call sink levels name arguments effects).1 = .error .stackOverflow →
        CallNests functions sink (levels + 1) name arguments effects)
    (items : List Item) (state : RunState)
    (overflow : (Item.run.runAll sink (functions.call sink levels) items state).1 =
      .error .stackOverflow) :
    Nests functions sink (levels + 1) items state := by
  match items with
  | [] => cases overflow
  | item :: others =>
    unfold Item.run.runAll at overflow
    split at overflow
    · next after ended => exact .later ended (nests_of_runAll called others after overflow)
    · exact nests_of_run called item others state overflow

end

/-- Where a chain of one call more is made, a body runs out of levels. -/
theorem runAll_of_nests
    (called : ∀ name arguments effects,
      CallNests functions sink (levels + 1) name arguments effects →
        (functions.call sink levels name arguments effects).1 = .error .stackOverflow)
    (items : List Item) (state : RunState) (nests : Nests functions sink (levels + 1) items state) :
    (Item.run.runAll sink (functions.call sink levels) items state).1 = .error .stackOverflow := by
  match items, nests with
  | .call name arguments line :: others, .call nested =>
    have overflow := called _ _ _ nested
    refine Item.runAll_of_failed others ?_
    unfold Item.run
    exact Failure.map_eq_stackOverflow.mpr overflow
  | .block header line inner :: others, .block accepted body =>
    have overflow := runAll_of_nests called inner _ body
    refine Item.runAll_of_failed others ?_
    simp only [Item.run, accepted, ↓reduceIte, overflow]
  | item :: others, .later ended rest =>
    by_cases enough : (item.run sink (functions.call sink levels) state).1 = .error .stackOverflow
    · exact Item.runAll_of_failed others enough
    · unfold Item.run.runAll
      rw [run_of_ended ended enough]
      exact runAll_of_nests called others _ rest

end Overflow

/-- A call runs out of levels exactly if it is the first of one call more than there are levels. -/
theorem call_overflows_iff {levels : Nat} {name : String} {arguments effects : List String} :
    (functions.call sink levels name arguments effects).1 = .error .stackOverflow ↔
      CallNests functions sink (levels + 1) name arguments effects := by
  induction levels generalizing name arguments effects with
  | zero => exact ⟨fun _ => .call, fun _ => rfl⟩
  | succ levels ih =>
    cases found : functions.bodies.get? name with
    | none =>
      rw [call_of_free found]
      refine ⟨nofun, fun nested => ?_⟩
      cases nested with
      | inside there => cases found.symm.trans there
    | some function =>
      cases bound : function.event name arguments with
      | error failure =>
        rw [call_of_unbound found bound]
        refine ⟨fun overflow => ?_, fun nested => ?_⟩
        · rw [Except.error.inj overflow] at bound
          exact absurd bound (Signature.bind_ne_stackOverflow _ _ _ _)
        · cases nested with
          | inside there accepted =>
            cases found.symm.trans there
            cases bound.symm.trans accepted
      | ok event =>
        rw [call_of_bound found bound, Failure.map_eq_stackOverflow]
        refine ⟨fun overflow => ?_, fun nested => ?_⟩
        · exact .inside found bound (nests_of_runAll (fun _ _ _ => ih.mp) _ _ overflow)
        · cases nested with
          | inside there accepted body =>
            cases found.symm.trans there
            cases bound.symm.trans accepted
            exact runAll_of_nests (fun _ _ _ => ih.mpr) _ _ body

/-- A body runs out of levels exactly if it makes a chain of one call more than there are levels. -/
theorem runAll_overflows_iff {levels : Nat} {items : List Item} {state : RunState} :
    (Item.run.runAll sink (functions.call sink levels) items state).1 = .error .stackOverflow ↔
      Nests functions sink (levels + 1) items state :=
  ⟨nests_of_runAll (fun _ _ _ => call_overflows_iff.mp) items state,
    runAll_of_nests (fun _ _ _ => call_overflows_iff.mpr) items state⟩

/-- A chain of calls has all the shorter ones in it. -/
theorem Nests.shorter {short long : Nat} {items : List Item} {state : RunState}
    (nests : Nests functions sink long items state) (shorter : short ≤ long) :
    Nests functions sink short items state := by
  cases short with
  | zero => exact .nothing
  | succ levels =>
    obtain ⟨more, rfl⟩ : ∃ more, long = more + 1 := ⟨long - 1, by omega⟩
    rw [← runAll_overflows_iff] at nests ⊢
    by_contra enough
    refine enough ?_
    rw [← Item.runAll_of_continues (functions.call_continues sink (Nat.le_of_succ_le_succ shorter))
      items state enough]
    exact nests

end FunctionTable

/-! ## The limit -/

namespace Environment

/-- Calls end within the limit, and the limit is all that it changes. -/
structure KeepsToLimit (environment : Environment) : Prop where
  /-- A body ends, and running it gives what it comes to. -/
  bodyEnds : ∀ depth items state, ∃! outcome, environment.Runs depth items state outcome
  run_eq : ∀ {depth items state outcome}, environment.Runs depth items state outcome →
    environment.run items depth state = (outcome.ended, outcome.after)
  /-- A call ends, and calling gives what it comes to. -/
  callEnds : ∀ depth name arguments effects,
    ∃! outcome, environment.Calls depth name arguments effects outcome
  call_eq : ∀ {depth name arguments effects outcome},
    environment.Calls depth name arguments effects outcome →
      environment.call depth name arguments effects = (outcome.result, outcome.effects)
  /-- No body runs below the limit. -/
  runs_within : ∀ {depth items state outcome}, environment.Runs depth items state outcome →
    ∀ entry ∈ outcome.entered, entry.depth ≤ environment.maxDepth
  calls_within : ∀ {depth name arguments effects outcome},
    environment.Calls depth name arguments effects outcome →
      ∀ entry ∈ outcome.entered, entry.depth ≤ environment.maxDepth
  /-- A trigger overflows exactly if it makes a chain of more calls than the limit allows. -/
  run_overflows_iff : ∀ items state,
    (environment.run items 0 state).1 = .error .stackOverflow ↔
      environment.functions.Nests environment.sink (environment.maxDepth + 1) items state
  call_overflows_iff : ∀ name arguments effects,
    (environment.call 0 name arguments effects).1 = .error .stackOverflow ↔
      environment.functions.CallNests environment.sink (environment.maxDepth + 1)
        name arguments effects
  longest : ∀ length items state,
    environment.functions.Nests environment.sink length items state →
      ¬ environment.functions.Nests environment.sink (length + 1) items state →
        ((environment.run items 0 state).1 = .error .stackOverflow ↔
          environment.maxDepth < length)
  /-- What does not overflow is the same under every larger limit. -/
  run_larger : ∀ more, environment.maxDepth ≤ more → ∀ items depth state,
    (environment.run items depth state).1 ≠ .error .stackOverflow →
      { environment with maxDepth := more }.run items depth state =
        environment.run items depth state
  call_larger : ∀ more, environment.maxDepth ≤ more → ∀ depth name arguments effects,
    (environment.call depth name arguments effects).1 ≠ .error .stackOverflow →
      { environment with maxDepth := more }.call depth name arguments effects =
        environment.call depth name arguments effects

variable (environment : Environment)

theorem call_continues {more : Nat} (larger : environment.maxDepth ≤ more) (depth : Nat) :
    Caller.Continues (environment.call depth) ({ environment with maxDepth := more }.call depth) :=
  environment.functions.call_continues environment.sink (Nat.sub_le_sub_right larger depth)

/-- **Calls end within the limit, and the limit is all that it changes.** Whatever functions are
registered, bodies and calls end; no body runs deeper than the limit; a trigger overflows exactly
if it makes a chain of more calls than that; and what does not overflow goes the same way under
every larger limit. -/
theorem keepsToLimit : environment.KeepsToLimit where
  bodyEnds := by
    intro depth items state
    obtain ⟨entered, runs⟩ := @Runs.of_run environment items depth state
    exact ⟨_, runs, fun other again => again.unique runs⟩
  run_eq := by
    intro depth items state outcome runs
    obtain ⟨entered, same⟩ := @Runs.of_run environment items depth state
    rw [runs.unique same]
  callEnds := by
    intro depth name arguments effects
    obtain ⟨entered, calls⟩ :=
      @Calls.of_call environment depth name arguments effects
    exact ⟨_, calls, fun other again => again.unique calls⟩
  call_eq := by
    intro depth name arguments effects outcome calls
    obtain ⟨entered, same⟩ :=
      @Calls.of_call environment depth name arguments effects
    rw [calls.unique same]
  runs_within := fun runs entry inside => (runs.within entry inside).2
  calls_within := fun calls entry inside => (calls.within entry inside).2
  run_overflows_iff := fun items state => FunctionTable.runAll_overflows_iff
  call_overflows_iff := fun name arguments effects => FunctionTable.call_overflows_iff
  longest := by
    intro length items state nests ends
    refine FunctionTable.runAll_overflows_iff.trans ⟨fun overflows => ?_, nests.shorter⟩
    by_contra short
    exact ends (overflows.shorter (Nat.succ_le_succ (Nat.le_of_not_lt short)))
  run_larger := fun more larger items depth state =>
    Item.runAll_of_continues (environment.call_continues larger depth) items state
  call_larger := fun more larger depth => environment.call_continues larger depth

end Environment

end ScriptBinding

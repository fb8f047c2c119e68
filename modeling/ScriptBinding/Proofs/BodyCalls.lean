import ScriptBinding.Function.Call
import ScriptBinding.Item.Reading

/-! # The calls of bodies

Reading keeps only calls of functions that are declared. Bodies that make no other calls never come
upon a function without a body, however deep they call, once every declared function has one.
-/

namespace ScriptBinding

namespace Item

/-- The functions that an item calls. -/
def callees : Item → List String
  | effect _ _ | answer _ _ => []
  | call function _ _ => [function]
  | block _ _ items => calleesAll items
where
  /-- The functions that some items call. -/
  calleesAll : List Item → List String
    | [] => []
    | item :: others => item.callees ++ calleesAll others

theorem calleesAll_append (items others : List Item) :
    callees.calleesAll (items ++ others) =
      callees.calleesAll items ++ callees.calleesAll others := by
  induction items with
  | nil => rfl
  | cons item rest ih => simp only [List.cons_append, callees.calleesAll, ih, List.append_assoc]

/-- Every function that some items call has a signature. -/
def Resolved (signature? : String → Option Signature) (items : List Item) : Prop :=
  ∀ name ∈ callees.calleesAll items, (signature? name).isSome = true

namespace Resolved

variable {signature? later? : String → Option Signature} {items others : List Item}

theorem nil : Resolved signature? [] :=
  fun _ absent => absurd absent List.not_mem_nil

theorem mono (resolved : Resolved signature? items)
    (more : ∀ name, (signature? name).isSome = true → (later? name).isSome = true) :
    Resolved later? items :=
  fun name calls => more name (resolved name calls)

theorem append (first : Resolved signature? items) (second : Resolved signature? others) :
    Resolved signature? (items ++ others) := by
  intro name calls
  rw [calleesAll_append] at calls
  exact (List.mem_append.mp calls).elim (first name) (second name)

end Resolved

/-! ## Reading -/

variable {scope : BodyScope}

theorem readCall_resolved {line : Nat} {function : String} {arguments : List String} {item : Item}
    (read : readCall scope line function arguments = .ok item) :
    Resolved scope.signature? [item] := by
  unfold readCall at read
  split at read
  · cases read
  · next signature found =>
    split at read
    · cases read
      intro name calls
      obtain rfl : name = function := List.mem_singleton.mp calls
      rw [found]
      rfl
    · cases read

theorem readLine_resolved {line : Nat} {text : String} {item : Item}
    (read : readLine scope line text = .ok item) : Resolved scope.signature? [item] := by
  unfold readLine at read
  split at read
  · cases read
  · unfold readPlain at read
    split at read
    · split at read
      · cases read
        exact .nil
      · cases read
    · split at read
      · exact readCall_resolved read
      · cases read
        exact .nil

mutual

/-- An item that a node becomes calls only functions that are declared. -/
theorem readNode_resolved (scope : BodyScope) (node : Node) :
    Resolved scope.signature? (readNode scope node).1.toList := by
  match node with
  | .simple key line =>
    unfold readNode
    split
    · next read => exact readLine_resolved read
    · exact .nil
  | .entry key value line =>
    unfold readNode
    split
    · next read => exact readLine_resolved read
    · exact .nil
  | .nested key line nodes =>
    have inner := readNodes_resolved scope nodes
    unfold readNode
    split
    · exact .nil
    · intro name calls
      refine inner name ?_
      simpa only [Option.toList_some, callees.calleesAll, callees, List.append_nil] using calls

theorem readNodes_resolved (scope : BodyScope) (nodes : List Node) :
    Resolved scope.signature? (readNode.readNodes scope nodes).1 := by
  match nodes with
  | [] => exact .nil
  | node :: others => exact (readNode_resolved scope node).append (readNodes_resolved scope others)

end

/-- A body that is read calls only functions that are declared. -/
theorem readBody_resolved {body : Section} {items : List Item}
    (read : (readBody scope body).1 = .ok items) : Resolved scope.signature? items := by
  have resolved := readNodes_resolved scope body.nodes
  unfold readBody at read
  dsimp only at read
  split at read
  · cases read
    exact resolved
  · cases read

end Item

/-! ## Running -/

/-- What a call of a function fails with that has no body. -/
def Failure.notLoaded (name : String) : Failure :=
  .runtime s!"The function '{name}' is not loaded"

/-- A result is not the failure that a function has no body. -/
def FindsBodies {α : Type} (result : Except Failure α) : Prop :=
  ∀ name, result ≠ .error (.notLoaded name)

theorem FindsBodies.ok {α : Type} (value : α) : FindsBodies (.ok value) :=
  fun _ same => by cases same

theorem FindsBodies.map {α β : Type} {result : Except Failure α} (finds : FindsBodies result)
    (change : α → β) : FindsBodies (result.map change) := by
  intro name same
  cases result with
  | ok value => cases same
  | error failure => exact finds name (congrArg Except.error (Except.error.inj same))

/-- A missing argument is another failure. -/
theorem Signature.bind_findsBodies (function : String) (parameters : List Parameter)
    (arguments : List String) (event : HostEvent) :
    FindsBodies (Signature.bind function parameters arguments event) := by
  induction parameters generalizing arguments event with
  | nil => exact .ok event
  | cons parameter others ih =>
    unfold Signature.bind
    split
    · intro name same
      have texts := Failure.runtime.inj (Except.error.inj same)
      have chars := congrArg String.toList texts
      simp [toString] at chars
    · exact ih _ _

namespace Item

variable {sink : Sink} {caller : Caller}

mutual

/-- An item fails for want of a body only if one of its calls does. -/
theorem run_findsBodies (item : Item) (state : RunState)
    (called : ∀ name ∈ item.callees, ∀ arguments effects,
      FindsBodies (caller name arguments effects).1) :
    FindsBodies (run sink caller item state).1 := by
  match item with
  | .effect text line => exact .ok _
  | .call function arguments line =>
    exact (called function List.mem_cons_self _ _).map _
  | .answer value line => exact .ok _
  | .block header line items =>
    unfold run
    dsimp only
    split
    · exact runAll_findsBodies items _ called
    · exact .ok _

theorem runAll_findsBodies (items : List Item) (state : RunState)
    (called : ∀ name ∈ callees.calleesAll items, ∀ arguments effects,
      FindsBodies (caller name arguments effects).1) :
    FindsBodies (run.runAll sink caller items state).1 := by
  match items with
  | [] => exact .ok _
  | item :: others =>
    have first := run_findsBodies item state
      fun name calls => called name (List.mem_append_left _ calls)
    unfold run.runAll
    split
    · exact runAll_findsBodies others _
        fun name calls => called name (List.mem_append_right _ calls)
    · exact first

end

end Item

namespace FunctionTable

/-- A call of a function without a body fails, and the failure names the function. -/
theorem call_of_free {functions : FunctionTable} {name : String}
    (free : functions.bodies.get? name = none) (sink : Sink) (remaining : Nat)
    (arguments effects : List String) :
    functions.call sink (remaining + 1) name arguments effects =
      (.error (.notLoaded name), effects) := by
  unfold call
  rw [free]
  rfl

/-- Every declared function has a body, and calls only declared functions. -/
structure Closed (functions : FunctionTable) : Prop where
  bodies : ∀ name, (functions.signature? name).isSome = true →
    (functions.bodies.get? name).isSome = true
  resolved : ∀ name function, functions.bodies.get? name = some function →
    Item.Resolved functions.signature? function.items

/-- A declared function can be called at any depth. -/
theorem Closed.call_findsBodies {functions : FunctionTable} (closed : functions.Closed)
    (sink : Sink) (remaining : Nat) {name : String}
    (declared : (functions.signature? name).isSome = true) (arguments effects : List String) :
    FindsBodies (functions.call sink remaining name arguments effects).1 := by
  induction remaining generalizing name arguments effects with
  | zero => exact fun _ same => by cases same
  | succ remaining ih =>
    obtain ⟨function, found⟩ := Option.isSome_iff_exists.mp (closed.bodies name declared)
    unfold call
    rw [found]
    dsimp only
    split
    · next failure bound =>
      have finds := Signature.bind_findsBodies name function.signature.parameters arguments
        ((HostEvent.ofClass "function").withField "function" name)
      rw [Function.event] at bound
      rw [bound] at finds
      exact fun missing same => finds missing (congrArg Except.error (Except.error.inj same))
    · exact (Item.runAll_findsBodies function.items _ fun callee calls =>
        ih (closed.resolved name function found callee calls)).map _

/-- A body that calls only declared functions can run at any depth. -/
theorem Closed.run_findsBodies {functions : FunctionTable} (closed : functions.Closed) (sink : Sink)
    (maxDepth : Nat) {items : List Item} (resolved : Item.Resolved functions.signature? items)
    (depth : Nat) (state : RunState) :
    FindsBodies ((Environment.mk functions sink maxDepth).run items depth state).1 :=
  Item.runAll_findsBodies items state fun name calls =>
    closed.call_findsBodies sink (maxDepth - depth) (resolved name calls)

end FunctionTable

end ScriptBinding

import Mathlib.Logic.Function.Iterate
import ScriptBinding.Proofs.BodyComposition
import ScriptBinding.Proofs.SignatureWriting
import ScriptBinding.Proofs.TextLiterals

/-! # Values passed on

A body passes a local value on when an argument of a call is a reference to it. What is passed is
the text of the value, and the call takes it as any text of an argument: the blanks at its ends are
dropped, and then the quotes around the rest. So the parameter has the value that the text denotes,
and along a chain of calls that happens once for each call. The values that arrive as they started
are those without blanks at their ends and quotes around them, however long the chain is.
-/

namespace ScriptBinding

/-! ## References -/

namespace Text

theorem scan_reference {opening key : List Char} {closing : Char} (marked : opening ≠ [])
    (absent : closing ∉ key) : References.scan opening closing (opening ++ (key ++ [closing])) =
      ⟨[([], key)], [], none⟩ := by
  have starts : cut? opening (opening ++ (key ++ [closing])) = some ([], key ++ [closing]) := by
    unfold cut?
    rw [afterLead?_eq_some.mpr rfl]
  have nothing : References.scan opening closing [] = ⟨[], [], none⟩ := by
    obtain ⟨c, others, rfl⟩ := List.exists_cons_of_ne_nil marked
    rw [References.scan]
    rfl
  unfold References.scan
  split
  · next none => cases starts.symm.trans none
  · next opened =>
    cases starts.symm.trans opened
    have ends : cut? [closing] (key ++ [closing]) = some (key, []) := cut?_append absent []
    split
    · next none => cases ends.symm.trans none
    · next closed =>
      cases ends.symm.trans closed
      rw [nothing]
      rfl

end Text

namespace HostEvent

variable {event : HostEvent} {name value : String}

/-- A reference to a local value, as it is written. -/
def reference (name : String) : String :=
  "\x7b_" ++ name ++ "\x7d"

/-- A reference stands for the local value, as long as its name does not close it. -/
theorem expand_reference (has : event.field? ("_" ++ name) = some value)
    (closed : '\x7d' ∉ name.toList) : event.expand (reference name) = value := by
  have written : (reference name).toList = localOpening ++ (name.toList ++ ['\x7d']) := by
    simp [reference, localOpening]
  have field : String.ofList ('_' :: name.toList) = "_" ++ name := by
    rw [← String.toList_inj]
    simp
  rw [expand, written, Text.scan_reference (by decide) closed]
  simp only [Text.References.fill, List.flatMap_cons, List.flatMap_nil, localImage, field, has,
    Option.map_none, Option.getD_none, List.nil_append, List.append_nil, String.ofList_toList]

end HostEvent

/-! ## Texts that denote themselves -/

namespace Signature

/-- The text has no blank at an end and no quotes around it. -/
structure Bare (text : String) : Prop where
  start : ∀ c ∈ text.toList.head?, Text.isBlank c = false
  ending : ∀ c ∈ text.toList.getLast?, Text.isBlank c = false
  unquoted : ∀ inner, text.toList ≠ '"' :: inner ++ ['"']

variable {text : String}

/-- The value of a text is what is between the quotes around it, when there are any. -/
theorem argumentValue_cases (text : String) :
    (∃ inner, Text.trimChars text.toList = '"' :: inner ++ ['"'] ∧
      argumentValue text = String.ofList inner) ∨
    (∀ inner, Text.trimChars text.toList ≠ '"' :: inner ++ ['"']) ∧
      argumentValue text = Text.trim text := by
  dsimp only [argumentValue]
  cases quoted : Text.between? '"' '"' (Text.trimChars text.toList) with
  | some inner => exact .inl ⟨inner, Text.between?_eq_some.mp quoted, rfl⟩
  | none =>
    refine .inr ⟨fun inner same => ?_, rfl⟩
    rw [Text.between?_eq_some.mpr same] at quoted
    cases quoted

/-- A value is shorter than its text, or they are the same. -/
theorem length_argumentValue_lt_or_eq (text : String) :
    (argumentValue text).length < text.length ∨ argumentValue text = text := by
  have trimmed := Text.trimChars_sublist text.toList
  rw [← String.length_toList, ← String.length_toList]
  rcases argumentValue_cases text with ⟨inner, around, value⟩ | ⟨_, value⟩
  · have shorter := trimmed.length_le
    rw [around, List.length_append, List.length_cons] at shorter
    rw [value, String.toList_ofList]
    exact .inl (by omega)
  · rcases trimmed.length_le.lt_or_eq with shorter | same
    · rw [value, Text.toList_trim]
      exact .inl shorter
    · rw [value, Text.trim, trimmed.eq_of_length same, String.ofList_toList]
      exact .inr rfl

theorem length_argumentValue_le (text : String) :
    (argumentValue text).length ≤ text.length := by
  rcases length_argumentValue_lt_or_eq text with shorter | same
  · exact shorter.le
  · rw [same]

/-- A text is its own value exactly if there is nothing around it to drop. -/
theorem argumentValue_eq_self_iff : argumentValue text = text ↔ Bare text := by
  constructor
  · intro same
    rcases argumentValue_cases text with ⟨inner, around, value⟩ | ⟨unquoted, value⟩
    · have trimmed := (Text.trimChars_sublist text.toList).length_le
      rw [around, ← same, value, String.toList_ofList, List.length_append, List.length_cons,
        List.length_singleton] at trimmed
      omega
    · have fixed : Text.trimChars text.toList = text.toList := by
        rw [← Text.toList_trim, ← value, same]
      obtain ⟨start, ending⟩ := Text.trimChars_eq_self_iff.mp fixed
      exact ⟨start, ending, fixed ▸ unquoted⟩
  · rintro ⟨start, ending, unquoted⟩
    have fixed := Text.trimChars_eq_self_iff.mpr ⟨start, ending⟩
    rcases argumentValue_cases text with ⟨inner, around, _⟩ | ⟨_, value⟩
    · exact absurd (fixed ▸ around) (unquoted inner)
    · rw [value, Text.trim, fixed, String.ofList_toList]

theorem length_iterate_le (count : Nat) (text : String) :
    (argumentValue^[count] text).length ≤ text.length := by
  induction count generalizing text with
  | zero => exact Nat.le_refl _
  | succ count ih => exact (ih (argumentValue text)).trans (length_argumentValue_le text)

/-- Taking the value again and again leaves a text as it is only if taking it once does. -/
theorem iterate_eq_self_iff (count : Nat) :
    argumentValue^[count + 1] text = text ↔ Bare text := by
  rw [← argumentValue_eq_self_iff]
  constructor
  · intro same
    have shorter := length_iterate_le count (argumentValue text)
    rw [← Function.iterate_succ_apply, same] at shorter
    exact (length_argumentValue_lt_or_eq text).resolve_left shorter.not_gt
  · intro same
    exact Function.iterate_fixed same _

/-- Parameters whose local values can be told apart and referred to. -/
structure WellNamed (parameters : List Parameter) : Prop where
  differ : NamesDiffer parameters
  closed : ∀ parameter ∈ parameters, '\x7d' ∉ parameter.name.toList

theorem not_mem_of_isName {name : List Char} (isName : IsName startsName name) :
    '\x7d' ∉ name := by
  obtain ⟨first, others, rfl, starts, words⟩ := isName
  have noStart : startsName '\x7d' = false := by decide
  have noWord : Text.isWord '\x7d' = false := by decide
  intro member
  rcases List.mem_cons.mp member with rfl | member
  · cases noStart.symm.trans starts
  · cases noWord.symm.trans (words _ member)

theorem isName_of_readName? {starts : Char → Bool} {chars name rest : List Char}
    (read : readName? starts chars = some (name, rest)) : IsName starts name := by
  cases chars with
  | nil => cases read
  | cons c others =>
    rw [readName?] at read
    split at read
    · next starting =>
      cases read
      exact ⟨c, _, rfl, starting, fun _ member => List.mem_takeWhile_imp member⟩
    · cases read

theorem isName_of_readParameter? {chars name type : List Char} {default : Option (List Char)}
    (read : readParameter? chars = some (name, type, default)) : IsName startsName name := by
  unfold readParameter? at read
  split at read
  · cases read
  · next found =>
    split at read
    · split at read
      · cases read
      · rw [Option.some_inj, Prod.mk.injEq] at read
        exact read.1 ▸ isName_of_readName? found
    · cases read

theorem isName_of_addParameter {classes : ClassRegistry} {line : Nat} {function : String}
    {before : List Parameter} {written : String} {parameter : Parameter}
    (added : addParameter classes line function before written = .ok parameter) :
    IsName startsName parameter.name.toList := by
  unfold addParameter at added
  split at added
  · cases added
  · next found =>
    dsimp only at added
    split at added
    · cases added
    · split at added
      · cases added
      · cases added
        rw [String.toList_ofList]
        exact isName_of_readParameter? found

theorem isName_of_addParameters {classes : ClassRegistry} {line : Nat} {function : String}
    {before after : List Parameter} {texts : List String}
    (added : addParameters classes line function before texts = .ok after)
    (names : ∀ parameter ∈ before, IsName startsName parameter.name.toList) :
    ∀ parameter ∈ after, IsName startsName parameter.name.toList := by
  induction texts generalizing before with
  | nil =>
    cases added
    exact names
  | cons written others ih =>
    unfold addParameters at added
    split at added
    · cases added
    · next one first =>
      refine ih added (List.forall_mem_append.mpr ⟨names, List.forall_mem_singleton.mpr ?_⟩)
      exact isName_of_addParameter first

/-- The parameters of a signature that is read are well named. -/
theorem wellNamed_of_read {classes : ClassRegistry} {script : Script} {text : String} {line : Nat}
    {signature : Signature} (read : Signature.read classes script text line = .ok signature) :
    WellNamed signature.parameters where
  differ := read_differs read
  closed := by
    unfold Signature.read at read
    split at read
    · cases read
    · dsimp only at read
      split at read
      · cases read
      · next parameters added =>
        split at read
        · cases read
        · cases read
          have names := isName_of_addParameters added fun _ absent => absurd absent List.not_mem_nil
          exact fun parameter member => not_mem_of_isName (names parameter member)

end Signature

/-! ## Calls that pass a value on -/

/-- A call in a running body, and the local value that it passes on. -/
structure PassingCall where
  depth : Nat
  name : String
  arguments : List String
  state : RunState
  key : String

/-- The field of the value that is passed on. -/
def PassingCall.field (call : PassingCall) : String :=
  "_" ++ call.key

/-- Where a value arrives: a parameter of a function, and the event on which its body runs. -/
structure Arrival where
  function : Function
  parameter : Parameter
  event : HostEvent

/-- The field of the value that has arrived. -/
def Arrival.field (arrival : Arrival) : String :=
  "_" ++ arrival.parameter.name

namespace Environment

variable {environment : Environment}

/-- The call enters a function, and a reference to the local value is the argument of the
parameter. -/
structure Hands (environment : Environment) (call : PassingCall) (arrival : Arrival) : Prop where
  enters : environment.entry call.depth call.name
    (call.arguments.map call.state.event.expand) = .ok (arrival.function, arrival.event)
  wellNamed : Signature.WellNamed arrival.function.signature.parameters
  closed : '\x7d' ∉ call.key.toList
  given : ∃ i : Nat, call.arguments[i]? = some (HostEvent.reference call.key) ∧
    arrival.function.signature.parameters[i]? = some arrival.parameter

/-- A value is passed on by so many calls, each but the first in the body that the one before it
runs. The host leaves the value alone until the body comes to the next call. -/
inductive Passes (environment : Environment) : Nat → PassingCall → Arrival → Prop
  | one {call : PassingCall} {arrival : Arrival} (hands : environment.Hands call arrival) :
      Passes environment 1 call arrival
  | more {length line : Nat} {call next : PassingCall} {middle last : Arrival}
      (hands : environment.Hands call middle)
      (deeper : next.depth = call.depth + 1)
      (same : next.key = middle.parameter.name)
      (comes : Item.ComesTo environment.sink (environment.call next.depth) middle.function.items
        ⟨middle.event, call.state.effects⟩ (.call next.name next.arguments line) next.state)
      (kept : next.state.event.field? next.field = middle.event.field? middle.field)
      (rest : Passes environment length next last) :
      Passes environment (length + 1) call last

/-- One call binds the parameter to what the value denotes as an argument. -/
theorem Hands.field? {call : PassingCall} {arrival : Arrival} {value : String}
    (hands : environment.Hands call arrival)
    (holds : call.state.event.field? call.field = some value) :
    arrival.event.field? arrival.field = some (Signature.argumentValue value) := by
  obtain ⟨i, reference, there⟩ := hands.given
  obtain ⟨_, _, binds⟩ := entry_eq_ok.mp hands.enters
  obtain ⟨written, own, field⟩ := Signature.field?_bind hands.wellNamed.differ binds there
  rw [List.getElem?_map, reference, Option.map_some, Option.some_or,
    HostEvent.expand_reference holds hands.closed] at own
  cases own
  exact field

/-- A chain of calls does that once for each of them. -/
theorem Passes.field? {length : Nat} {call : PassingCall} {arrival : Arrival} {value : String}
    (passes : environment.Passes length call arrival)
    (holds : call.state.event.field? call.field = some value) :
    arrival.event.field? arrival.field = some (Signature.argumentValue^[length] value) := by
  induction passes generalizing value with
  | one hands => exact hands.field? holds
  | more hands _ _ _ kept _ ih =>
    rw [Function.iterate_succ_apply]
    exact ih (kept.trans (hands.field? holds))

end Environment

/-! ## Hosts that leave local values alone -/

/-- The host makes no change to the fields of events. -/
def Sink.KeepsFields (sink : Sink) : Prop :=
  ∀ text event, (sink.perform text event).2.fields = event.fields

namespace Item

variable {sink : Sink} {caller : Caller}

theorem effect_fields (keeps : sink.KeepsFields) (text : String) (state : RunState) :
    (state.effect sink text).event.fields = state.event.fields := by
  unfold RunState.effect
  split
  · rfl
  · split
    · rfl
    · exact keeps text state.event

mutual

theorem run_fields (keeps : sink.KeepsFields) (item : Item) (state : RunState) :
    (run sink caller item state).2.event.fields = state.event.fields := by
  match item with
  | .effect text line => exact effect_fields keeps _ state
  | .answer value line => rfl
  | .call name arguments line => rfl
  | .block header line items =>
    have heard := keeps (state.event.expand header) state.event
    rw [run]
    dsimp only
    split
    · exact (runAll_fields keeps items _).trans heard
    · exact heard

theorem runAll_fields (keeps : sink.KeepsFields) (items : List Item) (state : RunState) :
    (run.runAll sink caller items state).2.event.fields = state.event.fields := by
  match items with
  | [] => rfl
  | item :: others =>
    have first : (run sink caller item state).2.event.fields = state.event.fields :=
      run_fields keeps item state
    rw [runAll_cons]
    cases ended : run sink caller item state with
    | mk flow after =>
      rw [ended] at first
      by_cases finished : flow = .ok .finished
      · rw [finished]
        exact (runAll_fields keeps others after).trans first
      · rw [andThen_of_ended _ finished]
        exact first

end

/-- With such a host the local values are still there when a body comes to an item. -/
theorem ComesTo.fields {items : List Item} {item : Item} {state inner : RunState}
    (comes : ComesTo sink caller items state item inner) (keeps : sink.KeepsFields) :
    inner.event.fields = state.event.fields := by
  induction comes with
  | here => rfl
  | @later first _ _ start _ _ ended _ ih =>
    have same : (run sink caller first start).2.event.fields = start.event.fields :=
      run_fields keeps first start
    rw [ended] at same
    exact ih.trans same
  | @inside header _ _ _ _ start _ _ accepted _ ih =>
    have same := keeps (start.event.expand header) start.event
    obtain ⟨_, rfl⟩ := Prod.mk.inj accepted
    exact ih.trans same

end Item

namespace Environment

variable {environment : Environment}

/-- What becomes of values that are passed on. -/
structure Forwards (environment : Environment) : Prop where
  /-- A call with a reference to a local value hands it to the function, which runs its body. -/
  hands : ∀ (call : PassingCall) (function : Function) (parameter : Parameter) (i : Nat),
    call.depth < environment.maxDepth →
    environment.functions.bodies.get? call.name = some function →
    Signature.WellNamed function.signature.parameters →
    (∀ other ∈ function.signature.parameters.drop call.arguments.length,
      other.default.isSome = true) →
    '\x7d' ∉ call.key.toList →
    call.arguments[i]? = some (HostEvent.reference call.key) →
    function.signature.parameters[i]? = some parameter →
    ∃ event, environment.Hands call ⟨function, parameter, event⟩ ∧
      environment.call call.depth call.name (call.arguments.map call.state.event.expand)
          call.state.effects =
        let (flow, state) :=
          environment.run function.items (call.depth + 1) ⟨event, call.state.effects⟩
        (flow.map Flow.result, state.effects)
  /-- What arrives is what the value denotes as an argument, taken once for each call. -/
  arrives : ∀ (length : Nat) (call : PassingCall) (arrival : Arrival) (value : String),
    environment.Passes length call arrival →
    call.state.event.field? call.field = some value →
    arrival.event.field? arrival.field = some (Signature.argumentValue^[length] value)
  /-- The values that arrive as they started are the bare ones, however long the chain is. -/
  unchanged : ∀ (length : Nat) (call : PassingCall) (arrival : Arrival) (value : String),
    environment.Passes length call arrival →
    call.state.event.field? call.field = some value →
    (arrival.event.field? arrival.field = some value ↔ Signature.Bare value)
  /-- A host that does not change fields leaves every value alone between two calls. -/
  kept : environment.sink.KeepsFields → ∀ (depth : Nat) (items : List Item) (item : Item)
      (state inner : RunState),
    Item.ComesTo environment.sink (environment.call depth) items state item inner →
    inner.event.fields = state.event.fields

/-- **Passing a value on.** -/
theorem forwards (environment : Environment) : environment.Forwards where
  hands := by
    intro call function parameter i room found wellNamed left closed reference there
    have enough : ∀ other ∈ function.signature.parameters.drop
        (call.arguments.map call.state.event.expand).length, other.default.isSome = true := by
      rwa [List.length_map]
    obtain ⟨event, bound⟩ : ∃ event, function.event call.name
        (call.arguments.map call.state.event.expand) = .ok event :=
      Signature.bind_ok_iff.mpr enough
    exact ⟨event, ⟨entry_eq_ok.mpr ⟨room, found, bound⟩, wellNamed, closed, i, reference, there⟩,
      call_of_bound found bound room _⟩
  arrives := fun _ _ _ _ passes holds => passes.field? holds
  unchanged := by
    intro length call arrival value passes holds
    obtain ⟨count, rfl⟩ : ∃ count, length = count + 1 := by
      cases passes with
      | one => exact ⟨0, rfl⟩
      | more => exact ⟨_, rfl⟩
    rw [passes.field? holds, Option.some_inj, Signature.iterate_eq_self_iff]
  kept := fun keeps _ _ _ _ _ comes => comes.fields keeps

/-- A function that sends its value. -/
def sending : Function :=
  ⟨⟨⟨⟨"a.sk"⟩, 1⟩, "g", [⟨"v", "text", none⟩], none, 1⟩, [.effect "send \x7b_v\x7d" 2]⟩

/-- A function that passes its value on to that one. -/
def relaying : Function :=
  ⟨⟨⟨⟨"a.sk"⟩, 1⟩, "f", [⟨"p", "text", none⟩], none, 4⟩, [.call "g" ["\x7b_p\x7d"] 5]⟩

/-- What a host with these two offers to calls. -/
def relay : Environment :=
  ⟨{ bodies := (Table.empty.insert "g" sending).insert "f" relaying }, .recording, 64⟩

/-- The call in a body whose local value starts with blanks. -/
def blankCall : PassingCall :=
  ⟨1, "g", ["\x7b_p\x7d"], ⟨(HostEvent.ofClass "function").withField "_p" "  x", []⟩, "p"⟩

/-- The blanks at the start of a value do not arrive. -/
theorem blankCall_trims :
    ∃ event, relay.Hands blankCall ⟨sending, ⟨"v", "text", none⟩, event⟩ ∧
      blankCall.state.event.field? blankCall.field = some "  x" ∧
      event.field? "_v" = some "x" ∧
      relay.call 0 "f" ["\"  x\""] [] = (.ok none, ["send x"]) := by
  have holds : blankCall.state.event.field? blankCall.field = some "  x" := by decide
  have wellNamed : Signature.WellNamed sending.signature.parameters :=
    ⟨List.pairwise_singleton _ _, List.forall_mem_singleton.mpr (by decide)⟩
  obtain ⟨event, bound⟩ : ∃ event, sending.event "g"
      (blankCall.arguments.map blankCall.state.event.expand) = .ok event :=
    Signature.bind_ok_iff.mpr fun _ absent => absurd absent List.not_mem_nil
  have hands : relay.Hands blankCall ⟨sending, ⟨"v", "text", none⟩, event⟩ :=
    ⟨entry_eq_ok.mpr ⟨by decide, rfl, bound⟩, wellNamed, by decide, 0, rfl, rfl⟩
  have value : Signature.argumentValue "  x" = "x" := by decide
  exact ⟨event, hands, holds, value ▸ hands.field? holds, by decide +kernel⟩

end Environment

end ScriptBinding

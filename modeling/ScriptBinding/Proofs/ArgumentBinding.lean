import Mathlib.Data.List.Pairwise
import ScriptBinding.Proofs.CallDepth
import ScriptBinding.Value.Standard

/-! # Arguments and parameters

When a script is loaded, only the number of the arguments of a call is looked at, and when the call
runs they are bound in order. The two agree for the signatures whose parameters with defaults come
last, and for no others: where one comes before a parameter without, a call that leaves the latter
out is accepted and then fails.
-/

namespace ScriptBinding

namespace Signature

/-! ## Names of parameters -/

/-- The names of parameters, up to the case of ASCII letters, are all different. -/
def NamesDiffer (parameters : List Parameter) : Prop :=
  parameters.Pairwise fun earlier later =>
    Text.equalIgnoringAsciiCase earlier.name later.name = false

/-- A parameter that is read has another name than those before it. -/
theorem addParameter_differs {classes : ClassRegistry} {line : Nat} {function : String}
    {before : List Parameter} {written : String} {parameter : Parameter}
    (read : addParameter classes line function before written = .ok parameter) :
    ∀ earlier ∈ before, Text.equalIgnoringAsciiCase earlier.name parameter.name = false := by
  unfold addParameter at read
  split at read
  · cases read
  · dsimp only at read
    split at read
    · cases read
    · next fresh =>
      split at read
      · cases read
      · cases read
        intro earlier member
        exact Bool.eq_false_iff.mpr fun same => fresh (List.any_eq_true.mpr ⟨earlier, member, same⟩)

theorem addParameters_differ {classes : ClassRegistry} {line : Nat} {function : String}
    {before after : List Parameter} {texts : List String}
    (read : addParameters classes line function before texts = .ok after)
    (differ : NamesDiffer before) : NamesDiffer after := by
  induction texts generalizing before with
  | nil => exact Except.ok.inj read ▸ differ
  | cons written others ih =>
    unfold addParameters at read
    split at read
    · cases read
    · next parameter added =>
      refine ih read (List.pairwise_append.mpr ⟨differ, List.pairwise_singleton _ _, ?_⟩)
      intro earlier member later last
      rw [List.mem_singleton.mp last]
      exact addParameter_differs added earlier member

theorem read_differs {classes : ClassRegistry} {script : Script} {text : String} {line : Nat}
    {signature : Signature} (read : Signature.read classes script text line = .ok signature) :
    NamesDiffer signature.parameters := by
  unfold Signature.read at read
  split at read
  · cases read
  · dsimp only at read
    split at read
    · cases read
    · next parameters added =>
      split at read
      · cases read
      · cases read
        exact addParameters_differ added .nil

/-- The fields of different parameters differ. -/
theorem field_ne_of_differ {earlier later : Parameter}
    (differ : Text.equalIgnoringAsciiCase earlier.name later.name = false) :
    "_" ++ earlier.name ≠ "_" ++ later.name := by
  intro same
  rw [String.append_right_inj] at same
  rw [same, Text.equalIgnoringAsciiCase, beq_self_eq_true] at differ
  cases differ

/-! ## Binding -/

variable {function : String} {parameters : List Parameter} {arguments : List String}
  {event bound : HostEvent}

/-- Arguments can be bound exactly if the parameters for which none is left have defaults. -/
theorem bind_ok_iff : (∃ bound, Signature.bind function parameters arguments event = .ok bound) ↔
    ∀ parameter ∈ parameters.drop arguments.length, parameter.default.isSome = true := by
  induction parameters generalizing arguments event with
  | nil => exact ⟨fun _ _ absent => by simp at absent, fun _ => ⟨event, rfl⟩⟩
  | cons parameter others ih =>
    unfold Signature.bind
    cases arguments with
    | cons argument rest => exact ih
    | nil =>
      cases given : parameter.default with
      | none => simp [Parameter.textFrom?, given]
      | some default =>
        simpa [Parameter.textFrom?, given] using @ih [] _

/-- Binding leaves a field alone that is of none of the parameters. -/
theorem field?_bind_of_other {field : String}
    (binds : Signature.bind function parameters arguments event = .ok bound)
    (other : ∀ parameter ∈ parameters, "_" ++ parameter.name ≠ field) :
    bound.field? field = event.field? field := by
  induction parameters generalizing arguments event with
  | nil => rw [Except.ok.inj binds]
  | cons parameter others ih =>
    unfold Signature.bind at binds
    split at binds
    · cases binds
    · rw [ih binds fun later member => other later (List.mem_cons_of_mem _ member)]
      exact (Table.get?_insert ..).trans (if_neg (other parameter List.mem_cons_self))

/-- Binding gives the field of a parameter its argument, or its default. -/
theorem field?_bind (differ : NamesDiffer parameters)
    (binds : Signature.bind function parameters arguments event = .ok bound) {i : Nat}
    {parameter : Parameter} (there : parameters[i]? = some parameter) :
    ∃ written, arguments[i]?.or parameter.default = some written ∧
      bound.field? ("_" ++ parameter.name) = some (argumentValue written) := by
  induction parameters generalizing arguments event i with
  | nil => cases there
  | cons first others ih =>
    obtain ⟨fresh, rest⟩ := List.pairwise_cons.mp differ
    unfold Signature.bind at binds
    split at binds
    · cases binds
    · next written given =>
      cases i with
      | zero =>
        obtain rfl : first = parameter := Option.some.inj there
        refine ⟨written, List.head?_eq_getElem? ▸ given, ?_⟩
        rw [field?_bind_of_other binds fun later member =>
          (field_ne_of_differ (fresh later member)).symm]
        exact Table.get?_insert_self ..
      | succ i =>
        rw [List.getElem?_cons_succ] at there
        obtain ⟨text, own, value⟩ := ih rest binds there
        rw [List.getElem?_drop, Nat.add_comm] at own
        exact ⟨text, own, value⟩

/-- Binding changes fields only. -/
theorem eventClass_bind
    (binds : Signature.bind function parameters arguments event = .ok bound) :
    bound.eventClass = event.eventClass ∧ bound.cancelled = event.cancelled := by
  induction parameters generalizing arguments event with
  | nil =>
    rw [Except.ok.inj binds]
    exact ⟨rfl, rfl⟩
  | cons parameter others ih =>
    unfold Signature.bind at binds
    split at binds
    · cases binds
    · obtain ⟨sameClass, sameCancelled⟩ := ih binds
      exact ⟨sameClass, sameCancelled⟩

/-- What is bound when the arguments that are left out are written out as the defaults. -/
theorem bind_append_defaults
    (left : ∀ parameter ∈ parameters.drop arguments.length, parameter.default.isSome = true) :
    Signature.bind function parameters
        (arguments ++ (parameters.drop arguments.length).filterMap (·.default)) event =
      Signature.bind function parameters arguments event := by
  induction parameters generalizing arguments event with
  | nil => rfl
  | cons parameter others ih =>
    cases arguments with
    | cons argument rest =>
      unfold Signature.bind
      exact ih left
    | nil =>
      obtain ⟨default, given⟩ :=
        Option.isSome_iff_exists.mp (left parameter List.mem_cons_self)
      have later : ∀ parameter ∈ others, parameter.default.isSome = true :=
        fun other member => left other (List.mem_cons_of_mem _ member)
      unfold Signature.bind
      simpa [Parameter.textFrom?, given] using @ih [] _ later

/-! ## Counting -/

/-- Parameters with defaults come after those without. -/
def DefaultsLast (parameters : List Parameter) : Prop :=
  parameters.Pairwise fun earlier later =>
    earlier.default.isSome = true → later.default.isSome = true

instance : Decidable (DefaultsLast parameters) :=
  inferInstanceAs (Decidable (List.Pairwise _ _))

/-- When the defaults come last, all parameters but the first few have one, as few as there are
without. -/
theorem DefaultsLast.isSome (last : DefaultsLast parameters) :
    ∀ parameter ∈ parameters.drop (parameters.countP (·.default.isNone)),
      parameter.default.isSome = true := by
  induction parameters with
  | nil => exact fun _ absent => by simp at absent
  | cons parameter others ih =>
    obtain ⟨later, rest⟩ := List.pairwise_cons.mp last
    cases given : parameter.default with
    | none => simpa [given] using ih rest
    | some default =>
      rw [given] at later
      intro other member
      rcases List.mem_cons.mp (List.mem_of_mem_drop member) with rfl | member
      · rw [given]
        rfl
      · exact later other member rfl

/-- When all parameters but the first few have a default, as few as there are without, the defaults
come last: none of those first has one. -/
theorem DefaultsLast.of_isSome
    (left : ∀ parameter ∈ parameters.drop (parameters.countP (·.default.isNone)),
      parameter.default.isSome = true) : DefaultsLast parameters := by
  generalize count : parameters.countP (·.default.isNone) = required at left
  have none : (parameters.drop required).countP (·.default.isNone) = 0 :=
    List.countP_eq_zero.mpr fun parameter member => by
      simpa using Option.isSome_iff_ne_none.mp (left parameter member)
  have first : ∀ parameter ∈ parameters.take required, parameter.default.isNone = true := by
    refine List.countP_eq_length.mp (Nat.le_antisymm List.countP_le_length ?_)
    calc (parameters.take required).length ≤ required := List.length_take_le ..
      _ = (parameters.take required ++ parameters.drop required).countP (·.default.isNone) := by
        rw [List.take_append_drop, count]
      _ = (parameters.take required).countP (·.default.isNone) := by
        rw [List.countP_append, none, Nat.add_zero]
  rw [DefaultsLast, ← List.take_append_drop required parameters]
  refine List.pairwise_append.mpr ⟨?_, ?_, fun _ _ later member _ => left later member⟩
  · refine List.pairwise_of_forall_mem_list fun earlier member later _ given => ?_
    rw [Option.isSome_iff_ne_none] at given
    exact absurd (Option.isNone_iff_eq_none.mp (first earlier member)) given
  · exact List.pairwise_of_forall_mem_list fun _ _ later member _ => left later member

variable {signature : Signature}

theorem required_eq : signature.required = signature.parameters.countP (·.default.isNone) :=
  List.countP_eq_length_filter.symm

theorem accepts_iff {count : Nat} : signature.accepts count = true ↔
    signature.required ≤ count ∧ count ≤ signature.parameters.length := by
  rw [accepts, Bool.and_eq_true, decide_eq_true_eq, decide_eq_true_eq]

/-- When the defaults come last, a call with a number of arguments that fits leaves out only
parameters that have one. -/
theorem isSome_of_accepts (last : DefaultsLast signature.parameters)
    (accepted : signature.accepts arguments.length = true) :
    ∀ parameter ∈ signature.parameters.drop arguments.length,
      parameter.default.isSome = true := by
  intro parameter member
  obtain ⟨enough, _⟩ := accepts_iff.mp accepted
  rw [required_eq] at enough
  exact last.isSome parameter (List.drop_subset_drop_left _ enough member)

/-- The arguments of a call, with those that it leaves out written out as the defaults. -/
def writtenOut (signature : Signature) (arguments : List String) : List String :=
  arguments ++ (signature.parameters.drop arguments.length).filterMap (·.default)

end Signature

/-! ## Calls -/

/-- In the event of a call every parameter has its value: that of the argument in its place, or of
its default. There is nothing else in it. -/
structure Signature.Bound (signature : Signature) (name : String) (arguments : List String)
    (event : HostEvent) : Prop where
  value : ∀ (i : Nat) (parameter : Parameter), signature.parameters[i]? = some parameter →
    ∃ written, arguments[i]?.or parameter.default = some written ∧
      event.field? ("_" ++ parameter.name) = some (argumentValue written)
  function : event.field? "function" = some name
  only : ∀ field value, event.field? field = some value →
    field = "function" ∨ ∃ parameter ∈ signature.parameters, field = "_" ++ parameter.name
  eventClass : event.eventClass = .of "function"
  running : event.cancelled = false

/-- Where the depth of calls allows it, a call of the function with these arguments runs its body
with all parameters bound, and it is the call with all arguments written out. -/
structure Environment.TakesArguments (environment : Environment) (name : String)
    (function : Function) (arguments : List String) : Prop where
  runs : ∃ event, function.signature.Bound name arguments event ∧
    ∀ depth < environment.maxDepth, ∀ effects,
      environment.call depth name arguments effects =
        let (flow, state) := environment.run function.items (depth + 1) ⟨event, effects⟩
        (flow.map Flow.result, state.effects)
  full : (function.signature.writtenOut arguments).length = function.signature.parameters.length
  writtenOut : ∀ depth effects, environment.call depth name arguments effects =
    environment.call depth name (function.signature.writtenOut arguments) effects

namespace Function

variable {function : Function} {name : String} {arguments : List String} {event : HostEvent}

theorem event_bound (differ : Signature.NamesDiffer function.signature.parameters)
    (binds : function.event name arguments = .ok event) :
    function.signature.Bound name arguments event where
  value := fun _ _ there => Signature.field?_bind differ binds there
  function := by
    rw [Signature.field?_bind_of_other binds fun parameter _ same => ?_]
    · exact Table.get?_insert_self ..
    · have first := congrArg (·.toList.head?) same
      simp at first
  only := by
    intro field value found
    by_contra other
    rw [not_or] at other
    obtain ⟨notFunction, notParameter⟩ := other
    rw [Signature.field?_bind_of_other binds fun parameter member same =>
      notParameter ⟨parameter, member, same.symm⟩] at found
    change ((HostEvent.ofClass "function").fields.insert "function" name).get? field = _ at found
    rw [Table.get?_insert, if_neg fun same => notFunction same.symm] at found
    cases found
  eventClass := (Signature.eventClass_bind binds).1
  running := (Signature.eventClass_bind binds).2

/-- The event of a call does not change when the arguments are written out. -/
theorem event_writtenOut
    (left : ∀ parameter ∈ function.signature.parameters.drop arguments.length,
      parameter.default.isSome = true) :
    function.event name (function.signature.writtenOut arguments) =
      function.event name arguments :=
  Signature.bind_append_defaults left

end Function

namespace Environment

variable {environment : Environment} {name : String} {function : Function}
  {arguments : List String}

theorem call_of_bound {event : HostEvent} {depth : Nat}
    (found : environment.functions.bodies.get? name = some function)
    (bound : function.event name arguments = .ok event) (room : depth < environment.maxDepth)
    (effects : List String) :
    environment.call depth name arguments effects =
      let (flow, state) := environment.run function.items (depth + 1) ⟨event, effects⟩
      (flow.map Flow.result, state.effects) := by
  have levels : environment.maxDepth - depth = environment.maxDepth - (depth + 1) + 1 := by omega
  rw [call, levels]
  exact FunctionTable.call_of_bound found bound ..

/-- A call depends on its arguments by the event that they give only. -/
theorem call_congr {others : List String}
    (found : environment.functions.bodies.get? name = some function)
    (same : function.event name others = function.event name arguments) (depth : Nat)
    (effects : List String) :
    environment.call depth name others effects = environment.call depth name arguments effects := by
  unfold call
  cases environment.maxDepth - depth with
  | zero => rfl
  | succ remaining => simp only [FunctionTable.call, found, same]

end Environment

namespace Signature

/-- **Accepted arguments are bound.** The signatures whose defaults come last are exactly those
for which every call with a number of arguments that is accepted takes them all. -/
theorem takesArguments_iff {classes : ClassRegistry} {script : Script} {text : String} {line : Nat}
    {signature : Signature} (read : Signature.read classes script text line = .ok signature) :
    DefaultsLast signature.parameters ↔
      ∀ (environment : Environment) (name : String) (function : Function)
        (arguments : List String),
        environment.functions.bodies.get? name = some function →
        function.signature = signature → signature.accepts arguments.length = true →
        environment.TakesArguments name function arguments := by
  constructor
  · rintro last environment name function arguments found rfl accepted
    have left := isSome_of_accepts last accepted
    obtain ⟨event, bound⟩ : ∃ event, function.event name arguments = .ok event :=
      bind_ok_iff.mpr left
    refine ⟨⟨event, Function.event_bound (read_differs read) bound, fun depth room effects => ?_⟩,
      ?_, fun depth effects => ?_⟩
    · exact Environment.call_of_bound found bound room effects
    · obtain ⟨_, fits⟩ := accepts_iff.mp accepted
      rw [writtenOut, List.length_append, List.filterMap_length_eq_length.mpr left,
        List.length_drop, Nat.add_sub_cancel' fits]
    · exact (Environment.call_congr found (Function.event_writtenOut left) depth effects).symm
  · intro takes
    -- As few arguments as are accepted, to a function that does nothing.
    let function : Function := ⟨signature, []⟩
    let environment : Environment :=
      ⟨{ bodies := Table.empty.insert signature.name function }, .recording, 1⟩
    have fewest : (List.replicate signature.required "").length = signature.required :=
      List.length_replicate
    obtain ⟨event, bound, _⟩ := (takes environment signature.name function
      (List.replicate signature.required "") (Table.get?_insert_self ..) rfl
      (accepts_iff.mpr (by rw [fewest]; exact ⟨Nat.le_refl _, List.length_filter_le ..⟩))).runs
    refine .of_isSome fun parameter member => ?_
    rw [← required_eq] at member
    obtain ⟨i, there⟩ := List.mem_iff_getElem?.mp member
    rw [List.getElem?_drop] at there
    obtain ⟨written, given, _⟩ := bound.value _ _ there
    rw [List.getElem?_eq_none (by rw [fewest]; omega), Option.none_or] at given
    exact Option.isSome_of_eq_some given

/-- A result is a success when its value is known. -/
theorem eq_ok_of_toOption {ε α : Type} {result : Except ε α} {value : α}
    (same : result.toOption = some value) : result = .ok value := by
  cases result with
  | error failure => cases same
  | ok other => exact congrArg Except.ok (Option.some.inj same)

/-- A signature with its default last. -/
def defaultLast : Signature :=
  ⟨⟨⟨"a.sk"⟩, 1⟩, "f", [⟨"a", "boolean", none⟩, ⟨"b", "boolean", some "true"⟩], none, 1⟩

/-- Calls of it with one argument or two take them. -/
theorem defaultLast_takes :
    Signature.read .standard ⟨⟨"a.sk"⟩, 1⟩ "f(a: boolean, b: boolean = true)" 1 =
        .ok defaultLast ∧
      DefaultsLast defaultLast.parameters ∧
      ∀ (environment : Environment) (name : String) (function : Function)
        (arguments : List String),
        environment.functions.bodies.get? name = some function →
        function.signature = defaultLast → defaultLast.accepts arguments.length = true →
        environment.TakesArguments name function arguments := by
  have read : Signature.read .standard ⟨⟨"a.sk"⟩, 1⟩ "f(a: boolean, b: boolean = true)" 1 =
      .ok defaultLast :=
    eq_ok_of_toOption (by decide +kernel)
  have last : DefaultsLast defaultLast.parameters := by decide
  exact ⟨read, last, (takesArguments_iff read).mp last⟩

/-- A signature with its default first. -/
def defaultFirst : Signature :=
  ⟨⟨⟨"a.sk"⟩, 1⟩, "f", [⟨"a", "boolean", some "true"⟩, ⟨"b", "boolean", none⟩], none, 1⟩

/-- A call of it with one argument is accepted, and fails. -/
theorem defaultFirst_misses :
    Signature.read .standard ⟨⟨"a.sk"⟩, 1⟩ "f(a: boolean = true, b: boolean)" 1 =
        .ok defaultFirst ∧
      defaultFirst.accepts ["no"].length = true ∧
      ((Environment.mk { bodies := Table.empty.insert "f" ⟨defaultFirst, []⟩ } .recording 64).call
        0 "f" ["no"] []).1 = .error (.runtime "Missing argument 'b' in call to 'f'") := by
  refine ⟨eq_ok_of_toOption (by decide +kernel), by decide, ?_⟩
  rfl

end Signature

end ScriptBinding

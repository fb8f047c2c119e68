import ScriptBinding.Proofs.ExpressionTraces
import ScriptBinding.Regex.Code

/-! # The paths through the code of an expression

From an address of some code, a trace may lead to acceptance, step by step. The code of an
expression leads from where it starts to where it ends by exactly the traces of the expression,
whatever comes behind it.
-/

namespace ScriptBinding.Regex

open Computability

/-- What is met at the start or the end of a named group. -/
def noted (kept : String → Bool) (name : String) (opens : Bool) : List Event :=
  if kept name then [.mark name opens] else []

/-- In so many steps from an address, a trace leads to acceptance. -/
inductive Accepts (fetch : Nat → Option Instruction) (kept : String → Bool) :
    Nat → Nat → List Event → Prop
  | accept {address : Nat} (here : fetch address = some .accept) : Accepts fetch kept 0 address []
  | take {steps address : Nat} {chars : CharSet} {c : Char} {trace : List Event}
      (here : fetch address = some (.take chars)) (has : chars.contains c = true)
      (rest : Accepts fetch kept steps (address + 1) trace) :
      Accepts fetch kept (steps + 1) address (.char c :: trace)
  | check {steps address : Nat} {condition : Edge} {trace : List Event}
      (here : fetch address = some (.check condition))
      (rest : Accepts fetch kept steps (address + 1) trace) :
      Accepts fetch kept (steps + 1) address (.at condition :: trace)
  | mark {steps address : Nat} {name : String} {opens : Bool} {trace : List Event}
      (here : fetch address = some (.mark name opens))
      (rest : Accepts fetch kept steps (address + 1) trace) :
      Accepts fetch kept (steps + 1) address (noted kept name opens ++ trace)
  | jump {steps address target : Nat} {trace : List Event}
      (here : fetch address = some (.jump target)) (rest : Accepts fetch kept steps target trace) :
      Accepts fetch kept (steps + 1) address trace
  | first {steps address first second : Nat} {trace : List Event}
      (here : fetch address = some (.fork first second))
      (rest : Accepts fetch kept steps first trace) : Accepts fetch kept (steps + 1) address trace
  | second {steps address first second : Nat} {trace : List Event}
      (here : fetch address = some (.fork first second))
      (rest : Accepts fetch kept steps second trace) : Accepts fetch kept (steps + 1) address trace

/-- The traces that lead from an address to acceptance. -/
def accepted (fetch : Nat → Option Instruction) (kept : String → Bool) (address : Nat) :
    Language Event :=
  {trace | ∃ steps, Accepts fetch kept steps address trace}

/-- The code leads from one address to another by the traces of a language, and in no other way. -/
structure Leads (fetch : Nat → Option Instruction) (kept : String → Bool) (start next : Nat)
    (language : Language Event) : Prop where
  joins : ∀ early ∈ language, ∀ late ∈ accepted fetch kept next,
    early ++ late ∈ accepted fetch kept start
  splits : ∀ steps trace, Accepts fetch kept steps start trace →
    ∃ early ∈ language, ∃ late fewer, fewer ≤ steps ∧ Accepts fetch kept fewer next late ∧
      trace = early ++ late

namespace Leads

variable {fetch : Nat → Option Instruction} {kept : String → Bool} {start between next : Nat}
  {L M : Language Event}

theorem refl (address : Nat) : Leads fetch kept address address 1 where
  joins := by
    intro early member late accepts
    rw [(Language.mem_one early).mp member]
    exact accepts
  splits := fun steps trace accepts =>
    ⟨[], Language.nil_mem_one, trace, steps, le_rfl, accepts, rfl⟩

theorem trans (first : Leads fetch kept start between L) (rest : Leads fetch kept between next M) :
    Leads fetch kept start next (L * M) where
  joins := by
    rintro _ ⟨early, one, middle, other, rfl⟩ late accepts
    rw [List.append_assoc]
    exact first.joins early one _ (rest.joins middle other late accepts)
  splits := by
    intro steps trace accepts
    obtain ⟨early, one, _, fewer, less, behind, rfl⟩ := first.splits steps trace accepts
    obtain ⟨middle, other, late, fewest, least, last, rfl⟩ := rest.splits fewer _ behind
    exact ⟨early ++ middle, Language.append_mem_mul one other, late, fewest, least.trans less, last,
      (List.append_assoc early middle late).symm⟩

/-! ## Single instructions -/

theorem take {chars : CharSet} (here : fetch start = some (.take chars)) :
    Leads fetch kept start (start + 1) (oneChar chars) where
  joins := by
    rintro _ ⟨c, has, rfl⟩ late ⟨steps, accepts⟩
    exact ⟨_, .take here has accepts⟩
  splits := by
    intro steps trace accepts
    cases accepts with
    | take there has rest =>
      cases here.symm.trans there
      exact ⟨[_], ⟨_, has, rfl⟩, _, _, Nat.le_succ _, rest, rfl⟩
    | _ there => cases here.symm.trans there

theorem check {condition : Edge} (here : fetch start = some (.check condition)) :
    Leads fetch kept start (start + 1) {[.at condition]} where
  joins := by
    rintro _ rfl late ⟨steps, accepts⟩
    exact ⟨_, .check here accepts⟩
  splits := by
    intro steps trace accepts
    cases accepts with
    | check there rest =>
      cases here.symm.trans there
      exact ⟨[_], rfl, _, _, Nat.le_succ _, rest, rfl⟩
    | _ there => cases here.symm.trans there

theorem mark {name : String} {opens : Bool} (here : fetch start = some (.mark name opens)) :
    Leads fetch kept start (start + 1) {noted kept name opens} where
  joins := by
    rintro _ rfl late ⟨steps, accepts⟩
    exact ⟨_, .mark here accepts⟩
  splits := by
    intro steps trace accepts
    cases accepts with
    | mark there rest =>
      cases here.symm.trans there
      exact ⟨_, rfl, _, _, Nat.le_succ _, rest, rfl⟩
    | _ there => cases here.symm.trans there

theorem jump {target : Nat} (here : fetch start = some (.jump target)) :
    Leads fetch kept start target 1 where
  joins := by
    rintro early member late ⟨steps, accepts⟩
    rw [(Language.mem_one early).mp member]
    exact ⟨_, .jump here accepts⟩
  splits := by
    intro steps trace accepts
    cases accepts with
    | jump there rest =>
      cases here.symm.trans there
      exact ⟨[], Language.nil_mem_one, _, _, Nat.le_succ _, rest, rfl⟩
    | _ there => cases here.symm.trans there

/-! ## Forks -/

theorem fork {first second : Nat} (here : fetch start = some (.fork first second))
    (one : Leads fetch kept first next L) (other : Leads fetch kept second next M) :
    Leads fetch kept start next (L + M) where
  joins := by
    rintro early (member | member) late accepts
    · obtain ⟨steps, path⟩ := one.joins early member late accepts
      exact ⟨_, .first here path⟩
    · obtain ⟨steps, path⟩ := other.joins early member late accepts
      exact ⟨_, .second here path⟩
  splits := by
    intro steps trace accepts
    cases accepts with
    | first there rest =>
      cases here.symm.trans there
      obtain ⟨early, member, late, fewer, less, last, same⟩ := one.splits _ trace rest
      exact ⟨early, Or.inl member, late, fewer, Nat.le_succ_of_le less, last, same⟩
    | second there rest =>
      cases here.symm.trans there
      obtain ⟨early, member, late, fewer, less, last, same⟩ := other.splits _ trace rest
      exact ⟨early, Or.inr member, late, fewer, Nat.le_succ_of_le less, last, same⟩
    | _ there => cases here.symm.trans there

variable {goOn leave : Nat} {greedy : Bool}

theorem goOnOr (here : fetch start = some (Reduced.goOnOr greedy goOn leave))
    (onward : Leads fetch kept goOn next L) (out : Leads fetch kept leave next M) :
    Leads fetch kept start next (M + L) := by
  cases greedy with
  | true => exact add_comm L M ▸ fork here onward out
  | false => exact fork here out onward

theorem goes (here : fetch start = some (Reduced.goOnOr greedy goOn leave)) {late : List Event}
    (accepts : late ∈ accepted fetch kept goOn) : late ∈ accepted fetch kept start := by
  obtain ⟨steps, path⟩ := accepts
  cases greedy with
  | true => exact ⟨_, .first here path⟩
  | false => exact ⟨_, .second here path⟩

theorem leaves (here : fetch start = some (Reduced.goOnOr greedy goOn leave)) {late : List Event}
    (accepts : late ∈ accepted fetch kept leave) : late ∈ accepted fetch kept start := by
  obtain ⟨steps, path⟩ := accepts
  cases greedy with
  | true => exact ⟨_, .second here path⟩
  | false => exact ⟨_, .first here path⟩

/-- A way on from a fork that goes on or leaves. -/
theorem goes_or_leaves (here : fetch start = some (Reduced.goOnOr greedy goOn leave)) {steps : Nat}
    {trace : List Event} (accepts : Accepts fetch kept steps start trace) :
    ∃ fewer < steps,
      Accepts fetch kept fewer goOn trace ∨ Accepts fetch kept fewer leave trace := by
  unfold Reduced.goOnOr at here
  cases greedy <;> cases accepts with
  | first there rest =>
    cases here.symm.trans there
    exact ⟨_, Nat.lt_succ_self _, by tauto⟩
  | second there rest =>
    cases here.symm.trans there
    exact ⟨_, Nat.lt_succ_self _, by tauto⟩
  | _ there => cases here.symm.trans there

/-- A fork to which a body leads back goes through the body any number of times. -/
theorem loop (here : fetch start = some (Reduced.goOnOr greedy goOn leave))
    (body : Leads fetch kept goOn start L) : Leads fetch kept start leave L∗ where
  joins := by
    rintro _ ⟨parts, rfl, each⟩ late accepts
    induction parts with
    | nil => exact leaves here accepts
    | cons part others ih =>
      obtain ⟨own, later⟩ := List.forall_mem_cons.mp each
      rw [List.flatten_cons, List.append_assoc]
      exact goes here (body.joins part own _ (ih later))
  splits := by
    intro steps
    induction steps using Nat.strong_induction_on with
    | h steps ih =>
      intro trace accepts
      obtain ⟨fewer, less, onward | out⟩ := goes_or_leaves here accepts
      · obtain ⟨part, own, _, fewest, least, again, rfl⟩ := body.splits fewer trace onward
        obtain ⟨early, more, late, left, below, last, rfl⟩ :=
          ih fewest (least.trans_lt less) _ again
        have all : L * L∗ ≤ L∗ := mul_kstar_le_kstar
        exact ⟨part ++ early, all (Language.append_mem_mul own more), late, left, by omega, last,
          (List.append_assoc ..).symm⟩
      · exact ⟨[], Language.nil_mem_kstar L, trace, fewer, less.le, out, rfl⟩

end Leads

/-! ## Code at its place -/

/-- From an address on stands this code. -/
def Has (fetch : Nat → Option Instruction) (start : Nat) (code : List Instruction) : Prop :=
  ∀ index instruction, code[index]? = some instruction → fetch (start + index) = some instruction

namespace Has

variable {fetch : Nat → Option Instruction} {start : Nat} {code others : List Instruction}
  {instruction : Instruction}

theorem head (has : Has fetch start (instruction :: code)) : fetch start = some instruction :=
  has 0 instruction rfl

theorem tail (has : Has fetch start (instruction :: code)) : Has fetch (start + 1) code := by
  intro index other there
  rw [Nat.add_assoc, Nat.add_comm 1 index]
  exact has (index + 1) other there

theorem left (has : Has fetch start (code ++ others)) : Has fetch start code := by
  intro index other there
  obtain ⟨below, _⟩ := List.getElem?_eq_some_iff.mp there
  exact has index other ((List.getElem?_append_left below).trans there)

theorem right (has : Has fetch start (code ++ others)) :
    Has fetch (start + code.length) others := by
  intro index other there
  rw [Nat.add_assoc]
  refine has (code.length + index) other ?_
  rw [List.getElem?_append_right (Nat.le_add_right ..), Nat.add_sub_cancel_left]
  exact there

end Has

/-! ## Copies in a row -/

namespace Reduced

theorem inARow_succ (body : Nat → List Instruction) (length start count : Nat) :
    inARow body length start (count + 1) =
      body start ++ inARow body length (start + length) count := by
  unfold inARow
  rw [List.range_succ_eq_map, List.flatMap_cons, Nat.zero_mul, Nat.add_zero, List.flatMap_map]
  congr 2
  funext number
  congr 1
  rw [Nat.succ_mul, Nat.add_assoc, Nat.add_comm length]

theorem inARow_succ_last (body : Nat → List Instruction) (length start count : Nat) :
    inARow body length start (count + 1) =
      inARow body length start count ++ body (start + count * length) := by
  unfold inARow
  rw [List.range_succ, List.flatMap_append, List.flatMap_singleton]

theorem length_inARow {body : Nat → List Instruction} {length : Nat}
    (each : ∀ address, (body address).length = length) (start count : Nat) :
    (inARow body length start count).length = count * length := by
  induction count generalizing start with
  | zero => exact (Nat.zero_mul length).symm
  | succ count ih =>
    rw [inARow_succ, List.length_append, each, ih, Nat.succ_mul, Nat.add_comm]

section CodeLength

variable (a b : Reduced) (chars : List Char) (name : String) (least most : Nat) (greedy : Bool)

theorem codeLength_literal : (literal chars).codeLength = chars.length := rfl

theorem codeLength_named : (group (some name) a).codeLength = a.codeLength + 2 := rfl

theorem codeLength_star : (repeated 0 none greedy a).codeLength = a.codeLength + 2 := rfl

theorem codeLength_atLeast :
    (repeated (least + 1) none greedy a).codeLength = (least + 1) * a.codeLength + 1 := rfl

theorem codeLength_bounded : (repeated least (some most) greedy a).codeLength =
    least * a.codeLength + (most - least) * (a.codeLength + 1) := by
  cases least <;> rfl

theorem codeLength_cat : (cat a b).codeLength = a.codeLength + b.codeLength := rfl

theorem codeLength_alt : (alt a b).codeLength = a.codeLength + b.codeLength + 2 := rfl

end CodeLength

theorem length_code (expr : Reduced) (start : Nat) :
    (expr.code start).length = expr.codeLength := by
  induction expr generalizing start with
  | empty => rfl
  | literal chars => simp [code, codeLength]
  | set chars => rfl
  | edge condition => rfl
  | group name body ih =>
    cases name with
    | none => exact ih start
    | some name => simp [code, codeLength, ih]
  | repeated least most greedy body ih =>
    cases most with
    | none =>
      cases least with
      | zero =>
        simp only [code, codeLength]
        split <;> simp [ih]
      | succ least => simp [code, codeLength, length_inARow ih]
    | some most =>
      have optional (leave address : Nat) :
          (goOnOr greedy (address + 1) leave :: body.code (address + 1)).length =
            body.codeLength + 1 := by
        rw [List.length_cons, ih]
      simp [code, codeLength, length_inARow ih, length_inARow (optional _)]
  | cat a b first second => simp [code, codeLength, first, second]
  | alt a b first second =>
    simp [code, codeLength, first, second]
    omega

end Reduced

/-- At most so many copies are none, or one before at most so many but one. -/
theorem one_add_pow_succ (L : Language Event) (count : Nat) :
    (1 + L) ^ (count + 1) = 1 + L * (1 + L) ^ count := by
  induction count with
  | zero => simp
  | succ count ih =>
    have more : L * (1 + L) ^ count + L * (1 + L) ^ (count + 1) = L * (1 + L) ^ (count + 1) := by
      rw [← mul_add, pow_succ', one_add_mul, ← add_assoc, Language.add_self]
    rw [pow_succ', one_add_mul]
    conv_lhs => rw [ih, add_assoc, ← ih, more]

section Code

variable {fetch : Nat → Option Instruction} {kept : String → Bool} {start : Nat}
  {expr : Reduced} {L : Language Event}

/-- The code of an expression leads from any address to its end by some traces. -/
def LeadsBy (fetch : Nat → Option Instruction) (kept : String → Bool) (expr : Reduced)
    (language : Language Event) : Prop :=
  ∀ start, Has fetch start (expr.code start) →
    Leads fetch kept start (start + expr.codeLength) language

/-- Required copies in a row. -/
theorem LeadsBy.row (body : LeadsBy fetch kept expr L) {count : Nat}
    (has : Has fetch start
      (Reduced.inARow (fun address => expr.code address) expr.codeLength start count)) :
    Leads fetch kept start (start + count * expr.codeLength) (L ^ count) := by
  induction count generalizing start with
  | zero =>
    rw [Nat.zero_mul, Nat.add_zero, pow_zero]
    exact .refl start
  | succ count ih =>
    rw [Reduced.inARow_succ] at has
    have later := has.right
    rw [Reduced.length_code] at later
    rw [pow_succ', Nat.succ_mul, Nat.add_comm _ expr.codeLength, ← Nat.add_assoc]
    exact (body start has.left).trans (ih later)

/-- Copies in a row, each behind a fork that leaves. -/
theorem LeadsBy.optionalRow (body : LeadsBy fetch kept expr L) {greedy : Bool} {leave count : Nat}
    (ends : start + count * (expr.codeLength + 1) = leave)
    (has : Has fetch start (Reduced.inARow
      (fun address => Reduced.goOnOr greedy (address + 1) leave :: expr.code (address + 1))
      (expr.codeLength + 1) start count)) :
    Leads fetch kept start leave ((1 + L) ^ count) := by
  induction count generalizing start with
  | zero =>
    rw [Nat.zero_mul, Nat.add_zero] at ends
    rw [pow_zero, ends]
    exact .refl leave
  | succ count ih =>
    rw [Reduced.inARow_succ, List.cons_append] at has
    have later := has.tail.right
    rw [Reduced.length_code, Nat.add_right_comm, Nat.add_assoc] at later
    rw [one_add_pow_succ]
    refine .goOnOr has.head ((body _ has.tail.left).trans ?_) (.refl leave)
    rw [Nat.add_right_comm, Nat.add_assoc]
    refine ih ?_ later
    rw [Nat.add_assoc, ← ends, Nat.succ_mul, Nat.add_comm (expr.codeLength + 1)]

theorem leadsBy_literal (chars : List Char) :
    LeadsBy fetch kept (.literal chars) {chars.map .char} := by
  intro start has
  have single (c : Char) : oneChar (.single c) = {[.char c]} := by
    ext trace
    exact ⟨fun ⟨d, has, same⟩ => (CharSet.contains_single c d).mp has ▸ same,
      fun same => ⟨c, (CharSet.contains_single c c).mpr rfl, same⟩⟩
  induction chars generalizing start with
  | nil => exact .refl start
  | cons c others ih =>
    have first : Leads fetch kept start (start + 1) (oneChar (.single c)) := .take has.head
    have whole := first.trans (ih _ has.tail)
    rw [single, Reduced.singleton_mul] at whole
    rw [Reduced.codeLength_literal, List.length_cons, Nat.add_comm others.length, ← Nat.add_assoc]
    exact whole

theorem LeadsBy.named (body : LeadsBy fetch kept expr L) (name : String) :
    LeadsBy fetch kept (.group (some name) expr) (grouped kept (some name) L) := by
  intro start has
  have inner := has.tail.left
  have closing := has.tail.right
  rw [Reduced.length_code] at closing
  have opening : Leads fetch kept start (start + 1) {noted kept name true} := .mark has.head
  have whole := opening.trans ((body _ inner).trans (.mark closing.head))
  have same : grouped kept (some name) L =
      {noted kept name true} * (L * {noted kept name false}) := by
    unfold grouped noted
    dsimp only
    split
    · exact mul_assoc _ _ _
    · exact (one_mul (L * 1)).trans (mul_one L) |>.symm
  rw [same, Reduced.codeLength_named, show start + (expr.codeLength + 2) =
    start + 1 + expr.codeLength + 1 by omega]
  exact whole

/-- Any number of copies, none of which is required. -/
theorem LeadsBy.star (body : LeadsBy fetch kept expr L) (greedy : Bool) :
    LeadsBy fetch kept (.repeated 0 none greedy expr) L∗ := by
  intro start has
  rw [Reduced.codeLength_star]
  unfold Reduced.code at has
  dsimp only at has
  split at has
  · have back := has.tail.right
    rw [Reduced.length_code] at back
    have again := (body _ has.tail.left).trans (.jump back.head)
    rw [mul_one] at again
    exact .loop has.head again
  · have last := has.tail.right
    rw [Reduced.length_code] at last
    have again := Leads.loop last.head (body _ has.tail.left)
    have whole := Leads.goOnOr has.head ((body _ has.tail.left).trans again) (.refl _)
    rw [one_add_mul_kstar] at whole
    exact whole

/-- Required copies in a row, the last of which may be repeated. -/
theorem LeadsBy.atLeast (body : LeadsBy fetch kept expr L) (least : Nat) (greedy : Bool) :
    LeadsBy fetch kept (.repeated (least + 1) none greedy expr) (L ^ (least + 1) * L∗) := by
  intro start has
  have back := has.right
  rw [Reduced.length_inARow (Reduced.length_code expr)] at back
  have copies := has.left
  rw [Reduced.inARow_succ_last] at copies
  have last := copies.right
  rw [Reduced.length_inARow (Reduced.length_code expr)] at last
  have again := body _ last
  rw [Nat.add_assoc, ← Nat.succ_mul] at again
  have whole := (body.row has.left).trans (.loop back.head again)
  rw [Reduced.codeLength_atLeast, ← Nat.add_assoc]
  rw [Nat.add_assoc start, ← Nat.succ_mul] at whole
  exact whole

theorem LeadsBy.bounded (body : LeadsBy fetch kept expr L) (least most : Nat) (greedy : Bool) :
    LeadsBy fetch kept (.repeated least (some most) greedy expr)
      (L ^ least * (1 + L) ^ (most - least)) := by
  intro start has
  rw [Reduced.code] at has
  have optional := has.right
  rw [Reduced.length_inARow (Reduced.length_code expr)] at optional
  rw [Reduced.codeLength_bounded, ← Nat.add_assoc]
  exact (body.row has.left).trans (body.optionalRow rfl optional)

/-- The code of an expression leads to its end by exactly the traces of the expression. -/
theorem leadsBy_code (expr : Reduced) : LeadsBy fetch kept expr (expr.traces kept) := by
  induction expr with
  | empty => exact fun start has => .refl start
  | literal chars => exact leadsBy_literal chars
  | set chars => exact fun start has => .take has.head
  | edge condition => exact fun start has => .check has.head
  | group name body ih =>
    cases name with
    | none => exact ih
    | some name => exact ih.named name
  | repeated least most greedy body ih =>
    cases most with
    | some most => exact ih.bounded least most greedy
    | none =>
      cases least with
      | zero =>
        rw [Reduced.traces, copied, pow_zero, one_mul]
        exact ih.star greedy
      | succ least => exact ih.atLeast least greedy
  | cat a b first second =>
    intro start has
    have later := has.right
    rw [Reduced.length_code] at later
    rw [Reduced.codeLength_cat, ← Nat.add_assoc]
    exact (first start has.left).trans (second _ later)
  | alt a b first second =>
    intro start has
    have out := has.tail.right
    rw [Reduced.length_code] at out
    have taken := (first _ has.tail.left).trans (.jump out.head)
    rw [mul_one] at taken
    have other := out.tail
    rw [show start + 1 + a.codeLength + 1 = start + a.codeLength + 2 by omega] at other
    have whole := Leads.fork has.head taken (second _ other)
    rw [Reduced.codeLength_alt, show start + (a.codeLength + b.codeLength + 2) =
      start + a.codeLength + 2 + b.codeLength by omega]
    exact whole

end Code

end ScriptBinding.Regex

import ScriptBinding.Proofs.CodePaths

/-! # What code is made of

Reducing an expression brings in no conditions and no groups. The code of an expression asks for the
conditions and marks the groups that the expression has, and leads no further than to its own end.
The code of a sequence is that of its parts, one behind the other.
-/

namespace ScriptBinding.Regex

/-- All conditions and groups of an expression have a property. -/
def Meets (property : Event → Prop) : Regex → Prop
  | empty | set _ _ => True
  | edge condition => property (.at condition)
  | cat a b | alt a b => a.Meets property ∧ b.Meets property
  | repeated _ _ _ body => body.Meets property
  | group bracket body =>
    (∀ name ∈ bracket.name?, ∀ opens, property (.mark name opens)) ∧ body.Meets property

variable {property : Event → Prop}

theorem Meets.of_all {regex : Regex} (all : ∀ event, property event) : regex.Meets property := by
  induction regex with
  | empty | set => trivial
  | edge condition => exact all _
  | cat a b first second | alt a b first second => exact ⟨first, second⟩
  | repeated _ _ _ _ ih => exact ih
  | group bracket body ih => exact ⟨fun _ _ _ => all _, ih⟩

/-- Neither the end of the text nor that of a line is asked for. -/
def Event.Endless (event : Event) : Prop :=
  event ≠ .at .textEnd ∧ event ≠ .at .lineEnd

/-- Neither the end of the text nor that of a line is asked for, and no mark is made but those of
some groups. -/
def Event.Forward (names : List String) : Event → Prop
  | .char _ => True
  | .at condition => condition ≠ .textEnd ∧ condition ≠ .lineEnd
  | .mark name _ => name ∈ names

theorem Meets.forward {regex : Regex} {names : List String} (meets : regex.Meets Event.Endless)
    (within : ∀ name ∈ regex.groupNames, name ∈ names) : regex.Meets (Event.Forward names) := by
  induction regex with
  | empty | set => trivial
  | edge condition => exact ⟨fun same => meets.1 (same ▸ rfl), fun same => meets.2 (same ▸ rfl)⟩
  | cat a b first second | alt a b first second =>
    exact ⟨first meets.1 fun name own => within name (List.mem_append_left _ own),
      second meets.2 fun name own => within name (List.mem_append_right _ own)⟩
  | repeated _ _ _ _ ih => exact ih meets within
  | group bracket body ih =>
    refine ⟨fun name own _ => within name ?_, ih meets.2 fun name own =>
      within name (List.mem_append_right _ own)⟩
    exact List.mem_append_left _ (Option.mem_toList.mpr own)

namespace Reduced

/-- All conditions and groups of a reduced expression have a property. -/
def Meets (property : Event → Prop) : Reduced → Prop
  | empty | literal _ | set _ => True
  | edge condition => property (.at condition)
  | group name body => (∀ own ∈ name, ∀ opens, property (.mark own opens)) ∧ body.Meets property
  | repeated _ _ _ body => body.Meets property
  | cat a b | alt a b => a.Meets property ∧ b.Meets property

/-! ## Reducing -/

variable {a b : Reduced} {exprs : List Reduced}

theorem Meets.prepend (first : a.Meets property) (rest : b.Meets property) :
    (prepend a b).Meets property := by
  unfold Reduced.prepend
  split
  · exact rest
  · exact first
  · trivial
  · exact ⟨trivial, rest.2⟩
  · exact ⟨first, rest⟩

theorem Meets.factors (meets : a.Meets property) : ∀ expr ∈ a.factors, expr.Meets property := by
  induction a with
  | empty => exact fun _ absent => absurd absent List.not_mem_nil
  | cat a b _ ih => exact List.forall_mem_cons.mpr ⟨meets.1, ih meets.2⟩
  | _ => exact List.forall_mem_singleton.mpr meets

theorem Meets.concat (first : a.Meets property) (rest : b.Meets property) :
    (concat a b).Meets property := by
  have each := first.factors
  unfold Reduced.concat
  generalize a.factors = exprs at each
  induction exprs with
  | nil => exact rest
  | cons expr others ih =>
    obtain ⟨own, later⟩ := List.forall_mem_cons.mp each
    exact own.prepend (ih later)

theorem meets_concatAll (each : ∀ expr ∈ exprs, expr.Meets property) :
    (concatAll exprs).Meets property := by
  induction exprs with
  | nil => trivial
  | cons expr others ih =>
    obtain ⟨own, later⟩ := List.forall_mem_cons.mp each
    exact own.concat (ih later)

theorem Meets.branches (meets : a.Meets property) : ∀ expr ∈ a.branches, expr.Meets property := by
  induction a with
  | alt a b _ ih => exact List.forall_mem_cons.mpr ⟨meets.1, ih meets.2⟩
  | _ => exact List.forall_mem_singleton.mpr meets

theorem meets_ofBranches (each : ∀ expr ∈ exprs, expr.Meets property) :
    (ofBranches exprs).Meets property := by
  induction exprs with
  | nil => trivial
  | cons expr others ih =>
    obtain ⟨own, later⟩ := List.forall_mem_cons.mp each
    cases others with
    | nil => exact own
    | cons second rest => exact ⟨own, ih later⟩

theorem meets_oneOf (chars : CharSet) : (oneOf chars).Meets property := by
  unfold oneOf
  split <;> trivial

theorem meets_of_asOneOf? (found : asOneOf? exprs = some a) : a.Meets property := by
  unfold asOneOf? at found
  split at found
  · cases found
    exact meets_oneOf _
  · obtain ⟨sets, _, same⟩ := Option.map_eq_some_iff.mp found
    cases same
    exact meets_oneOf _

theorem meets_choose (fuel : Nat) (each : ∀ expr ∈ exprs, expr.Meets property) :
    (choose fuel exprs).Meets property := by
  induction fuel generalizing exprs with
  | zero => exact meets_ofBranches each
  | succ fuel ih =>
    have flat : ∀ expr ∈ exprs.flatMap Reduced.branches, expr.Meets property := by
      intro expr member
      obtain ⟨whole, there, own⟩ := List.mem_flatMap.mp member
      exact (each whole there).branches expr own
    unfold Reduced.choose
    dsimp only
    generalize exprs.flatMap Reduced.branches = flatExprs at *
    split
    · exact meets_ofBranches flat
    · exact meets_ofBranches flat
    split
    · next found => exact meets_of_asOneOf? found
    split
    · exact meets_ofBranches flat
    · next sequences all =>
      obtain rfl := mapM_factors all
      have parts : ∀ factors ∈ flatExprs.map Reduced.factors, ∀ expr ∈ factors,
          expr.Meets property :=
        List.forall_mem_map.mpr fun expr member => (flat expr member).factors
      split
      · exact meets_ofBranches flat
      · next count _ =>
        refine meets_concatAll (List.forall_mem_append.mpr ⟨fun expr member => ?_,
          List.forall_mem_singleton.mpr (ih (List.forall_mem_map.mpr fun factors member =>
            meets_concatAll fun expr there =>
              parts factors member expr (List.mem_of_mem_drop there)))⟩)
        cases flatExprs with
        | nil => exact absurd (List.mem_of_mem_take member) List.not_mem_nil
        | cons head rest =>
          exact parts head.factors List.mem_cons_self expr (List.mem_of_mem_take member)

theorem meets_choice (each : ∀ expr ∈ exprs, expr.Meets property) :
    (choice exprs).Meets property := by
  unfold Reduced.choice
  split
  · exact each _ List.mem_cons_self
  · exact meets_choose _ each

theorem Meets.copies (meets : a.Meets property) (least : Nat) (most : Option Nat)
    (greedy : Bool) : (copies least most greedy a).Meets property := by
  unfold Reduced.copies
  dsimp only
  generalize (if a.takesNothing = true then min least 1 else least) = least'
  generalize (if a.takesNothing = true then some (min (most.getD 1) 1) else most) = most'
  split
  · trivial
  split
  · exact meets
  · exact meets

end Reduced

/-- Reducing an expression brings in no conditions and no groups. -/
theorem Meets.reducedBranches {regex : Regex} (meets : regex.Meets property) :
    ∀ expr ∈ regex.reducedBranches, expr.Meets property := by
  induction regex with
  | empty => exact List.forall_mem_singleton.mpr trivial
  | set chars nesting => exact List.forall_mem_singleton.mpr (Reduced.meets_oneOf chars)
  | edge condition => exact List.forall_mem_singleton.mpr meets
  | cat a b first second =>
    exact List.forall_mem_singleton.mpr ((Reduced.meets_choice (first meets.1)).concat
      (Reduced.meets_choice (second meets.2)))
  | alt a b first second => exact List.forall_mem_append.mpr ⟨first meets.1, second meets.2⟩
  | repeated least most greedy body ih =>
    exact List.forall_mem_singleton.mpr ((Reduced.meets_choice (ih meets)).copies least most greedy)
  | group bracket body ih =>
    have inner := Reduced.meets_choice (ih meets.2)
    cases bracket with
    | plain => exact List.forall_mem_singleton.mpr inner
    | counted =>
      exact List.forall_mem_singleton.mpr ⟨nofun, inner⟩
    | named name => exact List.forall_mem_singleton.mpr ⟨meets.1, inner⟩

theorem Meets.reduced {regex : Regex} (meets : regex.Meets property) :
    regex.reduced.Meets property :=
  Reduced.meets_choice meets.reducedBranches

/-! ## Code -/

/-- The addresses at which the run may go on from an instruction at the given one. -/
def Instruction.targets (address : Nat) : Instruction → List Nat
  | take _ | check _ | mark _ _ => [address + 1]
  | jump target => [target]
  | fork first second => [first, second]
  | accept => []

/-- The condition or mark that is met at an instruction. -/
def Instruction.event? : Instruction → Option Event
  | check condition => some (.at condition)
  | mark name opens => some (.mark name opens)
  | take _ | jump _ | fork _ _ | accept => none

/-- An instruction leads from its address to those of a range only, without acceptance, and what is
met at it has a property. -/
structure Instruction.Stays (property : Event → Prop) (low high address : Nat)
    (instruction : Instruction) : Prop where
  goesOn : instruction ≠ .accept
  within : ∀ target ∈ instruction.targets address, low ≤ target ∧ target ≤ high
  meets : ∀ event ∈ instruction.event?, property event

/-- All instructions of some code, given its address, stay in a range. -/
def Stays (property : Event → Prop) (low high start : Nat) (code : List Instruction) : Prop :=
  ∀ (index : Nat) (instruction : Instruction), code[index]? = some instruction →
    instruction.Stays property low high (start + index)

section Code

variable {low high start : Nat} {code others : List Instruction} {instruction : Instruction}

theorem stays_nil : Stays property low high start [] :=
  nofun

theorem Stays.cons (first : instruction.Stays property low high start)
    (rest : Stays property low high (start + 1) code) :
    Stays property low high start (instruction :: code) := by
  intro index other there
  cases index with
  | zero =>
    cases there
    exact first
  | succ index =>
    rw [← Nat.add_assoc, Nat.add_right_comm]
    exact rest index other there

theorem stays_one (only : instruction.Stays property low high start) :
    Stays property low high start [instruction] :=
  stays_nil.cons only

theorem Stays.append (first : Stays property low high start code)
    (rest : Stays property low high (start + code.length) others) :
    Stays property low high start (code ++ others) := by
  intro index instruction there
  rcases Nat.lt_or_ge index code.length with early | late
  · rw [List.getElem?_append_left early] at there
    exact first index instruction there
  · rw [List.getElem?_append_right late] at there
    have own := rest _ instruction there
    rwa [Nat.add_assoc, Nat.add_sub_cancel' late] at own

theorem Stays.widen {low' high' : Nat} (stays : Stays property low' high' start code)
    (lower : low ≤ low') (higher : high' ≤ high) : Stays property low high start code := by
  intro index instruction there
  obtain ⟨goesOn, within, meets⟩ := stays index instruction there
  exact ⟨goesOn, fun target member =>
    ⟨lower.trans (within target member).1, (within target member).2.trans higher⟩, meets⟩

/-- Copies of code in a row stay where each of them does. -/
theorem stays_inARow {body : Nat → List Instruction} {length count : Nat}
    (lengths : ∀ address, (body address).length = length)
    (each : ∀ number < count, Stays property low high (start + number * length)
      (body (start + number * length))) :
    Stays property low high start (Reduced.inARow body length start count) := by
  induction count with
  | zero => exact stays_nil
  | succ count ih =>
    rw [Reduced.inARow_succ_last]
    refine (ih fun number less => each number (less.trans (Nat.lt_succ_self count))).append ?_
    rw [Reduced.length_inARow lengths]
    exact each count (Nat.lt_succ_self count)

/-- A fork that goes on or leaves stays where both lead. -/
theorem stays_goOnOr {address goOn leave : Nat} (greedy : Bool)
    (onward : low ≤ goOn ∧ goOn ≤ high) (out : low ≤ leave ∧ leave ≤ high) :
    (Reduced.goOnOr greedy goOn leave).Stays property low high address := by
  cases greedy with
  | true =>
    exact ⟨nofun, List.forall_mem_cons.mpr ⟨onward, List.forall_mem_singleton.mpr out⟩, nofun⟩
  | false =>
    exact ⟨nofun, List.forall_mem_cons.mpr ⟨out, List.forall_mem_singleton.mpr onward⟩, nofun⟩

theorem stays_mark {address : Nat} {name : String} {opens : Bool}
    (meets : property (.mark name opens)) (lower : low ≤ address + 1)
    (higher : address + 1 ≤ high) :
    (Instruction.mark name opens).Stays property low high address :=
  ⟨nofun, List.forall_mem_singleton.mpr ⟨lower, higher⟩, fun _ same => Option.some.inj same ▸ meets⟩

theorem stays_jump {address target : Nat} (lower : low ≤ target) (higher : target ≤ high) :
    (Instruction.jump target).Stays property low high address where
  goesOn := fun same => by cases same
  within := List.forall_mem_singleton.mpr ⟨lower, higher⟩
  meets := fun _ absent => by cases absent

theorem stays_literal (chars : List Char) (start : Nat) :
    Stays property start (start + chars.length) start ((Reduced.literal chars).code start) := by
  intro index instruction there
  obtain ⟨c, found, rfl⟩ := Option.map_eq_some_iff.mp (List.getElem?_map.symm.trans there)
  obtain ⟨below, _⟩ := List.getElem?_eq_some_iff.mp found
  exact ⟨nofun, List.forall_mem_singleton.mpr ⟨by omega, by omega⟩, nofun⟩

section Copies

variable {body : Reduced} (each : ∀ start,
  Stays property start (start + body.codeLength) start (body.code start))

include each

theorem stays_star (greedy : Bool) (start : Nat) :
    Stays property start (start + (Reduced.repeated 0 none greedy body).codeLength) start
      ((Reduced.repeated 0 none greedy body).code start) := by
  rw [Reduced.codeLength_star]
  have inner : Stays property start (start + (body.codeLength + 2)) _ _ :=
    (each (start + 1)).widen (by omega) (by omega)
  have fork (address : Nat) : (Reduced.goOnOr greedy (start + 1)
      (start + body.codeLength + 2)).Stays property start (start + (body.codeLength + 2)) address :=
    stays_goOnOr greedy ⟨by omega, by omega⟩ ⟨by omega, by omega⟩
  have opened := (Stays.cons (fork start) inner)
  unfold Reduced.code
  dsimp only
  split
  · exact opened.append (stays_one (stays_jump le_rfl (by omega)))
  · exact opened.append (stays_one (fork _))

theorem stays_row (start count : Nat) :
    Stays property start (start + count * body.codeLength) start
      (Reduced.inARow (fun address => body.code address) body.codeLength start count) := by
  refine stays_inARow (Reduced.length_code body) fun number less => ?_
  have more := Nat.mul_le_mul_right body.codeLength (Nat.succ_le_of_lt less)
  rw [Nat.succ_mul] at more
  exact (each _).widen (by omega) (by omega)

theorem stays_atLeast (least : Nat) (greedy : Bool) (start : Nat) :
    Stays property start (start + (Reduced.repeated (least + 1) none greedy body).codeLength) start
      ((Reduced.repeated (least + 1) none greedy body).code start) := by
  rw [Reduced.codeLength_atLeast]
  have row : Stays property start (start + ((least + 1) * body.codeLength + 1)) _ _ :=
    (stays_row each start (least + 1)).widen le_rfl (by omega)
  refine row.append (stays_one (stays_goOnOr greedy ?_ ?_))
  · rw [Nat.succ_mul]
    omega
  · rw [Nat.succ_mul]
    omega

theorem stays_bounded (least most : Nat) (greedy : Bool) (start : Nat) :
    Stays property start (start + (Reduced.repeated least (some most) greedy body).codeLength) start
      ((Reduced.repeated least (some most) greedy body).code start) := by
  rw [Reduced.codeLength_bounded, Reduced.code]
  have row : Stays property start
      (start + (least * body.codeLength + (most - least) * (body.codeLength + 1))) _ _ :=
    (stays_row each start least).widen le_rfl (by omega)
  refine row.append ?_
  rw [Reduced.length_inARow (Reduced.length_code body)]
  refine stays_inARow (fun address => ?_) fun number less => ?_
  · rw [List.length_cons, Reduced.length_code]
  · have more := Nat.mul_le_mul_right (body.codeLength + 1) (Nat.succ_le_of_lt less)
    rw [Nat.succ_mul] at more
    exact .cons (stays_goOnOr greedy ⟨by omega, by omega⟩ ⟨by omega, by omega⟩)
      ((each _).widen (by omega) (by omega))

end Copies

/-- The code of an expression leads no further than to its own end. -/
theorem stays_code {expr : Reduced} (meets : expr.Meets property) (start : Nat) :
    Stays property start (start + expr.codeLength) start (expr.code start) := by
  induction expr generalizing start with
  | empty => exact stays_nil
  | literal chars => exact stays_literal chars start
  | set chars =>
    exact stays_one ⟨nofun, List.forall_mem_singleton.mpr ⟨Nat.le_succ _, le_rfl⟩, nofun⟩
  | edge condition =>
    exact stays_one ⟨nofun, List.forall_mem_singleton.mpr ⟨Nat.le_succ _, le_rfl⟩,
      fun _ same => Option.some.inj same ▸ meets⟩
  | group name body ih =>
    cases name with
    | none => exact ih meets.2 start
    | some name =>
      rw [Reduced.codeLength_named]
      have own := meets.1 name rfl
      have inner : Stays property start (start + (body.codeLength + 2)) _ _ :=
        (ih meets.2 (start + 1)).widen (by omega) (by omega)
      have opened : Stays property start (start + (body.codeLength + 2)) start
          (.mark name true :: body.code (start + 1)) :=
        .cons (stays_mark (own true) (by omega) (by omega)) inner
      refine opened.append (stays_one ?_)
      rw [List.length_cons, Reduced.length_code]
      exact stays_mark (own false) (by omega) (by omega)
  | repeated least most greedy body ih =>
    cases most with
    | some most => exact stays_bounded (ih meets) least most greedy start
    | none =>
      cases least with
      | zero => exact stays_star (ih meets) greedy start
      | succ least => exact stays_atLeast (ih meets) least greedy start
  | cat a b first second =>
    rw [Reduced.codeLength_cat]
    refine ((first meets.1 start).widen le_rfl (by omega)).append ?_
    rw [Reduced.length_code]
    exact (second meets.2 _).widen (by omega) (by omega)
  | alt a b first second =>
    rw [Reduced.codeLength_alt]
    have early : Stays property start (start + (a.codeLength + b.codeLength + 2)) _ _ :=
      (first meets.1 (start + 1)).widen (by omega) (by omega)
    have late : Stays property start (start + (a.codeLength + b.codeLength + 2)) _ _ :=
      (second meets.2 (start + a.codeLength + 2)).widen (by omega) (by omega)
    have fork : (Instruction.fork (start + 1) (start + a.codeLength + 2)).Stays property start
        (start + (a.codeLength + b.codeLength + 2)) start :=
      stays_goOnOr true ⟨by omega, by omega⟩ ⟨by omega, by omega⟩
    have out : (Instruction.jump (start + a.codeLength + 2 + b.codeLength)).Stays property start
        (start + (a.codeLength + b.codeLength + 2)) (start + (a.codeLength + 1)) :=
      stays_jump (by omega) (by omega)
    have opened : Stays property start (start + (a.codeLength + b.codeLength + 2)) start
        (.fork (start + 1) (start + a.codeLength + 2) :: a.code (start + 1)) := .cons fork early
    refine opened.append ?_
    rw [List.length_cons, Reduced.length_code]
    refine .cons out ?_
    rw [show start + (a.codeLength + 1) + 1 = start + a.codeLength + 2 by omega]
    exact late

end Code

/-! ## Sequences -/

section Sequences

variable {a b : Reduced}

theorem Reduced.code_prepend (a b : Reduced) (start : Nat) :
    (prepend a b).code start = a.code start ++ b.code (start + a.codeLength) := by
  unfold Reduced.prepend
  split
  · rfl
  · exact (List.append_nil _).symm
  · simp [code]
  · simp [code, codeLength, Nat.add_assoc]
  · rfl

/-- The code of one expression behind the other. -/
theorem Reduced.code_concat (a b : Reduced) (start : Nat) :
    (concat a b).code start = a.code start ++ b.code (start + a.codeLength) := by
  induction a generalizing start with
  | empty => rfl
  | cat first rest _ ih =>
    change (prepend first (concat rest b)).code start = _
    rw [code_prepend, ih, code, codeLength_cat, List.append_assoc, Nat.add_assoc]
  | _ => exact code_prepend _ b start

theorem reduced_cat (first second : Regex) :
    (cat first second).reduced = first.reduced.concat second.reduced := rfl

/-- The code of a sequence that starts with an expression. -/
theorem code_catAll_cons (first : Regex) (items : List Regex) (start : Nat) :
    (catAll (first :: items)).reduced.code start =
      first.reduced.code start ++
        (catAll items).reduced.code (start + first.reduced.codeLength) := by
  cases items with
  | nil => exact (List.append_nil _).symm
  | cons second rest =>
    rw [catAll, reduced_cat, Reduced.code_concat]
    exact nofun

/-- The code of two sequences, one behind the other. -/
theorem code_catAll_append (items others : List Regex) (start : Nat) :
    (catAll (items ++ others)).reduced.code start =
      (catAll items).reduced.code start ++
        (catAll others).reduced.code (start + (catAll items).reduced.codeLength) := by
  induction items generalizing start with
  | nil => rfl
  | cons first rest ih =>
    have length : (catAll (first :: rest)).reduced.codeLength =
        first.reduced.codeLength + (catAll rest).reduced.codeLength := by
      rw [← Reduced.length_code _ 0, code_catAll_cons, List.length_append, Reduced.length_code,
        Reduced.length_code]
    rw [List.cons_append, code_catAll_cons, ih, code_catAll_cons, List.append_assoc, length,
      Nat.add_assoc]

end Sequences

/-! ## Optional expressions -/

section Optional

theorem Reduced.takesNothing_prepend (a b : Reduced) :
    (prepend a b).takesNothing = (a.takesNothing && b.takesNothing) := by
  unfold Reduced.prepend
  split <;> simp [takesNothing]

theorem Reduced.takesNothing_concat (a b : Reduced) :
    (concat a b).takesNothing = (a.takesNothing && b.takesNothing) := by
  induction a with
  | empty => rfl
  | cat first rest _ ih =>
    change (prepend first (concat rest b)).takesNothing = _
    rw [takesNothing_prepend, ih, takesNothing, Bool.and_assoc]
  | _ => exact takesNothing_prepend _ b

variable {body : Regex}

theorem reduced_plain (body : Regex) : (group .plain body).reduced = body.reduced := rfl

theorem reduced_optional (solid : body.reduced.takesNothing = false) :
    (Regex.repeated 0 (some 1) true (.group .plain body)).reduced =
      .repeated 0 (some 1) true body.reduced := by
  change Reduced.copies 0 (some 1) true body.reduced = _
  unfold Reduced.copies
  rw [solid]
  rfl

/-- The code of an optional expression is that of the expression behind a fork. -/
theorem code_optional (solid : body.reduced.takesNothing = false) (start : Nat) :
    (Regex.repeated 0 (some 1) true (.group .plain body)).reduced.code start =
      .fork (start + 1) (start + (body.reduced.codeLength + 1)) ::
        body.reduced.code (start + 1) := by
  rw [reduced_optional solid]
  simp [Reduced.code, Reduced.inARow, Reduced.goOnOr]

/-- The code of an optional expression leads on. -/
theorem stays_optional (solid : body.reduced.takesNothing = false) (start : Nat) :
    Stays (fun _ => True) (start + 1) (start + (body.reduced.codeLength + 1)) start
      ((Regex.repeated 0 (some 1) true (.group .plain body)).reduced.code start) := by
  have meets : body.Meets (fun _ => True) := .of_all fun _ => trivial
  have inner := stays_code meets.reduced (start + 1)
  rw [code_optional solid]
  exact .cons (stays_goOnOr true ⟨le_rfl, by omega⟩ ⟨by omega, le_rfl⟩)
    (inner.widen le_rfl (by omega))

end Optional

end ScriptBinding.Regex

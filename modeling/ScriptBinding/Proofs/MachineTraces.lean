import ScriptBinding.Proofs.MachineRuns
import ScriptBinding.Regex.Compile

/-! # Searching with a machine

A machine finds what the traces of its expression allow: a trace can be met from a place of a text
on when its characters are those of the text and its conditions hold. For an expression that is held
at both ends of the text, the groups have taken what stands between their marks in such a trace.
-/

namespace ScriptBinding.Regex

/-- The characters of a trace. -/
def charsOf (trace : List Event) : List Char :=
  trace.filterMap fun
    | .char c => some c
    | _ => none

/-- The marks of a trace, when so many characters stand before it. -/
def marksOf : Nat → List Event → List Mark
  | _, [] => []
  | offset, .char _ :: trace => marksOf (offset + 1) trace
  | offset, .at _ :: trace => marksOf offset trace
  | offset, .mark name opens :: trace => ⟨name, opens, offset⟩ :: marksOf offset trace

/-- What the groups have taken on a trace. -/
def taken (trace : List Event) : Bindings :=
  Machine.bindings (charsOf trace) (marksOf 0 trace).reverse

/-- A trace can be met from a place on, with these marks. -/
inductive Passes : Place → List Event → List Mark → Prop
  | done {place : Place} : Passes place [] []
  | char {offset : Nat} {before : Option Char} {c : Char} {rest : List Char} {trace : List Event}
      {marks : List Mark} (onward : Passes ⟨offset + 1, some c, rest⟩ trace marks) :
      Passes ⟨offset, before, c :: rest⟩ (.char c :: trace) marks
  | at {place : Place} {condition : Edge} {trace : List Event} {marks : List Mark}
      (holding : holds condition place = true) (onward : Passes place trace marks) :
      Passes place (.at condition :: trace) marks
  | mark {place : Place} {name : String} {opens : Bool} {trace : List Event} {marks : List Mark}
      (onward : Passes place trace marks) :
      Passes place (.mark name opens :: trace) (⟨name, opens, place.offset⟩ :: marks)

/-! ## Threads and traces -/

namespace Machine

variable {machine : Machine} {kept : String → Bool} {place : Place} {thread : Thread}

/-- What a machine meets on the way to acceptance. -/
abbrev fetch (machine : Machine) (address : Nat) : Option Instruction :=
  machine.code[address]?

/-- A thread that comes to acceptance meets a trace. -/
theorem Gives.trace {steps : Nat} {final : List Mark}
    (gives : Gives machine steps place thread final) (kept : String → Bool) :
    ∃ trace ∈ accepted machine.fetch kept thread.address, ∃ marks, Passes place trace marks ∧
      final.filter (kept ·.name) = marks.reverse ++ thread.marks.filter (kept ·.name) := by
  induction gives with
  | accept here => exact ⟨[], ⟨0, .accept here⟩, [], .done, rfl⟩
  | take here has onward ih =>
    obtain ⟨trace, ⟨steps, accepts⟩, marks, passes, same⟩ := ih
    exact ⟨_, ⟨_, .take here has accepts⟩, marks, .char passes, same⟩
  | @move steps place thread next instruction final here opened onward ih =>
    obtain ⟨trace, ⟨steps, accepts⟩, marks, passes, same⟩ := ih
    cases instruction with
    | take chars => cases opened
    | accept => cases opened
    | check condition =>
      unfold successors at opened
      dsimp only at opened
      split at opened
      · next holding =>
        cases List.mem_singleton.mp opened
        exact ⟨_, ⟨_, .check here accepts⟩, marks, .at holding passes, same⟩
      · cases opened
    | mark name opens =>
      cases List.mem_singleton.mp opened
      refine ⟨_, ⟨_, .mark here accepts⟩, ?_⟩
      unfold noted
      rw [List.filter_cons] at same
      split
      · next asked =>
        rw [if_pos asked, ← List.singleton_append, ← List.append_assoc, ← List.reverse_cons] at same
        exact ⟨_, .mark passes, same⟩
      · next unasked =>
        rw [if_neg unasked] at same
        exact ⟨marks, passes, same⟩
    | jump target =>
      cases List.mem_singleton.mp opened
      exact ⟨_, ⟨_, .jump here accepts⟩, marks, passes, same⟩
    | fork first second =>
      rcases List.mem_cons.mp opened with rfl | later
      · exact ⟨_, ⟨_, .first here accepts⟩, marks, passes, same⟩
      · cases List.mem_singleton.mp later
        exact ⟨_, ⟨_, .second here accepts⟩, marks, passes, same⟩

/-- A trace that can be met leads any thread at its address to acceptance. -/
theorem gives_of_passes {steps address : Nat} {trace : List Event} {marks : List Mark}
    (accepts : Accepts machine.fetch kept steps address trace) (passes : Passes place trace marks)
    (stands : thread.address = address) : ∃ final, Gives machine steps place thread final := by
  induction accepts generalizing place thread marks with
  | accept here => exact ⟨_, .accept (stands ▸ here)⟩
  | @take steps address chars c trace here has rest ih =>
    have next : thread.next.address = address + 1 := congrArg (· + 1) stands
    cases passes with
    | char onward =>
      obtain ⟨final, gives⟩ := ih onward next
      exact ⟨final, .take (stands ▸ here) has gives⟩
  | @check steps address condition trace here rest ih =>
    have next : thread.next.address = address + 1 := congrArg (· + 1) stands
    cases passes with
    | «at» holding onward =>
      obtain ⟨final, gives⟩ := ih onward next
      refine ⟨final, .move (stands ▸ here) ?_ gives⟩
      unfold successors
      dsimp only
      rw [if_pos holding]
      exact List.mem_singleton_self _
  | @mark steps address name opens trace here rest ih =>
    obtain ⟨marks, onward⟩ : ∃ marks, Passes place trace marks := by
      unfold noted at passes
      split at passes
      · cases passes with
        | mark onward => exact ⟨_, onward⟩
      · exact ⟨marks, passes⟩
    let next : Thread :=
      { thread.next with marks := ⟨name, opens, place.offset⟩ :: thread.marks }
    have behind : next.address = address + 1 := congrArg (· + 1) stands
    obtain ⟨final, gives⟩ := ih onward behind
    exact ⟨final, .move (stands ▸ here) (List.mem_singleton_self _) gives⟩
  | @jump steps address target trace here rest ih =>
    obtain ⟨final, gives⟩ := ih passes (show (thread.at target).address = target from rfl)
    exact ⟨final, .move (stands ▸ here) (List.mem_singleton_self _) gives⟩
  | @first steps address first second trace here rest ih =>
    obtain ⟨final, gives⟩ := ih passes (show (thread.at first).address = first from rfl)
    exact ⟨final, .move (stands ▸ here) List.mem_cons_self gives⟩
  | @second steps address first second trace here rest ih =>
    obtain ⟨final, gives⟩ := ih passes (show (thread.at second).address = second from rfl)
    exact ⟨final, .move (stands ▸ here)
      (List.mem_cons_of_mem _ (List.mem_singleton_self _)) gives⟩

/-- The machine of an expression accepts its traces. -/
theorem accepted_ofReduced (expr : Reduced) (kept : String → Bool) :
    accepted (ofReduced expr).fetch kept 0 = expr.traces kept := by
  have has : Has (ofReduced expr).fetch 0 (expr.code 0 ++ [.accept]) := by
    intro index instruction there
    rw [Nat.zero_add]
    exact (List.getElem?_toArray ..).trans there
  have leads : Leads _ kept 0 (0 + expr.codeLength) _ := leadsBy_code expr 0 has.left
  have stop := has.right.head
  rw [Reduced.length_code] at stop
  ext trace
  constructor
  · rintro ⟨steps, accepts⟩
    obtain ⟨early, member, late, fewer, _, behind, rfl⟩ := leads.splits steps trace accepts
    cases behind with
    | accept here => exact (List.append_nil early).symm ▸ member
    | _ there => cases stop.symm.trans there
  · intro member
    have accepts := leads.joins trace member [] ⟨0, .accept stop⟩
    rwa [List.append_nil] at accepts

/-! ## Searching -/

/-- What a search finds is given by a thread at its start, or at a place behind a character. -/
theorem gives_of_searchFrom {offset : Nat} {before : Option Char} {chars : List Char}
    {final : List Mark} (found : machine.searchFrom offset before chars = some final) :
    ∃ place : Place, (place = ⟨offset, before, chars⟩ ∨ place.before.isSome = true) ∧
      ∃ steps, Gives machine steps place {} final := by
  have first {offset : Nat} {before : Option Char} {chars : List Char} {final : List Mark}
      (found : machine.run offset before chars [{}] none = some final) :
      ∃ steps, Gives machine steps ⟨offset, before, chars⟩ {} final := by
    have gain : Gain machine ⟨offset, before, chars⟩
        (fun final => ∃ steps, Gives machine steps ⟨offset, before, chars⟩ {} final) [{}] := by
      intro thread member steps final gives
      cases List.mem_singleton.mp member
      exact ⟨steps, gives⟩
    exact run_gain gain (fun _ absent => absurd absent (Option.some_ne_none _).symm) final found
  induction chars generalizing offset before with
  | nil => exact ⟨_, Or.inl rfl, first found⟩
  | cons c rest ih =>
    unfold Machine.searchFrom at found
    split at found
    · next here =>
      cases found
      exact ⟨_, Or.inl rfl, first here⟩
    · obtain ⟨place, there, gives⟩ := ih found
      refine ⟨place, Or.inr ?_, gives⟩
      rcases there with rfl | behind
      · rfl
      · exact behind

theorem searchFrom_isSome {offset steps : Nat} {before : Option Char} {chars : List Char}
    {final : List Mark} (gives : Gives machine steps ⟨offset, before, chars⟩ {} final) :
    (machine.searchFrom offset before chars).isSome = true := by
  have run : (machine.run offset before chars [{}] none).isSome = true :=
    run_succeeds ⟨{}, List.mem_singleton_self _, steps, final, gives⟩
  cases chars with
  | nil => exact run
  | cons c rest =>
    unfold Machine.searchFrom
    split
    · rfl
    · next absent =>
      rw [absent] at run
      cases run

end Machine

/-! ## What the groups have taken -/

section Taken

variable {kept : String → Bool} {text : List Char} {name : String}

theorem charsOf_append (early late : List Event) :
    charsOf (early ++ late) = charsOf early ++ charsOf late :=
  List.filterMap_append

theorem marksOf_append (offset : Nat) (early late : List Event) :
    marksOf offset (early ++ late) =
      marksOf offset early ++ marksOf (offset + (charsOf early).length) late := by
  induction early generalizing offset with
  | nil => rfl
  | cons event others ih =>
    cases event with
    | char c =>
      rw [List.cons_append, marksOf, ih, marksOf]
      congr 2
      simp [charsOf]
      omega
    | «at» condition => exact ih offset
    | mark name opens => exact congrArg (_ :: ·) (ih offset)

theorem name_of_mem_marksOf {offset : Nat} {trace : List Event} {mark : Mark}
    (member : mark ∈ marksOf offset trace) : ∃ opens, .mark mark.name opens ∈ trace := by
  induction trace generalizing offset with
  | nil => cases member
  | cons event others ih =>
    cases event with
    | char c => exact (ih member).imp fun _ => List.mem_cons_of_mem _
    | «at» condition => exact (ih member).imp fun _ => List.mem_cons_of_mem _
    | mark name opens =>
      rcases List.mem_cons.mp member with rfl | later
      · exact ⟨opens, List.mem_cons_self⟩
      · exact (ih later).imp fun _ => List.mem_cons_of_mem _

/-- Marks of other names say nothing about a name. -/
theorem lookup_bindings_append {marks earlier : List Mark}
    (avoid : ∀ mark ∈ marks, mark.name ≠ name) :
    (Machine.bindings text (marks ++ earlier)).lookup name =
      (Machine.bindings text earlier).lookup name := by
  induction marks with
  | nil => rfl
  | cons mark others ih =>
    obtain ⟨own, later⟩ := List.forall_mem_cons.mp avoid
    rw [List.cons_append, Machine.bindings]
    split
    · exact ih later
    · split
      · exact ih later
      · rw [List.lookup_cons, beq_false_of_ne (Ne.symm own)]
        exact ih later

/-- Only the marks of the names that are asked for matter for those. -/
theorem lookup_bindings_filter (asked : kept name = true) (marks : List Mark) :
    (Machine.bindings text (marks.filter (kept ·.name))).lookup name =
      (Machine.bindings text marks).lookup name := by
  induction marks with
  | nil => rfl
  | cons mark earlier ih =>
    rw [List.filter_cons]
    split
    · next own =>
      have start : (earlier.filter (kept ·.name)).find?
            (fun other => other.opens && other.name == mark.name) =
          earlier.find? fun other => other.opens && other.name == mark.name := by
        rw [List.find?_filter]
        congr 1
        funext other
        by_cases same : other.name = mark.name
        · simp [same, own]
        · simp [beq_false_of_ne same]
      rw [Machine.bindings, Machine.bindings, start]
      split
      · exact ih
      · split
        · exact ih
        · rw [List.lookup_cons, List.lookup_cons, ih]
    · next other =>
      have differs : mark.name ≠ name := fun same => other (same ▸ asked)
      have skip : (Machine.bindings text ([mark] ++ earlier)).lookup name = _ :=
        lookup_bindings_append (List.forall_mem_singleton.mpr differs)
      exact ih.trans skip.symm

/-- Marks of other names in a trace. -/
theorem avoid_marksOf {trace : List Event} (avoid : ∀ event ∈ trace, event.MarksOnly (· ≠ name))
    (offset : Nat) : ∀ mark ∈ (marksOf offset trace).reverse, mark.name ≠ name := by
  intro mark member
  obtain ⟨opens, there⟩ := name_of_mem_marksOf (List.mem_reverse.mp member)
  exact avoid _ there

/-- A group that is not met takes nothing. -/
theorem lookup_taken_of_avoids {trace : List Event}
    (avoid : ∀ event ∈ trace, event.MarksOnly (· ≠ name)) :
    (taken trace).lookup name = none := by
  have none : (Machine.bindings (charsOf trace) ((marksOf 0 trace).reverse ++ [])).lookup name = _ :=
    lookup_bindings_append (avoid_marksOf avoid 0)
  rw [List.append_nil] at none
  exact none

/-- A group takes what is met between its marks. -/
theorem lookup_taken {early inner late : List Event}
    (within : ∀ event ∈ inner, event.MarksOnly (· ≠ name))
    (behind : ∀ event ∈ late, event.MarksOnly (· ≠ name)) :
    (taken (early ++ .mark name true :: (inner ++ .mark name false :: late))).lookup name =
      some (charsOf inner) := by
  unfold taken
  rw [marksOf_append, marksOf, marksOf_append, marksOf, List.reverse_append, List.reverse_cons,
    List.reverse_append, List.reverse_cons]
  simp only [List.append_assoc]
  rw [lookup_bindings_append (avoid_marksOf behind _), List.singleton_append, Machine.bindings,
    if_neg Bool.false_ne_true, List.find?_append, List.find?_eq_none.mpr fun mark member => ?_]
  · rw [Option.none_or, List.singleton_append, List.find?_cons_of_pos (by simp)]
    dsimp only
    rw [List.lookup_cons_self, Nat.zero_add, Nat.add_sub_cancel_left, charsOf_append,
      List.drop_left]
    change some ((charsOf (inner ++ _)).take _) = _
    rw [charsOf_append, List.take_left]
  · simp [avoid_marksOf within _ mark member]

end Taken

/-! ## Expressions held at both ends -/

section Held

variable {kept : String → Bool} {property : String → Prop} {offset : Nat} {before : Option Char}
  {chars : List Char} {trace : List Event}

/-- A trace without conditions is met up to the end of a text by the characters of the text. -/
theorem chars_of_passes {marks : List Mark} (moves : ∀ event ∈ trace, event.MarksOnly property)
    (passes : Passes ⟨offset, before, chars⟩ (trace ++ [.at .textEnd]) marks) :
    charsOf trace = chars ∧ marksOf offset trace = marks := by
  induction trace generalizing offset before chars marks with
  | nil =>
    cases passes with
    | «at» holding onward =>
      cases onward
      exact ⟨(List.isEmpty_iff.mp holding).symm, rfl⟩
  | cons event others ih =>
    obtain ⟨own, later⟩ := List.forall_mem_cons.mp moves
    cases passes with
    | char onward =>
      obtain ⟨rfl, same⟩ := ih later onward
      exact ⟨rfl, same⟩
    | «at» => exact own.elim
    | mark onward =>
      obtain ⟨same, rfl⟩ := ih later onward
      exact ⟨same, rfl⟩

theorem passes_charsOf (moves : ∀ event ∈ trace, event.MarksOnly property) :
    Passes ⟨offset, before, charsOf trace⟩ (trace ++ [.at .textEnd]) (marksOf offset trace) := by
  induction trace generalizing offset before with
  | nil => exact .at rfl .done
  | cons event others ih =>
    obtain ⟨own, later⟩ := List.forall_mem_cons.mp moves
    cases event with
    | char c => exact .char (ih later)
    | «at» => exact own.elim
    | mark name opens => exact .mark (ih later)

variable {items : List Regex}

/-- What the machine of an expression between the ends of a text accepts. -/
structure Finds (machine : Machine) (kept : String → Bool) (language : Language Event) : Prop where
  matched : ∀ trace ∈ language, (machine.search? (charsOf trace)).isSome = true
  bindings : ∀ text bindings, machine.search? text = some bindings →
    ∃ trace ∈ language, charsOf trace = text ∧
      ∀ name, kept name = true → bindings.lookup name = (taken trace).lookup name

theorem eq_ofReduced_of_machine? {machine : Machine} {regex : Regex}
    (compiled : regex.machine? = some machine) :
    machine = .ofReduced regex.reduced ∧ regex.groupNames.Nodup := by
  unfold machine? at compiled
  split at compiled
  · next accepted =>
    dsimp only at compiled
    split at compiled
    · cases compiled
      exact ⟨rfl, of_decide_eq_true (Bool.and_eq_true_iff.mp accepted).1⟩
    · cases compiled
  · cases compiled

/-- The machine of an expression between the ends of a text matches a text by the traces of that
expression, and its groups take what they take there. -/
theorem finds_of_machine? {machine : Machine} {regex : Regex} {L : Language Event}
    (compiled : regex.machine? = some machine) (proper : regex.Proper) (tame : regex.Tame kept)
    (held : regex.traces kept = {[.at .textStart]} * (L * {[.at .textEnd]}))
    (moves : Only (Event.MarksOnly property) L) : Finds machine kept L := by
  obtain ⟨rfl, _⟩ := eq_ofReduced_of_machine? compiled
  have all : accepted (Machine.ofReduced regex.reduced).fetch kept 0 =
      {[.at .textStart]} * (L * {[.at .textEnd]}) := by
    rw [Machine.accepted_ofReduced, (denotes_reduced proper tame).traces, held]
  constructor
  · intro trace member
    obtain ⟨steps, accepts⟩ : [Event.at .textStart] ++ (trace ++ [.at .textEnd]) ∈
        accepted (Machine.ofReduced regex.reduced).fetch kept 0 :=
      all ▸ Language.append_mem_mul rfl (Language.append_mem_mul member rfl)
    have passes : Passes ⟨0, none, charsOf trace⟩ (trace ++ [.at .textEnd]) (marksOf 0 trace) :=
      passes_charsOf (moves trace member)
    have first : ({} : Thread).address = 0 := rfl
    obtain ⟨final, gives⟩ := Machine.gives_of_passes accepts (.at rfl passes) first
    exact Option.isSome_map.trans (Machine.searchFrom_isSome gives)
  · intro text bindings found
    obtain ⟨final, search, rfl⟩ := Option.map_eq_some_iff.mp found
    obtain ⟨place, there, steps, gives⟩ := Machine.gives_of_searchFrom search
    obtain ⟨_, member, marks, passes, same⟩ := gives.trace kept
    rw [all] at member
    obtain ⟨_, rfl, _, ⟨trace, own, _, rfl, rfl⟩, rfl⟩ := member
    cases passes with
    | «at» holding onward =>
      rcases there with rfl | behind
      · obtain ⟨rfl, rfl⟩ := chars_of_passes (moves trace own) onward
        refine ⟨trace, own, rfl, fun name asked => ?_⟩
        rw [← lookup_bindings_filter asked, same, List.filter_nil, List.append_nil]
        rfl
      · have absent : place.before.isNone = true := holding
        rw [Option.isNone_iff_eq_none.mp absent] at behind
        cases behind

end Held

end ScriptBinding.Regex

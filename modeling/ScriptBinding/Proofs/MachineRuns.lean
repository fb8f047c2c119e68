import ScriptBinding.Proofs.CodePaths
import ScriptBinding.Regex.Matcher

/-! # Runs of a machine

A thread gives the marks of every way on which it comes to acceptance. A run of a machine gives what
one of its threads gives, and it gives something as soon as one of its threads does.
-/

namespace ScriptBinding.Regex.Machine

variable {machine : Machine} {place : Place} {thread other : Thread} {final : List Mark}

/-- In so many steps from a place, a thread comes to acceptance with these marks. -/
inductive Gives (machine : Machine) : Nat → Place → Thread → List Mark → Prop
  | accept {place : Place} {thread : Thread}
      (here : machine.code[thread.address]? = some .accept) :
      Gives machine 0 place thread thread.marks
  | take {steps offset : Nat} {before : Option Char} {c : Char} {rest : List Char}
      {thread : Thread} {chars : CharSet} {final : List Mark}
      (here : machine.code[thread.address]? = some (.take chars)) (has : chars.contains c = true)
      (onward : Gives machine steps ⟨offset + 1, some c, rest⟩ thread.next final) :
      Gives machine (steps + 1) ⟨offset, before, c :: rest⟩ thread final
  | move {steps : Nat} {place : Place} {thread next : Thread} {instruction : Instruction}
      {final : List Mark} (here : machine.code[thread.address]? = some instruction)
      (opened : next ∈ successors place thread instruction)
      (onward : Gives machine steps place next final) :
      Gives machine (steps + 1) place thread final

/-- All that a list of threads gives has a property. -/
def Gain (machine : Machine) (place : Place) (good : List Mark → Prop) (threads : List Thread) :
    Prop :=
  ∀ thread ∈ threads, ∀ steps final, Gives machine steps place thread final → good final

/-! ## What a run gives -/

section Gain

variable {good : List Mark → Prop} {threads others found : List Thread}

theorem Gain.append (first : Gain machine place good threads)
    (rest : Gain machine place good others) : Gain machine place good (threads ++ others) :=
  fun thread member => (List.mem_append.mp member).elim (first thread) (rest thread)

theorem Gain.head (gain : Gain machine place good (thread :: others)) :
    Gain machine place good [thread] :=
  fun other member => gain other ((List.mem_singleton.mp member).symm ▸ List.mem_cons_self)

theorem Gain.tail (gain : Gain machine place good (thread :: others)) :
    Gain machine place good others :=
  fun other member => gain other (List.mem_cons_of_mem thread member)

/-- What a thread opens gives nothing new. -/
theorem Gain.successors {instruction : Instruction} (gain : Gain machine place good [thread])
    (here : machine.code[thread.address]? = some instruction) :
    Gain machine place good (successors place thread instruction) :=
  fun _ opened steps final gives =>
    gain thread List.mem_cons_self (steps + 1) final (.move here opened gives)

/-- Following threads gives nothing new. -/
theorem follow_gain {fuel : Nat} {reached : List Nat} (known : Gain machine place good found)
    (pending : Gain machine place good threads) :
    Gain machine place good (machine.follow place fuel reached found threads).waiting ∧
      ∀ final, (machine.follow place fuel reached found threads).accepted = some final →
        good final := by
  fun_induction machine.follow place fuel reached found threads with
  | case1 | case2 =>
    exact ⟨fun thread member => known thread (List.mem_reverse.mp member),
      fun _ absent => absurd absent (Option.some_ne_none _).symm⟩
  | case3 fuel reached found thread others seen ih => exact ih known pending.tail
  | case4 => rename_i ih; exact ih known pending.tail
  | case5 =>
    rename_i ih
    exact ih (pending.head.append known) pending.tail
  | case6 =>
    rename_i here
    refine ⟨fun thread member => known thread (List.mem_reverse.mp member), fun final same => ?_⟩
    cases same
    exact pending _ List.mem_cons_self 0 _ (.accept here)
  | case7 =>
    rename_i _ _ here ih
    exact ih known ((pending.head.successors here).append pending.tail)

theorem settle_gain (gain : Gain machine place good threads) :
    Gain machine place good (machine.settle place threads).waiting ∧
      ∀ final, (machine.settle place threads).accepted = some final → good final :=
  follow_gain (fun _ absent => absurd absent List.not_mem_nil) gain

/-- A thread that is advanced gives nothing new. -/
theorem Gain.advance {offset : Nat} {before : Option Char} {c : Char} {rest : List Char}
    (gain : Gain machine ⟨offset, before, c :: rest⟩ good threads) :
    Gain machine ⟨offset + 1, some c, rest⟩ good (threads.filterMap (machine.advance c)) := by
  intro next member steps final gives
  obtain ⟨thread, there, advanced⟩ := List.mem_filterMap.mp member
  unfold Machine.advance at advanced
  split at advanced
  · next chars here =>
    split at advanced
    · next has =>
      cases advanced
      exact gain thread there (steps + 1) final (.take here has gives)
    · cases advanced
  · cases advanced

/-- A run gives what it had already or what one of its threads gives. -/
theorem run_gain {offset : Nat} {before : Option Char} {chars : List Char}
    {best : Option (List Mark)} (gain : Gain machine ⟨offset, before, chars⟩ good threads)
    (had : ∀ final, best = some final → good final) :
    ∀ final, machine.run offset before chars threads best = some final → good final := by
  have better {place : Place} {threads : List Thread} {best : Option (List Mark)}
      (gain : Gain machine place good threads) (had : ∀ final, best = some final → good final) :
      ∀ final, (machine.settle place threads).accepted.or best = some final → good final := by
    intro final same
    rcases Option.or_eq_some_iff.mp same with accepted | ⟨_, old⟩
    · exact (settle_gain gain).2 final accepted
    · exact had final old
  induction chars generalizing offset before threads best with
  | nil => exact better gain had
  | cons c rest ih =>
    unfold Machine.run
    dsimp only
    split
    · exact better gain had
    · exact ih (settle_gain gain).1.advance (better gain had)

end Gain

/-! ## That a run gives something -/

/-- Threads at one address open threads at the same addresses, with the same marks on top of their
own. -/
theorem successors_shift {instruction : Instruction} {next : Thread}
    (opened : next ∈ successors place thread instruction) :
    ∃ marks, next.marks = marks ++ thread.marks ∧ ∀ other : Thread,
      other.address = thread.address →
        ⟨next.address, marks ++ other.marks⟩ ∈ successors place other instruction := by
  unfold successors at *
  cases instruction with
  | take chars => cases opened
  | accept => cases opened
  | check condition =>
    dsimp only at *
    split at opened
    · next holding =>
      cases List.mem_singleton.mp opened
      refine ⟨[], rfl, fun other same => ?_⟩
      rw [if_pos holding]
      exact List.mem_singleton.mpr (congrArg (Thread.mk · other.marks) (congrArg (· + 1) same.symm))
    · cases opened
  | mark name opens =>
    cases List.mem_singleton.mp opened
    exact ⟨[⟨name, opens, place.offset⟩], rfl, fun other same => List.mem_singleton.mpr
      (congrArg (Thread.mk · (_ :: other.marks)) (congrArg (· + 1) same.symm))⟩
  | jump target =>
    cases List.mem_singleton.mp opened
    exact ⟨[], rfl, fun other _ => List.mem_singleton_self _⟩
  | fork first second =>
    rcases List.mem_cons.mp opened with rfl | later
    · exact ⟨[], rfl, fun other _ => List.mem_cons_self⟩
    · cases List.mem_singleton.mp later
      exact ⟨[], rfl, fun other _ => List.mem_cons_of_mem _ (List.mem_singleton_self _)⟩

/-- What a thread comes to acceptance with are the marks on its way on top of its own, and those on
its way depend on where it stands alone. -/
theorem Gives.shift {steps : Nat} (gives : Gives machine steps place thread final) :
    ∃ marks, final = marks ++ thread.marks ∧ ∀ other : Thread, other.address = thread.address →
      Gives machine steps place other (marks ++ other.marks) := by
  induction gives with
  | accept here => exact ⟨[], rfl, fun other same => .accept (same ▸ here)⟩
  | take here has _ ih =>
    obtain ⟨marks, isFinal, onward⟩ := ih
    exact ⟨marks, isFinal, fun other same =>
      .take (same ▸ here) has (onward other.next (congrArg (· + 1) same))⟩
  | move here opened _ ih =>
    obtain ⟨marks, isFinal, onward⟩ := ih
    obtain ⟨more, isMarks, opens⟩ := successors_shift opened
    refine ⟨marks ++ more, by rw [isFinal, isMarks, List.append_assoc], fun other same => ?_⟩
    rw [List.append_assoc]
    exact .move (same ▸ here) (opens other same) (onward ⟨_, more ++ other.marks⟩ rfl)

/-- Whether a thread comes to acceptance depends on where it stands alone. -/
theorem Gives.anyMarks {steps : Nat} (gives : Gives machine steps place thread final)
    (same : thread.address = other.address) : ∃ final, Gives machine steps place other final := by
  obtain ⟨_, _, onward⟩ := gives.shift
  exact ⟨_, onward other same.symm⟩

/-- Some thread of a list comes to acceptance. -/
def Succeeds (machine : Machine) (place : Place) (threads : List Thread) : Prop :=
  ∃ thread ∈ threads, ∃ steps final, Gives machine steps place thread final

/-- How much is left to follow: every address that has not been reached opens two threads at
most. -/
def toFollow (machine : Machine) (reached : List Nat) (threads : List Thread) : Nat :=
  threads.length + 2 * ((List.range machine.code.size).filter (· ∉ reached)).length

/-- Whatever leads from a reached address to acceptance does so by way of a thread that has been
found, or of one that is still to be followed and has fewer steps to go. -/
def Covers (machine : Machine) (place : Place) (reached : List Nat) (found threads : List Thread) :
    Prop :=
  ∀ steps thread final, thread.address ∈ reached → Gives machine steps place thread final →
    Succeeds machine place found ∨
      ∃ next ∈ threads, ∃ fewer < steps, ∃ final, Gives machine fewer place next final

section Covers

variable {reached : List Nat} {found threads others : List Thread}

theorem Succeeds.mono (succeeds : Succeeds machine place threads)
    (within : ∀ thread ∈ threads, thread ∈ others) : Succeeds machine place others := by
  obtain ⟨thread, there, gives⟩ := succeeds
  exact ⟨thread, within thread there, gives⟩

/-- A thread at a reached address need not be followed. -/
theorem Covers.drop (covers : Covers machine place reached found (thread :: others))
    (seen : thread.address ∈ reached) : Covers machine place reached found others := by
  intro steps
  induction steps using Nat.strong_induction_on with
  | h steps ih =>
    intro start final there gives
    rcases covers steps start final there gives with done | ⟨next, member, fewer, less, _, onward⟩
    · exact Or.inl done
    · rcases List.mem_cons.mp member with rfl | later
      · rcases ih fewer less next _ seen onward with done | ⟨last, behind, fewest, least, more⟩
        · exact Or.inl done
        · exact Or.inr ⟨last, behind, fewest, least.trans less, more⟩
      · exact Or.inr ⟨next, later, fewer, less, _, onward⟩

/-- An address is left by way of what a thread at it leads to in fewer steps. -/
theorem Covers.leave {found' opened : List Thread}
    (covers : Covers machine place reached found (thread :: others))
    (kept : ∀ other ∈ found, other ∈ found')
    (left : ∀ steps final, Gives machine steps place thread final →
      Succeeds machine place found' ∨
        ∃ next ∈ opened, ∃ fewer < steps, ∃ final, Gives machine fewer place next final) :
    Covers machine place (thread.address :: reached) found' (opened ++ others) := by
  have byThread {steps : Nat} {final : List Mark} (gives : Gives machine steps place thread final) :
      Succeeds machine place found' ∨
        ∃ next ∈ opened ++ others, ∃ fewer < steps, ∃ final,
          Gives machine fewer place next final :=
    (left steps final gives).imp_right fun ⟨next, member, onward⟩ =>
      ⟨next, List.mem_append_left others member, onward⟩
  intro steps start final there gives
  rcases List.mem_cons.mp there with same | before
  · obtain ⟨_, own⟩ := gives.anyMarks same
    exact byThread own
  · rcases covers steps start final before gives with done | ⟨next, member, fewer, less, _, onward⟩
    · exact Or.inl (done.mono kept)
    · rcases List.mem_cons.mp member with rfl | later
      · rcases byThread onward with done | ⟨last, behind, fewest, least, more⟩
        · exact Or.inl done
        · exact Or.inr ⟨last, behind, fewest, least.trans less, more⟩
      · exact Or.inr ⟨next, List.mem_append_right opened later, fewer, less, _, onward⟩

/-- An address is left for good if what comes from it to acceptance has been found. -/
theorem Covers.pass {found' : List Thread}
    (covers : Covers machine place reached found (thread :: others))
    (kept : ∀ other ∈ found, other ∈ found')
    (left : ∀ steps final, Gives machine steps place thread final →
      Succeeds machine place found') :
    Covers machine place (thread.address :: reached) found' others := by
  change Covers machine place (thread.address :: reached) found' ([] ++ others)
  exact covers.leave kept fun steps final gives => Or.inl (left steps final gives)

theorem toFollow_drop :
    toFollow machine reached (thread :: others) = toFollow machine reached others + 1 := by
  unfold toFollow
  rw [List.length_cons]
  omega

theorem unseen_cons (size address : Nat) (reached : List Nat) :
    (List.range size).filter (· ∉ address :: reached) =
      ((List.range size).filter (· ∉ reached)).filter (· ≠ address) := by
  rw [List.filter_filter]
  refine List.filter_congr fun other _ => ?_
  simp

/-- An address that opens nothing leaves less to follow. -/
theorem toFollow_pass :
    toFollow machine (thread.address :: reached) others <
      toFollow machine reached (thread :: others) := by
  have unseen := List.length_filter_le (fun address => decide (address ≠ thread.address))
    ((List.range machine.code.size).filter (· ∉ reached))
  rw [← unseen_cons] at unseen
  unfold toFollow
  rw [List.length_cons]
  omega

/-- Leaving an address for the first time, by two ways at most, leaves less to follow. -/
theorem toFollow_leave {opened : List Thread} {instruction : Instruction}
    (new : thread.address ∉ reached) (here : machine.code[thread.address]? = some instruction)
    (few : opened.length ≤ 2) :
    toFollow machine (thread.address :: reached) (opened ++ others) <
      toFollow machine reached (thread :: others) := by
  obtain ⟨below, _⟩ := Array.getElem?_eq_some_iff.mp here
  have unseen : ((List.range machine.code.size).filter (· ∉ thread.address :: reached)).length <
      ((List.range machine.code.size).filter (· ∉ reached)).length := by
    rw [unseen_cons]
    refine List.length_filter_lt_length_iff_exists.mpr ⟨thread.address, ?_, by simp⟩
    exact List.mem_filter.mpr ⟨List.mem_range.mpr below, decide_eq_true new⟩
  unfold toFollow
  rw [List.length_append, List.length_cons]
  omega

/-- At the start there is no more to follow than the fuel allows. -/
theorem toFollow_start :
    toFollow machine [] threads ≤ threads.length + 2 * machine.code.size + 1 := by
  have unseen := List.length_filter_le (fun address => decide (address ∉ []))
    (List.range machine.code.size)
  rw [List.length_range] at unseen
  unfold toFollow
  omega

theorem length_successors_le (instruction : Instruction) :
    (successors place thread instruction).length ≤ 2 := by
  cases instruction with
  | check condition =>
    unfold successors
    dsimp only
    split <;> simp
  | _ => simp [successors]

/-- If some thread comes to acceptance, following them finds one that does. -/
theorem follow_succeeds {fuel : Nat} (covers : Covers machine place reached found threads)
    (enough : toFollow machine reached threads ≤ fuel) {start : Thread} {steps : Nat}
    (known : start ∈ threads ∨ start.address ∈ reached)
    (gives : Gives machine steps place start final) :
    (machine.follow place fuel reached found threads).accepted.isSome = true ∨
      Succeeds machine place (machine.follow place fuel reached found threads).waiting := by
  have finished {reached : List Nat} {found : List Thread}
      (covers : Covers machine place reached found [])
      (known : start ∈ [] ∨ start.address ∈ reached) : Succeeds machine place found.reverse := by
    have seen := known.resolve_left List.not_mem_nil
    rcases covers steps start final seen gives with done | ⟨_, absent, _⟩
    · exact done.mono fun _ => List.mem_reverse.mpr
    · exact absurd absent List.not_mem_nil
  have onward {reached : List Nat} {thread : Thread} {others : List Thread}
      (opened : List Thread) (known : start ∈ thread :: others ∨ start.address ∈ reached) :
      start ∈ opened ++ others ∨ start.address ∈ thread.address :: reached := by
    rcases known with now | seen
    · rcases List.mem_cons.mp now with rfl | later
      · exact Or.inr List.mem_cons_self
      · exact Or.inl (List.mem_append_right opened later)
    · exact Or.inr (List.mem_cons_of_mem _ seen)
  fun_induction machine.follow place fuel reached found threads with
  | case1 reached found threads =>
    obtain rfl : threads = [] :=
      List.length_eq_zero_iff.mp (Nat.le_zero.mp ((Nat.le_add_right _ _).trans enough))
    exact Or.inr (finished covers known)
  | case2 fuel reached found => exact Or.inr (finished covers known)
  | case3 fuel reached found thread others seen ih =>
    have there : thread.address ∈ reached := List.contains_iff_mem.mp seen
    rw [toFollow_drop] at enough
    refine ih (covers.drop there) (Nat.le_of_succ_le_succ enough) ?_
    refine known.elim (fun now => ?_) Or.inr
    rcases List.mem_cons.mp now with rfl | later
    · exact Or.inr there
    · exact Or.inl later
  | case4 fuel reached found thread others new _ here ih =>
    refine ih (covers.pass (fun _ => id) fun steps final gives => ?_)
      (Nat.le_of_lt_succ (toFollow_pass.trans_le enough)) (onward [] known)
    cases gives with
    | _ there => cases here.symm.trans there
  | case5 fuel reached found thread others new _ chars here ih =>
    refine ih (covers.pass (fun _ => List.mem_cons_of_mem thread)
      fun steps final gives => ⟨thread, List.mem_cons_self, steps, final, gives⟩)
      (Nat.le_of_lt_succ (toFollow_pass.trans_le enough)) (onward [] known)
  | case6 => exact Or.inl rfl
  | case7 fuel reached found thread others new _ instruction notTake notAccept here ih =>
    have fresh : thread.address ∉ reached := fun there => new (List.contains_iff_mem.mpr there)
    have few : (successors place thread instruction).length ≤ 2 := length_successors_le instruction
    refine ih (covers.leave (fun _ => id) fun steps final gives => Or.inr ?_)
      (Nat.le_of_lt_succ ((toFollow_leave fresh here few).trans_le enough)) (onward _ known)
    cases gives with
    | accept there => exact absurd (Option.some.inj (here.symm.trans there)) notAccept
    | take there => exact absurd (Option.some.inj (here.symm.trans there)) (notTake _)
    | move there opened rest =>
      cases here.symm.trans there
      exact ⟨_, opened, _, Nat.lt_succ_self _, final, rest⟩

theorem settle_succeeds (succeeds : Succeeds machine place threads) :
    (machine.settle place threads).accepted.isSome = true ∨
      Succeeds machine place (machine.settle place threads).waiting := by
  obtain ⟨start, there, steps, final, gives⟩ := succeeds
  have covers : Covers machine place [] [] threads :=
    fun _ _ _ absent => absurd absent List.not_mem_nil
  exact follow_succeeds covers toFollow_start (Or.inl there) gives

/-- Threads that are found wait for a character. -/
theorem follow_waits {fuel : Nat}
    (known : ∀ thread ∈ found, ∃ chars, machine.code[thread.address]? = some (.take chars)) :
    ∀ thread ∈ (machine.follow place fuel reached found threads).waiting,
      ∃ chars, machine.code[thread.address]? = some (.take chars) := by
  fun_induction machine.follow place fuel reached found threads with
  | case1 | case2 | case6 => exact fun thread member => known thread (List.mem_reverse.mp member)
  | case5 fuel reached found thread others new _ chars here ih =>
    exact ih (List.forall_mem_cons.mpr ⟨⟨chars, here⟩, known⟩)
  | case3 | case4 | case7 => rename_i ih; exact ih known

end Covers

/-- A run that had something gives something. -/
theorem run_had {offset : Nat} {before : Option Char} {chars : List Char} {threads : List Thread}
    {best : Option (List Mark)} (had : best.isSome = true) :
    (machine.run offset before chars threads best).isSome = true := by
  have kept {best : Option (List Mark)} (had : best.isSome = true) (first : Option (List Mark)) :
      (first.or best).isSome = true := by
    rw [Option.isSome_or, had, Bool.or_true]
  induction chars generalizing offset before threads best with
  | nil => exact kept had _
  | cons c rest ih =>
    unfold Machine.run
    dsimp only
    split
    · exact kept had _
    · exact ih (kept had _)

/-- A found thread that comes to acceptance takes the next character. -/
theorem Succeeds.advance {offset : Nat} {before : Option Char} {chars : List Char}
    {threads : List Thread} (succeeds : Succeeds machine ⟨offset, before, chars⟩ threads)
    (waits : ∀ thread ∈ threads, ∃ chars, machine.code[thread.address]? = some (.take chars)) :
    ∃ c rest, chars = c :: rest ∧ Succeeds machine ⟨offset + 1, some c, rest⟩
      (threads.filterMap (machine.advance c)) := by
  obtain ⟨thread, there, steps, final, gives⟩ := succeeds
  obtain ⟨wanted, waiting⟩ := waits thread there
  generalize placeIs : (⟨offset, before, chars⟩ : Place) = place at gives
  cases gives with
  | accept here => cases waiting.symm.trans here
  | @take steps _ _ c rest _ _ _ here has onward =>
    cases placeIs
    refine ⟨c, rest, rfl, thread.next, List.mem_filterMap.mpr ⟨thread, there, ?_⟩, _, _, onward⟩
    unfold Machine.advance
    rw [here]
    exact if_pos has
  | move here opened =>
    cases waiting.symm.trans here
    exact absurd opened List.not_mem_nil

/-- A run gives something if one of its threads does. -/
theorem run_succeeds {offset : Nat} {before : Option Char} {chars : List Char}
    {threads : List Thread} {best : Option (List Mark)}
    (succeeds : Succeeds machine ⟨offset, before, chars⟩ threads) :
    (machine.run offset before chars threads best).isSome = true := by
  have waits (place : Place) (threads : List Thread) :
      ∀ thread ∈ (machine.settle place threads).waiting,
        ∃ chars, machine.code[thread.address]? = some (.take chars) :=
    follow_waits fun _ absent => absurd absent List.not_mem_nil
  induction chars generalizing offset before threads best with
  | nil =>
    unfold Machine.run
    rw [Option.isSome_or, Bool.or_eq_true]
    refine (settle_succeeds succeeds).imp_right fun onward => ?_
    obtain ⟨_, _, absent, _⟩ := onward.advance (waits _ _)
    cases absent
  | cons c rest ih =>
    unfold Machine.run
    dsimp only
    rcases settle_succeeds succeeds with accepted | onward
    · have best' : (Option.or _ best).isSome = true :=
        (Option.isSome_or ..).trans (Bool.or_eq_true_iff.mpr (Or.inl accepted))
      split
      · exact best'
      · exact run_had best'
    · obtain ⟨_, _, same, more⟩ := onward.advance (waits _ _)
      cases same
      split
      · next none =>
        obtain ⟨_, there, _⟩ := more
        rw [none] at there
        exact absurd there List.not_mem_nil
      · exact ih more

end ScriptBinding.Regex.Machine

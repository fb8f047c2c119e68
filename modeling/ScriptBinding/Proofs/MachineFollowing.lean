import ScriptBinding.Proofs.MachineRuns

/-! # Following without fuel

Threads are followed in order of preference, each address once. That is a relation between the
threads and what they settle to; the fuel only makes it a function.
-/

namespace ScriptBinding.Regex.Machine

variable {machine : Machine} {place : Place} {thread : Thread} {reached : List Nat}
  {found threads others : List Thread} {settled : Settled}

/-- The thread, if it waits for a character. -/
def waits (machine : Machine) (thread : Thread) : List Thread :=
  match machine.code[thread.address]? with
  | some (.take _) => [thread]
  | _ => []

/-- The threads that a thread opens without a character. -/
def opens (machine : Machine) (place : Place) (thread : Thread) : List Thread :=
  match machine.code[thread.address]? with
  | some instruction => successors place thread instruction
  | none => []

/-- Threads that are followed, from the addresses reached and the threads found so far, settle. -/
inductive Follows (machine : Machine) (place : Place) :
    List Nat → List Thread → List Thread → Settled → Prop
  | done {reached : List Nat} {found : List Thread} :
      Follows machine place reached found [] ⟨found.reverse, none⟩
  | again {reached : List Nat} {found others : List Thread} {thread : Thread} {settled : Settled}
      (seen : thread.address ∈ reached)
      (rest : Follows machine place reached found others settled) :
      Follows machine place reached found (thread :: others) settled
  | accept {reached : List Nat} {found others : List Thread} {thread : Thread}
      (new : thread.address ∉ reached) (here : machine.code[thread.address]? = some .accept) :
      Follows machine place reached found (thread :: others) ⟨found.reverse, some thread.marks⟩
  | leave {reached : List Nat} {found others : List Thread} {thread : Thread} {settled : Settled}
      (new : thread.address ∉ reached) (going : machine.code[thread.address]? ≠ some .accept)
      (rest : Follows machine place (thread.address :: reached) (machine.waits thread ++ found)
        (machine.opens place thread ++ others) settled) :
      Follows machine place reached found (thread :: others) settled

/-- Following with enough fuel. -/
theorem follows_follow {fuel : Nat} (enough : toFollow machine reached threads ≤ fuel) :
    Follows machine place reached found threads
      (machine.follow place fuel reached found threads) := by
  fun_induction machine.follow place fuel reached found threads with
  | case1 reached found threads =>
    obtain rfl : threads = [] :=
      List.length_eq_zero_iff.mp (Nat.le_zero.mp ((Nat.le_add_right _ _).trans enough))
    exact .done
  | case2 fuel reached found => exact .done
  | case3 fuel reached found thread others seen ih =>
    rw [toFollow_drop] at enough
    exact .again (List.contains_iff_mem.mp seen) (ih (Nat.le_of_succ_le_succ enough))
  | case4 fuel reached found thread others new _ here ih =>
    have rest := ih (Nat.le_of_lt_succ (toFollow_pass.trans_le enough))
    refine .leave (fun there => new (List.contains_iff_mem.mpr there))
      (fun same => by cases here.symm.trans same) ?_
    rw [waits, opens, here]
    exact rest
  | case5 fuel reached found thread others new _ chars here ih =>
    have rest := ih (Nat.le_of_lt_succ (toFollow_pass.trans_le enough))
    refine .leave (fun there => new (List.contains_iff_mem.mpr there))
      (fun same => by cases here.symm.trans same) ?_
    rw [waits, opens, here]
    exact rest
  | case6 fuel reached found thread others new here =>
    exact .accept (fun there => new (List.contains_iff_mem.mpr there)) here
  | case7 fuel reached found thread others new _ instruction notTake notAccept here ih =>
    have fresh : thread.address ∉ reached := fun there => new (List.contains_iff_mem.mpr there)
    have rest := ih (Nat.le_of_lt_succ
      ((toFollow_leave fresh here (length_successors_le instruction)).trans_le enough))
    refine .leave fresh (fun same => notAccept (Option.some.inj (here.symm.trans same))) ?_
    rw [waits, opens, here]
    split
    · next same => exact absurd (Option.some.inj same) (notTake _)
    · exact rest

theorem follows_settle (machine : Machine) (place : Place) (threads : List Thread) :
    Follows machine place [] [] threads (machine.settle place threads) :=
  follows_follow toFollow_start

/-- Threads settle in one way only. -/
theorem Follows.unique {other : Settled}
    (follows : Follows machine place reached found threads settled)
    (again : Follows machine place reached found threads other) : settled = other := by
  induction follows with
  | done =>
    cases again
    rfl
  | again seen _ ih =>
    cases again with
    | again _ rest => exact ih rest
    | accept new | leave new => exact absurd seen new
  | accept new here =>
    cases again with
    | again seen => exact absurd seen new
    | accept => rfl
    | leave _ going => exact absurd here going
  | leave new going _ ih =>
    cases again with
    | again seen => exact absurd seen new
    | accept _ here => exact absurd here going
    | leave _ _ rest => exact ih rest

theorem Follows.eq_settle (follows : Follows machine place [] [] threads settled) :
    machine.settle place threads = settled :=
  (follows_settle machine place threads).unique follows

/-! ## What has been found -/

theorem eq_of_mem_waits {other : Thread} (member : other ∈ machine.waits thread) :
    other = thread := by
  unfold waits at member
  split at member
  · exact List.mem_singleton.mp member
  · cases member

/-- Threads that have been found stay. -/
theorem Follows.keeps (follows : Follows machine place reached found threads settled) :
    ∀ thread ∈ found, thread ∈ settled.waiting := by
  induction follows with
  | done | accept => exact fun _ => List.mem_reverse.mpr
  | again _ _ ih => exact ih
  | leave _ _ _ ih => exact fun thread member => ih thread (List.mem_append_right _ member)

/-- No two threads wait at one address. -/
theorem Follows.apart (follows : Follows machine place reached found threads settled)
    (known : (found.map (·.address)).Nodup) (seen : ∀ thread ∈ found, thread.address ∈ reached) :
    (settled.waiting.map (·.address)).Nodup := by
  induction follows with
  | done | accept =>
    rw [List.map_reverse]
    exact List.nodup_reverse.mpr known
  | again _ _ ih => exact ih known seen
  | @leave reached found others thread settled new _ _ ih =>
    refine ih ?_ (List.forall_mem_append.mpr ⟨fun other member => ?_, fun other member =>
      List.mem_cons_of_mem _ (seen other member)⟩)
    · unfold waits
      split
      · refine List.nodup_cons.mpr ⟨fun member => ?_, known⟩
        obtain ⟨other, there, same⟩ := List.mem_map.mp member
        have stands : other.address = thread.address := same
        exact new (stands ▸ seen other there)
      · exact known
    · rw [eq_of_mem_waits member]
      exact List.mem_cons_self

/-- At most one thread waits at an address. -/
theorem eq_of_mem_settle {other : Thread} (first : thread ∈ (machine.settle place threads).waiting)
    (second : other ∈ (machine.settle place threads).waiting)
    (same : thread.address = other.address) : thread = other :=
  List.inj_on_of_nodup_map ((follows_settle machine place threads).apart List.nodup_nil nofun)
    first second same

/-- What holds of all threads that are followed, and of what they open, holds of those that are
found and of the one that is accepted. -/
theorem Follows.preserves {property : Thread → Prop}
    (follows : Follows machine place reached found threads settled)
    (opened : ∀ thread, property thread → ∀ next ∈ machine.opens place thread, property next)
    (known : ∀ thread ∈ found, property thread) (pending : ∀ thread ∈ threads, property thread) :
    (∀ thread ∈ settled.waiting, property thread) ∧
      ∀ final, settled.accepted = some final → ∃ thread, property thread ∧
        machine.code[thread.address]? = some .accept ∧ thread.marks = final := by
  induction follows with
  | done => exact ⟨fun thread member => known thread (List.mem_reverse.mp member), nofun⟩
  | again _ _ ih => exact ih known (List.forall_mem_cons.mp pending).2
  | accept _ here =>
    refine ⟨fun thread member => known thread (List.mem_reverse.mp member), fun final same => ?_⟩
    exact ⟨_, pending _ List.mem_cons_self, here, Option.some.inj same⟩
  | leave _ _ _ ih =>
    obtain ⟨own, later⟩ := List.forall_mem_cons.mp pending
    refine ih (List.forall_mem_append.mpr ⟨fun other member => ?_, known⟩)
      (List.forall_mem_append.mpr ⟨opened _ own, later⟩)
    rw [eq_of_mem_waits member]
    exact own

/-! ## What is opened -/

theorem gain_opens {good : List Mark → Prop} (gain : Gain machine place good [thread]) :
    Gain machine place good (machine.opens place thread) := by
  unfold opens
  split
  · next instruction here => exact gain.successors here
  · exact fun _ absent => absurd absent List.not_mem_nil

end ScriptBinding.Regex.Machine

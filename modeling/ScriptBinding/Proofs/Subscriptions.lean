import Mathlib.Data.List.Induction
import ScriptBinding.Proofs.Jobs

/-! # The order of a dispatch

Subscriptions are numbered in the order in which they were made. Whatever the calls were that made
and removed them, the triggers of a class are shown an event by priority and, within one priority,
by these numbers. Each of them finds the event as those before it have left it: it is passed over if
its filter rejects the event, and one whose body fails does not keep the others from running.
-/

namespace ScriptBinding

/-! ## Histories of subscriptions -/

/-- A call of the host that changes its bus. -/
inductive BusCall where
  | subscribe (classes : List EventClass) (priority : EventPriority) (trigger : Trigger)
  | addSelfRegistered (trigger : Trigger)
  /-- Remove the subscriptions of the trigger with a ticket. -/
  | remove (ticket : Nat)

namespace BusCall

/-- The subscriptions that a call makes. -/
def made : BusCall → List Subscription
  | subscribe classes priority trigger => classes.map (⟨·, priority, trigger⟩)
  | _ => []

/-- The call removes the subscriptions of the trigger. -/
def removes (trigger : Trigger) : BusCall → Bool
  | remove ticket => trigger.ticket == ticket
  | _ => false

/-- How many subscriptions some calls have made, whether they are still there or not. -/
def count (calls : List BusCall) : Nat :=
  (calls.flatMap made).length

/-- The subscription was made by one of the calls, as the one with this number, and none of the
calls behind that one has removed it. -/
def Live (calls : List BusCall) (subscription : Subscription) (number : Nat) : Prop :=
  ∃ earlier call later place, calls = earlier ++ call :: later ∧
    call.made[place]? = some subscription ∧ number = count earlier + place ∧
    ∀ other ∈ later, other.removes subscription.trigger = false

variable {calls : List BusCall} {number : Nat} {subscription : Subscription}

theorem count_append (calls others : List BusCall) :
    count (calls ++ others) = count calls + count others := by
  simp [count]

/-- Numbers are given out in turn. -/
theorem Live.lt_count (live : Live calls subscription number) : number < count calls := by
  obtain ⟨earlier, call, later, place, rfl, there, rfl, -⟩ := live
  have inside : place < call.made.length := (List.getElem?_eq_some_iff.mp there).1
  have whole : count (call :: later) = call.made.length + count later := by simp [count]
  rw [count_append, whole]
  omega

/-- One more call makes subscriptions of its own, and leaves those that it does not remove. -/
theorem live_concat {last : BusCall} : Live (calls ++ [last]) subscription number ↔
    Live calls subscription number ∧ last.removes subscription.trigger = false ∨
      ∃ place, last.made[place]? = some subscription ∧ number = count calls + place := by
  constructor
  · rintro ⟨earlier, call, later, place, split, there, rfl, stays⟩
    rcases List.eq_nil_or_concat later with rfl | ⟨later, final, rfl⟩
    · obtain ⟨rfl, same⟩ := List.append_inj' split rfl
      obtain rfl : last = call := by simpa using same
      exact Or.inr ⟨place, there, rfl⟩
    · have cut : calls ++ [last] = (earlier ++ call :: later) ++ [final] := by simpa using split
      obtain ⟨rfl, same⟩ := List.append_inj' cut rfl
      obtain rfl : last = final := by simpa using same
      refine Or.inl ⟨⟨earlier, call, later, place, rfl, there, rfl, ?_⟩, stays last (by simp)⟩
      exact fun other member => stays other (by simp [member])
  · rintro (⟨⟨earlier, call, later, place, rfl, there, rfl, stays⟩, other⟩ |
      ⟨place, there, rfl⟩)
    · refine ⟨earlier, call, later ++ [last], place, by simp, there, rfl, ?_⟩
      simpa [or_imp, forall_and] using ⟨stays, other⟩
    · exact ⟨calls, last, [], place, rfl, there, rfl, nofun⟩

end BusCall

namespace Host

/-- The host after a call that was made on a thread. -/
def answer (thread : Thread) (host : Host) : BusCall → Host
  | .subscribe classes priority trigger => host.subscribe thread classes priority trigger
  | .addSelfRegistered trigger => host.addSelfRegistered thread trigger
  | .remove ticket => host.removeTrigger thread ticket

/-- The host after some calls, each of them made on a thread. -/
def answerAll (calls : List (Thread × BusCall)) (host : Host) : Host :=
  calls.foldl (fun host call => host.answer call.1 call.2) host

theorem subscriptions_touchBus (thread : Thread) (host : Host) :
    (host.touchBus thread).bus.subscriptions = host.bus.subscriptions := by
  cases thread <;> rfl

/-- What a call makes of the subscriptions. -/
theorem subscriptions_answer (thread : Thread) (host : Host) (call : BusCall) :
    (host.answer thread call).bus.subscriptions =
      host.bus.subscriptions.filter (fun subscription => !call.removes subscription.trigger) ++
        call.made := by
  have touched := host.subscriptions_touchBus thread
  have all : host.bus.subscriptions.filter (fun _ => true) = host.bus.subscriptions :=
    List.filter_eq_self.mpr fun _ _ => rfl
  cases call with
  | subscribe classes priority trigger =>
    simp [answer, subscribe, EventBus.subscribe, touched, BusCall.removes, BusCall.made, all]
  | addSelfRegistered trigger =>
    simp [answer, addSelfRegistered, EventBus.addSelfRegistered, touched, BusCall.removes,
      BusCall.made, all]
  | remove ticket =>
    simp [answer, removeTrigger, EventBus.remove, touched, BusCall.removes, BusCall.made, bne]

/-- The subscriptions of a host are those that are live, in the order of their numbers. -/
theorem subscriptions_answerAll (host : Host) (empty : host.bus.subscriptions = [])
    (calls : List (Thread × BusCall)) :
    ∃ entries : List (Subscription × Nat),
      (host.answerAll calls).bus.subscriptions = entries.map Prod.fst ∧
      entries.Pairwise (fun a b => a.2 < b.2) ∧
      ∀ subscription number, (subscription, number) ∈ entries ↔
        BusCall.Live (calls.map Prod.snd) subscription number := by
  -- The calls are added at the end, so that a later one can remove what earlier ones have made.
  induction calls using List.reverseRecOn with
  | nil =>
    refine ⟨[], empty, .nil, fun subscription number => ⟨nofun, ?_⟩⟩
    rintro ⟨earlier, call, later, place, split, -⟩
    simp at split
  | append_singleton calls last ih =>
    obtain ⟨thread, call⟩ := last
    obtain ⟨entries, listed, ascending, live⟩ := ih
    let first := BusCall.count (calls.map Prod.snd)
    let older := entries.filter fun entry => !call.removes entry.1.trigger
    let newer := call.made.zipIdx first
    have numbers : newer.map Prod.snd = List.range' first call.made.length :=
      List.zipIdx_map_snd _ _
    refine ⟨older ++ newer, ?_, ?_, fun subscription number => ?_⟩
    · rw [answerAll, List.foldl_append, List.foldl_cons, List.foldl_nil, subscriptions_answer,
        List.map_append, List.zipIdx_map_fst]
      change (host.answerAll calls).bus.subscriptions.filter _ ++ _ = _
      rw [listed, List.filter_map]
      rfl
    · refine List.pairwise_append.mpr ⟨ascending.filter _, ?_, fun old isOld new isNew => ?_⟩
      · rw [← List.pairwise_map, numbers]
        exact List.pairwise_lt_range'
      · have below : old.2 < first :=
          ((live old.1 old.2).mp (List.mem_filter.mp isOld).1).lt_count
        have above : new.2 ∈ List.range' first call.made.length :=
          numbers ▸ List.mem_map_of_mem isNew
        exact Nat.lt_of_lt_of_le below (List.mem_range'_1.mp above).1
    · rw [List.map_append, List.map_cons, List.map_nil, BusCall.live_concat, List.mem_append,
        List.mem_filter, live, List.mem_zipIdx_iff_le_and_getElem?_sub]
      refine or_congr (and_congr_right fun _ => by simp) ⟨?_, ?_⟩
      · rintro ⟨least, there⟩
        exact ⟨number - first, there, by omega⟩
      · rintro ⟨place, there, rfl⟩
        exact ⟨Nat.le_add_right _ _, by simpa [first] using there⟩

end Host

/-! ## Putting subscriptions in order -/

namespace EventBus

/-- The first of two numbered subscriptions is shown an event first: by its priority or, within one
priority, by its number. -/
def Sooner (a b : Subscription × Nat) : Prop :=
  a.1.priority.rank < b.1.priority.rank ∨ a.1.priority = b.1.priority ∧ a.2 < b.2

theorem eq_of_rank_eq {a b : EventPriority} (same : a.rank = b.rank) : a = b := by
  cases a <;> cases b <;> first | rfl | cases same

/-- Sorting by priority keeps the order of the numbers within each priority. -/
theorem pairwise_sooner {entries : List (Subscription × Nat)}
    (ascending : entries.Pairwise fun a b => a.2 < b.2) :
    (entries.mergeSort fun a b => before a.1 b.1).Pairwise Sooner := by
  have trans (a b c : Subscription × Nat) := before_trans a.1 b.1 c.1
  have total (a b : Subscription × Nat) := before_total a.1 b.1
  refine List.pairwise_iff_forall_sublist.mpr fun {a b} sub => ?_
  have ranks : a.1.priority.rank ≤ b.1.priority.rank := by
    have sorted := (List.pairwise_mergeSort trans total entries).forall_sublist sub
    simpa [before] using sorted
  rcases Nat.lt_or_eq_of_le ranks with less | same
  · exact Or.inl less
  · -- Those of one priority stand in the sorted list as they stood before.
    let peers (entry : Subscription × Nat) : Bool :=
      entry.1.priority.rank == b.1.priority.rank
    have level : (entries.filter peers).Pairwise fun a b => before a.1 b.1 := by
      refine List.pairwise_iff_forall_sublist.mpr fun {x y} pair => ?_
      have peer (entry : Subscription × Nat) (member : entry ∈ [x, y]) :
          entry.1.priority.rank = b.1.priority.rank := by
        simpa [peers] using (List.mem_filter.mp (pair.subset member)).2
      simp [before, peer x (by simp), peer y (by simp)]
    have kept : (entries.mergeSort fun a b => before a.1 b.1).filter peers =
        entries.filter peers := by
      rw [filter_mergeSort trans total, List.mergeSort_of_pairwise level]
    have both : [a, b].filter peers = [a, b] := by simp [peers, same]
    have inOrder : [a, b].Sublist entries := by
      have filtered := sub.filter peers
      rw [both, kept] at filtered
      exact filtered.trans List.filter_sublist
    exact Or.inr ⟨eq_of_rank_eq same, ascending.forall_sublist inOrder⟩

end EventBus

/-! ## Showing an event to triggers -/

/-- Showing an event to triggers in turn: how many bodies run to their end, what is noted about
those that fail, and what is left in the end. -/
inductive Environment.Fires (environment : Environment) :
    RunState → List Trigger → Nat → List LogEntry → RunState → Prop
  | nil {state : RunState} : Fires environment state [] 0 [] state
  | passes {state final : RunState} {trigger : Trigger} {others : List Trigger} {count : Nat}
      {log : List LogEntry} (rejects : trigger.filter.accepts state.event = false)
      (rest : Fires environment state others count log final) :
      Fires environment state (trigger :: others) count log final
  | completes {state after final : RunState} {trigger : Trigger} {others : List Trigger}
      {count : Nat} {log : List LogEntry} {flow : Flow}
      (accepts : trigger.filter.accepts state.event = true)
      (runs : environment.run trigger.items 0 state = (.ok flow, after))
      (rest : Fires environment after others count log final) :
      Fires environment state (trigger :: others) (count + 1) log final
  | fails {state after final : RunState} {trigger : Trigger} {others : List Trigger}
      {count : Nat} {log : List LogEntry} {failure : Failure}
      (accepts : trigger.filter.accepts state.event = true)
      (runs : environment.run trigger.items 0 state = (.error failure, after))
      (rest : Fires environment after others count log final) :
      Fires environment state (trigger :: others) count (trigger.failureEntry failure :: log) final

namespace EventBus

/-- Showing an event to the triggers of some subscriptions, after others. -/
theorem fires_foldl (environment : Environment) (subscriptions : List Subscription)
    (dispatch : Dispatch) :
    ∃ count log final,
      environment.Fires dispatch.state (subscriptions.map (·.trigger)) count log final ∧
      subscriptions.foldl (fun dispatch subscription =>
          dispatch.show environment subscription.trigger) dispatch =
        ⟨final, dispatch.completed + count, dispatch.log ++ log⟩ := by
  induction subscriptions generalizing dispatch with
  | nil => exact ⟨0, [], dispatch.state, .nil, by simp⟩
  | cons first others ih =>
    obtain ⟨count, log, final, fires, folded⟩ := ih (dispatch.show environment first.trigger)
    rw [List.map_cons, List.foldl_cons, folded]
    cases accepts : first.trigger.filter.accepts dispatch.state.event with
    | false =>
      have shown : dispatch.show environment first.trigger = dispatch := by
        simp [Dispatch.show, Trigger.execute, accepts]
      rw [shown] at fires ⊢
      exact ⟨count, log, final, .passes accepts fires, rfl⟩
    | true =>
      cases runs : environment.run first.trigger.items 0 dispatch.state with
      | mk result after =>
        cases result with
        | ok flow =>
          have shown : dispatch.show environment first.trigger =
              ⟨after, dispatch.completed + 1, dispatch.log⟩ := by
            simp [Dispatch.show, Trigger.execute, accepts, runs, Except.map]
          rw [shown] at fires ⊢
          exact ⟨count + 1, log, final, .completes accepts runs fires, by simp; omega⟩
        | error failure =>
          have shown : dispatch.show environment first.trigger =
              ⟨after, dispatch.completed,
                dispatch.log ++ [first.trigger.failureEntry failure]⟩ := by
            simp [Dispatch.show, Trigger.execute, accepts, runs, Except.map]
          rw [shown] at fires ⊢
          exact ⟨count, _, final, .fails accepts runs fires, by simp⟩

end EventBus

namespace Host

/-- What a host makes of its subscriptions after some calls. -/
structure Dispatches (calls : List BusCall) (host : Host) : Prop where
  /-- The subscriptions of a class are those that are live, each once, and in order. -/
  listed : ∀ eventClass, ∃ order : List (Subscription × Nat),
    host.bus.listeners eventClass = order.map Prod.fst ∧ order.Pairwise EventBus.Sooner ∧
      ∀ subscription number, (subscription, number) ∈ order ↔
        BusCall.Live calls subscription number ∧ subscription.eventClass = eventClass
  /-- Removing some of them leaves the others in their order. -/
  removed : ∀ thread ticket eventClass,
    (host.removeTrigger thread ticket).bus.listeners eventClass =
      (host.bus.listeners eventClass).filter (·.trigger.ticket != ticket)
  /-- An event is shown to the triggers of its class in that order. -/
  fired : ∀ event, ∃ count log final,
    host.environment.Fires ⟨event, host.effects⟩
      ((host.bus.listeners event.eventClass).map (·.trigger)) count log final ∧
    host.fire event =
      (count, final.event, ({ host with effects := final.effects } : Host).write log)

theorem listeners_answerAll (host : Host) (empty : host.bus.subscriptions = [])
    (calls : List (Thread × BusCall)) (eventClass : EventClass) :
    ∃ order : List (Subscription × Nat),
      (host.answerAll calls).bus.listeners eventClass = order.map Prod.fst ∧
      order.Pairwise EventBus.Sooner ∧ ∀ subscription number, (subscription, number) ∈ order ↔
        BusCall.Live (calls.map Prod.snd) subscription number ∧
          subscription.eventClass = eventClass := by
  obtain ⟨entries, listed, ascending, live⟩ := host.subscriptions_answerAll empty calls
  let own := entries.filter fun entry => entry.1.eventClass == eventClass
  refine ⟨own.mergeSort fun a b => EventBus.before a.1 b.1, ?_,
    EventBus.pairwise_sooner (ascending.filter _), fun subscription number => ?_⟩
  · rw [EventBus.listeners, listed, List.filter_map]
    have sorted : (own.mergeSort fun a b => EventBus.before a.1 b.1).map Prod.fst =
        (own.map Prod.fst).mergeSort EventBus.before := List.map_mergeSort fun _ _ _ _ => rfl
    exact sorted.symm
  · rw [List.mem_mergeSort, List.mem_filter, live, beq_iff_eq]

theorem fires_fire (host : Host) (event : HostEvent) : ∃ count log final,
    host.environment.Fires ⟨event, host.effects⟩
      ((host.bus.listeners event.eventClass).map (·.trigger)) count log final ∧
    host.fire event =
      (count, final.event, ({ host with effects := final.effects } : Host).write log) := by
  obtain ⟨count, log, final, fires, folded⟩ := EventBus.fires_foldl host.environment
    (host.bus.listeners event.eventClass) { state := ⟨event, host.effects⟩ }
  refine ⟨count, log, final, fires, ?_⟩
  rw [fire, EventBus.fire, folded]
  simp

/-- **The order of a dispatch.** Take a host without subscriptions, and any calls that make and
remove some, on any threads. The triggers of a class are those of the subscriptions that are left,
each once, by priority and within one priority in the order in which they were made; removing some
does not change the order of the others. An event is shown to them in that order. The body of each
one runs just if its filter accepts the event as those before it have left it, whether they have
failed or not, and what is counted are the bodies that have run to their end. -/
theorem answerAll_dispatches (host : Host) (calls : List (Thread × BusCall)) :
    Dispatches (calls.map Prod.snd) (({ host with bus := {} } : Host).answerAll calls) where
  listed eventClass := listeners_answerAll _ rfl calls eventClass
  removed thread ticket eventClass := by
    have touched := (({ host with bus := {} } : Host).answerAll calls).subscriptions_touchBus thread
    rw [removeTrigger, EventBus.listeners]
    simp only [EventBus.remove, touched]
    exact EventBus.listeners_filter _ _ _
  fired event := fires_fire _ event

end Host

end ScriptBinding

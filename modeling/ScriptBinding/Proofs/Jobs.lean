import ScriptBinding.Host
import ScriptBinding.Proofs.CommandTable

/-! # What jobs do to the tables of the host

Binding and taking back triggers touches the bus, registering and taking back commands touches the
command table, and each job touches what is kept under its own tickets only.
-/

namespace ScriptBinding

/-- The subscriptions that a draft of a script is given. -/
def TriggerDraft.subscriptions (usual : EventPriority) (script : Script) (draft : TriggerDraft) :
    List Subscription :=
  if draft.filter.registersItself then []
  else (Host.draftClasses draft).map
    (⟨·, draft.priority.getD usual, draft.toTrigger script⟩)

/-- The triggers that register themselves for a draft of a script. -/
def TriggerDraft.selfRegistered (script : Script) (draft : TriggerDraft) : List Trigger :=
  if draft.filter.registersItself then [draft.toTrigger script] else []

namespace TriggerDraft

variable {script : Script} {draft : TriggerDraft}

theorem trigger_of_mem_subscriptions {usual : EventPriority} {subscription : Subscription}
    (member : subscription ∈ draft.subscriptions usual script) :
    subscription.trigger = draft.toTrigger script := by
  unfold subscriptions at member
  split at member
  · exact absurd member List.not_mem_nil
  · obtain ⟨_, _, rfl⟩ := List.mem_map.mp member
    rfl

theorem trigger_of_mem_selfRegistered {trigger : Trigger}
    (member : trigger ∈ draft.selfRegistered script) : trigger = draft.toTrigger script := by
  unfold selfRegistered at member
  split at member
  · exact List.mem_singleton.mp member
  · exact absurd member List.not_mem_nil

end TriggerDraft

namespace EventBus

/-- A list is cut in only one way into items that pass a test and items that fail it. -/
theorem cut_unique {α : Type} {passes : α → Bool} {first second others rest : List α}
    (same : first ++ second = others ++ rest) (high : ∀ item ∈ first, passes item = true)
    (low : ∀ item ∈ second, passes item = false) (otherHigh : ∀ item ∈ others, passes item = true)
    (otherLow : ∀ item ∈ rest, passes item = false) : first = others ∧ second = rest := by
  have filtered := congrArg (List.filter passes) same
  have noLow {items : List α} (low : ∀ item ∈ items, passes item = false) :
      items.filter passes = [] :=
    List.filter_eq_nil_iff.mpr fun item member => by rw [low item member]; exact Bool.false_ne_true
  rw [List.filter_append, List.filter_append, noLow low, noLow otherLow, List.append_nil,
    List.append_nil, List.filter_eq_self.mpr high, List.filter_eq_self.mpr otherHigh] at filtered
  refine ⟨filtered, ?_⟩
  rw [filtered] at same
  exact List.append_cancel_left same

/-- Putting what is left in order leaves what was in order. -/
theorem filter_mergeSort {α : Type} {before : α → α → Bool}
    (trans : ∀ a b c, before a b → before b c → before a c) (total : ∀ a b, before a b || before b a)
    (stays : α → Bool) (items : List α) :
    (items.mergeSort before).filter stays = (items.filter stays).mergeSort before := by
  induction items with
  | nil => simp
  | cons first rest ih =>
    obtain ⟨earlier, later, whole, others, lower⟩ := List.mergeSort_cons trans total first rest
    by_cases kept : stays first = true
    · obtain ⟨keptEarlier, keptLater, keptWhole, keptOthers, keptLower⟩ :=
        List.mergeSort_cons trans total first (rest.filter stays)
      have sorted := List.pairwise_mergeSort trans total (first :: rest)
      have keptSorted := List.pairwise_mergeSort trans total (first :: rest.filter stays)
      rw [whole] at sorted
      rw [keptWhole] at keptSorted
      have upper : ∀ item ∈ later, before first item = true :=
        (List.pairwise_cons.mp (List.pairwise_append.mp sorted).2.1).1
      have keptUpper : ∀ item ∈ keptLater, before first item = true :=
        (List.pairwise_cons.mp (List.pairwise_append.mp keptSorted).2.1).1
      have same : keptEarlier ++ keptLater = earlier.filter stays ++ later.filter stays := by
        rw [← keptOthers, ← ih, others, List.filter_append]
      obtain ⟨sameEarlier, sameLater⟩ := cut_unique same keptLower
        (fun item member => by rw [keptUpper item member]; rfl)
        (fun item member => lower item (List.mem_filter.mp member).1)
        (fun item member => by rw [upper item (List.mem_filter.mp member).1]; rfl)
      rw [whole, List.filter_append, List.filter_cons, if_pos kept, List.filter_cons, if_pos kept,
        keptWhole, sameEarlier, sameLater]
    · rw [whole, List.filter_append, List.filter_cons, if_neg kept, List.filter_cons, if_neg kept,
        ← ih, others, List.filter_append]

theorem before_trans (a b c : Subscription) (first : before a b) (second : before b c) :
    before a c := by
  simp only [before, decide_eq_true_eq] at *
  exact Nat.le_trans first second

theorem before_total (a b : Subscription) : before a b || before b a := by
  simp only [before, Bool.or_eq_true, decide_eq_true_eq]
  exact Nat.le_total _ _

/-- Subscriptions that are dropped do not change the order in which others are dispatched. -/
theorem listeners_filter (stays : Subscription → Bool) (eventClass : EventClass)
    (subscriptions : List Subscription) :
    ((subscriptions.filter stays).filter (·.eventClass == eventClass)).mergeSort before =
      ((subscriptions.filter (·.eventClass == eventClass)).mergeSort before).filter stays := by
  rw [filter_mergeSort before_trans before_total, List.filter_filter, List.filter_filter]
  simp only [Bool.and_comm]

end EventBus

namespace Host

/-- What a job on the bus leaves as it is. -/
structure BusStep (before after : Host) : Prop where
  config : after.config = before.config
  classes : after.classes = before.classes
  commands : after.commands = before.commands
  functions : after.functions = before.functions
  store : after.store = before.store
  queue : after.queue = before.queue
  registrations : after.registrations = before.registrations
  nextTicket : after.nextTicket = before.nextTicket

theorem BusStep.refl (host : Host) : BusStep host host := by
  constructor <;> rfl

theorem BusStep.trans {first second third : Host} (before : BusStep first second)
    (after : BusStep second third) : BusStep first third where
  config := after.config.trans before.config
  classes := after.classes.trans before.classes
  commands := after.commands.trans before.commands
  functions := after.functions.trans before.functions
  store := after.store.trans before.store
  queue := after.queue.trans before.queue
  registrations := after.registrations.trans before.registrations
  nextTicket := after.nextTicket.trans before.nextTicket

/-- What a job on the command table leaves as it is. -/
structure CommandStep (before after : Host) : Prop where
  config : after.config = before.config
  classes : after.classes = before.classes
  bus : after.bus = before.bus
  functions : after.functions = before.functions
  store : after.store = before.store
  queue : after.queue = before.queue
  bound : after.bound = before.bound
  nextTicket : after.nextTicket = before.nextTicket

theorem CommandStep.refl (host : Host) : CommandStep host host := by
  constructor <;> rfl

theorem CommandStep.trans {first second third : Host} (before : CommandStep first second)
    (after : CommandStep second third) : CommandStep first third where
  config := after.config.trans before.config
  classes := after.classes.trans before.classes
  bus := after.bus.trans before.bus
  functions := after.functions.trans before.functions
  store := after.store.trans before.store
  queue := after.queue.trans before.queue
  bound := after.bound.trans before.bound
  nextTicket := after.nextTicket.trans before.nextTicket

/-! ## Submitting -/

/-- The main thread does a job at once, whatever waits. -/
theorem submit_main (job : Job) (host : Host) : host.submit .main job = host.perform job := by
  have unchanged : host.queue.enqueue [] = host.queue := by
    simp only [JobQueue.enqueue, List.append_nil, List.length_nil, Nat.add_zero]
  unfold submit
  simp only [JobQueue.submit, Work.single, Work.run, Work.run.runAll, unchanged, List.foldl_cons,
    List.foldl_nil]

/-- A worker leaves a job behind those that wait. -/
theorem submit_worker (job : Job) (host : Host) : host.submit .worker job =
    { host with queue := host.queue.enqueue [.single job] } := rfl

/-! ## Triggers -/

theorem runLoadTrigger_eq (trigger : Trigger) (host : Host) :
    ∃ effects log, host.runLoadTrigger trigger = { host with effects, log } := by
  unfold runLoadTrigger
  dsimp only
  split
  · exact ⟨_, _, rfl⟩
  · exact ⟨_, _, rfl⟩

theorem runLoadTrigger_bus (trigger : Trigger) (host : Host) :
    (host.runLoadTrigger trigger).bus = host.bus := by
  obtain ⟨_, _, same⟩ := runLoadTrigger_eq trigger host
  rw [same]

theorem selfRegister_eq (trigger : Trigger) (host : Host) :
    ∃ loadListeners effects notes log, host.selfRegister trigger =
      { host with bus := { host.bus with loadListeners }, effects, notes, log } := by
  unfold selfRegister
  dsimp only
  split
  · obtain ⟨effects, log, same⟩ := runLoadTrigger_eq trigger
      { host.note (trigger.filter.notes fun custom => custom.onRegister trigger.label) with
        bus := host.bus.addLoadListener trigger }
    exact ⟨_, effects, _, log, same⟩
  · exact ⟨_, _, _, _, rfl⟩

theorem selfUnregister_eq (trigger : Trigger) (host : Host) :
    ∃ loadListeners notes, host.selfUnregister trigger =
      { host with bus := { host.bus with loadListeners }, notes } := by
  unfold selfUnregister
  dsimp only
  split
  · exact ⟨_, _, rfl⟩
  · exact ⟨_, _, rfl⟩

theorem keepBound_bound (ticket : Nat) (trigger : Option Trigger) (host : Host) :
    (host.keepBound ticket trigger).bound = Function.update host.bound ticket trigger := by
  funext other
  by_cases same : other = ticket
  · subst same
    simp [keepBound]
  · simp [keepBound, same]

/-- A draft that is bound is kept under its ticket, behind what was on the bus. -/
theorem bindDraft_spec (script : Script) (draft : TriggerDraft) (host : Host) :
    BusStep host (host.bindDraft script draft) ∧
      (host.bindDraft script draft).bound =
        Function.update host.bound draft.ticket (some (draft.toTrigger script)) ∧
      (host.bindDraft script draft).bus.subscriptions = host.bus.subscriptions ++
        draft.subscriptions host.config.defaultPriority script ∧
      (host.bindDraft script draft).bus.selfRegistered =
        host.bus.selfRegistered ++ draft.selfRegistered script := by
  have kept := keepBound_bound draft.ticket (some (draft.toTrigger script)) host
  unfold bindDraft TriggerDraft.subscriptions TriggerDraft.selfRegistered
  dsimp only
  split
  · obtain ⟨_, _, _, _, same⟩ := selfRegister_eq (draft.toTrigger script)
      (host.keepBound draft.ticket (some (draft.toTrigger script)))
    rw [same]
    refine ⟨?_, kept, (List.append_nil _).symm, rfl⟩
    constructor <;> rfl
  · refine ⟨?_, kept, rfl, (List.append_nil _).symm⟩
    constructor <;> rfl

/-- What is kept under tickets once some drafts have been bound. -/
def boundAfter (script : Script) (drafts : List TriggerDraft) (bound : Nat → Option Trigger) :
    Nat → Option Trigger :=
  drafts.foldl (fun bound draft =>
    Function.update bound draft.ticket (some (draft.toTrigger script))) bound

/-- The drafts of a script that are bound go behind what was on the bus, in their order. -/
theorem perform_bind (script : Script) (drafts : List TriggerDraft) (host : Host) :
    BusStep host (host.perform (.bind script drafts)) ∧
      (host.perform (.bind script drafts)).bound = boundAfter script drafts host.bound ∧
      (host.perform (.bind script drafts)).bus.subscriptions = host.bus.subscriptions ++
        drafts.flatMap (·.subscriptions host.config.defaultPriority script) ∧
      (host.perform (.bind script drafts)).bus.selfRegistered =
        host.bus.selfRegistered ++ drafts.flatMap (·.selfRegistered script) := by
  induction drafts generalizing host with
  | nil => exact ⟨.refl host, rfl, (List.append_nil _).symm, (List.append_nil _).symm⟩
  | cons draft others ih =>
    obtain ⟨first, bound, subscriptions, selfRegistered⟩ := bindDraft_spec script draft host
    obtain ⟨rest, boundRest, subscriptionsRest, selfRegisteredRest⟩ :=
      ih (host.bindDraft script draft)
    change BusStep host ((host.bindDraft script draft).perform (.bind script others)) ∧ _
    refine ⟨first.trans rest, ?_, ?_, ?_⟩
    · rw [boundAfter, List.foldl_cons, ← bound]
      exact boundRest
    · rw [List.flatMap_cons, ← List.append_assoc, ← subscriptions, ← first.config]
      exact subscriptionsRest
    · rw [List.flatMap_cons, ← List.append_assoc, ← selfRegistered]
      exact selfRegisteredRest

theorem boundAfter_of_not_mem {script : Script} {drafts : List TriggerDraft} {ticket : Nat}
    (absent : ∀ draft ∈ drafts, draft.ticket ≠ ticket) (bound : Nat → Option Trigger) :
    boundAfter script drafts bound ticket = bound ticket := by
  unfold boundAfter
  induction drafts generalizing bound with
  | nil => rfl
  | cons draft others ih =>
    rw [List.foldl_cons, ih fun later member => absent later (List.mem_cons_of_mem _ member)]
    exact Function.update_of_ne (absent draft List.mem_cons_self).symm _ _

theorem boundAfter_of_mem {script : Script} {drafts : List TriggerDraft} {draft : TriggerDraft}
    (distinct : (drafts.map TriggerDraft.ticket).Nodup) (member : draft ∈ drafts)
    (bound : Nat → Option Trigger) :
    boundAfter script drafts bound draft.ticket = some (draft.toTrigger script) := by
  induction drafts generalizing bound with
  | nil => exact absurd member List.not_mem_nil
  | cons first others ih =>
    obtain ⟨fresh, distinct⟩ := List.nodup_cons.mp distinct
    rcases List.mem_cons.mp member with rfl | later
    · have absent : ∀ other ∈ others, other.ticket ≠ draft.ticket := by
        intro other otherMember same
        rw [← same] at fresh
        exact fresh (List.mem_map_of_mem otherMember)
      exact (boundAfter_of_not_mem absent _).trans (Function.update_self ..)
    · exact ih distinct later _

/-- A trigger that is taken back is kept no longer and has left the bus. -/
theorem unbind_of_some {ticket : Nat} {trigger : Trigger} {host : Host}
    (found : host.bound ticket = some trigger) :
    BusStep host (host.unbind ticket) ∧
      (host.unbind ticket).bound = Function.update host.bound ticket none ∧
      (host.unbind ticket).bus.subscriptions =
        host.bus.subscriptions.filter (·.trigger.ticket != trigger.ticket) ∧
      (host.unbind ticket).bus.selfRegistered =
        host.bus.selfRegistered.filter (·.ticket != trigger.ticket) := by
  have kept := keepBound_bound ticket none host
  unfold unbind
  rw [found]
  dsimp only
  split
  · obtain ⟨_, _, same⟩ := selfUnregister_eq trigger (host.keepBound ticket none)
    rw [same]
    refine ⟨?_, kept, rfl, rfl⟩
    constructor <;> rfl
  · refine ⟨?_, kept, rfl, rfl⟩
    constructor <;> rfl

theorem unbind_of_none {ticket : Nat} {host : Host} (absent : host.bound ticket = none) :
    host.unbind ticket = host := by
  unfold unbind
  rw [absent]

/-- What is kept under a ticket is a trigger that has it, and otherwise no trigger on the bus has
it. -/
structure KeepsOwn (host : Host) (ticket : Nat) : Prop where
  own : ∀ trigger, host.bound ticket = some trigger → trigger.ticket = ticket
  subscriptions : host.bound ticket = none →
    ∀ subscription ∈ host.bus.subscriptions, subscription.trigger.ticket ≠ ticket
  selfRegistered : host.bound ticket = none →
    ∀ trigger ∈ host.bus.selfRegistered, trigger.ticket ≠ ticket

namespace KeepsOwn

variable {host after : Host} {ticket : Nat}

theorem of_same (keeps : host.KeepsOwn ticket) (bus : after.bus = host.bus)
    (bound : after.bound = host.bound) : after.KeepsOwn ticket where
  own := bound ▸ keeps.own
  subscriptions := by
    rw [bus, bound]
    exact keeps.subscriptions
  selfRegistered := by
    rw [bus, bound]
    exact keeps.selfRegistered

/-- Taking back what is kept under a ticket removes exactly what has the ticket. -/
theorem unbind_spec (keeps : host.KeepsOwn ticket) :
    BusStep host (host.unbind ticket) ∧
      (host.unbind ticket).bound = Function.update host.bound ticket none ∧
      (host.unbind ticket).bus.subscriptions =
        host.bus.subscriptions.filter (·.trigger.ticket != ticket) ∧
      (host.unbind ticket).bus.selfRegistered =
        host.bus.selfRegistered.filter (·.ticket != ticket) := by
  cases found : host.bound ticket with
  | some trigger =>
    have spec := unbind_of_some found
    rwa [keeps.own trigger found] at spec
  | none =>
    rw [unbind_of_none found]
    refine ⟨.refl host, ?_, ?_, ?_⟩
    · rw [← found, Function.update_eq_self]
    · refine (List.filter_eq_self.mpr fun subscription member => ?_).symm
      exact bne_iff_ne.mpr (keeps.subscriptions found subscription member)
    · refine (List.filter_eq_self.mpr fun trigger member => ?_).symm
      exact bne_iff_ne.mpr (keeps.selfRegistered found trigger member)

/-- What is kept under other tickets stays so. -/
theorem unbind {other : Nat} (keeps : host.KeepsOwn ticket) (there : host.KeepsOwn other) :
    (host.unbind ticket).KeepsOwn other := by
  obtain ⟨_, bound, subscriptions, selfRegistered⟩ := keeps.unbind_spec
  by_cases here : other = ticket
  · subst here
    have gone : (host.unbind other).bound other = none := by rw [bound, Function.update_self]
    refine ⟨fun trigger found => ?_, fun _ subscription member => ?_, fun _ trigger member => ?_⟩
    · rw [gone] at found
      cases found
    · rw [subscriptions] at member
      exact bne_iff_ne.mp (List.mem_filter.mp member).2
    · rw [selfRegistered] at member
      exact bne_iff_ne.mp (List.mem_filter.mp member).2
  · have same : (host.unbind ticket).bound other = host.bound other := by
      rw [bound, Function.update_of_ne here]
    refine ⟨?_, fun none subscription member => ?_, fun none trigger member => ?_⟩
    · rw [same]
      exact there.own
    · rw [subscriptions] at member
      exact there.subscriptions (same ▸ none) subscription (List.mem_filter.mp member).1
    · rw [selfRegistered] at member
      exact there.selfRegistered (same ▸ none) trigger (List.mem_filter.mp member).1

end KeepsOwn

/-- Every trigger on the bus is kept under its own ticket. -/
structure Tidy (host : Host) : Prop where
  bound : ∀ ticket trigger, host.bound ticket = some trigger → trigger.ticket = ticket
  subscribed : ∀ subscription ∈ host.bus.subscriptions,
    host.bound subscription.trigger.ticket = some subscription.trigger
  registered : ∀ trigger ∈ host.bus.selfRegistered, host.bound trigger.ticket = some trigger

theorem Tidy.of_same {host after : Host} (tidy : host.Tidy) (bus : after.bus = host.bus)
    (bound : after.bound = host.bound) : after.Tidy := by
  refine ⟨?_, ?_, ?_⟩
  · rw [bound]
    exact tidy.bound
  · rw [bus, bound]
    exact tidy.subscribed
  · rw [bus, bound]
    exact tidy.registered

theorem Tidy.bind {script : Script} {drafts : List TriggerDraft} {host : Host} (tidy : host.Tidy)
    (distinct : (drafts.map TriggerDraft.ticket).Nodup)
    (free : ∀ draft ∈ drafts, host.bound draft.ticket = none) :
    (host.perform (.bind script drafts)).Tidy := by
  obtain ⟨_, bound, subscriptions, selfRegistered⟩ := perform_bind script drafts host
  have kept {trigger : Trigger} (found : host.bound trigger.ticket = some trigger) :
      boundAfter script drafts host.bound trigger.ticket = some trigger := by
    refine (boundAfter_of_not_mem (fun draft member same => ?_) _).trans found
    rw [← same, free draft member] at found
    cases found
  refine ⟨?_, ?_, ?_⟩
  · intro ticket trigger found
    rw [bound] at found
    by_cases bound : ∃ draft ∈ drafts, draft.ticket = ticket
    · obtain ⟨draft, member, rfl⟩ := bound
      rw [boundAfter_of_mem distinct member] at found
      rw [← Option.some.inj found]
      rfl
    · rw [boundAfter_of_not_mem (fun draft member same => bound ⟨draft, member, same⟩)] at found
      exact tidy.bound ticket trigger found
  · rw [bound, subscriptions]
    intro subscription member
    rcases List.mem_append.mp member with old | new
    · exact kept (tidy.subscribed subscription old)
    · obtain ⟨draft, member, own⟩ := List.mem_flatMap.mp new
      rw [TriggerDraft.trigger_of_mem_subscriptions own]
      exact boundAfter_of_mem distinct member _
  · rw [bound, selfRegistered]
    intro trigger member
    rcases List.mem_append.mp member with old | new
    · exact kept (tidy.registered trigger old)
    · obtain ⟨draft, member, own⟩ := List.mem_flatMap.mp new
      rw [TriggerDraft.trigger_of_mem_selfRegistered own]
      exact boundAfter_of_mem distinct member _

theorem Tidy.keepsOwn {host : Host} (tidy : host.Tidy) (ticket : Nat) : host.KeepsOwn ticket := by
  refine ⟨tidy.bound ticket, fun none subscription member same => ?_,
    fun none trigger member same => ?_⟩
  · have bound := tidy.subscribed subscription member
    rw [same, none] at bound
    cases bound
  · have bound := tidy.registered trigger member
    rw [same, none] at bound
    cases bound

/-- Taking back what is kept under a ticket removes the triggers with this ticket. -/
theorem Tidy.unbind_spec {host : Host} (tidy : host.Tidy) (ticket : Nat) :
    BusStep host (host.unbind ticket) ∧
      (host.unbind ticket).bound = Function.update host.bound ticket none ∧
      (host.unbind ticket).bus.subscriptions =
        host.bus.subscriptions.filter (·.trigger.ticket != ticket) ∧
      (host.unbind ticket).bus.selfRegistered =
        host.bus.selfRegistered.filter (·.ticket != ticket) :=
  (tidy.keepsOwn ticket).unbind_spec

/-! ## Commands -/

/-- The command that is registered under a ticket. -/
def registered (host : Host) (ticket : Nat) : Option Command :=
  (host.registrations ticket).registered

theorem registered_of_same {host after : Host}
    (same : after.registrations = host.registrations) : after.registered = host.registered := by
  funext ticket
  rw [registered, same, registered]

theorem keepRegistration_registrations (ticket : Nat) (registration : Registration)
    (host : Host) : (host.keepRegistration ticket registration).registrations =
      Function.update host.registrations ticket registration := by
  funext other
  by_cases same : other = ticket
  · subst same
    simp [keepRegistration]
  · simp [keepRegistration, same]

/-- A command that is registered under a ticket is kept there, or else why it is not. -/
theorem registerUnder_spec (ticket : Nat) (command : Command) (host : Host) :
    CommandStep host (host.registerUnder ticket command) ∧
      ((∃ failure, host.commands.register command = .error failure ∧
          (host.registerUnder ticket command).commands = host.commands ∧
          (host.registerUnder ticket command).registrations =
            Function.update host.registrations ticket
              { host.registrations ticket with refusal := some failure.text }) ∨
        ∃ table, host.commands.register command = .ok table ∧
          (host.registerUnder ticket command).commands = table ∧
          (host.registerUnder ticket command).registrations =
            Function.update host.registrations ticket
              { host.registrations ticket with registered := some command }) := by
  unfold registerUnder registerCommand touchCommands
  dsimp only
  cases taken : host.commands.register command with
  | error failure =>
    refine ⟨?_, Or.inl ⟨failure, rfl, rfl, ?_⟩⟩
    · constructor <;> rfl
    · exact keepRegistration_registrations ticket _ (host.write _)
  | ok table =>
    refine ⟨?_, Or.inr ⟨table, rfl, rfl, ?_⟩⟩
    · constructor <;> rfl
    · exact keepRegistration_registrations ticket _ { host with commands := table }

/-- A command that is taken back is kept no longer and has left the table. -/
theorem unregisterUnder_of_some {ticket : Nat} {command : Command} {host : Host}
    (found : (host.registrations ticket).registered = some command) :
    CommandStep host (host.unregisterUnder ticket) ∧
      (host.unregisterUnder ticket).commands = (host.commands.unregister command.name).2 ∧
      (host.unregisterUnder ticket).registrations =
        Function.update host.registrations ticket
          { host.registrations ticket with registered := none } := by
  have kept := keepRegistration_registrations ticket
    { host.registrations ticket with registered := none } host
  unfold unregisterUnder unregisterCommand touchCommands
  dsimp only
  rw [found]
  refine ⟨?_, rfl, kept⟩
  constructor <;> rfl

theorem unregisterUnder_of_none {ticket : Nat} {host : Host}
    (absent : (host.registrations ticket).registered = none) :
    host.unregisterUnder ticket = host := by
  unfold unregisterUnder
  dsimp only
  rw [absent]

theorem takeRefusal_spec (ticket : Nat) (host : Host) :
    CommandStep host (host.takeRefusal ticket).2 ∧
      (host.takeRefusal ticket).1 = (host.registrations ticket).refusal ∧
      (host.takeRefusal ticket).2.commands = host.commands ∧
      (host.takeRefusal ticket).2.registrations = Function.update host.registrations ticket
        { host.registrations ticket with refusal := none } := by
  refine ⟨?_, rfl, rfl, keepRegistration_registrations ticket _ host⟩
  constructor <;> rfl

/-! ## Soundness -/

/-- The command table shows what is registered, and no refusal waits to be taken note of. -/
structure Sound (host : Host) : Prop where
  reflects : host.commands.Reflects host.registered
  settled : ∀ ticket, (host.registrations ticket).refusal = none

theorem registered_of_update {host after : Host} {ticket : Nat} {registration : Registration}
    (same : after.registrations = Function.update host.registrations ticket registration) :
    after.registered = Function.update host.registered ticket registration.registered := by
  funext other
  rw [registered, same]
  by_cases here : other = ticket
  · subst here
    rw [Function.update_self, Function.update_self]
  · rw [Function.update_of_ne here, Function.update_of_ne here]
    rfl

theorem Sound.of_same {host after : Host} (sound : host.Sound)
    (commands : after.commands = host.commands)
    (registrations : after.registrations = host.registrations) : after.Sound := by
  refine ⟨?_, fun ticket => ?_⟩
  · rw [commands, registered_of_same registrations]
    exact sound.reflects
  · rw [registrations]
    exact sound.settled ticket

theorem Sound.of_update {host after : Host} {ticket : Nat} {registered : Option Command}
    (sound : host.Sound)
    (reflects : after.commands.Reflects (Function.update host.registered ticket registered))
    (same : after.registrations = Function.update host.registrations ticket { registered }) :
    after.Sound := by
  refine ⟨?_, fun other => ?_⟩
  · rw [registered_of_update same]
    exact reflects
  · rw [same]
    by_cases here : other = ticket
    · rw [here, Function.update_self]
    · rw [Function.update_of_ne here]
      exact sound.settled other

/-- Taking a command back keeps a host sound. -/
theorem Sound.unregisterUnder {host : Host} (sound : host.Sound) (ticket : Nat) :
    (host.unregisterUnder ticket).Sound := by
  cases found : (host.registrations ticket).registered with
  | none =>
    rw [unregisterUnder_of_none found]
    exact sound
  | some command =>
    obtain ⟨_, commands, registrations⟩ := unregisterUnder_of_some found
    simp only [sound.settled ticket] at registrations
    refine sound.of_update ?_ registrations
    rw [commands]
    exact sound.reflects.unregister found

end Host

end ScriptBinding

import Mathlib.Data.List.Nodup
import ScriptBinding.Proofs.Jobs

/-! # What jobs put under tickets

A job puts bindings under tickets or takes back what is under one, and the tables of the host show
what is there. What becomes of a binding does not depend on what is under other tickets, except that
the host may refuse a command.
-/

namespace ScriptBinding

/-- What a job puts under a ticket. -/
inductive Binding where
  /-- The trigger that a draft of a script becomes. -/
  | trigger (script : Script) (draft : TriggerDraft)
  | command (command : Command)

/-- The script that a binding belongs to. -/
def Binding.script : Binding → Script
  | trigger script _ => script
  | command order => order.script

/-- Which bindings are under which tickets. -/
abbrev Placement := Nat → Binding → Prop

namespace Job

/-- What a job puts under tickets. -/
def puts : Job → List (Nat × Binding)
  | .bind script drafts => drafts.map fun draft => (draft.ticket, .trigger script draft)
  | .register ticket command => [(ticket, .command command)]
  | _ => []

/-- A job takes a binding back, if it is under a ticket. -/
def takes : Job → Nat → Binding → Bool
  | .unbind ticket, other, .trigger _ _ => ticket == other
  | .unregister ticket, other, .command _ => ticket == other
  | _, _, _ => false

/-- What is under tickets once a job has been done. -/
def apply (job : Job) (placed : Placement) : Placement := fun ticket binding =>
  (ticket, binding) ∈ job.puts ∨ placed ticket binding ∧ job.takes ticket binding = false

/-- What is under tickets once jobs have been done, in their order. -/
def applyAll (jobs : List Job) (placed : Placement) : Placement :=
  jobs.foldl (fun placed job => job.apply placed) placed

variable {job : Job} {jobs : List Job} {placed more : Placement} {ticket : Nat}
  {binding : Binding}

theorem applyAll_append (jobs others : List Job) (placed : Placement) :
    applyAll (jobs ++ others) placed = applyAll others (applyAll jobs placed) :=
  List.foldl_append

/-- What becomes of a binding under a ticket does not depend on the others. -/
theorem applyAll_congr (same : placed ticket binding ↔ more ticket binding) :
    applyAll jobs placed ticket binding ↔ applyAll jobs more ticket binding := by
  induction jobs generalizing placed more with
  | nil => exact same
  | cons job others ih => exact ih (or_congr_right (and_congr_left fun _ => same))

/-- A binding has been there before, or a job has put it there. -/
theorem placed_of_applyAll (after : applyAll jobs placed ticket binding) :
    placed ticket binding ∨ ∃ job ∈ jobs, (ticket, binding) ∈ job.puts := by
  induction jobs generalizing placed with
  | nil => exact Or.inl after
  | cons job others ih =>
    rcases ih after with (put | ⟨before, _⟩) | ⟨other, member, put⟩
    · exact Or.inr ⟨job, List.mem_cons_self, put⟩
    · exact Or.inl before
    · exact Or.inr ⟨other, List.mem_cons_of_mem _ member, put⟩

/-- A binding that no job takes back stays. -/
theorem applyAll_of_placed (stays : ∀ job ∈ jobs, job.takes ticket binding = false)
    (before : placed ticket binding) : applyAll jobs placed ticket binding := by
  induction jobs generalizing placed with
  | nil => exact before
  | cons job others ih =>
    exact ih (fun other member => stays other (List.mem_cons_of_mem _ member))
      (Or.inr ⟨before, stays job List.mem_cons_self⟩)

/-- A binding that no job takes back is there in the end exactly if it ever was. -/
theorem applyAll_iff (stays : ∀ job ∈ jobs, job.takes ticket binding = false) :
    applyAll jobs placed ticket binding ↔
      placed ticket binding ∨ ∃ job ∈ jobs, (ticket, binding) ∈ job.puts := by
  refine ⟨placed_of_applyAll, ?_⟩
  rintro (before | ⟨job, member, put⟩)
  · exact applyAll_of_placed stays before
  · obtain ⟨earlier, later, rfl⟩ := List.append_of_mem member
    rw [applyAll_append]
    change applyAll later (job.apply (applyAll earlier placed)) ticket binding
    refine applyAll_of_placed (fun other there => ?_) (Or.inl put)
    exact stays other (List.mem_append_right _ (List.mem_cons_of_mem _ there))

/-- A binding that some job takes back and no job puts there is not there. -/
theorem not_applyAll (noPuts : ∀ job ∈ jobs, (ticket, binding) ∉ job.puts)
    (taken : ∃ job ∈ jobs, job.takes ticket binding = true) :
    ¬ applyAll jobs placed ticket binding := by
  obtain ⟨job, member, takes⟩ := taken
  obtain ⟨earlier, later, rfl⟩ := List.append_of_mem member
  rw [applyAll_append]
  intro after
  change applyAll later (job.apply (applyAll earlier placed)) ticket binding at after
  rcases placed_of_applyAll after with (put | ⟨_, stays⟩) | ⟨other, there, put⟩
  · exact noPuts job member put
  · rw [takes] at stays
    cases stays
  · exact noPuts other (List.mem_append_right _ (List.mem_cons_of_mem _ there)) put

/-! ### What each kind of job makes of triggers and of commands -/

section Kinds

variable {script owner : Script} {drafts : List TriggerDraft} {draft : TriggerDraft} {other : Nat}
  {command kept : Command}

theorem mem_puts_bind : (ticket, binding) ∈ (bind script drafts).puts ↔
    ∃ draft ∈ drafts, ticket = draft.ticket ∧ binding = .trigger script draft := by
  simp only [puts, List.mem_map, Prod.mk.injEq, eq_comm]

theorem apply_bind_trigger :
    (bind script drafts).apply placed ticket (.trigger owner draft) ↔
      (draft ∈ drafts ∧ ticket = draft.ticket ∧ owner = script) ∨
        placed ticket (.trigger owner draft) := by
  refine or_congr ?_ (and_iff_left rfl)
  rw [mem_puts_bind]
  constructor
  · rintro ⟨other, member, rfl, same⟩
    cases same
    exact ⟨member, rfl, rfl⟩
  · rintro ⟨member, rfl, rfl⟩
    exact ⟨draft, member, rfl, rfl⟩

theorem apply_bind_command : (bind script drafts).apply placed ticket (.command command) ↔
    placed ticket (.command command) := by
  refine (or_iff_right ?_).trans (and_iff_left rfl)
  rw [mem_puts_bind]
  rintro ⟨_, _, _, same⟩
  cases same

theorem apply_unbind_trigger : (unbind ticket).apply placed other (.trigger script draft) ↔
    placed other (.trigger script draft) ∧ other ≠ ticket := by
  refine (or_iff_right List.not_mem_nil).trans (and_congr_right fun _ => ?_)
  change (ticket == other) = false ↔ _
  rw [beq_eq_false_iff_ne, ne_comm]

theorem apply_unbind_command : (unbind ticket).apply placed other (.command command) ↔
    placed other (.command command) :=
  (or_iff_right List.not_mem_nil).trans (and_iff_left rfl)

theorem apply_register_trigger :
    (register ticket command).apply placed other (.trigger script draft) ↔
      placed other (.trigger script draft) := by
  refine (or_iff_right ?_).trans (and_iff_left rfl)
  simp only [puts, List.mem_singleton, Prod.mk.injEq, reduceCtorEq, and_false, not_false_eq_true]

theorem apply_register_command :
    (register ticket command).apply placed other (.command kept) ↔
      (other = ticket ∧ kept = command) ∨ placed other (.command kept) := by
  refine or_congr ?_ (and_iff_left rfl)
  simp only [puts, List.mem_singleton, Prod.mk.injEq, Binding.command.injEq]

theorem apply_unregister_trigger :
    (unregister ticket).apply placed other (.trigger script draft) ↔
      placed other (.trigger script draft) :=
  (or_iff_right List.not_mem_nil).trans (and_iff_left rfl)

theorem apply_unregister_command : (unregister ticket).apply placed other (.command kept) ↔
    placed other (.command kept) ∧ other ≠ ticket := by
  refine (or_iff_right List.not_mem_nil).trans (and_congr_right fun _ => ?_)
  change (ticket == other) = false ↔ _
  rw [beq_eq_false_iff_ne, ne_comm]

end Kinds

end Job

/-! ## The tables of the host -/

namespace Host

/-- The tables of the host show what is under the tickets. A command that is under its ticket is
registered, unless the host has refused it. -/
structure Carries (host : Host) (placed : Placement) : Prop where
  bound_iff : ∀ ticket trigger, host.bound ticket = some trigger ↔
    ∃ script draft, placed ticket (.trigger script draft) ∧ trigger = draft.toTrigger script
  ticket : ∀ ticket script draft, placed ticket (.trigger script draft) → draft.ticket = ticket
  subscriptions : ∀ subscription, subscription ∈ host.bus.subscriptions ↔
    ∃ ticket script draft, placed ticket (.trigger script draft) ∧
      subscription ∈ draft.subscriptions host.config.defaultPriority script
  selfRegistered : ∀ trigger, trigger ∈ host.bus.selfRegistered ↔
    ∃ ticket script draft, placed ticket (.trigger script draft) ∧
      trigger ∈ draft.selfRegistered script
  reflects : host.commands.Reflects host.registered
  registered : ∀ ticket command, host.registered ticket = some command →
    placed ticket (.command command)
  kept : ∀ ticket command, placed ticket (.command command) →
    host.registrations ticket = { registered := some command } ∨
      ∃ text, host.registrations ticket = { refusal := some text }

/-- Bindings go under tickets that have not been used. -/
structure Admits (host : Host) (placed : Placement) (puts : List (Nat × Binding)) : Prop where
  distinct : (puts.map Prod.fst).Nodup
  free : ∀ ticket binding, (ticket, binding) ∈ puts → ∀ other, ¬ placed ticket other
  unused : ∀ ticket binding, (ticket, binding) ∈ puts → host.registrations ticket = {}

namespace Carries

variable {host after : Host} {placed : Placement}

theorem of_same (carries : host.Carries placed) (config : after.config = host.config)
    (bus : after.bus = host.bus) (commands : after.commands = host.commands)
    (bound : after.bound = host.bound) (registrations : after.registrations = host.registrations) :
    after.Carries placed := by
  have registered := registered_of_same registrations
  constructor
  · rw [bound]
    exact carries.bound_iff
  · exact carries.ticket
  · rw [bus, config]
    exact carries.subscriptions
  · rw [bus]
    exact carries.selfRegistered
  · rw [commands, registered]
    exact carries.reflects
  · rw [registered]
    exact carries.registered
  · rw [registrations]
    exact carries.kept

theorem tidy (carries : host.Carries placed) : host.Tidy := by
  refine ⟨?_, ?_, ?_⟩
  · intro ticket trigger found
    obtain ⟨script, draft, there, rfl⟩ := (carries.bound_iff ticket trigger).mp found
    exact carries.ticket ticket script draft there
  · intro subscription member
    obtain ⟨ticket, script, draft, there, own⟩ := (carries.subscriptions subscription).mp member
    obtain rfl := carries.ticket ticket script draft there
    rw [TriggerDraft.trigger_of_mem_subscriptions own]
    exact (carries.bound_iff _ _).mpr ⟨script, draft, there, rfl⟩
  · intro trigger member
    obtain ⟨ticket, script, draft, there, own⟩ := (carries.selfRegistered trigger).mp member
    obtain rfl := carries.ticket ticket script draft there
    rw [TriggerDraft.trigger_of_mem_selfRegistered own]
    exact (carries.bound_iff _ _).mpr ⟨script, draft, there, rfl⟩

/-- What is shown for triggers once some have been bound. -/
theorem shown_bind {α : Type} {script : Script} {drafts : List TriggerDraft}
    (own : Script → TriggerDraft → List α) {before after : List α}
    (added : after = before ++ drafts.flatMap (own script))
    (carried : ∀ item, item ∈ before ↔ ∃ ticket owner draft,
      placed ticket (.trigger owner draft) ∧ item ∈ own owner draft) (item : α) :
    item ∈ after ↔ ∃ ticket owner draft,
      (Job.bind script drafts).apply placed ticket (.trigger owner draft) ∧
        item ∈ own owner draft := by
  rw [added, List.mem_append, List.mem_flatMap, carried]
  simp only [Job.apply_bind_trigger]
  constructor
  · rintro (⟨ticket, owner, draft, there, shows⟩ | ⟨draft, member, shows⟩)
    · exact ⟨ticket, owner, draft, Or.inr there, shows⟩
    · exact ⟨draft.ticket, script, draft, Or.inl ⟨member, rfl, rfl⟩, shows⟩
  · rintro ⟨ticket, owner, draft, ⟨member, _, rfl⟩ | before, shows⟩
    · exact Or.inr ⟨draft, member, shows⟩
    · exact Or.inl ⟨ticket, owner, draft, before, shows⟩

theorem bind {script : Script} {drafts : List TriggerDraft} (carries : host.Carries placed)
    (admits : host.Admits placed (Job.bind script drafts).puts) :
    (host.perform (.bind script drafts)).Carries ((Job.bind script drafts).apply placed) := by
  obtain ⟨step, bound, subscriptions, selfRegistered⟩ := perform_bind script drafts host
  have distinct : (drafts.map TriggerDraft.ticket).Nodup := by
    have distinct := admits.distinct
    rwa [Job.puts, List.map_map] at distinct
  constructor
  case bound_iff =>
    intro ticket trigger
    rw [bound]
    by_cases waited : ∃ draft ∈ drafts, ticket = draft.ticket
    · obtain ⟨draft, member, rfl⟩ := waited
      rw [boundAfter_of_mem distinct member]
      constructor
      · intro same
        exact ⟨script, draft, Job.apply_bind_trigger.mpr (Or.inl ⟨member, rfl, rfl⟩),
          (Option.some.inj same).symm⟩
      · rintro ⟨owner, other, there, rfl⟩
        rcases Job.apply_bind_trigger.mp there with ⟨otherMember, same, rfl⟩ | before
        · rw [List.inj_on_of_nodup_map distinct member otherMember same]
        · exact absurd before (admits.free _ _ (Job.mem_puts_bind.mpr ⟨draft, member, rfl, rfl⟩) _)
    · rw [boundAfter_of_not_mem fun draft member same => waited ⟨draft, member, same.symm⟩,
        carries.bound_iff]
      refine exists_congr fun owner => exists_congr fun draft => and_congr_left fun _ => ?_
      rw [Job.apply_bind_trigger]
      exact (or_iff_right fun own => waited ⟨draft, own.1, own.2.1⟩).symm
  case ticket =>
    intro ticket owner draft there
    rcases Job.apply_bind_trigger.mp there with ⟨_, same, _⟩ | before
    · exact same.symm
    · exact carries.ticket ticket owner draft before
  case subscriptions =>
    rw [step.config]
    exact shown_bind (fun owner draft => draft.subscriptions host.config.defaultPriority owner)
      subscriptions carries.subscriptions
  case selfRegistered =>
    exact shown_bind (fun owner draft => draft.selfRegistered owner) selfRegistered
      carries.selfRegistered
  case reflects =>
    rw [step.commands, registered_of_same step.registrations]
    exact carries.reflects
  case registered =>
    intro ticket command found
    rw [registered_of_same step.registrations] at found
    exact Job.apply_bind_command.mpr (carries.registered ticket command found)
  case kept =>
    intro ticket command there
    rw [step.registrations]
    exact carries.kept ticket command (Job.apply_bind_command.mp there)

/-- What is shown for triggers once what is under a ticket has been taken away. -/
theorem shown_unbind {α : Type} {ticketOf : α → Nat} (carries : host.Carries placed) {ticket : Nat}
    (own : Script → TriggerDraft → List α) {before after : List α}
    (ownTicket : ∀ {script draft item}, item ∈ own script draft → ticketOf item = draft.ticket)
    (left : after = before.filter (ticketOf · != ticket))
    (carried : ∀ item, item ∈ before ↔ ∃ other script draft,
      placed other (.trigger script draft) ∧ item ∈ own script draft) (item : α) :
    item ∈ after ↔ ∃ other script draft,
      (Job.unbind ticket).apply placed other (.trigger script draft) ∧
        item ∈ own script draft := by
  rw [left, List.mem_filter, carried]
  simp only [Job.apply_unbind_trigger]
  constructor
  · rintro ⟨⟨other, script, draft, there, shows⟩, apart⟩
    refine ⟨other, script, draft, ⟨there, ?_⟩, shows⟩
    rw [ownTicket shows] at apart
    rw [← carries.ticket other script draft there]
    exact bne_iff_ne.mp apart
  · rintro ⟨other, script, draft, ⟨before, apart⟩, shows⟩
    refine ⟨⟨other, script, draft, before, shows⟩, ?_⟩
    rw [ownTicket shows]
    rw [← carries.ticket other script draft before] at apart
    exact bne_iff_ne.mpr apart

theorem unbind (carries : host.Carries placed) (ticket : Nat) :
    (host.unbind ticket).Carries ((Job.unbind ticket).apply placed) := by
  obtain ⟨step, bound, subscriptions, selfRegistered⟩ := carries.tidy.unbind_spec ticket
  constructor
  case bound_iff =>
    intro other trigger
    rw [bound]
    by_cases here : other = ticket
    · subst here
      rw [Function.update_self]
      refine ⟨nofun, ?_⟩
      rintro ⟨_, _, there, _⟩
      exact absurd rfl (Job.apply_unbind_trigger.mp there).2
    · rw [Function.update_of_ne here, carries.bound_iff]
      refine exists_congr fun script => exists_congr fun draft => and_congr_left fun _ => ?_
      rw [Job.apply_unbind_trigger]
      exact (and_iff_left here).symm
  case ticket =>
    exact fun other script draft there =>
      carries.ticket other script draft (Job.apply_unbind_trigger.mp there).1
  case subscriptions =>
    rw [step.config]
    exact carries.shown_unbind (fun script draft => draft.subscriptions host.config.defaultPriority script)
      (fun shows => congrArg Trigger.ticket (TriggerDraft.trigger_of_mem_subscriptions shows))
      subscriptions carries.subscriptions
  case selfRegistered =>
    exact carries.shown_unbind (fun script draft => draft.selfRegistered script)
      (fun shows => congrArg Trigger.ticket (TriggerDraft.trigger_of_mem_selfRegistered shows))
      selfRegistered carries.selfRegistered
  case reflects =>
    rw [step.commands, registered_of_same step.registrations]
    exact carries.reflects
  case registered =>
    intro other command found
    rw [registered_of_same step.registrations] at found
    exact Job.apply_unbind_command.mpr (carries.registered other command found)
  case kept =>
    intro other command there
    rw [step.registrations]
    exact carries.kept other command (Job.apply_unbind_command.mp there)

theorem register {ticket : Nat} {command : Command} (carries : host.Carries placed)
    (admits : host.Admits placed (Job.register ticket command).puts) :
    (host.registerUnder ticket command).Carries ((Job.register ticket command).apply placed) := by
  obtain ⟨step, outcome⟩ := registerUnder_spec ticket command host
  rw [admits.unused ticket _ List.mem_cons_self] at outcome
  have unused : host.registered ticket = none := by
    rw [Host.registered, admits.unused ticket _ List.mem_cons_self]
  have Job.apply_register_command {other : Nat} {kept : Command} :
      (Job.register ticket command).apply placed other (.command kept) ↔
        other = ticket ∧ kept = command ∨ placed other (.command kept) := by
    refine or_congr ?_ (and_iff_left rfl)
    simp only [Job.puts, List.mem_singleton, Prod.mk.injEq, Binding.command.injEq]
  have apart {other : Nat} {kept : Command} (there : placed other (.command kept)) :
      other ≠ ticket := by
    rintro rfl
    exact admits.free other _ List.mem_cons_self _ there
  constructor
  case bound_iff => simpa only [Job.apply_register_trigger, step.bound] using carries.bound_iff
  case ticket => simpa only [Job.apply_register_trigger] using carries.ticket
  case subscriptions =>
    simpa only [Job.apply_register_trigger, step.bus, step.config] using carries.subscriptions
  case selfRegistered => simpa only [Job.apply_register_trigger, step.bus] using carries.selfRegistered
  case reflects =>
    rcases outcome with ⟨failure, _, commands, registrations⟩ |
      ⟨table, taken, commands, registrations⟩
    · rw [commands, registered_of_update registrations]
      change host.commands.Reflects (Function.update host.registered ticket none)
      rw [← unused, Function.update_eq_self]
      exact carries.reflects
    · rw [commands, registered_of_update registrations]
      exact carries.reflects.register unused taken
  case registered =>
    intro other kept found
    rw [Job.apply_register_command]
    by_cases here : other = ticket
    · subst here
      rcases outcome with ⟨failure, _, _, registrations⟩ | ⟨table, _, _, registrations⟩
      · rw [registered_of_update registrations, Function.update_self] at found
        cases found
      · rw [registered_of_update registrations, Function.update_self] at found
        exact Or.inl ⟨rfl, (Option.some.inj found).symm⟩
    · refine Or.inr (carries.registered other kept ?_)
      rcases outcome with ⟨failure, _, _, registrations⟩ | ⟨table, _, _, registrations⟩
      · rwa [registered_of_update registrations, Function.update_of_ne here] at found
      · rwa [registered_of_update registrations, Function.update_of_ne here] at found
  case kept =>
    intro other kept there
    rcases Job.apply_register_command.mp there with ⟨rfl, rfl⟩ | before
    · rcases outcome with ⟨failure, _, _, registrations⟩ | ⟨table, _, _, registrations⟩
      · rw [registrations, Function.update_self]
        exact Or.inr ⟨failure.text, rfl⟩
      · rw [registrations, Function.update_self]
        exact Or.inl rfl
    · rcases outcome with ⟨failure, _, _, registrations⟩ | ⟨table, _, _, registrations⟩
      · rw [registrations, Function.update_of_ne (apart before)]
        exact carries.kept other kept before
      · rw [registrations, Function.update_of_ne (apart before)]
        exact carries.kept other kept before

/-- What is left without the command under a ticket. -/
theorem without_command {ticket : Nat} (carries : host.Carries placed) (step : host.CommandStep after)
    (reflects : after.commands.Reflects after.registered)
    (registered : after.registered = Function.update host.registered ticket none)
    (others : ∀ other ≠ ticket, after.registrations other = host.registrations other) :
    after.Carries ((Job.unregister ticket).apply placed) := by
  constructor
  case bound_iff => simpa only [Job.apply_unregister_trigger, step.bound] using carries.bound_iff
  case ticket => simpa only [Job.apply_unregister_trigger] using carries.ticket
  case subscriptions =>
    simpa only [Job.apply_unregister_trigger, step.bus, step.config] using carries.subscriptions
  case selfRegistered => simpa only [Job.apply_unregister_trigger, step.bus] using carries.selfRegistered
  case reflects => exact reflects
  case registered =>
    intro other kept found
    rw [registered] at found
    by_cases here : other = ticket
    · rw [here, Function.update_self] at found
      cases found
    · rw [Function.update_of_ne here] at found
      exact Job.apply_unregister_command.mpr ⟨carries.registered other kept found, here⟩
  case kept =>
    intro other kept there
    obtain ⟨before, apart⟩ := Job.apply_unregister_command.mp there
    rw [others other apart]
    exact carries.kept other kept before

theorem unregister (carries : host.Carries placed) (ticket : Nat) :
    (host.unregisterUnder ticket).Carries ((Job.unregister ticket).apply placed) := by
  cases found : (host.registrations ticket).registered with
  | none =>
    rw [unregisterUnder_of_none found]
    refine carries.without_command (.refl host) carries.reflects ?_ fun _ _ => rfl
    rw [← found]
    exact (Function.update_eq_self ticket host.registered).symm
  | some command =>
    obtain ⟨step, commands, registrations⟩ := unregisterUnder_of_some found
    have registered := registered_of_update registrations
    refine carries.without_command step ?_ registered fun other apart => ?_
    · rw [commands, registered]
      exact carries.reflects.unregister found
    · rw [registrations, Function.update_of_ne apart]

/-- Taking note of a refusal gives up the command under the ticket. -/
theorem takeRefusal {ticket : Nat} {text : String} (carries : host.Carries placed)
    (refused : (host.registrations ticket).refusal = some text) :
    (host.takeRefusal ticket).2.Carries ((Job.unregister ticket).apply placed) := by
  obtain ⟨step, _, commands, registrations⟩ := takeRefusal_spec ticket host
  have unused : host.registered ticket = none := by
    cases found : host.registered ticket with
    | none => rfl
    | some command =>
      rcases carries.kept ticket command (carries.registered ticket command found) with same |
        ⟨_, same⟩
      · rw [same] at refused
        cases refused
      · rw [Host.registered, same] at found
        cases found
  have registered := registered_of_update registrations
  change _ = Function.update host.registered ticket (host.registered ticket) at registered
  refine carries.without_command step ?_ ?_ fun other apart => ?_
  · rw [commands, registered, Function.update_eq_self]
    exact carries.reflects
  · rw [registered, unused]
  · rw [registrations, Function.update_of_ne apart]

/-- A job that finds its tickets unused changes the tables as it changes what is under tickets. -/
theorem perform {job : Job} (carries : host.Carries placed)
    (admits : host.Admits placed job.puts) : (host.perform job).Carries (job.apply placed) := by
  cases job with
  | bind script drafts => exact carries.bind admits
  | unbind ticket => exact carries.unbind ticket
  | register ticket command => exact carries.register admits
  | unregister ticket => exact carries.unregister ticket

end Carries

/-- Nothing becomes of a command under a ticket where no job puts one. -/
theorem perform_unused {job : Job} {host : Host} {ticket : Nat}
    (absent : ∀ binding, (ticket, binding) ∉ job.puts)
    (unused : host.registrations ticket = {}) :
    (host.perform job).registrations ticket = {} := by
  cases job with
  | bind script drafts =>
    rw [(perform_bind script drafts host).1.registrations]
    exact unused
  | unbind other =>
    change (host.unbind other).registrations ticket = {}
    cases found : host.bound other with
    | none => rwa [unbind_of_none found]
    | some trigger => rwa [(unbind_of_some found).1.registrations]
  | register other command =>
    have apart : ticket ≠ other := by
      rintro rfl
      exact absent _ List.mem_cons_self
    change (host.registerUnder other command).registrations ticket = {}
    rcases (registerUnder_spec other command host).2 with ⟨_, _, _, same⟩ | ⟨_, _, _, same⟩
    · rwa [same, Function.update_of_ne apart]
    · rwa [same, Function.update_of_ne apart]
  | unregister other =>
    change (host.unregisterUnder other).registrations ticket = {}
    cases found : (host.registrations other).registered with
    | none => rwa [unregisterUnder_of_none found]
    | some command =>
      have apart : ticket ≠ other := by
        rintro rfl
        rw [unused] at found
        cases found
      rwa [(unregisterUnder_of_some found).2.2, Function.update_of_ne apart]

variable {host : Host} {placed : Placement} {puts others : List (Nat × Binding)}

theorem Admits.sublist (admits : host.Admits placed puts) (fewer : others.Sublist puts) :
    host.Admits placed others where
  distinct := admits.distinct.sublist (fewer.map Prod.fst)
  free := fun ticket binding member => admits.free ticket binding (fewer.subset member)
  unused := fun ticket binding member => admits.unused ticket binding (fewer.subset member)

/-- A job that puts bindings elsewhere leaves tickets unused. -/
theorem Admits.perform {job : Job} (admits : host.Admits placed puts)
    (apart : ∀ ticket binding, (ticket, binding) ∈ puts → ∀ other, (ticket, other) ∉ job.puts) :
    (host.perform job).Admits (job.apply placed) puts where
  distinct := admits.distinct
  free := by
    rintro ticket binding member other (put | ⟨before, _⟩)
    · exact apart ticket binding member other put
    · exact admits.free ticket binding member other before
  unused := fun ticket binding member =>
    perform_unused (apart ticket binding member) (admits.unused ticket binding member)

theorem Carries.performAll {jobs : List Job} (carries : host.Carries placed)
    (admits : host.Admits placed (jobs.flatMap Job.puts)) :
    (jobs.foldl Host.perform host).Carries (Job.applyAll jobs placed) := by
  induction jobs generalizing host placed with
  | nil => exact carries
  | cons job others ih =>
    rw [List.flatMap_cons] at admits
    refine ih (carries.perform (admits.sublist (List.sublist_append_left _ _)))
      ((admits.sublist (List.sublist_append_right _ _)).perform ?_)
    intro ticket binding later other now
    have distinct := admits.distinct
    rw [List.map_append] at distinct
    exact (List.nodup_append.mp distinct).2.2 ticket (List.mem_map_of_mem now) ticket
      (List.mem_map_of_mem later) rfl

end Host

end ScriptBinding

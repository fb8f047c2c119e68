import ScriptBinding.Proofs.StandardStructures
import ScriptBinding.Proofs.Unloading

/-! # Who owns what is in the tables of the host

On the main thread, what is on the bus, in the command table and among the functions belongs to the
structures of scripts that have been loaded and not been unloaded since, and to nothing else.
-/

namespace ScriptBinding

/-- A script that has been loaded, and whether it has been unloaded since. -/
structure Handle where
  loaded : LoadedScript
  unloaded : Bool := false

/-- What is left of a script once it has been unloaded. -/
def Handle.unload (handle : Handle) : Handle :=
  ⟨{ handle.loaded with structures := [] }, true⟩

namespace Host

/-- The trigger that is bound for a structure. -/
def triggerOf (host : Host) (loaded : LoadedStructure) : Option Trigger :=
  loaded.inner.eventTicket?.bind host.bound

/-- The priority at which the trigger of a structure is subscribed. -/
def priorityOf (host : Host) (loaded : LoadedStructure) : EventPriority :=
  (loaded.inner.event?.bind (·.priority)).getD host.config.defaultPriority

/-- The subscriptions of the trigger that is bound for a structure, one to each class of its
event. -/
def subscriptionsOf (registry : Registry) (host : Host) (loaded : LoadedStructure) :
    List Subscription :=
  match host.triggerOf loaded with
  | none => []
  | some trigger =>
    if trigger.filter.registersItself then []
    else (((registry.eventInfo? loaded.key).map EventInfo.classes).getD []).map
      (⟨·, host.priorityOf loaded, trigger⟩)

/-- The trigger that is bound for a structure, if it has registered itself. -/
def selfRegisteredOf (host : Host) (loaded : LoadedStructure) : List Trigger :=
  (host.triggerOf loaded).toList.filter (·.filter.registersItself)

/-- If a structure is an event, the trigger of its section is bound. -/
def Binds (registry : Registry) (host : Host) (script : Script) (loaded : LoadedStructure) : Prop :=
  ∀ event, loaded.inner.event? = some event →
    ∃ trigger, host.bound event.ticket = some trigger ∧ trigger.ticket = event.ticket ∧
      trigger.script = script ∧ trigger.line = loaded.line ∧
      event.filter = some trigger.filter ∧
      (registry.eventInfo? loaded.key).map EventInfo.name = some trigger.eventName

variable {registry : Registry} {host after : Host}

theorem triggerOf_congr {loaded : LoadedStructure}
    (bound : ∀ ticket ∈ loaded.inner.eventTicket?, after.bound ticket = host.bound ticket) :
    after.triggerOf loaded = host.triggerOf loaded := by
  unfold triggerOf
  cases found : loaded.inner.eventTicket? with
  | none => rfl
  | some ticket => exact bound ticket found

theorem subscriptionsOf_congr {loaded : LoadedStructure} (config : after.config = host.config)
    (bound : ∀ ticket ∈ loaded.inner.eventTicket?, after.bound ticket = host.bound ticket) :
    after.subscriptionsOf registry loaded = host.subscriptionsOf registry loaded := by
  unfold subscriptionsOf priorityOf
  rw [triggerOf_congr bound, config]

theorem selfRegisteredOf_congr {loaded : LoadedStructure}
    (bound : ∀ ticket ∈ loaded.inner.eventTicket?, after.bound ticket = host.bound ticket) :
    after.selfRegisteredOf loaded = host.selfRegisteredOf loaded := by
  unfold selfRegisteredOf
  rw [triggerOf_congr bound]

theorem Binds.congr {script : Script} {loaded : LoadedStructure}
    (binds : host.Binds registry script loaded)
    (bound : ∀ ticket ∈ loaded.inner.eventTicket?, after.bound ticket = host.bound ticket) :
    after.Binds registry script loaded := by
  intro event isEvent
  have ticket : loaded.inner.eventTicket? = some event.ticket := by
    rw [Structure.eventTicket?, isEvent]
    rfl
  rw [bound event.ticket ticket]
  exact binds event isEvent

/-- What is on the bus for a structure carries its ticket. -/
theorem ticket_of_mem_subscriptionsOf (tidy : host.Tidy) {loaded : LoadedStructure}
    {subscription : Subscription} (member : subscription ∈ host.subscriptionsOf registry loaded) :
    loaded.inner.eventTicket? = some subscription.trigger.ticket := by
  unfold subscriptionsOf at member
  split at member
  · exact absurd member List.not_mem_nil
  · next trigger bound =>
    obtain ⟨ticket, own, found⟩ := Option.bind_eq_some_iff.mp bound
    split at member
    · exact absurd member List.not_mem_nil
    · obtain ⟨_, _, rfl⟩ := List.mem_map.mp member
      rw [own, tidy.bound ticket trigger found]

theorem ticket_of_mem_selfRegisteredOf (tidy : host.Tidy) {loaded : LoadedStructure}
    {trigger : Trigger} (member : trigger ∈ host.selfRegisteredOf loaded) :
    loaded.inner.eventTicket? = some trigger.ticket := by
  have bound := Option.mem_toList.mp (List.mem_filter.mp member).1
  obtain ⟨ticket, own, found⟩ := Option.bind_eq_some_iff.mp bound
  rw [own, tidy.bound ticket trigger found]

/-! ## Triggers that have waited -/

variable {loaded : LoadedStructure} {event : EventStructure} {draft : TriggerDraft}
  {script : Script}

theorem triggerOf_draft (draftOf : DraftOf EventFilter.IsBuiltIn registry loaded event draft)
    (bound : host.bound draft.ticket = some (draft.toTrigger script)) :
    host.triggerOf loaded = some (draft.toTrigger script) := by
  rw [triggerOf, Structure.eventTicket?, draftOf.isEvent, ← bound, draftOf.ticket]
  rfl

/-- What a trigger that has waited is subscribed to once it is bound. -/
theorem own_of_draft (draftOf : DraftOf EventFilter.IsBuiltIn registry loaded event draft)
    (bound : host.bound draft.ticket = some (draft.toTrigger script)) :
    host.subscriptionsOf registry loaded =
        draft.subscriptions host.config.defaultPriority script ∧
      host.selfRegisteredOf loaded = draft.selfRegistered script := by
  have priority : host.priorityOf loaded = draft.priority.getD host.config.defaultPriority := by
    rw [priorityOf, draftOf.isEvent, draftOf.priority]
    rfl
  have classes : draftClasses draft = draft.info.classes := by
    rw [draftClasses, draftOf.possible.classes?_eq_none]
    rfl
  constructor
  · rw [subscriptionsOf, triggerOf_draft draftOf bound, priority, draftOf.info,
      TriggerDraft.subscriptions, classes]
    rfl
  · rw [selfRegisteredOf, triggerOf_draft draftOf bound, TriggerDraft.selfRegistered]
    change [draft.toTrigger script].filter (·.filter.registersItself) = _
    rw [List.filter_cons, List.filter_nil]
    rfl

theorem binds_of_draft (draftOf : DraftOf EventFilter.IsBuiltIn registry loaded event draft)
    (bound : host.bound draft.ticket = some (draft.toTrigger script)) :
    host.Binds registry script loaded := by
  intro other isEvent
  obtain rfl : event = other := Option.some.inj (draftOf.isEvent.symm.trans isEvent)
  refine ⟨draft.toTrigger script, draftOf.ticket ▸ bound, draftOf.ticket, rfl, draftOf.line,
    draftOf.filter, ?_⟩
  rw [draftOf.info]
  rfl

/-- A structure for which nothing waits is no event. -/
theorem own_of_no_event (noEvent : loaded.inner.event? = none) :
    host.subscriptionsOf registry loaded = [] ∧ host.selfRegisteredOf loaded = [] ∧
      host.Binds registry script loaded := by
  have unbound : host.triggerOf loaded = none := by
    rw [triggerOf, Structure.eventTicket?, noEvent]
    rfl
  refine ⟨?_, ?_, fun event isEvent => ?_⟩
  · rw [subscriptionsOf, unbound]
  · rw [selfRegisteredOf, unbound]
    rfl
  · rw [noEvent] at isEvent
    cases isEvent

/-- What has waited for some structures is theirs once it is bound. -/
theorem own_of_waits {structures : List LoadedStructure} {drafts : List TriggerDraft}
    (waits : Waits EventFilter.IsBuiltIn registry structures drafts)
    (bound : ∀ draft ∈ drafts, host.bound draft.ticket = some (draft.toTrigger script)) :
    structures.flatMap (host.subscriptionsOf registry) =
        drafts.flatMap (·.subscriptions host.config.defaultPriority script) ∧
      structures.flatMap host.selfRegisteredOf = drafts.flatMap (·.selfRegistered script) ∧
      ∀ loaded ∈ structures, host.Binds registry script loaded := by
  induction waits with
  | nil => exact ⟨rfl, rfl, fun _ member => absurd member List.not_mem_nil⟩
  | @pass loaded others drafts idle _ ih =>
    have noEvent : loaded.inner.event? = none := by
      rcases idle with noEvent | ⟨filter, builtIn, idle⟩
      · exact noEvent
      · rw [builtIn.loads] at idle
        cases idle
    obtain ⟨subscriptions, selfRegistered, binds⟩ : host.subscriptionsOf registry loaded = [] ∧
        host.selfRegisteredOf loaded = [] ∧ host.Binds registry script loaded :=
      own_of_no_event noEvent
    obtain ⟨restSubscriptions, restSelfRegistered, restBinds⟩ := ih bound
    refine ⟨?_, ?_, ?_⟩
    · rw [List.flatMap_cons, subscriptions, restSubscriptions, List.nil_append]
    · rw [List.flatMap_cons, selfRegistered, restSelfRegistered, List.nil_append]
    · intro other member
      rcases List.mem_cons.mp member with rfl | later
      · exact binds
      · exact restBinds other later
  | @wait loaded event draft others drafts draftOf _ ih =>
    have own := bound draft List.mem_cons_self
    obtain ⟨subscriptions, selfRegistered⟩ := own_of_draft draftOf own
    obtain ⟨restSubscriptions, restSelfRegistered, restBinds⟩ :=
      ih fun later member => bound later (List.mem_cons_of_mem _ member)
    refine ⟨?_, ?_, ?_⟩
    · rw [List.flatMap_cons, List.flatMap_cons, subscriptions, restSubscriptions]
    · rw [List.flatMap_cons, List.flatMap_cons, selfRegistered, restSelfRegistered]
    · intro other member
      rcases List.mem_cons.mp member with rfl | later
      · exact binds_of_draft draftOf own
      · exact restBinds other later

/-! ## What it is to lose a script -/

/-- Exactly what belongs to a script has left the tables of the host, and the rest is as it was, in
the order in which it was, and is dispatched in the order in which it was. -/
structure Loses (script : Script) (before after : Host) : Prop where
  subscriptions : after.bus.subscriptions =
    before.bus.subscriptions.filter (·.trigger.script ≠ script)
  dispatch : ∀ eventClass, after.bus.listeners eventClass =
    (before.bus.listeners eventClass).filter (·.trigger.script ≠ script)
  selfRegistered : after.bus.selfRegistered = before.bus.selfRegistered.filter (·.script ≠ script)
  commands : ∀ name, after.commands.commands.get? name =
    (before.commands.commands.get? name).filter (·.script ≠ script)
  labels : ∀ label name, after.commands.labels.get? label = some name ↔
    before.commands.labels.get? label = some name ∧
      ∀ command, before.commands.commands.get? name = some command → command.script ≠ script
  signatures : ∀ name, after.functions.signature? name =
    (before.functions.signature? name).filter (·.script ≠ script)
  bodies : ∀ name, after.functions.bodies.get? name =
    if (before.functions.signature? name).any (·.script = script) then none
    else before.functions.bodies.get? name

/-- Subscriptions, commands, aliases and functions are the same. -/
structure SameTables (before after : Host) : Prop where
  subscriptions : after.bus.subscriptions = before.bus.subscriptions
  selfRegistered : after.bus.selfRegistered = before.bus.selfRegistered
  commands : after.commands.commands = before.commands.commands
  labels : after.commands.labels = before.commands.labels
  functions : after.functions = before.functions

/-! ## The ledger -/

/-- The tables of the host hold exactly what the structures of some scripts own. -/
structure Holds (registry : Registry) (handles : List Handle) (host : Host) : Prop where
  sound : host.Sound
  tidy : host.Tidy
  declared : host.functions.BodiesDeclared
  emptied : ∀ handle ∈ handles, handle.unloaded = true → handle.loaded.structures = []
  generations : (handles.map (·.loaded.script.generation)).Nodup
  tickets : (handles.flatMap fun handle => ticketsOf handle.loaded.structures).Nodup
  used : ∀ handle ∈ handles, ∀ ticket ∈ ticketsOf handle.loaded.structures,
    ticket < host.nextTicket
  owned : ∀ ticket trigger, host.bound ticket = some trigger →
    ∃ handle ∈ handles, trigger.script = handle.loaded.script ∧
      ticket ∈ eventTicketsOf handle.loaded.structures
  binds : ∀ handle ∈ handles, ∀ inner ∈ handle.loaded.structures,
    host.Binds registry handle.loaded.script inner
  subscriptions : host.bus.subscriptions.Perm
    (handles.flatMap fun handle => handle.loaded.structures.flatMap (host.subscriptionsOf registry))
  selfRegistered : host.bus.selfRegistered.Perm
    (handles.flatMap fun handle => handle.loaded.structures.flatMap host.selfRegisteredOf)
  unused : ∀ ticket, (∀ handle ∈ handles, ticket ∉ commandTicketsOf handle.loaded.structures) →
    host.registrations ticket = {}
  registered : ∀ handle ∈ handles, ∀ inner ∈ handle.loaded.structures,
    inner.Registered handle.loaded.script host
  declares : ∀ handle ∈ handles, ∀ inner ∈ handle.loaded.structures,
    inner.inner.DeclaresIn handle.loaded.script
  events : ∀ handle ∈ handles, ∀ inner ∈ handle.loaded.structures,
    inner.inner.event?.isSome = true → inner.loaded = true
  signatures : ∀ name signature, host.functions.signature? name = some signature →
    ∃ handle ∈ handles, handle.unloaded = false ∧ signature.script = handle.loaded.script

namespace Holds

variable {handles others : List Handle} {handle : Handle}

/-- The order of the scripts does not matter. -/
theorem perm (holds : host.Holds registry handles) (same : handles.Perm others) :
    host.Holds registry others where
  sound := holds.sound
  tidy := holds.tidy
  declared := holds.declared
  emptied := fun handle member => holds.emptied handle (same.mem_iff.mpr member)
  generations := (same.map _).nodup_iff.mp holds.generations
  tickets := (same.flatMap_right _).nodup_iff.mp holds.tickets
  used := fun handle member => holds.used handle (same.mem_iff.mpr member)
  owned := by
    intro ticket trigger bound
    obtain ⟨handle, member, own⟩ := holds.owned ticket trigger bound
    exact ⟨handle, same.mem_iff.mp member, own⟩
  binds := fun handle member => holds.binds handle (same.mem_iff.mpr member)
  subscriptions := holds.subscriptions.trans (same.flatMap_right _)
  selfRegistered := holds.selfRegistered.trans (same.flatMap_right _)
  unused := fun ticket absent =>
    holds.unused ticket fun handle member => absent handle (same.mem_iff.mp member)
  registered := fun handle member => holds.registered handle (same.mem_iff.mpr member)
  declares := fun handle member => holds.declares handle (same.mem_iff.mpr member)
  events := fun handle member => holds.events handle (same.mem_iff.mpr member)
  signatures := by
    intro name signature found
    obtain ⟨handle, member, own⟩ := holds.signatures name signature found
    exact ⟨handle, same.mem_iff.mp member, own⟩

theorem write (holds : host.Holds registry handles) (entries : List LogEntry) :
    (host.write entries).Holds registry handles where
  sound := holds.sound.of_same rfl rfl
  tidy := holds.tidy.of_same rfl rfl
  declared := holds.declared
  emptied := holds.emptied
  generations := holds.generations
  tickets := holds.tickets
  used := holds.used
  owned := holds.owned
  binds := holds.binds
  subscriptions := holds.subscriptions
  selfRegistered := holds.selfRegistered
  unused := holds.unused
  registered := holds.registered
  declares := holds.declares
  events := holds.events
  signatures := holds.signatures

theorem unbound (holds : host.Holds registry handles) {ticket : Nat}
    (later : host.nextTicket ≤ ticket) : host.bound ticket = none := by
  cases found : host.bound ticket with
  | none => rfl
  | some trigger =>
    obtain ⟨handle, member, _, own⟩ := holds.owned ticket trigger found
    have earlier := holds.used handle member ticket (mem_ticketsOf_of_event own)
    exact absurd earlier (Nat.not_lt.mpr later)

theorem unregistered (holds : host.Holds registry handles) {ticket : Nat}
    (later : host.nextTicket ≤ ticket) : host.registrations ticket = {} := by
  refine holds.unused ticket fun handle member own => ?_
  have earlier := holds.used handle member ticket (mem_ticketsOf_of_command own)
  exact absurd earlier (Nat.not_lt.mpr later)

/-- A command is registered only under a ticket of a script. -/
theorem exists_of_registered (holds : host.Holds registry handles) {ticket : Nat}
    {command : Command} (found : host.registered ticket = some command) :
    ∃ handle ∈ handles, ticket ∈ commandTicketsOf handle.loaded.structures := by
  by_contra nowhere
  rw [Host.registered, holds.unused ticket fun handle member own =>
    nowhere ⟨handle, member, own⟩] at found
  cases found

/-- What is registered under the ticket of a command of a script is that command, and it is loaded.
-/
theorem loaded_of_registered (holds : host.Holds registry handles) (member : handle ∈ handles)
    {inner : LoadedStructure} (there : inner ∈ handle.loaded.structures) {own : CommandStructure}
    (isCommand : inner.inner.command? = some own) {command : Command}
    (found : host.registered own.ticket = some command) :
    inner.loaded = true ∧ own.name = some command.name ∧
      command.script = handle.loaded.script := by
  have kept := holds.registered handle member inner there own isCommand
  rw [Host.registered] at found
  split at kept
  · next loaded =>
    obtain ⟨registered, named, script, same⟩ := kept
    rw [same, Option.some.injEq] at found
    exact ⟨loaded, found ▸ named, found ▸ script⟩
  · rw [kept] at found
    cases found

/-! ### One script among the others -/

theorem eq_of_generation (holds : host.Holds registry (handle :: others)) {other : Handle}
    (member : other ∈ handle :: others)
    (same : other.loaded.script.generation = handle.loaded.script.generation) :
    other = handle := by
  rcases List.mem_cons.mp member with here | there
  · exact here
  · have distinct := (List.nodup_cons.mp holds.generations).1
    exact absurd (List.mem_map.mpr ⟨other, there, same⟩) distinct

theorem apart (holds : host.Holds registry (handle :: others)) {other : Handle}
    (member : other ∈ others) {ticket : Nat}
    (shared : ticket ∈ ticketsOf other.loaded.structures) :
    ticket ∉ ticketsOf handle.loaded.structures := by
  intro own
  have distinct := holds.tickets
  rw [List.flatMap_cons] at distinct
  have apart := (List.nodup_append.mp distinct).2.2 ticket own ticket
  exact apart (List.mem_flatMap.mpr ⟨other, member, shared⟩) rfl

theorem eq_of_ticket (holds : host.Holds registry (handle :: others)) {other : Handle}
    (member : other ∈ handle :: others) {ticket : Nat}
    (own : ticket ∈ ticketsOf handle.loaded.structures)
    (shared : ticket ∈ ticketsOf other.loaded.structures) : other = handle := by
  rcases List.mem_cons.mp member with here | there
  · exact here
  · exact absurd own (holds.apart there shared)

/-- The tickets of a script are those under which its triggers are bound. -/
theorem bound_iff (holds : host.Holds registry (handle :: others)) {ticket : Nat}
    {trigger : Trigger} (bound : host.bound ticket = some trigger) :
    ticket ∈ eventTicketsOf handle.loaded.structures ↔
      trigger.script = handle.loaded.script := by
  obtain ⟨owner, member, script, own⟩ := holds.owned ticket trigger bound
  constructor
  · intro here
    rw [script, holds.eq_of_ticket member (mem_ticketsOf_of_event here)
      (mem_ticketsOf_of_event own)]
  · intro same
    rw [script] at same
    rw [holds.eq_of_generation member (congrArg Script.generation same)] at own
    exact own

/-- The tickets of a script are those under which its commands are registered. -/
theorem registered_iff (holds : host.Holds registry (handle :: others)) {ticket : Nat}
    {command : Command} (registered : host.registered ticket = some command) :
    ticket ∈ commandTicketsOf handle.loaded.structures ↔
      command.script = handle.loaded.script := by
  have owns {owner : Handle} (member : owner ∈ handle :: others)
      (own : ticket ∈ commandTicketsOf owner.loaded.structures) :
      command.script = owner.loaded.script := by
    obtain ⟨inner, there, found⟩ := mem_commandTicketsOf.mp own
    obtain ⟨structure', isCommand, rfl⟩ := Option.map_eq_some_iff.mp found
    exact (holds.loaded_of_registered member there isCommand registered).2.2
  constructor
  · exact owns List.mem_cons_self
  · intro same
    obtain ⟨owner, member, own⟩ := holds.exists_of_registered registered
    have script := (owns member own).symm.trans same
    rwa [holds.eq_of_generation member (congrArg Script.generation script)] at own

theorem ownedBy_iff (holds : host.Holds registry (handle :: others)) {name : String}
    {signature : Signature} (found : host.functions.signature? name = some signature) :
    host.functions.ownedBy handle.loaded.script name = true ↔
      signature.script = handle.loaded.script := by
  rw [FunctionTable.ownedBy_iff]
  constructor
  · rintro ⟨other, same, owned⟩
    obtain rfl : signature = other := Option.some.inj (found.symm.trans same)
    obtain ⟨owner, member, _, script⟩ := holds.signatures name signature found
    have generation := Script.generation_eq_of_same owned
    rw [script] at generation
    rw [script, holds.eq_of_generation member generation]
  · intro same
    exact ⟨signature, found, same ▸ signature.script.same_refl⟩

/-! ### Loading -/

/-- A script that has been loaded and finished takes its place beside the others. -/
theorem load {loaded : LoadedScript} (holds : host.Holds registry handles)
    (gains : Loading.Gains EventFilter.IsBuiltIn registry host loaded after)
    (new : ∀ handle ∈ handles, handle.loaded.script.generation ≠ loaded.script.generation) :
    after.Holds registry (⟨loaded, false⟩ :: handles) := by
  obtain ⟨results, drafts, perm, waits, bound, subscriptions, selfRegistered⟩ := gains.triggers
  have fresh : ∀ ticket ∈ drafts.map TriggerDraft.ticket, host.nextTicket ≤ ticket := by
    intro ticket member
    exact (gains.fresh ticket ((perm.filterMap _).mem_iff.mpr (waits.tickets.subset member))).1
  have distinct : (drafts.map TriggerDraft.ticket).Nodup :=
    ((perm.filterMap _).nodup_iff.mp gains.distinct).sublist waits.tickets
  have ownBound : ∀ draft ∈ drafts,
      after.bound draft.ticket = some (draft.toTrigger loaded.script) := by
    intro draft member
    rw [bound]
    exact boundAfter_of_mem distinct member _
  obtain ⟨ownSubscriptions, ownSelfRegistered, ownBinds⟩ := own_of_waits waits ownBound
  have earlier : ∀ ticket < host.nextTicket, after.bound ticket = host.bound ticket := by
    intro ticket less
    rw [bound]
    refine boundAfter_of_not_mem (fun draft member same => ?_) _
    have least := fresh draft.ticket (List.mem_map_of_mem member)
    exact absurd less (Nat.not_lt.mpr (same ▸ least))
  have keeps : ∀ handle ∈ handles, ∀ inner ∈ handle.loaded.structures,
      ∀ ticket ∈ inner.inner.eventTicket?, after.bound ticket = host.bound ticket := by
    intro handle member inner there ticket own
    refine earlier ticket (holds.used handle member ticket ?_)
    exact mem_ticketsOf_of_event (mem_eventTicketsOf.mpr ⟨inner, there, own⟩)
  have kept : ∀ ticket, (∃ handle ∈ handles, ticket ∈ ticketsOf handle.loaded.structures) →
      ticket ∉ ticketsOf loaded.structures := by
    rintro ticket ⟨handle, member, own⟩ here
    have less := holds.used handle member ticket own
    exact absurd less (Nat.not_lt.mpr (gains.fresh ticket here).1)
  constructor
  case sound => exact gains.sound
  case tidy => exact gains.tidy
  case declared => exact holds.declared.grown gains.functions
  case emptied => exact List.forall_mem_cons.mpr ⟨nofun, holds.emptied⟩
  case generations =>
    refine List.nodup_cons.mpr ⟨fun member => ?_, holds.generations⟩
    obtain ⟨handle, old, same⟩ := List.mem_map.mp member
    exact new handle old same
  case tickets =>
    rw [List.flatMap_cons]
    refine List.nodup_append.mpr ⟨gains.distinct, holds.tickets, ?_⟩
    rintro ticket here _ there rfl
    obtain ⟨handle, member, own⟩ := List.mem_flatMap.mp there
    exact kept ticket ⟨handle, member, own⟩ here
  case used =>
    intro handle member ticket own
    rcases List.mem_cons.mp member with rfl | old
    · exact (gains.fresh ticket own).2
    · exact (holds.used handle old ticket own).trans_le gains.later
  case owned =>
    intro ticket trigger found
    by_cases waited : ∃ draft ∈ drafts, draft.ticket = ticket
    · obtain ⟨draft, member, rfl⟩ := waited
      rw [ownBound draft member] at found
      obtain rfl := Option.some.inj found
      obtain ⟨inner, there, event, draftOf⟩ := waits.mem_tickets draft member
      refine ⟨⟨loaded, false⟩, List.mem_cons_self, rfl, mem_eventTicketsOf.mpr
        ⟨inner, perm.mem_iff.mpr there, ?_⟩⟩
      rw [Structure.eventTicket?, draftOf.isEvent, draftOf.ticket]
      rfl
    · rw [bound, boundAfter_of_not_mem
        (fun draft member same => waited ⟨draft, member, same⟩)] at found
      obtain ⟨handle, member, own⟩ := holds.owned ticket trigger found
      exact ⟨handle, List.mem_cons_of_mem _ member, own⟩
  case binds =>
    intro handle member inner there
    rcases List.mem_cons.mp member with rfl | old
    · exact ownBinds inner (perm.mem_iff.mp there)
    · exact (holds.binds handle old inner there).congr (keeps handle old inner there)
  case subscriptions =>
    rw [subscriptions, List.flatMap_cons, ← gains.config, ← ownSubscriptions]
    refine List.perm_append_comm.trans (List.Perm.append (perm.symm.flatMap_right _) ?_)
    refine holds.subscriptions.trans (List.Perm.of_eq ?_)
    refine List.flatMap_congr fun handle member => List.flatMap_congr fun inner there => ?_
    exact (subscriptionsOf_congr gains.config (keeps handle member inner there)).symm
  case selfRegistered =>
    rw [selfRegistered, List.flatMap_cons, ← ownSelfRegistered]
    refine List.perm_append_comm.trans (List.Perm.append (perm.symm.flatMap_right _) ?_)
    refine holds.selfRegistered.trans (List.Perm.of_eq ?_)
    refine List.flatMap_congr fun handle member => List.flatMap_congr fun inner there => ?_
    exact (selfRegisteredOf_congr (keeps handle member inner there)).symm
  case unused =>
    intro ticket absent
    rw [gains.others ticket (absent ⟨loaded, false⟩ List.mem_cons_self)]
    exact holds.unused ticket fun handle member => absent handle (List.mem_cons_of_mem _ member)
  case registered =>
    intro handle member inner there
    rcases List.mem_cons.mp member with rfl | old
    · exact gains.registered inner there
    · refine Loading.Registered.of_same (holds.registered handle old inner there) ?_
      intro ticket own
      refine gains.others ticket fun new => kept ticket ⟨handle, old, ?_⟩
        (mem_ticketsOf_of_command new)
      exact mem_ticketsOf.mpr ⟨inner, there, own⟩
  case declares => exact List.forall_mem_cons.mpr ⟨gains.declares, holds.declares⟩
  case events => exact List.forall_mem_cons.mpr ⟨gains.events, holds.events⟩
  case signatures =>
    intro name signature found
    rcases gains.functions.signatures name with same | ⟨_, own, taken, script⟩
    · obtain ⟨handle, member, own⟩ := holds.signatures name signature (same ▸ found)
      exact ⟨handle, List.mem_cons_of_mem _ member, own⟩
    · obtain rfl := Option.some.inj (found.symm.trans taken)
      exact ⟨⟨loaded, false⟩, List.mem_cons_self, rfl, script⟩

/-! ### Unloading -/

/-- Without what carries the tickets of one script, what the others own is left. -/
theorem left_of_owned {α : Type} {ticketOf : α → Nat} {own kept : LoadedStructure → List α}
    (holds : host.Holds registry (handle :: others))
    (carries : ∀ inner, ∀ item ∈ own inner, inner.inner.eventTicket? = some (ticketOf item))
    (same : ∀ other ∈ others, ∀ inner ∈ other.loaded.structures, kept inner = own inner) :
    ((handle :: others).flatMap fun other => other.loaded.structures.flatMap own).filter
        (ticketOf · ∉ eventTicketsOf handle.loaded.structures) =
      (handle.unload :: others).flatMap fun other => other.loaded.structures.flatMap kept := by
  rw [List.flatMap_cons, List.flatMap_cons, List.filter_append]
  congr 1
  · refine List.filter_eq_nil_iff.mpr fun item member => ?_
    obtain ⟨inner, there, found⟩ := List.mem_flatMap.mp member
    simp only [decide_not, Bool.not_eq_true, Bool.not_eq_false', decide_eq_true_eq]
    exact mem_eventTicketsOf.mpr ⟨inner, there, carries inner item found⟩
  · rw [List.filter_eq_self.mpr]
    · refine List.flatMap_congr fun other member => List.flatMap_congr fun inner there => ?_
      exact (same other member inner there).symm
    · intro item member
      obtain ⟨other, otherMember, inOther⟩ := List.mem_flatMap.mp member
      obtain ⟨inner, there, found⟩ := List.mem_flatMap.mp inOther
      have shared := mem_ticketsOf_of_event
        (mem_eventTicketsOf.mpr ⟨inner, there, carries inner item found⟩)
      refine decide_eq_true fun mine => ?_
      exact holds.apart otherMember shared (mem_ticketsOf_of_event mine)

/-- A script that has been unloaded owns nothing any more, and the others what they owned before. -/
theorem unload (holds : host.Holds registry (handle :: others)) {between : FunctionTable}
    (releases : host.Releases handle.loaded.structures after)
    (shrunk : FunctionTable.ShrunkBy handle.loaded.script host.functions between)
    (functions : after.functions = (between.withdrawScript handle.loaded.script).2) :
    after.Holds registry (handle.unload :: others) := by
  have keeps : ∀ other ∈ others, ∀ inner ∈ other.loaded.structures,
      ∀ ticket ∈ inner.inner.eventTicket?, after.bound ticket = host.bound ticket := by
    intro other member inner there ticket own
    have shared := mem_ticketsOf_of_event (mem_eventTicketsOf.mpr ⟨inner, there, own⟩)
    rw [releases.bound, if_neg]
    exact fun mine => holds.apart member shared (mem_ticketsOf_of_event mine)
  have none {Meets : LoadedStructure → Prop} : ∀ inner ∈ handle.unload.loaded.structures,
      Meets inner := fun _ member => absurd member List.not_mem_nil
  constructor
  case sound => exact releases.sound
  case tidy => exact releases.tidy
  case declared =>
    rw [functions]
    exact holds.declared.withdrawScript shrunk
  case emptied =>
    exact List.forall_mem_cons.mpr ⟨fun _ => rfl, (List.forall_mem_cons.mp holds.emptied).2⟩
  case generations => exact holds.generations
  case tickets =>
    have distinct := holds.tickets
    rw [List.flatMap_cons] at distinct ⊢
    exact (List.nodup_append.mp distinct).2.1
  case used =>
    intro other member ticket own
    rcases List.mem_cons.mp member with rfl | there
    · exact absurd own List.not_mem_nil
    · rw [releases.nextTicket]
      exact holds.used other (List.mem_cons_of_mem _ there) ticket own
  case owned =>
    intro ticket trigger found
    rw [releases.bound] at found
    split at found
    · cases found
    · next notOwn =>
      obtain ⟨other, member, script, own⟩ := holds.owned ticket trigger found
      rcases List.mem_cons.mp member with rfl | there
      · exact absurd own notOwn
      · exact ⟨other, List.mem_cons_of_mem _ there, script, own⟩
  case binds =>
    intro other member
    rcases List.mem_cons.mp member with rfl | there
    · exact none
    · intro inner innerMember
      exact (holds.binds other (List.mem_cons_of_mem _ there) inner innerMember).congr
        (keeps other there inner innerMember)
  case subscriptions =>
    rw [releases.subscriptions]
    refine (holds.subscriptions.filter _).trans (List.Perm.of_eq ?_)
    refine holds.left_of_owned (fun _ _ => ticket_of_mem_subscriptionsOf holds.tidy) ?_
    intro other member inner there
    exact subscriptionsOf_congr releases.config (keeps other member inner there)
  case selfRegistered =>
    rw [releases.selfRegistered]
    refine (holds.selfRegistered.filter _).trans (List.Perm.of_eq ?_)
    refine holds.left_of_owned (fun _ _ => ticket_of_mem_selfRegisteredOf holds.tidy) ?_
    intro other member inner there
    exact selfRegisteredOf_congr (keeps other member inner there)
  case unused =>
    intro ticket absent
    rw [releases.registrations]
    split
    · rfl
    · next notOwn =>
      refine holds.unused ticket fun other member => ?_
      rcases List.mem_cons.mp member with rfl | there
      · exact notOwn
      · exact absent other (List.mem_cons_of_mem _ there)
  case registered =>
    intro other member
    rcases List.mem_cons.mp member with rfl | there
    · exact none
    · intro inner innerMember
      refine Loading.Registered.of_same
        (holds.registered other (List.mem_cons_of_mem _ there) inner innerMember) ?_
      intro ticket own
      rw [releases.registrations, if_neg]
      intro mine
      exact holds.apart there (mem_ticketsOf.mpr ⟨inner, innerMember, own⟩)
        (mem_ticketsOf_of_command mine)
  case declares =>
    exact List.forall_mem_cons.mpr ⟨none, (List.forall_mem_cons.mp holds.declares).2⟩
  case events =>
    exact List.forall_mem_cons.mpr ⟨none, (List.forall_mem_cons.mp holds.events).2⟩
  case signatures =>
    intro name signature found
    rw [functions, (FunctionTable.withdrawScript_get? shrunk name).1] at found
    split at found
    · cases found
    · next notOwned =>
      obtain ⟨other, member, live, script⟩ := holds.signatures name signature found
      rcases List.mem_cons.mp member with rfl | there
      · exact absurd ((holds.ownedBy_iff found).mpr script) notOwned
      · exact ⟨other, List.mem_cons_of_mem _ there, live, script⟩

/-- Unloading a script takes away exactly what is its own. -/
theorem loses (holds : host.Holds registry (handle :: others)) {between : FunctionTable}
    (releases : host.Releases handle.loaded.structures after)
    (shrunk : FunctionTable.ShrunkBy handle.loaded.script host.functions between)
    (functions : after.functions = (between.withdrawScript handle.loaded.script).2) :
    host.Loses handle.loaded.script after := by
  have registered (ticket : Nat) (command : Command) : after.registered ticket = some command ↔
      host.registered ticket = some command ∧ command.script ≠ handle.loaded.script := by
    rw [Host.registered, releases.registrations]
    constructor
    · intro found
      split at found
      · cases found
      · next absent => exact ⟨found, fun same => absent ((holds.registered_iff found).mpr same)⟩
    · rintro ⟨found, apart⟩
      rw [if_neg fun own => apart ((holds.registered_iff found).mp own)]
      exact found
  have subscriptions : after.bus.subscriptions =
      host.bus.subscriptions.filter (·.trigger.script ≠ handle.loaded.script) := by
    rw [releases.subscriptions]
    refine List.filter_congr fun subscription member => decide_eq_decide.mpr (not_congr ?_)
    exact holds.bound_iff (holds.tidy.subscribed subscription member)
  constructor
  case subscriptions => exact subscriptions
  case dispatch =>
    intro eventClass
    rw [EventBus.listeners, subscriptions]
    exact EventBus.listeners_filter _ _ _
  case selfRegistered =>
    rw [releases.selfRegistered]
    refine List.filter_congr fun trigger member => decide_eq_decide.mpr (not_congr ?_)
    exact holds.bound_iff (holds.tidy.registered trigger member)
  case commands =>
    intro name
    refine Option.ext fun command => ?_
    rw [releases.sound.reflects.command_iff, Option.filter_eq_some_iff,
      holds.sound.reflects.command_iff, decide_eq_true_eq, and_assoc]
    refine and_congr_right fun _ => ?_
    constructor
    · rintro ⟨ticket, found⟩
      exact ⟨⟨ticket, ((registered ticket command).mp found).1⟩,
        ((registered ticket command).mp found).2⟩
    · rintro ⟨⟨ticket, found⟩, apart⟩
      exact ⟨ticket, (registered ticket command).mpr ⟨found, apart⟩⟩
  case labels =>
    intro label name
    rw [releases.sound.reflects.label_iff, holds.sound.reflects.label_iff]
    constructor
    · rintro ⟨ticket, command, found, named, shown⟩
      obtain ⟨before, apart⟩ := (registered ticket command).mp found
      refine ⟨⟨ticket, command, before, named, shown⟩, fun other named' => ?_⟩
      have same := (holds.sound.reflects.command_iff name command).mpr ⟨named, ticket, before⟩
      rw [← Option.some.inj (same.symm.trans named')]
      exact apart
    · rintro ⟨⟨ticket, command, before, named, shown⟩, apart⟩
      have found := (holds.sound.reflects.command_iff name command).mpr ⟨named, ticket, before⟩
      exact ⟨ticket, command, (registered ticket command).mpr ⟨before, apart command found⟩,
        named, shown⟩
  case signatures =>
    intro name
    rw [functions, (FunctionTable.withdrawScript_get? shrunk name).1]
    cases found : host.functions.signature? name with
    | none => exact ite_self _
    | some signature =>
      have owned := holds.ownedBy_iff found
      by_cases same : signature.script = handle.loaded.script
      · rw [if_pos (owned.mpr same)]
        simp [Option.filter_some, same]
      · rw [if_neg fun own => same (owned.mp own)]
        simp [Option.filter_some, same]
  case bodies =>
    intro name
    rw [functions, (FunctionTable.withdrawScript_get? shrunk name).2]
    refine if_congr ?_ rfl rfl
    cases found : host.functions.signature? name with
    | none =>
      rw [FunctionTable.ownedBy_iff]
      simp [found]
    | some signature =>
      rw [holds.ownedBy_iff found]
      simp

/-- Loading a script, finishing it and unloading it leaves the tables as they were. -/
theorem restores {middle : Host} {loaded : LoadedScript} {between : FunctionTable}
    (holds : host.Holds registry handles)
    (gains : Loading.Gains EventFilter.IsBuiltIn registry host loaded middle)
    (new : ∀ handle ∈ handles, handle.loaded.script.generation ≠ loaded.script.generation)
    (releases : middle.Releases loaded.structures after)
    (shrunk : FunctionTable.ShrunkBy loaded.script middle.functions between)
    (functions : after.functions = (between.withdrawScript loaded.script).2) :
    host.SameTables after := by
  have lost : middle.Loses loaded.script after :=
    (holds.load gains new).loses releases shrunk functions
  obtain ⟨_, drafts, _, _, _, subscriptions, selfRegistered⟩ := gains.triggers
  have foreign {ticket : Nat} {trigger : Trigger} (found : host.bound ticket = some trigger) :
      trigger.script ≠ loaded.script := by
    obtain ⟨handle, member, script, _⟩ := holds.owned ticket trigger found
    rw [script]
    exact fun same => new handle member (congrArg Script.generation same)
  have registered : after.registered = host.registered := by
    funext ticket
    rw [Host.registered, Host.registered, releases.registrations]
    split
    · next own =>
      have fresh := (gains.fresh ticket (mem_ticketsOf_of_command own)).1
      rw [holds.unregistered fresh]
    · next absent => rw [gains.others ticket absent]
  obtain ⟨commands, labels⟩ : after.commands.commands = host.commands.commands ∧
      after.commands.labels = host.commands.labels :=
    releases.sound.reflects.unique (registered ▸ holds.sound.reflects)
  refine ⟨?_, ?_, commands, labels, ?_⟩
  · rw [lost.subscriptions, subscriptions, List.filter_append, List.filter_eq_self.mpr,
      List.filter_eq_nil_iff.mpr, List.append_nil]
    · intro subscription member
      obtain ⟨draft, _, own⟩ := List.mem_flatMap.mp member
      simp [TriggerDraft.trigger_of_mem_subscriptions own, TriggerDraft.toTrigger]
    · intro subscription member
      exact decide_eq_true (foreign (holds.tidy.subscribed subscription member))
  · rw [lost.selfRegistered, selfRegistered, List.filter_append, List.filter_eq_self.mpr,
      List.filter_eq_nil_iff.mpr, List.append_nil]
    · intro trigger member
      obtain ⟨draft, _, own⟩ := List.mem_flatMap.mp member
      simp [TriggerDraft.trigger_of_mem_selfRegistered own, TriggerDraft.toTrigger]
    · intro trigger member
      exact decide_eq_true (foreign (holds.tidy.registered trigger member))
  · rw [functions]
    refine gains.functions.withdrawScript holds.declared (fun name => ?_) shrunk
    rw [← Bool.not_eq_true, FunctionTable.ownedBy_iff]
    rintro ⟨signature, found, owned⟩
    obtain ⟨handle, member, _, script⟩ := holds.signatures name signature found
    refine new handle member ?_
    rw [← script]
    exact Script.generation_eq_of_same owned

end Holds

end Host

end ScriptBinding

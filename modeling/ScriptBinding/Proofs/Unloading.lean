import ScriptBinding.Proofs.FinishedScripts

/-! # Unloading scripts on the main thread

Unloading a structure takes back what is kept under its ticket and what it has declared, and nothing
else. Whatever a script has declared beyond that is swept up at the end.
-/

namespace ScriptBinding

/-- Between two states of the host exactly what some structures hold on to has been released. -/
structure Host.Releases (structures : List LoadedStructure) (before after : Host) : Prop where
  config : after.config = before.config
  classes : after.classes = before.classes
  queue : after.queue = before.queue
  nextTicket : after.nextTicket = before.nextTicket
  sound : after.Sound
  tidy : after.Tidy
  bound : ∀ ticket, after.bound ticket =
    if ticket ∈ eventTicketsOf structures then none else before.bound ticket
  subscriptions : after.bus.subscriptions =
    before.bus.subscriptions.filter (·.trigger.ticket ∉ eventTicketsOf structures)
  selfRegistered : after.bus.selfRegistered =
    before.bus.selfRegistered.filter (·.ticket ∉ eventTicketsOf structures)
  registrations : ∀ ticket, after.registrations ticket =
    if ticket ∈ commandTicketsOf structures then {} else before.registrations ticket

namespace Loading

variable {script : Script}

/-! ## Triggers and functions -/

/-- Between two workspaces structures of a script have taken back their triggers and what they have
declared. -/
structure TakesBack (script : Script) (structures : List LoadedStructure)
    (before after : Workspace) : Prop where
  config : after.host.config = before.host.config
  classes : after.host.classes = before.host.classes
  queue : after.host.queue = before.host.queue
  nextTicket : after.host.nextTicket = before.host.nextTicket
  current : after.context.script = before.context.script
  drafts : after.context.drafts = before.context.drafts
  keeps : ∀ ticket, before.host.KeepsOwn ticket → after.host.KeepsOwn ticket
  bound : ∀ ticket, after.host.bound ticket =
    if ticket ∈ eventTicketsOf structures then none else before.host.bound ticket
  subscriptions : after.host.bus.subscriptions =
    before.host.bus.subscriptions.filter (·.trigger.ticket ∉ eventTicketsOf structures)
  selfRegistered : after.host.bus.selfRegistered =
    before.host.bus.selfRegistered.filter (·.ticket ∉ eventTicketsOf structures)
  functions : FunctionTable.ShrunkBy script before.host.functions after.host.functions

namespace TakesBack

variable {structures : List LoadedStructure} {before between after : Workspace}

/-- Structures without triggers take back only what they have declared. -/
theorem of_steady (steady : before.Steady after) (queue : after.host.queue = before.host.queue)
    (functions : FunctionTable.ShrunkBy script before.host.functions after.host.functions)
    (noEvents : eventTicketsOf structures = []) : TakesBack script structures before after where
  config := steady.config
  classes := steady.classes
  queue
  nextTicket := steady.nextTicket
  current := steady.script
  drafts := steady.drafts
  keeps := fun _ keeps => keeps.of_same steady.bus steady.bound
  bound := fun ticket => by rw [noEvents, steady.bound, if_neg List.not_mem_nil]
  subscriptions := by simp [noEvents, steady.bus]
  selfRegistered := by simp [noEvents, steady.bus]
  functions

theorem of_untouched (untouched : before.Untouched after)
    (drafts : after.context.drafts = before.context.drafts)
    (functions : FunctionTable.ShrunkBy script before.host.functions after.host.functions)
    (noEvents : eventTicketsOf structures = []) : TakesBack script structures before after :=
  .of_steady (.of_untouched untouched drafts) untouched.queue functions noEvents

theorem append {first second : List LoadedStructure}
    (one : TakesBack script first before between) (two : TakesBack script second between after) :
    TakesBack script (first ++ second) before after := by
  have events (ticket : Nat) : ticket ∈ eventTicketsOf (first ++ second) ↔
      ticket ∈ eventTicketsOf first ∨ ticket ∈ eventTicketsOf second := by
    rw [eventTicketsOf, List.filterMap_append, List.mem_append]
    rfl
  refine ⟨two.config.trans one.config, two.classes.trans one.classes, two.queue.trans one.queue,
    two.nextTicket.trans one.nextTicket, two.current.trans one.current,
    two.drafts.trans one.drafts, fun ticket => two.keeps ticket ∘ one.keeps ticket, ?_, ?_, ?_,
    one.functions.trans two.functions⟩
  · intro ticket
    rw [two.bound, one.bound]
    simp only [events]
    by_cases here : ticket ∈ eventTicketsOf second
    · simp [here]
    · simp [here]
  · rw [two.subscriptions, one.subscriptions, List.filter_filter]
    refine List.filter_congr fun subscription _ => ?_
    simp [events, Bool.and_comm]
  · rw [two.selfRegistered, one.selfRegistered, List.filter_filter]
    refine List.filter_congr fun trigger _ => ?_
    simp [events, Bool.and_comm]

theorem quiet (one : TakesBack script structures before between) (quiet : between.Quiet after) :
    TakesBack script structures before after := by
  have none : TakesBack script [] between after :=
    .of_steady quiet.steady quiet.queue (quiet.functions ▸ .refl _) rfl
  have whole := one.append none
  rwa [List.append_nil] at whole

/-- Taking a trigger back. -/
theorem of_event {loaded : LoadedStructure} {event : EventStructure}
    (isEvent : loaded.inner = .event event) (keeps : before.host.KeepsOwn event.ticket) :
    TakesBack script [loaded] before (event.unload .main before) := by
  obtain ⟨step, bound, subscriptions, selfRegistered⟩ := keeps.unbind_spec
  have events : eventTicketsOf [loaded] = [event.ticket] := by
    simp [eventTicketsOf, isEvent, Structure.eventTicket?, Structure.event?]
  have host : (event.unload .main before).host = before.host.unbind event.ticket :=
    Host.submit_main (.unbind event.ticket) before.host
  constructor <;> try rw [host]
  case config => exact step.config
  case classes => exact step.classes
  case queue => exact step.queue
  case nextTicket => exact step.nextTicket
  case current => rfl
  case drafts => rfl
  case keeps => exact fun _ there => keeps.unbind there
  case bound =>
    intro ticket
    rw [bound, events, Function.update_apply]
    simp only [List.mem_singleton]
  case subscriptions =>
    rw [subscriptions, events]
    refine List.filter_congr fun subscription _ => ?_
    rw [Bool.eq_iff_iff]
    simp
  case selfRegistered =>
    rw [selfRegistered, events]
    refine List.filter_congr fun trigger _ => ?_
    rw [Bool.eq_iff_iff]
    simp
  case functions => exact step.functions ▸ .refl _

/-- Every trigger on the bus is still kept under its own ticket. -/
theorem tidy (one : TakesBack script structures before after) (tidy : before.host.Tidy) :
    after.host.Tidy := by
  refine ⟨fun ticket trigger found => ?_, fun subscription member => ?_, fun trigger member => ?_⟩
  · rw [one.bound] at found
    split at found
    · cases found
    · exact tidy.bound ticket trigger found
  · rw [one.subscriptions] at member
    obtain ⟨old, apart⟩ := List.mem_filter.mp member
    rw [one.bound, if_neg (of_decide_eq_true apart)]
    exact tidy.subscribed subscription old
  · rw [one.selfRegistered] at member
    obtain ⟨old, apart⟩ := List.mem_filter.mp member
    rw [one.bound, if_neg (of_decide_eq_true apart)]
    exact tidy.registered trigger old

end TakesBack

/-- A job that takes a command back touches nothing but commands. -/
theorem unregister_steady (command : CommandStructure) (workspace : Workspace) :
    workspace.Steady (command.unload .main workspace) ∧
      (command.unload .main workspace).host.queue = workspace.host.queue ∧
      (command.unload .main workspace).host.functions = workspace.host.functions := by
  have host : (command.unload .main workspace).host =
      workspace.host.unregisterUnder command.ticket :=
    Host.submit_main (.unregister command.ticket) workspace.host
  have step : workspace.host.CommandStep (command.unload .main workspace).host := by
    rw [host]
    cases found : (workspace.host.registrations command.ticket).registered with
    | none =>
      rw [Host.unregisterUnder_of_none found]
      exact .refl _
    | some registered => exact (Host.unregisterUnder_of_some found).1
  exact ⟨⟨step.config, step.classes, step.bus, step.bound, step.nextTicket, rfl, rfl⟩, step.queue,
    step.functions⟩

/-- What the call that unloads a structure takes back. -/
theorem inner_takesBack {loaded : LoadedStructure} (workspace : Workspace)
    (keeps : ∀ ticket ∈ eventTicketsOf [loaded], workspace.host.KeepsOwn ticket)
    (declares : loaded.inner.DeclaresIn script) :
    TakesBack script [loaded] workspace (loaded.inner.unload .main workspace).2.2 := by
  have noEvents (none : loaded.inner.event? = none) : eventTicketsOf [loaded] = [] := by
    simp [eventTicketsOf, Structure.eventTicket?, none]
  have still {after : Workspace} (none : loaded.inner.event? = none)
      (still : workspace.Still after) : TakesBack script [loaded] workspace after :=
    .of_untouched still.untouched still.drafts (still.functions ▸ .refl _) (noEvents none)
  cases same : loaded.inner with
  | event event =>
    refine .of_event same (keeps event.ticket ?_)
    simp [eventTicketsOf, same, Structure.eventTicket?, Structure.event?]
  | command command =>
    obtain ⟨steady, queue, functions⟩ := unregister_steady command workspace
    exact .of_steady steady queue (functions ▸ .refl _) (noEvents (by rw [same]; rfl))
  | function function =>
    obtain ⟨untouched, drafts⟩ := function.unload_untouched workspace
    refine .of_untouched untouched drafts ?_ (noEvents (by rw [same]; rfl))
    rw [same] at declares
    change FunctionTable.ShrunkBy script workspace.host.functions
      (function.unload workspace).2.host.functions
    unfold FunctionStructure.unload
    split
    · exact .refl _
    · next signature declared =>
      exact FunctionTable.withdraw_shrunk signature (declares signature declared) _
  | custom custom => exact still (by rw [same]; rfl) (custom.respond_still .unload workspace)
  | options options => exact still (by rw [same]; rfl) (.refl workspace)
  | aliases => exact still (by rw [same]; rfl) (.refl workspace)
  | defaults defaults => exact still (by rw [same]; rfl) (.refl workspace)

/-- Unloading a structure. One that is not loaded is no event. -/
theorem unload_takesBack {loaded : LoadedStructure} (workspace : Workspace)
    (keeps : ∀ ticket ∈ eventTicketsOf [loaded], workspace.host.KeepsOwn ticket)
    (declares : loaded.inner.DeclaresIn script)
    (event : loaded.inner.event?.isSome = true → loaded.loaded = true) :
    TakesBack script [loaded] workspace (unload .main loaded workspace).2 := by
  unfold unload
  cases isLoaded : loaded.loaded with
  | true =>
    exact (inner_takesBack workspace keeps declares).quiet (conclude_quiet .unload loaded _)
  | false =>
    refine .of_steady (.refl workspace) rfl (.refl _) ?_
    cases isEvent : loaded.inner.event? with
    | none => simp [eventTicketsOf, Structure.eventTicket?, isEvent]
    | some own => rw [event (by rw [isEvent]; rfl)] at isLoaded; cases isLoaded

/-- Unloading structures one after the other. -/
theorem each_takesBack (structures : List LoadedStructure) {workspace : Workspace}
    (keeps : ∀ ticket ∈ eventTicketsOf structures, workspace.host.KeepsOwn ticket)
    (declares : ∀ loaded ∈ structures, loaded.inner.DeclaresIn script)
    (events : ∀ loaded ∈ structures, loaded.inner.event?.isSome = true → loaded.loaded = true) :
    TakesBack script structures workspace (each (unload .main) structures workspace).2 := by
  induction structures generalizing workspace with
  | nil => exact .of_steady (.refl workspace) rfl (.refl _) rfl
  | cons first others ih =>
    have mem (ticket : Nat) : ticket ∈ eventTicketsOf (first :: others) ↔
        ticket ∈ eventTicketsOf [first] ∨ ticket ∈ eventTicketsOf others := by
      rw [← List.singleton_append, eventTicketsOf, List.filterMap_append, List.mem_append]
      rfl
    have one := unload_takesBack workspace (fun ticket own => keeps ticket ((mem ticket).mpr (.inl own)))
      (declares first List.mem_cons_self) (events first List.mem_cons_self)
    exact one.append (ih
      (fun ticket own => one.keeps ticket (keeps ticket ((mem ticket).mpr (.inr own))))
      (fun loaded member => declares loaded (List.mem_cons_of_mem _ member))
      (fun loaded member => events loaded (List.mem_cons_of_mem _ member)))

/-! ## Commands -/

/-- Between two hosts the commands of structures have been taken back. -/
structure Unregisters (structures : List LoadedStructure) (before after : Host) : Prop where
  sound : after.Sound
  registrations : ∀ ticket, after.registrations ticket =
    if ticket ∈ commandTicketsOf structures then {} else before.registrations ticket

namespace Unregisters

variable {before between after : Host}

/-- Structures under whose tickets nothing is registered take nothing back. -/
theorem of_same {structures : List LoadedStructure} (sound : before.Sound)
    (commands : after.commands = before.commands)
    (registrations : after.registrations = before.registrations)
    (none : ∀ ticket ∈ commandTicketsOf structures, before.registrations ticket = {}) :
    Unregisters structures before after := by
  refine ⟨sound.of_same commands registrations, fun ticket => ?_⟩
  rw [registrations]
  split
  · next member => exact none ticket member
  · rfl

theorem append {first second : List LoadedStructure} (one : Unregisters first before between)
    (two : Unregisters second between after) : Unregisters (first ++ second) before after := by
  have commands (ticket : Nat) : ticket ∈ commandTicketsOf (first ++ second) ↔
      ticket ∈ commandTicketsOf first ∨ ticket ∈ commandTicketsOf second := by
    rw [commandTicketsOf, List.filterMap_append, List.mem_append]
    rfl
  refine ⟨two.sound, fun ticket => ?_⟩
  rw [two.registrations, one.registrations]
  simp only [commands]
  by_cases here : ticket ∈ commandTicketsOf second
  · simp [here]
  · simp [here]

theorem quiet {structures : List LoadedStructure} {before between after : Workspace}
    (one : Unregisters structures before.host between.host) (quiet : between.Quiet after) :
    Unregisters structures before.host after.host :=
  ⟨quiet.sound one.sound, quiet.registrations ▸ one.registrations⟩

end Unregisters

/-- Taking back the command that a structure has registered. -/
theorem unload_command {loaded : LoadedStructure} {command : CommandStructure}
    {workspace : Workspace} (isCommand : loaded.inner = .command command)
    (sound : workspace.host.Sound) {registered : Command}
    (kept : workspace.host.registrations command.ticket = { registered := some registered }) :
    Unregisters [loaded] workspace.host (command.unload .main workspace).host := by
  have found : (workspace.host.registrations command.ticket).registered = some registered := by
    rw [kept]
  obtain ⟨_, _, registrations⟩ := Host.unregisterUnder_of_some found
  have commands : commandTicketsOf [loaded] = [command.ticket] := by
    simp [commandTicketsOf, isCommand, Structure.commandTicket?, Structure.command?]
  have host : (command.unload .main workspace).host =
      workspace.host.unregisterUnder command.ticket :=
    Host.submit_main (.unregister command.ticket) workspace.host
  rw [host]
  refine ⟨sound.unregisterUnder command.ticket, fun ticket => ?_⟩
  rw [commands, registrations, kept, Function.update_apply]
  simp only [List.mem_singleton]

/-- A structure without a command leaves the commands alone when it is unloaded. -/
theorem unload_noCommand {inner : Structure} (noCommand : inner.commandTicket? = none)
    (workspace : Workspace) :
    (inner.unload .main workspace).2.2.host.commands = workspace.host.commands ∧
      (inner.unload .main workspace).2.2.host.registrations = workspace.host.registrations := by
  cases inner with
  | command command => cases noCommand
  | event event =>
    have host : ((Structure.event event).unload .main workspace).2.2.host =
        workspace.host.unbind event.ticket := Host.submit_main (.unbind event.ticket) workspace.host
    rw [host]
    cases found : workspace.host.bound event.ticket with
    | none => rw [Host.unbind_of_none found]; exact ⟨rfl, rfl⟩
    | some trigger =>
      obtain ⟨step, _⟩ := Host.unbind_of_some found
      exact ⟨step.commands, step.registrations⟩
  | function function =>
    obtain ⟨untouched, _⟩ := function.unload_untouched workspace
    exact ⟨untouched.commands, untouched.registrations⟩
  | custom custom =>
    obtain ⟨untouched, _, _⟩ := custom.respond_still .unload workspace
    exact ⟨untouched.commands, untouched.registrations⟩
  | options options => exact ⟨rfl, rfl⟩
  | aliases => exact ⟨rfl, rfl⟩
  | defaults defaults => exact ⟨rfl, rfl⟩

/-- Unloading a structure takes back its command. One that is not loaded has registered none. -/
theorem unload_unregisters {loaded : LoadedStructure} {workspace : Workspace}
    (sound : workspace.host.Sound) (registered : loaded.Registered script workspace.host) :
    Unregisters [loaded] workspace.host (unload .main loaded workspace).2.host := by
  unfold unload
  cases isLoaded : loaded.loaded with
  | true =>
    refine Unregisters.quiet ?_ (conclude_quiet .unload loaded _)
    cases ticket : loaded.inner.commandTicket? with
    | none =>
      obtain ⟨commands, registrations⟩ := unload_noCommand ticket workspace
      refine .of_same sound commands registrations fun other member => ?_
      simp [commandTicketsOf, ticket] at member
    | some ticket' =>
      obtain ⟨command, isCommand, rfl⟩ := Option.map_eq_some_iff.mp ticket
      have own := registered command isCommand
      rw [if_pos isLoaded] at own
      obtain ⟨_, _, _, kept⟩ := own
      cases same : loaded.inner with
      | command inner =>
        rw [same] at isCommand
        cases isCommand
        exact unload_command same sound kept
      | _ => rw [same] at isCommand; cases isCommand
  | false =>
    refine .of_same sound rfl rfl fun ticket member => ?_
    obtain ⟨other, there, found⟩ := mem_commandTicketsOf.mp member
    rw [List.mem_singleton.mp there] at found
    obtain ⟨command, isCommand, rfl⟩ := Option.map_eq_some_iff.mp found
    have own := registered command isCommand
    rwa [if_neg (by rw [isLoaded]; exact Bool.false_ne_true)] at own

/-- Unloading structures one after the other. -/
theorem each_unregisters (structures : List LoadedStructure) {workspace : Workspace}
    (sound : workspace.host.Sound) (distinct : (ticketsOf structures).Nodup)
    (registered : ∀ loaded ∈ structures, loaded.Registered script workspace.host) :
    Unregisters structures workspace.host (each (unload .main) structures workspace).2.host := by
  induction structures generalizing workspace with
  | nil => exact .of_same sound rfl rfl fun _ member => absurd member List.not_mem_nil
  | cons first others ih =>
    have one := unload_unregisters sound (registered first List.mem_cons_self)
    have restDistinct : (ticketsOf others).Nodup := by
      refine List.Nodup.sublist ?_ distinct
      exact (List.sublist_cons_self first others).filterMap _
    refine one.append (ih one.sound restDistinct ?_)
    intro loaded member
    refine Registered.of_same (registered loaded (List.mem_cons_of_mem _ member)) ?_
    intro ticket found
    rw [one.registrations, if_neg]
    intro inFirst
    obtain ⟨other, there, same⟩ := mem_ticketsOf.mp (mem_ticketsOf_of_command inFirst)
    rw [List.mem_singleton.mp there] at same
    rw [ticketsOf, List.filterMap_cons, same] at distinct
    exact (List.nodup_cons.mp distinct).1 (mem_ticketsOf.mpr ⟨loaded, member, found⟩)

/-! ## Unloading a script -/

theorem mem_eventTicketsOf_reverse {structures : List LoadedStructure} {ticket : Nat} :
    ticket ∈ eventTicketsOf structures.reverse ↔ ticket ∈ eventTicketsOf structures := by
  rw [eventTicketsOf, List.filterMap_reverse, List.mem_reverse]
  rfl

theorem Releases.of_reverse {structures : List LoadedStructure} {before after : Host}
    (releases : before.Releases structures.reverse after) : before.Releases structures after := by
  have commands (ticket : Nat) :
      ticket ∈ commandTicketsOf structures.reverse ↔ ticket ∈ commandTicketsOf structures := by
    rw [commandTicketsOf, List.filterMap_reverse, List.mem_reverse]
    rfl
  obtain ⟨config, classes, queue, nextTicket, sound, tidy, bound, subscriptions, selfRegistered,
    registrations⟩ := releases
  simp only [mem_eventTicketsOf_reverse] at bound subscriptions selfRegistered
  simp only [commands] at registrations
  exact ⟨config, classes, queue, nextTicket, sound, tidy, bound, subscriptions, selfRegistered,
    registrations⟩

/-- The steps of unloading a script on the main thread: the current script is finished, the
structures take back what they hold on to, and then what the script has declared is swept up. -/
theorem unloadScript_split (loaded : LoadedScript) {workspace : Workspace}
    (orderly : workspace.Orderly)
    (keeps : ∀ ticket ∈ eventTicketsOf loaded.structures,
      (workspace.setScript .main none).host.KeepsOwn ticket)
    (declares : ∀ inner ∈ loaded.structures, inner.inner.DeclaresIn loaded.script)
    (events : ∀ inner ∈ loaded.structures, inner.inner.event?.isSome = true →
      inner.loaded = true) :
    ∃ started between, started.host = (workspace.setScript .main none).host ∧
      (each (unload .main) loaded.structures.reverse started).2 = between ∧
      TakesBack loaded.script loaded.structures.reverse started between ∧
      (unloadScript .main loaded workspace).2.host =
        { between.host with
          functions := (between.host.functions.withdrawScript loaded.script).2 } ∧
      (unloadScript .main loaded workspace).2.context.script = none ∧
      (unloadScript .main loaded workspace).2.context.currentDrafts = [] := by
  obtain ⟨noScript, _⟩ := Workspace.finish_context .main orderly
  have starts : Script.sameCurrent (workspace.setScript .main none).context.script
      (some loaded.script) = false := by
    rw [noScript]
    rfl
  obtain ⟨same, current, noneWait⟩ :=
    Workspace.start_script .main (Workspace.orderly_finish .main orderly) starts
  rw [Workspace.finish_of_none noScript] at same
  have whole : (unloadScript .main loaded workspace).2 =
      ((each (unload .main) loaded.structures.reverse ((workspace.setScript .main none).setScript
        .main (some loaded.script))).2.setScript .main none).inHost fun host =>
          { host with functions := (host.functions.withdrawScript loaded.script).2 } := rfl
  generalize (workspace.setScript .main none).setScript .main (some loaded.script) = started at *
  have takes : TakesBack loaded.script loaded.structures.reverse started
      (each (unload .main) loaded.structures.reverse started).2 := by
    refine each_takesBack loaded.structures.reverse (fun ticket member => ?_)
      (fun inner member => declares inner (List.mem_reverse.mp member))
      (fun inner member => events inner (List.mem_reverse.mp member))
    rw [same]
    exact keeps ticket (mem_eventTicketsOf_reverse.mp member)
  rw [whole]
  refine ⟨started, _, same, rfl, takes, ?_⟩
  generalize (each (unload .main) loaded.structures.reverse started).2 = between at takes
  have stillNone : between.context.currentDrafts = [] := by
    rw [Context.currentDrafts, takes.drafts]
    exact noneWait
  have moves : Script.sameCurrent between.context.script none = false := by
    rw [takes.current, current]
    rfl
  rw [Workspace.setScript_of_moves moves, Workspace.flush_of_none stillNone]
  exact ⟨rfl, rfl, Workspace.moved_drafts _ _⟩

/-- Unloading a script on the main thread finishes the current script, and then takes back exactly
what the structures of the script hold on to and all that the script has declared. -/
theorem unloadScript_main {loaded : LoadedScript} {workspace : Workspace}
    (orderly : workspace.Orderly) (sound : (workspace.setScript .main none).host.Sound)
    (tidy : (workspace.setScript .main none).host.Tidy)
    (distinct : (ticketsOf loaded.structures).Nodup)
    (registered : ∀ inner ∈ loaded.structures,
      inner.Registered loaded.script (workspace.setScript .main none).host)
    (declares : ∀ inner ∈ loaded.structures, inner.inner.DeclaresIn loaded.script)
    (events : ∀ inner ∈ loaded.structures, inner.inner.event?.isSome = true →
      inner.loaded = true) :
    let finished := workspace.setScript .main none
    let after := (unloadScript .main loaded workspace).2
    finished.host.Releases loaded.structures after.host ∧ after.context.script = none ∧
      after.context.currentDrafts = [] ∧
      ∃ between, FunctionTable.ShrunkBy loaded.script finished.host.functions between ∧
        after.host.functions = (between.withdrawScript loaded.script).2 := by
  intro finished after
  obtain ⟨started, between, host, whole, takes, left, noScript, noDrafts⟩ :=
    unloadScript_split loaded orderly (fun ticket _ => tidy.keepsOwn ticket) declares events
  have unregisters : Unregisters loaded.structures.reverse started.host between.host := by
    rw [← whole]
    exact each_unregisters loaded.structures.reverse (host ▸ sound)
      ((List.reverse_perm _).filterMap _ |>.nodup_iff.mpr distinct)
      (fun inner member => host ▸ registered inner (List.mem_reverse.mp member))
  have releases : finished.host.Releases loaded.structures between.host := by
    rw [← host]
    exact Releases.of_reverse ⟨takes.config, takes.classes, takes.queue, takes.nextTicket,
      unregisters.sound, takes.tidy (host ▸ tidy), takes.bound, takes.subscriptions,
      takes.selfRegistered, unregisters.registrations⟩
  have isAfter : after.host = { between.host with
      functions := (between.host.functions.withdrawScript loaded.script).2 } := left
  rw [isAfter]
  refine ⟨?_, noScript, noDrafts, between.host.functions, host ▸ takes.functions, rfl⟩
  exact ⟨releases.config, releases.classes, releases.queue, releases.nextTicket,
    releases.sound.of_same rfl rfl, releases.tidy.of_same rfl rfl, releases.bound,
    releases.subscriptions, releases.selfRegistered, releases.registrations⟩

end Loading

end ScriptBinding

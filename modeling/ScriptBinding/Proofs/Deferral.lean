import ScriptBinding.Proofs.Ledger
import ScriptBinding.Proofs.Likeness
import ScriptBinding.Proofs.WorkerLoading

/-! # Jobs that are deferred

Of two runs that are abreast, one does its jobs directly and the other defers them. The direct one
is bound to what the other will be bound to once it has done its jobs, as long as both submit the
same jobs. They do so for as long as a command that the host refuses hides no other one: the
deferred run has declared it already and hands over no second command of its name.
-/

namespace ScriptBinding

namespace Host

/-- Two hosts are bound to the same. -/
structure Matches (first second : Host) : Prop where
  config : second.config = first.config
  bus : second.bus = first.bus
  bound : second.bound = first.bound
  commands : second.commands = first.commands
  registered : second.registered = first.registered

/-- Nothing has been submitted, and the host is bound to what it was bound to. -/
structure Idle (before after : Host) : Prop where
  config : after.config = before.config
  bus : after.bus = before.bus
  bound : after.bound = before.bound
  commands : after.commands = before.commands
  registrations : after.registrations = before.registrations
  queue : after.queue = before.queue

/-- Jobs wait at a host that is otherwise bound to what it was bound to at the start. -/
structure Defers (start : Host) (jobs : List Job) (host : Host) : Prop where
  config : host.config = start.config
  bus : host.bus = start.bus
  bound : host.bound = start.bound
  commands : host.commands = start.commands
  registrations : host.registrations = start.registrations
  queue : host.queue.waiting = jobs.map Work.single

/-- The host once some jobs have been done. -/
def ahead (jobs : List Job) (host : Host) : Host :=
  jobs.foldl perform host

variable {first second : Host}

theorem Idle.refl (host : Host) : host.Idle host := by
  constructor <;> rfl

theorem Idle.write (entries : List LogEntry) (host : Host) : host.Idle (host.write entries) := by
  constructor <;> rfl

theorem Idle.trans {third : Host} (before : first.Idle second) (after : second.Idle third) :
    first.Idle third where
  config := after.config.trans before.config
  bus := after.bus.trans before.bus
  bound := after.bound.trans before.bound
  commands := after.commands.trans before.commands
  registrations := after.registrations.trans before.registrations
  queue := after.queue.trans before.queue

theorem Idle.of_untouched {before after : Workspace} (untouched : before.Untouched after) :
    before.host.Idle after.host :=
  ⟨untouched.config, untouched.bus, untouched.bound, untouched.commands, untouched.registrations,
    untouched.queue⟩

theorem Idle.of_quiet {before after : Workspace} (quiet : before.Quiet after) :
    before.host.Idle after.host :=
  ⟨quiet.steady.config, quiet.steady.bus, quiet.steady.bound, quiet.commands, quiet.registrations,
    quiet.queue⟩

theorem ahead_append (jobs others : List Job) (host : Host) :
    host.ahead (jobs ++ others) = (host.ahead jobs).ahead others :=
  List.foldl_append

/-! ## The bus -/

theorem selfRegister_bus (trigger : Trigger) (host : Host) :
    (host.selfRegister trigger).bus =
      match trigger.filter with
      | .scriptLoad => host.bus.addLoadListener trigger
      | _ => host.bus := by
  unfold selfRegister
  cases trigger.filter with
  | scriptLoad => exact runLoadTrigger_bus trigger _
  | _ => rfl

/-- What binding a draft makes of the bus depends on the bus and the settings only. -/
theorem bindDraft_bus (script : Script) (draft : TriggerDraft)
    (config : second.config = first.config) (bus : second.bus = first.bus) :
    (second.bindDraft script draft).bus = (first.bindDraft script draft).bus := by
  have whole (host : Host) : (host.bindDraft script draft).bus =
      if draft.filter.registersItself then
        ((host.selfRegister (draft.toTrigger script)).bus).addSelfRegistered
          (draft.toTrigger script)
      else host.bus.subscribe (draftClasses draft) (host.draftPriority draft)
        (draft.toTrigger script) := by
    unfold bindDraft
    dsimp only
    split
    · change ((host.keepBound draft.ticket _).selfRegister (draft.toTrigger script)).bus.addSelfRegistered
        _ = _
      rw [selfRegister_bus, selfRegister_bus]
      rfl
    · rfl
  rw [whole, whole, selfRegister_bus, selfRegister_bus, draftPriority, draftPriority, config, bus]

theorem Matches.bindDraft (matched : first.Matches second) (script : Script)
    (draft : TriggerDraft) :
    (first.bindDraft script draft).Matches (second.bindDraft script draft) := by
  obtain ⟨step, bound, _⟩ := bindDraft_spec script draft first
  obtain ⟨otherStep, otherBound, _⟩ := bindDraft_spec script draft second
  refine ⟨?_, bindDraft_bus script draft matched.config matched.bus, ?_, ?_, ?_⟩
  · rw [otherStep.config, step.config, matched.config]
  · rw [otherBound, bound, matched.bound]
  · rw [otherStep.commands, step.commands, matched.commands]
  · rw [registered_of_same otherStep.registrations, registered_of_same step.registrations,
      matched.registered]

theorem Matches.bind (matched : first.Matches second) (script : Script)
    (drafts : List TriggerDraft) :
    (first.perform (.bind script drafts)).Matches (second.perform (.bind script drafts)) := by
  induction drafts generalizing first second with
  | nil => exact matched
  | cons draft others ih => exact ih (matched.bindDraft script draft)

theorem selfUnregister_bus (trigger : Trigger) (host : Host) :
    (host.selfUnregister trigger).bus =
      match trigger.filter with
      | .scriptLoad => host.bus.removeLoadListener trigger.ticket
      | _ => host.bus := by
  unfold selfUnregister
  cases trigger.filter <;> rfl

theorem Matches.unbind (matched : first.Matches second) (ticket : Nat) :
    (first.perform (.unbind ticket)).Matches (second.perform (.unbind ticket)) := by
  change (first.unbind ticket).Matches (second.unbind ticket)
  cases found : first.bound ticket with
  | none =>
    rw [unbind_of_none found, unbind_of_none (matched.bound ▸ found)]
    exact matched
  | some trigger =>
    have alsoFound : second.bound ticket = some trigger := matched.bound ▸ found
    obtain ⟨step, bound, _⟩ := unbind_of_some found
    obtain ⟨otherStep, otherBound, _⟩ := unbind_of_some alsoFound
    have whole (host : Host) (there : host.bound ticket = some trigger) : (host.unbind ticket).bus =
        (if trigger.filter.registersItself then (host.selfUnregister trigger).bus
          else host.bus).remove trigger.ticket := by
      unfold Host.unbind
      rw [there]
      dsimp only
      split
      · change ((host.keepBound ticket none).selfUnregister trigger).bus.remove _ = _
        rw [selfUnregister_bus, selfUnregister_bus]
        rfl
      · rfl
    refine ⟨?_, ?_, ?_, ?_, ?_⟩
    · rw [otherStep.config, step.config, matched.config]
    · rw [whole first found, whole second alsoFound, selfUnregister_bus, selfUnregister_bus,
        matched.bus]
    · rw [otherBound, bound, matched.bound]
    · rw [otherStep.commands, step.commands, matched.commands]
    · rw [registered_of_same otherStep.registrations, registered_of_same step.registrations,
        matched.registered]

/-! ## Commands -/

theorem Matches.of_commands {nextFirst nextSecond : Host} (matched : first.Matches second)
    (step : first.CommandStep nextFirst) (otherStep : second.CommandStep nextSecond)
    (commands : nextSecond.commands = nextFirst.commands)
    (registered : nextSecond.registered = nextFirst.registered) :
    nextFirst.Matches nextSecond where
  config := by rw [otherStep.config, step.config, matched.config]
  bus := by rw [otherStep.bus, step.bus, matched.bus]
  bound := by rw [otherStep.bound, step.bound, matched.bound]
  commands := commands
  registered := registered

/-- Hosts that are bound to the same answer in the same way when a command is registered. -/
theorem Matches.register_spec (matched : first.Matches second) (ticket : Nat) (command : Command) :
    (∃ failure, first.commands.register command = .error failure ∧
        (second.perform (.register ticket command)).commands = second.commands ∧
        (second.perform (.register ticket command)).registrations =
          Function.update second.registrations ticket
            { second.registrations ticket with refusal := some failure.text }) ∨
      ∃ table, first.commands.register command = .ok table ∧
        (second.perform (.register ticket command)).commands = table ∧
        (second.perform (.register ticket command)).registrations =
          Function.update second.registrations ticket
            { second.registrations ticket with registered := some command } := by
  rw [← matched.commands]
  exact (registerUnder_spec ticket command second).2

theorem Matches.register (matched : first.Matches second) (ticket : Nat) (command : Command) :
    (first.perform (.register ticket command)).Matches
      (second.perform (.register ticket command)) := by
  obtain ⟨step, outcome⟩ := registerUnder_spec ticket command first
  have otherStep := (registerUnder_spec ticket command second).1
  rcases outcome with ⟨_, refused, commands, registrations⟩ | ⟨_, taken, commands, registrations⟩
  · rcases matched.register_spec ticket command with ⟨_, _, otherCommands, others⟩ |
      ⟨_, otherTaken, _⟩
    · refine matched.of_commands step otherStep
        (otherCommands.trans (matched.commands.trans commands.symm)) ?_
      refine (registered_of_update others).trans (.trans ?_ (registered_of_update registrations).symm)
      exact congrArg (fun registered => Function.update registered ticket (registered ticket))
        matched.registered
    · cases refused.symm.trans otherTaken
  · rcases matched.register_spec ticket command with ⟨_, otherRefused, _⟩ |
      ⟨_, otherTaken, otherCommands, others⟩
    · cases taken.symm.trans otherRefused
    · obtain rfl := Except.ok.inj (taken.symm.trans otherTaken)
      refine matched.of_commands step otherStep (otherCommands.trans commands.symm) ?_
      refine (registered_of_update others).trans (.trans ?_ (registered_of_update registrations).symm)
      exact congrArg (fun registered => Function.update registered ticket (some command))
        matched.registered

theorem Matches.unregister (matched : first.Matches second) (ticket : Nat) :
    (first.perform (.unregister ticket)).Matches (second.perform (.unregister ticket)) := by
  change (first.unregisterUnder ticket).Matches (second.unregisterUnder ticket)
  have same : (second.registrations ticket).registered = (first.registrations ticket).registered :=
    congrFun matched.registered ticket
  cases found : (first.registrations ticket).registered with
  | none =>
    rw [unregisterUnder_of_none found, unregisterUnder_of_none (same.trans found)]
    exact matched
  | some command =>
    obtain ⟨step, commands, registrations⟩ := unregisterUnder_of_some found
    obtain ⟨otherStep, otherCommands, others⟩ := unregisterUnder_of_some (same.trans found)
    refine matched.of_commands step otherStep ?_ ?_
    · rw [otherCommands, commands, matched.commands]
    · rw [registered_of_update others, registered_of_update registrations, matched.registered]

/-- Hosts that are bound to the same stay so, whatever is done. -/
theorem Matches.perform (matched : first.Matches second) (job : Job) :
    (first.perform job).Matches (second.perform job) := by
  cases job with
  | bind script drafts => exact matched.bind script drafts
  | unbind ticket => exact matched.unbind ticket
  | register ticket command => exact matched.register ticket command
  | unregister ticket => exact matched.unregister ticket

/-- What a job does to the registrations depends on them and on what the host is bound to. -/
theorem Matches.register_registrations (matched : first.Matches second)
    (same : second.registrations = first.registrations) (ticket : Nat) (command : Command) :
    (second.perform (.register ticket command)).registrations =
      (first.perform (.register ticket command)).registrations := by
  obtain ⟨_, outcome⟩ := registerUnder_spec ticket command first
  rcases outcome with ⟨_, refused, _, registrations⟩ | ⟨_, taken, _, registrations⟩
  · rcases matched.register_spec ticket command with ⟨_, otherRefused, _, others⟩ |
      ⟨_, otherTaken, _⟩
    · obtain rfl := Except.error.inj (refused.symm.trans otherRefused)
      exact others.trans (same ▸ registrations.symm)
    · cases refused.symm.trans otherTaken
  · rcases matched.register_spec ticket command with ⟨_, otherRefused, _⟩ | ⟨_, _, _, others⟩
    · cases taken.symm.trans otherRefused
    · exact others.trans (same ▸ registrations.symm)

theorem Matches.perform_registrations (matched : first.Matches second)
    (same : second.registrations = first.registrations) (job : Job) :
    (second.perform job).registrations = (first.perform job).registrations := by
  cases job with
  | bind script drafts =>
    exact (perform_bind script drafts second).1.registrations.trans
      (same.trans (perform_bind script drafts first).1.registrations.symm)
  | unbind ticket =>
    change (second.unbind ticket).registrations = (first.unbind ticket).registrations
    cases found : first.bound ticket with
    | none => rw [unbind_of_none found, unbind_of_none (matched.bound ▸ found), same]
    | some trigger =>
      rw [(unbind_of_some found).1.registrations,
        (unbind_of_some (matched.bound ▸ found)).1.registrations, same]
  | register ticket command => exact matched.register_registrations same ticket command
  | unregister ticket =>
    change (second.unregisterUnder ticket).registrations =
      (first.unregisterUnder ticket).registrations
    cases found : (first.registrations ticket).registered with
    | none => rw [unregisterUnder_of_none found, unregisterUnder_of_none (same ▸ found), same]
    | some command =>
      rw [(unregisterUnder_of_some found).2.2, (unregisterUnder_of_some (same ▸ found)).2.2, same]

/-- Jobs come to the same on hosts that are bound to the same. -/
theorem Matches.ahead (matched : first.Matches second)
    (same : second.registrations = first.registrations) (jobs : List Job) :
    (first.ahead jobs).Matches (second.ahead jobs) ∧
      (second.ahead jobs).registrations = (first.ahead jobs).registrations := by
  induction jobs generalizing first second with
  | nil => exact ⟨matched, same⟩
  | cons job others ih => exact ih (matched.perform job) (matched.perform_registrations same job)

/-- To drain a queue is to do the jobs that have been deferred. -/
theorem Defers.drain {start host : Host} {jobs : List Job} (defers : start.Defers jobs host) :
    (start.ahead jobs).Matches (host.runPending .main).2 ∧
      (host.runPending .main).2.registrations = (start.ahead jobs).registrations ∧
      host.JobStep { (host.runPending .main).2 with queue := host.queue } := by
  let emptied : Host := { host with queue := host.queue.drain.2 }
  have matched : start.Matches emptied :=
    ⟨defers.config, defers.bus, defers.bound, defers.commands,
      registered_of_same defers.registrations⟩
  obtain ⟨ahead, registrations⟩ := matched.ahead defers.registrations jobs
  have step := performAll_step jobs emptied
  rw [runPending_main defers.queue]
  exact ⟨⟨ahead.config, ahead.bus, ahead.bound, ahead.commands, ahead.registered⟩, registrations,
    ⟨step.config, step.classes, step.functions, step.store, rfl, step.nextTicket⟩⟩

end Host

namespace Context.Tallies

variable {direct deferred : Context} {refused : List String} {name : String}

/-- What the direct run has declared, the deferred one has declared. -/
theorem declared (tallies : direct.Tallies refused deferred)
    (there : name ∈ direct.currentCommands) : name ∈ deferred.currentCommands := by
  rw [tallies.directNames, tallies.accepted] at there
  rw [tallies.deferredNames]
  exact (List.mem_filter.mp there).1

/-- What only the deferred run has declared, the host has refused. -/
theorem mem_refused (tallies : direct.Tallies refused deferred)
    (there : name ∈ deferred.currentCommands) (absent : name ∉ direct.currentCommands) :
    name ∈ refused := by
  rw [tallies.deferredNames] at there
  rw [tallies.directNames, tallies.accepted] at absent
  by_contra accepted
  exact absent (List.mem_filter.mpr ⟨there, decide_eq_true accepted⟩)

/-- Counting a new command in a context that counts those that it has declared. -/
theorem declareCommand_new {context : Context}
    (counts : context.currentCommands = context.info.commandNames)
    (new : name ∉ context.currentCommands) :
    ((context.declareCommand name).updateInfo (CommandStructure.count name)).currentCommands =
      context.info.commandNames ++ [name] := by
  have absent : context.currentCommands.contains name = false := by
    rw [← Bool.not_eq_true, List.contains_iff_mem]
    exact new
  simp only [Context.updateInfo, Context.declareCommand, absent]
  rw [← counts]
  rfl

/-- Both runs declare a new command. -/
theorem accept (tallies : direct.Tallies refused deferred)
    (new : name ∉ deferred.currentCommands) :
    ((direct.declareCommand name).updateInfo (CommandStructure.count name)).Tallies refused
      ((deferred.declareCommand name).updateInfo (CommandStructure.count name)) where
  directNames := declareCommand_new tallies.directNames fun there => new (tallies.declared there)
  deferredNames := declareCommand_new tallies.deferredNames new
  distinct := by
    rw [tallies.deferredNames] at new
    exact List.Nodup.append tallies.distinct (List.nodup_singleton name)
      (List.disjoint_singleton.mpr new)
  among := fun other member => List.mem_append_left _ (tallies.among other member)
  accepted := by
    have kept : name ∉ refused := by
      rw [tallies.deferredNames] at new
      exact fun member => new (tallies.among name member)
    change direct.info.commandNames ++ [name] = (deferred.info.commandNames ++ [name]).filter _
    rw [List.filter_append, ← tallies.accepted, List.filter_singleton, decide_eq_true kept]
    rfl
  count := by
    change deferred.info.commands + 1 = direct.info.commands + 1 + refused.length
    rw [tallies.count]
    omega

/-- The deferred run declares a command that the host refuses. -/
theorem refuse (tallies : direct.Tallies refused deferred)
    (new : name ∉ deferred.currentCommands) :
    direct.Tallies (refused ++ [name])
      ((deferred.declareCommand name).updateInfo (CommandStructure.count name)) where
  directNames := tallies.directNames
  deferredNames := declareCommand_new tallies.deferredNames new
  distinct := by
    rw [tallies.deferredNames] at new
    exact List.Nodup.append tallies.distinct (List.nodup_singleton name)
      (List.disjoint_singleton.mpr new)
  among := by
    intro other member
    change other ∈ deferred.info.commandNames ++ [name]
    exact (List.mem_append.mp member).elim
      (fun old => List.mem_append_left _ (tallies.among other old)) (List.mem_append_right _)
  accepted := by
    rw [tallies.deferredNames] at new
    change _ = (deferred.info.commandNames ++ [name]).filter _
    rw [List.filter_append, tallies.accepted, List.filter_singleton]
    have dropped : decide (name ∉ refused ++ [name]) = false :=
      decide_eq_false fun absent => absent (List.mem_append_right _ (List.mem_singleton_self name))
    rw [dropped, Bool.cond_false, List.append_nil]
    refine List.filter_congr fun other member => ?_
    have apart : other ≠ name := fun same => new (same ▸ member)
    refine decide_eq_decide.mpr (not_congr ?_)
    rw [List.mem_append, List.mem_singleton, or_iff_left apart]
  count := by
    change deferred.info.commands + 1 = direct.info.commands + (refused ++ [name]).length
    rw [tallies.count, List.length_append, List.length_singleton]
    omega

end Context.Tallies

/-! ## Runs that submit the same jobs -/

/-- Nothing has been registered or refused under a ticket, at the start, directly or by the jobs
that wait. -/
structure Workspace.Unused (start : Host) (jobs : List Job) (direct : Workspace) (ticket : Nat) :
    Prop where
  atStart : start.registrations ticket = {}
  done : direct.host.registrations ticket = {}
  waiting : (start.ahead jobs).registrations ticket = {}

/-- The jobs that the direct run has done since the start wait in the deferred one. They have not
used these tickets. -/
structure Workspace.Lags (start : Host) (jobs : List Job) (fresh : Nat → Prop)
    (direct deferred : Workspace) : Prop where
  defers : start.Defers jobs deferred.host
  matched : direct.host.Matches (start.ahead jobs)
  unused : ∀ ticket, fresh ticket → direct.Unused start jobs ticket

namespace Workspace.Lags

variable {start : Host} {jobs : List Job} {fresh : Nat → Prop}
  {direct deferred nextDirect nextDeferred : Workspace}

theorem mono {fewer : Nat → Prop} (lags : Lags start jobs fresh direct deferred)
    (fresher : ∀ ticket, fewer ticket → fresh ticket) :
    Lags start jobs fewer direct deferred :=
  ⟨lags.defers, lags.matched, fun ticket unused => lags.unused ticket (fresher ticket unused)⟩

/-- Both runs go on without submitting anything. -/
theorem of_idle (lags : Lags start jobs fresh direct deferred)
    (first : direct.host.Idle nextDirect.host) (second : deferred.host.Idle nextDeferred.host) :
    Lags start jobs fresh nextDirect nextDeferred where
  defers := ⟨second.config.trans lags.defers.config, second.bus.trans lags.defers.bus,
    second.bound.trans lags.defers.bound, second.commands.trans lags.defers.commands,
    second.registrations.trans lags.defers.registrations, second.queue ▸ lags.defers.queue⟩
  matched := ⟨lags.matched.config.trans first.config.symm, lags.matched.bus.trans first.bus.symm,
    lags.matched.bound.trans first.bound.symm, lags.matched.commands.trans first.commands.symm,
    lags.matched.registered.trans (Host.registered_of_same first.registrations).symm⟩
  unused := fun ticket isFresh =>
    have unused := lags.unused ticket isFresh
    ⟨unused.atStart, (congrFun first.registrations ticket).trans unused.done, unused.waiting⟩

end Workspace.Lags

open Workspace (Abreast Lags Results)

namespace CommandStructure

/-- The tickets that have not been used once a command has used its own. -/
def others (command : CommandStructure) (fresh : Nat → Prop) (ticket : Nat) : Prop :=
  fresh ticket ∧ ticket ≠ command.ticket

/-- The name under which a command is handed to the host when it is loaded. A command that cannot be
read is not handed over, nor is one whose name the script has declared already. -/
def handsOver? (command : CommandStructure) (workspace : Workspace) : Option String :=
  command.body.bind fun body =>
    (workspace.reading bodyEvent (·.readCommand command.header body)).1.toOption.bind fun loaded =>
      if workspace.context.currentCommands.contains loaded.name then none else some loaded.name

theorem handsOver?_eq (command : CommandStructure) (workspace : Workspace) :
    command.handsOver? workspace = command.body.bind fun body =>
      (workspace.commandFor bodyEvent command.header body).1.toOption.bind fun loaded =>
        if workspace.context.currentCommands.contains loaded.name then none
        else some loaded.name := by
  simp only [handsOver?, Workspace.reading_readCommand]

/-- How a command fares that is loaded in both runs, and handed over by the direct one under a name.
-/
inductive Fares (start : Host) (jobs : List Job) (fresh : Nat → Prop) (gap : Nat)
    (refused : List String) (command : CommandStructure) (handed : Option String) :
    Except Failure CommandStructure × Workspace → Except Failure CommandStructure × Workspace → Prop
  /-- It cannot be read, or its name is taken. -/
  | failed (failure other : Failure) {direct deferred : Workspace}
      (abreast : Abreast gap refused direct deferred)
      (lags : Lags start jobs (command.others fresh) direct deferred) :
      Fares start jobs fresh gap refused command handed (.error failure, direct)
        (.error other, deferred)
  | accepted (loaded : Command) {direct deferred : Workspace}
      (abreast : Abreast gap refused direct deferred)
      (lags : Lags start (jobs ++ [.register command.ticket loaded]) (command.others fresh) direct
        deferred)
      (accepted : (((start.ahead jobs).perform (.register command.ticket loaded)).registrations
        command.ticket).refusal = none) :
      Fares start jobs fresh gap refused command handed
        (.ok { command with name := some loaded.name }, direct)
        (.ok { command with name := some loaded.name }, deferred)
  /-- The host refuses it, of which the deferred run knows nothing. -/
  | refused (failure : Failure) (text : String) (loaded : Command) {direct deferred : Workspace}
      (abreast : Abreast gap (refused ++ [loaded.name]) direct deferred)
      (lags : Lags start (jobs ++ [.register command.ticket loaded]) (command.others fresh) direct
        deferred)
      (refusal : (((start.ahead jobs).perform (.register command.ticket loaded)).registrations
        command.ticket).refusal = some text)
      (hands : handed = some loaded.name) :
      Fares start jobs fresh gap refused command handed (.error failure, direct)
        (.ok { command with name := some loaded.name }, deferred)
  /-- It is accepted, but for the deferred run a command that is refused has its name. -/
  | hidden (failure : Failure) (name : String) (direct deferred : Workspace)
      (hides : name ∈ refused) (hands : handed = some name) :
      Fares start jobs fresh gap refused command handed
        (.ok { command with name := some name }, direct) (.error failure, deferred)

variable {start : Host} {jobs : List Job} {fresh : Nat → Prop} {gap : Nat} {refused : List String}
  {direct deferred : Workspace}

/-- Both runs have handed over a command under its own ticket. -/
theorem lags_register (command : CommandStructure) (loaded : Command) {host waiting : Host}
    (lags : Lags start jobs fresh direct deferred)
    (step : direct.host.CommandStep host)
    (waitStep : deferred.host.CommandStep { waiting with queue := deferred.host.queue })
    (hands : deferred.host.Hands [(command.ticket, loaded)] waiting)
    (commands : ((start.ahead jobs).perform (.register command.ticket loaded)).commands =
      host.commands)
    (registered : ((start.ahead jobs).perform (.register command.ticket loaded)).registered =
      host.registered)
    (others : ∀ ticket, ticket ≠ command.ticket →
      host.registrations ticket = direct.host.registrations ticket)
    (context otherContext : Context) :
    Lags start (jobs ++ [.register command.ticket loaded]) (command.others fresh)
      ⟨host, context⟩ ⟨waiting, otherContext⟩ := by
  have aheadStep := (Host.registerUnder_spec command.ticket loaded (start.ahead jobs)).1
  have aheadNow : start.ahead (jobs ++ [.register command.ticket loaded]) =
      (start.ahead jobs).perform (.register command.ticket loaded) := Host.ahead_append _ _ _
  refine ⟨⟨waitStep.config.trans lags.defers.config, waitStep.bus.trans lags.defers.bus,
    waitStep.bound.trans lags.defers.bound, hands.commands.trans lags.defers.commands,
    hands.registrations.trans lags.defers.registrations, ?_⟩, ?_, ?_⟩
  · rw [hands.queue, lags.defers.queue, List.map_append]
    rfl
  · rw [aheadNow]
    exact lags.matched.of_commands step aheadStep commands registered
  · rintro ticket ⟨isFresh, apart⟩
    have unused := lags.unused ticket isFresh
    refine ⟨unused.atStart, (others ticket apart).trans unused.done, ?_⟩
    rw [aheadNow]
    refine Host.perform_unused (fun binding put => apart ?_) unused.waiting
    exact congrArg Prod.fst (List.mem_singleton.mp put)

/-- A command whose name is new in both runs. -/
theorem submit_fares (command : CommandStructure) (loaded : Command)
    (abreast : Abreast gap refused direct deferred) (lags : Lags start jobs fresh direct deferred)
    (isFresh : fresh command.ticket) (new : loaded.name ∉ deferred.context.currentCommands) :
    Fares start jobs fresh gap refused command (some loaded.name)
      ((submit .main loaded command.ticket direct).1.map
          fun _ => { command with name := some loaded.name },
        (submit .main loaded command.ticket direct).2)
      ((submit .worker loaded command.ticket deferred).1.map
          fun _ => { command with name := some loaded.name },
        (submit .worker loaded command.ticket deferred).2) := by
  have unused := lags.unused command.ticket isFresh
  obtain ⟨host, step, outcome⟩ := submit_registers loaded command.ticket direct unused.done
  obtain ⟨waiting, waitStep, hands, submitted⟩ := submit_worker loaded command.ticket deferred
    (lags.defers.registrations ▸ unused.atStart)
  have alike : Workspace.Alike gap { direct with host } { deferred with host := waiting } :=
    { abreast.toAlike with
      classes := waitStep.classes.trans (abreast.classes.trans step.classes.symm)
      functions := waitStep.functions.trans (abreast.functions.trans step.functions.symm)
      store := waitStep.store.trans (abreast.store.trans step.store.symm)
      nextTicket := waitStep.nextTicket.trans (abreast.nextTicket.trans step.nextTicket.symm) }
  rcases outcome with ⟨failure, refusal, commands, registrations, same⟩ |
    ⟨table, taken, commands, registrations, same⟩
  · rcases lags.matched.register_spec command.ticket loaded with
      ⟨other, _, otherCommands, others⟩ | ⟨_, otherTaken, _⟩
    · rw [same, submitted]
      refine .refused _ other.text loaded ⟨{ alike with }, abreast.toTallies.refuse new⟩
        (lags_register command loaded lags step waitStep hands ?_ ?_ ?_ _ _)
        (by rw [others, Function.update_self]) rfl
      · exact otherCommands.trans (lags.matched.commands.trans commands.symm)
      · rw [Host.registered_of_same registrations, ← lags.matched.registered]
        refine (Host.registered_of_update others).trans ?_
        exact Function.update_eq_self ..
      · exact fun ticket _ => congrFun registrations ticket
    · cases refusal.symm.trans otherTaken
  · rcases lags.matched.register_spec command.ticket loaded with ⟨_, otherRefusal, _⟩ |
      ⟨_, otherTaken, otherCommands, others⟩
    · cases taken.symm.trans otherRefusal
    · obtain rfl := Except.ok.inj (taken.symm.trans otherTaken)
      rw [same, submitted]
      refine .accepted loaded ⟨{ alike with }, abreast.toTallies.accept new⟩
        (lags_register command loaded lags step waitStep hands ?_ ?_ ?_ _ _)
        (by rw [others, Function.update_self, unused.waiting])
      · exact otherCommands.trans commands.symm
      · refine (Host.registered_of_update others).trans
          (.trans ?_ (Host.registered_of_update registrations).symm)
        exact congrArg (fun registered => Function.update registered command.ticket (some loaded))
          lags.matched.registered
      · intro ticket apart
        rw [registrations, Function.update_of_ne apart]

/-- A command whose name is taken for the deferred run, but not for the direct one. -/
theorem submit_hidden (command : CommandStructure) (loaded : Command) (failure : Failure)
    (abreast : Abreast gap refused direct deferred) (lags : Lags start jobs fresh direct deferred)
    (isFresh : fresh command.ticket) (taken : loaded.name ∈ deferred.context.currentCommands)
    (new : loaded.name ∉ direct.context.currentCommands) :
    Fares start jobs fresh gap refused command (some loaded.name)
      ((submit .main loaded command.ticket direct).1.map
          fun _ => { command with name := some loaded.name },
        (submit .main loaded command.ticket direct).2)
      (.error failure, deferred) := by
  obtain ⟨host, step, ⟨_, _, commands, registrations, same⟩ | ⟨_, _, _, _, same⟩⟩ :=
    submit_registers loaded command.ticket direct (lags.unused command.ticket isFresh).done
  · rw [same]
    have alike : Workspace.Alike gap { direct with host } deferred :=
      { abreast.toAlike with
        classes := abreast.classes.trans step.classes.symm
        functions := abreast.functions.trans step.functions.symm
        store := abreast.store.trans step.store.symm
        nextTicket := abreast.nextTicket.trans step.nextTicket.symm }
    have idle : direct.host.Idle host :=
      ⟨step.config, step.bus, step.bound, commands, registrations, step.queue⟩
    have next : Lags start jobs fresh { direct with host } deferred :=
      lags.of_idle idle (.refl deferred.host)
    exact .failed _ _ ⟨alike, abreast.toTallies⟩ (next.mono fun _ => And.left)
  · rw [same]
    exact .hidden _ _ _ _ (abreast.toTallies.mem_refused taken new) rfl

/-- Loading a command in both runs. -/
theorem load_fares (command : CommandStructure) (abreast : Abreast gap refused direct deferred)
    (lags : Lags start jobs fresh direct deferred) (isFresh : fresh command.ticket) :
    Fares start jobs fresh gap refused command (command.handsOver? direct)
      (command.load .main direct) (command.load .worker deferred) := by
  rw [handsOver?_eq]
  unfold load
  cases command.body with
  | none => exact .failed _ _ abreast (lags.mono fun _ => And.left)
  | some body =>
    rw [Option.bind_some]
    dsimp only
    unfold loadBody
    rw [Workspace.reading_readCommand, Workspace.reading_readCommand, abreast.commandFor]
    generalize direct.commandFor bodyEvent command.header body = read
    obtain ⟨result, traces⟩ := read
    have left := abreast.leave traces
    have leftLags := lags.of_idle
      (.of_untouched (Workspace.Still.leave traces direct).untouched)
      (.of_untouched (Workspace.Still.leave traces deferred).untouched)
    cases result with
    | error failure => exact .failed _ _ left (leftLags.mono fun _ => And.left)
    | ok loaded =>
      have ready : Abreast gap refused
          ((direct.leave traces).inContext
            ({ · with commands := some direct.context.currentCommands }))
          ((deferred.leave traces).inContext
            ({ · with commands := some deferred.context.currentCommands })) :=
        { left with }
      have readyLags : Lags start jobs fresh
          ((direct.leave traces).inContext
            ({ · with commands := some direct.context.currentCommands }))
          ((deferred.leave traces).inContext
            ({ · with commands := some deferred.context.currentCommands })) :=
        leftLags.of_idle (.refl _) (.refl _)
      change Fares start jobs fresh gap refused command
        (if direct.context.currentCommands.contains loaded.name then none else some loaded.name)
        (if direct.context.currentCommands.contains loaded.name then _ else _)
        (if deferred.context.currentCommands.contains loaded.name then _ else _)
      by_cases taken : loaded.name ∈ deferred.context.currentCommands
      · have contained : deferred.context.currentCommands.contains loaded.name = true :=
          List.contains_iff_mem.mpr taken
        rw [if_pos contained]
        by_cases also : loaded.name ∈ direct.context.currentCommands
        · rw [if_pos (List.contains_iff_mem.mpr also), if_pos (List.contains_iff_mem.mpr also)]
          exact .failed _ _ ready (readyLags.mono fun _ => And.left)
        · rw [if_neg (mt List.contains_iff_mem.mp also), if_neg (mt List.contains_iff_mem.mp also)]
          exact submit_hidden command loaded _ ready readyLags isFresh taken also
      · have also : loaded.name ∉ direct.context.currentCommands :=
          fun there => taken (abreast.toTallies.declared there)
        rw [if_neg (mt List.contains_iff_mem.mp taken), if_neg (mt List.contains_iff_mem.mp also),
          if_neg (mt List.contains_iff_mem.mp also)]
        exact submit_fares command loaded ready readyLags isFresh taken

end CommandStructure

/-- Only commands submit something when they are loaded. -/
theorem Structure.load_idle (thread : Thread) (inner : Structure) (workspace : Workspace)
    (noCommand : inner.command? = none) :
    workspace.host.Idle (inner.load thread workspace).2.2.host := by
  cases inner with
  | options inner => exact .of_untouched (inner.apply_still workspace).untouched
  | function inner => exact .of_untouched (inner.load_untouched workspace).1
  | command inner => cases noCommand
  | custom inner => exact .of_untouched (inner.respond_still .load workspace).untouched
  | _ => exact .refl workspace.host

end ScriptBinding

import ScriptBinding.Proofs.StructureKinds

/-! # Calls that fail

A call of a structure either succeeds, or it leaves the script and the host as they were and only
says what went wrong. However it goes, the body that is being read when it returns is the one that
was being read before.

The one job that a call hands over and that can be refused is the registration of a command. The
refusal is taken note of at once on the main thread, and by settling the command when a worker has
handed it over. Until then it stays with the command, and a second load of the same command would
take it for its own.
-/

namespace ScriptBinding

/-- A workspace is as it was, but for notes, diagnostics and entries of the log, and for parts that
have been built empty. -/
structure Workspace.Restored (before after : Workspace) : Prop where
  config : after.host.config = before.host.config
  classes : after.host.classes = before.host.classes
  sink : after.host.sink = before.host.sink
  bus : after.host.bus = before.host.bus
  commands : after.host.commands = before.host.commands
  functions : after.host.functions = before.host.functions
  store : after.host.store = before.host.store
  queue : after.host.queue = before.host.queue
  bound : after.host.bound = before.host.bound
  registrations : after.host.registrations = before.host.registrations
  nextTicket : after.host.nextTicket = before.host.nextTicket
  effects : after.host.effects = before.host.effects
  script : after.context.script = before.context.script
  inHand : after.context.sectionInHand.getD {} = before.context.sectionInHand.getD {}
  options : after.context.currentOptions = before.context.currentOptions
  aliases : after.context.currentAliases = before.context.currentAliases
  declared : after.context.currentCommands = before.context.currentCommands
  drafts : after.context.currentDrafts = before.context.currentDrafts
  events : after.context.events = before.context.events
  info : after.context.info = before.context.info
  calls : after.context.calls = before.context.calls

namespace Workspace.Restored

theorem refl (workspace : Workspace) : Restored workspace workspace := by
  constructor <;> rfl

theorem leave (traces : Traces) (workspace : Workspace) :
    Restored workspace (workspace.leave traces) := by
  constructor <;> rfl

theorem note (texts : List String) (workspace : Workspace) :
    Restored workspace (workspace.inHost (·.note texts)) := by
  constructor <;> rfl

/-- Building the parts that an event and a command look at restores the workspace. -/
theorem built (workspace : Workspace) :
    Restored workspace (workspace.inContext
        ({ · with sectionInHand := some (workspace.context.sectionInHand.getD {}) })) ∧
      Restored workspace (workspace.inContext
        ({ · with commands := some workspace.context.currentCommands })) := by
  constructor <;> constructor <;> rfl

theorem trans {first second third : Workspace} (before : Restored first second)
    (after : Restored second third) : Restored first third where
  config := after.config.trans before.config
  classes := after.classes.trans before.classes
  sink := after.sink.trans before.sink
  bus := after.bus.trans before.bus
  commands := after.commands.trans before.commands
  functions := after.functions.trans before.functions
  store := after.store.trans before.store
  queue := after.queue.trans before.queue
  bound := after.bound.trans before.bound
  registrations := after.registrations.trans before.registrations
  nextTicket := after.nextTicket.trans before.nextTicket
  effects := after.effects.trans before.effects
  script := after.script.trans before.script
  inHand := after.inHand.trans before.inHand
  options := after.options.trans before.options
  aliases := after.aliases.trans before.aliases
  declared := after.declared.trans before.declared
  drafts := after.drafts.trans before.drafts
  events := after.events.trans before.events
  info := after.info.trans before.info
  calls := after.calls.trans before.calls

end Workspace.Restored

open Workspace (Restored)

/-- What a call leaves: the events that bodies are read for, and unless it succeeds everything
else. -/
structure Workspace.Guarded (success : Prop) (before after : Workspace) : Prop where
  events : after.context.events = before.context.events
  restored : ¬success → Restored before after

namespace Workspace.Guarded

variable {success : Prop} {before middle after : Workspace}

theorem of_restored (restored : Restored before after) : Guarded success before after :=
  ⟨restored.events, fun _ => restored⟩

theorem of_success (events : after.context.events = before.context.events) (succeeded : success) :
    Guarded success before after :=
  ⟨events, fun failed => absurd succeeded failed⟩

theorem after_restored (first : Restored before middle) (second : Guarded success middle after) :
    Guarded success before after :=
  ⟨second.events.trans first.events, fun failed => first.trans (second.restored failed)⟩

theorem mono {other : Prop} (weaker : success → other) (guarded : Guarded success before after) :
    Guarded other before after :=
  ⟨guarded.events, fun failed => guarded.restored fun succeeded => failed (weaker succeeded)⟩

end Workspace.Guarded

open Workspace (Guarded)

/-! ## Taking headers -/

theorem VariablesStructure.init_events (body : Section) (defaults : VariablesStructure)
    (workspace : Workspace) :
    (defaults.init body workspace).2.context.events = workspace.context.events := by
  unfold init
  generalize (body.convertToEntries 0 "=").nodes = nodes
  induction nodes generalizing defaults workspace with
  | nil => rfl
  | cons node others ih =>
    rw [List.foldl_cons, ih]
    unfold initNode
    dsimp only
    split
    · next failure _ =>
      rw [Workspace.report_eq_leave]
      rfl
    · rfl

namespace EventStructure

/-- What taking a header comes to for an event. Nothing lasts, or the header is taken, the body has
been read, and its trigger waits under the ticket of the event, with the priority that the header
gives. -/
inductive Answers (header : MatchResult) (body : Section) (event : EventStructure)
    (workspace : Workspace) : Except Failure Bool × EventStructure × Workspace → Prop
  | nothing (result : Except Failure Bool) (taken : EventStructure) (after : Workspace)
      (restored : Restored workspace after) :
      Answers header body event workspace (result, taken, after)
  | waits (info : EventInfo) (unused filter : EventFilter) (items : List Item)
      (given : Option EventPriority) (rest : List Char) (notes : List String)
      (taken : EventStructure) (after : Workspace)
      (inHand : ((workspace.context.sectionInHand.getD {}).info.bind (·.event)) = some info)
      (isUnused : event.unused = some unused)
      (priority : readPriority unused body.line (stripOn (Text.trimChars header.expr.toList)) =
        .ok (given, rest))
      (starts : unused.start { header with expr := String.ofList rest } = (true, filter, notes))
      (loads : filter.loads = true)
      (read : (Item.readBody (workspace.scopeFor (bodyEvent info)) body).1 = .ok items)
      (restored : Restored (workspace.inContext fun context =>
        (context.addDraft ⟨event.ticket, info, filter, body.line, items,
          given.or event.priority⟩).updateInfo
            fun info => { info with triggers := info.triggers + 1 }) after) :
      Answers header body event workspace (.ok true, taken, after)

theorem buffer_cases (info : EventInfo) (filter : EventFilter) (body : Section)
    (event : EventStructure) (workspace : Workspace) :
    (∃ failure, (buffer info filter body event workspace).1 = .error failure ∧
        Restored workspace (buffer info filter body event workspace).2) ∨
      ∃ items, (Item.readBody (workspace.scopeFor (bodyEvent info)) body).1 = .ok items ∧
        (buffer info filter body event workspace).1 = .ok true ∧
        Restored (workspace.inContext fun context =>
            (context.addDraft ⟨event.ticket, info, filter, body.line, items,
              event.priority⟩).updateInfo
                fun info => { info with triggers := info.triggers + 1 })
          (buffer info filter body event workspace).2 := by
  unfold buffer
  rw [Workspace.reading_readBody]
  cases (Item.readBody (workspace.scopeFor (bodyEvent info)) body).1 with
  | error failure => exact Or.inl ⟨failure, rfl, .leave _ workspace⟩
  | ok items =>
    refine Or.inr ⟨items, rfl, ?_⟩
    dsimp only
    split
    all_goals
      refine ⟨rfl, ?_⟩
      constructor <;> rfl

/-- The section that is in hand may have to be built first. -/
theorem init_inHand (header : MatchResult) (body : Section) (event : EventStructure)
    (workspace : Workspace) :
    (∃ failure after, Restored workspace after ∧
        event.init header body workspace = (.error failure, event, after)) ∨
      ∃ info, ((workspace.context.sectionInHand.getD {}).info.bind (·.event)) = some info ∧
        event.init header body workspace = initWith info header body event
          (workspace.inContext
            ({ · with sectionInHand := some (workspace.context.sectionInHand.getD {}) })) := by
  have inHand := (Restored.built workspace).1
  unfold init
  dsimp only
  split
  · exact Or.inl ⟨_, _, inHand, rfl⟩
  · next descriptor isDescriptor =>
    split
    · exact Or.inl ⟨_, _, inHand, rfl⟩
    · next info isInfo =>
      refine Or.inr ⟨info, ?_, rfl⟩
      change (workspace.context.sectionInHand.getD {}).info = some descriptor at isDescriptor
      rw [isDescriptor, Option.bind_some, isInfo]

theorem init_answers (header : MatchResult) (body : Section) (event : EventStructure)
    (workspace : Workspace) :
    Answers header body event workspace (event.init header body workspace) := by
  rcases init_inHand header body event workspace with ⟨failure, after, restored, same⟩ |
    ⟨info, inHand, same⟩
  · rw [same]
    exact .nothing _ _ _ restored
  · rw [same]
    have built := (Restored.built workspace).1
    generalize hands : workspace.inContext
      ({ · with sectionInHand := some (workspace.context.sectionInHand.getD {}) }) = ready at *
    unfold initWith
    split
    · exact .nothing _ _ _ built
    · next unused isUnused =>
      dsimp only
      split
      · exact .nothing _ _ _ built
      · next given rest priority =>
        unfold start
        cases started : unused.start { header with expr := String.ofList rest } with
        | mk taken outcome =>
          obtain ⟨filter, notes⟩ := outcome
          have noted := built.trans (.note notes ready)
          dsimp only
          split
          · next isTaken =>
            split
            · next loads =>
              rcases buffer_cases info filter body
                  { event with
                    unused := none
                    priority := given.or event.priority
                    filter := some filter }
                  (ready.inHost (·.note notes)) with ⟨failure, same, restored⟩ |
                ⟨items, read, same, restored⟩
              · rw [same]
                exact .nothing _ _ _ (noted.trans restored)
              · rw [same]
                subst isTaken hands
                refine .waits info unused filter items given rest notes _ _ inHand isUnused
                  priority started loads read ?_
                refine Restored.trans ?_ restored
                constructor <;> rfl
            · exact .nothing _ _ _ noted
          · exact .nothing _ _ _ noted

theorem init_guarded (header : MatchResult) (body : Section) (event : EventStructure)
    (workspace : Workspace) :
    Guarded ((event.init header body workspace).1 = .ok true) workspace
      (event.init header body workspace).2.2 := by
  have answers := event.init_answers header body workspace
  generalize event.init header body workspace = answer at *
  cases answers with
  | nothing _ _ _ restored => exact .of_restored restored
  | waits _ _ _ _ _ _ _ _ _ _ _ _ _ _ _ restored => exact .of_success restored.events rfl

end EventStructure

/-! ## Functions -/

namespace FunctionStructure

/-- Preloading a function fails and changes nothing, or declares a signature. -/
theorem preload_cases (function : FunctionStructure) (workspace : Workspace) :
    (∃ failure, function.preload workspace = (.error failure, workspace)) ∨
      ∃ signature functions, workspace.host.functions.declare signature = .ok functions ∧
        function.preload workspace = (.ok { function with signature := some signature },
          workspace.inHost ({ · with functions })) := by
  unfold preload
  split
  · exact Or.inl ⟨_, rfl⟩
  · dsimp only
    split
    · exact Or.inl ⟨_, rfl⟩
    · next signature _ =>
      split
      · exact Or.inl ⟨_, rfl⟩
      · next functions declared => exact Or.inr ⟨signature, functions, declared, rfl⟩

/-- Loading a function fails and leaves traces only, or reads the body and gives it to the
signature. -/
theorem load_cases (function : FunctionStructure) (workspace : Workspace) :
    (∃ failure traces, function.load workspace = (.error failure, workspace.leave traces)) ∨
      ∃ body signature items traces functions, function.body = some body ∧
        function.signature = some signature ∧
        (Item.readBody (workspace.scopeFor bodyEvent) body).1 = .ok items ∧
        workspace.host.functions.attach ⟨signature, items⟩ = .ok functions ∧
        function.load workspace = (.ok (),
          ((workspace.leave traces).inHost ({ · with functions })).inContext
            (·.updateInfo fun info => { info with functions := info.functions + 1 })) := by
  have untraced (failure : Failure) : ∃ failure' traces,
      ((.error failure : Except Failure Unit), workspace) =
        (.error failure', workspace.leave traces) :=
    ⟨failure, {}, by rw [Workspace.leave_empty]⟩
  unfold load
  split
  · exact Or.inl (untraced _)
  · next body isBody =>
    split
    · exact Or.inl (untraced _)
    · next signature declared =>
      unfold loadBody
      rw [Workspace.reading_readBody]
      cases read : (Item.readBody (workspace.scopeFor bodyEvent) body).1 with
      | error failure => exact Or.inl ⟨failure, _, rfl⟩
      | ok items =>
        dsimp only
        split
        · exact Or.inl ⟨_, _, rfl⟩
        · next functions attached =>
          exact Or.inr ⟨body, signature, items, _, functions, isBody, declared, read, attached,
            rfl⟩

theorem preload_guarded (function : FunctionStructure) (workspace : Workspace) :
    Guarded (∃ taken, (function.preload workspace).1 = .ok taken) workspace
      (function.preload workspace).2 := by
  rcases function.preload_cases workspace with ⟨_, same⟩ | ⟨_, _, _, same⟩
  · rw [same]
    exact .of_restored (.refl workspace)
  · rw [same]
    exact .of_success rfl ⟨_, rfl⟩

theorem load_guarded (function : FunctionStructure) (workspace : Workspace) :
    Guarded ((function.load workspace).1 = .ok ()) workspace (function.load workspace).2 := by
  rcases function.load_cases workspace with ⟨_, _, same⟩ | ⟨_, _, _, _, _, _, _, _, _, same⟩
  · rw [same]
    exact .of_restored (.leave _ workspace)
  · rw [same]
    exact .of_success rfl rfl

end FunctionStructure

/-! ## Commands -/

namespace CommandStructure

/-- Handing a command over leaves the events alone. If it fails, the refusal is that of the command
itself, unless an earlier one waited, and everything is as it was. -/
theorem submit_guarded (thread : Thread) (command : Command) (ticket : Nat) (workspace : Workspace)
    (settled : (workspace.host.registrations ticket).refusal = none) :
    Guarded ((submit thread command ticket workspace).1 = .ok ()) workspace
      (submit thread command ticket workspace).2 := by
  unfold submit Workspace.submit
  cases thread with
  | worker =>
    have none : ((workspace.host.submit .worker (.register ticket command)).takeRefusal
        ticket).1 = none := settled
    dsimp only [Workspace.inHost]
    rw [none]
    exact .of_success rfl rfl
  | main =>
    obtain ⟨step, outcome⟩ := Host.registerUnder_spec ticket command workspace.host
    obtain ⟨takeStep, refusal, takeCommands, takeRegistrations⟩ :=
      Host.takeRefusal_spec ticket (workspace.host.registerUnder ticket command)
    have effects : (workspace.host.registerUnder ticket command).effects = workspace.host.effects ∧
        (workspace.host.registerUnder ticket command).sink = workspace.host.sink := by
      unfold Host.registerUnder Host.registerCommand Host.touchCommands
      dsimp only
      cases workspace.host.commands.register command <;> exact ⟨rfl, rfl⟩
    have submitted : workspace.host.submit .main (.register ticket command) =
        workspace.host.registerUnder ticket command :=
      Host.submit_main (.register ticket command) workspace.host
    dsimp only [Workspace.inHost]
    rw [submitted, refusal]
    rcases outcome with ⟨failure, _, commands, registrations⟩ | ⟨_, _, _, registrations⟩
    · rw [registrations, Function.update_self] at takeRegistrations ⊢
      have kept : ({ workspace.host.registrations ticket with refusal := none } : Registration) =
          workspace.host.registrations ticket := by
        rw [← settled]
      have same : ((workspace.host.registerUnder ticket command).takeRefusal
          ticket).2.registrations = workspace.host.registrations := by
        rw [takeRegistrations, Function.update_idem, kept, Function.update_eq_self]
      refine .of_restored ?_
      exact
        { config := takeStep.config.trans step.config
          classes := takeStep.classes.trans step.classes
          sink := effects.2
          bus := takeStep.bus.trans step.bus
          commands := takeCommands.trans commands
          functions := takeStep.functions.trans step.functions
          store := takeStep.store.trans step.store
          queue := takeStep.queue.trans step.queue
          bound := takeStep.bound.trans step.bound
          registrations := same
          nextTicket := takeStep.nextTicket.trans step.nextTicket
          effects := effects.1
          script := rfl
          inHand := rfl
          options := rfl
          aliases := rfl
          declared := rfl
          drafts := rfl
          events := rfl
          info := rfl
          calls := rfl }
    · rw [registrations, Function.update_self]
      dsimp only
      rw [settled]
      exact .of_success rfl rfl

theorem submit_events (thread : Thread) (command : Command) (ticket : Nat)
    (workspace : Workspace) :
    (submit thread command ticket workspace).2.context.events = workspace.context.events := by
  unfold submit
  dsimp only
  split <;> rfl

/-- Loading a command fails and restores the workspace, or reads the command and hands it over. -/
theorem load_reads (thread : Thread) (command : CommandStructure) (workspace : Workspace) :
    (∃ failure after, Restored workspace after ∧
        command.load thread workspace = (.error failure, after)) ∨
      ∃ body loaded after, command.body = some body ∧
        (workspace.commandFor bodyEvent command.header body).1 = .ok loaded ∧
        Restored workspace after ∧ command.load thread workspace =
          ((submit thread loaded command.ticket after).1.map
              fun _ => { command with name := some loaded.name },
            (submit thread loaded command.ticket after).2) := by
  unfold load
  split
  · exact Or.inl ⟨_, _, .refl workspace, rfl⟩
  · next body isBody =>
    unfold loadBody
    rw [Workspace.reading_readCommand]
    cases read : (workspace.commandFor bodyEvent command.header body).1 with
    | error failure => exact Or.inl ⟨_, _, .leave _ workspace, rfl⟩
    | ok loaded =>
      have built := (Restored.leave _ workspace).trans
        (Restored.built (workspace.leave (workspace.commandFor bodyEvent command.header body).2)).2
      dsimp only
      split
      · exact Or.inl ⟨_, _, built, rfl⟩
      · exact Or.inr ⟨body, loaded, _, isBody, read, built, rfl⟩

theorem load_guarded (thread : Thread) (command : CommandStructure) (workspace : Workspace) :
    (command.load thread workspace).2.context.events = workspace.context.events ∧
      ((workspace.host.registrations command.ticket).refusal = none →
        Guarded (∃ taken, (command.load thread workspace).1 = .ok taken) workspace
          (command.load thread workspace).2) := by
  rcases command.load_reads thread workspace with ⟨_, after, restored, same⟩ |
    ⟨_, loaded, after, _, _, restored, same⟩
  · rw [same]
    exact ⟨restored.events, fun _ => .of_restored restored⟩
  · rw [same]
    refine ⟨(submit_events thread loaded command.ticket after).trans restored.events, ?_⟩
    intro settled
    rw [← restored.registrations] at settled
    refine .after_restored restored ?_
    refine .mono ?_ (submit_guarded thread loaded command.ticket after settled)
    intro taken
    exact ⟨{ command with name := some loaded.name }, by rw [taken]; rfl⟩

end CommandStructure

/-! ## All calls -/

/-- A call that takes a structure through a phase of a load or of an unload. -/
inductive Callback where
  | init (header : MatchResult) (body : Section)
  | preload
  | load
  | afterLoad
  | unload

/-- A call succeeded, and if it was to take a header it took it. -/
def Outcome.succeeded : Outcome Bool → Bool
  | done value => value
  | _ => false

namespace Structure

/-- Make a call of a structure. Only a header can be rejected: the other calls succeed or fail. -/
def answer (thread : Thread) (inner : Structure) (workspace : Workspace) :
    Callback → Outcome Bool × Structure × Workspace
  | .init header body => inner.init header body workspace
  | .preload => accepted (inner.preload workspace)
  | .load => accepted (inner.load thread workspace)
  | .afterLoad => accepted (inner.afterLoad workspace)
  | .unload => accepted (inner.unload thread workspace)
where
  /-- The success of a call that rejects nothing. -/
  accepted (result : Outcome Unit × Structure × Workspace) : Outcome Bool × Structure × Workspace :=
    (result.1.map fun _ => true, result.2)

/-- The structure is one of the host's own, not one from outside. -/
def isBuiltIn : Structure → Bool
  | custom _ => false
  | _ => true

/-- No earlier refusal waits to be taken note of when a command is loaded. -/
def Settled (inner : Structure) (workspace : Workspace) (callback : Callback) : Prop :=
  callback = .load → ∀ command ∈ inner.command?,
    (workspace.host.registrations command.ticket).refusal = none

variable {inner : Structure}

theorem init_guarded (header : MatchResult) (body : Section) (workspace : Workspace)
    (builtIn : inner.isBuiltIn = true) :
    Guarded ((inner.init header body workspace).1 = .done true) workspace
      (inner.init header body workspace).2.2 := by
  cases inner with
  | options inner =>
    refine .of_success ?_ rfl
    change (workspace.reportAll _).context.events = _
    rw [Workspace.reportAll_eq_leave]
    rfl
  | aliases =>
    refine .of_success ?_ rfl
    change (Workspace.reportAll _ _).context.events = _
    rw [Workspace.reportAll_eq_leave]
    rfl
  | defaults inner => exact .of_success (inner.init_events body workspace) rfl
  | function inner =>
    dsimp only [init]
    split <;> exact .of_restored (.refl workspace)
  | command inner =>
    dsimp only [init]
    split <;> exact .of_restored (.refl workspace)
  | event inner =>
    refine .mono ?_ (inner.init_guarded header body workspace)
    intro taken
    dsimp only [init]
    rw [taken]
    rfl
  | custom inner => cases builtIn

theorem preload_guarded (workspace : Workspace) (builtIn : inner.isBuiltIn = true) :
    Guarded ((inner.preload workspace).1 = .done ()) workspace (inner.preload workspace).2.2 := by
  cases inner with
  | function inner =>
    have guarded := inner.preload_guarded workspace
    dsimp only [preload]
    generalize inner.preload workspace = answered at *
    obtain ⟨result, after⟩ := answered
    cases result with
    | ok taken => exact .of_success guarded.events rfl
    | error failure => exact guarded.mono nofun
  | custom inner => cases builtIn
  | options inner => exact .of_success rfl rfl
  | aliases => exact .of_success rfl rfl
  | defaults inner => exact .of_success rfl rfl
  | command inner => exact .of_success rfl rfl
  | event inner => exact .of_success rfl rfl

theorem load_guarded (thread : Thread) (workspace : Workspace) (builtIn : inner.isBuiltIn = true) :
    (inner.load thread workspace).2.2.context.events = workspace.context.events ∧
      (inner.Settled workspace .load →
        Guarded ((inner.load thread workspace).1 = .done ()) workspace
          (inner.load thread workspace).2.2) := by
  cases inner with
  | function inner =>
    have guarded := inner.load_guarded workspace
    refine ⟨guarded.events, fun _ => guarded.mono ?_⟩
    intro taken
    dsimp only [load]
    rw [taken]
    rfl
  | command inner =>
    obtain ⟨events, guarded⟩ := inner.load_guarded thread workspace
    dsimp only [load]
    generalize inner.load thread workspace = answered at *
    obtain ⟨result, after⟩ := answered
    cases result with
    | ok taken => exact ⟨events, fun _ => .of_success events rfl⟩
    | error failure => exact ⟨events, fun settled => (guarded (settled rfl inner rfl)).mono nofun⟩
  | custom inner => cases builtIn
  | options inner => exact ⟨rfl, fun _ => .of_success rfl rfl⟩
  | aliases => exact ⟨rfl, fun _ => .of_success rfl rfl⟩
  | defaults inner => exact ⟨rfl, fun _ => .of_success rfl rfl⟩
  | event inner => exact ⟨rfl, fun _ => .of_success rfl rfl⟩

theorem afterLoad_guarded (workspace : Workspace) (builtIn : inner.isBuiltIn = true) :
    Guarded ((inner.afterLoad workspace).1 = .done ()) workspace
      (inner.afterLoad workspace).2.2 := by
  cases inner with
  | custom inner => cases builtIn
  | _ => exact .of_success rfl rfl

theorem unload_guarded (thread : Thread) (workspace : Workspace)
    (builtIn : inner.isBuiltIn = true) :
    Guarded ((inner.unload thread workspace).1 = .done ()) workspace
      (inner.unload thread workspace).2.2 := by
  cases inner with
  | custom inner => cases builtIn
  | function inner =>
    refine .of_success ?_ rfl
    dsimp only [unload, FunctionStructure.unload]
    split <;> rfl
  | _ => exact .of_success rfl rfl

/-- However a call of a structure of the host's own goes, the events that bodies are read for are
those from before. One that fails or rejects its header leaves everything as it was, but for what it
says about that; a command may be loaded when its last refusal has been taken note of. -/
theorem answer_restores (thread : Thread) (workspace : Workspace) (callback : Callback)
    (builtIn : inner.isBuiltIn = true) :
    (inner.answer thread workspace callback).2.2.context.events = workspace.context.events ∧
      (inner.Settled workspace callback →
        (inner.answer thread workspace callback).1.succeeded = false →
          workspace.Restored (inner.answer thread workspace callback).2.2) := by
  have accepted {result : Outcome Unit × Structure × Workspace}
      (guarded : Guarded (result.1 = .done ()) workspace result.2.2)
      (failed : (answer.accepted result).1.succeeded = false) : workspace.Restored result.2.2 := by
    refine guarded.restored fun done => ?_
    rw [answer.accepted, done] at failed
    cases failed
  cases callback with
  | init header body =>
    have guarded := init_guarded header body workspace builtIn
    refine ⟨guarded.events, fun _ failed => guarded.restored fun done => ?_⟩
    rw [answer, done] at failed
    cases failed
  | preload =>
    have guarded := preload_guarded workspace builtIn
    exact ⟨guarded.events, fun _ => accepted guarded⟩
  | load =>
    obtain ⟨events, guarded⟩ := load_guarded thread workspace builtIn
    exact ⟨events, fun settled => accepted (guarded settled)⟩
  | afterLoad =>
    have guarded := afterLoad_guarded workspace builtIn
    exact ⟨guarded.events, fun _ => accepted guarded⟩
  | unload =>
    have guarded := unload_guarded thread workspace builtIn
    exact ⟨guarded.events, fun _ => accepted guarded⟩

/-! ## A command that is loaded more than once -/

/-- A command whose body is one line. -/
def greeting : Structure :=
  .command
    { ticket := 0
      header := "/hello"
      body := some ⟨"command /hello", 1, [.nested "trigger" 2 [.simple "send \"hello\"" 3]]⟩ }

/-- A worker moves on to a load of a file. -/
def greetingFile (generation : Nat) (workspace : Workspace) : Workspace :=
  workspace.setScript .worker (some ⟨⟨"hello.sk"⟩, generation⟩)

/-- A worker loads the command for a load of a file, and the main thread does the job. -/
def greeted (generation : Nat) (workspace : Workspace) : Workspace :=
  (greeting.load .worker (greetingFile generation workspace)).2.2.inHost fun host =>
    (host.runPending .main).2

/-- On the main thread a second load is refused at once, and nothing changes. -/
theorem greeting_again_restores :
    greeting.isBuiltIn = true ∧ greeting.Settled (greetingFile 2 (greeted 1 {})) .load ∧
      (greeting.answer .main (greetingFile 2 (greeted 1 {})) .load).1.succeeded = false ∧
      (greetingFile 2 (greeted 1 {})).Restored
        (greeting.answer .main (greetingFile 2 (greeted 1 {})) .load).2.2 := by
  have settled : greeting.Settled (greetingFile 2 (greeted 1 {})) .load := by
    rintro - _ ⟨⟩
    decide +kernel
  have failed : (greeting.answer .main (greetingFile 2 (greeted 1 {})) .load).1.succeeded =
      false := by
    decide +kernel
  exact ⟨rfl, settled, failed,
    (answer_restores .main (greetingFile 2 (greeted 1 {})) .load rfl).2 settled failed⟩

/-- A second load by a worker is refused when the main thread does its job. A third one fails for
that refusal, and its own job is in the queue all the same. -/
theorem greeting_thrice_queues :
    greeting.isBuiltIn = true ∧
      (greeting.answer .worker (greetingFile 3 (greeted 2 (greeted 1 {}))) .load).1.succeeded =
        false ∧
      (greetingFile 3 (greeted 2 (greeted 1 {}))).host.queue.pending = 0 ∧
      (greeting.answer .worker (greetingFile 3 (greeted 2 (greeted 1 {})))
        .load).2.2.host.queue.pending = 1 := by
  decide +kernel

end Structure

end ScriptBinding

import ScriptBinding.Proofs.FunctionOwnership
import ScriptBinding.Proofs.Jobs
import ScriptBinding.Proofs.Locality

/-! # What structures hold on to

An event and a command hold on to the host by their tickets, a function by the signature it has
declared. No phase gives a structure another ticket, and a signature is always of the script that
was current when it was declared.
-/

namespace ScriptBinding

namespace Structure

/-- The event that a structure is, if it is one. -/
def event? : Structure → Option EventStructure
  | event inner => some inner
  | _ => none

/-- The command that a structure is, if it is one. -/
def command? : Structure → Option CommandStructure
  | command inner => some inner
  | _ => none

/-- The ticket under which a structure holds on to the host. -/
def ticket? : Structure → Option Nat
  | event inner => some inner.ticket
  | command inner => some inner.ticket
  | _ => none

/-- The ticket of an event. -/
def eventTicket? (inner : Structure) : Option Nat :=
  inner.event?.map EventStructure.ticket

/-- The ticket of a command. -/
def commandTicket? (inner : Structure) : Option Nat :=
  inner.command?.map CommandStructure.ticket

/-- A signature that the structure has declared is of this script. -/
def DeclaresIn (script : Script) : Structure → Prop
  | function inner => ∀ signature ∈ inner.signature, signature.script = script
  | _ => True

theorem ticket?_eq (inner : Structure) :
    inner.ticket? = inner.eventTicket?.or inner.commandTicket? := by
  cases inner <;> rfl

theorem commandTicket?_eq (inner : Structure) :
    inner.commandTicket? = if inner.event?.isSome then none else inner.ticket? := by
  cases inner <;> rfl

theorem ticket?_of_event? {inner : Structure} {event : EventStructure}
    (found : inner.event? = some event) : inner.ticket? = some event.ticket := by
  cases inner <;> cases found
  rfl

theorem ticket?_of_command? {inner : Structure} {command : CommandStructure}
    (found : inner.command? = some command) : inner.ticket? = some command.ticket := by
  cases inner <;> cases found
  rfl

/-! ## Preloading -/

/-- What preloading does to a structure and to the functions. -/
structure Preloads (script : Script) (inner : Structure) (before : Workspace)
    (result : Outcome Unit × Structure × Workspace) : Prop where
  ticket : result.2.1.ticket? = inner.ticket?
  event : result.2.1.event? = inner.event?
  command : result.2.1.command? = inner.command?
  declares : result.2.1.DeclaresIn script
  functions : FunctionTable.GrownBy script before.host.functions result.2.2.host.functions

theorem read_script {classes : ClassRegistry} {script : Script} {text : String} {line : Nat}
    {signature : Signature} (read : Signature.read classes script text line = .ok signature) :
    signature.script = script := by
  unfold Signature.read at read
  split at read
  · cases read
  · dsimp only at read
    split at read
    · cases read
    · split at read
      · cases read
      · cases Except.ok.inj read
        rfl

/-- Preloading a function fails and changes nothing, or declares a signature of the script. -/
theorem preload_function (function : FunctionStructure) {script : Script} {workspace : Workspace}
    (current : workspace.context.script = some script) :
    (∃ failure, function.preload workspace = (.error failure, workspace)) ∨
      ∃ signature functions, signature.script = script ∧
        workspace.host.functions.declare signature = .ok functions ∧
        function.preload workspace = (.ok { function with signature := some signature },
          workspace.inHost ({ · with functions })) := by
  unfold FunctionStructure.preload
  simp only [current]
  cases read : Signature.read workspace.host.classes script function.header
      ((function.body.map Section.line).getD 0) with
  | error failure => exact Or.inl ⟨failure, rfl⟩
  | ok signature =>
    cases declared : workspace.host.functions.declare signature with
    | error failure => exact Or.inl ⟨failure, by simp only [declared]⟩
    | ok functions =>
      exact Or.inr ⟨signature, functions, read_script read, declared, by simp only [declared]⟩

theorem preload_spec (inner : Structure) {script : Script} {workspace : Workspace}
    (current : workspace.context.script = some script) (declares : inner.DeclaresIn script) :
    Preloads script inner workspace (inner.preload workspace) := by
  have still {outcome : Outcome Unit} {after : Workspace} (still : workspace.Still after) :
      Preloads script inner workspace (outcome, inner, after) :=
    ⟨rfl, rfl, rfl, declares, still.functions ▸ .refl _⟩
  cases inner with
  | function inner =>
    dsimp only [preload]
    rcases preload_function inner current with ⟨failure, same⟩ | ⟨_, _, owner, declared, same⟩
    · rw [same]
      exact ⟨rfl, rfl, rfl, declares, .refl _⟩
    · rw [same]
      refine ⟨rfl, rfl, rfl, ?_, FunctionTable.declare_grown owner declared⟩
      rintro _ ⟨⟩
      exact owner
  | options inner => exact still (inner.apply_still workspace)
  | custom inner => exact still (inner.respond_still .preload workspace)
  | aliases => exact still (.refl workspace)
  | defaults inner => exact still (.refl workspace)
  | command inner => exact still (.refl workspace)
  | event inner => exact still (.refl workspace)

end Structure

/-! ## Loading commands -/

namespace CommandReading

theorem apply_script (reading : CommandReading) (node : Node) :
    (reading.apply node).command.script = reading.command.script := by
  unfold apply
  split
  · unfold applyEntry
    split
    all_goals try rfl
    split <;> rfl
  · split <;> rfl
  · rfl

theorem applyAll_script (tree : Section) (command : Command) :
    (applyAll tree command).command.script = command.script := by
  unfold applyAll
  have kept (nodes : List Node) (reading : CommandReading) :
      (nodes.foldl apply reading).command.script = reading.command.script := by
    induction nodes generalizing reading with
    | nil => rfl
    | cons node others ih => rw [List.foldl_cons, ih, apply_script]
  exact kept _ _

theorem readHeader_script {classes : ClassRegistry} {script : Script} {header : String}
    {line : Nat} {command : Command}
    (read : readHeader classes script header line = .ok command) : command.script = script := by
  unfold readHeader at read
  dsimp only at read
  split at read
  · split at read
    · cases read
    · cases Except.ok.inj read
      rfl
  · cases read

end CommandReading

/-- A command that is read belongs to the script that is current. -/
theorem Workspace.commandFor_script {event : CurrentEvent} {header : String} {body : Section}
    {workspace : Workspace} {script : Script} {command : Command}
    (current : workspace.context.script = some script)
    (read : (workspace.commandFor event header body).1 = .ok command) :
    command.script = script := by
  unfold commandFor commandIn at read
  simp only [current] at read
  split at read
  · cases read
  · next announced isAnnounced =>
    split at read
    · cases read
    · next trigger _ =>
      cases items : (Item.readBody (workspace.scopeFor event) trigger).1 with
      | error failure =>
        simp only [items, Except.map] at read
        cases read
      | ok items' =>
        simp only [items, Except.map] at read
        cases Except.ok.inj read
        exact (CommandReading.applyAll_script body announced).trans
          (CommandReading.readHeader_script isAnnounced)

/-- What no structure of a script changes while the script is loaded. -/
structure Workspace.Steady (before after : Workspace) : Prop where
  config : after.host.config = before.host.config
  classes : after.host.classes = before.host.classes
  bus : after.host.bus = before.host.bus
  bound : after.host.bound = before.host.bound
  nextTicket : after.host.nextTicket = before.host.nextTicket
  script : after.context.script = before.context.script
  drafts : after.context.drafts = before.context.drafts

namespace Workspace.Steady

theorem refl (workspace : Workspace) : Steady workspace workspace := by
  constructor <;> rfl

theorem trans {first second third : Workspace} (before : Steady first second)
    (after : Steady second third) : Steady first third where
  config := after.config.trans before.config
  classes := after.classes.trans before.classes
  bus := after.bus.trans before.bus
  bound := after.bound.trans before.bound
  nextTicket := after.nextTicket.trans before.nextTicket
  script := after.script.trans before.script
  drafts := after.drafts.trans before.drafts

theorem of_untouched {before after : Workspace} (untouched : before.Untouched after)
    (drafts : after.context.drafts = before.context.drafts) : Steady before after :=
  ⟨untouched.config, untouched.classes, untouched.bus, untouched.bound, untouched.nextTicket,
    untouched.script, drafts⟩

end Workspace.Steady

namespace CommandStructure

variable {script : Script} {workspace : Workspace}

/-- Loading a command fails and hands nothing over, or hands a command of the script over. -/
theorem load_cases (thread : Thread) (command : CommandStructure)
    (current : workspace.context.script = some script) :
    (∃ failure after, workspace.Still after ∧
        command.load thread workspace = (.error failure, after)) ∨
      ∃ (loaded : Command) (after : Workspace), loaded.script = script ∧ workspace.Still after ∧
        command.load thread workspace =
          ((submit thread loaded command.ticket after).1.map
              fun _ => { command with name := some loaded.name },
            (submit thread loaded command.ticket after).2) := by
  unfold load
  split
  · exact Or.inl ⟨_, _, .refl workspace, rfl⟩
  · next body _ =>
    unfold loadBody
    rw [Workspace.reading_readCommand]
    have declared (left : Workspace) (commands : List String) :
        left.Still (left.inContext ({ · with commands := some commands })) := by
      refine ⟨?_, rfl, rfl⟩
      constructor <;> rfl
    have still := (Workspace.Still.leave (workspace.commandFor bodyEvent command.header body).2
      workspace).trans (declared _ workspace.context.currentCommands)
    cases read : (workspace.commandFor bodyEvent command.header body).1 with
    | error failure => exact Or.inl ⟨_, _, .leave _ workspace, rfl⟩
    | ok loaded =>
      dsimp only
      split
      · exact Or.inl ⟨_, _, still, rfl⟩
      · exact Or.inr ⟨loaded, _, Workspace.commandFor_script current read, still, rfl⟩

/-- Handing a command over leaves the bus, the functions and the script alone. -/
theorem submit_steady (thread : Thread) (loaded : Command) (ticket : Nat) (workspace : Workspace) :
    workspace.Steady (submit thread loaded ticket workspace).2 ∧
      (submit thread loaded ticket workspace).2.host.functions = workspace.host.functions := by
  have host : (submit thread loaded ticket workspace).2.host =
      ((workspace.submit thread (.register ticket loaded)).host.takeRefusal ticket).2 := by
    unfold submit
    dsimp only
    split <;> rfl
  have step : workspace.host.config = (submit thread loaded ticket workspace).2.host.config ∧
      workspace.host.classes = (submit thread loaded ticket workspace).2.host.classes ∧
      workspace.host.bus = (submit thread loaded ticket workspace).2.host.bus ∧
      workspace.host.bound = (submit thread loaded ticket workspace).2.host.bound ∧
      workspace.host.nextTicket = (submit thread loaded ticket workspace).2.host.nextTicket ∧
      workspace.host.functions = (submit thread loaded ticket workspace).2.host.functions := by
    rw [host]
    cases thread with
    | worker => exact ⟨rfl, rfl, rfl, rfl, rfl, rfl⟩
    | main =>
      have submitted : (workspace.submit .main (.register ticket loaded)).host =
          workspace.host.registerUnder ticket loaded :=
        Host.submit_main (.register ticket loaded) workspace.host
      obtain ⟨step, _⟩ := Host.registerUnder_spec ticket loaded workspace.host
      rw [submitted]
      exact ⟨step.config.symm, step.classes.symm, step.bus.symm, step.bound.symm,
        step.nextTicket.symm, step.functions.symm⟩
  obtain ⟨sameScript, _, drafts⟩ := submit_context thread loaded ticket workspace
  obtain ⟨config, classes, bus, bound, nextTicket, functions⟩ := step
  exact ⟨⟨config.symm, classes.symm, bus.symm, bound.symm, nextTicket.symm, sameScript, drafts⟩,
    functions.symm⟩

/-- What loading a command on the main thread comes to: it fails and registers nothing, or the
command is registered under its ticket. -/
structure LoadsMain (script : Script) (command : CommandStructure) (before : Host)
    (result : Except Failure CommandStructure) (after : Host) : Prop where
  queue : after.queue = before.queue
  sound : after.Sound
  either : (∃ failure, result = .error failure ∧ after.registrations = before.registrations) ∨
    ∃ loaded : Command, result = .ok { command with name := some loaded.name } ∧
      loaded.script = script ∧ after.registrations =
        Function.update before.registrations command.ticket { registered := some loaded }

/-- On the main thread a command is registered at once, or refused. -/
theorem submit_registers (loaded : Command) (ticket : Nat) (workspace : Workspace)
    (unused : workspace.host.registrations ticket = {}) :
    ∃ host, workspace.host.CommandStep host ∧
      ((∃ failure, workspace.host.commands.register loaded = .error failure ∧
          host.commands = workspace.host.commands ∧
          host.registrations = workspace.host.registrations ∧
          submit .main loaded ticket workspace =
            (.error (.host failure.text), { workspace with host })) ∨
        ∃ table, workspace.host.commands.register loaded = .ok table ∧ host.commands = table ∧
          host.registrations = Function.update workspace.host.registrations ticket
            { registered := some loaded } ∧
          submit .main loaded ticket workspace =
            (.ok (), ({ workspace with host } : Workspace).inContext fun context =>
              (context.declareCommand loaded.name).updateInfo (count loaded.name))) := by
  obtain ⟨step, outcome⟩ := Host.registerUnder_spec ticket loaded workspace.host
  obtain ⟨takeStep, refusal, takeCommands, takeRegistrations⟩ :=
    Host.takeRefusal_spec ticket (workspace.host.registerUnder ticket loaded)
  have submitted : (workspace.submit .main (.register ticket loaded)).host =
      workspace.host.registerUnder ticket loaded :=
    Host.submit_main (.register ticket loaded) workspace.host
  refine ⟨_, step.trans takeStep, ?_⟩
  unfold submit
  dsimp only
  rw [submitted]
  rcases outcome with ⟨failure, refused, commands, registrations⟩ |
    ⟨table, taken, commands, registrations⟩
  · rw [registrations, Function.update_self] at refusal takeRegistrations
    rw [unused] at takeRegistrations
    have restored : ((workspace.host.registerUnder ticket loaded).takeRefusal
        ticket).2.registrations = workspace.host.registrations := by
      rw [takeRegistrations, Function.update_idem, ← unused, Function.update_eq_self]
    rw [refusal]
    exact Or.inl ⟨failure, refused, takeCommands.trans commands, restored, rfl⟩
  · rw [registrations, Function.update_self, unused] at refusal takeRegistrations
    have kept : ((workspace.host.registerUnder ticket loaded).takeRefusal
        ticket).2.registrations = Function.update workspace.host.registrations
          ticket { registered := some loaded } := by
      rw [takeRegistrations, Function.update_idem]
    rw [refusal]
    exact Or.inr ⟨table, taken, takeCommands.trans commands, kept, rfl⟩

theorem submit_main (command : CommandStructure) (loaded : Command) (workspace : Workspace)
    (owner : loaded.script = script) (sound : workspace.host.Sound)
    (unused : workspace.host.registrations command.ticket = {}) :
    LoadsMain script command workspace.host
      ((submit .main loaded command.ticket workspace).1.map
        fun _ => { command with name := some loaded.name })
      (submit .main loaded command.ticket workspace).2.host := by
  obtain ⟨host, step, ⟨failure, _, commands, registrations, same⟩ |
    ⟨table, taken, commands, registrations, same⟩⟩ := submit_registers loaded _ workspace unused
  · rw [same]
    exact ⟨step.queue, sound.of_same commands registrations, Or.inl ⟨_, rfl, registrations⟩⟩
  · rw [same]
    refine ⟨step.queue, ?_, Or.inr ⟨loaded, rfl, owner, registrations⟩⟩
    refine sound.of_update ?_ registrations
    change host.commands.Reflects _
    rw [commands]
    refine sound.reflects.register ?_ taken
    rw [Host.registered, unused]

theorem load_main (command : CommandStructure)
    (current : workspace.context.script = some script) (sound : workspace.host.Sound)
    (unused : workspace.host.registrations command.ticket = {}) :
    LoadsMain script command workspace.host (command.load .main workspace).1
      (command.load .main workspace).2.host := by
  rcases command.load_cases .main current with ⟨failure, after, still, same⟩ |
    ⟨loaded, after, owner, still, same⟩
  · rw [same]
    exact ⟨still.untouched.queue,
      sound.of_same still.untouched.commands still.untouched.registrations,
      Or.inl ⟨failure, rfl, still.untouched.registrations⟩⟩
  · rw [same]
    have result := submit_main command loaded after owner
      (sound.of_same still.untouched.commands still.untouched.registrations)
      (by rw [still.untouched.registrations]; exact unused)
    refine ⟨result.queue.trans still.untouched.queue, result.sound, ?_⟩
    rw [← still.untouched.registrations]
    exact result.either

end CommandStructure

/-! ## Loading any structure -/

namespace Structure

/-- What loading a structure does on any thread: it only adds to the functions of the script, and
hands its command over, if it has one. -/
structure Loads (script : Script) (inner : Structure) (before : Workspace)
    (result : Outcome Unit × Structure × Workspace) : Prop where
  ticket : result.2.1.ticket? = inner.ticket?
  event : result.2.1.event? = inner.event?
  declares : result.2.1.DeclaresIn script
  steady : before.Steady result.2.2
  functions : FunctionTable.GrownBy script before.host.functions result.2.2.host.functions
  eventDone : inner.event?.isSome = true → result.1 = .done ()

/-- What loading a structure on the main thread does: it registers the command of the structure, if
it has one. -/
structure LoadsMain (script : Script) (inner : Structure) (before : Workspace)
    (result : Outcome Unit × Structure × Workspace) : Prop where
  queue : result.2.2.host.queue = before.host.queue
  sound : result.2.2.host.Sound
  others : ∀ ticket, inner.command?.map CommandStructure.ticket ≠ some ticket →
    result.2.2.host.registrations ticket = before.host.registrations ticket
  command : ∀ command, inner.command? = some command →
    (∃ failure, result.1 = .failed failure ∧ result.2.1 = inner ∧
      result.2.2.host.registrations command.ticket = before.host.registrations command.ticket) ∨
    ∃ loaded : Command, result.1 = .done () ∧
      result.2.1.command? = some { command with name := some loaded.name } ∧
      loaded.script = script ∧
      result.2.2.host.registrations command.ticket = { registered := some loaded }

variable {script : Script} {workspace : Workspace}

theorem LoadsMain.of_untouched {inner after : Structure} {outcome : Outcome Unit}
    {final : Workspace} (noCommand : inner.command? = none) (sound : workspace.host.Sound)
    (untouched : workspace.Untouched final) :
    LoadsMain script inner workspace (outcome, after, final) where
  queue := untouched.queue
  sound := sound.of_same untouched.commands untouched.registrations
  others := fun _ _ => by rw [untouched.registrations]
  command := fun command found => by rw [noCommand] at found; cases found

/-- Loading the body of a function only adds to the functions of the script. -/
theorem load_function_grown (function : FunctionStructure) (workspace : Workspace)
    (declares : (Structure.function function).DeclaresIn script) :
    FunctionTable.GrownBy script workspace.host.functions
      (function.load workspace).2.host.functions := by
  unfold FunctionStructure.load
  split
  · exact .refl _
  · split
    · exact .refl _
    · next signature declared =>
      unfold FunctionStructure.loadBody
      rw [Workspace.reading_readBody]
      split
      · next same =>
        obtain ⟨_, rfl⟩ := Prod.mk.inj same
        exact .refl _
      · next items after same =>
        obtain ⟨_, rfl⟩ := Prod.mk.inj same
        split
        · exact .refl _
        · next functions attached =>
          exact FunctionTable.attach_grown (declares signature declared) attached

theorem load_spec (thread : Thread) (inner : Structure)
    (current : workspace.context.script = some script) (declares : inner.DeclaresIn script) :
    Loads script inner workspace (inner.load thread workspace) := by
  have idle {outcome : Outcome Unit} {final : Workspace} (still : workspace.Still final)
      (eventDone : inner.event?.isSome = true → outcome = .done ()) :
      Loads script inner workspace (outcome, inner, final) :=
    ⟨rfl, rfl, declares, .of_untouched still.untouched still.drafts, still.functions ▸ .refl _,
      eventDone⟩
  cases inner with
  | options inner => exact idle (inner.apply_still workspace) nofun
  | aliases => exact idle (.refl workspace) nofun
  | defaults inner => exact idle (.refl workspace) nofun
  | event inner => exact idle (.refl workspace) fun _ => rfl
  | custom inner => exact idle (inner.respond_still .load workspace) nofun
  | function inner =>
    obtain ⟨untouched, drafts⟩ := inner.load_untouched workspace
    exact ⟨rfl, rfl, declares, .of_untouched untouched drafts,
      load_function_grown inner workspace declares, nofun⟩
  | command inner =>
    dsimp only [load]
    rcases inner.load_cases thread current with ⟨_, after, still, same⟩ |
      ⟨loaded, after, _, still, same⟩
    · rw [same]
      exact ⟨rfl, rfl, trivial, .of_untouched still.untouched still.drafts,
        still.functions ▸ .refl _, nofun⟩
    · obtain ⟨steady, functions⟩ := CommandStructure.submit_steady thread loaded inner.ticket after
      have whole := Workspace.Steady.trans (.of_untouched still.untouched still.drafts) steady
      have grown : FunctionTable.GrownBy script workspace.host.functions
          (CommandStructure.submit thread loaded inner.ticket after).2.host.functions :=
        (functions.trans still.functions) ▸ .refl _
      rw [same]
      generalize CommandStructure.submit thread loaded inner.ticket after = submitted at *
      obtain ⟨outcome, final⟩ := submitted
      cases outcome with
      | error failure => exact ⟨rfl, rfl, trivial, whole, grown, nofun⟩
      | ok value => exact ⟨rfl, rfl, trivial, whole, grown, nofun⟩

theorem load_main (inner : Structure) (current : workspace.context.script = some script)
    (sound : workspace.host.Sound)
    (unused : ∀ command, inner.command? = some command →
      workspace.host.registrations command.ticket = {}) :
    LoadsMain script inner workspace (inner.load .main workspace) := by
  cases inner with
  | options inner => exact .of_untouched rfl sound (inner.apply_still workspace).untouched
  | aliases => exact .of_untouched rfl sound (.refl workspace)
  | defaults inner => exact .of_untouched rfl sound (.refl workspace)
  | event inner => exact .of_untouched rfl sound (.refl workspace)
  | custom inner => exact .of_untouched rfl sound (inner.respond_still .load workspace).untouched
  | function inner => exact .of_untouched rfl sound (inner.load_untouched workspace).1
  | command inner =>
    have result := inner.load_main current sound (unused inner rfl)
    dsimp only [load]
    generalize inner.load .main workspace = loads at *
    obtain ⟨outcome, final⟩ := loads
    rcases result.either with ⟨failure, rfl, same⟩ | ⟨loaded, rfl, owner, same⟩
    · refine ⟨result.queue, result.sound, ?_, ?_⟩
      · intro ticket _
        exact congrFun same ticket
      · rintro _ ⟨⟩
        exact Or.inl ⟨failure, rfl, rfl, congrFun same _⟩
    · refine ⟨result.queue, result.sound, ?_, ?_⟩
      · intro ticket differ
        have apart : ticket ≠ inner.ticket := fun equal => differ (congrArg some equal.symm)
        exact (congrFun same ticket).trans (Function.update_of_ne apart _ _)
      · rintro _ ⟨⟩
        exact Or.inr ⟨loaded, rfl, rfl, owner, (congrFun same _).trans (Function.update_self ..)⟩

end Structure

end ScriptBinding

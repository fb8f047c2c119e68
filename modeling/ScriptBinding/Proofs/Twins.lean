import ScriptBinding.Proofs.FunctionCounts
import ScriptBinding.Proofs.Renewal
import ScriptBinding.Proofs.Settling

/-! # Two loads of one script

The same script is read in two workspaces as two loads of one file. The functions and the commands
are the same on both hosts, with the one load in the place of the other. The values of the variables
may differ, and with them what is reported, unless the comparison is exact. All that structures do
keeps it so.
-/

namespace ScriptBinding

/-- Two loads that are compared, the tickets of the first one counted from the floor. -/
structure Comparison extends Renewal where
  floor : Nat := 0
  /-- Nothing differs but the loads. -/
  exact : Prop
  /-- What had been reported in the first workspace, and not in the second one. -/
  earlier : List Diagnostic := []

namespace Comparison

variable (both : Comparison)

/-- What is the same when nothing differs but the loads. -/
structure Exactly (first second : Workspace) : Prop where
  config : second.host.config = first.host.config
  sink : second.host.sink = first.host.sink
  bus : second.host.bus = first.host.bus
  queue : second.host.queue = first.host.queue
  bound : second.host.bound = first.host.bound
  store : second.host.store = first.host.store
  effects : second.host.effects = first.host.effects
  notes : second.host.notes = first.host.notes
  log : second.host.log = first.host.log
  diagnostics : first.context.diagnostics = both.earlier ++ second.context.diagnostics

/-- Both workspaces are reading the script, and what structures look at is the same but for the
loads. -/
structure Twins (first second : Workspace) : Prop where
  classes : second.host.classes = first.host.classes
  functions : second.host.functions = both.functions first.host.functions
  distinct : ∀ name signature, first.host.functions.signature? name = some signature →
    both.Distinct signature.script
  commands : second.host.commands = both.commands first.host.commands
  registrations : ∀ ticket, both.floor ≤ ticket →
    second.host.registrations (ticket + both.shift) =
      both.registration (first.host.registrations ticket)
  later : both.floor ≤ first.host.nextTicket
  nextTicket : second.host.nextTicket = first.host.nextTicket + both.shift
  oldCurrent : first.context.script = some both.old
  newCurrent : second.context.script = some both.new
  inHand : second.context.sectionInHand.getD {} = first.context.sectionInHand.getD {}
  options : second.context.currentOptions = first.context.currentOptions
  aliases : second.context.currentAliases = first.context.currentAliases
  declared : second.context.currentCommands = first.context.currentCommands
  drafts : second.context.currentDrafts = first.context.currentDrafts.map both.draft
  events : second.context.events = first.context.events
  info : second.context.info = first.context.info
  exactly : both.exact → both.Exactly first second

/-- The sections of both loads stand for the same, but for the loads and for the variables that have
been given a value. -/
inductive Alike : Structure → Structure → Prop
  | options (inner : OptionsStructure) : Alike (.options inner) (.options inner)
  | function (inner : FunctionStructure)
      (own : ∀ signature ∈ inner.signature, signature.script = both.old) :
      Alike (.function inner) (both.inner (.function inner))
  | aliases : Alike .aliases .aliases
  | defaults (inner other : VariablesStructure) (same : both.exact → other = inner) :
      Alike (.defaults inner) (.defaults other)
  | command (inner : CommandStructure) (later : both.floor ≤ inner.ticket) :
      Alike (.command inner) (both.inner (.command inner))
  | event (inner : EventStructure) (builtIn : ∀ filter ∈ inner.unused, filter.IsBuiltIn) :
      Alike (.event inner) (both.inner (.event inner))

/-- Both runs come to results that are related, and stay twins. -/
inductive Results {α : Type} (Related : α → α → Prop) : α × Workspace → α × Workspace → Prop
  | both {one other : α} {first second : Workspace} (related : Related one other)
      (twins : both.Twins first second) : Results Related (one, first) (other, second)

/-- A structure goes through a phase with the same outcome in both runs, and they stay twins. -/
inductive Phases {α : Type} : α × Structure × Workspace → α × Structure × Workspace → Prop
  | both (outcome : α) {one other : Structure} {first second : Workspace}
      (alike : both.Alike one other) (twins : both.Twins first second) :
      Phases (outcome, one, first) (outcome, other, second)

end Comparison

open Comparison (Twins)

variable {both : Comparison} {first second : Workspace}

namespace Comparison.Twins

theorem reported (twins : both.Twins first second) (failures : List Failure) :
    Workspace.reported second.context.script failures =
      Workspace.reported first.context.script failures := by
  rw [twins.oldCurrent, twins.newCurrent, both.reported_eq]

theorem leave (twins : both.Twins first second) (traces : Traces) :
    both.Twins (first.leave traces) (second.leave traces) :=
  { twins with
    exactly := fun exact =>
      let same := twins.exactly exact
      { same with
        notes := congrArg (· ++ traces.notes) same.notes
        log := congrArg (· ++ traces.log) same.log
        diagnostics := by
          simp only [Workspace.leave, same.diagnostics, List.append_assoc] } }

theorem reportAll (twins : both.Twins first second) (failures : List Failure) :
    both.Twins (first.reportAll failures) (second.reportAll failures) := by
  rw [Workspace.reportAll_eq_leave, Workspace.reportAll_eq_leave, twins.reported]
  exact twins.leave _

theorem record (twins : both.Twins first second) (failure : Failure) (line : Option Nat) :
    both.Twins (first.record failure line) (second.record failure line) := by
  have recorded : Workspace.recorded second.context.script failure line =
      Workspace.recorded first.context.script failure line := by
    simp only [Workspace.recorded, Context.record, twins.oldCurrent, twins.newCurrent, Option.map_some,
      both.new_name]
  rw [Workspace.record_eq_leave, Workspace.record_eq_leave, recorded]
  exact twins.leave _

theorem noteCall (twins : both.Twins first second) (call : PhaseCall) :
    both.Twins (first.inContext (·.noteCall call)) (second.inContext (·.noteCall call)) :=
  { twins with exactly := fun exact => { twins.exactly exact with } }

theorem takeInHand (twins : both.Twins first second) (body : Option Section)
    (info : Option StructureInfo) :
    both.Twins (first.inContext (·.takeInHand body info))
      (second.inContext (·.takeInHand body info)) :=
  { twins with inHand := rfl, exactly := fun exact => { twins.exactly exact with } }

theorem updateInfo (twins : both.Twins first second) (change : ScriptInfo → ScriptInfo) :
    both.Twins (first.inContext (·.updateInfo change)) (second.inContext (·.updateInfo change)) :=
  { twins with
    info := congrArg change twins.info
    exactly := fun exact => { twins.exactly exact with } }

theorem note (twins : both.Twins first second) (texts : List String) :
    both.Twins (first.inHost (·.note texts)) (second.inHost (·.note texts)) :=
  { twins with
    exactly := fun exact =>
      let same := twins.exactly exact
      { same with notes := congrArg (· ++ texts) same.notes } }

theorem addDraft (twins : both.Twins first second) (draft : TriggerDraft) :
    both.Twins (first.inContext (·.addDraft draft))
      (second.inContext (·.addDraft (both.draft draft))) :=
  { twins with
    drafts := by
      change second.context.currentDrafts ++ [both.draft draft] =
        (first.context.currentDrafts ++ [draft]).map both.draft
      rw [twins.drafts, List.map_append, List.map_singleton]
    exactly := fun exact => { twins.exactly exact with } }

theorem declareCommand (twins : both.Twins first second) (name : String) :
    both.Twins (first.inContext (·.declareCommand name))
      (second.inContext (·.declareCommand name)) :=
  { twins with
    declared := by
      change (if second.context.currentCommands.contains name then second.context.currentCommands
          else second.context.currentCommands ++ [name]) =
        if first.context.currentCommands.contains name then first.context.currentCommands
          else first.context.currentCommands ++ [name]
      rw [twins.declared]
    exactly := fun exact => { twins.exactly exact with } }

theorem scopeFor (twins : both.Twins first second) (event : CurrentEvent) :
    (first.scopeFor event).Agrees (second.scopeFor event) where
  options := twins.options
  inFunction := by
    simp only [Workspace.scopeFor, Workspace.bodyScope, Workspace.inContext, Context.pushEvent,
      Context.isReading, Context.currentEvent?, List.head?_cons]
  parameters := by
    intro name
    change (second.host.functions.signature? name).map _ =
      (first.host.functions.signature? name).map _
    rw [twins.functions, both.signature?_functions, Option.map_map]
    rfl

theorem reading_readBody (twins : both.Twins first second) (event : CurrentEvent)
    (body : Section) :
    both.Results (fun one other => other = one) (first.reading event (·.readBody body))
      (second.reading event (·.readBody body)) := by
  rw [Workspace.reading_readBody, Workspace.reading_readBody,
    Item.readBody_agrees (twins.scopeFor event), twins.reported]
  exact .both rfl (twins.leave _)

theorem reading_readCommand (twins : both.Twins first second) (event : CurrentEvent)
    (header : String) (body : Section) :
    both.Results (fun one other => other = one.map both.command)
      (first.reading event (·.readCommand header body))
      (second.reading event (·.readCommand header body)) := by
  rw [Workspace.reading_readCommand, Workspace.reading_readCommand]
  unfold Workspace.commandFor
  rw [twins.oldCurrent, twins.newCurrent, twins.classes, both.commandIn_eq (twins.scopeFor event)]
  dsimp only
  exact .both rfl (twins.leave _)

end Comparison.Twins

/-! ## Structures that are built in -/

theorem OptionsStructure.apply_twins (twins : both.Twins first second)
    (options : OptionsStructure) : both.Twins (options.apply first) (options.apply second) :=
  { twins with
    options := by
      change second.context.currentOptions.insertAll options.entries.entries =
        first.context.currentOptions.insertAll options.entries.entries
      rw [twins.options]
    exactly := fun exact => { twins.exactly exact with } }

theorem AliasesStructure.init_twins (twins : both.Twins first second) (body : Section) :
    both.Twins (AliasesStructure.init body first) (AliasesStructure.init body second) := by
  unfold AliasesStructure.init Context.loadAliases
  dsimp only
  rw [twins.aliases]
  refine Twins.reportAll ?_ _
  exact { twins with aliases := rfl, exactly := fun exact => { twins.exactly exact with } }

namespace VariablesStructure

/-- A variable may be given a value in only one of two runs that may differ so. -/
theorem initNode_twins (twins : both.Twins first second) {defaults other : VariablesStructure}
    (same : both.exact → other = defaults) (node : Node) :
    both.Results (fun one other => both.exact → other = one) (initNode (defaults, first) node)
      (initNode (other, second) node) := by
  by_cases exact : both.exact
  · obtain rfl := same exact
    unfold initNode
    dsimp only
    rw [twins.classes, (twins.exactly exact).store]
    cases seedNode first.host.classes first.host.store node with
    | error failure => exact .both (fun _ => rfl) (twins.record _ _)
    | ok seeded =>
      exact .both (fun _ => rfl)
        { twins with exactly := fun exact => { twins.exactly exact with store := rfl } }
  · have either (defaults : VariablesStructure) (workspace : Workspace) :
        ∃ after store log diagnostics, initNode (defaults, workspace) node =
          (after, { workspace with
            host := { workspace.host with store, log }
            context := { workspace.context with diagnostics } }) := by
      unfold initNode
      dsimp only
      split
      · exact ⟨_, _, _, _, rfl⟩
      · exact ⟨_, _, _, _, rfl⟩
    obtain ⟨_, _, _, _, one⟩ := either defaults first
    obtain ⟨_, _, _, _, two⟩ := either other second
    rw [one, two]
    exact .both (fun given => absurd given exact)
      { twins with exactly := fun given => absurd given exact }

theorem init_twins (twins : both.Twins first second) (body : Section)
    {defaults other : VariablesStructure} (same : both.exact → other = defaults) :
    both.Results (fun one other => both.exact → other = one) (defaults.init body first)
      (other.init body second) := by
  unfold init
  generalize (body.convertToEntries 0 "=").nodes = nodes
  induction nodes generalizing defaults other first second with
  | nil => exact .both same twins
  | cons node others ih =>
    rw [List.foldl_cons, List.foldl_cons]
    have step := initNode_twins twins same node
    generalize initNode (defaults, first) node = one,
      initNode (other, second) node = two at step ⊢
    cases step with
    | both same twins => exact ih twins same

end VariablesStructure

namespace EventStructure

variable {filter : EventFilter}

/-- A filter that is built in notes nothing. -/
theorem notes_builtIn (builtIn : filter.IsBuiltIn) (point : SelfRegistration → List String) :
    filter.notes point = [] := by
  cases filter with
  | custom behaviour header => exact builtIn.elim
  | _ => rfl

/-- A filter is told the script that its section has been read in, if there is one. -/
theorem announce_twins (twins : both.Twins first second) (builtIn : filter.IsBuiltIn) :
    both.Results (fun one other : Except Failure Bool => other = one)
      (match first.context.script with
        | some script => (.ok true, first.inHost (·.note (filter.notes (·.onRead script))))
        | none => (.ok true, first))
      (match second.context.script with
        | some script => (.ok true, second.inHost (·.note (filter.notes (·.onRead script))))
        | none => (.ok true, second)) := by
  rw [twins.oldCurrent, twins.newCurrent]
  simp only [notes_builtIn builtIn]
  exact .both rfl (twins.note [])

theorem buffer_twins (twins : both.Twins first second) (info : EventInfo)
    (builtIn : filter.IsBuiltIn) (body : Section) (event : EventStructure) :
    both.Results (fun one other => other = one) (buffer info filter body event first)
      (buffer info filter body { event with ticket := event.ticket + both.shift } second) := by
  have reads := twins.reading_readBody (bodyEvent info) body
  unfold buffer
  generalize first.reading (bodyEvent info) (·.readBody body) = one,
    second.reading (bodyEvent info) (·.readBody body) = other at reads ⊢
  cases reads with
  | @both _ result first second same twins =>
    subst same
    cases result with
    | error failure => exact .both rfl twins
    | ok items =>
      have waits := (twins.addDraft ⟨event.ticket, info, filter, body.line, items,
        event.priority⟩).updateInfo fun info => { info with triggers := info.triggers + 1 }
      exact announce_twins waits builtIn

theorem start_twins (twins : both.Twins first second) (info : EventInfo)
    (builtIn : filter.IsBuiltIn) (header : MatchResult) (body : Section) (event : EventStructure)
    (used : event.unused = none) :
    ∃ result one after other,
      start info filter header body event first = (result, one, after) ∧
      start info filter header body { event with ticket := event.ticket + both.shift } second =
        (result, { one with ticket := one.ticket + both.shift }, other) ∧
      one.unused = none ∧ both.Twins after other := by
  have stays := builtIn.start header
  unfold start
  generalize filter.start header = started at stays ⊢
  obtain ⟨taken, filter, notes⟩ := started
  have noted := twins.note notes
  dsimp only
  split
  · split
    · have buffers := buffer_twins noted info stays body { event with filter := some filter }
      generalize buffer info filter body { event with filter := some filter }
          (first.inHost (·.note notes)) = one,
        buffer info filter body { event with
            ticket := event.ticket + both.shift
            filter := some filter } (second.inHost (·.note notes)) = other at buffers ⊢
      cases buffers with
      | both same twins =>
        subst same
        exact ⟨_, _, _, _, rfl, rfl, used, twins⟩
    · exact ⟨_, _, _, _, rfl, rfl, used, noted⟩
  · exact ⟨_, _, _, _, rfl, rfl, used, noted⟩

theorem init_twins (twins : both.Twins first second) (header : MatchResult) (body : Section)
    (event : EventStructure) (builtIn : ∀ filter ∈ event.unused, filter.IsBuiltIn) :
    ∃ result one after other,
      event.init header body first = (result, one, after) ∧
      { event with ticket := event.ticket + both.shift : EventStructure }.init header body second =
        (result, { one with ticket := one.ticket + both.shift }, other) ∧
      (∀ filter ∈ one.unused, filter.IsBuiltIn) ∧ both.Twins after other := by
  have built : both.Twins
      (first.inContext ({ · with sectionInHand := some (first.context.sectionInHand.getD {}) }))
      (second.inContext ({ · with sectionInHand := some (first.context.sectionInHand.getD {}) })) :=
    { twins with inHand := rfl, exactly := fun exact => { twins.exactly exact with } }
  unfold init
  dsimp only
  rw [twins.inHand]
  split
  · exact ⟨_, _, _, _, rfl, rfl, builtIn, built⟩
  · split
    · exact ⟨_, _, _, _, rfl, rfl, builtIn, built⟩
    · next info _ =>
      obtain ⟨ticket, unused, filter, priority⟩ := event
      unfold initWith
      cases unused with
      | none => exact ⟨_, _, _, _, rfl, rfl, builtIn, built⟩
      | some unused =>
        dsimp only
        cases readPriority unused body.line (stripOn (Text.trimChars header.expr.toList)) with
        | error failure => exact ⟨_, _, _, _, rfl, rfl, nofun, built⟩
        | ok read =>
          obtain ⟨given, rest⟩ := read
          obtain ⟨result, one, after, other, ran, also, used, twins⟩ :=
            start_twins built info (builtIn unused rfl)
              { header with expr := String.ofList rest } body
              ⟨ticket, none, filter, given.or priority⟩ rfl
          exact ⟨result, one, after, other, ran, also, used ▸ nofun, twins⟩

end EventStructure

namespace FunctionStructure

variable {function : FunctionStructure}

/-- The signature that is read belongs to the script that reads it. -/
theorem preload_twins (twins : both.Twins first second) (undeclared : FunctionStructure) :
    ∃ result after other,
      undeclared.preload first = (result, after) ∧
      { undeclared with signature := undeclared.signature.map both.signature }.preload second =
        (result.map fun one => { one with signature := one.signature.map both.signature },
          other) ∧
      (∀ one, result = .ok one → ∀ signature ∈ one.signature, signature.script = both.old) ∧
      both.Twins after other := by
  unfold preload
  dsimp only
  rw [twins.oldCurrent, twins.newCurrent, twins.classes, twins.functions]
  dsimp only
  rw [both.read_signature]
  cases read : Signature.read first.host.classes both.old undeclared.header
      ((undeclared.body.map Section.line).getD 0) with
  | error failure => exact ⟨_, _, _, rfl, rfl, nofun, twins⟩
  | ok signature =>
    have own := Structure.read_script read
    dsimp only [Except.map]
    rw [both.declare_functions]
    cases declared : first.host.functions.declare signature with
    | error failure => exact ⟨_, _, _, rfl, rfl, nofun, twins⟩
    | ok functions =>
      refine ⟨_, _, _, rfl, rfl, ?_, ?_⟩
      · rintro one ⟨⟩ _ ⟨⟩
        exact own
      · refine { twins with functions := rfl, distinct := ?_, exactly := fun exact =>
          { twins.exactly exact with } }
        intro name there found
        have grown := FunctionTable.declare_grown own declared
        rcases grown.signatures name with same | ⟨_, declaredThere, taken, owner⟩
        · exact twins.distinct name there (same ▸ found)
        · rw [Option.some.inj (found.symm.trans taken), owner]
          exact Or.inl rfl

theorem load_twins (twins : both.Twins first second)
    (own : ∀ signature ∈ function.signature, signature.script = both.old) :
    both.Results (fun one other => other = one) (function.load first)
      ({ function with signature := function.signature.map both.signature }.load second) := by
  unfold load
  dsimp only
  split
  · exact .both rfl twins
  · next body _ =>
    cases declared : function.signature with
    | none => exact .both rfl twins
    | some signature =>
      have reads := twins.reading_readBody bodyEvent body
      dsimp only [Option.map_some]
      unfold loadBody
      generalize first.reading bodyEvent (·.readBody body) = one,
        second.reading bodyEvent (·.readBody body) = other at reads ⊢
      cases reads with
      | @both _ result first second same twins =>
        subst same
        cases result with
        | error failure => exact .both rfl twins
        | ok items =>
          dsimp only
          rw [twins.functions, both.attach_functions twins.distinct (own signature declared)]
          cases attached : first.host.functions.attach ⟨signature, items⟩ with
          | error failure => exact .both rfl twins
          | ok functions =>
            refine .both rfl (Twins.updateInfo ?_ _)
            refine { twins with functions := rfl, distinct := ?_, exactly := fun exact =>
              { twins.exactly exact with } }
            intro name there found
            refine twins.distinct name there ?_
            rw [FunctionTable.signature?, ← (FunctionTable.attach_eq_ok attached).1]
            exact found

end FunctionStructure

/-! ## Commands -/

namespace Host

variable {host : Host} {ticket : Nat} {command : Command}

theorem registerUnder_of_error {failure : Failure}
    (refused : host.commands.register command = .error failure) :
    host.registerUnder ticket command =
      (host.write [⟨.error, failure.message⟩]).keepRegistration ticket
        { host.registrations ticket with refusal := some failure.text } := by
  simp only [registerUnder, registerCommand, touchCommands, refused]

theorem registerUnder_of_ok {table : CommandTable}
    (taken : host.commands.register command = .ok table) :
    host.registerUnder ticket command =
      ({ host with commands := table } : Host).keepRegistration ticket
        { host.registrations ticket with registered := some command } := by
  simp only [registerUnder, registerCommand, touchCommands, taken]

end Host

namespace Comparison.Twins

/-- A command is registered for both loads under their tickets, or refused in the same words. -/
theorem registerUnder (twins : both.Twins first second) {ticket : Nat}
    (later : both.floor ≤ ticket) (command : Command) :
    both.Twins (first.inHost (·.registerUnder ticket command))
      (second.inHost (·.registerUnder (ticket + both.shift) (both.command command))) := by
  have alike := both.register_commands first.host.commands command
  rw [← twins.commands] at alike
  have kept (registration : Registration) (used : Nat) (known : both.floor ≤ used) :
      (if used + both.shift = ticket + both.shift then both.registration registration
        else second.host.registrations (used + both.shift)) =
      both.registration (if used = ticket then registration
        else first.host.registrations used) := by
    by_cases here : used = ticket
    · rw [if_pos here, if_pos (congrArg (· + both.shift) here)]
    · rw [if_neg here, if_neg fun same => here (Nat.add_right_cancel same),
        twins.registrations used known]
  cases taken : first.host.commands.register command with
  | error failure =>
    rw [taken] at alike
    simp only [Workspace.inHost, Host.registerUnder_of_error taken,
      Host.registerUnder_of_error alike, twins.registrations ticket later]
    exact { twins with
      registrations := kept { first.host.registrations ticket with refusal := some failure.text }
      exactly := fun exact =>
        let same := twins.exactly exact
        { same with log := congrArg (· ++ [(⟨.error, failure.message⟩ : LogEntry)]) same.log } }
  | ok table =>
    rw [taken] at alike
    simp only [Workspace.inHost, Host.registerUnder_of_ok taken, Host.registerUnder_of_ok alike,
      twins.registrations ticket later]
    exact { twins with
      commands := rfl
      registrations := kept { first.host.registrations ticket with registered := some command }
      exactly := fun exact => { twins.exactly exact with } }

/-- Both loads learn of the same refusal. -/
theorem takeRefusal (twins : both.Twins first second) {ticket : Nat}
    (later : both.floor ≤ ticket) :
    (second.host.takeRefusal (ticket + both.shift)).1 = (first.host.takeRefusal ticket).1 ∧
      both.Twins (first.inHost fun host => (host.takeRefusal ticket).2)
        (second.inHost fun host => (host.takeRefusal (ticket + both.shift)).2) := by
  refine ⟨?_, { twins with
    registrations := fun used known => ?_
    exactly := fun exact => { twins.exactly exact with } }⟩
  · rw [Host.takeRefusal, Host.takeRefusal, twins.registrations ticket later]
    rfl
  · change (if used + both.shift = ticket + both.shift then
        { second.host.registrations (ticket + both.shift) with refusal := none }
        else second.host.registrations (used + both.shift)) =
      both.registration (if used = ticket then
        { first.host.registrations ticket with refusal := none }
        else first.host.registrations used)
    by_cases here : used = ticket
    · rw [if_pos here, if_pos (congrArg (· + both.shift) here), twins.registrations ticket later]
      rfl
    · rw [if_neg here, if_neg fun same => here (Nat.add_right_cancel same),
        twins.registrations used known]

end Comparison.Twins

namespace CommandStructure

theorem submit_twins (twins : both.Twins first second) {ticket : Nat}
    (later : both.floor ≤ ticket) (command : Command) :
    both.Results (fun one other => other = one) (submit .main command ticket first)
      (submit .main (both.command command) (ticket + both.shift) second) := by
  obtain ⟨refusal, took⟩ := (twins.registerUnder later command).takeRefusal later
  have submits (workspace : Workspace) (ticket : Nat) (command : Command) :
      workspace.submit .main (.register ticket command) =
        workspace.inHost (·.registerUnder ticket command) :=
    congrArg (Workspace.mk · workspace.context) (Host.submit_main (.register ticket command) _)
  unfold submit
  dsimp only
  rw [submits, submits, refusal]
  split
  · exact .both rfl took
  · exact .both rfl ((took.declareCommand command.name).updateInfo (count command.name))

theorem load_twins (twins : both.Twins first second) (command : CommandStructure)
    (later : both.floor ≤ command.ticket) :
    both.Results
      (fun one other =>
        other = (one.map fun command => { command with ticket := command.ticket + both.shift }) ∧
          ∀ loaded, one = .ok loaded → loaded.ticket = command.ticket)
      (command.load .main first)
      ({ command with ticket := command.ticket + both.shift }.load .main second) := by
  unfold load
  dsimp only
  split
  · exact .both ⟨rfl, nofun⟩ twins
  · next body _ =>
    have reads := twins.reading_readCommand bodyEvent command.header body
    unfold loadBody
    generalize first.reading bodyEvent (·.readCommand command.header body) = one,
      second.reading bodyEvent (·.readCommand command.header body) = other at reads ⊢
    cases reads with
    | @both result _ first second same twins =>
      subst same
      cases result with
      | error failure => exact .both ⟨rfl, nofun⟩ twins
      | ok loaded =>
        have declared : both.Twins
            (first.inContext ({ · with commands := some first.context.currentCommands }))
            (second.inContext ({ · with commands := some first.context.currentCommands })) :=
          { twins with declared := rfl, exactly := fun exact => { twins.exactly exact with } }
        have submits := submit_twins declared later loaded
        dsimp only [Except.map]
        rw [twins.declared]
        change both.Results _ _ (if first.context.currentCommands.contains loaded.name then _ else _)
        split
        · exact .both ⟨rfl, nofun⟩ declared
        · generalize submit .main loaded command.ticket _ = one,
            submit .main (both.command loaded) (command.ticket + both.shift) _ = other
            at submits ⊢
          cases submits with
          | @both _ result first second same twins =>
            subst same
            cases result with
            | error failure => exact .both ⟨rfl, nofun⟩ twins
            | ok value =>
              refine .both ⟨rfl, ?_⟩ twins
              rintro _ ⟨⟩
              rfl

end CommandStructure

/-! ## All structures that are built in -/

namespace Structure

variable {one other : Structure}

theorem init_twins (twins : both.Twins first second) (alike : both.Alike one other)
    (header : MatchResult) (body : Section) :
    both.Phases (one.init header body first) (other.init header body second) := by
  cases alike with
  | options inner => exact .both _ (.options _) (twins.reportAll _)
  | aliases => exact .both _ .aliases (AliasesStructure.init_twins twins body)
  | defaults inner also same =>
    have seeds := VariablesStructure.init_twins twins body same
    dsimp only [init]
    generalize inner.init body first = one, also.init body second = other at seeds ⊢
    cases seeds with
    | both same twins => exact .both _ (.defaults _ _ same) twins
  | function inner own =>
    dsimp only [init, Renewal.inner, FunctionStructure.init]
    cases header.raws with
    | nil => exact .both _ (.function _ own) twins
    | cons written others =>
      exact .both _ (.function { inner with header := written, body := some body } own) twins
  | command inner later =>
    dsimp only [init, Renewal.inner, CommandStructure.init]
    cases header.raws with
    | nil => exact .both _ (.command _ later) twins
    | cons written others =>
      exact .both _ (.command { inner with header := written, body := some body } later) twins
  | event inner builtIn =>
    obtain ⟨result, one, after, other, ran, also, builtIn, twins⟩ :=
      EventStructure.init_twins twins header body inner builtIn
    dsimp only [init, Renewal.inner]
    rw [ran, also]
    exact .both _ (.event _ builtIn) twins

theorem preload_twins (twins : both.Twins first second) (alike : both.Alike one other) :
    both.Phases (one.preload first) (other.preload second) := by
  cases alike with
  | options inner => exact .both _ (.options _) (inner.apply_twins twins)
  | function inner own =>
    obtain ⟨result, after, other, ran, also, declares, twins⟩ :=
      FunctionStructure.preload_twins twins inner
    dsimp only [preload, Renewal.inner]
    rw [ran, also]
    cases result with
    | error failure => exact .both _ (.function _ own) twins
    | ok declared => exact .both _ (.function _ (declares declared rfl)) twins
  | aliases => exact .both _ .aliases twins
  | defaults inner also same => exact .both _ (.defaults _ _ same) twins
  | command inner later => exact .both _ (.command _ later) twins
  | event inner builtIn => exact .both _ (.event _ builtIn) twins

theorem load_twins (twins : both.Twins first second) (alike : both.Alike one other) :
    both.Phases (one.load .main first) (other.load .main second) := by
  cases alike with
  | options inner => exact .both _ (.options _) (inner.apply_twins twins)
  | function inner own =>
    have loads := FunctionStructure.load_twins twins own
    dsimp only [load, Renewal.inner]
    generalize inner.load first = one,
      FunctionStructure.load { inner with signature := inner.signature.map both.signature } second =
        other at loads ⊢
    cases loads with
    | both same twins =>
      subst same
      exact .both _ (.function _ own) twins
  | command inner later =>
    have loads := CommandStructure.load_twins twins inner later
    dsimp only [load, Renewal.inner]
    generalize inner.load .main first = one,
      CommandStructure.load .main { inner with ticket := inner.ticket + both.shift } second =
        other at loads ⊢
    cases loads with
    | @both result _ after _ same twins =>
      obtain ⟨rfl, ticket⟩ := same
      cases result with
      | error failure => exact .both _ (.command _ later) twins
      | ok loaded => exact .both _ (.command _ (ticket loaded rfl ▸ later)) twins
  | aliases => exact .both _ .aliases twins
  | defaults inner also same => exact .both _ (.defaults _ _ same) twins
  | event inner builtIn => exact .both _ (.event _ builtIn) twins

theorem afterLoad_twins (twins : both.Twins first second) (alike : both.Alike one other) :
    both.Phases (one.afterLoad first) (other.afterLoad second) := by
  cases alike with
  | options inner => exact .both _ (.options _) twins
  | function inner own => exact .both _ (.function _ own) twins
  | aliases => exact .both _ .aliases twins
  | defaults inner also same => exact .both _ (.defaults _ _ same) twins
  | command inner later => exact .both _ (.command _ later) twins
  | event inner builtIn => exact .both _ (.event _ builtIn) twins

end Structure

end ScriptBinding

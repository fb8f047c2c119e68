import ScriptBinding.Proofs.FailureLines
import ScriptBinding.Proofs.Ledger
import ScriptBinding.Proofs.Locality

/-! # What phases report

A structure that is built in knows its own section only. In every phase it names the script that is
current and lines of that section, whether it reports a failure itself or leaves that to the loader,
which supplies the line of the header where a failure knows none.
-/

namespace ScriptBinding

/-- The diagnostic names the script and one of the lines. -/
def Diagnostic.PointsTo (script : Option Script) (lines : List Nat) (diagnostic : Diagnostic) :
    Prop :=
  diagnostic.script = script.map Script.name ∧ ∃ line ∈ lines, diagnostic.line = some line

theorem Diagnostic.PointsTo.mono {script : Option Script} {lines others : List Nat}
    {diagnostic : Diagnostic} (points : diagnostic.PointsTo script lines)
    (subset : lines ⊆ others) : diagnostic.PointsTo script others := by
  obtain ⟨named, line, member, placed⟩ := points
  exact ⟨named, line, subset member, placed⟩

/-! ## Traces -/

/-- The diagnostics among the traces name the script and these lines. -/
def Traces.PointTo (script : Option Script) (lines : List Nat) (traces : Traces) : Prop :=
  ∀ diagnostic ∈ traces.diagnostics, diagnostic.PointsTo script lines

theorem Traces.PointTo.append {script : Option Script} {lines : List Nat} {first second : Traces}
    (one : first.PointTo script lines) (two : second.PointTo script lines) :
    (first.append second).PointTo script lines := by
  intro diagnostic member
  rcases List.mem_append.mp member with early | late
  · exact one diagnostic early
  · exact two diagnostic late

theorem Traces.PointTo.mono {script : Option Script} {lines others : List Nat} {traces : Traces}
    (point : traces.PointTo script lines) (subset : lines ⊆ others) :
    traces.PointTo script others :=
  fun diagnostic member => (point diagnostic member).mono subset

namespace Workspace

theorem recorded_pointTo (script : Option Script) (failure : Failure) {line : Nat}
    {lines : List Nat} (member : line ∈ lines) :
    (recorded script failure (some line)).PointTo script lines := by
  intro diagnostic isNew
  cases List.mem_singleton.mp isNew
  exact ⟨rfl, line, member, rfl⟩

theorem reported_pointTo (script : Option Script) {failures : List Failure} {lines : List Nat}
    (counted : ∀ line ∈ lines, 0 < line) (within : ∀ failure ∈ failures, failure.Within lines) :
    (reported script failures).PointTo script lines := by
  induction failures with
  | nil => exact nofun
  | cons failure others ih =>
    obtain ⟨line, member, known⟩ := (within failure List.mem_cons_self).line? counted
    rw [reported, known]
    exact (recorded_pointTo script failure member).append
      (ih fun other later => within other (List.mem_cons_of_mem _ later))

/-- What is wrong with a command in a script is said of lines of its section. -/
theorem commandIn_pointTo (script : Script) (classes : ClassRegistry) (scope : BodyScope)
    (header : String) {body : Section} (counted : ∀ line ∈ body.lines, 0 < line) :
    (commandIn (some script) classes scope header body).2.PointTo (some script) body.lines ∧
      ∀ failure, (commandIn (some script) classes scope header body).1 = .error failure →
        failure.Within body.lines := by
  unfold commandIn
  dsimp only
  split
  · next announced =>
    refine ⟨nofun, fun failure refused => ?_⟩
    cases refused
    exact ⟨body.line, body.line_mem_lines, CommandReading.readHeader_holds announced⟩
  · next command _ =>
    have stands := CommandReading.applyAll_standsOn body command
    have entries := reported_pointTo (some script) counted stands.failures
    split
    · refine ⟨entries, fun failure refused => ?_⟩
      cases refused
      exact ⟨body.line, body.line_mem_lines, rfl⟩
    · next trigger isBody =>
      have inside := stands.body trigger isBody
      obtain ⟨faults, refusal⟩ := Item.readBody_within scope trigger
      have items := reported_pointTo (some script) (fun line member => counted line (inside member))
        faults
      refine ⟨entries.append (items.mono inside), fun failure refused => ?_⟩
      exact (refusal failure (eq_error_of_map refused)).mono inside

/-! ## Workspaces -/

/-- The same script is current and the same classes are known, and what has been reported in
between names the script and these lines. -/
structure ReportsAt (lines : List Nat) (before after : Workspace) : Prop where
  script : after.context.script = before.context.script
  classes : after.host.classes = before.host.classes
  reports : ∃ own, after.context.diagnostics = before.context.diagnostics ++ own ∧
    ∀ diagnostic ∈ own, diagnostic.PointsTo before.context.script lines

namespace ReportsAt

variable {lines : List Nat} {before after : Workspace}

theorem of_silent (script : after.context.script = before.context.script)
    (classes : after.host.classes = before.host.classes)
    (same : after.context.diagnostics = before.context.diagnostics) :
    ReportsAt lines before after :=
  ⟨script, classes, [], by rw [same, List.append_nil], nofun⟩

theorem refl (workspace : Workspace) : ReportsAt lines workspace workspace :=
  of_silent rfl rfl rfl

theorem trans {middle : Workspace} (one : ReportsAt lines before middle)
    (two : ReportsAt lines middle after) : ReportsAt lines before after := by
  obtain ⟨early, isEarly, first⟩ := one.reports
  obtain ⟨late, isLate, second⟩ := two.reports
  refine ⟨two.script.trans one.script, two.classes.trans one.classes, early ++ late, ?_, ?_⟩
  · rw [isLate, isEarly, List.append_assoc]
  · intro diagnostic member
    rcases List.mem_append.mp member with isFirst | isSecond
    · exact first diagnostic isFirst
    · exact one.script ▸ second diagnostic isSecond

theorem leave {traces : Traces} {workspace : Workspace}
    (point : traces.PointTo workspace.context.script lines) :
    ReportsAt lines workspace (workspace.leave traces) :=
  ⟨rfl, rfl, traces.diagnostics, rfl, point⟩

/-- Failures that hold some of the lines are reported at these lines. -/
theorem reportAll {failures : List Failure} (counted : ∀ line ∈ lines, 0 < line)
    (within : ∀ failure ∈ failures, failure.Within lines) (workspace : Workspace) :
    ReportsAt lines workspace (workspace.reportAll failures) := by
  rw [reportAll_eq_leave]
  exact leave (reported_pointTo workspace.context.script counted within)

theorem report {failure : Failure} (counted : ∀ line ∈ lines, 0 < line)
    (within : failure.Within lines) (workspace : Workspace) :
    ReportsAt lines workspace (workspace.report failure) :=
  reportAll counted (fun _ member => List.mem_singleton.mp member ▸ within) workspace

/-- A failure that comes up at one of the lines, and holds no other, is reported at these lines. -/
theorem reportAt {failure : Failure} {line : Nat} (keeps : failure.KeepsTo lines)
    (member : line ∈ lines) (counted : 0 < line) (workspace : Workspace) :
    ReportsAt lines workspace (workspace.reportAt line failure) := by
  obtain ⟨own, isLine, placed⟩ := keeps.placed member counted
  unfold Workspace.reportAt
  dsimp only
  rw [placed, record_eq_leave]
  exact leave (recorded_pointTo workspace.context.script _ isLine)

theorem noteCall (call : PhaseCall) (workspace : Workspace) :
    ReportsAt lines workspace (workspace.inContext (·.noteCall call)) :=
  of_silent rfl rfl rfl

theorem submit (thread : Thread) (job : Job) (workspace : Workspace) :
    ReportsAt lines workspace (workspace.submit thread job) := by
  refine of_silent rfl ?_ rfl
  cases thread with
  | main =>
    change (workspace.host.submit .main job).classes = workspace.host.classes
    rw [Host.submit_main]
    exact (Host.perform_step job workspace.host).classes
  | worker => rfl

end ReportsAt

end Workspace

open Workspace (ReportsAt)

/-! ## Structures -/

/-- A structure that is not from outside, and whose section stands on some lines. A signature that
was declared without a section has line zero. -/
def Structure.StandsOn (lines : List Nat) : Structure → Prop
  | function inner => (∀ body ∈ inner.body, body.lines ⊆ lines) ∧
      ∀ signature ∈ inner.signature, signature.line ∈ 0 :: lines
  | command inner => ∀ body ∈ inner.body, body.lines ⊆ lines
  | custom _ => False
  | _ => True

/-- A phase reports at these lines, leaves a structure that stands on them, and fails with a failure
that holds no other. -/
structure Structure.KeepsTo {α : Type} (lines : List Nat) (before : Workspace)
    (result : Outcome α × Structure × Workspace) : Prop where
  failure : ∀ failure, result.1 = .failed failure → failure.KeepsTo lines
  stands : result.2.1.StandsOn lines
  reports : before.ReportsAt lines result.2.2

variable {lines : List Nat} {workspace : Workspace}

theorem AliasesStructure.init_reports {body : Section} (counted : ∀ line ∈ body.lines, 0 < line)
    (workspace : Workspace) :
    workspace.ReportsAt body.lines (AliasesStructure.init body workspace) := by
  unfold AliasesStructure.init
  dsimp only
  have loaded : workspace.ReportsAt body.lines { workspace with
      context := (workspace.context.loadAliases (body.convertToEntries 0 "=").nodes).1 } :=
    .of_silent rfl rfl rfl
  refine loaded.trans (ReportsAt.reportAll counted ?_ _)
  intro failure member
  refine (AliasTable.load_within _ _ failure member).mono ?_
  rw [Section.lineNumbers_convertToEntries]
  exact List.subset_cons_self _ _

theorem OptionsStructure.init_reports {body : Section} (counted : ∀ line ∈ body.lines, 0 < line)
    (options : OptionsStructure) (workspace : Workspace) :
    workspace.ReportsAt body.lines (options.init body workspace).2 := by
  refine ReportsAt.reportAll counted (fun failure member => ?_) workspace
  refine (flattenAll_within _ _ failure member).mono ?_
  rw [Section.lineNumbers_convertToEntries]
  exact List.subset_cons_self _ _

namespace VariablesStructure

theorem initNode_reports (counted : ∀ line ∈ lines, 0 < line) {node : Node}
    (subset : node.lines ⊆ lines) (defaults : VariablesStructure)
    (knows : workspace.host.classes.KnowsObjects) :
    workspace.ReportsAt lines (initNode (defaults, workspace) node).2 := by
  unfold initNode
  dsimp only
  split
  · next failed => exact .report counted ((seedNode_within knows failed).mono subset) workspace
  · exact .of_silent rfl rfl rfl

theorem init_reports {body : Section} (counted : ∀ line ∈ body.lines, 0 < line)
    (defaults : VariablesStructure) (knows : workspace.host.classes.KnowsObjects) :
    workspace.ReportsAt body.lines (defaults.init body workspace).2 := by
  have each (nodes : List Node) (subset : Node.lineNumbers nodes ⊆ body.lines)
      (defaults : VariablesStructure) (workspace : Workspace)
      (knows : workspace.host.classes.KnowsObjects) :
      workspace.ReportsAt body.lines (nodes.foldl initNode (defaults, workspace)).2 := by
    induction nodes generalizing defaults workspace with
    | nil => exact .refl workspace
    | cons node others ih =>
      rw [Node.lineNumbers_cons, List.append_subset] at subset
      have first := initNode_reports counted subset.1 defaults knows
      rw [List.foldl_cons]
      exact first.trans (ih subset.2 _ _ (first.classes ▸ knows))
  refine each _ ?_ defaults workspace knows
  rw [Section.lineNumbers_convertToEntries]
  exact List.subset_cons_self _ _

end VariablesStructure

namespace EventStructure

theorem buffer_reports (info : EventInfo) (filter : EventFilter) {body : Section}
    (counted : ∀ line ∈ body.lines, 0 < line) (event : EventStructure) (workspace : Workspace) :
    workspace.ReportsAt body.lines (buffer info filter body event workspace).2 ∧
      ∀ failure, (buffer info filter body event workspace).1 = .error failure →
        failure.KeepsTo body.lines := by
  obtain ⟨faults, refusal⟩ := Item.readBody_within (workspace.scopeFor (bodyEvent info)) body
  have read := ReportsAt.leave (Workspace.reported_pointTo workspace.context.script counted faults)
  unfold buffer
  rw [Workspace.reading_readBody]
  cases taken : (Item.readBody (workspace.scopeFor (bodyEvent info)) body).1 with
  | error failure =>
    refine ⟨read, fun other same => ?_⟩
    cases same
    exact (refusal failure taken).keepsTo
  | ok items =>
    dsimp only
    split
    all_goals exact ⟨read.trans (.of_silent rfl rfl rfl), nofun⟩

theorem start_reports (info : EventInfo) (filter : EventFilter) (header : MatchResult)
    {body : Section} (counted : ∀ line ∈ body.lines, 0 < line) (event : EventStructure)
    (workspace : Workspace) :
    workspace.ReportsAt body.lines (start info filter header body event workspace).2.2 ∧
      ∀ failure, (start info filter header body event workspace).1 = .error failure →
        failure.KeepsTo body.lines := by
  unfold start
  generalize filter.start header = started
  obtain ⟨taken, filter, notes⟩ := started
  have noted : workspace.ReportsAt body.lines (workspace.inHost (·.note notes)) :=
    .of_silent rfl rfl rfl
  dsimp only
  split
  · split
    · obtain ⟨read, refusal⟩ := buffer_reports info filter counted
        { event with filter := some filter } (workspace.inHost (·.note notes))
      exact ⟨noted.trans read, refusal⟩
    · exact ⟨noted, nofun⟩
  · exact ⟨noted, nofun⟩

theorem readPriority_keepsTo {filter : EventFilter} {line : Nat} {header : List Char}
    {failure : Failure} (fails : readPriority filter line header = .error failure)
    (member : line ∈ lines) : failure.KeepsTo lines := by
  unfold readPriority at fails
  split at fails
  · cases fails
  · split at fails
    · cases fails
      exact Failure.Holds.keepsTo rfl (List.mem_cons_of_mem _ member)
    · split at fails
      · cases fails
      · cases fails
        exact nofun

theorem initWith_reports (info : EventInfo) (header : MatchResult) {body : Section}
    (counted : ∀ line ∈ body.lines, 0 < line) (event : EventStructure) (workspace : Workspace) :
    workspace.ReportsAt body.lines (initWith info header body event workspace).2.2 ∧
      ∀ failure, (initWith info header body event workspace).1 = .error failure →
        failure.KeepsTo body.lines := by
  unfold initWith
  split
  · refine ⟨.refl workspace, fun failure same => ?_⟩
    cases same
    exact nofun
  · dsimp only
    split
    · next failed =>
      refine ⟨.refl workspace, fun failure same => ?_⟩
      cases same
      exact readPriority_keepsTo failed body.line_mem_lines
    · exact start_reports info _ _ counted _ workspace

theorem init_reports (header : MatchResult) {body : Section}
    (counted : ∀ line ∈ body.lines, 0 < line) (event : EventStructure) (workspace : Workspace) :
    workspace.ReportsAt body.lines (event.init header body workspace).2.2 ∧
      ∀ failure, (event.init header body workspace).1 = .error failure →
        failure.KeepsTo body.lines := by
  have inHand : workspace.ReportsAt body.lines (workspace.inContext
      ({ · with sectionInHand := some (workspace.context.sectionInHand.getD {}) })) :=
    .of_silent rfl rfl rfl
  unfold init
  dsimp only
  split
  · refine ⟨inHand, fun failure same => ?_⟩
    cases same
    exact nofun
  · split
    · refine ⟨inHand, fun failure same => ?_⟩
      cases same
      exact nofun
    · next info _ =>
      obtain ⟨reports, refusal⟩ := initWith_reports info header counted event (workspace.inContext
        ({ · with sectionInHand := some (workspace.context.sectionInHand.getD {}) }))
      exact ⟨inHand.trans reports, refusal⟩

end EventStructure

namespace FunctionStructure

/-- The line at which the signature of a function is read. -/
theorem line_mem {function : FunctionStructure}
    (bodies : ∀ body ∈ function.body, body.lines ⊆ lines) :
    (function.body.map Section.line).getD 0 ∈ 0 :: lines := by
  cases isBody : function.body with
  | none => exact List.mem_cons_self
  | some body => exact List.mem_cons_of_mem _ (bodies body isBody body.line_mem_lines)

theorem preload_reports {function : FunctionStructure}
    (stands : (Structure.function function).StandsOn lines) (workspace : Workspace) :
    workspace.ReportsAt lines (function.preload workspace).2 ∧
      (∀ inner, (function.preload workspace).1 = .ok inner →
        (Structure.function inner).StandsOn lines) ∧
      ∀ failure, (function.preload workspace).1 = .error failure → failure.KeepsTo lines := by
  obtain ⟨bodies, _⟩ := stands
  have member := line_mem bodies
  have refused (failure : Failure) (keeps : failure.KeepsTo lines) :
      workspace.ReportsAt lines workspace ∧
        (∀ inner, Except.error failure = .ok inner → (Structure.function inner).StandsOn lines) ∧
        ∀ other, (.error failure : Except Failure FunctionStructure) = .error other →
          other.KeepsTo lines :=
    ⟨.refl workspace, nofun, fun _ same => Except.error.inj same ▸ keeps⟩
  unfold preload
  split
  · exact refused _ nofun
  · dsimp only
    split
    · next failed => exact refused _ ((Signature.read_holds failed).keepsTo member)
    · next signature read =>
      have line := Signature.line_of_read read
      split
      · next failed =>
        exact refused _ ((FunctionTable.declare_holds failed).keepsTo (line ▸ member))
      · refine ⟨.of_silent rfl rfl rfl, fun inner same => ?_, nofun⟩
        cases same
        refine ⟨bodies, fun declared isDeclared => ?_⟩
        cases isDeclared
        exact line ▸ member

theorem load_reports {function : FunctionStructure} (counted : ∀ line ∈ lines, 0 < line)
    (stands : (Structure.function function).StandsOn lines) (workspace : Workspace) :
    workspace.ReportsAt lines (function.load workspace).2 ∧
      ∀ failure, (function.load workspace).1 = .error failure → failure.KeepsTo lines := by
  obtain ⟨bodies, declared⟩ := stands
  unfold load
  split
  · refine ⟨.refl workspace, fun failure same => ?_⟩
    cases same
    exact nofun
  · next body isBody =>
    have inside := bodies body isBody
    split
    · refine ⟨.refl workspace, fun failure same => ?_⟩
      cases same
      exact Failure.Holds.keepsTo rfl (List.mem_cons_of_mem _ (inside body.line_mem_lines))
    · next signature isDeclared =>
      obtain ⟨faults, refusal⟩ := Item.readBody_within (workspace.scopeFor bodyEvent) body
      have read : workspace.ReportsAt lines _ := ReportsAt.leave
        (Workspace.reported_pointTo workspace.context.script counted
          fun failure member => (faults failure member).mono inside)
      unfold loadBody
      rw [Workspace.reading_readBody]
      cases taken : (Item.readBody (workspace.scopeFor bodyEvent) body).1 with
      | error failure =>
        refine ⟨read, fun other same => ?_⟩
        cases same
        exact ((refusal failure taken).mono inside).keepsTo
      | ok items =>
        dsimp only
        split
        · next failed =>
          refine ⟨read, fun other same => ?_⟩
          cases same
          exact (FunctionTable.attach_holds failed).keepsTo (declared signature isDeclared)
        · exact ⟨read.trans (.of_silent rfl rfl rfl), nofun⟩

end FunctionStructure

namespace CommandStructure

theorem submit_reports (lines : List Nat) (thread : Thread) (command : Command) (ticket : Nat)
    (workspace : Workspace) :
    workspace.ReportsAt lines (submit thread command ticket workspace).2 ∧
      ∀ failure, (submit thread command ticket workspace).1 = .error failure →
        failure.KeepsTo lines := by
  have handed : workspace.ReportsAt lines (workspace.submit thread (.register ticket command)) :=
    .submit thread _ workspace
  unfold submit
  dsimp only
  split
  · refine ⟨handed.trans (.of_silent rfl rfl rfl), fun failure same => ?_⟩
    cases same
    exact nofun
  · exact ⟨handed.trans (.of_silent rfl rfl rfl), nofun⟩

/-- A command that is loaded keeps its section. -/
theorem load_body {thread : Thread} {command inner : CommandStructure}
    (loads : (command.load thread workspace).1 = .ok inner) : inner.body = command.body := by
  unfold load at loads
  split at loads
  · cases loads
  · unfold loadBody at loads
    split at loads
    · cases loads
    · dsimp only at loads
      split at loads
      · cases loads
      · obtain ⟨_, _, rfl⟩ := eq_ok_of_map loads
        rfl

theorem load_reports (thread : Thread) {command : CommandStructure} {script : Script}
    (counted : ∀ line ∈ lines, 0 < line) (stands : (Structure.command command).StandsOn lines)
    (current : workspace.context.script = some script) :
    workspace.ReportsAt lines (command.load thread workspace).2 ∧
      ∀ failure, (command.load thread workspace).1 = .error failure → failure.KeepsTo lines := by
  unfold load
  split
  · refine ⟨.refl workspace, fun failure same => ?_⟩
    cases same
    exact nofun
  · next body isBody =>
    have inside := stands body isBody
    obtain ⟨point, refusal⟩ := Workspace.commandIn_pointTo script workspace.host.classes
      (workspace.scopeFor bodyEvent) command.header
      (fun line member => counted line (inside member))
    rw [← current] at point refusal
    have read := ReportsAt.leave (point.mono inside)
    unfold loadBody
    rw [Workspace.reading_readCommand]
    cases taken : (workspace.commandFor bodyEvent command.header body).1 with
    | error failure =>
      refine ⟨read, fun other same => ?_⟩
      cases same
      exact ((refusal failure taken).mono inside).keepsTo
    | ok loaded =>
      dsimp only
      split
      · refine ⟨read.trans (.of_silent rfl rfl rfl), fun other same => ?_⟩
        cases same
        exact Failure.Holds.keepsTo rfl (List.mem_cons_of_mem _ (inside body.line_mem_lines))
      · have built (workspace : Workspace) : workspace.ReportsAt lines (workspace.inContext
            ({ · with commands := some workspace.context.currentCommands })) :=
          .of_silent rfl rfl rfl
        have submits := submit_reports lines thread loaded command.ticket
        refine ⟨(read.trans (built _)).trans (submits _).1, fun other same => ?_⟩
        exact (submits _).2 other (eq_error_of_map same)

end CommandStructure

namespace Structure

variable {inner : Structure}

theorem KeepsTo.done {α : Type} {value : α} {after : Workspace} (stands : inner.StandsOn lines)
    (reports : workspace.ReportsAt lines after) :
    KeepsTo lines workspace (Outcome.done value, inner, after) :=
  ⟨nofun, stands, reports⟩

theorem KeepsTo.failed {α : Type} {failure : Failure} {after : Workspace}
    (keeps : failure.KeepsTo lines) (stands : inner.StandsOn lines)
    (reports : workspace.ReportsAt lines after) :
    KeepsTo lines workspace ((.failed failure : Outcome α), inner, after) :=
  ⟨fun _ same => Outcome.failed.inj same ▸ keeps, stands, reports⟩

theorem KeepsTo.ofExcept {α : Type} {result : Except Failure α} {after : Workspace}
    (keeps : ∀ failure, result = .error failure → failure.KeepsTo lines)
    (stands : inner.StandsOn lines) (reports : workspace.ReportsAt lines after) :
    KeepsTo lines workspace (Outcome.ofExcept result, inner, after) := by
  cases result with
  | ok value => exact .done stands reports
  | error failure => exact .failed (keeps failure rfl) stands reports

theorem init_keepsTo (header : MatchResult) {body : Section}
    (counted : ∀ line ∈ body.lines, 0 < line) (stands : inner.StandsOn body.lines)
    (knows : workspace.host.classes.KnowsObjects) :
    KeepsTo body.lines workspace (inner.init header body workspace) := by
  have own : ∀ given ∈ some body, given.lines ⊆ body.lines := by
    rintro given ⟨⟩
    exact List.Subset.refl _
  cases inner with
  | options inner => exact .done trivial (inner.init_reports counted workspace)
  | function inner =>
    dsimp only [init]
    unfold FunctionStructure.init
    cases header.raws with
    | nil => exact .failed nofun stands (.refl workspace)
    | cons written others => exact .done ⟨own, stands.2⟩ (.refl workspace)
  | aliases => exact .done trivial (AliasesStructure.init_reports counted workspace)
  | defaults inner => exact .done trivial (inner.init_reports counted knows)
  | command inner =>
    dsimp only [init]
    unfold CommandStructure.init
    cases header.raws with
    | nil => exact .failed nofun stands (.refl workspace)
    | cons written others => exact .done own (.refl workspace)
  | event inner =>
    obtain ⟨reports, refusal⟩ := inner.init_reports header counted workspace
    exact .ofExcept refusal trivial reports
  | custom inner => exact stands.elim

theorem preload_keepsTo (stands : inner.StandsOn lines) :
    KeepsTo lines workspace (inner.preload workspace) := by
  cases inner with
  | function inner =>
    obtain ⟨reports, declared, refusal⟩ := inner.preload_reports stands workspace
    dsimp only [preload]
    generalize inner.preload workspace = result at *
    obtain ⟨_ | inner, after⟩ := result
    · exact .failed (refusal _ rfl) stands reports
    · exact .done (declared inner rfl) reports
  | options inner => exact .done trivial (.of_silent rfl rfl rfl)
  | aliases => exact .done trivial (.refl workspace)
  | defaults inner => exact .done trivial (.refl workspace)
  | command inner => exact .done stands (.refl workspace)
  | event inner => exact .done trivial (.refl workspace)
  | custom inner => exact stands.elim

theorem load_keepsTo (thread : Thread) {script : Script} (counted : ∀ line ∈ lines, 0 < line)
    (stands : inner.StandsOn lines) (current : workspace.context.script = some script) :
    KeepsTo lines workspace (inner.load thread workspace) := by
  cases inner with
  | function inner =>
    obtain ⟨reports, refusal⟩ := inner.load_reports counted stands workspace
    exact .ofExcept refusal stands reports
  | command inner =>
    have sameBody (loaded : CommandStructure)
        (loads : (inner.load thread workspace).1 = .ok loaded) :
        loaded.body = inner.body :=
      CommandStructure.load_body loads
    obtain ⟨reports, refusal⟩ := inner.load_reports thread counted stands current
    dsimp only [load]
    generalize inner.load thread workspace = result at *
    obtain ⟨_ | loaded, after⟩ := result
    · exact .failed (refusal _ rfl) stands reports
    · refine .done (fun body isBody => ?_) reports
      exact stands body (sameBody loaded rfl ▸ isBody)
  | options inner => exact .done trivial (.of_silent rfl rfl rfl)
  | aliases => exact .done trivial (.refl workspace)
  | defaults inner => exact .done trivial (.refl workspace)
  | event inner => exact .done trivial (.refl workspace)
  | custom inner => exact stands.elim

theorem afterLoad_keepsTo (stands : inner.StandsOn lines) :
    KeepsTo lines workspace (inner.afterLoad workspace) := by
  cases inner with
  | custom inner => exact stands.elim
  | function inner => exact .done stands (.refl workspace)
  | command inner => exact .done stands (.refl workspace)
  | options inner => exact .done trivial (.refl workspace)
  | aliases => exact .done trivial (.refl workspace)
  | defaults inner => exact .done trivial (.refl workspace)
  | event inner => exact .done trivial (.refl workspace)

/-- Settling a structure only takes something from the host, and a failure of it holds no line. -/
theorem settle_keepsTo (info : ScriptInfo) (stands : inner.StandsOn lines) :
    (inner.settle info workspace).2.2.context = workspace.context ∧
      ∀ failure, (inner.settle info workspace).1 = .failed failure → failure.KeepsTo lines := by
  cases inner with
  | command inner =>
    dsimp only [settle]
    unfold CommandStructure.settle Host.takeRefusal
    dsimp only
    cases (workspace.host.registrations inner.ticket).refusal with
    | none => exact ⟨rfl, nofun⟩
    | some text =>
      refine ⟨rfl, fun failure same => ?_⟩
      cases same
      exact nofun
  | custom inner => exact stands.elim
  | function inner => exact ⟨rfl, nofun⟩
  | options inner => exact ⟨rfl, nofun⟩
  | aliases => exact ⟨rfl, nofun⟩
  | defaults inner => exact ⟨rfl, nofun⟩
  | event inner => exact ⟨rfl, nofun⟩

end Structure

end ScriptBinding

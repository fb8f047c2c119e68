import ScriptBinding.Loader

/-! # What reading leaves behind

Reading a body or a header looks at the options, the declared functions and the current event, and
leaves diagnostics, entries of the log and notes. It touches nothing else, and nothing else than
what it looks at decides what it leaves.
-/

namespace ScriptBinding

/-- What reading leaves behind. -/
structure Traces where
  notes : List String := []
  log : List LogEntry := []
  diagnostics : List Diagnostic := []

/-- Traces behind other traces. -/
def Traces.append (first second : Traces) : Traces :=
  ⟨first.notes ++ second.notes, first.log ++ second.log, first.diagnostics ++ second.diagnostics⟩

namespace Workspace

/-- Leave traces. -/
def leave (traces : Traces) (workspace : Workspace) : Workspace where
  host := { workspace.host with
    notes := workspace.host.notes ++ traces.notes
    log := workspace.host.log ++ traces.log }
  context := { workspace.context with
    diagnostics := workspace.context.diagnostics ++ traces.diagnostics }

theorem leave_empty (workspace : Workspace) : workspace.leave {} = workspace := by
  simp only [leave, List.append_nil]

theorem leave_leave (first second : Traces) (workspace : Workspace) :
    (workspace.leave first).leave second = workspace.leave (first.append second) := by
  simp only [leave, Traces.append, List.append_assoc]

theorem script_leave (traces : Traces) (workspace : Workspace) :
    (workspace.leave traces).context.script = workspace.context.script := rfl

theorem bodyScope_leave (traces : Traces) (workspace : Workspace) :
    (workspace.leave traces).bodyScope = workspace.bodyScope := rfl

/-! ## Reports -/

/-- What the record of a failure leaves in a script. -/
def recorded (script : Option Script) (failure : Failure) (line : Option Nat) : Traces :=
  let (context, entry) := ({ script } : Context).record failure line
  { log := [entry], diagnostics := context.diagnostics }

theorem record_eq_leave (failure : Failure) (line : Option Nat) (workspace : Workspace) :
    workspace.record failure line =
      workspace.leave (recorded workspace.context.script failure line) := by
  simp only [record, Context.record, leave, recorded, Host.write, List.nil_append,
    List.append_nil]

/-- What the reports of failures leave in a script. -/
def reported (script : Option Script) : List Failure → Traces
  | [] => {}
  | failure :: others =>
    (recorded script failure failure.line?).append (reported script others)

theorem report_eq_leave (failure : Failure) (workspace : Workspace) :
    workspace.report failure =
      workspace.leave (recorded workspace.context.script failure failure.line?) :=
  record_eq_leave failure failure.line? workspace

theorem reportAll_eq_leave (failures : List Failure) (workspace : Workspace) :
    workspace.reportAll failures =
      workspace.leave (reported workspace.context.script failures) := by
  unfold reportAll
  induction failures generalizing workspace with
  | nil => exact (leave_empty workspace).symm
  | cons failure others ih =>
    rw [List.foldl_cons, ih, report_eq_leave, leave_leave]
    rfl

/-! ## Bodies -/

/-- What the bodies that are read for an event can refer to. -/
def scopeFor (event : CurrentEvent) (workspace : Workspace) : BodyScope :=
  (workspace.inContext (·.pushEvent event)).bodyScope

theorem readBody_eq_leave (body : Section) (workspace : Workspace) :
    workspace.readBody body =
      ((Item.readBody workspace.bodyScope body).1,
        workspace.leave (reported workspace.context.script
          (Item.readBody workspace.bodyScope body).2)) := by
  simp only [readBody, reportAll_eq_leave]

/-- Reading for an event is over once what was read for it has left its traces. -/
theorem reading_eq_leave {α : Type} (event : CurrentEvent) (act : Workspace → α × Workspace)
    (workspace : Workspace) (result : α) (traces : Traces)
    (acted : act (workspace.inContext (·.pushEvent event)) =
      (result, (workspace.inContext (·.pushEvent event)).leave traces)) :
    workspace.reading event act = (result, workspace.leave traces) := by
  have restored (events : List CurrentEvent) :
      (event :: events).drop ((event :: events).length - events.length) = events := by
    simp only [List.length_cons, Nat.add_sub_cancel_left, List.drop_succ_cons, List.drop_zero]
  unfold reading
  rw [acted]
  simp only [inContext, Context.pushEvent, Context.restoreEvents, leave, restored]

theorem reading_readBody (event : CurrentEvent) (body : Section) (workspace : Workspace) :
    workspace.reading event (·.readBody body) =
      ((Item.readBody (workspace.scopeFor event) body).1,
        workspace.leave (reported workspace.context.script
          (Item.readBody (workspace.scopeFor event) body).2)) := by
  refine reading_eq_leave event _ workspace _ _ ?_
  exact readBody_eq_leave body (workspace.inContext (·.pushEvent event))

/-! ## Commands -/

/-- What is left of reading a command, and the command, when bodies can refer to so much. -/
def commandIn (script : Option Script) (classes : ClassRegistry) (scope : BodyScope)
    (header : String) (body : Section) : Except Failure Command × Traces :=
  match script with
  | none => (.error (.fatal "Command parsed outside of a script"), {})
  | some script =>
    match CommandReading.readHeader classes script header body.line with
    | .error failure => (.error failure, {})
    | .ok command =>
      let reading := CommandReading.applyAll body command
      let left := reported script reading.failures
      match reading.body with
      | none => (.error (CommandReading.missingBody body.line command), left)
      | some trigger =>
        let (items, failures) := Item.readBody scope trigger
        (items.map fun items => { reading.command with items },
          left.append (reported script failures))

theorem readCommand_eq_leave (header : String) (body : Section) (workspace : Workspace) :
    workspace.readCommand header body =
      let read := commandIn workspace.context.script workspace.host.classes workspace.bodyScope
        header body
      (read.1, workspace.leave read.2) := by
  unfold readCommand commandIn
  cases current : workspace.context.script with
  | none => simp only [leave_empty]
  | some script =>
    cases announced : CommandReading.readHeader workspace.host.classes script header body.line with
    | error failure => simp only [announced, leave_empty]
    | ok command =>
      cases found : (CommandReading.applyAll body command).body with
      | none => simp only [announced, found, reportAll_eq_leave, current]
      | some trigger =>
        simp only [announced, found, reportAll_eq_leave, current, readBody_eq_leave, leave_leave,
          bodyScope_leave, script_leave]

/-- What is left of reading a command for an event, and the command. -/
def commandFor (event : CurrentEvent) (header : String) (body : Section) (workspace : Workspace) :
    Except Failure Command × Traces :=
  commandIn workspace.context.script workspace.host.classes (workspace.scopeFor event) header body

theorem reading_readCommand (event : CurrentEvent) (header : String) (body : Section)
    (workspace : Workspace) :
    workspace.reading event (·.readCommand header body) =
      ((workspace.commandFor event header body).1,
        workspace.leave (workspace.commandFor event header body).2) := by
  refine reading_eq_leave event _ workspace _ _ ?_
  exact readCommand_eq_leave header body (workspace.inContext (·.pushEvent event))

end Workspace

end ScriptBinding

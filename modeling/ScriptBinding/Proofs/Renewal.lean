import ScriptBinding.Proofs.FunctionOwnership
import ScriptBinding.Proofs.Jobs
import ScriptBinding.Proofs.Traces

/-! # One load in the place of another

Two loads of a file differ in their generation, and the structures of the later one have tickets
further on. Neither is looked at other than to tell loads and structures apart. So whatever is read
or declared for one load is read or declared for the other in the same words, with the one load in
the place of the other.
-/

namespace ScriptBinding

namespace Table

variable {α β : Type}

/-- Change the values of a table. -/
def map (change : α → β) (table : Table α) : Table β where
  entries := table.entries.map fun entry => (entry.1, change entry.2)
  sorted := List.pairwise_map.mpr table.sorted

theorem get?_map (change : α → β) (table : Table α) (key : String) :
    (table.map change).get? key = (table.get? key).map change := by
  obtain ⟨entries, sorted⟩ := table
  unfold get? map
  dsimp only
  clear sorted
  induction entries with
  | nil => rfl
  | cons first others ih =>
    rw [List.map_cons, find, find]
    split
    · rfl
    · exact ih

theorem map_insert (change : α → β) (table : Table α) (key : String) (value : α) :
    (table.insert key value).map change = (table.map change).insert key (change value) := by
  refine ext_get? fun other => ?_
  rw [get?_map, get?_insert, get?_insert, get?_map]
  split <;> rfl

/-- Values that are all left as they are. -/
theorem map_eq_self {change : α → α} {table : Table α}
    (stays : ∀ key value, table.get? key = some value → change value = value) :
    table.map change = table := by
  refine ext_get? fun key => ?_
  rw [get?_map]
  cases found : table.get? key with
  | none => rfl
  | some value => exact congrArg some (stays key value found)

end Table

/-! ## Bodies that refer to alike functions -/

/-- Bodies can refer to the same options in both scopes, and to functions that take the same
arguments. -/
structure BodyScope.Agrees (scope other : BodyScope) : Prop where
  options : other.options = scope.options
  inFunction : other.inFunction = scope.inFunction
  parameters : ∀ name, (other.signature? name).map Signature.parameters =
    (scope.signature? name).map Signature.parameters

namespace Item

variable {scope other : BodyScope}

theorem readCall_agrees (agrees : scope.Agrees other) (line : Nat) (name : String)
    (arguments : List String) :
    readCall other line name arguments = readCall scope line name arguments := by
  have parameters := agrees.parameters name
  unfold readCall
  cases found : scope.signature? name with
  | none =>
    rw [found, Option.map_none, Option.map_eq_none_iff] at parameters
    rw [parameters]
  | some signature =>
    rw [found, Option.map_some, Option.map_eq_some_iff] at parameters
    obtain ⟨also, there, same⟩ := parameters
    have accepts : also.accepts arguments.length = signature.accepts arguments.length := by
      rw [Signature.accepts, Signature.required, same]
      rfl
    rw [there]
    simp only [accepts, same]

theorem readLine_agrees (agrees : scope.Agrees other) (line : Nat) (text : String) :
    readLine other line text = readLine scope line text := by
  unfold readLine readPlain
  simp only [agrees.options, agrees.inFunction, readCall_agrees agrees]

mutual

theorem readNode_agrees (agrees : scope.Agrees other) (node : Node) :
    readNode other node = readNode scope node := by
  match node with
  | .simple key line => simp only [readNode, readLine_agrees agrees]
  | .entry key value line => simp only [readNode, readLine_agrees agrees]
  | .nested key line nodes =>
    simp only [readNode, agrees.options, readNodes_agrees agrees nodes]

theorem readNodes_agrees (agrees : scope.Agrees other) (nodes : List Node) :
    readNode.readNodes other nodes = readNode.readNodes scope nodes := by
  match nodes with
  | [] => simp only [readNode.readNodes]
  | node :: others =>
    simp only [readNode.readNodes, readNode_agrees agrees node, readNodes_agrees agrees others]

end

/-- A body is read alike in scopes that agree. -/
theorem readBody_agrees (agrees : scope.Agrees other) (body : Section) :
    readBody other body = readBody scope body := by
  unfold readBody
  rw [readNodes_agrees agrees]

end Item

/-! ## Renewals -/

/-- A load of a file that takes the place of another load of it. -/
structure Renewal where
  old : Script
  new : Script
  path : new.path = old.path
  /-- How much further on the tickets of the new load are. -/
  shift : Nat := 0

namespace Renewal

variable (renewal : Renewal)

/-- The new load for the old one. -/
def script (script : Script) : Script :=
  if script = renewal.old then renewal.new else script

/-- The load is the old one, or it can be told from both. -/
def Distinct (script : Script) : Prop :=
  script = renewal.old ∨ script.same renewal.old = false ∧ script.same renewal.new = false

theorem script_old : renewal.script renewal.old = renewal.new :=
  if_pos rfl

theorem new_name : renewal.new.name = renewal.old.name := by
  unfold Script.name
  rw [renewal.path]

theorem script_name (script : Script) : (renewal.script script).name = script.name := by
  unfold Renewal.script
  split
  · next same => rw [same, renewal.new_name]
  · rfl

theorem same_script {script : Script} (distinct : renewal.Distinct script) :
    (renewal.script script).same renewal.new = script.same renewal.old := by
  by_cases same : script = renewal.old
  · rw [same, script_old, Script.same_refl, Script.same_refl]
  · obtain ⟨notOld, notNew⟩ := distinct.resolve_left same
    rw [Renewal.script, if_neg same, notOld, notNew]

/-! ### What carries a load -/

def signature (signature : Signature) : Signature :=
  { signature with script := renewal.script signature.script }

def function (function : Function) : Function :=
  { function with signature := renewal.signature function.signature }

def command (command : Command) : Command :=
  { command with script := renewal.script command.script }

def registration (registration : Registration) : Registration :=
  { registration with registered := registration.registered.map renewal.command }

/-- The trigger of the old load as one of the new load. -/
def trigger (trigger : Trigger) : Trigger :=
  if trigger.script = renewal.old then
    { trigger with script := renewal.new, ticket := trigger.ticket + renewal.shift }
  else trigger

def subscription (subscription : Subscription) : Subscription :=
  { subscription with trigger := renewal.trigger subscription.trigger }

/-- The draft of a trigger of the old load as one of the new load. -/
def draft (draft : TriggerDraft) : TriggerDraft :=
  { draft with ticket := draft.ticket + renewal.shift }

def functions (functions : FunctionTable) : FunctionTable where
  signatures := functions.signatures.map renewal.signature
  bodies := functions.bodies.map renewal.function

def commands (commands : CommandTable) : CommandTable :=
  { commands with commands := commands.commands.map renewal.command }

/-- The section of the old load as one of the new load. -/
def inner : Structure → Structure
  | .function inner =>
    .function { inner with signature := inner.signature.map renewal.signature }
  | .command inner => .command { inner with ticket := inner.ticket + renewal.shift }
  | .event inner => .event { inner with ticket := inner.ticket + renewal.shift }
  | other => other

def structureOf (loaded : LoadedStructure) : LoadedStructure :=
  { loaded with inner := renewal.inner loaded.inner }

def loaded (loaded : LoadedScript) : LoadedScript :=
  { loaded with
    script := renewal.script loaded.script
    structures := loaded.structures.map renewal.structureOf }

/-! ### Functions -/

/-- A signature reads alike for both loads. -/
theorem read_signature (classes : ClassRegistry) (text : String) (line : Nat) :
    Signature.read classes renewal.new text line =
      (Signature.read classes renewal.old text line).map renewal.signature := by
  unfold Signature.read
  split
  · rfl
  · dsimp only
    split
    · rfl
    · split
      · rfl
      · simp only [Except.map, signature, script_old]

theorem signature?_functions (functions : FunctionTable) (name : String) :
    (renewal.functions functions).signature? name =
      (functions.signature? name).map renewal.signature :=
  Table.get?_map ..

/-- A name is refused in the same words for both loads. -/
theorem declare_functions (signature : Signature) (functions : FunctionTable) :
    (renewal.functions functions).declare (renewal.signature signature) =
      (functions.declare signature).map renewal.functions := by
  unfold FunctionTable.declare
  rw [signature?_functions]
  dsimp only [Renewal.signature]
  cases functions.signature? signature.name with
  | some existing =>
    simp only [Option.map_some, Except.map, Renewal.signature, script_name]
  | none =>
    simp only [Option.map_none, Except.map, Renewal.functions, Table.map_insert,
      Renewal.signature]

theorem declares_functions {functions : FunctionTable} {signature : Signature}
    (distinct : ∀ name there, functions.signature? name = some there →
      renewal.Distinct there.script)
    (own : signature.script = renewal.old) :
    (renewal.functions functions).declares (renewal.signature signature) =
      functions.declares signature := by
  unfold FunctionTable.declares
  rw [signature?_functions]
  dsimp only [Renewal.signature]
  cases found : functions.signature? signature.name with
  | none => rfl
  | some there =>
    simp only [Option.map_some, Option.any_some, Signature.same, Renewal.signature, own,
      script_old, renewal.same_script (distinct _ there found)]

/-- A body is taken for both loads or for neither. -/
theorem attach_functions {functions : FunctionTable} {signature : Signature} {items : List Item}
    (distinct : ∀ name there, functions.signature? name = some there →
      renewal.Distinct there.script)
    (own : signature.script = renewal.old) :
    (renewal.functions functions).attach ⟨renewal.signature signature, items⟩ =
      (functions.attach ⟨signature, items⟩).map renewal.functions := by
  unfold FunctionTable.attach
  dsimp only
  rw [renewal.declares_functions distinct own]
  split
  · simp only [Except.map, Renewal.functions, Table.map_insert, Renewal.function,
      Renewal.signature]
  · rfl

/-! ### Commands -/

/-- What is read of a command of the old load, for the new load. -/
def reading (reading : CommandReading) : CommandReading :=
  { reading with command := renewal.command reading.command }

theorem readHeader_command (classes : ClassRegistry) (header : String) (line : Nat) :
    CommandReading.readHeader classes renewal.new header line =
      (CommandReading.readHeader classes renewal.old header line).map renewal.command := by
  unfold CommandReading.readHeader
  dsimp only
  split
  · split
    · rfl
    · simp only [Except.map, command, script_old]
  · rfl

theorem applyEntry_reading (key value : String) (line : Nat) (reading : CommandReading) :
    (renewal.reading reading).applyEntry key value line =
      renewal.reading (reading.applyEntry key value line) := by
  unfold CommandReading.applyEntry
  split
  case h_6 => cases Executors.read? value <;> rfl
  all_goals rfl

theorem apply_reading (reading : CommandReading) (node : Node) :
    (renewal.reading reading).apply node = renewal.reading (reading.apply node) := by
  cases node with
  | entry key value line => exact renewal.applyEntry_reading key value line reading
  | simple key line => rfl
  | nested key line nodes =>
    unfold CommandReading.apply
    dsimp only
    split <;> rfl

theorem applyAll_command (tree : Section) (command : Command) :
    CommandReading.applyAll tree (renewal.command command) =
      renewal.reading (CommandReading.applyAll tree command) := by
  unfold CommandReading.applyAll
  have kept (nodes : List Node) (reading : CommandReading) :
      nodes.foldl CommandReading.apply (renewal.reading reading) =
        renewal.reading (nodes.foldl CommandReading.apply reading) := by
    induction nodes generalizing reading with
    | nil => rfl
    | cons node others ih =>
      rw [List.foldl_cons, apply_reading, ih, List.foldl_cons]
  exact kept _ { command }

/-- The failures of both loads are recorded in the same words. -/
theorem reported_eq (failures : List Failure) :
    Workspace.reported (some renewal.new) failures =
      Workspace.reported (some renewal.old) failures := by
  have recorded (failure : Failure) (line : Option Nat) :
      Workspace.recorded (some renewal.new) failure line =
        Workspace.recorded (some renewal.old) failure line := by
    simp only [Workspace.recorded, Context.record, Option.map_some, renewal.new_name]
  induction failures with
  | nil => rfl
  | cons failure others ih => rw [Workspace.reported, Workspace.reported, recorded, ih]

/-- A command reads alike for both loads, and leaves the same traces. -/
theorem commandIn_eq {scope other : BodyScope} (agrees : scope.Agrees other)
    (classes : ClassRegistry) (header : String) (body : Section) :
    Workspace.commandIn (some renewal.new) classes other header body =
      ((Workspace.commandIn (some renewal.old) classes scope header body).1.map renewal.command,
        (Workspace.commandIn (some renewal.old) classes scope header body).2) := by
  unfold Workspace.commandIn
  dsimp only
  rw [renewal.readHeader_command]
  cases CommandReading.readHeader classes renewal.old header body.line with
  | error failure => rfl
  | ok command =>
    dsimp only [Except.map]
    rw [renewal.applyAll_command, renewal.reported_eq]
    cases found : (CommandReading.applyAll body command).body with
    | none => simp only [reading, found]; rfl
    | some trigger =>
      simp only [reading, found, Item.readBody_agrees agrees, renewal.reported_eq]
      cases (Item.readBody scope trigger).1 <;> rfl

/-- A command is refused in the same words for both loads. -/
theorem register_commands (table : CommandTable) (command : Command) :
    (renewal.commands table).register (renewal.command command) =
      (table.register command).map renewal.commands := by
  unfold CommandTable.register
  dsimp only [Renewal.commands, Renewal.command, Command.labels]
  split
  · rfl
  · simp only [Except.map, Renewal.commands, Table.map_insert, Renewal.command]

end Renewal

end ScriptBinding

import ScriptBinding.Proofs.BodyAccounts
import ScriptBinding.Proofs.EntryConversion

/-! # What becomes of the parts of a command

Every child of the section of a command sets a field of the command or leaves a report. Of several
children that set one field the last one counts, as everywhere in scripts, and nothing is said of
the others. In the body that counts, every line becomes an item unless it is reported, or a header
above it.
-/

namespace ScriptBinding

/-! ## Fields -/

/-- What children of the section of a command set. -/
inductive CommandField where
  | usage | description | permission | permissionMessage | aliases | executors | items
deriving DecidableEq

/-- What a field holds. -/
def CommandField.Value : CommandField → Type
  | usage => String
  | description => String
  | permission => Option String
  | permissionMessage => Option String
  | aliases => List String
  | executors => Executors
  | items => List Item

/-- The field that an entry sets, and to what, by its key in lower case. -/
def CommandField.setting? (name value key : String) :
    Option ((field : CommandField) × field.Value) :=
  match key with
  | "usage" => some ⟨.usage, value⟩
  | "description" => some ⟨.description, value⟩
  | "permission" => some ⟨.permission, some value⟩
  | "permission message" => some ⟨.permissionMessage, some value⟩
  | "aliases" => some ⟨.aliases, CommandReading.aliasesOf name value⟩
  | "executable by" => (Executors.read? value).map (⟨.executors, ·⟩)
  | _ => none

/-- The value of a field. -/
def Command.get (command : Command) : (field : CommandField) → field.Value
  | .usage => command.usage
  | .description => command.description
  | .permission => command.permission
  | .permissionMessage => command.permissionMessage
  | .aliases => command.aliases
  | .executors => command.executors
  | .items => command.items

/-- The nodes of a section, of which the lines have been cut into entries. -/
def Section.children (tree : Section) : List Node :=
  (tree.convertToEntries 0 ":").nodes

theorem Section.lines_children (tree : Section) :
    tree.children.map Node.line = tree.nodes.map Node.line := by
  have line_convert (node : Node) : (node.convert ":" 0).line = node.line := by
    cases node with
    | simple key line =>
      unfold Node.convert Node.ofLine
      split <;> rfl
    | entry key value line => rfl
    | nested key line nodes => rfl
  rw [Section.children, Section.convertToEntries, Node.convertAll_eq_map, List.map_map]
  exact List.map_congr_left fun node _ => line_convert node

namespace Node

/-- The section of the body that a child is. -/
def body? : Node → Option Section
  | .nested key line nodes =>
    if Text.equalIgnoringAsciiCase key "trigger" then some ⟨key, line, nodes⟩ else none
  | _ => none

/-- The field that a child sets, and to what, when the command has this name and its bodies can
refer to so much. -/
def setting? (scope : BodyScope) (name : String) (node : Node) :
    Option ((field : CommandField) × field.Value) :=
  match node with
  | .entry key value _ => CommandField.setting? name value (Text.lower key)
  | other => other.body?.map fun body => ⟨.items, (Item.readNode.readNodes scope body.nodes).1⟩

/-- What is said of a child that sets no field. -/
def complaint (name : String) : Node → String
  | .entry key value _ =>
    if Text.lower key = "executable by" then s!"'{value}' is not a valid value for 'executable by'"
    else s!"Unexpected entry '{Text.lower key}' in command /{name}"
  | other => s!"Unexpected line '{other.key}' in command /{name}"

/-- What is wrong with a child. -/
def misfit? (scope : BodyScope) (name : String) (node : Node) : Option Failure :=
  if (node.setting? scope name).isSome then none else some (.config node.line (node.complaint name))

/-- A child sets a field. -/
def Sets (scope : BodyScope) (name : String) (field : CommandField) (node : Node) : Prop :=
  ∃ value, node.setting? scope name = some ⟨field, value⟩

end Node

/-! ## One child -/

namespace CommandReading

variable (scope : BodyScope)

/-- The command as far as it has been read, with the items of its body. -/
def made (reading : CommandReading) : Command :=
  { reading.command with
    items := match reading.body with
      | none => []
      | some body => (Item.readNode.readNodes scope body.nodes).1 }

/-- What taking over a child changes. -/
structure Takes (node : Node) (reading after : CommandReading) : Prop where
  named : after.command.name = reading.command.name
  failures : after.failures =
    reading.failures ++ (node.misfit? scope reading.command.name).toList
  body : after.body = node.body?.or reading.body
  /-- The field that the child sets has the value it gives. -/
  own : ∀ field value, node.setting? scope reading.command.name = some ⟨field, value⟩ →
    (after.made scope).get field = value
  /-- The other fields stay as they are. -/
  others : ∀ field, ¬ node.Sets scope reading.command.name field →
    (after.made scope).get field = (reading.made scope).get field

variable {scope} {reading : CommandReading} {node : Node}

/-- A child that sets a field of the command changes nothing else. -/
theorem takes_update {change : Command → Command} {field : CommandField} {value : field.Value}
    (sets : node.setting? scope reading.command.name = some ⟨field, value⟩)
    (noBody : node.body? = none)
    (sameName : (change reading.command).name = reading.command.name)
    (own : ((reading.update change).made scope).get field = value)
    (others : ∀ other, other ≠ field →
      ((reading.update change).made scope).get other = (reading.made scope).get other) :
    Takes scope node reading (reading.update change) where
  named := sameName
  failures := by
    rw [Node.misfit?, sets]
    exact (List.append_nil _).symm
  body := by
    rw [noBody]
    rfl
  own := by
    intro field value same
    cases sets.symm.trans same
    exact own
  others := fun other unset =>
    others other fun same => unset (same ▸ ⟨value, sets⟩)

/-- A child that sets no field is reported. -/
theorem takes_fail (silent : node.setting? scope reading.command.name = none)
    (noBody : node.body? = none) {text : String}
    (complaint : node.complaint reading.command.name = text) :
    Takes scope node reading (reading.fail node.line text) where
  named := rfl
  failures := by
    rw [Node.misfit?, silent, complaint]
    rfl
  body := by
    rw [noBody]
    rfl
  own := by
    intro field value sets
    rw [silent] at sets
    cases sets
  others := fun _ _ => rfl

/-- The section of a body is kept to be read. -/
theorem takes_body {body : Section} (isBody : node.body? = some body)
    (sets : node.setting? scope reading.command.name =
      some ⟨.items, (Item.readNode.readNodes scope body.nodes).1⟩) :
    Takes scope node reading { reading with body := some body } where
  named := rfl
  failures := by
    rw [Node.misfit?, sets]
    exact (List.append_nil _).symm
  body := by
    rw [isBody]
    rfl
  own := by
    intro field value same
    cases sets.symm.trans same
    rfl
  others := by
    intro field unset
    cases field
    case items => exact absurd ⟨_, sets⟩ unset
    all_goals rfl

theorem applyEntry_takes (key value : String) (line : Nat) (reading : CommandReading) :
    Takes scope (.entry key value line) reading (reading.applyEntry key value line) := by
  have set {lowered : String} (named : Text.lower key = lowered) :
      (Node.entry key value line).setting? scope reading.command.name =
        CommandField.setting? reading.command.name value lowered :=
    congrArg (CommandField.setting? _ value) named
  unfold applyEntry
  split
  case h_6 named =>
    cases given : Executors.read? value with
    | some executors =>
      have sets : CommandField.setting? reading.command.name value "executable by" =
          some ⟨.executors, executors⟩ := by
        rw [CommandField.setting?, given]
        rfl
      refine takes_update ((set named).trans sets) rfl rfl rfl ?_
      intro other apart
      cases other <;> first | rfl | exact absurd rfl apart
    | none =>
      have silent : CommandField.setting? reading.command.name value "executable by" = none := by
        rw [CommandField.setting?, given]
        rfl
      exact takes_fail ((set named).trans silent) rfl (if_pos named)
  case h_7 usage description permission message aliases executors =>
    refine takes_fail ((set rfl).trans ?_) rfl (if_neg executors)
    unfold CommandField.setting?
    split
    case h_1 named => exact (usage named).elim
    case h_2 named => exact (description named).elim
    case h_3 named => exact (permission named).elim
    case h_4 named => exact (message named).elim
    case h_5 named => exact (aliases named).elim
    case h_6 named => exact (executors named).elim
    case h_7 => rfl
  -- Any other of the known entries sets its field, whatever its value is.
  all_goals
    rename_i named
    refine takes_update (set named) rfl rfl rfl ?_
    intro other apart
    cases other <;> first | rfl | exact absurd rfl apart

theorem apply_takes (reading : CommandReading) (node : Node) :
    Takes scope node reading (reading.apply node) := by
  cases node with
  | simple key line => exact takes_fail rfl rfl rfl
  | nested key line nodes =>
    unfold apply
    dsimp only
    split
    · next named =>
      have isBody : (Node.nested key line nodes).body? = some ⟨key, line, nodes⟩ := if_pos named
      exact takes_body isBody (by rw [Node.setting?, isBody]; rfl; nofun)
    · next other =>
      have noBody : (Node.nested key line nodes).body? = none := if_neg other
      exact takes_fail (by rw [Node.setting?, noBody]; rfl; nofun) noBody rfl
  | entry key value line => exact applyEntry_takes key value line reading

/-! ## All the children -/

/-- What taking over some children changes, when the command has this name. -/
structure TakesAll (scope : BodyScope) (name : String) (nodes : List Node)
    (reading after : CommandReading) : Prop where
  named : after.command.name = name
  failures : after.failures = reading.failures ++ nodes.filterMap (Node.misfit? scope name)
  body : after.body = (nodes.filterMap Node.body?).getLast?.or reading.body
  /-- A child decides the field that it sets, unless a later one sets it. -/
  decided : ∀ before node behind, nodes = before ++ node :: behind →
    ∀ field value, node.setting? scope name = some ⟨field, value⟩ →
      (after.made scope).get field = value ∨ ∃ later ∈ behind, later.Sets scope name field
  /-- A field that no child sets stays as it is. -/
  others : ∀ field, (∀ node ∈ nodes, ¬ node.Sets scope name field) →
    (after.made scope).get field = (reading.made scope).get field

theorem foldl_takesAll (nodes : List Node) {name : String}
    (named : reading.command.name = name) :
    TakesAll scope name nodes reading (nodes.foldl apply reading) := by
  induction nodes generalizing reading with
  | nil => exact ⟨named, (List.append_nil _).symm, rfl, by simp, fun _ _ => rfl⟩
  | cons first rest ih =>
    have step : Takes scope first reading (reading.apply first) := apply_takes reading first
    have run := ih (step.named.trans named)
    rw [List.foldl_cons]
    refine ⟨run.named, ?_, ?_, ?_, ?_⟩
    · rw [run.failures, step.failures, named, List.append_assoc, List.filterMap_cons]
      cases first.misfit? scope name <;> rfl
    · rw [run.body, step.body, List.filterMap_cons]
      cases first.body? with
      | none => rfl
      | some body =>
        dsimp only
        rw [List.getLast?_cons, Option.some_or, Option.or_some, Option.some_or]
    · intro before node behind split field value sets
      -- The first child decides its field only if none of the others sets it.
      cases before with
      | nil =>
        cases split
        by_cases later : ∃ later ∈ rest, later.Sets scope name field
        · exact .inr later
        · refine .inl ((run.others field fun node member set => later ⟨node, member, set⟩).trans ?_)
          exact step.own field value (named ▸ sets)
      | cons _ before =>
        cases split
        exact run.decided before node behind rfl field value sets
    · intro field unset
      have own := unset first List.mem_cons_self
      exact (run.others field fun node member => unset node (List.mem_cons_of_mem _ member)).trans
        (step.others field (named ▸ own))

end CommandReading

/-! ## The lines of the body -/

namespace Item

variable {scope : BodyScope}

theorem mem_spread (item : Item) : item ∈ item.spread := by
  cases item <;> exact List.mem_cons_self

theorem line_of_shape {item : Item} {line : Nat} (leaf : item.shape = .leaf line) :
    item.line = line := by
  cases item <;> cases leaf
  all_goals rfl

theorem readLeaf_lines (depth : Nat) {node : Node} (leaf : node.section? = none) :
    ∀ row ∈ node.rows depth,
      (∃ item ∈ spread.spreadAll (readNode scope node).1.toList, item.line = row.2.line) ∨
        ∃ above ∈ node.rows depth, row ∈ above.2.rows above.1 ∧ above.2 ∈ reached scope node ∧
          (fault? scope above.2).isSome = true := by
  have rows : node.rows depth = [(depth, node)] := by
    cases node <;> first | rfl | cases leaf
  have same : reached scope node = [node] := by
    cases node <;> first | rfl | cases leaf
  have reads : (readNode scope node).1 = (readLine scope node.line (textOf node)).toOption := by
    cases node with
    | nested key line nodes => cases leaf
    | simple key line | entry key value line =>
      unfold readNode
      dsimp only [Node.line, textOf, Node.key]
      split <;> next read => rw [read]; rfl
  intro row member
  cases List.mem_singleton.mp (rows ▸ member)
  rw [reads]
  cases read : readLine scope node.line (textOf node) with
  | ok item =>
    refine .inl ⟨item, ?_, line_of_shape (readLine_ok read).1⟩
    exact List.mem_append_left _ (mem_spread item)
  | error failure =>
    refine .inr ⟨(depth, node), member, member, same ▸ List.mem_singleton_self _, ?_⟩
    rw [fault?_of_line leaf, read]
    rfl

mutual

/-- Every line of a node becomes an item, unless it is at fault, or a header above it. -/
theorem readNode_lines (depth : Nat) (node : Node) : ∀ row ∈ node.rows depth,
    (∃ item ∈ spread.spreadAll (readNode scope node).1.toList, item.line = row.2.line) ∨
      ∃ above ∈ node.rows depth, row ∈ above.2.rows above.1 ∧ above.2 ∈ reached scope node ∧
        (fault? scope above.2).isSome = true := by
  match node with
  | .simple key line => exact readLeaf_lines depth rfl
  | .entry key value line => exact readLeaf_lines depth rfl
  | .nested key line nodes =>
    intro row member
    cases replaces : scope.options.replace line key with
    | error failure =>
      have fault : (fault? scope (.nested key line nodes)).isSome = true := by
        rw [fault?, replaces]
        rfl
      exact .inr ⟨(depth, .nested key line nodes), List.mem_cons_self, member,
        List.mem_cons_self, fault⟩
    | ok header =>
      have sound : ¬ (fault? scope (.nested key line nodes)).isSome = true := by
        rw [fault?, replaces]
        exact Bool.false_ne_true
      rw [readNode, replaces, reached, if_neg sound]
      dsimp only
      rw [Option.toList_some, spread.spreadAll, spread, spread.spreadAll, List.append_nil]
      rcases List.mem_cons.mp member with rfl | below
      · exact .inl ⟨_, List.mem_cons_self, rfl⟩
      · refine (readNodes_lines (depth + 1) nodes row below).imp ?_ ?_
        · exact fun ⟨item, kept, same⟩ => ⟨item, List.mem_cons_of_mem _ kept, same⟩
        · exact fun ⟨above, isRow, under, isReached, fault⟩ =>
            ⟨above, List.mem_cons_of_mem _ isRow, under, List.mem_cons_of_mem _ isReached, fault⟩

theorem readNodes_lines (depth : Nat) (nodes : List Node) : ∀ row ∈ Node.rows.rowsOf depth nodes,
    (∃ item ∈ spread.spreadAll (readNode.readNodes scope nodes).1, item.line = row.2.line) ∨
      ∃ above ∈ Node.rows.rowsOf depth nodes, row ∈ above.2.rows above.1 ∧
        above.2 ∈ reached.reachedAll scope nodes ∧ (fault? scope above.2).isSome = true := by
  match nodes with
  | [] => exact fun _ absent => absurd absent List.not_mem_nil
  | node :: others =>
    intro row member
    rw [Node.rows.rowsOf] at member ⊢
    rw [readNode.readNodes, reached.reachedAll]
    dsimp only
    rw [spreadAll_append]
    rcases List.mem_append.mp member with first | later
    · refine (readNode_lines depth node row first).imp ?_ ?_
      · exact fun ⟨item, kept, same⟩ => ⟨item, List.mem_append_left _ kept, same⟩
      · exact fun ⟨above, isRow, below, isReached, fault⟩ =>
          ⟨above, List.mem_append_left _ isRow, below, List.mem_append_left _ isReached, fault⟩
    · refine (readNodes_lines depth others row later).imp ?_ ?_
      · exact fun ⟨item, kept, same⟩ => ⟨item, List.mem_append_right _ kept, same⟩
      · exact fun ⟨above, isRow, below, isReached, fault⟩ =>
          ⟨above, List.mem_append_right _ isRow, below, List.mem_append_right _ isReached, fault⟩

end

end Item

/-! ## Commands -/

namespace Workspace

/-- There is a diagnostic of what is wrong with a node. -/
def Tells (workspace after : Workspace) (node : Node) (failure : Failure) : Prop :=
  workspace.faultAt node failure ∈ after.context.diagnostics

/-- What becomes of the parts of a command. -/
structure KeepsParts (workspace : Workspace) (body : Section) (command : Command)
    (after : Workspace) : Prop where
  /-- The lines of the children are those of the section. -/
  children : body.children.map Node.line = body.nodes.map Node.line
  /-- A child that sets a field decides it, unless a later one sets it. -/
  decided : ∀ before node behind, body.children = before ++ node :: behind →
    ∀ field value, node.setting? workspace.bodyScope command.name = some ⟨field, value⟩ →
      command.get field = value ∨
        ∃ later ∈ behind, later.Sets workspace.bodyScope command.name field
  /-- Any other child is reported at its line. -/
  reported : ∀ node ∈ body.children, node.setting? workspace.bodyScope command.name = none →
    workspace.Tells after node (.config node.line (node.complaint command.name))
  /-- Of the last body every line becomes an item in its place, or is reported, or is below a header
  that is. -/
  lines : ∃ trigger, (body.children.filterMap Node.body?).getLast? = some trigger ∧
    Item.shape.shapes command.items =
      Node.shape.shapes (Item.pruned.prunedAll workspace.bodyScope trigger.nodes) ∧
    ∀ row ∈ Node.rows.rowsOf 0 trigger.nodes,
      (∃ item ∈ Item.spread.spreadAll command.items, item.line = row.2.line) ∨
        ∃ above ∈ Node.rows.rowsOf 0 trigger.nodes, row ∈ above.2.rows above.1 ∧
          ∃ failure, Item.fault? workspace.bodyScope above.2 = some failure ∧
            workspace.Tells after above.2 failure

variable {workspace after : Workspace} {header : String} {body : Section} {command : Command}

/-- A command that is read has a body, which is read behind the reports of the entries. -/
theorem exists_of_readCommand (read : workspace.readCommand header body = (.ok command, after)) :
    ∃ announced trigger items,
      (CommandReading.applyAll body announced).body = some trigger ∧
      (workspace.reportAll (CommandReading.applyAll body announced).failures).readBody trigger =
        (.ok items, after) ∧
      command = { (CommandReading.applyAll body announced).command with items } := by
  unfold readCommand at read
  split at read
  · cases read
  split at read
  · cases read
  next announced _ =>
  dsimp only at read
  split at read
  · cases read
  next trigger isBody =>
  obtain ⟨result, left⟩ := Prod.mk.inj read
  obtain ⟨items, isOk, rfl⟩ := eq_ok_of_map result
  exact ⟨announced, trigger, items, isBody, Prod.ext isOk left, rfl⟩

/-- The diagnostics behind the reports of some nodes and the body that is read next. -/
theorem diagnostics_readBody (failures : List Failure) (trigger : Section) :
    ((workspace.reportAll failures).readBody trigger).2.context.diagnostics =
      workspace.context.diagnostics ++
        (failures.map fun failure => ⟨failure.kind, failure.text,
          workspace.context.script.map Script.name, failure.line?⟩) ++
        (workspace.reached trigger).filterMap fun node =>
          (Item.fault? workspace.bodyScope node).map (workspace.faultAt node) := by
  rw [readBody_diagnostics, reportAll_eq_leave, ← diagnostics_reported]
  rfl

/-- **No part of a command is lost without a word**, but for what a later child sets again. -/
theorem readCommand_keepsParts (read : workspace.readCommand header body = (.ok command, after)) :
    workspace.KeepsParts body command after := by
  obtain ⟨announced, trigger, items, isBody, readsBody, whole⟩ := exists_of_readCommand read
  have run : CommandReading.TakesAll workspace.bodyScope announced.name body.children
      { command := announced } (CommandReading.applyAll body announced) :=
    CommandReading.foldl_takesAll _ rfl
  generalize CommandReading.applyAll body announced = applied at isBody readsBody whole run
  have kept : items = (Item.readNode.readNodes workspace.bodyScope trigger.nodes).1 := by
    have isOk := congrArg Prod.fst readsBody
    rw [reportAll_eq_leave] at isOk
    exact eq_of_readBody_ok isOk
  have made : command = applied.made workspace.bodyScope := by
    rw [whole, kept, CommandReading.made, isBody]
  have named : command.name = announced.name := by
    rw [made]
    exact run.named
  have left : _ = after.context.diagnostics :=
    (diagnostics_readBody _ _).symm.trans (congrArg (·.2.context.diagnostics) readsBody)
  have isItems : command.items =
      (Item.readNode.readNodes workspace.bodyScope trigger.nodes).1 := by
    rw [whole, kept]
  refine ⟨body.lines_children, fun before node behind split field value sets => ?_,
    fun node member silent => ?_, trigger, ?_, ?_, fun row member => ?_⟩
  · rw [named] at sets ⊢
    rw [made]
    exact run.decided before node behind split field value sets
  · rw [named] at silent ⊢
    have misfit : node.misfit? workspace.bodyScope announced.name =
        some (.config node.line (node.complaint announced.name)) := by
      rw [Node.misfit?, silent]
      rfl
    have listed : Failure.config node.line (node.complaint announced.name) ∈ applied.failures := by
      rw [run.failures]
      exact List.mem_append_right _ (List.mem_filterMap.mpr ⟨node, member, misfit⟩)
    rw [Tells, ← left]
    exact List.mem_append_left _ (List.mem_append_right _ (List.mem_map.mpr ⟨_, listed, rfl⟩))
  · have last := run.body.symm.trans isBody
    rwa [Option.or_none] at last
  · rw [isItems]
    exact Item.readNodes_shape _ _
  · rw [isItems]
    refine (Item.readNodes_lines 0 trigger.nodes row member).imp id ?_
    rintro ⟨above, isRow, below, isReached, fault⟩
    obtain ⟨failure, isFault⟩ := Option.isSome_iff_exists.mp fault
    refine ⟨above, isRow, below, failure, isFault, ?_⟩
    rw [Tells, ← left]
    exact List.mem_append_right _ (List.mem_filterMap.mpr ⟨_, isReached, by rw [isFault]; rfl⟩)

/-- A command with two usages, and with a line below a header that refers to no option. -/
def pingSection : Section :=
  ⟨"command /ping", 1, [.simple "usage: a" 2, .simple "usage: b" 3,
    .nested "trigger" 4 [.nested "if \x7b@none\x7d" 5 [.simple "send \"x\"" 6]]]⟩

/-- Where the command is read. -/
def pingDesk : Workspace := { context := { script := some ⟨⟨"ping.sk"⟩, 1⟩ } }

theorem readCommand_pingSection : ∃ command after,
    pingDesk.readCommand "/ping" pingSection = (.ok command, after) ∧ command.usage = "b" ∧
      command.items.isEmpty = true ∧ after.context.diagnostics.map (·.line) = [some 5] := by
  have answers : (pingDesk.readCommand "/ping" pingSection).1.toOption.map
      (fun command => (command.usage, command.items.isEmpty)) = some ("b", true) := by
    decide +kernel
  have told : (pingDesk.readCommand "/ping" pingSection).2.context.diagnostics.map (·.line) =
      [some 5] := by
    decide +kernel
  cases result : pingDesk.readCommand "/ping" pingSection with
  | mk answer after =>
    rw [result] at answers told
    cases answer with
    | error failure => cases answers
    | ok command =>
      obtain ⟨usage, items⟩ := Prod.mk.inj (Option.some.inj answers)
      exact ⟨command, after, rfl, usage, items, told⟩

theorem pingSection_keepsParts : ∃ command after,
    pingDesk.readCommand "/ping" pingSection = (.ok command, after) ∧
      pingDesk.KeepsParts pingSection command after := by
  obtain ⟨command, after, read, -⟩ := readCommand_pingSection
  exact ⟨command, after, read, readCommand_keepsParts read⟩

/-- Of two usages the first one is forgotten, and so is a line below a header that is reported:
there is no diagnostic at these lines. -/
theorem readCommand_forgets : ∃ command after,
    pingDesk.readCommand "/ping" pingSection = (.ok command, after) ∧
      ¬ (∀ node ∈ pingSection.children,
        (∃ field value, node.setting? pingDesk.bodyScope command.name = some ⟨field, value⟩ ∧
          command.get field = value) ∨
        ∃ diagnostic ∈ after.context.diagnostics, diagnostic.line = some node.line) ∧
      ¬ (∀ trigger ∈ pingSection.children.filterMap Node.body?,
        ∀ row ∈ Node.rows.rowsOf 0 trigger.nodes,
          (∃ item ∈ Item.spread.spreadAll command.items, item.line = row.2.line) ∨
          ∃ diagnostic ∈ after.context.diagnostics, diagnostic.line = some row.2.line) := by
  obtain ⟨command, after, read, usage, items, told⟩ := readCommand_pingSection
  have only {line : Nat} (other : line ≠ 5) :
      ¬ ∃ diagnostic ∈ after.context.diagnostics, diagnostic.line = some line := by
    rintro ⟨diagnostic, member, same⟩
    have listed := List.mem_map_of_mem (f := (·.line)) member
    rw [told, same, List.mem_singleton] at listed
    exact other (Option.some.inj listed)
  refine ⟨command, after, read, fun each => ?_, fun each => ?_⟩
  · have sets : (Node.entry "usage" "a" 2).setting? pingDesk.bodyScope command.name =
        some ⟨.usage, "a"⟩ :=
      congrArg (CommandField.setting? command.name "a")
        (show Text.lower "usage" = "usage" by decide +kernel)
    rcases each (.entry "usage" "a" 2) List.mem_cons_self with ⟨field, value, own, same⟩ | reported
    · cases sets.symm.trans own
      exact absurd (usage.symm.trans same) (by decide)
    · exact only (by decide) reported
  · have noItems : command.items = [] := List.isEmpty_iff.mp items
    rcases each _ List.mem_cons_self (1, .simple "send \"x\"" 6)
      (List.mem_cons_of_mem _ List.mem_cons_self) with ⟨item, member, -⟩ | reported
    · rw [noItems] at member
      cases member
    · exact only (by decide) reported

end Workspace

end ScriptBinding

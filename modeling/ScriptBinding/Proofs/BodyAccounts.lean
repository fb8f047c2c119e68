import ScriptBinding.Proofs.BodyCalls
import ScriptBinding.Proofs.FailureLines
import ScriptBinding.Proofs.Traces

/-! # What becomes of the lines of a body

Every node of a body is kept, reported or left out with the header that it is below. The reports are
those of the nodes that are at fault, one each and in the order of the text, and the items have the
shape of what is left of the tree. A body is refused when one of its lines calls a function that is
not declared or does not take that many arguments, and for nothing else.
-/

namespace ScriptBinding

/-- The failure of a result. -/
def Failure.of? {α : Type} : Except Failure α → Option Failure
  | .ok _ => none
  | .error failure => some failure

/-- The lines of a tree in their order, and which are below which. -/
inductive Shape where
  | leaf (line : Nat)
  | block (line : Nat) (inner : List Shape)

/-- The lines of a node and of those below it. -/
def Node.shape : Node → Shape
  | .nested _ line nodes => .block line (shapes nodes)
  | .simple _ line => .leaf line
  | .entry _ _ line => .leaf line
where
  /-- The lines of nodes and of those below them. -/
  shapes : List Node → List Shape
    | [] => []
    | node :: others => node.shape :: shapes others

namespace Item

/-- The lines of an item and of those inside it. -/
def shape : Item → Shape
  | block _ line items => .block line (shapes items)
  | effect _ line => .leaf line
  | call _ _ line => .leaf line
  | answer _ line => .leaf line
where
  /-- The lines of items and of those inside them. -/
  shapes : List Item → List Shape
    | [] => []
    | item :: others => item.shape :: shapes others

/-- An item and all that are inside it. -/
def spread : Item → List Item
  | block header line items => block header line items :: spreadAll items
  | effect text line => [effect text line]
  | call function arguments line => [call function arguments line]
  | answer value line => [answer value line]
where
  /-- Items and all that are inside them. -/
  spreadAll : List Item → List Item
    | [] => []
    | item :: others => item.spread ++ spreadAll others

/-! ## Lines at fault -/

variable (scope : BodyScope)

/-- The text of a line, with the options in place of their references and without the blanks around
it. -/
def plainText? (node : Node) : Option String :=
  if node.section?.isSome then none
  else (scope.options.replace node.line (textOf node)).toOption.map Text.trim

/-- The function that a line calls, and with how many arguments. -/
def called? (node : Node) : Option (String × Nat) :=
  (plainText? scope node).bind fun text =>
    if isReturn text then none
    else (readCall? text.toList).map fun found =>
      (String.ofList found.1, (Arguments.split found.2).length)

/-- The line ends a function outside of any. -/
def strays (node : Node) : Bool :=
  !scope.inFunction && (plainText? scope node).any isReturn

/-- The line calls a function that is not declared, or does not take as many arguments. -/
def unresolved (node : Node) : Bool :=
  (called? scope node).any fun call => !(scope.signature? call.1).any (·.accepts call.2)

/-- What is wrong with a node by itself. -/
def fault? : Node → Option Failure
  | .nested key line _ => Failure.of? (scope.options.replace line key)
  | .simple key line => Failure.of? (readLine scope line key)
  | .entry key value line => Failure.of? (readLine scope line (textOf (.entry key value line)))

/-- A node and those below it, but for those below a header that is at fault. -/
def reached : Node → List Node
  | .nested key line nodes =>
    .nested key line nodes ::
      if (fault? scope (.nested key line nodes)).isSome then [] else reachedAll nodes
  | .simple key line => [.simple key line]
  | .entry key value line => [.entry key value line]
where
  /-- Nodes and those below them, but for those below a header that is at fault. -/
  reachedAll : List Node → List Node
    | [] => []
    | node :: others => reached node ++ reachedAll others

/-- A node without those below it that are at fault. -/
def pruned : Node → Node
  | .nested key line nodes => .nested key line (prunedAll nodes)
  | .simple key line => .simple key line
  | .entry key value line => .entry key value line
where
  /-- Nodes without those that are at fault, nor those below them. -/
  prunedAll : List Node → List Node
    | [] => []
    | node :: others =>
      if (fault? scope node).isSome then prunedAll others else pruned node :: prunedAll others

variable {scope}

/-! ## What a line can be -/

/-- A call of the item fits a declared function, and a return is in the body of a function. -/
def Fits (scope : BodyScope) : Item → Prop
  | call name arguments _ => ∃ signature, scope.signature? name = some signature ∧
      signature.accepts arguments.length = true
  | answer _ _ => scope.inFunction = true
  | _ => True

/-- What becomes of a line, by its text. -/
inductive LineOutcome (scope : BodyScope) (line : Nat) (text : String) :
    Except Failure Item → Prop
  | broken {failure : Failure} (fails : scope.options.replace line text = .error failure) :
      LineOutcome scope line text (.error failure)
  | answer {replaced : String} (replaces : scope.options.replace line text = .ok replaced)
      (returns : isReturn (Text.trim replaced) = true) (inside : scope.inFunction = true)
      (value : Option String) : LineOutcome scope line text (.ok (.answer value line))
  | stray {replaced : String} (replaces : scope.options.replace line text = .ok replaced)
      (returns : isReturn (Text.trim replaced) = true) (outside : scope.inFunction = false)
      (message : String) : LineOutcome scope line text (.error (.parse line message))
  | call {replaced : String} {name written : List Char} {signature : Signature}
      (replaces : scope.options.replace line text = .ok replaced)
      (other : isReturn (Text.trim replaced) = false)
      (calls : readCall? (Text.trim replaced).toList = some (name, written))
      (found : scope.signature? (String.ofList name) = some signature)
      (fits : signature.accepts (Arguments.split written).length = true) :
      LineOutcome scope line text
        (.ok (.call (String.ofList name) ((Arguments.split written).map String.ofList) line))
  | unresolved {replaced : String} {name written : List Char}
      (replaces : scope.options.replace line text = .ok replaced)
      (other : isReturn (Text.trim replaced) = false)
      (calls : readCall? (Text.trim replaced).toList = some (name, written))
      (unfit : (scope.signature? (String.ofList name)).any
        (·.accepts (Arguments.split written).length) = false)
      (message : String) : LineOutcome scope line text (.error (.bind line message))
  | effect {replaced : String} (replaces : scope.options.replace line text = .ok replaced)
      (other : isReturn (Text.trim replaced) = false)
      (plain : readCall? (Text.trim replaced).toList = none) :
      LineOutcome scope line text (.ok (.effect (Text.trim replaced) line))

theorem lineOutcome (scope : BodyScope) (line : Nat) (text : String) :
    LineOutcome scope line text (readLine scope line text) := by
  unfold readLine
  cases replaces : scope.options.replace line text with
  | error failure => exact .broken replaces
  | ok replaced =>
    dsimp only
    unfold readPlain
    by_cases returns : isReturn (Text.trim replaced) = true
    · rw [if_pos returns]
      by_cases inside : scope.inFunction = true
      · rw [if_pos inside]
        exact .answer replaces returns inside _
      · rw [if_neg inside]
        exact .stray replaces returns (Bool.eq_false_iff.mpr inside) _
    · rw [if_neg returns]
      rw [Bool.not_eq_true] at returns
      split
      · next name written calls =>
        unfold readCall
        rw [List.length_map]
        split
        · next missing =>
          exact .unresolved replaces returns calls (by rw [missing]; rfl) _
        · next signature found =>
          split
          · next fits => exact .call replaces returns calls found fits
          · next unfit =>
            refine .unresolved replaces returns calls ?_ _
            rw [found]
            exact Bool.eq_false_iff.mpr unfit
      · next plain => exact .effect replaces returns plain

/-- An item that a line becomes. -/
theorem readLine_ok {line : Nat} {text : String} {item : Item}
    (read : readLine scope line text = .ok item) :
    item.shape = .leaf line ∧ ∀ part ∈ item.spread, Fits scope part := by
  have outcome := read ▸ lineOutcome scope line text
  cases outcome with
  | answer _ _ inside => exact ⟨rfl, List.forall_mem_singleton.mpr inside⟩
  | call _ _ _ found fits =>
    refine ⟨rfl, List.forall_mem_singleton.mpr ⟨_, found, ?_⟩⟩
    rwa [List.length_map]
  | effect => exact ⟨rfl, List.forall_mem_singleton.mpr trivial⟩

/-! ## What is at fault -/

variable {node : Node}

theorem fault?_of_line (leaf : node.section? = none) :
    fault? scope node = Failure.of? (readLine scope node.line (textOf node)) := by
  cases node with
  | nested key line nodes => cases leaf
  | _ => rfl

theorem plainText?_of_line {replaced : String} (leaf : node.section? = none)
    (replaces : scope.options.replace node.line (textOf node) = .ok replaced) :
    plainText? scope node = some (Text.trim replaced) := by
  rw [plainText?, leaf, replaces]
  rfl

theorem plainText?_of_broken {failure : Failure}
    (fails : scope.options.replace node.line (textOf node) = .error failure) :
    plainText? scope node = none := by
  rw [plainText?, fails]
  exact ite_self none

theorem called?_of_line {replaced : String} (leaf : node.section? = none)
    (replaces : scope.options.replace node.line (textOf node) = .ok replaced)
    (other : isReturn (Text.trim replaced) = false) :
    called? scope node = (readCall? (Text.trim replaced).toList).map fun found =>
      (String.ofList found.1, (Arguments.split found.2).length) := by
  rw [called?, plainText?_of_line leaf replaces, Option.bind_some, other]
  rfl

/-- What is wrong with a node: its references, a return where there is no function, or a call that
fits no function. -/
inductive Verdict (scope : BodyScope) (node : Node) : Option Failure → Prop
  | broken {failure : Failure}
      (fails : scope.options.replace node.line (textOf node) = .error failure)
      (noReturn : strays scope node = false) (noCall : unresolved scope node = false) :
      Verdict scope node (some failure)
  | stray (message : String) (returns : strays scope node = true)
      (noCall : unresolved scope node = false) :
      Verdict scope node (some (.parse node.line message))
  | unresolved (message : String) (calls : unresolved scope node = true) :
      Verdict scope node (some (.bind node.line message))
  | sound {replaced : String}
      (replaces : scope.options.replace node.line (textOf node) = .ok replaced)
      (noReturn : strays scope node = false) (noCall : unresolved scope node = false) :
      Verdict scope node none

theorem strays_of_noText (noText : plainText? scope node = none) : strays scope node = false := by
  rw [strays, noText]
  exact Bool.and_false _

theorem unresolved_of_noText (noText : plainText? scope node = none) :
    unresolved scope node = false := by
  rw [unresolved, called?, noText]
  rfl

theorem verdict_line (leaf : node.section? = none) :
    Verdict scope node (fault? scope node) := by
  rw [fault?_of_line leaf]
  have outcome := lineOutcome scope node.line (textOf node)
  generalize readLine scope node.line (textOf node) = result at outcome
  cases outcome with
  | broken fails =>
    have noText := plainText?_of_broken fails
    exact .broken fails (strays_of_noText noText) (unresolved_of_noText noText)
  | answer replaces returns inside value =>
    refine .sound replaces ?_ ?_
    · rw [strays, inside]
      rfl
    · rw [unresolved, called?, plainText?_of_line leaf replaces, Option.bind_some, returns]
      rfl
  | stray replaces returns outside message =>
    refine .stray message ?_ ?_
    · rw [strays, plainText?_of_line leaf replaces, outside, Option.any_some, returns]
      rfl
    · rw [unresolved, called?, plainText?_of_line leaf replaces, Option.bind_some, returns]
      rfl
  | call replaces other calls found fits =>
    refine .sound replaces ?_ ?_
    · rw [strays, plainText?_of_line leaf replaces, Option.any_some, other, Bool.and_false]
    · rw [unresolved, called?_of_line leaf replaces other, calls, Option.map_some,
        Option.any_some, found, Option.any_some, fits]
      rfl
  | unresolved replaces other calls unfit message =>
    refine .unresolved message ?_
    rw [unresolved, called?_of_line leaf replaces other, calls, Option.map_some,
      Option.any_some, unfit]
    rfl
  | effect replaces other plain =>
    refine .sound replaces ?_ ?_
    · rw [strays, plainText?_of_line leaf replaces, Option.any_some, other, Bool.and_false]
    · rw [unresolved, called?_of_line leaf replaces other, plain]
      rfl

theorem verdict (scope : BodyScope) (node : Node) : Verdict scope node (fault? scope node) := by
  cases node with
  | nested key line nodes =>
    cases replaces : scope.options.replace line key with
    | error failure =>
      rw [fault?, replaces]
      exact .broken replaces (strays_of_noText rfl) rfl
    | ok header =>
      rw [fault?, replaces]
      exact .sound replaces (strays_of_noText rfl) rfl
  | _ => exact verdict_line rfl

/-- A node is at fault for one of three reasons. -/
theorem fault?_isSome_iff : (fault? scope node).isSome = true ↔
    (∃ failure, scope.options.replace node.line (textOf node) = .error failure) ∨
      strays scope node = true ∨ unresolved scope node = true := by
  have verdict := verdict scope node
  generalize fault? scope node = fault at verdict
  cases verdict with
  | broken fails => exact iff_of_true rfl (.inl ⟨_, fails⟩)
  | stray _ returns => exact iff_of_true rfl (.inr (.inl returns))
  | unresolved _ calls => exact iff_of_true rfl (.inr (.inr calls))
  | sound replaces noReturn noCall => simp [replaces, noReturn, noCall]

/-- What is wrong with a node holds its line, and fails to bind exactly for a call that fits no
function. -/
theorem holds_of_fault? {failure : Failure} (fault : fault? scope node = some failure) :
    failure.Holds node.line ∧ (failure.kind = .bind ↔ unresolved scope node = true) := by
  have verdict := fault ▸ verdict scope node
  cases verdict with
  | broken fails _ noCall =>
    obtain ⟨_, rfl⟩ := Options.replace_parse fails
    exact ⟨rfl, by simp [noCall, Failure.kind]⟩
  | stray _ _ noCall => exact ⟨rfl, by simp [noCall, Failure.kind]⟩
  | unresolved _ calls => exact ⟨rfl, by simp [calls, Failure.kind]⟩

/-! ## The tree -/

mutual

/-- The reports of a node are the faults of the nodes that are reached from it. -/
theorem readNode_reports (scope : BodyScope) (node : Node) :
    (readNode scope node).2 = (reached scope node).filterMap (fault? scope) := by
  match node with
  | .simple key line =>
    rw [readNode, reached, List.filterMap_cons, List.filterMap_nil, fault?]
    cases readLine scope line key <;> rfl
  | .entry key value line =>
    rw [readNode, reached, List.filterMap_cons, List.filterMap_nil, fault?]
    cases readLine scope line (textOf (.entry key value line)) <;> rfl
  | .nested key line nodes =>
    rw [readNode, reached, List.filterMap_cons, fault?]
    cases scope.options.replace line key with
    | error failure => rfl
    | ok header => exact readNodes_reports scope nodes

theorem readNodes_reports (scope : BodyScope) (nodes : List Node) :
    (readNode.readNodes scope nodes).2 =
      (reached.reachedAll scope nodes).filterMap (fault? scope) := by
  match nodes with
  | [] => rfl
  | node :: others =>
    rw [readNode.readNodes, reached.reachedAll, List.filterMap_append,
      ← readNode_reports scope node, ← readNodes_reports scope others]

end

mutual

/-- A node that is not at fault becomes an item of the shape of what is left of it. -/
theorem readNode_shape (scope : BodyScope) (node : Node) :
    (readNode scope node).1.map shape =
      if (fault? scope node).isSome then none else some (pruned scope node).shape := by
  match node with
  | .simple key line =>
    rw [readNode, fault?]
    cases read : readLine scope line key with
    | error failure => rfl
    | ok item => exact congrArg some (readLine_ok read).1
  | .entry key value line =>
    rw [readNode, fault?]
    cases read : readLine scope line (textOf (.entry key value line)) with
    | error failure => rfl
    | ok item => exact congrArg some (readLine_ok read).1
  | .nested key line nodes =>
    rw [readNode, fault?]
    cases scope.options.replace line key with
    | error failure => rfl
    | ok header => exact congrArg (some ∘ Shape.block line) (readNodes_shape scope nodes)

theorem readNodes_shape (scope : BodyScope) (nodes : List Node) :
    shape.shapes (readNode.readNodes scope nodes).1 =
      Node.shape.shapes (pruned.prunedAll scope nodes) := by
  match nodes with
  | [] => rfl
  | node :: others =>
    have first := readNode_shape scope node
    have rest := readNodes_shape scope others
    rw [readNode.readNodes, pruned.prunedAll]
    dsimp only
    by_cases fault : (fault? scope node).isSome = true
    · rw [if_pos fault] at first ⊢
      rw [Option.map_eq_none_iff.mp first]
      exact rest
    · rw [if_neg fault] at first ⊢
      obtain ⟨item, own, same⟩ := Option.map_eq_some_iff.mp first
      rw [own, Option.toList_some, List.singleton_append, shape.shapes, same, rest]
      rfl

end

theorem spreadAll_append (items others : List Item) :
    spread.spreadAll (items ++ others) = spread.spreadAll items ++ spread.spreadAll others := by
  induction items with
  | nil => rfl
  | cons item rest ih => rw [List.cons_append, spread.spreadAll, spread.spreadAll, ih,
      List.append_assoc]

mutual

/-- What a node becomes fits the functions, at any depth. -/
theorem readNode_fits (scope : BodyScope) (node : Node) :
    ∀ part ∈ spread.spreadAll (readNode scope node).1.toList, Fits scope part := by
  match node with
  | .simple key line =>
    rw [readNode]
    cases read : readLine scope line key with
    | error failure => exact fun _ absent => absurd absent List.not_mem_nil
    | ok item =>
      rw [Option.toList_some, spread.spreadAll, spread.spreadAll, List.append_nil]
      exact (readLine_ok read).2
  | .entry key value line =>
    rw [readNode]
    cases read : readLine scope line (textOf (.entry key value line)) with
    | error failure => exact fun _ absent => absurd absent List.not_mem_nil
    | ok item =>
      rw [Option.toList_some, spread.spreadAll, spread.spreadAll, List.append_nil]
      exact (readLine_ok read).2
  | .nested key line nodes =>
    rw [readNode]
    cases scope.options.replace line key with
    | error failure => exact fun _ absent => absurd absent List.not_mem_nil
    | ok header =>
      rw [Option.toList_some, spread.spreadAll, spread.spreadAll, List.append_nil]
      exact List.forall_mem_cons.mpr ⟨trivial, readNodes_fits scope nodes⟩

theorem readNodes_fits (scope : BodyScope) (nodes : List Node) :
    ∀ part ∈ spread.spreadAll (readNode.readNodes scope nodes).1, Fits scope part := by
  match nodes with
  | [] => exact fun _ absent => absurd absent List.not_mem_nil
  | node :: others =>
    rw [readNode.readNodes]
    dsimp only
    rw [spreadAll_append]
    exact List.forall_mem_append.mpr ⟨readNode_fits scope node, readNodes_fits scope others⟩

end

/-! ## Bodies -/

/-- The number of reports of calls that fit no function. -/
theorem length_filter_bind (nodes : List Node) :
    ((nodes.filterMap (fault? scope)).filter (·.kind == .bind)).length =
      nodes.countP (unresolved scope) := by
  induction nodes with
  | nil => rfl
  | cons node others ih =>
    rw [List.filterMap_cons, List.countP_cons]
    cases fault : fault? scope node with
    | none =>
      have noCall : unresolved scope node = false := by
        rw [← Bool.not_eq_true]
        intro calls
        have isFault := fault?_isSome_iff.mpr (.inr (.inr calls))
        rw [fault] at isFault
        cases isFault
      rw [noCall]
      exact ih
    | some failure =>
      have isBind := (holds_of_fault? fault).2
      dsimp only
      rw [List.filter_cons]
      by_cases calls : unresolved scope node = true
      · rw [if_pos (beq_iff_eq.mpr (isBind.mpr calls)), if_pos calls, List.length_cons, ih]
      · rw [if_neg fun bind => calls (isBind.mp (beq_iff_eq.mp bind)), if_neg calls, ih,
          Nat.add_zero]

theorem readBody_eq (scope : BodyScope) (body : Section) :
    readBody scope body =
      let nodes := reached.reachedAll scope body.nodes
      let count := nodes.countP (unresolved scope)
      (if count = 0 then .ok (readNode.readNodes scope body.nodes).1
        else .error (.bind body.line s!"{count} unresolved reference(s) in '{body.key}'"),
        nodes.filterMap (fault? scope)) := by
  rw [readBody]
  dsimp only
  rw [readNodes_reports, length_filter_bind]
  split <;> rfl

end Item

namespace Workspace

/-- The nodes of a body, but for those below a header that is at fault. -/
def reached (workspace : Workspace) (body : Section) : List Node :=
  Item.reached.reachedAll workspace.bodyScope body.nodes

/-- The failure with which a body is refused. -/
def refusal (workspace : Workspace) (body : Section) : Failure :=
  let count := (workspace.reached body).countP (Item.unresolved workspace.bodyScope)
  .bind body.line s!"{count} unresolved reference(s) in '{body.key}'"

/-- The diagnostic of what is wrong with a node. -/
def faultAt (workspace : Workspace) (node : Node) (failure : Failure) : Diagnostic :=
  ⟨failure.kind, failure.text, workspace.context.script.map Script.name,
    if node.line = 0 then none else some node.line⟩

theorem diagnostics_reported (script : Option Script) (failures : List Failure) :
    (reported script failures).diagnostics = failures.map fun failure =>
      ⟨failure.kind, failure.text, script.map Script.name, failure.line?⟩ := by
  induction failures with
  | nil => rfl
  | cons failure others ih => exact congrArg _ ih

variable {workspace : Workspace} {body : Section}

theorem readBody_result : (workspace.readBody body).1 =
    if (workspace.reached body).countP (Item.unresolved workspace.bodyScope) = 0 then
      .ok (Item.readNode.readNodes workspace.bodyScope body.nodes).1
    else .error (workspace.refusal body) := by
  rw [readBody_eq_leave, Item.readBody_eq]
  rfl

theorem eq_of_readBody_ok {items : List Item} (read : (workspace.readBody body).1 = .ok items) :
    items = (Item.readNode.readNodes workspace.bodyScope body.nodes).1 := by
  rw [readBody_result] at read
  split at read
  · exact (Except.ok.inj read).symm
  · cases read

theorem readBody_diagnostics : (workspace.readBody body).2.context.diagnostics =
    workspace.context.diagnostics ++ (workspace.reached body).filterMap fun node =>
      (Item.fault? workspace.bodyScope node).map (workspace.faultAt node) := by
  rw [readBody_eq_leave, Item.readBody_eq]
  refine congrArg (workspace.context.diagnostics ++ ·) ?_
  rw [diagnostics_reported, List.map_filterMap]
  refine congrArg (List.filterMap · (workspace.reached body)) (funext fun node => ?_)
  cases fault : Item.fault? workspace.bodyScope node with
  | none => rfl
  | some failure =>
    rw [Option.map_some, Option.map_some, (Item.holds_of_fault? fault).1.line?_eq]
    rfl

end Workspace

end ScriptBinding

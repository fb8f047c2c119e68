import ScriptBinding.Proofs.TreeWriting
import ScriptBinding.Structure.Basic

/-! # Where failures come up

A failure that is found while a node is read holds the line of that node, or of one below it. The
nodes of a tree that was read from a text stand on lines of their own, which grow in the order of
the text.
-/

namespace ScriptBinding

/-- Something is made of what was found only if it was found. -/
theorem eq_ok_of_map {α β ε : Type} {f : α → β} {result : Except ε α} {made : β}
    (mapped : result.map f = .ok made) : ∃ found, result = .ok found ∧ f found = made := by
  cases result with
  | error failure => cases mapped
  | ok found => exact ⟨found, rfl, Except.ok.inj mapped⟩

theorem eq_error_of_map {α β ε : Type} {f : α → β} {result : Except ε α} {problem : ε}
    (mapped : result.map f = .error problem) : result = .error problem := by
  cases result with
  | error failure => exact congrArg _ (Except.error.inj mapped)
  | ok found => cases mapped

/-! ## The lines of nodes -/

namespace Node

/-- The lines of a node and of all the nodes below it, in the order of the text. -/
def lines (node : Node) : List Nat :=
  lineNumbers [node]

mutual

/-- The depth at which the rows of a node start does not count for their lines. -/
theorem rows_line (depth other : Nat) (node : Node) :
    (node.rows depth).map (·.2.line) = (node.rows other).map (·.2.line) := by
  match node with
  | .simple key line => rfl
  | .entry key value line => rfl
  | .nested key line nodes =>
    rw [rows, rows, List.map_cons, List.map_cons, rowsOf_line (depth + 1) (other + 1)]

theorem rowsOf_line (depth other : Nat) (nodes : List Node) :
    (rows.rowsOf depth nodes).map (·.2.line) = (rows.rowsOf other nodes).map (·.2.line) := by
  match nodes with
  | [] => rfl
  | node :: others =>
    rw [rows.rowsOf, rows.rowsOf, List.map_append, List.map_append, rows_line depth other,
      rowsOf_line depth other]

end

@[simp] theorem lineNumbers_nil : lineNumbers [] = [] := rfl

@[simp] theorem lineNumbers_cons (node : Node) (others : List Node) :
    lineNumbers (node :: others) = node.lines ++ lineNumbers others := by
  rw [lines, lineNumbers, lineNumbers, lineNumbers, rows.rowsOf, rows.rowsOf, rows.rowsOf,
    List.append_nil, List.map_append]

@[simp] theorem lines_simple (key : String) (line : Nat) : (simple key line).lines = [line] := rfl

@[simp] theorem lines_entry (key value : String) (line : Nat) :
    (entry key value line).lines = [line] := rfl

@[simp] theorem lines_nested (key : String) (line : Nat) (nodes : List Node) :
    (nested key line nodes).lines = line :: lineNumbers nodes := by
  rw [lines, lineNumbers, rows.rowsOf, rows.rowsOf, List.append_nil, rows, List.map_cons,
    lineNumbers, rowsOf_line (0 + 1) 0]
  rfl

theorem line_mem_lines (node : Node) : node.line ∈ node.lines := by
  cases node <;> simp [line]

theorem lines_subset {node : Node} {nodes : List Node} (member : node ∈ nodes) :
    node.lines ⊆ lineNumbers nodes := by
  induction nodes with
  | nil => cases member
  | cons first others ih =>
    rw [lineNumbers_cons]
    rcases List.mem_cons.mp member with rfl | later
    · exact List.subset_append_left _ _
    · exact List.subset_append_of_subset_right _ (ih later)

/-- A list of trees holds no line in two of them if its lines grow. -/
theorem lines_disjoint {nodes : List Node} (grow : (lineNumbers nodes).Pairwise (· < ·))
    {here there : Nat} {node other : Node} (found : nodes[here]? = some node)
    (elsewhere : nodes[there]? = some other) (apart : here ≠ there) {line : Nat}
    (member : line ∈ node.lines) : line ∉ other.lines := by
  induction nodes generalizing here there with
  | nil => cases found
  | cons first others ih =>
    rw [lineNumbers_cons, List.pairwise_append] at grow
    obtain ⟨_, later, before⟩ := grow
    have behind {place : Nat} {node : Node} (found : others[place]? = some node) {line : Nat}
        (member : line ∈ node.lines) : line ∈ lineNumbers others :=
      lines_subset (List.mem_of_getElem? found) member
    cases here with
    | zero =>
      cases there with
      | zero => exact absurd rfl apart
      | succ there =>
        cases found
        exact fun also => Nat.lt_irrefl _ (before _ member _ (behind elsewhere also))
    | succ here =>
      cases there with
      | zero =>
        cases elsewhere
        exact fun also => Nat.lt_irrefl _ (before _ also _ (behind found member))
      | succ there => exact ih later found elsewhere fun same => apart (congrArg _ same)

mutual

/-- Cutting plain lines into entries leaves every node on its line. -/
theorem lines_convert (separator : String) (levels : Int) (node : Node) :
    (node.convert separator levels).lines = node.lines := by
  match node with
  | .simple key line =>
    rw [convert, ofLine]
    split <;> rfl
  | .entry key value line => rw [convert]
  | .nested key line nodes =>
    rw [convert]
    split
    · rfl
    · rw [lines_nested, lines_nested, lineNumbers_convertAll]

theorem lineNumbers_convertAll (separator : String) (levels : Int) (nodes : List Node) :
    lineNumbers (convert.convertAll separator levels nodes) = lineNumbers nodes := by
  match nodes with
  | [] => rfl
  | node :: others =>
    rw [convert.convertAll, lineNumbers_cons, lineNumbers_cons, lines_convert,
      lineNumbers_convertAll]

end

end Node

namespace Section

/-- The lines of a section: that of its header, and those of the nodes below it. -/
def lines (tree : Section) : List Nat :=
  tree.line :: Node.lineNumbers tree.nodes

theorem line_mem_lines (tree : Section) : tree.line ∈ tree.lines :=
  List.mem_cons_self

/-- A section that is cut into entries stands on the same lines. -/
theorem lineNumbers_convertToEntries (levels : Int) (separator : String) (tree : Section) :
    Node.lineNumbers (tree.convertToEntries levels separator).nodes =
      Node.lineNumbers tree.nodes :=
  Node.lineNumbers_convertAll separator levels tree.nodes

end Section

/-! ## The lines of texts -/

namespace Line

/-- The lines that are read have growing numbers, the first of which is given. -/
theorem readFrom_numbers {style : Option Char} {number : Nat} {raws : List (List Char)}
    {lines : List Line} (read : readFrom style number raws = .ok lines) :
    (lines.map Line.number).Pairwise (· < ·) ∧ ∀ line ∈ lines, number ≤ line.number := by
  induction raws generalizing style number lines with
  | nil =>
    cases read
    exact ⟨List.Pairwise.nil, nofun⟩
  | cons raw others ih =>
    rw [readFrom] at read
    split at read
    · obtain ⟨grow, least⟩ := ih read
      exact ⟨grow, fun line member => Nat.le_of_succ_le (least line member)⟩
    · split at read
      · cases read
      · next style' _ =>
        cases rest : readFrom style' (number + 1) others with
        | error problem =>
          rw [rest] at read
          cases read
        | ok later =>
          rw [rest] at read
          cases read
          obtain ⟨grow, least⟩ := ih rest
          refine ⟨List.Pairwise.cons ?_ grow, fun line member => ?_⟩
          · intro behind member
            obtain ⟨line, there, rfl⟩ := List.mem_map.mp member
            exact least line there
          · rcases List.mem_cons.mp member with rfl | there
            · exact Nat.le_refl number
            · exact Nat.le_of_succ_le (least line there)

/-- The trees of some lines stand on these lines. -/
theorem trees_lineNumbers (level : Nat) (lines : List Line) :
    ∀ nodes, trees level lines = .ok nodes → Node.lineNumbers nodes = lines.map Line.number := by
  fun_induction trees level lines with
  | case1 =>
    rintro nodes ⟨⟩
    rfl
  | case2 =>
    intro nodes built
    cases built
  | case3 level line others same plain ih =>
    intro nodes built
    obtain ⟨later, rest, rfl⟩ := eq_ok_of_map built
    rw [Node.lineNumbers_cons, Node.lines_simple, ih later rest]
    rfl
  | case4 =>
    intro nodes built
    cases built
  | case5 level line others same key header body below made ih₁ ih₂ =>
    intro nodes built
    obtain ⟨later, rest, rfl⟩ := eq_ok_of_map built
    rw [Node.lineNumbers_cons, Node.lines_nested, ih₁ below made, ih₂ later rest, List.cons_append,
      ← List.map_append, List.takeWhile_append_dropWhile]
    rfl

end Line

/-- The nodes of a tree that was read from a text stand on lines that are counted from one and grow
in the order of the text. -/
theorem Section.parse_lineNumbers {name text : String} {tree : Section}
    (parsed : Section.parse name text = .ok tree) :
    (Node.lineNumbers tree.nodes).Pairwise (· < ·) ∧
      ∀ line ∈ Node.lineNumbers tree.nodes, 0 < line := by
  unfold parse at parsed
  cases read : Line.read text with
  | error problem =>
    rw [read] at parsed
    cases parsed
  | ok lines =>
    rw [read] at parsed
    obtain ⟨nodes, built, rfl⟩ := eq_ok_of_map parsed
    obtain ⟨grow, least⟩ := Line.readFrom_numbers read
    rw [Line.trees_lineNumbers 0 lines nodes built]
    refine ⟨grow, fun number member => ?_⟩
    obtain ⟨line, there, rfl⟩ := List.mem_map.mp member
    exact least line there

/-! ## Failures -/

namespace Failure

/-- The failure is of a kind that has a line, and it holds this one. -/
def Holds (line : Nat) : Failure → Prop
  | parse own _ | config own _ | bind own _ => own = line
  | _ => False

/-- The failure holds one of the lines. -/
def Within (lines : List Nat) (failure : Failure) : Prop :=
  ∃ line ∈ lines, failure.Holds line

/-- The failure holds no other line than these. It may have none, or not know it. -/
def KeepsTo (lines : List Nat) (failure : Failure) : Prop :=
  ∀ line ∈ failure.line?, line ∈ lines

variable {failure : Failure} {line : Nat} {lines : List Nat}

/-- A failure that holds a line knows it, unless it is zero. -/
theorem Holds.line?_eq (holds : failure.Holds line) :
    failure.line? = if line = 0 then none else some line := by
  cases failure with
  | parse own text | config own text | bind own text => exact holds ▸ rfl
  | _ => exact holds.elim

theorem Holds.line? (holds : failure.Holds line) (counted : 0 < line) :
    failure.line? = some line := by
  rw [holds.line?_eq, if_neg counted.ne']

theorem Within.line? (within : failure.Within lines) (counted : ∀ line ∈ lines, 0 < line) :
    ∃ line ∈ lines, failure.line? = some line := by
  obtain ⟨line, member, holds⟩ := within
  exact ⟨line, member, holds.line? (counted line member)⟩

theorem Within.mono {others : List Nat} (within : failure.Within lines) (subset : lines ⊆ others) :
    failure.Within others := by
  obtain ⟨line, member, holds⟩ := within
  exact ⟨line, subset member, holds⟩

/-- A failure that holds no line does not know any. -/
theorem Holds.keepsTo (holds : failure.Holds line) (member : line ∈ 0 :: lines) :
    failure.KeepsTo lines := by
  intro own known
  rw [holds.line?_eq] at known
  split at known
  · cases known
  · next positive =>
    cases known
    exact (List.mem_cons.mp member).resolve_left positive

theorem Within.keepsTo (within : failure.Within lines) : failure.KeepsTo lines := by
  obtain ⟨line, member, holds⟩ := within
  exact holds.keepsTo (List.mem_cons_of_mem _ member)

/-- Where a failure comes up, that line is supplied unless it knows another one. -/
theorem KeepsTo.placed (keeps : failure.KeepsTo lines) (member : line ∈ lines)
    (counted : 0 < line) :
    ∃ own ∈ lines,
      (failure.atLine line).line?.or (if line = 0 then none else some line) = some own := by
  rw [if_neg (Nat.ne_of_gt counted)]
  have same (text : String) :
      ∃ own ∈ lines, ((if line = 0 then none else some line).or (some line) : Option Nat) =
        some own :=
    ⟨line, member, by rw [if_neg (Nat.ne_of_gt counted), Option.some_or]⟩
  have other (own : Nat) (keeps : ∀ given ∈ (if own + 1 = 0 then none else some (own + 1)),
      given ∈ lines) :
      ∃ own' ∈ lines, ((if own + 1 = 0 then none else some (own + 1)).or (some line) : Option Nat) =
        some own' :=
    ⟨own + 1, keeps _ rfl, rfl⟩
  match failure with
  | parse 0 text => exact same text
  | config 0 text => exact same text
  | bind 0 text => exact same text
  | parse (own + 1) text => exact other own keeps
  | config (own + 1) text => exact other own keeps
  | bind (own + 1) text => exact other own keeps
  | fatal _ => exact ⟨line, member, rfl⟩
  | host _ => exact ⟨line, member, rfl⟩
  | runtime _ => exact ⟨line, member, rfl⟩
  | stackOverflow => exact ⟨line, member, rfl⟩

end Failure

open Failure (Within Holds)

/-! ### Options -/

namespace Options

variable {options : Options} {line : Nat} {failure : Failure}

theorem fill_parse {references : List (List Char × List Char)}
    (fails : options.fill line references = .error failure) :
    ∃ text, failure = .parse line text := by
  induction references with
  | nil => cases fails
  | cons first others ih =>
    unfold fill at fails
    split at fails
    · cases fails
      exact ⟨_, rfl⟩
    · split at fails
      · next failed =>
        cases fails
        exact ih failed
      · cases fails

/-- References that cannot be replaced are no text that could stand there. -/
theorem replace_parse {text : String} (fails : options.replace line text = .error failure) :
    ∃ text, failure = .parse line text := by
  unfold replace at fails
  dsimp only at fails
  split at fails
  · next failed =>
    cases fails
    exact fill_parse failed
  · cases fails
    exact ⟨_, rfl⟩
  · cases fails

theorem replace_holds {text : String} (fails : options.replace line text = .error failure) :
    failure.Holds line := by
  obtain ⟨_, rfl⟩ := replace_parse fails
  rfl

end Options

/-- The lines of a section of options that are none hold their own line. -/
theorem OptionsStructure.flattenAll_within (lead : String) (nodes : List Node) :
    ∀ failure ∈ (flatten.flattenAll lead nodes).2, failure.Within (Node.lineNumbers nodes) := by
  match nodes with
  | [] => exact nofun
  | node :: others =>
    intro failure member
    rw [Node.lineNumbers_cons]
    rcases List.mem_append.mp member with first | later
    · refine Within.mono ?_ (List.subset_append_left _ _)
      match node with
      | .entry key value line => cases first
      | .simple key line =>
        cases List.mem_singleton.mp first
        exact ⟨line, List.mem_singleton_self line, rfl⟩
      | .nested key line nodes =>
        rw [Node.lines_nested]
        exact (flattenAll_within _ nodes failure first).mono (List.subset_cons_self _ _)
    · exact (flattenAll_within lead others failure later).mono (List.subset_append_right _ _)

/-! ### Aliases -/

namespace AliasTable

theorem collect_holds {table : AliasTable} {line : Nat} {pieces : List (List Char)} :
    ∀ failure ∈ (table.collect line pieces).2, failure.Holds line := by
  induction pieces with
  | nil => exact nofun
  | cons piece others ih =>
    intro failure member
    unfold collect at member
    cases found : table.itemsOf line piece with
    | ok items => exact ih failure (by simpa only [found] using member)
    | error fault =>
      have isFault : failure = fault ∨ failure ∈ (table.collect line others).2 := by
        simpa only [found, List.mem_cons] using member
      rcases isFault with rfl | later
      · unfold itemsOf at found
        split at found
        · cases found
        · split at found
          · cases found
          · cases found
            rfl
      · exact ih failure later

/-- The faults of a line of aliases hold that line. -/
theorem loadNode_within (node : Node) (table : AliasTable) :
    ∀ failure ∈ (table.loadNode node).2, failure.Within node.lines := by
  intro failure member
  refine ⟨node.line, node.line_mem_lines, ?_⟩
  cases node with
  | entry key value line =>
    dsimp only [loadNode] at member
    split at member
    · rcases List.mem_append.mp member with fault | empty
      · exact collect_holds failure fault
      · cases List.mem_singleton.mp empty
        rfl
    · exact collect_holds failure member
  | simple key line =>
    cases List.mem_singleton.mp member
    rfl
  | nested key line nodes =>
    cases List.mem_singleton.mp member
    rfl

theorem load_within (nodes : List Node) (table : AliasTable) :
    ∀ failure ∈ (load nodes table).2, failure.Within (Node.lineNumbers nodes) := by
  induction nodes generalizing table with
  | nil => exact nofun
  | cons node others ih =>
    intro failure member
    rw [Node.lineNumbers_cons]
    rcases List.mem_append.mp member with first | later
    · exact (loadNode_within node table failure first).mono (List.subset_append_left _ _)
    · exact (ih _ failure later).mono (List.subset_append_right _ _)

end AliasTable

/-! ### Variables -/

namespace DefaultName

variable {classes : ClassRegistry} {line : Nat} {failure : Failure}

theorem placeholder_holds {name type : List Char}
    (fails : placeholder classes line name type = .error failure) : failure.Holds line := by
  unfold placeholder at fails
  split at fails
  · cases fails
    rfl
  · split at fails
    · cases fails
    · cases fails
      rfl

theorem fill_holds {name : List Char} {references : List (List Char × List Char)}
    (fails : fill classes line name references = .error failure) : failure.Holds line := by
  induction references with
  | nil => cases fails
  | cons first others ih =>
    unfold fill at fails
    split at fails
    · next failed =>
      cases fails
      exact placeholder_holds failed
    · split at fails
      · next failed =>
        cases fails
        exact ih failed
      · cases fails

theorem read_holds {written : String} (fails : read classes written line = .error failure) :
    failure.Holds line := by
  unfold read at fails
  dsimp only at fails
  split at fails
  · next failed =>
    cases fails
    exact fill_holds failed
  · split at fails
    · cases fails
      rfl
    · split at fails
      · cases fails
        rfl
      · cases fails

end DefaultName

/-- The classes have one for all objects, so that every value has a class. -/
def ClassRegistry.KnowsObjects (classes : ClassRegistry) : Prop :=
  (classes.named? "object").isSome

theorem ClassRegistry.KnowsObjects.classOf? {classes : ClassRegistry} (knows : classes.KnowsObjects)
    (value : Value) : (classes.classOf? value).isSome := by
  rw [ClassRegistry.classOf?, Option.isSome_or, Bool.or_eq_true]
  exact Or.inr knows

/-- Registering further classes takes none away. -/
theorem ClassRegistry.KnowsObjects.register {classes : ClassRegistry}
    (knows : classes.KnowsObjects) (info : ClassInfo) : (classes.register info).KnowsObjects := by
  unfold ClassRegistry.register
  split
  · exact knows
  · unfold KnowsObjects named? at *
    rw [List.find?_append, Option.isSome_or, knows]
    rfl

/-- The classes that every host has have one for all objects. -/
theorem ClassRegistry.standard_knowsObjects : ClassRegistry.standard.KnowsObjects := by
  refine List.find?_isSome.mpr ⟨ClassInfo.user ["objects?"] { codeName := "object" }, ?_, rfl⟩
  exact List.mem_of_getLast? rfl

namespace VariablesStructure

theorem storedValue_holds {classes : ClassRegistry} (knows : classes.KnowsObjects)
    {written : String} {line : Nat} {failure : Failure}
    (fails : storedValue classes written line = .error failure) : failure.Holds line := by
  unfold storedValue at fails
  split at fails
  · cases fails
    rfl
  · next value _ =>
    split at fails
    · next unknown =>
      have known := knows.classOf? value
      rw [unknown] at known
      cases known
    · split at fails
      · split at fails
        · cases fails
        · split at fails
          · cases fails
          · cases fails
            rfl
      · cases fails
        rfl

theorem seedNode_within {classes : ClassRegistry} (knows : classes.KnowsObjects)
    {store : VariableStore} {node : Node} {failure : Failure}
    (fails : seedNode classes store node = .error failure) : failure.Within node.lines := by
  refine ⟨node.line, node.line_mem_lines, ?_⟩
  cases node with
  | entry key value line =>
    dsimp only [seedNode] at fails
    unfold seed at fails
    split at fails
    · next failed =>
      cases fails
      exact DefaultName.read_holds failed
    · split at fails
      · cases fails
      · split at fails
        · next failed =>
          cases fails
          exact storedValue_holds knows failed
        · cases fails
  | simple key line =>
    cases fails
    rfl
  | nested key line nodes =>
    cases fails
    rfl

end VariablesStructure

/-! ### Bodies -/

namespace Item

theorem readLine_holds {scope : BodyScope} {line : Nat} {text : String} {failure : Failure}
    (fails : readLine scope line text = .error failure) : failure.Holds line := by
  unfold readLine at fails
  split at fails
  · next failed =>
    cases fails
    exact Options.replace_holds failed
  · unfold readPlain at fails
    split at fails
    · split at fails
      · cases fails
      · cases fails
        rfl
    · split at fails
      · unfold readCall at fails
        split at fails
        · cases fails
          rfl
        · split at fails
          · cases fails
          · cases fails
            rfl
      · cases fails

mutual

/-- What is wrong with a node of a body holds its line, or that of a node below it. -/
theorem readNode_within (scope : BodyScope) (node : Node) :
    ∀ failure ∈ (readNode scope node).2, failure.Within node.lines := by
  intro failure member
  match node with
  | .simple key line =>
    unfold readNode at member
    split at member
    · cases member
    · next failed =>
      cases List.mem_singleton.mp member
      exact ⟨line, List.mem_singleton_self line, readLine_holds failed⟩
  | .entry key value line =>
    unfold readNode at member
    split at member
    · cases member
    · next failed =>
      cases List.mem_singleton.mp member
      exact ⟨line, List.mem_singleton_self line, readLine_holds failed⟩
  | .nested key line nodes =>
    rw [Node.lines_nested]
    unfold readNode at member
    split at member
    · next failed =>
      cases List.mem_singleton.mp member
      exact ⟨line, List.mem_cons_self, Options.replace_holds failed⟩
    · exact (readNodes_within scope nodes failure member).mono (List.subset_cons_self _ _)

theorem readNodes_within (scope : BodyScope) (nodes : List Node) :
    ∀ failure ∈ (readNode.readNodes scope nodes).2, failure.Within (Node.lineNumbers nodes) := by
  intro failure member
  match nodes with
  | [] => cases member
  | node :: others =>
    rw [Node.lineNumbers_cons]
    rcases List.mem_append.mp member with first | later
    · exact (readNode_within scope node failure first).mono (List.subset_append_left _ _)
    · exact (readNodes_within scope others failure later).mono (List.subset_append_right _ _)

end

/-- A body is refused at the line of its section; what is wrong with its lines comes up there. -/
theorem readBody_within (scope : BodyScope) (body : Section) :
    (∀ failure ∈ (readBody scope body).2, failure.Within body.lines) ∧
      ∀ failure, (readBody scope body).1 = .error failure → failure.Within body.lines := by
  have reports (failure : Failure) (member : failure ∈ (readNode.readNodes scope body.nodes).2) :
      failure.Within body.lines :=
    (readNodes_within scope body.nodes failure member).mono (List.subset_cons_self _ _)
  unfold readBody
  dsimp only
  split
  · exact ⟨reports, nofun⟩
  · refine ⟨reports, fun failure refused => ?_⟩
    cases refused
    exact ⟨body.line, body.line_mem_lines, rfl⟩

end Item

/-! ### Functions -/

namespace Signature

variable {classes : ClassRegistry} {line : Nat} {failure : Failure}

theorem typeNamed_holds {written : String}
    (fails : typeNamed classes line written = .error failure) : failure.Holds line := by
  unfold typeNamed at fails
  split at fails
  · cases fails
  · cases fails
    rfl

theorem addParameter_holds {function : String} {before : List Parameter} {written : String}
    (fails : addParameter classes line function before written = .error failure) :
    failure.Holds line := by
  unfold addParameter at fails
  split at fails
  · cases fails
    rfl
  · dsimp only at fails
    split at fails
    · cases fails
      rfl
    · split at fails
      · next failed =>
        cases fails
        exact typeNamed_holds failed
      · cases fails

theorem addParameters_holds {function : String} {before : List Parameter} {texts : List String}
    (fails : addParameters classes line function before texts = .error failure) :
    failure.Holds line := by
  induction texts generalizing before with
  | nil => cases fails
  | cons written others ih =>
    unfold addParameters at fails
    split at fails
    · next failed =>
      cases fails
      exact addParameter_holds failed
    · exact ih fails

theorem readType_holds {written : Option (List Char)}
    (fails : readType classes line written = .error failure) : failure.Holds line := by
  cases written with
  | none => cases fails
  | some written => exact typeNamed_holds (eq_error_of_map fails)

theorem read_holds {script : Script} {text : String}
    (fails : read classes script text line = .error failure) : failure.Holds line := by
  unfold read at fails
  split at fails
  · cases fails
    rfl
  · dsimp only at fails
    split at fails
    · next failed =>
      cases fails
      exact addParameters_holds failed
    · split at fails
      · next failed =>
        cases fails
        exact readType_holds failed
      · cases fails

theorem line_of_read {script : Script} {text : String} {signature : Signature}
    (read : read classes script text line = .ok signature) : signature.line = line := by
  unfold Signature.read at read
  split at read
  · cases read
  · dsimp only at read
    split at read
    · cases read
    · split at read
      · cases read
      · cases read
        rfl

end Signature

theorem FunctionTable.declare_holds {functions : FunctionTable} {signature : Signature}
    {failure : Failure} (fails : functions.declare signature = .error failure) :
    failure.Holds signature.line := by
  unfold declare at fails
  split at fails
  · cases fails
    rfl
  · cases fails

theorem FunctionTable.attach_holds {functions : FunctionTable} {function : Function}
    {failure : Failure} (fails : functions.attach function = .error failure) :
    failure.Holds function.signature.line := by
  unfold attach at fails
  dsimp only at fails
  split at fails
  · cases fails
  · cases fails
    rfl

/-! ### Commands -/

namespace CommandReading

variable {classes : ClassRegistry} {line : Nat} {failure : Failure}

theorem checkTypes_holds {types : List String}
    (fails : checkTypes classes line types = .error failure) : failure.Holds line := by
  induction types with
  | nil => cases fails
  | cons type others ih =>
    unfold checkTypes at fails
    split at fails
    · exact ih fails
    · cases fails
      rfl

theorem checkArguments_holds {arguments : List Char}
    (fails : checkArguments classes line arguments = .error failure) : failure.Holds line := by
  unfold checkArguments at fails
  dsimp only at fails
  split at fails
  · next failed =>
    cases fails
    exact checkTypes_holds failed
  · split at fails
    · cases fails
      rfl
    · cases fails

theorem readHeader_holds {script : Script} {header : String}
    (fails : readHeader classes script header line = .error failure) : failure.Holds line := by
  unfold readHeader at fails
  dsimp only at fails
  split at fails
  · split at fails
    · next failed =>
      cases fails
      exact checkArguments_holds failed
    · cases fails
  · cases fails
    rfl

/-- What has been read of a command so far: its body and what is wrong with its entries stand on
some lines. -/
structure StandsOn (lines : List Nat) (reading : CommandReading) : Prop where
  body : ∀ body ∈ reading.body, body.lines ⊆ lines
  failures : ∀ failure ∈ reading.failures, failure.Within lines

variable {reading : CommandReading} {lines : List Nat}

theorem StandsOn.fail (stands : reading.StandsOn lines) {line : Nat} (member : line ∈ lines)
    (text : String) : (reading.fail line text).StandsOn lines where
  body := stands.body
  failures failure listed := by
    rcases List.mem_append.mp listed with earlier | new
    · exact stands.failures failure earlier
    · cases List.mem_singleton.mp new
      exact ⟨line, member, rfl⟩

theorem StandsOn.update (stands : reading.StandsOn lines) (change : Command → Command) :
    (reading.update change).StandsOn lines :=
  ⟨stands.body, stands.failures⟩

theorem StandsOn.apply (stands : reading.StandsOn lines) {node : Node}
    (subset : node.lines ⊆ lines) : (reading.apply node).StandsOn lines := by
  have member : node.line ∈ lines := subset node.line_mem_lines
  cases node with
  | simple key line => exact stands.fail member _
  | entry key value line =>
    unfold CommandReading.apply applyEntry
    dsimp only
    split
    · exact stands.update _
    · exact stands.update _
    · exact stands.update _
    · exact stands.update _
    · exact stands.update _
    · split
      · exact stands.update _
      · exact stands.fail member _
    · exact stands.fail member _
  | nested key line nodes =>
    unfold CommandReading.apply
    dsimp only
    split
    · refine ⟨fun body isBody => ?_, stands.failures⟩
      cases isBody
      rw [Node.lines_nested] at subset
      exact subset
    · exact stands.fail member _

/-- What is wrong with the entries of a command holds their lines, and the section of its body
stands below its header. -/
theorem applyAll_standsOn (tree : Section) (command : Command) :
    (applyAll tree command).StandsOn tree.lines := by
  have each (nodes : List Node) (reading : CommandReading) (stands : reading.StandsOn tree.lines)
      (subset : Node.lineNumbers nodes ⊆ tree.lines) :
      (nodes.foldl CommandReading.apply reading).StandsOn tree.lines := by
    induction nodes generalizing reading with
    | nil => exact stands
    | cons node others ih =>
      rw [Node.lineNumbers_cons, List.append_subset] at subset
      exact ih _ (stands.apply subset.1) subset.2
  refine each _ _ ⟨nofun, nofun⟩ ?_
  rw [Section.lineNumbers_convertToEntries]
  exact List.subset_cons_self _ _

end CommandReading

end ScriptBinding

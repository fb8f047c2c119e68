import ScriptBinding.Text.Case

/-! # Nodes of a script

A script is a tree: plain lines, `key: value` entries, and sections that hold further nodes. Every
node knows the line it was written on.
-/

namespace ScriptBinding

/-- A node of the tree of a script. -/
inductive Node where
  /-- A plain line. -/
  | simple (key : String) (line : Nat)
  /-- A line that has been cut into a key and a value. -/
  | entry (key value : String) (line : Nat)
  /-- A header and the nodes below it. -/
  | nested (key : String) (line : Nat) (nodes : List Node)
deriving Repr

/-- A header and the nodes below it; the root of a file has line zero. -/
structure Section where
  key : String
  line : Nat
  nodes : List Node
deriving Repr

namespace Node

/-- The text a node is looked up by. -/
def key : Node → String
  | simple key _ => key
  | entry key _ _ => key
  | nested key _ _ => key

/-- The line a node was written on. -/
def line : Node → Nat
  | simple _ line => line
  | entry _ _ line => line
  | nested _ line _ => line

/-- The section a node is, when it is one. -/
def section? : Node → Option Section
  | nested key line nodes => some ⟨key, line, nodes⟩
  | _ => none

/-- The number of nodes of a tree, itself included. -/
def size : Node → Nat
  | simple _ _ => 1
  | entry _ _ _ => 1
  | nested _ _ nodes => 1 + sizes nodes
where
  /-- The number of nodes of a list of trees. -/
  sizes : List Node → Nat
    | [] => 0
    | node :: others => node.size + sizes others

/-- One row for a node and each node below it, in the order of the text, with its depth. -/
def rows (depth : Nat) : Node → List (Nat × Node)
  | simple key line => [(depth, simple key line)]
  | entry key value line => [(depth, entry key value line)]
  | nested key line nodes => (depth, nested key line nodes) :: rowsOf (depth + 1) nodes
where
  /-- The rows of a list of trees. -/
  rowsOf (depth : Nat) : List Node → List (Nat × Node)
    | [] => []
    | node :: others => node.rows depth ++ rowsOf depth others

end Node

namespace Section

/-- The section as a node. -/
def toNode (tree : Section) : Node :=
  .nested tree.key tree.line tree.nodes

/-- Put a node behind the others. -/
def push (node : Node) (tree : Section) : Section :=
  { tree with nodes := tree.nodes ++ [node] }

/-- The first node with the given key, ASCII case aside. -/
def get? (key : String) (tree : Section) : Option Node :=
  tree.nodes.find? fun node => Text.equalIgnoringAsciiCase node.key key

/-- The value of the first node with the given key, when that node is an entry. -/
def value? (key : String) (tree : Section) : Option String :=
  match tree.get? key with
  | some (.entry _ value _) => some value
  | _ => none

/-- The section as it is named in messages. -/
def describe (tree : Section) : String :=
  s!"{tree.key} (line {tree.line})"

/-- The sections directly below a section. -/
def sections (tree : Section) : List Section :=
  tree.nodes.filterMap Node.section?

end Section

end ScriptBinding

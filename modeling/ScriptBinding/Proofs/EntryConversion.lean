import ScriptBinding.Node.Entries
import ScriptBinding.Proofs.Occurrences

/-! # Cutting the lines of a tree

Cutting plain lines into entries leaves the shape of a tree as it is. Only lines down to the given
level are cut, each around its first separator, and only if something stands before that. A line
that cannot be cut stays so, and an entry is not cut again: to cut a tree twice is to cut it once,
down to the deeper of the two levels.
-/

namespace ScriptBinding

namespace Node

/-! ## Places of a tree -/

/-- The nodes right below a node. -/
def children : Node → List Node
  | .nested _ _ nodes => nodes
  | _ => []

/-- The node at the end of a path, which counts the nodes to pass over in every section on the way,
the outermost first. -/
def at? : List Nat → Node → Option Node
  | [], node => some node
  | place :: path, node => (node.children[place]?).bind (at? path)

/-- What a node is by itself: of the nodes below it, only the number counts. -/
inductive Face where
  | line (text : String) (number : Nat)
  | entry (key value : String) (number : Nat)
  | header (key : String) (number : Nat) (count : Nat)
deriving DecidableEq

/-- What the node is by itself. -/
def face : Node → Face
  | .simple text number => .line text number
  | .entry key value number => .entry key value number
  | .nested key number nodes => .header key number nodes.length

/-- Nodes this deep below a section are cut; a negative number of levels has no end. -/
def Reaches (levels : Int) (depth : Nat) : Prop :=
  levels < 0 ∨ (depth : Int) ≤ levels

theorem reaches_succ {levels : Int} (more : levels ≠ 0) (depth : Nat) :
    Reaches levels (depth + 1) ↔ Reaches (levels - 1) depth := by
  unfold Reaches
  omega

namespace Face

/-- What becomes of a node by itself, if it is within reach or not. -/
inductive Becomes (separator : String) (reached : Prop) : Face → Face → Prop
  /-- A line is cut around the first separator, if something stands before it. -/
  | cut {text : String} {number : Nat} {before after : List Char} (here : reached)
      (first : Text.FirstAt separator.toList text.toList before after)
      (named : Text.trimChars before ≠ []) :
      Becomes separator reached (.line text number)
        (.entry (String.ofList (Text.trimChars before)) (String.ofList (Text.trimChars after))
          number)
  /-- Any other line stays as it is. -/
  | line {text : String} {number : Nat}
      (stays : reached → ∀ before after,
        Text.FirstAt separator.toList text.toList before after → Text.trimChars before = []) :
      Becomes separator reached (.line text number) (.line text number)
  | entry {key value : String} {number : Nat} :
      Becomes separator reached (.entry key value number) (.entry key value number)
  | header {key : String} {number count : Nat} :
      Becomes separator reached (.header key number count) (.header key number count)

/-- Out of reach nothing changes. -/
theorem Becomes.same {separator : String} {reached : Prop} (out : ¬ reached) (face : Face) :
    Becomes separator reached face face := by
  cases face with
  | line text number => exact .line fun here => absurd here out
  | entry key value number => exact .entry
  | header key number count => exact .header

end Face

open convert (convertAll)

variable {separator : String}

theorem cutEntry?_eq_some_iff {text key value : String} :
    cutEntry? separator text = some (key, value) ↔
      ∃ before after, Text.FirstAt separator.toList text.toList before after ∧
        Text.trimChars before ≠ [] ∧ key = String.ofList (Text.trimChars before) ∧
        value = String.ofList (Text.trimChars after) := by
  unfold cutEntry?
  cases found : Text.cut? separator.toList text.toList with
  | none =>
    refine ⟨nofun, ?_⟩
    rintro ⟨before, after, first, -⟩
    rw [Text.cut?_eq_some_iff.mpr first] at found
    cases found
  | some sides =>
    obtain ⟨before, after⟩ := sides
    have first := Text.cut?_eq_some_iff.mp found
    by_cases blank : Text.trimChars before = []
    · simp only [blank, List.isEmpty_nil, ↓reduceIte, reduceCtorEq, false_iff]
      rintro ⟨left, right, other, named, -⟩
      exact named ((first.unique other).1 ▸ blank)
    · have visible : (Text.trimChars before).isEmpty = false := by simpa using blank
      simp only [visible, Bool.false_eq_true, ↓reduceIte, Option.some.injEq, Prod.mk.injEq]
      constructor
      · rintro ⟨rfl, rfl⟩
        exact ⟨before, after, first, blank, rfl, rfl⟩
      · rintro ⟨left, right, other, -, rfl, rfl⟩
        obtain ⟨rfl, rfl⟩ := first.unique other
        exact ⟨rfl, rfl⟩

/-- What cutting makes of a line within reach. -/
theorem face_ofLine (text : String) (number : Nat) {reached : Prop} (here : reached) :
    Face.Becomes separator reached (.line text number) (ofLine separator text number).face := by
  unfold ofLine
  cases found : cutEntry? separator text with
  | some sides =>
    obtain ⟨key, value⟩ := sides
    obtain ⟨before, after, first, named, rfl, rfl⟩ := cutEntry?_eq_some_iff.mp found
    exact .cut here first named
  | none =>
    refine .line fun _ before after first => Classical.byContradiction fun named => ?_
    rw [cutEntry?_eq_some_iff.mpr ⟨before, after, first, named, rfl, rfl⟩] at found
    cases found

theorem convertAll_eq_map (levels : Int) (nodes : List Node) :
    convertAll separator levels nodes = nodes.map (convert separator levels) := by
  induction nodes with
  | nil => rfl
  | cons node others ih => rw [convertAll, ih, List.map_cons]

theorem children_ofLine (text : String) (number : Nat) :
    (ofLine separator text number).children = [] := by
  unfold ofLine
  split <;> rfl

/-- What cutting makes of the node at the end of a path. -/
theorem face_convert (levels : Int) (path : List Nat) (node : Node) :
    Option.Rel (Face.Becomes separator (Reaches levels path.length)) ((node.at? path).map face)
      (((node.convert separator levels).at? path).map face) := by
  -- The path leads down while the levels run out, so the level varies with the node.
  induction path generalizing levels node with
  | nil =>
    have here : Reaches levels 0 := by
      unfold Reaches
      omega
    cases node with
    | simple text number => exact .some (face_ofLine text number here)
    | entry key value number => exact .some .entry
    | nested key number nodes =>
      by_cases last : levels = 0
      · simp only [convert, last, ↓reduceIte]
        exact .some .header
      · simp only [convert, last, ↓reduceIte, at?, Option.map_some, face, convertAll_eq_map,
          List.length_map]
        exact .some .header
  | cons place path ih =>
    cases node with
    | simple text number =>
      simp only [convert, at?, children_ofLine]
      exact .none
    | entry key value number => exact .none
    | nested key number nodes =>
      by_cases last : levels = 0
      · have out : ¬ Reaches levels (place :: path).length := by
          simp only [Reaches, List.length_cons]
          omega
        have same : (Node.nested key number nodes).convert separator levels =
            .nested key number nodes := by
          rw [convert, if_pos last]
        rw [same]
        cases ((Node.nested key number nodes).at? (place :: path)).map face with
        | none => exact .none
        | some face => exact .some (.same out face)
      · simp only [convert, last, ↓reduceIte, at?, children, convertAll_eq_map, List.getElem?_map,
          List.length_cons, reaches_succ last]
        cases nodes[place]? with
        | none => exact .none
        | some child => exact ih (levels - 1) child

/-! ## Cutting twice -/

/-- A line that has been looked at is not cut any further. -/
theorem convert_ofLine (levels : Int) (text : String) (number : Nat) :
    (ofLine separator text number).convert separator levels = ofLine separator text number := by
  cases found : cutEntry? separator text with
  | some sides => simp only [ofLine, found, convert]
  | none => simp only [ofLine, found, convert]

/-- Both numbers of levels reach the same nodes. -/
def SameReach (levels others : Int) : Prop :=
  levels = others ∨ levels < 0 ∧ others < 0

mutual

theorem convert_sameReach {levels others : Int} (same : SameReach levels others) (node : Node) :
    node.convert separator levels = node.convert separator others := by
  match node with
  | .simple text number => rfl
  | .entry key value number => rfl
  | .nested key number nodes =>
    have below : SameReach (levels - 1) (others - 1) ∧ (levels = 0 ↔ others = 0) := by
      unfold SameReach at *
      omega
    simp only [convert, below.2, convertAll_sameReach below.1 nodes]

theorem convertAll_sameReach {levels others : Int} (same : SameReach levels others)
    (nodes : List Node) :
    convertAll separator levels nodes = convertAll separator others nodes := by
  match nodes with
  | [] => rfl
  | node :: rest =>
    rw [convertAll, convertAll, convert_sameReach same node, convertAll_sameReach same rest]

end

/-- The larger of two numbers of levels, -1 standing for no end. -/
def deeper (levels others : Int) : Int :=
  if levels < 0 ∨ others < 0 then -1 else max levels others

mutual

theorem convert_convert (levels others : Int) (node : Node) :
    (node.convert separator others).convert separator levels =
      node.convert separator (deeper levels others) := by
  match node with
  | .simple text number => exact convert_ofLine levels text number
  | .entry key value number => rfl
  | .nested key number nodes =>
    by_cases first : others = 0
    · have same : SameReach levels (deeper levels others) := by
        unfold SameReach deeper
        omega
      have untouched : (nested key number nodes).convert separator others =
          .nested key number nodes := by
        rw [convert, if_pos first]
      rw [untouched, convert_sameReach same]
    · by_cases second : levels = 0
      · have same : SameReach others (deeper levels others) := by
          unfold SameReach deeper
          omega
        rw [← convert_sameReach same, convert, if_neg first, convert, if_pos second]
      · have same : SameReach (deeper (levels - 1) (others - 1)) (deeper levels others - 1) := by
          unfold SameReach deeper
          omega
        have more : deeper levels others ≠ 0 := by
          unfold deeper
          omega
        rw [convert, if_neg first, convert, if_neg second, convert, if_neg more,
          convertAll_convertAll (levels - 1) (others - 1) nodes, convertAll_sameReach same]

theorem convertAll_convertAll (levels others : Int) (nodes : List Node) :
    convertAll separator levels (convertAll separator others nodes) =
      convertAll separator (deeper levels others) nodes := by
  match nodes with
  | [] => rfl
  | node :: rest =>
    rw [convertAll, convertAll, convertAll, convert_convert levels others node,
      convertAll_convertAll levels others rest]

end

end Node

namespace Section

/-- What the node at the end of a path is by itself. -/
def face? (tree : Section) (path : List Nat) : Option Node.Face :=
  (tree.toNode.at? path).map Node.face

/-- What cutting a section into entries makes of the node at the end of a path. -/
theorem face?_convertToEntries (separator : String) (tree : Section) (levels : Int)
    (path : List Nat) :
    Option.Rel (Node.Face.Becomes separator (Node.Reaches levels (path.length - 1)))
      (tree.face? path) ((tree.convertToEntries levels separator).face? path) := by
  cases path with
  | nil =>
    simp only [face?, toNode, convertToEntries, Node.at?, Option.map_some, Node.face,
      Node.convertAll_eq_map, List.length_map]
    exact .some .header
  | cons place path =>
    simp only [face?, toNode, convertToEntries, Node.at?, Node.children, Node.convertAll_eq_map,
      List.getElem?_map, List.length_cons, Nat.add_sub_cancel]
    cases tree.nodes[place]? with
    | none => exact .none
    | some node => exact Node.face_convert levels path node

/-- **Cutting a section into entries.** At the end of every path there is a node after cutting just
if there was one before, with the same line number and, if it is a section, with the same header and
as many nodes in it. A plain line becomes the trimmed key and value around its first separator just
if it is no deeper than the levels reach and the key is not blank; nothing else changes. To cut down
to some levels and then to others is to cut down to the deeper of them, so that cutting once more
changes nothing. -/
theorem convertToEntries_exact (separator : String) (tree : Section) :
    (∀ levels path,
      Option.Rel (Node.Face.Becomes separator (Node.Reaches levels (path.length - 1)))
        (tree.face? path) ((tree.convertToEntries levels separator).face? path)) ∧
    (∀ levels others,
      (tree.convertToEntries others separator).convertToEntries levels separator =
        tree.convertToEntries (Node.deeper levels others) separator) ∧
    ∀ levels, (tree.convertToEntries levels separator).convertToEntries levels separator =
      tree.convertToEntries levels separator := by
  have twice (levels others : Int) :
      (tree.convertToEntries others separator).convertToEntries levels separator =
        tree.convertToEntries (Node.deeper levels others) separator := by
    simp only [convertToEntries, Node.convertAll_convertAll]
  refine ⟨tree.face?_convertToEntries separator, twice, fun levels => ?_⟩
  have same : Node.SameReach (Node.deeper levels levels) levels := by
    unfold Node.SameReach Node.deeper
    omega
  rw [twice]
  simp only [convertToEntries, Node.convertAll_sameReach same]

end Section

end ScriptBinding

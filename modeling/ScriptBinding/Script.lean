import ScriptBinding.Path

/-! # Scripts

A script is one load of a file: two loads of one file differ in their generation.
-/

namespace ScriptBinding

/-- One load of a script file. -/
structure Script where
  path : Path
  /-- The number of the load. -/
  generation : Nat
deriving DecidableEq, Repr, Inhabited

namespace Script

/-- The name of the file, or the whole path when it has none. -/
def name (script : Script) : String :=
  script.path.fileName?.getD script.path.raw

/-- The same load of the same file, however its path is spelled. -/
def same (a b : Script) : Bool :=
  a.path.same b.path && a.name == b.name && a.generation == b.generation

/-- The same load, or none on both sides. -/
def sameCurrent : Option Script → Option Script → Bool
  | none, none => true
  | some a, some b => a.same b
  | _, _ => false

end Script

/-- A source of generations. -/
structure GenerationCounter where
  /-- The generation that is handed out next. -/
  next : Nat := 1
deriving DecidableEq, Repr

/-- The next generation, and the counter that hands out those after it. -/
def GenerationCounter.take (counter : GenerationCounter) : Nat × GenerationCounter :=
  (counter.next, ⟨counter.next + 1⟩)

end ScriptBinding

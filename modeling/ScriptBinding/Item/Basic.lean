/-! # Items of a body

A body is a list of items. Most of them are kept as texts, which the host makes sense of when the
body runs; calls, returns and blocks are told apart when it is loaded.
-/

namespace ScriptBinding

/-- One item of a body. -/
inductive Item where
  /-- A text for the host. -/
  | effect (text : String) (line : Nat)
  /-- A call of a function with argument texts. -/
  | call (function : String) (arguments : List String) (line : Nat)
  /-- The end of a function, perhaps with a result. -/
  | answer (value : Option String) (line : Nat)
  /-- Items that run when the host accepts their header. -/
  | block (header : String) (line : Nat) (items : List Item)
deriving Repr, Inhabited

/-- How a body ended. -/
inductive Flow where
  /-- After its last item. -/
  | finished
  /-- At an item that ends a function, with its result. -/
  | answered (value : Option String)
deriving DecidableEq, Repr

namespace Item

/-- The line an item was written on. -/
def line : Item → Nat
  | effect _ line => line
  | call _ _ line => line
  | answer _ line => line
  | block _ line _ => line

/-- The number of items of a tree, itself included. -/
def size : Item → Nat
  | effect _ _ | call _ _ _ | answer _ _ => 1
  | block _ _ items => 1 + sizes items
where
  /-- The number of items of a list of trees. -/
  sizes : List Item → Nat
    | [] => 0
    | item :: others => item.size + sizes others

end Item

end ScriptBinding

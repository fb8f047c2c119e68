/-! # Phases

A structure goes through phases, one call for each. What becomes of a structure depends on how its
calls went, and a record is kept of them.
-/

namespace ScriptBinding

/-- A phase of a structure. -/
inductive Phase where
  /-- Take the header and the section. -/
  | init
  /-- Declare what others may refer to. -/
  | preload
  /-- Bind what the section says. -/
  | load
  /-- Mend what depends on other structures. -/
  | afterLoad
  /-- Take note of what the main thread has done since. -/
  | settle
  /-- Take everything back. -/
  | unload
deriving DecidableEq, Repr

/-- The word for a phase. -/
def Phase.name : Phase → String
  | init => "init"
  | preload => "preload"
  | load => "load"
  | afterLoad => "after_load"
  | settle => "settle"
  | unload => "unload"

/-- A call by which a structure went through a phase. -/
structure PhaseCall where
  phase : Phase
  /-- The place of the section of the structure among the nodes of its script. -/
  place : Nat
  /-- The call succeeded; for the first phase, the header was taken. -/
  success : Bool
deriving DecidableEq, Repr

end ScriptBinding

import ScriptBinding.Regex.Footprint
import ScriptBinding.Regex.Matcher
import ScriptBinding.Regex.Parser

/-! # From expressions to machines

An expression is accepted when no name is given to two of its groups, its parts are not nested too
deep and it does not grow too large.
-/

namespace ScriptBinding.Regex

/-- The machine that runs an expression, if it is accepted. -/
def machine? (regex : Regex) : Option Machine :=
  if regex.groupNames.Nodup && regex.depth ≤ maxDepth then
    let expr := regex.reduced
    if expr.fits then some (.ofReduced expr) else none
  else none

/-- The machine for the expression a text stands for. -/
def parse? (flags : Flags) (chars : List Char) : Option Machine :=
  (read? flags chars).bind machine?

end ScriptBinding.Regex

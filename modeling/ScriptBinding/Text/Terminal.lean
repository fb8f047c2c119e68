/-! # Texts on a terminal

Characters by which a text could steer the terminal it is shown on are written as escapes. Other
control characters are left alone.
-/

namespace ScriptBinding.Text

/-- A character of a text that is shown on a terminal. -/
def terminalChar (c : Char) : List Char :=
  if c = '\x07' then ['\\', 'x', '0', '7']
  else if c = '\x08' then ['\\', 'x', '0', '8']
  else if c = '\x0c' then ['\\', 'x', '0', 'c']
  else if c = '\x1b' then ['\\', 'x', '1', 'b']
  else if c = '\x7f' then ['\\', 'x', '7', 'f']
  else if 0x80 ≤ c.toNat && c.toNat ≤ 0x9F then
    ['\\', 'u', '\x7b'] ++ Nat.toDigits 16 c.toNat ++ ['\x7d']
  else [c]

/-- A text that is shown on a terminal. -/
def onTerminal (text : String) : String :=
  String.ofList (text.toList.flatMap terminalChar)

end ScriptBinding.Text

/-! # Blank characters

White space of any script, and texts with the blanks at their ends removed.
-/

namespace ScriptBinding.Text

/-- White space of any script. -/
def isBlank (c : Char) : Bool :=
  let point := c.toNat
  (9 ≤ point && point ≤ 13) || point == 0x20 || point == 0x85 || point == 0xA0 ||
    point == 0x1680 || (0x2000 ≤ point && point ≤ 0x200A) || point == 0x2028 ||
    point == 0x2029 || point == 0x202F || point == 0x205F || point == 0x3000

/-- Drop the characters at the end that satisfy a test. -/
def dropEndWhile (test : Char → Bool) (chars : List Char) : List Char :=
  (chars.reverse.dropWhile test).reverse

/-- Drop the blanks at the end. -/
def trimEndChars (chars : List Char) : List Char :=
  dropEndWhile isBlank chars

/-- Drop the blanks at both ends. -/
def trimChars (chars : List Char) : List Char :=
  trimEndChars (chars.dropWhile isBlank)

/-- Drop the blanks at both ends. -/
def trim (text : String) : String :=
  String.ofList (trimChars text.toList)

/-- Drop the blanks at the start. -/
def trimStart (text : String) : String :=
  String.ofList (text.toList.dropWhile isBlank)

/-- Drop the blanks at the end. -/
def trimEnd (text : String) : String :=
  String.ofList (trimEndChars text.toList)

/-- Drop every leading occurrence of one character. -/
def dropLeading (c : Char) (text : String) : String :=
  String.ofList (text.toList.dropWhile (· == c))

@[simp] theorem toList_trim (text : String) : (trim text).toList = trimChars text.toList := by
  simp [trim]

@[simp] theorem toList_trimStart (text : String) :
    (trimStart text).toList = text.toList.dropWhile isBlank := by
  simp [trimStart]

@[simp] theorem toList_trimEnd (text : String) :
    (trimEnd text).toList = trimEndChars text.toList := by
  simp [trimEnd]

end ScriptBinding.Text

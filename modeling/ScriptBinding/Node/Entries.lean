import ScriptBinding.Node.Basic
import ScriptBinding.Text.Cut

/-! # Entries

A plain line becomes an entry when it is cut at the first separator and its key is not blank.
-/

namespace ScriptBinding

/-- Cut the text of a plain line into a key and a value. -/
def Node.cutEntry? (separator text : String) : Option (String × String) :=
  match Text.cut? separator.toList text.toList with
  | none => none
  | some (key, value) =>
    if (Text.trimChars key).isEmpty then none
    else some (String.ofList (Text.trimChars key), String.ofList (Text.trimChars value))

/-- The entry that a plain line is, or else the line itself. -/
def Node.ofLine (separator key : String) (line : Nat) : Node :=
  match Node.cutEntry? separator key with
  | some (entryKey, value) => .entry entryKey value line
  | none => .simple key line

/-- Cut the plain lines of a tree into entries, down to a number of levels below its nodes; a
negative number has no end. -/
def Node.convert (separator : String) (levels : Int) : Node → Node
  | .simple key line => .ofLine separator key line
  | .entry key value line => .entry key value line
  | .nested key line nodes =>
    if levels = 0 then .nested key line nodes
    else .nested key line (convertAll separator (levels - 1) nodes)
where
  /-- Cut the plain lines of a list of trees into entries. -/
  convertAll (separator : String) (levels : Int) : List Node → List Node
    | [] => []
    | node :: others => node.convert separator levels :: convertAll separator levels others

/-- Cut the plain lines of a section into entries, down to a number of levels. -/
def Section.convertToEntries (levels : Int) (separator : String) (tree : Section) : Section :=
  { tree with nodes := Node.convert.convertAll separator levels tree.nodes }

end ScriptBinding

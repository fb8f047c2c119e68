import ScriptBinding.Failure
import ScriptBinding.Node.Basic
import ScriptBinding.Node.Line

/-! # From text to tree

A line that ends in a colon opens a section, which holds the lines after it that are deeper. The
first of those sets the indentation of the section; the others must share it or stand deeper still,
in a section of their own.
-/

namespace ScriptBinding

namespace Line

/-- The trees of a list of lines, the outermost of which have the given indentation. -/
def trees (level : Nat) : List Line → Except IndentError (List Node)
  | [] => .ok []
  | line :: others =>
    if line.indent ≠ level then .error (.unexpected line.number)
    else
      match line.header? with
      | none => (trees level others).map (.simple line.text line.number :: ·)
      | some key =>
        let body := others.takeWhile (level < ·.indent)
        match trees ((body.head?.map Line.indent).getD level) body with
        | .error problem => .error problem
        | .ok nodes =>
          (trees level (others.dropWhile (level < ·.indent))).map
            (.nested key line.number nodes :: ·)
termination_by lines => lines.length
decreasing_by
  · simp
  · exact Nat.lt_succ_of_le (List.takeWhile_sublist _).length_le
  · exact Nat.lt_succ_of_le (List.dropWhile_sublist _).length_le

/-- The headers with nothing below them, as key and line. -/
def emptyHeaders : List Line → List (String × Nat)
  | [] => []
  | line :: others =>
    let deeper := match others with
      | [] => false
      | next :: _ => line.indent < next.indent
    match line.header?, deeper with
    | some key, false => (key, line.number) :: emptyHeaders others
    | _, _ => emptyHeaders others

end Line

namespace Section

/-- The tree of a text, under a root with the given name. -/
def parse (name text : String) : Except IndentError Section :=
  match Line.read text with
  | .error problem => .error problem
  | .ok lines => (Line.trees 0 lines).map (⟨name, 0, ·⟩)

/-- The headers with nothing below them, up to the line at which a text stops being a tree. -/
def emptyHeaders (text : String) : List (String × Nat) :=
  match Line.read text with
  | .error _ => []
  | .ok lines =>
    match Line.trees 0 lines with
    | .error (.unexpected stop) => (Line.emptyHeaders lines).filter (·.2 < stop)
    | _ => Line.emptyHeaders lines

/-- The warning about a header with nothing below it. -/
def emptyWarning (header : String × Nat) : LogEntry :=
  ⟨.warn, s!"Empty section '{header.1}' at line {header.2}"⟩

/-- The warnings that reading a text leaves. -/
def warnings (text : String) : List LogEntry :=
  (emptyHeaders text).map emptyWarning

end Section

end ScriptBinding

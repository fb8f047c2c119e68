import ScriptBinding.Pattern.Basic
import ScriptBinding.Proofs.ExpressionTraces
import ScriptBinding.Proofs.PatternNotation

/-! # Patterns as grammars

A pattern is a grammar for headers: which texts can be derived from it, and what a derivation finds
on its way.
-/

namespace ScriptBinding

/-- What a derivation of a text finds. -/
structure Findings where
  /-- The placeholders in the order of the pattern; one that is not derived has no text. -/
  arguments : List (Option Argument) := []
  /-- The texts derived from raw expressions. -/
  raws : List String := []
  /-- The marks of the alternatives that are taken, combined bit by bit. -/
  mark : Nat := 0
deriving DecidableEq, Repr

namespace Findings

/-- What is found first, and what is found behind it. -/
def append (first rest : Findings) : Findings where
  arguments := first.arguments ++ rest.arguments
  raws := first.raws ++ rest.raws
  mark := first.mark ^^^ rest.mark

instance : Append Findings := ⟨append⟩

/-- What is found in a part with so many placeholders that is left out. -/
def missed (placeholders : Nat) : Findings where
  arguments := List.replicate placeholders none

@[simp] theorem empty_append (findings : Findings) : {} ++ findings = findings := by
  change append {} findings = findings
  simp [append]

@[simp] theorem append_empty (findings : Findings) : findings ++ {} = findings := by
  change append findings {} = findings
  simp [append]

theorem length_append (first rest : Findings) : (first ++ rest).arguments.length =
    first.arguments.length + rest.arguments.length :=
  List.length_append

end Findings

namespace Piece

mutual

/-- How many placeholders a piece has. -/
def placeholders : Piece → Nat
  | .literal _ | .blanks | .raw _ => 0
  | .argument _ => 1
  | .optional alternatives _ | .choice alternatives => placeholdersOfEach alternatives

/-- How many placeholders a sequence has. -/
def placeholdersOf : List Piece → Nat
  | [] => 0
  | piece :: others => piece.placeholders + placeholdersOf others

/-- How many placeholders an alternative has. -/
def placeholdersOfAlternative : Alternative → Nat
  | .mk _ body => placeholdersOf body

/-- How many placeholders some alternatives have. -/
def placeholdersOfEach : List Alternative → Nat
  | [] => 0
  | alternative :: others => placeholdersOfAlternative alternative + placeholdersOfEach others

end

mutual

/-- A text is derived from a piece. -/
inductive Derives : Piece → List Char → Findings → Prop
  /-- A character stands for all that differ from it in case alone. -/
  | literal {c d : Char} (alike : Text.foldChar c = Text.foldChar d) : Derives (.literal c) [d] {}
  /-- Spaces stand for any blanks, but not for none. -/
  | blanks {text : List Char} (nonempty : text ≠ []) (all : ∀ c ∈ text, Text.isBlank c = true) :
      Derives .blanks text {}
  /-- An optional part is left out. -/
  | skipped {alternatives : List Alternative} {absorbs : Bool} :
      Derives (.optional alternatives absorbs) [] (.missed (placeholdersOfEach alternatives))
  /-- An optional part is there. -/
  | present {alternatives : List Alternative} {text : List Char} {findings : Findings}
      (body : DerivesOne alternatives text findings) :
      Derives (.optional alternatives false) text findings
  /-- An optional part is there, with blanks for the spaces behind it. -/
  | spaced {alternatives : List Alternative} {text blanks : List Char} {findings : Findings}
      (body : DerivesOne alternatives text findings) (nonempty : blanks ≠ [])
      (all : ∀ c ∈ blanks, Text.isBlank c = true) :
      Derives (.optional alternatives true) (text ++ blanks) findings
  /-- A choice is one of its alternatives. -/
  | choice {alternatives : List Alternative} {text : List Char} {findings : Findings}
      (body : DerivesOne alternatives text findings) : Derives (.choice alternatives) text findings
  /-- A raw expression is what it matches. -/
  | raw {source : List Char} {regex : Regex} {text : List Char}
      (reads : Regex.read? flags source = some regex) (fits : text ∈ regex.words) :
      Derives (.raw source) text { raws := [String.ofList text] }
  /-- A placeholder is any text within a line, but not none. -/
  | argument {type : String} {text : List Char} (nonempty : text ≠ []) (line : '\n' ∉ text) :
      Derives (.argument type) text
        { arguments := [some ⟨type, String.ofList (Text.trimChars text)⟩] }

/-- A text is derived from pieces, one behind the other. -/
inductive DerivesAll : List Piece → List Char → Findings → Prop
  | nil : DerivesAll [] [] {}
  | cons {piece : Piece} {others : List Piece} {early late : List Char} {first rest : Findings}
      (here : Derives piece early first) (behind : DerivesAll others late rest) :
      DerivesAll (piece :: others) (early ++ late) (first ++ rest)

/-- A text is derived from an alternative. -/
inductive DerivesAlternative : Alternative → List Char → Findings → Prop
  | plain {body : List Piece} {text : List Char} {findings : Findings}
      (pieces : DerivesAll body text findings) : DerivesAlternative (.mk none body) text findings
  | marked {value : Nat} {body : List Piece} {text : List Char} {findings : Findings}
      (pieces : DerivesAll body text findings) :
      DerivesAlternative (.mk (some value) body) text (findings ++ { mark := value })

/-- A text is derived from one of some alternatives, and the others are left out. -/
inductive DerivesOne : List Alternative → List Char → Findings → Prop
  | here {alternative : Alternative} {others : List Alternative} {text : List Char}
      {findings : Findings} (taken : DerivesAlternative alternative text findings) :
      DerivesOne (alternative :: others) text (findings ++ .missed (placeholdersOfEach others))
  | later {alternative : Alternative} {others : List Alternative} {text : List Char}
      {findings : Findings} (taken : DerivesOne others text findings) :
      DerivesOne (alternative :: others) text
        (.missed (placeholdersOfAlternative alternative) ++ findings)

end

mutual

/-- A derivation has a slot for every placeholder, whether it is derived or left out. -/
theorem Derives.length_arguments {piece : Piece} {text : List Char} {findings : Findings}
    (derives : Derives piece text findings) :
    findings.arguments.length = piece.placeholders := by
  cases derives with
  | literal _ => rfl
  | blanks _ _ => rfl
  | skipped => exact List.length_replicate
  | present body => exact body.length_arguments
  | spaced body _ _ => exact body.length_arguments
  | choice body => exact body.length_arguments
  | raw _ _ => rfl
  | argument _ _ => rfl

theorem DerivesAll.length_arguments {pieces : List Piece} {text : List Char} {findings : Findings}
    (derives : DerivesAll pieces text findings) :
    findings.arguments.length = placeholdersOf pieces := by
  cases derives with
  | nil => rfl
  | cons here behind =>
    rw [Findings.length_append, here.length_arguments, behind.length_arguments, placeholdersOf]

theorem DerivesAlternative.length_arguments {alternative : Alternative} {text : List Char}
    {findings : Findings} (derives : DerivesAlternative alternative text findings) :
    findings.arguments.length = placeholdersOfAlternative alternative := by
  cases derives with
  | plain pieces => exact pieces.length_arguments
  | marked pieces => exact (Findings.length_append _ _).trans pieces.length_arguments

theorem DerivesOne.length_arguments {alternatives : List Alternative} {text : List Char}
    {findings : Findings} (derives : DerivesOne alternatives text findings) :
    findings.arguments.length = placeholdersOfEach alternatives := by
  cases derives with
  | here taken =>
    rw [Findings.length_append, taken.length_arguments, placeholdersOfEach]
    exact congrArg _ List.length_replicate
  | later taken =>
    rw [Findings.length_append, taken.length_arguments, placeholdersOfEach]
    exact congrArg (· + _) List.length_replicate

end

/-! ## Raw expressions -/

mutual

/-- The raw expressions of a piece are expressions by themselves, and what they match does not
depend on what stands around it. -/
def StandsAlone : Piece → Prop
  | .literal _ | .blanks | .argument _ => True
  | .optional alternatives _ | .choice alternatives => EachStandsAlone alternatives
  | .raw text => ∃ regex, Regex.read? flags text = some regex ∧ regex.Edgeless

/-- The raw expressions of a sequence stand alone. -/
def AllStandAlone : List Piece → Prop
  | [] => True
  | piece :: others => piece.StandsAlone ∧ AllStandAlone others

/-- The raw expressions of an alternative stand alone. -/
def AlternativeStandsAlone : Alternative → Prop
  | .mk _ body => AllStandAlone body

/-- The raw expressions of some alternatives stand alone. -/
def EachStandsAlone : List Alternative → Prop
  | [] => True
  | alternative :: others => AlternativeStandsAlone alternative ∧ EachStandsAlone others

end

mutual

/-- Every choice in a piece is between one alternative at least. -/
def Branched : Piece → Prop
  | .literal _ | .blanks | .argument _ | .raw _ => True
  | .optional alternatives _ | .choice alternatives => alternatives ≠ [] ∧ EachBranched alternatives

/-- Every choice in a sequence is between one alternative at least. -/
def AllBranched : List Piece → Prop
  | [] => True
  | piece :: others => piece.Branched ∧ AllBranched others

/-- Every choice in an alternative is between one alternative at least. -/
def AlternativeBranched : Alternative → Prop
  | .mk _ body => AllBranched body

/-- Every choice in some alternatives is between one alternative at least. -/
def EachBranched : List Alternative → Prop
  | [] => True
  | alternative :: others => AlternativeBranched alternative ∧ EachBranched others

end

mutual

theorem Spells.branched {text : List Char} {pieces : List Piece} (spells : Spells text pieces) :
    AllBranched pieces := by
  cases spells with
  | done => trivial
  | literal _ others => exact ⟨trivial, others.branched⟩
  | escaped others => exact ⟨trivial, others.branched⟩
  | blanks _ others => exact ⟨trivial, others.branched⟩
  | optional body _ others => exact ⟨body.branched, others.branched⟩
  | choice body others => exact ⟨body.branched, others.branched⟩
  | raw _ others => exact ⟨trivial, others.branched⟩
  | argument _ _ others => exact ⟨trivial, others.branched⟩

theorem SpellsAlternative.branched {text : List Char} {alternative : Alternative}
    (spells : SpellsAlternative text alternative) : AlternativeBranched alternative := by
  cases spells with
  | unmarked _ pieces => exact pieces.branched
  | marked _ _ pieces => exact pieces.branched

theorem SpellsEach.branched {text : List Char} {alternatives : List Alternative}
    (spells : SpellsEach text alternatives) : alternatives ≠ [] ∧ EachBranched alternatives := by
  cases spells with
  | last only => exact ⟨List.cons_ne_nil _ _, only.branched, trivial⟩
  | more first later => exact ⟨List.cons_ne_nil _ _, first.branched, later.branched.2⟩

end

end Piece

end ScriptBinding

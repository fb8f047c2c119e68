import ScriptBinding.Text.Cut

/-! # References inside a text

A reference is a key between an opening mark and the next closing character. `References.scan`
finds them in one pass from the left: what stands inside a reference is never searched again.
-/

namespace ScriptBinding.Text

/-- A text cut at its references. -/
structure References where
  /-- Each reference, as the characters before it and its key. -/
  found : List (List Char × List Char)
  /-- The characters after the last reference, up to an opening mark that is never closed. -/
  tail : List Char
  /-- What follows an opening mark that is never closed. -/
  unclosed : Option (List Char)
deriving DecidableEq, Repr

/-- One more reference in front. -/
def References.cons (before key : List Char) (others : References) : References :=
  { others with found := (before, key) :: others.found }

/-- Cut a text at its references. -/
def References.scan (opening : List Char) (closing : Char) (chars : List Char) : References :=
  match _opened : cut? opening chars with
  | none => ⟨[], chars, none⟩
  | some (before, inside) =>
    match _closed : cut? [closing] inside with
    | none => ⟨[], before, some inside⟩
    | some (key, rest) => (scan opening closing rest).cons before key
termination_by chars.length
decreasing_by
  have outer := length_of_cut? _opened
  have inner := length_of_cut? _closed
  simp only [List.length_cons, List.length_nil] at inner
  omega

/-- The text that was cut. -/
def References.render (opening : List Char) (closing : Char) (references : References) :
    List Char :=
  references.found.flatMap (fun part => part.1 ++ opening ++ part.2 ++ [closing]) ++
    references.tail ++ (references.unclosed.map (opening ++ ·)).getD []

/-- The text with an image in place of every reference; an opening mark that is never closed
stays. -/
def References.fill (opening : List Char) (image : List Char → List Char)
    (references : References) : List Char :=
  references.found.flatMap (fun part => part.1 ++ image part.2) ++ references.tail ++
    (references.unclosed.map (opening ++ ·)).getD []

/-- Cutting a text at its references loses nothing. -/
theorem References.render_scan (opening : List Char) (closing : Char) (chars : List Char) :
    (scan opening closing chars).render opening closing = chars := by
  fun_induction scan opening closing chars with
  | case1 chars none => simp [render]
  | case2 chars before inside opened closed =>
    rw [eq_of_cut? opened]; simp [render]
  | case3 chars before inside opened key rest closed ih =>
    rw [eq_of_cut? opened, eq_of_cut? closed]
    conv => rhs; rw [← ih]
    simp [render, cons]

end ScriptBinding.Text

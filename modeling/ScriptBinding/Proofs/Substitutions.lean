import ScriptBinding.Event.Basic
import ScriptBinding.Options
import ScriptBinding.Proofs.Occurrences

/-! # Substitutions

A text splits in one way only into references and the texts between them. Both substitutions, of
options and of local values, give each reference its image in the order of the text and leave the
rest alone; what they put in is never read again. They are loops that go on behind the reference
they have just replaced, so they come to an end after as many turns as there are references.
-/

namespace ScriptBinding

/-! ## Splitting a text -/

namespace Text.References

/-- The references and the texts between them make up the text, no opening mark stands in the texts
between, and every reference is closed at the first closing character. -/
structure Splits (opening : List Char) (closing : Char) (chars : List Char)
    (references : References) : Prop where
  whole : references.render opening closing = chars
  between : ∀ part ∈ references.found, ¬ opening <:+: part.1
  keys : ∀ part ∈ references.found, closing ∉ part.2
  tail : ¬ opening <:+: references.tail
  unclosed : ∀ inside ∈ references.unclosed, closing ∉ inside

variable {opening chars before inside key behind : List Char} {closing : Char}

theorem scan_of_none (none : cut? opening chars = none) :
    scan opening closing chars = ⟨[], chars, .none⟩ := by
  unfold scan
  split
  · rfl
  · next found => cases none.symm.trans found

theorem scan_of_unclosed (opened : cut? opening chars = some (before, inside))
    (unclosed : cut? [closing] inside = none) :
    scan opening closing chars = ⟨[], before, some inside⟩ := by
  unfold scan
  split
  · next none => cases none.symm.trans opened
  · next found =>
    cases opened.symm.trans found
    split
    · rfl
    · next closed => cases unclosed.symm.trans closed

theorem scan_of_closed (opened : cut? opening chars = some (before, inside))
    (closed : cut? [closing] inside = some (key, behind)) :
    scan opening closing chars = (scan opening closing behind).cons before key := by
  rw [scan]
  split
  · next none => cases none.symm.trans opened
  · next found =>
    cases opened.symm.trans found
    split
    · next none => cases none.symm.trans closed
    · next again =>
      cases closed.symm.trans again
      rfl

/-- What a scan finds splits the text. -/
theorem splits_scan {c d : Char} (differ : c ≠ d) (closing : Char) (chars : List Char) :
    (scan [c, d] closing chars).Splits [c, d] closing chars := by
  have whole := render_scan [c, d] closing chars
  fun_induction scan [c, d] closing chars with
  | case1 chars none =>
    exact ⟨whole, List.forall_mem_nil _, List.forall_mem_nil _, cut?_eq_none_iff.mp none,
      by simp⟩
  | case2 chars before inside opened unclosed =>
    have first := (firstAt_pair_iff differ).mp (cut?_eq_some_iff.mp opened)
    refine ⟨whole, List.forall_mem_nil _, List.forall_mem_nil _, first.2, ?_⟩
    rintro _ ⟨⟩
    exact cut?_singleton_eq_none_iff.mp unclosed
  | case3 chars before inside opened key behind closed ih =>
    have first := (firstAt_pair_iff differ).mp (cut?_eq_some_iff.mp opened)
    have closes := cut?_singleton_iff.mp closed
    obtain ⟨-, between, keys, tail, unclosed⟩ := ih (render_scan _ _ _)
    exact ⟨whole, List.forall_mem_cons.mpr ⟨first.2, between⟩,
      List.forall_mem_cons.mpr ⟨closes.2, keys⟩, tail, unclosed⟩

/-- A text splits in one way only: the one that a scan from the left finds. -/
theorem Splits.eq_scan {c d : Char} (differ : c ≠ d) {references : References}
    (splits : references.Splits [c, d] closing chars) :
    scan [c, d] closing chars = references := by
  obtain ⟨found, tail, unclosed⟩ := references
  obtain ⟨rfl, between, keys, last, open_⟩ := splits
  induction found with
  | nil =>
    cases unclosed with
    | none =>
      have none : cut? [c, d] tail = none := cut?_eq_none_iff.mpr last
      simp [render, scan_of_none none]
    | some inside =>
      have opened : cut? [c, d] (tail ++ [c, d] ++ inside) = some (tail, inside) :=
        cut?_eq_some_iff.mpr ((firstAt_pair_iff differ).mpr ⟨rfl, last⟩)
      have stays : cut? [closing] inside = none := cut?_singleton_eq_none_iff.mpr (open_ inside rfl)
      have scanned := scan_of_unclosed opened stays
      simpa [render] using scanned
  | cons part others ih =>
    obtain ⟨before, key⟩ := part
    obtain ⟨here, between⟩ := List.forall_mem_cons.mp between
    obtain ⟨closes, keys⟩ := List.forall_mem_cons.mp keys
    let behind := (References.mk others tail unclosed).render [c, d] closing
    have written : (References.mk ((before, key) :: others) tail unclosed).render [c, d] closing =
        before ++ [c, d] ++ (key ++ closing :: behind) := by
      simp [render, behind]
    have opened := cut?_eq_some_iff.mpr ((firstAt_pair_iff differ).mpr ⟨written, here⟩)
    have closed : cut? [closing] (key ++ closing :: behind) = some (key, behind) :=
      cut?_singleton_iff.mpr ⟨rfl, closes⟩
    rw [scan_of_closed opened closed, ih between keys last open_]
    rfl

end Text.References

/-! ## Putting images in the place of references -/

/-- What the references in a text stand for. -/
structure Substitution where
  opening : List Char
  closing : Char
  /-- What stands for a key, or why nothing does. -/
  image : List Char → Except Failure (List Char)
  /-- What stands for an opening mark that is never closed and all that follows it. -/
  unclosed : List Char → Except Failure (List Char)

namespace Substitution

open Text (cut? References)

/-- The images of some references behind the texts before them, up to the first that has none. -/
def fill (substitution : Substitution) :
    List (List Char × List Char) → Except Failure (List Char)
  | [] => .ok []
  | (before, key) :: others =>
    match substitution.image key with
    | .error failure => .error failure
    | .ok value => (fill substitution others).map (before ++ value ++ ·)

/-- What stands for the references of a text that has been split. -/
def fillAll (substitution : Substitution) (references : References) :
    Except Failure (List Char) :=
  match substitution.fill references.found, references.unclosed with
  | .error failure, _ => .error failure
  | .ok filled, none => .ok (filled ++ references.tail)
  | .ok filled, some inside =>
    (substitution.unclosed inside).map (filled ++ references.tail ++ ·)

/-- The text with the images in the place of its references. -/
def apply (substitution : Substitution) (chars : List Char) : Except Failure (List Char) :=
  substitution.fillAll (References.scan substitution.opening substitution.closing chars)

variable {substitution : Substitution} {chars before inside key behind value written : List Char}

theorem apply_of_none (none : cut? substitution.opening chars = none) :
    substitution.apply chars = .ok chars := by
  simp [apply, References.scan_of_none none, fillAll, fill]

theorem apply_of_unclosed (opened : cut? substitution.opening chars = some (before, inside))
    (unclosed : cut? [substitution.closing] inside = none) :
    substitution.apply chars = (substitution.unclosed inside).map (before ++ ·) := by
  simp [apply, References.scan_of_unclosed opened unclosed, fillAll, fill]

theorem apply_of_fault {failure : Failure}
    (opened : cut? substitution.opening chars = some (before, inside))
    (closed : cut? [substitution.closing] inside = some (key, behind))
    (fault : substitution.image key = .error failure) :
    substitution.apply chars = .error failure := by
  simp [apply, References.scan_of_closed opened closed, References.cons, fillAll, fill, fault]

theorem apply_of_closed (opened : cut? substitution.opening chars = some (before, inside))
    (closed : cut? [substitution.closing] inside = some (key, behind))
    (image : substitution.image key = .ok value) :
    substitution.apply chars = (substitution.apply behind).map (before ++ value ++ ·) := by
  simp only [apply, References.scan_of_closed opened closed, References.cons, fillAll, fill, image]
  cases substitution.fill (References.scan _ _ behind).found with
  | error failure => rfl
  | ok filled =>
    cases (References.scan substitution.opening substitution.closing behind).unclosed with
    | none => simp [Except.map]
    | some inside =>
      cases unclosed : substitution.unclosed inside <;> simp [Except.map, unclosed]

/-- The loop of a substitution: what has been written, what is left of the text, and what comes of
it after so many turns. -/
inductive Loop (substitution : Substitution) :
    Nat → List Char → List Char → Except Failure (List Char) → Prop
  /-- Without an opening mark the rest of the text is written as it is. -/
  | rest {written chars : List Char} (none : cut? substitution.opening chars = none) :
      Loop substitution 0 written chars (.ok (written ++ chars))
  | unclosed {written chars before inside : List Char}
      (opened : cut? substitution.opening chars = some (before, inside))
      (unclosed : cut? [substitution.closing] inside = none) :
      Loop substitution 0 written chars
        ((substitution.unclosed inside).map (written ++ before ++ ·))
  | fault {written chars before inside key behind : List Char} {failure : Failure}
      (opened : cut? substitution.opening chars = some (before, inside))
      (closed : cut? [substitution.closing] inside = some (key, behind))
      (fault : substitution.image key = .error failure) :
      Loop substitution 0 written chars (.error failure)
  /-- A turn writes the image of one reference, and goes on behind it. -/
  | turn {turns : Nat} {written chars before inside key behind value : List Char}
      {result : Except Failure (List Char)}
      (opened : cut? substitution.opening chars = some (before, inside))
      (closed : cut? [substitution.closing] inside = some (key, behind))
      (image : substitution.image key = .ok value)
      (next : Loop substitution turns (written ++ before ++ value) behind result) :
      Loop substitution (turns + 1) written chars result

/-- Whatever the loop comes to, it is the text with its images behind what was written. -/
theorem Loop.result {turns : Nat} {result : Except Failure (List Char)}
    (loop : substitution.Loop turns written chars result) :
    result = (substitution.apply chars).map (written ++ ·) := by
  induction loop with
  | rest none => rw [apply_of_none none]; rfl
  | unclosed opened unclosed =>
    rw [apply_of_unclosed opened unclosed]
    cases substitution.unclosed _ <;> simp [Except.map]
  | fault opened closed fault => rw [apply_of_fault opened closed fault]; rfl
  | turn opened closed image _ ih =>
    rw [ih, apply_of_closed opened closed image]
    cases substitution.apply _ <;> simp [Except.map]

/-- The loop comes to an end on every text. -/
theorem exists_loop (substitution : Substitution) (written chars : List Char) :
    ∃ turns ≤ chars.length,
      substitution.Loop turns written chars ((substitution.apply chars).map (written ++ ·)) := by
  suffices ∃ turns ≤ chars.length, ∃ result, substitution.Loop turns written chars result by
    obtain ⟨turns, few, result, loop⟩ := this
    exact ⟨turns, few, loop.result ▸ loop⟩
  fun_induction References.scan substitution.opening substitution.closing chars
    generalizing written with
  | case1 chars none => exact ⟨0, Nat.zero_le _, _, .rest none⟩
  | case2 chars before inside opened unclosed =>
    exact ⟨0, Nat.zero_le _, _, .unclosed opened unclosed⟩
  | case3 chars before inside opened key behind closed ih =>
    cases image : substitution.image key with
    | error failure => exact ⟨0, Nat.zero_le _, _, .fault opened closed image⟩
    | ok value =>
      obtain ⟨turns, few, result, loop⟩ := ih (written ++ before ++ value)
      refine ⟨turns + 1, ?_, result, .turn opened closed image loop⟩
      have outer := Text.length_of_cut? opened
      have inner := Text.length_of_cut? closed
      simp only [List.length_cons, List.length_nil] at inner
      omega

/-- The loop comes to an end on the text, with this result and no other. -/
structure Ends (substitution : Substitution) (chars : List Char)
    (result : Except Failure (List Char)) : Prop where
  some : ∃ turns ≤ chars.length, substitution.Loop turns [] chars result
  only : ∀ turns other, substitution.Loop turns [] chars other → other = result

theorem ends_apply (substitution : Substitution) (chars : List Char) :
    substitution.Ends chars (substitution.apply chars) := by
  have same : (substitution.apply chars).map ([] ++ ·) = substitution.apply chars := by
    cases substitution.apply chars <;> rfl
  refine ⟨?_, fun turns other loop => loop.result.trans same⟩
  obtain ⟨turns, few, loop⟩ := substitution.exists_loop [] chars
  exact ⟨turns, few, same ▸ loop⟩

end Substitution

open Text (References)

/-! ## Options -/

namespace Options

/-- What references to options stand for. -/
def substitution (options : Options) (line : Nat) : Substitution where
  opening := opening
  closing := '\x7d'
  image key :=
    match options.get? (String.ofList key) with
    | some value => .ok value.toList
    | none => .error (undefinedFailure line key)
  unclosed _ := .error (unclosedFailure line)

theorem fill_substitution (options : Options) (line : Nat)
    (found : List (List Char × List Char)) :
    (options.substitution line).fill found = options.fill line found := by
  induction found with
  | nil => rfl
  | cons part others ih =>
    obtain ⟨before, key⟩ := part
    rw [Substitution.fill, fill, ih]
    simp only [substitution]
    cases options.get? (String.ofList key) with
    | none => rfl
    | some value =>
      cases options.fill line others <;> rfl

theorem replace_eq_apply (options : Options) (line : Nat) (text : String) :
    options.replace line text =
      ((options.substitution line).apply text.toList).map String.ofList := by
  unfold replace Substitution.apply Substitution.fillAll
  rw [fill_substitution]
  simp only [substitution]
  cases options.fill line (References.scan opening '\x7d' text.toList).found with
  | error failure => rfl
  | ok filled =>
    cases (References.scan opening '\x7d' text.toList).unclosed <;> rfl

/-- The option that a key stands for is there. -/
def Defines (options : Options) (key : List Char) : Prop :=
  (options.get? (String.ofList key)).isSome

/-- The value of the option that a key stands for. -/
def valueOf (options : Options) (key : List Char) : List Char :=
  ((options.get? (String.ofList key)).getD "").toList

/-- The failure that a text is rejected with: its first reference that is not defined or never
closed. -/
inductive FirstFault (options : Options) (line : Nat) (references : References) : Failure → Prop
  | undefined {earlier later : List (List Char × List Char)} {before key : List Char}
      (split : references.found = earlier ++ (before, key) :: later)
      (defined : ∀ part ∈ earlier, options.Defines part.2) (missing : ¬ options.Defines key) :
      FirstFault options line references (undefinedFailure line key)
  | unclosed {inside : List Char} (defined : ∀ part ∈ references.found, options.Defines part.2)
      (opens : references.unclosed = some inside) :
      FirstFault options line references (unclosedFailure line)

theorem fill_eq_ok_iff (options : Options) (line : Nat) (found : List (List Char × List Char))
    (filled : List Char) : options.fill line found = .ok filled ↔
      (∀ part ∈ found, options.Defines part.2) ∧
        filled = found.flatMap fun part => part.1 ++ options.valueOf part.2 := by
  induction found generalizing filled with
  | nil => simp [fill, eq_comm]
  | cons part others ih =>
    obtain ⟨before, key⟩ := part
    rw [fill, List.forall_mem_cons, List.flatMap_cons]
    cases value : options.get? (String.ofList key) with
    | none => simp [Defines, value]
    | some text =>
      have here : options.valueOf key = text.toList := by
        rw [valueOf, value, Option.getD_some]
      simp only [Defines, value, Option.isSome_some, true_and, here]
      cases rest : options.fill line others with
      | error failure =>
        refine ⟨nofun, fun ⟨defined, _⟩ => ?_⟩
        rw [(ih _).mpr ⟨defined, rfl⟩] at rest
        cases rest
      | ok images =>
        obtain ⟨defined, rfl⟩ := (ih images).mp rest
        simp only [Except.ok.injEq]
        exact ⟨fun same => ⟨defined, same.symm⟩, fun given => given.2.symm⟩

/-- The first reference that is not defined decides how the references are rejected. -/
theorem fill_of_first {options : Options} {earlier later : List (List Char × List Char)}
    {before key : List Char} (defined : ∀ part ∈ earlier, options.Defines part.2)
    (missing : ¬ options.Defines key) (line : Nat) :
    options.fill line (earlier ++ (before, key) :: later) =
      .error (undefinedFailure line key) := by
  induction earlier with
  | nil =>
    have none : options.get? (String.ofList key) = none := by simpa [Defines] using missing
    simp [fill, none]
  | cons part others ih =>
    obtain ⟨here, rest⟩ := List.forall_mem_cons.mp defined
    obtain ⟨value, isValue⟩ := Option.isSome_iff_exists.mp here
    simp [fill, isValue, ih rest]

instance (options : Options) (key : List Char) : Decidable (options.Defines key) :=
  inferInstanceAs (Decidable ((options.get? (String.ofList key)).isSome = true))

theorem defined_or_first (options : Options) (found : List (List Char × List Char)) :
    (∀ part ∈ found, options.Defines part.2) ∨
      ∃ earlier before key later, found = earlier ++ (before, key) :: later ∧
        (∀ part ∈ earlier, options.Defines part.2) ∧ ¬ options.Defines key := by
  cases first : found.find? fun part => ¬ options.Defines part.2 with
  | none =>
    refine Or.inl fun part member => ?_
    simpa using List.find?_eq_none.mp first part member
  | some part =>
    obtain ⟨missing, earlier, later, split, defined⟩ := List.find?_eq_some_iff_append.mp first
    refine Or.inr ⟨earlier, part.1, part.2, later, split, fun other member => ?_, ?_⟩
    · simpa using defined other member
    · simpa using missing

/-- If all references are defined, they are replaced unless the last one is never closed. -/
theorem replace_of_defined {options : Options} {text : String} {references : References}
    (scanned : References.scan opening '\x7d' text.toList = references)
    (defined : ∀ part ∈ references.found, options.Defines part.2) (line : Nat) :
    options.replace line text =
      if references.unclosed.isSome then .error (unclosedFailure line)
      else .ok (String.ofList
        (references.found.flatMap (fun part => part.1 ++ options.valueOf part.2) ++
          references.tail)) := by
  have filled := (fill_eq_ok_iff options line references.found _).mpr ⟨defined, rfl⟩
  unfold replace
  simp only [scanned, filled]
  cases references.unclosed <;> rfl

theorem replace_of_first {options : Options} {text : String} {references : References}
    (scanned : References.scan opening '\x7d' text.toList = references)
    {earlier later : List (List Char × List Char)} {before key : List Char}
    (split : references.found = earlier ++ (before, key) :: later)
    (defined : ∀ part ∈ earlier, options.Defines part.2) (missing : ¬ options.Defines key)
    (line : Nat) : options.replace line text = .error (undefinedFailure line key) := by
  unfold replace
  simp only [scanned, split, fill_of_first defined missing]

/-- What replacing the references of a text comes to, if they are these. -/
structure ReplacesAt (options : Options) (line : Nat) (text : String) (references : References) :
    Prop where
  splits : references.Splits opening '\x7d' text.toList
  only : ∀ others : References, others.Splits opening '\x7d' text.toList → others = references
  /-- It succeeds just if every reference is closed and defined: each is replaced by its value. -/
  success : ∀ result, options.replace line text = .ok result ↔
    references.unclosed = none ∧ (∀ part ∈ references.found, options.Defines part.2) ∧
      result.toList = references.found.flatMap (fun part => part.1 ++ options.valueOf part.2) ++
        references.tail
  failure : ∀ failure, options.replace line text = .error failure ↔
    options.FirstFault line references failure
  ends : (options.substitution line).Ends text.toList
    ((options.replace line text).map String.toList)

theorem replaces (options : Options) (line : Nat) (text : String) :
    options.ReplacesAt line text (.scan opening '\x7d' text.toList) := by
  have differ : '\x7b' ≠ '@' := by decide
  generalize scanned : References.scan opening '\x7d' text.toList = references
  refine ⟨scanned ▸ References.splits_scan differ _ _,
    fun others other => (other.eq_scan differ).symm.trans scanned, fun result => ?_,
    fun failure => ?_, ?_⟩
  · rcases options.defined_or_first references.found with
      defined | ⟨earlier, before, key, later, split, defined, missing⟩
    · rw [replace_of_defined scanned defined]
      cases references.unclosed with
      | none =>
        simp only [Option.isSome_none, Bool.false_eq_true, ↓reduceIte, Except.ok.injEq, true_and,
          ← String.toList_inj, String.toList_ofList]
        exact ⟨fun same => ⟨defined, same.symm⟩, fun given => given.2.symm⟩
      | some inside => simp
    · rw [replace_of_first scanned split defined missing]
      refine ⟨nofun, fun ⟨_, all, _⟩ => absurd (all (before, key) ?_) missing⟩
      simp [split]
  · constructor
    · intro fails
      rcases options.defined_or_first references.found with
        defined | ⟨earlier, before, key, later, split, defined, missing⟩
      · rw [replace_of_defined scanned defined] at fails
        cases opens : references.unclosed with
        | none => simp [opens] at fails
        | some inside =>
          simp only [opens, Option.isSome_some, ↓reduceIte, Except.error.injEq] at fails
          exact fails ▸ .unclosed defined opens
      · rw [replace_of_first scanned split defined missing] at fails
        cases fails
        exact .undefined split defined missing
    · rintro (⟨split, defined, missing⟩ | ⟨defined, opens⟩)
      · exact replace_of_first scanned split defined missing line
      · rw [replace_of_defined scanned defined, opens]
        rfl
  · have same : (options.replace line text).map String.toList =
        (options.substitution line).apply text.toList := by
      rw [replace_eq_apply]
      cases (options.substitution line).apply text.toList <;> simp [Except.map]
    exact same ▸ (options.substitution line).ends_apply text.toList

end Options

/-! ## Local values -/

namespace HostEvent

/-- What references to local values stand for; an opening mark that is never closed stays. -/
def substitution (event : HostEvent) : Substitution where
  opening := localOpening
  closing := '\x7d'
  image key := .ok (event.localImage key)
  unclosed inside := .ok (localOpening ++ inside)

theorem fill_substitution (event : HostEvent) (found : List (List Char × List Char)) :
    event.substitution.fill found =
      .ok (found.flatMap fun part => part.1 ++ event.localImage part.2) := by
  induction found with
  | nil => rfl
  | cons part others ih =>
    obtain ⟨before, key⟩ := part
    rw [Substitution.fill, ih, List.flatMap_cons]
    rfl

theorem apply_substitution (event : HostEvent) (text : String) :
    event.substitution.apply text.toList = .ok (event.expand text).toList := by
  unfold Substitution.apply Substitution.fillAll
  rw [fill_substitution, expand, String.toList_ofList]
  simp only [substitution, References.fill]
  cases (References.scan localOpening '\x7d' text.toList).unclosed <;> simp [Except.map]

/-- What putting local values in the place of their references comes to, if these are the references
of the text. -/
structure ExpandsAt (event : HostEvent) (text : String) (references : References) : Prop where
  splits : references.Splits localOpening '\x7d' text.toList
  only : ∀ others : References, others.Splits localOpening '\x7d' text.toList →
    others = references
  /-- References to fields that are there are replaced, and the others are left as they are. -/
  result : (event.expand text).toList =
    references.found.flatMap (fun part => part.1 ++
        match event.field? (String.ofList ('_' :: part.2)) with
        | some value => value.toList
        | none => localOpening ++ part.2 ++ ['\x7d']) ++
      references.tail ++ (references.unclosed.map (localOpening ++ ·)).getD []
  ends : event.substitution.Ends text.toList (.ok (event.expand text).toList)

theorem expands (event : HostEvent) (text : String) :
    event.ExpandsAt text (.scan localOpening '\x7d' text.toList) := by
  have differ : '\x7b' ≠ '_' := by decide
  refine ⟨References.splits_scan differ _ _, fun others other => (other.eq_scan differ).symm,
    ?_, ?_⟩
  · rw [expand, String.toList_ofList]
    rfl
  · exact event.apply_substitution text ▸ event.substitution.ends_apply text.toList

end HostEvent

/-- **Substitutions are a single pass from left to right.** A text splits in one way only into
closed references and the texts between them, up to an opening mark that is never closed. Replacing
options succeeds just if there is no such mark and every reference is defined: then the values stand
in the place of the references and nothing else has changed. Otherwise it fails for the first
reference that is not. Local values stand in the place of those references whose fields are there,
and all else is left as it is. Both loops come to an end on every text. -/
theorem Substitution.single_pass :
    (∀ (options : Options) (line : Nat) (text : String),
      ∃ references, options.ReplacesAt line text references) ∧
    ∀ (event : HostEvent) (text : String), ∃ references, event.ExpandsAt text references :=
  ⟨fun options line text => ⟨_, options.replaces line text⟩,
    fun event text => ⟨_, event.expands text⟩⟩

end ScriptBinding

import Mathlib.Data.List.Induction
import Mathlib.Data.List.Nodup
import ScriptBinding.Proofs.FunctionOwnership

/-! # Names of functions

Functions are declared, given their bodies and taken back, in any order and by any scripts. A name
belongs to the script whose declaration found it free, until that script takes it back, and a body
stands only beside the declaration it was made for.
-/

namespace ScriptBinding

/-! ## Equal scripts -/

theorem Script.same_iff {a b : Script} : a.same b = true ↔
    a.path.components = b.path.components ∧ a.name = b.name ∧ a.generation = b.generation := by
  simp only [Script.same, Path.same, Bool.and_eq_true, beq_iff_eq, and_assoc]

/-- Equal scripts are equal to the same scripts. -/
theorem Script.same_congr {a b : Script} (same : a.same b = true) (other : Script) :
    a.same other = b.same other := by
  obtain ⟨components, name, generation⟩ := Script.same_iff.mp same
  simp only [Script.same, Path.same, components, name, generation]

/-- Equal signatures are of one name and of one script. -/
theorem Signature.of_same {a b : Signature} (same : a.same b = true) :
    a.script.same b.script = true ∧ a.name = b.name := by
  simp only [Signature.same, Bool.and_eq_true, beq_iff_eq] at same
  exact ⟨same.1.1.1.1, same.1.1.1.2⟩

/-! ## Sizes of tables -/

namespace Table

variable {α : Type} (table : Table α)

theorem keys_nodup : table.keys.Nodup := by
  refine List.pairwise_map.mpr (table.sorted.imp ?_)
  intro a b before same
  exact String.lt_irrefl _ (same ▸ before : b.1 < b.1)

theorem keys_erase (key : String) : (table.erase key).keys = table.keys.filter (· ≠ key) := by
  rw [keys, keys, List.filter_map]
  rfl

theorem keys_eraseAll (names : List String) :
    (table.eraseAll names).keys = table.keys.filter (· ∉ names) := by
  unfold eraseAll
  induction names generalizing table with
  | nil => simp only [List.foldl_nil, List.not_mem_nil, not_false_eq_true, decide_true,
      List.filter_true]
  | cons name others ih =>
    rw [List.foldl_cons, ih, keys_erase, List.filter_filter]
    refine List.filter_congr fun key _ => ?_
    simp [Bool.and_comm]

/-- Erasing some keys makes the table smaller by their number. -/
theorem size_eraseAll {names : List String} (distinct : names.Nodup)
    (there : ∀ name ∈ names, name ∈ table.keys) :
    names.length + (table.eraseAll names).size = table.size := by
  have erased : names.Perm (table.keys.filter (· ∈ names)) := by
    refine (List.perm_ext_iff_of_nodup distinct (table.keys_nodup.filter _)).mpr fun name => ?_
    rw [List.mem_filter, decide_eq_true_eq]
    exact ⟨fun member => ⟨there name member, member⟩, And.right⟩
  have left : (table.eraseAll names).size = (table.keys.filter (· ∉ names)).length := by
    rw [← keys_eraseAll, keys, List.length_map]
    rfl
  have whole : table.size = table.keys.length := (List.length_map _).symm
  have parts := List.length_eq_length_filter_add (l := table.keys) (· ∈ names)
  rw [erased.length_eq, left, whole, parts]
  simp only [decide_not]

end Table

/-! ## Changes -/

/-- A change of the functions that are declared. -/
inductive FunctionEdit where
  | declare (signature : Signature)
  | attach (function : Function)
  | withdraw (signature : Signature)
  | withdrawScript (script : Script)

/-- The change takes back the function with this name if it belongs to the script. -/
def FunctionEdit.Frees (script : Script) (name : String) : FunctionEdit → Prop
  | .declare _ | .attach _ => False
  | .withdraw signature => signature.name = name ∧ script.same signature.script = true
  | .withdrawScript other => script.same other = true

namespace FunctionTable

/-- Make a change. What is refused is left out. -/
def edit (functions : FunctionTable) : FunctionEdit → FunctionTable
  | .declare signature => (functions.declare signature).toOption.getD functions
  | .attach function => (functions.attach function).toOption.getD functions
  | .withdraw signature => (functions.withdraw signature).2
  | .withdrawScript script => (functions.withdrawScript script).2

/-- Make changes one after the other. -/
def editAll (edits : List FunctionEdit) (functions : FunctionTable) : FunctionTable :=
  edits.foldl edit functions

/-- Signatures stand under their names, and bodies under the names of declared signatures that
equal their own. -/
structure Coherent (functions : FunctionTable) : Prop where
  named : ∀ name signature, functions.signature? name = some signature → signature.name = name
  declared : ∀ name function, functions.bodies.get? name = some function →
    ∃ signature, functions.signature? name = some signature ∧
      signature.same function.signature = true

/-- Of the functions with certain names exactly those of a script are taken back, signature and
body together; their number is given. -/
structure TakesBack (script : Script) (among : String → Prop) (count : Nat)
    (before after : FunctionTable) : Prop where
  signature_iff : ∀ name signature, after.signature? name = some signature ↔
    before.signature? name = some signature ∧
      ¬ (among name ∧ signature.script.same script = true)
  body_iff : ∀ name function, after.bodies.get? name = some function ↔
    before.bodies.get? name = some function ∧
      ¬ (among name ∧ function.signature.script.same script = true)
  count : count + after.signatures.size = before.signatures.size

/-- What holds of functions after some changes, and what further ones do to them. -/
structure KeepsOwners (edits : List FunctionEdit) (functions : FunctionTable) : Prop
    extends functions.Coherent where
  /-- A name belongs to the script whose declaration found it free, until that script takes it
  back. -/
  owner_iff : ∀ name signature, functions.signature? name = some signature ↔
    ∃ before later, edits = before ++ .declare signature :: later ∧ signature.name = name ∧
      (editAll before {}).signature? name = none ∧
      ∀ edit ∈ later, ¬ edit.Frees signature.script name
  /-- A declaration whose name is free is taken. -/
  declares : ∀ signature, functions.signature? signature.name = none →
    functions.declare signature =
      .ok { functions with signatures := functions.signatures.insert signature.name signature }
  /-- A declaration whose name belongs to a script, whichever it is, changes nothing. -/
  refuses : ∀ signature owner, functions.signature? signature.name = some owner →
    (∃ failure, functions.declare signature = .error failure) ∧
      functions.edit (.declare signature) = functions
  /-- A body is taken beside a declaration that equals its own. -/
  attaches : ∀ function signature,
    functions.signature? function.signature.name = some signature →
      signature.same function.signature = true →
        functions.attach function = .ok { functions with
          bodies := functions.bodies.insert function.signature.name function }
  /-- Any other body changes nothing. -/
  refusesBody : ∀ function,
    (∀ signature, functions.signature? function.signature.name = some signature →
      signature.same function.signature = false) →
    (∃ failure, functions.attach function = .error failure) ∧
      functions.edit (.attach function) = functions
  /-- One name is taken back from its script. -/
  withdraws : ∀ signature,
    TakesBack signature.script (· = signature.name) (functions.withdraw signature).1.toNat
      functions (functions.withdraw signature).2
  /-- Every name is taken back from a script. -/
  withdrawsScript : ∀ script,
    TakesBack script (fun _ => True) (functions.withdrawScript script).1 functions
      (functions.withdrawScript script).2

variable {functions : FunctionTable}

/-! ### Single changes -/

theorem declare_of_free {signature : Signature}
    (free : functions.signature? signature.name = none) :
    functions.declare signature =
      .ok { functions with
        signatures := functions.signatures.insert signature.name signature } := by
  rw [declare, free]

theorem declare_of_taken {signature owner : Signature}
    (taken : functions.signature? signature.name = some owner) :
    ∃ failure, functions.declare signature = .error failure := by
  rw [declare, taken]
  exact ⟨_, rfl⟩

theorem declares_iff {signature : Signature} : functions.declares signature = true ↔
    ∃ declared, functions.signature? signature.name = some declared ∧
      declared.same signature = true := by
  rw [declares, Option.any_eq_true]

theorem attach_of_declared {function : Function}
    (declared : functions.declares function.signature = true) :
    functions.attach function =
      .ok { functions with
        bodies := functions.bodies.insert function.signature.name function } := by
  simp only [attach, declared, ↓reduceIte]

theorem attach_of_not_declared {function : Function}
    (other : functions.declares function.signature = false) :
    ∃ failure, functions.attach function = .error failure := by
  simp only [attach, other, Bool.false_eq_true, ↓reduceIte, Except.error.injEq, exists_eq']

/-- Removing the functions that a script has under certain names takes exactly these back. -/
theorem Coherent.removeAll (coherent : functions.Coherent) {script : Script}
    {among : String → Prop} {names : List String} (distinct : names.Nodup)
    (own : ∀ name, name ∈ names ↔ among name ∧ functions.ownedBy script name = true) :
    TakesBack script among names.length functions (functions.removeAll names) where
  signature_iff := by
    intro name signature
    rw [removeAll_signature?]
    by_cases member : name ∈ names
    · obtain ⟨picked, owned⟩ := (own name).mp member
      obtain ⟨owner, found, same⟩ := ownedBy_iff.mp owned
      rw [if_pos member, found]
      refine ⟨nofun, fun ⟨isOwner, spared⟩ => (spared ⟨picked, ?_⟩).elim⟩
      exact Option.some.inj isOwner ▸ same
    · rw [if_neg member]
      refine ⟨fun found => ⟨found, fun ⟨picked, same⟩ => member ?_⟩, And.left⟩
      exact (own name).mpr ⟨picked, ownedBy_iff.mpr ⟨signature, found, same⟩⟩
  body_iff := by
    intro name function
    rw [removeAll_body?]
    by_cases member : name ∈ names
    · obtain ⟨picked, owned⟩ := (own name).mp member
      obtain ⟨owner, found, same⟩ := ownedBy_iff.mp owned
      rw [if_pos member]
      refine ⟨nofun, fun ⟨body, spared⟩ => (spared ⟨picked, ?_⟩).elim⟩
      obtain ⟨declared, isDeclared, equal⟩ := coherent.declared name function body
      cases Option.some.inj (found.symm.trans isDeclared)
      rw [← Script.same_congr (Signature.of_same equal).1]
      exact same
    · rw [if_neg member]
      refine ⟨fun body => ⟨body, fun ⟨picked, same⟩ => member ?_⟩, And.left⟩
      obtain ⟨declared, isDeclared, equal⟩ := coherent.declared name function body
      refine (own name).mpr ⟨picked, ownedBy_iff.mpr ⟨declared, isDeclared, ?_⟩⟩
      rw [Script.same_congr (Signature.of_same equal).1]
      exact same
  count := by
    refine Table.size_eraseAll _ distinct fun name member => ?_
    obtain ⟨signature, found, _⟩ := ownedBy_iff.mp ((own name).mp member).2
    exact Table.mem_keys_of_get? found

theorem Coherent.withdraw (coherent : functions.Coherent) (signature : Signature) :
    TakesBack signature.script (· = signature.name) (functions.withdraw signature).1.toNat
      functions (functions.withdraw signature).2 := by
  unfold FunctionTable.withdraw
  split
  · next owned =>
    refine coherent.removeAll (List.nodup_singleton signature.name) fun name => ?_
    rw [List.mem_singleton]
    exact ⟨fun here => ⟨here, here ▸ owned⟩, And.left⟩
  · next other =>
    refine coherent.removeAll List.nodup_nil fun name => ?_
    refine ⟨nofun, fun ⟨here, owned⟩ => ?_⟩
    exact absurd (here ▸ owned) other

theorem Coherent.withdrawScript (coherent : functions.Coherent) (script : Script) :
    TakesBack script (fun _ => True) (functions.withdrawScript script).1 functions
      (functions.withdrawScript script).2 :=
  coherent.removeAll (functions.signatures.keys_nodup.filter _) fun name => by
    rw [true_and]
    exact mem_namesOf

/-! ### What changes keep -/

theorem Coherent.empty : Coherent {} where
  named := by
    intro name signature found
    cases found
  declared := by
    intro name function found
    cases found

theorem Coherent.declare (coherent : functions.Coherent) {signature : Signature}
    (free : functions.signature? signature.name = none) :
    Coherent { functions with
      signatures := functions.signatures.insert signature.name signature } where
  named := by
    intro name other found
    change (functions.signatures.insert signature.name signature).get? name = some other at found
    rw [Table.get?_insert] at found
    by_cases here : signature.name = name
    · rw [if_pos here, Option.some.injEq] at found
      exact found ▸ here
    · rw [if_neg here] at found
      exact coherent.named name other found
  declared := by
    intro name function body
    obtain ⟨declared, found, equal⟩ := coherent.declared name function body
    have other : signature.name ≠ name := by
      rintro rfl
      cases free.symm.trans found
    exact ⟨declared, (Table.get?_insert ..).trans ((if_neg other).trans found), equal⟩

theorem Coherent.attach (coherent : functions.Coherent) {function : Function}
    (declared : functions.declares function.signature = true) :
    Coherent { functions with
      bodies := functions.bodies.insert function.signature.name function } where
  named := coherent.named
  declared := by
    intro name other body
    rw [Table.get?_insert] at body
    by_cases here : function.signature.name = name
    · rw [if_pos here, Option.some.injEq] at body
      subst here body
      exact declares_iff.mp declared
    · rw [if_neg here] at body
      exact coherent.declared name other body

theorem TakesBack.coherent {script : Script} {among : String → Prop} {count : Nat}
    {after : FunctionTable} (takes : TakesBack script among count functions after)
    (coherent : functions.Coherent) : after.Coherent where
  named := fun name signature found =>
    coherent.named name signature ((takes.signature_iff name signature).mp found).1
  declared := by
    intro name function body
    obtain ⟨there, spared⟩ := (takes.body_iff name function).mp body
    obtain ⟨signature, found, equal⟩ := coherent.declared name function there
    refine ⟨signature, (takes.signature_iff name signature).mpr ⟨found, ?_⟩, equal⟩
    rw [Script.same_congr (Signature.of_same equal).1]
    exact spared

theorem Coherent.edit (coherent : functions.Coherent) (edit : FunctionEdit) :
    (functions.edit edit).Coherent := by
  cases edit with
  | declare signature =>
    rw [FunctionTable.edit]
    cases found : functions.signature? signature.name with
    | none =>
      rw [declare_of_free found]
      exact coherent.declare found
    | some owner =>
      obtain ⟨failure, refused⟩ := declare_of_taken found
      rw [refused]
      exact coherent
  | attach function =>
    rw [FunctionTable.edit]
    cases declared : functions.declares function.signature with
    | true =>
      rw [attach_of_declared declared]
      exact coherent.attach declared
    | false =>
      obtain ⟨failure, refused⟩ := attach_of_not_declared declared
      rw [refused]
      exact coherent
  | withdraw signature => exact (coherent.withdraw signature).coherent coherent
  | withdrawScript script => exact (coherent.withdrawScript script).coherent coherent

theorem Coherent.editAll (coherent : functions.Coherent) (edits : List FunctionEdit) :
    (functions.editAll edits).Coherent := by
  unfold FunctionTable.editAll
  induction edits generalizing functions with
  | nil => exact coherent
  | cons first others ih => exact ih (coherent.edit first)

/-! ### Owners -/

/-- After a change a name has the signature it had, unless its script takes it back, or the one
that is declared when the name is free. -/
theorem Coherent.signature?_edit (coherent : functions.Coherent) (edit : FunctionEdit)
    (name : String) (signature : Signature) :
    (functions.edit edit).signature? name = some signature ↔
      functions.signature? name = some signature ∧ ¬ edit.Frees signature.script name ∨
        functions.signature? name = none ∧ edit = .declare signature ∧ signature.name = name := by
  cases edit with
  | declare other =>
    rw [FunctionTable.edit]
    simp only [FunctionEdit.Frees, not_false_eq_true, and_true, FunctionEdit.declare.injEq]
    cases found : functions.signature? other.name with
    | none =>
      rw [declare_of_free found]
      change (functions.signatures.insert other.name other).get? name = some signature ↔ _
      rw [Table.get?_insert]
      by_cases here : other.name = name
      · subst here
        rw [if_pos rfl, found, Option.some.injEq]
        refine ⟨fun same => Or.inr ⟨rfl, same, congrArg _ same.symm⟩, ?_⟩
        rintro (absent | ⟨-, same, -⟩)
        · cases absent
        · exact same
      · rw [if_neg here]
        refine ⟨Or.inl, ?_⟩
        rintro (kept | ⟨-, rfl, named⟩)
        · exact kept
        · exact absurd named here
    | some owner =>
      obtain ⟨failure, refused⟩ := declare_of_taken found
      rw [refused]
      refine ⟨Or.inl, ?_⟩
      rintro (kept | ⟨free, rfl, rfl⟩)
      · exact kept
      · cases found.symm.trans free
  | attach function =>
    have same : (functions.edit (.attach function)).signature? name =
        functions.signature? name := by
      rw [FunctionTable.edit]
      cases declared : functions.declares function.signature with
      | true =>
        rw [attach_of_declared declared]
        rfl
      | false =>
        obtain ⟨failure, refused⟩ := attach_of_not_declared declared
        rw [refused]
        rfl
    rw [same]
    simp [FunctionEdit.Frees]
  | withdraw other =>
    refine ((coherent.withdraw other).signature_iff name signature).trans ?_
    simp [FunctionEdit.Frees, eq_comm (a := name)]
  | withdrawScript script =>
    refine ((coherent.withdrawScript script).signature_iff name signature).trans ?_
    simp [FunctionEdit.Frees]

/-- The signature of a name is the one that has been declared when the name was free, and that its
script has not taken back since. -/
theorem editAll_owner_iff (edits : List FunctionEdit) (name : String) (signature : Signature) :
    (editAll edits {}).signature? name = some signature ↔
      ∃ before later, edits = before ++ .declare signature :: later ∧ signature.name = name ∧
        (editAll before {}).signature? name = none ∧
        ∀ edit ∈ later, ¬ edit.Frees signature.script name := by
  induction edits using List.reverseRecOn with
  | nil =>
    refine ⟨nofun, ?_⟩
    rintro ⟨before, later, same, -⟩
    exact absurd same.symm (List.append_ne_nil_of_right_ne_nil _ (List.cons_ne_nil _ _))
  | append_singleton edits last ih =>
    have coherent := Coherent.empty.editAll edits
    have step : editAll (edits ++ [last]) {} = (editAll edits {}).edit last :=
      List.foldl_concat ..
    rw [step, coherent.signature?_edit, ih]
    constructor
    · rintro (⟨⟨before, later, rfl, named, free, kept⟩, spares⟩ | ⟨free, rfl, named⟩)
      · refine ⟨before, later ++ [last], by simp, named, free, ?_⟩
        exact List.forall_mem_append.mpr ⟨kept, List.forall_mem_singleton.mpr spares⟩
      · exact ⟨edits, [], rfl, named, free, fun _ absent => absurd absent List.not_mem_nil⟩
    · rintro ⟨before, later, whole, named, free, kept⟩
      rcases List.eq_nil_or_concat later with rfl | ⟨between, final, rfl⟩
      · obtain ⟨rfl, same⟩ := List.append_inj' whole rfl
        exact Or.inr ⟨free, List.head_eq_of_cons_eq same, named⟩
      · rw [List.concat_eq_append] at whole kept
        rw [← List.cons_append, ← List.append_assoc] at whole
        obtain ⟨rfl, same⟩ := List.append_inj' whole rfl
        cases List.head_eq_of_cons_eq same
        obtain ⟨early, late⟩ := List.forall_mem_append.mp kept
        exact Or.inl ⟨⟨before, between, rfl, named, free, early⟩,
          late last List.mem_cons_self⟩

/-- **Names of functions have owners.** Whatever declarations, bodies and withdrawals come one after
the other, every body stands beside the declaration it was made for, a name belongs to the script
that was the first to declare it until that script takes it back, what is refused changes nothing,
and a withdrawal takes back the functions of its script, counts them and touches no other. -/
theorem editAll_keepsOwners (edits : List FunctionEdit) :
    KeepsOwners edits (editAll edits {}) := by
  have coherent := Coherent.empty.editAll edits
  refine
    { coherent with
      owner_iff := editAll_owner_iff edits
      declares := fun _ => declare_of_free
      refuses := fun signature owner taken => ?_
      attaches := fun function signature found equal =>
        attach_of_declared (declares_iff.mpr ⟨signature, found, equal⟩)
      refusesBody := fun function differs => ?_
      withdraws := coherent.withdraw
      withdrawsScript := coherent.withdrawScript }
  · obtain ⟨failure, refused⟩ := declare_of_taken taken
    refine ⟨⟨failure, refused⟩, ?_⟩
    rw [edit, refused]
    rfl
  · have undeclared : (editAll edits {}).declares function.signature = false := by
      refine Bool.eq_false_iff.mpr fun declared => ?_
      obtain ⟨signature, found, equal⟩ := declares_iff.mp declared
      rw [differs signature found] at equal
      cases equal
    obtain ⟨failure, refused⟩ := attach_of_not_declared undeclared
    refine ⟨⟨failure, refused⟩, ?_⟩
    rw [edit, refused]
    rfl

end FunctionTable

end ScriptBinding

import ScriptBinding.Function.Table
import ScriptBinding.Proofs.CommandTable

/-! # Who owns a function

A script that is loaded only adds functions to the table, under names that were free, and unloading
it takes away exactly the functions whose signatures it owns.
-/

namespace ScriptBinding

theorem Script.same_refl (script : Script) : script.same script = true := by
  simp [Script.same, Path.same]

theorem Script.generation_eq_of_same {a b : Script} (same : a.same b = true) :
    a.generation = b.generation := by
  simp only [Script.same, Bool.and_eq_true, beq_iff_eq] at same
  exact same.2

/-- A script of the next generation is not the current one. -/
theorem Script.sameCurrent_of_newer {current : Option Script} {path : Path} {next : Nat}
    (older : ∀ script, current = some script → script.generation < next) :
    Script.sameCurrent current (some ⟨path, next⟩) = false := by
  cases current with
  | none => rfl
  | some script =>
    refine Bool.eq_false_iff.mpr fun same => ?_
    have generations := Script.generation_eq_of_same same
    exact absurd (older script rfl) (generations ▸ Nat.lt_irrefl _)

namespace Table

variable {α : Type}

theorem mem_keys_of_find {key : String} {value : α} {entries : List (String × α)}
    (found : find key entries = some value) : key ∈ entries.map Prod.fst := by
  induction entries with
  | nil => cases found
  | cons entry others ih =>
    unfold find at found
    split at found
    · next here =>
      rw [List.map_cons, here]
      exact List.mem_cons_self
    · exact List.mem_cons_of_mem _ (ih found)

theorem mem_keys_of_get? {table : Table α} {key : String} {value : α}
    (found : table.get? key = some value) : key ∈ table.keys :=
  mem_keys_of_find found

end Table

namespace FunctionTable

variable {script : Script}

theorem ownedBy_iff {functions : FunctionTable} {name : String} :
    functions.ownedBy script name = true ↔
      ∃ signature, functions.signature? name = some signature ∧
        signature.script.same script = true := by
  unfold ownedBy
  cases functions.signature? name <;> simp

/-- Every body belongs to a declared function. -/
def BodiesDeclared (functions : FunctionTable) : Prop :=
  ∀ name function, functions.bodies.get? name = some function →
    ∃ signature, functions.signature? name = some signature

/-- A script has only added functions, under names that were free. -/
structure GrownBy (script : Script) (before after : FunctionTable) : Prop where
  signatures : ∀ name, after.signature? name = before.signature? name ∨
    before.signature? name = none ∧
      ∃ signature, after.signature? name = some signature ∧ signature.script = script
  bodies : ∀ name, after.bodies.get? name = before.bodies.get? name ∨
    ∃ signature, after.signature? name = some signature ∧
      signature.script.same script = true

theorem GrownBy.refl (functions : FunctionTable) : GrownBy script functions functions :=
  ⟨fun _ => Or.inl rfl, fun _ => Or.inl rfl⟩

theorem GrownBy.trans {first second third : FunctionTable} (before : GrownBy script first second)
    (after : GrownBy script second third) : GrownBy script first third := by
  constructor
  · intro name
    rcases after.signatures name with same | ⟨free, owned⟩
    · rw [same]
      exact before.signatures name
    · rcases before.signatures name with same | ⟨_, _, taken, _⟩
      · exact Or.inr ⟨same ▸ free, owned⟩
      · rw [taken] at free
        cases free
  · intro name
    rcases after.bodies name with same | owned
    · rcases before.bodies name with sameBefore | ⟨signature, taken, owned⟩
      · exact Or.inl (same.trans sameBefore)
      · rcases after.signatures name with kept | ⟨free, _⟩
        · exact Or.inr ⟨signature, kept.trans taken, owned⟩
        · rw [taken] at free
          cases free
    · exact Or.inr owned

theorem declare_grown {functions after : FunctionTable} {signature : Signature}
    (owner : signature.script = script) (declared : functions.declare signature = .ok after) :
    GrownBy script functions after := by
  unfold declare at declared
  split at declared
  · cases declared
  · next free =>
    cases Except.ok.inj declared
    constructor
    · intro name
      by_cases here : signature.name = name
      · subst here
        exact Or.inr ⟨free, signature, Table.get?_insert_self .., owner⟩
      · exact Or.inl ((Table.get?_insert ..).trans (if_neg here))
    · exact fun name => Or.inl rfl

theorem attach_grown {functions after : FunctionTable} {function : Function}
    (owner : function.signature.script = script)
    (attached : functions.attach function = .ok after) : GrownBy script functions after := by
  unfold attach at attached
  dsimp only at attached
  split at attached
  · next declared =>
    cases Except.ok.inj attached
    refine ⟨fun name => Or.inl rfl, fun name => ?_⟩
    by_cases here : function.signature.name = name
    · subst here
      obtain ⟨signature, found, same⟩ : ∃ signature,
          functions.signature? function.signature.name = some signature ∧
            signature.same function.signature = true := by
        simpa [declares, Option.any_eq_true] using declared
      refine Or.inr ⟨signature, found, ?_⟩
      simp only [Signature.same, Bool.and_eq_true] at same
      rw [← owner]
      exact same.1.1.1.1
    · exact Or.inl ((Table.get?_insert ..).trans (if_neg here))
  · cases attached

/-- Functions have only been taken away from a script. -/
def ShrunkBy (script : Script) (before after : FunctionTable) : Prop :=
  ∀ name, after.signature? name = before.signature? name ∧
      after.bodies.get? name = before.bodies.get? name ∨
    before.ownedBy script name = true ∧ after.signature? name = none ∧
      after.bodies.get? name = none

theorem ShrunkBy.refl (functions : FunctionTable) : ShrunkBy script functions functions :=
  fun _ => Or.inl ⟨rfl, rfl⟩

theorem ShrunkBy.trans {first second third : FunctionTable}
    (before : ShrunkBy script first second) (after : ShrunkBy script second third) :
    ShrunkBy script first third := by
  intro name
  rcases before name with ⟨sameSignature, sameBody⟩ | ⟨owned, noSignature, noBody⟩
  · rcases after name with ⟨signature, body⟩ | ⟨owned, noSignature, noBody⟩
    · exact Or.inl ⟨signature.trans sameSignature, body.trans sameBody⟩
    · rw [ownedBy, sameSignature] at owned
      exact Or.inr ⟨owned, noSignature, noBody⟩
  · rcases after name with ⟨signature, body⟩ | ⟨_, noSignature, noBody⟩
    · exact Or.inr ⟨owned, signature.trans noSignature, body.trans noBody⟩
    · exact Or.inr ⟨owned, noSignature, noBody⟩

theorem removeAll_signature? (names : List String) (functions : FunctionTable) (name : String) :
    (functions.removeAll names).signature? name =
      if name ∈ names then none else functions.signature? name :=
  Table.get?_eraseAll ..

theorem removeAll_body? (names : List String) (functions : FunctionTable) (name : String) :
    (functions.removeAll names).bodies.get? name =
      if name ∈ names then none else functions.bodies.get? name :=
  Table.get?_eraseAll ..

theorem withdraw_shrunk (signature : Signature) (owner : signature.script = script)
    (functions : FunctionTable) : ShrunkBy script functions (functions.withdraw signature).2 := by
  unfold withdraw
  split
  · next owned =>
    intro name
    by_cases here : name = signature.name
    · subst here
      rw [removeAll_signature?, removeAll_body?, if_pos List.mem_cons_self,
        if_pos List.mem_cons_self]
      exact Or.inr ⟨owner ▸ owned, rfl, rfl⟩
    · have other : name ∉ [signature.name] := fun member => here (List.mem_singleton.mp member)
      rw [removeAll_signature?, removeAll_body?, if_neg other, if_neg other]
      exact Or.inl ⟨rfl, rfl⟩
  · exact .refl functions

theorem mem_namesOf {functions : FunctionTable} {name : String} :
    name ∈ functions.namesOf script ↔ functions.ownedBy script name = true := by
  unfold namesOf
  rw [List.mem_filter]
  refine ⟨And.right, fun owned => ⟨?_, owned⟩⟩
  obtain ⟨signature, found, _⟩ := ownedBy_iff.mp owned
  exact Table.mem_keys_of_get? found

/-- Once every declaration of a script has been taken back, exactly its functions are gone. -/
theorem withdrawScript_get? {before after : FunctionTable} (shrunk : ShrunkBy script before after)
    (name : String) :
    (after.withdrawScript script).2.signature? name =
        (if before.ownedBy script name then none else before.signature? name) ∧
      (after.withdrawScript script).2.bodies.get? name =
        if before.ownedBy script name then none else before.bodies.get? name := by
  unfold withdrawScript
  dsimp only
  rw [removeAll_signature?, removeAll_body?]
  simp only [mem_namesOf]
  rcases shrunk name with ⟨signature, body⟩ | ⟨owned, noSignature, noBody⟩
  · rw [ownedBy, signature, body]
    exact ⟨rfl, rfl⟩
  · rw [if_pos owned, if_pos owned, noSignature, noBody]
    exact ⟨ite_self _, ite_self _⟩

theorem BodiesDeclared.grown {before after : FunctionTable} (declared : before.BodiesDeclared)
    (grown : GrownBy script before after) : after.BodiesDeclared := by
  intro name function body
  rcases grown.bodies name with same | ⟨signature, taken, _⟩
  · obtain ⟨signature, found⟩ := declared name function (same ▸ body)
    rcases grown.signatures name with kept | ⟨free, _⟩
    · exact ⟨signature, kept.trans found⟩
    · rw [free] at found
      cases found
  · exact ⟨signature, taken⟩

theorem BodiesDeclared.withdrawScript {before after : FunctionTable}
    (declared : before.BodiesDeclared) (shrunk : ShrunkBy script before after) :
    (after.withdrawScript script).2.BodiesDeclared := by
  intro name function body
  obtain ⟨signature, bodyLeft⟩ := withdrawScript_get? shrunk name
  rw [bodyLeft] at body
  rw [signature]
  split at body
  · cases body
  · next kept =>
    rw [if_neg kept]
    exact declared name function body

/-- What a script adds is gone once all of its declarations have been taken back. -/
theorem GrownBy.withdrawScript {before during after : FunctionTable}
    (declared : before.BodiesDeclared)
    (new : ∀ name, before.ownedBy script name = false) (grown : GrownBy script before during)
    (shrunk : ShrunkBy script during after) : (after.withdrawScript script).2 = before := by
  have pointwise (name : String) :
      (if during.ownedBy script name then none else during.signature? name) =
          before.signature? name ∧
        (if during.ownedBy script name then none else during.bodies.get? name) =
          before.bodies.get? name := by
    rcases grown.signatures name with same | ⟨free, signature, taken, owner⟩
    · have notOwned : during.ownedBy script name = false := by
        rw [ownedBy, same]
        exact new name
      rw [notOwned]
      refine ⟨same, ?_⟩
      rcases grown.bodies name with body | ⟨signature, taken, owner⟩
      · exact body
      · rw [ownedBy_iff.mpr ⟨signature, taken, owner⟩] at notOwned
        cases notOwned
    · have owned : during.ownedBy script name = true :=
        ownedBy_iff.mpr ⟨signature, taken, owner ▸ signature.script.same_refl⟩
      rw [owned, free]
      refine ⟨rfl, ?_⟩
      cases body : before.bodies.get? name with
      | none => rfl
      | some function =>
        obtain ⟨signature, found⟩ := declared name function body
        rw [free] at found
        cases found
  have signatures : (after.withdrawScript script).2.signatures = before.signatures :=
    Table.ext_get? fun name => ((withdrawScript_get? shrunk name).1).trans (pointwise name).1
  have bodies : (after.withdrawScript script).2.bodies = before.bodies :=
    Table.ext_get? fun name => ((withdrawScript_get? shrunk name).2).trans (pointwise name).2
  obtain ⟨_, _⟩ := before
  exact FunctionTable.mk.injEq .. |>.mpr ⟨signatures, bodies⟩

end FunctionTable

end ScriptBinding

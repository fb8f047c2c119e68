import Mathlib.Algebra.BigOperators.Ring.List
import Mathlib.Computability.Language
import Mathlib.Order.CompletePartialOrder
import ScriptBinding.Proofs.ExpressionReading
import ScriptBinding.Regex.Reduced

/-! # What is met on the way through an expression

To match a text with an expression is to take its characters one after the other, to pass conditions
on the place, and to open and close groups. These events, in their order, are a trace; the traces of
an expression are a language over events. Reducing an expression changes nothing about its traces,
except for groups inside repeated parts that nobody asks for.
-/

namespace ScriptBinding.Regex

open Computability

/-- What is met on the way through an expression. -/
inductive Event where
  | char (c : Char)
  | at (condition : Edge)
  /-- A named group starts or ends. -/
  | mark (name : String) (opens : Bool)
deriving DecidableEq

/-- An event is no condition, and if it is a mark, its name has a property. -/
def Event.MarksOnly (property : String → Prop) : Event → Prop
  | char _ => True
  | «at» _ => False
  | mark name _ => property name

/-- One character of a set. -/
def oneChar (chars : CharSet) : Language Event :=
  {trace | ∃ c, chars.contains c = true ∧ trace = [.char c]}

/-- So many copies, and then up to so many more as there may be. -/
def copied {symbol : Type} (least : Nat) (most : Option Nat) (body : Language symbol) :
    Language symbol :=
  match most with
  | none => body ^ least * body∗
  | some most => body ^ least * (1 + body) ^ (most - least)

/-- A group, whose start and end are met if its name is asked for. -/
def grouped (kept : String → Bool) (name : Option String) (body : Language Event) :
    Language Event :=
  match name with
  | some name =>
    if kept name then {[.mark name true]} * body * {[.mark name false]} else body
  | none => body

/-- All events of all traces have a property. -/
def Only (property : Event → Prop) (language : Language Event) : Prop :=
  ∀ trace ∈ language, ∀ event ∈ trace, property event

section Only

variable {property : Event → Prop} {L M : Language Event}

theorem only_one : Only property 1 := by
  intro trace member event there
  rw [(Language.mem_one trace).mp member] at there
  exact absurd there List.not_mem_nil

theorem only_singleton {event : Event} (has : property event) : Only property {[event]} := by
  rintro _ rfl other member
  exact List.mem_singleton.mp member ▸ has

theorem Only.mul (first : Only property L) (second : Only property M) : Only property (L * M) := by
  rintro _ ⟨early, one, late, other, rfl⟩ event member
  exact (List.mem_append.mp member).elim (first early one event) (second late other event)

theorem Only.add (first : Only property L) (second : Only property M) : Only property (L + M) :=
  fun trace member => member.elim (first trace) (second trace)

theorem Only.pow (only : Only property L) (count : Nat) : Only property (L ^ count) := by
  induction count with
  | zero => exact only_one
  | succ count ih =>
    rw [pow_succ]
    exact ih.mul only

theorem Only.kstar (only : Only property L) : Only property L∗ := by
  rintro _ ⟨parts, rfl, each⟩ event member
  obtain ⟨part, there, own⟩ := List.mem_flatten.mp member
  exact only part (each part there) event own

theorem Only.copied (only : Only property L) (least : Nat) (most : Option Nat) :
    Only property (copied least most L) := by
  cases most with
  | none => exact (only.pow least).mul only.kstar
  | some most => exact (only.pow least).mul ((only_one.add only).pow _)

theorem Only.grouped {kept : String → Bool} {name : Option String} (only : Only property L)
    (marks : ∀ own, name = some own → kept own = true →
      property (.mark own true) ∧ property (.mark own false)) :
    Only property (grouped kept name L) := by
  unfold Regex.grouped
  split
  · next own =>
    split
    · next asked =>
      obtain ⟨opening, closing⟩ := marks own rfl asked
      exact ((only_singleton opening).mul only).mul (only_singleton closing)
    · exact only
  · exact only

end Only

/-- The traces of an expression, with the groups that are asked for. -/
def traces (kept : String → Bool) : Regex → Language Event
  | empty => 1
  | set chars _ => oneChar chars
  | edge condition => {[.at condition]}
  | cat a b => a.traces kept * b.traces kept
  | alt a b => a.traces kept + b.traces kept
  | repeated least most _ body => copied least most (body.traces kept)
  | group bracket body => grouped kept bracket.name? (body.traces kept)

namespace Reduced

/-- The traces of a reduced expression. -/
def traces (kept : String → Bool) : Reduced → Language Event
  | empty => 1
  | literal chars => {chars.map .char}
  | set chars => oneChar chars
  | edge condition => {[.at condition]}
  | group name body => grouped kept name (body.traces kept)
  | repeated least most _ body => copied least most (body.traces kept)
  | cat a b => a.traces kept * b.traces kept
  | alt a b => a.traces kept + b.traces kept

/-- All sets of an expression are proper. -/
def Proper : Reduced → Prop
  | empty | literal _ | edge _ => True
  | set chars => chars.Proper
  | group _ body | repeated _ _ _ body => body.Proper
  | cat a b | alt a b => a.Proper ∧ b.Proper

/-- An expression has these traces, and its sets are proper. -/
structure Denotes (kept : String → Bool) (expr : Reduced) (language : Language Event) : Prop where
  proper : expr.Proper
  traces : expr.traces kept = language

variable {kept : String → Bool} {a b : Reduced} {L M : Language Event}

/-! ## Sequences -/

theorem singleton_mul (first second : List Event) :
    ({first} : Language Event) * {second} = {first ++ second} := by
  ext trace
  rw [Language.mem_mul]
  constructor
  · rintro ⟨_, rfl, _, rfl, rfl⟩
    rfl
  · rintro rfl
    exact ⟨first, rfl, second, rfl, rfl⟩

theorem traces_literal_append (chars others : List Char) :
    (literal (chars ++ others)).traces kept =
      (literal chars).traces kept * (literal others).traces kept := by
  rw [traces, traces, traces, singleton_mul, List.map_append]

theorem Denotes.prepend (first : a.Denotes kept L) (rest : b.Denotes kept M) :
    (prepend a b).Denotes kept (L * M) := by
  obtain ⟨proper, rfl⟩ := first
  obtain ⟨later, rfl⟩ := rest
  unfold Reduced.prepend
  split
  · exact ⟨later, (one_mul _).symm⟩
  · exact ⟨proper, (mul_one _).symm⟩
  · exact ⟨trivial, traces_literal_append _ _⟩
  · refine ⟨⟨trivial, later.2⟩, ?_⟩
    change (literal _).traces kept * _ = _ * (_ * _)
    rw [traces_literal_append, mul_assoc]
  · exact ⟨⟨proper, later⟩, rfl⟩

/-- Expressions one behind the other have these traces, and their sets are proper. -/
structure Follows (kept : String → Bool) (exprs : List Reduced) (language : Language Event) :
    Prop where
  proper : ∀ expr ∈ exprs, expr.Proper
  traces : (exprs.map (traces kept)).prod = language

theorem follows_factors (kept : String → Bool) (proper : a.Proper) : Follows kept a.factors (a.traces kept) := by
  have one {expr : Reduced} (own : expr.Proper) : Follows kept [expr] (expr.traces kept) :=
    ⟨List.forall_mem_singleton.mpr own, List.prod_singleton⟩
  induction a with
  | empty => exact ⟨fun _ absent => absurd absent List.not_mem_nil, rfl⟩
  | cat a b _ ih =>
    obtain ⟨later, same⟩ := ih proper.2
    refine ⟨List.forall_mem_cons.mpr ⟨proper.1, later⟩, ?_⟩
    rw [factors, List.map_cons, List.prod_cons, same]
    rfl
  | _ => exact one proper

theorem Denotes.concat (first : a.Denotes kept L) (rest : b.Denotes kept M) :
    (concat a b).Denotes kept (L * M) := by
  obtain ⟨proper, rfl⟩ := first
  obtain ⟨each, same⟩ := follows_factors kept proper
  rw [← same]
  unfold Reduced.concat
  generalize a.factors = exprs at each
  clear same
  induction exprs with
  | nil =>
    rw [List.map_nil, List.prod_nil, one_mul]
    exact rest
  | cons expr others ih =>
    obtain ⟨own, later⟩ := List.forall_mem_cons.mp each
    rw [List.map_cons, List.prod_cons, mul_assoc]
    exact Denotes.prepend ⟨own, rfl⟩ (ih later)

theorem Follows.concatAll {exprs : List Reduced} (follows : Follows kept exprs L) :
    (concatAll exprs).Denotes kept L := by
  obtain ⟨proper, rfl⟩ := follows
  induction exprs with
  | nil => exact ⟨trivial, rfl⟩
  | cons expr others ih =>
    obtain ⟨own, later⟩ := List.forall_mem_cons.mp proper
    rw [List.map_cons, List.prod_cons]
    exact Denotes.concat ⟨own, rfl⟩ (ih later)

/-! ## Choices -/

/-- The choice between expressions has these traces, and their sets are proper. -/
structure Offers (kept : String → Bool) (exprs : List Reduced) (language : Language Event) :
    Prop where
  proper : ∀ expr ∈ exprs, expr.Proper
  traces : (exprs.map (traces kept)).sum = language

variable {exprs others : List Reduced}

theorem Offers.append (first : Offers kept exprs L) (rest : Offers kept others M) :
    Offers kept (exprs ++ others) (L + M) where
  proper := fun expr member =>
    (List.mem_append.mp member).elim (first.proper expr) (rest.proper expr)
  traces := by rw [List.map_append, List.sum_append, first.traces, rest.traces]

theorem Denotes.offers (denotes : a.Denotes kept L) : Offers kept [a] L :=
  ⟨List.forall_mem_singleton.mpr denotes.proper,
    List.sum_singleton.trans denotes.traces⟩

theorem offers_branches (proper : a.Proper) : Offers kept a.branches (a.traces kept) := by
  have one {expr : Reduced} (own : expr.Proper) : Offers kept [expr] (expr.traces kept) :=
    Denotes.offers ⟨own, rfl⟩
  induction a with
  | alt a b _ ih => exact (one proper.1).append (ih proper.2)
  | _ => exact one proper

theorem Offers.branches (offers : Offers kept exprs L) :
    Offers kept (exprs.flatMap branches) L := by
  obtain ⟨proper, rfl⟩ := offers
  induction exprs with
  | nil => exact ⟨proper, rfl⟩
  | cons expr others ih =>
    obtain ⟨own, later⟩ := List.forall_mem_cons.mp proper
    exact (offers_branches own).append (ih later)

theorem Offers.ofBranches (offers : Offers kept exprs L) : (ofBranches exprs).Denotes kept L := by
  obtain ⟨proper, rfl⟩ := offers
  induction exprs with
  | nil =>
    refine ⟨CharSet.proper_none, ?_⟩
    ext trace
    exact iff_of_false (fun ⟨_, absent, _⟩ => Bool.false_ne_true absent) id
  | cons expr others ih =>
    obtain ⟨own, later⟩ := List.forall_mem_cons.mp proper
    cases others with
    | nil => exact ⟨own, List.sum_singleton.symm⟩
    | cons second rest =>
      obtain ⟨restProper, same⟩ := ih later
      exact ⟨⟨own, restProper⟩, congrArg (expr.traces kept + ·) same⟩

/-! ### Single characters -/

theorem denotes_oneOf {chars : CharSet} (proper : chars.Proper) :
    (oneOf chars).Denotes kept (oneChar chars) := by
  unfold oneOf
  split
  · next point only =>
    refine ⟨trivial, ?_⟩
    ext trace
    constructor
    · rintro rfl
      exact ⟨_, (proper.contains_of_only only _).mpr rfl, rfl⟩
    · rintro ⟨c, has, rfl⟩
      rw [(proper.contains_of_only only c).mp has]
      rfl
  · exact ⟨proper, rfl⟩

theorem mem_sum {α : Type} {items : List α} {language : α → Language Event} {trace : List Event} :
    trace ∈ (items.map language).sum ↔ ∃ item ∈ items, trace ∈ language item := by
  induction items with
  | nil => simp
  | cons item others ih =>
    rw [List.map_cons, List.sum_cons, Language.mem_add, ih]
    simp only [List.mem_cons, exists_eq_or_imp]

theorem eq_literal_of_onlyChar {c : Char} (only : a.onlyChar? = some c) : a = .literal [c] := by
  unfold onlyChar? at only
  split at only
  · cases only
    rfl
  · cases only

theorem eq_set_of_chars {chars : CharSet} (isSet : a.chars? = some chars) : a = .set chars := by
  unfold chars? at isSet
  split at isSet
  · cases isSet
    rfl
  · cases isSet

/-- Where the members of a list are all read, each is what has been read of it. -/
theorem eq_map_of_mapM {α β : Type} {read : α → Option β} {write : β → α} {items : List α}
    {results : List β} (reads : ∀ item result, read item = some result → item = write result)
    (all : items.mapM read = some results) : items = results.map write := by
  induction items generalizing results with
  | nil =>
    cases all
    rfl
  | cons item others ih =>
    rw [List.mapM_cons] at all
    obtain ⟨first, one, rest⟩ := Option.bind_eq_some_iff.mp all
    obtain ⟨later, more, same⟩ := Option.bind_eq_some_iff.mp rest
    cases same
    rw [List.map_cons, ← reads item first one, ← ih more]

theorem contains_unionAll {sets : List CharSet} {start : CharSet} (proper : start.Proper)
    (each : ∀ chars ∈ sets, chars.Proper) :
    (sets.foldl .union start).Proper ∧ ∀ c, (sets.foldl .union start).contains c = true ↔
      start.contains c = true ∨ ∃ chars ∈ sets, chars.contains c = true := by
  induction sets generalizing start with
  | nil => exact ⟨proper, fun c => by simp⟩
  | cons chars others ih =>
    obtain ⟨own, later⟩ := List.forall_mem_cons.mp each
    obtain ⟨all, contains⟩ := ih (proper.union own) later
    refine ⟨all, fun c => ?_⟩
    rw [List.foldl_cons, contains, proper.contains_union own]
    simp only [List.mem_cons, exists_eq_or_imp, or_assoc]

/-- A choice between single characters is one character of a set. -/
theorem Offers.ofChars {chars : List Char}
    (offers : Offers kept (chars.map fun c => .literal [c]) L) :
    (oneOf (CharSet.none.addPoints (chars.map Char.toNat))).Denotes kept L := by
  have valid : ∀ point ∈ chars.map Char.toNat, point.isValidChar := by
    intro point member
    obtain ⟨c, _, rfl⟩ := List.mem_map.mp member
    exact c.valid
  have contains (c : Char) :
      (CharSet.none.addPoints (chars.map Char.toNat)).contains c = true ↔ c ∈ chars := by
    refine (CharSet.proper_none.hasPoint_addPoints valid c.toNat).trans ?_
    have absent : ¬ CharSet.none.hasPoint c.toNat = true := Bool.false_ne_true
    rw [or_iff_right absent, List.mem_map]
    exact ⟨fun ⟨other, member, same⟩ => CharSet.toNat_injective same ▸ member,
      fun member => ⟨c, member, rfl⟩⟩
  have same : oneChar (CharSet.none.addPoints (chars.map Char.toNat)) = L := by
    rw [← offers.traces, List.map_map]
    ext trace
    rw [mem_sum]
    exact ⟨fun ⟨c, has, one⟩ => ⟨c, (contains c).mp has, one⟩,
      fun ⟨c, member, one⟩ => ⟨c, (contains c).mpr member, one⟩⟩
  exact same ▸ denotes_oneOf (CharSet.proper_none.addPoints valid)

/-- A choice between sets is one character of their union. -/
theorem Offers.ofSets {sets : List CharSet} (offers : Offers kept (sets.map .set) L) :
    (oneOf (sets.foldl .union .none)).Denotes kept L := by
  have proper : ∀ chars ∈ sets, chars.Proper := fun chars member =>
    offers.proper (.set chars) (List.mem_map_of_mem member)
  obtain ⟨all, contains⟩ := contains_unionAll CharSet.proper_none proper
  have same : oneChar (sets.foldl .union .none) = L := by
    rw [← offers.traces, List.map_map]
    ext trace
    rw [mem_sum]
    constructor
    · rintro ⟨c, has, rfl⟩
      obtain absent | ⟨chars, member, own⟩ := (contains c).mp has
      · cases absent
      · exact ⟨chars, member, c, own, rfl⟩
    · rintro ⟨chars, member, c, own, rfl⟩
      exact ⟨c, (contains c).mpr (Or.inr ⟨chars, member, own⟩), rfl⟩
  exact same ▸ denotes_oneOf all

theorem Offers.asOneOf {expr : Reduced} (offers : Offers kept exprs L)
    (found : asOneOf? exprs = some expr) : expr.Denotes kept L := by
  unfold asOneOf? at found
  split at found
  · next chars all =>
    cases found
    exact Offers.ofChars (eq_map_of_mapM (fun _ _ => eq_literal_of_onlyChar) all ▸ offers)
  · obtain ⟨sets, all, same⟩ := Option.map_eq_some_iff.mp found
    cases same
    exact Offers.ofSets (eq_map_of_mapM (fun _ _ => eq_set_of_chars) all ▸ offers)

/-! ### Common beginnings -/

theorem take_eq_of_commonLength {first second : List Reduced} {count : Nat}
    (common : count ≤ commonLength first second) : second.take count = first.take count := by
  induction first generalizing second count with
  | nil =>
    cases second <;> simp [commonLength] at common <;> simp [common]
  | cons a as ih =>
    cases second with
    | nil => simp [commonLength] at common; simp [common]
    | cons b bs =>
      cases count with
      | zero => rfl
      | succ count =>
        rw [commonLength] at common
        split at common
        · next same =>
          have equal := of_decide_eq_true (Bool.and_eq_true_iff.mp same).1
          rw [List.take_succ_cons, List.take_succ_cons, equal,
            ih (Nat.le_of_succ_le_succ common)]
        · exact absurd common (Nat.not_succ_le_zero _)

theorem sharedLength_le (first : List Reduced) (others : List (List Reduced)) (start : Nat) :
    others.foldl (fun count factors => min count (commonLength first factors)) start ≤ start ∧
      ∀ factors ∈ others,
        others.foldl (fun count factors => min count (commonLength first factors)) start ≤
          commonLength first factors := by
  induction others generalizing start with
  | nil => exact ⟨le_rfl, fun _ absent => absurd absent List.not_mem_nil⟩
  | cons factors rest ih =>
    obtain ⟨le, each⟩ := ih (min start (commonLength first factors))
    refine ⟨le.trans (min_le_left _ _), List.forall_mem_cons.mpr ⟨?_, each⟩⟩
    exact le.trans (min_le_right _ _)

/-- All sequences begin alike as far as they share. -/
theorem take_sharedLength {first : List Reduced} {others : List (List Reduced)} :
    ∀ factors ∈ first :: others, factors.take (sharedLength (first :: others)) =
      first.take (sharedLength (first :: others)) := by
  obtain ⟨_, each⟩ := sharedLength_le first others first.length
  exact List.forall_mem_cons.mpr
    ⟨rfl, fun factors member => take_eq_of_commonLength (each factors member)⟩

theorem factors_of_sequence {factors : List Reduced} (found : a.sequence? = some factors) :
    a.factors = factors := by
  unfold sequence? at found
  split at found
  · cases found
    rfl
  · cases found

theorem mapM_factors {sequences : List (List Reduced)}
    (all : exprs.mapM sequence? = some sequences) : sequences = exprs.map factors := by
  induction exprs generalizing sequences with
  | nil =>
    cases all
    rfl
  | cons expr others ih =>
    rw [List.mapM_cons] at all
    obtain ⟨first, one, rest⟩ := Option.bind_eq_some_iff.mp all
    obtain ⟨later, more, same⟩ := Option.bind_eq_some_iff.mp rest
    cases same
    rw [List.map_cons, factors_of_sequence one, ← ih more]

/-- What all alternatives begin with can be taken out of a choice. -/
theorem Offers.endings {count : Nat} {first : List Reduced} (offers : Offers kept exprs L)
    (alike : ∀ expr ∈ exprs, expr.factors.take count = first) :
    Offers kept (exprs.map fun expr => Reduced.concatAll (expr.factors.drop count))
        ((exprs.map fun expr => ((expr.factors.drop count).map (Reduced.traces kept)).prod).sum) ∧
      L = (first.map (Reduced.traces kept)).prod *
        (exprs.map fun expr => ((expr.factors.drop count).map (Reduced.traces kept)).prod).sum := by
  obtain ⟨proper, rfl⟩ := offers
  have parts (expr : Reduced) (member : expr ∈ exprs) :
      Follows kept (expr.factors.drop count)
          ((expr.factors.drop count).map (Reduced.traces kept)).prod ∧
        expr.traces kept = (first.map (Reduced.traces kept)).prod *
          ((expr.factors.drop count).map (Reduced.traces kept)).prod := by
    have whole := follows_factors kept (proper expr member)
    refine ⟨⟨fun factor there => whole.proper factor (List.mem_of_mem_drop there), rfl⟩, ?_⟩
    rw [← whole.traces, ← alike expr member, ← List.prod_append, ← List.map_append,
      List.take_append_drop]
  have ended (expr : Reduced) (member : expr ∈ exprs) := (parts expr member).1.concatAll
  refine ⟨⟨?_, ?_⟩, ?_⟩
  · intro ending there
    obtain ⟨expr, member, rfl⟩ := List.mem_map.mp there
    exact (ended expr member).proper
  · rw [List.map_map]
    exact congrArg List.sum (List.map_congr_left fun expr member => (ended expr member).traces)
  · rw [← List.sum_map_mul_left]
    exact congrArg List.sum (List.map_congr_left fun expr member => (parts expr member).2)

/-- Taking out a common beginning, and making a choice of what is left. -/
theorem Offers.takeOut {count : Nat} {head : Reduced} {rest : List Reduced} {ending : Reduced}
    (offers : Offers kept (head :: rest) L)
    (alike : ∀ expr ∈ head :: rest, expr.factors.take count = head.factors.take count)
    (chosen : ∀ M, Offers kept ((head :: rest).map fun expr =>
      Reduced.concatAll (expr.factors.drop count)) M → ending.Denotes kept M) :
    (Reduced.concatAll (head.factors.take count ++ [ending])).Denotes kept L := by
  obtain ⟨endings, same⟩ := offers.endings alike
  have last := chosen _ endings
  have whole := follows_factors kept (offers.proper head List.mem_cons_self)
  refine Follows.concatAll ⟨fun factor member => ?_, ?_⟩
  · rcases List.mem_append.mp member with early | late
    · exact whole.proper factor (List.mem_of_mem_take early)
    · rw [List.mem_singleton.mp late]
      exact last.proper
  · rw [List.map_append, List.prod_append, List.map_singleton, List.prod_singleton, last.traces,
      same]

theorem Offers.choose (fuel : Nat) (offers : Offers kept exprs L) :
    (choose fuel exprs).Denotes kept L := by
  induction fuel generalizing exprs L with
  | zero => exact offers.ofBranches
  | succ fuel ih =>
    have flat := offers.branches
    unfold Reduced.choose
    dsimp only
    generalize exprs.flatMap Reduced.branches = flatExprs at *
    split
    · exact flat.ofBranches
    · exact flat.ofBranches
    split
    · next found => exact flat.asOneOf found
    split
    · exact flat.ofBranches
    · next sequences all =>
      obtain rfl := mapM_factors all
      split
      · exact flat.ofBranches
      · next count shared =>
        cases flatExprs with
        | nil => contradiction
        | cons head rest =>
          rw [List.map_map]
          refine flat.takeOut (fun expr member => ?_) fun M endings => ih endings
          rw [show count + 1 = _ from shared.symm]
          exact take_sharedLength expr.factors (List.mem_map_of_mem member)

theorem Offers.choice (offers : Offers kept exprs L) : (choice exprs).Denotes kept L := by
  unfold Reduced.choice
  split
  · exact ⟨offers.proper _ List.mem_cons_self, List.sum_singleton.symm.trans offers.traces⟩
  · exact offers.choose _

/-! ## Copies -/

/-- A language of the empty trace alone, or of none. -/
theorem eq_zero_or_one (le : L ≤ 1) : L = 0 ∨ L = 1 := by
  by_cases empty : [] ∈ L
  · refine Or.inr (le_antisymm le fun trace same => ?_)
    rw [(Language.mem_one trace).mp same]
    exact empty
  · refine Or.inl (Language.ext fun trace => iff_of_false (fun member => ?_) id)
    rw [(Language.mem_one trace).mp (le member)] at member
    exact empty member

/-- So many copies of nothing are nothing, or at least one copy. -/
theorem copied_of_le_one (least : Nat) (most : Option Nat) (le : L ≤ 1) :
    copied (min least 1) (some (min (most.getD 1) 1)) L = copied least most L := by
  rcases eq_zero_or_one le with rfl | rfl
  · cases least with
    | zero => cases most <;> simp [copied]
    | succ least => cases most <;> simp [copied]
  · cases most <;> simp [copied]

theorem Denotes.copies {least : Nat} {most : Option Nat} (greedy : Bool)
    (body : a.Denotes kept L)
    (quiet : a.takesNothing = true → L ≤ 1 ∨ least = 0 ∧ most = some 1) :
    (copies least most greedy a).Denotes kept (copied least most L) := by
  obtain ⟨proper, rfl⟩ := body
  have same (isQuiet : a.takesNothing = true) :
      copied (min least 1) (some (min (most.getD 1) 1)) (a.traces kept) =
        copied least most (a.traces kept) := by
    rcases quiet isQuiet with le | ⟨rfl, rfl⟩
    · exact copied_of_le_one least most le
    · rfl
  unfold Reduced.copies
  dsimp only
  generalize leastIs : (if a.takesNothing = true then min least 1 else least) = least'
  generalize mostIs : (if a.takesNothing = true then some (min (most.getD 1) 1) else most) = most'
  have equal : copied least' most' (a.traces kept) = copied least most (a.traces kept) := by
    rw [← leastIs, ← mostIs]
    split
    · next isQuiet => exact same isQuiet
    · rfl
  rw [← equal]
  split
  · next none =>
    obtain ⟨rfl, rfl⟩ : least' = 0 ∧ most' = some 0 := by simpa using none
    exact ⟨trivial, by simp [copied, Reduced.traces]⟩
  split
  · next one =>
    obtain ⟨rfl, rfl⟩ : least' = 1 ∧ most' = some 1 := by simpa using one
    exact ⟨proper, by simp [copied]⟩
  · exact ⟨proper, rfl⟩

/-- No character is met on the way through an expression that takes nothing. -/
theorem only_of_takesNothing (kept : String → Bool) (takesNothing : a.takesNothing = true) :
    Only (fun event => ∀ c, event ≠ .char c) (a.traces kept) := by
  induction a with
  | empty => exact only_one
  | literal chars => cases takesNothing
  | set chars => cases takesNothing
  | edge condition =>
    rintro _ rfl event member c rfl
    cases List.mem_singleton.mp member
  | group name body ih =>
    exact (ih takesNothing).grouped fun _ _ _ => ⟨fun _ => Event.noConfusion, fun _ => Event.noConfusion⟩
  | repeated least most greedy body ih =>
    exact (ih (Bool.and_eq_true_iff.mp takesNothing).2).copied least most
  | cat a b first second =>
    obtain ⟨one, other⟩ := Bool.and_eq_true_iff.mp takesNothing
    exact (first one).mul (second other)
  | alt a b first second =>
    obtain ⟨one, other⟩ := Bool.and_eq_true_iff.mp takesNothing
    exact (first one).add (second other)

end Reduced

/-! ## Reducing -/

variable {kept : String → Bool}

/-- The texts that an expression matches, whatever its conditions ask for. -/
def words : Regex → Language Char
  | empty | edge _ => 1
  | set chars _ => {word | ∃ c, chars.contains c = true ∧ word = [c]}
  | cat a b => a.words * b.words
  | alt a b => a.words + b.words
  | repeated least most _ body => copied least most body.words
  | group _ body => body.words

/-- There are no conditions in an expression: what it matches does not depend on what stands
around it. -/
def Edgeless : Regex → Prop
  | empty | set _ _ => True
  | edge _ => False
  | cat a b | alt a b => a.Edgeless ∧ b.Edgeless
  | repeated _ _ _ body | group _ body => body.Edgeless

/-- There are no conditions in an expression, and none of its groups is asked for. -/
def Plain (kept : String → Bool) : Regex → Prop
  | empty | set _ _ => True
  | edge _ => False
  | cat a b | alt a b => a.Plain kept ∧ b.Plain kept
  | repeated _ _ _ body => body.Plain kept
  | group bracket body => (∀ name, bracket.name? = some name → kept name = false) ∧ body.Plain kept

/-- What may be met several times is plain. -/
def Tame (kept : String → Bool) : Regex → Prop
  | empty | set _ _ | edge _ => True
  | cat a b | alt a b => a.Tame kept ∧ b.Tame kept
  | repeated least most _ body => body.Plain kept ∨ least = 0 ∧ most = some 1 ∧ body.Tame kept
  | group _ body => body.Tame kept

variable {regex : Regex}

/-- On the way through a plain expression the characters of its words are met, and nothing else. -/
theorem Plain.traces_eq (plain : regex.Plain kept) :
    regex.traces kept = Language.map .char regex.words := by
  induction regex with
  | empty => exact (map_one _).symm
  | set chars nesting =>
    ext trace
    constructor
    · rintro ⟨c, has, rfl⟩
      exact ⟨[c], ⟨c, has, rfl⟩, rfl⟩
    · rintro ⟨_, ⟨c, has, rfl⟩, rfl⟩
      exact ⟨c, has, rfl⟩
  | edge condition => exact plain.elim
  | cat a b first second =>
    rw [traces, words, first plain.1, second plain.2, map_mul]
  | alt a b first second =>
    rw [traces, words, first plain.1, second plain.2, map_add]
  | repeated least most greedy body ih =>
    rw [traces, words, ih plain]
    cases most with
    | none => simp [copied, Language.map_kstar]
    | some most => simp only [copied, map_mul, map_pow, map_add, map_one]
  | group bracket body ih =>
    have own := ih plain.2
    cases bracket with
    | plain => exact own
    | counted => exact own
    | named name =>
      have unasked : ¬ kept name = true := by simp [plain.1 name rfl]
      exact (if_neg unasked).trans own

theorem Plain.only (plain : regex.Plain kept) :
    Only (fun event => ∃ c, event = .char c) (regex.traces kept) := by
  rw [plain.traces_eq]
  rintro _ ⟨word, _, rfl⟩ event member
  obtain ⟨c, _, rfl⟩ := List.mem_map.mp member
  exact ⟨c, rfl⟩

theorem Edgeless.plain (edgeless : regex.Edgeless)
    (unasked : ∀ name ∈ regex.groupNames, kept name = false) : regex.Plain kept := by
  induction regex with
  | cat a b first second | alt a b first second =>
    obtain ⟨early, late⟩ := List.forall_mem_append.mp unasked
    exact ⟨first edgeless.1 early, second edgeless.2 late⟩
  | repeated least most greedy body ih => exact ih edgeless unasked
  | group bracket body ih =>
    obtain ⟨own, inner⟩ := List.forall_mem_append.mp unasked
    exact ⟨fun name isName => own name (Option.mem_toList.mpr isName), ih edgeless inner⟩
  | edge condition => exact edgeless
  | _ => trivial

theorem Plain.tame (plain : regex.Plain kept) : regex.Tame kept := by
  induction regex with
  | cat a b first second | alt a b first second => exact ⟨first plain.1, second plain.2⟩
  | repeated => exact Or.inl plain
  | group bracket body ih => exact ih plain.2
  | _ => trivial

/-- Reducing an expression keeps its traces. -/
theorem offers_reducedBranches (proper : regex.Proper) (tame : regex.Tame kept) :
    Reduced.Offers kept regex.reducedBranches (regex.traces kept) := by
  induction regex with
  | empty => exact Reduced.Denotes.offers ⟨trivial, rfl⟩
  | set chars nesting => exact (Reduced.denotes_oneOf proper).offers
  | edge condition => exact Reduced.Denotes.offers ⟨trivial, rfl⟩
  | cat a b first second =>
    exact ((first proper.1 tame.1).choice.concat (second proper.2 tame.2).choice).offers
  | alt a b first second => exact (first proper.1 tame.1).append (second proper.2 tame.2)
  | repeated least most greedy body ih =>
    have inner : body.Tame kept := tame.elim Plain.tame fun once => once.2.2
    have reduced := (ih proper inner).choice
    refine (reduced.copies greedy fun quiet => ?_).offers
    refine tame.imp (fun plain => ?_) fun once => ⟨once.1, once.2.1⟩
    -- What takes nothing meets no characters, and what is plain meets nothing else.
    have none := Reduced.only_of_takesNothing kept quiet
    rw [reduced.traces] at none
    intro trace member
    refine (Language.mem_one trace).mpr (List.eq_nil_iff_forall_not_mem.mpr fun event there => ?_)
    obtain ⟨c, rfl⟩ := plain.only trace member event there
    exact none trace member _ there c rfl
  | group bracket body ih =>
    have inner := (ih proper tame).choice
    cases bracket with
    | plain => exact inner.offers
    | counted =>
      exact Reduced.Denotes.offers ⟨inner.proper, congrArg (grouped kept none) inner.traces⟩
    | named name =>
      exact Reduced.Denotes.offers
        ⟨inner.proper, congrArg (grouped kept (some name)) inner.traces⟩

/-- On the way through an expression without conditions none is met, and the marks are those of its
groups that are asked for. -/
theorem Edgeless.only {property : String → Prop} (edgeless : regex.Edgeless)
    (marks : ∀ name ∈ regex.groupNames, kept name = true → property name) :
    Only (Event.MarksOnly property) (regex.traces kept) := by
  induction regex with
  | empty => exact only_one
  | set chars nesting =>
    rintro _ ⟨c, _, rfl⟩ event member
    rw [List.mem_singleton.mp member]
    trivial
  | edge condition => exact edgeless.elim
  | cat a b first second =>
    obtain ⟨early, late⟩ := List.forall_mem_append.mp marks
    exact (first edgeless.1 early).mul (second edgeless.2 late)
  | alt a b first second =>
    obtain ⟨early, late⟩ := List.forall_mem_append.mp marks
    exact (first edgeless.1 early).add (second edgeless.2 late)
  | repeated least most greedy body ih => exact (ih edgeless marks).copied least most
  | group bracket body ih =>
    obtain ⟨own, inner⟩ := List.forall_mem_append.mp marks
    refine (ih edgeless inner).grouped fun name isName asked => ?_
    have has := own name (Option.mem_toList.mpr isName) asked
    exact ⟨has, has⟩

theorem denotes_reduced (proper : regex.Proper) (tame : regex.Tame kept) :
    regex.reduced.Denotes kept (regex.traces kept) :=
  (offers_reducedBranches proper tame).choice

end ScriptBinding.Regex

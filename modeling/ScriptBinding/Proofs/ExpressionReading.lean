import ScriptBinding.Proofs.CaseClasses
import ScriptBinding.Regex.Parser

/-! # The sets of written expressions

Every set in an expression that can be written has ranges that are in order and end at characters.
Reading keeps it so from the members of a class up to the whole expression.
-/

namespace ScriptBinding

namespace CharSet

variable {a b : CharSet}

theorem Proper.apply (proper : a.Proper) (other : b.Proper) (operator : Regex.SetOperator) :
    (operator.apply a b).Proper := by
  cases operator with
  | inter => exact proper.inter other
  | minus => exact proper.inter other.complement
  | symmetric =>
    exact (proper.inter other.complement).union (other.inter proper.complement)

theorem proper_asciiClass {name : String} (found : Regex.asciiClass? name = some a) :
    a.Proper := by
  unfold Regex.asciiClass? at found
  dsimp only at found
  split at found <;> cases found <;> decide

end CharSet

namespace Regex

/-- All sets of an expression are proper. -/
def Proper : Regex → Prop
  | empty | edge _ => True
  | set chars _ => chars.Proper
  | cat a b | alt a b => a.Proper ∧ b.Proper
  | repeated _ _ _ body | group _ body => body.Proper

theorem proper_catAll {items : List Regex} (proper : ∀ item ∈ items, item.Proper) :
    (catAll items).Proper := by
  induction items with
  | nil => trivial
  | cons first others ih =>
    obtain ⟨own, later⟩ := List.forall_mem_cons.mp proper
    cases others with
    | nil => exact own
    | cons second rest => exact ⟨own, ih later⟩

theorem proper_altAll {items : List Regex} (proper : ∀ item ∈ items, item.Proper) :
    (altAll items).Proper := by
  induction items with
  | nil => trivial
  | cons first others ih =>
    obtain ⟨own, later⟩ := List.forall_mem_cons.mp proper
    cases others with
    | nil => exact own
    | cons second rest => exact ⟨own, ih later⟩

/-! ## Bracketed classes -/

/-- The set of an escape, if it stands for one. -/
def Escape.Proper : Escape → Prop
  | literal _ | edge _ => True
  | chars named => named.Proper

theorem readEscape?_proper {chars rest : List Char} {escape : Escape}
    (reads : readEscape? chars = some (escape, rest)) : escape.Proper := by
  cases chars with
  | nil => cases reads
  | cons c others =>
    unfold readEscape? at reads
    dsimp only at reads
    split at reads
    case h_1 => cases reads; exact CharSet.proper_digit
    case h_2 => cases reads; exact CharSet.proper_digit.complement
    case h_3 => cases reads; exact CharSet.proper_word
    case h_4 => cases reads; exact CharSet.proper_word.complement
    case h_5 => cases reads; exact CharSet.proper_blank
    case h_6 => cases reads; exact CharSet.proper_blank.complement
    case h_13 | h_14 | h_15 =>
      obtain ⟨_, _, same⟩ := Option.map_eq_some_iff.mp reads
      cases same
      trivial
    case h_22 =>
      split at reads <;> cases reads
      trivial
    all_goals cases reads; trivial

theorem Member.proper_of_literal (c : Char) (ignoreCase : Bool) :
    ((Member.literal c).set ignoreCase).Proper :=
  (CharSet.proper_single c).foldIf ignoreCase

theorem readMember?_proper {chars rest : List Char} {member : Member}
    (reads : readMember? chars = some (member, rest)) (ignoreCase : Bool) :
    (member.set ignoreCase).Proper := by
  unfold readMember? at reads
  split at reads
  · cases reads
  · split at reads
    · cases reads
      exact Member.proper_of_literal _ ignoreCase
    · next escape =>
      cases reads
      exact readEscape?_proper escape
    · cases reads
  · cases reads
    exact Member.proper_of_literal _ ignoreCase

theorem readRange?_proper {ignoreCase : Bool} {chars rest : List Char} {written : CharSet}
    (reads : readRange? ignoreCase chars = some (written, rest)) : written.Proper := by
  unfold readRange? at reads
  split at reads
  · cases reads
  · next first next others found =>
    split at reads
    · cases reads
      exact readMember?_proper found ignoreCase
    · split at reads
      · split at reads
        · next ordered =>
          cases reads
          exact (CharSet.proper_range ordered).foldIf ignoreCase
        · cases reads
      · cases reads
  · next found =>
    cases reads
    exact readMember?_proper found ignoreCase

theorem readNamed?_proper {ignoreCase : Bool} {chars rest : List Char} {named : CharSet}
    (reads : readNamed? ignoreCase chars = some (named, rest)) : named.Proper := by
  unfold readNamed? at reads
  split at reads
  · dsimp only at reads
    split at reads
    · obtain ⟨plain, found, same⟩ := Option.map_eq_some_iff.mp reads
      cases same
      have proper := (CharSet.proper_asciiClass found).foldIf ignoreCase
      split
      · exact proper.complement
      · exact proper
    · cases reads
  · cases reads

namespace OpenClass

/-- All sets of a class that is being read are proper. -/
structure Proper (current : OpenClass) : Prop where
  pending : ∀ left operator, current.pending = some (left, operator) → left.chars.Proper
  members : current.members.Proper

variable {current : OpenClass}

theorem Proper.content (proper : current.Proper) : current.content.chars.Proper := by
  unfold OpenClass.content
  split
  · exact proper.members
  · next left operator pending =>
    exact (proper.pending left operator pending).apply proper.members operator

theorem Proper.close (proper : current.Proper) : current.close.chars.Proper := by
  unfold OpenClass.close
  dsimp only
  split
  · exact proper.content.complement
  · exact proper.content

theorem Proper.add {member : WrittenSet} (proper : current.Proper)
    (own : member.chars.Proper) : (current.add member).Proper :=
  ⟨proper.pending, proper.members.union own⟩

theorem Proper.combine (proper : current.Proper) (operator : SetOperator) :
    (current.combine operator).Proper := by
  refine ⟨fun left other pending => ?_, CharSet.proper_none⟩
  cases pending
  exact proper.content

theorem proper_new (negated : Bool) : Proper { negated } :=
  ⟨fun _ _ pending => absurd pending (Option.some_ne_none _).symm, CharSet.proper_none⟩

end OpenClass

theorem openClass_proper (ignoreCase : Bool) (chars : List Char) :
    (openClass ignoreCase chars).1.Proper := by
  have hyphens (signs : List Char) {start : OpenClass} (proper : start.Proper) :
      (signs.foldl (fun current sign => current.add ⟨.single sign, 0⟩) start).Proper := by
    induction signs generalizing start with
    | nil => exact proper
    | cons sign others ih => exact ih (proper.add (CharSet.proper_single sign))
  unfold openClass
  dsimp only
  split
  · exact (hyphens _ (OpenClass.proper_new _)).add ((CharSet.proper_single ']').foldIf ignoreCase)
  · exact hyphens _ (OpenClass.proper_new _)

theorem readClass?_proper {ignoreCase : Bool} {fuel : Nat} {current : OpenClass}
    {outer : List OpenClass} {chars rest : List Char} {written : WrittenSet}
    (proper : current.Proper) (around : ∀ parent ∈ outer, parent.Proper)
    (reads : readClass? ignoreCase fuel current outer chars = some (written, rest)) :
    written.chars.Proper := by
  fun_induction readClass? ignoreCase fuel current outer chars with
  | case1 => cases reads
  | case2 => cases reads
  | case3 fuel current rest =>
    cases reads
    exact proper.close
  | case4 fuel current rest parent others ih =>
    obtain ⟨own, later⟩ := List.forall_mem_cons.mp around
    exact ih (own.add proper.close) later reads
  | case5 fuel current outer rest named after found ih =>
    exact ih (proper.add (readNamed?_proper found)) around reads
  | case6 fuel current outer rest none inner ih =>
    exact ih (openClass_proper ignoreCase rest) (List.forall_mem_cons.mpr ⟨proper, around⟩) reads
  | case7 fuel current outer rest ih => exact ih (proper.combine .inter) around reads
  | case8 fuel current outer rest ih => exact ih (proper.combine .minus) around reads
  | case9 fuel current outer rest ih => exact ih (proper.combine .symmetric) around reads
  | case10 => cases reads
  | case11 fuel current outer chars _ _ _ _ _ _ member rest found ih =>
    exact ih (proper.add (readRange?_proper found)) around reads

/-! ## Whole expressions -/

namespace OpenGroup

/-- All sets of a choice that is being read are proper. -/
structure Proper (group : OpenGroup) : Prop where
  alternatives : ∀ alternative ∈ group.alternatives, alternative.Proper
  items : ∀ item ∈ group.items, item.Proper

variable {group : OpenGroup}

theorem proper_new : Proper {} :=
  ⟨fun _ absent => absurd absent List.not_mem_nil, fun _ absent => absurd absent List.not_mem_nil⟩

theorem Proper.put {item : Regex} (proper : group.Proper) (own : item.Proper) (repeatable : Bool) :
    OpenGroup.Proper { group with items := item :: group.items, repeatable } :=
  ⟨proper.alternatives, List.forall_mem_cons.mpr ⟨own, proper.items⟩⟩

theorem Proper.add {item : Regex} (proper : group.Proper) (own : item.Proper) :
    (group.add item).Proper :=
  proper.put own true

theorem Proper.next (proper : group.Proper) : group.next.Proper := by
  refine ⟨List.forall_mem_cons.mpr ⟨proper_catAll fun item member => ?_, proper.alternatives⟩,
    fun _ absent => absurd absent List.not_mem_nil⟩
  exact proper.items item (List.mem_reverse.mp member)

theorem Proper.repeated (proper : group.Proper) (least : Nat) (most : Option Nat) (greedy : Bool) :
    (group.repeated least most greedy).Proper := by
  unfold OpenGroup.repeated
  split
  · exact proper
  · next last others items =>
    have own := proper.items
    rw [items] at own
    obtain ⟨body, rest⟩ := List.forall_mem_cons.mp own
    exact ⟨proper.alternatives, List.forall_mem_cons.mpr ⟨body, rest⟩⟩

theorem Proper.close (proper : group.Proper) : group.close.Proper :=
  proper_altAll fun alternative member =>
    proper.next.alternatives alternative (List.mem_reverse.mp member)

end OpenGroup

theorem readChoice?_proper {fuel : Nat} {flags : Flags} {state : OpenGroup} {chars rest : List Char}
    {regex : Regex} (proper : state.Proper)
    (reads : readChoice? fuel flags state chars = some (regex, rest)) : regex.Proper := by
  fun_induction readChoice? fuel flags state chars generalizing regex rest with
  | case1 | case9 | case10 | case13 | case15 | case22 => cases reads
  | case2 | case3 =>
    cases reads
    exact proper.close
  | case4 fuel flags state others _ ih => exact ih proper.next reads
  | case5 fuel flags state others repetition
  | case6 fuel flags state others repetition
  | case7 fuel flags state others repetition
  | case8 fuel flags state others repetition least most after found =>
    rename_i ih
    change (if state.repeatable then _ else _) = _ at reads
    split at reads
    · exact ih _ _ _ (proper.repeated _ _ _) reads
    · cases reads
  | case11 fuel flags state others inner after found _ ih =>
    have own : Proper .empty := trivial
    exact ih (proper.put own false) reads
  | case12 fuel flags state others bracket inner after found body behind reading _ whole ih =>
    have own : body.Proper := whole OpenGroup.proper_new reading
    exact ih (proper.add own) reads
  | case14 fuel flags state others opened written after reading _ =>
    rename_i ih
    have own : written.chars.Proper := readClass?_proper (openClass_proper _ _)
      (fun _ absent => absurd absent List.not_mem_nil) reading
    exact ih (proper.add own) reads
  | case16 fuel flags state others chars _ =>
    rename_i ih
    refine ih (proper.add ?_) reads
    change CharSet.Proper (if flags.dotAll then _ else _)
    split
    · exact CharSet.proper_all
    · exact CharSet.proper_exceptLineFeed
  | case17 fuel flags state others condition _
  | case18 fuel flags state others condition _ =>
    rename_i ih
    have own : Proper (.edge condition) := trivial
    exact ih (proper.add own) reads
  | case19 fuel flags state others c after found _ ih =>
    exact ih (proper.add ((CharSet.proper_single c).foldIf flags.ignoreCase)) reads
  | case20 fuel flags state others named after found _ ih =>
    have own : named.Proper := readEscape?_proper found
    exact ih (proper.add own) reads
  | case21 fuel flags state others condition after found _ ih =>
    have own : Proper (.edge condition) := trivial
    exact ih (proper.add own) reads
  | case23 fuel flags state others c _ _ _ _ _ _ _ _ _ _ _ _ _ ih =>
    exact ih (proper.add ((CharSet.proper_single c).foldIf flags.ignoreCase)) reads

/-- All sets of an expression that is read are proper. -/
theorem read?_proper {flags : Flags} {chars : List Char} {regex : Regex}
    (reads : read? flags chars = some regex) : regex.Proper := by
  unfold read? at reads
  split at reads
  · next found =>
    cases reads
    exact readChoice?_proper OpenGroup.proper_new found
  · cases reads

end Regex

end ScriptBinding

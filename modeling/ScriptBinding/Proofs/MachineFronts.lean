import ScriptBinding.Proofs.CodeParts
import ScriptBinding.Proofs.MachineFollowing
import ScriptBinding.Proofs.MachineTraces

/-! # The first part of a machine

When a machine does not come back to the first part of its code, that part runs as if there were
nothing behind it: it arrives at its end at the same places and with the same marks, whatever the
rest of the machine and, unless it asks for the end of the text or of a line, whatever the rest of
the text. Any answer of the whole machine is made of the marks of one such arrival and of what the
rest gives from there.
-/

namespace ScriptBinding

/-- A place of a text, given what stands before and after it. -/
def Place.between (early late : List Char) : Place :=
  ⟨early.length, early.getLast?, late⟩

namespace Regex.Machine

variable {property : Event → Prop} {code : List Instruction} {machine : Machine}
  {place other : Place} {thread : Thread} {reached reached' : List Nat}
  {found found' threads : List Thread} {settled settled' : Settled} {good : List Mark → Prop}

/-- A machine starts with some code, which it leaves behind for good. -/
structure Begins (property : Event → Prop) (code : List Instruction) (machine : Machine) :
    Prop where
  has : Has machine.fetch 0 code
  stays : Stays property 0 code.length 0 code
  leaves : ∀ (address : Nat) (instruction : Instruction), code.length ≤ address →
    machine.fetch address = some instruction →
      ∀ target ∈ instruction.targets address, code.length < target

/-- A machine whose code leads on behind its first part leaves that part for good. -/
theorem begins_of_code {rest : List Instruction} {high : Nat}
    (isCode : machine.code = (code ++ (rest ++ [Instruction.accept])).toArray)
    (stays : Stays property 0 code.length 0 code)
    (behind : Stays (fun _ => True) (code.length + 1) high code.length rest) :
    Begins property code machine where
  has := by
    intro index instruction there
    obtain ⟨below, _⟩ := List.getElem?_eq_some_iff.mp there
    rw [Nat.zero_add, fetch, isCode, List.getElem?_toArray, List.getElem?_append_left below]
    exact there
  stays := stays
  leaves := by
    intro address instruction past here target member
    rw [fetch, isCode, List.getElem?_toArray, List.getElem?_append_right past] at here
    rcases Nat.lt_or_ge (address - code.length) rest.length with below | last
    · rw [List.getElem?_append_left below] at here
      have within := (behind _ instruction here).within target
      rw [Nat.add_sub_cancel' past] at within
      exact (within member).1
    · rw [List.getElem?_append_right last] at here
      cases List.mem_singleton.mp (List.mem_of_getElem? here)
      cases member

/-- Some code by itself. Threads that come to its end go no further. -/
def front (code : List Instruction) : Machine :=
  ⟨(code ++ [Instruction.take .none]).toArray⟩

/-- Places of one offset, at which the same conditions hold. -/
structure Alike (property : Event → Prop) (place other : Place) : Prop where
  offset : place.offset = other.offset
  holds : ∀ condition, property (.at condition) → holds condition place = holds condition other

/-! ## One step -/

section Steps

theorem fetch_front {address : Nat} (below : address < code.length) :
    (front code).code[address]? = code[address]? :=
  (List.getElem?_toArray ..).trans (List.getElem?_append_left below)

theorem fetch_front_end (code : List Instruction) :
    (front code).code[code.length]? = some (.take .none) :=
  (List.getElem?_toArray ..).trans (List.getElem?_concat_length ..)

theorem fetch_front_cases {address : Nat} {instruction : Instruction}
    (here : (front code).code[address]? = some instruction) :
    code[address]? = some instruction ∨ instruction = .take .none := by
  rw [front, List.getElem?_toArray] at here
  rcases Nat.lt_or_ge address code.length with below | past
  · exact Or.inl ((List.getElem?_append_left below).symm.trans here)
  · rw [List.getElem?_append_right past] at here
    exact Or.inr (List.mem_singleton.mp (List.mem_of_getElem? here))

theorem Begins.fetch (begins : Begins property code machine) {address : Nat}
    (below : address < code.length) : machine.code[address]? = code[address]? := by
  have own := begins.has address code[address] (List.getElem?_eq_getElem below)
  rw [Nat.zero_add] at own
  exact own.trans (List.getElem?_eq_getElem below).symm

/-- A thread that is opened stands where its instruction leads. -/
theorem target_of_mem_successors {instruction : Instruction} {next : Thread}
    (opened : next ∈ successors place thread instruction) :
    next.address ∈ instruction.targets thread.address := by
  unfold successors at opened
  cases instruction with
  | take | accept => cases opened
  | check condition =>
    dsimp only at opened
    split at opened
    · exact (List.mem_singleton.mp opened) ▸ List.mem_singleton_self _
    · cases opened
  | mark | jump => exact (List.mem_singleton.mp opened) ▸ List.mem_singleton_self _
  | fork first second =>
    rcases List.mem_cons.mp opened with rfl | later
    · exact List.mem_cons_self
    · exact List.mem_cons_of_mem _ ((List.mem_singleton.mp later) ▸ List.mem_singleton_self _)

theorem Alike.successors (alike : Alike property place other) {instruction : Instruction}
    (meets : ∀ event ∈ instruction.event?, property event) :
    successors place thread instruction = successors other thread instruction := by
  cases instruction with
  | check condition => simp only [Machine.successors, alike.holds condition (meets _ rfl)]
  | mark name opens => simp only [Machine.successors, alike.offset]
  | _ => rfl

theorem Begins.opens (begins : Begins property code machine) (alike : Alike property place other)
    (below : thread.address < code.length) :
    machine.opens place thread = (front code).opens other thread := by
  unfold Machine.opens
  rw [begins.fetch below, fetch_front below]
  split
  · next instruction here =>
    exact alike.successors (begins.stays _ instruction here).meets
  · rfl

theorem Begins.waits (begins : Begins property code machine)
    (below : thread.address < code.length) : machine.waits thread = (front code).waits thread := by
  unfold Machine.waits
  rw [begins.fetch below, fetch_front below]

theorem Begins.opens_within (begins : Begins property code machine) (place : Place)
    (below : thread.address < code.length) :
    ∀ next ∈ machine.opens place thread, next.address ≤ code.length := by
  intro next opened
  unfold Machine.opens at opened
  rw [begins.fetch below] at opened
  split at opened
  · next instruction here =>
    have within := (begins.stays _ instruction here).within next.address
    rw [Nat.zero_add] at within
    exact (within (target_of_mem_successors opened)).2
  · cases opened

theorem Begins.opens_behind (begins : Begins property code machine) (place : Place)
    (past : code.length ≤ thread.address) :
    ∀ next ∈ machine.opens place thread, code.length < next.address := by
  intro next opened
  unfold Machine.opens at opened
  split at opened
  · next instruction here =>
    exact begins.leaves _ instruction past here _ (target_of_mem_successors opened)
  · cases opened

theorem Begins.goesOn (begins : Begins property code machine)
    (below : thread.address < code.length) : machine.code[thread.address]? ≠ some .accept := by
  rw [begins.fetch below]
  exact fun here => (begins.stays _ _ here).goesOn rfl

theorem waits_front_end (stands : thread.address = code.length) :
    (front code).waits thread = [thread] := by
  rw [waits, stands, fetch_front_end]

theorem opens_front_end (stands : thread.address = code.length) :
    (front code).opens place thread = [] := by
  rw [opens, stands, fetch_front_end]
  rfl

end Steps

/-! ## Side by side -/

/-- The threads that have not come past the end of the code. -/
def inside (code : List Instruction) (threads : List Thread) : List Thread :=
  threads.filter (·.address ≤ code.length)

/-- The threads that have come past the end of the code. -/
def beyond (code : List Instruction) (threads : List Thread) : List Thread :=
  threads.filter (code.length < ·.address)

theorem inside_cons (within : thread.address ≤ code.length) (threads : List Thread) :
    inside code (thread :: threads) = thread :: inside code threads :=
  List.filter_cons_of_pos (decide_eq_true within)

theorem inside_cons_of_beyond (past : code.length < thread.address) (threads : List Thread) :
    inside code (thread :: threads) = inside code threads :=
  List.filter_cons_of_neg (by simpa using past)

theorem inside_append_of_within (within : ∀ thread ∈ found, thread.address ≤ code.length)
    (threads : List Thread) : inside code (found ++ threads) = found ++ inside code threads := by
  rw [inside, List.filter_append, List.filter_eq_self.mpr fun thread member =>
    decide_eq_true (within thread member), inside]

theorem inside_append_of_beyond (past : ∀ thread ∈ found, code.length < thread.address)
    (threads : List Thread) : inside code (found ++ threads) = inside code threads := by
  have none : found.filter (·.address ≤ code.length) = [] :=
    List.filter_eq_nil_iff.mpr fun thread member => by simpa using past thread member
  rw [inside, List.filter_append, none, List.nil_append, inside]

theorem gain_beyond_cons : Gain machine place good (beyond code (thread :: threads)) ↔
    (code.length < thread.address → Gain machine place good [thread]) ∧
      Gain machine place good (beyond code threads) := by
  rw [beyond, List.filter_cons]
  split
  · next past =>
    exact ⟨fun gain => ⟨fun _ => gain.head, gain.tail⟩,
      fun ⟨first, rest⟩ => (first (of_decide_eq_true past)).append rest⟩
  · next within =>
    exact ⟨fun gain => ⟨fun past => absurd (decide_eq_true past) within, gain⟩, And.right⟩

/-- Only threads that have come past the end have to be good. -/
theorem gain_beyond_append (first : Gain machine place good (beyond code found))
    (rest : Gain machine place good (beyond code threads)) :
    Gain machine place good (beyond code (found ++ threads)) := by
  rw [beyond, List.filter_append]
  exact first.append rest

theorem Gain.beyond (gain : Gain machine place good threads) :
    Gain machine place good (beyond code threads) :=
  fun thread member => gain thread (List.mem_filter.mp member).1

theorem gain_beyond_of_within (within : ∀ thread ∈ threads, thread.address ≤ code.length) :
    Gain machine place good (beyond code threads) := by
  intro thread member
  obtain ⟨there, past⟩ := List.mem_filter.mp member
  exact absurd (of_decide_eq_true past) (Nat.not_lt_of_le (within thread there))

/-- What a machine that starts with some code has found, next to what the code by itself has found:
in front of the end of the code the same threads wait, and what waits behind gives good marks
only. -/
structure Keeps (machine : Machine) (code : List Instruction) (place : Place)
    (good : List Mark → Prop) (found found' : List Thread) : Prop where
  same : found.filter (·.address < code.length) = found'.filter (·.address < code.length)
  gain : Gain machine place good (found.filter (code.length ≤ ·.address))

theorem Keeps.reverse (keeps : Keeps machine code place good found found') :
    Keeps machine code place good found.reverse found'.reverse where
  same := by rw [List.filter_reverse, List.filter_reverse, keeps.same]
  gain := by
    rw [List.filter_reverse]
    exact fun thread member => keeps.gain thread (List.mem_reverse.mp member)

/-- A thread in front of the end is found by both. -/
theorem Keeps.inside (keeps : Keeps machine code place good found found')
    (begins : Begins property code machine) (below : thread.address < code.length) :
    Keeps machine code place good (machine.waits thread ++ found)
      ((front code).waits thread ++ found') where
  same := by rw [begins.waits below, List.filter_append, List.filter_append, keeps.same]
  gain := by
    have none : (machine.waits thread).filter (code.length ≤ ·.address) = [] :=
      List.filter_eq_nil_iff.mpr fun other member => by
        rw [eq_of_mem_waits member]
        simpa using below
    rw [List.filter_append, none]
    exact keeps.gain

/-- A thread behind that gives good marks may be found by either. -/
theorem Keeps.past (keeps : Keeps machine code place good found found')
    (past : code.length ≤ thread.address) (gain : Gain machine place good [thread])
    {more : List Thread}
    (own : ∀ other ∈ more, other = thread) :
    Keeps machine code place good (machine.waits thread ++ found) (more ++ found') where
  same := by
    have none {threads : List Thread} (all : ∀ other ∈ threads, other = thread) :
        threads.filter (·.address < code.length) = [] :=
      List.filter_eq_nil_iff.mpr fun other member => by
        rw [all other member]
        simpa using past
    rw [List.filter_append, List.filter_append, none own, none fun _ => eq_of_mem_waits, keeps.same]
  gain := by
    rw [List.filter_append]
    refine Gain.append (fun other member => ?_) keeps.gain
    rw [eq_of_mem_waits (List.mem_filter.mp member).1]
    exact gain thread (List.mem_singleton_self thread)

/-- A thread that comes to the end of the code for the first time waits there. -/
theorem Follows.arrives
    (alone : Follows (Machine.front code) place reached found (thread :: threads) settled)
    (stands : thread.address = code.length) (new : thread.address ∉ reached) :
    thread ∈ settled.waiting := by
  cases alone with
  | again there => exact absurd there new
  | accept _ here =>
    rw [stands, fetch_front_end] at here
    cases here
  | leave _ _ rest =>
    rw [waits_front_end stands] at rest
    exact rest.keeps thread List.mem_cons_self

/-- The machine follows its threads, and the code by itself follows those that are not behind its
end. If what the machine gives from any arrival there is good, then all that is behind is good. -/
theorem Follows.front (begins : Begins property code machine) (alike : Alike property place other)
    (follows : Follows machine place reached found threads settled)
    (alone : Follows (front code) other reached' found' (inside code threads) settled')
    (seen : ∀ address ≤ code.length, address ∈ reached ↔ address ∈ reached')
    (keeps : Keeps machine code place good found found')
    (pending : Gain machine place good (beyond code threads))
    (arrives : ∀ thread ∈ settled'.waiting, thread.address = code.length →
      Gain machine place good [thread]) :
    (settled.accepted = none → Keeps machine code place good settled.waiting settled'.waiting) ∧
      ∀ final, settled.accepted = some final → good final := by
  induction follows generalizing reached' found' with
  | done =>
    cases alone
    exact ⟨fun _ => keeps.reverse, nofun⟩
  | @again reached found others thread settled there _ ih =>
    have later := (gain_beyond_cons.mp pending).2
    rcases Nat.lt_or_ge code.length thread.address with past | within
    · rw [inside_cons_of_beyond past] at alone
      exact ih alone seen keeps later
    · rw [inside_cons within] at alone
      cases alone with
      | again _ rest => exact ih rest seen keeps later
      | accept new | leave new => exact absurd ((seen _ within).mp there) new
  | @accept reached found others thread new here =>
    have own : Gain machine place good [thread] := by
      rcases lt_trichotomy thread.address code.length with below | stands | past
      · exact absurd here (begins.goesOn below)
      · rw [inside_cons stands.le] at alone
        have fresh := fun there => new ((seen _ stands.le).mpr there)
        exact arrives thread (alone.arrives stands fresh) stands
      · exact (gain_beyond_cons.mp pending).1 past
    refine ⟨nofun, fun final same => ?_⟩
    cases same
    exact own thread (List.mem_singleton_self thread) 0 _ (.accept here)
  | @leave reached found others thread settled new going _ ih =>
    obtain ⟨behind, later⟩ := gain_beyond_cons.mp pending
    have both {reached' : List Nat}
        (seen : ∀ address ≤ code.length, address ∈ reached ↔ address ∈ reached') :
        ∀ address ≤ code.length,
          address ∈ thread.address :: reached ↔ address ∈ thread.address :: reached' :=
      fun address within => by rw [List.mem_cons, List.mem_cons, seen address within]
    -- In front of the end both go the same way; at the end the code by itself waits; behind it has
    -- no part in what happens.
    rcases lt_trichotomy thread.address code.length with below | stands | past
    · rw [inside_cons below.le] at alone
      cases alone with
      | again there => exact absurd ((seen _ below.le).mpr there) new
      | accept _ here =>
        rw [fetch_front below, ← begins.fetch below] at here
        exact absurd here going
      | leave _ _ rest =>
        have opened := begins.opens_within place below
        rw [← begins.opens alike below, ← inside_append_of_within opened] at rest
        exact ih rest (both seen) (keeps.inside begins below)
          (gain_beyond_append (gain_beyond_of_within opened) later)
    · rw [inside_cons stands.le] at alone
      have fresh := fun there => new ((seen _ stands.le).mpr there)
      have own := arrives thread (alone.arrives stands fresh) stands
      cases alone with
      | again there => exact absurd there fresh
      | accept _ here =>
        rw [stands, fetch_front_end] at here
        cases here
      | leave _ _ rest =>
        rw [opens_front_end stands, List.nil_append,
          ← inside_append_of_beyond (begins.opens_behind place stands.ge)] at rest
        exact ih rest (both seen) (keeps.past stands.ge own fun _ => eq_of_mem_waits)
          (gain_beyond_append (gain_opens own).beyond later)
    · rw [inside_cons_of_beyond past,
        ← inside_append_of_beyond (begins.opens_behind place past.le)] at alone
      have own := behind past
      refine ih alone (fun address within => ?_)
        (keeps.past past.le own fun _ absent => absurd absent List.not_mem_nil)
        (gain_beyond_append (gain_opens own).beyond later)
      rw [List.mem_cons, or_iff_right (within.trans_lt past).ne, seen address within]

/-! ## Behind a character -/

/-- A thread takes a character if it waits for that one, and goes on to the next address. -/
theorem advance_eq_some {c : Char} {next : Thread}
    (advanced : machine.advance c thread = some next) :
    (∃ chars, machine.code[thread.address]? = some (.take chars) ∧ chars.contains c = true) ∧
      next = thread.next := by
  unfold advance at advanced
  split at advanced
  · next chars here =>
    split at advanced
    · next has => exact ⟨⟨chars, here, has⟩, (Option.some.inj advanced).symm⟩
    · cases advanced
  · cases advanced

theorem advance_front_of_past {c : Char} (past : code.length ≤ thread.address) :
    (front code).advance c thread = none := by
  refine Option.eq_none_iff_forall_ne_some.mpr fun next advanced => ?_
  obtain ⟨⟨chars, here, has⟩, _⟩ := advance_eq_some advanced
  rcases fetch_front_cases here with own | absent
  · rw [List.getElem?_eq_none past] at own
    cases own
  · cases absent
    cases has

/-- The threads that take a character and do not come past the end are those of the code by
itself. -/
theorem inside_advance (begins : Begins property code machine) (c : Char)
    (keeps : Keeps machine code place good found found') :
    inside code (found.filterMap (machine.advance c)) =
      found'.filterMap ((front code).advance c) := by
  have own : inside code (found.filterMap (machine.advance c)) =
      (found.filter (·.address < code.length)).filterMap (machine.advance c) := by
    rw [inside, List.filter_filterMap, List.filterMap_filter]
    refine List.filterMap_congr fun thread _ => ?_
    cases advanced : machine.advance c thread with
    | none => exact (ite_self none).symm
    | some next =>
      rw [(advance_eq_some advanced).2]
      rfl
  have alone : (found'.filter (·.address < code.length)).filterMap ((front code).advance c) =
      found'.filterMap ((front code).advance c) := by
    rw [List.filterMap_filter]
    refine List.filterMap_congr fun thread _ => ?_
    split
    · rfl
    · next past => exact (advance_front_of_past (by simpa using past)).symm
  rw [own, keeps.same, ← alone]
  refine List.filterMap_congr fun thread member => ?_
  have below := of_decide_eq_true (List.mem_filter.mp member).2
  unfold advance
  rw [begins.fetch below, fetch_front below]

/-- What comes past the end by taking a character was there already, or comes from there. -/
theorem gain_beyond_advance {offset : Nat} {before : Option Char} {c : Char} {rest : List Char}
    (keeps : Keeps machine code ⟨offset, before, c :: rest⟩ good found found') :
    Gain machine ⟨offset + 1, some c, rest⟩ good
      (beyond code (found.filterMap (machine.advance c))) := by
  intro next member
  obtain ⟨there, past⟩ := List.mem_filter.mp member
  obtain ⟨thread, waiting, advanced⟩ := List.mem_filterMap.mp there
  have within : code.length ≤ thread.address := by
    rw [(advance_eq_some advanced).2] at past
    exact Nat.le_of_lt_succ (of_decide_eq_true past)
  exact keeps.gain.advance next
    (List.mem_filterMap.mpr
      ⟨thread, List.mem_filter.mpr ⟨waiting, decide_eq_true within⟩, advanced⟩)

/-! ## Acceptance at the end of a text -/

variable {body : List Instruction} {early late : List Char}

/-- A machine accepts behind some code, if the text ends there. -/
structure Closes (machine : Machine) (body : List Instruction) : Prop where
  begins : Begins (fun _ => True) body machine
  check : machine.code[body.length]? = some (.check .textEnd)

/-- Before the end of a text nothing is accepted, and no thread comes to where that happens. -/
theorem Closes.open (closes : Closes machine body) (offset : Nat) (before : Option Char) (c : Char)
    (rest : List Char) (within : ∀ thread ∈ threads, thread.address ≤ body.length) :
    (machine.settle ⟨offset, before, c :: rest⟩ threads).accepted = none ∧
      ∀ next ∈ (machine.settle ⟨offset, before, c :: rest⟩ threads).waiting.filterMap
        (machine.advance c), next.address ≤ body.length := by
  have opened (thread : Thread) (own : thread.address ≤ body.length) :
      ∀ next ∈ machine.opens ⟨offset, before, c :: rest⟩ thread, next.address ≤ body.length := by
    rcases own.lt_or_eq with below | stands
    · exact closes.begins.opens_within _ below
    · unfold opens
      rw [stands, closes.check]
      exact fun _ absent => absurd absent List.not_mem_nil
  obtain ⟨waiting, accepted⟩ :=
    (follows_settle machine ⟨offset, before, c :: rest⟩ threads).preserves
    opened (fun _ absent => absurd absent List.not_mem_nil) within
  constructor
  · refine Option.eq_none_iff_forall_ne_some.mpr fun final same => ?_
    obtain ⟨thread, own, here, _⟩ := accepted final same
    rcases own.lt_or_eq with below | stands
    · exact closes.begins.goesOn below here
    · rw [stands, closes.check] at here
      cases here
  · intro next member
    obtain ⟨thread, there, advanced⟩ := List.mem_filterMap.mp member
    obtain ⟨⟨chars, here, _⟩, rfl⟩ := advance_eq_some advanced
    refine Nat.lt_of_le_of_ne (waiting thread there) fun stands => ?_
    rw [stands, closes.check] at here
    cases here

/-! ## Arrivals -/

/-- By itself, code that runs over a text from some threads on comes to its end when so much of the
text has been read, for the first time there with these marks. -/
inductive Arrives (code : List Instruction) :
    List Char → List Char → List Thread → List Char → List Mark → Prop
  | here {early late : List Char} {threads : List Thread} {thread : Thread}
      (there : thread ∈ ((front code).settle (.between early late) threads).waiting)
      (stands : thread.address = code.length) :
      Arrives code early late threads early thread.marks
  | later {early rest upTo : List Char} {c : Char} {threads : List Thread} {marks : List Mark}
      (onward : Arrives code (early ++ [c]) rest
        (((front code).settle (.between early (c :: rest)) threads).waiting.filterMap
          ((front code).advance c)) upTo marks) :
      Arrives code early (c :: rest) threads upTo marks

theorem Arrives.prefix {upTo : List Char} {marks : List Mark}
    (arrives : Arrives code early late threads upTo marks) : early <+: upTo := by
  induction arrives with
  | here => exact List.prefix_rfl
  | later _ ih => exact (List.prefix_append _ _).trans ih

/-- The marks of an arrival depend on where it is alone. -/
theorem Arrives.unique {upTo : List Char} {marks marks' : List Mark}
    (arrives : Arrives code early late threads upTo marks)
    (again : Arrives code early late threads upTo marks') : marks = marks' := by
  have ahead {early upTo : List Char} {c : Char} (longer : early ++ [c] <+: upTo) :
      upTo ≠ early := by
    rintro rfl
    have length := longer.length_le
    rw [List.length_append] at length
    exact Nat.not_succ_le_self _ length
  induction arrives with
  | here there stands =>
    cases again with
    | here there' stands' =>
      exact congrArg Thread.marks (eq_of_mem_settle there there' (stands.trans stands'.symm))
    | later onward => exact absurd rfl (ahead onward.prefix)
  | later onward ih =>
    cases again with
    | here => exact absurd rfl (ahead onward.prefix)
    | later onward' => exact ih onward'

/-- A thread that is opened has the marks of the one that opens it, and at a mark one more. -/
theorem marks_of_mem_successors {instruction : Instruction} {next : Thread}
    (opened : next ∈ successors place thread instruction) :
    next.marks = thread.marks ∨ ∃ name opens, instruction = .mark name opens ∧
      next.marks = ⟨name, opens, place.offset⟩ :: thread.marks := by
  unfold successors at opened
  cases instruction with
  | take | accept => cases opened
  | check condition =>
    dsimp only at opened
    split at opened
    · cases List.mem_singleton.mp opened
      exact Or.inl rfl
    · cases opened
  | mark name opens =>
    cases List.mem_singleton.mp opened
    exact Or.inr ⟨name, opens, rfl, rfl⟩
  | jump target =>
    cases List.mem_singleton.mp opened
    exact Or.inl rfl
  | fork first second =>
    rcases List.mem_cons.mp opened with rfl | later
    · exact Or.inl rfl
    · cases List.mem_singleton.mp later
      exact Or.inl rfl

/-- What is marked on the way is a mark of the code, at this place. -/
theorem mark_of_opens {low high : Nat} (stays : Stays property low high 0 code) {next : Thread}
    (opened : next ∈ (front code).opens place thread) {mark : Mark} (member : mark ∈ next.marks) :
    mark ∈ thread.marks ∨ property (.mark mark.name mark.opens) ∧ mark.offset = place.offset := by
  unfold opens at opened
  split at opened
  · next instruction here =>
    rcases marks_of_mem_successors opened with same | ⟨name, opens, rfl, more⟩
    · exact Or.inl (same ▸ member)
    · rw [more] at member
      rcases List.mem_cons.mp member with rfl | earlier
      · rcases fetch_front_cases here with own | absent
        · exact Or.inr ⟨(stays _ _ own).meets _ rfl, rfl⟩
        · cases absent
      · exact Or.inl earlier
  · cases opened

/-- All marks of an arrival are those of the code, at places up to there. -/
theorem Arrives.marks {low high : Nat} (stays : Stays property low high 0 code) {upTo : List Char}
    {marks : List Mark} (arrives : Arrives code early late threads upTo marks)
    (known : ∀ thread ∈ threads, ∀ mark ∈ thread.marks,
      property (.mark mark.name mark.opens) ∧ mark.offset ≤ early.length) :
    ∀ mark ∈ marks, property (.mark mark.name mark.opens) ∧ mark.offset ≤ upTo.length := by
  have settles {early late : List Char} {threads : List Thread}
      (known : ∀ thread ∈ threads, ∀ mark ∈ thread.marks,
        property (.mark mark.name mark.opens) ∧ mark.offset ≤ early.length) :
      ∀ thread ∈ ((front code).settle (.between early late) threads).waiting,
        ∀ mark ∈ thread.marks, property (.mark mark.name mark.opens) ∧ mark.offset ≤ early.length :=
    ((follows_settle (front code) (.between early late) threads).preserves
      (fun thread own next opened mark member =>
        (mark_of_opens stays opened member).elim (own mark) fun new => ⟨new.1, new.2.le⟩)
      (fun _ absent => absurd absent List.not_mem_nil) known).1
  induction arrives with
  | here there _ => exact settles known _ there
  | later _ ih =>
    refine ih fun next member mark own => ?_
    obtain ⟨thread, there, advanced⟩ := List.mem_filterMap.mp member
    rw [(advance_eq_some advanced).2] at own
    obtain ⟨meets, before⟩ := settles known thread there mark own
    exact ⟨meets, before.trans (by rw [List.length_append]; exact Nat.le_add_right _ _)⟩

theorem between_snoc (early : List Char) (c : Char) (rest : List Char) :
    Place.between (early ++ [c]) rest = ⟨early.length + 1, some c, rest⟩ := by
  simp [Place.between]

theorem alike_between (forward : ∀ condition, property (.at condition) →
      condition ≠ .textEnd ∧ condition ≠ .lineEnd) {tail : List Char}
    (apart : wordOn tail.head? = false) (early late : List Char) :
    Alike property (.between early late) (.between early (late ++ tail)) where
  offset := rfl
  holds := by
    intro condition meets
    obtain ⟨notEnd, notLine⟩ := forward condition meets
    cases late with
    | cons c rest => cases condition <;> rfl
    | nil => cases condition <;> simp_all [Regex.holds, Place.between, wordOn]

/-- Whatever a run gives comes from behind an arrival of the first part of its code. -/
theorem run_arrives (begins : Begins property code machine) (closes : Closes machine body)
    (forward : ∀ condition, property (.at condition) →
      condition ≠ .textEnd ∧ condition ≠ .lineEnd) {tail : List Char}
    (apart : wordOn tail.head? = false) {best : Option (List Mark)} {threads' : List Thread}
    (same : inside code threads = threads')
    (within : ∀ thread ∈ threads, thread.address ≤ body.length)
    (known : Gain machine (.between early late) good (beyond code threads))
    (arrives : ∀ upTo rest marks, upTo ++ rest = early ++ late →
      Arrives code early (late ++ tail) threads' upTo marks → ∀ thread : Thread,
        thread.address = code.length → thread.marks = marks →
          Gain machine (.between upTo rest) good [thread])
    (had : ∀ final, best = some final → good final) :
    ∀ final, machine.run early.length early.getLast? late threads best = some final →
      good final := by
  have settles {early late : List Char} {threads threads' : List Thread}
      (same : inside code threads = threads')
      (known : Gain machine (.between early late) good (beyond code threads))
      (arrives : ∀ thread ∈ ((front code).settle (.between early (late ++ tail)) threads').waiting,
        thread.address = code.length → Gain machine (.between early late) good [thread]) :=
    (follows_settle machine (.between early late) threads).front begins
      (alike_between forward apart early late)
      (same ▸ follows_settle (front code) (.between early (late ++ tail)) threads')
      (fun _ _ => Iff.rfl) ⟨rfl, fun _ absent => absurd absent List.not_mem_nil⟩ known arrives
  induction late generalizing early threads threads' best with
  | nil =>
    intro final given
    rcases Option.or_eq_some_iff.mp given with accepted | ⟨_, old⟩
    · exact (settles same known fun thread there stands =>
        arrives early [] thread.marks rfl (.here there stands) thread stands rfl).2 final accepted
    · exact had final old
  | cons c rest ih =>
    obtain ⟨accepted, onward⟩ := closes.open early.length early.getLast? c rest within
    have keeps := (settles same known fun thread there stands =>
      arrives early (c :: rest) thread.marks rfl (.here there stands) thread stands rfl).1 accepted
    unfold run
    dsimp only
    rw [accepted, Option.none_or]
    split
    · exact had
    · have whole : early ++ [c] ++ rest = early ++ c :: rest := List.append_assoc ..
      have known' := gain_beyond_advance keeps
      rw [← between_snoc] at known'
      have more := ih (inside_advance begins c keeps) onward known'
        (fun upTo late marks isText arrived =>
          arrives upTo late marks (isText.trans whole) (.later arrived)) had
      rw [List.length_append, List.getLast?_append] at more
      exact more

/-! ## Searching from the start -/

/-- A machine that asks for the start of the text finds what it finds there. -/
theorem run_of_searchFrom {chars : List Char} {final : List Mark}
    (starts : machine.code[0]? = some (.check .textStart))
    (found : machine.searchFrom 0 none chars = some final) :
    machine.run 0 none chars [{}] none = some final := by
  cases chars with
  | nil => exact found
  | cons c rest =>
    unfold searchFrom at found
    split at found
    · next here => exact here.trans found
    · obtain ⟨place, there, steps, gives⟩ := gives_of_searchFrom found
      have behind : place.before.isSome = true := by
        rcases there with rfl | behind
        · rfl
        · exact behind
      cases gives with
      | accept here | take here => cases starts.symm.trans here
      | move here opened =>
        cases starts.symm.trans here
        have ahead : holds .textStart place = false := by
          rw [holds, Option.isNone_eq_false_iff]
          exact behind
        simp [successors, ahead] at opened

/-- What a machine finds is what its first part has marked when it arrived at its end, and on top of
it what the rest gives from there. -/
theorem search_arrives (begins : Begins property code machine) (closes : Closes machine body)
    (forward : ∀ condition, property (.at condition) →
      condition ≠ .textEnd ∧ condition ≠ .lineEnd) {tail : List Char}
    (apart : wordOn tail.head? = false) (starts : machine.code[0]? = some (.check .textStart))
    {chars : List Char} {final : List Mark}
    (found : machine.searchFrom 0 none chars = some final) :
    ∃ upTo rest marks more steps, upTo ++ rest = chars ∧
      Arrives code [] (chars ++ tail) [{}] upTo marks ∧
      Gives machine steps (.between upTo rest) ⟨code.length, []⟩ more ∧ final = more ++ marks := by
  let good (final : List Mark) : Prop := ∃ upTo rest marks more steps, upTo ++ rest = chars ∧
    Arrives code [] (chars ++ tail) [{}] upTo marks ∧
      Gives machine steps (.between upTo rest) ⟨code.length, []⟩ more ∧ final = more ++ marks
  have all : ∀ final, machine.run ([] : List Char).length ([] : List Char).getLast? chars [{}]
      none = some final → good final := by
    refine run_arrives begins closes forward apart
      (inside_cons (Nat.zero_le _) []) (List.forall_mem_singleton.mpr (Nat.zero_le _))
      (gain_beyond_of_within (List.forall_mem_singleton.mpr (Nat.zero_le _))) ?_
      (fun _ absent => absurd absent (Option.some_ne_none _).symm)
    intro upTo rest marks isText arrived thread stands isMarks other member steps final gives
    cases List.mem_singleton.mp member
    obtain ⟨more, rfl, onward⟩ := gives.shift
    have alone := onward ⟨code.length, []⟩ stands.symm
    rw [List.append_nil] at alone
    exact ⟨upTo, rest, marks, more, steps, isText, arrived, alone, by rw [isMarks]⟩
  exact all final (run_of_searchFrom starts found)

end Regex.Machine

end ScriptBinding

import ScriptBinding.Proofs.MachineFronts

/-! # Preferred threads

Threads behind some that come to acceptance make no difference to what a run gives. As long as a
text goes on, a machine that accepts at the end of a text only runs in one way, whatever follows.
-/

namespace ScriptBinding.Regex.Machine

variable {property : Event → Prop} {machine : Machine} {place other : Place} {thread : Thread}
  {reached : List Nat} {found threads ahead rest : List Thread} {first settled : Settled}
  {offset : Nat} {before : Option Char} {chars : List Char}

/-! ## Threads in ahead -/

/-- What has been found is preferred to what is still to be followed. -/
theorem Follows.found_prefix (follows : Follows machine place reached found threads settled) :
    found.reverse <+: settled.waiting := by
  induction follows with
  | done | accept => exact List.prefix_rfl
  | again _ _ ih => exact ih
  | leave _ _ _ ih =>
    rw [List.reverse_append] at ih
    exact (List.prefix_append _ _).trans ih

/-- Threads in front settle as they do by themselves. -/
theorem Follows.front_alone (alone : Follows machine place reached found ahead first)
    (follows : Follows machine place reached found (ahead ++ rest) settled) :
    (first.accepted.isSome = true → settled = first) ∧ first.waiting <+: settled.waiting := by
  induction alone generalizing settled with
  | done => exact ⟨nofun, follows.found_prefix⟩
  | again seen _ ih =>
    cases follows with
    | again _ later => exact ih later
    | accept new | leave new => exact absurd seen new
  | accept new here =>
    cases follows with
    | again seen => exact absurd seen new
    | accept => exact ⟨fun _ => rfl, List.prefix_rfl⟩
    | leave _ going => exact absurd here going
  | leave new going _ ih =>
    cases follows with
    | again seen => exact absurd seen new
    | accept _ here => exact absurd here going
    | leave _ _ later =>
      refine ih ?_
      rw [List.append_assoc]
      exact later

theorem run_nil (machine : Machine) (offset : Nat) (before : Option Char) (chars : List Char)
    (best : Option (List Mark)) : machine.run offset before chars [] best = best := by
  cases chars <;> rfl

/-- A step of a run. -/
theorem run_cons (c : Char) (best : Option (List Mark)) :
    machine.run offset before (c :: chars) threads best =
      machine.run (offset + 1) (some c) chars
        ((machine.settle ⟨offset, before, c :: chars⟩ threads).waiting.filterMap
          (machine.advance c))
        ((machine.settle ⟨offset, before, c :: chars⟩ threads).accepted.or best) := by
  conv => lhs; unfold run
  dsimp only
  split
  · next none => rw [none, run_nil]
  · rfl

theorem waits_settle (machine : Machine) (place : Place) (threads : List Thread) :
    ∀ thread ∈ (machine.settle place threads).waiting,
      ∃ chars, machine.code[thread.address]? = some (.take chars) :=
  follow_waits fun _ absent => absurd absent List.not_mem_nil

/-- Behind threads that come to acceptance, others make no difference. -/
theorem run_front (succeeds : Succeeds machine ⟨offset, before, chars⟩ ahead)
    (rest : List Thread) (best : Option (List Mark)) :
    machine.run offset before chars (ahead ++ rest) best =
      machine.run offset before chars ahead none := by
  have or_none {accepted : Option (List Mark)} (isSome : accepted.isSome = true)
      (best : Option (List Mark)) : accepted.or best = accepted.or none := by
    obtain ⟨marks, rfl⟩ := Option.isSome_iff_exists.mp isSome
    rfl
  induction chars generalizing offset before ahead rest best with
  | nil =>
    have alone := (follows_settle machine ⟨offset, before, []⟩ ahead).front_alone
      (follows_settle machine ⟨offset, before, []⟩ (ahead ++ rest))
    rcases settle_succeeds succeeds with accepted | onward
    · rw [run, run, alone.1 accepted, or_none accepted]
    · obtain ⟨_, _, absent, _⟩ := onward.advance (waits_settle machine _ _)
      cases absent
  | cons c chars ih =>
    have alone := (follows_settle machine ⟨offset, before, c :: chars⟩ ahead).front_alone
      (follows_settle machine ⟨offset, before, c :: chars⟩ (ahead ++ rest))
    rw [run_cons, run_cons]
    cases accepted : (machine.settle ⟨offset, before, c :: chars⟩ ahead).accepted with
    | some marks =>
      have isSome : (machine.settle ⟨offset, before, c :: chars⟩ ahead).accepted.isSome = true := by
        rw [accepted]
        rfl
      rw [alone.1 isSome, accepted]
      rfl
    | none =>
      rcases settle_succeeds succeeds with isSome | onward
      · rw [accepted] at isSome
        cases isSome
      · obtain ⟨_, _, same, more⟩ := onward.advance (waits_settle machine _ _)
        cases same
        obtain ⟨extra, whole⟩ := alone.2
        rw [← whole, List.filterMap_append]
        exact ih more _ _

/-! ## While a text goes on -/

theorem Follows.anywhere (alike : Alike (fun _ => True) place other)
    (follows : Follows machine place reached found threads settled) :
    Follows machine other reached found threads settled := by
  have same (thread : Thread) : machine.opens place thread = machine.opens other thread := by
    unfold opens
    split
    · exact alike.successors fun _ _ => trivial
    · rfl
  induction follows with
  | done => exact .done
  | again seen _ ih => exact .again seen ih
  | accept new here => exact .accept new here
  | leave new going _ ih => exact .leave new going (same _ ▸ ih)

/-- In ahead of a character, it does not matter what comes behind it. -/
theorem settle_forward (machine : Machine) (early : List Char) (c : Char)
    (rest other : List Char) (threads : List Thread) :
    machine.settle (.between early (c :: rest)) threads =
      machine.settle (.between early (c :: other)) threads := by
  have alike : Alike (fun _ => True) (.between early (c :: other)) (.between early (c :: rest)) :=
    ⟨rfl, fun condition _ => by cases condition <;> rfl⟩
  exact ((follows_settle machine _ threads).anywhere alike).eq_settle

/-! ## Places that are reached -/

variable {code body : List Instruction} {early late tail : List Char}

/-- An answer is made of the marks of an arrival that has a property, and on top of them what the
machine gives from there. -/
def ComesBy (machine : Machine) (code : List Instruction) (text : List Char)
    (property : List Char → Prop) (final : List Mark) : Prop :=
  ∃ upTo rest marks more steps, upTo ++ rest = text ∧ property upTo ∧
    Arrives code [] text [{}] upTo marks ∧
    Gives machine steps (.between upTo rest) ⟨code.length, []⟩ more ∧ final = more ++ marks

/-- The threads with which a machine that starts with some code comes to a place of a text. -/
structure Reaches (machine : Machine) (code body : List Instruction) (early rest : List Char)
    (threads : List Thread) : Prop where
  within : ∀ thread ∈ threads, thread.address ≤ body.length
  /-- Threads behind the code have taken the last character. -/
  taken : ∀ thread ∈ threads, thread.address ≤ code.length ∨
    ∃ address chars, machine.code[address]? = some (.take chars) ∧ thread.address = address + 1
  /-- Arrivals from here on are those from the start on. -/
  arrives : ∀ upTo marks, early <+: upTo →
    (Arrives code early rest (inside code threads) upTo marks ↔
      Arrives code [] (early ++ rest) [{}] upTo marks)
  /-- What threads behind the code give comes from earlier arrivals. -/
  comes : Gain machine (.between early rest)
    (ComesBy machine code (early ++ rest) (·.length < early.length)) (beyond code threads)

theorem reaches_start (machine : Machine) (code body : List Instruction) (text : List Char) :
    Reaches machine code body [] text [{}] where
  within := List.forall_mem_singleton.mpr (Nat.zero_le _)
  taken := List.forall_mem_singleton.mpr (Or.inl (Nat.zero_le _))
  arrives _ _ _ := by
    rw [inside_cons (Nat.zero_le _)]
    rfl
  comes := gain_beyond_of_within (List.forall_mem_singleton.mpr (Nat.zero_le _))

/-- What the machine gives from an arrival at a place that is reached. -/
theorem Reaches.arrival {upTo : List Char → Prop}
    (reaches : Reaches machine code body early late threads)
    (there : thread ∈ ((front code).settle (.between early late) (inside code threads)).waiting)
    (stands : thread.address = code.length) (own : upTo early) :
    Gain machine (.between early late) (ComesBy machine code (early ++ late) upTo) [thread] := by
  intro other member steps final gives
  cases List.mem_singleton.mp member
  obtain ⟨more, rfl, onward⟩ := gives.shift
  have alone := onward ⟨code.length, []⟩ stands.symm
  rw [List.append_nil] at alone
  exact ⟨early, late, thread.marks, more, steps, rfl, own,
    (reaches.arrives early thread.marks List.prefix_rfl).mp (.here there stands), alone, rfl⟩

theorem Reaches.step (begins : Begins property code machine) (closes : Closes machine body)
    {c : Char} (reaches : Reaches machine code body early (c :: late) threads) :
    Reaches machine code body (early ++ [c]) late
      ((machine.settle (.between early (c :: late)) threads).waiting.filterMap
        (machine.advance c)) := by
  obtain ⟨accepted, onward⟩ := closes.open early.length early.getLast? c late reaches.within
  have whole : early ++ [c] ++ late = early ++ c :: late := List.append_assoc ..
  have length : (early ++ [c]).length = early.length + 1 := List.length_append
  have longer : early <+: early ++ [c] := List.prefix_append _ _
  have alike : Alike property (.between early (c :: late)) (.between early (c :: late)) :=
    ⟨rfl, fun _ _ => rfl⟩
  let good := ComesBy machine code (early ++ c :: late) (·.length < early.length + 1)
  have pending : Gain machine (.between early (c :: late)) good (beyond code threads) := by
    intro thread member steps final gives
    obtain ⟨upTo, rest, marks, more, steps, isText, own, others⟩ :=
      reaches.comes thread member steps final gives
    exact ⟨upTo, rest, marks, more, steps, isText, Nat.lt_succ_of_lt own, others⟩
  have keeps : Keeps machine code (.between early (c :: late)) good _ _ :=
    ((follows_settle machine _ threads).front begins alike (follows_settle (front code) _ _)
      (fun _ _ => Iff.rfl) ⟨rfl, fun _ absent => absurd absent List.not_mem_nil⟩ pending
      fun thread there stands => reaches.arrival there stands (Nat.lt_succ_self _)).1 accepted
  refine ⟨onward, fun next member => ?_, fun upTo marks starts => ?_, ?_⟩
  · obtain ⟨thread, _, advanced⟩ := List.mem_filterMap.mp member
    obtain ⟨⟨chars, here, _⟩, rfl⟩ := advance_eq_some advanced
    exact Or.inr ⟨thread.address, chars, here, rfl⟩
  · rw [inside_advance begins c keeps, whole, ← reaches.arrives upTo marks (longer.trans starts)]
    refine ⟨.later, fun arrived => ?_⟩
    cases arrived with
    | here =>
      have short := starts.length_le
      rw [length] at short
      exact absurd short (Nat.not_succ_le_self _)
    | later onward => exact onward
  · have gain := gain_beyond_advance keeps
    rw [← between_snoc] at gain
    rw [whole, length]
    exact gain

/-- A text is run up to a place in one way, whatever follows. -/
theorem Reaches.append (begins : Begins property code machine) (closes : Closes machine body)
    (reaches : Reaches machine code body early (late ++ tail) threads) :
    ∃ threads', Reaches machine code body (early ++ late) tail threads' ∧ ∀ other,
      machine.run early.length early.getLast? (late ++ other) threads none =
        machine.run (early ++ late).length (early ++ late).getLast? other threads' none := by
  induction late generalizing early threads with
  | nil =>
    rw [List.append_nil]
    exact ⟨threads, reaches, fun other => rfl⟩
  | cons c late ih =>
    obtain ⟨threads', later, runs⟩ := ih (reaches.step begins closes)
    have whole : early ++ [c] ++ late = early ++ c :: late := List.append_assoc ..
    rw [whole] at later runs
    refine ⟨threads', later, fun other => ?_⟩
    have own := runs other
    obtain ⟨accepted, _⟩ := closes.open early.length early.getLast? c (late ++ other) reaches.within
    rw [settle_forward machine early c _ (late ++ other), List.length_append,
      List.getLast?_append] at own
    rw [List.cons_append, run_cons, accepted]
    exact own

/-! ## The preferred arrival -/

/-- The first of some threads that comes to acceptance. -/
theorem Succeeds.exists_first (succeeds : Succeeds machine place threads) :
    ∃ before thread after, threads = before ++ thread :: after ∧
      ¬ Succeeds machine place before ∧ Succeeds machine place [thread] := by
  induction threads with
  | nil =>
    obtain ⟨_, absent, _⟩ := succeeds
    cases absent
  | cons thread others ih =>
    by_cases own : Succeeds machine place [thread]
    · exact ⟨[], thread, others, rfl, fun ⟨_, absent, _⟩ => absurd absent List.not_mem_nil, own⟩
    · obtain ⟨start, there, steps, final, gives⟩ := succeeds
      rcases List.mem_cons.mp there with rfl | later
      · exact absurd ⟨start, List.mem_singleton_self _, steps, final, gives⟩ own
      · obtain ⟨before, first, after, rfl, fails, succeeds⟩ :=
          ih ⟨start, later, steps, final, gives⟩
        refine ⟨thread :: before, first, after, rfl, ?_, succeeds⟩
        rintro ⟨start, there, gives⟩
        rcases List.mem_cons.mp there with rfl | later
        · exact own ⟨start, List.mem_singleton_self _, gives⟩
        · exact fails ⟨start, later, gives⟩

/-- Further threads behind some take nothing away from where these arrive. -/
theorem Arrives.more {upTo : List Char} {marks : List Mark}
    (arrives : Arrives code early late threads upTo marks) (others : List Thread) :
    Arrives code early late (threads ++ others) upTo marks := by
  have ahead (early late : List Char) (threads others : List Thread) :=
    ((follows_settle (front code) (.between early late) threads).front_alone
      (follows_settle (front code) (.between early late) (threads ++ others))).2
  induction arrives generalizing others with
  | here there stands => exact .here ((ahead _ _ _ others).subset there) stands
  | @later early rest upTo c threads marks _ ih =>
    obtain ⟨more, whole⟩ := ahead early (c :: rest) threads others
    have onward := ih (more.filterMap ((front code).advance c))
    rw [← List.filterMap_append, whole] at onward
    exact .later onward

section Preference

variable {text : List Char} {marks final : List Mark}

theorem opens_gives {next : Thread} {steps : Nat} (opened : next ∈ machine.opens place thread)
    (gives : Gives machine steps place next final) :
    Gives machine (steps + 1) place thread final := by
  unfold opens at opened
  split at opened
  · next instruction here => exact .move here opened gives
  · cases opened

theorem inside_append (code : List Instruction) (threads others : List Thread) :
    inside code (threads ++ others) = inside code threads ++ inside code others :=
  List.filter_append ..

/-- Threads that arrive at the end of the code come to acceptance, if the machine does from
there. -/
theorem succeeds_of_arrival (begins : Begins property code machine)
    (alike : Alike property (.between text []) (.between text tail))
    {steps : Nat} (accepts : Gives machine steps (.between text []) ⟨code.length, []⟩ final)
    (arrives : Arrives code text tail (inside code threads) text marks) :
    Succeeds machine (.between text []) threads := by
  cases arrives with
  | later onward =>
    have short := onward.prefix.length_le
    rw [List.length_append] at short
    exact absurd short (Nat.not_succ_le_self _)
  | @here _ _ _ thread there stands =>
    let lifts (thread : Thread) : Prop := thread.address ≤ code.length ∧ ∀ steps final,
      Gives machine steps (.between text []) thread final →
        Succeeds machine (.between text []) threads
    have opened (thread : Thread) (own : lifts thread) :
        ∀ next ∈ (front code).opens (.between text tail) thread, lifts next := by
      intro next opened
      rcases own.1.lt_or_eq with below | stands
      · rw [← begins.opens alike below] at opened
        exact ⟨begins.opens_within _ below next opened,
          fun steps final gives => own.2 _ _ (opens_gives opened gives)⟩
      · rw [opens_front_end stands] at opened
        cases opened
    have pending : ∀ thread ∈ inside code threads, lifts thread := by
      intro thread member
      obtain ⟨there, within⟩ := List.mem_filter.mp member
      exact ⟨of_decide_eq_true within,
        fun steps final gives => ⟨thread, there, steps, final, gives⟩⟩
    have all := ((follows_settle (front code) (.between text tail) (inside code threads)).preserves
      opened (fun _ absent => absurd absent List.not_mem_nil) pending).1
    obtain ⟨_, gives⟩ := accepts.anyMarks stands.symm
    exact (all thread there).2 _ _ gives

variable {others : List Thread}

/-- What the first threads at a place give when the text ends there comes from the arrival at that
place, if those behind the code give nothing. -/
theorem Reaches.ends_here (begins : Begins property code machine) (closes : Closes machine body)
    (forward : ∀ condition, property (.at condition) → condition ≠ .textEnd ∧ condition ≠ .lineEnd)
    (apart : wordOn tail.head? = false)
    (reaches : Reaches machine code body text tail (threads ++ others))
    (none : ∀ thread ∈ beyond code threads, ¬ Succeeds machine (.between text []) [thread])
    (arrives : Arrives code [] (text ++ tail) [{}] text marks) :
    ∀ shorter, machine.run text.length text.getLast? [] threads Option.none = some shorter →
      ∃ more steps, Gives machine steps (.between text []) ⟨code.length, []⟩ more ∧
        shorter = more ++ marks := by
  let good (shorter : List Mark) : Prop :=
    ∃ more steps, Gives machine steps (.between text []) ⟨code.length, []⟩ more ∧
      shorter = more ++ marks
  have known : Gain machine (.between text []) good (beyond code threads) :=
    fun thread member steps final gives =>
      absurd ⟨thread, List.mem_singleton_self _, steps, final, gives⟩ (none thread member)
  have arrivals : ∀ upTo rest marks', upTo ++ rest = text ++ [] →
      Arrives code text ([] ++ tail) (inside code threads) upTo marks' → ∀ thread : Thread,
        thread.address = code.length → thread.marks = marks' →
          Gain machine (.between upTo rest) good [thread] := by
    intro upTo rest marks' isText arrived thread stands isMarks other member steps final gives
    cases List.mem_singleton.mp member
    have length := congrArg List.length isText
    rw [List.length_append, List.length_append, List.length_nil] at length
    obtain rfl := arrived.prefix.eq_of_length_le (by omega)
    obtain rfl : rest = [] := List.append_cancel_left isText
    have whole := arrived.more (inside code others)
    rw [← inside_append] at whole
    obtain rfl := arrives.unique ((reaches.arrives text marks' List.prefix_rfl).mp whole)
    obtain ⟨more, rfl, onward⟩ := gives.shift
    have alone := onward ⟨code.length, []⟩ stands.symm
    rw [List.append_nil] at alone
    exact ⟨more, steps, alone, congrArg _ isMarks⟩
  exact run_arrives begins closes forward apart rfl
    (fun thread member => reaches.within thread (List.mem_append_left _ member)) known arrivals
    nofun

/-- What the first threads at a place give comes from arrivals elsewhere, if none of them arrives
there. -/
theorem Reaches.ends_elsewhere (begins : Begins property code machine)
    (closes : Closes machine body)
    (forward : ∀ condition, property (.at condition) → condition ≠ .textEnd ∧ condition ≠ .lineEnd)
    (reaches : Reaches machine code body text tail (threads ++ others))
    (none : ∀ marks, ¬ Arrives code text tail (inside code threads) text marks) :
    ∀ final, machine.run text.length text.getLast? tail threads Option.none = some final →
      ComesBy machine code (text ++ tail) (· ≠ text) final := by
  have known : Gain machine (.between text tail) (ComesBy machine code (text ++ tail) (· ≠ text))
      (beyond code threads) := by
    intro thread member steps final gives
    obtain ⟨there, past⟩ := List.mem_filter.mp member
    obtain ⟨upTo, rest, marks, more, steps, isText, earlier, others⟩ := reaches.comes thread
      (List.mem_filter.mpr ⟨List.mem_append_left _ there, past⟩) steps final gives
    refine ⟨upTo, rest, marks, more, steps, isText, ?_, others⟩
    rintro rfl
    exact Nat.lt_irrefl _ earlier
  have arrivals : ∀ upTo rest marks, upTo ++ rest = text ++ tail →
      Arrives code text (tail ++ []) (inside code threads) upTo marks → ∀ thread : Thread,
        thread.address = code.length → thread.marks = marks →
          Gain machine (.between upTo rest) (ComesBy machine code (text ++ tail) (· ≠ text))
            [thread] := by
    intro upTo rest marks isText arrived thread stands isMarks other member steps final gives
    cases List.mem_singleton.mp member
    rw [List.append_nil] at arrived
    have elsewhere : upTo ≠ text := by
      rintro rfl
      exact none marks arrived
    have whole := arrived.more (inside code others)
    rw [← inside_append] at whole
    obtain ⟨more, rfl, onward⟩ := gives.shift
    have alone := onward ⟨code.length, []⟩ stands.symm
    rw [List.append_nil] at alone
    exact ⟨upTo, rest, marks, more, steps, isText, elsewhere,
      (reaches.arrives upTo marks arrived.prefix).mp whole, alone, congrArg _ isMarks⟩
  have isEnd : wordOn ([] : List Char).head? = false := rfl
  exact run_arrives begins closes forward isEnd rfl
    (fun thread member => reaches.within thread (List.mem_append_left _ member)) known arrivals
    nofun

/-- When a text goes on, the machine comes to its answer by an arrival at one place. Then that is
where it arrives when the text ends there, if the threads behind its first part, which have taken
the last character, come to acceptance in the longer text when they do in the shorter one. -/
theorem Reaches.ends (begins : Begins property code machine) (closes : Closes machine body)
    (forward : ∀ condition, property (.at condition) → condition ≠ .textEnd ∧ condition ≠ .lineEnd)
    (apart : wordOn tail.head? = false) {steps : Nat} {ended : List Mark}
    (accepts : Gives machine steps (.between text []) ⟨code.length, []⟩ ended)
    (goesOn : ∀ thread : Thread, code.length < thread.address → thread.address ≤ body.length →
      (∃ address chars, machine.code[address]? = some (.take chars) ∧
        thread.address = address + 1) →
      Succeeds machine (.between text []) [thread] → Succeeds machine (.between text tail) [thread])
    (reaches : Reaches machine code body text tail threads)
    (arrives : Arrives code [] (text ++ tail) [{}] text marks)
    (found : machine.run text.length text.getLast? tail threads none = some final)
    (only : ¬ ComesBy machine code (text ++ tail) (· ≠ text) final) :
    ∃ shorter, machine.run text.length text.getLast? [] threads none = some shorter ∧
      ∃ more steps, Gives machine steps (.between text []) ⟨code.length, []⟩ more ∧
        shorter = more ++ marks := by
  have alike : Alike property (.between text []) (.between text ([] ++ tail)) :=
    alike_between forward apart text []
  obtain ⟨before, thread, after, rfl, fails, own⟩ := (succeeds_of_arrival begins alike accepts
    ((reaches.arrives text marks List.prefix_rfl).mpr arrives)).exists_first
  have there : thread ∈ before ++ thread :: after := by simp
  have split : before ++ thread :: after = (before ++ [thread]) ++ after := by simp
  have last : ∀ other ∈ [thread], other ∈ before ++ [thread] := fun _ => List.mem_append_right _
  rcases Nat.lt_or_ge code.length thread.address with past | inFront
  · -- The thread comes to acceptance in the longer text as well, and so by another arrival.
    have onward := goesOn thread past (reaches.within thread there)
      ((reaches.taken thread there).resolve_left (Nat.not_le_of_lt past)) own
    rw [split] at reaches found
    rw [run_front (onward.mono last) after none] at found
    refine absurd (reaches.ends_elsewhere begins closes forward (fun marks arrived => ?_)
      final found) only
    rw [inside_append, inside_cons_of_beyond past] at arrived
    change Arrives code text tail (inside code before ++ []) text marks at arrived
    rw [List.append_nil] at arrived
    exact fails (succeeds_of_arrival begins alike accepts arrived)
  · rw [split] at reaches ⊢
    rw [run_front (own.mono last) after none]
    obtain ⟨shorter, gives⟩ := Option.isSome_iff_exists.mp (run_succeeds (own.mono last))
    refine ⟨shorter, gives, reaches.ends_here begins closes forward apart (fun other member => ?_)
      arrives shorter gives⟩
    obtain ⟨member, past⟩ := List.mem_filter.mp member
    rcases List.mem_append.mp member with early | same
    · exact fun succeeds => fails (succeeds.mono (List.forall_mem_singleton.mpr early))
    · rw [List.mem_singleton.mp same] at past
      exact absurd (of_decide_eq_true past) (Nat.not_lt_of_le inFront)

end Preference

end ScriptBinding.Regex.Machine

import ScriptBinding.Proofs.MainThreadLoading
import ScriptBinding.Proofs.Placement

/-! # The jobs that wait

The host has done some jobs, and others wait for the main thread. A ledger says what is under the
tickets and which jobs wait; to submit a job to the host or to drain its queue is to do the same in
the ledger, as long as every ticket is used once.
-/

namespace ScriptBinding

/-- What is under tickets, and the jobs that wait. -/
structure Ledger where
  placed : Placement
  waiting : List Job

namespace Ledger

/-- What will be under tickets once the jobs that wait have been done. -/
def outcome (ledger : Ledger) : Placement :=
  Job.applyAll ledger.waiting ledger.placed

/-- What the jobs that wait put under tickets. -/
def puts (ledger : Ledger) : List (Nat × Binding) :=
  ledger.waiting.flatMap Job.puts

/-- Submit jobs: the main thread does them at once, and a worker lets them wait. -/
def submit (thread : Thread) (jobs : List Job) (ledger : Ledger) : Ledger :=
  match thread with
  | .main => { ledger with placed := Job.applyAll jobs ledger.placed }
  | .worker => { ledger with waiting := ledger.waiting ++ jobs }

/-- Do the jobs that wait. -/
def drain (ledger : Ledger) : Ledger :=
  ⟨ledger.outcome, []⟩

/-- A binding is under a ticket, or a job that waits puts it there. -/
def Has (ledger : Ledger) (ticket : Nat) (binding : Binding) : Prop :=
  ledger.placed ticket binding ∨ (ticket, binding) ∈ ledger.puts

/-- No job that waits takes back what is under a ticket. -/
def Keeps (ledger : Ledger) (ticket : Nat) : Prop :=
  ∀ job ∈ ledger.waiting, ∀ binding, job.takes ticket binding = false

variable {ledger : Ledger} {jobs : List Job} {thread : Thread} {ticket : Nat} {binding : Binding}

theorem mem_puts : (ticket, binding) ∈ ledger.puts ↔
    ∃ job ∈ ledger.waiting, (ticket, binding) ∈ job.puts :=
  List.mem_flatMap

theorem has_of_outcome (after : ledger.outcome ticket binding) : ledger.Has ticket binding :=
  (Job.placed_of_applyAll after).imp_right mem_puts.mpr

/-- Under a ticket that no job takes back, everything stays. -/
theorem Keeps.outcome_iff (keeps : ledger.Keeps ticket) :
    ledger.outcome ticket binding ↔ ledger.Has ticket binding :=
  (Job.applyAll_iff fun job member => keeps job member binding).trans
    (or_congr_right mem_puts.symm)

theorem has_submit (has : (ledger.submit thread jobs).Has ticket binding) :
    ledger.Has ticket binding ∨ ∃ job ∈ jobs, (ticket, binding) ∈ job.puts := by
  cases thread with
  | main =>
    rcases has with after | waits
    · exact (Job.placed_of_applyAll after).imp_left Or.inl
    · exact Or.inl (Or.inr waits)
  | worker =>
    rcases has with before | waits
    · exact Or.inl (Or.inl before)
    · obtain ⟨job, member, put⟩ := mem_puts.mp waits
      rcases List.mem_append.mp member with old | new
      · exact Or.inl (Or.inr (mem_puts.mpr ⟨job, old, put⟩))
      · exact Or.inr ⟨job, new, put⟩

theorem has_drain (has : ledger.drain.Has ticket binding) : ledger.outcome ticket binding :=
  has.elim id fun waits => absurd waits List.not_mem_nil

theorem submit_nil : ledger.submit thread [] = ledger := by
  cases thread with
  | main => rfl
  | worker => exact congrArg _ (List.append_nil _)

theorem submit_append (jobs others : List Job) :
    ledger.submit thread (jobs ++ others) = (ledger.submit thread jobs).submit thread others := by
  cases thread with
  | main => exact congrArg (Ledger.mk · ledger.waiting) (Job.applyAll_append jobs others _)
  | worker => exact congrArg _ (List.append_assoc _ _ _).symm

/-- What jobs do not touch comes out as before. -/
theorem outcome_submit_of_apart (noPuts : ∀ job ∈ jobs, (ticket, binding) ∉ job.puts)
    (noTakes : ∀ job ∈ jobs, job.takes ticket binding = false) :
    (ledger.submit thread jobs).outcome ticket binding ↔ ledger.outcome ticket binding := by
  have same {placed : Placement} :
      Job.applyAll jobs placed ticket binding ↔ placed ticket binding := by
    rw [Job.applyAll_iff noTakes, or_iff_left]
    rintro ⟨job, member, put⟩
    exact noPuts job member put
  cases thread with
  | main => exact Job.applyAll_congr same
  | worker =>
    change Job.applyAll (ledger.waiting ++ jobs) ledger.placed ticket binding ↔ _
    rw [Job.applyAll_append]
    exact same

/-- What jobs do not put there comes out as before, if it is there and they do not take it back. -/
theorem outcome_submit_iff (noPuts : ∀ job ∈ jobs, (ticket, binding) ∉ job.puts)
    (noTakes : ledger.Has ticket binding → ∀ job ∈ jobs, job.takes ticket binding = false) :
    (ledger.submit thread jobs).outcome ticket binding ↔ ledger.outcome ticket binding := by
  by_cases has : ledger.Has ticket binding
  · exact outcome_submit_of_apart noPuts (noTakes has)
  · refine iff_of_false (fun after => ?_) fun before => has (has_of_outcome before)
    rcases has_submit (has_of_outcome after) with before | ⟨job, member, put⟩
    · exact has before
    · exact noPuts job member put

/-- What jobs take back is not there in the end, unless the main thread does them at once and a job
that waits puts it there. -/
theorem outcome_submit_of_taken (noPuts : ∀ job ∈ jobs, (ticket, binding) ∉ job.puts)
    (keeps : ledger.Has ticket binding → ∀ job ∈ ledger.waiting,
      job.takes ticket binding = false)
    (taken : ledger.Has ticket binding → ∃ job ∈ jobs, job.takes ticket binding = true) :
    (ledger.submit thread jobs).outcome ticket binding ↔
      thread = .main ∧ (ticket, binding) ∈ ledger.puts := by
  by_cases has : ledger.Has ticket binding
  · cases thread with
    | main =>
      rw [and_iff_right rfl]
      refine (Job.applyAll_iff (keeps has)).trans ((or_iff_right ?_).trans mem_puts.symm)
      exact Job.not_applyAll noPuts (taken has)
    | worker =>
      refine iff_of_false ?_ fun left => nomatch left.1
      change ¬ Job.applyAll (ledger.waiting ++ jobs) ledger.placed ticket binding
      rw [Job.applyAll_append]
      exact Job.not_applyAll noPuts (taken has)
  · refine iff_of_false (fun after => ?_) fun left => has (Or.inr left.2)
    rcases has_submit (has_of_outcome after) with before | ⟨job, member, put⟩
    · exact has before
    · exact noPuts job member put

end Ledger

/-- What a task does itself. -/
def Work.action {α : Type} : Work α → α
  | .mk action _ => action

/-- The jobs that wait for the main thread. -/
def Host.queued (host : Host) : List Job :=
  host.queue.waiting.map Work.action

/-- The host shows what is in a ledger, and what waits has been handed out and not been used. -/
structure Host.Follows (host : Host) (ledger : Ledger) : Prop where
  carries : host.Carries ledger.placed
  queue : host.queue.waiting = ledger.waiting.map Work.single
  admits : host.Admits ledger.placed ledger.puts
  used : ∀ ticket binding, ledger.Has ticket binding → ticket < host.nextTicket
  unused : ∀ ticket, host.nextTicket ≤ ticket → host.registrations ticket = {}

/-- A job puts bindings only under tickets that have been handed out and not been used. -/
structure Host.Permits (host : Host) (ledger : Ledger) (puts : List (Nat × Binding)) : Prop where
  distinct : (puts.map Prod.fst).Nodup
  free : ∀ ticket binding, (ticket, binding) ∈ puts → ∀ other, ¬ ledger.Has ticket other
  used : ∀ ticket binding, (ticket, binding) ∈ puts → ticket < host.nextTicket
  unused : ∀ ticket binding, (ticket, binding) ∈ puts → host.registrations ticket = {}

namespace Host

/-- A job that only takes back is always permitted. -/
theorem Permits.of_nil {host : Host} {ledger : Ledger} : host.Permits ledger [] where
  distinct := List.nodup_nil
  free := fun _ _ member => absurd member List.not_mem_nil
  used := fun _ _ member => absurd member List.not_mem_nil
  unused := fun _ _ member => absurd member List.not_mem_nil

/-- What no job changes. -/
structure JobStep (before after : Host) : Prop where
  config : after.config = before.config
  classes : after.classes = before.classes
  functions : after.functions = before.functions
  store : after.store = before.store
  queue : after.queue = before.queue
  nextTicket : after.nextTicket = before.nextTicket

theorem JobStep.refl (host : Host) : host.JobStep host := by
  constructor <;> rfl

theorem JobStep.trans {first second third : Host} (before : first.JobStep second)
    (after : second.JobStep third) : first.JobStep third where
  config := after.config.trans before.config
  classes := after.classes.trans before.classes
  functions := after.functions.trans before.functions
  store := after.store.trans before.store
  queue := after.queue.trans before.queue
  nextTicket := after.nextTicket.trans before.nextTicket

theorem BusStep.jobStep {before after : Host} (step : before.BusStep after) :
    before.JobStep after :=
  ⟨step.config, step.classes, step.functions, step.store, step.queue, step.nextTicket⟩

theorem CommandStep.jobStep {before after : Host} (step : before.CommandStep after) :
    before.JobStep after :=
  ⟨step.config, step.classes, step.functions, step.store, step.queue, step.nextTicket⟩

theorem perform_step (job : Job) (host : Host) : host.JobStep (host.perform job) := by
  cases job with
  | bind script drafts => exact (perform_bind script drafts host).1.jobStep
  | unbind ticket =>
    change host.JobStep (host.unbind ticket)
    cases found : host.bound ticket with
    | none =>
      rw [unbind_of_none found]
      exact .refl host
    | some trigger => exact (unbind_of_some found).1.jobStep
  | register ticket command => exact (registerUnder_spec ticket command host).1.jobStep
  | unregister ticket =>
    change host.JobStep (host.unregisterUnder ticket)
    cases found : (host.registrations ticket).registered with
    | none =>
      rw [unregisterUnder_of_none found]
      exact .refl host
    | some command => exact (unregisterUnder_of_some found).1.jobStep

theorem submit_nextTicket (thread : Thread) (job : Job) (host : Host) :
    (host.submit thread job).nextTicket = host.nextTicket := by
  cases thread with
  | main =>
    rw [submit_main]
    exact (perform_step job host).nextTicket
  | worker => rw [submit_worker]

theorem performAll_step (jobs : List Job) (host : Host) :
    host.JobStep (jobs.foldl perform host) := by
  induction jobs generalizing host with
  | nil => exact .refl host
  | cons job others ih => exact (perform_step job host).trans (ih (host.perform job))

theorem performAll_unused {jobs : List Job} {host : Host} {ticket : Nat}
    (absent : ∀ job ∈ jobs, ∀ binding, (ticket, binding) ∉ job.puts)
    (unused : host.registrations ticket = {}) :
    (jobs.foldl perform host).registrations ticket = {} := by
  induction jobs generalizing host with
  | nil => exact unused
  | cons job others ih =>
    exact ih (fun other member => absent other (List.mem_cons_of_mem _ member))
      (perform_unused (absent job List.mem_cons_self) unused)

end Host

theorem JobQueue.drainAll_single {α : Type} (actions : List α) :
    (drainAll (actions.map Work.single)).done = actions := by
  induction actions with
  | nil =>
    unfold drainAll
    rfl
  | cons action others ih =>
    rw [List.map_cons, drainAll]
    simp only [Work.single, Work.run, Work.run.runAll, List.append_nil, List.singleton_append,
      List.cons.injEq, true_and]
    exact ih

/-- To drain a queue of jobs is to do them, one after the other. -/
theorem Host.runPending_main {host : Host} {jobs : List Job}
    (waiting : host.queue.waiting = jobs.map Work.single) :
    (host.runPending .main).2 =
      (jobs.foldl perform { host with queue := host.queue.drain.2 }).write [] := by
  have done : host.queue.drain.1.done = jobs := by
    unfold JobQueue.drain
    rw [waiting]
    exact JobQueue.drainAll_single jobs
  unfold runPending JobQueue.drainOn
  dsimp only
  rw [done]

namespace Host.Follows

variable {host after : Host} {ledger : Ledger} {job : Job}

/-- A host whose tables are new has nothing under tickets. -/
theorem emptied (host : Host) :
    Host.Follows { host with
      bus := {}
      commands := {}
      queue := {}
      bound := fun _ => none
      registrations := fun _ => {}
      nextTicket := 0 } ⟨fun _ _ => False, []⟩ := by
  refine ⟨⟨?_, nofun, ?_, ?_, .empty, nofun, nofun⟩, rfl, ?_, ?_, fun _ _ => rfl⟩
  · exact fun _ _ => ⟨nofun, nofun⟩
  · exact fun _ => ⟨nofun, nofun⟩
  · exact fun _ => ⟨nofun, nofun⟩
  · exact ⟨List.nodup_nil, nofun, nofun⟩
  · exact fun _ _ has => nomatch has

theorem new : ({} : Host).Follows ⟨fun _ _ => False, []⟩ :=
  emptied {}

theorem queued (follows : host.Follows ledger) : host.queued = ledger.waiting := by
  rw [Host.queued, follows.queue, List.map_map]
  exact List.map_id _

theorem of_same (follows : host.Follows ledger) (config : after.config = host.config)
    (bus : after.bus = host.bus) (commands : after.commands = host.commands)
    (queue : after.queue = host.queue) (bound : after.bound = host.bound)
    (registrations : after.registrations = host.registrations)
    (later : host.nextTicket ≤ after.nextTicket) : after.Follows ledger where
  carries := follows.carries.of_same config bus commands bound registrations
  queue := queue ▸ follows.queue
  admits := ⟨follows.admits.distinct, follows.admits.free, by
    rw [registrations]
    exact follows.admits.unused⟩
  used := fun ticket binding has => Nat.lt_of_lt_of_le (follows.used ticket binding has) later
  unused := by
    rw [registrations]
    exact fun ticket above => follows.unused ticket (Nat.le_trans later above)

theorem of_quiet {before after : Workspace} (follows : before.host.Follows ledger)
    (quiet : before.Quiet after) : after.host.Follows ledger :=
  follows.of_same quiet.steady.config quiet.steady.bus quiet.commands quiet.queue quiet.steady.bound
    quiet.registrations quiet.steady.nextTicket.ge

/-- To submit a job to the host is to submit it in the ledger. -/
theorem submit (thread : Thread) (follows : host.Follows ledger)
    (permits : host.Permits ledger job.puts) :
    (host.submit thread job).Follows (ledger.submit thread [job]) := by
  have used {other : Nat} {binding : Binding}
      (has : (ledger.submit thread [job]).Has other binding) : other < host.nextTicket := by
    rcases Ledger.has_submit has with before | ⟨same, member, put⟩
    · exact follows.used other binding before
    · rw [List.mem_singleton.mp member] at put
      exact permits.used other binding put
  cases thread with
  | main =>
    have step := perform_step job host
    rw [submit_main]
    refine ⟨follows.carries.perform ⟨permits.distinct, ?_, permits.unused⟩, ?_,
      follows.admits.perform ?_, ?_, ?_⟩
    · exact fun ticket binding put other before =>
        permits.free ticket binding put other (Or.inl before)
    · rw [step.queue]
      exact follows.queue
    · intro ticket binding waits other put
      exact permits.free ticket other put binding (Or.inr waits)
    · rw [step.nextTicket]
      exact fun _ _ => used
    · intro ticket above
      rw [step.nextTicket] at above
      refine perform_unused (fun binding put => ?_) (follows.unused ticket above)
      exact absurd (permits.used ticket binding put) (Nat.not_lt.mpr above)
  | worker =>
    rw [submit_worker]
    refine ⟨follows.carries.of_same rfl rfl rfl rfl rfl, ?_, ?_, fun _ _ => used, follows.unused⟩
    · change host.queue.waiting ++ [.single job] = (ledger.waiting ++ [job]).map Work.single
      rw [follows.queue, List.map_append]
      rfl
    · have whole : (ledger.submit .worker [job]).puts = ledger.puts ++ job.puts := by
        change (ledger.waiting ++ [job]).flatMap Job.puts = _
        rw [List.flatMap_append, List.flatMap_singleton]
        rfl
      rw [whole]
      refine ⟨?_, ?_, ?_⟩
      · rw [List.map_append]
        refine List.nodup_append.mpr ⟨follows.admits.distinct, permits.distinct, ?_⟩
        rintro ticket old _ new rfl
        obtain ⟨⟨_, binding⟩, waits, rfl⟩ := List.mem_map.mp old
        obtain ⟨⟨_, other⟩, put, rfl⟩ := List.mem_map.mp new
        exact permits.free _ other put binding (Or.inr waits)
      · intro ticket binding member other before
        rcases List.mem_append.mp member with old | new
        · exact follows.admits.free ticket binding old other before
        · exact permits.free ticket binding new other (Or.inl before)
      · intro ticket binding member
        exact (List.mem_append.mp member).elim (follows.admits.unused ticket binding)
          (permits.unused ticket binding)

/-- To drain the queue on the main thread is to do the jobs that wait in the ledger. -/
theorem drain (follows : host.Follows ledger) : (host.runPending .main).2.Follows ledger.drain := by
  let emptied : Host := { host with queue := host.queue.drain.2 }
  have whole : (host.runPending .main).2 = (ledger.waiting.foldl perform emptied).write [] :=
    runPending_main follows.queue
  have step := performAll_step ledger.waiting emptied
  have carries : emptied.Carries ledger.placed := follows.carries.of_same rfl rfl rfl rfl rfl
  have admits : emptied.Admits ledger.placed ledger.puts :=
    ⟨follows.admits.distinct, follows.admits.free, follows.admits.unused⟩
  have noneWaits : ledger.drain.puts = [] := rfl
  rw [whole]
  refine ⟨(carries.performAll admits).of_same rfl rfl rfl rfl rfl, ?_, ?_, ?_, ?_⟩
  · change (ledger.waiting.foldl perform emptied).queue.waiting = []
    rw [step.queue]
    rfl
  · rw [noneWaits]
    exact ⟨List.nodup_nil, fun _ _ member => absurd member List.not_mem_nil,
      fun _ _ member => absurd member List.not_mem_nil⟩
  · intro ticket binding has
    change ticket < (ledger.waiting.foldl perform emptied).nextTicket
    rw [step.nextTicket]
    exact follows.used ticket binding (Ledger.has_of_outcome (Ledger.has_drain has))
  · intro ticket above
    change (ledger.waiting.foldl perform emptied).nextTicket ≤ ticket at above
    rw [step.nextTicket] at above
    refine performAll_unused (fun job member binding put => ?_) (follows.unused ticket above)
    have has : ledger.Has ticket binding := Or.inr (Ledger.mem_puts.mpr ⟨job, member, put⟩)
    exact absurd (follows.used ticket binding has) (Nat.not_lt.mpr above)

/-- To take note of a refusal is to take the command back in the ledger. -/
theorem takeRefusal {ticket : Nat} {text : String} (follows : host.Follows ledger)
    (refused : (host.registrations ticket).refusal = some text) :
    (host.takeRefusal ticket).2.Follows (ledger.submit .main [.unregister ticket]) := by
  obtain ⟨step, _, commands, registrations⟩ := takeRefusal_spec ticket host
  have stays {other : Nat} (unused : host.registrations other = {}) :
      (host.takeRefusal ticket).2.registrations other = {} := by
    have apart : other ≠ ticket := by
      rintro rfl
      rw [unused] at refused
      cases refused
    rw [registrations, Function.update_of_ne apart, unused]
  refine ⟨follows.carries.takeRefusal refused, ?_, ⟨follows.admits.distinct, ?_, ?_⟩, ?_, ?_⟩
  · rw [step.queue]
    exact follows.queue
  · rintro other binding waits kept (put | ⟨before, _⟩)
    · exact absurd put List.not_mem_nil
    · exact follows.admits.free other binding waits kept before
  · exact fun other binding waits => stays (follows.admits.unused other binding waits)
  · intro other binding has
    rw [step.nextTicket]
    rcases Ledger.has_submit has with before | ⟨same, member, put⟩
    · exact follows.used other binding before
    · rw [List.mem_singleton.mp member] at put
      exact absurd put List.not_mem_nil
  · intro other above
    rw [step.nextTicket] at above
    exact stays (follows.unused other above)

end Host.Follows

namespace Host.Permits

variable {host after : Host} {ledger : Ledger} {puts : List (Nat × Binding)} {job : Job}

theorem of_same (permits : host.Permits ledger puts)
    (registrations : after.registrations = host.registrations)
    (later : host.nextTicket ≤ after.nextTicket) : after.Permits ledger puts where
  distinct := permits.distinct
  free := permits.free
  used := fun ticket binding put => (permits.used ticket binding put).trans_le later
  unused := by
    rw [registrations]
    exact permits.unused

/-- Bindings stay permitted when a job is submitted that puts nothing under their tickets. -/
theorem submit (thread : Thread) (permits : host.Permits ledger puts)
    (apart : ∀ ticket binding, (ticket, binding) ∈ puts → ∀ other, (ticket, other) ∉ job.puts) :
    (host.submit thread job).Permits (ledger.submit thread [job]) puts where
  distinct := permits.distinct
  free := by
    intro ticket binding put other has
    rcases Ledger.has_submit has with before | ⟨same, member, now⟩
    · exact permits.free ticket binding put other before
    · rw [List.mem_singleton.mp member] at now
      exact apart ticket binding put other now
  used := by
    rw [submit_nextTicket]
    exact permits.used
  unused := by
    intro ticket binding put
    cases thread with
    | main =>
      rw [submit_main]
      exact perform_unused (apart ticket binding put) (permits.unused ticket binding put)
    | worker =>
      rw [submit_worker]
      exact permits.unused ticket binding put

/-- Bindings stay permitted when the queue is drained. -/
theorem drain (permits : host.Permits ledger puts) (follows : host.Follows ledger) :
    (host.runPending .main).2.Permits ledger.drain puts := by
  rw [runPending_main follows.queue]
  refine ⟨permits.distinct, ?_, ?_, ?_⟩
  · exact fun ticket binding put other has =>
      permits.free ticket binding put other (Ledger.has_of_outcome (Ledger.has_drain has))
  · intro ticket binding put
    refine (permits.used ticket binding put).trans_eq ?_
    exact (performAll_step ledger.waiting { host with queue := host.queue.drain.2 }).nextTicket.symm
  · intro ticket binding put
    refine performAll_unused (fun job member other now => ?_) (permits.unused ticket binding put)
    exact permits.free ticket binding put other (Or.inr (Ledger.mem_puts.mpr ⟨job, member, now⟩))

/-- Bindings stay permitted when a refusal is taken note of. -/
theorem takeRefusal {ticket : Nat} {text : String} (permits : host.Permits ledger puts)
    (refused : (host.registrations ticket).refusal = some text) :
    (host.takeRefusal ticket).2.Permits (ledger.submit .main [.unregister ticket]) puts := by
  obtain ⟨step, _, _, registrations⟩ := takeRefusal_spec ticket host
  refine ⟨permits.distinct, ?_, ?_, ?_⟩
  · intro other binding put kept has
    rcases Ledger.has_submit has with before | ⟨job, member, now⟩
    · exact permits.free other binding put kept before
    · rw [List.mem_singleton.mp member] at now
      exact absurd now List.not_mem_nil
  · rw [step.nextTicket]
    exact permits.used
  · intro other binding put
    have apart : other ≠ ticket := by
      rintro rfl
      rw [permits.unused other binding put] at refused
      cases refused
    rw [registrations, Function.update_of_ne apart, permits.unused other binding put]

end Host.Permits

end ScriptBinding

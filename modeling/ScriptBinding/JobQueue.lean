import ScriptBinding.Failure

/-! # Work for the main thread

Some work belongs to the main thread. Submitted there it runs at once; submitted by a worker it
waits in a queue until the main thread drains it, and then runs in the order of submission.
-/

namespace ScriptBinding

/-- Where something happens. -/
inductive Thread where
  | main
  | worker
deriving DecidableEq, Repr

/-- A piece of work, and what it submits when it runs, each from its own thread or from a worker. -/
inductive Work (α : Type) where
  | mk (action : α) (submissions : List (Thread × Work α))

namespace Work

variable {α : Type}

/-- A task that submits nothing. -/
def single (action : α) : Work α :=
  .mk action []

instance [Inhabited α] : Inhabited (Work α) := ⟨single default⟩

/-- The number of pieces of work in a task and what it submits. -/
def size : Work α → Nat
  | .mk _ submissions => 1 + sizes submissions
where
  /-- The number of pieces of work in submissions. -/
  sizes : List (Thread × Work α) → Nat
    | [] => 0
    | (_, task) :: others => size task + sizes others

/-- Run a task on the main thread: what is done, in order, and the tasks that are left for the
queue. -/
def run : Work α → List α × List (Work α)
  | .mk action submissions =>
    let (done, queued) := runAll submissions
    (action :: done, queued)
where
  /-- Make submissions one after the other. -/
  runAll : List (Thread × Work α) → List α × List (Work α)
    | [] => ([], [])
    | (thread, task) :: others =>
      let (done, queued) := match thread with
        | .main => run task
        | .worker => ([], [task])
      let (doneLater, queuedLater) := runAll others
      (done ++ doneLater, queued ++ queuedLater)

/-- The number of pieces of work in a list of tasks. -/
def total : List (Work α) → Nat
  | [] => 0
  | task :: others => task.size + total others

@[simp] theorem total_nil : total ([] : List (Work α)) = 0 := rfl

@[simp] theorem total_cons (task : Work α) (tasks : List (Work α)) :
    total (task :: tasks) = task.size + total tasks := rfl

@[simp] theorem total_append (tasks others : List (Work α)) :
    total (tasks ++ others) = total tasks + total others := by
  induction tasks with
  | nil => simp
  | cons task tasks ih => simp [ih, Nat.add_assoc]

mutual

/-- A task leaves less work than it held: every piece has been done or waits. -/
theorem length_run (task : Work α) :
    task.run.1.length + total task.run.2 = task.size := by
  match task with
  | .mk action submissions =>
    have rest := length_runAll submissions
    simp only [run, size, List.length_cons]
    omega

/-- No piece of submitted work is lost or repeated. -/
theorem length_runAll (submissions : List (Thread × Work α)) :
    (run.runAll submissions).1.length + total (run.runAll submissions).2 =
      size.sizes submissions := by
  match submissions with
  | [] => simp [run.runAll, size.sizes]
  | (.main, task) :: others =>
    have first := length_run task
    have rest := length_runAll others
    simp only [run.runAll, size.sizes, List.length_append, total_append]
    omega
  | (.worker, task) :: others =>
    have rest := length_runAll others
    simp only [run.runAll, size.sizes, List.length_append, total_append, List.length_nil,
      total_cons, total_nil]
    omega

end

/-- Running a task does at least one piece of work. -/
theorem total_run_lt (task : Work α) : total task.run.2 < task.size := by
  have whole := length_run task
  have : 0 < task.run.1.length := by
    match task with
    | .mk action submissions => simp [run]
  omega

end Work

/-- The work that waits for the main thread. -/
structure JobQueue (α : Type) where
  waiting : List (Work α) := []
  /-- How many tasks have ever been queued. -/
  submitted : Nat := 0

namespace JobQueue

variable {α : Type}

/-- The number of tasks that wait. -/
def pending (queue : JobQueue α) : Nat :=
  queue.waiting.length

/-- Put tasks behind those that wait. -/
def enqueue (tasks : List (Work α)) (queue : JobQueue α) : JobQueue α :=
  ⟨queue.waiting ++ tasks, queue.submitted + tasks.length⟩

/-- Submit a task: what is done at once, and the queue afterwards. -/
def submit (thread : Thread) (task : Work α) (queue : JobQueue α) : List α × JobQueue α :=
  match thread with
  | .main => (task.run.1, queue.enqueue task.run.2)
  | .worker => ([], queue.enqueue [task])

/-- What draining a queue has done. -/
structure Drained (α : Type) where
  /-- The work in the order in which it was done. -/
  done : List α := []
  /-- The number of queued tasks that were run. -/
  count : Nat := 0
  /-- The number of tasks that were queued meanwhile. -/
  queued : Nat := 0

/-- Run waiting tasks, and those they queue, until none is left. -/
def drainAll : List (Work α) → Drained α
  | [] => {}
  | task :: others =>
    let rest := drainAll (others ++ task.run.2)
    ⟨task.run.1 ++ rest.done, rest.count + 1, rest.queued + task.run.2.length⟩
termination_by tasks => Work.total tasks
decreasing_by
  have less := Work.total_run_lt task
  simp only [Work.total_append, Work.total_cons]
  omega

/-- Drain the queue on the main thread. -/
def drain (queue : JobQueue α) : Drained α × JobQueue α :=
  let drained := drainAll queue.waiting
  (drained, ⟨[], queue.submitted + drained.queued⟩)

/-- Drain the queue, which only the main thread can; a worker leaves a warning instead. -/
def drainOn (thread : Thread) (queue : JobQueue α) : Drained α × List LogEntry × JobQueue α :=
  match thread with
  | .main => (queue.drain.1, [], queue.drain.2)
  | .worker => ({}, [⟨.warn, "run_pending called off the main thread, ignoring"⟩], queue)

end JobQueue

end ScriptBinding

import ScriptBinding.Proofs.FinishedScripts

/-! # Loading scripts on a worker

A script that is loaded on a worker changes no table of the host but that of the functions. Every
command structure that is loaded has handed its command over, in a job that waits behind the others.
-/

namespace ScriptBinding

/-- The job that registers a command that has been handed over. -/
def Job.ofCommand (handed : Nat × Command) : Job :=
  .register handed.1 handed.2

/-- Commands have been handed over to the main thread, and nothing else has been. -/
structure Host.Hands (handed : List (Nat × Command)) (before after : Host) : Prop where
  commands : after.commands = before.commands
  registrations : after.registrations = before.registrations
  queue : after.queue.waiting =
    before.queue.waiting ++ (handed.map Job.ofCommand).map Work.single

namespace Host.Hands

theorem refl (host : Host) : host.Hands [] host :=
  ⟨rfl, rfl, (List.append_nil _).symm⟩

theorem trans {first second third : Host} {handed others : List (Nat × Command)}
    (before : first.Hands handed second) (after : second.Hands others third) :
    first.Hands (handed ++ others) third where
  commands := after.commands.trans before.commands
  registrations := after.registrations.trans before.registrations
  queue := by
    rw [after.queue, before.queue, List.map_append, List.map_append, List.append_assoc]

theorem of_untouched {before after : Workspace} (untouched : before.Untouched after) :
    before.host.Hands [] after.host :=
  ⟨untouched.commands, untouched.registrations, by
    rw [untouched.queue, List.map_nil, List.map_nil, List.append_nil]⟩

theorem of_quiet {before after : Workspace} (quiet : before.Quiet after) :
    before.host.Hands [] after.host :=
  ⟨quiet.commands, quiet.registrations, by
    rw [quiet.queue, List.map_nil, List.map_nil, List.append_nil]⟩

end Host.Hands

namespace CommandStructure

variable {script : Script} {workspace : Workspace}

/-- A worker lets the job that registers a command wait, and takes the command as accepted. -/
theorem submit_worker (loaded : Command) (ticket : Nat) (workspace : Workspace)
    (unused : workspace.host.registrations ticket = {}) :
    ∃ host, workspace.host.CommandStep { host with queue := workspace.host.queue } ∧
      workspace.host.Hands [(ticket, loaded)] host ∧
      submit .worker loaded ticket workspace =
        (.ok (), ({ workspace with host } : Workspace).inContext fun context =>
          (context.declareCommand loaded.name).updateInfo (count loaded.name)) := by
  let queued := workspace.submit .worker (.register ticket loaded)
  obtain ⟨step, refusal, commands, registrations⟩ := Host.takeRefusal_spec ticket queued.host
  have same : queued.host.registrations = workspace.host.registrations := rfl
  have noRefusal : (queued.host.takeRefusal ticket).1 = none := by
    rw [refusal, same, unused]
  have kept : (queued.host.takeRefusal ticket).2.registrations = workspace.host.registrations := by
    rw [registrations, same, unused, Function.update_eq_iff]
    exact ⟨unused.symm, fun _ _ => rfl⟩
  refine ⟨(queued.host.takeRefusal ticket).2, ?_, ⟨commands, kept, rfl⟩, ?_⟩
  · constructor <;> rfl
  · unfold submit
    dsimp only
    split
    · next refused => cases noRefusal.symm.trans refused
    · rfl

/-- What loading a command on a worker comes to: it fails and hands nothing over, or hands the
command over under its ticket. -/
theorem load_worker (command : CommandStructure)
    (current : workspace.context.script = some script)
    (unused : workspace.host.registrations command.ticket = {}) :
    (∃ failure, (command.load .worker workspace).1 = .error failure ∧
        workspace.host.Hands [] (command.load .worker workspace).2.host) ∨
      ∃ loaded : Command, (command.load .worker workspace).1 =
          .ok { command with name := some loaded.name } ∧ loaded.script = script ∧
        workspace.host.Hands [(command.ticket, loaded)]
          (command.load .worker workspace).2.host := by
  rcases command.load_cases .worker current with ⟨failure, after, still, same⟩ |
    ⟨loaded, after, owner, still, same⟩
  · rw [same]
    exact Or.inl ⟨failure, rfl, .of_untouched still.untouched⟩
  · obtain ⟨host, _, hands, submitted⟩ := submit_worker loaded command.ticket after
      (by rw [still.untouched.registrations]; exact unused)
    rw [same, submitted]
    exact Or.inr ⟨loaded, rfl, owner, (Host.Hands.of_untouched still.untouched).trans hands⟩

end CommandStructure

namespace Structure

/-- What loading a structure on a worker hands over: its command, if it has one and loading it
succeeds. -/
structure HandsOver (script : Script) (inner : Structure) (before : Workspace)
    (result : Outcome Unit × Structure × Workspace) (handed : List (Nat × Command)) : Prop where
  hands : before.host.Hands handed result.2.2.host
  owners : ∀ order ∈ handed, order.2.script = script
  done : result.1 = .done () → handed.map Prod.fst = inner.commandTicket?.toList
  failed : result.1 ≠ .done () → handed = []

variable {script : Script} {workspace : Workspace}

theorem HandsOver.of_untouched {inner after : Structure} {outcome : Outcome Unit}
    {final : Workspace} (noCommand : inner.commandTicket? = none)
    (untouched : workspace.Untouched final) :
    HandsOver script inner workspace (outcome, after, final) [] where
  hands := .of_untouched untouched
  owners := fun _ member => absurd member List.not_mem_nil
  done := fun _ => by
    rw [noCommand]
    rfl
  failed := fun _ => rfl

theorem load_worker (inner : Structure) (current : workspace.context.script = some script)
    (unused : ∀ ticket ∈ inner.commandTicket?, workspace.host.registrations ticket = {}) :
    ∃ handed, HandsOver script inner workspace (inner.load .worker workspace) handed := by
  cases inner with
  | options inner => exact ⟨[], .of_untouched rfl (inner.apply_still workspace).untouched⟩
  | aliases => exact ⟨[], .of_untouched rfl (.refl workspace)⟩
  | defaults inner => exact ⟨[], .of_untouched rfl (.refl workspace)⟩
  | event inner => exact ⟨[], .of_untouched rfl (.refl workspace)⟩
  | custom inner => exact ⟨[], .of_untouched rfl (inner.respond_still .load workspace).untouched⟩
  | function inner => exact ⟨[], .of_untouched rfl (inner.load_untouched workspace).1⟩
  | command inner =>
    have result := inner.load_worker current (unused inner.ticket rfl)
    dsimp only [load]
    generalize inner.load .worker workspace = loads at *
    obtain ⟨outcome, final⟩ := loads
    rcases result with ⟨failure, rfl, hands⟩ | ⟨loaded, rfl, owner, hands⟩
    · exact ⟨[], hands, fun _ member => absurd member List.not_mem_nil, nofun, fun _ => rfl⟩
    · refine ⟨[(inner.ticket, loaded)], hands, ?_, fun _ => rfl, fun failed => absurd rfl failed⟩
      intro order member
      rw [List.mem_singleton.mp member]
      exact owner

end Structure

namespace Loading

variable {Possible : EventFilter → Prop} {registry : Registry} {script : Script}
  {workspace : Workspace}

/-- What a pass of loading on a worker hands over: the commands of the structures that are loaded
then. -/
structure HandPass (script : Script) (before : Workspace) (results : List LoadedStructure)
    (after : Workspace) (handed : List (Nat × Command)) : Prop where
  hands : before.host.Hands handed after.host
  owners : ∀ order ∈ handed, order.2.script = script
  tickets : handed.map Prod.fst = commandTicketsOf (results.filter (·.loaded))

theorem HandPass.cons {first : LoadedStructure} {others : List LoadedStructure}
    {before between after : Workspace} {handed later : List (Nat × Command)}
    (one : HandPass script before [first] between handed)
    (rest : HandPass script between others after later) :
    HandPass script before (first :: others) after (handed ++ later) where
  hands := one.hands.trans rest.hands
  owners := fun order member => (List.mem_append.mp member).elim (one.owners order)
    (rest.owners order)
  tickets := by
    rw [List.map_append, one.tickets, rest.tickets, commandTicketsOf, commandTicketsOf,
      commandTicketsOf, ← List.filterMap_append, ← List.filter_append, List.singleton_append]

/-- Loading one structure on a worker. -/
theorem load_hands (loaded : LoadedStructure) (current : workspace.context.script = some script)
    (declares : loaded.inner.DeclaresIn script)
    (unused : ∀ ticket ∈ loaded.inner.ticket?, workspace.host.registrations ticket = {}) :
    ∃ handed, HandPass script workspace [(load .worker loaded workspace).1]
      (load .worker loaded workspace).2 handed := by
  obtain ⟨ready, between, early, whole⟩ := load_split .worker loaded current declares
  have there := early.steady.script.trans current
  have frame := ready.inner.load_spec .worker there early.declares
  have kind := early.kind
  simp only [LoadedStructure.kind, Prod.mk.injEq] at kind
  have mayHand : ∀ ticket ∈ ready.inner.commandTicket?,
      between.host.registrations ticket = {} := by
    intro ticket member
    rw [early.registrations]
    refine unused ticket ?_
    rw [Structure.commandTicket?_eq] at member
    split at member
    · exact absurd member (Option.not_mem_none _)
    · exact kind.2.2.2.2.1 ▸ member
  obtain ⟨handed, spec⟩ := ready.inner.load_worker there mayHand
  have quiet := conclude_quiet .load ready (ready.inner.load .worker between)
  have same := conclude_structure .load ready (ready.inner.load .worker between)
  have success := conclude_success .load ready (ready.inner.load .worker between)
  rw [whole]
  generalize conclude .load ready (ready.inner.load .worker between) = concluded at *
  generalize ready.inner.load .worker between = result at *
  obtain ⟨done, after, final⟩ := concluded
  simp only at quiet same success ⊢
  subst same
  have earlyHands : workspace.host.Hands [] between.host :=
    ⟨early.commands, early.registrations, by
      rw [early.queue, List.map_nil, List.map_nil, List.append_nil]⟩
  have hands := (earlyHands.trans spec.hands).trans (.of_quiet quiet)
  rw [List.nil_append, List.append_nil] at hands
  refine ⟨handed, hands, spec.owners, ?_⟩
  have command : result.2.1.commandTicket? = ready.inner.commandTicket? := by
    rw [Structure.commandTicket?_eq, Structure.commandTicket?_eq, frame.ticket, frame.event]
  by_cases isDone : result.1 = .done ()
  · rw [spec.done isDone, success.mpr isDone, ← command]
    cases found : result.2.1.commandTicket? with
    | none => simp [commandTicketsOf, found]
    | some ticket => simp [commandTicketsOf, found]
  · have notDone : done = false := by
      rw [← Bool.not_eq_true, success]
      exact isDone
    rw [spec.failed isDone, notDone]
    rfl

/-- Loading structures one after the other on a worker. -/
theorem each_hands (structures : List LoadedStructure)
    (current : workspace.context.script = some script)
    (declares : ∀ loaded ∈ structures, loaded.inner.DeclaresIn script)
    (unused : ∀ ticket ∈ ticketsOf structures, workspace.host.registrations ticket = {}) :
    ∃ handed, HandPass script workspace (each (load .worker) structures workspace).1
      (each (load .worker) structures workspace).2 handed := by
  induction structures generalizing workspace with
  | nil => exact ⟨[], .refl _, fun _ member => absurd member List.not_mem_nil, rfl⟩
  | cons first others ih =>
    have frame := load_frame .worker first current (declares first List.mem_cons_self)
    obtain ⟨handed, one⟩ := load_hands first current (declares first List.mem_cons_self)
      fun ticket found => unused ticket (mem_ticketsOf.mpr ⟨first, List.mem_cons_self, found⟩)
    obtain ⟨later, rest⟩ := ih (frame.steady.script.trans current)
      (fun loaded member => declares loaded (List.mem_cons_of_mem _ member)) (by
        intro ticket member
        rw [one.hands.registrations]
        obtain ⟨loaded, there, found⟩ := mem_ticketsOf.mp member
        exact unused ticket (mem_ticketsOf.mpr ⟨loaded, List.mem_cons_of_mem _ there, found⟩))
    exact ⟨handed ++ later, one.cons rest⟩

/-- What loading a script on a worker does, before the script is finished. -/
structure WorkerPass (Possible : EventFilter → Prop) (registry : Registry) (script : Script)
    (before : Workspace) (loaded : LoadedScript) (after : Workspace)
    (handed : List (Nat × Command)) : Prop extends
    ScriptFrame Possible registry script before loaded after,
    HandPass script before loaded.structures after handed

/-- Loading the script that has just become current, on a worker. -/
theorem loadCurrent_worker (nodes : List Node) (makes : registry.MakesOwn Possible)
    (current : workspace.context.script = some script)
    (noneWait : workspace.context.currentDrafts = [])
    (unused : ∀ ticket, workspace.host.nextTicket ≤ ticket →
      workspace.host.registrations ticket = {}) :
    ∃ handed, WorkerPass Possible registry script workspace
      (loadCurrent registry .worker script nodes workspace).1
      (loadCurrent registry .worker script nodes workspace).2 handed := by
  obtain ⟨ordered, results, between, structures, final, perm, headers, whole, owner, same, quiet⟩ :=
    loadCurrent_split .worker nodes makes current
  have tickets : (ticketsOf ordered).Perm (ticketsOf results) := perm.filterMap _
  have there := headers.current.trans current
  have declares : ∀ loaded ∈ ordered, loaded.inner.DeclaresIn script :=
    fun loaded member => headers.declares loaded (perm.mem_iff.mp member)
  have frame := each_frame .worker ordered there declares
  obtain ⟨handed, loads⟩ := each_hands ordered there declares (by
    intro ticket member
    rw [headers.registrations]
    exact unused ticket (headers.fresh ticket (tickets.mem_iff.mp member)).1)
  rw [whole, ← same] at frame loads
  have early : workspace.host.Hands [] between.host :=
    ⟨headers.commands, headers.registrations, by
      rw [headers.queue, List.map_nil, List.map_nil, List.append_nil]⟩
  have hands := (early.trans loads.hands).trans (.of_quiet quiet)
  rw [List.nil_append, List.append_nil] at hands
  exact ⟨handed, .of_passes owner current noneWait perm headers frame quiet, hands, loads.owners,
    loads.tickets⟩

end Loading

end ScriptBinding

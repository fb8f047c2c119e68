import ScriptBinding.Proofs.Tallies
import ScriptBinding.Proofs.Withdrawals

/-! # What a load hands to the host

On any thread a script that is loaded hands over the commands of the structures that are loaded
then. The ledger of the host goes on with them: the main thread registers them at once, and a worker
lets them wait.
-/

namespace ScriptBinding

/-- A ticket has been handed out, and not been used. -/
structure Host.Spare (host : Host) (ledger : Ledger) (ticket : Nat) : Prop where
  free : ∀ binding, ¬ ledger.Has ticket binding
  used : ticket < host.nextTicket
  unused : host.registrations ticket = {}

namespace Host.Spare

variable {host after : Host} {ledger : Ledger} {ticket : Nat}

theorem permits (spare : host.Spare ledger ticket) (command : Command) :
    host.Permits ledger (Job.register ticket command).puts where
  distinct := List.nodup_singleton _
  free := by
    intro other binding member
    rw [(Prod.mk.inj (List.mem_singleton.mp member)).1]
    exact spare.free
  used := by
    intro other binding member
    rw [(Prod.mk.inj (List.mem_singleton.mp member)).1]
    exact spare.used
  unused := by
    intro other binding member
    rw [(Prod.mk.inj (List.mem_singleton.mp member)).1]
    exact spare.unused

/-- A ticket stays spare when commands are handed over under other tickets. -/
theorem submit {handed : List (Nat × Command)} {thread : Thread} (spare : host.Spare ledger ticket)
    (apart : ticket ∉ handed.map Prod.fst) (nextTicket : after.nextTicket = host.nextTicket)
    (registrations : after.registrations ticket = host.registrations ticket) :
    after.Spare (ledger.submit thread (handed.map Job.ofCommand)) ticket where
  free := by
    intro binding has
    rcases Ledger.has_submit has with old | ⟨job, member, put⟩
    · exact spare.free binding old
    · obtain ⟨command, there, _⟩ :=
        Job.mem_puts_ofCommand.mp (List.mem_flatMap.mpr ⟨job, member, put⟩)
      exact apart (List.mem_map_of_mem there)
  used := nextTicket ▸ spare.used
  unused := registrations.trans spare.unused

end Host.Spare

namespace CommandStructure

variable {script : Script} {workspace : Workspace} {ledger : Ledger}

/-- What handing a command over comes to: the host refuses it at once, or the ledger goes on with
it. -/
theorem submit_follows (thread : Thread) (loaded : Command) (ticket : Nat)
    (follows : workspace.host.Follows ledger) (spare : workspace.host.Spare ledger ticket) :
    let result := submit thread loaded ticket workspace
    (∃ failure, result.1 = .error failure ∧ result.2.host.Follows ledger ∧
        result.2.host.registrations = workspace.host.registrations) ∨
      result.1 = .ok () ∧ result.2.host.Follows (ledger.submit thread [.register ticket loaded]) ∧
        ∀ other ≠ ticket,
          result.2.host.registrations other = workspace.host.registrations other := by
  have submitted := follows.submit thread (spare.permits loaded)
  cases thread with
  | main =>
    obtain ⟨host, step, refused | ⟨table, taken, commands, registrations, same⟩⟩ :=
      submit_registers loaded ticket workspace spare.unused
    · obtain ⟨failure, _, commands, registrations, same⟩ := refused
      rw [same]
      exact Or.inl ⟨_, rfl, follows.of_same step.config step.bus commands step.queue step.bound
        registrations step.nextTicket.ge, registrations⟩
    · rw [same]
      refine Or.inr ⟨rfl, ?_, fun other apart => ?_⟩
      · rw [Host.submit_main] at submitted
        change (workspace.host.registerUnder ticket loaded).Follows _ at submitted
        obtain ⟨before, ⟨_, refused, _⟩ | ⟨other, accepted, sameCommands, sameRegistrations⟩⟩ :=
          Host.registerUnder_spec ticket loaded workspace.host
        · rw [taken] at refused
          cases refused
        · rw [spare.unused] at sameRegistrations
          cases taken.symm.trans accepted
          exact submitted.of_same (step.config.trans before.config.symm)
            (step.bus.trans before.bus.symm) (commands.trans sameCommands.symm)
            (step.queue.trans before.queue.symm) (step.bound.trans before.bound.symm)
            (registrations.trans sameRegistrations.symm)
            (before.nextTicket.trans step.nextTicket.symm).le
      · change host.registrations other = _
        rw [registrations, Function.update_of_ne apart]
  | worker =>
    obtain ⟨host, step, hands, same⟩ := submit_worker loaded ticket workspace spare.unused
    rw [same]
    refine Or.inr ⟨rfl, ?_, fun other _ => congrFun hands.registrations other⟩
    have waiting : host.queue.waiting =
        (workspace.host.submit .worker (.register ticket loaded)).queue.waiting := hands.queue
    refine ⟨submitted.carries.of_same step.config step.bus hands.commands step.bound
      hands.registrations, waiting.trans submitted.queue, ?_, ?_, ?_⟩
    · refine ⟨submitted.admits.distinct, submitted.admits.free, fun other binding put => ?_⟩
      exact (congrFun hands.registrations other).trans (submitted.admits.unused other binding put)
    · exact fun other binding has =>
        (submitted.used other binding has).trans_eq step.nextTicket.symm
    · exact fun other above => (congrFun hands.registrations other).trans
        (submitted.unused other (step.nextTicket ▸ above))

/-- What loading a command comes to on any thread: it fails and hands nothing over, or the ledger
goes on with the command. -/
theorem load_follows (thread : Thread) (command : CommandStructure)
    (current : workspace.context.script = some script) (follows : workspace.host.Follows ledger)
    (spare : workspace.host.Spare ledger command.ticket) :
    let result := command.load thread workspace
    (∃ failure, result.1 = .error failure ∧ result.2.host.Follows ledger ∧
        result.2.host.registrations = workspace.host.registrations) ∨
      ∃ loaded : Command, result.1 = .ok { command with name := some loaded.name } ∧
        loaded.script = script ∧
        result.2.host.Follows (ledger.submit thread [.register command.ticket loaded]) ∧
        ∀ other ≠ command.ticket,
          result.2.host.registrations other = workspace.host.registrations other := by
  intro result
  have still {after : Workspace} (still : workspace.Still after) : after.host.Follows ledger :=
    follows.of_same still.untouched.config still.untouched.bus still.untouched.commands
      still.untouched.queue still.untouched.bound still.untouched.registrations
      still.untouched.nextTicket.ge
  rcases command.load_cases thread current with ⟨failure, after, quiet, same⟩ |
    ⟨loaded, after, owner, quiet, same⟩
  · rw [show result = _ from same]
    exact Or.inl ⟨failure, rfl, still quiet, quiet.untouched.registrations⟩
  · have kept := quiet.untouched.registrations
    have handed := submit_follows thread loaded command.ticket (still quiet)
      ⟨spare.free, spare.used.trans_eq quiet.untouched.nextTicket.symm,
        (congrFun kept _).trans spare.unused⟩
    rw [show result = _ from same]
    generalize submit thread loaded command.ticket after = submitted at handed ⊢
    rcases handed with ⟨failure, refused, after', registrations⟩ | ⟨done, after', registrations⟩
    · dsimp only
      rw [refused]
      exact Or.inl ⟨failure, rfl, after', registrations.trans kept⟩
    · dsimp only
      rw [done]
      exact Or.inr ⟨loaded, rfl, owner, after', fun other apart =>
        (registrations other apart).trans (congrFun kept other)⟩

end CommandStructure

namespace Structure

/-- What loading a structure hands over: its command, if it has one and loading it succeeds. -/
structure Hands (thread : Thread) (script : Script) (ledger : Ledger) (before : Workspace)
    (result : Outcome Unit × Structure × Workspace) (handed : List (Nat × Command)) : Prop where
  follows : result.2.2.host.Follows (ledger.submit thread (handed.map Job.ofCommand))
  owners : ∀ order ∈ handed, order.2.script = script
  done : result.1 = .done () → handed.map (fun order => (order.1, some order.2.name)) =
    (result.2.1.command?.map fun command => (command.ticket, command.name)).toList
  failed : result.1 ≠ .done () → handed = []
  others : ∀ ticket ∉ handed.map Prod.fst,
    result.2.2.host.registrations ticket = before.host.registrations ticket

variable {script : Script} {workspace : Workspace} {ledger : Ledger}

theorem load_hands (thread : Thread) (inner : Structure)
    (current : workspace.context.script = some script) (follows : workspace.host.Follows ledger)
    (spare : ∀ ticket ∈ inner.commandTicket?, workspace.host.Spare ledger ticket) :
    ∃ handed, Hands thread script ledger workspace (inner.load thread workspace) handed := by
  have nothing {outcome : Outcome Unit} {after : Structure} {final : Workspace}
      (noCommand : after.command? = none) (untouched : workspace.Untouched final) :
      ∃ handed, Hands thread script ledger workspace (outcome, after, final) handed := by
    refine ⟨[], ?_, fun _ member => absurd member List.not_mem_nil, fun _ => ?_, fun _ => rfl,
      fun ticket _ => congrFun untouched.registrations ticket⟩
    · rw [List.map_nil, Ledger.submit_nil]
      exact follows.of_same untouched.config untouched.bus untouched.commands untouched.queue
        untouched.bound untouched.registrations untouched.nextTicket.ge
    · rw [show (outcome, after, final).2.1.command? = none from noCommand]
      rfl
  cases inner with
  | options inner => exact nothing rfl (inner.apply_still workspace).untouched
  | aliases => exact nothing rfl (.refl workspace)
  | defaults inner => exact nothing rfl (.refl workspace)
  | event inner => exact nothing rfl (.refl workspace)
  | custom inner => exact nothing rfl (inner.respond_still .load workspace).untouched
  | function inner => exact nothing rfl (inner.load_untouched workspace).1
  | command inner =>
    have result := inner.load_follows thread current follows (spare inner.ticket rfl)
    dsimp only [load]
    generalize inner.load thread workspace = loads at *
    obtain ⟨outcome, final⟩ := loads
    rcases result with ⟨failure, refused, after, registrations⟩ |
      ⟨loaded, taken, owner, after, registrations⟩
    · cases refused
      refine ⟨[], ?_, fun _ member => absurd member List.not_mem_nil, nofun, fun _ => rfl,
        fun ticket _ => congrFun registrations ticket⟩
      rw [List.map_nil, Ledger.submit_nil]
      exact after
    · cases taken
      refine ⟨[(inner.ticket, loaded)], after, ?_, fun _ => rfl, fun failed => absurd rfl failed,
        fun ticket apart => registrations ticket fun same => apart ?_⟩
      · intro order member
        rw [List.mem_singleton.mp member]
        exact owner
      · rw [same]
        exact List.mem_singleton_self _

end Structure

namespace Loading

variable {Possible : EventFilter → Prop} {registry : Registry} {script : Script}
  {workspace : Workspace} {ledger : Ledger} {thread : Thread}

/-- What a pass of loading hands over: the commands of the structures that are loaded then. -/
structure Handing (thread : Thread) (script : Script) (ledger : Ledger) (before : Workspace)
    (results : List LoadedStructure) (after : Workspace) (handed : List (Nat × Command)) :
    Prop where
  follows : after.host.Follows (ledger.submit thread (handed.map Job.ofCommand))
  owners : ∀ order ∈ handed, order.2.script = script
  shown : handed.map (fun order => (order.1, some order.2.name)) =
    (loadedCommands results).map fun command => (command.ticket, command.name)
  others : ∀ ticket ∉ handed.map Prod.fst,
    after.host.registrations ticket = before.host.registrations ticket

theorem Handing.tickets {before after : Workspace} {results : List LoadedStructure}
    {handed : List (Nat × Command)}
    (handing : Handing thread script ledger before results after handed) :
    handed.map Prod.fst = commandTicketsOf (results.filter (·.loaded)) := by
  have shown := congrArg (List.map Prod.fst) handing.shown
  rw [List.map_map, List.map_map] at shown
  refine Eq.trans shown ?_
  rw [loadedCommands, List.map_filterMap]
  rfl

theorem Handing.cons {first : LoadedStructure} {others : List LoadedStructure}
    {before between after : Workspace} {handed later : List (Nat × Command)}
    (one : Handing thread script ledger before [first] between handed)
    (rest : Handing thread script (ledger.submit thread (handed.map Job.ofCommand)) between others
      after later) :
    Handing thread script ledger before (first :: others) after (handed ++ later) where
  follows := by
    rw [List.map_append, Ledger.submit_append]
    exact rest.follows
  owners := fun order member => (List.mem_append.mp member).elim (one.owners order)
    (rest.owners order)
  shown := by
    rw [List.map_append, one.shown, rest.shown, ← List.map_append, loadedCommands, loadedCommands,
      loadedCommands, ← List.filterMap_append, ← List.filter_append, List.singleton_append]
  others := by
    intro ticket apart
    rw [List.map_append, List.mem_append, not_or] at apart
    exact (rest.others ticket apart.2).trans (one.others ticket apart.1)

/-- Loading one structure. -/
theorem load_handing (thread : Thread) (loaded : LoadedStructure)
    (current : workspace.context.script = some script) (declares : loaded.inner.DeclaresIn script)
    (follows : workspace.host.Follows ledger)
    (spare : ∀ ticket ∈ loaded.inner.ticket?, workspace.host.Spare ledger ticket) :
    ∃ handed, Handing thread script ledger workspace [(load thread loaded workspace).1]
      (load thread loaded workspace).2 handed := by
  obtain ⟨ready, between, early, whole⟩ := load_split thread loaded current declares
  have there := early.steady.script.trans current
  have kind := early.kind
  simp only [LoadedStructure.kind, Prod.mk.injEq] at kind
  have followsBetween : between.host.Follows ledger :=
    follows.of_same early.steady.config early.steady.bus early.commands early.queue
      early.steady.bound early.registrations early.steady.nextTicket.ge
  have stillSpare : ∀ ticket ∈ ready.inner.commandTicket?, between.host.Spare ledger ticket := by
    intro ticket member
    have own : ticket ∈ loaded.inner.ticket? := by
      rw [Structure.commandTicket?_eq] at member
      split at member
      · exact absurd member (Option.not_mem_none _)
      · exact kind.2.2.2.2.1 ▸ member
    obtain ⟨free, used, unused⟩ := spare ticket own
    exact ⟨free, used.trans_eq early.steady.nextTicket.symm,
      (congrFun early.registrations ticket).trans unused⟩
  obtain ⟨handed, hands⟩ := ready.inner.load_hands thread there followsBetween stillSpare
  have quiet := conclude_quiet .load ready (ready.inner.load thread between)
  have same := conclude_structure .load ready (ready.inner.load thread between)
  have success := conclude_success .load ready (ready.inner.load thread between)
  rw [whole]
  generalize conclude .load ready (ready.inner.load thread between) = concluded at *
  generalize ready.inner.load thread between = result at *
  obtain ⟨done, after, final⟩ := concluded
  dsimp only at quiet same success ⊢
  subst same
  refine ⟨handed, hands.follows.of_quiet quiet, hands.owners, ?_, fun ticket apart => ?_⟩
  · by_cases isDone : result.1 = .done ()
    · rw [hands.done isDone, success.mpr isDone]
      cases found : result.2.1.command? <;> simp [loadedCommands, found]
    · have notDone : done = false := by
        rw [← Bool.not_eq_true, success]
        exact isDone
      rw [hands.failed isDone, notDone]
      rfl
  · exact (congrFun quiet.registrations ticket).trans
      ((hands.others ticket apart).trans (congrFun early.registrations ticket))

/-- Loading structures one after the other. -/
theorem each_handing (thread : Thread) (structures : List LoadedStructure)
    (current : workspace.context.script = some script)
    (declares : ∀ loaded ∈ structures, loaded.inner.DeclaresIn script)
    (follows : workspace.host.Follows ledger) (distinct : (ticketsOf structures).Nodup)
    (spare : ∀ ticket ∈ ticketsOf structures, workspace.host.Spare ledger ticket) :
    ∃ handed, Handing thread script ledger workspace (each (load thread) structures workspace).1
      (each (load thread) structures workspace).2 handed := by
  induction structures generalizing workspace ledger with
  | nil =>
    refine ⟨[], ?_, fun _ member => absurd member List.not_mem_nil, rfl, fun _ _ => rfl⟩
    rw [List.map_nil, Ledger.submit_nil]
    exact follows
  | cons first others ih =>
    have frame := load_frame thread first current (declares first List.mem_cons_self)
    obtain ⟨handed, one⟩ := load_handing thread first current (declares first List.mem_cons_self)
      follows fun ticket found =>
        spare ticket (mem_ticketsOf.mpr ⟨first, List.mem_cons_self, found⟩)
    have restDistinct : (ticketsOf others).Nodup :=
      distinct.sublist ((List.sublist_cons_self first others).filterMap _)
    have sameTickets : ticketsOf [(load thread first workspace).1] = ticketsOf [first] :=
      ticketsOf_of_kinds frame.kinds
    have apart {ticket : Nat} (member : ticket ∈ ticketsOf others) :
        ticket ∉ handed.map Prod.fst := by
      intro own
      rw [one.tickets] at own
      have here : ticket ∈ ticketsOf [first] := sameTickets ▸ mem_ticketsOf_of_command
        ((List.filter_sublist.filterMap _).subset own)
      obtain ⟨same, there, found⟩ := mem_ticketsOf.mp here
      rw [List.mem_singleton.mp there] at found
      rw [ticketsOf, List.filterMap_cons, found] at distinct
      exact (List.nodup_cons.mp distinct).1 member
    obtain ⟨later, rest⟩ := ih (frame.steady.script.trans current)
      (fun loaded member => declares loaded (List.mem_cons_of_mem _ member)) one.follows
      restDistinct fun ticket member =>
        (spare ticket (mem_ticketsOf.mpr (by
          obtain ⟨loaded, there, found⟩ := mem_ticketsOf.mp member
          exact ⟨loaded, List.mem_cons_of_mem _ there, found⟩))).submit (apart member)
          frame.steady.nextTicket (one.others ticket (apart member))
    exact ⟨handed ++ later, one.cons rest⟩

/-- Loading the script that has just become current, on any thread. -/
theorem loadCurrent_handing (thread : Thread) (nodes : List Node)
    (makes : registry.MakesOwn Possible) (current : workspace.context.script = some script)
    (noneWait : workspace.context.currentDrafts = []) (follows : workspace.host.Follows ledger) :
    ScriptFrame Possible registry script workspace
        (loadCurrent registry thread script nodes workspace).1
        (loadCurrent registry thread script nodes workspace).2 ∧
      ∃ handed, Handing thread script ledger workspace
        (loadCurrent registry thread script nodes workspace).1.structures
        (loadCurrent registry thread script nodes workspace).2 handed := by
  obtain ⟨ordered, results, between, structures, final, perm, headers, whole, owner, same, quiet⟩ :=
    loadCurrent_split thread nodes makes current
  have tickets : (ticketsOf ordered).Perm (ticketsOf results) := perm.filterMap _
  have there := headers.current.trans current
  have declares : ∀ loaded ∈ ordered, loaded.inner.DeclaresIn script :=
    fun loaded member => headers.declares loaded (perm.mem_iff.mp member)
  have frame := each_frame thread ordered there declares
  have followsBetween : between.host.Follows ledger :=
    follows.of_same headers.config headers.bus headers.commands headers.queue headers.bound
      headers.registrations headers.later
  obtain ⟨handed, handing⟩ := each_handing thread ordered there declares followsBetween
    (tickets.nodup_iff.mpr headers.distinct) (by
      intro ticket member
      obtain ⟨above, below⟩ := headers.fresh ticket (tickets.mem_iff.mp member)
      refine ⟨fun binding has => ?_, below, ?_⟩
      · exact absurd (follows.used ticket binding has) (Nat.not_lt.mpr above)
      · rw [headers.registrations]
        exact follows.unused ticket above)
  rw [whole, ← same] at frame handing
  refine ⟨.of_passes owner current noneWait perm headers frame quiet, handed,
    handing.follows.of_quiet quiet, handing.owners, handing.shown, fun ticket apart => ?_⟩
  rw [congrFun quiet.registrations ticket, handing.others ticket apart, headers.registrations]

/-- What waits for a script that has been loaded carries the ticket of one of its events. -/
theorem ScriptFrame.eventTicket_of_awaits {before after : Workspace} {loaded : LoadedScript}
    {ticket : Nat} {binding : Binding}
    (frame : ScriptFrame Possible registry script before loaded after)
    (waits : (ticket, binding) ∈ after.context.awaits) :
    ticket ∈ eventTicketsOf loaded.structures := by
  obtain ⟨_, _, draft, member, rfl, _⟩ := Context.mem_awaits.mp waits
  obtain ⟨results, perm, waiting⟩ := frame.waiting
  obtain ⟨inner, there, event, draftOf⟩ := waiting.mem_tickets draft member
  refine mem_eventTicketsOf.mpr ⟨inner, perm.mem_iff.mpr there, ?_⟩
  rw [Structure.eventTicket?, draftOf.isEvent, draftOf.ticket]
  rfl

/-- What waits for a script that has been loaded is permitted. -/
theorem Handing.permits_awaits {before after : Workspace} {loaded : LoadedScript}
    {handed : List (Nat × Command)}
    (handing : Handing thread script ledger before loaded.structures after handed)
    (frame : ScriptFrame Possible registry script before loaded after)
    (follows : before.host.Follows ledger) :
    after.host.Permits (ledger.submit thread (handed.map Job.ofCommand)) after.context.awaits := by
  have fresh {ticket : Nat} {binding : Binding} (waits : (ticket, binding) ∈ after.context.awaits) :
      before.host.nextTicket ≤ ticket ∧ ticket < after.host.nextTicket :=
    frame.fresh ticket (mem_ticketsOf_of_event (frame.eventTicket_of_awaits waits))
  have notHanded {ticket : Nat} {binding : Binding}
      (waits : (ticket, binding) ∈ after.context.awaits) : ticket ∉ handed.map Prod.fst := by
    rw [handing.tickets]
    exact fun own => not_mem_commandTicketsOf frame.distinct (frame.eventTicket_of_awaits waits)
      ((List.filter_sublist.filterMap _).subset own)
  refine ⟨?_, ?_, fun ticket binding waits => (fresh waits).2, ?_⟩
  · obtain ⟨results, perm, waiting⟩ := frame.waiting
    have tickets : after.context.awaits.map Prod.fst =
        after.context.currentDrafts.map TriggerDraft.ticket := by
      rw [Context.awaits, frame.current, Option.toList_some, List.flatMap_singleton]
      exact List.map_map
    rw [tickets]
    exact ((perm.filterMap _).nodup_iff.mp frame.distinct).sublist waiting.tickets
  · intro ticket binding waits other has
    rcases Ledger.has_submit has with old | ⟨job, member, put⟩
    · exact absurd (follows.used ticket other old) (Nat.not_lt.mpr (fresh waits).1)
    · obtain ⟨command, there, _⟩ :=
        Job.mem_puts_ofCommand.mp (List.mem_flatMap.mpr ⟨job, member, put⟩)
      exact notHanded waits (List.mem_map_of_mem there)
  · intro ticket binding waits
    rw [handing.others ticket (notHanded waits)]
    exact follows.unused ticket (fresh waits).1

/-- No refusal waits to be taken note of while scripts are loaded: the main thread learns of it at
once, and a worker leaves what can be refused for later. -/
theorem loadCurrent_settled (thread : Thread) (nodes : List Node)
    (makes : registry.MakesOwn Possible) (current : workspace.context.script = some script)
    (noneWait : workspace.context.currentDrafts = []) (follows : workspace.host.Follows ledger)
    (settled : ∀ ticket, (workspace.host.registrations ticket).refusal = none) :
    ∀ ticket, ((loadCurrent registry thread script nodes workspace).2.host.registrations
      ticket).refusal = none := by
  cases thread with
  | main =>
    exact (loadCurrent_main nodes makes current noneWait ⟨follows.carries.reflects, settled⟩
      follows.unused).sound.settled
  | worker =>
    obtain ⟨_, pass⟩ := loadCurrent_worker nodes makes current noneWait follows.unused
    rw [pass.hands.registrations]
    exact settled

end Loading

end ScriptBinding

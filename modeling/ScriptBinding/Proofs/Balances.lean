import ScriptBinding.Proofs.CommandCounts
import ScriptBinding.Proofs.FunctionCounts
import ScriptBinding.Proofs.TriggerCounts

/-! # Counters and tables agree at every step

While scripts are loaded, the counters of each agree with the triggers that have waited for it, with
the bodies that it owns, and with the commands that the ledger has of it. Leaving a script, loading
one, draining the queue and settling keep it so. Once nothing waits any more and nothing is refused,
the counters are the numbers of what the host shows.
-/

namespace ScriptBinding

/-- The counters of a script are the numbers of what the host shows of it, and of what is loaded of
it. -/
structure LoadedScript.Truthful (host : Host) (loaded : LoadedScript) : Prop where
  triggers : loaded.info.triggers = (host.triggersOf loaded.script).length
  /-- Every trigger is bound once. -/
  bound : ((host.triggersOf loaded.script).map Trigger.ticket).Nodup
  bodies : loaded.info.functions = (host.functions.bodiesOf loaded.script).length
  functions : loaded.info.functions = (loadedFunctions loaded.structures).length
  registered : loaded.info.commands = (host.commandsOf loaded.script).length
  commands : loaded.info.commands = (loadedCommands loaded.structures).length
  listed : ((host.commandsOf loaded.script).map Command.name).Perm loaded.info.commandNames
  names : (loadedCommands loaded.structures).map (·.name) = loaded.info.commandNames.map some
  distinct : loaded.info.commandNames.Nodup
  structures : loaded.info.structures = loaded.structures.length

/-- The counters of a script agree with its structures, and with what has waited for it, what it
owns and what the ledger has of it. -/
structure LoadedScript.Agrees (ledger : Ledger) (entries : List EventEntry)
    (functions : FunctionTable) (loaded : LoadedScript) : Prop where
  sums : loaded.Sums
  builtIn : ∀ inner ∈ loaded.structures, inner.inner.isBuiltIn = true
  triggers : loaded.info.triggers = (EventEntry.ofScript (some loaded.script) entries).length
  functions : loaded.info.functions = (functions.bodiesOf loaded.script).length
  commands : ∃ known, ledger.Knows loaded known

/-- Loading another script changes nothing about those that have been loaded before. -/
theorem LoadedScript.Agrees.load {script : Script} {ledger : Ledger} {entries : List EventEntry}
    {workspace : Workspace} {thread : Thread} {results : List LoadedStructure} {after : Workspace}
    {handed : List (Nat × Command)} {old : LoadedScript}
    (agrees : old.Agrees ledger entries workspace.host.functions)
    (apart : script.generation ≠ old.script.generation)
    (current : after.context.script = some script)
    (owners : ∀ order ∈ handed, order.2.script = script)
    (embodies : Loading.Embodies script workspace.host.functions results after.host.functions) :
    old.Agrees (ledger.submit thread (handed.map Job.ofCommand)) (entries ++ after.entries)
      after.host.functions where
  sums := agrees.sums
  builtIn := agrees.builtIn
  triggers := by
    have none : EventEntry.ofScript (some old.script) after.entries = [] := by
      refine List.filter_eq_nil_iff.mpr fun entry member isOwn => ?_
      obtain ⟨_, _, rfl⟩ := List.mem_map.mp member
      have same := current.symm.trans (of_decide_eq_true isOwn)
      exact apart (congrArg Script.generation (Option.some.inj same))
    rw [EventEntry.ofScript_append, none, List.append_nil]
    exact agrees.triggers
  functions := by
    rw [embodies old.script, if_neg fun same => apart (Script.generation_eq_of_same same)]
    exact agrees.functions
  commands := by
    obtain ⟨known, knows⟩ := agrees.commands
    refine ⟨known, knows.of_same fun ticket command isOwn => ?_⟩
    rw [Ledger.has_submit_iff Job.ofCommand_takes, Job.mem_puts_ofCommand, or_iff_left]
    rintro ⟨other, member, same⟩
    cases same
    exact apart (congrArg Script.generation ((owners _ member).symm.trans isOwn))

/-- Settling a script keeps its counters in agreement. -/
theorem LoadedScript.Agrees.settle {ledger : Ledger} {entries : List EventEntry}
    {functions : FunctionTable} {loaded : LoadedScript} {host : Host} {tickets : List Nat}
    (agrees : loaded.Agrees ledger entries functions) (idle : ledger.waiting = [])
    (refused : ∀ ticket ∈ tickets, (host.registrations ticket).refusal ≠ none)
    (all : ∀ inner ∈ loaded.structures, host.refuses inner = true →
      ∀ ticket ∈ inner.inner.commandTicket?, ticket ∈ tickets) :
    (host.settledScript loaded).Agrees (ledger.submit .main (tickets.map Job.unregister)) entries
      functions where
  sums := agrees.sums.settled host
  builtIn := by
    intro inner member
    obtain ⟨before, there, rfl⟩ := List.mem_map.mp member
    rw [host.settled_inner]
    exact agrees.builtIn before there
  triggers := (host.discount_bound loaded.structures loaded.info).1.trans agrees.triggers
  functions := (host.discount_bound loaded.structures loaded.info).2.1.trans agrees.functions
  commands := agrees.commands.elim fun _ knows => ⟨_, knows.settle idle refused all⟩

/-- The counters of scripts agree with a workspace, and nothing is there yet of loads from the next
generation on. -/
structure Workspace.Balances (next : Nat) (ledger : Ledger) (entries : List EventEntry)
    (scripts : List LoadedScript) (workspace : Workspace) : Prop where
  follows : workspace.host.Follows ledger
  permits : workspace.host.Permits ledger workspace.context.awaits
  orderly : workspace.Orderly
  gathers : ledger.Gathers
  settled : ∀ ticket, (workspace.host.registrations ticket).refusal = none
  declared : workspace.host.functions.BodiesDeclared
  keeps : workspace.Keeps entries
  single : ∀ entry ∈ entries, entry.draft.Single
  entryTickets : (entries.map (·.draft.ticket)).Nodup
  entryUsed : ∀ entry ∈ entries, entry.draft.ticket < workspace.host.nextTicket
  pastEntries : ∀ entry ∈ entries, ∀ script, entry.script = some script → script.generation < next
  owned : ∀ ticket command, ledger.Has ticket (.command command) →
    ∃ loaded ∈ scripts, command.script = loaded.script
  pastBodies : ∀ script, next ≤ script.generation →
    workspace.host.functions.bodiesOf script = []
  agrees : ∀ loaded ∈ scripts, loaded.Agrees ledger entries workspace.host.functions
  past : ∀ loaded ∈ scripts, loaded.script.generation < next
  generations : (scripts.map (·.script.generation)).Nodup
  tickets : (scriptTicketsOf scripts).Nodup
  used : ∀ ticket ∈ scriptTicketsOf scripts, ticket < workspace.host.nextTicket

namespace Workspace

/-! ## Leaving scripts -/

section Leaving

variable (thread : Thread) (next : Option Script) (workspace : Workspace)

/-- Moving on submits triggers only, and takes nothing back. -/
theorem leavings_triggers : ∀ job ∈ workspace.leavings next,
    (∀ ticket command, (ticket, .command command) ∉ job.puts) ∧
      ∀ ticket binding, job.takes ticket binding = false := by
  intro job member
  rcases workspace.leavings_cases next with none | ⟨only, one, put, takes⟩
  · rw [none] at member
    exact absurd member List.not_mem_nil
  · rw [one] at member
    rw [List.mem_singleton.mp member, put]
    refine ⟨fun ticket command waits => ?_, takes⟩
    obtain ⟨_, _, _, _, _, same⟩ := Context.mem_awaits.mp waits
    cases same

/-- Moving on changes nothing about functions and commands. -/
theorem setScript_tables :
    (workspace.setScript thread next).host.functions = workspace.host.functions ∧
      (workspace.setScript thread next).host.registrations = workspace.host.registrations := by
  rcases workspace.setScript_host thread next with ⟨_, entries, same⟩ | ⟨job, one, same⟩
  · rw [same]
    exact ⟨rfl, rfl⟩
  · obtain ⟨noPut, noTake⟩ := workspace.leavings_triggers next job (by
      rw [one]
      exact List.mem_singleton_self _)
    rw [same]
    cases thread with
    | main =>
      rw [Host.submit_main]
      exact ⟨(Host.perform_step job workspace.host).functions,
        funext fun ticket => Host.perform_registrations (noPut ticket) (noTake ticket)⟩
    | worker =>
      rw [Host.submit_worker]
      exact ⟨rfl, rfl⟩

end Leaving

namespace Balances

variable {next : Nat} {ledger : Ledger} {entries : List EventEntry} {scripts : List LoadedScript}
  {workspace : Workspace}

theorem pastCommands (balances : workspace.Balances next ledger entries scripts) {ticket : Nat}
    {command : Command} (has : ledger.Has ticket (.command command)) :
    command.script.generation < next := by
  obtain ⟨loaded, member, isOwner⟩ := balances.owned ticket command has
  exact isOwner ▸ balances.past loaded member

theorem write (balances : workspace.Balances next ledger entries scripts) (notes : List LogEntry) :
    (workspace.inHost (·.write notes)).Balances next ledger entries scripts :=
  { balances with
    follows := balances.follows.of_same rfl rfl rfl rfl rfl rfl le_rfl
    permits := ⟨balances.permits.distinct, balances.permits.free, balances.permits.used,
      balances.permits.unused⟩
    keeps := by
      have same : workspace.host.Continues .main [] (workspace.host.write notes) :=
        .of_same rfl rfl rfl rfl
      exact balances.keeps.quiet same rfl }

/-- Where nothing waits, another context where nothing waits takes the place of the old one. -/
theorem restart (balances : workspace.Balances next ledger entries scripts) {context : Context}
    (none : workspace.context.currentDrafts = []) (noneThere : context.currentDrafts = []) :
    Workspace.Balances next ledger entries scripts { workspace with context } :=
  { balances with
    permits := by
      rw [Context.awaits_of_none noneThere]
      exact .of_nil
    orderly := fun _ => noneThere
    keeps := by
      have same : workspace.host.Continues .main [] workspace.host := .of_same rfl rfl rfl rfl
      exact balances.keeps.quiet same
        ((entries_of_none noneThere).trans (entries_of_none none).symm) }

/-- Moving on to a script, or to none. -/
theorem leave (balances : workspace.Balances next ledger entries scripts) (thread : Thread)
    (target : Option Script) :
    (workspace.setScript thread target).Balances next
      (ledger.submit thread (workspace.leavings target)) entries scripts := by
  obtain ⟨functions, registrations⟩ := workspace.setScript_tables thread target
  have leavings := workspace.leavings_triggers target
  have nextTicket := workspace.setScript_nextTicket thread target
  have context := workspace.setScript_context thread target
  have has_iff {ticket : Nat} {command : Command} :
      (ledger.submit thread (workspace.leavings target)).Has ticket (.command command) ↔
        ledger.Has ticket (.command command) := by
    rw [Ledger.has_submit_iff fun job member => (leavings job member).2, or_iff_left]
    intro put
    obtain ⟨job, member, now⟩ := List.mem_flatMap.mp put
    exact (leavings job member).1 ticket command now
  exact
    { follows := workspace.setScript_follows thread target balances.follows balances.permits
      permits := by
        rcases context with ⟨_, none⟩ | ⟨same, none⟩
        · rw [none]
          exact .of_nil
        · rw [same, none, Ledger.submit_nil]
          exact balances.permits
      orderly := by
        cases leaves : workspace.leaves target with
        | true => exact fun _ => (setScript_of_leaves thread leaves).2.2
        | false =>
          rw [setScript_of_stays thread leaves]
          exact balances.orderly
      gathers := balances.gathers.submit fun job member => (leavings job member).2
      settled := by
        rw [registrations]
        exact balances.settled
      declared := by
        rw [functions]
        exact balances.declared
      keeps := balances.keeps.setScript balances.orderly thread target
      single := balances.single
      entryTickets := balances.entryTickets
      entryUsed := by
        rw [nextTicket]
        exact balances.entryUsed
      pastEntries := balances.pastEntries
      owned := fun ticket command has => balances.owned ticket command (has_iff.mp has)
      pastBodies := by
        rw [functions]
        exact balances.pastBodies
      agrees := by
        intro loaded member
        have agrees := balances.agrees loaded member
        refine ⟨agrees.sums, agrees.builtIn, agrees.triggers, ?_, ?_⟩
        · rw [functions]
          exact agrees.functions
        · exact agrees.commands.imp fun known knows => knows.of_same fun _ _ _ => has_iff
      past := balances.past
      generations := balances.generations
      tickets := balances.tickets
      used := by
        rw [nextTicket]
        exact balances.used }

/-! ## Loading scripts -/

section Loading

variable {script : Script}

/-- What a script counts that has just been loaded agrees with what is there of it. -/
theorem agrees_new {Possible : EventFilter → Prop} {registry : Registry} {thread : Thread}
    {loaded : LoadedScript} {after : Workspace} {handed : List (Nat × Command)}
    (balances : workspace.Balances next ledger entries scripts) (new : next ≤ script.generation)
    (frame : Loading.ScriptFrame Possible registry script workspace loaded after)
    (handing : Loading.Handing thread script ledger workspace loaded.structures after handed)
    (tallied : Loading.Tallied script workspace loaded after)
    (builtIn : ∀ inner ∈ loaded.structures, inner.inner.isBuiltIn = true)
    (embodies : Loading.Embodies script workspace.host.functions loaded.structures
      after.host.functions) :
    loaded.Agrees (ledger.submit thread (handed.map Job.ofCommand)) (entries ++ after.entries)
      after.host.functions where
  sums := tallied.sums
  builtIn := builtIn
  triggers := by
    have before : EventEntry.ofScript (some script) entries = [] := by
      refine List.filter_eq_nil_iff.mpr fun entry member isOwn => ?_
      exact absurd (balances.pastEntries entry member script (of_decide_eq_true isOwn))
        (Nat.not_lt.mpr new)
    have own : EventEntry.ofScript (some script) after.entries = after.entries := by
      refine List.filter_eq_self.mpr fun entry member => decide_eq_true ?_
      obtain ⟨_, _, rfl⟩ := List.mem_map.mp member
      exact tallied.current
    rw [frame.owner, EventEntry.ofScript_append, before, own, List.nil_append, tallied.triggers]
    exact (List.length_map _).symm
  functions := by
    rw [frame.owner, embodies script, balances.pastBodies script new, if_pos script.same_refl,
      tallied.sums.functions]
    exact (Nat.zero_add _).symm
  commands := by
    refine ⟨handed, handing.shown, fun order member => (handing.owners order member).trans
      frame.owner.symm, fun ticket command isOwn => ?_⟩
    rw [Ledger.has_submit_iff Job.ofCommand_takes, Job.mem_puts_ofCommand]
    constructor
    · rintro (before | ⟨other, member, same⟩)
      · have past := balances.pastCommands before
        rw [isOwn, frame.owner] at past
        exact absurd past (Nat.not_lt.mpr new)
      · cases same
        exact member
    · exact fun member => Or.inr ⟨command, member, rfl⟩

theorem loadCurrent {registry : Registry}
    (standard : ∀ descriptor ∈ registry.all, descriptor.Standard)
    (balances : workspace.Balances next ledger entries scripts) (thread : Thread)
    (nodes : List Node) (current : workspace.context.script = some script)
    (new : script.generation = next) (noneWait : workspace.context.currentDrafts = [])
    (zero : workspace.context.info = {}) :
    let result := Loading.loadCurrent registry thread script nodes workspace
    Loading.Tallied script workspace result.1 result.2 ∧ ∃ jobs,
      result.2.Balances (next + 1) (ledger.submit thread jobs) (entries ++ result.2.entries)
        (scripts ++ [result.1]) := by
  intro result
  have isBuiltIn : registry.BuiltIn := fun descriptor member => (standard descriptor member).builtIn
  have makes := isBuiltIn.makesOwn
  have tallied : Loading.Tallied script workspace result.1 result.2 :=
    Loading.loadCurrent_tallies thread nodes current noneWait zero
  obtain ⟨frame, handed, handing⟩ :=
    Loading.loadCurrent_handing thread nodes makes current noneWait balances.follows
  obtain ⟨declared, embodies⟩ :=
    Loading.loadCurrent_embodies thread nodes makes current balances.declared
  have builtIn : ∀ inner ∈ result.1.structures, inner.inner.isBuiltIn = true :=
    Loading.loadCurrent_builtIn thread script nodes workspace fun descriptor member ticket =>
      (standard descriptor member).creates ticket
  obtain ⟨results, perm, waiting⟩ := frame.waiting
  have entryTicket {entry : EventEntry} (member : entry ∈ result.2.entries) :
      entry.draft.ticket ∈ ticketsOf result.1.structures := by
    obtain ⟨draft, there, rfl⟩ := List.mem_map.mp member
    exact (perm.filterMap _).mem_iff.mpr
      (waiting.tickets.subset (List.mem_map_of_mem there))
  have commandTicket {ticket : Nat} (member : ticket ∈ commandTicketsOf result.1.structures) :=
    frame.fresh ticket (mem_ticketsOf_of_command member)
  have elsewhere {loaded : LoadedScript} (member : loaded ∈ scripts) :
      script.generation ≠ loaded.script.generation :=
    new ▸ (balances.past loaded member).ne'
  refine ⟨tallied, handed.map Job.ofCommand, ?_⟩
  exact
    { follows := handing.follows
      permits := handing.permits_awaits frame balances.follows
      orderly := fun noScript => nomatch frame.current.symm.trans noScript
      gathers := balances.gathers.submit Job.ofCommand_takes
      settled := Loading.loadCurrent_settled thread nodes makes current noneWait balances.follows
        balances.settled
      declared := declared
      keeps := balances.keeps.loadCurrent (entries_of_none noneWait) thread registry script nodes
      single := by
        intro entry member
        rcases List.mem_append.mp member with old | now
        · exact balances.single entry old
        · obtain ⟨draft, there, rfl⟩ := List.mem_map.mp now
          exact waiting.single standard draft there
      entryTickets := by
        rw [List.map_append]
        refine List.nodup_append.mpr ⟨balances.entryTickets, ?_, ?_⟩
        · have own : result.2.entries.map (·.draft.ticket) =
              result.2.context.currentDrafts.map TriggerDraft.ticket := List.map_map
          rw [own]
          exact ((perm.filterMap _).nodup_iff.mp frame.distinct).sublist waiting.tickets
        · intro ticket old other now same
          obtain ⟨entry, there, rfl⟩ := List.mem_map.mp old
          obtain ⟨latest, here, rfl⟩ := List.mem_map.mp now
          exact absurd (balances.entryUsed entry there)
            (Nat.not_lt.mpr (same ▸ (frame.fresh _ (entryTicket here)).1))
      entryUsed := by
        intro entry member
        rcases List.mem_append.mp member with old | now
        · exact (balances.entryUsed entry old).trans_le frame.later
        · exact (frame.fresh _ (entryTicket now)).2
      pastEntries := by
        intro entry member owner isOwner
        rcases List.mem_append.mp member with old | now
        · exact (balances.pastEntries entry old owner isOwner).trans (Nat.lt_succ_self next)
        · obtain ⟨_, _, rfl⟩ := List.mem_map.mp now
          obtain rfl := Option.some.inj (frame.current.symm.trans isOwner)
          exact new ▸ Nat.lt_succ_self next
      owned := by
        intro ticket command has
        rw [Ledger.has_submit_iff Job.ofCommand_takes, Job.mem_puts_ofCommand] at has
        rcases has with old | ⟨other, member, same⟩
        · obtain ⟨loaded, there, isOwner⟩ := balances.owned ticket command old
          exact ⟨loaded, List.mem_append_left _ there, isOwner⟩
        · cases same
          exact ⟨result.1, List.mem_append_right _ (List.mem_singleton_self _),
            (handing.owners _ member).trans frame.owner.symm⟩
      pastBodies := by
        intro owner above
        have apart : ¬ script.same owner = true := fun same =>
          absurd above (Nat.not_le.mpr
            (Script.generation_eq_of_same same ▸ new ▸ Nat.lt_succ_self next))
        refine List.length_eq_zero_iff.mp ?_
        rw [embodies owner, if_neg apart,
          balances.pastBodies owner ((Nat.le_succ next).trans above)]
        rfl
      agrees := by
        intro loaded member
        rcases List.mem_append.mp member with old | now
        · exact (balances.agrees loaded old).load (elsewhere old) frame.current handing.owners
            embodies
        · rw [List.mem_singleton.mp now]
          exact balances.agrees_new new.ge frame handing tallied builtIn embodies
      past := by
        intro loaded member
        rcases List.mem_append.mp member with old | now
        · exact (balances.past loaded old).trans (Nat.lt_succ_self next)
        · rw [List.mem_singleton.mp now, frame.owner, new]
          exact Nat.lt_succ_self next
      generations := by
        rw [List.map_append, List.map_singleton]
        refine List.nodup_append.mpr ⟨balances.generations, List.nodup_singleton _, ?_⟩
        intro generation old other now same
        obtain ⟨loaded, there, rfl⟩ := List.mem_map.mp old
        rw [List.mem_singleton.mp now, frame.owner] at same
        exact elsewhere there same.symm
      tickets := by
        rw [scriptTicketsOf, List.flatMap_append, List.flatMap_singleton]
        refine List.nodup_append.mpr ⟨balances.tickets,
          frame.distinct.sublist (commandTicketsOf_sublist _), ?_⟩
        intro ticket old other now same
        exact absurd (balances.used ticket old) (Nat.not_lt.mpr (same ▸ (commandTicket now).1))
      used := by
        intro ticket member
        rw [scriptTicketsOf, List.flatMap_append, List.flatMap_singleton] at member
        rcases List.mem_append.mp member with old | now
        · exact (balances.used ticket old).trans_le frame.later
        · exact (commandTicket now).2 }

end Loading

/-! ## Draining and settling -/

section Settling

variable {earlier batch : List LoadedScript}

/-- What has been under tickets before is not refused when the queue is drained. -/
theorem accepted (balances : workspace.Balances next ledger entries scripts) {loaded : LoadedScript}
    {known : List (Nat × Command)} (kept : (Ledger.mk ledger.placed []).Knows loaded known) :
    ∀ inner ∈ loaded.structures,
      (workspace.host.runPending .main).2.refuses inner = false := by
  intro inner member
  rw [← Bool.not_eq_true]
  intro refuses
  obtain ⟨isLoaded, structure', isCommand, refused⟩ := Host.refuses_iff.mp refuses
  obtain ⟨command, there⟩ := kept.exists_of_loaded member isLoaded isCommand
  obtain ⟨other, waits⟩ :=
    balances.follows.drain_refusal balances.gathers balances.settled refused
  rcases (kept.has_iff _ command (kept.owners _ there)).mpr there with placed | absent
  · exact balances.follows.admits.free _ _ waits _ placed
  · exact absurd absent List.not_mem_nil

/-- What is refused when the queue is drained is a command of one of the scripts. -/
theorem refused (balances : workspace.Balances next ledger entries scripts) {ticket : Nat}
    (refused : ((workspace.host.runPending .main).2.registrations ticket).refusal ≠ none) :
    ∃ loaded ∈ scripts, ∃ inner ∈ loaded.structures,
      (workspace.host.runPending .main).2.refuses inner = true ∧
        inner.inner.commandTicket? = some ticket := by
  obtain ⟨command, waits⟩ :=
    balances.follows.drain_refusal balances.gathers balances.settled refused
  obtain ⟨loaded, member, isOwner⟩ := balances.owned ticket command (Or.inr waits)
  obtain ⟨known, knows⟩ := (balances.agrees loaded member).commands
  obtain ⟨inner, there, isLoaded, isTicket⟩ :=
    knows.mem_structures ((knows.has_iff ticket command isOwner).mp (Or.inr waits))
  obtain ⟨structure', isCommand, rfl⟩ := Option.map_eq_some_iff.mp isTicket
  exact ⟨loaded, member, inner, there,
    Host.refuses_iff.mpr ⟨isLoaded, structure', isCommand, refused⟩, isTicket⟩

/-- The books balance once the queue has been drained and what has been refused in the batch has been
learnt. Of what has been loaded earlier nothing is refused. -/
theorem learn {settled : Workspace}
    (balances : workspace.Balances next ledger entries (earlier ++ batch))
    (noDrafts : workspace.context.currentDrafts = [])
    (quiet : ∀ loaded ∈ earlier, ∀ inner ∈ loaded.structures,
      (workspace.host.runPending .main).2.refuses inner = false)
    (learns : (workspace.inHost fun host => (host.runPending .main).2).Learns batch settled)
    (continues : (workspace.host.runPending .main).2.Continues .main [] settled.host) :
    settled.Balances next
      (ledger.drain.submit .main ((batch.flatMap
        ((workspace.host.runPending .main).2.refusedTickets ·.structures)).map Job.unregister))
      entries ((earlier ++ batch).map (workspace.host.runPending .main).2.settledScript) := by
  let drained := workspace.inHost fun host => (host.runPending .main).2
  have idle : ledger.drain.waiting = [] := rfl
  obtain ⟨sameFunctions, sameTicket⟩ := balances.follows.drain_tables
  have functions : settled.host.functions = workspace.host.functions :=
    learns.hears.functions.trans sameFunctions
  have nextTicket : settled.host.nextTicket = workspace.host.nextTicket :=
    learns.hears.nextTicket.trans sameTicket
  have ofBatch {loaded : LoadedScript} (member : loaded ∈ earlier ++ batch)
      {inner : LoadedStructure} (there : inner ∈ loaded.structures)
      (refuses : drained.host.refuses inner = true) : loaded ∈ batch :=
    (List.mem_append.mp member).resolve_left fun old => by
      cases (quiet loaded old inner there).symm.trans refuses
  exact
    { follows := learns.hears.follows _ balances.follows.drain
      permits := by
        rw [Context.awaits_of_none learns.drafts]
        exact .of_nil
      orderly := fun _ => learns.drafts
      gathers := fun _ absent => absurd absent List.not_mem_nil
      settled := by
        intro ticket
        rw [learns.hears.registrations]
        split
        · rfl
        · next absent =>
          by_contra refused
          obtain ⟨loaded, member, inner, there, refuses, isTicket⟩ := balances.refused refused
          exact absent (Host.mem_refusedTickets.mpr
            ⟨loaded, ofBatch member there refuses, inner, there, refuses, isTicket⟩)
      declared := by
        rw [functions]
        exact balances.declared
      keeps := (balances.keeps.drain : drained.Keeps entries).quiet continues
        ((entries_of_none learns.drafts).trans (entries_of_none noDrafts).symm)
      single := balances.single
      entryTickets := balances.entryTickets
      entryUsed := by
        rw [nextTicket]
        exact balances.entryUsed
      pastEntries := balances.pastEntries
      owned := by
        intro ticket command has
        rw [Ledger.has_unregister_iff idle, balances.gathers.has_drain_iff] at has
        obtain ⟨loaded, member, isOwner⟩ := balances.owned ticket command has.1
        exact ⟨_, List.mem_map_of_mem member, isOwner⟩
      pastBodies := by
        rw [functions]
        exact balances.pastBodies
      agrees := by
        intro settledScript member
        obtain ⟨loaded, there, rfl⟩ := List.mem_map.mp member
        have agrees := balances.agrees loaded there
        rw [functions]
        refine LoadedScript.Agrees.settle ⟨agrees.sums, agrees.builtIn, agrees.triggers,
          agrees.functions, agrees.commands.imp fun known knows =>
            knows.of_same fun _ _ _ => balances.gathers.has_drain_iff⟩ idle
          (fun _ => Host.refusal_of_mem_refusedTickets) ?_
        intro inner member refuses ticket isTicket
        exact Host.mem_refusedTickets.mpr
          ⟨loaded, ofBatch there member refuses, inner, member, refuses, isTicket⟩
      past := by
        intro settledScript member
        obtain ⟨loaded, there, rfl⟩ := List.mem_map.mp member
        exact balances.past loaded there
      generations := by
        rw [List.map_map]
        exact balances.generations
      tickets := (Host.scriptTicketsOf_settled _ _).symm ▸ balances.tickets
      used := by
        rw [Host.scriptTicketsOf_settled, nextTicket]
        exact balances.used }

/-- Once a worker has left its last script, draining the queue and settling its scripts keeps all
counters in agreement, those of scripts loaded earlier, too. -/
theorem drain_settle (balances : workspace.Balances next ledger entries (earlier ++ batch))
    (noDrafts : workspace.context.currentDrafts = [])
    (kept : ∀ loaded ∈ earlier, ∃ known, (Ledger.mk ledger.placed []).Knows loaded known) :
    let drained := workspace.inHost fun host => (host.runPending .main).2
    let result := Loading.settleScripts .main batch drained
    result.1 = (batch.map drained.host.settledScript,
        (drained.host.refusedAmong batch).length) ∧
      drained.Learns batch result.2 ∧ result.2.context.script = none ∧
      ∃ later, later.waiting = [] ∧
        result.2.Balances next later entries (earlier ++ result.1.1) := by
  intro drained result
  have apart : ((earlier ++ batch).map (·.script)).Nodup := by
    refine List.Nodup.of_map Script.generation ?_
    rw [List.map_map]
    exact balances.generations
  obtain ⟨settled, learns⟩ : result.1 = (batch.map drained.host.settledScript,
      (drained.host.refusedAmong batch).length) ∧ drained.Learns batch result.2 := by
    refine Loading.settleScripts_learns .main batch (fun loaded member => ?_) ?_ ?_ noDrafts
    · exact (balances.agrees loaded (List.mem_append_right _ member)).builtIn
    · have tickets := balances.tickets
      rw [scriptTicketsOf, List.flatMap_append] at tickets
      exact (List.nodup_append.mp tickets).2.1
    · rw [List.map_append] at apart
      exact (List.nodup_append.mp apart).2.1
  obtain ⟨continues, noScript, _⟩ :=
    Loading.settleScripts_continues .main batch (fun _ => noDrafts : drained.Orderly)
  have nothing : drained.flushed = [] := flushed_of_none noDrafts
  rw [nothing] at continues
  have quiet : ∀ loaded ∈ earlier, ∀ inner ∈ loaded.structures,
      drained.host.refuses inner = false := by
    intro loaded member
    obtain ⟨known, knows⟩ := kept loaded member
    exact balances.accepted knows
  have same : earlier ++ result.1.1 = (earlier ++ batch).map drained.host.settledScript := by
    rw [settled, List.map_append, Host.map_settledScript_of_none quiet]
  have learnt := balances.learn noDrafts quiet learns continues
  exact ⟨settled, learns, noScript, _, rfl, same ▸ learnt⟩

end Settling

/-! ## At rest -/

/-- Once nothing waits any more, the counters are the numbers of what the host shows. -/
theorem truthful (balances : workspace.Balances next ledger entries scripts)
    (idle : ledger.waiting = []) (none : workspace.context.currentDrafts = [])
    {loaded : LoadedScript} (member : loaded ∈ scripts) : loaded.Truthful workspace.host := by
  have agrees := balances.agrees loaded member
  obtain ⟨known, knows⟩ := agrees.commands
  have sums := agrees.sums
  have once := sums.once
  rw [sums.names] at once
  have waiting : workspace.host.queue.waiting = [] := by
    rw [balances.follows.queue, idle]
    rfl
  obtain ⟨triggers, distinct⟩ := balances.keeps.triggersOf waiting (entries_of_none none)
    balances.single balances.entryTickets loaded.script
  have registered := balances.follows.commandsOf_perm idle balances.settled knows once
  rw [← sums.names] at registered
  refine ⟨agrees.triggers.trans triggers.symm, distinct, agrees.functions, sums.functions, ?_, ?_,
    registered, ?_, sums.once, sums.structures⟩
  · rw [sums.commands, ← registered.length_eq, List.length_map]
  · rw [sums.commands, sums.names, knows.length]
  · rw [sums.names, knows.names, List.map_map]
    have shown := congrArg (List.map Prod.snd) knows.shown
    rw [List.map_map, List.map_map] at shown
    exact shown.symm

/-- Where nothing waits and nothing has been refused, settling changes nothing. -/
theorem settle_again (balances : workspace.Balances next ledger entries scripts)
    (none : workspace.context.currentDrafts = []) (thread : Thread) :
    (Loading.settleScripts thread scripts workspace).1 = (scripts, 0) := by
  have accepted : ∀ loaded ∈ scripts, ∀ inner ∈ loaded.structures,
      workspace.host.refuses inner = false := by
    intro loaded _ inner _
    rw [← Bool.not_eq_true]
    intro refuses
    obtain ⟨_, _, _, refused⟩ := Host.refuses_iff.mp refuses
    exact refused (balances.settled _)
  have apart : (scripts.map (·.script)).Nodup := by
    refine List.Nodup.of_map Script.generation ?_
    rw [List.map_map]
    exact balances.generations
  rw [(Loading.settleScripts_learns thread scripts
    (fun loaded member => (balances.agrees loaded member).builtIn) balances.tickets apart none).1,
    Host.map_settledScript_of_none accepted, Host.refusedAmong_of_none accepted]
  rfl

end Balances

end Workspace

end ScriptBinding

import ScriptBinding.Proofs.Settling

/-! # How many commands a script has

A ledger knows the commands of a script that are under tickets or wait to be put there: those of its
command structures that are loaded. Draining the queue loses none of them, though the host may
refuse some, and settling drops exactly those. Then the table holds of a script what the ledger
knows of it. -/

namespace ScriptBinding

namespace Table

variable {α : Type}

theorem find_eq_some_iff {key : String} {value : α} {entries : List (String × α)}
    (sorted : entries.Pairwise (fun a b => a.1 < b.1)) :
    find key entries = some value ↔ (key, value) ∈ entries := by
  induction entries with
  | nil => exact iff_of_false nofun List.not_mem_nil
  | cons first others ih =>
    obtain ⟨least, rest⟩ := List.pairwise_cons.mp sorted
    rw [find, List.mem_cons]
    split
    · next here =>
      subst here
      rw [Option.some.injEq]
      constructor
      · rintro rfl
        exact Or.inl rfl
      · rintro (same | later)
        · rw [← same]
        · exact absurd (least _ later) (String.lt_irrefl _)
    · next differ =>
      rw [ih rest, or_iff_right]
      rintro rfl
      exact differ rfl

theorem mem_values {table : Table α} {value : α} :
    value ∈ table.values ↔ ∃ key, table.get? key = some value := by
  rw [values, List.mem_map]
  constructor
  · rintro ⟨⟨key, _⟩, member, rfl⟩
    exact ⟨key, (find_eq_some_iff table.sorted).mpr member⟩
  · rintro ⟨key, found⟩
    exact ⟨(key, value), (find_eq_some_iff table.sorted).mp found, rfl⟩

/-- Where entries are found under their own names, no name occurs twice. -/
theorem nodup_values {table : Table α} {name : α → String}
    (named : ∀ key value, table.get? key = some value → name value = key) :
    (table.values.map name).Nodup := by
  have keys : table.values.map name = table.keys := by
    rw [values, List.map_map]
    refine List.map_congr_left fun entry member => ?_
    exact named entry.1 entry.2 ((find_eq_some_iff table.sorted).mpr member)
  rw [keys, Table.keys, List.Nodup, List.pairwise_map]
  refine table.sorted.imp fun {first second} before (same : first.1 = second.1) => ?_
  rw [same] at before
  exact String.lt_irrefl second.1 before

end Table

/-- The commands on the table that are of a script. -/
def Host.commandsOf (script : Script) (host : Host) : List Command :=
  host.commands.commands.values.filter (·.script = script)

/-- The commands of a script are those that are registered for it, each once. -/
theorem Host.commandsOf_perm {host : Host} (reflects : host.commands.Reflects host.registered)
    {script : Script} {names : List String} (once : names.Nodup)
    (own : ∀ name, name ∈ names ↔ ∃ ticket command, host.registered ticket = some command ∧
      command.script = script ∧ command.name = name) :
    ((host.commandsOf script).map Command.name).Perm names := by
  have named {name : String} {command : Command}
      (found : host.commands.commands.get? name = some command) : command.name = name :=
    ((reflects.command_iff name command).mp found).1
  have distinct : (host.commands.commands.values.map Command.name).Nodup :=
    Table.nodup_values fun name command found => named found
  refine (List.perm_ext_iff_of_nodup (distinct.sublist (List.filter_sublist.map _)) once).mpr
    fun name => ?_
  rw [own, List.mem_map]
  constructor
  · rintro ⟨command, member, rfl⟩
    obtain ⟨listed, isOwn⟩ := List.mem_filter.mp member
    obtain ⟨name, found⟩ := Table.mem_values.mp listed
    obtain ⟨_, ticket, registered⟩ := (reflects.command_iff name command).mp found
    exact ⟨ticket, command, registered, of_decide_eq_true isOwn, rfl⟩
  · rintro ⟨ticket, command, registered, isOwn, rfl⟩
    have found := (reflects.command_iff command.name command).mpr ⟨rfl, ticket, registered⟩
    exact ⟨command, List.mem_filter.mpr ⟨Table.mem_values.mpr ⟨_, found⟩, decide_eq_true isOwn⟩, rfl⟩

/-! ## Tickets that jobs leave alone -/

namespace Host

/-- A job that has nothing to do with the command under a ticket leaves it as it is. -/
theorem perform_registrations {job : Job} {host : Host} {ticket : Nat}
    (noPut : ∀ command, (ticket, .command command) ∉ job.puts)
    (noTake : ∀ binding, job.takes ticket binding = false) :
    (host.perform job).registrations ticket = host.registrations ticket := by
  cases job with
  | bind script drafts => rw [(perform_bind script drafts host).1.registrations]
  | unbind other =>
    change (host.unbind other).registrations ticket = _
    cases found : host.bound other with
    | none => rw [unbind_of_none found]
    | some trigger => rw [(unbind_of_some found).1.registrations]
  | register other command =>
    have apart : ticket ≠ other := by
      rintro rfl
      exact noPut _ List.mem_cons_self
    change (host.registerUnder other command).registrations ticket = _
    rcases (registerUnder_spec other command host).2 with ⟨_, _, _, same⟩ | ⟨_, _, _, same⟩
    · rw [same, Function.update_of_ne apart]
    · rw [same, Function.update_of_ne apart]
  | unregister other =>
    change (host.unregisterUnder other).registrations ticket = _
    cases found : (host.registrations other).registered with
    | none => rw [unregisterUnder_of_none found]
    | some command =>
      have apart : other ≠ ticket := fun same => by
        have taken := noTake (.command command)
        rw [Job.takes, beq_eq_false_iff_ne] at taken
        exact taken same
      rw [(unregisterUnder_of_some found).2.2, Function.update_of_ne apart.symm]

theorem performAll_registrations {jobs : List Job} {host : Host} {ticket : Nat}
    (noPut : ∀ job ∈ jobs, ∀ command, (ticket, .command command) ∉ job.puts)
    (noTake : ∀ job ∈ jobs, ∀ binding, job.takes ticket binding = false) :
    (jobs.foldl perform host).registrations ticket = host.registrations ticket := by
  induction jobs generalizing host with
  | nil => rfl
  | cons job others ih =>
    refine (ih (fun other member => noPut other (List.mem_cons_of_mem _ member))
      fun other member => noTake other (List.mem_cons_of_mem _ member)).trans ?_
    exact perform_registrations (noPut job List.mem_cons_self) (noTake job List.mem_cons_self)

end Host

/-! ## What a ledger knows -/

/-- No job that waits takes anything back. -/
def Ledger.Gathers (ledger : Ledger) : Prop :=
  ∀ job ∈ ledger.waiting, ∀ ticket binding, job.takes ticket binding = false

/-- Handing commands over takes nothing back. -/
theorem Job.ofCommand_takes {handed : List (Nat × Command)} :
    ∀ job ∈ handed.map Job.ofCommand, ∀ ticket binding, job.takes ticket binding = false := by
  intro job member ticket binding
  obtain ⟨_, _, rfl⟩ := List.mem_map.mp member
  rfl

namespace Ledger

variable {ledger : Ledger} {jobs : List Job} {thread : Thread} {ticket : Nat} {binding : Binding}

theorem Gathers.submit (gathers : ledger.Gathers)
    (noTakes : ∀ job ∈ jobs, ∀ ticket binding, job.takes ticket binding = false) :
    (ledger.submit thread jobs).Gathers := by
  cases thread with
  | main => exact gathers
  | worker =>
    intro job member
    exact (List.mem_append.mp member).elim (gathers job) (noTakes job)

/-- Jobs that take nothing back add what they put to what the ledger has. -/
theorem has_submit_iff (noTakes : ∀ job ∈ jobs, ∀ ticket binding, job.takes ticket binding = false) :
    (ledger.submit thread jobs).Has ticket binding ↔
      ledger.Has ticket binding ∨ (ticket, binding) ∈ jobs.flatMap Job.puts := by
  cases thread with
  | main =>
    change Job.applyAll jobs ledger.placed ticket binding ∨ (ticket, binding) ∈ ledger.puts ↔
      (ledger.placed ticket binding ∨ (ticket, binding) ∈ ledger.puts) ∨ _
    rw [Job.applyAll_iff fun job member => noTakes job member ticket binding, ← List.mem_flatMap,
      or_right_comm]
  | worker =>
    rw [Has, puts_submit_worker, List.mem_append, ← or_assoc]
    rfl

theorem Gathers.has_drain_iff (gathers : ledger.Gathers) :
    ledger.drain.Has ticket binding ↔ ledger.Has ticket binding := by
  have keeps : ledger.Keeps ticket := fun job member => gathers job member ticket
  exact (or_iff_left List.not_mem_nil).trans keeps.outcome_iff

/-- Taking commands back leaves those under other tickets. -/
theorem has_unregister_iff {tickets : List Nat} {command : Command} (idle : ledger.waiting = []) :
    (ledger.submit .main (tickets.map Job.unregister)).Has ticket (.command command) ↔
      ledger.Has ticket (.command command) ∧ ticket ∉ tickets := by
  have noPuts : ∀ job ∈ tickets.map Job.unregister, (ticket, Binding.command command) ∉ job.puts := by
    intro job member
    obtain ⟨other, _, rfl⟩ := List.mem_map.mp member
    exact List.not_mem_nil
  have nothing : ledger.puts = [] := by
    rw [puts, idle]
    rfl
  have has {placed : Placement} {binding : Binding} :
      (Ledger.mk placed ledger.waiting).Has ticket binding ↔ placed ticket binding := by
    rw [Has, puts, idle]
    exact or_iff_left List.not_mem_nil
  refine has.trans ?_
  have here : ledger.Has ticket (.command command) ↔ ledger.placed ticket (.command command) := has
  rw [here]
  by_cases taken : ticket ∈ tickets
  · refine iff_of_false (Job.not_applyAll noPuts ?_) fun both => both.2 taken
    exact ⟨.unregister ticket, List.mem_map_of_mem taken, beq_self_eq_true ticket⟩
  · rw [and_iff_left taken]
    have stays : ∀ job ∈ tickets.map Job.unregister,
        job.takes ticket (.command command) = false := by
      intro job member
      obtain ⟨other, there, rfl⟩ := List.mem_map.mp member
      exact beq_eq_false_iff_ne.mpr fun same => taken (same ▸ there)
    refine (Job.applyAll_iff stays).trans (or_iff_left ?_)
    rintro ⟨job, member, put⟩
    exact noPuts job member put

/-- The commands that a ledger has of a script are those of its structures that are loaded. -/
structure Knows (ledger : Ledger) (loaded : LoadedScript) (known : List (Nat × Command)) : Prop where
  shown : known.map (fun order => (order.1, some order.2.name)) =
    (loadedCommands loaded.structures).map fun command => (command.ticket, command.name)
  owners : ∀ order ∈ known, order.2.script = loaded.script
  has_iff : ∀ ticket command, command.script = loaded.script →
    (ledger.Has ticket (.command command) ↔ (ticket, command) ∈ known)

namespace Knows

variable {loaded : LoadedScript} {known : List (Nat × Command)} {after : Ledger}

theorem of_same (knows : ledger.Knows loaded known)
    (same : ∀ ticket command, command.script = loaded.script →
      (after.Has ticket (.command command) ↔ ledger.Has ticket (.command command))) :
    after.Knows loaded known :=
  { knows with has_iff := fun ticket command isOwn =>
      (same ticket command isOwn).trans (knows.has_iff ticket command isOwn) }

/-- All commands that are loaded have names. -/
theorem names (knows : ledger.Knows loaded known) :
    commandNamesOf loaded.structures = known.map (·.2.name) := by
  have shown := congrArg (List.filterMap Prod.snd) knows.shown
  rw [List.filterMap_map, List.filterMap_map] at shown
  refine Eq.trans shown.symm ?_
  rw [← List.filterMap_eq_map]
  rfl

theorem length (knows : ledger.Knows loaded known) :
    (loadedCommands loaded.structures).length = (commandNamesOf loaded.structures).length := by
  have lengths := congrArg List.length knows.shown
  rw [List.length_map, List.length_map] at lengths
  rw [knows.names, List.length_map, lengths]

/-- A command that is loaded is known. -/
theorem exists_of_loaded (knows : ledger.Knows loaded known) {inner : LoadedStructure}
    {command : CommandStructure} (member : inner ∈ loaded.structures)
    (isLoaded : inner.loaded = true) (isCommand : inner.inner.command? = some command) :
    ∃ order, (command.ticket, order) ∈ known := by
  have listed : command ∈ loadedCommands loaded.structures :=
    List.mem_filterMap.mpr ⟨inner, List.mem_filter.mpr ⟨member, isLoaded⟩, isCommand⟩
  have shown : (command.ticket, command.name) ∈
      (loadedCommands loaded.structures).map fun command => (command.ticket, command.name) :=
    List.mem_map_of_mem listed
  rw [← knows.shown] at shown
  obtain ⟨⟨ticket, order⟩, there, same⟩ := List.mem_map.mp shown
  rw [← (Prod.mk.inj same).1]
  exact ⟨order, there⟩

/-- What is known of a script is under the ticket of a structure that is loaded. -/
theorem mem_structures (knows : ledger.Knows loaded known) {order : Nat × Command}
    (member : order ∈ known) : ∃ inner ∈ loaded.structures, inner.loaded = true ∧
      inner.inner.commandTicket? = some order.1 := by
  have shown := knows.shown ▸ List.mem_map_of_mem
    (f := fun order : Nat × Command => (order.1, some order.2.name)) member
  obtain ⟨command, isLoaded, same⟩ := List.mem_map.mp shown
  obtain ⟨inner, there, isCommand⟩ := List.mem_filterMap.mp isLoaded
  obtain ⟨owned, loaded⟩ := List.mem_filter.mp there
  refine ⟨inner, owned, loaded, ?_⟩
  rw [Structure.commandTicket?, isCommand, ← (Prod.mk.inj same).1]
  rfl

end Knows

end Ledger

/-! ## Draining and settling -/

namespace Host.Follows

variable {host : Host} {ledger : Ledger}

/-- Where nothing waits and nothing has been refused, the commands that are registered are those
that the ledger has. -/
theorem registered_iff (follows : host.Follows ledger) (idle : ledger.waiting = [])
    (settled : ∀ ticket, (host.registrations ticket).refusal = none) {ticket : Nat}
    {command : Command} :
    host.registered ticket = some command ↔ ledger.Has ticket (.command command) := by
  constructor
  · exact fun registered => Or.inl (follows.carries.registered ticket command registered)
  · rintro (placed | waits)
    · rcases follows.carries.kept ticket command placed with kept | ⟨text, kept⟩
      · rw [registered, kept]
      · have accepted := settled ticket
        rw [kept] at accepted
        cases accepted
    · rw [Ledger.puts, idle] at waits
      exact absurd waits List.not_mem_nil

/-- The table holds of a script what the ledger knows of it. -/
theorem commandsOf_perm {loaded : LoadedScript} {known : List (Nat × Command)}
    (follows : host.Follows ledger) (idle : ledger.waiting = [])
    (settled : ∀ ticket, (host.registrations ticket).refusal = none)
    (knows : ledger.Knows loaded known) (once : (commandNamesOf loaded.structures).Nodup) :
    ((host.commandsOf loaded.script).map Command.name).Perm (commandNamesOf loaded.structures) := by
  refine Host.commandsOf_perm follows.carries.reflects once fun name => ?_
  rw [knows.names, List.mem_map]
  constructor
  · rintro ⟨⟨ticket, command⟩, member, rfl⟩
    have isOwn := knows.owners _ member
    exact ⟨ticket, command, (follows.registered_iff idle settled).mpr
      ((knows.has_iff ticket command isOwn).mpr member), isOwn, rfl⟩
  · rintro ⟨ticket, command, registered, isOwn, rfl⟩
    exact ⟨(ticket, command), (knows.has_iff ticket command isOwn).mp
      ((follows.registered_iff idle settled).mp registered), rfl⟩

/-- Draining the queue neither hands out tickets nor changes functions. -/
theorem drain_tables (follows : host.Follows ledger) :
    (host.runPending .main).2.functions = host.functions ∧
      (host.runPending .main).2.nextTicket = host.nextTicket := by
  have step := performAll_step ledger.waiting { host with queue := host.queue.drain.2 }
  rw [runPending_main follows.queue]
  exact ⟨step.functions, step.nextTicket⟩

/-- Only commands that have waited can be refused when the queue is drained. -/
theorem drain_refusal (follows : host.Follows ledger) (gathers : ledger.Gathers)
    (settled : ∀ ticket, (host.registrations ticket).refusal = none) {ticket : Nat}
    (refused : ((host.runPending .main).2.registrations ticket).refusal ≠ none) :
    ∃ command, (ticket, .command command) ∈ ledger.puts := by
  by_contra none
  refine refused ?_
  rw [runPending_main follows.queue]
  change ((ledger.waiting.foldl perform _).registrations ticket).refusal = _
  rw [performAll_registrations (fun job member command put => none ⟨command, ?_⟩)
    fun job member => gathers job member ticket]
  · exact settled ticket
  · exact Ledger.mem_puts.mpr ⟨job, member, put⟩

end Host.Follows

/-- The commands that are loaded once structures have been settled are those that have not been
refused. -/
theorem Host.loadedCommands_settled (host : Host) (structures : List LoadedStructure) :
    loadedCommands (structures.map host.settled) = (loadedCommands structures).filter
      fun command => (host.registrations command.ticket).refusal.isNone := by
  rw [loadedCommands, loadedCommands, List.filter_filterMap, List.filterMap_filter,
    List.filterMap_filter, List.filterMap_map]
  refine List.filterMap_congr fun loaded _ => ?_
  rw [Function.comp, settled, refuses]
  cases isLoaded : loaded.loaded with
  | false => simp [isLoaded]
  | true =>
    cases isCommand : loaded.inner.command? with
    | none => simp [isLoaded, isCommand]
    | some command =>
      cases refusal : (host.registrations command.ticket).refusal with
      | none => simp [isLoaded, isCommand, refusal, Option.filter]
      | some text => simp [refusal, Option.filter]

/-- A ledger goes on to know a script when what the host has refused of it is taken back. -/
theorem Ledger.Knows.settle {ledger : Ledger} {host : Host} {loaded : LoadedScript}
    {known : List (Nat × Command)} {tickets : List Nat} (knows : ledger.Knows loaded known)
    (idle : ledger.waiting = [])
    (refused : ∀ ticket ∈ tickets, (host.registrations ticket).refusal ≠ none)
    (all : ∀ inner ∈ loaded.structures, host.refuses inner = true →
      ∀ ticket ∈ inner.inner.commandTicket?, ticket ∈ tickets) :
    (ledger.submit .main (tickets.map Job.unregister)).Knows (host.settledScript loaded)
      (known.filter fun order => (host.registrations order.1).refusal.isNone) where
  shown := by
    have filtered := congrArg
      (List.filter fun shown => (host.registrations shown.1).refusal.isNone) knows.shown
    rw [List.filter_map, List.filter_map] at filtered
    refine filtered.trans ?_
    rw [Host.settledScript, Host.loadedCommands_settled]
    rfl
  owners := fun order member => knows.owners order (List.mem_of_mem_filter member)
  has_iff := by
    intro ticket command isOwn
    rw [has_unregister_iff idle, knows.has_iff ticket command isOwn, List.mem_filter]
    refine and_congr_right fun member => ?_
    rw [Option.isNone_iff_eq_none]
    constructor
    · intro kept
      by_contra isRefused
      obtain ⟨inner, there, isLoaded, isTicket⟩ := knows.mem_structures member
      obtain ⟨structure', isCommand, rfl⟩ := Option.map_eq_some_iff.mp isTicket
      exact kept (all inner there
        (Host.refuses_iff.mpr ⟨isLoaded, structure', isCommand, isRefused⟩) _ isTicket)
    · exact fun accepted taken => refused ticket taken accepted

end ScriptBinding

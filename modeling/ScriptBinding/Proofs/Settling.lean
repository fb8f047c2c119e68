import ScriptBinding.Proofs.Handing

/-! # What settling takes back

The host may refuse a command that a worker has handed over. Its structure was loaded and its name
counted by then; settling the script takes the name out of the counters and marks the structure as
not loaded, once for each command that was refused, and changes nothing else.
-/

namespace ScriptBinding

/-- The host has refused the command of a structure that is loaded. -/
def Host.refuses (host : Host) (loaded : LoadedStructure) : Bool :=
  loaded.loaded && loaded.inner.command?.any fun command =>
    (host.registrations command.ticket).refusal.isSome

/-- What settling a structure makes of it. -/
def Host.settled (host : Host) (loaded : LoadedStructure) : LoadedStructure :=
  if host.refuses loaded then { loaded with loaded := false } else loaded

/-- What settling structures makes of the counters of their script. -/
def Host.discount (host : Host) (structures : List LoadedStructure) (info : ScriptInfo) :
    ScriptInfo :=
  (commandNamesOf (structures.filter host.refuses)).foldl
    (fun info name => CommandStructure.uncount name info) info

/-- The tickets of the commands that the host has refused. -/
def Host.refusedTickets (host : Host) (structures : List LoadedStructure) : List Nat :=
  commandTicketsOf (structures.filter host.refuses)

namespace Host

variable {host after : Host} {loaded : LoadedStructure}

/-- Only a command that is loaded can be refused. -/
theorem refuses_iff : host.refuses loaded = true ↔ loaded.loaded = true ∧
    ∃ command, loaded.inner.command? = some command ∧
      (host.registrations command.ticket).refusal ≠ none := by
  rw [refuses, Bool.and_eq_true, Option.any_eq_true]
  simp only [Option.isSome_iff_ne_none]

/-- What is refused depends only on what is kept under the ticket. -/
theorem refuses_congr (same : ∀ ticket, loaded.inner.commandTicket? = some ticket →
      after.registrations ticket = host.registrations ticket) :
    after.refuses loaded = host.refuses loaded := by
  unfold refuses
  cases found : loaded.inner.command? with
  | none => rfl
  | some command =>
    have ticket : loaded.inner.commandTicket? = some command.ticket := by
      rw [Structure.commandTicket?, found]
      rfl
    rw [Option.any_some, Option.any_some, same _ ticket]

/-- Some refusals have been taken note of, and nothing else has changed that scripts are bound to.
-/
structure Hears (tickets : List Nat) (before after : Host) : Prop where
  config : after.config = before.config
  bus : after.bus = before.bus
  commands : after.commands = before.commands
  functions : after.functions = before.functions
  queue : after.queue = before.queue
  bound : after.bound = before.bound
  nextTicket : after.nextTicket = before.nextTicket
  registrations : ∀ ticket, after.registrations ticket =
    if ticket ∈ tickets then { before.registrations ticket with refusal := none }
    else before.registrations ticket
  follows : ∀ ledger, before.Follows ledger →
    after.Follows (ledger.submit .main (tickets.map Job.unregister))

namespace Hears

variable {before between after : Host} {tickets others : List Nat}

theorem of_same (config : after.config = before.config) (bus : after.bus = before.bus)
    (commands : after.commands = before.commands) (functions : after.functions = before.functions)
    (queue : after.queue = before.queue) (bound : after.bound = before.bound)
    (nextTicket : after.nextTicket = before.nextTicket)
    (registrations : after.registrations = before.registrations) : Hears [] before after where
  config := config
  bus := bus
  commands := commands
  functions := functions
  queue := queue
  bound := bound
  nextTicket := nextTicket
  registrations := fun ticket =>
    (congrFun registrations ticket).trans (if_neg List.not_mem_nil).symm
  follows := by
    intro ledger follows
    rw [List.map_nil, Ledger.submit_nil]
    exact follows.of_same config bus commands queue bound registrations nextTicket.ge

theorem refl (host : Host) : Hears [] host host :=
  .of_same rfl rfl rfl rfl rfl rfl rfl rfl

theorem trans (first : Hears tickets before between) (second : Hears others between after) :
    Hears (tickets ++ others) before after where
  config := second.config.trans first.config
  bus := second.bus.trans first.bus
  commands := second.commands.trans first.commands
  functions := second.functions.trans first.functions
  queue := second.queue.trans first.queue
  bound := second.bound.trans first.bound
  nextTicket := second.nextTicket.trans first.nextTicket
  registrations := by
    intro ticket
    rw [second.registrations, first.registrations]
    by_cases here : ticket ∈ tickets
    · by_cases there : ticket ∈ others <;> simp [here, there]
    · simp [here]
  follows := by
    intro ledger follows
    rw [List.map_append, Ledger.submit_append]
    exact second.follows _ (first.follows ledger follows)

/-- Nothing is heard behind what has been heard. -/
theorem quiet (first : Hears tickets before between) (second : Hears [] between after) :
    Hears tickets before after := by
  have whole := first.trans second
  rwa [List.append_nil] at whole

theorem of_untouched {before after : Workspace} (untouched : before.Untouched after)
    (functions : after.host.functions = before.host.functions) :
    Hears [] before.host after.host :=
  .of_same untouched.config untouched.bus untouched.commands functions untouched.queue
    untouched.bound untouched.nextTicket untouched.registrations

/-- Taking note of a refusal. -/
theorem takeRefusal {ticket : Nat} {text : String} (host : Host)
    (refused : (host.registrations ticket).refusal = some text) :
    Hears [ticket] host (host.takeRefusal ticket).2 := by
  obtain ⟨step, _, commands, registrations⟩ := takeRefusal_spec ticket host
  refine ⟨step.config, step.bus, commands, step.functions, step.queue, step.bound, step.nextTicket,
    fun other => ?_, fun ledger follows => follows.takeRefusal refused⟩
  rw [registrations]
  by_cases here : other = ticket
  · subst here
    rw [Function.update_self, if_pos (List.mem_singleton_self _)]
  · rw [Function.update_of_ne here, if_neg fun member => here (List.mem_singleton.mp member)]

/-- Where nothing has been refused there is nothing to take note of. -/
theorem takeRefusal_of_none {ticket : Nat} (host : Host)
    (none : (host.registrations ticket).refusal = none) :
    Hears [] host (host.takeRefusal ticket).2 := by
  obtain ⟨step, _, commands, registrations⟩ := takeRefusal_spec ticket host
  refine .of_same step.config step.bus commands step.functions step.queue step.bound
    step.nextTicket ?_
  rw [registrations, Function.update_eq_iff]
  refine ⟨?_, fun _ _ => rfl⟩
  rw [← none]

end Hears

end Host

/-- Where no trigger waits, moving on to a script, or to none, is only noted in the context. -/
theorem Workspace.setScript_of_none {workspace : Workspace}
    (none : workspace.context.currentDrafts = []) (thread : Thread) (next : Option Script) :
    (workspace.setScript thread next).host = workspace.host ∧
      (workspace.setScript thread next).context.currentDrafts = [] ∧
      (workspace.setScript thread next).context.diagnostics = workspace.context.diagnostics ∧
      (workspace.setScript thread next).context.taken = workspace.context.taken ∧
      (workspace.setScript thread next).context.script.map Script.name =
        next.map Script.name := by
  cases leaves : workspace.leaves next with
  | true =>
    rw [Workspace.leaves, Bool.not_eq_true'] at leaves
    rw [setScript_of_moves leaves, flush_of_none none]
    exact ⟨rfl, moved_drafts _ _, rfl, rfl, rfl⟩
  | false =>
    rw [setScript_of_stays thread leaves]
    refine ⟨rfl, none, rfl, rfl, ?_⟩
    rw [Workspace.leaves, Bool.not_eq_false'] at leaves
    cases current : workspace.context.script with
    | none =>
      rw [current] at leaves
      cases next with
      | none => rfl
      | some script => cases leaves
    | some script =>
      rw [current] at leaves
      cases next with
      | none => cases leaves
      | some other =>
        have same : script.same other = true := leaves
        simp only [Script.same, Bool.and_eq_true, beq_iff_eq] at same
        exact congrArg some same.1.2

/-- Reporting a failure at a line records it once, for the script that is current. -/
theorem Workspace.reportAt_recorded (line : Nat) (failure : Failure) (workspace : Workspace) :
    ∃ diagnostic, (workspace.reportAt line failure).context.diagnostics =
        workspace.context.diagnostics ++ [diagnostic] ∧
      diagnostic.script = workspace.context.script.map Script.name :=
  ⟨_, rfl, rfl⟩

namespace Loading

variable {script : Script} {workspace : Workspace}

/-- What settling structures comes to: those that have been refused are marked and counted, and each
of them is reported for the script. -/
structure Settles (script : Script) (structures : List LoadedStructure) (before : Workspace)
    (settlement : Settlement) (result : List LoadedStructure × Settlement × Workspace) :
    Prop where
  settled : result.1 = structures.map before.host.settled
  info : result.2.1.info = before.host.discount structures settlement.info
  refused : result.2.1.refused =
    settlement.refused + (structures.filter before.host.refuses).length
  hears : before.host.Hears (before.host.refusedTickets structures) result.2.2.host
  drafts : result.2.2.context.currentDrafts = []
  taken : result.2.2.context.taken = before.context.taken
  recorded : ∃ own, result.2.2.context.diagnostics = before.context.diagnostics ++ own ∧
    (∀ diagnostic ∈ own, diagnostic.script = some script.name) ∧
    own.length = (structures.filter before.host.refuses).length

theorem Settles.cons {first : LoadedStructure} {others : List LoadedStructure}
    {before : Workspace} {settlement : Settlement}
    {one rest : List LoadedStructure × Settlement × Workspace}
    (apart : ∀ ticket ∈ before.host.refusedTickets [first], ticket ∉ commandTicketsOf others)
    (head : Settles script [first] before settlement one)
    (tail : Settles script others one.2.2 one.2.1 rest) :
    Settles script (first :: others) before settlement (one.1 ++ rest.1, rest.2) := by
  have same : ∀ loaded ∈ others,
      one.2.2.host.refuses loaded = before.host.refuses loaded := by
    intro loaded member
    refine Host.refuses_congr fun ticket isTicket => ?_
    rw [head.hears.registrations, if_neg]
    exact fun refused => apart ticket refused (mem_commandTicketsOf.mpr ⟨loaded, member, isTicket⟩)
  have filtered : others.filter one.2.2.host.refuses = others.filter before.host.refuses :=
    List.filter_congr same
  have whole : (first :: others).filter before.host.refuses =
      [first].filter before.host.refuses ++ others.filter one.2.2.host.refuses := by
    rw [filtered, ← List.filter_append]
    rfl
  refine ⟨?_, ?_, ?_, ?_, tail.drafts, tail.taken.trans head.taken, ?_⟩
  · rw [head.settled, tail.settled]
    refine congrArg (before.host.settled first :: ·) (List.map_congr_left fun loaded member => ?_)
    rw [Host.settled, Host.settled, same loaded member]
  · have names := congrArg commandNamesOf whole
    rw [commandNamesOf_append] at names
    rw [tail.info, head.info]
    simp only [Host.discount]
    rw [names, List.foldl_append]
  · rw [tail.refused, head.refused, whole, List.length_append, Nat.add_assoc]
  · have heard := head.hears.trans tail.hears
    rw [Host.refusedTickets, Host.refusedTickets] at heard
    rw [Host.refusedTickets, whole, commandTicketsOf, List.filterMap_append]
    exact heard
  · obtain ⟨own, diagnostics, blamed, length⟩ := head.recorded
    obtain ⟨later, all, blamedLater, lengthLater⟩ := tail.recorded
    refine ⟨own ++ later, by rw [all, diagnostics, List.append_assoc], fun diagnostic member => ?_,
      by rw [List.length_append, length, lengthLater, whole, List.length_append]⟩
    exact (List.mem_append.mp member).elim (blamed diagnostic) (blamedLater diagnostic)

/-- A structure that has not been refused stays as it is. -/
theorem Settles.of_accepted {loaded : LoadedStructure} {before after : Workspace}
    (accepted : before.host.refuses loaded = false) (hears : before.host.Hears [] after.host)
    (drafts : after.context.currentDrafts = []) (taken : after.context.taken = before.context.taken)
    (diagnostics : after.context.diagnostics = before.context.diagnostics)
    (settlement : Settlement) :
    Settles script [loaded] before settlement ([loaded], settlement, after) := by
  have none : [loaded].filter before.host.refuses = [] := by
    rw [List.filter_cons, accepted]
    rfl
  refine ⟨?_, ?_, ?_, ?_, drafts, taken, [], ?_, ?_, ?_⟩
  · rw [List.map_singleton, Host.settled, accepted]
    rfl
  · rw [Host.discount, none]
    rfl
  · rw [none]
    rfl
  · rw [Host.refusedTickets, none]
    exact hears
  · rw [diagnostics, List.append_nil]
  · exact fun _ absent => absurd absent List.not_mem_nil
  · rw [none]
    rfl

/-- A command that has been refused is marked, taken out of the counters, and reported. -/
theorem Settles.of_refused {command : CommandStructure} {text : String} {loaded : LoadedStructure}
    (isLoaded : loaded.loaded = true) (isCommand : loaded.inner = .command command)
    (refused : (workspace.host.registrations command.ticket).refusal = some text)
    (none : workspace.context.currentDrafts = []) (thread : Thread) (settlement : Settlement) :
    let result := settle thread script loaded settlement workspace
    Settles script [loaded] workspace settlement ([result.1], result.2) := by
  let heard : Workspace := { workspace with host := (workspace.host.takeRefusal command.ticket).2 }
  let noted := heard.inContext (·.noteCall ⟨.settle, loaded.index, false⟩)
  let current := noted.setScript thread (some script)
  have waits : noted.context.currentDrafts = [] := none
  obtain ⟨host, drafts, diagnostics, taken, named⟩ :=
    Workspace.setScript_of_none waits thread (some script)
  have refuses : workspace.host.refuses loaded = true := by
    refine Host.refuses_iff.mpr ⟨isLoaded, command, by rw [isCommand]; rfl, ?_⟩
    rw [refused]
    exact Option.some_ne_none text
  have one : [loaded].filter workspace.host.refuses = [loaded] := by
    rw [List.filter_cons, refuses]
    rfl
  have result : settle thread script loaded settlement workspace =
      ({ loaded with loaded := false },
        ⟨command.name.elim settlement.info (CommandStructure.uncount · settlement.info),
          settlement.refused + 1⟩,
        current.reportAt loaded.line (.host text)) := by
    unfold settle
    rw [if_pos isLoaded, isCommand]
    dsimp only [Structure.settle]
    rw [command.settle_of_some settlement.info refused]
    cases command.name <;> rfl
  have hears : workspace.host.Hears [command.ticket]
      (current.reportAt loaded.line (.host text)).host :=
    (Host.Hears.takeRefusal workspace.host refused).quiet
      ((show Host.Hears [] heard.host current.host from host ▸ .refl _).quiet
        (.of_untouched (Workspace.Still.reportAt _ _ current).untouched rfl))
  obtain ⟨diagnostic, recorded, blamed⟩ := current.reportAt_recorded loaded.line (.host text)
  have settleTaken : noted.context.taken = heard.context.taken :=
    (heard.noteCall_counts Phase.noConfusion).taken
  intro settles
  rw [show settles = _ from result]
  refine ⟨?_, ?_, ?_, ?_, drafts, ?_, [diagnostic], ?_, ?_, ?_⟩
  · rw [List.map_singleton, Host.settled, refuses]
    rfl
  · have names : commandNamesOf [loaded] = command.name.toList := by
      cases found : command.name <;>
        simp [commandNamesOf, loadedCommands, isLoaded, isCommand, Structure.command?, found]
    rw [Host.discount, one, names]
    cases command.name <;> rfl
  · rw [one]
    rfl
  · have ticket : commandTicketsOf [loaded] = [command.ticket] := by
      simp [commandTicketsOf, isCommand, Structure.commandTicket?, Structure.command?]
    rw [Host.refusedTickets, one, ticket]
    exact hears
  · exact taken.trans settleTaken
  · rw [recorded]
    exact congrArg (· ++ [diagnostic]) diagnostics
  · intro other member
    rw [List.mem_singleton.mp member, blamed]
    exact named
  · rw [one]
    rfl

/-- To settle one structure is to take note of the refusal of its command, if there is one. -/
theorem settle_settles (thread : Thread) (loaded : LoadedStructure)
    (builtIn : loaded.inner.isBuiltIn = true) (none : workspace.context.currentDrafts = [])
    (settlement : Settlement) :
    let result := settle thread script loaded settlement workspace
    Settles script [loaded] workspace settlement ([result.1], result.2) := by
  cases isLoaded : loaded.loaded with
  | false =>
    have accepted : workspace.host.refuses loaded = false := by
      rw [Host.refuses, isLoaded]
      rfl
    have same : settle thread script loaded settlement workspace =
        (loaded, settlement, workspace) := by
      rw [settle, isLoaded]
      rfl
    rw [same]
    exact .of_accepted accepted (.refl _) none rfl rfl settlement
  | true =>
    have noted (host : Host) (hears : workspace.host.Hears [] host)
        (accepted : workspace.host.refuses loaded = false)
        (done : loaded.inner.settle settlement.info workspace =
          (.done (), settlement.info, { workspace with host })) :
        let result := settle thread script loaded settlement workspace
        Settles script [loaded] workspace settlement ([result.1], result.2) := by
      let heard : Workspace := { workspace with host }
      let after := heard.inContext (·.noteCall ⟨.settle, loaded.index, true⟩)
      have same : settle thread script loaded settlement workspace =
          (loaded, settlement, after) := by
        rw [settle, isLoaded, done]
        rfl
      rw [same]
      refine .of_accepted accepted ?_ ?_ ?_ ?_ settlement
      · exact hears
      · exact none
      · exact (heard.noteCall_counts Phase.noConfusion).taken
      · rfl
    have noCommand (absent : loaded.inner.command? = Option.none)
        (done : loaded.inner.settle settlement.info workspace =
          (.done (), settlement.info, workspace)) :
        let result := settle thread script loaded settlement workspace
        Settles script [loaded] workspace settlement ([result.1], result.2) := by
      refine noted workspace.host (.refl _) ?_ done
      rw [Host.refuses, absent, Option.any_none, Bool.and_false]
    cases inner : loaded.inner with
    | command command =>
      cases refusal : (workspace.host.registrations command.ticket).refusal with
      | some text => exact .of_refused isLoaded inner refusal none thread settlement
      | none =>
        refine noted _ (.takeRefusal_of_none _ refusal) ?_ ?_
        · rw [Host.refuses, inner, Structure.command?, Option.any_some, refusal,
            Option.isSome_none, Bool.and_false]
        · rw [inner, Structure.settle]
          dsimp only
          rw [command.settle_of_none settlement.info refusal]
          rfl
    | custom inner' =>
      rw [inner] at builtIn
      cases builtIn
    | _ => exact noCommand (by rw [inner]; rfl) (by rw [inner]; rfl)

/-- Settling structures one after the other. -/
theorem settleAll_settles (thread : Thread) (structures : List LoadedStructure)
    (builtIn : ∀ loaded ∈ structures, loaded.inner.isBuiltIn = true)
    (distinct : (commandTicketsOf structures).Nodup)
    (none : workspace.context.currentDrafts = []) (settlement : Settlement) :
    Settles script structures workspace settlement
      (settleAll thread script structures settlement workspace) := by
  induction structures generalizing settlement workspace with
  | nil =>
    exact ⟨rfl, rfl, rfl, .refl _, none, rfl, [], (List.append_nil _).symm,
      fun _ absent => absurd absent List.not_mem_nil, rfl⟩
  | cons first others ih =>
    have head : Settles script [first] workspace settlement _ :=
      settle_settles thread first (builtIn first List.mem_cons_self) none settlement
    have restDistinct : (commandTicketsOf others).Nodup :=
      distinct.sublist ((List.sublist_cons_self first others).filterMap _)
    have tail := ih (fun loaded member => builtIn loaded (List.mem_cons_of_mem _ member))
      restDistinct head.drafts (settle thread script first settlement workspace).2.1
    refine head.cons ?_ tail
    intro ticket refused later
    obtain ⟨loaded, member, isTicket⟩ := mem_commandTicketsOf.mp refused
    rw [List.mem_singleton.mp (List.mem_of_mem_filter member)] at isTicket
    rw [commandTicketsOf, List.filterMap_cons, isTicket] at distinct
    exact (List.nodup_cons.mp distinct).1 later

end Loading

/-! ## Counters -/

theorem CommandStructure.foldl_uncount (names : List String) (info : ScriptInfo) :
    names.foldl (fun info name => uncount name info) info =
      { info with
        commands := info.commands - names.length
        commandNames := info.commandNames.filter (· ∉ names) } := by
  induction names generalizing info with
  | nil => simp
  | cons name others ih =>
    rw [List.foldl_cons, ih]
    simp only [uncount, List.length_cons, List.filter_filter, ScriptInfo.mk.injEq, true_and]
    refine ⟨by omega, List.filter_congr fun other _ => ?_⟩
    simp only [List.mem_cons, not_or, Bool.decide_and, decide_not]
    rw [Bool.and_comm]
    rfl

/-- The name of the command of a structure, if it is loaded. -/
def LoadedStructure.commandName? (loaded : LoadedStructure) : Option String :=
  if loaded.loaded then loaded.inner.command?.bind (·.name) else none

theorem commandNamesOf_eq (structures : List LoadedStructure) :
    commandNamesOf structures = structures.filterMap (·.commandName?) := by
  rw [commandNamesOf, loadedCommands, List.filterMap_filterMap, List.filterMap_filter]
  rfl

theorem commandNamesOf_cons (loaded : LoadedStructure) (others : List LoadedStructure) :
    commandNamesOf (loaded :: others) = loaded.commandName?.toList ++ commandNamesOf others := by
  rw [commandNamesOf_eq, commandNamesOf_eq, List.filterMap_cons]
  cases loaded.commandName? <;> rfl

/-- Where no name is counted twice, to leave out the names of chosen structures is to leave out the
structures. -/
theorem commandNamesOf_filter_not (chosen : LoadedStructure → Bool)
    (structures : List LoadedStructure) (once : (commandNamesOf structures).Nodup) :
    (commandNamesOf structures).filter (· ∉ commandNamesOf (structures.filter chosen)) =
      commandNamesOf (structures.filter (!chosen ·)) := by
  induction structures with
  | nil => rfl
  | cons first others ih =>
    rw [commandNamesOf_cons] at once ⊢
    obtain ⟨_, restOnce, apart⟩ := List.nodup_append.mp once
    have rest := ih restOnce
    have fewer {name : String} (member : name ∈ commandNamesOf (others.filter chosen)) :
        name ∈ commandNamesOf others := by
      rw [commandNamesOf_eq] at member ⊢
      exact (List.filter_sublist.filterMap _).subset member
    rw [List.filter_append]
    cases isChosen : chosen first with
    | false =>
      rw [List.filter_cons_of_neg (by rw [isChosen]; exact Bool.false_ne_true),
        List.filter_cons_of_pos (by rw [isChosen]; rfl), commandNamesOf_cons, rest,
        List.filter_eq_self.mpr]
      intro name here
      rw [decide_eq_true_eq]
      exact fun there => apart name here name (fewer there) rfl
    | true =>
      rw [List.filter_cons_of_pos isChosen,
        List.filter_cons_of_neg (by rw [isChosen]; exact Bool.false_ne_true), commandNamesOf_cons,
        List.filter_eq_nil_iff.mpr, List.nil_append, ← rest]
      · refine List.filter_congr fun name there => ?_
        refine decide_eq_decide.mpr (not_congr (List.mem_append.trans (or_iff_right ?_)))
        exact fun here => apart name here name there rfl
      · intro name here
        rw [decide_eq_true_eq, not_not]
        exact List.mem_append_left _ here

namespace Host
variable {host : Host}

theorem commandName?_settled (loaded : LoadedStructure) :
    (host.settled loaded).commandName? =
      if host.refuses loaded then none else loaded.commandName? := by
  unfold settled
  split <;> rfl

theorem commandNamesOf_settled (structures : List LoadedStructure) :
    commandNamesOf (structures.map host.settled) =
      commandNamesOf (structures.filter (!host.refuses ·)) := by
  rw [commandNamesOf_eq, commandNamesOf_eq, List.filterMap_map, List.filterMap_filter]
  refine List.filterMap_congr fun loaded _ => ?_
  rw [Function.comp, commandName?_settled]
  cases host.refuses loaded <;> rfl

/-- A function is never refused. -/
theorem loadedFunctions_settled (structures : List LoadedStructure) :
    loadedFunctions (structures.map host.settled) = loadedFunctions structures := by
  rw [loadedFunctions, loadedFunctions, List.filterMap_filter, List.filterMap_filter,
    List.filterMap_map]
  refine List.filterMap_congr fun loaded _ => ?_
  unfold Function.comp settled
  split
  · next refused =>
    obtain ⟨_, command, isCommand, _⟩ := refuses_iff.mp refused
    have noFunction : loaded.inner.function? = none := by
      cases inner : loaded.inner with
      | command _ => rfl
      | _ => rw [inner] at isCommand; cases isCommand
    simp [noFunction]
  · rfl

end Host

/-- What settling a script makes of it. -/
def Host.settledScript (host : Host) (loaded : LoadedScript) : LoadedScript :=
  { loaded with
    structures := loaded.structures.map host.settled
    info := host.discount loaded.structures loaded.info
    errors := loaded.errors + (loaded.structures.filter host.refuses).length }

namespace Host

variable (host : Host)

/-- Settling takes only commands out of the counters. -/
theorem discount_bound (structures : List LoadedStructure) (info : ScriptInfo) :
    (host.discount structures info).triggers = info.triggers ∧
      (host.discount structures info).functions = info.functions ∧
      (host.discount structures info).structures = info.structures := by
  rw [discount, CommandStructure.foldl_uncount]
  exact ⟨rfl, rfl, rfl⟩

theorem settled_inner (loaded : LoadedStructure) : (host.settled loaded).inner = loaded.inner := by
  unfold settled
  split <;> rfl

theorem commandTicketsOf_settled (structures : List LoadedStructure) :
    commandTicketsOf (structures.map host.settled) = commandTicketsOf structures := by
  rw [commandTicketsOf, List.filterMap_map]
  exact List.filterMap_congr fun loaded _ =>
    congrArg Structure.commandTicket? (host.settled_inner loaded)

end Host

/-- The counters of a script agree with its structures when it has been settled, too. -/
theorem LoadedScript.Sums.settled {loaded : LoadedScript} (sums : loaded.Sums) (host : Host) :
    (host.settledScript loaded).Sums := by
  have once := sums.once
  rw [sums.names] at once
  have names : loaded.info.commandNames.filter
      (· ∉ commandNamesOf (loaded.structures.filter host.refuses)) =
        commandNamesOf (loaded.structures.map host.settled) := by
    rw [Host.commandNamesOf_settled, sums.names]
    exact commandNamesOf_filter_not host.refuses loaded.structures once
  have discounted : (host.settledScript loaded).info = { loaded.info with
      commands := loaded.info.commands -
        (commandNamesOf (loaded.structures.filter host.refuses)).length
      commandNames := commandNamesOf (loaded.structures.map host.settled) } := by
    rw [← names]
    exact CommandStructure.foldl_uncount _ _
  have parted := ((List.filter_append_perm host.refuses loaded.structures).filterMap
    (·.commandName?)).length_eq
  rw [List.filterMap_append, List.length_append, ← commandNamesOf_eq, ← commandNamesOf_eq,
    ← commandNamesOf_eq, ← Host.commandNamesOf_settled, ← sums.names, ← sums.commands] at parted
  refine ⟨?_, ?_, ?_, ?_, ?_⟩
  · rw [discounted]
    exact sums.functions.trans (congrArg List.length (Host.loadedFunctions_settled _).symm)
  · rw [discounted]
    change loaded.info.commands - _ = (commandNamesOf _).length
    omega
  · rw [discounted]
    rfl
  · rw [discounted]
    exact names ▸ sums.once.filter _
  · rw [discounted]
    exact sums.structures.trans (List.length_map _).symm

/-! ## Scripts -/

/-- What has been recorded in the meantime, and against which scripts. -/
structure Workspace.Records (records : List (Script × Diagnostic)) (before after : Workspace) :
    Prop where
  diagnostics : after.context.diagnostics = before.context.diagnostics ++ records.map Prod.snd
  blamed : ∀ record ∈ records, record.2.script = some record.1.name

namespace Workspace.Records

variable {before between after : Workspace} {records others : List (Script × Diagnostic)}

theorem of_same (same : after.context.diagnostics = before.context.diagnostics) :
    before.Records [] after :=
  ⟨same.trans (List.append_nil _).symm, fun _ absent => absurd absent List.not_mem_nil⟩

theorem trans (first : before.Records records between) (second : between.Records others after) :
    before.Records (records ++ others) after where
  diagnostics := by
    rw [second.diagnostics, first.diagnostics, List.map_append, List.append_assoc]
  blamed := fun record member => (List.mem_append.mp member).elim (first.blamed record)
    (second.blamed record)

/-- What has been recorded against one script. -/
theorem of_script {script : Script} {own : List Diagnostic}
    (diagnostics : after.context.diagnostics = before.context.diagnostics ++ own)
    (blamed : ∀ diagnostic ∈ own, diagnostic.script = some script.name) :
    before.Records (own.map (script, ·)) after where
  diagnostics := by rw [diagnostics, List.map_map]; exact congrArg _ (List.map_id _).symm
  blamed := by
    intro record member
    obtain ⟨diagnostic, there, rfl⟩ := List.mem_map.mp member
    exact blamed diagnostic there

end Workspace.Records

/-- How much of what has been recorded is recorded against a script. -/
def recordedAgainst (script : Script) (records : List (Script × Diagnostic)) : Nat :=
  records.countP (·.1 = script)

theorem recordedAgainst_append (script : Script) (records others : List (Script × Diagnostic)) :
    recordedAgainst script (records ++ others) =
      recordedAgainst script records + recordedAgainst script others :=
  List.countP_append

theorem recordedAgainst_own (script : Script) (own : List Diagnostic) :
    recordedAgainst script (own.map (script, ·)) = own.length := by
  rw [recordedAgainst, List.countP_map]
  exact List.countP_eq_length.mpr fun _ _ => decide_eq_true rfl

/-- Nothing is recorded against a script where it is all recorded against others. -/
theorem recordedAgainst_of_apart {script : Script} {records : List (Script × Diagnostic)}
    (apart : ∀ record ∈ records, record.1 ≠ script) : recordedAgainst script records = 0 :=
  List.countP_eq_zero.mpr fun record member same => apart record member (of_decide_eq_true same)

/-- The number of structures of a script that the host has refused. -/
def Host.refusedCount (host : Host) (loaded : LoadedScript) : Nat :=
  (loaded.structures.filter host.refuses).length

/-- The structures of scripts that the host has refused. -/
def Host.refusedAmong (host : Host) (scripts : List LoadedScript) : List LoadedStructure :=
  scripts.flatMap (·.structures.filter host.refuses)

namespace Host

variable {host after : Host}

theorem Hears.refuses {tickets : List Nat} {loaded : LoadedStructure}
    (hears : host.Hears tickets after)
    (apart : ∀ ticket, loaded.inner.commandTicket? = some ticket → ticket ∉ tickets) :
    after.refuses loaded = host.refuses loaded :=
  refuses_congr fun ticket isTicket => by rw [hears.registrations, if_neg (apart ticket isTicket)]

section

variable {structures : List LoadedStructure}
  (same : ∀ loaded ∈ structures, after.refuses loaded = host.refuses loaded)

include same

theorem refusedTickets_congr :
    after.refusedTickets structures = host.refusedTickets structures := by
  rw [refusedTickets, refusedTickets, List.filter_congr same]

theorem discount_congr (info : ScriptInfo) :
    after.discount structures info = host.discount structures info := by
  rw [discount, discount, List.filter_congr same]

theorem map_settled_congr : structures.map after.settled = structures.map host.settled := by
  refine List.map_congr_left fun loaded member => ?_
  rw [settled, settled, same loaded member]

end

variable {loaded : LoadedScript}
  (same : ∀ inner ∈ loaded.structures, after.refuses inner = host.refuses inner)

include same

theorem refusedCount_congr : after.refusedCount loaded = host.refusedCount loaded := by
  rw [refusedCount, refusedCount, List.filter_congr same]

theorem settledScript_congr : after.settledScript loaded = host.settledScript loaded := by
  rw [settledScript, settledScript, map_settled_congr same, discount_congr same,
    List.filter_congr same]

end Host

/-- The command tickets of scripts. -/
def scriptTicketsOf (scripts : List LoadedScript) : List Nat :=
  scripts.flatMap (commandTicketsOf ·.structures)

namespace Host

variable {host : Host} {scripts : List LoadedScript} {ticket : Nat}

theorem mem_refusedTickets : ticket ∈ scripts.flatMap (host.refusedTickets ·.structures) ↔
    ∃ loaded ∈ scripts, ∃ inner ∈ loaded.structures, host.refuses inner = true ∧
      inner.inner.commandTicket? = some ticket := by
  simp only [List.mem_flatMap, refusedTickets, mem_commandTicketsOf, List.mem_filter, and_assoc]

theorem refusal_of_mem_refusedTickets
    (member : ticket ∈ scripts.flatMap (host.refusedTickets ·.structures)) :
    (host.registrations ticket).refusal ≠ none := by
  obtain ⟨_, _, inner, _, refuses, isTicket⟩ := mem_refusedTickets.mp member
  obtain ⟨_, command, isCommand, refused⟩ := refuses_iff.mp refuses
  rw [Structure.commandTicket?, isCommand] at isTicket
  exact Option.some.inj isTicket ▸ refused

/-- Settling keeps the tickets of scripts. -/
theorem scriptTicketsOf_settled (host : Host) (scripts : List LoadedScript) :
    scriptTicketsOf (scripts.map host.settledScript) = scriptTicketsOf scripts := by
  rw [scriptTicketsOf, List.flatMap_map]
  exact List.flatMap_congr fun loaded _ => host.commandTicketsOf_settled loaded.structures

end Host

/-- It has been learnt which commands of scripts the host has refused, and each of them has been
recorded against its script. -/
structure Workspace.Learns (scripts : List LoadedScript) (before after : Workspace) : Prop where
  hears : before.host.Hears (scripts.flatMap (before.host.refusedTickets ·.structures)) after.host
  drafts : after.context.currentDrafts = []
  taken : after.context.taken = before.context.taken
  recorded : ∃ records, before.Records records after ∧
    (∀ record ∈ records, ∃ loaded ∈ scripts, record.1 = loaded.script) ∧
    ∀ loaded ∈ scripts, recordedAgainst loaded.script records = before.host.refusedCount loaded

/-- What is learnt about one script does not matter to the others. -/
theorem Workspace.Learns.refuses {first : LoadedScript} {others : List LoadedScript}
    {before between : Workspace} (learns : before.Learns [first] between)
    (tickets : ∀ ticket ∈ commandTicketsOf first.structures, ticket ∉ scriptTicketsOf others) :
    ∀ loaded ∈ others, ∀ inner ∈ loaded.structures,
      between.host.refuses inner = before.host.refuses inner := by
  intro loaded member inner there
  refine learns.hears.refuses fun ticket isTicket refused => ?_
  rw [List.flatMap_singleton] at refused
  exact tickets ticket ((List.filter_sublist.filterMap _).subset refused)
    (List.mem_flatMap.mpr ⟨loaded, member, mem_commandTicketsOf.mpr ⟨inner, there, isTicket⟩⟩)

theorem Workspace.Learns.cons {first : LoadedScript} {others : List LoadedScript}
    {before between after : Workspace}
    (same : ∀ loaded ∈ others, ∀ inner ∈ loaded.structures,
      between.host.refuses inner = before.host.refuses inner)
    (apart : ∀ loaded ∈ others, loaded.script ≠ first.script)
    (head : before.Learns [first] between) (tail : between.Learns others after) :
    before.Learns (first :: others) after := by
  refine ⟨?_, tail.drafts, tail.taken.trans head.taken, ?_⟩
  · have heard := head.hears.trans tail.hears
    rw [List.flatMap_congr fun loaded member => Host.refusedTickets_congr (same loaded member),
      ← List.flatMap_append] at heard
    exact heard
  · obtain ⟨own, recorded, amongFirst, count⟩ := head.recorded
    obtain ⟨records, recordedLater, among, counts⟩ := tail.recorded
    refine ⟨own ++ records, recorded.trans recordedLater, ?_, ?_⟩
    · intro record member
      rcases List.mem_append.mp member with here | there
      · obtain ⟨loaded, member, isScript⟩ := amongFirst record here
        exact ⟨loaded, List.mem_cons.mpr (Or.inl (List.mem_singleton.mp member)), isScript⟩
      · obtain ⟨loaded, member, isScript⟩ := among record there
        exact ⟨loaded, List.mem_cons_of_mem _ member, isScript⟩
    · intro loaded member
      rw [recordedAgainst_append]
      rcases List.mem_cons.mp member with rfl | later
      · rw [count loaded (List.mem_singleton_self _), recordedAgainst_of_apart, Nat.add_zero]
        intro record there isFirst
        obtain ⟨other, member, isScript⟩ := among record there
        exact apart other member (isScript.symm.trans isFirst)
      · rw [counts loaded later, recordedAgainst_of_apart, Nat.zero_add,
          Host.refusedCount_congr (same loaded later)]
        intro record here isLoaded
        obtain ⟨other, member, isScript⟩ := amongFirst record here
        rw [List.mem_singleton.mp member] at isScript
        exact apart loaded later (isLoaded.symm.trans isScript)

namespace Loading

variable {workspace : Workspace}

/-- Settling one script. -/
theorem settleScript_learns (thread : Thread) (loaded : LoadedScript)
    (builtIn : ∀ inner ∈ loaded.structures, inner.inner.isBuiltIn = true)
    (distinct : (commandTicketsOf loaded.structures).Nodup)
    (none : workspace.context.currentDrafts = []) :
    (settleScript thread loaded workspace).1 =
        (workspace.host.settledScript loaded, workspace.host.refusedCount loaded) ∧
      workspace.Learns [loaded] (settleScript thread loaded workspace).2 := by
  have settles : Settles loaded.script loaded.structures workspace ⟨loaded.info, 0⟩
      (settleAll thread loaded.script loaded.structures ⟨loaded.info, 0⟩ workspace) :=
    settleAll_settles thread loaded.structures builtIn distinct none ⟨loaded.info, 0⟩
  obtain ⟨own, diagnostics, blamed, length⟩ := settles.recorded
  refine ⟨?_, ?_, settles.drafts, settles.taken, own.map (loaded.script, ·),
    .of_script diagnostics blamed, ?_, ?_⟩
  · unfold settleScript
    dsimp only
    rw [settles.settled, settles.info, settles.refused, Nat.zero_add]
    rfl
  · rw [List.flatMap_singleton]
    exact settles.hears
  · intro record member
    obtain ⟨_, _, rfl⟩ := List.mem_map.mp member
    exact ⟨loaded, List.mem_singleton_self _, rfl⟩
  · intro other member
    rw [List.mem_singleton.mp member, recordedAgainst_own, length]
    rfl

/-- Settling scripts one after the other. -/
theorem each_learns (thread : Thread) (scripts : List LoadedScript)
    (builtIn : ∀ loaded ∈ scripts, ∀ inner ∈ loaded.structures, inner.inner.isBuiltIn = true)
    (distinct : (scriptTicketsOf scripts).Nodup) (apart : (scripts.map (·.script)).Nodup)
    (none : workspace.context.currentDrafts = []) :
    (each (settleScript thread) scripts workspace).1 = scripts.map (fun loaded =>
        (workspace.host.settledScript loaded, workspace.host.refusedCount loaded)) ∧
      workspace.Learns scripts (each (settleScript thread) scripts workspace).2 := by
  induction scripts generalizing workspace with
  | nil =>
    refine ⟨rfl, .refl _, none, rfl, [], .of_same rfl, ?_, ?_⟩
    all_goals exact fun _ absent => absurd absent List.not_mem_nil
  | cons first others ih =>
    rw [scriptTicketsOf, List.flatMap_cons] at distinct
    obtain ⟨firstDistinct, restDistinct, tickets⟩ := List.nodup_append.mp distinct
    obtain ⟨settled, head⟩ := settleScript_learns thread first (builtIn first List.mem_cons_self)
      firstDistinct none
    obtain ⟨rest, tail⟩ := ih (fun loaded member => builtIn loaded (List.mem_cons_of_mem _ member))
      restDistinct (List.nodup_cons.mp apart).2 head.drafts
    have same := head.refuses fun ticket own later => tickets ticket own ticket later rfl
    refine ⟨?_, head.cons same (fun loaded member isFirst => ?_) tail⟩
    · rw [each, List.map_cons]
      dsimp only
      rw [settled, rest]
      refine congrArg _ (List.map_congr_left fun loaded member => ?_)
      rw [Host.settledScript_congr (same loaded member),
        Host.refusedCount_congr (same loaded member)]
    · exact (List.nodup_cons.mp apart).1 (List.mem_map.mpr ⟨loaded, member, isFirst⟩)

/-- Settling scripts leaves no script current, and counts what the host has refused. -/
theorem settleScripts_learns (thread : Thread) (scripts : List LoadedScript)
    (builtIn : ∀ loaded ∈ scripts, ∀ inner ∈ loaded.structures, inner.inner.isBuiltIn = true)
    (distinct : (scriptTicketsOf scripts).Nodup) (apart : (scripts.map (·.script)).Nodup)
    (none : workspace.context.currentDrafts = []) :
    (settleScripts thread scripts workspace).1 = (scripts.map workspace.host.settledScript,
        (workspace.host.refusedAmong scripts).length) ∧
      workspace.Learns scripts (settleScripts thread scripts workspace).2 := by
  obtain ⟨settled, learns⟩ := each_learns thread scripts builtIn distinct apart none
  obtain ⟨host, drafts, diagnostics, taken, _⟩ :=
    Workspace.setScript_of_none learns.drafts thread Option.none
  obtain ⟨records, recorded, among, counts⟩ := learns.recorded
  refine ⟨?_, host ▸ learns.hears, drafts, taken.trans learns.taken, records,
    ⟨diagnostics.trans recorded.diagnostics, recorded.blamed⟩, among, counts⟩
  unfold settleScripts
  dsimp only
  rw [settled, List.map_map, List.foldl_map, Host.refusedAmong, List.length_flatMap,
    List.sum_eq_foldl, List.foldl_map]
  rfl

end Loading

namespace Host

variable {host : Host}

/-- Nothing comes of settling a script of which nothing has been refused. -/
theorem settledScript_of_none {loaded : LoadedScript}
    (none : ∀ inner ∈ loaded.structures, host.refuses inner = false) :
    host.settledScript loaded = loaded := by
  have nothing : loaded.structures.filter host.refuses = [] :=
    List.filter_eq_nil_iff.mpr fun inner member => Bool.eq_false_iff.mp (none inner member)
  have same : loaded.structures.map host.settled = loaded.structures := by
    refine (List.map_congr_left fun inner member => ?_).trans (List.map_id _)
    rw [settled, none inner member]
    rfl
  rw [settledScript, same, discount, nothing]
  rfl

theorem map_settledScript_of_none {scripts : List LoadedScript}
    (none : ∀ loaded ∈ scripts, ∀ inner ∈ loaded.structures, host.refuses inner = false) :
    scripts.map host.settledScript = scripts :=
  (List.map_congr_left fun loaded member => settledScript_of_none (none loaded member)).trans
    (List.map_id _)

theorem refusedAmong_of_none {scripts : List LoadedScript}
    (none : ∀ loaded ∈ scripts, ∀ inner ∈ loaded.structures, host.refuses inner = false) :
    host.refusedAmong scripts = [] :=
  List.flatMap_eq_nil_iff.mpr fun loaded member =>
    List.filter_eq_nil_iff.mpr fun inner there =>
      Bool.eq_false_iff.mp (none loaded member inner there)

end Host

/-! ## Structures that stay built in -/

namespace Structure

variable {inner : Structure}

theorem init_builtIn (header : MatchResult) (body : Section) (workspace : Workspace)
    (builtIn : inner.isBuiltIn = true) :
    (inner.init header body workspace).2.1.isBuiltIn = true := by
  cases inner with
  | function inner =>
    dsimp only [init]
    split <;> rfl
  | command inner =>
    dsimp only [init]
    split <;> rfl
  | custom inner => cases builtIn
  | _ => rfl

theorem preload_builtIn (workspace : Workspace) (builtIn : inner.isBuiltIn = true) :
    (inner.preload workspace).2.1.isBuiltIn = true := by
  cases inner with
  | function inner =>
    dsimp only [preload]
    split <;> rfl
  | custom inner => cases builtIn
  | _ => rfl

theorem load_builtIn (thread : Thread) (workspace : Workspace) (builtIn : inner.isBuiltIn = true) :
    (inner.load thread workspace).2.1.isBuiltIn = true := by
  cases inner with
  | command inner =>
    dsimp only [load]
    split <;> rfl
  | custom inner => cases builtIn
  | _ => rfl

end Structure

namespace Loading

variable {registry : Registry}

theorem preload_builtIn {loaded : LoadedStructure} (workspace : Workspace)
    (builtIn : loaded.inner.isBuiltIn = true) :
    (preload loaded workspace).1.inner.isBuiltIn = true := by
  rw [preload_structure]
  exact loaded.inner.preload_builtIn workspace builtIn

theorem initialise_builtIn {assignment : Assignment} (workspace : Workspace)
    (creates : ∀ ticket, (assignment.descriptor.create ticket).isBuiltIn = true) :
    ∀ loaded ∈ (initialise assignment workspace).1, loaded.inner.isBuiltIn = true := by
  have stays := Structure.init_builtIn assignment.header assignment.top.body
    (inHand assignment workspace) (creates workspace.host.nextTicket)
  unfold initialise
  rw [takeHeader_eq]
  dsimp only
  split
  · intro loaded taken
    rw [← Option.mem_some.mp taken]
    exact stays
  · exact fun _ absent => absurd absent (Option.not_mem_none _)
  · exact fun _ absent => absurd absent (Option.not_mem_none _)

theorem initialisePreloading_builtIn {assignment : Assignment} (workspace : Workspace)
    (creates : ∀ ticket, (assignment.descriptor.create ticket).isBuiltIn = true) :
    ∀ loaded ∈ (initialisePreloading assignment workspace).1, loaded.inner.isBuiltIn = true := by
  have stays := initialise_builtIn workspace creates
  unfold initialisePreloading
  generalize initialise assignment workspace = result at *
  obtain ⟨_ | loaded, after⟩ := result
  · exact fun _ absent => absurd absent (Option.not_mem_none _)
  · intro readied taken
    rw [← Option.mem_some.mp taken]
    exact preload_builtIn after (stays loaded rfl)

theorem initialiseNormal_builtIn {descriptors : List Descriptor} (top : TopSection)
    (workspace : Workspace)
    (creates : ∀ descriptor ∈ descriptors, ∀ ticket, (descriptor.create ticket).isBuiltIn = true) :
    ∀ loaded ∈ (initialiseNormal descriptors top workspace).1, loaded.inner.isBuiltIn = true := by
  unfold initialiseNormal
  cases found : assign? descriptors top with
  | none => exact fun _ absent => absurd absent (Option.not_mem_none _)
  | some assignment =>
    refine initialise_builtIn workspace (creates _ ?_)
    obtain ⟨⟨descriptor, header⟩, first, rfl⟩ := Option.map_eq_some_iff.mp found
    exact first?_mem first

theorem each_all {α β : Type} {act : α → Workspace → β × Workspace} (Meets : β → Prop)
    (items : List α) (workspace : Workspace)
    (one : ∀ item ∈ items, ∀ before, Meets (act item before).1) :
    ∀ result ∈ (each act items workspace).1, Meets result := by
  induction items generalizing workspace with
  | nil => exact fun _ absent => absurd absent List.not_mem_nil
  | cons item others ih =>
    refine List.forall_mem_cons.mpr ⟨one item List.mem_cons_self workspace, ?_⟩
    exact ih _ fun other member => one other (List.mem_cons_of_mem _ member)

theorem initialiseAll_builtIn (nodes : List Node) (workspace : Workspace)
    (creates : ∀ descriptor ∈ registry.all, ∀ ticket,
      (descriptor.create ticket).isBuiltIn = true) :
    ∀ loaded ∈ (initialiseAll registry nodes workspace).1, loaded.inner.isBuiltIn = true := by
  intro loaded member
  unfold initialiseAll at member
  dsimp only at member
  rw [List.mem_mergeSort, List.reduceOption_mem_iff, List.mem_append] at member
  rcases member with early | late
  · have all := each_all (fun result => ∀ loaded ∈ result, loaded.inner.isBuiltIn = true) _ _
        (fun assignment there before => initialisePreloading_builtIn before
          (creates _ (first?_mem (match?_of_claimed registry _ assignment there)))) _ early
    exact all loaded rfl
  · have all := each_all (fun result => ∀ loaded ∈ result, loaded.inner.isBuiltIn = true) _ _
        (fun top _ before => initialiseNormal_builtIn top before
          fun descriptor there => creates descriptor (List.mem_append_right _ there)) _ late
    exact all loaded rfl

/-- The structures of a script are built in where the registry makes no others. -/
theorem loadCurrent_builtIn (thread : Thread) (script : Script) (nodes : List Node)
    (workspace : Workspace)
    (creates : ∀ descriptor ∈ registry.all, ∀ ticket,
      (descriptor.create ticket).isBuiltIn = true) :
    ∀ inner ∈ (loadCurrent registry thread script nodes workspace).1.structures,
      inner.inner.isBuiltIn = true := by
  have headers := initialiseAll_builtIn nodes workspace creates
  unfold loadCurrent
  dsimp only
  rw [(each_afterLoad _ _).1]
  refine each_all (fun loaded : LoadedStructure => loaded.inner.isBuiltIn = true) _ _
    fun loaded member before => ?_
  have ready : (readied loaded before).1.inner.isBuiltIn = true := by
    unfold readied
    split
    · exact headers loaded member
    · exact preload_builtIn before (headers loaded member)
  rw [load_eq]
  unfold loadBody
  dsimp only
  rw [conclude_structure]
  exact (readied loaded before).1.inner.load_builtIn thread _ ready

end Loading

theorem Descriptor.Standard.creates {descriptor : Descriptor} (standard : descriptor.Standard)
    (ticket : Nat) : (descriptor.create ticket).isBuiltIn = true := by
  cases standard <;> rfl

end ScriptBinding

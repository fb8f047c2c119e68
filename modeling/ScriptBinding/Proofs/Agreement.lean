import ScriptBinding.Proofs.DeferredLoads
import ScriptBinding.Proofs.Restoration

/-! # A worker loads what the main thread would load

Scripts are loaded by a worker, and then the main thread does the jobs and settles them. Had the
main thread loaded them itself, it would have come to the same, unless a script hands over a command
under a name that the host has refused before: for the worker that name was still taken.
-/

namespace ScriptBinding

/-! ## Settling scripts that a worker has loaded -/

namespace Host

theorem Matches.trans {first second third : Host} (before : first.Matches second)
    (after : second.Matches third) : first.Matches third where
  config := after.config.trans before.config
  bus := after.bus.trans before.bus
  bound := after.bound.trans before.bound
  commands := after.commands.trans before.commands
  registered := after.registered.trans before.registered

/-- To take note of refusals leaves a host bound to the same. -/
theorem Hears.matches {tickets : List Nat} {before after : Host}
    (hears : Hears tickets before after) : before.Matches after where
  config := hears.config
  bus := hears.bus
  bound := hears.bound
  commands := hears.commands
  registered := by
    funext ticket
    rw [registered, registered, hears.registrations]
    split <;> rfl

end Host

theorem Workspace.setScript_store (thread : Thread) (next : Option Script) (workspace : Workspace) :
    (workspace.setScript thread next).host.store = workspace.host.store := by
  rcases workspace.setScript_host thread next with ⟨_, entries, same⟩ | ⟨job, _, same⟩
  · rw [same]
    rfl
  · rw [same]
    cases thread with
    | main =>
      rw [Host.submit_main]
      exact (Host.perform_step job workspace.host).store
    | worker => rw [Host.submit_worker]

theorem Structure.settle_store (info : ScriptInfo) (inner : Structure) (workspace : Workspace) :
    (inner.settle info workspace).2.2.host.store = workspace.host.store := by
  cases inner with
  | command inner =>
    have taken := (Host.takeRefusal_spec inner.ticket workspace.host).1.store
    dsimp only [settle]
    cases refused : (workspace.host.registrations inner.ticket).refusal with
    | none =>
      rw [inner.settle_of_none info refused]
      exact taken
    | some text =>
      rw [inner.settle_of_some info refused]
      exact taken
  | custom inner => exact (inner.respond_restored .settle workspace).store
  | _ => rfl

namespace Loading

open Workspace (Alike Lags)

theorem settle_store (thread : Thread) (script : Script) (loaded : LoadedStructure)
    (settlement : Settlement) (workspace : Workspace) :
    (settle thread script loaded settlement workspace).2.2.host.store = workspace.host.store := by
  unfold settle
  split
  · have settled := loaded.inner.settle_store settlement.info workspace
    generalize loaded.inner.settle settlement.info workspace = result at settled ⊢
    dsimp only
    split
    · exact settled
    · exact (Workspace.setScript_store thread (some script) _).trans settled
  · rfl

theorem settleAll_store (thread : Thread) (script : Script) (structures : List LoadedStructure)
    (settlement : Settlement) (workspace : Workspace) :
    (settleAll thread script structures settlement workspace).2.2.host.store =
      workspace.host.store := by
  induction structures generalizing settlement workspace with
  | nil => rfl
  | cons first others ih =>
    exact (ih _ _).trans (settle_store thread script first settlement workspace)

/-- Settling scripts leaves the variables as they are. -/
theorem settleScripts_store (thread : Thread) (scripts : List LoadedScript)
    (workspace : Workspace) :
    (settleScripts thread scripts workspace).2.host.store = workspace.host.store := by
  refine (Workspace.setScript_store thread none _).trans ?_
  induction scripts generalizing workspace with
  | nil => rfl
  | cons first others ih =>
    exact (ih _).trans (settleAll_store thread first.script first.structures ⟨first.info, 0⟩
      workspace)

variable {start : Host} {jobs : List Job} {fresh : Nat → Prop} {gap : Nat}
  {direct deferred : Workspace}

/-- The main thread does the jobs of the deferred run and settles its scripts. Then both runs agree
on the scripts, and on what they are bound to. -/
theorem settle_concurs {one other : List LoadedScript} (alike : Alike gap direct deferred)
    (lags : Lags start jobs fresh direct deferred)
    (fares : List.Forall₂ (LoadedScript.Fares (start.ahead jobs)) one other)
    (builtIn : ∀ loaded ∈ other, ∀ inner ∈ loaded.structures, inner.inner.isBuiltIn = true)
    (distinct : (scriptTicketsOf other).Nodup) (apart : (other.map (·.script)).Nodup)
    (noDrafts : deferred.context.currentDrafts = []) :
    let drained := deferred.inHost fun host => (host.runPending .main).2
    let result := settleScripts .main other drained
    List.Forall₂ LoadedScript.Matches one result.1.1 ∧ direct.host.Matches result.2.host ∧
      result.2.host.functions = direct.host.functions ∧
      result.2.host.store = direct.host.store := by
  intro drained result
  obtain ⟨matched, registrations, step⟩ := lags.defers.drain
  obtain ⟨settled, learns⟩ : result.1 = (other.map drained.host.settledScript,
      (drained.host.refusedAmong other).length) ∧ drained.Learns other result.2 :=
    settleScripts_learns .main other builtIn distinct apart noDrafts
  have settledFares : List.Forall₂ (LoadedScript.Fares drained.host) one other :=
    LoadedScript.Fares.allLater fares fun _ _ _ _ =>
      Host.refuses_congr fun ticket _ => congrFun registrations ticket
  refine ⟨?_, (lags.matched.trans matched).trans learns.hears.matches, ?_, ?_⟩
  · rw [settled, List.forall₂_map_right_iff]
    exact settledFares.imp fun _ _ fares => fares.matches_settled
  · exact learns.hears.functions.trans (step.functions.trans alike.functions)
  · exact (settleScripts_store .main other drained).trans (step.store.trans alike.store)

end Loading

/-! ## Sessions -/

namespace Session

/-- The commands that scripts hand to the host when they are loaded one after the other, script by
script. -/
def submissions (thread : Thread) : List ScriptSource → Session → List (List Submission)
  | [], _ => []
  | source :: others, session =>
    let script : Script := ⟨source.path, session.generations.next⟩
    Loading.scriptSubmissions session.registry thread source.tree.nodes
        (session.workspace.setScript thread (some script)) ::
      submissions thread others (session.load thread source).2

open Workspace (Alike Lags)

/-- Two sessions load the same scripts. The jobs that one of them has done since the start wait in
the other one. -/
structure Alongside (start : Host) (jobs : List Job) (direct deferred : Session) : Prop where
  registry : deferred.registry = direct.registry
  generations : deferred.generations = direct.generations
  standard : ∀ descriptor ∈ direct.registry.all, descriptor.Standard
  alike : ∃ gap, Alike gap direct.workspace deferred.workspace
  lags : Lags start jobs (deferred.workspace.host.nextTicket ≤ ·) direct.workspace
    deferred.workspace
  orderly : direct.workspace.Orderly
  current : ∀ script, direct.workspace.context.script = some script →
    script.generation < direct.generations.next

/-- What loading scripts in both sessions has come to: `more` are the jobs that have been
submitted. -/
structure Paired (start : Host) (jobs : List Job) (before : Session) (more : List Job)
    (direct deferred : List LoadedScript × Session) : Prop where
  alongside : Alongside start (jobs ++ more) direct.2 deferred.2
  fares : List.Forall₂ (LoadedScript.Fares (start.ahead (jobs ++ more))) direct.1 deferred.1
  builtIn : ∀ loaded ∈ deferred.1, ∀ inner ∈ loaded.structures, inner.inner.isBuiltIn = true
  spares : ∀ job ∈ more, ∀ ticket < before.workspace.host.nextTicket, job.Spares ticket
  fresh : ∀ ticket ∈ scriptTicketsOf deferred.1, before.workspace.host.nextTicket ≤ ticket ∧
    ticket < deferred.2.workspace.host.nextTicket
  distinct : (scriptTicketsOf deferred.1).Nodup
  later : before.workspace.host.nextTicket ≤ deferred.2.workspace.host.nextTicket
  generations : ∀ loaded ∈ deferred.1, before.generations.next ≤ loaded.script.generation ∧
    loaded.script.generation < deferred.2.generations.next
  newer : before.generations.next ≤ deferred.2.generations.next
  apart : (deferred.1.map (·.script)).Nodup

variable {start : Host} {jobs : List Job} {direct deferred : Session}

namespace Paired

theorem nil (alongside : Alongside start jobs direct deferred) :
    Paired start jobs deferred [] ([], direct) ([], deferred) where
  alongside := by
    rw [List.append_nil]
    exact alongside
  fares := .nil
  builtIn := fun _ absent => absurd absent List.not_mem_nil
  spares := fun _ absent => absurd absent List.not_mem_nil
  fresh := fun _ absent => absurd absent List.not_mem_nil
  distinct := List.nodup_nil
  later := Nat.le_refl _
  generations := fun _ absent => absurd absent List.not_mem_nil
  newer := Nat.le_refl _
  apart := List.nodup_nil

/-- Scripts that are loaded later do not matter to those that have been loaded. -/
theorem append {before : Session} {one other rest others : List LoadedScript × Session}
    {more last : List Job} (first : Paired start jobs before more one other)
    (second : Paired start (jobs ++ more) other.2 last rest others) :
    Paired start jobs before (more ++ last) (one.1 ++ rest.1, rest.2)
      (other.1 ++ others.1, others.2) := by
  have tickets : scriptTicketsOf (other.1 ++ others.1) =
      scriptTicketsOf other.1 ++ scriptTicketsOf others.1 := List.flatMap_append
  have whole : start.ahead (jobs ++ (more ++ last)) =
      (start.ahead (jobs ++ more)).ahead last := by
    rw [← List.append_assoc, Host.ahead_append]
  have same : ∀ loaded ∈ other.1, ∀ inner ∈ loaded.structures,
      (start.ahead (jobs ++ (more ++ last))).refuses inner =
        (start.ahead (jobs ++ more)).refuses inner := by
    intro loaded member inner there
    refine Host.refuses_congr fun ticket isTicket => ?_
    rw [whole]
    refine Host.ahead_spares (fun job late => second.spares job late ticket ?_) _
    exact (first.fresh ticket (List.mem_flatMap.mpr
      ⟨loaded, member, mem_commandTicketsOf.mpr ⟨inner, there, isTicket⟩⟩)).2
  refine ⟨?_, ?_, ?_, ?_, ?_, ?_, first.later.trans second.later, ?_,
    first.newer.trans second.newer, ?_⟩
  · rw [← List.append_assoc]
    exact second.alongside
  · refine List.rel_append (LoadedScript.Fares.allLater first.fares same) ?_
    rw [← List.append_assoc]
    exact second.fares
  · intro loaded member
    exact (List.mem_append.mp member).elim (first.builtIn loaded) (second.builtIn loaded)
  · intro job member ticket below
    exact (List.mem_append.mp member).elim (first.spares job · ticket below)
      (second.spares job · ticket (below.trans_le first.later))
  · intro ticket member
    rw [tickets, List.mem_append] at member
    rcases member with here | there
    · exact ⟨(first.fresh ticket here).1, (first.fresh ticket here).2.trans_le second.later⟩
    · exact ⟨first.later.trans (second.fresh ticket there).1, (second.fresh ticket there).2⟩
  · rw [tickets]
    refine first.distinct.append second.distinct fun ticket here there => ?_
    exact absurd (second.fresh ticket there).1 (Nat.not_le.mpr (first.fresh ticket here).2)
  · intro loaded member
    rcases List.mem_append.mp member with here | there
    · exact ⟨(first.generations loaded here).1,
        (first.generations loaded here).2.trans_le second.newer⟩
    · exact ⟨first.newer.trans (second.generations loaded there).1,
        (second.generations loaded there).2⟩
  · rw [List.map_append]
    refine first.apart.append second.apart fun script here there => ?_
    obtain ⟨loaded, member, rfl⟩ := List.mem_map.mp here
    obtain ⟨late, lateMember, same⟩ := List.mem_map.mp there
    have older := (first.generations loaded member).2
    exact absurd (same ▸ (second.generations late lateMember).1) (Nat.not_le.mpr older)

end Paired

/-! ## Loading -/

theorem load_eq (thread : Thread) (source : ScriptSource) (session : Session) :
    let script : Script := ⟨source.path, session.generations.next⟩
    let result := Loading.loadCurrent session.registry thread script source.tree.nodes
      (session.workspace.setScript thread (some script))
    session.load thread source = (result.1,
      { session with
        generations := ⟨session.generations.next + 1⟩
        workspace := result.2 }) :=
  rfl

/-- A script that both sessions have loaded, once they had left the one before. -/
theorem Paired.single {before : Session} {left more : List Job} {one other : LoadedScript × Session}
    (alongside : Alongside start (jobs ++ (left ++ more)) one.2 other.2)
    (spare : ∀ job ∈ left, ∀ ticket, job.Spares ticket)
    (pair : Loading.ScriptPaired start (jobs ++ left) before.workspace.host.nextTicket more
      (one.1, one.2.workspace) (other.1, other.2.workspace))
    (generation : other.1.script.generation = before.generations.next)
    (next : other.2.generations.next = before.generations.next + 1) :
    Paired start jobs before (left ++ more) ([one.1], one.2) ([other.1], other.2) where
  alongside := alongside
  fares := by
    rw [← List.append_assoc]
    exact .cons pair.fares .nil
  builtIn := by
    intro loaded member
    rw [List.mem_singleton.mp member]
    exact pair.builtIn
  spares := fun job member ticket below =>
    (List.mem_append.mp member).elim (spare job · ticket) (pair.spares job · ticket below)
  fresh := by
    rw [scriptTicketsOf, List.flatMap_singleton]
    exact pair.fresh
  distinct := by
    rw [scriptTicketsOf, List.flatMap_singleton]
    exact pair.distinct
  later := pair.later
  generations := by
    intro loaded member
    rw [List.mem_singleton.mp member, generation, next]
    exact ⟨Nat.le_refl _, Nat.lt_succ_self _⟩
  newer := next ▸ Nat.le_succ _
  apart := List.nodup_singleton _

/-- Both sessions load a script. -/
theorem Alongside.load (alongside : Alongside start jobs direct deferred) (source : ScriptSource)
    (forGood : RefusedForGood (Loading.scriptSubmissions direct.registry .main source.tree.nodes
      (direct.workspace.setScript .main (some ⟨source.path, direct.generations.next⟩)))) :
    ∃ more, Paired start jobs deferred more
      ([(direct.load .main source).1], (direct.load .main source).2)
      ([(deferred.load .worker source).1], (deferred.load .worker source).2) := by
  let script : Script := ⟨source.path, direct.generations.next⟩
  obtain ⟨gap, alike⟩ := alongside.alike
  have builtIn : direct.registry.BuiltIn := fun descriptor member =>
    (alongside.standard descriptor member).builtIn
  have moves : Script.sameCurrent direct.workspace.context.script (some script) = false :=
    Script.sameCurrent_of_newer alongside.current
  obtain ⟨left, spare, abreast, lags⟩ := alike.setScript alongside.lags moves
  have started : (direct.workspace.setScript .main (some script)).context.script = some script ∧
      (direct.workspace.setScript .main (some script)).context.currentDrafts = [] := by
    rw [Workspace.setScript_of_moves moves]
    exact ⟨rfl, Workspace.moved_drafts _ _⟩
  have nextTicket := deferred.workspace.setScript_nextTicket .worker (some script)
  obtain ⟨more, pair⟩ := Loading.loadCurrent_paired source.tree.nodes builtIn.makesOwn
    (fun descriptor member ticket => (alongside.standard descriptor member).creates ticket)
    started.1 abreast (lags.mono fun ticket above => nextTicket ▸ above) forGood
  have frame := Loading.loadCurrent_frame .main source.tree.nodes builtIn.makesOwn started.1
    started.2
  rw [nextTicket] at pair
  rw [load_eq, load_eq, alongside.registry, alongside.generations]
  refine ⟨left ++ more, .single ?_ spare pair ?_ ?_⟩
  · exact
      { registry := rfl
        generations := rfl
        standard := alongside.standard
        alike := pair.alike
        lags := List.append_assoc jobs left more ▸ pair.lags
        orderly := fun noScript =>
          absurd (frame.current.symm.trans noScript) (Option.some_ne_none script)
        current := by
          intro other isCurrent
          obtain rfl := Option.some.inj (frame.current.symm.trans isCurrent)
          exact Nat.lt_succ_self _ }
  · rw [pair.fares.script.trans frame.owner, alongside.generations]
  · rw [alongside.generations]

/-- Both sessions load scripts one after the other. -/
theorem Alongside.loadEach (alongside : Alongside start jobs direct deferred)
    (sources : List ScriptSource)
    (forGood : ∀ handed ∈ direct.submissions .main sources, RefusedForGood handed) :
    ∃ more, Paired start jobs deferred more (direct.loadEach .main sources)
      (deferred.loadEach .worker sources) := by
  induction sources generalizing jobs direct deferred with
  | nil => exact ⟨[], .nil alongside⟩
  | cons source others ih =>
    obtain ⟨first, rest⟩ := List.forall_mem_cons.mp forGood
    obtain ⟨more, head⟩ := alongside.load source first
    obtain ⟨last, tail⟩ := ih head.alongside rest
    exact ⟨more ++ last, head.append tail⟩

/-- Both sessions finish their last script. -/
theorem Alongside.finish (alongside : Alongside start jobs direct deferred) :
    ∃ more, (∀ job ∈ more, ∀ ticket, job.Spares ticket) ∧
      (∃ gap, Alike gap (direct.workspace.setScript .main none)
        (deferred.workspace.setScript .worker none)) ∧
      Lags start (jobs ++ more) (deferred.workspace.host.nextTicket ≤ ·)
        (direct.workspace.setScript .main none) (deferred.workspace.setScript .worker none) ∧
      (deferred.workspace.setScript .worker none).context.currentDrafts = [] := by
  obtain ⟨gap, alike⟩ := alongside.alike
  have orderly : deferred.workspace.Orderly := by
    intro noScript
    rw [Context.currentDrafts, alike.drafts]
    exact alongside.orderly (alike.script.symm.trans noScript)
  have noDrafts := (Workspace.finish_context .worker orderly).2
  cases moves : Script.sameCurrent direct.workspace.context.script none with
  | true =>
    have also : Script.sameCurrent deferred.workspace.context.script none = true := by
      rw [alike.script]
      exact moves
    refine ⟨[], fun _ absent => absurd absent List.not_mem_nil, ⟨gap, ?_⟩, ?_, noDrafts⟩
    · rw [Workspace.setScript, if_pos moves, Workspace.setScript, if_pos also]
      exact alike
    · rw [List.append_nil, Workspace.setScript, if_pos moves, Workspace.setScript, if_pos also]
      exact alongside.lags
  | false =>
    obtain ⟨more, spare, abreast, lags⟩ := alike.setScript alongside.lags moves
    exact ⟨more, spare, ⟨gap, abreast.toAlike⟩, lags, noDrafts⟩

/-! ## Loading scripts and settling them -/

/-- Load scripts on a worker, and let the main thread do the jobs and settle the scripts. -/
def loadDeferred (sources : List ScriptSource) (session : Session) :
    List LoadedScript × Session :=
  let (scripts, session) := session.loadAll .worker sources
  let ((_, settled), session) := session.runPending .main scripts
  (settled, session)

/-- Nothing waits at a session, and its next generation and the tickets to come are new. -/
structure Clear (session : Session) : Prop where
  standard : ∀ descriptor ∈ session.registry.all, descriptor.Standard
  orderly : session.workspace.Orderly
  current : ∀ script, session.workspace.context.script = some script →
    script.generation < session.generations.next
  idle : session.workspace.host.queue.waiting = []
  unused : ∀ ticket, session.workspace.host.nextTicket ≤ ticket →
    session.workspace.host.registrations ticket = {}

/-- Scripts have come to the same in two sessions, and so has what their hosts are bound to and what
scripts can call and remember. -/
structure Concurs (direct deferred : List LoadedScript × Session) : Prop where
  scripts : List.Forall₂ LoadedScript.Matches direct.1 deferred.1
  bindings : direct.2.workspace.host.Matches deferred.2.workspace.host
  functions : deferred.2.workspace.host.functions = direct.2.workspace.host.functions
  store : deferred.2.workspace.host.store = direct.2.workspace.host.store

theorem Clear.alongside {session : Session} (clear : session.Clear) :
    Alongside session.workspace.host [] session session where
  registry := rfl
  generations := rfl
  standard := clear.standard
  alike := ⟨0, by constructor <;> rfl⟩
  lags :=
    { defers := ⟨rfl, rfl, rfl, rfl, rfl, clear.idle⟩
      matched := ⟨rfl, rfl, rfl, rfl, rfl⟩
      unused := fun ticket later =>
        ⟨clear.unused ticket later, clear.unused ticket later, clear.unused ticket later⟩ }
  orderly := clear.orderly
  current := clear.current

/-- A session with a new context is clear where nothing waits at the host. -/
theorem start_clear {registry : Registry} {host : Host}
    (standard : ∀ descriptor ∈ registry.all, descriptor.Standard) (parts : List ContextPart)
    (idle : host.queue.waiting = [])
    (unused : ∀ ticket, host.nextTicket ≤ ticket → host.registrations ticket = {}) :
    (Session.start registry parts host).Clear where
  standard := standard
  orderly := fun _ => (Context.withParts_idle parts).2
  current := by
    intro script current
    cases (Context.withParts_idle parts).1.symm.trans current
  idle := idle
  unused := unused

/-- Loading agrees on both threads. Once the main thread has done the jobs of a worker and settled
its scripts, everything is as if the main thread had loaded them: the commands, the triggers and
their order, functions and variables, and for every script its counters, its errors and the
structures that are loaded. For this no script may offer a command that the host accepts behind one
of the same name that it refuses: the worker does not know of the refusal, and to it the name is
taken. -/
theorem loadDeferred_concurs {session : Session} (clear : session.Clear)
    (sources : List ScriptSource)
    (forGood : ∀ handed ∈ session.submissions .main sources, RefusedForGood handed) :
    Concurs (session.loadAll .main sources) (session.loadDeferred sources) := by
  obtain ⟨jobs, pair⟩ := clear.alongside.loadEach sources forGood
  obtain ⟨last, spare, ⟨gap, alike⟩, lags, noDrafts⟩ := pair.alongside.finish
  let start := session.workspace.host
  -- Finishing the last script binds its triggers, and refuses no command.
  have same (inner : LoadedStructure) : (start.ahead ([] ++ jobs ++ last)).refuses inner =
      (start.ahead ([] ++ jobs)).refuses inner := by
    refine Host.refuses_congr fun ticket _ => ?_
    rw [Host.ahead_append]
    exact Host.ahead_spares (fun job member => spare job member ticket) _
  have fares := LoadedScript.Fares.allLater pair.fares fun _ _ inner _ => same inner
  unfold loadDeferred loadAll
  generalize session.loadEach .main sources = one, session.loadEach .worker sources = other at *
  obtain ⟨direct, after⟩ := one
  obtain ⟨deferred, later⟩ := other
  dsimp only at *
  let finished := (after.workspace.setScript .main none).inHost
    (·.write (LoadSummary.ofScripts direct).entries)
  let waiting := (later.workspace.setScript .worker none).inHost
    (·.write (LoadSummary.ofScripts deferred).entries)
  have written : Alike gap finished waiting := { alike with }
  obtain ⟨scripts, bindings, functions, store⟩ := Loading.settle_concurs written
    (lags.of_idle (.write _ _) (.write _ _)) fares pair.builtIn pair.distinct pair.apart noDrafts
  exact ⟨scripts, { bindings with }, functions, store⟩

/-! ## A name that is refused and accepted later -/

/-- Scripts that match amount to the same. -/
theorem infos_of_matches {direct deferred : List LoadedScript}
    (scripts : List.Forall₂ LoadedScript.Matches direct deferred) :
    deferred.map (·.info) = direct.map (·.info) := by
  induction scripts with
  | nil => rfl
  | cons first _ ih => exact congrArg₂ List.cons first.info ih

/-- A registry of one structure. -/
def commandRegistry : Registry :=
  (Registry.register "command" none (fun ticket => .command { ticket }) ["command <.+>"]
    {}).toOption.getD {}

theorem commandRegistry_standard : ∀ descriptor ∈ commandRegistry.all, descriptor.Standard := by
  rintro ⟨info, create⟩ member
  unfold commandRegistry at member
  generalize registers : Registry.register "command" none (fun ticket => .command { ticket })
    ["command <.+>"] {} = result at member
  cases result with
  | error failure => exact absurd member List.not_mem_nil
  | ok registry =>
    rcases Registry.mem_register registers member with ⟨rfl, noEvent⟩ | absent
    · exact .command info noEvent
    · exact absurd absent List.not_mem_nil

/-- A command of another script, which the host has already. -/
def hiCommand : Command where
  name := "hi"
  items := []
  script := ⟨⟨"hi.sk"⟩, 0⟩
  line := 1

/-- A new session on a host with one command. -/
def hiSession : Session :=
  .start commandRegistry ContextPart.standard
    { ({} : Host).perform (.register 0 hiCommand) with nextTicket := 1 }

theorem hiSession_clear : hiSession.Clear :=
  start_clear commandRegistry_standard ContextPart.standard rfl fun _ later =>
    Host.perform_spares (.register 0 hiCommand (Nat.ne_of_lt later)) {}

/-- The host refuses this command, since another one has its alias. -/
def pingNodes : List Node :=
  [.nested "command /ping" 1
    [.simple "aliases: hi" 2, .nested "trigger" 3 [.simple "send \"b\"" 4]]]

/-- A script that is refused its command. -/
def pingOnce : ScriptSource :=
  ⟨⟨"ping.sk"⟩, ⟨"", 0, pingNodes⟩⟩

/-- A script that offers another command of the same name behind the one that is refused. -/
def pingTwice : ScriptSource :=
  ⟨⟨"ping.sk"⟩, ⟨"", 0,
    pingNodes ++ [.nested "command /ping" 5 [.nested "trigger" 6 [.simple "send \"c\"" 7]]]⟩⟩

/-- On a worker a single refusal comes to the same as on the main thread. -/
theorem pingOnce_concurs :
    hiSession.Clear ∧
      (∀ handed ∈ hiSession.submissions .main [pingOnce], RefusedForGood handed) ∧
      Concurs (hiSession.loadAll .main [pingOnce]) (hiSession.loadDeferred [pingOnce]) := by
  have handed : hiSession.submissions .main [pingOnce] = [[⟨"ping", false⟩]] := by decide +kernel
  have forGood : ∀ handed ∈ hiSession.submissions .main [pingOnce], RefusedForGood handed := by
    rw [handed]
    decide
  exact ⟨hiSession_clear, forGood, loadDeferred_concurs hiSession_clear [pingOnce] forGood⟩

/-- Loading a single script. -/
theorem loadAll_single (thread : Thread) (source : ScriptSource) (session : Session) :
    let script : Script := ⟨source.path, session.generations.next⟩
    (session.loadAll thread [source]).1 = [(Loading.loadCurrent session.registry thread script
      source.tree.nodes (session.workspace.setScript thread (some script))).1] :=
  rfl

/-- Loading a single script on a worker, and settling it. -/
theorem loadDeferred_single (source : ScriptSource) (session : Session) :
    let script : Script := ⟨source.path, session.generations.next⟩
    let result := Loading.loadCurrent session.registry .worker script source.tree.nodes
      (session.workspace.setScript .worker (some script))
    let finished := (result.2.setScript .worker none).inHost
      (·.write (LoadSummary.ofScripts [result.1]).entries)
    (session.loadDeferred [source]).1 = (Loading.settleScripts .main [result.1]
      (finished.inHost fun host => (host.runPending .main).2)).1.1 :=
  rfl

/-- The script becomes current. -/
def pingStart (thread : Thread) : Workspace :=
  hiSession.workspace.setScript thread (some ⟨pingTwice.path, hiSession.generations.next⟩)

/-- The headers of the script are taken in the order of its sections. -/
theorem pingTwice_headers (thread : Thread) :
    let claimed := Loading.claimAll hiSession.registry.preloading
      (Loading.topSections 0 pingTwice.tree.nodes)
    let preloading := Loading.each Loading.initialisePreloading claimed.1
      (Loading.reportPlain pingTwice.tree.nodes (pingStart thread))
    let others := Loading.each (Loading.initialiseNormal hiSession.registry.normal) claimed.2
      preloading.2
    Loading.initialiseAll hiSession.registry pingTwice.tree.nodes (pingStart thread) =
      ((preloading.1 ++ others.1).reduceOption, others.2) := by
  refine Loading.initialiseAll_of_sorted ?_
  cases thread <;> decide +kernel

/-- The main thread takes the second command, which for a worker is a second one of its name. -/
theorem pingTwice_counts :
    (hiSession.loadAll .main [pingTwice]).1.map (·.info.commandNames) = [["ping"]] ∧
      (hiSession.loadDeferred [pingTwice]).1.map (·.info.commandNames) = [[]] := by
  rw [loadAll_single, loadDeferred_single]
  unfold Loading.loadCurrent
  have direct := pingTwice_headers .main
  have deferred := pingTwice_headers .worker
  unfold pingStart at direct deferred
  rw [direct, deferred]
  decide +kernel

/-- So the script does not come to the same on a worker. -/
theorem pingTwice_diverges :
    hiSession.Clear ∧
      ¬ Concurs (hiSession.loadAll .main [pingTwice]) (hiSession.loadDeferred [pingTwice]) := by
  refine ⟨hiSession_clear, fun concurs => ?_⟩
  obtain ⟨direct, deferred⟩ := pingTwice_counts
  have same := congrArg (List.map ScriptInfo.commandNames) (infos_of_matches concurs.scripts)
  rw [List.map_map, List.map_map] at same
  cases deferred.symm.trans (same.trans direct)

end Session

end ScriptBinding

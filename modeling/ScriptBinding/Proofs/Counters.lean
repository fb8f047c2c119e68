import ScriptBinding.Proofs.Balances
import ScriptBinding.Proofs.Dispatch
import ScriptBinding.Proofs.MainThreadRuns

/-! # Counters tell the truth

Scripts are brought to a host in batches, each loaded on the main thread, or loaded on a worker and
settled once the queue has been drained. After every batch the counters of all scripts that have
been brought are the numbers of what the host shows of them, whatever the host has refused in
between. -/

namespace ScriptBinding

namespace Session

/-- A session about to load scripts: a worker has a new context of its own. -/
def entering (thread : Thread) (session : Session) : Session :=
  match thread with
  | .main => session
  | .worker => session.inWorkspace ({ · with context := .withParts session.parts })

/-- Load scripts, and let the main thread do what belongs to it: at once when it loads them itself,
and otherwise by draining the queue and settling them. -/
def bring (thread : Thread) (sources : List ScriptSource) (session : Session) :
    List LoadedScript × Session :=
  match thread with
  | .main => session.loadAll .main sources
  | .worker =>
    let (scripts, session) := session.loadOnWorker sources
    let ((_, settled), session) := session.runPending .main scripts
    (settled, session)

/-- Bring batches of scripts, one after the other. -/
def bringAll : List (Thread × List ScriptSource) → Session → List LoadedScript × Session
  | [], session => ([], session)
  | (thread, sources) :: others, session =>
    let (scripts, session) := session.bring thread sources
    let (rest, session) := bringAll others session
    (scripts ++ rest, session)

/-- How many structures take their headers in each of some loads, going by the calls that are
noted. -/
def headersTaken (thread : Thread) : List ScriptSource → Session → List Nat
  | [], _ => []
  | source :: others, session =>
    let after := (session.load thread source).2
    (after.workspace.context.taken - session.workspace.context.taken) ::
      headersTaken thread others after

/-! ## Loading scripts one after the other -/

/-- A session keeps the counters of its scripts in agreement with its workspace, and its next
generation is new. -/
structure Proceeds (ledger : Ledger) (entries : List EventEntry) (scripts : List LoadedScript)
    (session : Session) : Prop where
  standard : ∀ descriptor ∈ session.registry.all, descriptor.Standard
  balances : session.workspace.Balances session.generations.next ledger entries scripts
  current : ∀ script, session.workspace.context.script = some script →
    script.generation < session.generations.next

/-- What some loads have reported, and how many headers were taken in each of them. -/
structure Loads (thread : Thread) (sources : List ScriptSource) (before : Session)
    (scripts : List LoadedScript) (after : Session) : Prop where
  registry : after.registry = before.registry
  parts : after.parts = before.parts
  headers : scripts.map (·.info.structures) = before.headersTaken thread sources
  recorded : ∃ records, before.workspace.Records records after.workspace ∧
    (∀ record ∈ records, ∃ loaded ∈ scripts, record.1 = loaded.script) ∧
    ∀ loaded ∈ scripts, loaded.errors = recordedAgainst loaded.script records

variable {ledger : Ledger} {entries : List EventEntry} {scripts : List LoadedScript}
  {session : Session}

/-- Loading one script. -/
theorem Proceeds.load (proceeds : session.Proceeds ledger entries scripts) (thread : Thread)
    (source : ScriptSource) :
    let result := session.load thread source
    (∃ jobs more, result.2.Proceeds (ledger.submit thread jobs) more (scripts ++ [result.1])) ∧
      result.2.workspace.context.taken =
        session.workspace.context.taken + result.1.info.structures ∧
      ∃ own : List Diagnostic,
        session.workspace.Records (own.map (result.1.script, ·)) result.2.workspace ∧
          result.1.errors = own.length := by
  intro result
  let script : Script := ⟨source.path, session.generations.next⟩
  let started := session.workspace.setScript thread (some script)
  have moves : Script.sameCurrent session.workspace.context.script (some script) = false :=
    Script.sameCurrent_of_newer proceeds.current
  obtain ⟨_, current, none⟩ := Workspace.start_script thread proceeds.balances.orderly moves
  have zero : started.context.info = {} := by
    rw [show started = _ from Workspace.setScript_of_moves moves]
    rfl
  obtain ⟨tallied, jobs, balances⟩ := (proceeds.balances.leave thread (some script)).loadCurrent
    proceeds.standard thread source.tree.nodes current rfl none zero
  have diagnostics : started.context.diagnostics = session.workspace.context.diagnostics :=
    Loading.setScript_diagnostics thread (some script) session.workspace
  have taken : started.context.taken = session.workspace.context.taken := by
    rw [Context.taken, Loading.setScript_calls, ← Context.taken]
  obtain ⟨own, recorded, blamed, errors⟩ := tallied.errors
  rw [← Ledger.submit_append] at balances
  refine ⟨⟨_, _, proceeds.standard, balances, fun other isCurrent => ?_⟩, tallied.taken.trans ?_,
    own, .of_script ?_ blamed, errors⟩
  · obtain rfl := Option.some.inj (tallied.current.symm.trans isCurrent)
    exact Nat.lt_succ_self _
  · rw [taken]
    rfl
  · exact recorded.trans (by rw [diagnostics])

theorem Loads.nil (thread : Thread) (session : Session) : session.Loads thread [] [] session where
  registry := rfl
  parts := rfl
  headers := rfl
  recorded := ⟨[], .of_same rfl, fun _ absent => absurd absent List.not_mem_nil,
    fun _ absent => absurd absent List.not_mem_nil⟩

/-- What has been recorded against a script is not recorded against those that are loaded later. -/
theorem Loads.cons {thread : Thread} {source : ScriptSource} {others : List ScriptSource}
    {rest : List LoadedScript} {after : Session} {own : List Diagnostic}
    (taken : (session.load thread source).2.workspace.context.taken =
      session.workspace.context.taken + (session.load thread source).1.info.structures)
    (recorded : session.workspace.Records (own.map ((session.load thread source).1.script, ·))
      (session.load thread source).2.workspace)
    (errors : (session.load thread source).1.errors = own.length)
    (apart : ∀ loaded ∈ rest, loaded.script ≠ (session.load thread source).1.script)
    (tail : (session.load thread source).2.Loads thread others rest after) :
    session.Loads thread (source :: others) ((session.load thread source).1 :: rest) after where
  registry := tail.registry
  parts := tail.parts
  headers := by
    rw [List.map_cons, headersTaken, taken, Nat.add_sub_cancel_left, tail.headers]
  recorded := by
    obtain ⟨records, later, among, counts⟩ := tail.recorded
    refine ⟨_, recorded.trans later, fun record member => ?_, fun loaded member => ?_⟩
    · rcases List.mem_append.mp member with here | there
      · obtain ⟨_, _, rfl⟩ := List.mem_map.mp here
        exact ⟨_, List.mem_cons_self, rfl⟩
      · obtain ⟨loaded, member, isScript⟩ := among record there
        exact ⟨loaded, List.mem_cons_of_mem _ member, isScript⟩
    · rw [recordedAgainst_append]
      rcases List.mem_cons.mp member with rfl | isLater
      · rw [recordedAgainst_own, recordedAgainst_of_apart, errors, Nat.add_zero]
        intro record there isFirst
        obtain ⟨loaded, member, isScript⟩ := among record there
        exact apart loaded member (isScript.symm.trans isFirst)
      · have none : recordedAgainst loaded.script
            (own.map ((session.load thread source).1.script, ·)) = 0 := by
          refine recordedAgainst_of_apart fun record here isLoaded => ?_
          obtain ⟨_, _, rfl⟩ := List.mem_map.mp here
          exact apart loaded isLater isLoaded.symm
        rw [none, Nat.zero_add, counts loaded isLater]

/-- What is done later matters only where it records something. -/
theorem Loads.quiet {thread : Thread} {sources : List ScriptSource} {before after later : Session}
    (loads : before.Loads thread sources scripts after) (registry : later.registry = after.registry)
    (parts : later.parts = after.parts)
    (diagnostics : later.workspace.context.diagnostics = after.workspace.context.diagnostics) :
    before.Loads thread sources scripts later where
  registry := registry.trans loads.registry
  parts := parts.trans loads.parts
  headers := loads.headers
  recorded := by
    obtain ⟨records, recorded, rest⟩ := loads.recorded
    exact ⟨records, ⟨diagnostics.trans recorded.diagnostics, recorded.blamed⟩, rest⟩

/-- Loading scripts one after the other. -/
theorem Proceeds.loadEach (proceeds : session.Proceeds ledger entries scripts) (thread : Thread)
    (sources : List ScriptSource) :
    let result := session.loadEach thread sources
    (∃ jobs more, result.2.Proceeds (ledger.submit thread jobs) more (scripts ++ result.1)) ∧
      session.Loads thread sources result.1 result.2 := by
  induction sources generalizing session ledger entries scripts with
  | nil =>
    refine ⟨⟨[], entries, ?_⟩, .nil thread session⟩
    rw [Ledger.submit_nil, Session.loadEach, List.append_nil]
    exact proceeds
  | cons source others ih =>
    intro result
    obtain ⟨⟨jobs, more, first⟩, taken, own, recorded, errors⟩ := proceeds.load thread source
    obtain ⟨⟨moreJobs, final, last⟩, tail⟩ := ih first
    rw [← Ledger.submit_append, List.append_assoc] at last
    refine ⟨⟨_, final, last⟩, .cons taken recorded errors (fun loaded member same => ?_) tail⟩
    have distinct := last.balances.generations
    rw [List.map_append, List.map_append, List.map_singleton] at distinct
    have apart := (List.nodup_cons.mp (List.nodup_append.mp distinct).2.1).1
    exact apart (same ▸ List.mem_map_of_mem member)

/-! ## Batches -/

/-- No script is current, nothing waits, and the counters of the scripts agree with the workspace.
-/
structure Rests (scripts : List LoadedScript) (session : Session) : Prop where
  standard : ∀ descriptor ∈ session.registry.all, descriptor.Standard
  script : session.workspace.context.script = none
  drafts : session.workspace.context.currentDrafts = []
  balances : ∃ ledger entries, ledger.waiting = [] ∧
    session.workspace.Balances session.generations.next ledger entries scripts

/-- A session that rests is ready to load. -/
theorem Rests.enter (rests : session.Rests scripts) (thread : Thread) :
    ∃ ledger entries, ledger.waiting = [] ∧
      (session.entering thread).Proceeds ledger entries scripts := by
  obtain ⟨ledger, entries, idle, balances⟩ := rests.balances
  refine ⟨ledger, entries, idle, ?_⟩
  cases thread with
  | main =>
    refine ⟨rests.standard, balances, fun script current => ?_⟩
    cases rests.script.symm.trans current
  | worker =>
    obtain ⟨noScript, noDrafts⟩ := Context.withParts_idle session.parts
    refine ⟨rests.standard, balances.restart rests.drafts noDrafts, fun script current => ?_⟩
    cases noScript.symm.trans current

/-- Loading scripts, and leaving the last one. -/
theorem Proceeds.loadAll (proceeds : session.Proceeds ledger entries scripts) (thread : Thread)
    (sources : List ScriptSource) :
    let result := session.loadAll thread sources
    result.2.workspace.context.script = none ∧ result.2.workspace.context.currentDrafts = [] ∧
      (∀ descriptor ∈ result.2.registry.all, descriptor.Standard) ∧
      (∃ jobs more, result.2.workspace.Balances result.2.generations.next
        (ledger.submit thread jobs) more (scripts ++ result.1)) ∧
      session.Loads thread sources result.1 result.2 := by
  intro result
  obtain ⟨⟨jobs, more, last⟩, loads⟩ := proceeds.loadEach thread sources
  obtain ⟨noScript, noDrafts⟩ := Workspace.finish_context thread last.balances.orderly
  have left := last.balances.leave thread none
  rw [← Ledger.submit_append] at left
  exact ⟨noScript, noDrafts, last.standard, ⟨_, more, left.write _⟩,
    loads.quiet rfl rfl (Loading.setScript_diagnostics thread none _)⟩

/-- What a session does with scripts that a worker has loaded, on a host that has drained its
queue. -/
theorem Loads.settle {before after later : Session} {sources : List ScriptSource}
    {drained settled : Workspace} (loads : before.Loads .worker sources scripts after)
    (learns : drained.Learns scripts settled) (context : drained.context = after.workspace.context)
    (registry : later.registry = after.registry) (parts : later.parts = after.parts)
    (same : later.workspace.context = settled.context) :
    before.Loads .worker sources (scripts.map drained.host.settledScript) later where
  registry := registry.trans loads.registry
  parts := parts.trans loads.parts
  headers := by
    rw [List.map_map, ← loads.headers]
    exact List.map_congr_left fun loaded _ => (drained.host.discount_bound _ _).2.2
  recorded := by
    obtain ⟨records, early, among, counts⟩ := loads.recorded
    obtain ⟨more, late, amongLate, countsLate⟩ := learns.recorded
    refine ⟨records ++ more, early.trans ⟨?_, late.blamed⟩, fun record member => ?_,
      fun settled member => ?_⟩
    · rw [same, late.diagnostics, context]
    · rcases List.mem_append.mp member with old | new
      · obtain ⟨loaded, there, isScript⟩ := among record old
        exact ⟨_, List.mem_map_of_mem there, isScript⟩
      · obtain ⟨loaded, there, isScript⟩ := amongLate record new
        exact ⟨_, List.mem_map_of_mem there, isScript⟩
    · obtain ⟨loaded, there, rfl⟩ := List.mem_map.mp member
      change loaded.errors + _ = recordedAgainst loaded.script (records ++ more)
      rw [recordedAgainst_append, counts loaded there, countsLate loaded there]
      rfl

/-- What a worker has loaded, once the queue has been drained. -/
def drained (sources : List ScriptSource) (session : Session) : Host :=
  ((session.loadOnWorker sources).2.workspace.host.runPending .main).2

/-- Scripts that a worker loads are settled on the host that has drained its queue. -/
theorem Rests.bring_worker (rests : session.Rests scripts) (sources : List ScriptSource) :
    let result := session.bring .worker sources
    result.1 = (session.loadOnWorker sources).1.map (session.drained sources).settledScript ∧
      result.2.Rests (scripts ++ result.1) ∧
      (session.entering .worker).Loads .worker sources result.1 result.2 := by
  intro result
  obtain ⟨ledger, entries, idle, proceeds⟩ := rests.enter .worker
  obtain ⟨noScript, noDrafts, standard, ⟨jobs, more, balances⟩, loads⟩ :=
    proceeds.loadAll .worker sources
  have kept : ∀ loaded ∈ scripts, ∃ known,
      (Ledger.mk (ledger.submit .worker jobs).placed []).Knows loaded known := by
    intro loaded member
    have same : Ledger.mk (ledger.submit .worker jobs).placed [] = ledger :=
      congrArg (Ledger.mk ledger.placed) idle.symm
    rw [same]
    exact (proceeds.balances.agrees loaded member).commands
  obtain ⟨settled, learns, stillNone, later, laterIdle, after⟩ :=
    balances.drain_settle noDrafts kept
  have scriptsAre : result.1 =
      (session.loadOnWorker sources).1.map (session.drained sources).settledScript :=
    congrArg Prod.fst settled
  refine ⟨scriptsAre,
    ⟨standard, stillNone, learns.drafts, later, more, laterIdle, after.write _⟩, ?_⟩
  rw [scriptsAre]
  exact loads.settle learns rfl rfl rfl rfl

/-- Bringing a batch of scripts. -/
theorem Rests.bring (rests : session.Rests scripts) (thread : Thread)
    (sources : List ScriptSource) :
    let result := session.bring thread sources
    result.2.Rests (scripts ++ result.1) ∧
      (session.entering thread).Loads thread sources result.1 result.2 := by
  intro result
  cases thread with
  | main =>
    obtain ⟨ledger, entries, idle, proceeds⟩ := rests.enter .main
    obtain ⟨noScript, noDrafts, standard, ⟨jobs, more, balances⟩, loads⟩ :=
      proceeds.loadAll .main sources
    exact ⟨⟨standard, noScript, noDrafts, ledger.submit .main jobs, more, idle, balances⟩, loads⟩
  | worker => exact (rests.bring_worker sources).2

/-- Bringing batches of scripts. -/
theorem Rests.bringAll (rests : session.Rests scripts)
    (history : List (Thread × List ScriptSource)) :
    (bringAll history session).2.Rests (scripts ++ (bringAll history session).1) := by
  induction history generalizing session scripts with
  | nil =>
    rw [Session.bringAll, List.append_nil]
    exact rests
  | cons batch others ih =>
    have rest := ih (rests.bring batch.1 batch.2).1
    rw [List.append_assoc] at rest
    exact rest

/-- A session without scripts, on a host whose tables are empty. -/
theorem Rests.start {registry : Registry}
    (standard : ∀ descriptor ∈ registry.all, descriptor.Standard) (parts : List ContextPart)
    (host : Host) : (Session.start registry parts host.emptied).Rests [] := by
  obtain ⟨noScript, noDrafts⟩ := Context.withParts_idle parts
  have none {Meets : LoadedScript → Prop} : ∀ loaded ∈ ([] : List LoadedScript), Meets loaded :=
    fun _ absent => absurd absent List.not_mem_nil
  have noEntry {Meets : EventEntry → Prop} : ∀ entry ∈ ([] : List EventEntry), Meets entry :=
    fun _ absent => absurd absent List.not_mem_nil
  refine ⟨standard, noScript, noDrafts, ⟨fun _ _ => False, []⟩, [], rfl, ?_⟩
  constructor
  case follows => exact .emptied { host with functions := {} }
  case permits =>
    rw [show (Session.start registry parts host.emptied).workspace.context.awaits = [] from
      Context.awaits_of_none noDrafts]
    exact .of_nil
  case orderly => exact fun _ => noDrafts
  case gathers => exact fun _ absent => absurd absent List.not_mem_nil
  case settled => exact fun _ => rfl
  case declared => exact fun name function found => by cases found
  case keeps =>
    refine ⟨host.emptied.bindings.usual, ⟨[], []⟩, ⟨rfl, [], rfl, rfl⟩,
      fun _ absent => absurd absent List.not_mem_nil, ?_⟩
    rw [show (Session.start registry parts host.emptied).workspace.entries = [] from
      Workspace.entries_of_none noDrafts]
    exact .refl _
  case entryTickets => exact List.nodup_nil
  case owned =>
    exact fun _ _ has => has.elim False.elim fun absent => absurd absent List.not_mem_nil
  case pastBodies => exact fun _ _ => rfl
  case generations => exact List.nodup_nil
  case tickets => exact List.nodup_nil
  case used => exact fun _ absent => absurd absent List.not_mem_nil
  case agrees => exact none
  case past => exact none
  all_goals exact noEntry

/-- What becomes of a structure whose command the host has refused. -/
theorem settled_refused {host : Host} {inner : LoadedStructure}
    (refuses : host.refuses inner = true) :
    let settled := host.settled inner
    settled.loaded = false ∧
      ∀ thread workspace, Loading.unload thread settled workspace = (settled, workspace) := by
  have marked : host.settled inner = { inner with loaded := false } := if_pos refuses
  rw [marked]
  exact ⟨rfl, fun _ _ => rfl⟩

/-- **Counters tell the truth.** On a host whose tables start empty, batches of scripts are brought,
each loaded on the main thread, or loaded on a worker and settled once the queue has been drained.
After every batch the counters of all scripts that have been brought are the numbers of what the
host shows of them. Of the last batch, the structures are those that have taken their headers, and
the errors are the diagnostics that have been recorded against the script since the batch began.
What a worker has loaded is settled on the host that has drained its queue: a structure whose
command that host has refused is marked as not loaded, and unloading it does nothing. Settling once
more, on any thread, rejects nothing and changes no script. -/
theorem bring_counts (parts : List ContextPart) (host : Host)
    (history : List (Thread × List ScriptSource)) (thread : Thread) (sources : List ScriptSource) :
    let earlier := bringAll history (.start .standard parts host.emptied)
    let result := earlier.2.bring thread sources
    (∀ loaded ∈ earlier.1 ++ result.1, loaded.Truthful result.2.workspace.host) ∧
      result.1.map (·.info.structures) =
        (earlier.2.entering thread).headersTaken thread sources ∧
      (∃ records, (earlier.2.entering thread).workspace.Records records result.2.workspace ∧
        (∀ record ∈ records, ∃ loaded ∈ result.1, record.1 = loaded.script) ∧
        ∀ loaded ∈ result.1, loaded.errors = recordedAgainst loaded.script records) ∧
      (earlier.2.bring .worker sources).1 = (earlier.2.loadOnWorker sources).1.map
        (earlier.2.drained sources).settledScript ∧
      (∀ inner, (earlier.2.drained sources).refuses inner = true →
        let settled := (earlier.2.drained sources).settled inner
        settled.loaded = false ∧
          ∀ thread workspace, Loading.unload thread settled workspace = (settled, workspace)) ∧
      ∀ settling, (result.2.settle settling (earlier.1 ++ result.1)).1 =
        (earlier.1 ++ result.1, 0) := by
  intro earlier result
  have rests : earlier.2.Rests earlier.1 :=
    (Rests.start (fun _ => Registry.mem_standard) parts host).bringAll history
  obtain ⟨resting, loads⟩ := rests.bring thread sources
  obtain ⟨ledger, entries, idle, balances⟩ := resting.balances
  exact ⟨fun loaded member => balances.truthful idle resting.drafts member, loads.headers,
    loads.recorded, (rests.bring_worker sources).1, fun inner => settled_refused,
    fun settling => balances.settle_again resting.drafts settling⟩

end Session

end ScriptBinding

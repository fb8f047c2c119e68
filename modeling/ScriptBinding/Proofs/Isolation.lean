import ScriptBinding.Proofs.Generations
import ScriptBinding.Proofs.TwinLoads

/-! # Scripts on one context

The context of a session goes from one script to the next. Whatever has been loaded, unloaded,
reloaded and settled on the main thread, nothing of it is left in the context for the next script:
that is loaded as it would be on a new context and the same host.
-/

namespace ScriptBinding

namespace Session

/-! ## What may be done before -/

/-- Something that a session can be asked to do. -/
inductive Request where
  | load (source : ScriptSource)
  /-- Load scripts, and finish the last one. -/
  | loadAll (sources : List ScriptSource)
  | unload (loaded : LoadedScript)
  | reload (loaded : LoadedScript) (source : ScriptSource)
  | settle (scripts : List LoadedScript)
  /-- Move on to no script. -/
  | finish

/-- Do on the main thread what has been asked for. -/
def serve (session : Session) : Request → Session
  | .load source => (session.load .main source).2
  | .loadAll sources => (session.loadAll .main sources).2
  | .unload loaded => (session.unload .main loaded).2
  | .reload loaded source => (session.reload .main loaded source).2
  | .settle scripts => (session.settle .main scripts).2
  | .finish => session.setScript .main none

def serveAll (requests : List Request) (session : Session) : Session :=
  requests.foldl serve session

/-- All that the session knows of comes from loads before the next one, and no body is being
read. -/
structure Dated (session : Session) : Prop where
  standard : session.registry = .standard
  orderly : session.workspace.Orderly
  events : session.workspace.context.events = []
  current : ∀ script, session.workspace.context.script = some script →
    script.generation < session.generations.next
  host : session.workspace.host.Predates session.generations.next

variable {session : Session}

/-- The next load is not the current one. -/
theorem Dated.moves (dated : session.Dated) (path : Path) :
    Script.sameCurrent session.workspace.context.script
      (some ⟨path, session.generations.next⟩) = false :=
  Script.sameCurrent_of_newer dated.current

theorem Dated.load (dated : session.Dated) (source : ScriptSource) :
    (session.load .main source).2.Dated := by
  let script : Script := ⟨source.path, session.generations.next⟩
  have moved := Workspace.AddsNothing.setScript (some script) session.workspace
  obtain ⟨_, current, _⟩ := Workspace.start_script .main dated.orderly (dated.moves source.path)
  have adds := Loading.addsOwn_carried.loadCurrent session.registry script source.tree.nodes
    (session.workspace.setScript .main (some script))
  have after : (session.load .main source).2.workspace.context.script = some script :=
    adds.script.trans current
  refine ⟨dated.standard, fun none => ?_, adds.events.trans (moved.events.trans dated.events),
    fun other isOther => ?_, adds.predates current ?_⟩
  · rw [after] at none
    cases none
  · rw [after] at isOther
    cases isOther
    exact Nat.lt_succ_self _
  · exact fun generation mentions => dated.host generation (moved.mentions generation mentions)

/-- What adds nothing and leaves no script keeps a session dated. -/
theorem Dated.of_addsNothing (dated : session.Dated) {workspace : Workspace}
    (adds : session.workspace.AddsNothing workspace) (noScript : workspace.context.script = none) :
    ({ session with workspace } : Session).Dated := by
  refine ⟨dated.standard, adds.orderly dated.orderly, adds.events.trans dated.events, ?_, ?_⟩
  · intro script current
    rw [noScript] at current
    cases current
  · exact fun generation mentions => dated.host generation (adds.mentions generation mentions)

theorem finish_script (workspace : Workspace) :
    (workspace.setScript .main none).context.script = none := by
  cases current : workspace.context.script with
  | none => rwa [Workspace.finish_of_none current]
  | some script => exact (Workspace.finish_context .main fun none => by rw [current] at none; cases none).1

theorem Dated.finish (dated : session.Dated) : (session.setScript .main none).Dated :=
  dated.of_addsNothing (.setScript none session.workspace) (finish_script session.workspace)

theorem Dated.unload (dated : session.Dated) (loaded : LoadedScript) :
    (session.unload .main loaded).2.Dated :=
  dated.of_addsNothing (Loading.unloadScript_addsNothing loaded session.workspace)
    (finish_script _)

theorem Dated.loadEach (sources : List ScriptSource) (dated : session.Dated) :
    (session.loadEach .main sources).2.Dated := by
  induction sources generalizing session with
  | nil => exact dated
  | cons source others ih => exact ih (dated.load source)

/-- Every request keeps a session dated. -/
theorem Dated.serve (dated : session.Dated) (request : Request) : (session.serve request).Dated := by
  cases request with
  | load source => exact dated.load source
  | loadAll sources =>
    have finished := (dated.loadEach sources).finish
    exact ⟨finished.standard, finished.orderly, finished.events, finished.current,
      fun generation mentions => finished.host generation (mentions.of_write)⟩
  | unload loaded => exact dated.unload loaded
  | reload loaded source => exact ((dated.unload loaded).load source).finish
  | settle scripts =>
    exact dated.of_addsNothing (Loading.settleScripts_addsNothing scripts session.workspace)
      (finish_script _)
  | finish => exact dated.finish

theorem Dated.serveAll (requests : List Request) (dated : session.Dated) :
    (session.serveAll requests).Dated := by
  induction requests generalizing session with
  | nil => exact dated
  | cons request others ih => exact ih (dated.serve request)

end Session

/-! ## One script on two contexts -/

theorem Context.withParts_unread (parts : List ContextPart) :
    (withParts parts).events = [] ∧ (withParts parts).diagnostics = [] := by
  have kept (context : Context) :
      (parts.foldl build context).events = context.events ∧
        (parts.foldl build context).diagnostics = context.diagnostics := by
    induction parts generalizing context with
    | nil => exact ⟨rfl, rfl⟩
    | cons part others ih =>
      obtain ⟨events, diagnostics⟩ := ih (context.build part)
      exact ⟨events.trans (by cases part <;> rfl), diagnostics.trans (by cases part <;> rfl)⟩
  exact kept {}

/-- What structures can see in a context is empty. -/
structure Context.Blank (context : Context) : Prop where
  inHand : context.sectionInHand.getD {} = {}
  options : context.currentOptions = .empty
  aliases : context.currentAliases = .empty
  declared : context.currentCommands = []
  drafts : context.currentDrafts = []
  info : context.info = {}

/-- A context that has moved on shows nothing of the script it has left. -/
theorem Context.moved_blank (script : Option Script) (context : Context) :
    (context.moved script).Blank where
  inHand := by
    unfold moved
    cases context.sectionInHand <;> rfl
  options := by
    unfold moved currentOptions
    cases context.options <;> rfl
  aliases := by
    unfold moved currentAliases
    cases context.aliases <;> rfl
  declared := by
    unfold moved currentCommands
    cases context.commands <;> rfl
  drafts := Workspace.moved_drafts script context
  info := rfl

/-- What scripts are bound to is the same on both hosts but for the loads. -/
structure Comparison.Counterparts (both : Comparison) (first second : Host) : Prop where
  classes : second.classes = first.classes
  functions : second.functions = both.functions first.functions
  distinct : ∀ name signature, first.functions.signature? name = some signature →
    both.Distinct signature.script
  commands : second.commands = both.commands first.commands
  registrations : ∀ ticket, both.floor ≤ ticket →
    second.registrations (ticket + both.shift) = both.registration (first.registrations ticket)
  later : both.floor ≤ first.nextTicket
  nextTicket : second.nextTicket = first.nextTicket + both.shift

/-- Two contexts that have just moved on to the loads differ in nothing that structures can see. -/
theorem Comparison.Counterparts.twins {both : Comparison} {first second : Host}
    (hosts : both.Counterparts first second) {context other : Context}
    (events : other.events = context.events)
    (exactly : both.exact → both.Exactly ⟨first, context.moved (some both.old)⟩
      ⟨second, other.moved (some both.new)⟩) :
    both.Twins ⟨first, context.moved (some both.old)⟩ ⟨second, other.moved (some both.new)⟩ := by
  have here := Context.moved_blank (some both.old) context
  have there := Context.moved_blank (some both.new) other
  exact {
    classes := hosts.classes
    functions := hosts.functions
    distinct := hosts.distinct
    commands := hosts.commands
    registrations := hosts.registrations
    later := hosts.later
    nextTicket := hosts.nextTicket
    oldCurrent := rfl
    newCurrent := rfl
    inHand := there.inHand.trans here.inHand.symm
    options := there.options.trans here.options.symm
    aliases := there.aliases.trans here.aliases.symm
    declared := there.declared.trans here.declared.symm
    drafts := by rw [here.drafts, there.drafts, List.map_nil]
    events
    info := rfl
    exactly }

namespace Renewal

/-- What the host is bound to, with the new load in the place of the old one, which has bound no
triggers. -/
def host (renewal : Renewal) (host : Host) : Host :=
  { host with
    functions := renewal.functions host.functions
    commands := renewal.commands host.commands
    registrations := fun ticket => renewal.registration (host.registrations ticket) }

variable (renewal : Renewal) {host : Host} {script : Script}

theorem script_of_lt (earlier : script.generation < renewal.old.generation) :
    renewal.script script = script :=
  if_neg fun same => absurd (same ▸ earlier) (Nat.lt_irrefl _)

theorem command_of_lt {command : Command}
    (earlier : command.script.generation < renewal.old.generation) :
    renewal.command command = command := by
  rw [Renewal.command, renewal.script_of_lt earlier]

theorem signature_of_lt {signature : Signature}
    (earlier : signature.script.generation < renewal.old.generation) :
    renewal.signature signature = signature := by
  rw [Renewal.signature, renewal.script_of_lt earlier]

/-- A host that knows only earlier scripts stays as it is. -/
theorem host_of_predates (predates : host.Predates renewal.old.generation) :
    renewal.functions host.functions = host.functions ∧
      renewal.commands host.commands = host.commands ∧
      ∀ ticket, renewal.registration (host.registrations ticket) = host.registrations ticket := by
  refine ⟨?_, ?_, fun ticket => ?_⟩
  · have signatures : host.functions.signatures.map renewal.signature =
        host.functions.signatures :=
      Table.map_eq_self fun name signature found =>
        renewal.signature_of_lt (predates _ (.signature name signature found))
    have bodies : host.functions.bodies.map renewal.function = host.functions.bodies := by
      refine Table.map_eq_self fun name function found => ?_
      rw [Renewal.function, renewal.signature_of_lt (predates _ (.body name function found))]
    rw [Renewal.functions, signatures, bodies]
  · have commands : host.commands.commands.map renewal.command = host.commands.commands :=
      Table.map_eq_self fun name command found =>
        renewal.command_of_lt (predates _ (.command name command found))
    rw [Renewal.commands, commands]
  · unfold Renewal.registration
    cases found : (host.registrations ticket).registered with
    | none => rw [Option.map_none, ← found]
    | some command =>
      rw [Option.map_some, renewal.command_of_lt (predates _ (.registered ticket command found)),
        ← found]

/-- An earlier script can be told from both loads. -/
theorem distinct_of_lt (earlier : script.generation < renewal.old.generation)
    (later : renewal.old.generation ≤ renewal.new.generation) : renewal.Distinct script := by
  refine Or.inr ⟨?_, ?_⟩
  · refine Bool.eq_false_iff.mpr fun same => ?_
    have := Script.generation_eq_of_same same
    omega
  · refine Bool.eq_false_iff.mpr fun same => ?_
    have := Script.generation_eq_of_same same
    omega

end Renewal

/-- A script is loaded as another load of it is that the renewal puts in its place: with the same
structures, the same counters and the same number of failures, to the same host, and the same
triggers wait. What is reported is the same behind what had been reported earlier. -/
structure Renewal.LoadsAlike (renewal : Renewal) (earlier : List Diagnostic)
    (one other : LoadedScript × Workspace) : Prop where
  loaded : other.1 = renewal.loaded one.1
  diagnostics : one.2.context.diagnostics = earlier ++ other.2.context.diagnostics
  host : other.2.host = renewal.host one.2.host
  drafts : other.2.context.currentDrafts = one.2.context.currentDrafts.map renewal.draft

/-- Two loads that differ in nothing else come to the same. -/
theorem Comparison.Twins.loadsAlike {both : Comparison} {first second : Workspace}
    {registry : Registry} (twins : both.Twins first second) (exact : both.exact)
    (unshifted : both.shift = 0) (below : both.floor = 0) (nodes : List Node)
    (makes : ∀ descriptor ∈ registry.all, both.Makes descriptor) :
    both.LoadsAlike both.earlier (Loading.loadCurrent registry .main both.old nodes first)
      (Loading.loadCurrent registry .main both.new nodes second) := by
  obtain ⟨structures, info, errors, after⟩ := Loading.loadCurrent_twins twins nodes makes
  have owner (script : Script) (workspace : Workspace) :
      (Loading.loadCurrent registry .main script nodes workspace).1.script = script := rfl
  have old := owner both.old first
  have new := owner both.new second
  generalize Loading.loadCurrent registry .main both.old nodes first = one,
    Loading.loadCurrent registry .main both.new nodes second = other at *
  have same := after.exactly exact
  constructor
  case loaded =>
    have alike : other.1.structures = one.1.structures.map both.structureOf := by
      rw [← List.forall₂_eq_eq_eq, List.forall₂_map_right_iff]
      exact structures.flip.imp fun _ _ alike => alike.eq_structureOf exact
    obtain ⟨⟨_, _, _, _⟩, _⟩ := one
    obtain ⟨⟨_, _, _, _⟩, _⟩ := other
    cases old
    cases new
    cases alike
    cases info
    cases errors exact
    rw [Renewal.loaded, Renewal.script_old]
  case diagnostics => exact same.diagnostics
  case host =>
    have registrations : other.2.host.registrations =
        fun ticket => both.registration (one.2.host.registrations ticket) := by
      funext ticket
      rw [← after.registrations ticket (below ▸ Nat.zero_le _), unshifted]
      rfl
    have nextTicket : other.2.host.nextTicket = one.2.host.nextTicket := by
      rw [after.nextTicket, unshifted]
      rfl
    exact (Host.mk.injEq ..).mpr ⟨same.config, after.classes, same.sink, same.bus,
      after.commands, after.functions, same.store, same.queue, same.bound, registrations,
      nextTicket, same.effects, same.notes, same.log⟩
  case drafts => exact after.drafts

/-- A new context moves on without a trace. -/
theorem Workspace.setScript_new (parts : List ContextPart) (host : Host) (script : Script) :
    (Workspace.mk host (.withParts parts)).setScript .main (some script) =
      ⟨host, (Context.withParts parts).moved (some script)⟩ := by
  obtain ⟨noScript, noDrafts⟩ := Context.withParts_idle parts
  have moves : Script.sameCurrent (Context.withParts parts).script (some script) = false := by
    rw [noScript]
    rfl
  rw [setScript_of_moves moves, flush_of_none noDrafts]
  rfl

/-- Load a source on a new context, on the host as it is once the current script is finished. -/
def Session.loadAlone (session : Session) (parts : List ContextPart) (source : ScriptSource)
    (generation : Nat) : LoadedScript × Workspace :=
  Loading.loadScript .standard .main ⟨source.path, generation⟩ source
    ⟨(session.workspace.setScript .main none).host, .withParts parts⟩

/-- The next load of the session, and another load of the same file. -/
def Session.renewal (session : Session) (path : Path) (generation : Nat) : Renewal where
  old := ⟨path, session.generations.next⟩
  new := ⟨path, generation⟩
  path := rfl

/-- The two loads differ in nothing else, but for what has been reported in the session. -/
def Session.comparison (session : Session) (path : Path) (generation : Nat) : Comparison where
  toRenewal := session.renewal path generation
  exact := True
  earlier := session.workspace.context.diagnostics

namespace Session.Dated

variable {session : Session}

/-- The next load starts on the host as it is once the current script is finished, in a context
that has moved on. -/
theorem started (dated : session.Dated) (path : Path) :
    session.workspace.setScript .main (some ⟨path, session.generations.next⟩) =
      ⟨(session.workspace.setScript .main none).host,
        session.workspace.context.moved (some ⟨path, session.generations.next⟩)⟩ := by
  have moves := dated.moves path
  rw [← (Workspace.start_script .main dated.orderly moves).1, Workspace.setScript_of_moves moves,
    Workspace.inContext, Workspace.flush_context]

/-- At the start of a load there is no more in the context of the session than in a new one. -/
theorem twins (dated : session.Dated) (parts : List ContextPart) (path : Path) (generation : Nat)
    (later : session.generations.next ≤ generation) :
    let both := session.comparison path generation
    both.Twins (session.workspace.setScript .main (some both.old))
      (Workspace.setScript .main (some both.new)
        ⟨(session.workspace.setScript .main none).host, .withParts parts⟩) := by
  intro both
  obtain ⟨noEvents, noDiagnostics⟩ := Context.withParts_unread parts
  rw [Workspace.setScript_new, show session.workspace.setScript .main (some both.old) =
    ⟨_, session.workspace.context.moved (some both.old)⟩ from dated.started path]
  have predates : (session.workspace.setScript .main none).host.Predates both.old.generation :=
    dated.finish.host
  obtain ⟨functions, commands, registrations⟩ := both.host_of_predates predates
  have hosts : both.Counterparts (session.workspace.setScript .main none).host
      (session.workspace.setScript .main none).host :=
    { classes := rfl
      functions := functions.symm
      distinct := fun name signature found =>
        both.distinct_of_lt (predates _ (.signature name signature found)) later
      commands := commands.symm
      registrations := fun ticket _ => (registrations ticket).symm
      later := Nat.zero_le _
      nextTicket := rfl }
  refine hosts.twins (noEvents.trans dated.events.symm) fun _ => ?_
  constructor
  case diagnostics =>
    change _ = _ ++ (Context.withParts parts).diagnostics
    rw [noDiagnostics, List.append_nil]
    rfl
  all_goals rfl

/-- The next load of a dated session is that of a new context. -/
theorem loadsAlike (dated : session.Dated) (parts : List ContextPart) (source : ScriptSource)
    (generation : Nat) (later : session.generations.next ≤ generation) :
    (session.renewal source.path generation).LoadsAlike session.workspace.context.diagnostics
      ((session.load .main source).1, (session.load .main source).2.workspace)
      (session.loadAlone parts source generation) := by
  have alike := (dated.twins parts source.path generation later).loadsAlike trivial rfl rfl
    source.tree.nodes fun descriptor member => (Registry.mem_standard member).makes
  unfold loadAlone
  rw [← dated.standard] at alike ⊢
  exact alike

end Session.Dated

namespace Session

/-- Every load takes a generation. -/
theorem loads_next (sources : List ScriptSource) (session : Session) :
    (session.serveAll (sources.map .load)).generations.next =
      session.generations.next + sources.length := by
  induction sources generalizing session with
  | nil => rfl
  | cons source others ih =>
    have taken : (session.load .main source).2.generations.next = session.generations.next + 1 := rfl
    refine (ih _).trans ?_
    rw [List.length_cons]
    change (session.load .main source).2.generations.next + _ = _
    omega

/-- A session starts with nothing in its context, on a host that knows only earlier scripts. -/
theorem start_dated (parts : List ContextPart) {host : Host} {generations : GenerationCounter}
    (earlier : host.Predates generations.next) :
    ({ start .standard parts host with generations } : Session).Dated := by
  obtain ⟨noScript, noDrafts⟩ := Context.withParts_idle parts
  unfold start
  dsimp only
  constructor
  case standard => dsimp only
  case orderly => exact fun _ => noDrafts
  case events => exact (Context.withParts_unread parts).1
  case current =>
    intro script current
    change (Context.withParts parts).script = some script at current
    rw [noScript] at current
    cases current
  case host => exact earlier

/-- A session of the standard registry that has served requests. -/
def served (parts : List ContextPart) (host : Host) (generations : GenerationCounter)
    (requests : List Request) : Session :=
  serveAll requests { start .standard parts host with generations }

/-- No script shows in the load of another one. Whatever has been done on the main thread with the
context of a session, a source that is loaded next comes to the same as on a new context and the
host that the last script has been finished on, but for the generation. -/
theorem served_isolates (parts others : List ContextPart) (host : Host)
    (generations : GenerationCounter) (earlier : host.Predates generations.next)
    (requests : List Request) (source : ScriptSource) (generation : Nat)
    (later : (served parts host generations requests).generations.next ≤ generation) :
    ((served parts host generations requests).renewal source.path generation).LoadsAlike
      (served parts host generations requests).workspace.context.diagnostics
      (((served parts host generations requests).load .main source).1,
        ((served parts host generations requests).load .main source).2.workspace)
      ((served parts host generations requests).loadAlone others source generation) :=
  ((start_dated parts earlier).serveAll requests).loadsAlike others source generation later

/-- A file with one command. -/
def greetingSource : ScriptSource where
  path := ⟨"hello.sk"⟩
  tree := ⟨"hello.sk", 0,
    [.nested "command /hello" 1 [.nested "trigger" 2 [.simple "send \"hello\"" 3]]]⟩

/-- A session that has loaded the file twice. -/
def greeted : Session :=
  served [.options] {} ⟨4⟩ ([greetingSource, greetingSource].map .load)

/-- There the file is loaded once more as on a new context. -/
theorem greeted_isolates :
    ({} : Host).Predates 4 ∧ greeted.generations.next ≤ 9 ∧
      (greeted.renewal greetingSource.path 9).LoadsAlike greeted.workspace.context.diagnostics
        ((greeted.load .main greetingSource).1, (greeted.load .main greetingSource).2.workspace)
        (greeted.loadAlone ContextPart.standard greetingSource 9) := by
  have earlier : ({} : Host).Predates 4 := Host.predates_new 4
  unfold greeted
  have later : (served [.options] {} ⟨4⟩
      ([greetingSource, greetingSource].map .load)).generations.next ≤ 9 := by
    unfold served
    rw [loads_next]
    exact Nat.le_of_ble_eq_true rfl
  have isolated := served_isolates [.options] ContextPart.standard {} ⟨4⟩ earlier
    ([greetingSource, greetingSource].map .load) greetingSource 9 later
  exact ⟨earlier, later, isolated⟩

end Session

end ScriptBinding

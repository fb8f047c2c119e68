import ScriptBinding.Proofs.Ownership
import ScriptBinding.Session

/-! # Runs on the main thread

On a host whose tables start empty, scripts are loaded, unloaded and reloaded on the main thread in
any order. The tables hold then what the scripts own that have not been unloaded.
-/

namespace ScriptBinding

/-- A session, and the scripts that have been loaded in it. -/
structure Desk where
  session : Session
  handles : List Handle := []

/-- A host whose tables are empty. -/
def Host.emptied (host : Host) : Host :=
  { host with
    bus := {}
    commands := {}
    functions := {}
    queue := {}
    bound := fun _ => none
    registrations := fun _ => {}
    nextTicket := 0 }

namespace Desk

/-- What can be done at a desk. A place is that of a script among those that have been loaded. -/
inductive Step where
  | load (source : ScriptSource)
  | loadAll (sources : List ScriptSource)
  /-- Move on to no script. -/
  | finish
  | unload (place : Nat)
  | reload (place : Nat) (source : ScriptSource)

/-- A desk without scripts, on a host whose tables are empty. -/
def start (parts : List ContextPart) (host : Host) : Desk where
  session := .start .standard parts host.emptied

/-- Do something on the main thread. -/
def step (desk : Desk) : Step → Desk
  | .load source =>
    let (loaded, session) := desk.session.load .main source
    ⟨session, desk.handles ++ [⟨loaded, false⟩]⟩
  | .loadAll sources =>
    let (scripts, session) := desk.session.loadAll .main sources
    ⟨session, desk.handles ++ scripts.map (⟨·, false⟩)⟩
  | .finish => { desk with session := desk.session.setScript .main none }
  | .unload place =>
    match desk.handles[place]? with
    | none => desk
    | some handle =>
      let (unloaded, session) := desk.session.unload .main handle.loaded
      ⟨session, desk.handles.set place ⟨unloaded, true⟩⟩
  | .reload place source =>
    match desk.handles[place]? with
    | none => desk
    | some handle =>
      let (reloaded, session) := desk.session.reload .main handle.loaded source
      ⟨session, desk.handles.set place handle.unload ++ [⟨reloaded, false⟩]⟩

/-- Do one thing after the other. -/
def run (steps : List Step) (desk : Desk) : Desk :=
  steps.foldl step desk

def host (desk : Desk) : Host :=
  desk.session.workspace.host

/-- The scripts that have not been unloaded. -/
def live (desk : Desk) : List LoadedScript :=
  (desk.handles.filter (!·.unloaded)).map Handle.loaded

/-- The tables hold exactly what the scripts own that have not been unloaded. -/
structure Settled (desk : Desk) : Prop where
  subscriptions : desk.host.bus.subscriptions.Perm
    (desk.live.flatMap (·.structures.flatMap (desk.host.subscriptionsOf desk.session.registry)))
  once : (desk.host.bus.subscriptions.map fun subscription =>
    (subscription.eventClass, subscription.trigger.ticket)).Nodup
  selfRegistered : desk.host.bus.selfRegistered.Perm
    (desk.live.flatMap (·.structures.flatMap desk.host.selfRegisteredOf))
  binds : ∀ loaded ∈ desk.live, ∀ inner ∈ loaded.structures,
    desk.host.Binds desk.session.registry loaded.script inner
  commands : ∀ name command, desk.host.commands.commands.get? name = some command ↔
    command.name = name ∧ ∃ loaded ∈ desk.live, ∃ inner ∈ loaded.structures,
      inner.loaded = true ∧ ∃ own, inner.inner.command? = some own ∧ own.name = some name ∧
        command.script = loaded.script ∧ desk.host.registered own.ticket = some command
  labels : ∀ label name, desk.host.commands.labels.get? label = some name ↔
    ∃ command, desk.host.commands.commands.get? name = some command ∧ label ∈ command.labels
  loadedCommands : ∀ loaded ∈ desk.live, ∀ inner ∈ loaded.structures, ∀ own,
    inner.inner.command? = some own → inner.loaded = true →
      ∃ name command, own.name = some name ∧
        desk.host.commands.commands.get? name = some command ∧ command.script = loaded.script
  signatures : ∀ name signature, desk.host.functions.signature? name = some signature →
    ∃ loaded ∈ desk.live, signature.script = loaded.script

end Desk

/-! ## What every step keeps -/

/-- Once the current script is finished, the tables hold what some scripts own. -/
structure Session.Accounts (session : Session) (handles : List Handle) : Prop where
  builtIn : session.registry.BuiltIn
  orderly : session.workspace.Orderly
  past : ∀ handle ∈ handles, handle.loaded.script.generation < session.generations.next
  current : ∀ script, session.workspace.context.script = some script →
    script.generation < session.generations.next
  holds : (session.workspace.setScript .main none).host.Holds session.registry handles

namespace Session.Accounts

variable {session : Session} {handles : List Handle}

/-- What a script gains when it is loaded and finished. -/
theorem load_gains (accounts : session.Accounts handles) (source : ScriptSource) :
    (session.load .main source).1.script = ⟨source.path, session.generations.next⟩ ∧
      (session.load .main source).2.workspace.context.script =
        some ⟨source.path, session.generations.next⟩ ∧
      Loading.Gains EventFilter.IsBuiltIn session.registry
        (session.workspace.setScript .main none).host (session.load .main source).1
        ((session.load .main source).2.workspace.setScript .main none).host :=
  Loading.loadScript_main source accounts.builtIn.makesOwn accounts.orderly
    (Script.sameCurrent_of_newer accounts.current) accounts.holds.sound accounts.holds.tidy
    (fun _ => accounts.holds.unregistered) (fun _ => accounts.holds.unbound)

theorem new (accounts : session.Accounts handles) (source : ScriptSource) :
    ∀ handle ∈ handles, handle.loaded.script.generation ≠
      (session.load .main source).1.script.generation := by
  intro handle member same
  have earlier := accounts.past handle member
  rw [same, (accounts.load_gains source).1] at earlier
  exact Nat.lt_irrefl _ earlier

theorem load (accounts : session.Accounts handles) (source : ScriptSource) :
    (session.load .main source).2.Accounts
      (handles ++ [⟨(session.load .main source).1, false⟩]) := by
  obtain ⟨script, current, gains⟩ := accounts.load_gains source
  have later : session.generations.next < (session.load .main source).2.generations.next :=
    Nat.lt_succ_self _
  refine ⟨accounts.builtIn, ?_, ?_, ?_, ?_⟩
  · intro noScript
    rw [current] at noScript
    cases noScript
  · intro handle member
    rcases List.mem_append.mp member with old | new
    · exact (accounts.past handle old).trans later
    · rw [List.mem_singleton.mp new, script]
      exact later
  · intro other found
    rw [current] at found
    rw [← Option.some.inj found]
    exact later
  · exact (accounts.holds.load gains (accounts.new source)).perm
      (List.perm_append_singleton _ _).symm

theorem finish (accounts : session.Accounts handles) :
    (session.setScript .main none).Accounts handles := by
  obtain ⟨noScript, noDrafts⟩ := Workspace.finish_context .main accounts.orderly
  refine ⟨accounts.builtIn, fun _ => noDrafts, accounts.past, ?_, ?_⟩
  · intro script found
    change (session.workspace.setScript .main none).context.script = some script at found
    rw [noScript] at found
    cases found
  · change ((session.workspace.setScript .main none).setScript .main none).host.Holds _ _
    rw [Workspace.finish_of_none noScript]
    exact accounts.holds

theorem write (accounts : session.Accounts handles)
    (noScript : session.workspace.context.script = none) (entries : List LogEntry) :
    (session.write entries).Accounts handles := by
  refine ⟨accounts.builtIn, accounts.orderly, accounts.past, accounts.current, ?_⟩
  have holds := accounts.holds
  rw [Workspace.finish_of_none noScript] at holds
  have stays : (session.write entries).workspace.setScript .main none =
      (session.write entries).workspace := Workspace.finish_of_none noScript
  rw [stays]
  exact holds.write entries

theorem loadEach (sources : List ScriptSource) (accounts : session.Accounts handles) :
    (session.loadEach .main sources).2.Accounts
      (handles ++ (session.loadEach .main sources).1.map (⟨·, false⟩)) := by
  induction sources generalizing session handles with
  | nil =>
    rw [Session.loadEach, List.map_nil, List.append_nil]
    exact accounts
  | cons source others ih =>
    have rest := ih (accounts.load source)
    rw [List.append_assoc] at rest
    exact rest

theorem loadAll (sources : List ScriptSource) (accounts : session.Accounts handles) :
    (session.loadAll .main sources).2.Accounts
      (handles ++ (session.loadAll .main sources).1.map (⟨·, false⟩)) :=
  (accounts.loadEach sources).finish.write
    (Workspace.finish_context .main (accounts.loadEach sources).orderly).1 _

/-- What unloading a script of a session does. -/
theorem unload_releases (accounts : session.Accounts handles) {handle : Handle}
    (member : handle ∈ handles) :
    let finished := session.workspace.setScript .main none
    let after := (session.unload .main handle.loaded).2.workspace
    finished.host.Releases handle.loaded.structures after.host ∧ after.context.script = none ∧
      after.context.currentDrafts = [] ∧
      ∃ between, FunctionTable.ShrunkBy handle.loaded.script finished.host.functions between ∧
        after.host.functions = (between.withdrawScript handle.loaded.script).2 :=
  Loading.unloadScript_main accounts.orderly accounts.holds.sound accounts.holds.tidy
    ((List.nodup_flatMap.mp accounts.holds.tickets).1 handle member)
    (accounts.holds.registered handle member) (accounts.holds.declares handle member)
    (accounts.holds.events handle member)

theorem perm_of_getElem? {handle : Handle} {place : Nat}
    (found : handles[place]? = some handle) (after : Handle) :
    handles.Perm (handle :: handles.eraseIdx place) ∧
      (handles.set place after).Perm (after :: handles.eraseIdx place) := by
  obtain ⟨less, rfl⟩ := List.getElem?_eq_some_iff.mp found
  exact ⟨(List.getElem_cons_eraseIdx_perm less).symm, List.set_perm_cons_eraseIdx less after⟩

theorem unload (accounts : session.Accounts handles) {handle : Handle} {place : Nat}
    (found : handles[place]? = some handle) :
    (session.unload .main handle.loaded).2.Accounts (handles.set place handle.unload) := by
  obtain ⟨releases, noScript, noDrafts, between, shrunk, functions⟩ :=
    accounts.unload_releases (List.mem_of_getElem? found)
  obtain ⟨before, after⟩ := perm_of_getElem? found handle.unload
  refine ⟨accounts.builtIn, fun _ => noDrafts, ?_, ?_, ?_⟩
  · intro other member
    rcases List.mem_or_eq_of_mem_set member with old | rfl
    · exact accounts.past other old
    · exact accounts.past handle (List.mem_of_getElem? found)
  · intro script current
    rw [noScript] at current
    cases current
  · rw [Workspace.finish_of_none noScript]
    exact ((accounts.holds.perm before).unload releases shrunk functions).perm after.symm

end Session.Accounts

namespace Desk

/-! ## Runs -/

theorem start_builtIn (parts : List ContextPart) (host : Host) :
    (start parts host).session.registry.BuiltIn := by
  unfold start Session.start
  dsimp only
  exact Registry.standard_builtIn

theorem start_accounts (parts : List ContextPart) (host : Host) :
    (start parts host).session.Accounts (start parts host).handles := by
  obtain ⟨noScript, noDrafts⟩ := Context.withParts_idle parts
  have none {Meets : Handle → Prop} : ∀ handle ∈ (start parts host).handles, Meets handle :=
    fun _ member => absurd member List.not_mem_nil
  refine ⟨start_builtIn parts host, fun _ => noDrafts, none, ?_, ?_⟩
  · intro script current
    change (Context.withParts parts).script = some script at current
    rw [noScript] at current
    cases current
  · have stays : (start parts host).session.workspace.setScript .main Option.none =
        (start parts host).session.workspace := Workspace.finish_of_none noScript
    rw [stays]
    constructor
    case sound => exact ⟨CommandTable.Reflects.empty, fun _ => rfl⟩
    case tidy => exact ⟨nofun, nofun, nofun⟩
    case declared => exact fun name function found => by cases found
    case generations => exact List.nodup_nil
    case tickets => exact List.nodup_nil
    case owned => exact fun ticket trigger found => by cases found
    case subscriptions => exact .nil
    case selfRegistered => exact .nil
    case unused => exact fun _ _ => rfl
    case signatures => exact fun name signature found => by cases found
    all_goals exact none

theorem step_accounts (step : Step) {desk : Desk} (accounts : desk.session.Accounts desk.handles) :
    (desk.step step).session.Accounts (desk.step step).handles := by
  cases step with
  | load source => exact accounts.load source
  | loadAll sources => exact accounts.loadAll sources
  | finish => exact accounts.finish
  | unload place =>
    dsimp only [Desk.step]
    cases found : desk.handles[place]? with
    | none => exact accounts
    | some handle => exact accounts.unload found
  | reload place source =>
    dsimp only [Desk.step]
    cases found : desk.handles[place]? with
    | none => exact accounts
    | some handle => exact ((accounts.unload found).load source).finish

theorem run_accounts (steps : List Step) {desk : Desk}
    (accounts : desk.session.Accounts desk.handles) :
    (desk.run steps).session.Accounts (desk.run steps).handles := by
  induction steps generalizing desk with
  | nil => exact accounts
  | cons step others ih => exact ih (step_accounts step accounts)

/-! ## Points without a current script -/

variable {desk : Desk}

theorem mem_live {loaded : LoadedScript} :
    loaded ∈ desk.live ↔ ∃ handle ∈ desk.handles, handle.unloaded = false ∧
      handle.loaded = loaded := by
  simp only [live, List.mem_map, List.mem_filter, Bool.not_eq_true', and_assoc]

/-- What has been unloaded does not count. -/
theorem flatMap_live {α : Type} {handles : List Handle} (own : LoadedScript → List α)
    (emptied : ∀ handle ∈ handles, handle.unloaded = true → own handle.loaded = []) :
    handles.flatMap (own ·.loaded) =
      ((handles.filter (!·.unloaded)).map Handle.loaded).flatMap own := by
  induction handles with
  | nil => rfl
  | cons handle others ih =>
    have rest := ih fun other member => emptied other (List.mem_cons_of_mem _ member)
    rw [List.flatMap_cons, rest, List.filter_cons]
    cases unloaded : handle.unloaded with
    | true =>
      rw [emptied handle List.mem_cons_self unloaded]
      rfl
    | false => rfl

/-- A trigger is subscribed to a class at most once. -/
theorem once_of_tickets {registry : Registry} {host : Host} (builtIn : registry.BuiltIn)
    (tidy : host.Tidy) {structures : List LoadedStructure}
    (distinct : (ticketsOf structures).Nodup) :
    ((structures.flatMap (host.subscriptionsOf registry)).map fun subscription =>
      (subscription.eventClass, subscription.trigger.ticket)).Nodup := by
  induction structures with
  | nil => exact List.nodup_nil
  | cons first others ih =>
    have restDistinct : (ticketsOf others).Nodup :=
      distinct.sublist ((List.sublist_cons_self first others).filterMap _)
    rw [List.flatMap_cons, List.map_append]
    refine List.nodup_append.mpr ⟨?_, ih restDistinct, ?_⟩
    · unfold Host.subscriptionsOf
      split
      · exact List.nodup_nil
      · next trigger _ =>
        split
        · exact List.nodup_nil
        · rw [List.map_map]
          refine List.Nodup.map (fun a b same => (Prod.mk.inj same).1) ?_
          cases found : registry.eventInfo? first.key with
          | none => exact List.nodup_nil
          | some info => exact builtIn.eventInfo_classes found
    · rintro key here _ there rfl
      obtain ⟨subscription, own, rfl⟩ := List.mem_map.mp here
      obtain ⟨other, shared, same⟩ := List.mem_map.mp there
      obtain ⟨inner, member, ownOther⟩ := List.mem_flatMap.mp shared
      have ticket := Host.ticket_of_mem_subscriptionsOf tidy own
      have otherTicket := Host.ticket_of_mem_subscriptionsOf tidy ownOther
      rw [(Prod.mk.inj same).2] at otherTicket
      have later : subscription.trigger.ticket ∈ ticketsOf others :=
        mem_ticketsOf_of_event (mem_eventTicketsOf.mpr ⟨inner, member, otherTicket⟩)
      have first' : first.inner.ticket? = some subscription.trigger.ticket := by
        rw [Structure.ticket?_eq, ticket]
        rfl
      rw [ticketsOf, List.filterMap_cons, first'] at distinct
      exact (List.nodup_cons.mp distinct).1 later

theorem settled (accounts : desk.session.Accounts desk.handles)
    (noScript : desk.session.workspace.context.script = none) : desk.Settled := by
  have holds := accounts.holds
  rw [Workspace.finish_of_none noScript] at holds
  change desk.host.Holds _ _ at holds
  have lives {handle : Handle} (member : handle ∈ desk.handles) {inner : LoadedStructure}
      (there : inner ∈ handle.loaded.structures) : handle.loaded ∈ desk.live := by
    refine mem_live.mpr ⟨handle, member, ?_, rfl⟩
    cases unloaded : handle.unloaded with
    | false => rfl
    | true =>
      rw [holds.emptied handle member unloaded] at there
      exact absurd there List.not_mem_nil
  have flat {α : Type} (own : LoadedStructure → List α) :
      desk.handles.flatMap (·.loaded.structures.flatMap own) =
        desk.live.flatMap (·.structures.flatMap own) := by
    refine flatMap_live (·.structures.flatMap own) fun handle member unloaded => ?_
    rw [holds.emptied handle member unloaded, List.flatMap_nil]
  constructor
  case subscriptions => exact flat (desk.host.subscriptionsOf _) ▸ holds.subscriptions
  case once =>
    refine (holds.subscriptions.map _).nodup_iff.mpr ?_
    rw [← List.flatMap_assoc]
    refine once_of_tickets accounts.builtIn holds.tidy ?_
    rw [ticketsOf, List.filterMap_flatMap]
    exact holds.tickets
  case selfRegistered => exact flat desk.host.selfRegisteredOf ▸ holds.selfRegistered
  case binds =>
    intro loaded member
    obtain ⟨handle, there, _, rfl⟩ := mem_live.mp member
    exact holds.binds handle there
  case commands =>
    intro name command
    rw [holds.sound.reflects.command_iff]
    refine and_congr_right fun named => ?_
    constructor
    · rintro ⟨ticket, found⟩
      obtain ⟨handle, member, here⟩ := holds.exists_of_registered found
      obtain ⟨inner, there, isTicket⟩ := mem_commandTicketsOf.mp here
      obtain ⟨own, isCommand, rfl⟩ := Option.map_eq_some_iff.mp isTicket
      obtain ⟨loaded, named', script⟩ :=
        holds.loaded_of_registered member there isCommand found
      exact ⟨handle.loaded, lives member there, inner, there, loaded, own, isCommand,
        named ▸ named', script, found⟩
    · rintro ⟨loaded, _, inner, _, _, own, _, _, _, found⟩
      exact ⟨own.ticket, found⟩
  case labels =>
    intro label name
    rw [holds.sound.reflects.label_iff]
    constructor
    · rintro ⟨ticket, command, found, named, shown⟩
      exact ⟨command, (holds.sound.reflects.command_iff name command).mpr ⟨named, ticket, found⟩,
        shown⟩
    · rintro ⟨command, found, shown⟩
      obtain ⟨named, ticket, registered⟩ :=
        (holds.sound.reflects.command_iff name command).mp found
      exact ⟨ticket, command, registered, named, shown⟩
  case loadedCommands =>
    intro loaded member inner there own isCommand isLoaded
    obtain ⟨handle, handleMember, _, rfl⟩ := mem_live.mp member
    have kept := holds.registered handle handleMember inner there own isCommand
    rw [if_pos isLoaded] at kept
    obtain ⟨registered, named, script, same⟩ := kept
    refine ⟨registered.name, registered, named, ?_, script⟩
    refine (holds.sound.reflects.command_iff _ _).mpr ⟨rfl, own.ticket, ?_⟩
    rw [Host.registered, same]
  case signatures =>
    intro name signature found
    obtain ⟨handle, member, notUnloaded, script⟩ := holds.signatures name signature found
    exact ⟨handle.loaded, mem_live.mpr ⟨handle, member, notUnloaded, rfl⟩, script⟩

theorem unload_host {place : Nat} {handle : Handle} (found : desk.handles[place]? = some handle) :
    (desk.step (.unload place)).host =
      (desk.session.unload .main handle.loaded).2.workspace.host := by
  dsimp only [Desk.step]
  rw [found]
  rfl

/-- Whatever has been done at a desk: without a current script, the tables hold exactly what the
scripts own that have not been unloaded. To unload a script is to finish the current one and to lose
exactly what the script owns, and to load a script and unload it is to finish the current one. -/
theorem run_owns (parts : List ContextPart) (host : Host) (steps : List Step) :
    let desk := (start parts host).run steps
    (desk.session.workspace.context.script = none → desk.Settled) ∧
      (∀ place handle, desk.handles[place]? = some handle →
        (desk.step .finish).host.Loses handle.loaded.script (desk.step (.unload place)).host) ∧
      ∀ source, (desk.step .finish).host.SameTables
        ((desk.step (.load source)).step (.unload desk.handles.length)).host := by
  intro desk
  have accounts : desk.session.Accounts desk.handles := run_accounts steps (start_accounts parts host)
  refine ⟨settled accounts, ?_, ?_⟩
  · intro place handle found
    obtain ⟨releases, _, _, between, shrunk, functions⟩ :=
      accounts.unload_releases (List.mem_of_getElem? found)
    obtain ⟨before, _⟩ := Session.Accounts.perm_of_getElem? found handle
    rw [unload_host found]
    exact (accounts.holds.perm before).loses releases shrunk functions
  · intro source
    have loaded := accounts.load source
    have found : (desk.step (.load source)).handles[desk.handles.length]? =
        some ⟨(desk.session.load .main source).1, false⟩ :=
      List.getElem?_concat_length
    obtain ⟨releases, _, _, between, shrunk, functions⟩ :=
      loaded.unload_releases (List.mem_of_getElem? found)
    rw [unload_host found]
    exact accounts.holds.restores (accounts.load_gains source).2.2 (accounts.new source) releases
      shrunk functions

end Desk

end ScriptBinding

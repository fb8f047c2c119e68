import ScriptBinding.Proofs.Readiness

/-! # Reloading

A script that is reloaded finds the host as its first load has found it, but for the variables and
for the tickets that have been handed out. Neither changes what it is bound to. So however often a
script is reloaded, the host is left as the first load would have left it, with the last load in the
place of the first one.
-/

namespace ScriptBinding

/-! ## What is on the bus -/

/-- On the second bus there is what is on the first one, with the new load in the place of the old
one. -/
structure Renewal.Buses (renewal : Renewal) (one other : EventBus) : Prop where
  subscriptions : other.subscriptions = one.subscriptions.map renewal.subscription
  selfRegistered : other.selfRegistered = one.selfRegistered.map renewal.trigger
  distinct : ∀ subscription ∈ one.subscriptions, renewal.Distinct subscription.trigger.script

namespace Renewal

variable (renewal : Renewal) {one other : EventBus}

@[simp]
theorem trigger_script (trigger : Trigger) :
    (renewal.trigger trigger).script = renewal.script trigger.script := by
  unfold Renewal.trigger Renewal.script
  split <;> rfl

@[simp]
theorem trigger_line (trigger : Trigger) : (renewal.trigger trigger).line = trigger.line := by
  unfold Renewal.trigger
  split <;> rfl

@[simp]
theorem trigger_eventName (trigger : Trigger) :
    (renewal.trigger trigger).eventName = trigger.eventName := by
  unfold Renewal.trigger
  split <;> rfl

/-- A trigger has the same label for both loads. -/
@[simp]
theorem trigger_label (trigger : Trigger) : (renewal.trigger trigger).label = trigger.label := by
  rw [Trigger.label, trigger_script, trigger_line, script_name, Trigger.label]

/-- An earlier trigger stays as it is. -/
theorem trigger_of_lt {trigger : Trigger}
    (earlier : trigger.script.generation < renewal.old.generation) :
    renewal.trigger trigger = trigger :=
  if_neg fun same => absurd (same ▸ earlier) (Nat.lt_irrefl _)

/-- A draft becomes the trigger that the draft of the other load becomes. -/
theorem toTrigger_draft (draft : TriggerDraft) :
    (renewal.draft draft).toTrigger renewal.new = renewal.trigger (draft.toTrigger renewal.old) :=
  (if_pos rfl).symm

theorem subscriptions_draft (usual : EventPriority) (draft : TriggerDraft) :
    (renewal.draft draft).subscriptions usual renewal.new =
      (draft.subscriptions usual renewal.old).map renewal.subscription := by
  unfold TriggerDraft.subscriptions
  rw [toTrigger_draft]
  split
  · next itself =>
    rw [if_pos (show draft.filter.registersItself = true from itself)]
    rfl
  · next itself =>
    rw [if_neg (show ¬draft.filter.registersItself = true from itself), List.map_map]
    rfl

theorem selfRegistered_draft (draft : TriggerDraft) :
    (renewal.draft draft).selfRegistered renewal.new =
      (draft.selfRegistered renewal.old).map renewal.trigger := by
  unfold TriggerDraft.selfRegistered
  rw [toTrigger_draft]
  split
  · next itself =>
    rw [if_pos (show draft.filter.registersItself = true from itself)]
    rfl
  · next itself =>
    rw [if_neg (show ¬draft.filter.registersItself = true from itself)]
    rfl

variable {renewal}

/-- The overview of a bus does not tell one load from another. -/
theorem Buses.overview (buses : renewal.Buses one other) : other.overview = one.overview := by
  unfold EventBus.overview
  rw [buses.subscriptions, buses.selfRegistered, List.map_map, List.map_map]
  have rows : (fun subscription : Subscription => (⟨subscription.eventClass.name,
      subscription.priority, subscription.trigger.label⟩ : BusEntry)) ∘ renewal.subscription =
        fun subscription => ⟨subscription.eventClass.name, subscription.priority,
          subscription.trigger.label⟩ :=
    funext fun subscription => by simp [Renewal.subscription]
  have others : (fun trigger : Trigger => (⟨(EventClass.of trigger.eventName).name, .normal,
      trigger.label⟩ : BusEntry)) ∘ renewal.trigger =
        fun trigger => ⟨(EventClass.of trigger.eventName).name, .normal, trigger.label⟩ :=
    funext fun trigger => by simp
  rw [rows, others]

/-- The triggers are shown an event in the same order. -/
theorem Buses.listeners (buses : renewal.Buses one other) (eventClass : EventClass) :
    other.listeners eventClass = (one.listeners eventClass).map renewal.subscription := by
  unfold EventBus.listeners
  rw [buses.subscriptions, List.filter_map]
  exact (List.map_mergeSort (f := renewal.subscription) fun _ _ _ _ => rfl).symm

/-- The own triggers of the script are shown an event in the same order. -/
theorem Buses.own (buses : renewal.Buses one other) (eventClass : EventClass) :
    (other.listeners eventClass).filter (·.trigger.script.same renewal.new) =
      ((one.listeners eventClass).filter (·.trigger.script.same renewal.old)).map
        renewal.subscription := by
  rw [buses.listeners, List.filter_map]
  refine congrArg _ (List.filter_congr fun subscription member => ?_)
  have there := (List.mem_filter.mp (List.mem_mergeSort.mp member)).1
  rw [Function.comp, Renewal.subscription, trigger_script,
    renewal.same_script (buses.distinct subscription there)]

/-- Drafts that are bound for both loads, behind earlier triggers. -/
theorem Buses.bind {old new : Host} {drafts : List TriggerDraft}
    (config : new.config = old.config)
    (subscriptions : new.bus.subscriptions = old.bus.subscriptions)
    (selfRegistered : new.bus.selfRegistered = old.bus.selfRegistered)
    (earlier : ∀ subscription ∈ old.bus.subscriptions,
      subscription.trigger.script.generation < renewal.old.generation)
    (earlierOthers : ∀ trigger ∈ old.bus.selfRegistered,
      trigger.script.generation < renewal.old.generation)
    (later : renewal.old.generation ≤ renewal.new.generation) :
    renewal.Buses (old.perform (.bind renewal.old drafts)).bus
      (new.perform (.bind renewal.new (drafts.map renewal.draft))).bus := by
  obtain ⟨_, _, oldSubscriptions, oldSelfRegistered⟩ := Host.perform_bind renewal.old drafts old
  obtain ⟨_, _, newSubscriptions, newSelfRegistered⟩ :=
    Host.perform_bind renewal.new (drafts.map renewal.draft) new
  constructor
  case subscriptions =>
    have stays : old.bus.subscriptions.map renewal.subscription = old.bus.subscriptions := by
      refine (List.map_congr_left fun subscription member => ?_).trans (List.map_id _)
      rw [Renewal.subscription, renewal.trigger_of_lt (earlier subscription member), id]
    rw [newSubscriptions, oldSubscriptions, subscriptions, config, List.map_append, stays,
      List.flatMap_map, List.map_flatMap]
    simp only [subscriptions_draft]
  case selfRegistered =>
    have stays : old.bus.selfRegistered.map renewal.trigger = old.bus.selfRegistered :=
      (List.map_congr_left fun trigger member =>
        renewal.trigger_of_lt (earlierOthers trigger member)).trans (List.map_id _)
    rw [newSelfRegistered, oldSelfRegistered, selfRegistered, List.map_append, stays,
      List.flatMap_map, List.map_flatMap]
    simp only [selfRegistered_draft]
  case distinct =>
    intro subscription member
    rw [oldSubscriptions, List.mem_append] at member
    rcases member with there | here
    · exact renewal.distinct_of_lt (earlier subscription there) later
    · obtain ⟨draft, _, subscribed⟩ := List.mem_flatMap.mp here
      rw [TriggerDraft.trigger_of_mem_subscriptions subscribed]
      exact Or.inl rfl

end Renewal

/-! ## One load and a later one -/

/-- A host is bound to what another one is bound to, with the new load in the place of the old
one. -/
structure Renewal.Restarts (renewal : Renewal) (one other : Host) : Prop where
  buses : renewal.Buses one.bus other.bus
  commands : other.commands = renewal.commands one.commands
  functions : other.functions = renewal.functions one.functions

namespace Session

/-- The workspace as the next load of a file begins. -/
def beginning (session : Session) (path : Path) : Workspace :=
  ⟨session.finished, session.workspace.context.moved (some ⟨path, session.generations.next⟩)⟩

/-- A session is about to load a script on the host on which another one has been about to. -/
structure Returns (session again : Session) : Prop where
  dated : again.Dated
  restores : session.finished.Restores again.finished
  later : session.generations.next ≤ again.generations.next

/-- The next load of a session, and the next load of the same file in another one, whose tickets
are further on. -/
def restart (session again : Session) (path : Path) : Comparison where
  old := ⟨path, session.generations.next⟩
  new := ⟨path, again.generations.next⟩
  path := rfl
  shift := again.finished.nextTicket - session.finished.nextTicket
  floor := session.finished.nextTicket
  exact := False

variable {session again : Session}

/-- What reading a script can depend on is the same once the session has returned. -/
theorem Returns.twins (returns : session.Returns again) (dated : session.Dated)
    (ready : session.finished.Ready session.generations.next) (path : Path) :
    (session.restart again path).Twins (session.beginning path) (again.beginning path) := by
  have predates : session.finished.Predates (session.restart again path).old.generation :=
    ready.predates
  obtain ⟨functions, commands, _⟩ := (session.restart again path).host_of_predates predates
  have hosts : (session.restart again path).Counterparts session.finished again.finished :=
    { classes := returns.restores.classes
      functions := returns.restores.functions.trans functions.symm
      distinct := fun name signature found =>
        (session.restart again path).distinct_of_lt (predates _ (.signature name signature found))
          returns.later
      commands := returns.restores.commands.trans commands.symm
      registrations := by
        intro ticket unused
        rw [returns.restores.registrations, ready.unregistered ticket unused,
          ready.unregistered _ (unused.trans (Nat.le_add_right _ _))]
        rfl
      later := le_rfl
      nextTicket := (Nat.add_sub_cancel' returns.restores.later).symm }
  exact hosts.twins (returns.dated.events.trans dated.events.symm) False.elim

/-- The next load of a dated session. -/
theorem Dated.load_eq (dated : session.Dated) (source : ScriptSource) :
    ((session.load .main source).1, (session.load .main source).2.workspace) =
      Loading.loadCurrent .standard .main ⟨source.path, session.generations.next⟩
        source.tree.nodes (session.beginning source.path) := by
  rw [← dated.standard, beginning, finished, ← dated.started]
  rfl

/-- What the next load of a session hands out, declares and buffers. -/
theorem Dated.frame (dated : session.Dated) (source : ScriptSource) :
    Loading.ScriptFrame EventFilter.IsBuiltIn .standard ⟨source.path, session.generations.next⟩
      (session.beginning source.path) (session.load .main source).1
      (session.load .main source).2.workspace := by
  have frame : Loading.ScriptFrame EventFilter.IsBuiltIn .standard _
      (session.beginning source.path) _ _ :=
    Loading.loadCurrent_frame .main source.tree.nodes Registry.standard_builtIn.makesOwn rfl
      (Workspace.moved_drafts _ _)
  rwa [← dated.load_eq] at frame

/-- Finishing a script that has been loaded binds its triggers. -/
theorem Dated.finished_load (dated : session.Dated) (source : ScriptSource) :
    (session.load .main source).2.finished =
      (session.load .main source).2.workspace.host.perform
        (.bind ⟨source.path, session.generations.next⟩
          (session.load .main source).2.workspace.context.currentDrafts) :=
  Workspace.finish_main (dated.frame source).current

/-- The same source that is loaded and finished once the session has returned comes to the same. -/
theorem Returns.load (returns : session.Returns again) (dated : session.Dated)
    (ready : session.finished.Ready session.generations.next) (source : ScriptSource) :
    (session.restart again source.path).Restarts (session.load .main source).2.finished
      (again.load .main source).2.finished := by
  have here := dated.frame source
  have there := returns.dated.frame source
  have twins : (session.restart again source.path).Twins (session.load .main source).2.workspace
      (again.load .main source).2.workspace := by
    have after := (Loading.loadCurrent_twins (returns.twins dated ready source.path)
      source.tree.nodes fun descriptor member => (Registry.mem_standard member).makes).2.2.2
    have one := dated.load_eq source
    have other := returns.dated.load_eq source
    unfold restart at after ⊢
    dsimp only at after
    rwa [← one, ← other] at after
  obtain ⟨step, _⟩ := Host.perform_bind ⟨source.path, session.generations.next⟩
    (session.load .main source).2.workspace.context.currentDrafts
    (session.load .main source).2.workspace.host
  obtain ⟨also, _⟩ := Host.perform_bind ⟨source.path, again.generations.next⟩
    (again.load .main source).2.workspace.context.currentDrafts
    (again.load .main source).2.workspace.host
  rw [dated.finished_load, returns.dated.finished_load]
  constructor
  case commands => rw [also.commands, twins.commands, step.commands]
  case functions => rw [also.functions, twins.functions, step.functions]
  case buses =>
    have bus : (session.load .main source).2.workspace.host.bus = session.finished.bus := here.bus
    have busAlso : (again.load .main source).2.workspace.host.bus = again.finished.bus := there.bus
    rw [twins.drafts]
    refine Renewal.Buses.bind ?_ ?_ ?_ ?_ ?_ returns.later
    · exact there.config.trans (returns.restores.config.trans here.config.symm)
    · rw [bus, busAlso, returns.restores.subscriptions]
    · rw [bus, busAlso, returns.restores.selfRegistered]
    · rw [bus]
      exact fun subscription member => (ready.subscriptions subscription member).2
    · rw [bus]
      exact fun trigger member => (ready.selfRegistered trigger member).2

/-! ## Reloading in a row -/

/-- Reload a script some times in a row. -/
def reloads (source : ScriptSource) :
    Nat → LoadedScript → Session → List LoadedScript × Session
  | 0, _, session => ([], session)
  | times + 1, loaded, session =>
    let (reloaded, session) := session.reload .main loaded source
    let (others, session) := reloads source times reloaded session
    (reloaded :: others, session)

/-- Load a script, finish it or not, and reload it some times in a row. -/
def loadAndReload (source : ScriptSource) (finish : Bool) (times : Nat) (session : Session) :
    List LoadedScript × Session :=
  let (loaded, session) := session.load .main source
  let (others, session) :=
    reloads source times loaded (if finish then session.setScript .main none else session)
  (loaded :: others, session)

/-- The session after the next load has been taken back. -/
def takenBack (session : Session) (source : ScriptSource) : Session :=
  ((session.load .main source).2.unload .main (session.load .main source).1).2

/-- A session returns when a load is taken back. -/
theorem Dated.takenBack (dated : session.Dated)
    (ready : session.finished.Ready session.generations.next) (source : ScriptSource) :
    session.Returns (session.takenBack source) where
  dated := (dated.load source).unload _
  restores := by
    have current : (session.beginning source.path).context.script =
        some ⟨source.path, session.generations.next⟩ := rfl
    have restores := Loading.loadCurrent_unload source.tree.nodes
      Registry.standard_builtIn.makesOwn current (Workspace.moved_drafts _ _) ready
    rw [← dated.load_eq] at restores
    have idle : (session.takenBack source).finished = (session.takenBack source).workspace.host :=
      congrArg Workspace.host (Workspace.finish_of_none (finish_script _))
    rw [idle]
    exact restores
  later := Nat.le_succ _

theorem Returns.refl (dated : session.Dated) : session.Returns session :=
  ⟨dated, .refl _, le_rfl⟩

theorem Returns.trans {third : Session} (one : session.Returns again) (two : again.Returns third) :
    session.Returns third :=
  ⟨two.dated, one.restores.trans two.restores, one.later.trans two.later⟩

/-- A load is taken back alike whether or not it has been finished. -/
theorem Dated.unload_load (dated : session.Dated) (source : ScriptSource) (finish : Bool) :
    ((if finish then (session.load .main source).2.setScript .main none
      else (session.load .main source).2).unload .main (session.load .main source).1).2 =
        session.takenBack source := by
  cases finish with
  | false => rfl
  | true =>
    change Session.mk _ _ _ (Loading.unloadScript .main _
      ((session.load .main source).2.workspace.setScript .main none)).2 = _
    rw [Loading.unloadScript_finish (dated.load source).orderly]
    rfl

/-- The first reload in a row starts where the load has been taken back. -/
theorem reloads_of_unload {loaded : LoadedScript} {session before : Session}
    (same : (session.unload .main loaded).2 = before) (source : ScriptSource) (times : Nat) :
    reloads source (times + 1) loaded session =
      ((before.load .main source).1 :: (reloads source times (before.load .main source).1
          ((before.load .main source).2.setScript .main none)).1,
        (reloads source times (before.load .main source).1
          ((before.load .main source).2.setScript .main none)).2) := by
  subst same
  rfl

/-- Reloads of a script that has been loaded and finished: the last one returns to where the first
load has started, and every one has the next generation. -/
theorem Dated.reloads_return (source : ScriptSource) (times : Nat) {session : Session}
    (dated : session.Dated) (ready : session.finished.Ready session.generations.next) :
    ∃ last, session.Returns last ∧ last.generations.next = session.generations.next + times ∧
      (reloads source times (session.load .main source).1
        ((session.load .main source).2.setScript .main none)).2 =
          (last.load .main source).2.setScript .main none ∧
      (reloads source times (session.load .main source).1
        ((session.load .main source).2.setScript .main none)).1.map (·.script) =
          (List.range' (session.generations.next + 1) times).map (⟨source.path, ·⟩) := by
  induction times generalizing session with
  | zero => exact ⟨session, .refl dated, rfl, rfl, rfl⟩
  | succ times ih =>
    have returns := dated.takenBack ready source
    obtain ⟨last, later, next, final, scripts⟩ :=
      ih returns.dated (returns.restores.ready ready returns.later)
    have taken : (session.takenBack source).generations.next = session.generations.next + 1 := rfl
    have step := reloads_of_unload (dated.unload_load source true) source times
    rw [if_pos rfl] at step
    rw [step]
    refine ⟨last, returns.trans later, by omega, final, ?_⟩
    rw [List.map_cons, scripts, List.range'_succ, List.map_cons, taken]
    rfl

end Session

/-! ## However often -/

/-- The loads of a file leave a host that shows the same triggers, dispatches to them in the same
order and has the same commands and functions as the first load alone, with the last load in the
place of the first one. -/
structure Renewal.Idempotent (renewal : Renewal) (loads : List LoadedScript) (once again : Host) :
    Prop where
  first : loads.head?.map (·.script) = some renewal.old
  last : loads.getLast?.map (·.script) = some renewal.new
  increasing : (loads.map (·.script.generation)).Pairwise (· < ·)
  overview : again.bus.overview = once.bus.overview
  listeners : ∀ eventClass, again.bus.listeners eventClass =
    (once.bus.listeners eventClass).map renewal.subscription
  selfRegistered : again.bus.selfRegistered = once.bus.selfRegistered.map renewal.trigger
  own : ∀ eventClass,
    (again.bus.listeners eventClass).filter (·.trigger.script.same renewal.new) =
      ((once.bus.listeners eventClass).filter (·.trigger.script.same renewal.old)).map
        renewal.subscription
  commands : again.commands = renewal.commands once.commands
  functions : again.functions = renewal.functions once.functions

namespace Session

variable {session : Session}

/-- The first load in a row has the next generation, and every reload the one after. -/
theorem Dated.loadAndReload_scripts (dated : session.Dated)
    (ready : session.finished.Ready session.generations.next) (source : ScriptSource)
    (finish : Bool) (times : Nat) :
    ∃ last, session.Returns last ∧
      last.generations.next = session.generations.next + (times + 1) ∧
      (session.loadAndReload source finish (times + 1)).2 =
        (last.load .main source).2.setScript .main none ∧
      (session.loadAndReload source finish (times + 1)).1.map (·.script) =
        (List.range' session.generations.next (times + 2)).map (⟨source.path, ·⟩) := by
  have returns := dated.takenBack ready source
  obtain ⟨last, later, next, final, scripts⟩ := returns.dated.reloads_return source times
    (returns.restores.ready ready returns.later)
  have taken : (session.takenBack source).generations.next = session.generations.next + 1 := rfl
  have step := reloads_of_unload (dated.unload_load source finish) source times
  unfold loadAndReload
  dsimp only
  rw [step]
  refine ⟨last, returns.trans later, by omega, final, ?_⟩
  rw [List.map_cons, List.map_cons, scripts, List.range'_succ, List.range'_succ, List.map_cons,
    List.map_cons, taken]
  rfl

/-- A session that is ready is left by any number of reloads as by the first load alone. -/
theorem Dated.loadAndReload (dated : session.Dated)
    (ready : session.finished.Ready session.generations.next) (source : ScriptSource)
    (finish : Bool) {times : Nat} (some : 0 < times) :
    ∃ renewal : Renewal, renewal.Idempotent (session.loadAndReload source finish times).1
      (session.load .main source).2.finished
      (session.loadAndReload source finish times).2.workspace.host := by
  obtain ⟨times, rfl⟩ := Nat.exists_eq_add_of_lt some
  rw [Nat.zero_add]
  obtain ⟨last, returns, next, final, scripts⟩ :=
    dated.loadAndReload_scripts ready source finish times
  have restarts := returns.load dated ready source
  generalize session.loadAndReload source finish (times + 1) = run at final scripts ⊢
  obtain ⟨loads, after⟩ := run
  dsimp only at final scripts ⊢
  subst final
  refine ⟨(session.restart last source.path).toRenewal, ?_⟩
  constructor
  case first =>
    rw [← List.head?_map, scripts, List.range'_succ]
    rfl
  case last =>
    rw [← List.getLast?_map, scripts, List.getLast?_map, List.getLast?_range', restart, next]
    rfl
  case increasing =>
    have generations : loads.map (·.script.generation) =
        List.range' session.generations.next (times + 2) := by
      have mapped := congrArg (List.map Script.generation) scripts
      rw [List.map_map, List.map_map] at mapped
      exact mapped.trans (List.map_id _)
    rw [generations]
    exact List.pairwise_lt_range' _
  case overview => exact restarts.buses.overview
  case listeners => exact restarts.buses.listeners
  case selfRegistered => exact restarts.buses.selfRegistered
  case own => exact restarts.buses.own
  case commands => exact restarts.commands
  case functions => exact restarts.functions

/-- Reloading is idempotent. Whatever has been done on the main thread with the context of a
session, a script that is loaded, finished or not, and then reloaded any number of times leaves what
it leaves when it is loaded once and finished. -/
theorem reloading_idempotent (parts : List ContextPart) (host : Host)
    (generations : GenerationCounter) (ready : host.Ready generations.next)
    (requests : List Request) (source : ScriptSource) (finish : Bool) (times : Nat)
    (some : 0 < times) :
    ∃ renewal : Renewal, renewal.Idempotent
      ((served parts host generations requests).loadAndReload source finish times).1
      ((served parts host generations requests).load .main source).2.finished
      ((served parts host generations requests).loadAndReload source finish times).2.workspace.host :=
  let ⟨dated, ready⟩ := served_ready parts ready requests
  dated.loadAndReload ready source finish some

/-- There a file that has been loaded twice is loaded once more, and reloaded three times before its
load is finished. -/
theorem greeted_reloads :
    ({} : Host).Ready 4 ∧ 0 < 3 ∧ ∃ renewal : Renewal, renewal.Idempotent
      (greeted.loadAndReload greetingSource false 3).1
      (greeted.load .main greetingSource).2.finished
      (greeted.loadAndReload greetingSource false 3).2.workspace.host := by
  have ready : ({} : Host).Ready 4 := Host.ready_new 4
  unfold greeted
  exact ⟨ready, by decide, reloading_idempotent [.options] {} ⟨4⟩ ready _ greetingSource false 3
    (by decide)⟩

end Session

end ScriptBinding

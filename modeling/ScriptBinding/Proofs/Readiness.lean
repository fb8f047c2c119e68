import ScriptBinding.Proofs.Isolation
import ScriptBinding.Proofs.Restoration

/-! # Hosts that stay ready

Whatever has been done with the context of a session on the main thread, the host is ready for the
next load once the current script is finished. To unload or to settle is to leave less of what there
was. A load keeps what is new under tickets that have just been handed out, and the triggers that
wait are bound under theirs.
-/

namespace ScriptBinding

/-! ## Leaving less -/

/-- The second host has only what the first one has, and its tables are in order if those of the
first one are. -/
structure Host.Lessens (before after : Host) : Prop where
  mentions : ∀ generation, after.Mentions generation → before.Mentions generation
  commands : before.commands.Consistent → after.commands.Consistent
  bodies : before.functions.BodiesDeclared → after.functions.BodiesDeclared
  nextTicket : after.nextTicket = before.nextTicket
  registrations : ∀ ticket, before.registrations ticket = {} → after.registrations ticket = {}
  bound : ∀ ticket, before.bound ticket = none → after.bound ticket = none
  subscriptions : after.bus.subscriptions ⊆ before.bus.subscriptions
  selfRegistered : after.bus.selfRegistered ⊆ before.bus.selfRegistered

theorem FunctionTable.BodiesDeclared.removeAll {functions : FunctionTable}
    (declared : functions.BodiesDeclared) (names : List String) :
    (functions.removeAll names).BodiesDeclared := by
  intro name function body
  rw [removeAll_body?] at body
  rw [removeAll_signature?]
  split at body
  · cases body
  · next kept =>
    rw [if_neg kept]
    exact declared name function body

namespace Host

variable {first second third before after : Host} {next : Nat}

namespace Lessens

theorem of_same (functions : after.functions = before.functions)
    (commands : after.commands = before.commands)
    (registrations : after.registrations = before.registrations)
    (nextTicket : after.nextTicket = before.nextTicket) (bound : after.bound = before.bound)
    (bus : after.bus = before.bus) : Lessens before after where
  mentions := fun _ mentions => mentions.of_same functions commands registrations
  commands := commands ▸ id
  bodies := functions ▸ id
  nextTicket
  registrations := fun _ => registrations ▸ id
  bound := fun _ => bound ▸ id
  subscriptions := bus ▸ List.Subset.refl _
  selfRegistered := bus ▸ List.Subset.refl _

theorem refl (host : Host) : Lessens host host :=
  .of_same rfl rfl rfl rfl rfl rfl

theorem trans (one : Lessens first second) (two : Lessens second third) : Lessens first third where
  mentions := fun generation => one.mentions generation ∘ two.mentions generation
  commands := two.commands ∘ one.commands
  bodies := two.bodies ∘ one.bodies
  nextTicket := two.nextTicket.trans one.nextTicket
  registrations := fun ticket => two.registrations ticket ∘ one.registrations ticket
  bound := fun ticket => two.bound ticket ∘ one.bound ticket
  subscriptions := fun _ member => one.subscriptions (two.subscriptions member)
  selfRegistered := fun _ member => one.selfRegistered (two.selfRegistered member)

/-- A command that is taken back. -/
theorem unregisterUnder (ticket : Nat) (host : Host) :
    Lessens host (host.unregisterUnder ticket) := by
  cases found : (host.registrations ticket).registered with
  | none =>
    rw [unregisterUnder_of_none found]
    exact .refl host
  | some command =>
    obtain ⟨step, commands, registrations⟩ := unregisterUnder_of_some found
    exact {
      mentions := fun _ mentions => mentions.of_unregisterUnder
      commands := fun consistent => commands ▸ consistent.unregister command.name
      bodies := step.functions ▸ id
      nextTicket := step.nextTicket
      registrations := by
        intro other free
        rw [registrations, Function.update_of_ne]
        · exact free
        · rintro rfl
          rw [free] at found
          cases found
      bound := fun _ => step.bound ▸ id
      subscriptions := step.bus ▸ List.Subset.refl _
      selfRegistered := step.bus ▸ List.Subset.refl _ }

/-- A refusal that is taken note of. -/
theorem takeRefusal (ticket : Nat) (host : Host) : Lessens host (host.takeRefusal ticket).2 := by
  obtain ⟨step, _, commands, registrations⟩ := takeRefusal_spec ticket host
  exact {
    mentions := fun _ mentions => mentions.of_takeRefusal
    commands := commands ▸ id
    bodies := step.functions ▸ id
    nextTicket := step.nextTicket
    registrations := by
      intro other free
      rw [registrations]
      by_cases here : other = ticket
      · subst here
        rw [Function.update_self, free]
      · rw [Function.update_of_ne here, free]
    bound := fun _ => step.bound ▸ id
    subscriptions := step.bus ▸ List.Subset.refl _
    selfRegistered := step.bus ▸ List.Subset.refl _ }

/-- A trigger that is taken back. -/
theorem unbind (ticket : Nat) (host : Host) : Lessens host (host.unbind ticket) := by
  cases found : host.bound ticket with
  | none =>
    rw [unbind_of_none found]
    exact .refl host
  | some trigger =>
    obtain ⟨step, bound, subscriptions, selfRegistered⟩ := unbind_of_some found
    exact {
      mentions := fun _ mentions => mentions.of_unbind
      commands := step.commands ▸ id
      bodies := step.functions ▸ id
      nextTicket := step.nextTicket
      registrations := fun _ => step.registrations ▸ id
      bound := by
        intro other free
        rw [bound]
        by_cases here : other = ticket
        · rw [here, Function.update_self]
        · rw [Function.update_of_ne here, free]
      subscriptions := subscriptions ▸ List.filter_sublist.subset
      selfRegistered := selfRegistered ▸ List.filter_sublist.subset }

/-- Functions that are taken back. -/
theorem shrunk {script : Script} {functions : FunctionTable}
    (shrunk : FunctionTable.ShrunkBy script before.functions functions)
    (declared : before.functions.BodiesDeclared → functions.BodiesDeclared) :
    Lessens before { before with functions } :=
  { Lessens.refl before with
    mentions := fun _ mentions => Mentions.of_shrunk shrunk mentions
    bodies := declared }

end Lessens

/-- A host that has less is still ready. -/
theorem Ready.lessens (ready : before.Ready next) (less : before.Lessens after) :
    after.Ready next where
  predates := fun generation mentions => ready.predates generation (less.mentions generation mentions)
  commands := less.commands ready.commands
  bodies := less.bodies ready.bodies
  unregistered := fun ticket unused =>
    less.registrations ticket (ready.unregistered ticket (less.nextTicket ▸ unused))
  unbound := fun ticket unused =>
    less.bound ticket (ready.unbound ticket (less.nextTicket ▸ unused))
  subscriptions := fun subscription member =>
    less.nextTicket ▸ ready.subscriptions subscription (less.subscriptions member)
  selfRegistered := fun trigger member =>
    less.nextTicket ▸ ready.selfRegistered trigger (less.selfRegistered member)

/-- Triggers under tickets that have been handed out, of a script that has been loaded. -/
theorem Ready.bind (ready : before.Ready next) {script : Script} {drafts : List TriggerDraft}
    (handed : ∀ draft ∈ drafts, draft.ticket < before.nextTicket ∧ script.generation < next) :
    (before.perform (.bind script drafts)).Ready next := by
  obtain ⟨step, bound, subscriptions, selfRegistered⟩ := perform_bind script drafts before
  constructor
  case predates => exact fun generation mentions => ready.predates generation (mentions.of_busStep step)
  case commands => exact step.commands ▸ ready.commands
  case bodies => exact step.functions ▸ ready.bodies
  case unregistered =>
    rw [step.nextTicket, step.registrations]
    exact ready.unregistered
  case unbound =>
    intro ticket unused
    rw [step.nextTicket] at unused
    rw [bound, boundAfter_of_not_mem, ready.unbound ticket unused]
    rintro draft member rfl
    exact absurd (handed draft member).1 (Nat.not_lt_of_le unused)
  case subscriptions =>
    intro subscription member
    rw [subscriptions, List.mem_append] at member
    rw [step.nextTicket]
    rcases member with old | new
    · exact ready.subscriptions subscription old
    · obtain ⟨draft, there, subscribed⟩ := List.mem_flatMap.mp new
      rw [TriggerDraft.trigger_of_mem_subscriptions subscribed]
      exact handed draft there
  case selfRegistered =>
    intro trigger member
    rw [selfRegistered, List.mem_append] at member
    rw [step.nextTicket]
    rcases member with old | new
    · exact ready.selfRegistered trigger old
    · obtain ⟨draft, there, registered⟩ := List.mem_flatMap.mp new
      rw [TriggerDraft.trigger_of_mem_selfRegistered registered]
      exact handed draft there

end Host

/-! ## Workspaces -/

/-- The host is ready, and stays so once the triggers that wait are bound. -/
structure Workspace.Ready (next : Nat) (workspace : Workspace) : Prop where
  host : workspace.host.Ready next
  drafts : ∀ draft ∈ workspace.context.currentDrafts, draft.ticket < workspace.host.nextTicket ∧
    ∀ script, workspace.context.script = some script → script.generation < next

/-- The script stays current and what waits still waits, on a host that has less. -/
structure Workspace.Lessens (before after : Workspace) : Prop where
  script : after.context.script = before.context.script
  drafts : after.context.currentDrafts = before.context.currentDrafts
  host : before.host.Lessens after.host

namespace Workspace

variable {first second third before after : Workspace} {next : Nat}

namespace Lessens

theorem of_restored (restored : before.Restored after) : Lessens before after :=
  ⟨restored.script, restored.drafts, .of_same restored.functions restored.commands
    restored.registrations restored.nextTicket restored.bound restored.bus⟩

theorem refl (workspace : Workspace) : Lessens workspace workspace :=
  .of_restored (.refl workspace)

theorem trans (one : Lessens first second) (two : Lessens second third) : Lessens first third :=
  ⟨two.script.trans one.script, two.drafts.trans one.drafts, one.host.trans two.host⟩

theorem record (failure : Failure) (line : Option Nat) (workspace : Workspace) :
    Lessens workspace (workspace.record failure line) := by
  rw [Workspace.record_eq_leave]
  exact .of_restored (.leave _ workspace)

theorem noteCall (call : PhaseCall) (workspace : Workspace) :
    Lessens workspace (workspace.inContext (·.noteCall call)) :=
  ⟨rfl, rfl, .refl _⟩

end Lessens

theorem Ready.lessens (ready : before.Ready next) (less : before.Lessens after) :
    after.Ready next where
  host := ready.host.lessens less.host
  drafts := by
    rw [less.drafts, less.script, less.host.nextTicket]
    exact ready.drafts

/-- To leave a script is to bind its triggers. -/
theorem Ready.setScript (ready : before.Ready next) (script : Option Script) :
    (before.setScript .main script).Ready next := by
  by_cases stays : Script.sameCurrent before.context.script script = true
  · unfold Workspace.setScript
    rwa [if_pos stays]
  · rw [setScript_of_moves (Bool.not_eq_true _ ▸ stays)]
    refine ⟨?_, fun draft member => ?_⟩
    · change (before.flush .main).host.Ready next
      cases current : before.context.script with
      | some script =>
        rw [flush_main current]
        exact ready.host.bind fun draft member =>
          (ready.drafts draft member).imp_right fun earlier => earlier script current
      | none =>
        unfold flush
        rw [current]
        dsimp only
        split
        · exact ready.host
        · exact ready.host.lessens (.of_same rfl rfl rfl rfl rfl rfl)
    · change draft ∈ (Context.moved script _).currentDrafts at member
      rw [moved_drafts] at member
      cases member

end Workspace

namespace Structure

theorem unload_lessens (inner : Structure) (workspace : Workspace) :
    workspace.Lessens (inner.unload .main workspace).2.2 := by
  have jobs (job : Job) (less : workspace.host.Lessens (workspace.host.perform job)) :
      workspace.Lessens (workspace.submit .main job) := by
    refine ⟨rfl, rfl, ?_⟩
    rwa [← Host.submit_main] at less
  cases inner with
  | function inner =>
    dsimp only [unload, FunctionStructure.unload]
    split
    · exact .refl workspace
    · next signature _ =>
      refine ⟨rfl, rfl, .shrunk (FunctionTable.withdraw_shrunk signature rfl _) fun declared => ?_⟩
      unfold FunctionTable.withdraw
      split
      · exact declared.removeAll _
      · exact declared
  | command inner => exact jobs (.unregister inner.ticket) (.unregisterUnder inner.ticket _)
  | event inner => exact jobs (.unbind inner.ticket) (.unbind inner.ticket _)
  | custom inner => exact .of_restored (inner.respond_restored .unload workspace)
  | options inner => exact .refl workspace
  | aliases => exact .refl workspace
  | defaults inner => exact .refl workspace

theorem settle_lessens (info : ScriptInfo) (inner : Structure) (workspace : Workspace) :
    workspace.Lessens (inner.settle info workspace).2.2 := by
  cases inner with
  | command inner =>
    dsimp only [settle]
    cases refused : (workspace.host.registrations inner.ticket).refusal with
    | none =>
      rw [inner.settle_of_none info refused]
      exact ⟨rfl, rfl, .takeRefusal inner.ticket workspace.host⟩
    | some text =>
      rw [inner.settle_of_some info refused]
      exact ⟨rfl, rfl, .takeRefusal inner.ticket workspace.host⟩
  | custom inner => exact .of_restored (inner.respond_restored .settle workspace)
  | _ => exact .refl workspace

end Structure

namespace Loading

variable {workspace : Workspace} {next : Nat}

theorem each_ready {α β : Type} {act : α → Workspace → β × Workspace}
    (one : ∀ item {workspace : Workspace}, workspace.Ready next → (act item workspace).2.Ready next)
    (items : List α) (ready : workspace.Ready next) : (each act items workspace).2.Ready next := by
  induction items generalizing workspace with
  | nil => exact ready
  | cons first others ih => exact ih (one first ready)

theorem unload_lessens (loaded : LoadedStructure) (workspace : Workspace) :
    workspace.Lessens (unload .main loaded workspace).2 := by
  unfold unload
  split
  · refine (loaded.inner.unload_lessens workspace).trans ?_
    generalize loaded.inner.unload .main workspace = result
    unfold conclude
    dsimp only
    split
    · exact .noteCall _ _
    · exact (Workspace.Lessens.noteCall _ _).trans (.record _ _ _)
  · exact .refl workspace

/-- Unloading leaves the host ready, whatever has been loaded. -/
theorem unloadScript_ready (loaded : LoadedScript) (ready : workspace.Ready next) :
    (unloadScript .main loaded workspace).2.Ready next := by
  have moved := (ready.setScript none).setScript (some loaded.script)
  have unloaded := each_ready (fun item _ ready => ready.lessens (unload_lessens item _))
    loaded.structures.reverse moved
  exact (unloaded.setScript none).lessens ⟨rfl, rfl,
    .shrunk (FunctionTable.withdrawScript_shrunk loaded.script _) fun declared =>
      declared.removeAll _⟩

theorem settle_ready (script : Script) (loaded : LoadedStructure) (settlement : Settlement)
    (ready : workspace.Ready next) :
    (settle .main script loaded settlement workspace).2.2.Ready next := by
  unfold settle
  split
  · have settled := ready.lessens (loaded.inner.settle_lessens settlement.info workspace)
    generalize loaded.inner.settle settlement.info workspace = result at settled ⊢
    obtain ⟨outcome, info, after⟩ := result
    dsimp only
    split
    · exact settled.lessens (.noteCall _ after)
    · exact ((settled.lessens (.noteCall _ after)).setScript _).lessens (.record _ _ _)
  · exact ready

theorem settleScripts_ready (scripts : List LoadedScript) (ready : workspace.Ready next) :
    (settleScripts .main scripts workspace).2.Ready next := by
  refine Workspace.Ready.setScript (each_ready (fun loaded workspace ready => ?_) scripts ready) none
  change (settleAll .main loaded.script loaded.structures ⟨loaded.info, 0⟩ workspace).2.2.Ready next
  generalize (⟨loaded.info, 0⟩ : Settlement) = settlement
  induction loaded.structures generalizing settlement workspace with
  | nil => exact ready
  | cons first others ih => exact ih _ (settle_ready loaded.script first settlement ready) _

/-! ## Loads -/

variable {Possible : EventFilter → Prop} {registry : Registry} {script : Script}

/-- A script that is loaded leaves the host ready for the next one. -/
theorem loadCurrent_ready (nodes : List Node) (makes : registry.MakesOwn Possible)
    (current : workspace.context.script = some script)
    (noneWait : workspace.context.currentDrafts = [])
    (ready : workspace.host.Ready script.generation) :
    (loadCurrent registry .main script nodes workspace).2.Ready (script.generation + 1) := by
  have frame := loadCurrent_frame .main nodes makes current noneWait
  obtain ⟨consistent, unregistered⟩ := loadCurrent_registers nodes makes current ready
  have adds := addsOwn_carried.loadCurrent registry script nodes workspace
  generalize loadCurrent registry .main script nodes workspace = result at *
  obtain ⟨loaded, after⟩ := result
  dsimp only at frame consistent unregistered adds ⊢
  refine ⟨?_, fun draft member => ⟨?_, fun other isOther => ?_⟩⟩
  · constructor
    case predates => exact adds.predates current ready.predates
    case commands => exact consistent
    case bodies => exact ready.bodies.grown frame.functions
    case unregistered => exact unregistered
    case unbound =>
      rw [frame.bound]
      exact fun ticket unused => ready.unbound ticket (frame.later.trans unused)
    case subscriptions =>
      rw [frame.bus]
      exact fun subscription member => (ready.subscriptions subscription member).imp
        (·.trans_le frame.later) (·.trans (Nat.lt_succ_self _))
    case selfRegistered =>
      rw [frame.bus]
      exact fun trigger member => (ready.selfRegistered trigger member).imp
        (·.trans_le frame.later) (·.trans (Nat.lt_succ_self _))
  · exact (frame.fresh _ (mem_ticketsOf_of_event (frame.drafted draft member))).2
  · rw [frame.current] at isOther
    cases isOther
    exact Nat.lt_succ_self _

end Loading

/-! ## Sessions -/

namespace Session

variable {session : Session}

/-- The host as it is once the current script is finished. -/
def finished (session : Session) : Host :=
  (session.workspace.setScript .main none).host

theorem load_ready (dated : session.Dated)
    (ready : session.workspace.Ready session.generations.next) (source : ScriptSource) :
    (session.load .main source).2.workspace.Ready
      (session.load .main source).2.generations.next := by
  have started : ((session.workspace.setScript .main
      (some ⟨source.path, session.generations.next⟩)).host.Ready session.generations.next) :=
    (ready.setScript _).host
  obtain ⟨_, current, noneWait⟩ :=
    Workspace.start_script .main dated.orderly (dated.moves source.path)
  have makes : session.registry.MakesOwn EventFilter.IsBuiltIn := by
    rw [dated.standard]
    exact Registry.standard_builtIn.makesOwn
  exact Loading.loadCurrent_ready source.tree.nodes makes current noneWait started

theorem loadEach_ready (sources : List ScriptSource) (dated : session.Dated)
    (ready : session.workspace.Ready session.generations.next) :
    (session.loadEach .main sources).2.workspace.Ready
      (session.loadEach .main sources).2.generations.next := by
  induction sources generalizing session with
  | nil => exact ready
  | cons source others ih => exact ih (dated.load source) (load_ready dated ready source)

/-- Every request leaves the host ready for the next load. -/
theorem serve_ready (dated : session.Dated)
    (ready : session.workspace.Ready session.generations.next) (request : Request) :
    (session.serve request).workspace.Ready (session.serve request).generations.next := by
  cases request with
  | load source => exact load_ready dated ready source
  | loadAll sources =>
    refine ((loadEach_ready sources dated ready).setScript none).lessens ⟨rfl, rfl, ?_⟩
    exact .of_same rfl rfl rfl rfl rfl rfl
  | unload loaded => exact Loading.unloadScript_ready loaded ready
  | reload loaded source =>
    exact (load_ready (dated.unload loaded) (Loading.unloadScript_ready loaded ready)
      source).setScript none
  | settle scripts => exact Loading.settleScripts_ready scripts ready
  | finish => exact ready.setScript none

theorem serveAll_ready (requests : List Request) (dated : session.Dated)
    (ready : session.workspace.Ready session.generations.next) :
    (session.serveAll requests).workspace.Ready (session.serveAll requests).generations.next := by
  induction requests generalizing session with
  | nil => exact ready
  | cons request others ih => exact ih (dated.serve request) (serve_ready dated ready request)

/-- A session that has served requests is ready to load, if it has started on a host that was. -/
theorem served_ready (parts : List ContextPart) {host : Host} {generations : GenerationCounter}
    (ready : host.Ready generations.next) (requests : List Request) :
    (served parts host generations requests).Dated ∧
      (served parts host generations requests).finished.Ready
        (served parts host generations requests).generations.next := by
  have dated := start_dated parts ready.predates
  refine ⟨dated.serveAll requests, ?_⟩
  refine ((serveAll_ready requests dated ⟨ready, fun draft member => ?_⟩).setScript none).host
  change draft ∈ (Context.withParts parts).currentDrafts at member
  rw [(Context.withParts_idle parts).2] at member
  cases member

end Session

end ScriptBinding

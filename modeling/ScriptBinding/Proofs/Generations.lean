import ScriptBinding.Proofs.CommandLabels
import ScriptBinding.Proofs.FunctionCounts
import ScriptBinding.Proofs.ResolvedCalls
import ScriptBinding.Proofs.Withdrawals

/-! # The generations on a host

Every function and every command on a host belongs to one load of a script. A load adds only what is
its own, and whatever else is done to scripts only takes something away. So a generation that has
not been handed out yet is one that nothing on the host belongs to.
-/

namespace ScriptBinding

namespace FunctionTable

theorem withdrawScript_shrunk (script : Script) (functions : FunctionTable) :
    ShrunkBy script functions (functions.withdrawScript script).2 := by
  intro name
  obtain ⟨signature, body⟩ := withdrawScript_get? (.refl functions : ShrunkBy script _ _) name
  rw [signature, body]
  by_cases owned : functions.ownedBy script name = true
  · rw [if_pos owned, if_pos owned]
    exact Or.inr ⟨owned, rfl, rfl⟩
  · rw [if_neg owned, if_neg owned]
    exact Or.inl ⟨rfl, rfl⟩

end FunctionTable

/-- A function or a command on the host belongs to a load of this generation. -/
inductive Host.Mentions (host : Host) : Nat → Prop
  | signature (name : String) (signature : Signature)
      (found : host.functions.signature? name = some signature) :
      Mentions host signature.script.generation
  | body (name : String) (function : Function)
      (found : host.functions.bodies.get? name = some function) :
      Mentions host function.signature.script.generation
  | command (name : String) (command : Command)
      (found : host.commands.commands.get? name = some command) :
      Mentions host command.script.generation
  | registered (ticket : Nat) (command : Command)
      (found : (host.registrations ticket).registered = some command) :
      Mentions host command.script.generation

/-- Every function and every command on the host belongs to a load before the next one. -/
def Host.Predates (next : Nat) (host : Host) : Prop :=
  ∀ generation, host.Mentions generation → generation < next

namespace Host

variable {before after : Host} {generation next : Nat}

/-- A new host knows no script. -/
theorem predates_new (next : Nat) : ({} : Host).Predates next := by
  intro generation mentions
  cases mentions <;> contradiction

namespace Mentions

/-- What is there afterwards was there before. -/
theorem of_fewer
    (signatures : ∀ name signature, after.functions.signature? name = some signature →
      before.functions.signature? name = some signature)
    (bodies : ∀ name function, after.functions.bodies.get? name = some function →
      before.functions.bodies.get? name = some function)
    (commands : ∀ name command, after.commands.commands.get? name = some command →
      before.commands.commands.get? name = some command)
    (registered : ∀ ticket command, (after.registrations ticket).registered = some command →
      (before.registrations ticket).registered = some command)
    (mentions : after.Mentions generation) : before.Mentions generation := by
  cases mentions with
  | signature name signature found => exact .signature name signature (signatures _ _ found)
  | body name function found => exact .body name function (bodies _ _ found)
  | command name command found => exact .command name command (commands _ _ found)
  | registered ticket command found => exact .registered ticket command (registered _ _ found)

theorem of_same (functions : after.functions = before.functions)
    (commands : after.commands = before.commands)
    (registrations : after.registrations = before.registrations)
    (mentions : after.Mentions generation) : before.Mentions generation := by
  refine mentions.of_fewer ?_ ?_ ?_ ?_
  · exact fun _ _ found => functions ▸ found
  · exact fun _ _ found => functions ▸ found
  · exact fun _ _ found => commands ▸ found
  · exact fun _ _ found => registrations ▸ found

theorem of_write {entries : List LogEntry} (mentions : (before.write entries).Mentions generation) :
    before.Mentions generation := by
  refine of_same ?_ ?_ ?_ mentions <;> rfl

/-- Functions that are taken back are mentioned no more. -/
theorem of_shrunk {functions : FunctionTable} {script : Script}
    (shrunk : FunctionTable.ShrunkBy script before.functions functions)
    (mentions : ({ before with functions } : Host).Mentions generation) :
    before.Mentions generation := by
  cases mentions with
  | signature name signature found =>
    rcases shrunk name with ⟨same, _⟩ | ⟨_, gone, _⟩
    · exact .signature name signature (same ▸ found)
    · exact absurd (gone.symm.trans found) nofun
  | body name function found =>
    rcases shrunk name with ⟨_, same⟩ | ⟨_, _, gone⟩
    · exact .body name function (same ▸ found)
    · exact absurd (gone.symm.trans found) nofun
  | command name command found => exact .command name command found
  | registered ticket command found => exact .registered ticket command found

/-- A signature is declared whose script is known. -/
theorem of_declare {functions : FunctionTable} {signature : Signature}
    (declared : before.functions.declare signature = .ok functions)
    (mentions : ({ before with functions } : Host).Mentions generation) :
    before.Mentions generation ∨ signature.script.generation = generation := by
  obtain ⟨_, bodies, signatures⟩ := Loading.declare_eq_ok declared
  cases mentions with
  | signature name there found =>
    change functions.signature? name = some there at found
    rw [signatures] at found
    split at found
    · exact Or.inr (Option.some.inj found ▸ rfl)
    · exact Or.inl (.signature name there found)
  | body name function found => exact Or.inl (.body name function (bodies ▸ found))
  | command name command found => exact Or.inl (.command name command found)
  | registered ticket command found => exact Or.inl (.registered ticket command found)

/-- A body is given only to what the same load has declared. -/
theorem of_attach {functions : FunctionTable} {function : Function}
    (attached : before.functions.attach function = .ok functions)
    (mentions : ({ before with functions } : Host).Mentions generation) :
    before.Mentions generation := by
  obtain ⟨signatures, bodies, _⟩ := FunctionTable.attach_eq_ok attached
  cases mentions with
  | signature name there found =>
    refine .signature name there ?_
    rw [FunctionTable.signature?, ← signatures]
    exact found
  | body name there found =>
    change functions.bodies.get? name = some there at found
    rcases (FunctionTable.attach_grown rfl attached).bodies name with same | ⟨signature, taken, own⟩
    · exact .body name there (same ▸ found)
    · rw [FunctionTable.signature?, signatures] at taken
      rw [bodies, Table.get?_insert] at found
      split at found
      · cases found
        rw [← Script.generation_eq_of_same own]
        exact .signature name signature taken
      · exact .body name there found
  | command name command found => exact .command name command found
  | registered ticket command found => exact .registered ticket command found

/-- A command is registered whose script is known. -/
theorem of_registerUnder {ticket : Nat} {command : Command}
    (mentions : (before.registerUnder ticket command).Mentions generation) :
    before.Mentions generation ∨ command.script.generation = generation := by
  obtain ⟨step, outcome⟩ := registerUnder_spec ticket command before
  cases mentions with
  | signature name signature found => exact Or.inl (.signature name signature (step.functions ▸ found))
  | body name function found => exact Or.inl (.body name function (step.functions ▸ found))
  | command name there found =>
    rcases outcome with ⟨_, _, commands, _⟩ | ⟨table, taken, commands, _⟩
    · exact Or.inl (.command name there (commands ▸ found))
    · rw [commands, (CommandTable.register_ok taken).2.1, Table.get?_insert] at found
      split at found
      · exact Or.inr (Option.some.inj found ▸ rfl)
      · exact Or.inl (.command name there found)
  | registered other there found =>
    by_cases here : other = ticket
    · subst here
      rcases outcome with ⟨_, _, _, registrations⟩ | ⟨_, _, _, registrations⟩
      · rw [registrations, Function.update_self] at found
        exact Or.inl (.registered other there found)
      · rw [registrations, Function.update_self] at found
        exact Or.inr (Option.some.inj found ▸ rfl)
    · refine Or.inl (.registered other there ?_)
      rcases outcome with ⟨_, _, _, registrations⟩ | ⟨_, _, _, registrations⟩
      · rwa [registrations, Function.update_of_ne here] at found
      · rwa [registrations, Function.update_of_ne here] at found

/-- To take note of a refusal is to declare nothing. -/
theorem of_takeRefusal {ticket : Nat} (mentions : (before.takeRefusal ticket).2.Mentions generation) :
    before.Mentions generation := by
  obtain ⟨step, _, commands, registrations⟩ := takeRefusal_spec ticket before
  refine mentions.of_fewer ?_ ?_ ?_ fun other command found => ?_
  · exact fun _ _ found => step.functions ▸ found
  · exact fun _ _ found => step.functions ▸ found
  · exact fun _ _ found => commands ▸ found
  · rw [registrations] at found
    by_cases here : other = ticket
    · subst here
      rwa [Function.update_self] at found
    · rwa [Function.update_of_ne here] at found

theorem of_unregisterUnder {ticket : Nat}
    (mentions : (before.unregisterUnder ticket).Mentions generation) :
    before.Mentions generation := by
  cases there : (before.registrations ticket).registered with
  | none => rwa [unregisterUnder_of_none there] at mentions
  | some command =>
    obtain ⟨step, commands, registrations⟩ := unregisterUnder_of_some there
    refine mentions.of_fewer ?_ ?_ (fun name other found => ?_) fun other command found => ?_
    · exact fun _ _ found => step.functions ▸ found
    · exact fun _ _ found => step.functions ▸ found
    · rw [commands, CommandTable.unregister_commands] at found
      split at found
      · cases found
      · exact found
    · rw [registrations] at found
      by_cases here : other = ticket
      · subst here
        rw [Function.update_self] at found
        cases found
      · rwa [Function.update_of_ne here] at found

theorem of_busStep (step : BusStep before after) (mentions : after.Mentions generation) :
    before.Mentions generation :=
  mentions.of_same step.functions step.commands step.registrations

theorem of_unbind {ticket : Nat} (mentions : (before.unbind ticket).Mentions generation) :
    before.Mentions generation := by
  cases there : before.bound ticket with
  | none => rwa [unbind_of_none there] at mentions
  | some trigger => exact mentions.of_busStep (unbind_of_some there).1

end Mentions

end Host

/-! ## Loads -/

/-- The current script may have gained functions and commands, and no other script has. -/
structure Workspace.AddsOwn (before after : Workspace) : Prop where
  script : after.context.script = before.context.script
  events : after.context.events = before.context.events
  mentions : ∀ generation, after.host.Mentions generation → before.host.Mentions generation ∨
    ∃ script, before.context.script = some script ∧ script.generation = generation

namespace Workspace.AddsOwn

variable {first second third before after : Workspace}

theorem of_same (script : after.context.script = before.context.script)
    (events : after.context.events = before.context.events)
    (functions : after.host.functions = before.host.functions)
    (commands : after.host.commands = before.host.commands)
    (registrations : after.host.registrations = before.host.registrations) :
    AddsOwn before after :=
  ⟨script, events, fun _ mentions => Or.inl (mentions.of_same functions commands registrations)⟩

theorem of_restored (restored : before.Restored after) : AddsOwn before after :=
  .of_same restored.script restored.events restored.functions restored.commands
    restored.registrations

theorem refl (workspace : Workspace) : AddsOwn workspace workspace :=
  .of_restored (.refl workspace)

theorem trans (before : AddsOwn first second) (after : AddsOwn second third) :
    AddsOwn first third := by
  refine ⟨after.script.trans before.script, after.events.trans before.events, ?_⟩
  intro generation mentions
  rcases after.mentions generation mentions with there | ⟨script, current, own⟩
  · exact before.mentions generation there
  · exact Or.inr ⟨script, before.script ▸ current, own⟩

/-- A host whose scripts came before the current one knows only scripts before the next one. -/
theorem predates (adds : AddsOwn before after) {script : Script}
    (current : before.context.script = some script)
    (predates : before.host.Predates script.generation) :
    after.host.Predates (script.generation + 1) := by
  intro generation mentions
  rcases adds.mentions generation mentions with there | ⟨other, own, rfl⟩
  · exact (predates generation there).trans (Nat.lt_succ_self _)
  · rw [current] at own
    cases own
    exact Nat.lt_succ_self _

/-- The current script declares a signature of its own. -/
theorem declare {functions : FunctionTable} {signature : Signature}
    (own : before.context.script = some signature.script)
    (declared : before.host.functions.declare signature = .ok functions) :
    AddsOwn before (before.inHost ({ · with functions })) := by
  refine ⟨rfl, rfl, fun generation mentions => ?_⟩
  exact (Host.Mentions.of_declare declared mentions).imp_right fun same =>
    ⟨signature.script, own, same⟩

theorem attach {functions : FunctionTable} {function : Function}
    (attached : before.host.functions.attach function = .ok functions) :
    AddsOwn before (before.inHost ({ · with functions })) :=
  ⟨rfl, rfl, fun _ mentions => Or.inl (Host.Mentions.of_attach attached mentions)⟩

end Workspace.AddsOwn

open Workspace (AddsOwn)

theorem CustomStructure.respond_restored (phase : Phase) (custom : CustomStructure)
    (workspace : Workspace) : workspace.Restored (custom.respond phase workspace).2 := by
  unfold respond
  dsimp only
  rw [Workspace.reportAll_eq_leave]
  exact (Workspace.Restored.note _ workspace).trans (.leave _ _)

theorem CommandStructure.submit_adds {command : Command} (ticket : Nat) {workspace : Workspace}
    (own : workspace.context.script = some command.script) :
    AddsOwn workspace (submit .main command ticket workspace).2 := by
  have host : (submit .main command ticket workspace).2.host =
      ((workspace.host.registerUnder ticket command).takeRefusal ticket).2 := by
    have submitted : (workspace.submit .main (.register ticket command)).host =
        workspace.host.registerUnder ticket command :=
      Host.submit_main (.register ticket command) workspace.host
    rw [← submitted]
    unfold submit
    dsimp only
    split <;> rfl
  refine ⟨(submit_context .main command ticket workspace).1, ?_, fun generation mentions => ?_⟩
  · exact submit_events .main command ticket workspace
  · rw [host] at mentions
    exact mentions.of_takeRefusal.of_registerUnder.imp_right fun same =>
      ⟨command.script, own, same⟩

namespace Structure

/-- A section that takes its header has declared nothing. -/
theorem init_adds (inner : Structure) (header : MatchResult) (body : Section)
    (workspace : Workspace) : AddsOwn workspace (inner.init header body workspace).2.2 := by
  have untouched := init_untouched header body workspace inner
  refine .of_same untouched.script ?_ (init_functions header body) untouched.commands
    untouched.registrations
  cases builtIn : inner.isBuiltIn with
  | true => exact (init_guarded header body workspace builtIn).events
  | false =>
    cases inner with
    | custom inner => exact (CustomStructure.respond_restored .init _ workspace).events
    | _ => cases builtIn

theorem preload_adds (inner : Structure) (workspace : Workspace) :
    AddsOwn workspace (inner.preload workspace).2.2 := by
  cases inner with
  | function inner =>
    dsimp only [preload]
    cases current : workspace.context.script with
    | none =>
      have same : inner.preload workspace =
          (.error (.fatal "Function preloaded outside of a script"), workspace) := by
        simp only [FunctionStructure.preload, current]
      rw [same]
      exact .refl workspace
    | some script =>
      rcases preload_function inner current with ⟨_, same⟩ |
        ⟨signature, functions, own, declared, same⟩
      · rw [same]
        exact .refl workspace
      · rw [same]
        exact .declare (own ▸ current) declared
  | custom inner => exact .of_restored (inner.respond_restored .preload workspace)
  | options inner => exact .of_same rfl rfl rfl rfl rfl
  | aliases => exact .refl workspace
  | defaults inner => exact .refl workspace
  | command inner => exact .refl workspace
  | event inner => exact .refl workspace

theorem load_adds (inner : Structure) (workspace : Workspace) :
    AddsOwn workspace (inner.load .main workspace).2.2 := by
  cases inner with
  | function inner =>
    change AddsOwn workspace (inner.load workspace).2
    rcases inner.load_cases workspace with ⟨_, traces, same⟩ |
      ⟨_, _, _, traces, functions, _, _, _, attached, same⟩
    · rw [same]
      exact .of_restored (.leave traces workspace)
    · rw [same]
      have left : AddsOwn workspace (workspace.leave traces) := .of_restored (.leave _ _)
      have given : AddsOwn (workspace.leave traces)
          ((workspace.leave traces).inHost ({ · with functions })) := .attach attached
      exact left.trans (given.trans (.of_same rfl rfl rfl rfl rfl))
  | command inner =>
    have adds : AddsOwn workspace (inner.load .main workspace).2 := by
      rcases inner.load_reads .main workspace with ⟨_, after, restored, same⟩ |
        ⟨body, loaded, after, _, read, restored, same⟩
      · rw [same]
        exact .of_restored restored
      · rw [same]
        refine (Workspace.AddsOwn.of_restored restored).trans
          (CommandStructure.submit_adds inner.ticket ?_)
        rw [restored.script]
        cases current : workspace.context.script with
        | none =>
          unfold Workspace.commandFor Workspace.commandIn at read
          rw [current] at read
          cases read
        | some script => rw [Workspace.commandFor_script current read]
    dsimp only [load]
    generalize inner.load .main workspace = result at adds ⊢
    obtain ⟨outcome, after⟩ := result
    cases outcome <;> exact adds
  | custom inner => exact .of_restored (inner.respond_restored .load workspace)
  | options inner => exact .of_same rfl rfl rfl rfl rfl
  | aliases => exact .refl workspace
  | defaults inner => exact .refl workspace
  | event inner => exact .refl workspace

theorem afterLoad_adds (inner : Structure) (workspace : Workspace) :
    AddsOwn workspace (inner.afterLoad workspace).2.2 := by
  cases inner with
  | custom inner => exact .of_restored (inner.respond_restored .afterLoad workspace)
  | _ => exact .refl workspace

end Structure

/-- All that a load on the main thread consists of adds only what is the script's own. -/
theorem Loading.addsOwn_carried : Carried AddsOwn .main where
  refl := .refl
  trans := .trans
  takeTicket := fun _ => .of_same rfl rfl rfl rfl rfl
  takeInHand := fun _ _ _ => .of_same rfl rfl rfl rfl rfl
  noteCall := fun _ _ => .of_same rfl rfl rfl rfl rfl
  updateInfo := fun _ _ => .of_same rfl rfl rfl rfl rfl
  record := fun failure line workspace => by
    rw [Workspace.record_eq_leave]
    exact .of_restored (.leave _ workspace)
  init := Structure.init_adds
  preload := Structure.preload_adds
  load := Structure.load_adds
  afterLoad := Structure.afterLoad_adds

/-! ## Everything else -/

/-- No script has gained functions or commands. -/
structure Workspace.AddsNothing (before after : Workspace) : Prop where
  events : after.context.events = before.context.events
  orderly : before.Orderly → after.Orderly
  mentions : ∀ generation, after.host.Mentions generation → before.host.Mentions generation

namespace Workspace.AddsNothing

variable {first second third before after : Workspace}

/-- The context reads and keeps what it did. -/
theorem of_context (script : after.context.script = before.context.script)
    (events : after.context.events = before.context.events)
    (drafts : after.context.currentDrafts = before.context.currentDrafts)
    (mentions : ∀ generation, after.host.Mentions generation → before.host.Mentions generation) :
    AddsNothing before after := by
  refine ⟨events, fun orderly noScript => ?_, mentions⟩
  rw [drafts]
  exact orderly (script ▸ noScript)

theorem of_restored (restored : before.Restored after) : AddsNothing before after :=
  .of_context restored.script restored.events restored.drafts fun _ mentions =>
    mentions.of_same restored.functions restored.commands restored.registrations

theorem refl (workspace : Workspace) : AddsNothing workspace workspace :=
  .of_restored (.refl workspace)

theorem trans (before : AddsNothing first second) (after : AddsNothing second third) :
    AddsNothing first third where
  events := after.events.trans before.events
  orderly := after.orderly ∘ before.orderly
  mentions := fun generation mentions => before.mentions generation (after.mentions generation mentions)

theorem record (failure : Failure) (line : Option Nat) (workspace : Workspace) :
    AddsNothing workspace (workspace.record failure line) := by
  rw [Workspace.record_eq_leave]
  exact .of_restored (.leave _ workspace)

theorem noteCall (call : PhaseCall) (workspace : Workspace) :
    AddsNothing workspace (workspace.inContext (·.noteCall call)) :=
  .of_context rfl rfl rfl fun _ mentions => mentions

/-- To leave a script is to bind its triggers, and these declare nothing. -/
theorem setScript (next : Option Script) (workspace : Workspace) :
    AddsNothing workspace (workspace.setScript .main next) := by
  by_cases stays : Script.sameCurrent workspace.context.script next = true
  · unfold Workspace.setScript
    rw [if_pos stays]
    exact .refl workspace
  · rw [Workspace.setScript_of_moves (Bool.not_eq_true _ ▸ stays)]
    refine ⟨?_, fun _ _ => Workspace.moved_drafts next _, fun generation mentions => ?_⟩
    · change (workspace.flush .main).context.events = _
      rw [Workspace.flush_context]
    · change (workspace.flush .main).host.Mentions generation at mentions
      cases current : workspace.context.script with
      | some script =>
        rw [Workspace.flush_main current] at mentions
        exact mentions.of_busStep (Host.perform_bind script _ workspace.host).1
      | none =>
        unfold Workspace.flush at mentions
        rw [current] at mentions
        dsimp only at mentions
        split at mentions
        · exact mentions
        · exact mentions.of_write

end Workspace.AddsNothing

open Workspace (AddsNothing)

namespace Structure

theorem unload_addsNothing (inner : Structure) (workspace : Workspace) :
    AddsNothing workspace (inner.unload .main workspace).2.2 := by
  have jobs (job : Job) (declares : ∀ generation,
      (workspace.host.perform job).Mentions generation → workspace.host.Mentions generation) :
      AddsNothing workspace (workspace.submit .main job) := by
    refine .of_context rfl rfl rfl fun generation mentions => declares generation ?_
    rwa [← Host.submit_main]
  cases inner with
  | function inner =>
    dsimp only [unload, FunctionStructure.unload]
    split
    · exact .refl workspace
    · next signature _ =>
      exact .of_context rfl rfl rfl fun _ mentions =>
        Host.Mentions.of_shrunk (FunctionTable.withdraw_shrunk signature rfl _) mentions
  | command inner => exact jobs (.unregister inner.ticket) fun _ mentions => mentions.of_unregisterUnder
  | event inner => exact jobs (.unbind inner.ticket) fun _ mentions => mentions.of_unbind
  | custom inner => exact .of_restored (inner.respond_restored .unload workspace)
  | options inner => exact .refl workspace
  | aliases => exact .refl workspace
  | defaults inner => exact .refl workspace

theorem settle_addsNothing (info : ScriptInfo) (inner : Structure) (workspace : Workspace) :
    AddsNothing workspace (inner.settle info workspace).2.2 := by
  cases inner with
  | command inner =>
    dsimp only [settle]
    cases refused : (workspace.host.registrations inner.ticket).refusal with
    | none =>
      rw [inner.settle_of_none info refused]
      exact .of_context rfl rfl rfl fun _ mentions => mentions.of_takeRefusal
    | some text =>
      rw [inner.settle_of_some info refused]
      exact .of_context rfl rfl rfl fun _ mentions => mentions.of_takeRefusal
  | custom inner => exact .of_restored (inner.respond_restored .settle workspace)
  | _ => exact .refl workspace

end Structure

namespace Loading

theorem each_addsNothing {α β : Type} {act : α → Workspace → β × Workspace}
    (one : ∀ item workspace, AddsNothing workspace (act item workspace).2) (items : List α)
    (workspace : Workspace) : AddsNothing workspace (each act items workspace).2 := by
  induction items generalizing workspace with
  | nil => exact .refl workspace
  | cons first others ih => exact (one first workspace).trans (ih _)

theorem unload_addsNothing (loaded : LoadedStructure) (workspace : Workspace) :
    AddsNothing workspace (unload .main loaded workspace).2 := by
  unfold unload
  split
  · refine (loaded.inner.unload_addsNothing workspace).trans ?_
    generalize loaded.inner.unload .main workspace = result
    unfold conclude
    dsimp only
    split
    · exact .noteCall _ _
    · exact (AddsNothing.noteCall _ _).trans (.record _ _ _)
  · exact .refl workspace

/-- Unloading takes functions and commands away, whatever has been loaded. -/
theorem unloadScript_addsNothing (loaded : LoadedScript) (workspace : Workspace) :
    AddsNothing workspace (unloadScript .main loaded workspace).2 := by
  have moves := (AddsNothing.setScript none workspace).trans (.setScript (some loaded.script) _)
  have unloads := moves.trans (each_addsNothing unload_addsNothing loaded.structures.reverse _)
  refine (unloads.trans (.setScript none _)).trans ?_
  exact .of_context rfl rfl rfl fun _ mentions =>
    Host.Mentions.of_shrunk (FunctionTable.withdrawScript_shrunk loaded.script _) mentions

theorem settle_addsNothing (script : Script) (loaded : LoadedStructure) (settlement : Settlement)
    (workspace : Workspace) :
    AddsNothing workspace (settle .main script loaded settlement workspace).2.2 := by
  unfold settle
  split
  · have settled := loaded.inner.settle_addsNothing settlement.info workspace
    generalize loaded.inner.settle settlement.info workspace = result at settled ⊢
    obtain ⟨outcome, info, after⟩ := result
    dsimp only
    split
    · exact settled.trans (.noteCall _ after)
    · exact (settled.trans (.noteCall _ after)).trans ((AddsNothing.setScript _ _).trans (.record _ _ _))
  · exact .refl workspace

theorem settleScripts_addsNothing (scripts : List LoadedScript) (workspace : Workspace) :
    AddsNothing workspace (settleScripts .main scripts workspace).2 := by
  refine AddsNothing.trans (each_addsNothing (fun loaded workspace => ?_) scripts workspace)
    (.setScript none _)
  change AddsNothing workspace (settleAll .main loaded.script loaded.structures ⟨loaded.info, 0⟩
    workspace).2.2
  generalize (⟨loaded.info, 0⟩ : Settlement) = settlement
  induction loaded.structures generalizing settlement workspace with
  | nil => exact .refl workspace
  | cons first others ih => exact (settle_addsNothing loaded.script first settlement workspace).trans (ih _ _)

end Loading

end ScriptBinding

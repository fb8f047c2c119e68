import ScriptBinding.Proofs.FailedCalls
import ScriptBinding.Proofs.FinishedScripts

/-! # What a load counts

A script keeps count of what it amounts to while it is loaded. Each part of a load adds to the
counters exactly what it has come to: a trigger that waits, the body of a function, a command that
the script had not declared before. What is recorded meanwhile is recorded against the script.
-/

namespace ScriptBinding

/-- What a part of a load has come to. -/
structure Tally where
  /-- The number of structures that have taken their headers. -/
  taken : Nat := 0
  /-- The number of triggers that wait. -/
  drafts : Nat := 0
  /-- The number of functions with bodies. -/
  functions : Nat := 0
  /-- The names of commands. -/
  commands : List String := []

/-- What two parts have come to. -/
def Tally.plus (first second : Tally) : Tally where
  taken := first.taken + second.taken
  drafts := first.drafts + second.drafts
  functions := first.functions + second.functions
  commands := first.commands ++ second.commands

theorem Tally.plus_empty (tally : Tally) : tally.plus {} = tally := by
  simp only [plus, Nat.add_zero, List.append_nil]

theorem Tally.empty_plus (tally : Tally) : ({} : Tally).plus tally = tally := by
  simp only [plus, Nat.zero_add, List.nil_append]

/-- The counters of a script once a part of its load has come to so much. -/
def ScriptInfo.counting (tally : Tally) (info : ScriptInfo) : ScriptInfo :=
  { info with
    triggers := info.triggers + tally.drafts
    functions := info.functions + tally.functions
    commands := info.commands + tally.commands.length
    commandNames := info.commandNames ++ tally.commands }

theorem ScriptInfo.counting_plus (first second : Tally) (info : ScriptInfo) :
    info.counting (first.plus second) = (info.counting first).counting second := by
  simp only [counting, Tally.plus, List.length_append, List.append_assoc, Nat.add_assoc]

theorem ScriptInfo.counting_empty (info : ScriptInfo) : info.counting {} = info := by
  simp only [counting, Nat.add_zero, List.length_nil, List.append_nil]

/-- The number of structures that have taken their headers, going by the calls. -/
def Context.taken (context : Context) : Nat :=
  context.calls.countP fun call => call.phase == .init && call.success

/-- The counters of the context go up by what a part of a load has come to, and what it has recorded
is recorded against the script, which stays current. -/
structure Workspace.Counts (tally : Tally) (before after : Workspace) : Prop where
  script : after.context.script = before.context.script
  recorded : ∃ own, after.context.diagnostics = before.context.diagnostics ++ own ∧
    ∀ diagnostic ∈ own, diagnostic.script = before.context.script.map Script.name
  taken : after.context.taken = before.context.taken + tally.taken
  drafts : after.context.currentDrafts.length = before.context.currentDrafts.length + tally.drafts
  info : after.context.info = before.context.info.counting tally
  declared : ∀ name, name ∈ after.context.currentCommands ↔
    name ∈ before.context.currentCommands ∨ name ∈ tally.commands
  /-- The script had not declared the commands before. -/
  new : ∀ name ∈ tally.commands, name ∉ before.context.currentCommands
  once : tally.commands.Nodup

namespace Workspace.Counts

variable {before between after : Workspace} {tally : Tally}

theorem of_same (script : after.context.script = before.context.script)
    (diagnostics : after.context.diagnostics = before.context.diagnostics)
    (calls : after.context.calls = before.context.calls)
    (drafts : after.context.currentDrafts = before.context.currentDrafts)
    (info : after.context.info = before.context.info)
    (commands : after.context.currentCommands = before.context.currentCommands) :
    before.Counts {} after where
  script := script
  recorded := ⟨[], diagnostics.trans (List.append_nil _).symm,
    fun _ member => absurd member List.not_mem_nil⟩
  taken := by rw [Context.taken, calls]; rfl
  drafts := congrArg List.length drafts
  info := info.trans before.context.info.counting_empty.symm
  declared := fun name => by rw [commands, or_iff_left List.not_mem_nil]
  new := fun _ member => absurd member List.not_mem_nil
  once := List.nodup_nil

theorem refl (workspace : Workspace) : workspace.Counts {} workspace :=
  .of_same rfl rfl rfl rfl rfl rfl

theorem trans {first second : Tally} (one : before.Counts first between)
    (two : between.Counts second after) : before.Counts (first.plus second) after where
  script := two.script.trans one.script
  recorded := by
    obtain ⟨own, diagnostics, blamed⟩ := one.recorded
    obtain ⟨later, all, blamedLater⟩ := two.recorded
    refine ⟨own ++ later, by rw [all, diagnostics, List.append_assoc], fun diagnostic member => ?_⟩
    rcases List.mem_append.mp member with here | there
    · exact blamed diagnostic here
    · rw [← one.script]
      exact blamedLater diagnostic there
  taken := by rw [two.taken, one.taken, Nat.add_assoc]; rfl
  drafts := by rw [two.drafts, one.drafts, Nat.add_assoc]; rfl
  info := by rw [two.info, one.info, ScriptInfo.counting_plus]
  declared := by
    intro name
    rw [two.declared, one.declared, or_assoc]
    exact or_congr_right List.mem_append.symm
  new := by
    intro name member
    rcases List.mem_append.mp member with here | there
    · exact one.new name here
    · exact fun old => two.new name there ((one.declared name).mpr (Or.inl old))
  once := by
    refine List.nodup_append.mpr ⟨one.once, two.once, ?_⟩
    rintro name here _ there rfl
    exact two.new name there ((one.declared name).mpr (Or.inr here))

/-- A part that comes to nothing behind another part. -/
theorem quiet (one : before.Counts tally between) (two : between.Counts {} after) :
    before.Counts tally after :=
  tally.plus_empty ▸ one.trans two

/-- A part in front that comes to nothing. -/
theorem behind (one : before.Counts {} between) (two : between.Counts tally after) :
    before.Counts tally after :=
  tally.empty_plus ▸ one.trans two

theorem leave {traces : Traces} {workspace : Workspace}
    (blamed : ∀ diagnostic ∈ traces.diagnostics,
      diagnostic.script = workspace.context.script.map Script.name) :
    workspace.Counts {} (workspace.leave traces) :=
  { refl workspace with recorded := ⟨traces.diagnostics, rfl, blamed⟩ }

end Workspace.Counts

namespace Workspace

/-! ## What is recorded -/

theorem recorded_script (script : Option Script) (failure : Failure) (line : Option Nat) :
    ∀ diagnostic ∈ (recorded script failure line).diagnostics,
      diagnostic.script = script.map Script.name := by
  intro diagnostic member
  rw [List.mem_singleton.mp member]

theorem reported_script (script : Option Script) (failures : List Failure) :
    ∀ diagnostic ∈ (reported script failures).diagnostics,
      diagnostic.script = script.map Script.name := by
  induction failures with
  | nil => exact fun _ member => absurd member List.not_mem_nil
  | cons failure others ih =>
    intro diagnostic member
    exact (List.mem_append.mp member).elim (recorded_script script failure _ diagnostic)
      (ih diagnostic)

theorem commandIn_script (script : Option Script) (classes : ClassRegistry) (scope : BodyScope)
    (header : String) (body : Section) :
    ∀ diagnostic ∈ (commandIn script classes scope header body).2.diagnostics,
      diagnostic.script = script.map Script.name := by
  have none {result : Option String} : ∀ diagnostic ∈ ([] : List Diagnostic),
      diagnostic.script = result := fun _ member => absurd member List.not_mem_nil
  unfold commandIn
  split
  · exact none
  · next owner =>
    split
    · exact none
    · dsimp only
      split
      · exact reported_script (some owner) _
      · intro diagnostic member
        exact (List.mem_append.mp member).elim (reported_script (some owner) _ diagnostic)
          (reported_script (some owner) _ diagnostic)

theorem record_counts (failure : Failure) (line : Option Nat) (workspace : Workspace) :
    workspace.Counts {} (workspace.record failure line) := by
  rw [record_eq_leave]
  exact Counts.leave (recorded_script _ failure line)

theorem reportAll_counts (failures : List Failure) (workspace : Workspace) :
    workspace.Counts {} (workspace.reportAll failures) := by
  rw [reportAll_eq_leave]
  exact Counts.leave (reported_script _ failures)

/-- A call for any other phase than the first is not counted. -/
theorem noteCall_counts {call : PhaseCall} (other : call.phase ≠ .init) (workspace : Workspace) :
    workspace.Counts {} (workspace.inContext (·.noteCall call)) where
  __ := Counts.refl workspace
  taken := by
    change (workspace.context.calls ++ [call]).countP _ = _
    rw [List.countP_append, List.countP_singleton, beq_false_of_ne other]
    rfl

/-- A header that is taken is counted. -/
theorem noteInit_counts (place : Nat) (success : Bool) (workspace : Workspace) :
    workspace.Counts { taken := success.toNat }
      (workspace.inContext (·.noteCall ⟨.init, place, success⟩)) where
  __ := Counts.refl workspace
  taken := by
    change (workspace.context.calls ++ [PhaseCall.mk .init place success]).countP _ = _
    rw [List.countP_append, List.countP_singleton]
    cases success <;> rfl

end Workspace

open Workspace (Counts)

/-! ## Taking headers -/

theorem VariablesStructure.init_counts (body : Section) (defaults : VariablesStructure)
    (workspace : Workspace) : workspace.Counts {} (defaults.init body workspace).2 := by
  unfold init
  generalize (body.convertToEntries 0 "=").nodes = nodes
  induction nodes generalizing defaults workspace with
  | nil => exact .refl workspace
  | cons node others ih =>
    have first : workspace.Counts {} (initNode (defaults, workspace) node).2 := by
      unfold initNode
      dsimp only
      split
      · exact workspace.record_counts _ _
      · exact .of_same rfl rfl rfl rfl rfl rfl
    rw [List.foldl_cons]
    exact first.quiet (ih _ _)

namespace EventStructure

/-- What taking a header comes to for an event: a trigger waits, or nothing does. -/
def Buffers (before after : Workspace) : Prop :=
  ∃ drafts, before.Counts { drafts } after

theorem Buffers.of_counts {before after : Workspace} (counts : before.Counts {} after) :
    Buffers before after :=
  ⟨0, counts⟩

theorem buffer_buffers (info : EventInfo) (filter : EventFilter) (body : Section)
    (event : EventStructure) (workspace : Workspace) :
    Buffers workspace (buffer info filter body event workspace).2 := by
  unfold buffer
  rw [Workspace.reading_readBody]
  have read := Counts.leave (Workspace.reported_script workspace.context.script
    (Item.readBody (workspace.scopeFor (bodyEvent info)) body).2)
  cases (Item.readBody (workspace.scopeFor (bodyEvent info)) body).1 with
  | error failure => exact .of_counts read
  | ok items =>
    dsimp only
    split
    all_goals
      refine ⟨1, { read with drafts := ?_, info := ?_ }⟩
      · exact List.length_append
      · exact (ScriptInfo.mk.injEq ..).mpr ⟨rfl, rfl, rfl, rfl, (List.append_nil _).symm⟩

theorem init_buffers (header : MatchResult) (body : Section) (event : EventStructure)
    (workspace : Workspace) : Buffers workspace (event.init header body workspace).2.2 := by
  have same {before after : Workspace} (context : after.context = before.context) :
      before.Counts {} after :=
    .of_same (by rw [context]) (by rw [context]) (by rw [context]) (by rw [context])
      (by rw [context]) (by rw [context])
  have started (info : EventInfo) (filter : EventFilter) (header : MatchResult)
      (event : EventStructure) (workspace : Workspace) :
      Buffers workspace (start info filter header body event workspace).2.2 := by
    unfold start
    generalize filter.start header = taken
    obtain ⟨taken, filter, notes⟩ := taken
    have noted : workspace.Counts {} (workspace.inHost (·.note notes)) := same rfl
    dsimp only
    split
    · split
      · obtain ⟨drafts, buffered⟩ := buffer_buffers info filter body
          { event with filter := some filter } (workspace.inHost (·.note notes))
        exact ⟨drafts, { buffered with }⟩
      · exact .of_counts noted
    · exact .of_counts noted
  have inHand : workspace.Counts {} (workspace.inContext ({ · with
      sectionInHand := some (workspace.context.sectionInHand.getD {}) })) :=
    .of_same rfl rfl rfl rfl rfl rfl
  unfold init
  dsimp only
  split
  · exact .of_counts inHand
  · split
    · exact .of_counts inHand
    · unfold initWith
      split
      · exact .of_counts inHand
      · dsimp only
        split
        · exact .of_counts inHand
        · obtain ⟨drafts, counts⟩ := started _ _ _ _ _
          exact ⟨drafts, { counts with }⟩

end EventStructure

theorem CustomStructure.respond_counts (phase : Phase) (custom : CustomStructure)
    (workspace : Workspace) : workspace.Counts {} (custom.respond phase workspace).2 :=
  { Workspace.reportAll_counts (custom.behaviour.respond phase custom.heading workspace).reports
      (workspace.inHost (·.note
        (custom.behaviour.respond phase custom.heading workspace).notes)) with }

namespace Structure

theorem init_counts (inner : Structure) (header : MatchResult) (body : Section)
    (workspace : Workspace) :
    ∃ drafts, workspace.Counts { drafts } (inner.init header body workspace).2.2 := by
  have none {after : Workspace} (counts : workspace.Counts {} after) :
      ∃ drafts, workspace.Counts { drafts } after := ⟨0, counts⟩
  cases inner with
  | options inner => exact none (workspace.reportAll_counts _)
  | function inner =>
    dsimp only [init]
    split <;> exact none (.refl workspace)
  | aliases =>
    refine none (Counts.quiet ?_ (Workspace.reportAll_counts _ _))
    exact .of_same rfl rfl rfl rfl rfl rfl
  | defaults inner => exact none (inner.init_counts body workspace)
  | command inner =>
    dsimp only [init]
    split <;> exact none (.refl workspace)
  | event inner => exact inner.init_buffers header body workspace
  | custom inner => exact none (CustomStructure.respond_counts .init _ workspace)

theorem preload_counts (inner : Structure) (workspace : Workspace) :
    workspace.Counts {} (inner.preload workspace).2.2 := by
  cases inner with
  | options inner => exact .of_same rfl rfl rfl rfl rfl rfl
  | function inner =>
    dsimp only [preload]
    rcases inner.preload_cases workspace with ⟨_, same⟩ | ⟨_, _, _, same⟩
    all_goals
      rw [same]
      exact .of_same rfl rfl rfl rfl rfl rfl
  | custom inner => exact inner.respond_counts .preload workspace
  | _ => exact .refl workspace

theorem afterLoad_counts (inner : Structure) (workspace : Workspace) :
    workspace.Counts {} (inner.afterLoad workspace).2.2 := by
  cases inner with
  | custom inner => exact inner.respond_counts .afterLoad workspace
  | _ => exact .refl workspace

end Structure

/-! ## Loading -/

/-- What a structure counts for once it is loaded. -/
def Structure.tally : Structure → Tally
  | function _ => { functions := 1 }
  | command inner => { commands := inner.name.toList }
  | _ => {}

/-- What loading a structure comes to: what the structure counts for then, if loading it succeeds,
and nothing otherwise. -/
structure Structure.Tallies (before : Workspace) (result : Outcome Unit × Structure × Workspace) :
    Prop where
  done : result.1 = .done () → before.Counts result.2.1.tally result.2.2
  failed : result.1 ≠ .done () → before.Counts {} result.2.2

theorem FunctionStructure.load_tallies (function : FunctionStructure) (workspace : Workspace) :
    ((function.load workspace).1 = .ok () →
        workspace.Counts { functions := 1 } (function.load workspace).2) ∧
      ∀ failure, (function.load workspace).1 = .error failure →
        workspace.Counts {} (function.load workspace).2 := by
  unfold load
  split
  · exact ⟨nofun, fun _ _ => .refl workspace⟩
  · next body _ =>
    split
    · exact ⟨nofun, fun _ _ => .refl workspace⟩
    · unfold loadBody
      rw [Workspace.reading_readBody]
      have read := Counts.leave (Workspace.reported_script workspace.context.script
        (Item.readBody (workspace.scopeFor bodyEvent) body).2)
      cases (Item.readBody (workspace.scopeFor bodyEvent) body).1 with
      | error failure => exact ⟨nofun, fun _ _ => read⟩
      | ok items =>
        dsimp only
        split
        · exact ⟨nofun, fun _ _ => read⟩
        · refine ⟨fun _ => { read with info := ?_ }, nofun⟩
          exact (ScriptInfo.mk.injEq ..).mpr ⟨rfl, rfl, rfl, rfl, (List.append_nil _).symm⟩

namespace CommandStructure

/-- A command that is handed over is declared and counted, unless it is refused. -/
theorem submit_tallies (thread : Thread) (loaded : Command) (ticket : Nat) (workspace : Workspace)
    (new : loaded.name ∉ workspace.context.currentCommands) :
    ((submit thread loaded ticket workspace).1 = .ok () →
        workspace.Counts { commands := [loaded.name] } (submit thread loaded ticket workspace).2) ∧
      ∀ failure, (submit thread loaded ticket workspace).1 = .error failure →
        workspace.Counts {} (submit thread loaded ticket workspace).2 := by
  unfold submit
  dsimp only
  split
  · exact ⟨nofun, fun _ _ => .of_same rfl rfl rfl rfl rfl rfl⟩
  · refine ⟨fun _ => { Counts.refl workspace with
      info := rfl, declared := fun name => ?_, new := ?_, once := List.nodup_singleton _ }, nofun⟩
    · have absent : workspace.context.currentCommands.contains loaded.name = false := by
        rw [← Bool.not_eq_true, List.contains_iff_mem]
        exact new
      change name ∈ (if workspace.context.currentCommands.contains loaded.name then _ else _) ↔ _
      rw [absent]
      exact List.mem_append
    · intro name member
      rw [List.mem_singleton.mp member]
      exact new

/-- What becomes of a command that has been read. -/
theorem handed_tallies (thread : Thread) (command : CommandStructure) {loaded : Command}
    {workspace after : Workspace} (read : workspace.Counts {} after)
    (new : loaded.name ∉ after.context.currentCommands) :
    let result := submit thread loaded command.ticket after
    (∀ kept, result.1.map (fun _ => { command with name := some loaded.name }) = .ok kept →
        workspace.Counts { commands := kept.name.toList } result.2) ∧
      ∀ failure, result.1.map (fun _ => { command with name := some loaded.name }) =
          .error failure → workspace.Counts {} result.2 := by
  intro result
  obtain ⟨done, failed⟩ := submit_tallies thread loaded command.ticket after new
  change (result.1 = _ → _) at done
  change ∀ failure, result.1 = _ → _ at failed
  cases outcome : result.1 with
  | error failure => exact ⟨nofun, fun _ _ => read.trans (failed failure outcome)⟩
  | ok =>
    refine ⟨?_, nofun⟩
    rintro _ ⟨⟩
    exact read.trans (done outcome)

theorem load_tallies (thread : Thread) (command : CommandStructure) (workspace : Workspace) :
    (∀ after, (command.load thread workspace).1 = .ok after →
        workspace.Counts { commands := after.name.toList } (command.load thread workspace).2) ∧
      ∀ failure, (command.load thread workspace).1 = .error failure →
        workspace.Counts {} (command.load thread workspace).2 := by
  unfold load
  split
  · exact ⟨nofun, fun _ _ => .refl workspace⟩
  · next body _ =>
    unfold loadBody
    rw [Workspace.reading_readCommand]
    have read := Counts.leave (Workspace.commandIn_script workspace.context.script
      workspace.host.classes (workspace.scopeFor bodyEvent) command.header body)
    cases (workspace.commandFor bodyEvent command.header body).1 with
    | error failure => exact ⟨nofun, fun _ _ => read⟩
    | ok loaded =>
      dsimp only
      split
      · exact ⟨nofun, fun _ _ => { read with }⟩
      · next absent =>
        rw [List.contains_iff_mem] at absent
        exact handed_tallies thread command { read with } absent

end CommandStructure

namespace Structure

theorem load_tallies (thread : Thread) (inner : Structure) (workspace : Workspace) :
    Tallies workspace (inner.load thread workspace) := by
  have nothing {outcome : Outcome Unit} {after : Structure} {final : Workspace}
      (counts : workspace.Counts {} final) (empty : after.tally = {}) :
      Tallies workspace (outcome, after, final) :=
    ⟨fun _ => empty ▸ counts, fun _ => counts⟩
  cases inner with
  | options inner => exact nothing (.of_same rfl rfl rfl rfl rfl rfl) rfl
  | function inner =>
    obtain ⟨done, failed⟩ := inner.load_tallies workspace
    dsimp only [load]
    generalize inner.load workspace = result at *
    obtain ⟨_ | _, final⟩ := result
    · exact ⟨nofun, fun _ => failed _ rfl⟩
    · exact ⟨fun _ => done rfl, fun isNot => absurd rfl isNot⟩
  | command inner =>
    obtain ⟨done, failed⟩ := inner.load_tallies thread workspace
    dsimp only [load]
    generalize inner.load thread workspace = result at *
    obtain ⟨_ | _, final⟩ := result
    · exact ⟨nofun, fun _ => failed _ rfl⟩
    · exact ⟨fun _ => done _ rfl, fun isNot => absurd rfl isNot⟩
  | custom inner => exact nothing (inner.respond_counts .load workspace) rfl
  | _ => exact nothing (.refl workspace) rfl

end Structure

/-- The function that a structure is, if it is one. -/
def Structure.function? : Structure → Option FunctionStructure
  | function inner => some inner
  | _ => none

/-- The functions among structures that are loaded. -/
def loadedFunctions (structures : List LoadedStructure) : List FunctionStructure :=
  (structures.filter (·.loaded)).filterMap (·.inner.function?)

/-- The commands among structures that are loaded. -/
def loadedCommands (structures : List LoadedStructure) : List CommandStructure :=
  (structures.filter (·.loaded)).filterMap (·.inner.command?)

/-- The names of the commands among structures that are loaded. -/
def commandNamesOf (structures : List LoadedStructure) : List String :=
  (loadedCommands structures).filterMap (·.name)

theorem commandNamesOf_append (structures others : List LoadedStructure) :
    commandNamesOf (structures ++ others) = commandNamesOf structures ++ commandNamesOf others := by
  rw [commandNamesOf, loadedCommands, List.filter_append, List.filterMap_append,
    List.filterMap_append]
  rfl

/-- What structures count for together. -/
def tallyOf (structures : List LoadedStructure) : Tally where
  functions := (loadedFunctions structures).length
  commands := commandNamesOf structures

/-- The counters of a script agree with its structures. -/
structure LoadedScript.Sums (loaded : LoadedScript) : Prop where
  functions : loaded.info.functions = (loadedFunctions loaded.structures).length
  commands : loaded.info.commands = loaded.info.commandNames.length
  names : loaded.info.commandNames = commandNamesOf loaded.structures
  once : loaded.info.commandNames.Nodup
  structures : loaded.info.structures = loaded.structures.length

theorem tallyOf_cons (loaded : LoadedStructure) (others : List LoadedStructure) :
    tallyOf (loaded :: others) =
      (if loaded.loaded then loaded.inner.tally else {}).plus (tallyOf others) := by
  obtain ⟨inner, key, line, index, priority, preloaded, isLoaded⟩ := loaded
  cases isLoaded with
  | false => exact (Tally.empty_plus _).symm
  | true =>
    cases inner with
    | function inner =>
      simp [tallyOf, Tally.plus, Structure.tally, loadedFunctions, commandNamesOf, loadedCommands,
        Structure.function?, Structure.command?, Nat.add_comm]
    | command inner =>
      simp only [tallyOf, Tally.plus, Structure.tally, loadedFunctions, commandNamesOf,
        loadedCommands, Structure.function?, Structure.command?, if_true, List.filter_cons_of_pos,
        List.filterMap_cons, Nat.zero_add]
      cases inner.name <;> rfl
    | _ => simp [tallyOf, Tally.plus, Structure.tally, loadedFunctions, commandNamesOf,
        loadedCommands, Structure.function?, Structure.command?]

namespace Loading

variable {registry : Registry}

theorem conclude_counts {phase : Phase} (other : phase ≠ .init) (loaded : LoadedStructure)
    (result : Outcome Unit × Structure × Workspace) :
    result.2.2.Counts {} (conclude phase loaded result).2.2 := by
  obtain ⟨outcome, inner, after⟩ := result
  unfold conclude
  dsimp only
  split
  · exact Workspace.noteCall_counts other after
  · exact (Workspace.noteCall_counts other after).quiet (Workspace.record_counts _ _ _)

theorem preload_counts (loaded : LoadedStructure) (workspace : Workspace) :
    workspace.Counts {} (preload loaded workspace).2 :=
  (loaded.inner.preload_counts workspace).quiet
    (conclude_counts (by decide : Phase.preload ≠ .init) loaded _)

/-- Some structures have taken their headers. -/
def TakesHeaders (before : Workspace) (results : List LoadedStructure) (after : Workspace) : Prop :=
  ∃ drafts, before.Counts { taken := results.length, drafts } after

theorem TakesHeaders.append {before between after : Workspace} {first second : List LoadedStructure}
    (one : TakesHeaders before first between) (two : TakesHeaders between second after) :
    TakesHeaders before (first ++ second) after := by
  obtain ⟨drafts, counts⟩ := one
  obtain ⟨later, countsLater⟩ := two
  refine ⟨drafts + later, ?_⟩
  rw [List.length_append]
  exact counts.trans countsLater

theorem initialise_takes (assignment : Assignment) (workspace : Workspace) :
    TakesHeaders workspace (initialise assignment workspace).1.toList
      (initialise assignment workspace).2 := by
  let inner := assignment.descriptor.create workspace.host.nextTicket
  obtain ⟨drafts, taken⟩ :=
    inner.init_counts assignment.header assignment.top.body (inHand assignment workspace)
  have ready : workspace.Counts {} (inHand assignment workspace) :=
    .of_same rfl rfl rfl rfl rfl rfl
  unfold initialise
  rw [takeHeader_eq, show assignment.descriptor.create workspace.host.nextTicket = inner from rfl]
  generalize inner.init assignment.header assignment.top.body (inHand assignment workspace) =
    result at *
  obtain ⟨outcome, after, final⟩ := result
  have put : final.Counts {} (final.inContext (·.takeInHand none none)) :=
    .of_same rfl rfl rfl rfl rfl rfl
  have noted (success : Bool) := ((ready.behind taken).quiet put).trans
    (Workspace.noteInit_counts assignment.top.index success _)
  dsimp only
  split
  · refine ⟨drafts, ?_⟩
    have counts := noted true
    rwa [Tally.plus, Nat.zero_add] at counts
  · exact ⟨drafts, (noted false).quiet (Workspace.record_counts _ _ _)⟩
  · exact ⟨drafts, (noted false).quiet (Workspace.record_counts _ _ _)⟩

theorem TakesHeaders.quiet {before between after : Workspace} {results : List LoadedStructure}
    (takes : TakesHeaders before results between) (counts : between.Counts {} after) :
    TakesHeaders before results after :=
  takes.imp fun _ first => first.quiet counts

theorem initialisePreloading_takes (assignment : Assignment) (workspace : Workspace) :
    TakesHeaders workspace (initialisePreloading assignment workspace).1.toList
      (initialisePreloading assignment workspace).2 := by
  have takes := initialise_takes assignment workspace
  unfold initialisePreloading
  generalize initialise assignment workspace = result at *
  obtain ⟨_ | loaded, after⟩ := result
  · exact takes
  · exact takes.quiet (preload_counts loaded after)

theorem initialiseNormal_takes (descriptors : List Descriptor) (top : TopSection)
    (workspace : Workspace) :
    TakesHeaders workspace (initialiseNormal descriptors top workspace).1.toList
      (initialiseNormal descriptors top workspace).2 := by
  unfold initialiseNormal
  split
  · exact initialise_takes _ workspace
  · exact ⟨0, workspace.record_counts _ _⟩

theorem each_takes {α : Type} {act : α → Workspace → Option LoadedStructure × Workspace}
    (one : ∀ item before, TakesHeaders before (act item before).1.toList (act item before).2)
    (items : List α) (workspace : Workspace) :
    TakesHeaders workspace (each act items workspace).1.reduceOption
      (each act items workspace).2 := by
  induction items generalizing workspace with
  | nil => exact ⟨0, .refl workspace⟩
  | cons item others ih =>
    rw [each_cons_reduceOption]
    exact (one item workspace).append (ih _)

theorem reportPlain_counts (nodes : List Node) (workspace : Workspace) :
    workspace.Counts {} (reportPlain nodes workspace) := by
  unfold reportPlain
  induction nodes generalizing workspace with
  | nil => exact .refl workspace
  | cons node others ih =>
    rw [List.foldl_cons]
    refine Counts.quiet ?_ (ih _)
    split
    · exact .refl workspace
    · exact workspace.record_counts _ _

theorem initialiseAll_takes (nodes : List Node) (workspace : Workspace) :
    TakesHeaders workspace (initialiseAll registry nodes workspace).1
      (initialiseAll registry nodes workspace).2 := by
  have early := each_takes initialisePreloading_takes
    (claimAll registry.preloading (topSections 0 nodes)).1 (reportPlain nodes workspace)
  have late := each_takes (initialiseNormal_takes registry.normal)
    (claimAll registry.preloading (topSections 0 nodes)).2
    (each initialisePreloading (claimAll registry.preloading (topSections 0 nodes)).1
      (reportPlain nodes workspace)).2
  obtain ⟨drafts, counts⟩ := early.append late
  refine ⟨drafts, ?_⟩
  unfold initialiseAll
  dsimp only
  rw [List.reduceOption_append, List.length_mergeSort]
  exact (reportPlain_counts nodes workspace).behind counts

/-- Loading a structure comes to what the structure counts for then. -/
theorem load_tallies (thread : Thread) (loaded : LoadedStructure) (workspace : Workspace) :
    workspace.Counts (if (load thread loaded workspace).1.loaded then
        (load thread loaded workspace).1.inner.tally else {})
      (load thread loaded workspace).2 := by
  have ready : workspace.Counts {} (readied loaded workspace).2 := by
    unfold readied
    split
    · exact .refl workspace
    · exact preload_counts loaded workspace
  rw [load_eq]
  generalize readied loaded workspace = start at *
  obtain ⟨loaded, between⟩ := start
  have tallies := loaded.inner.load_tallies thread between
  have same := conclude_structure .load loaded (loaded.inner.load thread between)
  have success := conclude_success .load loaded (loaded.inner.load thread between)
  have counts := conclude_counts (by decide : Phase.load ≠ .init) loaded
    (loaded.inner.load thread between)
  unfold loadBody
  generalize conclude .load loaded (loaded.inner.load thread between) = concluded at *
  generalize loaded.inner.load thread between = result at *
  obtain ⟨done, after, final⟩ := concluded
  dsimp only at *
  rw [show after.inner = result.2.1 from congrArg LoadedStructure.inner same]
  cases done with
  | true => exact ready.behind ((tallies.done (success.mp rfl)).quiet counts)
  | false =>
    exact ready.behind ((tallies.failed fun isDone => nomatch success.mpr isDone).quiet counts)

theorem each_tallies (thread : Thread) (structures : List LoadedStructure) (workspace : Workspace) :
    workspace.Counts (tallyOf (each (load thread) structures workspace).1)
      (each (load thread) structures workspace).2 := by
  induction structures generalizing workspace with
  | nil => exact .refl workspace
  | cons first others ih =>
    rw [each]
    dsimp only
    rw [tallyOf_cons]
    exact (load_tallies thread first workspace).trans (ih _)

theorem afterLoad_counts (loaded : LoadedStructure) (workspace : Workspace) :
    workspace.Counts {} (afterLoad loaded workspace).2 := by
  unfold afterLoad
  split
  · exact (loaded.inner.afterLoad_counts workspace).quiet
      (conclude_counts (by decide : Phase.afterLoad ≠ .init) loaded _)
  · exact .refl workspace

theorem each_afterLoad_counts (structures : List LoadedStructure) (workspace : Workspace) :
    workspace.Counts {} (each afterLoad structures workspace).2 := by
  induction structures generalizing workspace with
  | nil => exact .refl workspace
  | cons first others ih => exact (afterLoad_counts first workspace).quiet (ih _)

theorem length_each {α β : Type} (act : α → Workspace → β × Workspace) (items : List α)
    (workspace : Workspace) : (each act items workspace).1.length = items.length := by
  induction items generalizing workspace with
  | nil => rfl
  | cons item others ih => exact congrArg Nat.succ (ih _)

/-- What a script amounts to once it has been loaded, in a context that has counted nothing for it
before. -/
structure Tallied (script : Script) (before : Workspace) (loaded : LoadedScript)
    (after : Workspace) : Prop where
  current : after.context.script = some script
  sums : loaded.Sums
  triggers : loaded.info.triggers = after.context.currentDrafts.length
  taken : after.context.taken = before.context.taken + loaded.info.structures
  errors : ∃ own, after.context.diagnostics = before.context.diagnostics ++ own ∧
    (∀ diagnostic ∈ own, diagnostic.script = some script.name) ∧ loaded.errors = own.length

/-- Loading the script that has just become current, on any thread. -/
theorem loadCurrent_tallies (thread : Thread) {script : Script} (nodes : List Node)
    {workspace : Workspace} (current : workspace.context.script = some script)
    (noneWait : workspace.context.currentDrafts = []) (zero : workspace.context.info = {}) :
    Tallied script workspace (loadCurrent registry thread script nodes workspace).1
      (loadCurrent registry thread script nodes workspace).2 := by
  obtain ⟨drafts, headers⟩ : TakesHeaders workspace (initialiseAll registry nodes workspace).1
      (initialiseAll registry nodes workspace).2 := initialiseAll_takes nodes workspace
  unfold loadCurrent
  dsimp only
  generalize initialiseAll registry nodes workspace = initialised at *
  obtain ⟨ordered, between⟩ := initialised
  have bodies := each_tallies thread ordered between
  have sameLength := length_each (load thread) ordered between
  generalize each (load thread) ordered between = bound at *
  obtain ⟨structures, loaded⟩ := bound
  have mended := each_afterLoad_counts structures loaded
  have same := (each_afterLoad structures loaded).1
  generalize each afterLoad structures loaded = mending at *
  obtain ⟨structures, final⟩ := mending
  obtain rfl := same
  have whole := (headers.trans bodies).quiet mended
  obtain ⟨own, diagnostics, blamed⟩ := whole.recorded
  rw [current] at blamed
  have info := whole.info
  rw [zero] at info
  refine ⟨whole.script.trans current, ⟨?_, ?_, ?_, ?_, rfl⟩, ?_, ?_, own, diagnostics, blamed, ?_⟩
  · change final.context.info.functions = _
    rw [info]
    exact (Nat.zero_add _).trans (Nat.zero_add _)
  · change final.context.info.commands = final.context.info.commandNames.length
    rw [info]
    exact Nat.zero_add _
  · change final.context.info.commandNames = _
    rw [info]
    rfl
  · change final.context.info.commandNames.Nodup
    rw [info]
    exact whole.once
  · change final.context.info.triggers = final.context.currentDrafts.length
    rw [info, whole.drafts, noneWait]
    rfl
  · change final.context.taken = _
    rw [whole.taken]
    exact congrArg _ sameLength.symm
  · change final.context.diagnostics.length - workspace.context.diagnostics.length = _
    rw [diagnostics, List.length_append, Nat.add_sub_cancel_left]

end Loading

end ScriptBinding

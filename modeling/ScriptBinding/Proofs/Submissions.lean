import ScriptBinding.Proofs.Deferral
import ScriptBinding.Proofs.Settling

/-! # What structures submit when they are loaded

Structures that are loaded in both runs fare in the same way, except that the direct run knows at
once which commands the host refuses. For the deferred run these are loaded and counted; the host
refuses them when their jobs are done.
-/

namespace ScriptBinding

/-- A command that has been handed to the host: its name, and whether the host has accepted it. -/
structure Submission where
  name : String
  accepted : Bool
deriving DecidableEq, Repr

/-- A name that the host has refused is not accepted later. -/
def RefusedForGood (submissions : List Submission) : Prop :=
  submissions.Pairwise fun earlier later =>
    earlier.accepted = false → later.name = earlier.name → later.accepted = false

instance (submissions : List Submission) : Decidable (RefusedForGood submissions) :=
  inferInstanceAs (Decidable (List.Pairwise _ _))

/-- The command that loading a structure hands to the host. -/
def Loading.submission? (thread : Thread) (loaded : LoadedStructure) (workspace : Workspace) :
    Option Submission :=
  (loaded.inner.command?.bind (·.handsOver? workspace)).map
    (⟨·, (load thread loaded workspace).1.loaded⟩)

/-- The commands that structures hand to the host when they are loaded one after the other. -/
def Loading.submissions (thread : Thread) : List LoadedStructure → Workspace → List Submission
  | [], _ => []
  | loaded :: others, workspace =>
    (submission? thread loaded workspace).toList ++
      submissions thread others (load thread loaded workspace).2

/-! ## Jobs of other tickets -/

/-- A job takes nothing back, and registers no command under the ticket. -/
inductive Job.Spares (ticket : Nat) : Job → Prop
  | bind (script : Script) (drafts : List TriggerDraft) : Spares ticket (.bind script drafts)
  | register (other : Nat) (command : Command) (apart : other ≠ ticket) :
      Spares ticket (.register other command)

namespace Host

variable {ticket : Nat}

theorem perform_spares {job : Job} (spares : job.Spares ticket) (host : Host) :
    (host.perform job).registrations ticket = host.registrations ticket := by
  cases spares with
  | bind script drafts => rw [(perform_bind script drafts host).1.registrations]
  | register other command apart =>
    obtain ⟨_, ⟨_, _, _, same⟩ | ⟨_, _, _, same⟩⟩ := registerUnder_spec other command host
    all_goals exact (congrFun same ticket).trans (Function.update_of_ne apart.symm _ _)

/-- What is kept under a ticket stays when the jobs spare it. -/
theorem ahead_spares {jobs : List Job} (spare : ∀ job ∈ jobs, job.Spares ticket) (host : Host) :
    (host.ahead jobs).registrations ticket = host.registrations ticket := by
  induction jobs generalizing host with
  | nil => rfl
  | cons job others ih =>
    exact (ih (fun other member => spare other (List.mem_cons_of_mem _ member)) _).trans
      (perform_spares (spare job List.mem_cons_self) host)

end Host

/-! ## Structures -/

/-- How a structure has fared that has been loaded in both runs, on a host that has done the jobs of
the deferred one. -/
inductive LoadedStructure.Fares (host : Host) : LoadedStructure → LoadedStructure → Prop
  | same (loaded : LoadedStructure) (accepted : host.refuses loaded = false) :
      Fares host loaded loaded
  | refused {direct deferred : LoadedStructure} (dropped : direct.loaded = false)
      (refuses : host.refuses deferred = true) : Fares host direct deferred

/-- What is refused does not depend on what is kept under other tickets. -/
theorem LoadedStructure.Fares.later {host after : Host} {direct deferred : LoadedStructure}
    (fares : direct.Fares host deferred)
    (same : after.refuses deferred = host.refuses deferred) : direct.Fares after deferred := by
  cases fares with
  | same accepted => exact .same _ (same.trans accepted)
  | refused dropped refuses => exact .refused dropped (same.trans refuses)

theorem LoadedStructure.Fares.allLater {host after : Host} {direct deferred : List LoadedStructure}
    (fares : List.Forall₂ (Fares host) direct deferred)
    (same : ∀ loaded ∈ deferred, after.refuses loaded = host.refuses loaded) :
    List.Forall₂ (Fares after) direct deferred := by
  induction fares with
  | nil => exact .nil
  | cons first _ ih =>
    exact .cons (first.later (same _ List.mem_cons_self))
      (ih fun loaded member => same loaded (List.mem_cons_of_mem _ member))

theorem Structure.eq_command {inner : Structure} {command : CommandStructure}
    (isCommand : inner.command? = some command) : inner = .command command := by
  cases inner with
  | command inner => exact congrArg Structure.command (Option.some.inj isCommand)
  | _ => cases isCommand

/-- A structure without a command does not get one. -/
theorem Structure.load_command?_of_none (thread : Thread) (workspace : Workspace)
    (inner : Structure) (noCommand : inner.command? = none) :
    (inner.load thread workspace).2.1.command? = none := by
  cases inner with
  | command inner => cases noCommand
  | _ => rfl

namespace Loading

open Workspace (Abreast Lags)

/-- What loading structures in both runs has come to: `more` are the jobs that have been submitted,
`names` the names that the host has refused. -/
structure Paired (start : Host) (jobs : List Job) (fresh : Nat → Prop) (gap : Nat)
    (refused : List String) (tickets : List Nat) (more : List Job) (names : List String)
    (direct deferred : List LoadedStructure × Workspace) : Prop where
  fares : List.Forall₂ (LoadedStructure.Fares (start.ahead (jobs ++ more))) direct.1 deferred.1
  builtIn : ∀ loaded ∈ direct.1 ++ deferred.1, loaded.inner.isBuiltIn = true
  own : commandTicketsOf deferred.1 = tickets
  those : commandNamesOf (deferred.1.filter (start.ahead (jobs ++ more)).refuses) = names
  count : (deferred.1.filter (start.ahead (jobs ++ more)).refuses).length = names.length
  spares : ∀ job ∈ more, ∀ ticket ∉ tickets, job.Spares ticket
  abreast : Abreast (gap + names.length) (refused ++ names) direct.2 deferred.2
  lags : Lags start (jobs ++ more) (fun ticket => fresh ticket ∧ ticket ∉ tickets) direct.2
    deferred.2

variable {start : Host} {jobs : List Job} {fresh : Nat → Prop} {gap : Nat} {refused : List String}
  {direct deferred : Workspace}

namespace Paired

theorem nil (abreast : Abreast gap refused direct deferred)
    (lags : Lags start jobs fresh direct deferred) :
    Paired start jobs fresh gap refused [] [] [] ([], direct) ([], deferred) where
  fares := .nil
  builtIn := fun _ absent => absurd absent List.not_mem_nil
  own := rfl
  those := rfl
  count := rfl
  spares := fun _ absent => absurd absent List.not_mem_nil
  abreast := by
    rw [List.append_nil]
    exact abreast
  lags := by
    rw [List.append_nil]
    exact lags.mono fun _ => And.left

/-- Structures that are loaded later do not matter to those that have been loaded. -/
theorem append {one other rest others : List LoadedStructure × Workspace}
    {tickets later : List Nat} {more last : List Job} {names final : List String}
    (first : Paired start jobs fresh gap refused tickets more names one other)
    (second : Paired start (jobs ++ more) (fun ticket => fresh ticket ∧ ticket ∉ tickets)
      (gap + names.length) (refused ++ names) later last final rest others)
    (apart : ∀ ticket ∈ tickets, ticket ∉ later) :
    Paired start jobs fresh gap refused (tickets ++ later) (more ++ last) (names ++ final)
      (one.1 ++ rest.1, rest.2) (other.1 ++ others.1, others.2) := by
  have whole : start.ahead (jobs ++ (more ++ last)) =
      (start.ahead (jobs ++ more)).ahead last := by
    rw [← List.append_assoc, Host.ahead_append]
  have laterWhole : start.ahead (jobs ++ more ++ last) =
      (start.ahead (jobs ++ more)).ahead last := Host.ahead_append _ _ _
  have same : ∀ loaded ∈ other.1,
      (start.ahead (jobs ++ (more ++ last))).refuses loaded =
        (start.ahead (jobs ++ more)).refuses loaded := by
    intro loaded member
    refine Host.refuses_congr fun ticket isTicket => ?_
    rw [whole]
    refine Host.ahead_spares (fun job last => second.spares job last ticket (apart ticket ?_)) _
    rw [← first.own]
    exact mem_commandTicketsOf.mpr ⟨loaded, member, isTicket⟩
  have filtered : (other.1 ++ others.1).filter (start.ahead (jobs ++ (more ++ last))).refuses =
      other.1.filter (start.ahead (jobs ++ more)).refuses ++
        others.1.filter (start.ahead (jobs ++ more ++ last)).refuses := by
    rw [List.filter_append, List.filter_congr same, whole, laterWhole]
  refine ⟨?_, ?_, ?_, ?_, ?_, ?_, ?_, ?_⟩
  · refine List.rel_append (LoadedStructure.Fares.allLater first.fares same) ?_
    rw [whole, ← laterWhole]
    exact second.fares
  · intro loaded member
    simp only [List.mem_append] at member
    rcases member with (here | there) | here | there
    · exact first.builtIn loaded (List.mem_append_left _ here)
    · exact second.builtIn loaded (List.mem_append_left _ there)
    · exact first.builtIn loaded (List.mem_append_right _ here)
    · exact second.builtIn loaded (List.mem_append_right _ there)
  · rw [← first.own, ← second.own]
    exact List.filterMap_append
  · rw [filtered, commandNamesOf_append, first.those, second.those]
  · rw [filtered, List.length_append, first.count, second.count, List.length_append]
  · intro job member ticket absent
    rw [List.mem_append, not_or] at absent
    rcases List.mem_append.mp member with here | there
    · exact first.spares job here ticket absent.1
    · exact second.spares job there ticket absent.2
  · rw [← List.append_assoc, List.length_append, ← Nat.add_assoc]
    exact second.abreast
  · rw [← List.append_assoc]
    refine second.lags.mono fun ticket ⟨isFresh, absent⟩ => ?_
    rw [List.mem_append, not_or] at absent
    exact ⟨⟨isFresh, absent.1⟩, absent.2⟩

end Paired

/-! ## Loading one structure -/

/-- Preloading submits nothing. -/
theorem readied_idle (loaded : LoadedStructure) (workspace : Workspace) :
    workspace.host.Idle (readied loaded workspace).2.host := by
  unfold readied
  split
  · exact .refl workspace.host
  · obtain ⟨untouched, _⟩ := loaded.inner.preload_untouched workspace
    have quiet := conclude_quiet .preload loaded (loaded.inner.preload workspace)
    exact (Host.Idle.of_untouched untouched).trans (.of_quiet quiet)

theorem readied_abreast (loaded : LoadedStructure) (builtIn : loaded.inner.isBuiltIn = true)
    (abreast : Abreast gap refused direct deferred) :
    Workspace.Results gap refused (·.inner.isBuiltIn = true) (readied loaded direct)
      (readied loaded deferred) := by
  unfold readied
  split
  · exact .same _ builtIn abreast
  · exact preload_abreast abreast loaded builtIn

theorem readied_command? (loaded : LoadedStructure) (workspace : Workspace) :
    (readied loaded workspace).1.inner.command? = loaded.inner.command? := by
  unfold readied
  split
  · rfl
  · rw [preload_structure]
    cases loaded.inner with
    | function inner =>
      dsimp only [Structure.preload]
      split <;> rfl
    | _ => rfl

/-- A structure that has fared in the same way in both runs. -/
theorem Paired.kept {loaded : LoadedStructure} {tickets : List Nat} {more : List Job}
    (builtIn : loaded.inner.isBuiltIn = true)
    (accepted : (start.ahead (jobs ++ more)).refuses loaded = false)
    (own : commandTicketsOf [loaded] = tickets)
    (spares : ∀ job ∈ more, ∀ ticket ∉ tickets, job.Spares ticket)
    (abreast : Abreast gap refused direct deferred)
    (lags : Lags start (jobs ++ more) (fun ticket => fresh ticket ∧ ticket ∉ tickets) direct
      deferred) :
    Paired start jobs fresh gap refused tickets more [] ([loaded], direct) ([loaded], deferred) := by
  have none : [loaded].filter (start.ahead (jobs ++ more)).refuses = [] := by
    rw [List.filter_cons, accepted]
    rfl
  refine ⟨.cons (.same loaded accepted) .nil, fun other member => ?_, own, ?_, ?_, spares, ?_, lags⟩
  · rw [List.singleton_append, List.mem_pair, or_self] at member
    exact member ▸ builtIn
  · rw [none]
    rfl
  · rw [none]
    rfl
  · rw [List.append_nil]
    exact abreast

/-- Loading a structure that is no command. -/
theorem load_other (loaded : LoadedStructure) (builtIn : loaded.inner.isBuiltIn = true)
    (noCommand : loaded.inner.command? = none) (abreast : Abreast gap refused direct deferred)
    (lags : Lags start jobs fresh direct deferred) :
    Paired start jobs fresh gap refused [] [] []
      ([(load .main loaded direct).1], (load .main loaded direct).2)
      ([(load .worker loaded deferred).1], (load .worker loaded deferred).2) := by
  have prepared := readied_abreast loaded builtIn abreast
  have readyLags := lags.of_idle (readied_idle loaded direct) (readied_idle loaded deferred)
  have stillNone := (readied_command? loaded direct).trans noCommand
  rw [load_eq, load_eq]
  generalize readied loaded direct = one, readied loaded deferred = other at *
  cases prepared with
  | @same ready direct deferred builtIn abreast =>
    have phases := conclude_abreast .load ready (Structure.load_abreast abreast builtIn stillNone)
    have whole := conclude_structure .load ready (ready.inner.load .main direct)
    have idle := (ready.inner.load_idle .main direct stillNone).trans
      (.of_quiet (conclude_quiet .load ready _))
    have alsoIdle := (ready.inner.load_idle .worker deferred stillNone).trans
      (.of_quiet (conclude_quiet .load ready _))
    have after := ready.inner.load_command?_of_none .main direct stillNone
    unfold loadBody
    generalize conclude .load ready (ready.inner.load .main direct) = one,
      conclude .load ready (ready.inner.load .worker deferred) = other at *
    cases phases with
    | same success result builtIn abreast =>
      obtain rfl := whole
      refine .kept builtIn ?_ ?_ (fun _ absent => absurd absent List.not_mem_nil) abreast ?_
      · rw [Host.refuses, after, Option.any_none, Bool.and_false]
      · simp [commandTicketsOf, Structure.commandTicket?, after]
      · rw [List.append_nil]
        exact (readyLags.of_idle idle alsoIdle).mono fun _ => And.left

section

variable {loaded : LoadedStructure} {command : CommandStructure}
  (isCommand : loaded.inner = .command command)

include isCommand

/-- Preloading a command does nothing but take note of it. -/
theorem readied_command (workspace : Workspace) :
    (readied loaded workspace).1.inner = .command command ∧
      command.handsOver? (readied loaded workspace).2 = command.handsOver? workspace := by
  unfold readied
  split
  · exact ⟨isCommand, rfl⟩
  · rw [preload_structure, preload, isCommand]
    refine ⟨rfl, ?_⟩
    rw [CommandStructure.handsOver?_eq, CommandStructure.handsOver?_eq]
    rfl

theorem loadBody_of_ok {thread : Thread} {workspace after : Workspace} {result : CommandStructure}
    (loads : command.load thread workspace = (.ok result, after)) :
    loadBody thread loaded workspace = ({ loaded with inner := .command result, loaded := true },
      after.inContext (·.noteCall ⟨.load, loaded.index, true⟩)) := by
  unfold loadBody
  rw [isCommand, Structure.load, loads]
  rfl

theorem loadBody_of_error {thread : Thread} {workspace after : Workspace} {failure : Failure}
    (loads : command.load thread workspace = (.error failure, after)) :
    loadBody thread loaded workspace = ({ loaded with inner := .command command, loaded := false },
      (after.inContext (·.noteCall ⟨.load, loaded.index, false⟩)).reportAt loaded.line failure) := by
  unfold loadBody
  rw [isCommand, Structure.load, loads]
  rfl

/-- Loading a command. The deferred run has not declared a name that the direct run hands over, if
no refused name is accepted later. -/
theorem load_command (abreast : Abreast gap refused direct deferred)
    (lags : Lags start jobs fresh direct deferred) (isFresh : fresh command.ticket)
    (clear : ∀ submission ∈ submission? .main loaded direct, submission.accepted = true →
      submission.name ∉ refused) :
    ∃ more names, Paired start jobs fresh gap refused [command.ticket] more names
        ([(load .main loaded direct).1], (load .main loaded direct).2)
        ([(load .worker loaded deferred).1], (load .worker loaded deferred).2) ∧
      ∀ name ∈ names, ⟨name, false⟩ ∈ submission? .main loaded direct := by
  have builtIn : loaded.inner.isBuiltIn = true := by
    rw [isCommand]
    rfl
  have prepared := readied_abreast loaded builtIn abreast
  have readyLags := lags.of_idle (readied_idle loaded direct) (readied_idle loaded deferred)
  obtain ⟨stillCommand, hands⟩ := readied_command isCommand direct
  have submits : submission? .main loaded direct = (command.handsOver? direct).map
      (⟨·, (load .main loaded direct).1.loaded⟩) := by
    rw [submission?, isCommand]
    rfl
  rw [submits] at clear ⊢
  rw [load_eq] at clear ⊢
  rw [load_eq]
  rw [← hands] at clear ⊢
  generalize readied loaded direct = one, readied loaded deferred = other at *
  cases prepared with
  | @same ready direct deferred builtIn abreast =>
    have fares := command.load_fares abreast readyLags isFresh
    generalize command.handsOver? direct = handed at *
    generalize loads : command.load .main direct = result,
      alsoLoads : command.load .worker deferred = other at fares
    have less {more : List Job} {direct deferred : Workspace}
        (lags : Lags start more (command.others fresh) direct deferred) :
        Lags start more (fun ticket => fresh ticket ∧ ticket ∉ [command.ticket]) direct deferred :=
      lags.mono fun ticket ⟨isFresh, absent⟩ => ⟨isFresh, mt List.mem_singleton.mpr absent⟩
    have spares (loaded : Command) : ∀ job ∈ [Job.register command.ticket loaded],
        ∀ ticket ∉ [command.ticket], job.Spares ticket := by
      intro job member ticket absent
      rw [List.mem_singleton.mp member]
      exact .register _ _ fun same => absent (List.mem_singleton.mpr same.symm)
    cases fares with
    | failed failure other abreast lags =>
      rw [loadBody_of_error stillCommand loads, loadBody_of_error stillCommand alsoLoads]
      refine ⟨[], [], .kept rfl rfl rfl (fun _ absent => absurd absent List.not_mem_nil)
        ((abreast.noteCall _ _).record _ _ _ _) ?_, fun _ absent => absurd absent List.not_mem_nil⟩
      rw [List.append_nil]
      exact (less lags).of_idle (.write _ _) (.write _ _)
    | accepted found abreast lags accepted =>
      rw [loadBody_of_ok stillCommand loads, loadBody_of_ok stillCommand alsoLoads]
      refine ⟨[.register command.ticket found], [], .kept rfl ?_ rfl (spares found)
        (abreast.noteCall _ _) ((less lags).of_idle (.refl _) (.refl _)),
        fun _ absent => absurd absent List.not_mem_nil⟩
      rw [Host.ahead_append]
      exact congrArg Option.isSome accepted
    | refused failure text found abreast lags refusal hands =>
      rw [loadBody_of_error stillCommand loads, loadBody_of_ok stillCommand alsoLoads]
      have refuses : (start.ahead (jobs ++ [.register command.ticket found])).refuses
          { ready with
            inner := .command { command with name := some found.name }
            loaded := true } = true := by
        rw [Host.ahead_append]
        exact congrArg Option.isSome refusal
      have filtered := List.filter_cons_of_pos refuses (l := [])
      refine ⟨[.register command.ticket found], [found.name], ⟨.cons (.refused rfl refuses) .nil,
        ?_, rfl, ?_, ?_, spares found, (abreast.noteCall _ _).record_direct _ _,
        (less lags).of_idle (.write _ _) (.refl _)⟩, ?_⟩
      · intro loaded member
        rcases List.mem_pair.mp member with rfl | rfl <;> rfl
      · rw [filtered]
        rfl
      · rw [filtered]
        rfl
      · intro name member
        rw [List.mem_singleton.mp member, hands]
        rfl
    | hidden failure name direct deferred hides hands =>
      rw [hands, loadBody_of_ok stillCommand loads] at clear
      exact absurd hides (clear ⟨name, true⟩ rfl rfl)

end

/-- Loading one structure. -/
theorem load_paired (loaded : LoadedStructure) (builtIn : loaded.inner.isBuiltIn = true)
    (abreast : Abreast gap refused direct deferred) (lags : Lags start jobs fresh direct deferred)
    (areFresh : ∀ ticket ∈ commandTicketsOf [loaded], fresh ticket)
    (clear : ∀ submission ∈ submission? .main loaded direct, submission.accepted = true →
      submission.name ∉ refused) :
    ∃ more names, Paired start jobs fresh gap refused (commandTicketsOf [loaded]) more names
        ([(load .main loaded direct).1], (load .main loaded direct).2)
        ([(load .worker loaded deferred).1], (load .worker loaded deferred).2) ∧
      ∀ name ∈ names, ⟨name, false⟩ ∈ submission? .main loaded direct := by
  cases isCommand : loaded.inner.command? with
  | none =>
    have noTicket : commandTicketsOf [loaded] = [] := by
      simp [commandTicketsOf, Structure.commandTicket?, isCommand]
    rw [noTicket]
    exact ⟨[], [], load_other loaded builtIn isCommand abreast lags,
      fun _ absent => absurd absent List.not_mem_nil⟩
  | some command =>
    have own : commandTicketsOf [loaded] = [command.ticket] := by
      simp [commandTicketsOf, Structure.commandTicket?, isCommand]
    rw [own] at areFresh ⊢
    exact load_command (Structure.eq_command isCommand) abreast lags
      (areFresh _ (List.mem_singleton_self _)) clear

/-- Loading structures one after the other. As long as no refused name is accepted later, the host
is handed the same commands in both runs. -/
theorem each_paired (structures : List LoadedStructure)
    (builtIn : ∀ loaded ∈ structures, loaded.inner.isBuiltIn = true)
    (distinct : (commandTicketsOf structures).Nodup)
    (areFresh : ∀ ticket ∈ commandTicketsOf structures, fresh ticket)
    (abreast : Abreast gap refused direct deferred) (lags : Lags start jobs fresh direct deferred)
    (forGood : RefusedForGood (submissions .main structures direct))
    (clear : ∀ submission ∈ submissions .main structures direct, submission.accepted = true →
      submission.name ∉ refused) :
    ∃ more names, Paired start jobs fresh gap refused (commandTicketsOf structures) more names
      (each (load .main) structures direct) (each (load .worker) structures deferred) := by
  induction structures generalizing jobs fresh gap refused direct deferred with
  | nil => exact ⟨[], [], .nil abreast lags⟩
  | cons first others ih =>
    have tickets : commandTicketsOf (first :: others) =
        commandTicketsOf [first] ++ commandTicketsOf others :=
      List.filterMap_append (l := [first])
    rw [tickets] at distinct areFresh ⊢
    obtain ⟨_, restDistinct, apart⟩ := List.nodup_append.mp distinct
    obtain ⟨_, restForGood, later⟩ := List.pairwise_append.mp forGood
    obtain ⟨more, names, one, refusals⟩ := load_paired first (builtIn first List.mem_cons_self)
      abreast lags (fun ticket member => areFresh ticket (List.mem_append_left _ member))
      fun submission member => clear submission
        (List.mem_append_left _ (Option.mem_toList.mpr member))
    obtain ⟨last, final, rest⟩ := ih
      (fun loaded member => builtIn loaded (List.mem_cons_of_mem _ member)) restDistinct
      (fun ticket member => ⟨areFresh ticket (List.mem_append_right _ member),
        fun own => apart ticket own ticket member rfl⟩)
      one.abreast one.lags restForGood (by
        intro submission member accepted there
        rcases List.mem_append.mp there with old | new
        · exact clear submission (List.mem_append_right _ member) accepted old
        · have refusal := Option.mem_toList.mpr (refusals _ new)
          rw [later _ refusal submission member rfl rfl] at accepted
          cases accepted)
    exact ⟨_, _, one.append rest fun ticket own there => apart ticket own ticket there rfl⟩

end Loading

end ScriptBinding

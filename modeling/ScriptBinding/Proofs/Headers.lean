import ScriptBinding.Proofs.Claiming
import ScriptBinding.Proofs.MainThreadLoading

/-! # Taking headers

Every structure of a script is made under a ticket of its own. What taking the headers of a script
leaves is a list of structures, and triggers that wait: one for each event, in the order in which
the events have taken their headers.
-/

namespace ScriptBinding

/-- What the first descriptor that matches a header says about events. -/
def Registry.eventInfo? (registry : Registry) (key : String) : Option EventInfo :=
  (registry.match? key).bind (·.1.event)

/-- A new structure holds on to the host by the ticket it is made with, if at all, it has declared
nothing, and only possible filters can take its header. -/
structure Descriptor.MakesOwn (Possible : EventFilter → Prop) (descriptor : Descriptor) :
    Prop where
  ticket : ∀ ticket, ∀ own ∈ (descriptor.create ticket).ticket?, own = ticket
  declares : ∀ ticket script, (descriptor.create ticket).DeclaresIn script
  filters : ∀ ticket, ∀ event ∈ (descriptor.create ticket).event?, ∀ filter ∈ event.unused,
    ∀ header, Possible (filter.start header).2.1

/-- Every descriptor of a registry makes structures with their own tickets. -/
def Registry.MakesOwn (Possible : EventFilter → Prop) (registry : Registry) : Prop :=
  ∀ descriptor ∈ registry.all, descriptor.MakesOwn Possible

/-- A draft is that of an event structure. -/
structure DraftOf (Possible : EventFilter → Prop) (registry : Registry) (loaded : LoadedStructure)
    (event : EventStructure) (draft : TriggerDraft) : Prop where
  isEvent : loaded.inner.event? = some event
  ticket : draft.ticket = event.ticket
  filter : event.filter = some draft.filter
  priority : draft.priority = event.priority
  line : draft.line = loaded.line
  info : registry.eventInfo? loaded.key = some draft.info
  possible : Possible draft.filter

/-- The triggers that wait for some structures: one for each event whose filter loads bodies. -/
inductive Waits (Possible : EventFilter → Prop) (registry : Registry) :
    List LoadedStructure → List TriggerDraft → Prop
  | nil : Waits Possible registry [] []
  | pass {loaded : LoadedStructure} {others : List LoadedStructure} {drafts : List TriggerDraft}
      (idle : loaded.inner.event? = none ∨ ∃ filter, Possible filter ∧ filter.loads = false)
      (rest : Waits Possible registry others drafts) :
      Waits Possible registry (loaded :: others) drafts
  | wait {loaded : LoadedStructure} {event : EventStructure} {draft : TriggerDraft}
      {others : List LoadedStructure} {drafts : List TriggerDraft}
      (draftOf : DraftOf Possible registry loaded event draft)
      (rest : Waits Possible registry others drafts) :
      Waits Possible registry (loaded :: others) (draft :: drafts)

variable {Possible : EventFilter → Prop} {registry : Registry}

theorem Waits.append {structures others : List LoadedStructure} {drafts later : List TriggerDraft}
    (first : Waits Possible registry structures drafts)
    (second : Waits Possible registry others later) :
    Waits Possible registry (structures ++ others) (drafts ++ later) := by
  induction first with
  | nil => exact second
  | pass idle _ ih => exact .pass idle ih
  | wait draftOf _ ih => exact .wait draftOf ih

/-- Only events wait, each under its own ticket. -/
theorem Waits.mem_tickets {structures : List LoadedStructure} {drafts : List TriggerDraft}
    (waits : Waits Possible registry structures drafts) :
    ∀ draft ∈ drafts, ∃ loaded ∈ structures, ∃ event,
      DraftOf Possible registry loaded event draft := by
  induction waits with
  | nil => exact fun _ member => absurd member List.not_mem_nil
  | pass _ _ ih =>
    intro draft member
    obtain ⟨loaded, there, found⟩ := ih draft member
    exact ⟨loaded, List.mem_cons_of_mem _ there, found⟩
  | @wait loaded event _ _ _ draftOf _ ih =>
    intro draft member
    rcases List.mem_cons.mp member with rfl | later
    · exact ⟨loaded, List.mem_cons_self, event, draftOf⟩
    · obtain ⟨loaded, there, found⟩ := ih draft later
      exact ⟨loaded, List.mem_cons_of_mem _ there, found⟩

theorem Waits.tickets {structures : List LoadedStructure} {drafts : List TriggerDraft}
    (waits : Waits Possible registry structures drafts) :
    (drafts.map TriggerDraft.ticket).Sublist (ticketsOf structures) := by
  induction waits with
  | nil => exact .slnil
  | @pass loaded others _ _ _ ih =>
    exact ih.trans ((List.sublist_cons_self loaded others).filterMap _)
  | @wait loaded event draft _ _ draftOf _ ih =>
    have own := Structure.ticket?_of_event? draftOf.isEvent
    rw [List.map_cons, ticketsOf, List.filterMap_cons, own, draftOf.ticket]
    exact ih.cons_cons _

theorem DraftOf.of_kind {loaded other : LoadedStructure} {event : EventStructure}
    {draft : TriggerDraft} (same : other.kind = loaded.kind)
    (draftOf : DraftOf Possible registry loaded event draft) :
    DraftOf Possible registry other event draft := by
  obtain ⟨isEvent, ticket, filter, priority, line, info, possible⟩ := draftOf
  simp only [LoadedStructure.kind, Prod.mk.injEq] at same
  obtain ⟨_, key, sameLine, _, _, event?⟩ := same
  exact ⟨event?.trans isEvent, ticket, filter, priority, line.trans sameLine.symm,
    key ▸ info, possible⟩

/-- Whether triggers wait for structures depends on what loading does not change of them. -/
theorem Waits.of_kinds {structures others : List LoadedStructure} {drafts : List TriggerDraft}
    (kinds : others.map LoadedStructure.kind = structures.map LoadedStructure.kind)
    (waits : Waits Possible registry structures drafts) : Waits Possible registry others drafts := by
  induction waits generalizing others with
  | nil =>
    rw [List.map_eq_nil_iff.mp kinds]
    exact .nil
  | @pass loaded _ _ idle _ ih =>
    obtain ⟨other, rest, rfl, same, sameRest⟩ := List.map_eq_cons_iff.mp kinds
    refine .pass (idle.imp_left fun noEvent => ?_) (ih sameRest)
    simp only [LoadedStructure.kind, Prod.mk.injEq] at same
    exact same.2.2.2.2.2.trans noEvent
  | wait draftOf _ ih =>
    obtain ⟨other, rest, rfl, same, sameRest⟩ := List.map_eq_cons_iff.mp kinds
    exact .wait (draftOf.of_kind same) (ih sameRest)

namespace Loading

/-! ## First matches -/

theorem claim_match? {descriptor : Descriptor} {sections : List TopSection} :
    ∀ assignment ∈ (claim descriptor sections).1, assignment.descriptor = descriptor ∧
      descriptor.match? assignment.top.body.key = some assignment.header := by
  induction sections with
  | nil => exact fun _ member => absurd member List.not_mem_nil
  | cons top others ih =>
    intro assignment member
    unfold claim at member
    cases found : descriptor.match? top.body.key with
    | none =>
      simp only [found] at member
      exact ih assignment member
    | some header =>
      simp only [found] at member
      rcases List.mem_cons.mp member with rfl | later
      · exact ⟨rfl, found⟩
      · exact ih assignment later

theorem claimAll_top_mem {descriptors : List Descriptor} {sections : List TopSection} :
    ∀ assignment ∈ (claimAll descriptors sections).1, assignment.top ∈ sections := by
  induction descriptors generalizing sections with
  | nil => exact fun _ member => absurd member List.not_mem_nil
  | cons descriptor others ih =>
    obtain ⟨taken, left⟩ := claim_eq descriptor sections
    intro assignment member
    rcases List.mem_append.mp member with here | later
    · have top := List.mem_map_of_mem (f := (·.top)) here
      rw [taken] at top
      exact (List.mem_filter.mp top).1
    · have top := ih assignment later
      rw [left] at top
      exact (List.mem_filter.mp top).1

/-- A section is claimed by the first descriptor that matches its header. -/
theorem claimAll_first? {descriptors : List Descriptor} {sections : List TopSection} :
    ∀ assignment ∈ (claimAll descriptors sections).1,
      Descriptor.first? assignment.top.body.key descriptors =
        some (assignment.descriptor, assignment.header) := by
  induction descriptors generalizing sections with
  | nil => exact fun _ member => absurd member List.not_mem_nil
  | cons descriptor others ih =>
    intro assignment member
    rcases List.mem_append.mp member with here | later
    · obtain ⟨rfl, found⟩ := claim_match? assignment here
      simp only [Descriptor.first?, found]
    · have left := claimAll_top_mem assignment later
      rw [(claim_eq descriptor sections).2] at left
      have unmatched : descriptor.match? assignment.top.body.key = none := by
        have refused := (List.mem_filter.mp left).2
        simpa [Descriptor.takes] using refused
      simp only [Descriptor.first?, unmatched]
      exact ih assignment later

theorem first?_append (header : String) (descriptors others : List Descriptor) :
    Descriptor.first? header (descriptors ++ others) =
      (Descriptor.first? header descriptors).or (Descriptor.first? header others) := by
  induction descriptors with
  | nil => rfl
  | cons descriptor rest ih =>
    rw [List.cons_append, Descriptor.first?, Descriptor.first?]
    split
    · rfl
    · exact ih

theorem first?_mem {header : String} {descriptors : List Descriptor} {descriptor : Descriptor}
    {result : MatchResult} (found : Descriptor.first? header descriptors = some (descriptor, result)) :
    descriptor ∈ descriptors := by
  induction descriptors with
  | nil => cases found
  | cons first others ih =>
    unfold Descriptor.first? at found
    split at found
    · cases Option.some.inj found
      exact List.mem_cons_self
    · exact List.mem_cons_of_mem _ (ih found)

/-- Sections that are claimed go to the first descriptor of the registry that matches. -/
theorem match?_of_claimed (registry : Registry) (sections : List TopSection) :
    ∀ assignment ∈ (claimAll registry.preloading sections).1,
      registry.match? assignment.top.body.key =
        some (assignment.descriptor, assignment.header) := by
  intro assignment member
  rw [Registry.match?, Registry.all, first?_append, claimAll_first? assignment member]
  rfl

/-- Sections that are left go to the first descriptor of the registry that matches, too. -/
theorem match?_of_left (registry : Registry) (sections : List TopSection)
    {top : TopSection} (left : top ∈ (claimAll registry.preloading sections).2)
    {assignment : Assignment} (found : assign? registry.normal top = some assignment) :
    registry.match? assignment.top.body.key =
      some (assignment.descriptor, assignment.header) := by
  have unclaimed : Descriptor.first? top.body.key registry.preloading = none := by
    rw [← Option.not_isSome_iff_eq_none, first?_isSome]
    rw [claimAll_left] at left
    have refused := (List.mem_filter.mp left).2
    rw [List.all_eq_true] at refused
    intro some
    obtain ⟨descriptor, member, takes⟩ := List.any_eq_true.mp some
    have no := refused descriptor member
    rw [Descriptor.takes, takes] at no
    cases no
  rw [assign?_top found]
  unfold assign? at found
  obtain ⟨⟨descriptor, header⟩, first, rfl⟩ := Option.map_eq_some_iff.mp found
  rw [Registry.match?, Registry.all, first?_append, unclaimed, first]
  rfl

/-! ## Passes -/

/-- What taking headers leaves: structures with tickets of their own, and triggers that wait. -/
structure HeaderPass (Possible : EventFilter → Prop) (registry : Registry) (script : Script)
    (before : Workspace) (results : List LoadedStructure) (after : Workspace) : Prop where
  config : after.host.config = before.host.config
  classes : after.host.classes = before.host.classes
  bus : after.host.bus = before.host.bus
  commands : after.host.commands = before.host.commands
  queue : after.host.queue = before.host.queue
  bound : after.host.bound = before.host.bound
  registrations : after.host.registrations = before.host.registrations
  current : after.context.script = before.context.script
  later : before.host.nextTicket ≤ after.host.nextTicket
  fresh : ∀ ticket ∈ ticketsOf results,
    before.host.nextTicket ≤ ticket ∧ ticket < after.host.nextTicket
  distinct : (ticketsOf results).Nodup
  declares : ∀ loaded ∈ results, loaded.inner.DeclaresIn script
  unloaded : ∀ loaded ∈ results, loaded.loaded = false
  functions : FunctionTable.GrownBy script before.host.functions after.host.functions
  waiting : ∃ drafts, after.context.currentDrafts = before.context.currentDrafts ++ drafts ∧
    Waits Possible registry results drafts

variable {script : Script}

theorem HeaderPass.append {before between after : Workspace} {first second : List LoadedStructure}
    (one : HeaderPass Possible registry script before first between)
    (two : HeaderPass Possible registry script between second after) :
    HeaderPass Possible registry script before (first ++ second) after where
  config := two.config.trans one.config
  classes := two.classes.trans one.classes
  bus := two.bus.trans one.bus
  commands := two.commands.trans one.commands
  queue := two.queue.trans one.queue
  bound := two.bound.trans one.bound
  registrations := two.registrations.trans one.registrations
  current := two.current.trans one.current
  later := one.later.trans two.later
  fresh := by
    intro ticket member
    rw [ticketsOf, List.filterMap_append] at member
    rcases List.mem_append.mp member with here | there
    · exact ⟨(one.fresh ticket here).1, (one.fresh ticket here).2.trans_le two.later⟩
    · exact ⟨one.later.trans (two.fresh ticket there).1, (two.fresh ticket there).2⟩
  distinct := by
    rw [ticketsOf, List.filterMap_append]
    refine List.nodup_append.mpr ⟨one.distinct, two.distinct, ?_⟩
    rintro ticket here _ there rfl
    exact Nat.lt_irrefl _ ((one.fresh ticket here).2.trans_le (two.fresh ticket there).1)
  declares := fun loaded member => (List.mem_append.mp member).elim (one.declares loaded)
    (two.declares loaded)
  unloaded := fun loaded member => (List.mem_append.mp member).elim (one.unloaded loaded)
    (two.unloaded loaded)
  functions := one.functions.trans two.functions
  waiting := by
    obtain ⟨drafts, same, waits⟩ := one.waiting
    obtain ⟨later, sameLater, waitsLater⟩ := two.waiting
    exact ⟨drafts ++ later, by rw [sameLater, same, List.append_assoc], waits.append waitsLater⟩

/-- A pass in which nothing takes a header. -/
theorem HeaderPass.of_quiet {before after : Workspace} (quiet : before.Quiet after) :
    HeaderPass Possible registry script before [] after where
  config := quiet.steady.config
  classes := quiet.steady.classes
  bus := quiet.steady.bus
  commands := quiet.commands
  queue := quiet.queue
  bound := quiet.steady.bound
  registrations := quiet.registrations
  current := quiet.steady.script
  later := quiet.steady.nextTicket.ge
  fresh := fun _ member => absurd member List.not_mem_nil
  distinct := List.nodup_nil
  declares := fun _ member => absurd member List.not_mem_nil
  unloaded := fun _ member => absurd member List.not_mem_nil
  functions := quiet.functions ▸ .refl _
  waiting := ⟨[], by
    rw [Context.currentDrafts, Context.currentDrafts, quiet.steady.drafts, List.append_nil], .nil⟩

/-- What is left of items that may leave nothing comes from the first and from the others. -/
theorem each_cons_reduceOption {α : Type}
    (act : α → Workspace → Option LoadedStructure × Workspace) (item : α) (others : List α)
    (workspace : Workspace) :
    (each act (item :: others) workspace).1.reduceOption = (act item workspace).1.toList ++
      (each act others (act item workspace).2).1.reduceOption := by
  change ((act item workspace).1 :: (each act others (act item workspace).2).1).reduceOption = _
  cases (act item workspace).1 <;> rfl

theorem each_headers {α : Type} (act : α → Workspace → Option LoadedStructure × Workspace)
    (items : List α) (workspace : Workspace) (current : workspace.context.script = some script)
    (one : ∀ item ∈ items, ∀ before : Workspace, before.context.script = some script →
      HeaderPass Possible registry script before (act item before).1.toList (act item before).2) :
    HeaderPass Possible registry script workspace (each act items workspace).1.reduceOption
      (each act items workspace).2 := by
  induction items generalizing workspace with
  | nil => exact .of_quiet (.refl workspace)
  | cons item others ih =>
    have first := one item List.mem_cons_self workspace current
    have rest := ih (act item workspace).2 (first.current.trans current)
      fun other member => one other (List.mem_cons_of_mem _ member)
    rw [each_cons_reduceOption]
    exact first.append rest

/-! ## One structure -/

theorem init_ticket? (header : MatchResult) (body : Section) (workspace : Workspace)
    (inner : Structure) :
    (inner.init header body workspace).2.1.ticket? = inner.ticket? := by
  cases inner with
  | event event =>
    have takes : EventStructure.Takes (fun _ => True) event body workspace _ :=
      event.init_takes header body workspace fun _ _ _ => trivial
    dsimp only [Structure.init]
    generalize event.init header body workspace = taken at *
    cases takes with
    | nothing _ _ _ _ sameTicket _ => exact congrArg some sameTicket
    | waits _ _ _ _ _ _ _ sameTicket _ _ _ _ => exact congrArg some sameTicket
  | function function =>
    dsimp only [Structure.init]
    split <;> rfl
  | command command =>
    have same (after : CommandStructure) (ok : command.init header body = .ok after) :
        after.ticket = command.ticket := by
      unfold CommandStructure.init at ok
      split at ok
      · cases Except.ok.inj ok
        rfl
      · cases ok
    dsimp only [Structure.init]
    split
    · next after ok => exact congrArg some (same after ok)
    · rfl
  | options options => rfl
  | aliases => rfl
  | defaults defaults => rfl
  | custom inner => rfl

theorem init_declares (header : MatchResult) (body : Section) (workspace : Workspace)
    (inner : Structure) (declares : inner.DeclaresIn script) :
    (inner.init header body workspace).2.1.DeclaresIn script := by
  cases inner with
  | function function =>
    dsimp only [Structure.init]
    split
    · next after ok =>
      unfold FunctionStructure.init at ok
      split at ok
      · cases Except.ok.inj ok
        exact declares
      · cases ok
    · exact declares
  | command command =>
    dsimp only [Structure.init]
    split <;> trivial
  | options options => trivial
  | aliases => trivial
  | defaults defaults => trivial
  | event event => trivial
  | custom inner => trivial

theorem init_event? (header : MatchResult) (body : Section) (workspace : Workspace)
    (inner : Structure) (noEvent : inner.event? = none) :
    (inner.init header body workspace).2.1.event? = none := by
  cases inner with
  | event event => cases noEvent
  | function function =>
    dsimp only [Structure.init]
    split <;> rfl
  | command command =>
    dsimp only [Structure.init]
    split <;> rfl
  | options options => rfl
  | aliases => rfl
  | defaults defaults => rfl
  | custom inner => rfl

/-- What taking a header leaves: nothing to wait for, or a draft of the event in hand. -/
theorem init_waits (header : MatchResult) (body : Section) (workspace : Workspace)
    (inner : Structure)
    (possible : ∀ event ∈ inner.event?, ∀ filter ∈ event.unused, ∀ header,
      Possible (filter.start header).2.1) :
    let result := inner.init header body workspace
    (workspace.Still result.2.2 ∧ (result.1 = .done true →
        result.2.1.event? = none ∨ ∃ filter, Possible filter ∧ filter.loads = false)) ∨
      ∃ event draft, result.1 = .done true ∧ result.2.1.event? = some event ∧
        (workspace.inContext (·.addDraft draft)).Still result.2.2 ∧
        draft.ticket = event.ticket ∧ event.filter = some draft.filter ∧
        draft.priority = event.priority ∧ draft.line = body.line ∧
        ((workspace.context.sectionInHand.getD {}).info.bind (·.event)) = some draft.info ∧
        Possible draft.filter := by
  intro result
  by_cases isEvent : ∃ event, inner = .event event
  · obtain ⟨event, rfl⟩ := isEvent
    have takes : EventStructure.Takes Possible event body workspace _ :=
      event.init_takes header body workspace (possible event rfl)
    have same : result = (.ofExcept (event.init header body workspace).1,
        .event (event.init header body workspace).2.1, (event.init header body workspace).2.2) := rfl
    rw [same]
    generalize event.init header body workspace = taken at *
    cases takes with
    | nothing outcome taken after still sameTicket idle =>
      refine Or.inl ⟨still, fun done => Or.inr (idle ?_)⟩
      cases outcome with
      | error failure => cases done
      | ok value =>
        cases done
        rfl
    | waits info filter items priority taken after still sameTicket sameFilter samePriority inHand
        possible =>
      exact Or.inr ⟨taken, _, rfl, rfl, still, sameTicket.symm, sameFilter, samePriority.symm, rfl,
        inHand, possible⟩
  · have noEvent : inner.event? = none := by
      cases inner with
      | event event => exact absurd ⟨event, rfl⟩ isEvent
      | _ => rfl
    exact Or.inl ⟨inner.init_still header body workspace fun event same => isEvent ⟨event, same⟩,
      fun _ => Or.inl (init_event? header body workspace inner noEvent)⟩

/-- A new ticket is handed out, and the section is in hand. -/
def inHand (assignment : Assignment) (workspace : Workspace) : Workspace where
  host := { workspace.host with nextTicket := workspace.host.nextTicket + 1 }
  context := workspace.context.takeInHand assignment.top.body
    assignment.descriptor.toStructureInfo

theorem takeHeader_eq (assignment : Assignment) (workspace : Workspace) :
    takeHeader assignment workspace =
      let result := (assignment.descriptor.create workspace.host.nextTicket).init assignment.header
        assignment.top.body (inHand assignment workspace)
      (result.1, result.2.1, result.2.2.inContext (·.takeInHand none none)) := rfl

/-- What taking a header leaves, whether the structure is kept or not. -/
theorem HeaderPass.of_taken {assignment : Assignment} {workspace after : Workspace}
    {result : Option LoadedStructure} (drafts : List TriggerDraft)
    (untouched : (inHand assignment workspace).Untouched after)
    (functions : after.host.functions = workspace.host.functions)
    (waiting : after.context.currentDrafts = workspace.context.currentDrafts ++ drafts)
    (waits : Waits Possible registry result.toList drafts)
    (ticket : ∀ loaded ∈ result, ∀ own ∈ loaded.inner.ticket?, own = workspace.host.nextTicket)
    (declares : ∀ loaded ∈ result, loaded.inner.DeclaresIn script)
    (unloaded : ∀ loaded ∈ result, loaded.loaded = false) :
    HeaderPass Possible registry script workspace result.toList after where
  config := untouched.config
  classes := untouched.classes
  bus := untouched.bus
  commands := untouched.commands
  queue := untouched.queue
  bound := untouched.bound
  registrations := untouched.registrations
  current := untouched.script
  later := by
    rw [untouched.nextTicket]
    exact Nat.le_succ _
  fresh := by
    intro own member
    obtain ⟨loaded, there, found⟩ := mem_ticketsOf.mp member
    have same := ticket loaded (Option.mem_toList.mp there) own found
    rw [untouched.nextTicket, same]
    exact ⟨Nat.le_refl _, Nat.lt_succ_self _⟩
  distinct := by
    have one : ticketsOf result.toList = (result.bind (·.inner.ticket?)).toList := by
      cases result with
      | none => rfl
      | some loaded => cases found : loaded.inner.ticket? <;> simp [ticketsOf, found]
    rw [one]
    cases result.bind (·.inner.ticket?) with
    | none => exact List.nodup_nil
    | some own => exact List.nodup_singleton own
  declares := fun loaded member => declares loaded (Option.mem_toList.mp member)
  unloaded := fun loaded member => unloaded loaded (Option.mem_toList.mp member)
  functions := functions ▸ .refl _
  waiting := ⟨drafts, waiting, waits⟩

/-- A header that is not taken leaves nothing that waits. -/
theorem HeaderPass.of_dropped {assignment : Assignment} {workspace after : Workspace}
    (untouched : (inHand assignment workspace).Untouched after)
    (still : (inHand assignment workspace).Still after) :
    HeaderPass Possible registry script workspace [] after := by
  have none {Meets : LoadedStructure → Prop} : ∀ loaded ∈ none, Meets loaded :=
    fun _ member => absurd member (Option.not_mem_none _)
  refine HeaderPass.of_taken [] untouched still.functions ?_ .nil none none none
  rw [Context.currentDrafts, still.drafts, List.append_nil]
  rfl

/-- A header that is taken leaves one structure. -/
theorem HeaderPass.of_kept {assignment : Assignment} {workspace after : Workspace}
    {loaded : LoadedStructure} (drafts : List TriggerDraft)
    (untouched : (inHand assignment workspace).Untouched after)
    (functions : after.host.functions = workspace.host.functions)
    (waiting : after.context.currentDrafts = workspace.context.currentDrafts ++ drafts)
    (waits : Waits Possible registry [loaded] drafts)
    (ticket : ∀ own ∈ loaded.inner.ticket?, own = workspace.host.nextTicket)
    (declares : loaded.inner.DeclaresIn script) (unloaded : loaded.loaded = false) :
    HeaderPass Possible registry script workspace [loaded] after := by
  have every {Meets : LoadedStructure → Prop} (meets : Meets loaded) :
      ∀ other ∈ some loaded, Meets other :=
    fun _ member => Option.mem_some_iff.mp member ▸ meets
  exact HeaderPass.of_taken drafts untouched functions waiting waits (every ticket)
    (every declares) (every unloaded)

theorem HeaderPass.quiet {before between after : Workspace} {results : List LoadedStructure}
    (pass : HeaderPass Possible registry script before results between)
    (quiet : between.Quiet after) :
    HeaderPass Possible registry script before results after := by
  have whole := pass.append (.of_quiet quiet)
  rwa [List.append_nil] at whole

/-- Taking one header. -/
theorem initialise_pass {assignment : Assignment} {workspace : Workspace}
    (makes : assignment.descriptor.MakesOwn Possible)
    (matched : registry.match? assignment.top.body.key =
      some (assignment.descriptor, assignment.header)) :
    HeaderPass Possible registry script workspace (initialise assignment workspace).1.toList
      (initialise assignment workspace).2 := by
  let inner := assignment.descriptor.create workspace.host.nextTicket
  have untouched := inner.init_untouched assignment.header assignment.top.body
    (inHand assignment workspace)
  have waits := init_waits assignment.header assignment.top.body (inHand assignment workspace)
    inner (makes.filters _)
  have ticket := init_ticket? assignment.header assignment.top.body
    (inHand assignment workspace) inner
  have declares := init_declares assignment.header assignment.top.body
    (inHand assignment workspace) inner (makes.declares workspace.host.nextTicket script)
  unfold initialise
  rw [takeHeader_eq, show assignment.descriptor.create workspace.host.nextTicket = inner from rfl]
  generalize inner.init assignment.header assignment.top.body (inHand assignment workspace) =
    result at *
  obtain ⟨outcome, after, final⟩ := result
  simp only at untouched waits ticket declares ⊢
  have left (call : PhaseCall) : final.Quiet
      ((final.inContext (·.takeInHand none none)).inContext (·.noteCall call)) := by
    refine ⟨?_, rfl, rfl, rfl, rfl⟩
    constructor <;> rfl
  -- a structure that is not kept has left nothing that waits
  have dropped (isNot : outcome ≠ .done true) :
      HeaderPass Possible registry script workspace [] final := by
    rcases waits with ⟨still, _⟩ | ⟨_, _, done, _⟩
    · exact .of_dropped untouched still
    · exact absurd done isNot
  split
  · next guarded =>
    have isDone : outcome = .done true := by
      cases outcome with
      | done value => cases Except.ok.inj guarded; rfl
      | failed failure => cases guarded
      | crashed message => cases guarded
    refine HeaderPass.quiet ?_ (left _)
    let loaded : LoadedStructure := ⟨after, assignment.top.body.key, assignment.top.body.line,
      assignment.top.index, after.priority, false, false⟩
    have own : ∀ own ∈ loaded.inner.ticket?, own = workspace.host.nextTicket :=
      fun own found => makes.ticket _ own (ticket ▸ found)
    rcases waits with ⟨still, idle⟩ | ⟨event, draft, _, isEvent, still, same⟩
    · refine HeaderPass.of_kept [] untouched still.functions ?_ (.pass (idle isDone) .nil) own
        declares rfl
      rw [Context.currentDrafts, still.drafts, List.append_nil]
      rfl
    · obtain ⟨sameTicket, filter, priority, line, info, possible⟩ := same
      have draftOf : DraftOf Possible registry loaded event draft := by
        refine ⟨isEvent, sameTicket, filter, priority, line, ?_, possible⟩
        rw [Registry.eventInfo?, matched]
        exact info
      refine HeaderPass.of_kept [draft] untouched still.functions ?_ (.wait draftOf .nil) own
        declares rfl
      rw [Context.currentDrafts, still.drafts]
      rfl
  · next guarded =>
    have isNot : outcome ≠ .done true := by
      rintro rfl
      cases guarded
    exact (dropped isNot).quiet ((left _).trans (.of_still (.report _ _)))
  · next guarded =>
    have isNot : outcome ≠ .done true := by
      rintro rfl
      cases guarded
    exact (dropped isNot).quiet ((left _).trans (.of_still (.reportAt _ _ _)))

/-! ## All structures of a script -/

theorem HeaderPass.preload {loaded result : LoadedStructure} {before between after : Workspace}
    (pass : HeaderPass Possible registry script before [loaded] between)
    (preloads : PreloadPass script loaded between result after) :
    HeaderPass Possible registry script before [result] after := by
  have kinds : [result].map LoadedStructure.kind = [loaded].map LoadedStructure.kind := by
    rw [List.map_singleton, List.map_singleton, preloads.kind]
  have tickets : ticketsOf [result] = ticketsOf [loaded] := ticketsOf_of_kinds kinds
  have steady := preloads.steady
  refine ⟨steady.config.trans pass.config, steady.classes.trans pass.classes,
    steady.bus.trans pass.bus, preloads.commands.trans pass.commands,
    preloads.queue.trans pass.queue, steady.bound.trans pass.bound,
    preloads.registrations.trans pass.registrations, steady.script.trans pass.current,
    pass.later.trans_eq steady.nextTicket.symm, ?_, tickets ▸ pass.distinct, ?_, ?_,
    pass.functions.trans preloads.functions, ?_⟩
  · rw [tickets, steady.nextTicket]
    exact pass.fresh
  · intro other member
    rw [List.mem_singleton.mp member]
    exact preloads.declares
  · intro other member
    rw [List.mem_singleton.mp member, preloads.unloaded]
    exact pass.unloaded loaded List.mem_cons_self
  · obtain ⟨drafts, same, waits⟩ := pass.waiting
    refine ⟨drafts, ?_, waits.of_kinds kinds⟩
    rw [← same, Context.currentDrafts, Context.currentDrafts, steady.drafts]

theorem initialisePreloading_pass {assignment : Assignment} {workspace : Workspace}
    (makes : assignment.descriptor.MakesOwn Possible)
    (matched : registry.match? assignment.top.body.key =
      some (assignment.descriptor, assignment.header))
    (current : workspace.context.script = some script) :
    HeaderPass Possible registry script workspace
      (initialisePreloading assignment workspace).1.toList
      (initialisePreloading assignment workspace).2 := by
  have pass : HeaderPass Possible registry script workspace
      (initialise assignment workspace).1.toList (initialise assignment workspace).2 :=
    initialise_pass makes matched
  unfold initialisePreloading
  generalize initialise assignment workspace = initialised at *
  obtain ⟨result, between⟩ := initialised
  cases result with
  | none => exact pass
  | some loaded =>
    have declares := pass.declares loaded List.mem_cons_self
    exact pass.preload (preload_pass loaded (pass.current.trans current) declares)

theorem initialiseNormal_pass {descriptors : List Descriptor} {top : TopSection}
    {workspace : Workspace}
    (makes : ∀ descriptor ∈ descriptors, descriptor.MakesOwn Possible)
    (matched : ∀ assignment, assign? descriptors top = some assignment →
      registry.match? assignment.top.body.key =
        some (assignment.descriptor, assignment.header)) :
    HeaderPass Possible registry script workspace
      (initialiseNormal descriptors top workspace).1.toList
      (initialiseNormal descriptors top workspace).2 := by
  unfold initialiseNormal
  cases found : assign? descriptors top with
  | none => exact .of_quiet (.of_still (.report _ workspace))
  | some assignment =>
    refine initialise_pass (makes _ ?_) (matched assignment found)
    obtain ⟨⟨descriptor, header⟩, first, rfl⟩ := Option.map_eq_some_iff.mp found
    exact first?_mem first

theorem reportPlain_still (nodes : List Node) (workspace : Workspace) :
    workspace.Still (reportPlain nodes workspace) := by
  unfold reportPlain
  induction nodes generalizing workspace with
  | nil => exact .refl workspace
  | cons node others ih =>
    rw [List.foldl_cons]
    refine Workspace.Still.trans ?_ (ih _)
    split
    · exact .refl workspace
    · exact .report _ workspace

/-- Every section of a script takes its header, and the structures are put in order. -/
theorem initialiseAll_pass {workspace : Workspace} (nodes : List Node)
    (makes : registry.MakesOwn Possible) (current : workspace.context.script = some script) :
    ∃ results, (initialiseAll registry nodes workspace).1.Perm results ∧
      HeaderPass Possible registry script workspace results
        (initialiseAll registry nodes workspace).2 := by
  have plain := reportPlain_still nodes workspace
  let claimed := claimAll registry.preloading (topSections 0 nodes)
  let start := reportPlain nodes workspace
  have early : HeaderPass Possible registry script start
      (each initialisePreloading claimed.1 start).1.reduceOption
      (each initialisePreloading claimed.1 start).2 := by
    refine each_headers _ _ _ (plain.untouched.script.trans current) ?_
    intro assignment member before current
    have matched := match?_of_claimed registry (topSections 0 nodes) assignment member
    exact initialisePreloading_pass (makes _ (first?_mem matched)) matched current
  let middle := (each initialisePreloading claimed.1 start).2
  have late : HeaderPass Possible registry script middle
      (each (initialiseNormal registry.normal) claimed.2 middle).1.reduceOption
      (each (initialiseNormal registry.normal) claimed.2 middle).2 := by
    refine each_headers _ _ _ (early.current.trans (plain.untouched.script.trans current)) ?_
    intro top left before _
    refine initialiseNormal_pass ?_ fun assignment found => match?_of_left registry _ left found
    exact fun descriptor member => makes descriptor (List.mem_append_right _ member)
  refine ⟨_, List.mergeSort_perm _ _, ?_⟩
  rw [List.reduceOption_append]
  exact (HeaderPass.of_quiet (.of_still plain)).append (early.append late)

end Loading

end ScriptBinding

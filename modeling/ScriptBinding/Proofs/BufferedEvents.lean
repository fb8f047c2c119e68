import ScriptBinding.Proofs.BindingHistory
import ScriptBinding.Proofs.StandardStructures

/-! # The events that a load buffers

The sections of a script take their headers one after the other, and nothing but the section of an
event that takes its header lets a trigger wait. Such a section lets one trigger wait, behind those
of the sections before it.
-/

namespace ScriptBinding

/-- New events hold on to the host by the ticket they are made with, and have no priority. -/
def Descriptor.MakesNewEvents (descriptor : Descriptor) : Prop :=
  ∀ ticket event, descriptor.create ticket = .event event →
    event.ticket = ticket ∧ event.priority = none

/-- Every descriptor of a registry makes new events. -/
def Registry.MakesNewEvents (registry : Registry) : Prop :=
  ∀ descriptor ∈ registry.all, descriptor.MakesNewEvents

/-- The events that every host has are made new. -/
theorem Registry.standard_makesNewEvents : standard.MakesNewEvents := by
  rintro descriptor member ticket event made
  cases mem_standard member with
  | event info filter builtIn name eventClass isEvent =>
    obtain rfl := Structure.event.inj made
    exact ⟨rfl, rfl⟩
  | _ => cases made

namespace Loading

/-! ## Headers, and what they let wait -/

/-- Items that are gone through one after the other, each with the workspace that it finds. -/
def eachFinds {α β : Type} (act : α → Workspace → β × Workspace) :
    List α → Workspace → List (α × Workspace)
  | [], _ => []
  | item :: others, workspace =>
    (item, workspace) :: eachFinds act others (act item workspace).2

/-- The headers that the sections of a script take, in order, each with the workspace that it
finds. -/
def takenHeaders (registry : Registry) (nodes : List Node) (workspace : Workspace) :
    List (Assignment × Workspace) :=
  let start := reportPlain nodes workspace
  let (assignments, rest) := claimAll registry.preloading (topSections 0 nodes)
  let between := (each initialisePreloading assignments start).2
  eachFinds initialisePreloading assignments start ++
    (eachFinds (initialiseNormal registry.normal) rest between).filterMap fun finds =>
      (assign? registry.normal finds.1).map (·, finds.2)

/-- The trigger that a section lets wait when it takes its header. -/
def buffers? (assignment : Assignment) (workspace : Workspace) : Option TriggerDraft :=
  ((takeHeader assignment workspace).2.2.context.currentDrafts.drop
    workspace.context.currentDrafts.length).head?

/-- The section of an event that has let its trigger wait when it took its header. -/
structure BufferedEvent where
  assignment : Assignment
  /-- The workspace in which it took its header. -/
  workspace : Workspace
  draft : TriggerDraft

/-- The trigger that waits, and the script that was current when the section took its header. -/
def BufferedEvent.entry (buffered : BufferedEvent) : EventEntry :=
  ⟨buffered.workspace.context.script, buffered.draft⟩

/-- The sections of a script that let triggers wait, in order. -/
def bufferedEvents (registry : Registry) (nodes : List Node) (workspace : Workspace) :
    List BufferedEvent :=
  (takenHeaders registry nodes workspace).filterMap fun taken =>
    (buffers? taken.1 taken.2).map (⟨taken.1, taken.2, ·⟩)

/-- The trigger of a section waits with the line, the body and the priority that the section
gives. -/
structure BufferedEvent.IsRead (registry : Registry) (buffered : BufferedEvent) : Prop where
  matched : registry.match? buffered.assignment.top.body.key =
    some (buffered.assignment.descriptor, buffered.assignment.header)
  taken : (takeHeader buffered.assignment buffered.workspace).1 = .done true
  info : buffered.assignment.descriptor.event = some buffered.draft.info
  ticket : buffered.draft.ticket = buffered.workspace.host.nextTicket
  line : buffered.draft.line = buffered.assignment.top.body.line
  items : (Item.readBody (buffered.workspace.scopeFor
    (EventStructure.bodyEvent buffered.draft.info)) buffered.assignment.top.body).1 =
      .ok buffered.draft.items
  priority : ∃ filter rest, EventStructure.readPriority filter buffered.assignment.top.body.line
    (EventStructure.stripOn (Text.trimChars buffered.assignment.header.expr.toList)) =
      .ok (buffered.draft.priority, rest)

variable {registry : Registry} {assignment : Assignment} {workspace : Workspace}

/-- The section of an event takes its header, and its trigger waits behind those that wait. -/
structure LetsWait (assignment : Assignment) (workspace : Workspace) (event : EventStructure)
    (draft : TriggerDraft) : Prop where
  creates : assignment.descriptor.create workspace.host.nextTicket = .event event
  taken : (takeHeader assignment workspace).1 = .done true
  drafts : (takeHeader assignment workspace).2.2.context.currentDrafts =
    workspace.context.currentDrafts ++ [draft]
  info : assignment.descriptor.event = some draft.info
  ticket : draft.ticket = event.ticket
  line : draft.line = assignment.top.body.line
  items : (Item.readBody (workspace.scopeFor (EventStructure.bodyEvent draft.info))
    assignment.top.body).1 = .ok draft.items
  priority : ∃ filter given rest, EventStructure.readPriority filter assignment.top.body.line
    (EventStructure.stripOn (Text.trimChars assignment.header.expr.toList)) = .ok (given, rest) ∧
      draft.priority = given.or event.priority

/-- Taking a header binds nothing. It lets the trigger of an event wait, or none. -/
theorem takeHeader_cases (thread : Thread) (assignment : Assignment) (workspace : Workspace) :
    (takeHeader assignment workspace).2.2.context.script = workspace.context.script ∧
      workspace.host.Continues thread [] (takeHeader assignment workspace).2.2.host ∧
      ((takeHeader assignment workspace).2.2.context.currentDrafts =
          workspace.context.currentDrafts ∨
        ∃ event draft, LetsWait assignment workspace event draft) := by
  let inner := assignment.descriptor.create workspace.host.nextTicket
  let ready := inHand assignment workspace
  let result := inner.init assignment.header assignment.top.body ready
  have taken : takeHeader assignment workspace =
      (result.1, result.2.1, result.2.2.inContext (·.takeInHand none none)) := rfl
  have begins : workspace.Submits thread [] ready := ⟨rfl, rfl, .of_same rfl rfl rfl rfl⟩
  have silent (still : ready.Submits thread [] result.2.2) :
      (takeHeader assignment workspace).2.2.context.script = workspace.context.script ∧
        workspace.host.Continues thread [] (takeHeader assignment workspace).2.2.host ∧
        (takeHeader assignment workspace).2.2.context.currentDrafts =
          workspace.context.currentDrafts :=
    ⟨still.script, begins.continues.trans still.continues, still.drafts⟩
  by_cases isEvent : ∃ event, inner = .event event
  · obtain ⟨event, isEvent⟩ := isEvent
    have same : result = (.ofExcept (event.init assignment.header assignment.top.body ready).1,
        .event (event.init assignment.header assignment.top.body ready).2.1,
        (event.init assignment.header assignment.top.body ready).2.2) := by
      simp only [result, isEvent]
      rfl
    have answers := event.init_answers assignment.header assignment.top.body ready
    generalize event.init assignment.header assignment.top.body ready = answer at *
    cases answers with
    | nothing outcome after final restored =>
      have still : ready.Submits thread [] result.2.2 := by
        rw [same]
        exact .of_restored restored
      obtain ⟨script, continues, drafts⟩ := silent still
      exact ⟨script, continues, Or.inl drafts⟩
    | waits info unused filter items given rest notes after final inHand isUnused priority starts
        loads read restored =>
      let draft : TriggerDraft := ⟨event.ticket, info, filter, assignment.top.body.line, items,
        given.or event.priority⟩
      have drafts : (takeHeader assignment workspace).2.2.context.currentDrafts =
          workspace.context.currentDrafts ++ [draft] := by
        rw [taken, same]
        exact restored.drafts
      have done : (takeHeader assignment workspace).1 = .done true := by
        rw [taken, same]
        rfl
      have lets : LetsWait assignment workspace event draft :=
        ⟨isEvent, done, drafts, inHand, rfl, rfl, read, unused, given, rest, priority, rfl⟩
      refine ⟨?_, ?_, Or.inr ⟨event, draft, lets⟩⟩
      · rw [taken, same]
        exact restored.script
      · rw [taken, same]
        exact begins.continues.trans (.of_same restored.config restored.bus restored.bound
          restored.queue)
  · have still := inner.init_still assignment.header assignment.top.body ready
      fun event same => isEvent ⟨event, same⟩
    obtain ⟨script, continues, drafts⟩ := silent (.of_still still)
    exact ⟨script, continues, Or.inl drafts⟩

/-- The trigger of a section is that of an event that takes its header. -/
theorem letsWait_of_buffers {draft : TriggerDraft}
    (buffered : buffers? assignment workspace = some draft) :
    ∃ event, LetsWait assignment workspace event draft := by
  obtain ⟨_, _, same | ⟨event, other, lets⟩⟩ := takeHeader_cases .main assignment workspace
  · rw [buffers?, same, List.drop_length] at buffered
    cases buffered
  · rw [buffers?, lets.drafts, List.drop_left] at buffered
    rw [← Option.some.inj buffered]
    exact ⟨event, lets⟩

/-- Nothing is bound, and some triggers wait behind those that waited. -/
structure Buffers (thread : Thread) (drafts : List TriggerDraft) (before after : Workspace) :
    Prop where
  script : after.context.script = before.context.script
  continues : before.host.Continues thread [] after.host
  drafts : after.context.currentDrafts = before.context.currentDrafts ++ drafts

namespace Buffers

variable {thread : Thread} {before middle after : Workspace} {drafts later : List TriggerDraft}

theorem of_submits (submits : before.Submits thread [] after) : Buffers thread [] before after :=
  ⟨submits.script, submits.continues, submits.drafts.trans (List.append_nil _).symm⟩

theorem trans (first : Buffers thread drafts before middle)
    (second : Buffers thread later middle after) :
    Buffers thread (drafts ++ later) before after where
  script := second.script.trans first.script
  continues := first.continues.trans second.continues
  drafts := by rw [second.drafts, first.drafts, List.append_assoc]

theorem quiet (first : Buffers thread drafts before middle)
    (second : middle.Submits thread [] after) : Buffers thread drafts before after := by
  have whole := first.trans (of_submits second)
  rwa [List.append_nil] at whole

end Buffers

/-- Taking a header lets the trigger wait that waits behind the others then, and no more. -/
theorem takeHeader_buffers (thread : Thread) (assignment : Assignment) (workspace : Workspace) :
    Buffers thread (buffers? assignment workspace).toList workspace
      (takeHeader assignment workspace).2.2 := by
  obtain ⟨script, continues, drafts⟩ := takeHeader_cases thread assignment workspace
  refine ⟨script, continues, ?_⟩
  unfold buffers?
  rcases drafts with same | ⟨event, draft, lets⟩
  · rw [same, List.drop_length]
    exact (List.append_nil _).symm
  · rw [lets.drafts, List.drop_left]
    rfl

theorem initialise_buffers (thread : Thread) (assignment : Assignment) (workspace : Workspace) :
    Buffers thread (buffers? assignment workspace).toList workspace
      (initialise assignment workspace).2 := by
  have taken := takeHeader_buffers thread assignment workspace
  have carried := submits_carried thread
  unfold initialise
  dsimp only
  split
  · exact taken.quiet (carried.noteCall _ _)
  · exact taken.quiet ((carried.noteCall _ _).quiet (carried.record _ _ _))
  · exact taken.quiet ((carried.noteCall _ _).quiet (carried.record _ _ _))

theorem initialisePreloading_buffers (thread : Thread) (assignment : Assignment)
    (workspace : Workspace) :
    Buffers thread (buffers? assignment workspace).toList workspace
      (initialisePreloading assignment workspace).2 := by
  have initialised := initialise_buffers thread assignment workspace
  unfold initialisePreloading
  generalize initialise assignment workspace = result at *
  obtain ⟨_ | loaded, after⟩ := result
  · exact initialised
  · exact initialised.quiet ((submits_carried thread).preloadOne loaded after)

theorem initialiseNormal_buffers (thread : Thread) (descriptors : List Descriptor)
    (top : TopSection) (workspace : Workspace) :
    Buffers thread ((assign? descriptors top).bind (buffers? · workspace)).toList workspace
      (initialiseNormal descriptors top workspace).2 := by
  unfold initialiseNormal
  cases assign? descriptors top with
  | none => exact .of_submits ((submits_carried thread).record _ _ workspace)
  | some assignment => exact initialise_buffers thread assignment workspace

theorem each_buffers {α β : Type} {thread : Thread} {act : α → Workspace → β × Workspace}
    {new : α → Workspace → Option TriggerDraft}
    (one : ∀ item before, Buffers thread (new item before).toList before (act item before).2)
    (items : List α) (workspace : Workspace) :
    Buffers thread ((eachFinds act items workspace).filterMap fun finds => new finds.1 finds.2)
      workspace (each act items workspace).2 := by
  induction items generalizing workspace with
  | nil => exact .of_submits (.refl workspace)
  | cons item others ih =>
    have whole := (one item workspace).trans (ih (act item workspace).2)
    have joined : (eachFinds act (item :: others) workspace).filterMap
        (fun finds => new finds.1 finds.2) = (new item workspace).toList ++
          (eachFinds act others (act item workspace).2).filterMap
            fun finds => new finds.1 finds.2 := by
      rw [eachFinds, List.filterMap_cons]
      dsimp only
      cases new item workspace <;> rfl
    rw [joined]
    exact whole

/-- All the items find the script that is current when the first one does. -/
theorem eachFinds_script {α β : Type} {thread : Thread} {act : α → Workspace → β × Workspace}
    {new : α → Workspace → Option TriggerDraft}
    (one : ∀ item before, Buffers thread (new item before).toList before (act item before).2)
    (items : List α) (workspace : Workspace) :
    ∀ finds ∈ eachFinds act items workspace,
      finds.1 ∈ items ∧ finds.2.context.script = workspace.context.script := by
  induction items generalizing workspace with
  | nil => exact fun _ absent => absurd absent List.not_mem_nil
  | cons item others ih =>
    refine List.forall_mem_cons.mpr ⟨⟨List.mem_cons_self, rfl⟩, fun finds member => ?_⟩
    obtain ⟨there, script⟩ := ih _ finds member
    exact ⟨List.mem_cons_of_mem _ there, script.trans (one item workspace).script⟩

/-- A load lets the triggers of its events wait, and binds nothing. -/
theorem loadCurrent_buffers (registry : Registry) (thread : Thread) (script : Script)
    (nodes : List Node) (workspace : Workspace) :
    Buffers thread ((bufferedEvents registry nodes workspace).map BufferedEvent.draft) workspace
      (loadCurrent registry thread script nodes workspace).2 := by
  have carried := submits_carried thread
  have plain := Buffers.of_submits (carried.reportPlain nodes workspace)
  have early := each_buffers (initialisePreloading_buffers thread)
  have late := each_buffers (initialiseNormal_buffers thread registry.normal)
  have headers := (plain.trans (early (claimAll registry.preloading (topSections 0 nodes)).1 _)).trans
    (late (claimAll registry.preloading (topSections 0 nodes)).2 _)
  have drafts : (bufferedEvents registry nodes workspace).map BufferedEvent.draft =
      (takenHeaders registry nodes workspace).filterMap fun taken => buffers? taken.1 taken.2 := by
    rw [bufferedEvents, List.map_filterMap]
    refine List.filterMap_congr fun taken _ => ?_
    rw [Option.map_map]
    exact Option.map_id'
  have same : (fun finds => ((assign? registry.normal finds.1).map (·, finds.2)).bind
      fun taken => buffers? taken.1 taken.2) = fun finds : TopSection × Workspace =>
        (assign? registry.normal finds.1).bind (buffers? · finds.2) := by
    funext finds
    cases assign? registry.normal finds.1 <;> rfl
  rw [drafts, takenHeaders, List.filterMap_append, List.filterMap_filterMap, same]
  exact headers.quiet (carried.afterHeaders registry script nodes workspace)

theorem mem_takenHeaders {nodes : List Node} {taken : Assignment × Workspace}
    (member : taken ∈ takenHeaders registry nodes workspace) :
    registry.match? taken.1.top.body.key = some (taken.1.descriptor, taken.1.header) ∧
      taken.2.context.script = workspace.context.script := by
  have carried := submits_carried .main
  let claimed := claimAll registry.preloading (topSections 0 nodes)
  have plain := carried.reportPlain nodes workspace
  rcases List.mem_append.mp member with early | late
  · obtain ⟨there, script⟩ := eachFinds_script (initialisePreloading_buffers .main) claimed.1 _ _
      early
    exact ⟨match?_of_claimed registry _ _ there, script.trans plain.script⟩
  · obtain ⟨⟨top, found⟩, finds, assigned⟩ := List.mem_filterMap.mp late
    obtain ⟨assignment, first, rfl⟩ := Option.map_eq_some_iff.mp assigned
    obtain ⟨there, script⟩ := eachFinds_script (initialiseNormal_buffers .main registry.normal)
      claimed.2 _ _ finds
    have between := (each_buffers (initialisePreloading_buffers .main) claimed.1
      (reportPlain nodes workspace)).script
    exact ⟨match?_of_left registry _ there first, script.trans (between.trans plain.script)⟩

/-- The triggers that a load lets wait are all of the script that is current. -/
theorem entries_bufferedEvents {nodes : List Node} :
    (bufferedEvents registry nodes workspace).map BufferedEvent.entry =
      (bufferedEvents registry nodes workspace).map
        fun buffered => ⟨workspace.context.script, buffered.draft⟩ := by
  refine List.map_congr_left fun buffered member => ?_
  obtain ⟨taken, there, waits⟩ := List.mem_filterMap.mp member
  obtain ⟨draft, _, rfl⟩ := Option.map_eq_some_iff.mp waits
  rw [BufferedEvent.entry, (mem_takenHeaders there).2]

/-- Whatever event of a script lets its trigger wait: its section has been read. -/
theorem isRead_of_mem (makes : registry.MakesNewEvents) {nodes : List Node}
    {buffered : BufferedEvent} (member : buffered ∈ bufferedEvents registry nodes workspace) :
    buffered.IsRead registry := by
  obtain ⟨taken, there, waits⟩ := List.mem_filterMap.mp member
  obtain ⟨draft, one, rfl⟩ := Option.map_eq_some_iff.mp waits
  obtain ⟨matched, _⟩ := mem_takenHeaders there
  obtain ⟨event, lets⟩ := letsWait_of_buffers one
  obtain ⟨filter, given, rest, priority, gives⟩ := lets.priority
  obtain ⟨ticket, noPriority⟩ := makes _ (first?_mem matched) _ event lets.creates
  rw [noPriority, Option.or_none] at gives
  exact ⟨matched, lets.taken, lets.info, lets.ticket.trans ticket, lets.line, lets.items, filter,
    rest, gives ▸ priority⟩

end Loading

end ScriptBinding

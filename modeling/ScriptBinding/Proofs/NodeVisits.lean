import ScriptBinding.Proofs.Dispatch
import ScriptBinding.Proofs.MainThreadLoading
import ScriptBinding.Proofs.ReportedLines

/-! # Visits to nodes

The loader handles one node at the top of a script at a time: a plain line is reported, a section
takes its header and goes through its phases, and is settled later. Every diagnostic is recorded
while a node is being handled. It names the script of that node and the line of the node, or of one
below it.
-/

namespace ScriptBinding

namespace Loading

/-! ## Visits -/

/-- A visit of the loader to a node at the top of a script. -/
structure Visit where
  /-- The place of the node among those at the top of the script. -/
  place : Nat
  before : Workspace
  after : Workspace

namespace Visit

/-- The diagnostics that are recorded during a visit. -/
def recorded (visit : Visit) : List Diagnostic :=
  visit.after.context.diagnostics.drop visit.before.context.diagnostics.length

/-- The visits follow each other from one workspace to another. -/
def Chained : Workspace → List Visit → Workspace → Prop
  | start, [], final => final = start
  | start, visit :: others, final => visit.before = start ∧ Chained visit.after others final

theorem Chained.append {first second : List Visit} {start between final : Workspace}
    (before : Chained start first between) (after : Chained between second final) :
    Chained start (first ++ second) final := by
  induction first generalizing start with
  | nil => exact before ▸ after
  | cons visit others ih => exact ⟨before.1, ih before.2⟩

/-- The visit is to a node of the script, and what is recorded names lines of that node. -/
def Reports (script : Script) (nodes : List Node) (visit : Visit) : Prop :=
  ∃ node own, nodes[visit.place]? = some node ∧
    visit.after.context.diagnostics = visit.before.context.diagnostics ++ own ∧
    ∀ diagnostic ∈ own, diagnostic.PointsTo (some script) node.lines

variable {script : Script} {nodes : List Node}

theorem Reports.recorded {visit : Visit} (reports : visit.Reports script nodes) :
    visit.after.context.diagnostics = visit.before.context.diagnostics ++ visit.recorded ∧
      ∃ node, nodes[visit.place]? = some node ∧
        ∀ diagnostic ∈ visit.recorded, diagnostic.PointsTo (some script) node.lines := by
  obtain ⟨node, own, found, isOwn, points⟩ := reports
  have same : visit.recorded = own := by rw [Visit.recorded, isOwn, List.drop_left]
  exact ⟨same ▸ isOwn, node, found, same ▸ points⟩

/-- Only what has been recorded before counts of the workspace in which a visit starts. -/
theorem Reports.of_same {place : Nat} {start before after : Workspace}
    (reports : (Visit.mk place before after).Reports script nodes)
    (same : before.context.diagnostics = start.context.diagnostics) :
    (Visit.mk place start after).Reports script nodes := by
  obtain ⟨node, own, found, isOwn, points⟩ := reports
  exact ⟨node, own, found, same ▸ isOwn, points⟩

theorem reports_of_silent {place : Nat} {node : Node} {before after : Workspace}
    (found : nodes[place]? = some node)
    (same : after.context.diagnostics = before.context.diagnostics) :
    (Visit.mk place before after).Reports script nodes :=
  ⟨node, [], found, by rw [same, List.append_nil], fun _ absent => absurd absent List.not_mem_nil⟩

/-- The diagnostics that are recorded during some visits are those of each of them, one after the
other. -/
theorem Chained.diagnostics {visits : List Visit} {start final : Workspace}
    (chained : Chained start visits final)
    (reports : ∀ visit ∈ visits, visit.Reports script nodes) :
    final.context.diagnostics = start.context.diagnostics ++ visits.flatMap recorded := by
  induction visits generalizing start with
  | nil => rw [chained, List.flatMap_nil, List.append_nil]
  | cons visit others ih =>
    obtain ⟨rfl, later⟩ := chained
    rw [ih later fun other member => reports other (List.mem_cons_of_mem _ member),
      (reports visit List.mem_cons_self).recorded.1, List.flatMap_cons, List.append_assoc]

end Visit

/-- The visits of an act to some items, each of which belongs to a place. -/
def visitsOf {α β : Type} (place : α → Nat) (act : α → Workspace → β × Workspace) :
    List α → Workspace → List Visit
  | [], _ => []
  | item :: others, workspace =>
    ⟨place item, workspace, (act item workspace).2⟩ ::
      visitsOf place act others (act item workspace).2

theorem visitsOf_chained {α β : Type} (place : α → Nat) (act : α → Workspace → β × Workspace)
    (items : List α) (workspace : Workspace) :
    Visit.Chained workspace (visitsOf place act items workspace) (each act items workspace).2 := by
  induction items generalizing workspace with
  | nil => rfl
  | cons item others ih => exact ⟨rfl, ih _⟩

/-- A visit to a node that may be a plain line. -/
def visitPlain (node : Node × Nat) (workspace : Workspace) : Unit × Workspace :=
  ((), reportPlain [node.1] workspace)

/-- The visits that are made while the sections of a script take their headers: to the plain lines
among its nodes, to the sections of preloading structures, and to the others. -/
def headerVisits (registry : Registry) (nodes : List Node) (workspace : Workspace) : List Visit :=
  let plain := visitsOf Prod.snd visitPlain nodes.zipIdx workspace
  let workspace := reportPlain nodes workspace
  let (assignments, rest) := claimAll registry.preloading (topSections 0 nodes)
  let early := visitsOf (·.top.index) initialisePreloading assignments workspace
  let workspace := (each initialisePreloading assignments workspace).2
  plain ++ early ++ visitsOf (·.index) (initialiseNormal registry.normal) rest workspace

/-- The visits that are made to load structures and to mend them. -/
def phaseVisits (thread : Thread) (structures : List LoadedStructure) (workspace : Workspace) :
    List Visit :=
  let (loaded, after) := each (load thread) structures workspace
  visitsOf (·.index) (load thread) structures workspace ++ visitsOf (·.index) afterLoad loaded after

/-- The visits of the loader to the nodes of a script that has just become current, in the order in
which it makes them. -/
def loadVisits (registry : Registry) (thread : Thread) (nodes : List Node)
    (workspace : Workspace) : List Visit :=
  let (structures, after) := initialiseAll registry nodes workspace
  headerVisits registry nodes workspace ++ phaseVisits thread structures after

/-- Among these are the visits to the plain lines. -/
theorem plainVisits_subset (registry : Registry) (thread : Thread) (nodes : List Node)
    (workspace : Workspace) :
    visitsOf Prod.snd visitPlain nodes.zipIdx workspace ⊆
      loadVisits registry thread nodes workspace :=
  fun _ plain =>
    List.mem_append_left _ (List.mem_append_left _ (List.mem_append_left _ plain))

/-- The visits of the loader to the nodes of a script that is settled, in the order of its
structures. -/
def settleVisits (thread : Thread) (script : Script) :
    List LoadedStructure → Settlement → Workspace → List Visit
  | [], _, _ => []
  | loaded :: others, settlement, workspace =>
    let (_, settlement, after) := settle thread script loaded settlement workspace
    ⟨loaded.index, workspace, after⟩ :: settleVisits thread script others settlement after

theorem each_visitPlain (nodes : List Node) (number : Nat) (workspace : Workspace) :
    (each visitPlain (nodes.zipIdx number) workspace).2 = reportPlain nodes workspace := by
  induction nodes generalizing number workspace with
  | nil => rfl
  | cons node others ih =>
    rw [List.zipIdx_cons, each, ih]
    rfl

theorem headerVisits_chained (registry : Registry) (nodes : List Node) (workspace : Workspace) :
    Visit.Chained workspace (headerVisits registry nodes workspace)
      (initialiseAll registry nodes workspace).2 := by
  have plain := visitsOf_chained Prod.snd visitPlain nodes.zipIdx workspace
  rw [each_visitPlain] at plain
  exact (plain.append (visitsOf_chained _ _ _ _)).append (visitsOf_chained _ _ _ _)

/-- A script is loaded by visits to its nodes. What it amounts to is noted in the end. -/
theorem loadVisits_chained (registry : Registry) (thread : Thread) (script : Script)
    (nodes : List Node) (workspace : Workspace) :
    ∃ final change, Visit.Chained workspace (loadVisits registry thread nodes workspace) final ∧
      (loadCurrent registry thread script nodes workspace).2 =
        final.inContext (·.updateInfo change) :=
  ⟨_, _, (headerVisits_chained registry nodes workspace).append
    ((visitsOf_chained _ _ _ _).append (visitsOf_chained _ _ _ _)), rfl⟩

theorem settleVisits_chained (thread : Thread) (script : Script)
    (structures : List LoadedStructure) (settlement : Settlement) (workspace : Workspace) :
    Visit.Chained workspace (settleVisits thread script structures settlement workspace)
      (settleAll thread script structures settlement workspace).2.2 := by
  induction structures generalizing settlement workspace with
  | nil => rfl
  | cons loaded others ih => exact ⟨rfl, ih _ _⟩

/-! ## Where the loader is -/

/-- A script of this name is current. -/
def IsAt (script : Script) (workspace : Workspace) : Prop :=
  ∃ current, workspace.context.script = some current ∧ current.name = script.name

/-- A script of this name is current, and every value has a class. -/
structure Attends (script : Script) (workspace : Workspace) : Prop where
  current : IsAt script workspace
  knows : workspace.host.classes.KnowsObjects

/-- The structure is that of the section at its place, and has its line from there. -/
def StandsIn (nodes : List Node) (loaded : LoadedStructure) : Prop :=
  ∃ node, nodes[loaded.index]? = some node ∧ loaded.line ∈ node.lines ∧
    loaded.inner.StandsOn node.lines

variable {script : Script} {nodes : List Node} {workspace after : Workspace} {lines : List Nat}

theorem Attends.later (attends : Attends script workspace)
    (reports : workspace.ReportsAt lines after) : Attends script after := by
  obtain ⟨current, isCurrent, sameName⟩ := attends.current
  exact ⟨⟨current, reports.script.trans isCurrent, sameName⟩, reports.classes ▸ attends.knows⟩

/-- What is reported while a script of this name is current names that script. -/
theorem IsAt.visit (isAt : IsAt script workspace) {place : Nat} {node : Node}
    (found : nodes[place]? = some node) (reports : workspace.ReportsAt node.lines after) :
    (Visit.mk place workspace after).Reports script nodes := by
  obtain ⟨current, isCurrent, sameName⟩ := isAt
  obtain ⟨own, isOwn, points⟩ := reports.reports
  refine ⟨node, own, found, isOwn, fun diagnostic member => ?_⟩
  obtain ⟨named, line⟩ := points diagnostic member
  rw [isCurrent] at named
  exact ⟨named.trans (congrArg some sameName), line⟩

theorem setScript_isAt (thread : Thread) (script : Script) (workspace : Workspace) :
    IsAt script (workspace.setScript thread (some script)) := by
  unfold Workspace.setScript
  split
  · next stays =>
    cases current : workspace.context.script with
    | none =>
      rw [current] at stays
      cases stays
    | some other =>
      simp only [current, Script.sameCurrent, Script.same, Bool.and_eq_true, beq_iff_eq] at stays
      exact ⟨other, current, stays.1.2⟩
  · exact ⟨script, rfl, rfl⟩

theorem setScript_classes (thread : Thread) (script : Option Script) (workspace : Workspace) :
    (workspace.setScript thread script).host.classes = workspace.host.classes := by
  have flushed : (workspace.flush thread).host.classes = workspace.host.classes := by
    unfold Workspace.flush
    dsimp only
    split
    · rfl
    · split
      · have submitted (job : Job) : workspace.ReportsAt [] (workspace.submit thread job) :=
          .submit thread job workspace
        exact (submitted _).classes
      · rfl
  unfold Workspace.setScript
  split
  · rfl
  · exact flushed

/-- Acts that report at the nodes of their items, and leave what is good, do so one after the other.
-/
theorem visitsOf_report {α β : Type} (place : α → Nat) (act : α → Workspace → β × Workspace)
    (Good : β → Prop) (items : List α)
    (one : ∀ item ∈ items, ∀ before, Attends script before →
      (∃ node, nodes[place item]? = some node ∧
        before.ReportsAt node.lines (act item before).2) ∧ Good (act item before).1)
    (attends : Attends script workspace) :
    (∀ visit ∈ visitsOf place act items workspace, visit.Reports script nodes) ∧
      (∀ result ∈ (each act items workspace).1, Good result) ∧
      Attends script (each act items workspace).2 := by
  induction items generalizing workspace with
  | nil =>
    exact ⟨fun _ member => absurd member List.not_mem_nil,
      fun _ member => absurd member List.not_mem_nil, attends⟩
  | cons item others ih =>
    obtain ⟨⟨node, found, reports⟩, good⟩ := one item List.mem_cons_self workspace attends
    obtain ⟨visits, results, last⟩ :=
      ih (fun other member => one other (List.mem_cons_of_mem _ member)) (attends.later reports)
    rw [visitsOf, each]
    refine ⟨fun visit member => ?_, fun result member => ?_, last⟩
    · rcases List.mem_cons.mp member with rfl | later
      · exact attends.current.visit found reports
      · exact visits visit later
    · rcases List.mem_cons.mp member with rfl | later
      · exact good
      · exact results result later

/-! ## Loading -/

/-- A phase that keeps to the lines of a node is concluded there. -/
theorem conclude_reports_at (phase : Phase) {loaded : LoadedStructure}
    {result : Outcome Unit × Structure × Workspace}
    (keeps : Structure.KeepsTo lines workspace result)
    (counted : ∀ line ∈ lines, 0 < line) (member : loaded.line ∈ lines) :
    workspace.ReportsAt lines (conclude phase loaded result).2.2 := by
  obtain ⟨outcome, inner, after⟩ := result
  unfold conclude
  dsimp only
  have noted (success : Bool) : workspace.ReportsAt lines
      (after.inContext (·.noteCall ⟨phase, loaded.index, success⟩)) :=
    keeps.reports.trans (.noteCall _ after)
  cases outcome with
  | done value => exact noted true
  | failed failure =>
    exact (noted false).trans
      (.reportAt (keeps.failure failure rfl) member (counted _ member) _)
  | crashed message =>
    have unknown (text : String) : (Failure.fatal text).KeepsTo lines := nofun
    exact (noted false).trans (.reportAt (unknown _) member (counted _ member) _)

/-- A structure that has been handled keeps its place, and what was reported names lines of its
node. -/
structure Handled (nodes : List Node) (loaded : LoadedStructure) (before : Workspace)
    (result : LoadedStructure × Workspace) : Prop where
  index : result.1.index = loaded.index
  stands : StandsIn nodes result.1
  reports : ∃ node, nodes[loaded.index]? = some node ∧ before.ReportsAt node.lines result.2

theorem Handled.trans {loaded : LoadedStructure} {first second : LoadedStructure × Workspace}
    (one : Handled nodes loaded workspace first) (two : Handled nodes first.1 first.2 second) :
    Handled nodes loaded workspace second := by
  obtain ⟨node, found, early⟩ := one.reports
  obtain ⟨same, sameFound, late⟩ := two.reports
  rw [one.index, found] at sameFound
  cases sameFound
  exact ⟨two.index.trans one.index, two.stands, node, found, early.trans late⟩

theorem handled_refl {loaded : LoadedStructure} (stands : StandsIn nodes loaded)
    (workspace : Workspace) : Handled nodes loaded workspace (loaded, workspace) := by
  have ⟨node, found, _⟩ := stands
  exact ⟨rfl, stands, node, found, .refl workspace⟩

/-- The lines of a node are counted from one if those of its script are. -/
theorem counted_of_node (counted : ∀ line ∈ Node.lineNumbers nodes, 0 < line) {place : Nat}
    {node : Node} (found : nodes[place]? = some node) : ∀ line ∈ node.lines, 0 < line :=
  fun line member => counted line (Node.lines_subset (List.mem_of_getElem? found) member)

variable (counted : ∀ line ∈ Node.lineNumbers nodes, 0 < line)
include counted

/-- A phase that keeps to the lines of its node, where a structure is handled. -/
theorem conclude_handled (phase : Phase) {loaded : LoadedStructure}
    {result : Outcome Unit × Structure × Workspace} (stands : StandsIn nodes loaded)
    (keeps : ∀ node, nodes[loaded.index]? = some node → loaded.inner.StandsOn node.lines →
      Structure.KeepsTo node.lines workspace result) :
    Handled nodes loaded workspace (conclude phase loaded result).2 := by
  obtain ⟨node, found, member, on⟩ := stands
  have kept := keeps node found on
  have same := conclude_structure phase loaded result
  have reports := conclude_reports_at phase kept (counted_of_node counted found) member
  refine ⟨?_, ⟨node, ?_, ?_, ?_⟩, node, found, reports⟩
  · rw [same]
  · rw [same]
    exact found
  · rw [same]
    exact member
  · rw [same]
    exact kept.stands

theorem preload_handled {loaded : LoadedStructure} (stands : StandsIn nodes loaded)
    (workspace : Workspace) : Handled nodes loaded workspace (preload loaded workspace) := by
  have handled : Handled nodes loaded workspace
      (conclude .preload loaded (loaded.inner.preload workspace)).2 :=
    conclude_handled counted .preload stands fun node _ on => Structure.preload_keepsTo on
  exact ⟨handled.index, handled.stands, handled.reports⟩

theorem load_handled (thread : Thread) {loaded : LoadedStructure} (stands : StandsIn nodes loaded)
    (attends : Attends script workspace) :
    Handled nodes loaded workspace (load thread loaded workspace) := by
  have ready : Handled nodes loaded workspace (readied loaded workspace) := by
    unfold readied
    split
    · exact handled_refl stands workspace
    · exact preload_handled counted stands workspace
  obtain ⟨_, _, reports⟩ := ready.reports
  obtain ⟨current, isCurrent, _⟩ := (attends.later reports).current
  have handled : Handled nodes (readied loaded workspace).1 (readied loaded workspace).2
      (conclude .load (readied loaded workspace).1
        ((readied loaded workspace).1.inner.load thread (readied loaded workspace).2)).2 :=
    conclude_handled counted .load ready.stands fun node found on =>
      Structure.load_keepsTo thread (counted_of_node counted found) on isCurrent
  rw [load_eq]
  exact ready.trans ⟨handled.index, handled.stands, handled.reports⟩

theorem afterLoad_handled {loaded : LoadedStructure} (stands : StandsIn nodes loaded)
    (workspace : Workspace) : Handled nodes loaded workspace (afterLoad loaded workspace) := by
  unfold afterLoad
  split
  · exact conclude_handled counted .afterLoad stands fun node _ on => Structure.afterLoad_keepsTo on
  · exact handled_refl stands workspace

/-! ### Headers -/

omit counted in
/-- A section at the top of a script is the node at its place. -/
theorem topSections_found (number : Nat) (nodes : List Node) {top : TopSection}
    (member : top ∈ topSections number nodes) :
    ∃ node, nodes[top.index - number]? = some node ∧ number ≤ top.index ∧
      node.lines = top.body.lines := by
  induction nodes generalizing number with
  | nil => cases member
  | cons node others ih =>
    rw [topSections, List.mem_append] at member
    rcases member with here | later
    · obtain ⟨body, isBody, rfl⟩ := Option.map_eq_some_iff.mp (Option.mem_toList.mp here)
      refine ⟨node, by rw [Nat.sub_self, List.getElem?_cons_zero], Nat.le_refl number, ?_⟩
      cases node with
      | nested key line nodes =>
        cases isBody
        exact Node.lines_nested key line nodes
      | simple key line => cases isBody
      | entry key value line => cases isBody
    · obtain ⟨other, found, behind, same⟩ := ih (number + 1) later
      refine ⟨other, ?_, Nat.le_of_succ_le behind, same⟩
      have next : top.index - number = top.index - (number + 1) + 1 := by omega
      rw [next, List.getElem?_cons_succ, found]

/-- The descriptors make structures that are not from outside and have no section yet. -/
def MakesEmpty (descriptors : List Descriptor) : Prop :=
  ∀ descriptor ∈ descriptors, ∀ ticket lines, (descriptor.create ticket).StandsOn lines

/-- A section that takes its header is kept in its place, and what was reported names lines of its
node. -/
structure Introduced (nodes : List Node) (top : TopSection) (before : Workspace)
    (result : Option LoadedStructure × Workspace) : Prop where
  reports : ∃ node, nodes[top.index]? = some node ∧ before.ReportsAt node.lines result.2
  index : ∀ loaded ∈ result.1, loaded.index = top.index
  stands : ∀ loaded ∈ result.1, StandsIn nodes loaded

omit counted in
theorem Introduced.rejected {top : TopSection} {node : Node}
    (found : nodes[top.index]? = some node) (reports : workspace.ReportsAt node.lines after) :
    Introduced nodes top workspace (none, after) where
  reports := ⟨node, found, reports⟩
  index _ absent := absurd absent (Option.not_mem_none _)
  stands _ absent := absurd absent (Option.not_mem_none _)

omit counted in
theorem Introduced.kept {top : TopSection} {node : Node} {loaded : LoadedStructure}
    (index : loaded.index = top.index) (found : nodes[top.index]? = some node)
    (member : loaded.line ∈ node.lines) (on : loaded.inner.StandsOn node.lines)
    (reports : workspace.ReportsAt node.lines after) :
    Introduced nodes top workspace (some loaded, after) where
  reports := ⟨node, found, reports⟩
  index _ isLoaded := Option.mem_some_iff.mp isLoaded ▸ index
  stands _ isLoaded := Option.mem_some_iff.mp isLoaded ▸ ⟨node, index ▸ found, member, on⟩

theorem initialise_introduced {assignment : Assignment}
    (member : assignment.top ∈ topSections 0 nodes)
    (empty : ∀ ticket lines, (assignment.descriptor.create ticket).StandsOn lines)
    (attends : Attends script workspace) :
    Introduced nodes assignment.top workspace (initialise assignment workspace) := by
  obtain ⟨node, found, _, same⟩ := topSections_found 0 nodes member
  rw [Nat.sub_zero] at found
  have positive : ∀ line ∈ assignment.top.body.lines, 0 < line :=
    same ▸ counted_of_node counted found
  have atLine := assignment.top.body.line_mem_lines
  have ready : workspace.ReportsAt node.lines (inHand assignment workspace) :=
    .of_silent rfl rfl rfl
  have keeps := Structure.init_keepsTo assignment.header positive
    (empty workspace.host.nextTicket _) (attends.later ready).knows
  have taken : workspace.ReportsAt node.lines (takeHeader assignment workspace).2.2 :=
    ready.trans ((same ▸ keeps.reports).trans (.of_silent rfl rfl rfl))
  have stands : (takeHeader assignment workspace).2.1.StandsOn node.lines := same ▸ keeps.stands
  have refusal (failure : Failure)
      (failed : (takeHeader assignment workspace).1 = .failed failure) :
      failure.KeepsTo node.lines := same ▸ keeps.failure failure failed
  rw [← same] at atLine positive
  unfold initialise
  dsimp only
  generalize takeHeader assignment workspace = result at *
  obtain ⟨outcome, inner, after⟩ := result
  have noted (success : Bool) : workspace.ReportsAt node.lines
      (after.inContext (·.noteCall ⟨.init, assignment.top.index, success⟩)) :=
    taken.trans (.noteCall _ after)
  have refused (failure : Failure) (keeps : failure.KeepsTo node.lines) :
      workspace.ReportsAt node.lines
        ((after.inContext (·.noteCall ⟨.init, assignment.top.index, false⟩)).reportAt
          assignment.top.body.line failure) :=
    (noted false).trans (.reportAt keeps atLine (positive _ atLine) _)
  cases outcome with
  | done accepted =>
    cases accepted with
    | true => exact .kept rfl found atLine stands (noted true)
    | false =>
      have unclear : (notUnderstood assignment.top.body.line assignment.top.body.key).Within
          node.lines := ⟨_, atLine, rfl⟩
      exact .rejected found ((noted false).trans (.report positive unclear _))
  | failed failure => exact .rejected found (refused failure (refusal failure rfl))
  | crashed message =>
    have unknown (text : String) : (Failure.fatal text).KeepsTo node.lines := nofun
    exact .rejected found (refused _ (unknown _))

theorem initialisePreloading_introduced {assignment : Assignment}
    (member : assignment.top ∈ topSections 0 nodes)
    (empty : ∀ ticket lines, (assignment.descriptor.create ticket).StandsOn lines)
    (attends : Attends script workspace) :
    Introduced nodes assignment.top workspace (initialisePreloading assignment workspace) := by
  have introduced := initialise_introduced counted member empty attends
  unfold initialisePreloading
  generalize initialise assignment workspace = result at *
  obtain ⟨_ | loaded, after⟩ := result
  · exact introduced
  · obtain ⟨node, found, early⟩ := introduced.reports
    have index := introduced.index loaded rfl
    have handled := preload_handled counted (introduced.stands loaded rfl) after
    obtain ⟨same, sameFound, late⟩ := handled.reports
    rw [index, found] at sameFound
    cases sameFound
    obtain ⟨own, ownFound, atLine, on⟩ := handled.stands
    have kept := handled.index.trans index
    rw [kept, found] at ownFound
    cases ownFound
    exact .kept kept found atLine on (early.trans late)

theorem initialiseNormal_introduced {descriptors : List Descriptor} {top : TopSection}
    (member : top ∈ topSections 0 nodes) (empty : MakesEmpty descriptors)
    (attends : Attends script workspace) :
    Introduced nodes top workspace (initialiseNormal descriptors top workspace) := by
  unfold initialiseNormal
  split
  · next assignment assigned =>
    have sameTop := assign?_top assigned
    obtain ⟨found, isFound, isAssignment⟩ := Option.map_eq_some_iff.mp assigned
    have ofDescriptor := empty found.1 (first?_mem isFound)
    rw [← sameTop] at member ⊢
    rw [← isAssignment] at member ⊢
    exact initialise_introduced counted member ofDescriptor attends
  · obtain ⟨node, found, _, same⟩ := topSections_found 0 nodes member
    rw [Nat.sub_zero] at found
    have unclear : (notUnderstood top.body.line top.body.key).Within node.lines :=
      ⟨_, same ▸ top.body.line_mem_lines, rfl⟩
    exact .rejected found (.report (counted_of_node counted found) unclear workspace)

/-- A plain line is reported at its line, and a section is passed over. -/
theorem reportPlain_reports {place : Nat} {node : Node} (found : nodes[place]? = some node)
    (workspace : Workspace) : workspace.ReportsAt node.lines (reportPlain [node] workspace) := by
  have unclear : (notUnderstood node.line node.key).Within node.lines :=
    ⟨_, node.line_mem_lines, rfl⟩
  have reported := Workspace.ReportsAt.report (counted_of_node counted found) unclear workspace
  cases node with
  | nested key line nodes => exact .refl workspace
  | simple key line => exact reported
  | entry key value line => exact reported

/-! ### Scripts -/

theorem headerVisits_report {registry : Registry} (empty : MakesEmpty registry.all)
    (attends : Attends script workspace) :
    (∀ visit ∈ headerVisits registry nodes workspace, visit.Reports script nodes) ∧
      (∀ loaded ∈ (initialiseAll registry nodes workspace).1, StandsIn nodes loaded) ∧
      Attends script (initialiseAll registry nodes workspace).2 := by
  let kept (result : Option LoadedStructure) : Prop := ∀ loaded ∈ result, StandsIn nodes loaded
  let claimed := claimAll registry.preloading (topSections 0 nodes)
  obtain ⟨plain, _, ready⟩ := visitsOf_report Prod.snd visitPlain (fun _ => True) nodes.zipIdx
    (fun item member before _ =>
      have found := List.mem_zipIdx_iff_getElem?.mp member
      ⟨⟨item.1, found, reportPlain_reports counted found before⟩, trivial⟩) attends
  rw [each_visitPlain] at ready
  obtain ⟨early, preloading, preloaded⟩ := visitsOf_report (·.top.index) initialisePreloading kept
    claimed.1 (fun assignment member before attends =>
      have descriptor := first?_mem (claimAll_first? assignment member)
      have introduced := initialisePreloading_introduced counted
        (claimAll_top_mem assignment member) (empty _ (List.mem_append_left _ descriptor)) attends
      ⟨introduced.reports, introduced.stands⟩) ready
  obtain ⟨late, normal, started⟩ := visitsOf_report (·.index) (initialiseNormal registry.normal)
    kept claimed.2 (fun top member before attends =>
      have isTop := List.mem_of_mem_filter ((claimAll_left _ _) ▸ member)
      have introduced := initialiseNormal_introduced counted isTop
        (fun descriptor there => empty descriptor (List.mem_append_right _ there)) attends
      ⟨introduced.reports, introduced.stands⟩) preloaded
  refine ⟨fun visit member => ?_, fun loaded member => ?_, started⟩
  · rcases List.mem_append.mp member with first | third
    · rcases List.mem_append.mp first with one | two
      · exact plain visit one
      · exact early visit two
    · exact late visit third
  · unfold initialiseAll at member
    dsimp only at member
    rw [List.mem_mergeSort, List.reduceOption_mem_iff, List.mem_append] at member
    rcases member with first | second
    · exact preloading _ first loaded rfl
    · exact normal _ second loaded rfl

theorem phaseVisits_report (thread : Thread) {structures : List LoadedStructure}
    (stands : ∀ loaded ∈ structures, StandsIn nodes loaded) (attends : Attends script workspace) :
    let loaded := each (load thread) structures workspace
    (∀ visit ∈ phaseVisits thread structures workspace, visit.Reports script nodes) ∧
      ∀ mended ∈ (each afterLoad loaded.1 loaded.2).1, StandsIn nodes mended := by
  intro loaded
  obtain ⟨bodies, kept, ready⟩ := visitsOf_report (·.index) (load thread) (StandsIn nodes)
    structures (fun item member before attends =>
      have handled := load_handled counted thread (stands item member) attends
      ⟨handled.reports, handled.stands⟩) attends
  obtain ⟨mending, mended, _⟩ := visitsOf_report (·.index) afterLoad (StandsIn nodes)
    loaded.1 (fun item member before _ =>
      have handled := afterLoad_handled counted (kept item member) before
      ⟨handled.reports, handled.stands⟩) ready
  refine ⟨fun visit member => ?_, mended⟩
  rcases List.mem_append.mp member with first | second
  · exact bodies visit first
  · exact mending visit second

/-- While a script is loaded, every visit reports at the node that it is made to, and what is kept
of the script stands in its place. -/
theorem loadVisits_report {registry : Registry} (empty : MakesEmpty registry.all)
    (thread : Thread) (attends : Attends script workspace) :
    (∀ visit ∈ loadVisits registry thread nodes workspace, visit.Reports script nodes) ∧
      ∀ loaded ∈ (loadCurrent registry thread script nodes workspace).1.structures,
        StandsIn nodes loaded := by
  obtain ⟨headers, stands, ready⟩ := headerVisits_report counted empty attends
  obtain ⟨phases, mended⟩ := phaseVisits_report counted thread stands ready
  refine ⟨fun visit member => ?_, mended⟩
  rcases List.mem_append.mp member with early | late
  · exact headers visit early
  · exact phases visit late

/-! ## Settling -/

/-- Settling a structure reports at its node, whatever script is current. -/
theorem settle_reports (thread : Thread) (script : Script) {loaded : LoadedStructure}
    (stands : StandsIn nodes loaded) (settlement : Settlement) (workspace : Workspace) :
    let result := settle thread script loaded settlement workspace
    (Visit.mk loaded.index workspace result.2.2).Reports script nodes ∧
      StandsIn nodes result.1 := by
  obtain ⟨node, found, member, on⟩ := stands
  have phase : (loaded.inner.settle settlement.info workspace).2.2.context = workspace.context ∧
      ∀ failure, (loaded.inner.settle settlement.info workspace).1 = .failed failure →
        failure.KeepsTo node.lines := loaded.inner.settle_keepsTo settlement.info on
  unfold settle
  split
  · generalize loaded.inner.settle settlement.info workspace = result at *
    obtain ⟨outcome, info, after⟩ := result
    obtain ⟨sameContext, keeps⟩ := phase
    have sameDiagnostics : after.context.diagnostics = workspace.context.diagnostics :=
      congrArg Context.diagnostics sameContext
    have reported (failure : Failure) (keeps : failure.KeepsTo node.lines) :
        (Visit.mk loaded.index workspace
          (((after.inContext (·.noteCall ⟨.settle, loaded.index, false⟩)).setScript thread
            (some script)).reportAt loaded.line failure)).Reports script nodes := by
      have visit := (setScript_isAt thread script
        (after.inContext (·.noteCall ⟨.settle, loaded.index, false⟩))).visit found
        (.reportAt keeps member (counted_of_node counted found _ member) _)
      exact visit.of_same ((setScript_diagnostics thread (some script) _).trans sameDiagnostics)
    cases outcome with
    | done value =>
      exact ⟨Visit.reports_of_silent found sameDiagnostics, node, found, member, on⟩
    | failed failure => exact ⟨reported failure (keeps failure rfl), node, found, member, on⟩
    | crashed message =>
      have unknown (text : String) : (Failure.fatal text).KeepsTo node.lines := nofun
      exact ⟨reported _ (unknown _), node, found, member, on⟩
  · exact ⟨Visit.reports_of_silent found rfl, node, found, member, on⟩

theorem settleVisits_report (thread : Thread) (script : Script)
    {structures : List LoadedStructure} (stands : ∀ loaded ∈ structures, StandsIn nodes loaded)
    (settlement : Settlement) (workspace : Workspace) :
    (∀ visit ∈ settleVisits thread script structures settlement workspace,
      visit.Reports script nodes) ∧
      ∀ loaded ∈ (settleAll thread script structures settlement workspace).1,
        StandsIn nodes loaded := by
  induction structures generalizing settlement workspace with
  | nil =>
    exact ⟨fun _ absent => absurd absent List.not_mem_nil,
      fun _ absent => absurd absent List.not_mem_nil⟩
  | cons first others ih =>
    obtain ⟨reports, kept⟩ :=
      settle_reports counted thread script (stands first List.mem_cons_self) settlement workspace
    obtain ⟨visits, rest⟩ := ih (fun loaded member => stands loaded (List.mem_cons_of_mem _ member))
      (settle thread script first settlement workspace).2.1
      (settle thread script first settlement workspace).2.2
    refine ⟨fun visit member => ?_, fun loaded member => ?_⟩
    · rcases List.mem_cons.mp member with rfl | later
      · exact reports
      · exact visits visit later
    · rcases List.mem_cons.mp member with rfl | later
      · exact kept
      · exact rest loaded later

end Loading

end ScriptBinding

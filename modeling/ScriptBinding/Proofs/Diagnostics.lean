import ScriptBinding.Proofs.NodeVisits
import ScriptBinding.Proofs.StandardStructures

/-! # Diagnostics point at their source

Whatever is wrong with a script that was read from a text, every diagnostic about it names the
script, and a line of the very node that the loader was handling. No other node at the top of the
script has that line. This holds while the script is loaded, and whenever it is settled later, in
whatever state the loader and the host are by then.
-/

namespace ScriptBinding

/-- The diagnostic names the script, and a line of the node at this place and of no other. -/
structure Diagnostic.PointsAt (script : Script) (nodes : List Node) (place : Nat)
    (diagnostic : Diagnostic) : Prop where
  named : diagnostic.script = some script.name
  placed : ∃ line, diagnostic.line = some line ∧ 0 < line ∧
    (∃ node, nodes[place]? = some node ∧ line ∈ node.lines) ∧
    ∀ other node, nodes[other]? = some node → line ∈ node.lines → other = place

/-- What has become of a script since it was loaded. It may have been settled and unloaded any
number of times, each time in a workspace of its own. -/
inductive LoadedScript.Becomes (loaded : LoadedScript) : LoadedScript → Prop
  | same : Becomes loaded loaded
  | settled (thread : Thread) (workspace : Workspace) {later : LoadedScript}
      (becomes : Becomes loaded later) :
      Becomes loaded (Loading.settleScript thread later workspace).1.1
  | unloaded (thread : Thread) (workspace : Workspace) {later : LoadedScript}
      (becomes : Becomes loaded later) :
      Becomes loaded (Loading.unloadScript thread later workspace).1

namespace Loading

/-- The work of the loader from one workspace to another consists of the visits, and all that they
record points at the nodes that they are made to. -/
structure Visit.AllPoint (script : Script) (nodes : List Node) (visits : List Visit)
    (start final : Workspace) : Prop where
  chained : Chained start visits final
  recorded : final.context.diagnostics = start.context.diagnostics ++ visits.flatMap Visit.recorded
  points : ∀ visit ∈ visits, ∀ diagnostic ∈ visit.recorded,
    diagnostic.PointsAt script nodes visit.place

/-- Where lines grow from one node to the next, the line of a report belongs to one node only. -/
theorem Visit.AllPoint.of_reports {script : Script} {nodes : List Node} {visits : List Visit}
    {start final : Workspace} (grow : (Node.lineNumbers nodes).Pairwise (· < ·))
    (counted : ∀ line ∈ Node.lineNumbers nodes, 0 < line) (chained : Chained start visits final)
    (reports : ∀ visit ∈ visits, visit.Reports script nodes) :
    AllPoint script nodes visits start final := by
  refine ⟨chained, chained.diagnostics reports, fun visit member diagnostic isNew => ?_⟩
  obtain ⟨_, node, found, points⟩ := (reports visit member).recorded
  obtain ⟨named, line, isLine, placed⟩ := points diagnostic isNew
  refine ⟨named, line, placed, counted_of_node counted found line isLine, ⟨node, found, isLine⟩, ?_⟩
  intro other elsewhere isThere also
  by_contra apart
  exact Node.lines_disjoint grow isThere found apart also isLine

/-- The structures that every host has are not from outside, and start without a section. -/
theorem standard_makesEmpty : MakesEmpty Registry.standard.all := by
  intro descriptor member ticket lines
  cases Registry.mem_standard member with
  | function => exact ⟨nofun, nofun⟩
  | command => exact nofun
  | _ => trivial

/-- What becomes of a script is still that script, and its structures stay in their places. -/
theorem stands_of_becomes {nodes : List Node} {loaded later : LoadedScript}
    (counted : ∀ line ∈ Node.lineNumbers nodes, 0 < line)
    (stands : ∀ one ∈ loaded.structures, StandsIn nodes one) (becomes : loaded.Becomes later) :
    later.script = loaded.script ∧ ∀ one ∈ later.structures, StandsIn nodes one := by
  induction becomes with
  | same => exact ⟨rfl, stands⟩
  | settled thread workspace _ ih =>
    obtain ⟨sameScript, earlier⟩ := ih
    exact ⟨sameScript, (settleVisits_report counted thread _ earlier _ workspace).2⟩
  | unloaded thread workspace _ ih =>
    exact ⟨ih.1, fun _ absent => absurd absent List.not_mem_nil⟩

section

variable {registry : Registry} {name text : String} {tree : Section} {workspace : Workspace}

/-- A script is loaded by visits to its nodes, which record what they have to say about them. -/
theorem loadVisits_point (empty : MakesEmpty registry.all)
    (parsed : Section.parse name text = .ok tree) (knows : workspace.host.classes.KnowsObjects)
    (thread : Thread) (script : Script) (path : Path) :
    let start := workspace.setScript thread (some script)
    ∃ last change,
      Visit.AllPoint script tree.nodes (loadVisits registry thread tree.nodes start) start last ∧
        (loadScript registry thread script ⟨path, tree⟩ workspace).2 =
          last.inContext (·.updateInfo change) := by
  intro start
  obtain ⟨grow, counted⟩ := Section.parse_lineNumbers parsed
  have attends : Attends script start :=
    ⟨setScript_isAt thread script workspace,
      (setScript_classes thread (some script) workspace).symm ▸ knows⟩
  obtain ⟨reports, _⟩ := loadVisits_report counted empty thread attends
  obtain ⟨last, change, chained, isLast⟩ :=
    loadVisits_chained registry thread script tree.nodes start
  exact ⟨last, change, .of_reports grow counted chained reports, isLast⟩

/-- Whatever has become of a script that was loaded, it is settled by visits to its nodes. -/
theorem settleVisits_point (empty : MakesEmpty registry.all)
    (parsed : Section.parse name text = .ok tree) (knows : workspace.host.classes.KnowsObjects)
    {thread : Thread} {script : Script} {path : Path} {later : LoadedScript}
    (becomes : (loadScript registry thread script ⟨path, tree⟩ workspace).1.Becomes later)
    (settling : Thread) (start : Workspace) :
    Visit.AllPoint script tree.nodes
      (settleVisits settling later.script later.structures ⟨later.info, 0⟩ start) start
      (settleScript settling later start).2 := by
  obtain ⟨grow, counted⟩ := Section.parse_lineNumbers parsed
  have attends : Attends script (workspace.setScript thread (some script)) :=
    ⟨setScript_isAt thread script workspace,
      (setScript_classes thread (some script) workspace).symm ▸ knows⟩
  obtain ⟨_, stands⟩ := loadVisits_report counted empty thread attends
  obtain ⟨sameScript, places⟩ := stands_of_becomes counted stands becomes
  have isScript : later.script = script := sameScript
  have settles := settleVisits_report counted settling later.script places ⟨later.info, 0⟩ start
  rw [isScript] at settles
  rw [isScript]
  refine .of_reports grow counted ?_ settles.1
  rw [← isScript]
  exact settleVisits_chained settling later.script later.structures ⟨later.info, 0⟩ start

end

/-- Loading a script that was read from a text consists of visits to the nodes of its tree, and so
does every later settling of what it has become. Each diagnostic is recorded during one of these
visits. It names the script, and a line of the node that is visited: a line of its own, counted from
one, that no other node at the top of the script has. -/
theorem loadScript_points {name text : String} {tree : Section} {workspace : Workspace}
    (parsed : Section.parse name text = .ok tree) (knows : workspace.host.classes.KnowsObjects)
    (thread : Thread) (script : Script) (path : Path) :
    let start := workspace.setScript thread (some script)
    let result := loadScript .standard thread script ⟨path, tree⟩ workspace
    start.context.diagnostics = workspace.context.diagnostics ∧
      (∃ last change,
        Visit.AllPoint script tree.nodes (loadVisits .standard thread tree.nodes start) start last ∧
          result.2 = last.inContext (·.updateInfo change)) ∧
      ∀ later, result.1.Becomes later → ∀ thread workspace,
        Visit.AllPoint script tree.nodes
          (settleVisits thread later.script later.structures ⟨later.info, 0⟩ workspace) workspace
          (settleScript thread later workspace).2 :=
  ⟨setScript_diagnostics thread (some script) workspace,
    loadVisits_point standard_makesEmpty parsed knows thread script path,
    fun _ becomes => settleVisits_point standard_makesEmpty parsed knows becomes⟩

/-- A line that nobody understands, and a section of options with a line that is none. -/
def oopsNodes : List Node :=
  [.simple "oops" 1, .nested "options" 2 [.simple "bad" 3]]

theorem oops_parsed : Section.parse "oops.sk" "oops\noptions:\n\tbad" =
    .ok ⟨"oops.sk", 0, oopsNodes⟩ := by
  have lines : Line.read "oops\noptions:\n\tbad" =
      .ok [⟨0, "oops", 1⟩, ⟨0, "options:", 2⟩, ⟨1, "bad", 3⟩] := by decide +kernel
  have plain : Line.header? ⟨0, "oops", 1⟩ = none := by decide +kernel
  have header : Line.header? ⟨0, "options:", 2⟩ = some "options" := by decide +kernel
  have below : Line.header? ⟨1, "bad", 3⟩ = none := by decide +kernel
  rw [Section.parse, lines]
  simp [Line.trees, plain, header, below, Except.map, oopsNodes]

/-- The line that nobody understands is reported where it stands. -/
theorem oops_reported :
    let script : Script := ⟨⟨"oops.sk"⟩, 1⟩
    let start := ({} : Workspace).setScript .main (some script)
    Section.parse "oops.sk" "oops\noptions:\n\tbad" = .ok ⟨"oops.sk", 0, oopsNodes⟩ ∧
      ({} : Workspace).host.classes.KnowsObjects ∧
      ∃ visit ∈ loadVisits .standard .main oopsNodes start, ∃ diagnostic ∈ visit.recorded,
        visit.place = 0 ∧ diagnostic.PointsAt script oopsNodes 0 := by
  intro script start
  have knows : ({} : Workspace).host.classes.KnowsObjects := ClassRegistry.standard_knowsObjects
  obtain ⟨_, ⟨_, _, visits, _⟩, _⟩ :=
    loadScript_points oops_parsed knows .main script ⟨"oops.sk"⟩
  refine ⟨oops_parsed, knows, ?_⟩
  let first : Visit := ⟨0, start, reportPlain [.simple "oops" 1] start⟩
  have isFirst : first ∈ loadVisits .standard .main oopsNodes start :=
    plainVisits_subset .standard .main oopsNodes start List.mem_cons_self
  have recorded : first.recorded =
      [⟨.parse, "Can't understand this structure: oops", some script.name, some 1⟩] := rfl
  have member := recorded ▸ List.mem_singleton_self _
  exact ⟨first, isFirst, _, member, rfl, visits.points first isFirst _ member⟩

end Loading

end ScriptBinding

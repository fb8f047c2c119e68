import ScriptBinding.Proofs.Twins

/-! # Two loads of one script, from the headers to the end

Where every structure that is loaded is built in, two loads of a script stay twins from its first
section to its last one. They come to the same structures, but for the loads, and count them alike.
-/

namespace ScriptBinding

variable {both : Comparison} {first second : Workspace}

namespace Comparison

/-- Structures of both loads that stand for the same have come equally far. -/
inductive AlikeLoaded (both : Comparison) : LoadedStructure → LoadedStructure → Prop
  | intro (loaded : LoadedStructure) {other : Structure} (alike : both.Alike loaded.inner other) :
      AlikeLoaded both loaded { loaded with inner := other }

/-- The descriptor makes structures that are alike for the tickets of both loads. -/
def Makes (both : Comparison) (descriptor : Descriptor) : Prop :=
  ∀ ticket, both.floor ≤ ticket →
    both.Alike (descriptor.create ticket) (descriptor.create (ticket + both.shift))

theorem Alike.priority {one other : Structure} (alike : both.Alike one other) :
    other.priority = one.priority := by
  cases alike <;> rfl

end Comparison

namespace Loading

theorem takeHeader_twins (twins : both.Twins first second) (assignment : Assignment)
    (makes : both.Makes assignment.descriptor) :
    both.Phases (takeHeader assignment first) (takeHeader assignment second) := by
  have ready : both.Twins (inHand assignment first) (inHand assignment second) :=
    { twins with
      later := twins.later.trans (Nat.le_succ _)
      nextTicket := by
        simp only [inHand, twins.nextTicket]
        omega
      inHand := rfl
      exactly := fun exact => { twins.exactly exact with } }
  have takes := Structure.init_twins ready (makes first.host.nextTicket twins.later)
    assignment.header assignment.top.body
  rw [takeHeader_eq, takeHeader_eq, twins.nextTicket]
  generalize (assignment.descriptor.create first.host.nextTicket).init assignment.header
      assignment.top.body (inHand assignment first) = one,
    (assignment.descriptor.create (first.host.nextTicket + both.shift)).init assignment.header
      assignment.top.body (inHand assignment second) = other at takes ⊢
  cases takes with
  | both _ alike twins => exact .both _ alike (twins.takeInHand none none)

theorem initialise_twins (twins : both.Twins first second) (assignment : Assignment)
    (makes : both.Makes assignment.descriptor) :
    both.Results (Option.Rel both.AlikeLoaded) (initialise assignment first)
      (initialise assignment second) := by
  have takes := takeHeader_twins twins assignment makes
  unfold initialise
  generalize takeHeader assignment first = one, takeHeader assignment second = other at takes ⊢
  cases takes with
  | both outcome alike twins =>
    dsimp only
    split
    · rw [alike.priority]
      exact .both (.some (.intro ⟨_, _, _, _, _, false, false⟩ alike)) (twins.noteCall _)
    · exact .both .none ((twins.noteCall _).record _ _)
    · exact .both .none ((twins.noteCall _).record _ _)

/-- A phase of two structures that are alike is concluded in the same way. -/
theorem conclude_twins (phase : Phase) (loaded : LoadedStructure) (inner : Structure)
    {one other : Outcome Unit × Structure × Workspace} (phases : both.Phases one other) :
    (conclude phase { loaded with inner } other).1 = (conclude phase loaded one).1 ∧
      ∃ there, both.Alike (conclude phase loaded one).2.1.inner there ∧
        (conclude phase { loaded with inner } other).2.1 =
          { (conclude phase loaded one).2.1 with inner := there } ∧
        both.Twins (conclude phase loaded one).2.2
          (conclude phase { loaded with inner } other).2.2 := by
  cases phases with
  | both outcome alike twins =>
    unfold conclude activity
    dsimp only
    split
    · exact ⟨rfl, _, alike, rfl, twins.noteCall _⟩
    · exact ⟨rfl, _, alike, rfl, (twins.noteCall _).record _ _⟩

theorem preload_twins (twins : both.Twins first second) {loaded also : LoadedStructure}
    (alike : both.AlikeLoaded loaded also) :
    both.Results both.AlikeLoaded (preload loaded first) (preload also second) := by
  cases alike with
  | @intro other alike =>
    obtain ⟨_, there, alike, same, twins⟩ :=
      conclude_twins .preload loaded other (Structure.preload_twins twins alike)
    unfold preload
    dsimp only
    generalize conclude .preload loaded (loaded.inner.preload first) = one,
      conclude .preload { loaded with inner := other } (other.preload second) = two
      at alike same twins ⊢
    rw [same]
    exact .both (.intro { one.2.1 with preloaded := true } alike) twins

/-- The bodies of structures that are alike are loaded alike. -/
theorem loadBody_twins (twins : both.Twins first second) {loaded also : LoadedStructure}
    (alike : both.AlikeLoaded loaded also) :
    both.Results both.AlikeLoaded (loadBody .main loaded first) (loadBody .main also second) := by
  cases alike with
  | @intro other alike =>
    obtain ⟨success, there, alike, same, twins⟩ :=
      conclude_twins .load loaded other (Structure.load_twins twins alike)
    unfold loadBody
    dsimp only
    generalize conclude .load loaded (loaded.inner.load .main first) = one,
      conclude .load { loaded with inner := other } (other.load .main second) = two
      at success alike same twins ⊢
    rw [success, same]
    exact .both (.intro { one.2.1 with loaded := one.1 } alike) twins

theorem load_twins (twins : both.Twins first second) {loaded also : LoadedStructure}
    (alike : both.AlikeLoaded loaded also) :
    both.Results both.AlikeLoaded (load .main loaded first) (load .main also second) := by
  have ready : both.Results both.AlikeLoaded (readied loaded first) (readied also second) := by
    have preloads := preload_twins twins alike
    unfold readied
    cases alike with
    | intro alike =>
      dsimp only
      split
      · exact .both (.intro loaded alike) twins
      · exact preloads
  rw [load_eq, load_eq]
  generalize readied loaded first = one, readied also second = other at ready ⊢
  cases ready with
  | both alike twins => exact loadBody_twins twins alike

theorem afterLoad_twins (twins : both.Twins first second) {loaded also : LoadedStructure}
    (alike : both.AlikeLoaded loaded also) :
    both.Results both.AlikeLoaded (afterLoad loaded first) (afterLoad also second) := by
  cases alike with
  | @intro other alike =>
    obtain ⟨_, there, mended, same, after⟩ :=
      conclude_twins .afterLoad loaded other (Structure.afterLoad_twins twins alike)
    unfold afterLoad
    dsimp only
    split
    · generalize conclude .afterLoad loaded (loaded.inner.afterLoad first) = one,
        conclude .afterLoad { loaded with inner := other } (other.afterLoad second) = two
        at mended same after ⊢
      obtain ⟨_, one, _⟩ := one
      obtain ⟨_, two, _⟩ := two
      dsimp only at mended same after ⊢
      rw [same]
      exact .both (.intro one mended) after
    · exact .both (.intro loaded alike) twins

theorem initialisePreloading_twins (twins : both.Twins first second) (assignment : Assignment)
    (makes : both.Makes assignment.descriptor) :
    both.Results (Option.Rel both.AlikeLoaded) (initialisePreloading assignment first)
      (initialisePreloading assignment second) := by
  have takes := initialise_twins twins assignment makes
  unfold initialisePreloading
  generalize initialise assignment first = one, initialise assignment second = other at takes ⊢
  cases takes with
  | @both _ _ first second related twins =>
    cases related with
    | none => exact .both .none twins
    | @some loaded also alike =>
      have preloads := preload_twins twins alike
      dsimp only
      generalize preload loaded first = one, preload also second = other at preloads ⊢
      cases preloads with
      | both alike twins => exact .both (.some alike) twins

theorem initialiseNormal_twins (twins : both.Twins first second) (descriptors : List Descriptor)
    (top : TopSection) (makes : ∀ descriptor ∈ descriptors, both.Makes descriptor) :
    both.Results (Option.Rel both.AlikeLoaded) (initialiseNormal descriptors top first)
      (initialiseNormal descriptors top second) := by
  unfold initialiseNormal
  cases found : assign? descriptors top with
  | none => exact .both .none (twins.record _ _)
  | some assignment =>
    refine initialise_twins twins assignment (makes _ ?_)
    obtain ⟨⟨descriptor, header⟩, first, rfl⟩ := Option.map_eq_some_iff.mp found
    exact first?_mem first

/-- Runs that stay twins over every pair of items stay so over lists of them. -/
theorem each_twins {α β : Type} {Given : α → α → Prop} {Related : β → β → Prop}
    {act : α → Workspace → β × Workspace} {items others : List α}
    (twins : both.Twins first second) (given : List.Forall₂ Given items others)
    (one : ∀ item other first second, item ∈ items → Given item other →
      both.Twins first second → both.Results Related (act item first) (act other second)) :
    both.Results (List.Forall₂ Related) (each act items first) (each act others second) := by
  induction given generalizing first second with
  | nil => exact .both .nil twins
  | @cons item other items others given rest ih =>
    have head := one item other first second List.mem_cons_self given twins
    unfold each
    generalize act item first = here, act other second = there at head ⊢
    cases head with
    | @both _ _ first second related twins =>
      have tail := ih twins fun item other first second member =>
        one item other first second (List.mem_cons_of_mem _ member)
      dsimp only
      generalize each act items first = here, each act others second = there at tail ⊢
      cases tail with
      | both rest twins => exact .both (.cons related rest) twins

theorem reportPlain_twins (twins : both.Twins first second) (nodes : List Node) :
    both.Twins (reportPlain nodes first) (reportPlain nodes second) := by
  unfold reportPlain
  induction nodes generalizing first second with
  | nil => exact twins
  | cons node others ih =>
    rw [List.foldl_cons, List.foldl_cons]
    refine ih ?_
    cases node with
    | nested key line nodes => exact twins
    | entry key value line => exact twins.record _ _
    | simple key line => exact twins.record _ _

/-- Related items are put in order alike. -/
theorem forall₂_mergeSort {α : Type} {Related : α → α → Prop} {earlier : α → α → Bool}
    {items others : List α} (related : List.Forall₂ Related items others)
    (alike : ∀ one other here there, Related one other → Related here there →
      earlier other there = earlier one here) :
    List.Forall₂ Related (items.mergeSort earlier) (others.mergeSort earlier) := by
  obtain ⟨length, pairs⟩ := List.forall₂_iff_zip.mp related
  let sorted := (items.zip others).mergeSort fun one other => earlier one.1 other.1
  have firsts : sorted.map Prod.fst = items.mergeSort earlier := by
    refine (List.map_mergeSort (s := earlier) fun _ _ _ _ => rfl).trans ?_
    rw [List.map_fst_zip length.le]
  have seconds : sorted.map Prod.snd = others.mergeSort earlier := by
    refine (List.map_mergeSort (s := earlier) fun one member other there => ?_).trans ?_
    · exact (alike _ _ _ _ (pairs member) (pairs there)).symm
    · rw [List.map_snd_zip length.ge]
  rw [← firsts, ← seconds, List.forall₂_map_left_iff, List.forall₂_map_right_iff,
    List.forall₂_same]
  exact fun pair member => pairs (List.mem_mergeSort.mp member)

theorem forall₂_reduceOption {α : Type} {Related : α → α → Prop} {items others : List (Option α)}
    (related : List.Forall₂ (Option.Rel Related) items others) :
    List.Forall₂ Related items.reduceOption others.reduceOption := by
  induction related with
  | nil => exact .nil
  | cons head _ ih =>
    cases head with
    | none => exact ih
    | some head => exact .cons head ih

/-- Of structures that are alike the same ones are loaded first. -/
theorem before_alike {one other here there : LoadedStructure} (first : both.AlikeLoaded one other)
    (second : both.AlikeLoaded here there) : before other there = before one here := by
  cases first
  cases second
  rfl

variable {registry : Registry}

/-- The sections of a script take their headers alike for both loads. -/
theorem initialiseAll_twins (twins : both.Twins first second) (nodes : List Node)
    (makes : ∀ descriptor ∈ registry.all, both.Makes descriptor) :
    both.Results (List.Forall₂ both.AlikeLoaded) (initialiseAll registry nodes first)
      (initialiseAll registry nodes second) := by
  have same {α : Type} (items : List α) : List.Forall₂ (· = ·) items items :=
    List.forall₂_same.mpr fun _ _ => rfl
  have early : both.Results (List.Forall₂ (Option.Rel both.AlikeLoaded))
      (each initialisePreloading (claimAll registry.preloading (topSections 0 nodes)).1
        (reportPlain nodes first))
      (each initialisePreloading (claimAll registry.preloading (topSections 0 nodes)).1
        (reportPlain nodes second)) := by
    refine each_twins (reportPlain_twins twins nodes) (same _) ?_
    rintro assignment _ first second member rfl twins
    exact initialisePreloading_twins twins assignment
      (makes _ (first?_mem (match?_of_claimed registry _ assignment member)))
  unfold initialiseAll
  dsimp only
  generalize each initialisePreloading _ (reportPlain nodes first) = one,
    each initialisePreloading _ (reportPlain nodes second) = other at early ⊢
  cases early with
  | @both _ _ first second preloading twins =>
    have late : both.Results (List.Forall₂ (Option.Rel both.AlikeLoaded))
        (each (initialiseNormal registry.normal)
          (claimAll registry.preloading (topSections 0 nodes)).2 first)
        (each (initialiseNormal registry.normal)
          (claimAll registry.preloading (topSections 0 nodes)).2 second) := by
      refine each_twins twins (same _) ?_
      rintro top _ first second _ rfl twins
      exact initialiseNormal_twins twins registry.normal top
        fun descriptor member => makes descriptor (List.mem_append_right _ member)
    dsimp only
    generalize each (initialiseNormal registry.normal) _ first = one,
      each (initialiseNormal registry.normal) _ second = other at late ⊢
    cases late with
    | both normal twins =>
      refine .both (forall₂_mergeSort (forall₂_reduceOption ?_) ?_) twins
      · exact List.rel_append preloading normal
      · exact fun _ _ _ _ => before_alike

/-- A script is loaded alike as both loads, with the same number of failures when nothing else
differs. -/
theorem loadCurrent_twins (twins : both.Twins first second) (nodes : List Node)
    (makes : ∀ descriptor ∈ registry.all, both.Makes descriptor) :
    let one := loadCurrent registry .main both.old nodes first
    let other := loadCurrent registry .main both.new nodes second
    List.Forall₂ both.AlikeLoaded one.1.structures other.1.structures ∧
      other.1.info = one.1.info ∧ (both.exact → other.1.errors = one.1.errors) ∧
      both.Twins one.2 other.2 := by
  have headers := initialiseAll_twins twins nodes makes
  unfold loadCurrent
  dsimp only
  generalize initialiseAll registry nodes first = one,
    initialiseAll registry nodes second = other at headers ⊢
  have each_alike (act : LoadedStructure → Workspace → LoadedStructure × Workspace)
      (one : ∀ {loaded also first second}, both.Twins first second → both.AlikeLoaded loaded also →
        both.Results both.AlikeLoaded (act loaded first) (act also second))
      {here there : List LoadedStructure × Workspace}
      (before : both.Results (List.Forall₂ both.AlikeLoaded) here there) :
      both.Results (List.Forall₂ both.AlikeLoaded) (each act here.1 here.2)
        (each act there.1 there.2) := by
    cases before with
    | both alike twins => exact each_twins twins alike fun _ _ _ _ _ alike twins => one twins alike
  have bodies := each_alike (load .main) (fun twins alike => load_twins twins alike) headers
  generalize each (load .main) one.1 one.2 = one,
    each (load .main) other.1 other.2 = other at bodies ⊢
  have mended := each_alike afterLoad (fun twins alike => afterLoad_twins twins alike) bodies
  generalize each afterLoad one.1 one.2 = one, each afterLoad other.1 other.2 = other at mended ⊢
  cases mended with
  | @both results _ _ _ alike final =>
    have counted := final.updateInfo fun info => { info with structures := results.length }
    refine ⟨alike, ?_, ?_, ?_⟩
    · rw [← alike.length_eq]
      exact counted.info
    · intro exact
      simp only [Workspace.inContext, Context.updateInfo, (twins.exactly exact).diagnostics,
        (final.exactly exact).diagnostics, List.length_append]
      omega
    · rw [← alike.length_eq]
      exact counted

end Loading

/-! ## Comparisons that differ in nothing else -/

theorem Comparison.Alike.eq_inner {one other : Structure} (alike : both.Alike one other)
    (exact : both.exact) : other = both.inner one := by
  cases alike with
  | defaults inner other same => rw [same exact]; rfl
  | _ => rfl

theorem Comparison.AlikeLoaded.eq_structureOf {one other : LoadedStructure}
    (alike : both.AlikeLoaded one other) (exact : both.exact) : other = both.structureOf one := by
  cases alike with
  | intro alike => rw [alike.eq_inner exact]; rfl

/-- Every standard descriptor makes structures that are alike for both loads. -/
theorem Descriptor.Standard.makes {descriptor : Descriptor} (standard : descriptor.Standard) :
    both.Makes descriptor := by
  intro ticket later
  cases standard with
  | options => exact .options _
  | function => exact .function {} nofun
  | aliases => exact .aliases
  | defaults => exact .defaults _ _ fun _ => rfl
  | command => exact .command { ticket } later
  | event info filter builtIn =>
    refine .event { ticket, unused := some filter } ?_
    rintro _ ⟨⟩
    exact builtIn

end ScriptBinding

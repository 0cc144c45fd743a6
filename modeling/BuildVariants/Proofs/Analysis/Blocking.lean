import BuildVariants.Proofs.Analysis.Agreement
import Mathlib.Data.List.Chain

/-!
Dependencies that keep variants apart. A library that has no folding, or has a build type expanded,
blocks that build type in every project whose variants depend on it. The project sees the library as
it is at the end of the run or, if the library comes later, as one without a folding, and is blocked
in both cases. Blocking therefore spreads along every chain of dependencies, and it does not matter
whether the graph has an edge for each of them.
-/

set_option autoImplicit false
set_option relaxedAutoImplicit false

namespace BuildVariants

/-- Every variant of a build type is assigned its own suffix, which no other variant is assigned. -/
def Folding.KeepsApart {α : Type} (buildTypeOf : String → String) (variants : OrderedMap α)
    (buildType : String) (folding : Folding α) : Prop :=
  ∀ v ∈ variants.keys, buildTypeOf v = buildType →
    folding.assignment.get? v = some (Suffix.ofName v) ∧
      ∀ w, w ≠ v → folding.assignment.get? w ≠ some (Suffix.ofName v)

theorem LibraryVariant.keepsApart_of_staysExpanded {options : LibraryOptions}
    {buildTypeOf : String → String} {states : DependencyStates}
    {variants : OrderedMap LibraryVariant} {report : FoldingReport LibraryVariant}
    (h : fold options buildTypeOf states variants = .ok report) {buildType : String}
    (hstays : StaysExpanded options buildTypeOf states variants buildType) :
    buildType ∈ report.folding.expanded.names ∧
      report.folding.KeepsApart buildTypeOf variants buildType := by
  obtain ⟨outcome, houtcome, hreport⟩ := fold_eq_ok_iff.mp h
  obtain ⟨-, -, hassignment, hnames, -⟩ := Outcome.report_eq_ok_iff.mp hreport
  have hexpanded := (mem_expanded_iff houtcome buildType).mpr hstays
  have hpartial : ¬ FoldsFully options buildTypeOf states variants := by
    intro hfull
    exact hfull.2.2.1 buildType hstays
  refine ⟨hnames ▸ hexpanded, ?_⟩
  rintro v hv rfl
  obtain ⟨item, hitem⟩ := OrderedMap.mem_keys_iff.mp hv
  have hown : report.folding.assignment.get? v = some (Suffix.ofName v) := by
    rw [hassignment, get?_assignment_of_not_foldsFully houtcome hpartial hitem,
      if_neg fun hshared => hshared.2 hexpanded]
  refine ⟨hown, ?_⟩
  intro w hne hw
  rcases foldsFully_or_of_same_suffix h hown hw with hfull | ⟨-, happart⟩
  · exact hpartial hfull
  · exact happart hne.symm hstays

/-- A path blocks a build type if it has no library folding, or one in which the build type is
expanded. -/
def Registry.Blocks (r : Registry) (buildType path : String) : Prop :=
  r.library? path = none ∨
    ∃ folding, r.library? path = some folding ∧ buildType ∈ folding.expanded.names

theorem Registry.holdsApart_stateOf_iff {r : Registry} {buildType path : String} :
    (r.stateOf path).HoldsApart buildType ↔ r.Blocks buildType path := by
  rw [stateOf, Blocks, DependencyState.HoldsApart]
  cases r.library? path with
  | none => simp
  | some folding => simp

/-- A library that blocks a build type holds it apart for every project that refers to it, whether
it comes earlier or later. -/
theorem Registry.Blocks.holdsApart_earlierStates {r : Registry} {buildType path : String}
    (h : r.Blocks buildType path) {g : ProjectGraph} (hlibrary : g.hasLibrary path = true)
    (paths : List String) (dependent : String) {variants : List LibraryVariant}
    (hpath : path ∈ LibraryVariant.referencedProjects variants) :
    (r.earlierStates g paths dependent variants path).HoldsApart buildType := by
  rw [earlierStates, if_pos ⟨hpath, hlibrary⟩]
  split
  · exact holdsApart_stateOf_iff.mpr h
  · exact Or.inl rfl

namespace Analyzer

variable (a : Analyzer)

/-- A project relies on a path for a build type if it has several variants of the build type and one
of them depends on the path, as far as the data of its variants can be extracted. -/
def ReliesOn (project : Project) (buildType path : String) : Prop :=
  ∀ variants data, a.HasVariants project variants data →
    2 ≤ (data.membersOf (a.buildTypeOf variants) buildType).length ∧
      ∃ x ∈ data.membersOf (a.buildTypeOf variants) buildType, x.2.DependsOn path

/-- A folding of a project keeps the variants of a build type apart if the build type is expanded
and each of its variants is assigned a suffix of its own. -/
def KeepsApart (project : Project) (buildType : String) (folding : Folding LibraryVariant) : Prop :=
  buildType ∈ folding.expanded.names ∧ ∃ variants data, a.HasVariants project variants data ∧
    folding.KeepsApart (a.buildTypeOf variants) data buildType

variable {a} {g : ProjectGraph} {s after : Session} {summary : Summary}

/-- One step of blocking: a project that relies on a library is kept apart where the library
blocks. -/
theorem Settles.keepsApart_of_blocks (hcheck : a.policy.checkDependencies = true)
    {paths : List String} {r : Registry} (hsettles : a.Settles g paths r) {project : Project}
    (hproject : g.project project.path = .ok project) {dependency buildType : String}
    (hlibrary : g.hasLibrary dependency = true)
    (hrelies : a.ReliesOn project buildType dependency)
    (hblocks : r.Blocks buildType dependency) {folding : Folding LibraryVariant}
    (hfolding : r.library? project.path = some folding) :
    a.KeepsApart project buildType folding := by
  obtain ⟨variants, data, report, hdata, hreport, rfl⟩ := hsettles.foldsTo hproject hfolding
  obtain ⟨hseveral, x, hx, hdepends⟩ := hrelies variants data hdata
  have hitem : x.2 ∈ data.values := List.mem_map.mpr ⟨x, (List.mem_filter.mp hx).1, rfl⟩
  have hreferenced : dependency ∈ LibraryVariant.referencedProjects data.values :=
    LibraryVariant.mem_referencedProjects.mpr ⟨x.2, hitem, hdepends⟩
  have hheld := hblocks.holdsApart_earlierStates hlibrary paths project.path hreferenced
  have hstays : LibraryVariant.StaysExpanded a.libraryOptions (a.buildTypeOf variants)
      (r.earlierStates g paths project.path data.values) data buildType :=
    ⟨hseveral, Or.inr ⟨hcheck, x, hx, dependency, hdepends, hheld⟩⟩
  obtain ⟨hexpanded, happart⟩ := LibraryVariant.keepsApart_of_staysExpanded hreport hstays
  exact ⟨hexpanded, variants, data, hdata, happart⟩

/-- After a completed run that checks dependencies, a library that blocks a build type keeps it
apart along every chain of libraries that rely on each other for it: each of them has no folding, or
has the build type expanded and a suffix of its own for each variant of it. -/
theorem blocking_propagates (hbuilt : g.Built) (hcheck : a.policy.checkDependencies = true)
    (hrun : a.run g s = (.ok summary, after)) {buildType : String} {first : Project}
    {rest : List Project}
    (hlibraries : ∀ project ∈ first :: rest,
      g.project project.path = .ok project ∧ project.isLibrary = true)
    (hchain : (first :: rest).IsChain fun dependency dependent =>
      a.ReliesOn dependent buildType dependency.path)
    (hfirst : after.registry.library? first.path = none ∨ ∃ folding,
      after.registry.library? first.path = some folding ∧ buildType ∈ folding.expanded.names) :
    ∀ project ∈ rest, after.registry.library? project.path = none ∨ ∃ folding,
      after.registry.library? project.path = some folding ∧
        a.KeepsApart project buildType folding := by
  obtain ⟨paths, -, hsettles⟩ := settles_run hbuilt hrun
  -- The head of the chain blocks, so the next project is kept apart and blocks in its turn.
  induction rest generalizing first with
  | nil => simp
  | cons second rest ih =>
    rw [List.isChain_cons_cons] at hchain
    obtain ⟨hrelies, hchain⟩ := hchain
    rw [List.forall_mem_cons] at hlibraries
    obtain ⟨⟨hproject, hlibrary⟩, hlibraries⟩ := hlibraries
    have htracked : g.hasLibrary first.path = true :=
      (ProjectGraph.hasLibrary_eq hproject).trans hlibrary
    have hsecond : after.registry.library? second.path = none ∨ ∃ folding,
        after.registry.library? second.path = some folding ∧
          a.KeepsApart second buildType folding := by
      cases hfolding : after.registry.library? second.path with
      | none => exact Or.inl rfl
      | some folding =>
        exact Or.inr ⟨folding, rfl, hsettles.keepsApart_of_blocks hcheck
          (hlibraries second List.mem_cons_self).1 htracked hrelies hfirst hfolding⟩
    rw [List.forall_mem_cons]
    refine ⟨hsecond, ih hlibraries hchain ?_⟩
    rcases hsecond with hnone | ⟨folding, hfolding, happart⟩
    · exact Or.inl hnone
    · exact Or.inr ⟨folding, hfolding, happart.1⟩

def looseGraph : ProjectGraph where
  nodes := ⟨[(":app", ⟨⟨":app", true⟩, []⟩), (":core", ⟨⟨":core", true⟩, []⟩),
    (":ui", ⟨⟨":ui", true⟩, []⟩)], by decide⟩

/-- Two debug variants, which differ if only the paid one is composed. -/
def looseVariants (deps : List Dependency) (compose : Bool) :
    OrderedMap (MatchedVariant × LibraryVariant) :=
  .ofList [
    ("freeDebug", ⟨"freeDebug", "debug", []⟩, { name := "free-debug", deps }),
    ("paidDebug", ⟨"paidDebug", "debug", []⟩, { name := "paid-debug", deps, compose })]

/-- An analysis in which the application depends on a library that is visited after it, and that
library on one whose variants differ. -/
def loose : Analyzer where
  source := RecordedSource.source {
    libraries := .ofList [(":app", looseVariants [.project ":ui" ""] false),
      (":core", looseVariants [] true), (":ui", looseVariants [.project ":core" ""] false)]
    tests := .empty }
  policy := .standard
  timestamp := "2024-01-01T00:00:00+00:00"

theorem built_looseGraph : looseGraph.Built := by
  have happ := ProjectGraph.Built.addProject (p := ⟨":app", true⟩) .empty rfl
  have hcore := ProjectGraph.Built.addProject (p := ⟨":core", true⟩) happ rfl
  exact hcore.addProject
    (show ProjectGraph.addProject _ (⟨":ui", true⟩ : Project) = .ok looseGraph from rfl)

theorem acyclic_looseGraph : looseGraph.Acyclic := by
  apply ProjectGraph.acyclic_of_rank fun _ => 0
  intro dependent dependency h
  obtain ⟨node, hnode, hmem⟩ := ProjectGraph.depends_iff.mp h
  have hentry := OrderedMap.get?_eq_some_iff.mp hnode
  simp only [looseGraph, List.mem_cons, Prod.mk.injEq, List.not_mem_nil, or_false] at hentry
  rcases hentry with ⟨rfl, rfl⟩ | ⟨rfl, rfl⟩ | ⟨rfl, rfl⟩
  all_goals cases hmem

/-- The debug variants stay apart in the application too, though it knows nothing of the library
whose variants differ. -/
theorem blocking_propagates_loose :
    ∃ summary after, loose.run looseGraph .empty = (.ok summary, after) ∧
      ∀ project ∈ [(⟨":ui", true⟩ : Project), ⟨":app", true⟩],
        ∃ folding, after.registry.library? project.path = some folding ∧
          loose.KeepsApart project "debug" folding := by
  have hanswer : (loose.run looseGraph .empty).1.isOk = true ∧
      ((loose.run looseGraph .empty).2.registry.library? ":core").map (·.expanded.names) =
        some ["debug"] ∧
      ∀ project ∈ [(⟨":ui", true⟩ : Project), ⟨":app", true⟩],
        ((loose.run looseGraph .empty).2.registry.library? project.path).isSome = true := by
    decide +kernel
  obtain ⟨hok, hcore, hregistered⟩ := hanswer
  obtain ⟨summary, hrun⟩ := exists_run_of_isOk hok
  obtain ⟨folding, hfolding, hexpanded⟩ := Option.map_eq_some_iff.mp hcore
  have hui : loose.ReliesOn ⟨":ui", true⟩ "debug" ":core" := by
    intro variants data hdata
    obtain ⟨rfl, rfl⟩ := hdata.unique ⟨rfl, rfl⟩
    exact ⟨by decide +kernel, ("freeDebug", _), List.mem_cons_self, "", List.mem_cons_self⟩
  have happ : loose.ReliesOn ⟨":app", true⟩ "debug" ":ui" := by
    intro variants data hdata
    obtain ⟨rfl, rfl⟩ := hdata.unique ⟨rfl, rfl⟩
    exact ⟨by decide +kernel, ("freeDebug", _), List.mem_cons_self, "", List.mem_cons_self⟩
  have hlibraries : ∀ project ∈ [(⟨":core", true⟩ : Project), ⟨":ui", true⟩, ⟨":app", true⟩],
      looseGraph.project project.path = .ok project ∧ project.isLibrary = true := by
    simp only [List.mem_cons, List.not_mem_nil, or_false]
    rintro project (rfl | rfl | rfl)
    all_goals exact ⟨rfl, rfl⟩
  have hchain : [(⟨":core", true⟩ : Project), ⟨":ui", true⟩, ⟨":app", true⟩].IsChain
      fun dependency dependent => loose.ReliesOn dependent "debug" dependency.path :=
    .cons_cons hui (.cons_cons happ (.singleton _))
  have happart := blocking_propagates built_looseGraph rfl hrun hlibraries hchain
    (Or.inr ⟨folding, hfolding, by simp [hexpanded]⟩)
  refine ⟨summary, _, hrun, fun project hproject => ?_⟩
  rcases happart project hproject with hnone | hexists
  · simpa [hnone] using hregistered project hproject
  · exact hexists

end Analyzer

end BuildVariants

import BuildVariants.Proofs.Analysis.Specification
import BuildVariants.Proofs.Folding.FullFolding

/-!
Full folding is closed under dependencies. A library with several build types folds fully only where
every library that its variants depend on is fully folded already, so these libraries come before it
and are fully folded at the end of the run. Along chains of such libraries this reaches the whole
closure, whether or not the policy checks the dependencies of single build types.
-/

set_option autoImplicit false
set_option relaxedAutoImplicit false

namespace BuildVariants

def Registry.FullyFolded (r : Registry) (path : String) : Prop :=
  ∃ folding, r.library? path = some folding ∧ folding.isFull = true

theorem Registry.fullyFolded_of_allowsOneTarget {r : Registry} {g : ProjectGraph}
    {paths : List String} {path dependency : String} {variants : List LibraryVariant}
    (hdependency : dependency ∈ LibraryVariant.referencedProjects variants)
    (hlibrary : g.hasLibrary dependency = true)
    (h : (r.earlierStates g paths path variants dependency).AllowsOneTarget) :
    paths.idxOf dependency < paths.idxOf path ∧ r.FullyFolded dependency := by
  rcases h with huntracked | ⟨folding, hsettled, hfull⟩
  · exact absurd huntracked (earlierStates_ne_untracked hdependency hlibrary)
  · obtain ⟨-, hearlier, hfolding⟩ := earlierStates_eq_settled_iff.mp hsettled
    exact ⟨hearlier, folding, hfolding, hfull⟩

namespace Analyzer

variable (a : Analyzer)

def SpansBuildTypes (project : Project) : Prop :=
  ∃ variants data, a.HasVariants project variants data ∧ ∃ v ∈ data.keys, ∃ w ∈ data.keys,
    a.buildTypeOf variants v ≠ a.buildTypeOf variants w

/-- A dependency that has to be fully folded for the project to be: the project has several build
types and one of its variants depends on the library. -/
def NeedsFull (g : ProjectGraph) (project dependency : Project) : Prop :=
  a.SpansBuildTypes project ∧ a.DependsOnLibrary g project dependency

variable {a} {g : ProjectGraph} {s after : Session} {summary : Summary}

theorem Settles.foldsFully {paths : List String} {r : Registry} (h : a.Settles g paths r)
    {project : Project} (hproject : g.project project.path = .ok project)
    (hspans : a.SpansBuildTypes project) (hfull : r.FullyFolded project.path) :
    ∃ variants data, a.HasVariants project variants data ∧
      LibraryVariant.FoldsFully a.libraryOptions (a.buildTypeOf variants)
        (r.earlierStates g paths project.path data.values) data := by
  obtain ⟨folding, hfolding, hfull⟩ := hfull
  obtain ⟨variants, data, report, hdata, hreport, rfl⟩ := h.foldsTo hproject hfolding
  obtain ⟨others, values, hvalues, v, hv, w, hw, hne⟩ := hspans
  obtain ⟨rfl, rfl⟩ := hdata.unique hvalues
  exact ⟨variants, data, hdata, LibraryVariant.foldsFully_of_isFull hreport hfull hv hw hne⟩

/-- One step of the closure: what a fully folded project needs to be full comes before it and is. -/
theorem Settles.fullyFolded_of_needsFull {paths : List String} {r : Registry}
    (h : a.Settles g paths r) {project dependency : Project}
    (hproject : g.project project.path = .ok project) (hneeds : a.NeedsFull g project dependency)
    (hfull : r.FullyFolded project.path) :
    paths.idxOf dependency.path < paths.idxOf project.path ∧ r.FullyFolded dependency.path := by
  obtain ⟨hspans, hdependency, hlibrary, others, values, hvalues, item, hitem, hdepends⟩ := hneeds
  obtain ⟨variants, data, hdata, hfolds⟩ := h.foldsFully hproject hspans hfull
  obtain ⟨rfl, rfl⟩ := hdata.unique hvalues
  have htracked : g.hasLibrary dependency.path = true :=
    (ProjectGraph.hasLibrary_eq hdependency).trans hlibrary
  have hreferenced : dependency.path ∈ LibraryVariant.referencedProjects data.values :=
    LibraryVariant.mem_referencedProjects.mpr ⟨item, hitem, hdepends⟩
  obtain ⟨entry, hentry, rfl⟩ := List.mem_map.mp hitem
  obtain ⟨-, -, -, -, hallows⟩ := hfolds
  exact Registry.fullyFolded_of_allowsOneTarget hreferenced htracked
    (hallows entry hentry dependency.path hdepends)

theorem Settles.fullyFolded_of_chain {paths : List String} {r : Registry}
    (h : a.Settles g paths r) {project dependency : Project}
    (hproject : g.project project.path = .ok project) (hfull : r.FullyFolded project.path)
    (hchain : Relation.ReflTransGen (a.NeedsFull g) project dependency) :
    g.project dependency.path = .ok dependency ∧ r.FullyFolded dependency.path := by
  induction hchain with
  | refl => exact ⟨hproject, hfull⟩
  | tail _ hneeds ih =>
    obtain ⟨hmiddle, hmiddleFull⟩ := ih
    have hstep := h.fullyFolded_of_needsFull hmiddle hneeds hmiddleFull
    exact ⟨hneeds.2.1, hstep.2⟩

private theorem sublist_of_idxOf_lt {paths : List String} {path other : String}
    (hpath : path ∈ paths) (hearlier : paths.idxOf other < paths.idxOf path) :
    [other, path].Sublist paths := by
  obtain ⟨before, rest, rfl, hfirst⟩ := List.eq_append_cons_of_mem hpath
  have hbefore : other ∈ before := (mem_iff_idxOf_lt hfirst).mpr hearlier
  have hother : [other].Sublist before := List.singleton_sublist.mpr hbefore
  have hfrom : [path].Sublist (path :: rest) := List.singleton_sublist.mpr List.mem_cons_self
  exact hother.append hfrom

/-- Full folding is closed under dependencies. After a completed run, every library of the graph on
which a variant of a fully folded project with several build types depends is another project, comes
before it in the order, and is fully folded. Therefore everything that is reached from a fully
folded project through projects with several build types is fully folded. -/
theorem fullyFolded_closed (hbuilt : g.Built) (hrun : a.run g s = (.ok summary, after)) :
    ∃ paths, g.orderedPaths = .ok paths ∧ ∀ project, g.project project.path = .ok project →
      after.registry.FullyFolded project.path →
        (a.SpansBuildTypes project → ∀ dependency, a.DependsOnLibrary g project dependency →
          dependency ≠ project ∧ [dependency.path, project.path].Sublist paths ∧
            after.registry.FullyFolded dependency.path) ∧
        ∀ dependency, Relation.ReflTransGen (a.NeedsFull g) project dependency →
          after.registry.FullyFolded dependency.path := by
  obtain ⟨paths, hpaths, hsettles⟩ := settles_run hbuilt hrun
  refine ⟨paths, hpaths, fun project hproject hfull => ⟨?_, ?_⟩⟩
  · intro hspans dependency hdepends
    obtain ⟨hearlier, hdependency⟩ :=
      hsettles.fullyFolded_of_needsFull hproject ⟨hspans, hdepends⟩ hfull
    obtain ⟨folding, hfolding, -⟩ := hfull
    have hvisited := hsettles.visited hfolding
    refine ⟨?_, sublist_of_idxOf_lt hvisited.1 hearlier, hdependency⟩
    rintro rfl
    exact lt_irrefl _ hearlier
  · intro dependency hchain
    exact (hsettles.fullyFolded_of_chain hproject hfull hchain).2

def uniformVariants (deps : List Dependency) : OrderedMap (MatchedVariant × LibraryVariant) :=
  .ofList [("debug", ⟨"debug", "debug", []⟩, { name := "debug", deps }),
    ("release", ⟨"release", "release", []⟩, { name := "release", deps })]

/-- An analysis of an application and a library whose variants do not differ, which does not check
the dependencies of single build types. -/
def uniform : Analyzer where
  source := RecordedSource.source {
    libraries := .ofList [(":core", uniformVariants []),
      (":app", uniformVariants [.project ":core" ""])]
    tests := .empty }
  policy := { Policy.standard with checkDependencies := false }
  timestamp := "2024-01-01T00:00:00+00:00"

/-- The application is fully folded, so the library that it depends on comes first and is fully
folded too. -/
theorem fullyFolded_closed_uniform :
    ∃ summary after paths, uniform.run sampleGraph .empty = (.ok summary, after) ∧
      sampleGraph.orderedPaths = .ok paths ∧
      uniform.NeedsFull sampleGraph ⟨":app", true⟩ ⟨":core", true⟩ ∧
      [":core", ":app"].Sublist paths ∧
      after.registry.FullyFolded ":app" ∧ after.registry.FullyFolded ":core" := by
  have hanswer : (uniform.run sampleGraph .empty).1.isOk = true ∧
      ((uniform.run sampleGraph .empty).2.registry.library? ":app").map (·.isFull) = some true := by
    decide +kernel
  obtain ⟨summary, hrun⟩ := exists_run_of_isOk hanswer.1
  obtain ⟨folding, hfolding, hisFull⟩ := Option.map_eq_some_iff.mp hanswer.2
  have hspans : uniform.SpansBuildTypes ⟨":app", true⟩ :=
    ⟨_, _, ⟨rfl, rfl⟩, "debug", by decide +kernel, "release", by decide +kernel, by decide +kernel⟩
  have hdepends : uniform.DependsOnLibrary sampleGraph ⟨":app", true⟩ ⟨":core", true⟩ :=
    ⟨rfl, rfl, _, _, ⟨rfl, rfl⟩, _, List.mem_cons_self, "", List.mem_cons_self⟩
  have hchain : Relation.ReflTransGen (uniform.NeedsFull sampleGraph) ⟨":app", true⟩
      ⟨":core", true⟩ :=
    .single ⟨hspans, hdepends⟩
  obtain ⟨paths, hpaths, hclosed⟩ := fullyFolded_closed built_sampleGraph hrun
  obtain ⟨hneeds, hreached⟩ := hclosed ⟨":app", true⟩ rfl ⟨folding, hfolding, hisFull⟩
  obtain ⟨-, hearlier, -⟩ := hneeds hspans _ hdepends
  exact ⟨summary, _, paths, hrun, hpaths, ⟨hspans, hdepends⟩, hearlier,
    ⟨folding, hfolding, hisFull⟩, hreached _ hchain⟩

end Analyzer

end BuildVariants

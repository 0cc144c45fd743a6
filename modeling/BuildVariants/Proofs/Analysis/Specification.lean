import BuildVariants.Proofs.Analysis.Walk

/-!
What a run registers, said without the walk. The final registry solves an equation: the library
folding of a project is what its variants fold to if they know the final foldings of the earlier
libraries, and none of the later ones.
-/

set_option autoImplicit false
set_option relaxedAutoImplicit false

namespace BuildVariants

def ProjectGraph.hasLibrary (g : ProjectGraph) (path : String) : Bool :=
  match g.project path with
  | .ok project => project.isLibrary
  | .error _ => false

theorem ProjectGraph.hasLibrary_eq {g : ProjectGraph} {path : String} {project : Project}
    (h : g.project path = .ok project) : g.hasLibrary path = project.isLibrary := by
  rw [hasLibrary, h]

theorem mem_iff_idxOf_lt {before rest : List String} {path other : String} (h : path ∉ before) :
    other ∈ before ↔
      (before ++ path :: rest).idxOf other < (before ++ path :: rest).idxOf path := by
  rw [List.idxOf_append_of_notMem h, List.idxOf_cons_self]
  by_cases hother : other ∈ before
  · rw [List.idxOf_append_of_mem hother]
    have hlt := List.idxOf_lt_length_iff.mpr hother
    simp only [hother, true_iff]
    omega
  · rw [List.idxOf_append_of_notMem hother]
    simp only [hother, false_iff]
    omega

theorem ProjectGraph.exists_library {g : ProjectGraph} {path : String}
    (h : g.hasLibrary path = true) :
    ∃ project, g.project path = .ok project ∧ project.isLibrary = true := by
  rw [hasLibrary] at h
  split at h
  · next project hproject => exact ⟨project, hproject, h⟩
  · cases h

namespace Registry

variable (r : Registry) (g : ProjectGraph)

/-- What is known about a library: its folding, or that it has none. -/
def stateOf (path : String) : DependencyState :=
  match r.library? path with
  | some folding => .settled folding
  | none => .missing

/-- What variants of a project know about a path if the paths of a graph are visited in an order. Of
the projects that the variants depend on, the libraries of the graph are tracked, and these have
their folding if they come earlier than the project. -/
def earlierStates (paths : List String) (path : String) (variants : List LibraryVariant) :
    DependencyStates := fun dependency =>
  if dependency ∈ LibraryVariant.referencedProjects variants ∧ g.hasLibrary dependency = true then
    if paths.idxOf dependency < paths.idxOf path then r.stateOf dependency else .missing
  else .untracked

variable {r g}

theorem dependencyStates_eq (path : String) :
    r.dependencyStates g path = if g.hasLibrary path then r.stateOf path else .untracked := by
  rw [dependencyStates, ProjectGraph.hasLibrary, stateOf]
  cases g.project path with
  | error fault => rfl
  | ok project => rfl

theorem earlierStates_eq_settled_iff {paths : List String} {path dependency : String}
    {variants : List LibraryVariant} {folding : Folding LibraryVariant} :
    r.earlierStates g paths path variants dependency = .settled folding ↔
      (dependency ∈ LibraryVariant.referencedProjects variants ∧ g.hasLibrary dependency = true) ∧
        paths.idxOf dependency < paths.idxOf path ∧ r.library? dependency = some folding := by
  rw [earlierStates, stateOf]
  by_cases htracked :
      dependency ∈ LibraryVariant.referencedProjects variants ∧ g.hasLibrary dependency = true
  · rw [if_pos htracked]
    by_cases hearlier : paths.idxOf dependency < paths.idxOf path
    · rw [if_pos hearlier]
      cases hother : r.library? dependency with
      | none => simp
      | some other => simp [htracked, hearlier]
    · simp [hearlier]
  · simp [htracked]

theorem earlierStates_ne_untracked {paths : List String} {path dependency : String}
    {variants : List LibraryVariant}
    (hdependency : dependency ∈ LibraryVariant.referencedProjects variants)
    (hlibrary : g.hasLibrary dependency = true) :
    r.earlierStates g paths path variants dependency ≠ .untracked := by
  rw [earlierStates, if_pos ⟨hdependency, hlibrary⟩, stateOf]
  split
  · split
    · exact nofun
    · exact nofun
  · exact nofun

end Registry

namespace Analyzer

variable (a : Analyzer)

/-- The library variants of a project have a folding, given what they know about the projects that
they depend on. -/
def FoldsTo (project : Project) (states : List LibraryVariant → DependencyStates)
    (folding : Folding LibraryVariant) : Prop :=
  ∃ variants data report, a.HasVariants project variants data ∧
    LibraryVariant.fold a.libraryOptions (a.buildTypeOf variants) (states data.values) data =
      .ok report ∧ report.folding = folding

/-- The library variants of a project cannot be listed or extracted, or their suffixes collide. -/
def FailsToFold (project : Project) (states : List LibraryVariant → DependencyStates) : Prop :=
  (∃ failure, a.source.matched project .library = .error failure) ∨
    (∃ variants failure, a.source.matched project .library = .ok variants ∧
      extractAll a.source.library project .library variants = .error failure) ∨
    ∃ variants data fault, a.HasVariants project variants data ∧
      LibraryVariant.fold a.libraryOptions (a.buildTypeOf variants) (states data.values) data =
        .error fault

/-- A registry settles an order of a graph if it has the library foldings of the libraries in the
order, each against the foldings of the earlier ones, and nothing about any other path. -/
structure Settles (g : ProjectGraph) (paths : List String) (r : Registry) : Prop where
  folds : ∀ path ∈ paths, ∀ project, g.project path = .ok project → project.isLibrary = true →
    ∀ folding, r.library? path = some folding ↔
      a.FoldsTo project (r.earlierStates g paths path) folding
  absent : ∀ path, path ∉ paths ∨ g.hasLibrary path = false →
    r.library? path = none ∧ r.tests? path = none

variable {a} {g : ProjectGraph} {s after : Session} {summary : Summary}

theorem failsToFold_iff {project : Project} {states : List LibraryVariant → DependencyStates} :
    a.FailsToFold project states ↔ ∀ folding, ¬ a.FoldsTo project states folding := by
  constructor
  · rintro hfails folding ⟨variants, data, report, ⟨hvariants, hdata⟩, hreport, -⟩
    rcases hfails with ⟨failure, hlisting⟩ | ⟨others, failure, hothers, hextract⟩ |
      ⟨others, values, fault, ⟨hothers, hvalues⟩, hfault⟩
    · rw [hlisting] at hvariants
      cases hvariants
    · rw [hothers] at hvariants
      cases hvariants
      rw [hextract] at hdata
      cases hdata
    · rw [hothers] at hvariants
      cases hvariants
      rw [hvalues] at hdata
      cases hdata
      rw [hfault] at hreport
      cases hreport
  · intro hnone
    cases hvariants : a.source.matched project .library with
    | error failure => exact Or.inl ⟨failure, hvariants⟩
    | ok variants =>
      cases hdata : extractAll a.source.library project .library variants with
      | error failure => exact Or.inr (Or.inl ⟨variants, failure, hvariants, hdata⟩)
      | ok data =>
        cases hreport : LibraryVariant.fold a.libraryOptions (a.buildTypeOf variants)
          (states data.values) data with
        | error fault =>
          exact Or.inr (Or.inr ⟨variants, data, fault, ⟨hvariants, hdata⟩, hreport⟩)
        | ok report =>
          exact absurd ⟨variants, data, report, ⟨hvariants, hdata⟩, hreport, rfl⟩
            (hnone report.folding)

/-- At the turn of a library, the registry knows of the projects that its variants depend on exactly
what the final registry says of the earlier ones. -/
private theorem dependencyStates_at_turn {before rest : List Project}
    {project : Project}
    (hproject : ∀ other ∈ before, g.project other.path = .ok other)
    (hnodup : ((before ++ project :: rest).map (·.path)).Nodup) {r : Registry}
    (hr : r = ((before ++ project :: rest).filter (·.isLibrary)).foldl (a.registerVisit g) .empty)
    {variants : List LibraryVariant} {path : String}
    (hpath : path ∈ LibraryVariant.referencedProjects variants) :
    ((before.filter (·.isLibrary)).foldl (a.registerVisit g) .empty).dependencyStates g path =
      r.earlierStates g ((before ++ project :: rest).map (·.path)) project.path variants path := by
  rw [Registry.dependencyStates_eq, Registry.earlierStates]
  cases hlibrary : g.hasLibrary path with
  | false => simp
  | true =>
    have hearlier : path ∈ (before.filter (·.isLibrary)).map (·.path) ↔
        ((before ++ project :: rest).map (·.path)).idxOf path <
          ((before ++ project :: rest).map (·.path)).idxOf project.path := by
      rw [List.map_append, List.map_cons] at hnodup ⊢
      have hfirst : project.path ∉ before.map (·.path) := by
        rw [List.nodup_middle, List.nodup_cons, List.mem_append, not_or] at hnodup
        exact hnodup.1.1
      rw [← mem_iff_idxOf_lt hfirst, List.mem_map, List.mem_map]
      constructor
      · rintro ⟨other, hother, rfl⟩
        exact ⟨other, (List.mem_filter.mp hother).1, rfl⟩
      · rintro ⟨other, hother, rfl⟩
        rw [ProjectGraph.hasLibrary_eq (hproject other hother)] at hlibrary
        exact ⟨other, List.mem_filter.mpr ⟨hother, hlibrary⟩, rfl⟩
    rw [List.filter_append] at hr
    have hvisited : ((before.filter (·.isLibrary) ++ (project :: rest).filter (·.isLibrary)).map
        (·.path)).Nodup :=
      hnodup.sublist ((List.filter_sublist.append List.filter_sublist).map _)
    have hturn := library?_foldl_before a g hvisited path
    rw [← hr] at hturn
    rw [if_pos rfl, if_pos ⟨hpath, rfl⟩, Registry.stateOf, Registry.stateOf, hturn]
    by_cases hmem : path ∈ (before.filter (·.isLibrary)).map (·.path)
    · rw [if_pos hmem, if_pos (hearlier.mp hmem)]
    · rw [if_neg hmem, if_neg (mt hearlier.mpr hmem)]

theorem foldsTo_iff {r : Registry} {states : List LibraryVariant → DependencyStates}
    (h : ∀ variants : List LibraryVariant, ∀ path ∈ LibraryVariant.referencedProjects variants,
      r.dependencyStates g path = states variants path)
    (project : Project) (folding : Folding LibraryVariant) :
    a.FoldsTo project states folding ↔
      ∃ report, a.libraryReport g r project = .ok report ∧ report.folding = folding := by
  have hfold : ∀ variants : List MatchedVariant, ∀ data : OrderedMap LibraryVariant,
      LibraryVariant.fold a.libraryOptions (a.buildTypeOf variants) (r.dependencyStates g) data =
        LibraryVariant.fold a.libraryOptions (a.buildTypeOf variants) (states data.values) data :=
    fun variants data => LibraryVariant.fold_congr (h data.values)
  constructor
  · intro hfolds
    obtain ⟨variants, data, report, hdata, hreport, hfolding⟩ := hfolds
    rw [← hfold] at hreport
    exact ⟨report, libraryReport_eq_ok_iff.mpr ⟨variants, data, hdata, hreport⟩, hfolding⟩
  · intro hregistered
    obtain ⟨report, hreport, hfolding⟩ := hregistered
    obtain ⟨variants, data, hdata, hreport⟩ := libraryReport_eq_ok_iff.mp hreport
    rw [hfold] at hreport
    exact ⟨variants, data, report, hdata, hreport, hfolding⟩

/-- A run that completes leaves a registry that settles the order of the graph. -/
theorem settles_run (hbuilt : g.Built) (h : a.run g s = (.ok summary, after)) :
    ∃ paths, g.orderedPaths = .ok paths ∧ a.Settles g paths after.registry := by
  obtain ⟨order, horder, hregistry⟩ := registry_run h
  obtain ⟨hpaths, hprojects⟩ := hbuilt.of_topologicalOrder horder
  have hnodup := ProjectGraph.nodup_of_orderedPaths hpaths
  refine ⟨order.map (·.path), hpaths, ?_, ?_⟩
  · intro path hpath project hproject hlibrary folding
    obtain ⟨other, hmem, rfl⟩ := List.mem_map.mp hpath
    obtain rfl : other = project := Except.ok.inj ((hprojects other hmem).symm.trans hproject)
    obtain ⟨before, rest, rfl⟩ := List.append_of_mem hmem
    have hbefore : ∀ other ∈ before, g.project other.path = .ok other :=
      fun other hother => hprojects other (List.mem_append_left _ hother)
    have hfilter : (before ++ other :: rest).filter (·.isLibrary) =
        before.filter (·.isLibrary) ++ other :: rest.filter (·.isLibrary) := by
      rw [List.filter_append, List.filter_cons_of_pos hlibrary]
    have hvisited := nodup_libraries hbuilt horder
    rw [hfilter] at hvisited
    have hfinal := library?_foldl_iff a g hvisited folding
    rw [← hfilter, ← hregistry] at hfinal
    rw [hfinal, foldsTo_iff fun variants path hpath =>
      dependencyStates_at_turn hbefore hnodup hregistry hpath]
  · intro path habsent
    have hvisited : path ∉ (order.filter (·.isLibrary)).map (·.path) := by
      intro hmem
      obtain ⟨project, hproject, rfl⟩ := List.mem_map.mp hmem
      obtain ⟨horder, hlibrary⟩ := List.mem_filter.mp hproject
      rcases habsent with hpath | hother
      · exact hpath (List.mem_map.mpr ⟨project, horder, rfl⟩)
      · rw [ProjectGraph.hasLibrary_eq (hprojects project horder), hlibrary] at hother
        cases hother
    rw [hregistry, library?_foldl_of_notMem hvisited, tests?_foldl_of_notMem hvisited]
    exact ⟨rfl, rfl⟩

theorem Settles.visited {paths : List String} {r : Registry} (h : a.Settles g paths r)
    {path : String} {folding : Folding LibraryVariant} (hfolding : r.library? path = some folding) :
    path ∈ paths ∧ g.hasLibrary path = true := by
  by_contra hskipped
  rw [not_and_or, Bool.not_eq_true] at hskipped
  rw [(h.absent path hskipped).1] at hfolding
  cases hfolding

theorem Settles.visited_of_tests {paths : List String} {r : Registry} (h : a.Settles g paths r)
    {path : String} {tests : Folding UnitTestVariant} (htests : r.tests? path = some tests) :
    path ∈ paths ∧ g.hasLibrary path = true := by
  by_contra hskipped
  rw [not_and_or, Bool.not_eq_true] at hskipped
  rw [(h.absent path hskipped).2] at htests
  cases htests

theorem Settles.foldsTo {paths : List String} {r : Registry} (h : a.Settles g paths r)
    {path : String} {project : Project} (hproject : g.project path = .ok project)
    {folding : Folding LibraryVariant} (hfolding : r.library? path = some folding) :
    a.FoldsTo project (r.earlierStates g paths path) folding := by
  obtain ⟨hpath, hlibrary⟩ := h.visited hfolding
  rw [ProjectGraph.hasLibrary_eq hproject] at hlibrary
  exact (h.folds path hpath project hproject hlibrary folding).mp hfolding

/-- A valid policy, an acyclic graph and a source without defects make a run complete, whatever was
registered before. The order lists every project once. A project that is no library has no result.
The library folding of a library is what its variants fold to, given the final foldings of those
libraries that they depend on and that come earlier, and it is absent exactly if the variants fail
to fold. -/
theorem run_specification (hbuilt : g.Built) (hacyclic : g.Acyclic)
    (hpolicy : a.policy.check = .ok ()) (hsource : a.source.ReportsNoDefect) (s : Session) :
    ∃ paths summary after, g.orderedPaths = .ok paths ∧ a.run g s = (.ok summary, after) ∧
      paths.Nodup ∧ ∀ path project, g.project path = .ok project → path ∈ paths ∧
        (project.isLibrary = false →
          after.registry.library? path = none ∧ after.registry.tests? path = none) ∧
        (project.isLibrary = true →
          (∀ folding, after.registry.library? path = some folding ↔
            a.FoldsTo project (after.registry.earlierStates g paths path) folding) ∧
          (after.registry.library? path = none ↔
            a.FailsToFold project (after.registry.earlierStates g paths path))) := by
  have hordered := hacyclic.orderedPaths_eq
  obtain ⟨order, horder⟩ := ProjectGraph.exists_topologicalOrder hordered
  obtain ⟨summary, after, hrun⟩ := exists_run hpolicy hsource horder s
  obtain ⟨paths, hpaths, hsettles⟩ := settles_run hbuilt hrun
  obtain rfl := ProjectGraph.eq_dependencyFirst_of_orderedPaths hpaths
  refine ⟨_, summary, after, hpaths, hrun, ProjectGraph.nodup_of_orderedPaths hpaths, ?_⟩
  intro path project hproject
  have hmem : path ∈ g.dependencyFirst :=
    hacyclic.mem_dependencyFirst (ProjectGraph.exists_project_iff.mp ⟨project, hproject⟩)
  refine ⟨hmem, fun hother => ?_, fun hlibrary => ?_⟩
  · exact hsettles.absent path (Or.inr ((ProjectGraph.hasLibrary_eq hproject).trans hother))
  · have hfolds := hsettles.folds path hmem project hproject hlibrary
    refine ⟨hfolds, ?_⟩
    rw [failsToFold_iff, Option.eq_none_iff_forall_ne_some]
    exact forall_congr' fun folding => not_congr (hfolds folding)

/-- A library, an application that depends on it, and tools that are no library. -/
def sampleGraph : ProjectGraph where
  nodes := ⟨[(":core", ⟨⟨":core", true⟩, [":app"]⟩), (":app", ⟨⟨":app", true⟩, []⟩),
    (":tools", ⟨⟨":tools", false⟩, []⟩)], by decide⟩

/-- Two flavors in two build types, of which the release variants differ. -/
def sampleVariants (project : String) (deps : List Dependency) :
    OrderedMap (MatchedVariant × LibraryVariant) :=
  .ofList [
    ("freeDebug", ⟨"freeDebug", "debug", []⟩, { name := project ++ "-free-debug", deps }),
    ("paidDebug", ⟨"paidDebug", "debug", []⟩, { name := project ++ "-paid-debug", deps }),
    ("freeRelease", ⟨"freeRelease", "release", []⟩, { name := project ++ "-free-release", deps }),
    ("paidRelease", ⟨"paidRelease", "release", []⟩,
      { name := project ++ "-paid-release", deps, compose := true })]

def sample : Analyzer where
  source := RecordedSource.source {
    libraries := .ofList [(":core", sampleVariants "core" []),
      (":app", sampleVariants "app" [.project ":core" ""])]
    tests := .empty }
  policy := .standard
  timestamp := "2024-01-01T00:00:00+00:00"

theorem built_sampleGraph : sampleGraph.Built := by
  have hcore := ProjectGraph.Built.addProject (p := ⟨":core", true⟩) .empty rfl
  have happ := ProjectGraph.Built.addProject (p := ⟨":app", true⟩) hcore rfl
  have htools := ProjectGraph.Built.addProject (p := ⟨":tools", false⟩) happ rfl
  exact htools.addDependency
    (show ProjectGraph.addDependency _ ":app" ":core" = .ok sampleGraph from rfl)

theorem acyclic_sampleGraph : sampleGraph.Acyclic := by
  apply ProjectGraph.acyclic_of_rank fun path => if path = ":app" then 1 else 0
  intro dependent dependency h
  obtain ⟨node, hnode, hmem⟩ := ProjectGraph.depends_iff.mp h
  have hentry := OrderedMap.get?_eq_some_iff.mp hnode
  simp only [sampleGraph, List.mem_cons, Prod.mk.injEq, List.not_mem_nil, or_false] at hentry
  rcases hentry with ⟨rfl, rfl⟩ | ⟨rfl, rfl⟩ | ⟨rfl, rfl⟩
  · rw [List.mem_singleton] at hmem
    subst hmem
    decide
  · cases hmem
  · cases hmem

/-- A registered folding of the tools is forgotten, and the application has the folding that its
variants fold to if they know the one of the library. -/
theorem run_specification_sample :
    ∃ paths summary after, sampleGraph.orderedPaths = .ok paths ∧
      sample.run sampleGraph (Session.empty.registerLibrary ":tools" .empty) =
        (.ok summary, after) ∧
      after.registry.library? ":tools" = none ∧
      ∀ folding, after.registry.library? ":app" = some folding ↔
        sample.FoldsTo ⟨":app", true⟩ (after.registry.earlierStates sampleGraph paths ":app")
          folding := by
  obtain ⟨paths, summary, after, hpaths, hrun, -, hprojects⟩ :=
    run_specification (a := sample) built_sampleGraph acyclic_sampleGraph (by decide +kernel)
      (RecordedSource.reportsNoDefect _) (Session.empty.registerLibrary ":tools" .empty)
  obtain ⟨-, htools, -⟩ := hprojects ":tools" ⟨":tools", false⟩ rfl
  obtain ⟨-, -, happ⟩ := hprojects ":app" ⟨":app", true⟩ rfl
  exact ⟨paths, summary, after, hpaths, hrun, (htools rfl).1, (happ rfl).1⟩

end Analyzer

end BuildVariants

import BuildVariants.Proofs.Analysis.Specification
import BuildVariants.Proofs.Folding.Monotone

/-!
A run in which more extractions fail. Compared with a run without failures, a project that still has
a folding is folded at most as far: it has seen each of its dependencies either folded at most as
far or missing, and folding is monotone in what it sees. The comparison goes through the order of
the projects, so it needs no assumption on where the failures are.
-/

set_option autoImplicit false
set_option relaxedAutoImplicit false

namespace BuildVariants

/-- Another source degrades a source if it differs only in library variants whose extraction fails
in it, and not by a defect of this library. -/
structure VariantSource.Degrades (degraded source : VariantSource) : Prop where
  matched : ∀ project kind, degraded.matched project kind = source.matched project kind
  library : ∀ project variant, degraded.library project variant = source.library project variant ∨
    ∃ failure, degraded.library project variant = .error failure ∧ failure.isInvariant = false
  unitTest : ∀ project variant, degraded.unitTest project variant = source.unitTest project variant

theorem VariantSource.degrades_breakAt (source : VariantSource) (path : String) :
    (source.breakAt path).Degrades source where
  matched := fun _ _ => rfl
  library := by
    intro project variant
    by_cases hpath : project.path = path
    · exact Or.inr ⟨.unexpected "timed out", if_pos hpath, rfl⟩
    · exact Or.inl (if_neg hpath)
  unitTest := fun _ _ => rfl

namespace Analyzer

variable {a : Analyzer} {g : ProjectGraph} {s after : Session} {summary : Summary}
  {degraded : VariantSource}

section Degraded

variable (hdegraded : degraded.Degrades a.source) {project : Project}

include hdegraded

theorem hasVariants_of_degraded {variants : List MatchedVariant} {data : OrderedMap LibraryVariant}
    (h : (a.withSource degraded).HasVariants project variants data) :
    a.HasVariants project variants data := by
  obtain ⟨hvariants, hdata⟩ := h
  have hsame : ∀ variant ∈ variants,
      degraded.library project variant = a.source.library project variant := by
    intro variant hvariant
    obtain ⟨item, hitem⟩ := exists_ok_of_extractAll hdata variant hvariant
    rcases hdegraded.library project variant with hsame | ⟨failure, hfailure, -⟩
    · exact hsame
    · rw [source_withSource, hfailure] at hitem
      cases hitem
  constructor
  · rw [← hdegraded.matched]
    exact hvariants
  · rw [← extractAll_congr hsame]
    exact hdata

theorem continuesAt_of_degraded {variants : List MatchedVariant} {data : OrderedMap LibraryVariant}
    (hdata : a.HasVariants project variants data)
    (htests : a.policy.analyzeTests = true → ∃ tests, a.testReport project = .ok tests)
    (r : Registry) : (a.withSource degraded).ContinuesAt g r project := by
  constructor
  · intro failure h
    rcases libraryReport_eq_error_iff.mp h with
      hlisting | ⟨others, hothers, hextract⟩ | ⟨others, values, fault, -, hfold, rfl⟩
    · rw [source_withSource, hdegraded.matched, hdata.1] at hlisting
      cases hlisting
    · rw [source_withSource, hdegraded.matched, hdata.1] at hothers
      obtain rfl := Except.ok.inj hothers
      refine isInvariant_of_extractAll_eq_error ?_ hextract
      intro variant hvariant cause hcause
      rw [source_withSource] at hcause
      rcases hdegraded.library project variant with hsame | ⟨other, hother, hcontinues⟩
      · obtain ⟨item, hitem⟩ := exists_ok_of_extractAll hdata.2 variant hvariant
        rw [hsame, hitem] at hcause
        cases hcause
      · rw [hother] at hcause
        cases hcause
        exact hcontinues
    · obtain ⟨collision, -, rfl⟩ := LibraryVariant.fold_eq_error_iff.mp hfold
      exact collision.isInvariant_fault
  · intro hasked failure h
    rw [testReport_withSource (hdegraded.matched project .test) (hdegraded.unitTest project)] at h
    obtain ⟨tests, hok⟩ := htests hasked
    rw [hok] at h
    cases h

end Degraded

theorem reports_of_run (hbuilt : g.Built) (hrun : a.run g s = (.ok summary, after))
    (hclean : summary.failures = []) {order : List Project}
    (horder : g.topologicalOrder = .ok order) {project : Project}
    (hproject : project ∈ order.filter (·.isLibrary)) :
    (∃ folding, after.registry.library? project.path = some folding) ∧
      (∃ variants data, a.HasVariants project variants data) ∧
      (a.policy.analyzeTests = true → ∃ tests, a.testReport project = .ok tests) := by
  obtain ⟨before, rest, hvisited⟩ := List.append_of_mem hproject
  obtain ⟨turn, finding, earlier, later, hturn, hvisit, -, -, rfl⟩ :=
    exists_turn_of_run hrun horder hvisited
  -- The finding is no failure, so both reports were made.
  have hanalyzed : finding.failure? = none := by
    have hmem : finding ∈ earlier ++ finding :: later :=
      List.mem_append_right earlier List.mem_cons_self
    exact List.filterMap_eq_nil_iff.mp hclean finding hmem
  obtain ⟨result, hresult⟩ : ∃ result, (a.analyzeLibrary g project turn).1 = .ok result := by
    rcases visit_cases hvisit with ⟨result, hresult, -⟩ | ⟨cause, -, -, rfl⟩
    · exact ⟨result, hresult⟩
    · cases hanalyzed
  rw [fst_analyzeLibrary, summaryOf] at hresult
  obtain ⟨report, hreport, hresult⟩ := bind_eq_ok_iff.mp hresult
  obtain ⟨tests, htests, -⟩ := bind_eq_ok_iff.mp hresult
  refine ⟨⟨report.folding, ?_⟩, ?_, ?_⟩
  · obtain ⟨others, hothers, hregistry⟩ := registry_run hrun
    obtain rfl : others = order := Except.ok.inj (hothers.symm.trans horder)
    have hnodup := nodup_libraries hbuilt horder
    rw [hvisited] at hregistry hnodup
    rw [hturn] at hreport
    rw [hregistry]
    exact (library?_foldl_iff a g hnodup report.folding).mpr ⟨report, hreport, rfl⟩
  · obtain ⟨variants, data, hdata, -⟩ := libraryReport_eq_ok_iff.mp hreport
    exact ⟨variants, data, hdata⟩
  · intro hasked
    rw [reportIfAsked, if_pos hasked] at htests
    exact ⟨tests, htests⟩

theorem atMost_earlierStates {r other : Registry} {paths : List String} {path : String}
    (h : ∀ dependency, paths.idxOf dependency < paths.idxOf path → ∀ limiting,
      other.library? dependency = some limiting → ∃ folding,
        r.library? dependency = some folding ∧ folding.LimitsAtMost limiting)
    (variants : List LibraryVariant) (dependency : String) :
    (r.earlierStates g paths path variants dependency).AtMost
      (other.earlierStates g paths path variants dependency) := by
  rw [Registry.earlierStates, Registry.earlierStates]
  by_cases htracked :
      dependency ∈ LibraryVariant.referencedProjects variants ∧ g.hasLibrary dependency = true
  · rw [if_pos htracked, if_pos htracked]
    by_cases hearlier : paths.idxOf dependency < paths.idxOf path
    · rw [if_pos hearlier, if_pos hearlier, Registry.stateOf, Registry.stateOf]
      cases hlimiting : other.library? dependency with
      | none => exact .missing _
      | some limiting =>
        obtain ⟨folding, hfolding, hlimits⟩ := h dependency hearlier limiting hlimiting
        rw [hfolding]
        exact .settled hlimits
    · rw [if_neg hearlier, if_neg hearlier]
      exact .missing _
  · rw [if_neg htracked, if_neg htracked]
    exact .untracked _

/-- One step of the comparison: a library whose earlier libraries are folded at least as far without
the failures is itself folded at least as far. -/
theorem Settles.asCoarseAs_of_degraded (hdegraded : degraded.Degrades a.source)
    {paths : List String} {r other : Registry} (h : a.Settles g paths r)
    (hother : (a.withSource degraded).Settles g paths other) {path : String} {project : Project}
    (hproject : g.project path = .ok project)
    (hearlier : ∀ dependency, paths.idxOf dependency < paths.idxOf path → ∀ limiting,
      other.library? dependency = some limiting → ∃ folding,
        r.library? dependency = some folding ∧ folding.LimitsAtMost limiting)
    {folding limited : Folding LibraryVariant} (hfolding : r.library? path = some folding)
    (hlimited : other.library? path = some limited) : folding.AsCoarseAs limited := by
  obtain ⟨variants, data, report, hdata, hreport, rfl⟩ := h.foldsTo hproject hfolding
  obtain ⟨others, values, second, hvalues, hsecond, rfl⟩ := hother.foldsTo hproject hlimited
  obtain ⟨rfl, rfl⟩ := hdata.unique (hasVariants_of_degraded hdegraded hvalues)
  have hstates := atMost_earlierStates (g := g) hearlier data.values
  exact {
    expanded := fun _ => LibraryVariant.mem_expanded_of_atMost hstates hreport hsecond
    full := LibraryVariant.isFull_of_atMost hstates hreport hsecond
    joined := fun _ _ _ => LibraryVariant.exists_common_of_atMost hstates hreport hsecond }

/-- More failures of extractions never fold a project further. Compared with a run without failures,
the run over a degraded source completes too, whatever was registered before. Every library with a
folding after it has one without the failures, which expands no other build types, is full where the
former is, and joins all variants that the former joins. -/
theorem run_degrades (hbuilt : g.Built) (hrun : a.run g s = (.ok summary, after))
    (hclean : summary.failures = []) (hdegraded : degraded.Degrades a.source) (start : Session) :
    ∃ result last, (a.withSource degraded).run g start = (.ok result, last) ∧
      ∀ path limited, last.registry.library? path = some limited → ∃ folding,
        after.registry.library? path = some folding ∧ folding.AsCoarseAs limited := by
  obtain ⟨order, horder, -⟩ := registry_run hrun
  have hreports := fun project (hproject : project ∈ order.filter (·.isLibrary)) =>
    reports_of_run hbuilt hrun hclean horder hproject
  have hcontinues : ∀ project ∈ order.filter (·.isLibrary), ∀ r,
      (a.withSource degraded).ContinuesAt g r project := by
    intro project hproject r
    obtain ⟨-, ⟨variants, data, hdata⟩, htests⟩ := hreports project hproject
    exact continuesAt_of_degraded hdegraded hdata htests r
  have hpolicy : (a.withSource degraded).policy.check = .ok () := by
    rw [policy_withSource]
    exact check_of_run hrun
  obtain ⟨result, last, hlast⟩ := exists_run_of_continues hpolicy horder hcontinues start
  refine ⟨result, last, hlast, ?_⟩
  obtain ⟨paths, hpaths, hsettles⟩ := settles_run hbuilt hrun
  obtain ⟨others, hothers, hlimits⟩ := settles_run hbuilt hlast
  obtain rfl : others = paths := Except.ok.inj (hothers.symm.trans hpaths)
  obtain ⟨hordered, hprojects⟩ := hbuilt.of_topologicalOrder horder
  obtain rfl : others = order.map (·.path) := Except.ok.inj (hpaths.symm.trans hordered)
  intro path
  -- The induction follows the order: a project reads only the foldings of earlier ones.
  induction hindex : (order.map (·.path)).idxOf path using Nat.strong_induction_on
    generalizing path with
  | _ index ih =>
    subst hindex
    intro limited hlimited
    obtain ⟨hpath, hlibrary⟩ := hlimits.visited hlimited
    obtain ⟨project, hproject, rfl⟩ := List.mem_map.mp hpath
    rw [ProjectGraph.hasLibrary_eq (hprojects project hproject)] at hlibrary
    obtain ⟨⟨folding, hfolding⟩, -⟩ :=
      hreports project (List.mem_filter.mpr ⟨hproject, hlibrary⟩)
    refine ⟨folding, hfolding, ?_⟩
    refine hsettles.asCoarseAs_of_degraded hdegraded hlimits (hprojects project hproject) ?_
      hfolding hlimited
    intro dependency hearlier limiting hlimiting
    obtain ⟨other, hother, hcoarse⟩ := ih _ hearlier dependency rfl limiting hlimiting
    exact ⟨other, hother, hcoarse.toLimitsAtMost⟩

/-- The application loses its common debug target once the library has no folding. -/
theorem run_degrades_sample :
    ∃ summary after result last, sample.run sampleGraph .empty = (.ok summary, after) ∧
      (sample.withSource (sample.source.breakAt ":core")).run sampleGraph .empty =
        (.ok result, last) ∧
      ∃ folding limited, after.registry.library? ":app" = some folding ∧
        last.registry.library? ":app" = some limited ∧ folding.expanded.names = ["release"] ∧
        limited.expanded.names = ["debug", "release"] ∧ folding.AsCoarseAs limited := by
  have hanswer : (sample.run sampleGraph .empty).1.map (·.failures) = .ok [] ∧
      ((sample.run sampleGraph .empty).2.registry.library? ":app").map (·.expanded.names) =
        some ["release"] := by
    decide +kernel
  have hbroken : (((sample.withSource (sample.source.breakAt ":core")).run sampleGraph
      .empty).2.registry.library? ":app").map (·.expanded.names) = some ["debug", "release"] := by
    decide +kernel
  obtain ⟨summary, hrun, hclean⟩ := exists_run_of_map_eq hanswer.1
  obtain ⟨result, last, hlast, hcoarse⟩ :=
    run_degrades built_sampleGraph hrun hclean (VariantSource.degrades_breakAt _ ":core") .empty
  rw [hlast] at hbroken
  obtain ⟨limited, hlimited, hboth⟩ := Option.map_eq_some_iff.mp hbroken
  obtain ⟨folding, hfolding, happ⟩ := hcoarse ":app" limited hlimited
  have hrelease := hanswer.2
  rw [hfolding, Option.map_some, Option.some.injEq] at hrelease
  exact ⟨summary, _, result, last, hrun, hlast, folding, limited, hfolding, hlimited, hrelease,
    hboth, happ⟩

end Analyzer

end BuildVariants

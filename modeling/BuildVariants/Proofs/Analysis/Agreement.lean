import BuildVariants.Proofs.Analysis.Specification

/-!
Variants that share a target need the same target of what they depend on. A dependency that does not
hold a build type apart has a folding in which that build type is not expanded, so the variants of
the build type share a target there too. A dependency that allows one target for all variants has no
other target.
-/

set_option autoImplicit false
set_option relaxedAutoImplicit false

namespace BuildVariants

theorem DependencyState.exists_folding {state : DependencyState} {buildType : String}
    (htracked : state ≠ .untracked) (hfree : ¬ state.HoldsApart buildType) :
    ∃ folding, state = .settled folding ∧ buildType ∉ folding.expanded.names := by
  cases state with
  | untracked => exact absurd rfl htracked
  | missing => exact absurd (Or.inl rfl) hfree
  | settled folding =>
    exact ⟨folding, rfl, fun hexpanded => hfree (Or.inr ⟨folding, rfl, hexpanded⟩)⟩

namespace Analyzer

variable (a : Analyzer)

/-- A library variant of a project, with its build type. -/
def ListsVariant (project : Project) (variant buildType : String) : Prop :=
  ∃ variants, a.source.matched project .library = .ok variants ∧
    (matchedBuildTypes variants).get? variant = some buildType

/-- A target of a project depends on a path if one of the variants that it stands for does. -/
def TargetDependsOn (project : Project) (folding : Folding LibraryVariant)
    (suffix path : String) : Prop :=
  ∃ variants data variant item, a.HasVariants project variants data ∧
    data.get? variant = some item ∧ folding.assignment.get? variant = some suffix ∧
    item.DependsOn path

variable {a} {g : ProjectGraph} {s after : Session} {summary : Summary}

theorem ListsVariant.exists_item {project : Project} {variant buildType : String}
    (h : a.ListsVariant project variant buildType) {variants : List MatchedVariant}
    {data : OrderedMap LibraryVariant} (hdata : a.HasVariants project variants data) :
    (∃ item, data.get? variant = some item) ∧ a.buildTypeOf variants variant = buildType := by
  obtain ⟨listed, hlisted, hbuild⟩ := h
  obtain rfl : listed = variants := Except.ok.inj (hlisted.symm.trans hdata.1)
  have hname := mem_keys_matchedBuildTypes.mp (SortedMap.mem_keys_iff.mpr ⟨buildType, hbuild⟩)
  constructor
  · exact OrderedMap.mem_keys_iff.mp ((mem_keys_of_extractAll hdata.2).mpr hname)
  · rw [buildTypeOf, hbuild, Option.getD_some]

/-- What a target depends on is known to be fully folded, or the variants of the target have one
build type, which is not expanded in the folding of the dependency. -/
theorem exists_folding_of_targetDependsOn (hcheck : a.policy.checkDependencies = true)
    {project : Project} {states : List LibraryVariant → DependencyStates}
    {folding : Folding LibraryVariant} (hfolds : a.FoldsTo project states folding)
    {v w suffix b c path : String} (hne : v ≠ w) (hb : a.ListsVariant project v b)
    (hc : a.ListsVariant project w c) (hv : folding.assignment.get? v = some suffix)
    (hw : folding.assignment.get? w = some suffix)
    (hdepends : a.TargetDependsOn project folding suffix path)
    (htracked : ∀ variants : List LibraryVariant,
      path ∈ LibraryVariant.referencedProjects variants → states variants path ≠ .untracked) :
    ∃ variants other, states variants path = .settled other ∧
      (other.isFull = true ∨ b = c ∧ b ∉ other.expanded.names) := by
  obtain ⟨variants, data, report, hdata, hreport, rfl⟩ := hfolds
  obtain ⟨listed, values, u, item, hvalues, hitem, hu, hpath⟩ := hdepends
  obtain ⟨rfl, rfl⟩ := hdata.unique hvalues
  obtain ⟨⟨x, hx⟩, hbuildv⟩ := hb.exists_item hdata
  obtain ⟨⟨y, hy⟩, hbuildw⟩ := hc.exists_item hdata
  have hmem : item ∈ data.values := OrderedMap.mem_values_iff.mpr ⟨u, hitem⟩
  have hstate :=
    htracked data.values (LibraryVariant.mem_referencedProjects.mpr ⟨item, hmem, hpath⟩)
  have hentry : (u, item) ∈ data.entries := OrderedMap.get?_eq_some_iff.mp hitem
  refine ⟨data.values, ?_⟩
  rcases LibraryVariant.foldsFully_or_of_same_suffix hreport hv hw with hfull | ⟨hbuild, hstays⟩
  · rcases hfull.2.2.2.2 (u, item) hentry path hpath with huntracked | ⟨other, hother, hisFull⟩
    · exact absurd huntracked hstate
    · exact ⟨other, hother, Or.inl hisFull⟩
  · rcases LibraryVariant.foldsFully_or_of_same_suffix hreport hv hu with hfull | ⟨hbuildu, -⟩
    · rcases hfull.2.2.2.2 (u, item) hentry path hpath with huntracked | ⟨other, hother, hisFull⟩
      · exact absurd huntracked hstate
      · exact ⟨other, hother, Or.inl hisFull⟩
    · have hfree : ¬ (states data.values path).HoldsApart (a.buildTypeOf variants v) := by
        intro hheld
        have hgroup : (u, item) ∈ data.membersOf (a.buildTypeOf variants)
            (a.buildTypeOf variants v) :=
          List.mem_filter.mpr ⟨hentry, decide_eq_true hbuildu.symm⟩
        exact hstays hne ⟨LibraryVariant.two_le_length_membersOf hx hy hne hbuild,
          Or.inr ⟨hcheck, (u, item), hgroup, path, hpath, hheld⟩⟩
      obtain ⟨other, hother, hexpanded⟩ := DependencyState.exists_folding hstate hfree
      rw [hbuildv] at hexpanded
      exact ⟨other, hother, Or.inr ⟨hbuildv.symm.trans (hbuild.trans hbuildw), hexpanded⟩⟩

/-- In a completed run that checks dependencies, two variants of a project with one target need the
same target of each library that this target depends on, if they are variants of that library with
the same build types, and the library has such a target. -/
theorem folded_variants_agree (hbuilt : g.Built) (hcheck : a.policy.checkDependencies = true)
    (hrun : a.run g s = (.ok summary, after)) {project dependency : Project}
    (hproject : g.project project.path = .ok project)
    (hdependency : g.project dependency.path = .ok dependency)
    (hlibrary : dependency.isLibrary = true) {folding : Folding LibraryVariant}
    (hfolding : after.registry.library? project.path = some folding) {v w suffix b c : String}
    (hne : v ≠ w) (hv : folding.assignment.get? v = some suffix)
    (hw : folding.assignment.get? w = some suffix)
    (hdepends : a.TargetDependsOn project folding suffix dependency.path)
    (hvb : a.ListsVariant project v b) (hwc : a.ListsVariant project w c)
    (hvb' : a.ListsVariant dependency v b) (hwc' : a.ListsVariant dependency w c) :
    after.registry.resolveSuffix dependency.path v (some b) =
        after.registry.resolveSuffix dependency.path w (some c) ∧
      after.registry.resolveSuffix dependency.path v (some b) ≠ none := by
  obtain ⟨paths, -, hsettles⟩ := settles_run hbuilt hrun
  have htracked : g.hasLibrary dependency.path = true :=
    (ProjectGraph.hasLibrary_eq hdependency).trans hlibrary
  obtain ⟨known, other, hstate, hcases⟩ :=
    exists_folding_of_targetDependsOn hcheck (hsettles.foldsTo hproject hfolding) hne hvb hwc hv hw
      hdepends fun _ hpath => Registry.earlierStates_ne_untracked hpath htracked
  obtain ⟨-, -, hother⟩ := Registry.earlierStates_eq_settled_iff.mp hstate
  rw [Registry.resolveSuffix_of_library? hother, Registry.resolveSuffix_of_library? hother]
  rcases hcases with hfull | ⟨rfl, hexpanded⟩
  · rw [Folding.resolve?_of_isFull hfull, Folding.resolve?_of_isFull hfull]
    exact ⟨rfl, nofun⟩
  · obtain ⟨variants, data, report, hdata, hreport, rfl⟩ := hsettles.foldsTo hdependency hother
    obtain ⟨⟨x, hx⟩, hbuildv⟩ := hvb'.exists_item hdata
    obtain ⟨⟨y, hy⟩, hbuildw⟩ := hwc'.exists_item hdata
    rw [← hbuildv] at hexpanded
    obtain ⟨common, hcommonv, hcommonw⟩ := LibraryVariant.exists_common_suffix hreport hx hy hne
      (hbuildv.trans hbuildw.symm) hexpanded
    rw [Folding.resolve?_of_assigned hcommonv, Folding.resolve?_of_assigned hcommonw]
    exact ⟨rfl, nofun⟩

/-- The debug variants of the application share a target, and they refer to one target of the
library that the application depends on. -/
theorem folded_variants_agree_sample :
    (sample.run sampleGraph .empty).2.registry.resolveSuffix ":core" "freeDebug" (some "debug") =
        some "-debug" ∧
      (sample.run sampleGraph .empty).2.registry.resolveSuffix ":core" "freeDebug" (some "debug") =
        (sample.run sampleGraph .empty).2.registry.resolveSuffix ":core" "paidDebug"
          (some "debug") ∧
      (sample.run sampleGraph .empty).2.registry.resolveSuffix ":core" "freeDebug"
        (some "debug") ≠ none := by
  have hanswer : (sample.run sampleGraph .empty).1.isOk = true ∧
      ((sample.run sampleGraph .empty).2.registry.library? ":app").map (fun folding =>
        (folding.assignment.get? "freeDebug", folding.assignment.get? "paidDebug")) =
          some (some "-debug", some "-debug") ∧
      (sample.run sampleGraph .empty).2.registry.resolveSuffix ":core" "freeDebug" (some "debug") =
        some "-debug" := by
    decide +kernel
  obtain ⟨hok, hshared, hsuffix⟩ := hanswer
  obtain ⟨summary, hrun⟩ := exists_run_of_isOk hok
  obtain ⟨folding, hfolding, hassigned⟩ := Option.map_eq_some_iff.mp hshared
  obtain ⟨hfree, hpaid⟩ := Prod.mk.inj hassigned
  have hlisted : ∀ project ∈ [(⟨":core", true⟩ : Project), ⟨":app", true⟩],
      ∀ variant ∈ ["freeDebug", "paidDebug"], sample.ListsVariant project variant "debug" := by
    intro project hproject variant hvariant
    refine ⟨_, rfl, ?_⟩
    revert project variant
    decide +kernel
  have hdepends : sample.TargetDependsOn ⟨":app", true⟩ folding "-debug" ":core" :=
    ⟨_, _, "freeDebug", _, ⟨rfl, rfl⟩, rfl, hfree, "", List.mem_cons_self⟩
  have happ : ∀ variant ∈ ["freeDebug", "paidDebug"],
      sample.ListsVariant ⟨":app", true⟩ variant "debug" :=
    hlisted ⟨":app", true⟩ (by decide)
  have hcore : ∀ variant ∈ ["freeDebug", "paidDebug"],
      sample.ListsVariant ⟨":core", true⟩ variant "debug" :=
    hlisted ⟨":core", true⟩ (by decide)
  refine ⟨hsuffix, ?_⟩
  exact folded_variants_agree built_sampleGraph rfl hrun
    (show sampleGraph.project (⟨":app", true⟩ : Project).path = .ok ⟨":app", true⟩ from rfl)
    (show sampleGraph.project (⟨":core", true⟩ : Project).path = .ok ⟨":core", true⟩ from rfl)
    rfl hfolding (by decide) hfree hpaid hdepends (happ "freeDebug" (by decide))
    (happ "paidDebug" (by decide)) (hcore "freeDebug" (by decide)) (hcore "paidDebug" (by decide))

end Analyzer

end BuildVariants

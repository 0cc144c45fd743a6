import BuildVariants.Proofs.Folding.Assignment

/-!
Folding library variants when dependencies get worse. A dependency state is at most another if it
keeps at most as much apart. Where every dependency is at most what it was, no more build types are
expanded, a full folding stays full, and variants that shared a target still share one.
-/

set_option autoImplicit false
set_option relaxedAutoImplicit false

namespace BuildVariants

/-- A folding limits its dependents at most as much as another one if it expands no other build
types and is full where the other one is. -/
structure Folding.LimitsAtMost {α : Type} (folding other : Folding α) : Prop where
  expanded : ∀ buildType ∈ folding.expanded.names, buildType ∈ other.expanded.names
  full : other.isFull = true → folding.isFull = true

/-- A folding is at least as coarse as another one if it limits dependents at most as much and joins
all variants that the other one joins. -/
structure Folding.AsCoarseAs {α : Type} (folding other : Folding α) : Prop extends
    Folding.LimitsAtMost folding other where
  joined : ∀ v w suffix, other.assignment.get? v = some suffix →
    other.assignment.get? w = some suffix → ∃ common,
      folding.assignment.get? v = some common ∧ folding.assignment.get? w = some common

namespace DependencyState

/-- The order of dependency states by what they keep apart. A project that is not tracked is at the
bottom, and one that should have a folding and has none is at the top. -/
inductive AtMost : DependencyState → DependencyState → Prop
  | untracked (state : DependencyState) : AtMost .untracked state
  | missing (state : DependencyState) : AtMost state .missing
  | settled {folding other : Folding LibraryVariant} (limits : folding.LimitsAtMost other) :
      AtMost (.settled folding) (.settled other)

variable {state other : DependencyState}

theorem AtMost.holdsApart (h : state.AtMost other) {buildType : String}
    (hstate : state.HoldsApart buildType) : other.HoldsApart buildType := by
  cases h with
  | untracked =>
    rcases hstate with hmissing | ⟨folding, hsettled, -⟩
    · cases hmissing
    · cases hsettled
  | missing => exact Or.inl rfl
  | settled limits =>
    rcases hstate with hmissing | ⟨folding, hsettled, hexpanded⟩
    · cases hmissing
    · cases hsettled
      exact Or.inr ⟨_, rfl, limits.expanded buildType hexpanded⟩

theorem AtMost.allowsOneTarget (h : state.AtMost other) (hother : other.AllowsOneTarget) :
    state.AllowsOneTarget := by
  cases h with
  | untracked => exact Or.inl rfl
  | missing =>
    rcases hother with huntracked | ⟨folding, hsettled, -⟩
    · cases huntracked
    · cases hsettled
  | settled limits =>
    rcases hother with huntracked | ⟨folding, hsettled, hfull⟩
    · cases huntracked
    · cases hsettled
      exact Or.inr ⟨_, rfl, limits.full hfull⟩

end DependencyState

namespace LibraryVariant

variable {options : LibraryOptions} {buildTypeOf : String → String}
  {states others : DependencyStates} {variants : OrderedMap LibraryVariant}
  {report other : FoldingReport LibraryVariant}

theorem StaysExpanded.of_atMost (h : ∀ path, (states path).AtMost (others path))
    {buildType : String} (hstays : StaysExpanded options buildTypeOf states variants buildType) :
    StaysExpanded options buildTypeOf others variants buildType := by
  obtain ⟨hseveral, hdiffer | ⟨hcheck, x, hx, path, hdepends, hheld⟩⟩ := hstays
  · exact ⟨hseveral, Or.inl hdiffer⟩
  · exact ⟨hseveral, Or.inr ⟨hcheck, x, hx, path, hdepends, (h path).holdsApart hheld⟩⟩

theorem FoldsFully.of_atMost (h : ∀ path, (states path).AtMost (others path))
    (hfull : FoldsFully options buildTypeOf others variants) :
    FoldsFully options buildTypeOf states variants := by
  obtain ⟨henabled, hseveral, hnone, hsame, hallows⟩ := hfull
  refine ⟨henabled, hseveral, ?_, hsame, ?_⟩
  · intro buildType hstays
    exact hnone buildType (hstays.of_atMost h)
  · intro x hx path hdepends
    exact (h path).allowsOneTarget (hallows x hx path hdepends)

section Comparison

variable (hstates : ∀ path, (states path).AtMost (others path))
  (hreport : fold options buildTypeOf states variants = .ok report)
  (hother : fold options buildTypeOf others variants = .ok other)

include hstates hreport hother

theorem mem_expanded_of_atMost {buildType : String}
    (hexpanded : buildType ∈ report.folding.expanded.names) :
    buildType ∈ other.folding.expanded.names := by
  rw [mem_expanded_report_iff hreport] at hexpanded
  rw [mem_expanded_report_iff hother]
  exact hexpanded.of_atMost hstates

theorem isFull_of_atMost (hfull : other.folding.isFull = true) :
    report.folding.isFull = true := by
  obtain ⟨hne, hall⟩ := (isFull_iff_assigned hother).mp hfull
  refine (isFull_iff_assigned hreport).mpr ⟨hne, fun variant hvariant => ?_⟩
  by_cases hfolds : FoldsFully options buildTypeOf states variants
  · exact get?_assignment_report_of_foldsFully hreport hfolds hvariant
  · -- Neither folding expands the build type, so both give the variant the same suffix.
    have hcollapsed := notMem_expanded_of_isFull hother hfull (buildTypeOf variant)
    have hexpanded := mt (mem_expanded_of_atMost hstates hreport hother) hcollapsed
    have hpartial := mt (FoldsFully.of_atMost hstates) hfolds
    have hassigned := get?_assignment_report_of_not_foldsFully hreport hfolds hvariant
    have hsame := get?_assignment_report_of_not_foldsFully hother hpartial hvariant
    simp only [hexpanded, not_false_eq_true, and_true] at hassigned
    simp only [hcollapsed, not_false_eq_true, and_true] at hsame
    rw [hassigned, ← hsame, hall variant hvariant]

theorem exists_common_of_atMost {v w suffix : String}
    (hv : other.folding.assignment.get? v = some suffix)
    (hw : other.folding.assignment.get? w = some suffix) :
    ∃ common, report.folding.assignment.get? v = some common ∧
      report.folding.assignment.get? w = some common := by
  have hvkey := mem_keys_of_assigned hother hv
  have hwkey := mem_keys_of_assigned hother hw
  by_cases hne : v = w
  · subst hne
    obtain ⟨common, hcommon⟩ := exists_suffix_of_mem_keys hreport hvkey
    exact ⟨common, hcommon, hcommon⟩
  · rcases foldsFully_or_of_same_suffix hother hv hw with hfolds | ⟨hbuild, happart⟩
    · have hfull := hfolds.of_atMost hstates
      exact ⟨"", get?_assignment_report_of_foldsFully hreport hfull hvkey,
        get?_assignment_report_of_foldsFully hreport hfull hwkey⟩
    · obtain ⟨x, hx⟩ := OrderedMap.mem_keys_iff.mp hvkey
      obtain ⟨y, hy⟩ := OrderedMap.mem_keys_iff.mp hwkey
      apply exists_common_suffix hreport hx hy hne hbuild
      rw [mem_expanded_report_iff hreport]
      intro hstays
      exact happart hne (hstays.of_atMost hstates)

/-- Library folding is monotone in the states of the dependencies. If each state is at most another,
what the variants fold to under the first states expands no more build types than what they fold to
under the second, is full where that is, and joins all variants that it joins. -/
theorem fold_asCoarseAs : report.folding.AsCoarseAs other.folding where
  expanded := fun _ hexpanded => mem_expanded_of_atMost hstates hreport hother hexpanded
  full := isFull_of_atMost hstates hreport hother
  joined := fun _ _ _ hv hw => exists_common_of_atMost hstates hreport hother hv hw

end Comparison

def oneTarget : Folding LibraryVariant :=
  ⟨.ofList [("", { name := "util" })], .empty, .empty, nofun⟩

def expandedDebug : Folding LibraryVariant := ⟨.empty, .empty, .ofList ["debug"], nofun⟩

/-- The debug variants of two flavors share a target while the project that they depend on has one
target, and are kept apart once that expands their build type. The first folding is as coarse as the
second. -/
theorem fold_asCoarseAs_two_flavors :
    ∃ report other,
      fold ⟨true, true⟩ twoFlavorsBuildType (fun _ => .settled oneTarget) twoFlavors = .ok report ∧
      fold ⟨true, true⟩ twoFlavorsBuildType (fun _ => .settled expandedDebug) twoFlavors =
        .ok other ∧
      report.folding.expanded.names = [] ∧ other.folding.expanded.names = ["debug"] ∧
      report.folding.AsCoarseAs other.folding := by
  have hfirst : (fold ⟨true, true⟩ twoFlavorsBuildType (fun _ => .settled oneTarget)
      twoFlavors).map (·.folding.expanded.names) = .ok [] := by
    decide +kernel
  have hsecond : (fold ⟨true, true⟩ twoFlavorsBuildType (fun _ => .settled expandedDebug)
      twoFlavors).map (·.folding.expanded.names) = .ok ["debug"] := by
    decide +kernel
  obtain ⟨report, hreport, hnone⟩ := map_eq_ok_iff.mp hfirst
  obtain ⟨other, hother, hdebug⟩ := map_eq_ok_iff.mp hsecond
  have hlimits : oneTarget.LimitsAtMost expandedDebug := by
    constructor
    · intro buildType hmem
      cases hmem
    · intro hfull
      exact absurd hfull (by decide +kernel)
  exact ⟨report, other, hreport, hother, hnone, hdebug,
    fold_asCoarseAs (fun _ => .settled hlimits) hreport hother⟩

end LibraryVariant

end BuildVariants

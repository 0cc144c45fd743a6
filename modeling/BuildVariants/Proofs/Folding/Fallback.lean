import BuildVariants.Proofs.Folding.Assignment

/-!
The suffix that a dependent refers to by its build type, where the dependency does not have the
variant of the dependent and is not fully folded. The registry answers with the suffix of the label
if a target has it and the build type is not expanded, so it finds the target of a folded build
type. It does not look whose target that is. The answer is a suffix of the build type exactly if no
variant of another build type has a target with the suffix of the label.
-/

set_option autoImplicit false
set_option relaxedAutoImplicit false

namespace BuildVariants

namespace Folding

variable {α : Type} {folding : Folding α} {buildTypeOf : String → String}

def Serves (folding : Folding α) (buildTypeOf : String → String) (buildType suffix : String) :
    Prop :=
  ∃ v, buildTypeOf v = buildType ∧ folding.assignment.get? v = some suffix

def ServesSeveral (folding : Folding α) (buildTypeOf : String → String)
    (buildType suffix : String) : Prop :=
  ∃ v w, v ≠ w ∧ buildTypeOf v = buildType ∧ buildTypeOf w = buildType ∧
    folding.assignment.get? v = some suffix ∧ folding.assignment.get? w = some suffix

theorem resolve?_buildType_eq_some_iff {variant buildType suffix : String}
    (hpartial : folding.isFull = false) (hmissing : folding.assignment.get? variant = none) :
    folding.resolve? variant (some buildType) = some suffix ↔
      suffix = Suffix.ofName buildType ∧ buildType ∉ folding.expanded.names ∧
        suffix ∈ folding.targets.keys := by
  simp only [resolve?, hmissing, hpartial, Bool.false_eq_true, ↓reduceIte, Option.bind_some,
    Bool.and_eq_true, Bool.not_eq_true', Option.ite_none_right_eq_some, Option.some.injEq,
    SortedMap.contains_iff_mem_keys, isExpanded, ← Bool.not_eq_true, NameSet.contains_iff]
  constructor
  · rintro ⟨⟨hkept, htarget⟩, rfl⟩
    exact ⟨rfl, hkept, htarget⟩
  · rintro ⟨rfl, hkept, htarget⟩
    exact ⟨⟨hkept, htarget⟩, rfl⟩

end Folding

namespace LibraryVariant

variable {options : LibraryOptions} {buildTypeOf : String → String} {states : DependencyStates}
  {variants : OrderedMap LibraryVariant} {report : FoldingReport LibraryVariant}

theorem get?_assignment_eq_none (h : fold options buildTypeOf states variants = .ok report)
    {v : String} (hv : v ∉ variants.keys) : report.folding.assignment.get? v = none := by
  by_contra hassigned
  obtain ⟨suffix, hsuffix⟩ := Option.ne_none_iff_exists'.mp hassigned
  exact hv (mem_keys_of_assigned h hsuffix)

/-- The name whose suffix the target of a variant has: its build type if several variants of that
are folded, and the variant otherwise. -/
def suffixLabel (buildTypeOf : String → String) (variants : OrderedMap LibraryVariant)
    (expanded : NameSet) (v : String) : String :=
  if 2 ≤ (variants.membersOf buildTypeOf (buildTypeOf v)).length ∧
      buildTypeOf v ∉ expanded.names then
    buildTypeOf v
  else v

section Partial

variable (h : fold options buildTypeOf states variants = .ok report)
  (hpartial : report.folding.isFull = false)
include h hpartial

theorem not_foldsFully_of_assigned {v suffix : String}
    (hassigned : report.folding.assignment.get? v = some suffix) :
    ¬ FoldsFully options buildTypeOf states variants := by
  intro hfull
  have hkey := mem_keys_of_assigned h hassigned
  have hempty : report.folding.isFull = true := (isFull_iff_assigned h).mpr
    ⟨List.ne_nil_of_mem hkey, fun _ => get?_assignment_report_of_foldsFully h hfull⟩
  rw [hpartial] at hempty
  contradiction

theorem get?_assignment_eq_suffixLabel {v : String} (hv : v ∈ variants.keys) :
    report.folding.assignment.get? v =
      some (Suffix.ofName (suffixLabel buildTypeOf variants report.folding.expanded v)) := by
  obtain ⟨suffix, hsuffix⟩ := exists_suffix_of_mem_keys h hv
  have hfull := not_foldsFully_of_assigned h hpartial hsuffix
  rw [get?_assignment_report_of_not_foldsFully h hfull hv, suffixLabel, apply_ite Suffix.ofName]

theorem eq_of_serves {b c suffix : String} (hb : report.folding.Serves buildTypeOf b suffix)
    (hc : report.folding.Serves buildTypeOf c suffix) : b = c := by
  obtain ⟨v, rfl, hv⟩ := hb
  obtain ⟨w, rfl, hw⟩ := hc
  rcases foldsFully_or_of_same_suffix h hv hw with hfull | ⟨hsame, -⟩
  · exact absurd hfull (not_foldsFully_of_assigned h hpartial hv)
  · exact hsame

/-- A target that serves several variants of a build type has its suffix, and the build type is not
expanded. -/
theorem suffix_of_servesSeveral {b suffix : String}
    (hseveral : report.folding.ServesSeveral buildTypeOf b suffix) :
    suffix = Suffix.ofName b ∧ b ∉ report.folding.expanded.names := by
  obtain ⟨v, w, hne, rfl, hbuild, hv, hw⟩ := hseveral
  have hfull := not_foldsFully_of_assigned h hpartial hv
  have hkept : buildTypeOf v ∉ report.folding.expanded.names := by
    rw [mem_expanded_report_iff h]
    exact ((foldsFully_or_of_same_suffix h hv hw).resolve_left hfull).2 hne
  have hkey := mem_keys_of_assigned h hv
  obtain ⟨x, hx⟩ := OrderedMap.mem_keys_iff.mp hkey
  obtain ⟨y, hy⟩ := OrderedMap.mem_keys_iff.mp (mem_keys_of_assigned h hw)
  have hlarge := two_le_length_membersOf hx hy hne hbuild.symm
  rw [get?_assignment_report_of_not_foldsFully h hfull hkey, if_pos ⟨hlarge, hkept⟩] at hv
  exact ⟨(Option.some.inj hv).symm, hkept⟩

end Partial

/-- Let a library be registered whose variants are not fully folded. For a variant that it does not
have, the suffix that a build type resolves to is one of that build type exactly if no variant of
another build type has a target with the suffix of the label. The suffix of a target that several
variants of the build type share is always found. -/
theorem resolves_within_buildType_iff
    (h : fold options buildTypeOf states variants = .ok report)
    (hpartial : report.folding.isFull = false) {registry : Registry} {path v : String}
    (hregistered : registry.library? path = some report.folding) (hv : v ∉ variants.keys)
    (b suffix : String) :
    (registry.resolveSuffix path v (some b) = some suffix →
      (report.folding.Serves buildTypeOf b suffix ↔ ∀ w ∈ variants.keys,
        Suffix.ofName (suffixLabel buildTypeOf variants report.folding.expanded w) =
          Suffix.ofName b → buildTypeOf w = b)) ∧
    (report.folding.ServesSeveral buildTypeOf b suffix →
      registry.resolveSuffix path v (some b) = some suffix) := by
  rw [Registry.resolveSuffix_of_library? hregistered,
    Folding.resolve?_buildType_eq_some_iff hpartial (get?_assignment_eq_none h hv)]
  constructor
  · rintro ⟨rfl, -, htarget⟩
    constructor
    · intro hb w hw hlabel
      have hassigned := get?_assignment_eq_suffixLabel h hpartial hw
      rw [hlabel] at hassigned
      exact eq_of_serves h hpartial ⟨w, rfl, hassigned⟩ hb
    · intro hothers
      obtain ⟨w, hw, hassigned⟩ := exists_assigned_of_mem_targets h htarget
      have hlabel := get?_assignment_eq_suffixLabel h hpartial hw
      rw [hassigned] at hlabel
      exact ⟨w, hothers w hw (Option.some.inj hlabel).symm, hassigned⟩
  · intro hseveral
    obtain ⟨hsuffix, hkept⟩ := suffix_of_servesSeveral h hpartial hseveral
    obtain ⟨w, -, -, -, -, hw, -⟩ := hseveral
    exact ⟨hsuffix, hkept, SortedMap.contains_iff_mem_keys.mp
      (Folding.contains_of_get?_assignment hw)⟩

/-- Debug variants of two flavors, which differ, beside release variants, which do not. -/
def stagingFlavors : OrderedMap LibraryVariant :=
  .ofList [
    ("stagingDebug", { name := "core-staging-debug", compose := true }),
    ("prodDebug", { name := "core-prod-debug" }),
    ("stagingRelease", { name := "core-staging-release" }),
    ("prodRelease", { name := "core-prod-release" })]

def stagingBuildType (variant : String) : String :=
  if variant = "stagingDebug" ∨ variant = "prodDebug" then "debug" else "release"

private theorem exists_fold_stagingFlavors :
    ∃ report, fold ⟨true, true⟩ stagingBuildType (fun _ => .untracked) stagingFlavors = .ok report ∧
      report.folding.isFull = false ∧ report.folding.expanded.names = ["debug"] ∧
      report.folding.assignment.entries =
        [("prodDebug", "-prod-debug"), ("prodRelease", "-release"),
          ("stagingDebug", "-staging-debug"), ("stagingRelease", "-release")] := by
  have hparts : (fold ⟨true, true⟩ stagingBuildType (fun _ => .untracked) stagingFlavors).map
      (fun report => (report.folding.isFull, report.folding.expanded.names,
        report.folding.assignment.entries)) =
      .ok (false, ["debug"],
        [("prodDebug", "-prod-debug"), ("prodRelease", "-release"),
          ("stagingDebug", "-staging-debug"), ("stagingRelease", "-release")]) := by
    decide +kernel
  obtain ⟨report, h, hreport⟩ := map_eq_ok_iff.mp hparts
  simp only [Prod.mk.injEq] at hreport
  exact ⟨report, h, hreport⟩

/-- A release variant of a third flavor resolves to the target of the release variants, and no
variant of another build type has a target with that suffix. -/
theorem resolves_within_buildType_iff_release :
    ∃ report, fold ⟨true, true⟩ stagingBuildType (fun _ => .untracked) stagingFlavors = .ok report ∧
      report.folding.isFull = false ∧ "freeRelease" ∉ stagingFlavors.keys ∧
      (Registry.empty.registerLibrary ":core" report.folding).resolveSuffix ":core" "freeRelease"
        (some "release") = some "-release" ∧
      report.folding.Serves stagingBuildType "release" "-release" ∧
      ∀ w ∈ stagingFlavors.keys,
        Suffix.ofName (suffixLabel stagingBuildType stagingFlavors report.folding.expanded w) =
          Suffix.ofName "release" → stagingBuildType w = "release" := by
  obtain ⟨report, h, hpartial, -, hentries⟩ := exists_fold_stagingFlavors
  have hkeys : "freeRelease" ∉ stagingFlavors.keys := by decide +kernel
  have hassigned : ∀ v suffix, (v, suffix) ∈ report.folding.assignment.entries →
      report.folding.assignment.get? v = some suffix :=
    fun _ _ => SortedMap.get?_eq_some_iff.mpr
  rw [hentries] at hassigned
  have hprod := hassigned "prodRelease" "-release" (by decide)
  have hstaging := hassigned "stagingRelease" "-release" (by decide)
  have hregistered : (Registry.empty.registerLibrary ":core" report.folding).library? ":core" =
      some report.folding := by
    rw [Registry.library?_registerLibrary, if_pos rfl]
  obtain ⟨hwithin, hfound⟩ :=
    resolves_within_buildType_iff h hpartial hregistered hkeys "release" "-release"
  have hresolved := hfound
    ⟨"prodRelease", "stagingRelease", by decide, by decide, by decide, hprod, hstaging⟩
  have hserves : report.folding.Serves stagingBuildType "release" "-release" :=
    ⟨"prodRelease", by decide, hprod⟩
  exact ⟨report, h, hpartial, hkeys, hresolved, hserves, (hwithin hresolved).mp hserves⟩

/-- A variant of a build type `stagingDebug`, which the library does not have, resolves to the
target of the debug variant of that name. -/
theorem resolves_to_other_buildType :
    ∃ report, fold ⟨true, true⟩ stagingBuildType (fun _ => .untracked) stagingFlavors = .ok report ∧
      report.folding.isFull = false ∧ "freeStagingDebug" ∉ stagingFlavors.keys ∧
      (Registry.empty.registerLibrary ":core" report.folding).resolveSuffix ":core"
        "freeStagingDebug" (some "stagingDebug") = some "-staging-debug" ∧
      ¬ report.folding.Serves stagingBuildType "stagingDebug" "-staging-debug" := by
  obtain ⟨report, h, hpartial, hexpanded, hentries⟩ := exists_fold_stagingFlavors
  have hkeys : "freeStagingDebug" ∉ stagingFlavors.keys := by decide +kernel
  have hassigned : report.folding.assignment.get? "stagingDebug" = some "-staging-debug" := by
    rw [SortedMap.get?_eq_some_iff, hentries]
    decide
  have htarget := Folding.contains_of_get?_assignment hassigned
  have hregistered : (Registry.empty.registerLibrary ":core" report.folding).library? ":core" =
      some report.folding := by
    rw [Registry.library?_registerLibrary, if_pos rfl]
  refine ⟨report, h, hpartial, hkeys, ?_, ?_⟩
  · rw [Registry.resolveSuffix_of_library? hregistered,
      Folding.resolve?_buildType_eq_some_iff hpartial (get?_assignment_eq_none h hkeys), hexpanded]
    exact ⟨by decide +kernel, by decide, SortedMap.contains_iff_mem_keys.mp htarget⟩
  · rintro ⟨w, hbuild, -⟩
    rw [stagingBuildType] at hbuild
    split at hbuild
    · exact absurd hbuild (by decide)
    · exact absurd hbuild (by decide)

end LibraryVariant

end BuildVariants

import BuildVariants.Proofs.Folding.Conservation

/-!
The names of targets. A target either holds the record of a variant as it was given, or several
variants were folded into it and it was moved to its suffix under a new name. Where moving exchanges
the suffix at the end of a name and every variant is named after its suffix, every target is named
after its own, and no two targets share a name.
-/

set_option autoImplicit false
set_option relaxedAutoImplicit false

namespace BuildVariants

namespace FoldRules

variable {α : Type} {rules : FoldRules α} {blocker : Option (Blocker α)}
  {config : Option (CrossFold α)}

section Kept

variable {suffix : String} {data : α}

/-- Several variants are folded into the target with a suffix: those of all build types, or those of
a build type with that suffix. -/
def FoldsInto (rules : FoldRules α) (blocker : Option (Blocker α)) (config : Option (CrossFold α))
    (variants : SortedMap α) (suffix : String) : Prop :=
  (rules.crosses blocker config variants = true ∧ suffix = "") ∨
    (rules.crosses blocker config variants = false ∧
      ∃ b, rules.shares blocker variants b = true ∧ rules.suffixOf b = suffix)

theorem exists_member_of_shares {variants : SortedMap α} {b : String}
    (h : rules.shares blocker variants b = true) :
    ∃ v item, variants.get? v = some item ∧ rules.buildTypeOf v = b := by
  simp only [shares, sharesTarget, Bool.and_eq_true, decide_eq_true_eq] at h
  have hentries : (rules.group variants b).entries ≠ [] := by
    apply List.ne_nil_of_length_pos
    exact Nat.zero_lt_of_lt h.1.1
  obtain ⟨⟨v, item⟩, hmem⟩ := List.exists_mem_of_ne_nil _ hentries
  exact ⟨v, item, get?_group_eq_some_iff.mp (SortedMap.get?_eq_some_iff.mpr hmem)⟩

theorem suffixOf_ne_of_shares {variants : SortedMap α} (h : rules.Uncontested blocker variants)
    {b c : String} (hb : b ∈ rules.buildTypes variants)
    (hapart : rules.shares blocker variants b = false)
    (htarget : rules.HasTarget blocker variants b suffix data)
    (hshares : rules.shares blocker variants c = true) : rules.suffixOf c ≠ suffix := by
  intro hsuffix
  obtain ⟨v, item, hitem, rfl⟩ := exists_member_of_shares hshares
  obtain ⟨other, hother⟩ := exists_hasTarget rules blocker hitem
  rw [suffixIn_eq, if_pos hshares, hsuffix] at hother
  have hc := buildTypeOf_mem_buildTypes rules (SortedMap.mem_keys_iff.mpr ⟨item, hitem⟩)
  -- The suffix belongs to one build type, which would share a target and be kept apart.
  have hsame : b = rules.buildTypeOf v := h.eq_of_hasTarget hb hc htarget hother
  rw [← hsame, hapart] at hshares
  contradiction

variable {variants : OrderedMap α} {outcome : Outcome α}

theorem get?_targets_of_kept (h : rules.fold blocker config variants = .ok outcome)
    (hcrosses : rules.crosses blocker config variants.sorted = false) {v : String}
    (hv : variants.get? v = some data)
    (hapart : rules.shares blocker variants.sorted (rules.buildTypeOf v) = false) :
    outcome.targets.get? (rules.suffixOf v) = some data := by
  rw [← OrderedMap.get?_sorted] at hv
  have hb := buildTypeOf_mem_buildTypes rules (SortedMap.mem_keys_iff.mpr ⟨data, hv⟩)
  have htarget : rules.HasTarget blocker variants.sorted (rules.buildTypeOf v) (rules.suffixOf v)
      data :=
    (mem_targets_of_not_shares (keys_group_ne_nil hb) hapart).mpr
      ⟨v, get?_group_eq_some_iff.mpr ⟨hv, rfl⟩, rfl⟩
  obtain ⟨huncontested, ⟨-, rfl⟩ | ⟨hacross, -⟩⟩ := fold_cases h
  · exact (get?_targets_joined huncontested).mpr ⟨_, hb, htarget⟩
  · rw [hcrosses] at hacross
    contradiction

theorem assigned_iff_of_kept (h : rules.fold blocker config variants = .ok outcome)
    (hcrosses : rules.crosses blocker config variants.sorted = false) {v w : String}
    (hv : variants.get? v = some data)
    (hapart : rules.shares blocker variants.sorted (rules.buildTypeOf v) = false) :
    outcome.assignment.get? w = some (rules.suffixOf v) ↔ w = v := by
  have hsuffix : rules.suffixIn blocker variants.sorted v = rules.suffixOf v := by
    rw [suffixIn_eq, hapart]
    rfl
  rw [get?_assignment_fold h, hcrosses, Option.map_eq_some_iff, ← hsuffix]
  constructor
  · intro hassigned
    obtain ⟨other, hw, hsame⟩ := hassigned
    have hkeyv := OrderedMap.mem_keys_sorted.mpr (OrderedMap.mem_keys_iff.mpr ⟨data, hv⟩)
    have hkeyw := OrderedMap.mem_keys_sorted.mpr (OrderedMap.mem_keys_iff.mpr ⟨other, hw⟩)
    by_contra hne
    have hshared := ((fold_cases h).1.of_suffixIn_eq hkeyv hkeyw hsame.symm).2 (Ne.symm hne)
    rw [hapart] at hshared
    contradiction
  · intro heq
    subst heq
    exact ⟨data, hv, rfl⟩

theorem exists_target_of_foldsInto (h : rules.fold blocker config variants = .ok outcome)
    (hfolds : rules.FoldsInto blocker config variants.sorted suffix) :
    ∃ data, outcome.targets.get? suffix = some data := by
  rcases hfolds with ⟨hcrosses, rfl⟩ | ⟨hcrosses, b, hshares, rfl⟩
  · obtain ⟨-, ⟨hapart, -⟩ | ⟨-, ⟨cross, -, hallows⟩, rfl⟩⟩ := fold_cases h
    · rw [hcrosses] at hapart
      contradiction
    · obtain ⟨old, item, -, htargets⟩ :=
        Outcome.exists_target_foldAcross rules (Outcome.allowsCross_iff.mp hallows).2.2.1
      exact ⟨_, (htargets "" _).mpr ⟨rfl, rfl⟩⟩
  · obtain ⟨v, item, hitem, rfl⟩ := exists_member_of_shares hshares
    rw [OrderedMap.get?_sorted] at hitem
    have hassigned := get?_assignment_fold h v
    rw [hitem, hcrosses, suffixIn_eq, hshares] at hassigned
    exact exists_target_fold h hassigned

/-- A target into which several variants are folded was moved to its suffix. Any other one holds the
record of a variant as it was given, which is the only variant with that suffix. -/
theorem target_fold_cases (h : rules.fold blocker config variants = .ok outcome)
    (htarget : outcome.targets.get? suffix = some data) :
    (rules.FoldsInto blocker config variants.sorted suffix ∧
        ∃ item old, data = rules.moveTarget item old suffix) ∨
      (¬ rules.FoldsInto blocker config variants.sorted suffix ∧
        ∃ v, variants.get? v = some data ∧ rules.suffixOf v = suffix ∧
          ∀ w, outcome.assignment.get? w = some suffix ↔ w = v) := by
  obtain ⟨huncontested, ⟨hcrosses, houtcome⟩ | ⟨hcrosses, ⟨cross, -, hallows⟩, houtcome⟩⟩ :=
    fold_cases h
  · rw [houtcome] at htarget
    obtain ⟨b, hb, hdata⟩ := (get?_targets_joined huncontested).mp htarget
    have hkeys : (rules.group variants.sorted b).keys ≠ [] := keys_group_ne_nil hb
    cases hshares : rules.shares blocker variants.sorted b with
    | true =>
      obtain ⟨hsuffix, v, item, -, hmoved⟩ := (mem_targets_of_shares hkeys hshares).mp hdata
      refine Or.inl ⟨Or.inr ⟨hcrosses, b, hshares, hsuffix.symm⟩, item, rules.suffixOf v, ?_⟩
      rw [hmoved, hsuffix]
    | false =>
      have hkept : ¬ rules.FoldsInto blocker config variants.sorted suffix := by
        rintro (⟨hacross, -⟩ | ⟨-, c, hfolded, hsuffix⟩)
        · rw [hcrosses] at hacross
          contradiction
        · exact suffixOf_ne_of_shares huncontested hb hshares hdata hfolded hsuffix
      obtain ⟨v, hv, rfl⟩ := (mem_targets_of_not_shares hkeys hshares).mp hdata
      obtain ⟨hitem, rfl⟩ := get?_group_eq_some_iff.mp hv
      rw [OrderedMap.get?_sorted] at hitem
      exact Or.inr ⟨hkept, v, hitem, rfl, fun w => assigned_iff_of_kept h hcrosses hitem hshares⟩
  · obtain ⟨old, item, -, htargets⟩ :=
      Outcome.exists_target_foldAcross rules (Outcome.allowsCross_iff.mp hallows).2.2.1
    rw [houtcome] at htarget
    obtain ⟨hsuffix, hmoved⟩ := (htargets suffix data).mp htarget
    exact Or.inl ⟨Or.inl ⟨hcrosses, hsuffix⟩, item, old, hsuffix ▸ hmoved⟩

end Kept

section Named

/-- A target that moves is named by exchanging the suffix at the end of its name. -/
structure ExchangesSuffixes (rules : FoldRules α) : Prop where
  foldedName : rules.foldedName = none
  nameOf_rename : ∀ item name, rules.nameOf (rules.rename item name) = name

variable {base : String}

theorem ExchangesSuffixes.nameOf_moveTarget (hrules : rules.ExchangesSuffixes) {item : α}
    {old : String} (h : rules.nameOf item = base ++ old) (new : String) :
    rules.nameOf (rules.moveTarget item old new) = base ++ new := by
  rw [moveTarget, hrules.foldedName, hrules.nameOf_rename]
  show Suffix.strip (rules.nameOf item) old ++ new = base ++ new
  rw [h, Suffix.strip_append]

theorem ExchangesSuffixes.nameOf_hasTarget (hrules : rules.ExchangesSuffixes)
    {variants : SortedMap α} (hnamed : ∀ v item, variants.get? v = some item →
      rules.nameOf item = base ++ rules.suffixOf v)
    {buildType suffix : String} {data : α} (hb : buildType ∈ rules.buildTypes variants)
    (htarget : rules.HasTarget blocker variants buildType suffix data) :
    rules.nameOf data = base ++ suffix := by
  have hkeys : (rules.group variants buildType).keys ≠ [] := keys_group_ne_nil hb
  cases hshares : rules.shares blocker variants buildType with
  | true =>
    obtain ⟨rfl, v, item, hhead, rfl⟩ := (mem_targets_of_shares hkeys hshares).mp htarget
    have hitem := SortedMap.get?_eq_some_iff.mpr (List.mem_of_head? hhead)
    have hname := hnamed v item (get?_group_eq_some_iff.mp hitem).1
    exact hrules.nameOf_moveTarget hname (rules.suffixOf buildType)
  | false =>
    obtain ⟨v, hv, rfl⟩ := (mem_targets_of_not_shares hkeys hshares).mp htarget
    exact hnamed v data (get?_group_eq_some_iff.mp hv).1

/-- Folding keeps the law that names end in suffixes, also where a target moves twice. -/
theorem ExchangesSuffixes.nameOf_target (hrules : rules.ExchangesSuffixes)
    {variants : OrderedMap α} (hnamed : ∀ v item, variants.get? v = some item →
      rules.nameOf item = base ++ rules.suffixOf v)
    {outcome : Outcome α} (h : rules.fold blocker config variants = .ok outcome)
    {suffix : String} {data : α} (htarget : outcome.targets.get? suffix = some data) :
    rules.nameOf data = base ++ suffix := by
  have hsorted : ∀ v item, variants.sorted.get? v = some item →
      rules.nameOf item = base ++ rules.suffixOf v := by
    intro v item hv
    rw [OrderedMap.get?_sorted] at hv
    exact hnamed v item hv
  obtain ⟨huncontested, houtcome⟩ := fold_cases h
  have hmerged : ∀ key value,
      (rules.merged blocker variants.sorted).targets.get? key = some value →
        rules.nameOf value = base ++ key := by
    intro key value hvalue
    obtain ⟨b, hb, hdata⟩ := (get?_targets_joined huncontested).mp hvalue
    exact hrules.nameOf_hasTarget hsorted hb hdata
  rcases houtcome with ⟨-, rfl⟩ | ⟨-, ⟨cross, -, hallows⟩, rfl⟩
  · exact hmerged suffix data htarget
  · obtain ⟨old, item, hitem, htargets⟩ :=
      Outcome.exists_target_foldAcross rules (Outcome.allowsCross_iff.mp hallows).2.2.1
    obtain ⟨rfl, rfl⟩ := (htargets suffix data).mp htarget
    exact hrules.nameOf_moveTarget (hmerged old item hitem) ""

end Named

end FoldRules

def NamesDiffer {α : Type} (nameOf : α → String) (targets : SortedMap α) : Prop :=
  ∀ s t x y, targets.get? s = some x → targets.get? t = some y → s ≠ t → nameOf x ≠ nameOf y

/-- Each target is named by its suffix, which follows the base that all names share, so different
targets have different names. -/
structure NamedBySuffix {α : Type} (nameOf : α → String) (base : String)
    (targets : SortedMap α) : Prop where
  name_eq : ∀ suffix data, targets.get? suffix = some data → nameOf data = base ++ suffix
  names_differ : NamesDiffer nameOf targets

theorem NamedBySuffix.of_name_eq {α : Type} {nameOf : α → String} {base : String}
    {targets : SortedMap α}
    (h : ∀ suffix data, targets.get? suffix = some data → nameOf data = base ++ suffix) :
    NamedBySuffix nameOf base targets where
  name_eq := h
  names_differ := by
    intro s t x y hx hy hne hname
    rw [h s x hx, h t y hy] at hname
    exact hne ((String.append_right_inj base).mp hname)

/-- Where moving a target exchanges the suffix at the end of its name and the variants are named by
their suffixes, the targets are named by theirs, whatever else the rules are. The rules for library
variants are such rules. -/
theorem targets_named_by_suffix :
    (∀ (α : Type) (rules : FoldRules α) blocker config variants outcome base,
      rules.ExchangesSuffixes →
      (∀ v item, variants.get? v = some item → rules.nameOf item = base ++ rules.suffixOf v) →
      rules.fold blocker config variants = .ok outcome →
        NamedBySuffix rules.nameOf base outcome.targets) ∧
    ∀ options buildTypeOf states variants report base,
      (∀ v data, variants.get? v = some data → data.name = base ++ Suffix.ofName v) →
      LibraryVariant.fold options buildTypeOf states variants = .ok report →
        NamedBySuffix LibraryVariant.name base report.folding.targets := by
  constructor
  · intro α rules blocker config variants outcome base hrules hnamed h
    apply NamedBySuffix.of_name_eq
    intro suffix data htarget
    exact hrules.nameOf_target hnamed h htarget
  · intro options buildTypeOf states variants report base hnamed h
    obtain ⟨outcome, houtcome, hreport⟩ := LibraryVariant.fold_eq_ok_iff.mp h
    obtain ⟨-, htargets, -, -, -⟩ := Outcome.report_eq_ok_iff.mp hreport
    rw [LibraryVariant.foldOutcome_eq] at houtcome
    have hrules : (LibraryVariant.foldRules buildTypeOf).ExchangesSuffixes := ⟨rfl, fun _ _ => rfl⟩
    rw [htargets]
    apply NamedBySuffix.of_name_eq
    intro suffix data htarget
    exact hrules.nameOf_target hnamed houtcome htarget

def FoldRules.ofAnyTexts (buildTypeOf : String → String) : FoldRules String :=
  { ofTexts buildTypeOf with interchangeable := fun _ => true }

/-- Texts that end in their names, after a base that could be a name too. -/
def suffixedTexts : OrderedMap String := .ofList [("d", "ad"), ("b", "ab"), ("a", "aa")]

def suffixedLibraries : OrderedMap LibraryVariant :=
  .ofList [
    ("freeDebug", { name := "lib-debug-free-debug" }),
    ("paidDebug", { name := "lib-debug-paid-debug" }),
    ("freeRelease", { name := "lib-debug-free-release" }),
    ("paidRelease", { name := "lib-debug-paid-release" })]

/-- The two texts of one build type move to its name, and all libraries move to the base. -/
theorem targets_named_by_suffix_samples :
    (∃ outcome, (FoldRules.ofAnyTexts FoldRules.fourTextsBuildType).fold none none suffixedTexts =
        .ok outcome ∧ outcome.targets.entries = [("d", "ad"), ("debug", "adebug")] ∧
      NamedBySuffix id "a" outcome.targets) ∧
    ∃ report, LibraryVariant.fold ⟨true, true⟩ LibraryVariant.twoFlavorsBuildType
        (fun _ => .untracked) suffixedLibraries = .ok report ∧ report.folding.suffixes = [""] ∧
      NamedBySuffix LibraryVariant.name "lib-debug" report.folding.targets := by
  constructor
  · have htargets : ((FoldRules.ofAnyTexts FoldRules.fourTextsBuildType).fold none none
        suffixedTexts).map (·.targets.entries) = .ok [("d", "ad"), ("debug", "adebug")] := by
      decide +kernel
    obtain ⟨outcome, h, hentries⟩ := map_eq_ok_iff.mp htargets
    have hnamed : ∀ v item, suffixedTexts.get? v = some item → item = "a" ++ v :=
      OrderedMap.forall_get?_iff.mpr (by decide +kernel)
    refine ⟨outcome, h, hentries, ?_⟩
    exact targets_named_by_suffix.1 _ _ _ _ _ outcome "a" ⟨rfl, fun _ _ => rfl⟩ hnamed h
  · have hsuffixes : (LibraryVariant.fold ⟨true, true⟩ LibraryVariant.twoFlavorsBuildType
        (fun _ => .untracked) suffixedLibraries).map (·.folding.suffixes) = .ok [""] := by
      decide +kernel
    obtain ⟨report, h, hreport⟩ := map_eq_ok_iff.mp hsuffixes
    have hnamed : ∀ v data, suffixedLibraries.get? v = some data →
        data.name = "lib-debug" ++ Suffix.ofName v :=
      OrderedMap.forall_get?_iff.mpr (by decide +kernel)
    refine ⟨report, h, hreport, ?_⟩
    exact targets_named_by_suffix.2 _ _ _ _ report "lib-debug" hnamed h

end BuildVariants

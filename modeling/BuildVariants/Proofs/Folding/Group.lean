import BuildVariants.Folding.Outcome
import BuildVariants.Proofs.FiniteMap

/-!
What folding makes of one build type. A group of variants either shares one target or keeps a target
for each variant, and `settleGroup_cases` says when it does which, with the decision that reports
it. The suffixes and targets of a settled group follow from that. A group has no contested suffix
exactly if its variants have different suffixes.
-/

set_option autoImplicit false
set_option relaxedAutoImplicit false

namespace BuildVariants

/-- The variants of a build type with their data, in the order in which they were given. -/
def OrderedMap.membersOf {α : Type} (buildTypeOf : String → String) (variants : OrderedMap α)
    (buildType : String) : List (String × α) :=
  variants.entries.filter fun entry => buildTypeOf entry.1 = buildType

namespace FoldRules

variable {α : Type} (rules : FoldRules α)

def buildTypes (variants : SortedMap α) : List String :=
  (NameSet.ofList (variants.keys.map rules.buildTypeOf)).names

def group (variants : SortedMap α) (buildType : String) : SortedMap α :=
  variants.filterKeys fun variant => rules.buildTypeOf variant = buildType

def sharesTarget (blocker : Option (Blocker α)) (buildType : String) (group : SortedMap α) : Bool :=
  1 < group.size && (blocker.bind fun block => block buildType group).isNone &&
    rules.interchangeable group.values

def groupSuffix (blocker : Option (Blocker α)) (buildType : String) (group : SortedMap α)
    (variant : String) : String :=
  if rules.sharesTarget blocker buildType group then rules.suffixOf buildType
  else rules.suffixOf variant

variable {rules} {variants group : SortedMap α} {buildType variant : String}
  {blocker : Option (Blocker α)}

theorem mem_buildTypes :
    buildType ∈ rules.buildTypes variants ↔
      ∃ v ∈ variants.keys, rules.buildTypeOf v = buildType := by
  simp [buildTypes]

theorem pairwise_buildTypes : (rules.buildTypes variants).Pairwise (· < ·) :=
  (NameSet.ofList (variants.keys.map rules.buildTypeOf)).ascending

theorem nodup_buildTypes : (rules.buildTypes variants).Nodup :=
  nodup_of_pairwise_lt pairwise_buildTypes

theorem get?_group :
    (rules.group variants buildType).get? variant =
      if rules.buildTypeOf variant = buildType then variants.get? variant else none := by
  simp [FoldRules.group, SortedMap.get?_filterKeys]

theorem get?_group_eq_some_iff {data : α} :
    (rules.group variants buildType).get? variant = some data ↔
      variants.get? variant = some data ∧ rules.buildTypeOf variant = buildType := by
  rw [get?_group]
  by_cases hbuild : rules.buildTypeOf variant = buildType
  · simp [hbuild]
  · simp [hbuild]

theorem mem_keys_group :
    variant ∈ (rules.group variants buildType).keys ↔
      variant ∈ variants.keys ∧ rules.buildTypeOf variant = buildType := by
  simp [FoldRules.group, SortedMap.keys_filterKeys]

theorem keys_group_ne_nil (h : buildType ∈ rules.buildTypes variants) :
    (rules.group variants buildType).keys ≠ [] := by
  obtain ⟨v, hv, hbuild⟩ := mem_buildTypes.mp h
  exact List.ne_nil_of_mem (mem_keys_group.mpr ⟨hv, hbuild⟩)

theorem perm_entries_group (rules : FoldRules α) (variants : OrderedMap α) (buildType : String) :
    (rules.group variants.sorted buildType).entries.Perm
      (variants.membersOf rules.buildTypeOf buildType) :=
  variants.perm_entries_sorted.filter _

theorem size_group (variants : OrderedMap α) :
    (rules.group variants.sorted buildType).size =
      (variants.membersOf rules.buildTypeOf buildType).length :=
  (perm_entries_group rules variants buildType).length_eq

theorem mem_values_group {variants : OrderedMap α} {data : α} :
    data ∈ (rules.group variants.sorted buildType).values ↔
      ∃ x ∈ variants.membersOf rules.buildTypeOf buildType, x.2 = data := by
  simp only [SortedMap.values, List.mem_map, (perm_entries_group rules variants buildType).mem_iff]

theorem one_lt_length_iff_of_nodup {names : List String} (h : names.Nodup) :
    1 < names.length ↔ ∃ b c, b ≠ c ∧ b ∈ names ∧ c ∈ names := by
  cases names with
  | nil => simp
  | cons first rest =>
    cases rest with
    | nil =>
      simp only [List.length_singleton, Nat.lt_irrefl, List.mem_singleton, false_iff]
      rintro ⟨b, c, hne, rfl, rfl⟩
      exact hne rfl
    | cons second rest =>
      have hne : first ≠ second := by
        rintro rfl
        exact (List.nodup_cons.mp h).1 List.mem_cons_self
      simp only [List.length_cons, Nat.lt_add_left_iff_pos, Nat.zero_lt_succ, true_iff]
      exact ⟨first, second, hne, by simp, by simp⟩

theorem mem_buildTypes_sorted_iff {variants : OrderedMap α} :
    buildType ∈ rules.buildTypes variants.sorted ↔
      variants.membersOf rules.buildTypeOf buildType ≠ [] := by
  rw [mem_buildTypes]
  constructor
  · rintro ⟨v, hv, hbuild⟩
    obtain ⟨data, hdata⟩ := OrderedMap.mem_keys_iff.mp (OrderedMap.mem_keys_sorted.mp hv)
    have hmem : (v, data) ∈ variants.membersOf rules.buildTypeOf buildType :=
      List.mem_filter.mpr ⟨OrderedMap.get?_eq_some_iff.mp hdata, decide_eq_true hbuild⟩
    exact List.ne_nil_of_mem hmem
  · intro hne
    obtain ⟨⟨v, data⟩, hmem⟩ := List.exists_mem_of_ne_nil _ hne
    obtain ⟨hentry, hbuild⟩ := List.mem_filter.mp hmem
    have hkey := OrderedMap.mem_keys_iff.mpr ⟨data, OrderedMap.get?_eq_some_iff.mpr hentry⟩
    exact ⟨v, OrderedMap.mem_keys_sorted.mpr hkey, of_decide_eq_true hbuild⟩

theorem one_lt_length_buildTypes_iff {variants : OrderedMap α} :
    1 < (rules.buildTypes variants.sorted).length ↔
      ∃ b c, b ≠ c ∧ variants.membersOf rules.buildTypeOf b ≠ [] ∧
        variants.membersOf rules.buildTypeOf c ≠ [] := by
  rw [one_lt_length_iff_of_nodup nodup_buildTypes]
  simp only [mem_buildTypes_sorted_iff]

theorem settleGroup_of_several (rules : FoldRules α) (blocker : Option (Blocker α))
    (buildType : String) (h : ∀ v, group.keys ≠ [v]) :
    rules.settleGroup blocker buildType group =
      match blocker.bind fun block => block buildType group with
      | some reason => rules.keepApart buildType group true (.expanded buildType group.keys reason)
      | none =>
        if rules.interchangeable group.values then rules.foldTogether buildType group
        else rules.keepApart buildType group true
          (.expanded buildType group.keys differingConfiguration) := by
  unfold settleGroup
  split
  · next v hv => exact absurd hv (h v)
  · rfl

/-- What can become of a group: its only variant keeps its target, a blocker or a difference keeps
several variants apart, or several variants share a target. -/
theorem settleGroup_cases (rules : FoldRules α) (blocker : Option (Blocker α)) (buildType : String)
    (h : group.keys ≠ []) :
    (∃ v, group.keys = [v] ∧ rules.settleGroup blocker buildType group =
      rules.keepApart buildType group false (.single buildType v (rules.suffixOf v))) ∨
    (1 < group.size ∧ ∃ reason,
      ((blocker.bind fun block => block buildType group) = some reason ∨
        (blocker.bind fun block => block buildType group) = none ∧
          rules.interchangeable group.values = false ∧ reason = differingConfiguration) ∧
      rules.settleGroup blocker buildType group =
        rules.keepApart buildType group true (.expanded buildType group.keys reason)) ∨
    (1 < group.size ∧ (blocker.bind fun block => block buildType group) = none ∧
      rules.interchangeable group.values = true ∧
      rules.settleGroup blocker buildType group = rules.foldTogether buildType group) := by
  by_cases hsingle : ∃ v, group.keys = [v]
  · obtain ⟨v, hv⟩ := hsingle
    exact Or.inl ⟨v, hv, by simp only [settleGroup, hv]⟩
  · have hsize : 1 < group.size := by
      rw [← SortedMap.length_keys]
      cases hkeys : group.keys with
      | nil => exact absurd hkeys h
      | cons v rest =>
        cases rest with
        | nil => exact absurd ⟨v, hkeys⟩ hsingle
        | cons w rest => simp
    rw [settleGroup_of_several rules blocker buildType fun v hv => hsingle ⟨v, hv⟩]
    right
    cases hblock : blocker.bind fun block => block buildType group with
    | some reason => exact Or.inl ⟨hsize, reason, Or.inl rfl, rfl⟩
    | none =>
      cases hsame : rules.interchangeable group.values with
      | false =>
        exact Or.inl ⟨hsize, differingConfiguration, Or.inr ⟨rfl, rfl, rfl⟩, by simp⟩
      | true => exact Or.inr ⟨hsize, rfl, rfl, by simp⟩

theorem settleGroup_eq (rules : FoldRules α) (blocker : Option (Blocker α)) (buildType : String)
    (h : group.keys ≠ []) :
    (rules.sharesTarget blocker buildType group = true ∧
      rules.settleGroup blocker buildType group = rules.foldTogether buildType group) ∨
    (rules.sharesTarget blocker buildType group = false ∧
      ∃ decision, rules.settleGroup blocker buildType group =
        rules.keepApart buildType group (decide (1 < group.size)) decision) := by
  rcases settleGroup_cases rules blocker buildType h with
    ⟨v, hkeys, hsettle⟩ | ⟨hsize, reason, hreason, hsettle⟩ | ⟨hsize, hblock, hsame, hsettle⟩
  · have hsize : group.size = 1 := by rw [← SortedMap.length_keys, hkeys, List.length_singleton]
    exact Or.inr ⟨by simp [sharesTarget, hsize], _, by rw [hsettle, hsize]; rfl⟩
  · refine Or.inr ⟨?_, _, by rw [hsettle, decide_eq_true hsize]⟩
    rcases hreason with hblock | ⟨-, hsame, -⟩
    · simp [sharesTarget, hblock]
    · simp [sharesTarget, hsame]
  · exact Or.inl ⟨by simp [sharesTarget, hsize, hblock, hsame], hsettle⟩

@[simp] theorem buildType_settleGroup :
    (rules.settleGroup blocker buildType group).buildType = buildType := by
  unfold settleGroup
  split
  · rfl
  · split
    · rfl
    · split <;> rfl

theorem assignment_settleGroup (h : group.keys ≠ []) :
    (rules.settleGroup blocker buildType group).assignment =
      group.keys.map fun v => (v, rules.groupSuffix blocker buildType group v) := by
  rcases settleGroup_eq rules blocker buildType h with
    ⟨hshares, hsettle⟩ | ⟨hshares, decision, hsettle⟩
  · simp [hsettle, foldTogether, groupSuffix, hshares]
  · simp [hsettle, keepApart, groupSuffix, hshares]

theorem expanded_settleGroup (h : group.keys ≠ []) :
    (rules.settleGroup blocker buildType group).expanded = true ↔
      1 < group.size ∧ rules.sharesTarget blocker buildType group = false := by
  rcases settleGroup_eq rules blocker buildType h with
    ⟨hshares, hsettle⟩ | ⟨hshares, decision, hsettle⟩
  · simp [hsettle, foldTogether, hshares]
  · simp [hsettle, keepApart, hshares]

theorem mem_targets_of_shares (h : group.keys ≠ [])
    (hshares : rules.sharesTarget blocker buildType group = true) {suffix : String} {data : α} :
    (suffix, data) ∈ (rules.settleGroup blocker buildType group).targets ↔
      suffix = rules.suffixOf buildType ∧ ∃ v item, group.entries.head? = some (v, item) ∧
        data = rules.moveTarget item (rules.suffixOf v) (rules.suffixOf buildType) := by
  rcases settleGroup_eq rules blocker buildType h with
    ⟨-, hsettle⟩ | ⟨hapart, -⟩
  · rw [hsettle]
    simp only [foldTogether, List.mem_map, Option.mem_toList, Prod.mk.injEq]
    constructor
    · rintro ⟨⟨v, item⟩, hhead, rfl, rfl⟩
      exact ⟨rfl, v, item, hhead, rfl⟩
    · rintro ⟨rfl, v, item, hhead, rfl⟩
      exact ⟨(v, item), hhead, rfl, rfl⟩
  · rw [hshares] at hapart
    contradiction

theorem mem_targets_of_not_shares (h : group.keys ≠ [])
    (hapart : rules.sharesTarget blocker buildType group = false) {suffix : String} {data : α} :
    (suffix, data) ∈ (rules.settleGroup blocker buildType group).targets ↔
      ∃ v, group.get? v = some data ∧ suffix = rules.suffixOf v := by
  rcases settleGroup_eq rules blocker buildType h with
    ⟨hshares, -⟩ | ⟨-, decision, hsettle⟩
  · rw [hapart] at hshares
    contradiction
  · rw [hsettle]
    simp only [keepApart, List.mem_map, Prod.mk.injEq, SortedMap.get?_eq_some_iff]
    constructor
    · rintro ⟨⟨v, item⟩, hmem, rfl, rfl⟩
      exact ⟨v, hmem, rfl⟩
    · rintro ⟨v, hmem, rfl⟩
      exact ⟨(v, data), hmem, rfl, rfl⟩

theorem exists_target_of_mem (h : group.keys ≠ []) {v : String} {item : α}
    (hv : group.get? v = some item) :
    ∃ data, (rules.groupSuffix blocker buildType group v, data) ∈
      (rules.settleGroup blocker buildType group).targets := by
  cases hshares : rules.sharesTarget blocker buildType group with
  | true =>
    have hentries : group.entries ≠ [] := by
      intro hnil
      exact h (by simp [SortedMap.keys, hnil])
    obtain ⟨first, rest, hcons⟩ := List.exists_cons_of_ne_nil hentries
    refine ⟨_, (mem_targets_of_shares h hshares).mpr
      ⟨by simp [groupSuffix, hshares], first.1, first.2, by simp [hcons], rfl⟩⟩
  | false =>
    exact ⟨item, (mem_targets_of_not_shares h hshares).mpr
      ⟨v, hv, by simp [groupSuffix, hshares]⟩⟩

theorem contested_eq_nil_iff {names : List String} :
    rules.contested names = [] ↔ (names.map rules.suffixOf).Nodup := by
  have hclaims : ∀ suffix,
      ((names.map fun v => (rules.suffixOf v, v)).filter (·.1 = suffix)).length =
        (names.map rules.suffixOf).count suffix := by
    intro suffix
    rw [← List.countP_eq_length_filter, List.count_eq_countP, List.countP_map, List.countP_map]
    congr 1
  simp only [contested, List.filter_eq_nil_iff, List.mem_map, NameSet.mem_names_ofList,
    List.map_map]
  rw [List.nodup_iff_count_le_one]
  constructor
  · intro hnone suffix
    by_cases hmem : suffix ∈ names.map rules.suffixOf
    · have hclaim := hnone (suffix, _) ⟨suffix, by simpa using hmem, rfl⟩
      simp only [List.length_map, hclaims, decide_eq_true_eq] at hclaim
      omega
    · rw [List.count_eq_zero_of_not_mem hmem]
      omega
  · rintro hcount claim ⟨suffix, -, rfl⟩
    simp only [List.length_map, hclaims, decide_eq_true_eq]
    have hle := hcount suffix
    omega

theorem foldGroup_eq_ok_iff {outcome : GroupOutcome α} :
    rules.foldGroup blocker buildType group = .ok outcome ↔
      (group.keys.map rules.suffixOf).Nodup ∧
        outcome = rules.settleGroup blocker buildType group := by
  rw [← contested_eq_nil_iff, foldGroup]
  cases hclaims : rules.contested group.keys with
  | nil => simp [eq_comm]
  | cons claim rest => simp

end FoldRules

end BuildVariants

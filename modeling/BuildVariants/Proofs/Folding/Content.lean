import BuildVariants.Proofs.Folding.Across
import BuildVariants.Proofs.Variant

/-!
Rules that compare variants by a content which does not involve their names. Equal content is an
equivalence, so comparing with a first item is comparing every pair. A target then has the content
of every variant that it stands for and the data of one of them up to the name, and folding across
build types is allowed exactly where all variants of the project have the same content.
-/

set_option autoImplicit false
set_option relaxedAutoImplicit false

namespace BuildVariants

/-- The items are interchangeable exactly if they have the same content, which a new name leaves
alone, and a new name is all that renaming changes. -/
structure FoldRules.ComparesContent {α β : Type} (rules : FoldRules α) (content : α → β) :
    Prop where
  interchangeable_iff : ∀ items, rules.interchangeable items = true ↔
    ∀ x ∈ items, ∀ y ∈ items, content x = content y
  content_rename : ∀ item name, content (rules.rename item name) = content item
  nameOf_rename : ∀ item name, rules.nameOf (rules.rename item name) = name
  rename_nameOf : ∀ item, rules.rename item (rules.nameOf item) = item
  rename_rename : ∀ item name other,
    rules.rename (rules.rename item name) other = rules.rename item other

namespace FoldRules.ComparesContent

variable {α β : Type} {rules : FoldRules α} {content : α → β} {blocker : Option (Blocker α)}

section Merged

variable {variants : SortedMap α}

private theorem of_shares (h : rules.ComparesContent content) {buildType v w : String} {x y : α}
    (hshares : rules.shares blocker variants buildType = true)
    (hv : (rules.group variants buildType).get? v = some x)
    (hw : (rules.group variants buildType).get? w = some y) : content x = content y := by
  simp only [shares, sharesTarget, Bool.and_eq_true] at hshares
  exact (h.interchangeable_iff _).mp hshares.2 x (SortedMap.mem_values_iff.mpr ⟨v, hv⟩) y
    (SortedMap.mem_values_iff.mpr ⟨w, hw⟩)

theorem exists_source (h : rules.ComparesContent content) {buildType suffix : String} {data : α}
    (hb : buildType ∈ rules.buildTypes variants)
    (htarget : rules.HasTarget blocker variants buildType suffix data) :
    ∃ u item, variants.get? u = some item ∧ rules.suffixIn blocker variants u = suffix ∧
      data = rules.rename item (rules.nameOf data) := by
  obtain ⟨u, item, hu, -, hsuffix, hdata⟩ := exists_variant_of_hasTarget hb htarget
  refine ⟨u, item, hu, hsuffix, ?_⟩
  rcases hdata with rfl | ⟨old, new, rfl⟩
  · exact (h.rename_nameOf data).symm
  · rw [moveTarget, h.nameOf_rename]

theorem content_eq_of_suffixIn_eq (h : rules.ComparesContent content)
    (huncontested : rules.Uncontested blocker variants) {v w : String} {x y : α}
    (hv : variants.get? v = some x) (hw : variants.get? w = some y)
    (heq : rules.suffixIn blocker variants v = rules.suffixIn blocker variants w) :
    content x = content y := by
  by_cases hvw : v = w
  · subst hvw
    rw [hv] at hw
    rw [Option.some.inj hw]
  · obtain ⟨hbuild, hshares⟩ := huncontested.of_suffixIn_eq (SortedMap.mem_keys_iff.mpr ⟨x, hv⟩)
      (SortedMap.mem_keys_iff.mpr ⟨y, hw⟩) heq
    exact h.of_shares (hshares hvw) (get?_group.trans ((if_pos rfl).trans hv))
      (get?_group.trans ((if_pos hbuild.symm).trans hw))

theorem content_target (h : rules.ComparesContent content)
    (huncontested : rules.Uncontested blocker variants) {buildType v suffix : String} {x data : α}
    (hb : buildType ∈ rules.buildTypes variants)
    (htarget : rules.HasTarget blocker variants buildType suffix data)
    (hv : variants.get? v = some x) (hsuffix : rules.suffixIn blocker variants v = suffix) :
    content data = content x := by
  obtain ⟨u, item, hu, hsame, hdata⟩ := h.exists_source hb htarget
  rw [hdata, h.content_rename]
  exact h.content_eq_of_suffixIn_eq huncontested hu hv (hsame.trans hsuffix.symm)

private theorem length_targets (hnone : (rules.merged blocker variants).expanded.names = [])
    {buildType : String} (hb : buildType ∈ rules.buildTypes variants) :
    (rules.settleGroup blocker buildType (rules.group variants buildType)).targets.length = 1 := by
  have hkeys := keys_group_ne_nil hb
  have hentries : (rules.group variants buildType).entries ≠ [] := by
    intro hnil
    exact hkeys (by simp [SortedMap.keys, hnil])
  obtain ⟨first, rest, hcons⟩ := List.exists_cons_of_ne_nil hentries
  have hexpanded : buildType ∉ (rules.merged blocker variants).expanded.names := by simp [hnone]
  rw [merged, mem_expanded_joined, not_and, Bool.not_eq_false] at hexpanded
  rcases settleGroup_eq rules blocker buildType hkeys with
    ⟨-, hsettle⟩ | ⟨hapart, decision, hsettle⟩
  · simp [hsettle, foldTogether, hcons]
  · have hsize : ¬ 1 < (rules.group variants buildType).size := by
      intro hlarge
      rw [shares, hapart] at hexpanded
      exact absurd (hexpanded hlarge) (by simp)
    rw [SortedMap.size] at hsize
    simp only [hsettle, keepApart, List.length_map]
    rw [hcons, List.length_cons] at hsize ⊢
    omega

private theorem size_targets (huncontested : rules.Uncontested blocker variants)
    (hnone : (rules.merged blocker variants).expanded.names = []) :
    (rules.merged blocker variants).targets.size = (rules.buildTypes variants).length := by
  have hone : ∀ buildType ∈ rules.buildTypes variants,
      (rules.settleGroup blocker buildType (rules.group variants buildType)).targets.length = 1 :=
    fun _ hb => length_targets hnone hb
  rw [merged, Outcome.joined, SortedMap.size_ofList huncontested.targets_nodup, settled,
    List.flatMap_map, List.length_flatMap, List.map_congr_left hone, List.map_const',
    List.sum_replicate_nat, Nat.mul_one]

theorem allowsCross_iff (h : rules.ComparesContent content)
    (huncontested : rules.Uncontested blocker variants) {cross : CrossFold α}
    (hcross : cross.interchangeable = rules.interchangeable) :
    (rules.merged blocker variants).allowsCross cross = true ↔
      cross.enabled = true ∧ (rules.merged blocker variants).expanded.names = [] ∧
        1 < (rules.buildTypes variants).length ∧ cross.objection = none ∧
        ∀ v w x y, variants.get? v = some x → variants.get? w = some y →
          content x = content y := by
  rw [Outcome.allowsCross_iff, hcross]
  refine and_congr_right fun _ => and_congr_right fun hnone => ?_
  rw [size_targets huncontested hnone]
  refine and_congr_right fun _ => and_congr_right fun _ => ?_
  rw [h.interchangeable_iff]
  constructor
  · intro htargets v w x y hv hw
    obtain ⟨s, hs⟩ := exists_hasTarget rules blocker hv
    obtain ⟨t, ht⟩ := exists_hasTarget rules blocker hw
    have hbv := buildTypeOf_mem_buildTypes rules (SortedMap.mem_keys_iff.mpr ⟨x, hv⟩)
    have hbw := buildTypeOf_mem_buildTypes rules (SortedMap.mem_keys_iff.mpr ⟨y, hw⟩)
    have hst : content s = content t := htargets
      s (SortedMap.mem_values_iff.mpr ⟨_, (get?_targets_joined huncontested).mpr ⟨_, hbv, hs⟩⟩)
      t (SortedMap.mem_values_iff.mpr ⟨_, (get?_targets_joined huncontested).mpr ⟨_, hbw, ht⟩⟩)
    rw [← h.content_target huncontested hbv hs hv rfl, hst,
      h.content_target huncontested hbw ht hw rfl]
  · intro hall s hs t ht
    obtain ⟨suffix, hs⟩ := SortedMap.mem_values_iff.mp hs
    obtain ⟨other, ht⟩ := SortedMap.mem_values_iff.mp ht
    obtain ⟨b, hb, hs⟩ := (get?_targets_joined huncontested).mp hs
    obtain ⟨c, hc, ht⟩ := (get?_targets_joined huncontested).mp ht
    obtain ⟨v, x, hv, hsuffix, -⟩ := h.exists_source hb hs
    obtain ⟨w, y, hw, hother, -⟩ := h.exists_source hc ht
    rw [h.content_target huncontested hb hs hv hsuffix, hall v w x y hv hw,
      h.content_target huncontested hc ht hw hother]

end Merged

section Folded

variable {variants : OrderedMap α} {cross : CrossFold α} {outcome : Outcome α}

theorem interchangeable_group_iff (h : rules.ComparesContent content) {buildType : String} :
    rules.interchangeable (rules.group variants.sorted buildType).values = true ↔
      ∀ x ∈ variants.membersOf rules.buildTypeOf buildType,
        ∀ y ∈ variants.membersOf rules.buildTypeOf buildType, content x.2 = content y.2 := by
  rw [h.interchangeable_iff]
  simp only [mem_values_group]
  constructor
  · intro hall x hx y hy
    exact hall x.2 ⟨x, hx, rfl⟩ y.2 ⟨y, hy, rfl⟩
  · rintro hall _ ⟨x, hx, rfl⟩ _ ⟨y, hy, rfl⟩
    exact hall x hx y hy

theorem crosses_some_iff (h : rules.ComparesContent content)
    (huncontested : rules.Uncontested blocker variants.sorted)
    (hcross : cross.interchangeable = rules.interchangeable) :
    rules.crosses blocker (some cross) variants.sorted = true ↔
      cross.enabled = true ∧ (rules.merged blocker variants.sorted).expanded.names = [] ∧
        (∃ b c, b ≠ c ∧ variants.membersOf rules.buildTypeOf b ≠ [] ∧
          variants.membersOf rules.buildTypeOf c ≠ []) ∧ cross.objection = none ∧
        ∀ x ∈ variants.entries, ∀ y ∈ variants.entries, content x.2 = content y.2 := by
  have hsame : (∀ v w x y, variants.sorted.get? v = some x → variants.sorted.get? w = some y →
      content x = content y) ↔
        ∀ x ∈ variants.entries, ∀ y ∈ variants.entries, content x.2 = content y.2 := by
    simp only [OrderedMap.get?_sorted, OrderedMap.get?_eq_some_iff]
    constructor
    · intro hall x hx y hy
      exact hall x.1 y.1 x.2 y.2 hx hy
    · intro hall v w x y hx hy
      exact hall (v, x) hx (w, y) hy
  rw [crosses, Option.any_some, h.allowsCross_iff huncontested hcross, hsame,
    one_lt_length_buildTypes_iff]

/-- The target of a variant has its content, and the data of a variant with the same target up to
the name. -/
theorem exists_standIn (h : rules.ComparesContent content)
    (hcross : cross.interchangeable = rules.interchangeable)
    (hfold : rules.fold blocker (some cross) variants = .ok outcome) {v : String} {x : α}
    (hv : variants.get? v = some x) :
    ∃ suffix data, outcome.assignment.get? v = some suffix ∧
      outcome.targets.get? suffix = some data ∧ content data = content x ∧
      ∃ u item, variants.get? u = some item ∧ outcome.assignment.get? u = some suffix ∧
        data = rules.rename item (rules.nameOf data) := by
  have hassigned : ∀ {u item}, variants.sorted.get? u = some item →
      outcome.assignment.get? u =
        some (if rules.crosses blocker (some cross) variants.sorted then ""
          else rules.suffixIn blocker variants.sorted u) := by
    intro u item hu
    rw [get?_assignment_fold hfold, ← OrderedMap.get?_sorted, hu]
    rfl
  have hunsorted : ∀ {u item}, variants.sorted.get? u = some item → variants.get? u = some item :=
    fun hu => (OrderedMap.get?_sorted variants _).symm.trans hu
  rw [← OrderedMap.get?_sorted] at hv
  have hb := buildTypeOf_mem_buildTypes rules (SortedMap.mem_keys_iff.mpr ⟨x, hv⟩)
  obtain ⟨huncontested, ⟨hcrosses, rfl⟩ | ⟨hcrosses, ⟨config, hconfig, hallows⟩, rfl⟩⟩ :=
    fold_cases hfold
  · simp only [hcrosses, Bool.false_eq_true, ↓reduceIte] at hassigned
    obtain ⟨data, hdata⟩ := exists_hasTarget rules blocker hv
    obtain ⟨u, item, hu, hsuffix, hrename⟩ := h.exists_source hb hdata
    exact ⟨_, data, hassigned hv, (get?_targets_joined huncontested).mpr ⟨_, hb, hdata⟩,
      h.content_target huncontested hb hdata hv rfl, u, item, hunsorted hu,
      hsuffix ▸ hassigned hu, hrename⟩
  · simp only [hcrosses, ↓reduceIte] at hassigned
    obtain rfl := Option.some.inj hconfig
    obtain ⟨-, -, -, -, hall⟩ := (h.allowsCross_iff huncontested hcross).mp hallows
    obtain ⟨old, data, hdata, htargets⟩ := Outcome.exists_target_foldAcross rules
      (Outcome.allowsCross_iff.mp hallows).2.2.1
    obtain ⟨c, hc, hdata⟩ := (get?_targets_joined huncontested).mp hdata
    obtain ⟨u, item, hu, -, hrename⟩ := h.exists_source hc hdata
    -- The target is renamed a second time, so it is the data of the variant under a third name.
    have hmove : rules.moveTarget data old "" =
        rules.rename item (rules.nameOf (rules.moveTarget data old "")) := by
      rw [moveTarget, h.nameOf_rename]
      nth_rewrite 1 [hrename]
      exact h.rename_rename _ _ _
    refine ⟨"", rules.moveTarget data old "", hassigned hv, (htargets _ _).mpr ⟨rfl, rfl⟩, ?_,
      u, item, hunsorted hu, hassigned hu, hmove⟩
    rw [hmove, h.content_rename]
    exact hall u v item x hu hv

end Folded

end FoldRules.ComparesContent

end BuildVariants

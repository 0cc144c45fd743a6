import BuildVariants.Proofs.Folding.Conservation

/-!
When folding fails, and what its fault says. Folding fails exactly if a suffix is contested: two
variants of one build type have the same suffix, or, where no build type has such variants, targets
of two build types do. The fault is about the smallest build type with a contest of its own and
lists all claimants, or it names one suffix that two build types own.
-/

set_option autoImplicit false
set_option relaxedAutoImplicit false

namespace BuildVariants

theorem exists_split_of_firstRepeat_eq_some {β : Type} {earlier entries : List (String × β)}
    {key : String} {owner value : β} (h : firstRepeat earlier entries = some (key, owner, value)) :
    ∃ before after, entries = before ++ (key, value) :: after ∧
      ((key, owner) ∈ earlier ∨ (key, owner) ∈ before) := by
  induction entries generalizing earlier with
  | nil => cases h
  | cons head rest ih =>
    obtain ⟨first, other⟩ := head
    unfold firstRepeat at h
    split at h
    · next found hfound =>
      cases h
      obtain ⟨left, right, rfl, -⟩ := List.lookup_eq_some_iff.mp hfound
      exact ⟨[], rest, rfl, Or.inl (by simp)⟩
    · obtain ⟨before, after, rfl, howner⟩ := ih h
      refine ⟨(first, other) :: before, after, rfl, ?_⟩
      rcases howner with hearlier | hbefore
      · rcases List.mem_cons.mp hearlier with hhead | hearlier
        · exact Or.inr (hhead ▸ List.mem_cons_self)
        · exact Or.inl hearlier
      · exact Or.inr (List.mem_cons_of_mem _ hbefore)

namespace FoldRules

variable {α : Type} (rules : FoldRules α)

/-- A variant of a build type claims a suffix if that is its own. -/
def Claimant (variants : OrderedMap α) (buildType suffix variant : String) : Prop :=
  (variant ∈ variants.keys ∧ rules.buildTypeOf variant = buildType) ∧
    rules.suffixOf variant = suffix

def CollidesWithin (variants : OrderedMap α) (buildType : String) : Prop :=
  ∃ suffix v w, v ≠ w ∧ rules.Claimant variants buildType suffix v ∧
    rules.Claimant variants buildType suffix w

/-- A build type owns the suffixes of its targets: its own suffix if its variants share a target,
and the suffixes of its variants otherwise. -/
def Owns (blocker : Option (Blocker α)) (variants : OrderedMap α) (buildType suffix : String) :
    Prop :=
  ∃ v ∈ variants.keys, rules.buildTypeOf v = buildType ∧
    rules.suffixIn blocker variants.sorted v = suffix

def CollidesBetween (blocker : Option (Blocker α)) (variants : OrderedMap α) : Prop :=
  ∃ b c suffix, b ≠ c ∧ rules.Owns blocker variants b suffix ∧ rules.Owns blocker variants c suffix

/-- A fault names the contest within a build type. No smaller build type has one, and the fault
lists exactly the suffixes that several variants of the build type claim, with all their
claimants. -/
structure NamesWithin (variants : OrderedMap α) (fault : Fault) (buildType : String) : Prop where
  collides : rules.CollidesWithin variants buildType
  least : ∀ b, rules.CollidesWithin variants b → buildType ≤ b
  context : fault.context.entries = [("build_type", buildType)]
  claims : ∃ claims, fault.kind = .suffixCollision claims ∧
    ∀ suffix names, claims.get? suffix = some names ↔
      1 < names.length ∧ ListsInOrder names (rules.Claimant variants buildType suffix)

structure NamesBetween (blocker : Option (Blocker α)) (variants : OrderedMap α) (fault : Fault)
    (suffix lower upper : String) : Prop where
  ascending : lower < upper
  lower_owns : rules.Owns blocker variants lower suffix
  upper_owns : rules.Owns blocker variants upper suffix
  claims : ∃ claims, fault.kind = .suffixCollision claims ∧
    claims.entries = [(suffix, [lower, upper])]

variable {rules} {blocker : Option (Blocker α)} {config : Option (CrossFold α)}

section Claims

theorem mem_contested_iff {names : List String} {suffix : String} {claimants : List String} :
    (suffix, claimants) ∈ rules.contested names ↔
      claimants = names.filter (fun v => rules.suffixOf v = suffix) ∧ 1 < claimants.length := by
  have hclaimants : ∀ other, ((names.map fun v => (rules.suffixOf v, v)).filter
      (·.1 = other)).map (·.2) = names.filter fun v => rules.suffixOf v = other := by
    intro other
    rw [List.filter_map, List.map_map]
    simp [Function.comp_def]
  simp only [contested, hclaimants, List.mem_filter, List.mem_map, NameSet.mem_names_ofList,
    List.map_map, Prod.mk.injEq, decide_eq_true_eq, Function.comp_apply]
  constructor
  · rintro ⟨⟨other, -, rfl, rfl⟩, hseveral⟩
    exact ⟨rfl, hseveral⟩
  · rintro ⟨rfl, hseveral⟩
    refine ⟨⟨suffix, ?_, rfl, rfl⟩, hseveral⟩
    obtain ⟨v, hv⟩ := List.exists_mem_of_length_pos (Nat.zero_lt_of_lt hseveral)
    obtain ⟨hmem, hsuffix⟩ := List.mem_filter.mp hv
    exact ⟨v, hmem, of_decide_eq_true hsuffix⟩

theorem nodup_suffixes_contested (rules : FoldRules α) (names : List String) :
    ((rules.contested names).map (·.1)).Nodup := by
  refine List.Nodup.sublist (List.filter_sublist.map _) ?_
  rw [List.map_map]
  simp only [Function.comp_def, List.map_id']
  exact nodup_of_pairwise_lt (NameSet.ascending _)

theorem get?_claims_contested {names : List String} (h : names.Pairwise (· < ·)) {suffix : String}
    {claimants : List String} :
    (Claims.ofList (rules.contested names)).get? suffix = some claimants ↔
      claimants = names.filter (fun v => rules.suffixOf v = suffix) ∧ 1 < claimants.length := by
  have hsorted : ∀ claim ∈ rules.contested names, sortNames claim.2 = claim.2 := by
    intro claim hclaim
    rw [(mem_contested_iff.mp hclaim).1]
    exact sortNames_eq_self (h.filter _)
  have hclaims : (rules.contested names).map (fun claim => (claim.1, sortNames claim.2)) =
      rules.contested names := by
    rw [List.map_congr_left fun claim hclaim => by rw [hsorted claim hclaim]]
    exact List.map_id _
  rw [Claims.ofList, hclaims,
    SortedMap.get?_ofList_eq_some_iff (nodup_suffixes_contested rules names), mem_contested_iff]

end Claims

section Groups

variable {group : SortedMap α} {buildType : String}

theorem foldGroup_eq_error_iff {collision : Collision} :
    rules.foldGroup blocker buildType group = .error collision ↔
      ¬ (group.keys.map rules.suffixOf).Nodup ∧
        collision = .variants buildType (rules.contested group.keys) := by
  rw [← contested_eq_nil_iff, foldGroup]
  cases rules.contested group.keys with
  | nil => simp
  | cons claim rest => simp [eq_comm]

theorem nodup_targets_settleGroup (h : group.keys ≠ [])
    (hnodup : (group.keys.map rules.suffixOf).Nodup) :
    ((rules.settleGroup blocker buildType group).targets.map (·.1)).Nodup := by
  rcases settleGroup_eq rules blocker buildType h with ⟨-, hsettle⟩ | ⟨-, decision, hsettle⟩
  · rw [hsettle, foldTogether]
    cases group.entries.head? with
    | none => exact List.nodup_nil
    | some entry => exact List.nodup_singleton _
  · rw [hsettle, keepApart, List.map_map]
    rwa [SortedMap.keys, List.map_map] at hnodup

end Groups

section Contests

variable {variants : OrderedMap α} {buildType suffix : String} {collision : Collision}

theorem collidesWithin_iff :
    rules.CollidesWithin variants buildType ↔
      ¬ ((rules.group variants.sorted buildType).keys.map rules.suffixOf).Nodup := by
  rw [List.nodup_map_iff_inj_on (SortedMap.nodup_keys _)]
  have hmember := (listsInOrder_group rules variants buildType).mem_iff
  simp only [hmember, CollidesWithin, Claimant]
  push Not
  constructor
  · rintro ⟨_, v, w, hne, ⟨hv, rfl⟩, hw, hsame⟩
    exact ⟨v, hv, w, hw, hsame.symm, hne⟩
  · rintro ⟨v, hv, w, hw, hsame, hne⟩
    exact ⟨_, v, w, hne, ⟨hv, rfl⟩, hw, hsame.symm⟩

theorem mem_buildTypes_of_collidesWithin (h : rules.CollidesWithin variants buildType) :
    buildType ∈ rules.buildTypes variants.sorted := by
  obtain ⟨suffix, v, w, -, ⟨⟨hkey, hbuild⟩, -⟩, -⟩ := h
  exact ((listsInOrder_buildTypes rules variants).mem_iff buildType).mpr ⟨v, hkey, hbuild⟩

theorem owns_iff :
    rules.Owns blocker variants buildType suffix ↔ buildType ∈ rules.buildTypes variants.sorted ∧
      ∃ data, rules.HasTarget blocker variants.sorted buildType suffix data := by
  constructor
  · rintro ⟨v, hv, rfl, rfl⟩
    obtain ⟨item, hitem⟩ := SortedMap.mem_keys_iff.mp (OrderedMap.mem_keys_sorted.mpr hv)
    exact ⟨buildTypeOf_mem_buildTypes rules (OrderedMap.mem_keys_sorted.mpr hv),
      exists_hasTarget rules blocker hitem⟩
  · rintro ⟨hb, data, htarget⟩
    obtain ⟨v, item, hv, hbuild, hsuffix, -⟩ := exists_variant_of_hasTarget hb htarget
    have hkey := OrderedMap.mem_keys_sorted.mp (SortedMap.mem_keys_iff.mpr ⟨item, hv⟩)
    exact ⟨v, hkey, hbuild, hsuffix⟩

theorem mem_owners_settled {owner : String} :
    (suffix, owner) ∈ Outcome.owners (rules.settled blocker variants.sorted) ↔
      rules.Owns blocker variants owner suffix := by
  rw [owns_iff]
  simp [Outcome.owners, settled, HasTarget, and_comm]

theorem pairwise_owners_settled (h : ∀ b, ¬ rules.CollidesWithin variants b) :
    (Outcome.owners (rules.settled blocker variants.sorted)).Pairwise
      fun x y => x.1 = y.1 → x.2 < y.2 := by
  have howners : Outcome.owners (rules.settled blocker variants.sorted) =
      (rules.buildTypes variants.sorted).flatMap fun b =>
        (rules.settleGroup blocker b (rules.group variants.sorted b)).targets.map
          fun target => (target.1, b) := by
    simp [Outcome.owners, settled, List.flatMap_map]
  rw [howners, List.pairwise_flatMap]
  constructor
  · intro b hb
    have hnodup : ((rules.group variants.sorted b).keys.map rules.suffixOf).Nodup := by
      by_contra hrepeat
      exact h b (collidesWithin_iff.mpr hrepeat)
    have htargets : ((rules.settleGroup blocker b (rules.group variants.sorted b)).targets.map
        (·.1)).Nodup := nodup_targets_settleGroup (keys_group_ne_nil hb) hnodup
    rw [List.pairwise_map]
    exact (List.pairwise_map.mp htargets).imp fun hne heq => absurd heq hne
  · refine pairwise_buildTypes.imp fun {b c} hlt x hx y hy _ => ?_
    obtain ⟨-, -, rfl⟩ := List.mem_map.mp hx
    obtain ⟨-, -, rfl⟩ := List.mem_map.mp hy
    exact hlt

theorem foldBuildTypes_eq (rules : FoldRules α) (blocker : Option (Blocker α))
    (variants : OrderedMap α) :
    rules.foldBuildTypes blocker variants =
      (rules.buildTypes variants.sorted).mapM (fun b =>
        rules.foldGroup blocker b (rules.group variants.sorted b)) >>= Outcome.merge := by
  rw [foldBuildTypes, groups, List.mapM_map]
  rfl

/-- The groups fail at the first one that has a contest, whose fault lists all its claimants. -/
theorem namesWithin_of_foldGroups
    (h : (rules.buildTypes variants.sorted).mapM (fun b =>
      rules.foldGroup blocker b (rules.group variants.sorted b)) = .error collision) :
    ∃ b, rules.NamesWithin variants collision.fault b := by
  obtain ⟨before, b, after, hsplit, hbefore, hb⟩ := exists_first_of_mapM_eq_error h
  obtain ⟨hcontest, rfl⟩ := foldGroup_eq_error_iff.mp hb
  have hkeys := listsInOrder_group rules variants b
  refine ⟨b, ⟨collidesWithin_iff.mpr hcontest, ?_, rfl, _, rfl, ?_⟩⟩
  · intro c hc
    have hmem : c ∈ before ++ b :: after := hsplit ▸ mem_buildTypes_of_collidesWithin hc
    rcases List.mem_append.mp hmem with hearlier | hrest
    · obtain ⟨outcome, houtcome⟩ := hbefore c hearlier
      exact absurd (foldGroup_eq_ok_iff.mp houtcome).1 (collidesWithin_iff.mp hc)
    · have hascending : (before ++ b :: after).Pairwise (· < ·) := hsplit ▸ pairwise_buildTypes
      have hafter := (List.pairwise_cons.mp (List.pairwise_append.mp hascending).2.1).1
      rcases List.mem_cons.mp hrest with rfl | hlater
      · exact String.le_refl c
      · exact Std.le_of_lt (hafter c hlater)
  · intro suffix names
    have hclaimants : ListsInOrder
        ((rules.group variants.sorted b).keys.filter fun v => rules.suffixOf v = suffix)
        (rules.Claimant variants b suffix) := by
      have hfiltered := hkeys.filter fun v => decide (rules.suffixOf v = suffix)
      simp only [decide_eq_true_eq] at hfiltered
      exact hfiltered
    rw [get?_claims_contested (SortedMap.pairwise_keys _)]
    constructor
    · rintro ⟨rfl, hseveral⟩
      exact ⟨hseveral, hclaimants⟩
    · rintro ⟨hseveral, hnames⟩
      exact ⟨hnames.unique hclaimants, hseveral⟩

/-- Merging fails with a suffix that two build types own, the smaller one named first. -/
theorem namesBetween_of_merge (hapart : ∀ b, ¬ rules.CollidesWithin variants b)
    (h : Outcome.merge (rules.settled blocker variants.sorted) = .error collision) :
    ∃ suffix lower upper,
      rules.NamesBetween blocker variants collision.fault suffix lower upper := by
  unfold Outcome.merge at h
  split at h
  · next suffix lower upper hrepeat =>
    cases h
    obtain ⟨before, after, howners, hlower⟩ := exists_split_of_firstRepeat_eq_some hrepeat
    have hbefore : (suffix, lower) ∈ before := hlower.resolve_left List.not_mem_nil
    have hascending : (Outcome.owners (rules.settled blocker variants.sorted)).Pairwise
        fun x y => x.1 = y.1 → x.2 < y.2 := pairwise_owners_settled hapart
    rw [howners] at hascending
    have hlt : lower < upper :=
      (List.pairwise_append.mp hascending).2.2 _ hbefore _ List.mem_cons_self rfl
    have hsorted : sortNames [lower, upper] = [lower, upper] :=
      sortNames_eq_self (by simpa using hlt)
    refine ⟨suffix, lower, upper, ⟨hlt, ?_, ?_, _, rfl, ?_⟩⟩
    · exact mem_owners_settled.mp (howners ▸ List.mem_append_left _ hbefore)
    · exact mem_owners_settled.mp (howners ▸ List.mem_append_right _ List.mem_cons_self)
    · show [(suffix, sortNames [lower, upper])] = _
      rw [hsorted]
  · cases h

theorem NamesBetween.collidesBetween {fault : Fault} {lower upper : String}
    (h : rules.NamesBetween blocker variants fault suffix lower upper) :
    rules.CollidesBetween blocker variants := by
  refine ⟨lower, upper, suffix, ?_, h.lower_owns, h.upper_owns⟩
  rintro rfl
  exact String.lt_irrefl lower h.ascending

theorem fold_eq_error_cases (h : rules.fold blocker config variants = .error collision) :
    (∃ b, rules.NamesWithin variants collision.fault b) ∨
      ((∀ b, ¬ rules.CollidesWithin variants b) ∧
        ∃ suffix lower upper,
          rules.NamesBetween blocker variants collision.fault suffix lower upper) := by
  rw [FoldRules.fold, foldBuildTypes_eq, bind_eq_error_iff] at h
  rcases h with h | ⟨outcome, -, hcross⟩
  · rcases bind_eq_error_iff.mp h with hgroups | ⟨groups, hgroups, hmerge⟩
    · exact Or.inl (namesWithin_of_foldGroups hgroups)
    · obtain ⟨hnodup, rfl⟩ := (mapM_eq_ok_iff_of_result fun b outcome =>
        foldGroup_eq_ok_iff).mp hgroups
      have hapart : ∀ b, ¬ rules.CollidesWithin variants b := by
        intro b hb
        exact collidesWithin_iff.mp hb (hnodup b (mem_buildTypes_of_collidesWithin hb))
      exact Or.inr ⟨hapart, namesBetween_of_merge hapart hmerge⟩
  · cases hcross

theorem not_collides_of_uncontested (h : rules.Uncontested blocker variants.sorted) :
    (∀ b, ¬ rules.CollidesWithin variants b) ∧ ¬ rules.CollidesBetween blocker variants := by
  constructor
  · intro b hb
    exact collidesWithin_iff.mp hb (h.variants_nodup b (mem_buildTypes_of_collidesWithin hb))
  · rintro ⟨b, c, suffix, hne, hb, hc⟩
    obtain ⟨hmemb, x, hx⟩ := owns_iff.mp hb
    obtain ⟨hmemc, y, hy⟩ := owns_iff.mp hc
    exact hne (h.eq_of_hasTarget hmemb hmemc hx hy)

theorem exists_outcome_fold_iff :
    (∃ outcome, rules.fold blocker config variants = .ok outcome) ↔
      (∀ b, ¬ rules.CollidesWithin variants b) ∧ ¬ rules.CollidesBetween blocker variants := by
  constructor
  · rintro ⟨outcome, h⟩
    exact not_collides_of_uncontested (fold_cases h).1
  · rintro ⟨hapart, hbetween⟩
    cases h : rules.fold blocker config variants with
    | ok outcome => exact ⟨outcome, rfl⟩
    | error collision =>
      rcases fold_eq_error_cases h with ⟨b, hwithin⟩ | ⟨-, suffix, lower, upper, hnames⟩
      · exact absurd hwithin.collides (hapart b)
      · exact absurd hnames.collidesBetween hbetween

/-- Folding fails exactly if two variants of a build type have the same suffix or, where no build
type has such variants, two build types own the same suffix. Otherwise there is an outcome, which
becomes a folding. The fault names the contest: the one within the smallest build type that has
one, with all claimants, or else a single suffix with two of its owners. -/
theorem fold_collides (rules : FoldRules α) (blocker : Option (Blocker α))
    (config : Option (CrossFold α)) (variants : OrderedMap α) :
    ((∃ collision, rules.fold blocker config variants = .error collision) ↔
      (∃ b, rules.CollidesWithin variants b) ∨
        ((∀ b, ¬ rules.CollidesWithin variants b) ∧ rules.CollidesBetween blocker variants)) ∧
    ((∃ outcome report, rules.fold blocker config variants = .ok outcome ∧
        outcome.report = .ok report) ↔
      (∀ b, ¬ rules.CollidesWithin variants b) ∧ ¬ rules.CollidesBetween blocker variants) ∧
    ∀ collision, rules.fold blocker config variants = .error collision →
      ((∃ b, rules.CollidesWithin variants b) →
        ∃ b, rules.NamesWithin variants collision.fault b) ∧
      ((∀ b, ¬ rules.CollidesWithin variants b) →
        ∃ suffix lower upper,
          rules.NamesBetween blocker variants collision.fault suffix lower upper) := by
  have houtcome : (∃ outcome, rules.fold blocker config variants = .ok outcome) ↔
      (∀ b, ¬ rules.CollidesWithin variants b) ∧ ¬ rules.CollidesBetween blocker variants :=
    exists_outcome_fold_iff
  refine ⟨⟨?_, ?_⟩, ⟨?_, ?_⟩, ?_⟩
  · rintro ⟨collision, h⟩
    rcases fold_eq_error_cases h with ⟨b, hwithin⟩ | ⟨hapart, suffix, lower, upper, hnames⟩
    · exact Or.inl ⟨b, hwithin.collides⟩
    · exact Or.inr ⟨hapart, hnames.collidesBetween⟩
  · intro hcollides
    cases h : rules.fold blocker config variants with
    | error collision => exact ⟨collision, rfl⟩
    | ok outcome =>
      obtain ⟨hapart, hbetween⟩ := houtcome.mp ⟨outcome, h⟩
      rcases hcollides with ⟨b, hb⟩ | ⟨-, hcross⟩
      · exact absurd hb (hapart b)
      · exact absurd hcross hbetween
  · rintro ⟨outcome, report, h, -⟩
    exact houtcome.mp ⟨outcome, h⟩
  · intro hnone
    obtain ⟨outcome, h⟩ := houtcome.mpr hnone
    obtain ⟨report, hreport⟩ := exists_report_fold h
    exact ⟨outcome, report, h, hreport⟩
  · intro collision h
    rcases fold_eq_error_cases h with hwithin | ⟨hapart, hbetween⟩
    · obtain ⟨b, hb⟩ := hwithin
      exact ⟨fun _ => ⟨b, hb⟩, fun hapart => absurd hb.collides (hapart b)⟩
    · exact ⟨fun ⟨b, hb⟩ => absurd hb (hapart b), fun _ => hbetween⟩

end Contests

def ofNormalizedTexts (buildTypeOf : String → String) : FoldRules String :=
  { ofTexts buildTypeOf with suffixOf := Suffix.ofName }

def twinTexts : OrderedMap String := .ofList [("x_y", "1"), ("x-y", "2")]

/-- The two texts collide in one build type, and as the only texts of two build types. -/
theorem fold_collides_twins :
    (∃ collision, (ofNormalizedTexts fun _ => "debug").fold none none twinTexts = .error collision ∧
      ∃ b, (ofNormalizedTexts fun _ => "debug").NamesWithin twinTexts collision.fault b) ∧
    ∃ collision, (ofNormalizedTexts id).fold none none twinTexts = .error collision ∧
      ∃ suffix lower upper,
        (ofNormalizedTexts id).NamesBetween none twinTexts collision.fault suffix lower upper := by
  have hx : "x-y" ∈ twinTexts.keys := by decide +kernel
  have hy : "x_y" ∈ twinTexts.keys := by decide +kernel
  have hsame : Suffix.ofName "x-y" = Suffix.ofName "x_y" := by decide +kernel
  constructor
  · have hwithin : ∃ b, (ofNormalizedTexts fun _ => "debug").CollidesWithin twinTexts b :=
      ⟨"debug", _, "x-y", "x_y", by decide, ⟨⟨hx, rfl⟩, rfl⟩, ⟨⟨hy, rfl⟩, hsame.symm⟩⟩
    obtain ⟨hfails, -, hnames⟩ := fold_collides (ofNormalizedTexts fun _ => "debug") none none
      twinTexts
    obtain ⟨collision, h⟩ := hfails.mpr (Or.inl hwithin)
    exact ⟨collision, h, (hnames collision h).1 hwithin⟩
  · have hapart : ∀ b, ¬ (ofNormalizedTexts id).CollidesWithin twinTexts b := by
      rintro b ⟨suffix, v, w, hne, ⟨⟨-, rfl⟩, -⟩, ⟨⟨-, hw⟩, -⟩⟩
      exact hne hw.symm
    have hbetween : (ofNormalizedTexts id).CollidesBetween none twinTexts := by
      refine ⟨"x-y", "x_y", "-x-y", by decide, ⟨"x-y", hx, rfl, ?_⟩, ⟨"x_y", hy, rfl, ?_⟩⟩
      all_goals decide +kernel
    obtain ⟨hfails, -, hnames⟩ := fold_collides (ofNormalizedTexts id) none none twinTexts
    obtain ⟨collision, h⟩ := hfails.mpr (Or.inr ⟨hapart, hbetween⟩)
    exact ⟨collision, h, (hnames collision h).2 hapart⟩

end FoldRules

end BuildVariants

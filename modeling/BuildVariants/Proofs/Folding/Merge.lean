import BuildVariants.Proofs.Folding.Group
import BuildVariants.Proofs.Stage
import Mathlib.Data.List.Pairwise

/-!
Merging the groups of a project. The groups have an outcome exactly if no two variants of a build
type and no two targets of the project have the same suffix. The outcome then holds the targets of
each group, assigns every variant the suffix that its group gives it and lists the build types whose
groups were kept apart. Variants with the same suffix are variants of one build type that share its
target.
-/

set_option autoImplicit false
set_option relaxedAutoImplicit false

namespace BuildVariants

theorem firstRepeat_eq_none_iff {β : Type} {earlier entries : List (String × β)} :
    firstRepeat earlier entries = none ↔
      (entries.map (·.1)).Nodup ∧ ∀ key ∈ entries.map (·.1), key ∉ earlier.map (·.1) := by
  induction entries generalizing earlier with
  | nil => simp [firstRepeat]
  | cons head rest ih =>
    obtain ⟨key, value⟩ := head
    unfold firstRepeat
    cases hlookup : earlier.lookup key with
    | some owner =>
      have hmem : key ∈ earlier.map (·.1) := by
        obtain ⟨before, after, rfl, -⟩ := List.lookup_eq_some_iff.mp hlookup
        simp
      simp only [List.map_cons, List.mem_cons, reduceCtorEq, false_iff, not_and]
      intro _ hfresh
      exact hfresh key (Or.inl rfl) hmem
    | none =>
      have hfresh : key ∉ earlier.map (·.1) := by
        intro hmem
        obtain ⟨entry, hentry, rfl⟩ := List.mem_map.mp hmem
        simpa using List.lookup_eq_none_iff.mp hlookup entry hentry
      simp only [ih, List.map_cons, List.nodup_cons, List.mem_cons, not_or]
      constructor
      · rintro ⟨hnodup, hrest⟩
        refine ⟨⟨fun hmem => (hrest key hmem).1 rfl, hnodup⟩, ?_⟩
        rintro other (rfl | hother)
        · exact hfresh
        · exact (hrest other hother).2
      · rintro ⟨⟨hhead, hnodup⟩, hrest⟩
        refine ⟨hnodup, fun other hother => ⟨?_, hrest other (Or.inr hother)⟩⟩
        rintro rfl
        exact hhead hother

namespace Outcome

variable {α : Type}

/-- The outcomes of all groups together, as merging leaves them where no suffix is repeated. -/
def joined (groups : List (GroupOutcome α)) : Outcome α where
  targets := .ofList (groups.flatMap (·.targets))
  assignment := .ofList (groups.flatMap (·.assignment))
  expanded := .ofList ((groups.filter (·.expanded)).map (·.buildType))
  decisions := groups.map (·.decision)

private theorem keys_owners (groups : List (GroupOutcome α)) :
    (owners groups).map (·.1) = (groups.flatMap (·.targets)).map (·.1) := by
  simp [owners, List.map_flatMap, Function.comp_def]

theorem merge_eq_ok_iff {groups : List (GroupOutcome α)} {outcome : Outcome α} :
    merge groups = .ok outcome ↔
      ((groups.flatMap (·.targets)).map (·.1)).Nodup ∧ outcome = joined groups := by
  have hrepeat : firstRepeat [] (owners groups) = none ↔
      ((groups.flatMap (·.targets)).map (·.1)).Nodup := by
    rw [firstRepeat_eq_none_iff, keys_owners]
    simp
  rw [← hrepeat, merge]
  cases hfirst : firstRepeat [] (owners groups) with
  | none => simp [joined, eq_comm]
  | some clash => simp

end Outcome

namespace FoldRules

variable {α : Type} (rules : FoldRules α)

def settled (blocker : Option (Blocker α)) (variants : SortedMap α) : List (GroupOutcome α) :=
  (rules.buildTypes variants).map fun buildType =>
    rules.settleGroup blocker buildType (rules.group variants buildType)

/-- No two variants of a build type and no two targets have the same suffix. -/
structure Uncontested (blocker : Option (Blocker α)) (variants : SortedMap α) : Prop where
  variants_nodup : ∀ buildType ∈ rules.buildTypes variants,
    ((rules.group variants buildType).keys.map rules.suffixOf).Nodup
  targets_nodup : (((rules.settled blocker variants).flatMap (·.targets)).map (·.1)).Nodup

def shares (blocker : Option (Blocker α)) (variants : SortedMap α) (buildType : String) : Bool :=
  rules.sharesTarget blocker buildType (rules.group variants buildType)

/-- The suffix that a variant has before any folding across build types. -/
def suffixIn (blocker : Option (Blocker α)) (variants : SortedMap α) (variant : String) : String :=
  rules.groupSuffix blocker (rules.buildTypeOf variant)
    (rules.group variants (rules.buildTypeOf variant)) variant

/-- A target that stands for variants of a build type before any folding across build types. -/
def HasTarget (blocker : Option (Blocker α)) (variants : SortedMap α)
    (buildType suffix : String) (data : α) : Prop :=
  (suffix, data) ∈ (rules.settleGroup blocker buildType (rules.group variants buildType)).targets

variable {rules} {variants : SortedMap α} {blocker : Option (Blocker α)} {outcome : Outcome α}

theorem foldBuildTypes_eq_ok_iff {variants : OrderedMap α} :
    rules.foldBuildTypes blocker variants = .ok outcome ↔
      rules.Uncontested blocker variants.sorted ∧
        outcome = .joined (rules.settled blocker variants.sorted) := by
  have hgroups : ∀ results,
      ((rules.groups variants.sorted).mapM fun entry =>
        rules.foldGroup blocker entry.1 entry.2) = .ok results ↔
      (∀ entry ∈ rules.groups variants.sorted, (entry.2.keys.map rules.suffixOf).Nodup) ∧
        results = (rules.groups variants.sorted).map fun entry =>
          rules.settleGroup blocker entry.1 entry.2 := by
    intro results
    exact mapM_eq_ok_iff_of_result fun entry value => foldGroup_eq_ok_iff
  have hsettled : (rules.groups variants.sorted).map (fun entry =>
      rules.settleGroup blocker entry.1 entry.2) = rules.settled blocker variants.sorted := by
    simp [groups, settled, buildTypes, FoldRules.group]
  have hwithin : (∀ entry ∈ rules.groups variants.sorted, (entry.2.keys.map rules.suffixOf).Nodup) ↔
      ∀ buildType ∈ rules.buildTypes variants.sorted,
        ((rules.group variants.sorted buildType).keys.map rules.suffixOf).Nodup := by
    simp [groups, buildTypes, FoldRules.group]
  rw [foldBuildTypes, bind_eq_ok_iff]
  constructor
  · rintro ⟨results, hresults, hmerge⟩
    obtain ⟨hnodup, rfl⟩ := (hgroups results).mp hresults
    rw [hsettled, Outcome.merge_eq_ok_iff] at hmerge
    exact ⟨⟨hwithin.mp hnodup, hmerge.1⟩, hmerge.2⟩
  · rintro ⟨huncontested, houtcome⟩
    refine ⟨_, (hgroups _).mpr ⟨hwithin.mpr huncontested.variants_nodup, rfl⟩, ?_⟩
    rw [hsettled, Outcome.merge_eq_ok_iff]
    exact ⟨huncontested.targets_nodup, houtcome⟩

theorem buildTypeOf_mem_buildTypes (rules : FoldRules α) {v : String} (hv : v ∈ variants.keys) :
    rules.buildTypeOf v ∈ rules.buildTypes variants :=
  mem_buildTypes.mpr ⟨v, hv, rfl⟩

theorem get?_targets_joined (h : rules.Uncontested blocker variants) {suffix : String} {data : α} :
    (Outcome.joined (rules.settled blocker variants)).targets.get? suffix = some data ↔
      ∃ buildType ∈ rules.buildTypes variants,
        rules.HasTarget blocker variants buildType suffix data := by
  rw [Outcome.joined, SortedMap.get?_ofList_eq_some_iff h.targets_nodup]
  simp [settled, HasTarget]

theorem Uncontested.eq_of_hasTarget (h : rules.Uncontested blocker variants)
    {b c suffix : String} {x y : α} (hb : b ∈ rules.buildTypes variants)
    (hc : c ∈ rules.buildTypes variants) (hx : rules.HasTarget blocker variants b suffix x)
    (hy : rules.HasTarget blocker variants c suffix y) : b = c := by
  by_contra hne
  have hnodup := h.targets_nodup
  rw [List.map_flatMap, settled, List.flatMap_map, List.nodup_flatMap] at hnodup
  have hsymm : Std.Symm (Function.onFun List.Disjoint fun buildType =>
      (rules.settleGroup blocker buildType (rules.group variants buildType)).targets.map (·.1)) :=
    ⟨fun _ _ hdisjoint _ hleft hright => hdisjoint hright hleft⟩
  have hdisjoint := hnodup.2.forall hb hc hne
  exact hdisjoint (List.mem_map.mpr ⟨(suffix, x), hx, rfl⟩)
    (List.mem_map.mpr ⟨(suffix, y), hy, rfl⟩)

theorem mem_assignment_settled {v suffix : String} :
    (v, suffix) ∈ (rules.settled blocker variants).flatMap (·.assignment) ↔
      v ∈ variants.keys ∧ suffix = rules.suffixIn blocker variants v := by
  simp only [settled, List.mem_flatMap, List.mem_map, exists_exists_and_eq_and]
  constructor
  · rintro ⟨b, hb, hmem⟩
    rw [assignment_settleGroup (keys_group_ne_nil hb)] at hmem
    obtain ⟨w, hw, hentry⟩ := List.mem_map.mp hmem
    obtain ⟨rfl, rfl⟩ := Prod.mk.inj hentry
    obtain ⟨hkey, rfl⟩ := mem_keys_group.mp hw
    exact ⟨hkey, rfl⟩
  · rintro ⟨hkey, rfl⟩
    have hb := buildTypeOf_mem_buildTypes rules hkey
    refine ⟨rules.buildTypeOf v, hb, ?_⟩
    rw [assignment_settleGroup (keys_group_ne_nil hb)]
    exact List.mem_map.mpr ⟨v, mem_keys_group.mpr ⟨hkey, rfl⟩, rfl⟩

theorem get?_assignment_joined (rules : FoldRules α) (blocker : Option (Blocker α))
    (variants : SortedMap α) (v : String) :
    (Outcome.joined (rules.settled blocker variants)).assignment.get? v =
      (variants.get? v).map fun _ => rules.suffixIn blocker variants v := by
  have hagree : ∀ x ∈ (rules.settled blocker variants).flatMap (·.assignment),
      ∀ y ∈ (rules.settled blocker variants).flatMap (·.assignment), x.1 = y.1 → x.2 = y.2 := by
    rintro ⟨x, s⟩ hx ⟨y, t⟩ hy rfl
    exact (mem_assignment_settled.mp hx).2.trans (mem_assignment_settled.mp hy).2.symm
  apply Option.ext
  intro suffix
  rw [Outcome.joined, SortedMap.get?_ofList_eq_some_iff_of_agree hagree, mem_assignment_settled,
    SortedMap.mem_keys_iff, Option.map_eq_some_iff]
  constructor
  · rintro ⟨⟨item, hitem⟩, rfl⟩
    exact ⟨item, hitem, rfl⟩
  · rintro ⟨item, hitem, rfl⟩
    exact ⟨⟨item, hitem⟩, rfl⟩

theorem mem_expanded_joined {buildType : String} :
    buildType ∈ (Outcome.joined (rules.settled blocker variants)).expanded.names ↔
      1 < (rules.group variants buildType).size ∧
        rules.shares blocker variants buildType = false := by
  simp only [Outcome.joined, NameSet.mem_names_ofList, settled, List.mem_map, List.mem_filter]
  constructor
  · rintro ⟨_, ⟨⟨b, hb, rfl⟩, hexpanded⟩, hbuild⟩
    rw [buildType_settleGroup] at hbuild
    subst hbuild
    exact (expanded_settleGroup (keys_group_ne_nil hb)).mp hexpanded
  · rintro ⟨hsize, hapart⟩
    have hkeys : (rules.group variants buildType).keys ≠ [] := by
      intro hnil
      rw [← SortedMap.length_keys, hnil] at hsize
      simp at hsize
    have hb : buildType ∈ rules.buildTypes variants := by
      obtain ⟨v, hv⟩ := List.exists_mem_of_ne_nil _ hkeys
      obtain ⟨hkey, hbuild⟩ := mem_keys_group.mp hv
      exact mem_buildTypes.mpr ⟨v, hkey, hbuild⟩
    exact ⟨_, ⟨⟨buildType, hb, rfl⟩, (expanded_settleGroup hkeys).mpr ⟨hsize, hapart⟩⟩, by simp⟩

theorem suffixIn_eq (v : String) :
    rules.suffixIn blocker variants v =
      if rules.shares blocker variants (rules.buildTypeOf v) then
        rules.suffixOf (rules.buildTypeOf v)
      else rules.suffixOf v :=
  rfl

theorem exists_hasTarget (rules : FoldRules α) (blocker : Option (Blocker α)) {v : String}
    {item : α} (hv : variants.get? v = some item) :
    ∃ data, rules.HasTarget blocker variants (rules.buildTypeOf v)
      (rules.suffixIn blocker variants v) data := by
  have hkey : v ∈ variants.keys := SortedMap.mem_keys_iff.mpr ⟨item, hv⟩
  exact exists_target_of_mem (keys_group_ne_nil (buildTypeOf_mem_buildTypes rules hkey))
    (get?_group.trans ((if_pos rfl).trans hv))

/-- Every target of a build type stands for one of its variants, whose data it holds, possibly under
a new name. -/
theorem exists_variant_of_hasTarget {buildType suffix : String} {data : α}
    (hb : buildType ∈ rules.buildTypes variants)
    (htarget : rules.HasTarget blocker variants buildType suffix data) :
    ∃ v item, variants.get? v = some item ∧ rules.buildTypeOf v = buildType ∧
      rules.suffixIn blocker variants v = suffix ∧
        (data = item ∨ ∃ old new, data = rules.moveTarget item old new) := by
  have hkeys := keys_group_ne_nil hb
  cases hshares : rules.shares blocker variants buildType with
  | true =>
    obtain ⟨rfl, v, item, hhead, hdata⟩ := (mem_targets_of_shares hkeys hshares).mp htarget
    obtain ⟨hitem, rfl⟩ :=
      get?_group_eq_some_iff.mp (SortedMap.get?_eq_some_iff.mpr (List.mem_of_head? hhead))
    exact ⟨v, item, hitem, rfl, by rw [suffixIn_eq, if_pos hshares], Or.inr ⟨_, _, hdata⟩⟩
  | false =>
    obtain ⟨v, hv, rfl⟩ := (mem_targets_of_not_shares hkeys hshares).mp htarget
    obtain ⟨hitem, rfl⟩ := get?_group_eq_some_iff.mp hv
    exact ⟨v, data, hitem, rfl, by simp [suffixIn_eq, hshares], Or.inl rfl⟩

/-- Variants with the same suffix have the same build type, and share its target if they differ. -/
theorem Uncontested.of_suffixIn_eq (h : rules.Uncontested blocker variants) {v w : String}
    (hv : v ∈ variants.keys) (hw : w ∈ variants.keys)
    (heq : rules.suffixIn blocker variants v = rules.suffixIn blocker variants w) :
    rules.buildTypeOf v = rules.buildTypeOf w ∧
      (v ≠ w → rules.shares blocker variants (rules.buildTypeOf v) = true) := by
  obtain ⟨dv, hdv⟩ := SortedMap.mem_keys_iff.mp hv
  obtain ⟨dw, hdw⟩ := SortedMap.mem_keys_iff.mp hw
  obtain ⟨x, hx⟩ := exists_hasTarget rules blocker hdv
  obtain ⟨y, hy⟩ := exists_hasTarget rules blocker hdw
  rw [← heq] at hy
  have hbuild : rules.buildTypeOf v = rules.buildTypeOf w :=
    h.eq_of_hasTarget (buildTypeOf_mem_buildTypes rules hv) (buildTypeOf_mem_buildTypes rules hw)
      hx hy
  refine ⟨hbuild, fun hne => ?_⟩
  by_contra hapart
  have hown : rules.suffixOf v = rules.suffixOf w := by
    have hapart' : rules.shares blocker variants (rules.buildTypeOf w) ≠ true := hbuild ▸ hapart
    rwa [suffixIn_eq, suffixIn_eq, if_neg hapart, if_neg hapart'] at heq
  have hnodup := h.variants_nodup _ (buildTypeOf_mem_buildTypes rules hv)
  exact hne (List.inj_on_of_nodup_map hnodup (mem_keys_group.mpr ⟨hv, rfl⟩)
    (mem_keys_group.mpr ⟨hw, hbuild.symm⟩) hown)

end FoldRules

end BuildVariants

import BuildVariants.Proofs.Folding.Across

/-!
Two foldings side by side. The variants have the same names and related data, and the rules treat
related data alike: they find the same lists interchangeable and keep targets related when these
move. Every step of folding then answers alike, so both foldings meet the same collision, or they
assign the same suffixes, expand the same build types, take the same decisions and have related
targets.
-/

set_option autoImplicit false
set_option relaxedAutoImplicit false

namespace BuildVariants

section Entries

variable {α β : Type}

theorem map_eq_of_forall₂ {γ : Type} {related : α → β → Prop} {f : α → γ} {g : β → γ} {xs : List α}
    {ys : List β} (h : List.Forall₂ related xs ys) (hsame : ∀ x y, related x y → f x = g y) :
    xs.map f = ys.map g := by
  induction h with
  | nil => rfl
  | cons hfirst hrest ih => rw [List.map_cons, List.map_cons, hsame _ _ hfirst, ih]

theorem filterMap_eq_of_forall₂ {γ : Type} {related : α → β → Prop} {f : α → Option γ}
    {g : β → Option γ} {xs : List α} {ys : List β} (h : List.Forall₂ related xs ys)
    (hsame : ∀ x y, related x y → f x = g y) : xs.filterMap f = ys.filterMap g := by
  induction h with
  | nil => rfl
  | cons hfirst hrest ih =>
    rw [List.filterMap_cons, List.filterMap_cons, hsame _ _ hfirst, ih]

/-- Entries with the same keys in the same order, and with related values. -/
abbrev SameKeys (related : α → β → Prop) : List (String × α) → List (String × β) → Prop :=
  List.Forall₂ fun x y => x.1 = y.1 ∧ related x.2 y.2

variable {related : α → β → Prop} {xs : List (String × α)} {ys : List (String × β)}

theorem SameKeys.keys_eq (h : SameKeys related xs ys) : xs.map (·.1) = ys.map (·.1) :=
  map_eq_of_forall₂ h fun _ _ hentry => hentry.1

theorem SameKeys.values (h : SameKeys related xs ys) :
    List.Forall₂ related (xs.map (·.2)) (ys.map (·.2)) := by
  induction h with
  | nil => exact .nil
  | cons hentry hrest ih => exact .cons hentry.2 ih

theorem SameKeys.filter (h : SameKeys related xs ys) (p : String → Bool) :
    SameKeys related (xs.filter fun x => p x.1) (ys.filter fun y => p y.1) := by
  induction h with
  | nil => exact .nil
  | @cons x y xs ys hentry hrest ih =>
    rw [List.filter_cons, List.filter_cons, hentry.1]
    split
    · exact .cons hentry ih
    · exact ih

theorem SameKeys.writeEntry {key : String} {x : α} {y : β} (h : SameKeys related xs ys)
    (hvalue : related x y) :
    SameKeys related (writeEntry key x xs) (writeEntry key y ys) := by
  induction h with
  | nil => exact .cons ⟨rfl, hvalue⟩ .nil
  | @cons a b xs ys hentry hrest ih =>
    obtain ⟨other, v⟩ := a
    obtain ⟨same, w⟩ := b
    obtain ⟨rfl, hold⟩ : other = same ∧ related v w := hentry
    unfold BuildVariants.writeEntry
    split
    · exact .cons ⟨rfl, hvalue⟩ (.cons ⟨rfl, hold⟩ hrest)
    · split
      · exact .cons ⟨rfl, hvalue⟩ hrest
      · exact .cons ⟨rfl, hold⟩ ih

theorem SameKeys.ofList (h : SameKeys related xs ys) :
    SameKeys related (SortedMap.ofList xs).entries (SortedMap.ofList ys).entries := by
  have hwritten : ∀ (m : SortedMap α) (n : SortedMap β), SameKeys related m.entries n.entries →
      SameKeys related (xs.foldl (fun m entry => m.insert entry.1 entry.2) m).entries
        (ys.foldl (fun m entry => m.insert entry.1 entry.2) n).entries := by
    induction h with
    | nil => exact fun _ _ hmaps => hmaps
    | @cons x y xs ys hentry hrest ih =>
      intro m n hmaps
      apply ih
      show SameKeys related (BuildVariants.writeEntry x.1 x.2 m.entries)
        (BuildVariants.writeEntry y.1 y.2 n.entries)
      rw [hentry.1]
      exact SameKeys.writeEntry hmaps hentry.2
  exact hwritten .empty .empty .nil

end Entries

variable {α : Type} {related : α → α → Prop}

structure GroupOutcome.Matches (related : α → α → Prop) (x y : GroupOutcome α) : Prop where
  buildType : x.buildType = y.buildType
  targets : SameKeys related x.targets y.targets
  assignment : x.assignment = y.assignment
  expanded : x.expanded = y.expanded
  decision : x.decision = y.decision

/-- Outcomes that differ in their targets only, which are related under the same suffixes. -/
structure Outcome.Matches (related : α → α → Prop) (x y : Outcome α) : Prop where
  targets : SameKeys related x.targets.entries y.targets.entries
  assignment : x.assignment = y.assignment
  expanded : x.expanded = y.expanded
  decisions : x.decisions = y.decisions

structure FoldingReport.Matches (related : α → α → Prop) (x y : FoldingReport α) : Prop where
  targets : SameKeys related x.folding.targets.entries y.folding.targets.entries
  assignment : x.folding.assignment = y.folding.assignment
  expanded : x.folding.expanded = y.folding.expanded
  decisions : x.decisions = y.decisions

/-- Rules that find lists of related data interchangeable alike, and keep targets related when they
move to the same suffix. -/
structure FoldRules.Respects (rules : FoldRules α) (related : α → α → Prop) : Prop where
  moveTarget : ∀ x y, related x y → ∀ old new,
    related (rules.moveTarget x old new) (rules.moveTarget y old new)
  interchangeable : ∀ xs ys, List.Forall₂ related xs ys →
    rules.interchangeable xs = rules.interchangeable ys

def Blocker.Respects (blocker : Option (Blocker α)) (related : α → α → Prop) : Prop :=
  ∀ buildType, ∀ group other : SortedMap α, SameKeys related group.entries other.entries →
    (blocker.bind fun block => block buildType group) =
      blocker.bind fun block => block buildType other

namespace FoldRules

variable {rules : FoldRules α} {blocker : Option (Blocker α)} {group other : SortedMap α}
  {buildType : String}

section Group

theorem matches_keepApart (rules : FoldRules α) (buildType : String)
    (h : SameKeys related group.entries other.entries) (expanded : Bool) (decision : Decision) :
    GroupOutcome.Matches related (rules.keepApart buildType group expanded decision)
      (rules.keepApart buildType other expanded decision) where
  buildType := rfl
  targets := List.forall₂_map_left_iff.mpr (List.forall₂_map_right_iff.mpr
    (h.imp fun _ _ hentry => ⟨congrArg rules.suffixOf hentry.1, hentry.2⟩))
  assignment := by
    have hkeys : group.keys = other.keys := h.keys_eq
    rw [keepApart, keepApart, hkeys]
  expanded := rfl
  decision := rfl

private theorem Respects.headTarget (hrules : rules.Respects related) (old : String → String)
    (new : String) {xs ys : List (String × α)} (h : SameKeys related xs ys) :
    SameKeys related
      (xs.head?.toList.map fun entry => (new, rules.moveTarget entry.2 (old entry.1) new))
      (ys.head?.toList.map fun entry => (new, rules.moveTarget entry.2 (old entry.1) new)) := by
  cases h with
  | nil => exact .nil
  | @cons x y xs ys hentry hrest =>
    obtain ⟨hkey, hvalue⟩ := hentry
    refine .cons ⟨rfl, ?_⟩ .nil
    simpa only [hkey] using hrules.moveTarget x.2 y.2 hvalue (old y.1) new

theorem Respects.foldTogether (hrules : rules.Respects related) (buildType : String)
    (h : SameKeys related group.entries other.entries) :
    GroupOutcome.Matches related (rules.foldTogether buildType group)
      (rules.foldTogether buildType other) := by
  have hkeys : group.keys = other.keys := h.keys_eq
  rw [FoldRules.foldTogether, FoldRules.foldTogether, hkeys]
  exact ⟨rfl, hrules.headTarget rules.suffixOf _ h, rfl, rfl, rfl⟩

theorem Respects.settleGroup (hrules : rules.Respects related)
    (hblocker : Blocker.Respects blocker related)
    (h : SameKeys related group.entries other.entries) :
    GroupOutcome.Matches related (rules.settleGroup blocker buildType group)
      (rules.settleGroup blocker buildType other) := by
  have hkeys : group.keys = other.keys := h.keys_eq
  by_cases hsingle : ∃ v, other.keys = [v]
  · obtain ⟨v, hv⟩ := hsingle
    simp only [FoldRules.settleGroup, hkeys.trans hv, hv]
    exact matches_keepApart rules buildType h _ _
  · have hother : ∀ v, other.keys ≠ [v] := fun v hv => hsingle ⟨v, hv⟩
    rw [settleGroup_of_several rules blocker buildType (hkeys ▸ hother),
      settleGroup_of_several rules blocker buildType hother, hblocker buildType group other h,
      hrules.interchangeable group.values other.values h.values, hkeys]
    split
    · exact matches_keepApart rules buildType h _ _
    · split
      · exact hrules.foldTogether buildType h
      · exact matches_keepApart rules buildType h _ _

theorem Respects.foldGroup (hrules : rules.Respects related)
    (hblocker : Blocker.Respects blocker related)
    (h : SameKeys related group.entries other.entries) :
    AnswersAlike (GroupOutcome.Matches related) (rules.foldGroup blocker buildType group)
      (rules.foldGroup blocker buildType other) := by
  have hkeys : group.keys = other.keys := h.keys_eq
  rw [FoldRules.foldGroup, FoldRules.foldGroup, hkeys]
  split
  · exact .done (hrules.settleGroup hblocker h)
  · exact .failed _

end Group

theorem answersAlike_merge {groups others : List (GroupOutcome α)}
    (h : List.Forall₂ (GroupOutcome.Matches related) groups others) :
    AnswersAlike (Outcome.Matches related) (Outcome.merge groups) (Outcome.merge others) := by
  have howned : ∀ x y : GroupOutcome α, x.Matches related y →
      x.targets.map (fun target => (target.1, x.buildType)) =
        y.targets.map fun target => (target.1, y.buildType) := by
    intro x y hgroup
    rw [hgroup.buildType]
    exact map_eq_of_forall₂ hgroup.targets fun _ _ hentry => by rw [hentry.1]
  have howners : Outcome.owners groups = Outcome.owners others := by
    rw [Outcome.owners, Outcome.owners, List.flatMap_def, List.flatMap_def,
      map_eq_of_forall₂ h howned]
  have hassignment : groups.flatMap (·.assignment) = others.flatMap (·.assignment) := by
    rw [List.flatMap_def, List.flatMap_def,
      map_eq_of_forall₂ h fun _ _ hgroup => hgroup.assignment]
  have hexpanded : (groups.filter (·.expanded)).map (·.buildType) =
      (others.filter (·.expanded)).map (·.buildType) := by
    apply map_eq_of_forall₂ (List.rel_filter _ h) fun _ _ hgroup => hgroup.buildType
    intro x y hgroup
    simp only [hgroup.expanded]
  have hdecisions : groups.map (·.decision) = others.map (·.decision) :=
    map_eq_of_forall₂ h fun _ _ hgroup => hgroup.decision
  rw [Outcome.merge, Outcome.merge, howners, hassignment, hexpanded, hdecisions]
  split
  · exact .failed _
  · exact .done ⟨SameKeys.ofList (List.rel_flatMap h fun _ _ hgroup => hgroup.targets),
      rfl, rfl, rfl⟩

section Fold

variable {cross : CrossFold α} {variants others : OrderedMap α}

theorem Respects.foldBuildTypes (hrules : rules.Respects related)
    (hblocker : Blocker.Respects blocker related)
    (h : SameKeys related variants.entries others.entries) :
    AnswersAlike (Outcome.Matches related) (rules.foldBuildTypes blocker variants)
      (rules.foldBuildTypes blocker others) := by
  have hsorted : SameKeys related variants.sorted.entries others.sorted.entries := h.ofList
  have hgroups : List.Forall₂ (fun x y : String × SortedMap α =>
      x.1 = y.1 ∧ SameKeys related x.2.entries y.2.entries)
      (rules.groups variants.sorted) (rules.groups others.sorted) := by
    have hkeys : variants.sorted.keys = others.sorted.keys := hsorted.keys_eq
    rw [groups, groups, hkeys, List.forall₂_map_left_iff, List.forall₂_map_right_iff,
      List.forall₂_same]
    intro buildType _
    exact ⟨rfl, hsorted.filter fun variant => rules.buildTypeOf variant = buildType⟩
  refine AnswersAlike.bind (AnswersAlike.mapM hgroups ?_) fun _ _ => answersAlike_merge
  rintro ⟨buildType, group⟩ ⟨_, other⟩ ⟨rfl, hgroup⟩
  exact hrules.foldGroup hblocker hgroup

theorem Respects.allowsCross_eq (hrules : rules.Respects related)
    (hcross : cross.interchangeable = rules.interchangeable) {x y : Outcome α}
    (h : x.Matches related y) : x.allowsCross cross = y.allowsCross cross := by
  have hsize : x.targets.size = y.targets.size := h.targets.length_eq
  have hsame : rules.interchangeable x.targets.values = rules.interchangeable y.targets.values :=
    hrules.interchangeable _ _ h.targets.values
  rw [Outcome.allowsCross, Outcome.allowsCross, hcross, h.expanded, hsize, hsame]

theorem Respects.foldAcross (hrules : rules.Respects related) {x y : Outcome α}
    (h : x.Matches related y) :
    Outcome.Matches related (x.foldAcross rules) (y.foldAcross rules) := by
  rw [Outcome.foldAcross, Outcome.foldAcross, h.assignment]
  exact ⟨(hrules.headTarget id "" h.targets).ofList, rfl, rfl, rfl⟩

/-- Folding related variants answers alike. -/
theorem Respects.fold (hrules : rules.Respects related)
    (hblocker : Blocker.Respects blocker related)
    (hcross : cross.interchangeable = rules.interchangeable)
    (h : SameKeys related variants.entries others.entries) :
    AnswersAlike (Outcome.Matches related) (rules.fold blocker (some cross) variants)
      (rules.fold blocker (some cross) others) := by
  apply AnswersAlike.bind (hrules.foldBuildTypes hblocker h)
  intro x y houtcome
  apply AnswersAlike.done
  rw [Outcome.cross, Outcome.cross, hrules.allowsCross_eq hcross houtcome]
  split
  · exact hrules.foldAcross houtcome
  · exact houtcome

end Fold

end FoldRules

theorem Outcome.Matches.report {x y : Outcome α} (h : x.Matches related y) :
    AnswersAlike (FoldingReport.Matches related) x.report y.report := by
  have hkeys : x.targets.keys = y.targets.keys := h.targets.keys_eq
  have hcontains : ∀ suffix, x.targets.contains suffix = y.targets.contains suffix := by
    intro suffix
    rw [Bool.eq_iff_iff, SortedMap.contains_iff_mem_keys, SortedMap.contains_iff_mem_keys, hkeys]
  have hdangling : Folding.dangling x.targets x.assignment =
      Folding.dangling y.targets y.assignment := by
    rw [Folding.dangling, Folding.dangling, h.assignment]
    simp only [hcontains]
  rw [Outcome.report, Outcome.report, Folding.ofParts, Folding.ofParts]
  by_cases hnone : Folding.dangling y.targets y.assignment = []
  · rw [dif_pos hnone, dif_pos (hdangling.trans hnone)]
    exact .done ⟨h.targets, h.assignment, h.expanded, h.decisions⟩
  · rw [dif_neg hnone, dif_neg (hdangling ▸ hnone), hdangling, hkeys]
    exact .failed _

end BuildVariants

import BuildVariants.Proofs.Folding.Conservation

/-!
The last step of folding. Asking for it changes nothing unless the outcome without it is ready to
cross: no build type is expanded, there are several targets, nothing objects and the targets are
interchangeable. The outcome then has a single target without a suffix, which is the one with the
smallest suffix under a new name. An outcome with an expanded build type never becomes full.
-/

set_option autoImplicit false
set_option relaxedAutoImplicit false

namespace BuildVariants

variable {α : Type}

structure Outcome.ReadyToCross (cross : CrossFold α) (outcome : Outcome α) : Prop where
  enabled : cross.enabled = true
  unexpanded : outcome.expanded.names = []
  several : 2 ≤ outcome.targets.size
  unopposed : cross.objection = none
  interchangeable : cross.interchangeable outcome.targets.values = true

theorem Outcome.readyToCross_iff {cross : CrossFold α} {outcome : Outcome α} :
    outcome.ReadyToCross cross ↔ outcome.allowsCross cross = true := by
  rw [allowsCross_iff]
  constructor
  · rintro ⟨henabled, hexpanded, hseveral, hobjection, hsame⟩
    exact ⟨henabled, hexpanded, hseveral, hobjection, hsame⟩
  · rintro ⟨henabled, hexpanded, hseveral, hobjection, hsame⟩
    exact ⟨henabled, hexpanded, hseveral, hobjection, hsame⟩

namespace FoldRules

/-- One outcome comes from another by folding across build types. Its only target is the one with
the smallest suffix of the other, moved to the empty suffix, which all variants are assigned. -/
structure CrossedFrom (rules : FoldRules α) (variants : OrderedMap α)
    (outcome across : Outcome α) : Prop where
  target : ∃ suffix data, outcome.targets.get? suffix = some data ∧
    (∀ other ∈ outcome.targets.keys, suffix ≤ other) ∧
    across.targets.entries = [("", rules.moveTarget data suffix "")]
  assignment : ∀ v, across.assignment.get? v = (variants.get? v).map fun _ => ""
  reports : rules.ReportsAcross variants across

variable {rules : FoldRules α} {blocker : Option (Blocker α)} {cross : CrossFold α}
  {variants : OrderedMap α} {outcome : Outcome α}

/-- Folding with the last step is folding without it, and then the step. -/
theorem fold_some_eq (rules : FoldRules α) (blocker : Option (Blocker α)) (cross : CrossFold α)
    (variants : OrderedMap α) :
    rules.fold blocker (some cross) variants =
      (rules.fold blocker none variants).map fun outcome => outcome.cross rules (some cross) := by
  unfold FoldRules.fold
  cases rules.foldBuildTypes blocker variants with
  | error collision => rfl
  | ok outcome => rfl

theorem fold_some_of_not_ready (h : rules.fold blocker none variants = .ok outcome)
    (hnot : ¬ outcome.ReadyToCross cross) :
    rules.fold blocker (some cross) variants = .ok outcome := by
  rw [Outcome.readyToCross_iff] at hnot
  rw [fold_some_eq, h]
  exact congrArg Except.ok (if_neg hnot)

theorem fold_some_of_ready (h : rules.fold blocker none variants = .ok outcome)
    (hready : outcome.ReadyToCross cross) :
    rules.fold blocker (some cross) variants = .ok (outcome.foldAcross rules) := by
  rw [Outcome.readyToCross_iff] at hready
  rw [fold_some_eq, h]
  exact congrArg Except.ok (if_pos hready)

theorem crosses_of_ready (h : rules.fold blocker none variants = .ok outcome)
    (hready : outcome.ReadyToCross cross) :
    rules.crosses blocker (some cross) variants.sorted = true := by
  obtain ⟨-, ⟨-, rfl⟩ | ⟨hcrosses, -⟩⟩ := fold_cases h
  · exact crosses_iff.mpr ⟨cross, rfl, Outcome.readyToCross_iff.mp hready⟩
  · cases hcrosses

theorem crossedFrom_foldAcross (h : rules.fold blocker none variants = .ok outcome)
    (hready : outcome.ReadyToCross cross) :
    rules.CrossedFrom variants outcome (outcome.foldAcross rules) := by
  have hacross := fold_some_of_ready h hready
  have hcrosses := crosses_of_ready h hready
  obtain ⟨suffix, data, rest, hentries, htarget⟩ :=
    Outcome.exists_entries_foldAcross rules hready.several
  refine ⟨⟨suffix, data, ?_, ?_, htarget⟩, fun v => ?_, reportsAcross_of_crosses hacross hcrosses⟩
  · exact SortedMap.get?_eq_some_iff.mpr (hentries ▸ List.mem_cons_self)
  · have hascending := SortedMap.pairwise_keys outcome.targets
    rw [SortedMap.keys, hentries, List.map_cons, List.pairwise_cons] at hascending
    rw [SortedMap.keys, hentries, List.map_cons]
    intro other hother
    rcases List.mem_cons.mp hother with rfl | hlater
    · exact String.le_refl _
    · exact Std.le_of_lt (hascending.1 other hlater)
  · rw [get?_assignment_fold hacross, hcrosses]
    rfl

/-- An outcome with an expanded build type becomes a folding that is not full. Asking for the last
step keeps a failure, and keeps an outcome that is not ready to cross. Otherwise the target with the
smallest suffix becomes the only one. -/
theorem fold_last_step (rules : FoldRules α) (blocker : Option (Blocker α))
    (variants : OrderedMap α) :
    (∀ config outcome, rules.fold blocker config variants = .ok outcome →
      outcome.expanded.names ≠ [] →
        ∃ report, outcome.report = .ok report ∧ report.folding.isFull = false) ∧
    ∀ cross : CrossFold α,
      (∀ collision, rules.fold blocker none variants = .error collision →
        rules.fold blocker (some cross) variants = .error collision) ∧
      ∀ outcome, rules.fold blocker none variants = .ok outcome →
        (¬ outcome.ReadyToCross cross →
          rules.fold blocker (some cross) variants = .ok outcome) ∧
        (outcome.ReadyToCross cross → ∃ across,
          rules.fold blocker (some cross) variants = .ok across ∧
          rules.CrossedFrom variants outcome across) := by
  refine ⟨?_, fun cross => ⟨?_, ?_⟩⟩
  · intro config outcome h hexpanded
    obtain ⟨buildType, hmem⟩ := List.exists_mem_of_ne_nil _ hexpanded
    obtain ⟨report, hreport⟩ := exists_report_fold h
    exact ⟨report, hreport, isFull_of_mem_expanded h hmem hreport⟩
  · intro collision h
    rw [fold_some_eq, h]
    rfl
  · intro outcome h
    refine ⟨fold_some_of_not_ready h, fun hready => ?_⟩
    exact ⟨_, fold_some_of_ready h hready, crossedFrom_foldAcross h hready⟩

def anyTexts : CrossFold String where
  enabled := true
  interchangeable := fun _ => true

def ofUnsuffixedTexts : FoldRules String :=
  { ofTexts id with suffixOf := fun _ => "" }

/-- The four texts cross if each is its own build type. They do not where a build type of two texts
is expanded, and they fail as before where all have the same suffix. -/
theorem fold_last_step_texts :
    (∃ outcome report, (ofTexts fourTextsBuildType).fold none (some anyTexts) fourTexts =
      .ok outcome ∧ outcome.report = .ok report ∧ report.folding.isFull = false) ∧
    (∃ outcome across, (ofTexts id).fold none none fourTexts = .ok outcome ∧
      (ofTexts id).fold none (some anyTexts) fourTexts = .ok across ∧
      (ofTexts id).CrossedFrom fourTexts outcome across) ∧
    ∃ collision, ofUnsuffixedTexts.fold none (some anyTexts) fourTexts = .error collision := by
  refine ⟨?_, ?_, ?_⟩
  · have hview : ((ofTexts fourTextsBuildType).fold none none fourTexts).map
        (·.expanded.names) = .ok ["release"] := by
      decide +kernel
    obtain ⟨outcome, h, hexpanded⟩ := map_eq_ok_iff.mp hview
    obtain ⟨hpartial, hstep⟩ := fold_last_step (ofTexts fourTextsBuildType) none fourTexts
    have hnot : ¬ outcome.ReadyToCross anyTexts := by
      intro hready
      rw [hready.unexpanded] at hexpanded
      cases hexpanded
    have hsame := ((hstep anyTexts).2 outcome h).1 hnot
    obtain ⟨report, hreport⟩ := hpartial _ outcome hsame (by rw [hexpanded]; decide)
    exact ⟨outcome, report, hsame, hreport⟩
  · have hview : ((ofTexts id).fold none none fourTexts).map
        (fun outcome => (outcome.expanded.names, outcome.targets.size)) = .ok ([], 4) := by
      decide +kernel
    obtain ⟨outcome, h, hparts⟩ := map_eq_ok_iff.mp hview
    obtain ⟨hexpanded, hsize⟩ := Prod.mk.inj hparts
    have hready : outcome.ReadyToCross anyTexts := ⟨rfl, hexpanded, by omega, rfl, rfl⟩
    obtain ⟨across, hacross⟩ :=
      (((fold_last_step (ofTexts id) none fourTexts).2 anyTexts).2 outcome h).2 hready
    exact ⟨outcome, across, h, hacross⟩
  · have hfails : ofUnsuffixedTexts.fold none none fourTexts =
        .error (.buildTypes "" "a" "b") := by
      decide +kernel
    exact ⟨_, ((fold_last_step ofUnsuffixedTexts none fourTexts).2 anyTexts).1 _ hfails⟩

end FoldRules

end BuildVariants

import BuildVariants.Proofs.Dependency
import BuildVariants.Variant
import Mathlib.Data.List.Forall2
import Mathlib.Logic.Relation

/-!
Interchangeable records. Records are interchangeable if they agree in every field but the name,
where only the references of the dependencies count, and unit tests may also differ in their
associates. Both kinds of records are compared by a content, so this is an equivalence and to
compare with the first record is to compare every pair. Whatever the content forgets does not change
an answer.
-/

set_option autoImplicit false
set_option relaxedAutoImplicit false

namespace BuildVariants

theorem allAgreeWithFirst_iff {α β : Type} [DecidableEq β] (content : α → β) (items : List α) :
    allAgreeWithFirst (fun a b => content a = content b) items = true ↔
      ∀ x ∈ items, ∀ y ∈ items, content x = content y := by
  cases items with
  | nil => simp [allAgreeWithFirst]
  | cons first rest =>
    simp only [allAgreeWithFirst, List.all_eq_true, decide_eq_true_eq]
    constructor
    · intro hrest
      have hfirst : ∀ x ∈ first :: rest, content first = content x :=
        List.forall_mem_cons.mpr ⟨rfl, hrest⟩
      intro x hx y hy
      exact (hfirst x hx).symm.trans (hfirst y hy)
    · intro hall y hy
      exact hall first List.mem_cons_self y (List.mem_cons_of_mem first hy)

namespace LibraryVariant

/-- What library variants agree on if one target can stand for both. -/
structure Agree (v w : LibraryVariant) : Prop where
  sources : v.sources = w.sources
  resourceSets : v.resourceSets = w.resourceSets
  plugins : v.plugins = w.plugins
  dataBinding : v.dataBinding = w.dataBinding
  compose : v.compose = w.compose
  resValues : v.resValues = w.resValues
  buildConfigFields : v.buildConfigFields = w.buildConfigFields
  packageName : v.packageName = w.packageName
  manifestFile : v.manifestFile = w.manifestFile
  lintConfig : v.lintConfig = w.lintConfig
  tags : v.tags = w.tags
  references : SameReferences v.deps w.deps

/-- The second record is the first one under any name, with its dependencies in any order, repeated
any number of times and with any suffixes. -/
def Respelled (v w : LibraryVariant) : Prop :=
  { v with name := w.name, deps := w.deps } = w ∧ SameReferences v.deps w.deps

variable {v w : LibraryVariant}

theorem interchangeable_iff : v.interchangeable w = true ↔ v.content = w.content := by
  simp [interchangeable]

theorem content_eq_iff_agree : v.content = w.content ↔ v.Agree w := by
  simp only [content, Prod.mk.injEq, LibraryVariant.mk.injEq, References.ofDependencies_eq_iff,
    true_and]
  constructor
  · rintro ⟨⟨_, _, _, _, _, _, _, _, _, _, _⟩, _⟩
    constructor <;> assumption
  · intro h
    exact ⟨⟨h.sources, h.resourceSets, h.plugins, h.dataBinding, h.compose, h.resValues,
      h.buildConfigFields, h.packageName, h.manifestFile, h.tags, h.lintConfig⟩, h.references⟩

theorem Respelled.content_eq (h : v.Respelled w) : v.content = w.content := by
  obtain ⟨hfields, hreferences⟩ := h
  rw [← References.ofDependencies_eq_iff] at hreferences
  rw [← hfields, content, content, hreferences]

end LibraryVariant

namespace UnitTestVariant

structure Agree (v w : UnitTestVariant) : Prop where
  sources : v.sources = w.sources
  additionalSourceSets : v.additionalSourceSets = w.additionalSourceSets
  resources : v.resources = w.resources
  compose : v.compose = w.compose
  testSize : v.testSize = w.testSize
  customPackage : v.customPackage = w.customPackage
  tags : v.tags = w.tags
  references : SameReferences v.deps w.deps

def Respelled (v w : UnitTestVariant) : Prop :=
  { v with name := w.name, deps := w.deps } = w ∧ SameReferences v.deps w.deps

variable {v w : UnitTestVariant}

theorem interchangeable_iff : v.interchangeable w = true ↔ v.content = w.content := by
  simp [interchangeable]

theorem content_eq_iff_agree : v.content = w.content ↔ v.Agree w := by
  simp only [content, Prod.mk.injEq, UnitTestVariant.mk.injEq, References.ofDependencies_eq_iff,
    true_and]
  constructor
  · rintro ⟨⟨_, _, _, _, _, _, _⟩, _⟩
    constructor <;> assumption
  · intro h
    exact ⟨⟨h.sources, h.additionalSourceSets, h.tags, h.customPackage, h.resources, h.compose,
      h.testSize⟩, h.references⟩

theorem Respelled.content_eq (h : v.Respelled w) : v.content = w.content := by
  obtain ⟨hfields, hreferences⟩ := h
  rw [← References.ofDependencies_eq_iff] at hreferences
  rw [← hfields, content, content, hreferences]

end UnitTestVariant

section Comparison

variable {α : Type}

/-- A comparison of records decides an equivalence. Records are interchangeable exactly if they
agree, and a list of them exactly if every two are, so its order and repetitions do not matter.
Respelled records get the same answers. Interchangeable records refer to the same projects and to
the same external coordinates, where a coordinate never passes for a project, whatever their
texts. -/
structure DecidesEquivalence (interchangeable : α → α → Bool) (allInterchangeable : List α → Bool)
    (deps : α → List Dependency) (agree respelled : α → α → Prop) : Prop where
  interchangeable_iff_agree : ∀ v w, interchangeable v w = true ↔ agree v w
  equivalence : Equivalence fun v w => interchangeable v w = true
  pairwise : ∀ variants, allInterchangeable variants = true ↔
    ∀ v ∈ variants, ∀ w ∈ variants, interchangeable v w = true
  members : ∀ variants others, (∀ v, v ∈ variants ↔ v ∈ others) →
    allInterchangeable variants = allInterchangeable others
  respelled_pair : ∀ v v' w w', respelled v v' → respelled w w' →
    interchangeable v w = interchangeable v' w'
  respelled_list : ∀ variants others, List.Forall₂ respelled variants others →
    allInterchangeable variants = allInterchangeable others
  projects : ∀ v w, interchangeable v w = true → ∀ path,
    (∃ suffix, .project path suffix ∈ deps v) ↔ ∃ suffix, .project path suffix ∈ deps w
  externals : ∀ v w, interchangeable v w = true → ∀ coordinate,
    .external coordinate ∈ deps v ↔ .external coordinate ∈ deps w
  paths : ∀ v w, interchangeable v w = true → projectPaths [deps v] = projectPaths [deps w]

/-- Records that are compared by a content, which has what their dependencies refer to, are compared
by an equivalence. -/
theorem DecidesEquivalence.of_content {β : Type} {interchangeable : α → α → Bool}
    {allInterchangeable : List α → Bool} {deps : α → List Dependency}
    {agree respelled : α → α → Prop}
    (content : α → β × References)
    (hpair : ∀ v w, interchangeable v w = true ↔ content v = content w)
    (hlist : ∀ variants, allInterchangeable variants = true ↔
      ∀ v ∈ variants, ∀ w ∈ variants, content v = content w)
    (hagree : ∀ v w, content v = content w ↔ agree v w)
    (hreferences : ∀ v, (content v).2 = .ofDependencies (deps v))
    (hrespelled : ∀ v w, respelled v w → content v = content w) :
    DecidesEquivalence interchangeable allInterchangeable deps agree respelled := by
  -- The contents of a list are all that its answer depends on.
  have hcontents : ∀ variants others : List α,
      (∀ c, c ∈ variants.map content ↔ c ∈ others.map content) →
        allInterchangeable variants = allInterchangeable others := by
    intro variants others hsame
    have hmapped : ∀ items, allInterchangeable items = true ↔
        ∀ c ∈ items.map content, ∀ d ∈ items.map content, c = d := by
      intro items
      simp only [hlist, List.forall_mem_map]
    rw [Bool.eq_iff_iff, hmapped, hmapped]
    simp only [hsame]
  have hrefer : ∀ v w, interchangeable v w = true →
      References.ofDependencies (deps v) = References.ofDependencies (deps w) := by
    intro v w h
    rw [← hreferences, ← hreferences, (hpair v w).mp h]
  refine ⟨fun v w => (hpair v w).trans (hagree v w), ?_, ?_, ?_, ?_, ?_, ?_, ?_, ?_⟩
  · simp only [hpair]
    exact eq_equivalence.comap content
  · intro variants
    simp only [hlist, hpair]
  · intro variants others hmembers
    apply hcontents
    simp only [List.mem_map, hmembers, implies_true]
  · intro v v' w w' hv hw
    rw [Bool.eq_iff_iff, hpair, hpair, hrespelled v v' hv, hrespelled w w' hw]
  · intro variants others hrespell
    apply hcontents
    have hsame : variants.map content = others.map content :=
      List.forall₂_eq_eq_eq ▸ List.forall₂_map_left_iff.mpr
        (List.forall₂_map_right_iff.mpr (hrespell.imp hrespelled))
    simp only [hsame, implies_true]
  · intro v w h path
    rw [← References.mem_projects_ofDependencies, ← References.mem_projects_ofDependencies,
      hrefer v w h]
  · intro v w h coordinate
    rw [← References.mem_externals_ofDependencies, ← References.mem_externals_ofDependencies,
      hrefer v w h]
  · intro v w h
    rw [projectPaths, projectPaths, List.flatten_singleton, List.flatten_singleton, hrefer v w h]

end Comparison

/-- To be interchangeable is an equivalence on library variants and on unit test variants, and lists
of either are interchangeable as a whole exactly if every two of their records are. -/
theorem interchangeable_decidesEquivalence :
    DecidesEquivalence LibraryVariant.interchangeable LibraryVariant.allInterchangeable
        LibraryVariant.deps LibraryVariant.Agree LibraryVariant.Respelled ∧
      DecidesEquivalence UnitTestVariant.interchangeable UnitTestVariant.allInterchangeable
        UnitTestVariant.deps UnitTestVariant.Agree UnitTestVariant.Respelled := by
  constructor
  · exact .of_content LibraryVariant.content
      (fun v w => LibraryVariant.interchangeable_iff)
      (allAgreeWithFirst_iff LibraryVariant.content)
      (fun v w => LibraryVariant.content_eq_iff_agree)
      (fun v => rfl)
      (fun v w => LibraryVariant.Respelled.content_eq)
  · exact .of_content UnitTestVariant.content
      (fun v w => UnitTestVariant.interchangeable_iff)
      (allAgreeWithFirst_iff UnitTestVariant.content)
      (fun v w => UnitTestVariant.content_eq_iff_agree)
      (fun v => rfl)
      (fun v w => UnitTestVariant.Respelled.content_eq)

end BuildVariants

import BuildVariants.Names
import Mathlib.Data.List.Perm.Basic

/-!
Lists of names in order. Sorting keeps the names, and if none repeats it lists them in strictly
ascending order. A list that has the names with a property in that order is determined by the
property.
-/

set_option autoImplicit false
set_option relaxedAutoImplicit false

namespace BuildVariants

theorem perm_placeName (name : String) (names : List String) :
    (placeName name names).Perm (name :: names) := by
  induction names with
  | nil => exact List.Perm.refl _
  | cons other rest ih =>
    unfold placeName
    split
    · exact List.Perm.refl _
    · exact (ih.cons other).trans (List.Perm.swap name other rest)

theorem perm_sortNames (names : List String) : (sortNames names).Perm names := by
  induction names with
  | nil => exact List.Perm.refl _
  | cons name rest ih => exact (perm_placeName name (sortNames rest)).trans (ih.cons name)

theorem pairwise_placeName {name : String} {names : List String} (h : names.Pairwise (· ≤ ·)) :
    (placeName name names).Pairwise (· ≤ ·) := by
  induction names with
  | nil => exact List.pairwise_singleton _ _
  | cons other rest ih =>
    obtain ⟨hother, hrest⟩ := List.pairwise_cons.mp h
    unfold placeName
    split
    · next hle =>
      refine List.pairwise_cons.mpr ⟨List.forall_mem_cons.mpr ⟨hle, fun later hlater => ?_⟩, h⟩
      exact String.le_trans hle (hother later hlater)
    · next hnot =>
      have hle : other ≤ name := (String.le_total other name).resolve_right hnot
      refine List.pairwise_cons.mpr ⟨fun later hlater => ?_, ih hrest⟩
      rcases List.mem_cons.mp ((perm_placeName name rest).mem_iff.mp hlater) with rfl | hlater
      · exact hle
      · exact hother later hlater

theorem pairwise_sortNames (names : List String) : (sortNames names).Pairwise (· ≤ ·) := by
  induction names with
  | nil => exact List.Pairwise.nil
  | cons name rest ih => exact pairwise_placeName ih

theorem sortNames_eq_self {names : List String} (h : names.Pairwise (· < ·)) :
    sortNames names = names :=
  (perm_sortNames names).eq_of_pairwise (fun _ _ _ _ => String.le_antisymm)
    (pairwise_sortNames names) (h.imp fun hlt => Std.le_of_lt hlt)

/-- A list has exactly the names with a property, each once and in ascending order. -/
structure ListsInOrder (names : List String) (p : String → Prop) : Prop where
  ascending : names.Pairwise (· < ·)
  mem_iff : ∀ name, name ∈ names ↔ p name

namespace ListsInOrder

variable {names others : List String} {p : String → Prop}

theorem unique (h : ListsInOrder names p) (hothers : ListsInOrder others p) : names = others :=
  eq_of_pairwise_lt h.ascending hothers.ascending fun name =>
    (h.mem_iff name).trans (hothers.mem_iff name).symm

theorem congr {q : String → Prop} (h : ListsInOrder names p) (hiff : ∀ name, p name ↔ q name) :
    ListsInOrder names q where
  ascending := h.ascending
  mem_iff := fun name => (h.mem_iff name).trans (hiff name)

theorem filter (h : ListsInOrder names p) (q : String → Bool) :
    ListsInOrder (names.filter q) fun name => p name ∧ q name = true where
  ascending := h.ascending.filter q
  mem_iff := by
    intro name
    rw [List.mem_filter, h.mem_iff]

end ListsInOrder

theorem listsInOrder_sortNames {names : List String} (h : names.Nodup) :
    ListsInOrder (sortNames names) (· ∈ names) where
  ascending := by
    have hnodup := (perm_sortNames names).nodup_iff.mpr h
    exact ((pairwise_sortNames names).and hnodup).imp fun hboth =>
      Std.lt_of_le_of_ne hboth.1 hboth.2
  mem_iff := fun _ => (perm_sortNames names).mem_iff

end BuildVariants

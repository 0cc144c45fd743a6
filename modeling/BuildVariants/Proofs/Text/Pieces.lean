import Mathlib.Data.List.Basic

/-!
Where the pieces of a text end. A piece ends behind a front of the text if some pieces at the front
of the list make it up, and pieces with at least one character are determined by these places.
-/

set_option autoImplicit false
set_option relaxedAutoImplicit false

namespace BuildVariants

variable {α : Type}

/-- A piece ends behind a text: some pieces at the front of the list make it up. -/
def Ends (pieces : List (List α)) (text : List α) : Prop :=
  ∃ first later, pieces = first ++ later ∧ first.flatten = text

variable {pieces : List (List α)} {piece text : List α} {c : α}

theorem ends_nil (pieces : List (List α)) : Ends pieces [] := ⟨[], pieces, rfl, rfl⟩

theorem ends_cons_iff (h : text ≠ []) :
    Ends (piece :: pieces) text ↔ ∃ more, text = piece ++ more ∧ Ends pieces more := by
  constructor
  · rintro ⟨first, later, hpieces, hfirst⟩
    cases first with
    | nil => exact absurd hfirst.symm h
    | cons head first =>
      obtain ⟨rfl, rfl⟩ := List.cons_eq_cons.mp hpieces
      exact ⟨first.flatten, hfirst.symm, first, later, rfl, rfl⟩
  · rintro ⟨more, rfl, first, later, rfl, rfl⟩
    exact ⟨piece :: first, later, rfl, rfl⟩

theorem ends_append_iff (h : piece ≠ []) :
    Ends (piece :: pieces) (piece ++ text) ↔ Ends pieces text := by
  rw [ends_cons_iff (List.append_ne_nil_of_left_ne_nil h text)]
  constructor
  · rintro ⟨more, htext, hmore⟩
    rwa [List.append_cancel_left htext]
  · intro hends
    exact ⟨text, rfl, hends⟩

theorem ends_cons_cons_iff (h : piece ≠ []) :
    Ends ((c :: piece) :: pieces) (c :: text) ↔ text ≠ [] ∧ Ends (piece :: pieces) text := by
  rw [ends_cons_iff (List.cons_ne_nil c text)]
  constructor
  · rintro ⟨more, htext, hmore⟩
    have hpiece : text = piece ++ more := List.tail_eq_of_cons_eq htext
    have hne : text ≠ [] := hpiece ▸ List.append_ne_nil_of_left_ne_nil h more
    exact ⟨hne, (ends_cons_iff hne).mpr ⟨more, hpiece, hmore⟩⟩
  · rintro ⟨hne, hends⟩
    obtain ⟨more, rfl, hmore⟩ := (ends_cons_iff hne).mp hends
    exact ⟨more, rfl, hmore⟩

theorem ends_head (piece : List α) (pieces : List (List α)) :
    Ends (piece :: pieces) piece :=
  ⟨[piece], pieces, rfl, List.flatten_singleton⟩

theorem eq_nil_of_ends (h : Ends [] text) : text = [] := by
  obtain ⟨first, later, hnil, rfl⟩ := h
  rw [(List.append_eq_nil_iff.mp hnil.symm).1, List.flatten_nil]

theorem prefix_of_ends_iff {other : List α} {others : List (List α)} (hpiece : piece ≠ [])
    (h : ∀ text, Ends (piece :: pieces) text ↔ Ends (other :: others) text) : other <+: piece := by
  obtain ⟨more, rfl, -⟩ := (ends_cons_iff hpiece).mp ((h piece).mp (ends_head piece pieces))
  exact List.prefix_append other more

/-- Pieces with at least one character are determined by where they end. -/
theorem eq_of_ends_iff {others : List (List α)} (hpieces : ∀ piece ∈ pieces, piece ≠ [])
    (hothers : ∀ other ∈ others, other ≠ []) (h : ∀ text, Ends pieces text ↔ Ends others text) :
    pieces = others := by
  induction pieces generalizing others with
  | nil =>
    cases others with
    | nil => rfl
    | cons other others =>
      have hnil := eq_nil_of_ends ((h other).mpr (ends_head other others))
      exact absurd hnil (hothers other List.mem_cons_self)
  | cons piece pieces ih =>
    obtain ⟨hpiece, hlater⟩ := List.forall_mem_cons.mp hpieces
    cases others with
    | nil => exact absurd (eq_nil_of_ends ((h piece).mp (ends_head piece pieces))) hpiece
    | cons other others =>
      obtain ⟨hother, hrest⟩ := List.forall_mem_cons.mp hothers
      have hback := prefix_of_ends_iff hother fun text => (h text).symm
      obtain rfl : other = piece :=
        (prefix_of_ends_iff hpiece h).eq_of_length_le hback.length_le
      have hends : ∀ text, Ends pieces text ↔ Ends others text := by
        intro text
        rw [← ends_append_iff hpiece, h, ends_append_iff hpiece]
      rw [ih hlater hrest hends]

end BuildVariants

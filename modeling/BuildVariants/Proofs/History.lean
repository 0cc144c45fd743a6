import Mathlib.Data.List.Induction

/-!
Histories of calls. A call of a history stands as long as no later call ends what it began. What one
call does to a property of the state decides, call by call, which histories end with the property.
-/

set_option autoImplicit false
set_option relaxedAutoImplicit false

namespace BuildVariants

section History

variable {α σ : Type} {history : List α} {last : α}

theorem exists_split_append_iff {p : List α → α → List α → Prop} :
    (∃ before item after, history ++ [last] = before ++ item :: after ∧ p before item after) ↔
      p history last [] ∨
        ∃ before item after, history = before ++ item :: after ∧
          p before item (after ++ [last]) := by
  constructor
  · rintro ⟨before, item, after, hsplit, hp⟩
    rcases List.eq_nil_or_concat after with rfl | ⟨between, final, rfl⟩
    · obtain ⟨rfl, hlast⟩ := List.append_inj' hsplit rfl
      obtain rfl := List.singleton_inj.mp hlast
      exact Or.inl hp
    · rw [List.concat_eq_append] at hsplit hp
      rw [← List.cons_append, ← List.append_assoc] at hsplit
      obtain ⟨hearlier, hlast⟩ := List.append_inj' hsplit rfl
      obtain rfl := List.singleton_inj.mp hlast
      exact Or.inr ⟨before, item, between, hearlier, hp⟩
  · rintro (hp | ⟨before, item, after, rfl, hp⟩)
    · exact ⟨history, last, [], rfl, hp⟩
    · exact ⟨before, item, after ++ [last], by simp, hp⟩

/-- Some call of a history begins something that no later call ends. -/
def Stands (history : List α) (begins ends : α → Prop) : Prop :=
  ∃ before item after, history = before ++ item :: after ∧ begins item ∧
    ∀ later ∈ after, ¬ ends later

variable {begins ends : α → Prop}

theorem not_stands_nil : ¬ Stands [] begins ends := by
  rintro ⟨before, item, after, hsplit, -⟩
  cases before with
  | nil => cases hsplit
  | cons head rest => cases hsplit

theorem stands_append_iff : Stands (history ++ [last]) begins ends ↔
    begins last ∨ (¬ ends last ∧ Stands history begins ends) := by
  rw [Stands, exists_split_append_iff]
  constructor
  · rintro (⟨hbegins, -⟩ | ⟨before, item, after, hsplit, hbegins, hafter⟩)
    · exact Or.inl hbegins
    · refine Or.inr ⟨hafter last (by simp), before, item, after, hsplit, hbegins, ?_⟩
      intro later hlater
      exact hafter later (List.mem_append_left _ hlater)
  · rintro (hbegins | ⟨hends, before, item, after, hsplit, hbegins, hafter⟩)
    · exact Or.inl ⟨hbegins, fun _ hlater => nomatch hlater⟩
    · refine Or.inr ⟨before, item, after, hsplit, hbegins, fun later hlater => ?_⟩
      rcases List.mem_append.mp hlater with hlater | hlater
      · exact hafter later hlater
      · rwa [List.mem_singleton.mp hlater]

/-- A state has a property that each call begins, ends or keeps exactly if it stands at the end of
the history. -/
theorem foldl_iff_stands (holds : σ → Prop) {step : σ → α → σ} {start : σ} (hstart : ¬ holds start)
    (hstep : ∀ s item, holds (step s item) ↔ begins item ∨ (¬ ends item ∧ holds s))
    (history : List α) : holds (history.foldl step start) ↔ Stands history begins ends := by
  induction history using List.reverseRecOn with
  | nil => exact iff_of_false hstart not_stands_nil
  | append_singleton earlier last ih =>
    rw [List.foldl_append, List.foldl_cons, List.foldl_nil, hstep, stands_append_iff, ih]

end History

end BuildVariants

import Mathlib.Data.List.Forall2

/-!
Stages that may fail. A sequence of stages has a result exactly if each stage has one, and the
result of a list of stages is the list of their results. A failure is the failure of some stage. Two
sequences whose stages answer alike answer alike.
-/

set_option autoImplicit false
set_option relaxedAutoImplicit false

namespace BuildVariants

variable {ε α β : Type}

theorem bind_eq_ok_iff {first : Except ε α} {next : α → Except ε β} {result : β} :
    (first >>= next) = .ok result ↔ ∃ value, first = .ok value ∧ next value = .ok result := by
  cases first with
  | error e => simp [bind, Except.bind]
  | ok value => simp [bind, Except.bind]

theorem bind_eq_error_iff {first : Except ε α} {next : α → Except ε β} {failure : ε} :
    (first >>= next) = .error failure ↔
      first = .error failure ∨ ∃ value, first = .ok value ∧ next value = .error failure := by
  cases first with
  | error e => simp [bind, Except.bind]
  | ok value => simp [bind, Except.bind]

theorem mapError_eq_ok_iff {ε' : Type} {answer : Except ε α} {lift : ε → ε'} {value : α} :
    answer.mapError lift = .ok value ↔ answer = .ok value := by
  cases answer with
  | error failure => simp [Except.mapError]
  | ok other => simp [Except.mapError]

theorem mapError_eq_error_iff {ε' : Type} {answer : Except ε α} {lift : ε → ε'} {failure : ε'} :
    answer.mapError lift = .error failure ↔
      ∃ cause, answer = .error cause ∧ failure = lift cause := by
  cases answer with
  | error cause => simp [Except.mapError, eq_comm]
  | ok other => simp [Except.mapError]

theorem map_eq_ok_iff {answer : Except ε α} {f : α → β} {result : β} :
    answer.map f = .ok result ↔ ∃ value, answer = .ok value ∧ f value = result := by
  cases answer with
  | error failure => simp [Except.map]
  | ok value => simp [Except.map]

theorem exists_ok_of_isOk {answer : Except ε α} (h : answer.isOk = true) :
    ∃ value, answer = .ok value := by
  cases answer with
  | error failure => cases h
  | ok value => exact ⟨value, rfl⟩

theorem mapM_eq_ok_iff {stage : α → Except ε β} {items : List α} {results : List β} :
    items.mapM stage = .ok results ↔
      List.Forall₂ (fun item result => stage item = .ok result) items results := by
  induction items generalizing results with
  | nil =>
    rw [List.mapM_nil, List.forall₂_nil_left_iff]
    simp [pure, Except.pure, eq_comm]
  | cons item rest ih =>
    rw [List.mapM_cons, bind_eq_ok_iff, List.forall₂_cons_left_iff]
    constructor
    · rintro ⟨first, hfirst, hrest⟩
      obtain ⟨others, hothers, hresults⟩ := bind_eq_ok_iff.mp hrest
      refine ⟨first, others, hfirst, ih.mp hothers, ?_⟩
      simpa [pure, Except.pure, eq_comm] using hresults
    · rintro ⟨first, others, hfirst, hothers, rfl⟩
      exact ⟨first, hfirst, bind_eq_ok_iff.mpr ⟨others, ih.mpr hothers, rfl⟩⟩

theorem exists_ok_of_mapM_eq_ok {stage : α → Except ε β} {items : List α} {results : List β}
    (h : items.mapM stage = .ok results) : ∀ item ∈ items, ∃ result, stage item = .ok result := by
  have hstages := mapM_eq_ok_iff.mp h
  clear h
  induction hstages with
  | nil => simp
  | cons hfirst hrest ih => exact List.forall_mem_cons.mpr ⟨⟨_, hfirst⟩, ih⟩

theorem mapM_congr {stage other : α → Except ε β} {items : List α}
    (h : ∀ item ∈ items, stage item = other item) : items.mapM stage = items.mapM other := by
  induction items with
  | nil => rfl
  | cons item rest ih =>
    obtain ⟨hfirst, hrest⟩ := List.forall_mem_cons.mp h
    rw [List.mapM_cons, List.mapM_cons, hfirst, ih hrest]

/-- A list of stages fails with the failure of the first stage that fails. -/
theorem exists_first_of_mapM_eq_error {stage : α → Except ε β} {items : List α} {failure : ε}
    (h : items.mapM stage = .error failure) : ∃ before item after, items = before ++ item :: after ∧
      (∀ earlier ∈ before, ∃ result, stage earlier = .ok result) ∧ stage item = .error failure := by
  induction items with
  | nil => simp [pure, Except.pure] at h
  | cons item rest ih =>
    rw [List.mapM_cons] at h
    rcases bind_eq_error_iff.mp h with hfirst | ⟨first, hfirst, hrest⟩
    · exact ⟨[], item, rest, rfl, by simp, hfirst⟩
    · rcases bind_eq_error_iff.mp hrest with hothers | ⟨others, -, hpure⟩
      · obtain ⟨before, other, after, rfl, hbefore, hother⟩ := ih hothers
        exact ⟨item :: before, other, after, rfl,
          List.forall_mem_cons.mpr ⟨⟨first, hfirst⟩, hbefore⟩, hother⟩
      · simp [pure, Except.pure] at hpure

theorem exists_mem_of_mapM_eq_error {stage : α → Except ε β} {items : List α} {failure : ε}
    (h : items.mapM stage = .error failure) : ∃ item ∈ items, stage item = .error failure := by
  obtain ⟨before, item, after, rfl, -, hitem⟩ := exists_first_of_mapM_eq_error h
  exact ⟨item, List.mem_append_right before List.mem_cons_self, hitem⟩

theorem exists_mem_of_foldlM_eq_error {step : β → α → Except ε β} {items : List α} {start : β}
    {failure : ε} (h : items.foldlM step start = .error failure) :
    ∃ item ∈ items, ∃ state, step state item = .error failure := by
  induction items generalizing start with
  | nil => simp [pure, Except.pure] at h
  | cons item rest ih =>
    rw [List.foldlM_cons] at h
    rcases bind_eq_error_iff.mp h with hfirst | ⟨next, -, hrest⟩
    · exact ⟨item, List.mem_cons_self, start, hfirst⟩
    · obtain ⟨other, hmem, state, hother⟩ := ih hrest
      exact ⟨other, List.mem_cons_of_mem item hmem, state, hother⟩

theorem mapM_eq_ok_iff_of_result {stage : α → Except ε β} {valid : α → Prop} {result : α → β}
    (hstage : ∀ item value, stage item = .ok value ↔ valid item ∧ value = result item)
    {items : List α} {results : List β} :
    items.mapM stage = .ok results ↔ (∀ item ∈ items, valid item) ∧ results = items.map result := by
  rw [mapM_eq_ok_iff]
  induction items generalizing results with
  | nil => simp [List.forall₂_nil_left_iff]
  | cons item rest ih =>
    rw [List.forall₂_cons_left_iff]
    constructor
    · rintro ⟨first, others, hfirst, hothers, rfl⟩
      obtain ⟨hvalid, rfl⟩ := (hstage item first).mp hfirst
      obtain ⟨hrest, rfl⟩ := ih.mp hothers
      exact ⟨List.forall_mem_cons.mpr ⟨hvalid, hrest⟩, rfl⟩
    · rintro ⟨hvalid, rfl⟩
      obtain ⟨hfirst, hrest⟩ := List.forall_mem_cons.mp hvalid
      exact ⟨result item, rest.map result, (hstage item _).mpr ⟨hfirst, rfl⟩,
        ih.mpr ⟨hrest, rfl⟩, rfl⟩

/-- Two stages answer alike if they have related results or fail with the same failure. -/
inductive AnswersAlike (related : α → β → Prop) : Except ε α → Except ε β → Prop
  | done {value : α} {other : β} : related value other →
      AnswersAlike related (.ok value) (.ok other)
  | failed (failure : ε) : AnswersAlike related (.error failure) (.error failure)

namespace AnswersAlike

variable {γ δ : Type} {related : α → β → Prop} {further : γ → δ → Prop}

theorem imp {weaker : α → β → Prop} {first : Except ε α} {second : Except ε β}
    (h : AnswersAlike related first second)
    (hweaker : ∀ value other, related value other → weaker value other) :
    AnswersAlike weaker first second := by
  cases h with
  | done hvalues => exact .done (hweaker _ _ hvalues)
  | failed failure => exact .failed failure

theorem bind {first : Except ε α} {second : Except ε β} {next : α → Except ε γ}
    {other : β → Except ε δ} (h : AnswersAlike related first second)
    (hnext : ∀ x y, related x y → AnswersAlike further (next x) (other y)) :
    AnswersAlike further (first >>= next) (second >>= other) := by
  cases h with
  | done hvalues => exact hnext _ _ hvalues
  | failed failure => exact .failed failure

theorem mapM {stage : α → Except ε γ} {other : β → Except ε δ} {items : List α} {others : List β}
    (h : List.Forall₂ related items others)
    (hstage : ∀ x y, related x y → AnswersAlike further (stage x) (other y)) :
    AnswersAlike (List.Forall₂ further) (items.mapM stage) (others.mapM other) := by
  induction h with
  | nil => exact .done .nil
  | cons hfirst hrest ih =>
    rw [List.mapM_cons, List.mapM_cons]
    apply bind (hstage _ _ hfirst)
    intro value result hvalue
    apply bind ih
    intro values results hvalues
    exact .done (.cons hvalue hvalues)

end AnswersAlike

end BuildVariants

/-!
Names of variants, build types, projects and suffixes are strings, and every order between them is
the order by code point. `sortNames` lists names in that order with repetitions kept; a `NameSet`
is a finite set of names, and two sets with the same members are equal.
-/

set_option autoImplicit false
set_option relaxedAutoImplicit false

namespace BuildVariants

/-- Places a name before the first name that is not smaller. -/
def placeName (name : String) : List String → List String
  | [] => [name]
  | other :: rest => if name ≤ other then name :: other :: rest else other :: placeName name rest

/-- The given names in ascending order, each as often as it was given. -/
def sortNames : List String → List String
  | [] => []
  | name :: rest => placeName name (sortNames rest)

theorem lt_of_not_lt_of_ne {a b : String} (h : ¬ a < b) (hne : a ≠ b) : b < a := by
  grind

/-- Adds a name to a strictly ascending list, which keeps a name it already has. -/
def addName (name : String) : List String → List String
  | [] => [name]
  | other :: rest =>
    if name < other then name :: other :: rest
    else if name = other then other :: rest
    else other :: addName name rest

theorem mem_addName {name x : String} {names : List String} :
    x ∈ addName name names ↔ x = name ∨ x ∈ names := by
  induction names with
  | nil => simp [addName]
  | cons other rest ih => grind [addName]

theorem pairwise_addName {name : String} {names : List String}
    (h : names.Pairwise (· < ·)) : (addName name names).Pairwise (· < ·) := by
  induction names with
  | nil => simp [addName]
  | cons other rest ih =>
    rw [List.pairwise_cons] at h
    unfold addName
    split
    · next hlt =>
      exact List.pairwise_cons.2 ⟨fun x hx => by
        rcases List.mem_cons.1 hx with rfl | hx
        · exact hlt
        · exact String.lt_trans hlt (h.1 x hx), List.pairwise_cons.2 h⟩
    · split
      · exact List.pairwise_cons.2 h
      · next hlt hne =>
        exact List.pairwise_cons.2 ⟨fun x hx => by
          rcases mem_addName.1 hx with rfl | hx
          · exact lt_of_not_lt_of_ne hlt hne
          · exact h.1 x hx, ih h.2⟩

theorem eq_of_pairwise_lt {xs ys : List String} (hx : xs.Pairwise (· < ·))
    (hy : ys.Pairwise (· < ·)) (h : ∀ x, x ∈ xs ↔ x ∈ ys) : xs = ys := by
  induction xs generalizing ys with
  | nil =>
    cases ys with
    | nil => rfl
    | cons y ys => simpa using h y
  | cons x xs ih =>
    cases ys with
    | nil => simpa using h x
    | cons y ys =>
      rw [List.pairwise_cons] at hx hy
      have hxy : x = y := by
        have hxs := (h x).1 List.mem_cons_self
        have hys := (h y).2 List.mem_cons_self
        grind
      subst hxy
      refine congrArg _ (ih hx.2 hy.2 fun z => ?_)
      have hz := h z
      grind

theorem nodup_of_pairwise_lt {names : List String} (h : names.Pairwise (· < ·)) : names.Nodup := by
  refine h.imp ?_
  rintro name _ hlt rfl
  exact String.lt_irrefl name hlt

/-- A finite set of names, held as its members in strictly ascending order. -/
structure NameSet where
  names : List String
  ascending : names.Pairwise (· < ·)
  deriving DecidableEq

namespace NameSet

def empty : NameSet := ⟨[], List.Pairwise.nil⟩

def insert (s : NameSet) (name : String) : NameSet :=
  ⟨addName name s.names, pairwise_addName s.ascending⟩

def ofList : List String → NameSet
  | [] => empty
  | name :: rest => (ofList rest).insert name

def contains (s : NameSet) (name : String) : Bool := s.names.contains name

def isEmpty (s : NameSet) : Bool := s.names.isEmpty

theorem eq_of_mem_iff {s t : NameSet} (h : ∀ name, name ∈ s.names ↔ name ∈ t.names) : s = t := by
  obtain ⟨xs, hx⟩ := s
  obtain ⟨ys, hy⟩ := t
  simp only [NameSet.mk.injEq]
  exact eq_of_pairwise_lt hx hy h

@[simp] theorem contains_iff {s : NameSet} {name : String} :
    s.contains name = true ↔ name ∈ s.names := by
  simp [contains]

@[simp] theorem mem_names_insert {s : NameSet} {name x : String} :
    x ∈ (s.insert name).names ↔ x = name ∨ x ∈ s.names :=
  mem_addName

@[simp] theorem mem_names_ofList {x : String} {names : List String} :
    x ∈ (ofList names).names ↔ x ∈ names := by
  induction names with
  | nil => simp [ofList, empty]
  | cons name rest ih => simp [ofList, ih]

end NameSet

end BuildVariants

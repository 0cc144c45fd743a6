import BuildVariants.Names

/-!
A finite map from names, held as its entries in strictly ascending order of the names. Writing a
name again replaces its value, so the last value wins, and two maps with the same look-ups are
equal: a sorted map does not remember the order in which it was filled.
-/

set_option autoImplicit false
set_option relaxedAutoImplicit false

namespace BuildVariants

/-- Writes a key into a list of entries in ascending order of the keys. -/
def writeEntry {α : Type} (key : String) (value : α) : List (String × α) → List (String × α)
  | [] => [(key, value)]
  | (other, old) :: rest =>
    if key < other then (key, value) :: (other, old) :: rest
    else if key = other then (key, value) :: rest
    else (other, old) :: writeEntry key value rest

theorem key_of_mem_writeEntry {α : Type} {key : String} {value : α} {entry : String × α}
    {entries : List (String × α)} (h : entry ∈ writeEntry key value entries) :
    entry = (key, value) ∨ entry ∈ entries := by
  induction entries with
  | nil => simpa [writeEntry] using h
  | cons head rest ih => grind [writeEntry]

theorem pairwise_writeEntry {α : Type} {key : String} {value : α} {entries : List (String × α)}
    (h : entries.Pairwise fun a b => a.1 < b.1) :
    (writeEntry key value entries).Pairwise fun a b => a.1 < b.1 := by
  induction entries with
  | nil => simp [writeEntry]
  | cons head rest ih =>
    obtain ⟨other, old⟩ := head
    rw [List.pairwise_cons] at h
    unfold writeEntry
    split
    · next hlt =>
      exact List.pairwise_cons.2 ⟨fun x hx => by
        rcases List.mem_cons.1 hx with rfl | hx
        · exact hlt
        · exact String.lt_trans hlt (h.1 x hx), List.pairwise_cons.2 h⟩
    · split
      · next heq => exact List.pairwise_cons.2 ⟨fun x hx => heq ▸ h.1 x hx, h.2⟩
      · next hlt hne =>
        exact List.pairwise_cons.2 ⟨fun x hx => by
          rcases key_of_mem_writeEntry hx with rfl | hx
          · exact lt_of_not_lt_of_ne hlt hne
          · exact h.1 x hx, ih h.2⟩

theorem lookup_writeEntry {α : Type} {key x : String} {value : α} {entries : List (String × α)} :
    (writeEntry key value entries).lookup x =
      if x = key then some value else entries.lookup x := by
  induction entries with
  | nil => grind [writeEntry]
  | cons head rest ih =>
    obtain ⟨other, old⟩ := head
    unfold writeEntry
    split <;> grind

theorem lookup_eq_some_iff {α : Type} {key : String} {value : α} {entries : List (String × α)}
    (h : (entries.map (·.1)).Nodup) : entries.lookup key = some value ↔ (key, value) ∈ entries := by
  induction entries with
  | nil => simp
  | cons head rest ih =>
    obtain ⟨other, old⟩ := head
    rw [List.map_cons, List.nodup_cons] at h
    grind

/-- A finite map from names, as its entries in strictly ascending order of the names. -/
structure SortedMap (α : Type) where
  entries : List (String × α)
  ascending : entries.Pairwise fun a b => a.1 < b.1
  deriving DecidableEq

namespace SortedMap

variable {α β : Type}

def empty : SortedMap α := ⟨[], List.Pairwise.nil⟩

def insert (m : SortedMap α) (key : String) (value : α) : SortedMap α :=
  ⟨writeEntry key value m.entries, pairwise_writeEntry m.ascending⟩

/-- The map of the listed entries, of which the last one under a name wins. -/
def ofList (entries : List (String × α)) : SortedMap α :=
  entries.foldl (fun m entry => m.insert entry.1 entry.2) empty

def get? (m : SortedMap α) (key : String) : Option α := m.entries.lookup key

def contains (m : SortedMap α) (key : String) : Bool := (m.get? key).isSome

def keys (m : SortedMap α) : List String := m.entries.map (·.1)

def values (m : SortedMap α) : List α := m.entries.map (·.2)

def size (m : SortedMap α) : Nat := m.entries.length

def map (f : α → β) (m : SortedMap α) : SortedMap β :=
  ⟨m.entries.map fun entry => (entry.1, f entry.2), by
    simpa [List.pairwise_map] using m.ascending⟩

def filterKeys (p : String → Bool) (m : SortedMap α) : SortedMap α :=
  ⟨m.entries.filter fun entry => p entry.1, m.ascending.filter _⟩

theorem pairwise_keys (m : SortedMap α) : m.keys.Pairwise (· < ·) :=
  List.pairwise_map.2 m.ascending

theorem nodup_keys (m : SortedMap α) : m.keys.Nodup :=
  nodup_of_pairwise_lt m.pairwise_keys

theorem get?_eq_some_iff {m : SortedMap α} {key : String} {value : α} :
    m.get? key = some value ↔ (key, value) ∈ m.entries :=
  lookup_eq_some_iff m.nodup_keys

@[simp] theorem get?_empty (key : String) : (empty : SortedMap α).get? key = none := rfl

theorem get?_insert (m : SortedMap α) (key x : String) (value : α) :
    (m.insert key value).get? x = if x = key then some value else m.get? x :=
  lookup_writeEntry

theorem eq_of_get?_eq {m n : SortedMap α} (h : ∀ key, m.get? key = n.get? key) : m = n := by
  have hmem : ∀ entry, entry ∈ m.entries ↔ entry ∈ n.entries := fun entry => by
    rw [← get?_eq_some_iff, ← get?_eq_some_iff, h]
  obtain ⟨xs, hx⟩ := m
  obtain ⟨ys, hy⟩ := n
  simp only [SortedMap.mk.injEq]
  clear h
  induction xs generalizing ys with
  | nil => exact (List.eq_nil_iff_forall_not_mem.2 fun entry => by simpa using hmem entry).symm
  | cons x xs ih =>
    cases ys with
    | nil => simpa using hmem x
    | cons y ys =>
      rw [List.pairwise_cons] at hx hy
      have hxy : x = y := by
        have hxs := (hmem x).1 List.mem_cons_self
        have hys := (hmem y).2 List.mem_cons_self
        grind
      subst hxy
      refine congrArg _ (ih hx.2 ys hy.2 fun entry => ?_)
      have hentry := hmem entry
      grind

end SortedMap

end BuildVariants

import BuildVariants.SortedMap

/-!
A finite map from names that remembers the order in which its names were first written. Writing a
name again replaces its value where it stands.
-/

set_option autoImplicit false
set_option relaxedAutoImplicit false

namespace BuildVariants

/-- Writes a key into a list of entries, in place if it is there and at the end if it is not. -/
def putEntry {α : Type} (key : String) (value : α) : List (String × α) → List (String × α)
  | [] => [(key, value)]
  | (other, old) :: rest =>
    if other = key then (key, value) :: rest else (other, old) :: putEntry key value rest

theorem mem_keys_putEntry {α : Type} {key x : String} {value : α} {entries : List (String × α)} :
    x ∈ (putEntry key value entries).map (·.1) ↔ x = key ∨ x ∈ entries.map (·.1) := by
  induction entries with
  | nil => simp [putEntry]
  | cons head rest ih =>
    obtain ⟨other, old⟩ := head
    by_cases h : other = key <;> grind [putEntry]

theorem nodup_putEntry {α : Type} {key : String} {value : α} {entries : List (String × α)}
    (h : (entries.map (·.1)).Nodup) : ((putEntry key value entries).map (·.1)).Nodup := by
  induction entries with
  | nil => simp [putEntry]
  | cons head rest ih =>
    obtain ⟨other, old⟩ := head
    rw [List.map_cons, List.nodup_cons] at h
    unfold putEntry
    split
    · next heq => exact List.nodup_cons.2 (heq ▸ h)
    · next hne =>
      refine List.nodup_cons.2 ⟨fun hx => ?_, ih h.2⟩
      rcases mem_keys_putEntry.1 hx with hx | hx
      · exact hne hx
      · exact h.1 hx

theorem lookup_putEntry {α : Type} {key x : String} {value : α} {entries : List (String × α)} :
    (putEntry key value entries).lookup x =
      if x = key then some value else entries.lookup x := by
  induction entries with
  | nil => grind [putEntry]
  | cons head rest ih =>
    obtain ⟨other, old⟩ := head
    unfold putEntry
    split <;> grind

/-- A finite map from names, as its entries in the order in which the names were first written. -/
structure OrderedMap (α : Type) where
  entries : List (String × α)
  distinct : (entries.map (·.1)).Nodup
  deriving DecidableEq

namespace OrderedMap

variable {α : Type}

def empty : OrderedMap α := ⟨[], List.nodup_nil⟩

/-- The map with a value written under a name, which keeps its place if it has one. -/
def put (m : OrderedMap α) (key : String) (value : α) : OrderedMap α :=
  ⟨putEntry key value m.entries, nodup_putEntry m.distinct⟩

def ofList (entries : List (String × α)) : OrderedMap α :=
  entries.foldl (fun m entry => m.put entry.1 entry.2) empty

def get? (m : OrderedMap α) (key : String) : Option α := m.entries.lookup key

def contains (m : OrderedMap α) (key : String) : Bool := (m.get? key).isSome

/-- The names in the order in which they were first written. -/
def keys (m : OrderedMap α) : List String := m.entries.map (·.1)

def values (m : OrderedMap α) : List α := m.entries.map (·.2)

def size (m : OrderedMap α) : Nat := m.entries.length

def sorted (m : OrderedMap α) : SortedMap α := SortedMap.ofList m.entries

theorem get?_eq_some_iff {m : OrderedMap α} {key : String} {value : α} :
    m.get? key = some value ↔ (key, value) ∈ m.entries :=
  lookup_eq_some_iff m.distinct

@[simp] theorem get?_empty (key : String) : (empty : OrderedMap α).get? key = none := rfl

theorem get?_put (m : OrderedMap α) (key x : String) (value : α) :
    (m.put key value).get? x = if x = key then some value else m.get? x :=
  lookup_putEntry

end OrderedMap

end BuildVariants

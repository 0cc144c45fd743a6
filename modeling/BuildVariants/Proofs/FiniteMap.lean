import BuildVariants.OrderedMap
import BuildVariants.Proofs.Names
import Mathlib.Data.List.Nodup

/-!
Laws of the finite maps. Look-ups determine a map, so the laws say what a look-up finds in a map
that was listed, filtered or replaced. A list without repeated keys loses nothing when it becomes a
map: the entries are the same up to their order.
-/

set_option autoImplicit false
set_option relaxedAutoImplicit false

namespace BuildVariants

section Lookup

variable {α : Type}

private theorem lookup_reverse {entries : List (String × α)} (h : (entries.map (·.1)).Nodup)
    (key : String) : entries.reverse.lookup key = entries.lookup key := by
  have hreverse : (entries.reverse.map (·.1)).Nodup := by
    rw [List.map_reverse]
    exact List.nodup_reverse.mpr h
  apply Option.ext
  intro value
  rw [lookup_eq_some_iff hreverse, lookup_eq_some_iff h, List.mem_reverse]

private theorem mem_of_lookup {entries : List (String × α)} {key : String} {value : α}
    (h : entries.lookup key = some value) : (key, value) ∈ entries := by
  obtain ⟨before, after, rfl, -⟩ := List.lookup_eq_some_iff.mp h
  simp

private theorem lookup_isSome_of_mem {entries : List (String × α)} {key : String} {value : α}
    (h : (key, value) ∈ entries) : ∃ other, entries.lookup key = some other := by
  cases hlookup : entries.lookup key with
  | none =>
    have habsent := List.lookup_eq_none_iff.mp hlookup (key, value) h
    simp at habsent
  | some other => exact ⟨other, rfl⟩

private theorem exists_lookup_reverse_iff {entries : List (String × α)} {key : String} :
    (∃ value, entries.reverse.lookup key = some value) ↔ key ∈ entries.map (·.1) := by
  rw [List.mem_map]
  constructor
  · rintro ⟨value, hlookup⟩
    exact ⟨(key, value), List.mem_reverse.mp (mem_of_lookup hlookup), rfl⟩
  · rintro ⟨⟨other, value⟩, hmem, rfl⟩
    exact lookup_isSome_of_mem (List.mem_reverse.mpr hmem)

/-- A map that is written entry by entry has the last entry under each key. -/
private theorem lookup_foldl_write {μ : Type} (get : μ → String → Option α)
    (write : μ → String → α → μ)
    (hwrite : ∀ m key other value, get (write m key value) other =
      if other = key then some value else get m other)
    (entries : List (String × α)) (m : μ) (key : String) :
    get (entries.foldl (fun m entry => write m entry.1 entry.2) m) key =
      (entries.reverse.lookup key).or (get m key) := by
  induction entries generalizing m with
  | nil => rfl
  | cons head rest ih =>
    obtain ⟨other, value⟩ := head
    rw [List.foldl_cons, ih, hwrite, List.reverse_cons, List.lookup_append]
    by_cases hkey : key = other
    · simp [hkey]
    · have hbeq : (key == other) = false := by simpa using hkey
      simp [hkey, hbeq, List.lookup_cons]

end Lookup

namespace SortedMap

variable {α β : Type}

theorem get?_ofList (entries : List (String × α)) (key : String) :
    (ofList entries).get? key = entries.reverse.lookup key := by
  have hwritten := lookup_foldl_write get? insert get?_insert entries empty key
  rw [ofList, hwritten, get?_empty, Option.or_none]

theorem get?_ofList_of_nodup {entries : List (String × α)} (h : (entries.map (·.1)).Nodup)
    (key : String) : (ofList entries).get? key = entries.lookup key := by
  rw [get?_ofList, lookup_reverse h]

theorem get?_ofList_eq_some_iff {entries : List (String × α)} (h : (entries.map (·.1)).Nodup)
    {key : String} {value : α} :
    (ofList entries).get? key = some value ↔ (key, value) ∈ entries := by
  rw [get?_ofList_of_nodup h, lookup_eq_some_iff h]

theorem mem_of_get?_ofList {entries : List (String × α)} {key : String} {value : α}
    (h : (ofList entries).get? key = some value) : (key, value) ∈ entries := by
  rw [get?_ofList] at h
  exact List.mem_reverse.mp (mem_of_lookup h)

/-- Equal values under equal keys make the order of the entries irrelevant, even with
repetitions. -/
theorem get?_ofList_eq_some_iff_of_agree {entries : List (String × α)}
    (h : ∀ x ∈ entries, ∀ y ∈ entries, x.1 = y.1 → x.2 = y.2) {key : String} {value : α} :
    (ofList entries).get? key = some value ↔ (key, value) ∈ entries := by
  rw [get?_ofList]
  constructor
  · intro hlookup
    exact List.mem_reverse.mp (mem_of_lookup hlookup)
  · intro hmem
    obtain ⟨other, hother⟩ := lookup_isSome_of_mem (List.mem_reverse.mpr hmem)
    have hvalue : other = value :=
      h (key, other) (List.mem_reverse.mp (mem_of_lookup hother)) (key, value) hmem rfl
    rw [hother, hvalue]

theorem mem_keys_iff {m : SortedMap α} {key : String} :
    key ∈ m.keys ↔ ∃ value, m.get? key = some value := by
  simp only [keys, List.mem_map, get?_eq_some_iff]
  constructor
  · rintro ⟨⟨other, value⟩, hmem, rfl⟩
    exact ⟨value, hmem⟩
  · rintro ⟨value, hmem⟩
    exact ⟨(key, value), hmem, rfl⟩

theorem mem_values_iff {m : SortedMap α} {value : α} :
    value ∈ m.values ↔ ∃ key, m.get? key = some value := by
  simp only [values, List.mem_map, get?_eq_some_iff]
  constructor
  · rintro ⟨⟨key, other⟩, hmem, rfl⟩
    exact ⟨key, hmem⟩
  · rintro ⟨key, hmem⟩
    exact ⟨(key, value), hmem, rfl⟩

theorem contains_iff_mem_keys {m : SortedMap α} {key : String} :
    m.contains key = true ↔ key ∈ m.keys := by
  rw [mem_keys_iff, contains, Option.isSome_iff_exists]

theorem mem_keys_ofList {entries : List (String × α)} {key : String} :
    key ∈ (ofList entries).keys ↔ key ∈ entries.map (·.1) := by
  rw [mem_keys_iff, get?_ofList]
  exact exists_lookup_reverse_iff

@[simp] theorem length_keys (m : SortedMap α) : m.keys.length = m.size := by
  simp [keys, size]

theorem nodup_entries (m : SortedMap α) : m.entries.Nodup :=
  List.Nodup.of_map _ m.nodup_keys

theorem perm_entries_ofList {entries : List (String × α)} (h : (entries.map (·.1)).Nodup) :
    (ofList entries).entries.Perm entries := by
  apply (List.perm_ext_iff_of_nodup (nodup_entries _) (List.Nodup.of_map _ h)).mpr
  rintro ⟨key, value⟩
  rw [← get?_eq_some_iff, get?_ofList_eq_some_iff h]

theorem size_ofList {entries : List (String × α)} (h : (entries.map (·.1)).Nodup) :
    (ofList entries).size = entries.length :=
  (perm_entries_ofList h).length_eq

theorem get?_filterKeys (p : String → Bool) (m : SortedMap α) (key : String) :
    (m.filterKeys p).get? key = if p key then m.get? key else none := by
  apply Option.ext
  intro value
  rw [get?_eq_some_iff, filterKeys, List.mem_filter, ← get?_eq_some_iff]
  cases p key <;> simp

theorem keys_filterKeys (p : String → Bool) (m : SortedMap α) :
    (m.filterKeys p).keys = m.keys.filter p := by
  simp only [keys, filterKeys, List.filter_map]
  rfl

@[simp] theorem get?_map (f : α → β) (m : SortedMap α) (key : String) :
    (m.map f).get? key = (m.get? key).map f := by
  apply Option.ext
  intro value
  rw [get?_eq_some_iff]
  simp only [map, List.mem_map, Option.map_eq_some_iff, get?_eq_some_iff]
  constructor
  · rintro ⟨⟨other, old⟩, hmem, hentry⟩
    obtain ⟨rfl, rfl⟩ := Prod.mk.inj hentry
    exact ⟨old, hmem, rfl⟩
  · rintro ⟨old, hmem, rfl⟩
    exact ⟨(key, old), hmem, rfl⟩

@[simp] theorem keys_map (f : α → β) (m : SortedMap α) : (m.map f).keys = m.keys := by
  simp [keys, map]

theorem ofList_map (f : α → β) (entries : List (String × α)) :
    ofList (entries.map fun entry => (entry.1, f entry.2)) = (ofList entries).map f := by
  have hlookup : ∀ (listed : List (String × α)) (key : String),
      (listed.map fun entry => (entry.1, f entry.2)).lookup key = (listed.lookup key).map f := by
    intro listed key
    induction listed with
    | nil => rfl
    | cons head rest ih =>
      obtain ⟨other, value⟩ := head
      rw [List.map_cons, List.lookup_cons, List.lookup_cons, ih]
      cases key == other <;> rfl
  refine eq_of_get?_eq fun key => ?_
  rw [get?_map, get?_ofList, get?_ofList, ← List.map_reverse, hlookup]

theorem ofList_entries (m : SortedMap α) : ofList m.entries = m := by
  refine eq_of_get?_eq fun key => ?_
  rw [get?_ofList_of_nodup m.nodup_keys, get?]

theorem entries_inj {m n : SortedMap α} : m.entries = n.entries ↔ m = n := by
  constructor
  · intro h
    refine eq_of_get?_eq fun key => ?_
    rw [get?, get?, h]
  · intro h
    rw [h]

end SortedMap

namespace OrderedMap

variable {α : Type}

theorem get?_ofList (entries : List (String × α)) (key : String) :
    (ofList entries).get? key = entries.reverse.lookup key := by
  have hwritten := lookup_foldl_write get? put get?_put entries empty key
  rw [ofList, hwritten, get?_empty, Option.or_none]

theorem get?_ofList_of_nodup {entries : List (String × α)} (h : (entries.map (·.1)).Nodup)
    (key : String) : (ofList entries).get? key = entries.lookup key := by
  rw [get?_ofList, lookup_reverse h]

theorem mem_keys_iff {m : OrderedMap α} {key : String} :
    key ∈ m.keys ↔ ∃ value, m.get? key = some value := by
  simp only [keys, List.mem_map, get?_eq_some_iff]
  constructor
  · rintro ⟨⟨other, value⟩, hmem, rfl⟩
    exact ⟨value, hmem⟩
  · rintro ⟨value, hmem⟩
    exact ⟨(key, value), hmem, rfl⟩

theorem mem_values_iff {m : OrderedMap α} {value : α} :
    value ∈ m.values ↔ ∃ key, m.get? key = some value := by
  simp only [values, List.mem_map, get?_eq_some_iff]
  constructor
  · rintro ⟨⟨key, other⟩, hmem, rfl⟩
    exact ⟨key, hmem⟩
  · rintro ⟨key, hmem⟩
    exact ⟨(key, value), hmem, rfl⟩

theorem forall_get?_iff {m : OrderedMap α} {p : String → α → Prop} :
    (∀ key value, m.get? key = some value → p key value) ↔
      ∀ entry ∈ m.entries, p entry.1 entry.2 := by
  simp only [get?_eq_some_iff, Prod.forall]

theorem contains_iff_mem_keys {m : OrderedMap α} {key : String} :
    m.contains key = true ↔ key ∈ m.keys := by
  rw [mem_keys_iff, contains, Option.isSome_iff_exists]

theorem mem_keys_ofList {entries : List (String × α)} {key : String} :
    key ∈ (ofList entries).keys ↔ key ∈ entries.map (·.1) := by
  rw [mem_keys_iff, get?_ofList]
  exact exists_lookup_reverse_iff

private theorem keys_putEntry {key : String} {value : α} {entries : List (String × α)} :
    (putEntry key value entries).map (·.1) =
      if key ∈ entries.map (·.1) then entries.map (·.1) else entries.map (·.1) ++ [key] := by
  induction entries with
  | nil => rfl
  | cons head rest ih => grind [putEntry]

theorem keys_put (m : OrderedMap α) (key : String) (value : α) :
    (m.put key value).keys = if key ∈ m.keys then m.keys else m.keys ++ [key] :=
  keys_putEntry

theorem nodup_entries (m : OrderedMap α) : m.entries.Nodup :=
  List.Nodup.of_map _ m.distinct

@[simp] theorem get?_sorted (m : OrderedMap α) (key : String) : m.sorted.get? key = m.get? key :=
  SortedMap.get?_ofList_of_nodup m.distinct key

theorem perm_entries_sorted (m : OrderedMap α) : m.sorted.entries.Perm m.entries :=
  SortedMap.perm_entries_ofList m.distinct

theorem mem_keys_sorted {m : OrderedMap α} {key : String} : key ∈ m.sorted.keys ↔ key ∈ m.keys := by
  rw [SortedMap.mem_keys_iff, mem_keys_iff]
  simp only [get?_sorted]

theorem perm_entries_of_get?_eq {m n : OrderedMap α} (h : ∀ key, m.get? key = n.get? key) :
    m.entries.Perm n.entries := by
  apply (List.perm_ext_iff_of_nodup m.nodup_entries n.nodup_entries).mpr
  rintro ⟨key, value⟩
  rw [← get?_eq_some_iff, ← get?_eq_some_iff, h]

theorem get?_eq_of_perm {m n : OrderedMap α} (h : m.entries.Perm n.entries) (key : String) :
    m.get? key = n.get? key := by
  apply Option.ext
  intro value
  rw [get?_eq_some_iff, get?_eq_some_iff, h.mem_iff]

theorem sorted_eq_of_get?_eq {m n : OrderedMap α} (h : ∀ key, m.get? key = n.get? key) :
    m.sorted = n.sorted :=
  SortedMap.eq_of_get?_eq fun key => by rw [get?_sorted, get?_sorted, h]

end OrderedMap

theorem listsInOrder_keys {α : Type} (m : OrderedMap α) :
    ListsInOrder m.sorted.keys (· ∈ m.keys) where
  ascending := SortedMap.pairwise_keys _
  mem_iff := fun _ => OrderedMap.mem_keys_sorted

end BuildVariants

import BuildVariants.Proofs.FiniteMap
import BuildVariants.Proofs.History
import BuildVariants.Proofs.Variant

/-!
Sorted pairs as the canonical form of a finite map. Pairs of a key and a value denote a map in which
the last pair of a key counts, and the entries of the sorted map are the pairs that stand, each key
once and in ascending order. These are the items of an ordered map that is filled with the pairs,
sorted as pairs: since no key repeats there, the values never decide their order. Two lists of pairs
therefore have the same entries exactly if they denote the same map, and a record does not remember
in which order its pairs were given.
-/

set_option autoImplicit false
set_option relaxedAutoImplicit false

namespace BuildVariants

def pairLe (a b : String × String) : Bool := a.1 < b.1 || (a.1 = b.1 && a.2 ≤ b.2)

/-- The pairs give a key a value: that pair is the last one with the key. -/
def Gives (pairs : List (String × String)) (key value : String) : Prop :=
  Stands pairs (· = (key, value)) (·.1 = key)

/-- The pairs denote the same map: they give every key the same value, or none. -/
def SameMap (pairs others : List (String × String)) : Prop :=
  ∀ key value, Gives pairs key value ↔ Gives others key value

/-- The same pairs in another order, in which the pairs of one key keep theirs. -/
def Reordered (pairs others : List (String × String)) : Prop :=
  ∀ key, (pairs.filter fun pair => pair.1 = key) = others.filter fun pair => pair.1 = key

section Order

variable {a b c : String × String} {pairs : List (String × String)}

theorem pairLe_iff : pairLe a b = true ↔ a.1 < b.1 ∨ (a.1 = b.1 ∧ a.2 ≤ b.2) := by
  simp [pairLe]

theorem pairLe_trans (hab : pairLe a b = true) (hbc : pairLe b c = true) : pairLe a c = true := by
  rw [pairLe_iff] at hab hbc ⊢
  rcases hab with hab | ⟨hab, hle⟩
  · rcases hbc with hbc | ⟨hbc, -⟩
    · exact Or.inl (String.lt_trans hab hbc)
    · exact Or.inl (hbc ▸ hab)
  · rcases hbc with hbc | ⟨hbc, hle'⟩
    · exact Or.inl (hab ▸ hbc)
    · exact Or.inr ⟨hab.trans hbc, String.le_trans hle hle'⟩

theorem pairLe_total (a b : String × String) : (pairLe a b || pairLe b a) = true := by
  rw [Bool.or_eq_true, pairLe_iff, pairLe_iff]
  by_cases hlt : a.1 < b.1
  · exact Or.inl (Or.inl hlt)
  · by_cases heq : a.1 = b.1
    · exact (String.le_total a.2 b.2).imp (fun hle => Or.inr ⟨heq, hle⟩)
        fun hle => Or.inr ⟨heq.symm, hle⟩
    · exact Or.inr (Or.inl (lt_of_not_lt_of_ne hlt heq))

theorem pairLe_antisymm (hab : pairLe a b = true) (hba : pairLe b a = true) : a = b := by
  rw [pairLe_iff] at hab hba
  have hirrefl : ¬ a.1 < a.1 := String.lt_irrefl a.1
  rcases hab with hab | ⟨hab, hle⟩
  · rcases hba with hba | ⟨hba, -⟩
    · exact absurd (String.lt_trans hab hba) hirrefl
    · exact absurd (hba ▸ hab) hirrefl
  · rcases hba with hba | ⟨-, hle'⟩
    · exact absurd (hab ▸ hba) hirrefl
    · exact Prod.ext hab (String.le_antisymm hle hle')

end Order

namespace SortedMap

variable {pairs others : List (String × String)} {key value : String}

theorem get?_ofList_iff_gives : (ofList pairs).get? key = some value ↔ Gives pairs key value := by
  refine foldl_iff_stands (fun m : SortedMap String => m.get? key = some value) (by simp) ?_ pairs
  rintro m ⟨other, new⟩
  rw [get?_insert]
  by_cases hkey : key = other
  · simp [hkey]
  · simp [hkey, Ne.symm hkey]

theorem mem_entries_ofList_iff : (key, value) ∈ (ofList pairs).entries ↔ Gives pairs key value := by
  rw [← get?_eq_some_iff, get?_ofList_iff_gives]

theorem ofList_eq_iff : ofList pairs = ofList others ↔ SameMap pairs others := by
  constructor
  · intro h key value
    rw [← get?_ofList_iff_gives, h, get?_ofList_iff_gives]
  · intro h
    refine eq_of_get?_eq fun key => Option.ext fun value => ?_
    rw [get?_ofList_iff_gives, get?_ofList_iff_gives, h key value]

/-- Filling an ordered map first and sorting its items gives the same map. -/
theorem ofList_eq_sorted (pairs : List (String × String)) :
    ofList pairs = (OrderedMap.ofList pairs).sorted := by
  refine eq_of_get?_eq fun key => ?_
  rw [OrderedMap.get?_sorted, get?_ofList, OrderedMap.get?_ofList]

theorem entries_eq_mergeSort (pairs : List (String × String)) :
    (ofList pairs).entries = (OrderedMap.ofList pairs).entries.mergeSort pairLe := by
  have hperm :
      (ofList pairs).entries.Perm ((OrderedMap.ofList pairs).entries.mergeSort pairLe) := by
    rw [ofList_eq_sorted]
    exact (OrderedMap.perm_entries_sorted _).trans (List.mergeSort_perm _ pairLe).symm
  have hentries : (ofList pairs).entries.Pairwise fun a b => pairLe a b = true :=
    (ofList pairs).ascending.imp fun hlt => pairLe_iff.mpr (Or.inl hlt)
  have htrans : ∀ a b c, pairLe a b = true → pairLe b c = true → pairLe a c = true :=
    fun _ _ _ => pairLe_trans
  have hsorted := List.pairwise_mergeSort htrans pairLe_total (OrderedMap.ofList pairs).entries
  exact hperm.eq_of_pairwise (fun a b _ _ => pairLe_antisymm) hentries hsorted

end SortedMap

section Reordering

variable {pairs others : List (String × String)}

theorem lookup_filter_key (pairs : List (String × String)) (key : String) :
    (pairs.filter fun pair => pair.1 = key).lookup key = pairs.lookup key := by
  induction pairs with
  | nil => rfl
  | cons head rest ih =>
    obtain ⟨other, value⟩ := head
    by_cases hkey : other = key
    · simp [hkey]
    · have hbeq : (key == other) = false := by simpa using Ne.symm hkey
      simp [hkey, List.lookup_cons, hbeq, ih]

theorem Reordered.sameMap (h : Reordered pairs others) : SameMap pairs others := by
  rw [← SortedMap.ofList_eq_iff]
  refine SortedMap.eq_of_get?_eq fun key => ?_
  rw [SortedMap.get?_ofList, SortedMap.get?_ofList, ← lookup_filter_key pairs.reverse,
    ← lookup_filter_key others.reverse, List.filter_reverse, List.filter_reverse, h key]

theorem reordered_of_perm (h : pairs.Perm others) (hkeys : (pairs.map (·.1)).Nodup) :
    Reordered pairs others := by
  intro key
  have hperm := h.filter fun pair => pair.1 = key
  have hkept : ∀ pair ∈ pairs.filter fun pair => pair.1 = key, pair.1 = key :=
    fun pair hpair => of_decide_eq_true (List.mem_filter.mp hpair).2
  have hdistinct : ((pairs.filter fun pair => pair.1 = key).map (·.1)).Nodup :=
    hkeys.sublist (List.filter_sublist.map _)
  -- At most one pair has the key, so there is nothing to exchange.
  generalize pairs.filter (fun pair => pair.1 = key) = kept at hperm hkept hdistinct ⊢
  cases kept with
  | nil => exact (List.nil_perm.mp hperm).symm
  | cons first rest =>
    cases rest with
    | nil => exact List.singleton_perm.mp hperm
    | cons second rest =>
      have hsame : first.1 = second.1 := by
        rw [hkept first (by simp), hkept second (by simp)]
      obtain ⟨hnew, -⟩ := List.nodup_cons.mp hdistinct
      exact absurd (List.mem_map.mpr ⟨second, List.mem_cons_self, hsame.symm⟩) hnew

end Reordering

namespace LibraryVariant

variable {v w : LibraryVariant}

def BuiltAlike (v w : LibraryVariant) : Prop :=
  ∃ (record : LibraryVariant) (values fields otherValues otherFields : List (String × String)),
    Reordered values otherValues ∧ Reordered fields otherFields ∧
      record.withPairs values fields = v ∧ record.withPairs otherValues otherFields = w

theorem BuiltAlike.eq (h : v.BuiltAlike w) : v = w := by
  obtain ⟨record, values, fields, otherValues, otherFields, hvalues, hfields, rfl, rfl⟩ := h
  rw [withPairs, withPairs, SortedMap.ofList_eq_iff.mpr hvalues.sameMap,
    SortedMap.ofList_eq_iff.mpr hfields.sameMap]

theorem withPairs_entries (v : LibraryVariant) (name : String) :
    withPairs { v with name } v.resValues.entries v.buildConfigFields.entries = v.rename name := by
  rw [withPairs, SortedMap.ofList_entries, SortedMap.ofList_entries, rename]

theorem interchangeable_withPairs_iff
    {values fields otherValues otherFields : List (String × String)} :
    (v.withPairs values fields).interchangeable (w.withPairs otherValues otherFields) = true ↔
      (v.withPairs [] []).interchangeable (w.withPairs [] []) = true ∧
        SameMap values otherValues ∧ SameMap fields otherFields := by
  simp only [interchangeable_iff, content, withPairs, Prod.mk.injEq, LibraryVariant.mk.injEq,
    SortedMap.ofList_eq_iff]
  tauto

end LibraryVariant

/-- Sorted pairs are canonical forms of finite maps. They are the items of an ordered map that is
filled with the pairs, sorted as pairs; they have ascending keys and exactly the last value given
for each key, and sorting them again changes nothing. Two lists of pairs have one sorted form
exactly if they denote the same map. So a copy that is built from the pairs of a record again keeps
its resource values and build configuration fields, and whether records are interchangeable depends
on the maps that their pairs denote and not on the order of the pairs. Only the pairs of one key
have an order that matters, and pairs with different keys may be given in any order. -/
theorem sortedPairs_canonical :
    (∀ pairs : List (String × String),
      (SortedMap.ofList pairs).entries = (OrderedMap.ofList pairs).entries.mergeSort pairLe ∧
      ((SortedMap.ofList pairs).entries.Pairwise fun a b => a.1 < b.1) ∧
      (∀ key value, (key, value) ∈ (SortedMap.ofList pairs).entries ↔ Gives pairs key value) ∧
      (SortedMap.ofList (SortedMap.ofList pairs).entries).entries =
        (SortedMap.ofList pairs).entries) ∧
    (∀ pairs others : List (String × String),
      (SortedMap.ofList pairs).entries = (SortedMap.ofList others).entries ↔
        SameMap pairs others) ∧
    (∀ (v : LibraryVariant) (name : String),
      LibraryVariant.withPairs { v with name } v.resValues.entries v.buildConfigFields.entries =
        v.rename name ∧
      (v.rename name).resValues = v.resValues ∧
      (v.rename name).buildConfigFields = v.buildConfigFields) ∧
    (∀ (v w : LibraryVariant) (values fields otherValues otherFields : List (String × String)),
      (v.withPairs values fields).interchangeable (w.withPairs otherValues otherFields) = true ↔
        (v.withPairs [] []).interchangeable (w.withPairs [] []) = true ∧
          SameMap values otherValues ∧ SameMap fields otherFields) ∧
    (∀ v v' w w' : LibraryVariant, v.BuiltAlike v' → w.BuiltAlike w' →
      v.interchangeable w = v'.interchangeable w') ∧
    ∀ pairs others : List (String × String), pairs.Perm others → (pairs.map (·.1)).Nodup →
      Reordered pairs others := by
  refine ⟨fun pairs => ⟨?_, ?_, fun key value => ?_, ?_⟩, fun pairs others => ?_, fun v name => ?_,
    fun v w values fields otherValues otherFields => ?_, fun v v' w w' hv hw => ?_,
    fun pairs others => reordered_of_perm⟩
  · exact SortedMap.entries_eq_mergeSort pairs
  · exact (SortedMap.ofList pairs).ascending
  · exact SortedMap.mem_entries_ofList_iff
  · rw [SortedMap.ofList_entries]
  · rw [SortedMap.entries_inj, SortedMap.ofList_eq_iff]
  · exact ⟨v.withPairs_entries name, rfl, rfl⟩
  · exact LibraryVariant.interchangeable_withPairs_iff
  · rw [hv.eq, hw.eq]

def debugWith (values : List (String × String)) : LibraryVariant :=
  LibraryVariant.withPairs { name := "debug" } values []

/-- Pairs with different keys are exchanged, and an earlier pair of a repeated key is left out. -/
theorem sortedPairs_canonical_exchanged :
    Reordered [("b", "3"), ("a", "2")] [("a", "2"), ("b", "3")] ∧
      SameMap [("b", "1"), ("a", "2"), ("b", "3")] [("a", "2"), ("b", "3")] ∧
      (debugWith [("b", "3"), ("a", "2")]).interchangeable (debugWith [("a", "2"), ("b", "3")]) =
        (debugWith [("a", "2"), ("b", "3")]).interchangeable
          (debugWith [("b", "3"), ("a", "2")]) := by
  obtain ⟨-, hentries, -, -, halike, hreordered⟩ := sortedPairs_canonical
  have hpairs : Reordered [("b", "3"), ("a", "2")] [("a", "2"), ("b", "3")] :=
    hreordered _ _ (by decide) (by decide)
  have hsame : SameMap [("b", "1"), ("a", "2"), ("b", "3")] [("a", "2"), ("b", "3")] :=
    (hentries _ _).mp (by decide)
  have hbuilt : ∀ {values others}, Reordered values others →
      (debugWith values).BuiltAlike (debugWith others) :=
    fun h => ⟨{ name := "debug" }, _, [], _, [], h, fun _ => rfl, rfl, rfl⟩
  exact ⟨hpairs, hsame, halike _ _ _ _ (hbuilt hpairs) (hbuilt fun key => (hpairs key).symm)⟩

end BuildVariants

import BuildVariants.Json
import BuildVariants.Proofs.FiniteMap

/-!
JSON values as data. Two values are the same data if arrays agree item by item and objects agree as
mappings, in which the last member under a key counts. Values have one canonical form exactly if
they are the same data: the canonical form of an object is the sorted map of its canonical members,
so this follows by induction on the nesting from the look-ups of that map. Objects whose distinct
keys stand in one order agree exactly if they agree member by member.
-/

set_option autoImplicit false
set_option relaxedAutoImplicit false

namespace BuildVariants.Json

/-- Induction on the nesting of values: what holds of the items of an array and of the values of an
object holds of the array and of the object. -/
@[elab_as_elim, induction_eliminator]
theorem induct {motive : Json → Prop} (null : motive .null) (bool : ∀ value, motive (.bool value))
    (int : ∀ value, motive (.int value)) (str : ∀ text, motive (.str text))
    (arr : ∀ items, (∀ item ∈ items, motive item) → motive (.arr items))
    (obj : ∀ members, (∀ member ∈ members, motive member.2) → motive (.obj members))
    (value : Json) : motive value :=
  @Json.rec motive (fun items => ∀ item ∈ items, motive item)
    (fun members => ∀ member ∈ members, motive member.2) (fun member => motive member.2)
    null bool int str arr obj
    (fun _ hitem => nomatch hitem)
    (fun _ _ hfirst hrest => List.forall_mem_cons.mpr ⟨hfirst, hrest⟩)
    (fun _ hmember => nomatch hmember)
    (fun _ _ hfirst hrest => List.forall_mem_cons.mpr ⟨hfirst, hrest⟩)
    (fun _ _ hvalue => hvalue) value

/-- Two values are the same data. The order of members does not count, and under a key that is
repeated only the last member does. -/
inductive Same : Json → Json → Prop
  | null : Same .null .null
  | bool (value : Bool) : Same (.bool value) (.bool value)
  | int (value : Int) : Same (.int value) (.int value)
  | str (text : String) : Same (.str text) (.str text)
  | arr {items others : List Json} (h : List.Forall₂ Same items others) :
    Same (.arr items) (.arr others)
  | obj {members others : List (String × Json)}
    (h : ∀ key, Option.Rel Same ((SortedMap.ofList members).get? key)
      ((SortedMap.ofList others).get? key)) : Same (.obj members) (.obj others)

variable {items others : List Json} {members : List (String × Json)} {a b : Json}

theorem canonical_arr (items : List Json) : (arr items).canonical = .arr (items.map canonical) := by
  have hitems : canonicalItems items = items.map canonical := by
    induction items with
    | nil => rfl
    | cons item rest ih => rw [canonicalItems, ih, List.map_cons]
  rw [canonical, hitems]

theorem canonical_obj (members : List (String × Json)) :
    (obj members).canonical = .obj ((SortedMap.ofList members).map canonical).entries := by
  have hmembers : canonicalMembers members =
      members.map fun member => (member.1, member.2.canonical) := by
    induction members with
    | nil => rfl
    | cons member rest ih => rw [canonicalMembers, ih, List.map_cons]
  rw [canonical, hmembers, SortedMap.ofList_map]

private theorem map_canonical_eq_iff
    (h : ∀ item ∈ items, ∀ other, item.canonical = other.canonical ↔ item.Same other) :
    items.map canonical = others.map canonical ↔ List.Forall₂ Same items others := by
  induction items generalizing others with
  | nil => cases others <;> simp
  | cons item items ih =>
    obtain ⟨hitem, hitems⟩ := List.forall_mem_cons.mp h
    cases others with
    | nil => simp
    | cons other others =>
      rw [List.map_cons, List.map_cons, List.cons_eq_cons, List.forall₂_cons, hitem, ih hitems]

private theorem map_canonical_option_eq_iff {x y : Option Json}
    (h : ∀ value ∈ x, ∀ other, value.canonical = other.canonical ↔ value.Same other) :
    x.map canonical = y.map canonical ↔ Option.Rel Same x y := by
  cases x with
  | none => cases y <;> simp
  | some value =>
    cases y with
    | none => simp
    | some other =>
      rw [Option.map_some, Option.map_some, Option.some.injEq, Option.rel_some_some, h value rfl]

theorem canonical_eq_iff : a.canonical = b.canonical ↔ a.Same b := by
  induction a generalizing b with
  | null =>
    cases b with
    | null => exact iff_of_true rfl .null
    | _ => exact iff_of_false (by simp [canonical]) nofun
  | bool value =>
    cases b with
    | bool other =>
      rw [canonical, canonical, bool.injEq]
      exact ⟨fun h => h ▸ .bool value, fun h => by cases h; rfl⟩
    | _ => exact iff_of_false (by simp [canonical]) nofun
  | int value =>
    cases b with
    | int other =>
      rw [canonical, canonical, int.injEq]
      exact ⟨fun h => h ▸ .int value, fun h => by cases h; rfl⟩
    | _ => exact iff_of_false (by simp [canonical]) nofun
  | str text =>
    cases b with
    | str other =>
      rw [canonical, canonical, str.injEq]
      exact ⟨fun h => h ▸ .str text, fun h => by cases h; rfl⟩
    | _ => exact iff_of_false (by simp [canonical]) nofun
  | arr items ih =>
    cases b with
    | arr others =>
      rw [canonical_arr, canonical_arr, arr.injEq,
        map_canonical_eq_iff fun item hitem _ => ih item hitem]
      exact ⟨.arr, fun h => by cases h with | arr h => exact h⟩
    | _ => exact iff_of_false (by simp [canonical]) nofun
  | obj members ih =>
    cases b with
    | obj others =>
      have hvalues : ∀ key, ∀ value ∈ (SortedMap.ofList members).get? key, ∀ other : Json,
          value.canonical = other.canonical ↔ value.Same other :=
        fun key value hvalue _ => ih (key, value) (SortedMap.mem_of_get?_ofList hvalue)
      rw [canonical_obj, canonical_obj, obj.injEq, SortedMap.entries_inj]
      constructor
      · intro h
        refine .obj fun key => (map_canonical_option_eq_iff (hvalues key)).mp ?_
        rw [← SortedMap.get?_map, h, SortedMap.get?_map]
      · intro h
        cases h with
        | obj h =>
          refine SortedMap.eq_of_get?_eq fun key => ?_
          rw [SortedMap.get?_map, SortedMap.get?_map]
          exact (map_canonical_option_eq_iff (hvalues key)).mpr (h key)
    | _ => exact iff_of_false (by simp [canonical]) nofun

theorem canonical_same (value : Json) : value.canonical.Same value := by
  rw [← canonical_eq_iff]
  induction value with
  | null => rfl
  | bool value => rfl
  | int value => rfl
  | str text => rfl
  | arr items ih =>
    rw [canonical_arr, canonical_arr, List.map_map, arr.injEq]
    exact List.map_congr_left ih
  | obj members ih =>
    rw [canonical_obj, canonical_obj, SortedMap.ofList_entries, obj.injEq, SortedMap.entries_inj]
    refine SortedMap.eq_of_get?_eq fun key => ?_
    rw [SortedMap.get?_map, SortedMap.get?_map, Option.map_map]
    refine Option.map_congr fun value hvalue => ?_
    exact ih (key, value) (SortedMap.mem_of_get?_ofList hvalue)

section Objects

variable {x y : Option String} {text other key : String} {others : List (String × Json)}

private theorem lookup_eq_none (h : key ∉ members.map (·.1)) : members.lookup key = none := by
  rw [List.lookup_eq_none_iff]
  rintro ⟨k, value⟩ hmem
  rw [bne_iff_ne]
  rintro rfl
  exact h (List.mem_map_of_mem hmem)

private theorem rel_lookup_iff {rel : Json → Json → Prop}
    (hkeys : members.map (·.1) = others.map (·.1)) (h : (members.map (·.1)).Nodup) :
    (∀ key, Option.Rel rel (members.lookup key) (others.lookup key)) ↔
      List.Forall₂ (fun member other => rel member.2 other.2) members others := by
  induction members generalizing others with
  | nil =>
    obtain rfl := List.map_eq_nil_iff.mp hkeys.symm
    simp
  | cons member members ih =>
    cases others with
    | nil => cases hkeys
    | cons other others =>
      obtain ⟨key, value⟩ := member
      obtain ⟨key', value'⟩ := other
      rw [List.map_cons, List.map_cons, List.cons_eq_cons] at hkeys
      obtain ⟨rfl, hkeys⟩ : key = key' ∧ _ := hkeys
      obtain ⟨hfresh, h⟩ := List.nodup_cons.mp h
      rw [List.forall₂_cons, ← ih hkeys h]
      constructor
      · intro hrel
        refine ⟨by simpa using hrel key, fun k => ?_⟩
        by_cases hk : k = key
        · rw [hk, lookup_eq_none hfresh, lookup_eq_none (hkeys ▸ hfresh)]
          exact .none
        · have hbeq : (k == key) = false := by simpa using hk
          simpa [List.lookup_cons, hbeq] using hrel k
      · rintro ⟨hvalue, hrel⟩ k
        by_cases hk : k = key
        · simpa [hk] using hvalue
        · have hbeq : (k == key) = false := by simpa using hk
          simpa [List.lookup_cons, hbeq] using hrel k

theorem same_obj_iff_forall₂ (hkeys : members.map (·.1) = others.map (·.1))
    (h : (members.map (·.1)).Nodup) :
    (obj members).Same (.obj others) ↔
      List.Forall₂ (fun member other => member.2.Same other.2) members others := by
  have hmembers := SortedMap.get?_ofList_of_nodup h
  have hothers := SortedMap.get?_ofList_of_nodup (hkeys ▸ h)
  rw [← rel_lookup_iff hkeys h]
  constructor
  · intro hsame key
    cases hsame with
    | obj hsame =>
      rw [← hmembers, ← hothers]
      exact hsame key
  · intro hrel
    refine .obj fun key => ?_
    rw [hmembers, hothers]
    exact hrel key

theorem Same.mem_keys_iff (h : (Json.obj members).Same (.obj others)) :
    key ∈ members.map (·.1) ↔ key ∈ others.map (·.1) := by
  have hrel : Option.Rel Same ((SortedMap.ofList members).get? key)
      ((SortedMap.ofList others).get? key) := by
    cases h with
    | obj h => exact h key
  rw [← SortedMap.mem_keys_ofList, ← SortedMap.mem_keys_ofList, SortedMap.mem_keys_iff,
    SortedMap.mem_keys_iff]
  generalize (SortedMap.ofList members).get? key = found at hrel
  generalize (SortedMap.ofList others).get? key = found' at hrel
  cases hrel with
  | some _ => simp
  | none => simp

theorem same_str_iff : (str text).Same (.str other) ↔ text = other :=
  ⟨fun h => by cases h; rfl, fun h => h ▸ .str text⟩

theorem same_optionalText_iff : (optionalText x).Same (optionalText y) ↔ x = y := by
  cases x with
  | none =>
    cases y with
    | none => exact iff_of_true .null rfl
    | some other => exact iff_of_false nofun nofun
  | some text =>
    cases y with
    | none => exact iff_of_false nofun nofun
    | some other => exact same_str_iff.trans Option.some_inj.symm

end Objects

end BuildVariants.Json

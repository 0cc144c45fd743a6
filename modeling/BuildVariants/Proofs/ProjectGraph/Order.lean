import BuildVariants.ProjectGraph.Order
import BuildVariants.Proofs.ProjectGraph.Built
import Mathlib.Data.Set.Finite.Basic
import Mathlib.Order.WellFounded

/-!
The order of the projects lists no path twice, and it lists all paths of an acyclic graph. The paths
that have not been taken always wait for exactly those of their dependencies that have not been
taken either. Among the paths of an acyclic graph there is then one that waits for nothing.
-/

set_option autoImplicit false
set_option relaxedAutoImplicit false

namespace BuildVariants.ProjectGraph

namespace Pending

variable {g : ProjectGraph} {pending : Pending} {path : String}

def paths (pending : Pending) : List String := pending.map (·.1)

/-- Each path waits for exactly those of its dependencies that have not been taken. -/
def Waits (g : ProjectGraph) (pending : Pending) : Prop :=
  ∀ entry ∈ pending, ∀ dependency, dependency ∈ entry.2 ↔
    dependency ∈ pending.paths ∧ g.Depends entry.1 dependency

theorem paths_take : (pending.take path).paths = pending.paths.filter (· ≠ path) := by
  simp only [paths, take, List.map_map, List.filter_map]
  rfl

theorem mem_paths_take {other : String} :
    other ∈ (pending.take path).paths ↔ other ∈ pending.paths ∧ other ≠ path := by
  rw [paths_take, List.mem_filter, decide_eq_true_iff]

theorem Waits.take (h : Waits g pending) : Waits g (pending.take path) := by
  intro entry hentry dependency
  obtain ⟨old, hold, rfl⟩ := List.mem_map.mp hentry
  obtain ⟨hold, -⟩ := List.mem_filter.mp hold
  rw [mem_paths_take, List.mem_filter, decide_eq_true_iff, h old hold]
  exact and_right_comm

theorem length_take_lt (h : path ∈ pending.paths) :
    (pending.take path).length < pending.length := by
  obtain ⟨entry, hentry, rfl⟩ := List.mem_map.mp h
  rw [take, List.length_map]
  exact List.length_filter_lt_length_iff_exists.mpr ⟨entry, hentry, by simp⟩

theorem mem_paths_of_mem_order {count : Nat} {other : String} (h : other ∈ order count pending) :
    other ∈ pending.paths := by
  induction count generalizing pending with
  | zero => simp [order] at h
  | succ count ih =>
    rw [order] at h
    split at h
    · simp at h
    · next first waits hfind =>
      rcases List.mem_cons.mp h with rfl | hrest
      · exact List.mem_map.mpr ⟨_, List.mem_of_find?_eq_some hfind, rfl⟩
      · exact (mem_paths_take.mp (ih hrest)).1

theorem nodup_order (count : Nat) (pending : Pending) : (order count pending).Nodup := by
  induction count generalizing pending with
  | zero => exact List.nodup_nil
  | succ count ih =>
    rw [order]
    split
    · exact List.nodup_nil
    · next first waits hfind =>
      refine List.nodup_cons.mpr ⟨fun hrest => ?_, ih _⟩
      exact (mem_paths_take.mp (mem_paths_of_mem_order hrest)).2 rfl

/-- Where no dependency is circular, one of the pending paths waits for nothing. -/
theorem Waits.exists_ready (h : Waits g pending) (hacyclic : g.Acyclic)
    (hpath : path ∈ pending.paths) : ∃ entry ∈ pending, entry.2 = [] := by
  -- A pending path all of whose transitive dependencies are taken waits for nothing.
  let dependsOn (a b : { path // path ∈ pending.paths }) : Prop :=
    Relation.TransGen g.Depends b.1 a.1
  have htrans : IsTrans { path // path ∈ pending.paths } dependsOn :=
    ⟨fun _ _ _ hab hbc => hbc.trans hab⟩
  have hirrefl : Std.Irrefl dependsOn := ⟨fun a ha => hacyclic a.1 ha⟩
  have hwf : WellFounded dependsOn := Finite.wellFounded_of_trans_of_irrefl dependsOn
  obtain ⟨⟨first, hfirst⟩, -, hmin⟩ := hwf.has_min Set.univ ⟨⟨path, hpath⟩, Set.mem_univ _⟩
  obtain ⟨entry, hentry, rfl⟩ := List.mem_map.mp hfirst
  refine ⟨entry, hentry, List.eq_nil_iff_forall_not_mem.mpr fun dependency hdependency => ?_⟩
  obtain ⟨hpending, hdepends⟩ := (h entry hentry dependency).mp hdependency
  exact hmin ⟨dependency, hpending⟩ (Set.mem_univ _) (Relation.TransGen.single hdepends)

theorem Waits.mem_order (h : Waits g pending) (hacyclic : g.Acyclic) {count : Nat}
    (hcount : pending.length ≤ count) (hpath : path ∈ pending.paths) :
    path ∈ order count pending := by
  induction count generalizing pending with
  | zero =>
    obtain rfl := List.length_eq_zero_iff.mp (Nat.le_zero.mp hcount)
    simp [paths] at hpath
  | succ count ih =>
    rw [order]
    split
    · next hfind =>
      obtain ⟨entry, hentry, hready⟩ := h.exists_ready hacyclic hpath
      have hblocked := List.find?_eq_none.mp hfind entry hentry
      simp [hready] at hblocked
    · next first waits hfind =>
      by_cases heq : path = first
      · exact heq ▸ List.mem_cons_self
      · have hmem : first ∈ pending.paths :=
          List.mem_map.mpr ⟨_, List.mem_of_find?_eq_some hfind, rfl⟩
        have hlength := length_take_lt hmem
        have hshort : (pending.take first).length ≤ count := by omega
        exact List.mem_cons_of_mem _ (ih h.take hshort (mem_paths_take.mpr ⟨hpath, heq⟩))

end Pending

variable {g : ProjectGraph}

theorem paths_pending (g : ProjectGraph) : g.pending.paths = g.nodes.sorted.keys := by
  simp [Pending.paths, pending, Function.comp_def]

theorem waits_pending (g : ProjectGraph) : Pending.Waits g g.pending := by
  intro entry hentry dependency
  obtain ⟨path, -, rfl⟩ := List.mem_map.mp hentry
  rw [mem_dependencyPaths, paths_pending, OrderedMap.mem_keys_sorted]
  constructor
  · intro hdepends
    exact ⟨hdepends.mem_keys, hdepends⟩
  · rintro ⟨-, hdepends⟩
    exact hdepends

theorem nodup_dependencyFirst (g : ProjectGraph) : g.dependencyFirst.Nodup :=
  Pending.nodup_order _ _

theorem mem_keys_of_mem_dependencyFirst {path : String} (h : path ∈ g.dependencyFirst) :
    path ∈ g.nodes.keys := by
  have hpending := Pending.mem_paths_of_mem_order h
  rwa [paths_pending, OrderedMap.mem_keys_sorted] at hpending

theorem Acyclic.mem_dependencyFirst (h : g.Acyclic) {path : String} (hpath : path ∈ g.nodes.keys) :
    path ∈ g.dependencyFirst := by
  refine (waits_pending g).mem_order h ?_ ?_
  · rw [pending, List.length_map, SortedMap.length_keys, SortedMap.size]
    exact (OrderedMap.perm_entries_sorted g.nodes).length_eq.le
  · rw [paths_pending, OrderedMap.mem_keys_sorted]
    exact hpath

end BuildVariants.ProjectGraph

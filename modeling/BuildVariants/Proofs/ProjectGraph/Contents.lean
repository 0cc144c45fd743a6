import BuildVariants.Proofs.ProjectGraph.Search

/-!
The contents of a graph are its projects and its dependencies. Two graphs with the same contents may
list both in different orders, but they have the same paths in ascending order, each with the same
dependencies, so they have the same order to be visited in.
-/

set_option autoImplicit false
set_option relaxedAutoImplicit false

namespace BuildVariants

namespace ProjectGraph

/-- Two graphs have the same projects under their paths, and the same pairs of a dependent and a
dependency. -/
structure SameContents (g other : ProjectGraph) : Prop where
  project : ∀ path p, g.project path = .ok p ↔ other.project path = .ok p
  depends : ∀ dependent dependency,
    g.Depends dependent dependency ↔ other.Depends dependent dependency

variable {g other : ProjectGraph}

private theorem eq_unknownProject_of_project {path : String} {fault : Fault}
    (h : g.project path = .error fault) : fault = .unknownProject path := by
  rw [project] at h
  split at h
  · cases h
  · cases h
    rfl

namespace SameContents

theorem project_eq (h : g.SameContents other) : g.project = other.project := by
  funext path
  cases hproject : g.project path with
  | ok p => exact ((h.project path p).mp hproject).symm
  | error fault =>
    cases hother : other.project path with
    | ok p => exact hproject.symm.trans ((h.project path p).mpr hother)
    | error second =>
      rw [eq_unknownProject_of_project hproject, eq_unknownProject_of_project hother]

theorem mem_keys_iff (h : g.SameContents other) {path : String} :
    path ∈ g.nodes.keys ↔ path ∈ other.nodes.keys := by
  rw [← exists_project_iff, ← exists_project_iff]
  exact exists_congr fun p => h.project path p

theorem keys_sorted (h : g.SameContents other) : g.nodes.sorted.keys = other.nodes.sorted.keys := by
  apply eq_of_pairwise_lt (SortedMap.pairwise_keys _) (SortedMap.pairwise_keys _)
  intro path
  rw [OrderedMap.mem_keys_sorted, OrderedMap.mem_keys_sorted, h.mem_keys_iff]

theorem size_eq (h : g.SameContents other) : g.size = other.size := by
  have hperm : g.nodes.keys.Perm other.nodes.keys :=
    (List.perm_ext_iff_of_nodup g.nodes.distinct other.nodes.distinct).mpr fun _ => h.mem_keys_iff
  have hlength := hperm.length_eq
  rwa [OrderedMap.keys, OrderedMap.keys, List.length_map, List.length_map] at hlength

theorem dependencyPaths_eq (h : g.SameContents other) :
    g.dependencyPaths = other.dependencyPaths := by
  funext path
  apply ((listsInOrder_dependencyPaths g path).congr (h.depends path)).unique
  exact listsInOrder_dependencyPaths other path

theorem acyclic_iff (h : g.SameContents other) : g.Acyclic ↔ other.Acyclic := by
  have hdepends : g.Depends = other.Depends :=
    funext fun dependent => funext fun dependency => propext (h.depends dependent dependency)
  rw [Acyclic, Acyclic, hdepends]

theorem dependencyFirst_eq (h : g.SameContents other) :
    g.dependencyFirst = other.dependencyFirst := by
  rw [dependencyFirst, dependencyFirst, pending, pending, h.size_eq, h.keys_sorted,
    h.dependencyPaths_eq]

theorem topologicalOrder_eq (h : g.SameContents other) (hacyclic : g.Acyclic) :
    g.topologicalOrder = other.topologicalOrder := by
  rw [topologicalOrder, topologicalOrder, hacyclic.orderedPaths_eq,
    (h.acyclic_iff.mp hacyclic).orderedPaths_eq, h.dependencyFirst_eq, h.project_eq]

end SameContents

end ProjectGraph

end BuildVariants

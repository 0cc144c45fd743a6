import BuildVariants.ProjectGraph.Cycle
import BuildVariants.Proofs.ProjectGraph.Order
import BuildVariants.Proofs.Stage

/-!
The search for a cycle fails only where there is one: each path on the trail of a search is one that
the searched path depends on, so a link back to the trail closes a cycle. An acyclic graph therefore
has an order, which lists each of its projects once.
-/

set_option autoImplicit false
set_option relaxedAutoImplicit false

namespace BuildVariants.ProjectGraph

variable {g : ProjectGraph}

theorem not_acyclic_of_search_eq_error {depth : Nat} {trail done cycle : List String}
    {path : String} (htrail : ∀ earlier ∈ trail, Relation.TransGen g.Depends path earlier)
    (h : g.search depth trail done path = .error cycle) : ¬ g.Acyclic := by
  induction depth generalizing trail done path with
  | zero => simp [search] at h
  | succ depth ih =>
    rw [search] at h
    rcases bind_eq_error_iff.mp h with hlinks | ⟨result, -, hpure⟩
    · obtain ⟨next, hnext, state, hstep⟩ := exists_mem_of_foldlM_eq_error hlinks
      have hdepends : Relation.TransGen g.Depends next path := Relation.TransGen.single hnext
      have hreaches : ∀ earlier ∈ path :: trail, Relation.TransGen g.Depends next earlier := by
        intro earlier hearlier
        rcases List.mem_cons.mp hearlier with rfl | hearlier
        · exact hdepends
        · exact hdepends.trans (htrail earlier hearlier)
      split at hstep
      · next hback =>
        intro hacyclic
        exact hacyclic next (hreaches next (List.contains_iff_mem.mp hback))
      · split at hstep
        · cases hstep
        · exact ih hreaches hstep
    · simp [pure, Except.pure] at hpure

theorem Acyclic.findCycle_eq_none (h : g.Acyclic) : g.findCycle = none := by
  rw [findCycle]
  split
  · next cycle hsearch =>
    obtain ⟨path, -, done, hstep⟩ := exists_mem_of_foldlM_eq_error hsearch
    split at hstep
    · cases hstep
    · exact absurd h (not_acyclic_of_search_eq_error (by simp) hstep)
  · rfl

theorem Acyclic.orderedPaths_eq (h : g.Acyclic) : g.orderedPaths = .ok g.dependencyFirst := by
  rw [orderedPaths, h.findCycle_eq_none]

theorem eq_dependencyFirst_of_orderedPaths {paths : List String}
    (h : g.orderedPaths = .ok paths) : paths = g.dependencyFirst := by
  rw [orderedPaths] at h
  split at h
  · cases h
  · cases h
    rfl

theorem topologicalOrder_eq_ok_iff {order : List Project} :
    g.topologicalOrder = .ok order ↔ ∃ paths, g.orderedPaths = .ok paths ∧
      List.Forall₂ (fun path project => g.project path = .ok project) paths order := by
  rw [topologicalOrder, bind_eq_ok_iff]
  simp only [mapM_eq_ok_iff]

theorem Built.of_topologicalOrder (h : g.Built) {order : List Project}
    (horder : g.topologicalOrder = .ok order) :
    g.orderedPaths = .ok (order.map (·.path)) ∧
      ∀ project ∈ order, g.project project.path = .ok project := by
  obtain ⟨paths, hpaths, hprojects⟩ := topologicalOrder_eq_ok_iff.mp horder
  rw [hpaths]
  clear horder hpaths
  induction hprojects with
  | nil => simp
  | cons hproject hrest ih =>
    obtain ⟨hpaths, hprojects⟩ := ih
    have hpath := h.path_eq_of_project hproject
    rw [List.map_cons, hpath, ← Except.ok.inj hpaths]
    refine ⟨rfl, List.forall_mem_cons.mpr ⟨?_, hprojects⟩⟩
    rw [hpath]
    exact hproject

theorem nodup_of_orderedPaths {paths : List String} (h : g.orderedPaths = .ok paths) :
    paths.Nodup := by
  rw [eq_dependencyFirst_of_orderedPaths h]
  exact nodup_dependencyFirst g

theorem exists_topologicalOrder {paths : List String} (h : g.orderedPaths = .ok paths) :
    ∃ order, g.topologicalOrder = .ok order := by
  obtain rfl := eq_dependencyFirst_of_orderedPaths h
  cases horder : g.topologicalOrder with
  | ok order => exact ⟨order, rfl⟩
  | error fault =>
    rw [topologicalOrder, h] at horder
    obtain ⟨path, hpath, hfault⟩ := exists_mem_of_mapM_eq_error horder
    obtain ⟨p, hp⟩ := exists_project_iff.mpr (mem_keys_of_mem_dependencyFirst hpath)
    rw [hp] at hfault
    cases hfault

end BuildVariants.ProjectGraph

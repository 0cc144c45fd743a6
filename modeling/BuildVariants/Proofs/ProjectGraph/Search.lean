import BuildVariants.Proofs.ProjectGraph.Cycle
import BuildVariants.Proofs.ProjectGraph.Edits

/-!
The search for a cycle misses none. A path is done once everything that depends on it is done, so no
cycle goes through a path that is done. A search that meets no cycle leaves all paths done, because
the trail that leads to a path has no path twice and is never longer than the graph. A built graph
therefore has an order exactly if it is acyclic.
-/

set_option autoImplicit false
set_option relaxedAutoImplicit false

namespace BuildVariants.ProjectGraph

variable {g : ProjectGraph}

/-- Paths whose search is done, the last one first. Whatever depends on a path was done before
it. -/
inductive Explored (g : ProjectGraph) : List String → Prop
  | nil : Explored g []
  | cons {path : String} {done : List String}
      (hnext : ∀ next ∈ g.dependentPaths path, next ∈ done) (hdone : Explored g done) :
      Explored g (path :: done)

theorem Explored.acc {done : List String} (h : g.Explored done) :
    ∀ path ∈ done, Acc g.Depends path := by
  induction h with
  | nil => simp
  | cons hnext hdone ih =>
    exact List.forall_mem_cons.mpr ⟨.intro _ fun next hdepends => ih next (hnext next hdepends), ih⟩

theorem not_transGen_of_acc {path : String} (h : Acc g.Depends path) :
    ¬ Relation.TransGen g.Depends path path := by
  have hacc := h.transGen
  clear h
  induction hacc with
  | intro path _ ih => exact fun hcycle => ih path hcycle hcycle

private theorem explored_foldlM
    {step : List String → String → Except (List String) (List String)} {paths : List String}
    (hstep : ∀ path ∈ paths, ∀ done next, g.Explored done → step done path = .ok next →
      g.Explored next ∧ done ⊆ next ∧ path ∈ next)
    {done result : List String} (hdone : g.Explored done)
    (h : paths.foldlM step done = .ok result) :
    g.Explored result ∧ done ⊆ result ∧ ∀ path ∈ paths, path ∈ result := by
  induction paths generalizing done with
  | nil =>
    cases h
    exact ⟨hdone, List.Subset.refl _, by simp⟩
  | cons path rest ih =>
    rw [List.foldlM_cons] at h
    obtain ⟨hfirst, hrest⟩ := List.forall_mem_cons.mp hstep
    obtain ⟨next, hnext, hlater⟩ := bind_eq_ok_iff.mp h
    obtain ⟨hexplored, hkept, hpath⟩ := hfirst done next hdone hnext
    obtain ⟨hresult, hgrown, hothers⟩ := ih hrest hexplored hlater
    exact ⟨hresult, List.Subset.trans hkept hgrown,
      List.forall_mem_cons.mpr ⟨hgrown hpath, hothers⟩⟩

/-- A search that meets no cycle leaves its path done. -/
theorem explored_search (hbuilt : g.Built) {depth : Nat} {trail done result : List String}
    {path : String} (htrail : (path :: trail).Nodup)
    (hkeys : ∀ other ∈ path :: trail, other ∈ g.nodes.keys)
    (hdepth : g.size ≤ depth + trail.length) (hdone : g.Explored done)
    (h : g.search depth trail done path = .ok result) :
    g.Explored result ∧ done ⊆ result ∧ path ∈ result := by
  induction depth generalizing trail done result path with
  | zero =>
    have hlength := (List.subperm_of_subset htrail hkeys).length_le
    have hsize : g.nodes.keys.length = g.size := List.length_map _
    rw [List.length_cons] at hlength
    omega
  | succ depth ih =>
    rw [search] at h
    obtain ⟨explored, hlinks, hresult⟩ := bind_eq_ok_iff.mp h
    cases hresult
    have hsteps := explored_foldlM (g := g) ?_ hdone hlinks
    · obtain ⟨hexplored, hkept, hnext⟩ := hsteps
      exact ⟨.cons hnext hexplored, fun other hother => List.mem_cons_of_mem path (hkept hother),
        List.mem_cons_self⟩
    · intro next hnext before after hbefore hstep
      split at hstep
      · cases hstep
      · next hback =>
        split at hstep
        · next hknown =>
          cases hstep
          exact ⟨hbefore, List.Subset.refl _, List.contains_iff_mem.mp hknown⟩
        · refine ih ?_ ?_ ?_ hbefore hstep
          · exact List.nodup_cons.mpr ⟨fun hmem => hback (List.contains_iff_mem.mpr hmem), htrail⟩
          · exact List.forall_mem_cons.mpr ⟨hbuilt.mem_keys_of_depends hnext, hkeys⟩
          · rw [List.length_cons]
            omega

theorem Built.acyclic_of_findCycle_eq_none (h : g.Built) (hnone : g.findCycle = none) :
    g.Acyclic := by
  rw [findCycle] at hnone
  split at hnone
  · cases hnone
  · next done hsearch =>
    have hsearches := explored_foldlM (g := g) ?_ .nil hsearch
    · obtain ⟨hexplored, -, hall⟩ := hsearches
      intro path hcycle
      obtain ⟨dependency, hdepends, -⟩ := Relation.TransGen.head'_iff.mp hcycle
      have hdone := hall path (h.mem_keys_of_depends hdepends)
      exact not_transGen_of_acc (hexplored.acc path hdone) hcycle
    · intro path hpath before after hbefore hstep
      split at hstep
      · next hknown =>
        cases hstep
        exact ⟨hbefore, List.Subset.refl _, List.contains_iff_mem.mp hknown⟩
      · refine explored_search h (List.nodup_singleton path) ?_ (Nat.le_add_right _ _) hbefore hstep
        simpa using hpath

theorem Built.findCycle_eq_none_iff (h : g.Built) : g.findCycle = none ↔ g.Acyclic :=
  ⟨h.acyclic_of_findCycle_eq_none, Acyclic.findCycle_eq_none⟩

theorem Built.acyclic_of_topologicalOrder (h : g.Built) {order : List Project}
    (horder : g.topologicalOrder = .ok order) : g.Acyclic := by
  obtain ⟨hpaths, -⟩ := h.of_topologicalOrder horder
  apply h.acyclic_of_findCycle_eq_none
  rw [orderedPaths] at hpaths
  split at hpaths
  · cases hpaths
  · assumption

/-- A graph with a cycle has no order, and the fault that says so names a cycle. -/
theorem Built.exists_cycle (h : g.Built) (hcyclic : ¬ g.Acyclic) :
    ∃ cycle, g.topologicalOrder = .error (.dependencyCycle cycle) := by
  rw [← h.findCycle_eq_none_iff] at hcyclic
  obtain ⟨cycle, hcycle⟩ := Option.ne_none_iff_exists'.mp hcyclic
  refine ⟨cycle, ?_⟩
  rw [topologicalOrder, orderedPaths, hcycle]
  rfl

end BuildVariants.ProjectGraph

import BuildVariants.Proofs.ProjectGraph.Search
import Mathlib.Data.List.Chain

/-!
The cycle that the search reports. On the trail of a search each path depends on the next one, and
no path is on it twice. A link back to the trail therefore closes a cycle, which consists of the
trail up to the linked path. The report goes from each path to one that it depends on, although the
search goes from a path to its dependents.
-/

set_option autoImplicit false
set_option relaxedAutoImplicit false

namespace BuildVariants.ProjectGraph

variable {g : ProjectGraph}

/-- The listed paths go around a cycle: each of them depends directly on the next, the last one is
the first one, and there is no other repetition. -/
def GoesAround (g : ProjectGraph) (paths : List String) : Prop :=
  ∃ first others, paths = first :: others ++ [first] ∧ (first :: others).Nodup ∧
    paths.IsChain g.Depends

theorem takeWhile_ne_append {before after : List String} {path : String} (h : path ∉ before) :
    (before ++ path :: after).takeWhile (· ≠ path) = before := by
  rw [List.takeWhile_append_of_pos, List.takeWhile_cons_of_neg, List.append_nil]
  · simp
  · intro other hother
    exact decide_eq_true fun heq => h (heq ▸ hother)

theorem goesAround_closedCycle {path back : String} {trail : List String}
    (hnodup : (path :: trail).Nodup) (hchain : (path :: trail).IsChain g.Depends)
    (hback : back ∈ path :: trail) (hlink : g.Depends back path) :
    g.GoesAround (closedCycle (path :: trail) back) := by
  obtain ⟨before, after, htrail⟩ := List.append_of_mem hback
  rw [htrail] at hnodup hchain
  have hfirst : back ∉ before := by
    intro hmem
    exact (List.nodup_append.mp hnodup).2.2 back hmem back List.mem_cons_self rfl
  have hclosed : closedCycle (path :: trail) back = back :: before ++ [back] := by
    rw [closedCycle, htrail, takeWhile_ne_append hfirst]
  refine ⟨back, before, hclosed, ?_, ?_⟩
  · exact List.nodup_cons.mpr ⟨hfirst, (List.nodup_append.mp hnodup).1⟩
  · have hround : (before ++ [back]).IsChain g.Depends := by
      rw [List.append_cons] at hchain
      exact hchain.left_of_append
    rw [hclosed, List.cons_append]
    refine List.isChain_cons.mpr ⟨?_, hround⟩
    -- The next path of the cycle is the head of the trail, also where the cycle is one path long.
    intro next hnext
    cases before with
    | nil =>
      cases htrail
      cases hnext
      exact hlink
    | cons head rest =>
      cases htrail
      cases hnext
      exact hlink

/-- What a search reports goes around a cycle. -/
theorem goesAround_of_search_eq_error {depth : Nat} {trail done cycle : List String}
    {path : String} (hnodup : (path :: trail).Nodup)
    (hchain : (path :: trail).IsChain g.Depends)
    (h : g.search depth trail done path = .error cycle) : g.GoesAround cycle := by
  induction depth generalizing trail done path with
  | zero => simp [search] at h
  | succ depth ih =>
    rw [search] at h
    rcases bind_eq_error_iff.mp h with hlinks | ⟨result, -, hpure⟩
    · obtain ⟨next, hdepends, state, hstep⟩ := exists_mem_of_foldlM_eq_error hlinks
      split at hstep
      · next hback =>
        cases hstep
        exact goesAround_closedCycle hnodup hchain (List.contains_iff_mem.mp hback) hdepends
      · next hfresh =>
        split at hstep
        · cases hstep
        · refine ih ?_ ?_ hstep
          · exact List.nodup_cons.mpr ⟨fun hmem => hfresh (List.contains_iff_mem.mpr hmem), hnodup⟩
          · exact List.isChain_cons_cons.mpr ⟨hdepends, hchain⟩
    · simp [pure, Except.pure] at hpure

theorem goesAround_of_findCycle {cycle : List String} (h : g.findCycle = some cycle) :
    g.GoesAround cycle := by
  rw [findCycle] at h
  split at h
  · next found hsearch =>
    cases h
    obtain ⟨path, -, done, hstep⟩ := exists_mem_of_foldlM_eq_error hsearch
    split at hstep
    · cases hstep
    · exact goesAround_of_search_eq_error (List.nodup_singleton path)
        (List.isChain_singleton path) hstep
  · cases h

/-- The search for a cycle of a built graph finds none exactly if no path depends on itself, be it
directly or through others. What it finds goes around a cycle along the dependencies. -/
theorem Built.findCycle_sound_and_complete (h : g.Built) :
    (g.findCycle = none ↔ ∀ path, ¬ Relation.TransGen g.Depends path path) ∧
      ∀ cycle, g.findCycle = some cycle → g.GoesAround cycle :=
  ⟨h.findCycle_eq_none_iff, fun _ hcycle => goesAround_of_findCycle hcycle⟩

def triangleGraph : ProjectGraph where
  nodes := ⟨[(":base", ⟨⟨":base", true⟩, [":a"]⟩), (":a", ⟨⟨":a", true⟩, [":c"]⟩),
    (":b", ⟨⟨":b", true⟩, [":a"]⟩), (":c", ⟨⟨":c", true⟩, [":b"]⟩)], by decide⟩

theorem built_triangleGraph : triangleGraph.Built := by
  have hbase := Built.addProject (p := ⟨":base", true⟩) .empty rfl
  have ha := hbase.addProject (p := ⟨":a", true⟩) rfl
  have hb := ha.addProject (p := ⟨":b", true⟩) rfl
  have hc := hb.addProject (p := ⟨":c", true⟩) rfl
  have houtside := hc.addDependency (show addDependency _ ":a" ":base" = .ok _ from rfl)
  have hfirst := houtside.addDependency (show addDependency _ ":a" ":b" = .ok _ from rfl)
  have hsecond := hfirst.addDependency (show addDependency _ ":b" ":c" = .ok _ from rfl)
  exact hsecond.addDependency (show addDependency _ ":c" ":a" = .ok triangleGraph from rfl)

/-- The search enters the circle from outside and reports the circle alone. -/
theorem findCycle_sound_and_complete_triangle :
    triangleGraph.findCycle = some [":a", ":b", ":c", ":a"] ∧
      triangleGraph.GoesAround [":a", ":b", ":c", ":a"] ∧
      ¬ ∀ path, ¬ Relation.TransGen triangleGraph.Depends path path := by
  have hfound : triangleGraph.findCycle = some [":a", ":b", ":c", ":a"] := by decide +kernel
  obtain ⟨hnone, hsound⟩ := built_triangleGraph.findCycle_sound_and_complete
  refine ⟨hfound, hsound _ hfound, ?_⟩
  rw [← hnone, hfound]
  exact Option.some_ne_none _

end BuildVariants.ProjectGraph

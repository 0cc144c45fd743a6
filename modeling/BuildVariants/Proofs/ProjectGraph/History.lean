import BuildVariants.Proofs.History
import BuildVariants.Proofs.ProjectGraph.Cycle
import BuildVariants.Proofs.ProjectGraph.Digraph

/-!
What a graph is after a history of calls, of which any may have failed. Its projects are the last
ones that were added under their paths, and its dependencies are those whose calls succeeded. One
call says how both change, and the induction is on the last call of a history. A directed graph that
is edited in place by the same calls has the same projects and edges, so each of its nodes carries a
project.
-/

set_option autoImplicit false
set_option relaxedAutoImplicit false

namespace BuildVariants.ProjectGraph

def afterEdits (edits : List Edit) : ProjectGraph := edits.foldl afterEdit .empty

def Added (edits : List Edit) (path : String) : Prop := ∃ e ∈ edits, e.AddsUnder path

/-- A project was added under a path, and none was added there later. -/
def LastAdded (edits : List Edit) (path : String) (p : Project) : Prop :=
  Stands edits (fun e => e.AddsUnder path ∧ e = .addProject p) (Edit.AddsUnder path)

/-- A call that adds a dependency succeeded at its place in a history. -/
def Linked (edits : List Edit) (dependent dependency : String) : Prop :=
  ∃ before e after, edits = before ++ e :: after ∧ e = .addDependency dependent dependency ∧
    ∃ result, (afterEdits before).edit e = .ok result

/-- What a graph is after a history of calls, and which answers a directed graph that is edited in
place by the same calls gives to the next one. -/
structure Reflects (g : ProjectGraph) (edits : List Edit) : Prop where
  fails_iff : ∀ e fault, g.edit e = .error fault ↔ e.FailsWith (Added edits) fault
  keeps_on_failure : ∀ e fault, g.edit e = .error fault → afterEdits (edits ++ [e]) = g
  contains_iff : ∀ path, g.contains path = true ↔ Added edits path
  carries_project : ∀ path, g.contains path = true → ∃ p, g.project path = .ok p
  project_iff : ∀ path p, g.project path = .ok p ↔ LastAdded edits path p
  path_project : ∀ path p, g.project path = .ok p → p.path = path
  depends_iff : ∀ dependent dependency,
    g.Depends dependent dependency ↔ Linked edits dependent dependency
  ends_contained : ∀ dependent dependency, g.Depends dependent dependency →
    g.contains dependent = true ∧ g.contains dependency = true
  keeps_edges : ∀ p, g.contains p.path = true → ∃ result, g.addProject p = .ok result ∧
    result.dependenciesOf = g.dependenciesOf ∧ result.dependentsOf = g.dependentsOf
  projects_ascending : ListsInOrder (g.projects.map (·.path)) (Added edits)
  mem_projects_iff : ∀ p, p ∈ g.projects ↔ g.project p.path = .ok p
  dependenciesOf_iff : ∀ path names, g.dependenciesOf path = .ok names ↔
    Added edits path ∧ ListsInOrder names fun dependency => Linked edits path dependency
  dependentsOf_iff : ∀ path names, g.dependentsOf path = .ok names ↔
    Added edits path ∧ ListsInOrder names fun dependent => Linked edits dependent path
  orders_projects : ∀ paths, g.orderedPaths = .ok paths →
    ∃ order, g.topologicalOrder = .ok order ∧ order.map (·.path) = paths
  held_in_place : ∀ (G : Type) [DirectedGraph G],
    DirectedGraph.Holds (DirectedGraph.afterEdits edits : G) g
  answers_in_place : ∀ (G : Type) [DirectedGraph G] (e : Edit),
    (DirectedGraph.edit e).run (DirectedGraph.afterEdits edits : G) =
      match g.edit e with
      | .error fault => .error fault (DirectedGraph.afterEdits edits)
      | .ok _ => .ok () (DirectedGraph.afterEdits (edits ++ [e]))

section History

variable {g result : ProjectGraph} {edits : List Edit} {e : Edit} {path : String}

theorem afterEdits_append (edits : List Edit) (e : Edit) :
    afterEdits (edits ++ [e]) = (afterEdits edits).afterEdit e := by
  simp only [afterEdits, List.foldl_append, List.foldl_cons, List.foldl_nil]

theorem built_afterEdits (edits : List Edit) : (afterEdits edits).Built := by
  induction edits using List.reverseRecOn with
  | nil => exact .empty
  | append_singleton edits e ih =>
    rw [afterEdits_append]
    exact ih.afterEdit e

theorem mem_keys_afterEdits :
    path ∈ (afterEdits edits).nodes.keys ↔ Added edits path := by
  induction edits using List.reverseRecOn with
  | nil => simp [afterEdits, ProjectGraph.empty, Added, OrderedMap.mem_keys_iff]
  | append_singleton edits e ih =>
    rw [afterEdits_append, mem_keys_afterEdit, ih]
    simp only [Added, List.mem_append, List.mem_singleton, or_and_right, exists_or,
      exists_eq_left]
    exact or_comm

theorem project_afterEdits_iff {p : Project} :
    (afterEdits edits).project path = .ok p ↔ LastAdded edits path p := by
  refine foldl_iff_stands (fun g : ProjectGraph => g.project path = .ok p) ?_ ?_ edits
  · simp [project_eq_ok_iff, ProjectGraph.empty]
  · exact fun g e => project_afterEdit_iff

theorem depends_afterEdits_iff {a b : String} :
    (afterEdits edits).Depends a b ↔ Linked edits a b := by
  -- Whether a call succeeds depends on the calls before it, so `foldl_iff_stands` does not apply.
  induction edits using List.reverseRecOn with
  | nil => simp [afterEdits, ProjectGraph.empty, Linked, depends_iff]
  | append_singleton edits e ih =>
    rw [afterEdits_append, depends_afterEdit_iff, ih]
    exact (exists_split_append_iff (p := fun before e _ =>
      e = .addDependency a b ∧ ∃ result, (afterEdits before).edit e = .ok result)).symm

theorem dependentsOf_eq (g : ProjectGraph) (path : String) : g.dependentsOf path =
    if g.contains path then .ok (sortNames (g.dependentPaths path)) else .error ⟨path⟩ := by
  rw [dependentsOf, contains, OrderedMap.contains, dependentPaths]
  cases g.nodes.get? path with
  | none => rfl
  | some node => rfl

theorem answer_eq_ok_iff {listed names : List String} {p : String → Prop}
    (hlisted : ListsInOrder listed p) :
    (if g.contains path then .ok listed else .error (⟨path⟩ : UnknownPath)) = Except.ok names ↔
      path ∈ g.nodes.keys ∧ ListsInOrder names p := by
  rw [← OrderedMap.contains_iff_mem_keys, contains]
  cases g.nodes.contains path with
  | false => simp
  | true =>
    simp only [if_true, Except.ok.injEq, true_and]
    constructor
    · rintro rfl
      exact hlisted
    · exact hlisted.unique

theorem dependenciesOf_eq_ok_iff {names : List String} : g.dependenciesOf path = .ok names ↔
    path ∈ g.nodes.keys ∧ ListsInOrder names (g.Depends path) :=
  answer_eq_ok_iff (listsInOrder_dependencyPaths g path)

theorem Built.dependentsOf_eq_ok_iff (h : g.Built) {names : List String} :
    g.dependentsOf path = .ok names ↔
      path ∈ g.nodes.keys ∧ ListsInOrder names (g.Depends · path) := by
  rw [dependentsOf_eq]
  exact answer_eq_ok_iff (listsInOrder_sortNames (h.nodup_dependentPaths path))

theorem Built.map_path_projects (h : g.Built) : g.projects.map (·.path) = g.nodes.sorted.keys := by
  rw [projects, SortedMap.values, SortedMap.keys, List.map_map, List.map_map]
  refine List.map_congr_left fun entry hentry => ?_
  have hnode : g.nodes.get? entry.1 = some entry.2 := by
    rw [← OrderedMap.get?_sorted]
    exact SortedMap.get?_eq_some_iff.mpr hentry
  exact h.path_project hnode

theorem Built.mem_projects_iff (h : g.Built) {p : Project} :
    p ∈ g.projects ↔ g.project p.path = .ok p := by
  simp only [projects, List.mem_map, SortedMap.mem_values_iff, OrderedMap.get?_sorted,
    project_eq_ok_iff]
  constructor
  · rintro ⟨node, ⟨path, hnode⟩, rfl⟩
    rw [h.path_project hnode]
    exact ⟨node, hnode, rfl⟩
  · rintro ⟨node, hnode, heq⟩
    exact ⟨node, ⟨p.path, hnode⟩, heq⟩

theorem neighbours_addProject {p : Project} (h : g.addProject p = .ok result)
    (hknown : p.path ∈ g.nodes.keys) :
    result.dependenciesOf = g.dependenciesOf ∧ result.dependentsOf = g.dependentsOf := by
  have hcontains : result.contains = g.contains := by
    funext path
    rw [Bool.eq_iff_iff, contains, contains, OrderedMap.contains_iff_mem_keys,
      OrderedMap.contains_iff_mem_keys, mem_keys_addProject h, or_iff_right_of_imp]
    rintro rfl
    exact hknown
  constructor
  · funext path
    have hpaths : result.dependencyPaths path = g.dependencyPaths path := by
      apply (listsInOrder_dependencyPaths result path).unique
      exact (listsInOrder_dependencyPaths g path).congr fun _ => (depends_addProject h).symm
    rw [dependenciesOf, dependenciesOf, hcontains, hpaths]
  · funext path
    rw [dependentsOf_eq, dependentsOf_eq, hcontains, dependentPaths_addProject h]

theorem holds_afterEdits {G : Type} [DirectedGraph G] (edits : List Edit) :
    DirectedGraph.Holds (DirectedGraph.afterEdits edits : G) (afterEdits edits) := by
  induction edits using List.reverseRecOn with
  | nil => exact DirectedGraph.holds_empty
  | append_singleton edits e ih =>
    rw [afterEdits_append, DirectedGraph.afterEdits_append]
    exact ih.afterEdit e

theorem added_eq (edits : List Edit) : Added edits = (· ∈ (afterEdits edits).nodes.keys) :=
  funext fun _ => propext mem_keys_afterEdits.symm

theorem linked_eq (edits : List Edit) : Linked edits = (afterEdits edits).Depends :=
  funext fun _ => funext fun _ => propext depends_afterEdits_iff.symm

end History

/-- After any history of calls, of which any may have failed, a graph has the last projects that
were added under their paths and the dependencies whose calls succeeded, and so have the directed
graphs that the same calls edit in place. -/
theorem afterEdits_reflects (edits : List Edit) : (afterEdits edits).Reflects edits where
  fails_iff := by
    intro e fault
    rw [added_eq]
    exact edit_eq_error_iff
  keeps_on_failure := by
    intro e fault hfails
    rw [afterEdits_append, afterEdit_of_error hfails]
  contains_iff := fun _ => OrderedMap.contains_iff_mem_keys.trans mem_keys_afterEdits
  carries_project := fun _ hpath =>
    exists_project_iff.mpr (OrderedMap.contains_iff_mem_keys.mp hpath)
  project_iff := fun _ _ => project_afterEdits_iff
  path_project := fun _ _ => (built_afterEdits edits).path_eq_of_project
  depends_iff := fun _ _ => depends_afterEdits_iff
  ends_contained := fun _ _ hdepends =>
    ⟨OrderedMap.contains_iff_mem_keys.mpr ((built_afterEdits edits).mem_keys_of_depends hdepends),
      OrderedMap.contains_iff_mem_keys.mpr hdepends.mem_keys⟩
  keeps_edges := by
    intro p hcontains
    have hknown := OrderedMap.contains_iff_mem_keys.mp hcontains
    obtain ⟨e, he, hpath, hadds⟩ := mem_keys_afterEdits.mp hknown
    cases hadd : (afterEdits edits).addProject p with
    | error fault => exact absurd (addProject_eq_error_iff.mp hadd).1 hpath
    | ok result => exact ⟨result, rfl, neighbours_addProject hadd hknown⟩
  projects_ascending := by
    rw [(built_afterEdits edits).map_path_projects, added_eq]
    exact listsInOrder_keys _
  mem_projects_iff := fun _ => (built_afterEdits edits).mem_projects_iff
  dependenciesOf_iff := by
    intro path names
    rw [linked_eq, added_eq]
    exact dependenciesOf_eq_ok_iff
  dependentsOf_iff := by
    intro path names
    rw [linked_eq, added_eq]
    exact (built_afterEdits edits).dependentsOf_eq_ok_iff
  orders_projects := by
    intro paths hpaths
    obtain ⟨order, horder⟩ := exists_topologicalOrder hpaths
    obtain ⟨hmap, -⟩ := (built_afterEdits edits).of_topologicalOrder horder
    exact ⟨order, horder, Except.ok.inj (hmap.symm.trans hpaths)⟩
  held_in_place := fun _ _ => holds_afterEdits edits
  answers_in_place := by
    intro G _ e
    rw [DirectedGraph.afterEdits_append]
    exact (holds_afterEdits edits).run_eq e

end BuildVariants.ProjectGraph

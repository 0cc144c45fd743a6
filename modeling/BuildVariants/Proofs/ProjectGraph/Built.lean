import BuildVariants.ProjectGraph
import BuildVariants.Proofs.FiniteMap
import BuildVariants.Proofs.Names
import Mathlib.Logic.Relation

/-!
Graphs that are built by adding projects and dependencies. Every project of such a graph stands
under its own path. A graph is acyclic if no project depends on itself, be it directly or through
others.
-/

set_option autoImplicit false
set_option relaxedAutoImplicit false

namespace BuildVariants

namespace ProjectGraph

variable {g : ProjectGraph}

/-- A graph that results from adding projects and dependencies to the graph without projects. -/
inductive Built : ProjectGraph → Prop
  | empty : Built .empty
  | addProject {g result : ProjectGraph} {p : Project} (built : Built g)
      (added : g.addProject p = .ok result) : Built result
  | addDependency {g result : ProjectGraph} {dependent dependency : String} (built : Built g)
      (added : g.addDependency dependent dependency = .ok result) : Built result

def Depends (g : ProjectGraph) (dependent dependency : String) : Prop :=
  dependent ∈ g.dependentPaths dependency

def Acyclic (g : ProjectGraph) : Prop := ∀ path, ¬ Relation.TransGen g.Depends path path

theorem project_eq_ok_iff {path : String} {p : Project} :
    g.project path = .ok p ↔ ∃ node, g.nodes.get? path = some node ∧ node.project = p := by
  rw [project]
  cases g.nodes.get? path with
  | none => simp
  | some node => simp

theorem exists_project_iff {path : String} :
    (∃ p, g.project path = .ok p) ↔ path ∈ g.nodes.keys := by
  rw [OrderedMap.mem_keys_iff]
  constructor
  · rintro ⟨p, hp⟩
    obtain ⟨node, hnode, -⟩ := project_eq_ok_iff.mp hp
    exact ⟨node, hnode⟩
  · rintro ⟨node, hnode⟩
    exact ⟨node.project, project_eq_ok_iff.mpr ⟨node, hnode, rfl⟩⟩

theorem addProject_eq_ok_iff {p : Project} {result : ProjectGraph} :
    g.addProject p = .ok result ↔
      p.path ≠ "" ∧ result = ⟨g.nodes.put p.path ⟨p, g.dependentPaths p.path⟩⟩ := by
  rw [addProject]
  by_cases hempty : p.path = ""
  · rw [if_pos (String.isEmpty_iff.mpr hempty)]
    simp only [hempty, ne_eq, not_true_eq_false, false_and, reduceCtorEq]
  · rw [if_neg fun h => hempty (String.isEmpty_iff.mp h)]
    simp only [hempty, ne_eq, not_false_eq_true, true_and, Except.ok.injEq, eq_comm]

theorem addDependency_eq_ok_iff {dependent dependency : String} {result : ProjectGraph} :
    g.addDependency dependent dependency = .ok result ↔
      g.contains dependent = true ∧ ∃ node, g.nodes.get? dependency = some node ∧
        result = ⟨g.nodes.put dependency (node.link dependent)⟩ := by
  rw [addDependency]
  cases g.contains dependent with
  | false => simp
  | true =>
    cases g.nodes.get? dependency with
    | none => simp
    | some node => simp [eq_comm]

theorem project_link (node : ProjectNode) (dependent : String) :
    (node.link dependent).project = node.project := by
  unfold ProjectNode.link
  split
  · rfl
  · rfl

theorem Built.path_project (h : g.Built) {path : String} {node : ProjectNode}
    (hnode : g.nodes.get? path = some node) : node.project.path = path := by
  induction h generalizing path node with
  | empty => simp [ProjectGraph.empty] at hnode
  | addProject built added ih =>
    obtain ⟨-, rfl⟩ := addProject_eq_ok_iff.mp added
    rw [OrderedMap.get?_put] at hnode
    split at hnode
    · next heq =>
      cases hnode
      exact heq.symm
    · exact ih hnode
  | addDependency built added ih =>
    obtain ⟨-, old, hold, rfl⟩ := addDependency_eq_ok_iff.mp added
    rw [OrderedMap.get?_put] at hnode
    split at hnode
    · next heq =>
      cases hnode
      rw [project_link, heq]
      exact ih hold
    · exact ih hnode

theorem Built.path_eq_of_project (h : g.Built) {path : String} {p : Project}
    (hp : g.project path = .ok p) : p.path = path := by
  obtain ⟨node, hnode, rfl⟩ := project_eq_ok_iff.mp hp
  exact h.path_project hnode

theorem depends_iff {dependent dependency : String} :
    g.Depends dependent dependency ↔
      ∃ node, g.nodes.get? dependency = some node ∧ dependent ∈ node.dependents := by
  rw [Depends, dependentPaths]
  cases g.nodes.get? dependency with
  | none => simp
  | some node => simp

theorem mem_dependencyPaths {dependent dependency : String} :
    dependency ∈ g.dependencyPaths dependent ↔ g.Depends dependent dependency := by
  rw [dependencyPaths, (perm_sortNames _).mem_iff, depends_iff]
  simp only [List.mem_map, List.mem_filter, List.contains_iff_mem, OrderedMap.get?_eq_some_iff]
  constructor
  · rintro ⟨⟨path, node⟩, ⟨hentry, hmem⟩, rfl⟩
    exact ⟨node, hentry, hmem⟩
  · rintro ⟨node, hentry, hmem⟩
    exact ⟨(dependency, node), ⟨hentry, hmem⟩, rfl⟩

theorem listsInOrder_dependencyPaths (g : ProjectGraph) (path : String) :
    ListsInOrder (g.dependencyPaths path) (g.Depends path) := by
  have hnodup : ((g.nodes.entries.filter fun entry =>
      entry.2.dependents.contains path).map (·.1)).Nodup :=
    g.nodes.distinct.sublist (List.filter_sublist.map _)
  refine (listsInOrder_sortNames hnodup).congr fun dependency => ?_
  rw [← (perm_sortNames _).mem_iff]
  exact mem_dependencyPaths

theorem Depends.mem_keys {dependent dependency : String} (h : g.Depends dependent dependency) :
    dependency ∈ g.nodes.keys := by
  obtain ⟨node, hnode, -⟩ := depends_iff.mp h
  exact OrderedMap.mem_keys_iff.mpr ⟨node, hnode⟩

theorem acyclic_of_rank (rank : String → Nat) (h : ∀ dependent dependency,
    g.Depends dependent dependency → rank dependency < rank dependent) : g.Acyclic := by
  have hrank : ∀ {dependent dependency}, Relation.TransGen g.Depends dependent dependency →
      rank dependency < rank dependent := by
    intro dependent dependency hpath
    induction hpath with
    | single hdepends => exact h _ _ hdepends
    | tail _ hdepends ih => exact Nat.lt_trans (h _ _ hdepends) ih
  exact fun path hpath => Nat.lt_irrefl _ (hrank hpath)

end ProjectGraph

end BuildVariants

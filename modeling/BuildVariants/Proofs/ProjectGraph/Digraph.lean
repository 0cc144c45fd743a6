import BuildVariants.Proofs.ProjectGraph.Edits

/-!
The directed graph that holds the projects, edited in place. Its nodes need not carry a project: an
edge makes nodes of its ends, and these carry nothing. A call checks what it was given before it
writes, so a call that fails has written nothing, and no edge makes a node.
-/

set_option autoImplicit false
set_option relaxedAutoImplicit false

namespace BuildVariants

open ProjectGraph

/-- Directed graphs whose nodes may carry projects. Both ways to edit one keep what is there and add
what is named. An edge makes nodes of those of its ends that are not there, without a project. -/
class DirectedGraph (G : Type) where
  empty : G
  addNode : G → String → Project → G
  addEdge : G → String → String → G
  hasNode : G → String → Bool
  carried : G → String → Option Project
  hasEdge : G → String → String → Bool
  hasNode_empty : ∀ path, hasNode empty path = false
  carried_empty : ∀ path, carried empty path = none
  hasEdge_empty : ∀ source target, hasEdge empty source target = false
  hasNode_addNode : ∀ d path p other,
    hasNode (addNode d path p) other = (decide (other = path) || hasNode d other)
  carried_addNode : ∀ d path p other,
    carried (addNode d path p) other = if other = path then some p else carried d other
  hasEdge_addNode : ∀ d path p source target,
    hasEdge (addNode d path p) source target = hasEdge d source target
  hasNode_addEdge : ∀ d source target other, hasNode (addEdge d source target) other =
    (decide (other = source) || decide (other = target) || hasNode d other)
  carried_addEdge : ∀ d source target other,
    carried (addEdge d source target) other = carried d other
  hasEdge_addEdge : ∀ d source target first second, hasEdge (addEdge d source target) first second =
    (decide (first = source ∧ second = target) || hasEdge d first second)

structure Digraph where
  nodes : List String
  carried : List (String × Project)
  edges : List (String × String)

instance : DirectedGraph Digraph where
  empty := ⟨[], [], []⟩
  addNode d path p := ⟨path :: d.nodes, (path, p) :: d.carried, d.edges⟩
  addEdge d source target := ⟨source :: target :: d.nodes, d.carried, (source, target) :: d.edges⟩
  hasNode d path := d.nodes.contains path
  carried d path := d.carried.lookup path
  hasEdge d source target := d.edges.contains (source, target)
  hasNode_empty := fun _ => rfl
  carried_empty := fun _ => rfl
  hasEdge_empty := fun _ _ => rfl
  hasNode_addNode := by grind
  carried_addNode := by grind
  hasEdge_addNode := fun _ _ _ _ _ => rfl
  hasNode_addEdge := by grind
  carried_addEdge := fun _ _ _ _ => rfl
  hasEdge_addEdge := by grind

-- An edge that is added without a check makes a node that carries nothing.
example :
    DirectedGraph.hasNode (DirectedGraph.addEdge (DirectedGraph.empty : Digraph) "a" "b") "a" ∧
      DirectedGraph.carried (DirectedGraph.addEdge (DirectedGraph.empty : Digraph) "a" "b") "a" =
        none := by
  decide

namespace DirectedGraph

variable {G : Type} [DirectedGraph G]

def requireNode (path : String) : EStateM Fault G Unit := do
  unless hasNode (← get) path do throw (.unknownEndpoint path)

/-- The calls that edit a directed graph in place. What a call has written before it raises a fault
stays written. -/
def edit : Edit → EStateM Fault G Unit
  | .addProject p => do
    if p.path.isEmpty then throw .emptyProjectPath
    modify fun d => addNode d p.path p
  | .addDependency dependent dependency => do
    [dependent, dependency].forM requireNode
    modify fun d => addEdge d dependency dependent

/-- The directed graph that a call leaves, also if it fails. -/
def afterEdit (d : G) (e : Edit) : G :=
  match (edit e).run d with
  | .ok _ after => after
  | .error _ after => after

def afterEdits (edits : List Edit) : G := edits.foldl afterEdit empty

theorem afterEdits_append (edits : List Edit) (e : Edit) :
    (afterEdits (edits ++ [e]) : G) = afterEdit (afterEdits edits) e := by
  simp only [afterEdits, List.foldl_append, List.foldl_cons, List.foldl_nil]

/-- A directed graph has the projects and the dependencies of a graph of projects, and no other node
or edge. -/
structure Holds (d : G) (g : ProjectGraph) : Prop where
  hasNode_iff : ∀ path, hasNode d path = true ↔ path ∈ g.nodes.keys
  carried_iff : ∀ path p, carried d path = some p ↔ g.project path = .ok p
  hasEdge_iff : ∀ dependent dependency,
    hasEdge d dependency dependent = true ↔ g.Depends dependent dependency

section Run

variable (d : G)

theorem run_addProject (p : Project) : (edit (.addProject p)).run d =
    if p.path = "" then .error .emptyProjectPath d else .ok () (addNode d p.path p) := by
  rw [edit]
  by_cases hempty : p.path = ""
  · rw [if_pos hempty, if_pos (String.isEmpty_iff.mpr hempty)]
    rfl
  · rw [if_neg hempty, if_neg fun h => hempty (String.isEmpty_iff.mp h)]
    rfl

theorem run_requireNode (path : String) : (requireNode path).run d =
    if hasNode d path then .ok () d else .error (.unknownEndpoint path) d := by
  cases hpath : hasNode d path with
  | true => simp [requireNode, EStateM.run_bind, hpath]
  | false => simp [requireNode, EStateM.run_bind, hpath]

theorem run_addDependency (dependent dependency : String) :
    (edit (.addDependency dependent dependency)).run d =
      if !hasNode d dependent then .error (.unknownEndpoint dependent) d
      else if !hasNode d dependency then .error (.unknownEndpoint dependency) d
      else .ok () (addEdge d dependency dependent) := by
  cases hdependent : hasNode d dependent with
  | true =>
    cases hdependency : hasNode d dependency with
    | true => simp [edit, EStateM.run_bind, run_requireNode, hdependent, hdependency]
    | false => simp [edit, EStateM.run_bind, run_requireNode, hdependent, hdependency]
  | false => simp [edit, EStateM.run_bind, run_requireNode, hdependent]

end Run

variable {d : G} {g result : ProjectGraph} {p : Project} {dependent dependency : String}

theorem holds_empty : Holds (empty : G) .empty where
  hasNode_iff := by simp [hasNode_empty, ProjectGraph.empty, OrderedMap.mem_keys_iff]
  carried_iff := by simp [carried_empty, ProjectGraph.empty, project_eq_ok_iff]
  hasEdge_iff := by simp [hasEdge_empty, ProjectGraph.empty, depends_iff]

theorem Holds.addNode (h : Holds d g) (hadded : g.addProject p = .ok result) :
    Holds (addNode d p.path p) result where
  hasNode_iff := by
    intro path
    rw [mem_keys_addProject hadded, hasNode_addNode, Bool.or_eq_true, decide_eq_true_iff,
      h.hasNode_iff]
  carried_iff := by
    intro path q
    rw [project_addProject hadded, carried_addNode]
    by_cases hpath : path = p.path
    · rw [if_pos hpath, if_pos hpath, Option.some_inj, Except.ok.injEq]
    · rw [if_neg hpath, if_neg hpath, h.carried_iff]
  hasEdge_iff := by
    intro dependent dependency
    rw [depends_addProject hadded, hasEdge_addNode, h.hasEdge_iff]

/-- The ends of the edge are nodes already, so the edge makes no node. -/
theorem Holds.addEdge (h : Holds d g) (hadded : g.addDependency dependent dependency = .ok result) :
    Holds (addEdge d dependency dependent) result where
  hasNode_iff := by
    intro path
    obtain ⟨hdependent, node, hnode, -⟩ := addDependency_eq_ok_iff.mp hadded
    have hends : path = dependency ∨ path = dependent → path ∈ g.nodes.keys := by
      rintro (rfl | rfl)
      · exact OrderedMap.mem_keys_iff.mpr ⟨node, hnode⟩
      · exact OrderedMap.contains_iff_mem_keys.mp hdependent
    rw [mem_keys_addDependency hadded, hasNode_addEdge]
    simp only [Bool.or_eq_true, decide_eq_true_iff, h.hasNode_iff]
    exact or_iff_right_of_imp hends
  carried_iff := by
    intro path q
    rw [project_addDependency hadded, carried_addEdge, h.carried_iff]
  hasEdge_iff := by
    intro a b
    rw [depends_addDependency hadded, hasEdge_addEdge, Bool.or_eq_true, decide_eq_true_iff,
      h.hasEdge_iff, and_comm, or_comm]

theorem Holds.hasNode_eq_false_iff (h : Holds d g) {path : String} :
    hasNode d path = false ↔ path ∉ g.nodes.keys := by
  rw [← h.hasNode_iff, Bool.not_eq_true]

/-- A call on the directed graph fails if the call on the graph that it holds does, and then it
leaves the directed graph as it was. -/
theorem Holds.run_of_error (h : Holds d g) {e : Edit} {fault : Fault}
    (hfails : g.edit e = .error fault) : (edit e).run d = .error fault d := by
  cases e with
  | addProject p =>
    obtain ⟨hempty, rfl⟩ := addProject_eq_error_iff.mp hfails
    rw [run_addProject, if_pos hempty]
  | addDependency dependent dependency =>
    rw [run_addDependency]
    rcases addDependency_eq_error_iff.mp hfails with
      ⟨hdependent, rfl⟩ | ⟨hdependent, hdependency, rfl⟩
    · rw [h.hasNode_eq_false_iff.mpr hdependent]
      rfl
    · rw [(h.hasNode_iff _).mpr hdependent, h.hasNode_eq_false_iff.mpr hdependency]
      rfl

/-- A call on the directed graph succeeds if the call on the graph that it holds does, and then it
leaves a directed graph that holds the result. -/
theorem Holds.run_of_ok (h : Holds d g) {e : Edit} (hok : g.edit e = .ok result) :
    ∃ after, (edit e).run d = .ok () after ∧ Holds after result := by
  cases e with
  | addProject p =>
    obtain ⟨hpath, -⟩ := addProject_eq_ok_iff.mp hok
    exact ⟨_, by rw [run_addProject, if_neg hpath], h.addNode hok⟩
  | addDependency dependent dependency =>
    obtain ⟨hdependent, node, hnode, -⟩ := addDependency_eq_ok_iff.mp hok
    refine ⟨_, ?_, h.addEdge hok⟩
    rw [run_addDependency, (h.hasNode_iff _).mpr (OrderedMap.contains_iff_mem_keys.mp hdependent),
      (h.hasNode_iff _).mpr (OrderedMap.mem_keys_iff.mpr ⟨node, hnode⟩)]
    rfl

theorem Holds.run_eq (h : Holds d g) (e : Edit) : (edit e).run d =
    match g.edit e with
    | .error fault => .error fault d
    | .ok _ => .ok () (afterEdit d e) := by
  cases hedit : g.edit e with
  | error fault => exact h.run_of_error hedit
  | ok result =>
    obtain ⟨after, hrun, -⟩ := h.run_of_ok hedit
    rw [DirectedGraph.afterEdit, hrun]

theorem Holds.afterEdit (h : Holds d g) (e : Edit) : Holds (afterEdit d e) (g.afterEdit e) := by
  cases hedit : g.edit e with
  | error fault =>
    rw [DirectedGraph.afterEdit, h.run_of_error hedit, afterEdit_of_error hedit]
    exact h
  | ok result =>
    obtain ⟨after, hrun, hafter⟩ := h.run_of_ok hedit
    rw [DirectedGraph.afterEdit, hrun, afterEdit_of_ok hedit]
    exact hafter

end DirectedGraph

end BuildVariants

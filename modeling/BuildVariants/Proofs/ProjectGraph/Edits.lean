import BuildVariants.Proofs.ProjectGraph.Built

/-!
What the edits of a graph do to its projects and dependencies. Adding a project adds or replaces it
and adds no dependency, and adding a dependency adds nothing else. Both ends of a dependency of a
built graph are therefore projects of the graph.
-/

set_option autoImplicit false
set_option relaxedAutoImplicit false

namespace BuildVariants

theorem OrderedMap.mem_keys_put {α : Type} {m : OrderedMap α} {key x : String} {value : α} :
    x ∈ (m.put key value).keys ↔ x = key ∨ x ∈ m.keys :=
  mem_keys_putEntry

namespace ProjectGraph

variable {g result : ProjectGraph} {p : Project} {dependent dependency : String}

theorem mem_keys_addProject (h : g.addProject p = .ok result) {path : String} :
    path ∈ result.nodes.keys ↔ path = p.path ∨ path ∈ g.nodes.keys := by
  obtain ⟨-, rfl⟩ := addProject_eq_ok_iff.mp h
  exact OrderedMap.mem_keys_put

theorem mem_keys_addDependency (h : g.addDependency dependent dependency = .ok result)
    {path : String} : path ∈ result.nodes.keys ↔ path ∈ g.nodes.keys := by
  obtain ⟨-, node, hnode, rfl⟩ := addDependency_eq_ok_iff.mp h
  have hkey : dependency ∈ g.nodes.keys := OrderedMap.mem_keys_iff.mpr ⟨node, hnode⟩
  rw [OrderedMap.mem_keys_put]
  constructor
  · rintro (rfl | hpath)
    · exact hkey
    · exact hpath
  · exact Or.inr

theorem project_addProject (h : g.addProject p = .ok result) {path : String} :
    result.project path = if path = p.path then .ok p else g.project path := by
  obtain ⟨-, rfl⟩ := addProject_eq_ok_iff.mp h
  simp only [project, OrderedMap.get?_put]
  by_cases hsame : path = p.path
  · rw [if_pos hsame, if_pos hsame]
  · rw [if_neg hsame, if_neg hsame]

theorem project_addDependency (h : g.addDependency dependent dependency = .ok result)
    {path : String} : result.project path = g.project path := by
  obtain ⟨-, node, hnode, rfl⟩ := addDependency_eq_ok_iff.mp h
  simp only [project, OrderedMap.get?_put]
  by_cases hsame : path = dependency
  · rw [if_pos hsame, hsame, hnode]
    simp only [project_link]
  · rw [if_neg hsame]

/-- Also a project that is added again keeps its dependents, in the order of their linking. -/
theorem dependentPaths_addProject (h : g.addProject p = .ok result) :
    result.dependentPaths = g.dependentPaths := by
  obtain ⟨-, rfl⟩ := addProject_eq_ok_iff.mp h
  funext path
  rw [dependentPaths, OrderedMap.get?_put]
  by_cases hsame : path = p.path
  · rw [if_pos hsame, hsame]
  · rw [if_neg hsame, dependentPaths]

theorem depends_addProject (h : g.addProject p = .ok result) {a b : String} :
    result.Depends a b ↔ g.Depends a b := by
  rw [Depends, Depends, dependentPaths_addProject h]

theorem mem_dependents_link {node : ProjectNode} {other : String} :
    other ∈ (node.link dependent).dependents ↔ other = dependent ∨ other ∈ node.dependents := by
  rw [ProjectNode.link]
  split
  · next hlinked =>
    constructor
    · exact Or.inr
    · rintro (rfl | hother)
      · exact List.contains_iff_mem.mp hlinked
      · exact hother
  · simp [or_comm]

theorem depends_addDependency (h : g.addDependency dependent dependency = .ok result)
    {a b : String} :
    result.Depends a b ↔ g.Depends a b ∨ a = dependent ∧ b = dependency := by
  obtain ⟨-, node, hnode, rfl⟩ := addDependency_eq_ok_iff.mp h
  simp only [Depends, dependentPaths, OrderedMap.get?_put]
  by_cases hsame : b = dependency
  · rw [if_pos hsame, hsame, hnode]
    simp [mem_dependents_link, or_comm]
  · rw [if_neg hsame]
    simp [hsame]

theorem nodup_dependents_link {node : ProjectNode} (h : node.dependents.Nodup) :
    (node.link dependent).dependents.Nodup := by
  rw [ProjectNode.link]
  split
  · exact h
  · next hnew =>
    refine List.nodup_append.mpr ⟨h, List.nodup_singleton dependent, ?_⟩
    rintro other hother _ hlast rfl
    rw [List.mem_singleton.mp hlast] at hother
    exact hnew (List.contains_iff_mem.mpr hother)

theorem Built.nodup_dependentPaths (h : g.Built) (path : String) :
    (g.dependentPaths path).Nodup := by
  induction h generalizing path with
  | empty => exact List.nodup_nil
  | addProject built added ih =>
    rw [dependentPaths_addProject added]
    exact ih path
  | @addDependency g result dependent dependency built added ih =>
    obtain ⟨-, node, hnode, rfl⟩ := addDependency_eq_ok_iff.mp added
    rw [dependentPaths, OrderedMap.get?_put]
    by_cases hsame : path = dependency
    · have hlinked := ih dependency
      rw [dependentPaths, hnode] at hlinked
      rw [if_pos hsame]
      exact nodup_dependents_link hlinked
    · rw [if_neg hsame]
      exact ih path

theorem Built.mem_keys_of_depends (h : g.Built) {a b : String} (hdepends : g.Depends a b) :
    a ∈ g.nodes.keys := by
  induction h generalizing a b with
  | empty => simp [Depends, dependentPaths, ProjectGraph.empty] at hdepends
  | addProject built added ih =>
    exact (mem_keys_addProject added).mpr (Or.inr (ih ((depends_addProject added).mp hdepends)))
  | addDependency built added ih =>
    rw [mem_keys_addDependency added]
    rcases (depends_addDependency added).mp hdepends with hold | ⟨rfl, rfl⟩
    · exact ih hold
    · obtain ⟨hcontains, -⟩ := addDependency_eq_ok_iff.mp added
      exact OrderedMap.contains_iff_mem_keys.mp hcontains

inductive Edit
  | addProject (p : Project)
  | addDependency (dependent dependency : String)

namespace Edit

def AddsUnder (path : String) (e : Edit) : Prop :=
  path ≠ "" ∧ ∃ p, e = .addProject p ∧ p.path = path

/-- The fault with which a call fails on a graph whose paths are the known ones. An unknown
dependent is reported before an unknown dependency. -/
def FailsWith (known : String → Prop) (fault : Fault) : Edit → Prop
  | .addProject p => p.path = "" ∧ fault = .emptyProjectPath
  | .addDependency dependent dependency =>
    (¬ known dependent ∧ fault = .unknownEndpoint dependent) ∨
      (known dependent ∧ ¬ known dependency ∧ fault = .unknownEndpoint dependency)

end Edit

def edit (g : ProjectGraph) : Edit → Except Fault ProjectGraph
  | .addProject p => g.addProject p
  | .addDependency dependent dependency => g.addDependency dependent dependency

/-- The graph after a call, which is the old one if the call fails. -/
def afterEdit (g : ProjectGraph) (e : Edit) : ProjectGraph := (g.edit e).toOption.getD g

variable {e : Edit}

theorem afterEdit_of_ok (h : g.edit e = .ok result) : g.afterEdit e = result := by
  rw [afterEdit, h]
  rfl

theorem afterEdit_of_error {fault : Fault} (h : g.edit e = .error fault) : g.afterEdit e = g := by
  rw [afterEdit, h]
  rfl

theorem addProject_eq_error_iff {fault : Fault} :
    g.addProject p = .error fault ↔ p.path = "" ∧ fault = .emptyProjectPath := by
  rw [addProject]
  by_cases hempty : p.path = ""
  · rw [if_pos (String.isEmpty_iff.mpr hempty)]
    grind
  · rw [if_neg fun h => hempty (String.isEmpty_iff.mp h)]
    grind

theorem addDependency_eq_error_iff {fault : Fault} :
    g.addDependency dependent dependency = .error fault ↔
      (dependent ∉ g.nodes.keys ∧ fault = .unknownEndpoint dependent) ∨
        (dependent ∈ g.nodes.keys ∧ dependency ∉ g.nodes.keys ∧
          fault = .unknownEndpoint dependency) := by
  rw [addDependency, ← OrderedMap.contains_iff_mem_keys, ← OrderedMap.contains_iff_mem_keys,
    OrderedMap.contains, OrderedMap.contains, contains, OrderedMap.contains]
  cases g.nodes.get? dependent with
  | none => grind
  | some known =>
    cases g.nodes.get? dependency with
    | none => grind
    | some node => grind

theorem edit_eq_error_iff {fault : Fault} :
    g.edit e = .error fault ↔ e.FailsWith (· ∈ g.nodes.keys) fault := by
  cases e with
  | addProject p => exact addProject_eq_error_iff
  | addDependency dependent dependency => exact addDependency_eq_error_iff

theorem Built.afterEdit (h : g.Built) (e : Edit) : (g.afterEdit e).Built := by
  cases hedit : g.edit e with
  | error fault => rwa [afterEdit_of_error hedit]
  | ok result =>
    rw [afterEdit_of_ok hedit]
    cases e with
    | addProject p => exact h.addProject hedit
    | addDependency dependent dependency => exact h.addDependency hedit

theorem mem_keys_afterEdit {path : String} :
    path ∈ (g.afterEdit e).nodes.keys ↔ e.AddsUnder path ∨ path ∈ g.nodes.keys := by
  cases hedit : g.edit e with
  | error fault =>
    rw [afterEdit_of_error hedit]
    cases e with
    | addProject p =>
      obtain ⟨hempty, -⟩ := addProject_eq_error_iff.mp hedit
      grind [Edit.AddsUnder]
    | addDependency dependent dependency => simp [Edit.AddsUnder]
  | ok result =>
    rw [afterEdit_of_ok hedit]
    cases e with
    | addProject p =>
      obtain ⟨hpath, -⟩ := addProject_eq_ok_iff.mp hedit
      rw [mem_keys_addProject hedit]
      grind [Edit.AddsUnder]
    | addDependency dependent dependency =>
      rw [mem_keys_addDependency hedit]
      simp [Edit.AddsUnder]

theorem project_afterEdit_iff {path : String} {q : Project} :
    (g.afterEdit e).project path = .ok q ↔
      (e.AddsUnder path ∧ e = .addProject q) ∨ (¬ e.AddsUnder path ∧ g.project path = .ok q) := by
  cases hedit : g.edit e with
  | error fault =>
    rw [afterEdit_of_error hedit]
    cases e with
    | addProject p =>
      -- The call failed because of an empty path, and under that path no call adds anything.
      obtain ⟨hempty, -⟩ := addProject_eq_error_iff.mp hedit
      grind [Edit.AddsUnder]
    | addDependency dependent dependency => simp [Edit.AddsUnder]
  | ok result =>
    rw [afterEdit_of_ok hedit]
    cases e with
    | addProject p =>
      obtain ⟨hpath, -⟩ := addProject_eq_ok_iff.mp hedit
      rw [project_addProject hedit]
      grind [Edit.AddsUnder]
    | addDependency dependent dependency =>
      rw [project_addDependency hedit]
      simp [Edit.AddsUnder]

theorem depends_afterEdit_iff {a b : String} :
    (g.afterEdit e).Depends a b ↔
      (e = .addDependency a b ∧ ∃ result, g.edit e = .ok result) ∨ g.Depends a b := by
  cases hedit : g.edit e with
  | error fault => simp [afterEdit_of_error hedit]
  | ok result =>
    rw [afterEdit_of_ok hedit]
    cases e with
    | addProject p =>
      rw [depends_addProject hedit]
      simp
    | addDependency dependent dependency =>
      rw [depends_addDependency hedit]
      grind

end ProjectGraph

end BuildVariants

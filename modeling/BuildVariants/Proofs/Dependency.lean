import BuildVariants.Dependency

/-!
What dependencies refer to. A dependency refers to a project, whatever suffix it carries, or to an
external coordinate, and never to both. Two lists refer to the same projects and coordinates exactly
if each of them has, for every dependency of the other, one that refers alike.
-/

set_option autoImplicit false
set_option relaxedAutoImplicit false

namespace BuildVariants

variable {deps others : List Dependency} {path coordinate : String}

/-- Dependencies on one project, with any suffixes, or on one external coordinate. -/
inductive Dependency.RefersAlike : Dependency → Dependency → Prop
  | project (path suffix other : String) : RefersAlike (.project path suffix) (.project path other)
  | external (coordinate : String) : RefersAlike (.external coordinate) (.external coordinate)

theorem Dependency.projectPath?_eq_some_iff {dep : Dependency} :
    dep.projectPath? = some path ↔ ∃ suffix, dep = .project path suffix := by
  cases dep with
  | project other suffix => simp [projectPath?]
  | external coordinate => simp [projectPath?]

theorem Dependency.coordinate?_eq_some_iff {dep : Dependency} :
    dep.coordinate? = some coordinate ↔ dep = .external coordinate := by
  cases dep with
  | project path suffix => simp [coordinate?]
  | external other => simp [coordinate?]

def RefersWithin (deps others : List Dependency) : Prop :=
  ∀ dep ∈ deps, ∃ other ∈ others, dep.RefersAlike other

/-- Two lists of dependencies refer to the same projects and external coordinates. Their order,
repetitions and suffixes may differ. -/
def SameReferences (deps others : List Dependency) : Prop :=
  RefersWithin deps others ∧ RefersWithin others deps

theorem refersWithin_iff :
    RefersWithin deps others ↔
      (∀ path, (∃ suffix, .project path suffix ∈ deps) → ∃ suffix, .project path suffix ∈ others) ∧
        ∀ coordinate, .external coordinate ∈ deps → .external coordinate ∈ others := by
  constructor
  · intro h
    constructor
    · rintro path ⟨suffix, hdep⟩
      obtain ⟨other, hother, hsame⟩ := h _ hdep
      cases hsame with
      | project path suffix carried => exact ⟨carried, hother⟩
    · intro coordinate hdep
      obtain ⟨other, hother, hsame⟩ := h _ hdep
      cases hsame with
      | external coordinate => exact hother
  · rintro ⟨hprojects, hexternals⟩ dep hdep
    cases dep with
    | project path suffix =>
      obtain ⟨carried, hother⟩ := hprojects path ⟨suffix, hdep⟩
      exact ⟨_, hother, .project path suffix carried⟩
    | external coordinate => exact ⟨_, hexternals coordinate hdep, .external coordinate⟩

namespace References

theorem mem_projects_ofDependencies :
    path ∈ (ofDependencies deps).projects.names ↔ ∃ suffix, .project path suffix ∈ deps := by
  simp only [ofDependencies, NameSet.mem_names_ofList, List.mem_filterMap,
    Dependency.projectPath?_eq_some_iff]
  constructor
  · rintro ⟨dep, hdep, suffix, rfl⟩
    exact ⟨suffix, hdep⟩
  · rintro ⟨suffix, hdep⟩
    exact ⟨_, hdep, suffix, rfl⟩

theorem mem_externals_ofDependencies :
    coordinate ∈ (ofDependencies deps).externals.names ↔ .external coordinate ∈ deps := by
  simp only [ofDependencies, NameSet.mem_names_ofList, List.mem_filterMap,
    Dependency.coordinate?_eq_some_iff, exists_eq_right]

theorem ofDependencies_eq_iff :
    ofDependencies deps = ofDependencies others ↔ SameReferences deps others := by
  simp only [SameReferences, refersWithin_iff, ← mem_projects_ofDependencies,
    ← mem_externals_ofDependencies]
  constructor
  · intro h
    rw [h]
    exact ⟨⟨fun _ => id, fun _ => id⟩, ⟨fun _ => id, fun _ => id⟩⟩
  · rintro ⟨⟨hprojects, hexternals⟩, hpaths, hcoordinates⟩
    rw [References.mk.injEq]
    constructor
    · exact NameSet.eq_of_mem_iff fun name => ⟨hexternals name, hcoordinates name⟩
    · exact NameSet.eq_of_mem_iff fun name => ⟨hprojects name, hpaths name⟩

end References

end BuildVariants

import BuildVariants.Proofs.FiniteMap
import BuildVariants.Registry

/-!
The registry as two independent maps, and the suffix that it resolves a variant to.
-/

set_option autoImplicit false
set_option relaxedAutoImplicit false

namespace BuildVariants

namespace Folding

variable {α : Type} {folding : Folding α} {variant suffix : String}

theorem contains_of_get?_assignment (h : folding.assignment.get? variant = some suffix) :
    folding.targets.contains suffix = true :=
  folding.assigned (variant, suffix) (SortedMap.get?_eq_some_iff.mp h)

theorem eq_empty_of_isFull (hfull : folding.isFull = true)
    (hsuffix : folding.targets.contains suffix = true) : suffix = "" := by
  rw [isFull, Bool.and_eq_true, decide_eq_true_iff] at hfull
  obtain ⟨hsize, hempty⟩ := hfull
  rw [SortedMap.contains_iff_mem_keys] at hsuffix hempty
  rw [← SortedMap.length_keys] at hsize
  obtain ⟨only, honly⟩ := List.length_eq_one_iff.mp hsize
  rw [honly, List.mem_singleton] at hsuffix hempty
  exact hsuffix.trans hempty.symm

theorem resolve?_of_assigned (h : folding.assignment.get? variant = some suffix)
    (buildType : Option String) : folding.resolve? variant buildType = some suffix := by
  rw [resolve?, h]

theorem resolve?_of_isFull (h : folding.isFull = true) (variant : String)
    (buildType : Option String) : folding.resolve? variant buildType = some "" := by
  rw [resolve?]
  split
  · next suffix hsuffix =>
    rw [eq_empty_of_isFull h (contains_of_get?_assignment hsuffix)]
  · rw [if_pos h]

end Folding

namespace Registry

@[simp] theorem library?_empty (path : String) : Registry.empty.library? path = none := rfl

@[simp] theorem tests?_empty (path : String) : Registry.empty.tests? path = none := rfl

theorem library?_registerLibrary (r : Registry) (path other : String)
    (folding : Folding LibraryVariant) :
    (r.registerLibrary path folding).library? other =
      if other = path then some folding else r.library? other :=
  OrderedMap.get?_put r.libraries path other folding

theorem tests?_registerTests (r : Registry) (path other : String)
    (folding : Folding UnitTestVariant) :
    (r.registerTests path folding).tests? other =
      if other = path then some folding else r.tests? other :=
  OrderedMap.get?_put r.tests path other folding

@[simp] theorem library?_registerTests (r : Registry) (path other : String)
    (folding : Folding UnitTestVariant) :
    (r.registerTests path folding).library? other = r.library? other := rfl

@[simp] theorem tests?_registerLibrary (r : Registry) (path other : String)
    (folding : Folding LibraryVariant) :
    (r.registerLibrary path folding).tests? other = r.tests? other := rfl

theorem resolveSuffix_of_library? {r : Registry} {path : String}
    {folding : Folding LibraryVariant} (h : r.library? path = some folding) (variant : String)
    (buildType : Option String) :
    r.resolveSuffix path variant buildType = folding.resolve? variant buildType := by
  rw [resolveSuffix, h, Option.bind_some]

end Registry

end BuildVariants

import BuildVariants.Fault
import BuildVariants.Text.Quoted

/-!
A folding says which targets stand for the variants of a project: the data of each target under its
suffix, and for every variant the suffix of the target that stands for it. The type holds only
foldings in which every assigned suffix belongs to a target; `ofParts` refuses the others and names
the variants that would be left without a target.
-/

set_option autoImplicit false
set_option relaxedAutoImplicit false

namespace BuildVariants

/-- The targets that stand for the variants of a project, and the build types whose variants have a
target each. -/
structure Folding (α : Type) where
  targets : SortedMap α
  assignment : SortedMap String
  expanded : NameSet
  assigned : ∀ entry ∈ assignment.entries, targets.contains entry.2 = true
  deriving DecidableEq

/-- A name that a look-up did not find. -/
structure UnknownName where
  name : String
  deriving DecidableEq

def UnknownName.message (e : UnknownName) : String := Text.quoted e.name

def Fault.danglingVariants (variants suffixes : List String) : Fault where
  kind := .invariant
  message := "Variants map to suffixes without a generated target."
  context := .ofList
    [("variants", ", ".intercalate variants), ("suffixes", ", ".intercalate suffixes)]

namespace Folding

variable {α : Type}

/-- The variants in ascending order whose suffix is not one of a target. -/
def dangling (targets : SortedMap α) (assignment : SortedMap String) : List String :=
  (assignment.entries.filter fun entry => !targets.contains entry.2).map (·.1)

theorem assigned_of_dangling_eq_nil {targets : SortedMap α} {assignment : SortedMap String}
    (h : dangling targets assignment = []) :
    ∀ entry ∈ assignment.entries, targets.contains entry.2 = true := by
  intro entry hentry
  simp only [dangling, List.map_eq_nil_iff, List.filter_eq_nil_iff] at h
  simpa using h entry hentry

/-- The folding of the given parts, unless a variant is assigned to a suffix without a target. -/
def ofParts (targets : SortedMap α) (assignment : SortedMap String) (expanded : NameSet) :
    Except Fault (Folding α) :=
  if h : dangling targets assignment = [] then
    .ok ⟨targets, assignment, expanded, assigned_of_dangling_eq_nil h⟩
  else .error (.danglingVariants (dangling targets assignment) targets.keys)

def empty : Folding α := ⟨.empty, .empty, .empty, fun _ h => nomatch h⟩

def suffixes (f : Folding α) : List String := f.targets.keys

/-- Whether a single target without a suffix stands for all variants. -/
def isFull (f : Folding α) : Bool := f.targets.size = 1 && f.targets.contains ""

/-- Whether the variants of a build type have a target each. -/
def isExpanded (f : Folding α) (buildType : String) : Bool := f.expanded.contains buildType

def suffixOf (f : Folding α) (variant : String) : Except UnknownName String :=
  match f.assignment.get? variant with
  | some suffix => .ok suffix
  | none => .error ⟨variant⟩

def target (f : Folding α) (suffix : String) : Except UnknownName α :=
  match f.targets.get? suffix with
  | some data => .ok data
  | none => .error ⟨suffix⟩

end Folding

end BuildVariants

import BuildVariants.Folding
import BuildVariants.Folding.Group

/-!
Folding all variants of a project. The variants are grouped by build type, each group is folded, and
the outcomes are merged, where no two build types may share a suffix. A last step folds the targets
of all build types into one target without a suffix. It is taken only if no build type was expanded,
nothing objects and the targets are interchangeable, and changes nothing otherwise.
-/

set_option autoImplicit false
set_option relaxedAutoImplicit false

namespace BuildVariants

/-- What folding makes of the variants of a project. -/
structure Outcome (α : Type) where
  targets : SortedMap α
  assignment : SortedMap String
  expanded : NameSet
  decisions : List Decision
  deriving DecidableEq

/-- Whether and how to fold across build types, with the objection against it if there is one. -/
structure CrossFold (α : Type) where
  enabled : Bool
  interchangeable : List α → Bool
  objection : Option String := none

structure FoldingReport (α : Type) where
  folding : Folding α
  decisions : List Decision
  deriving DecidableEq

/-- The first key that an earlier entry has too, with the earlier and the later value. -/
def firstRepeat {β : Type} (earlier : List (String × β)) :
    List (String × β) → Option (String × β × β)
  | [] => none
  | (key, value) :: rest =>
    match earlier.lookup key with
    | some owner => some (key, owner, value)
    | none => firstRepeat ((key, value) :: earlier) rest

namespace Outcome

variable {α : Type}

/-- The suffixes of the targets of all groups, each with the build type it belongs to. -/
def owners (groups : List (GroupOutcome α)) : List (String × String) :=
  groups.flatMap fun group => group.targets.map fun target => (target.1, group.buildType)

/-- The outcomes of all build types together, unless two of them claim the same suffix. -/
def merge (groups : List (GroupOutcome α)) : Except Collision (Outcome α) :=
  match firstRepeat [] (owners groups) with
  | some (suffix, owner, other) => .error (.buildTypes suffix owner other)
  | none => .ok {
      targets := .ofList (groups.flatMap (·.targets))
      assignment := .ofList (groups.flatMap (·.assignment))
      expanded := .ofList ((groups.filter (·.expanded)).map (·.buildType))
      decisions := groups.map (·.decision) }

/-- Whether the targets may be folded across build types. -/
def allowsCross (cross : CrossFold α) (outcome : Outcome α) : Bool :=
  cross.enabled && outcome.expanded.isEmpty && 1 < outcome.targets.size &&
    cross.objection.isNone && cross.interchangeable outcome.targets.values

/-- The outcome in which the target with the smallest suffix stands for all variants. -/
def foldAcross (rules : FoldRules α) (outcome : Outcome α) : Outcome α where
  targets := .ofList (outcome.targets.entries.head?.toList.map fun entry =>
    ("", rules.moveTarget entry.2 entry.1 ""))
  assignment := outcome.assignment.map fun _ => ""
  expanded := .empty
  decisions :=
    [.full (NameSet.ofList (outcome.assignment.keys.map rules.buildTypeOf)).names
      outcome.assignment.keys]

/-- The outcome after folding across build types where that is asked for and allowed. -/
def cross (rules : FoldRules α) (config : Option (CrossFold α)) (outcome : Outcome α) :
    Outcome α :=
  match config with
  | none => outcome
  | some cross => if outcome.allowsCross cross then outcome.foldAcross rules else outcome

def report (outcome : Outcome α) : Except Fault (FoldingReport α) := do
  let folding ← Folding.ofParts outcome.targets outcome.assignment outcome.expanded
  return ⟨folding, outcome.decisions⟩

end Outcome

namespace FoldRules

variable {α : Type}

/-- The build types of the variants in ascending order, each with its variants. -/
def groups (rules : FoldRules α) (variants : SortedMap α) : List (String × SortedMap α) :=
  (NameSet.ofList (variants.keys.map rules.buildTypeOf)).names.map fun buildType =>
    (buildType, variants.filterKeys fun variant => rules.buildTypeOf variant = buildType)

def foldBuildTypes (rules : FoldRules α) (blocker : Option (Blocker α)) (variants : OrderedMap α) :
    Except Collision (Outcome α) := do
  let outcomes ← (rules.groups variants.sorted).mapM fun group =>
    rules.foldGroup blocker group.1 group.2
  Outcome.merge outcomes

/-- The outcome of the variants of a project. It depends on the names and data of the variants and
not on their order. -/
def fold (rules : FoldRules α) (blocker : Option (Blocker α)) (config : Option (CrossFold α))
    (variants : OrderedMap α) : Except Collision (Outcome α) := do
  let outcome ← rules.foldBuildTypes blocker variants
  return outcome.cross rules config

end FoldRules

end BuildVariants

import BuildVariants.Fault
import BuildVariants.Folding.Decision
import BuildVariants.Suffix

/-!
Folding the variants of one build type. Each variant has a suffix of its own, and two variants of
the group may not share one. The variants are folded into one target under the suffix of the build
type if nothing blocks them and they are interchangeable. Otherwise each keeps its target.
-/

set_option autoImplicit false
set_option relaxedAutoImplicit false

namespace BuildVariants

/-- How the variants of a kind are named, renamed, grouped and compared. -/
structure FoldRules (α : Type) where
  nameOf : α → String
  rename : α → String → α
  interchangeable : List α → Bool
  buildTypeOf : String → String
  suffixOf : String → String := Suffix.ofName
  foldedName : Option (α → String → String → String) := none

/-- Why the group of a build type may not be folded, if there is a reason. -/
abbrev Blocker (α : Type) := String → SortedMap α → Option String

/-- Why there is no folding: variants of one build type claim the same suffix, or targets of two
build types do. -/
inductive Collision
  | variants (buildType : String) (claims : List (String × List String))
  | buildTypes (suffix owner other : String)
  deriving DecidableEq

def Collision.fault : Collision → Fault
  | .variants buildType claims => {
      kind := .suffixCollision (.ofList claims)
      message := "Distinct variant names normalize to the same target suffix."
      hint := some "Rename the flavors or build types so their normalized names differ."
      context := .ofList [("build_type", buildType)] }
  | .buildTypes suffix owner other => {
      kind := .suffixCollision (.ofList [(suffix, [owner, other])])
      message := "Two build types produce the same target suffix."
      hint := some "Build type and variant names must normalize to distinct suffixes."
      context := .ofList [("operation", "merge_build_types")] }

/-- What folding makes of the variants of one build type. -/
structure GroupOutcome (α : Type) where
  buildType : String
  targets : List (String × α)
  assignment : List (String × String)
  expanded : Bool
  decision : Decision
  deriving DecidableEq

namespace FoldRules

variable {α : Type}

/-- The reason that is given for variants that are not interchangeable. -/
def differingConfiguration : String := "variants differ in configuration"

/-- The data of a target that moves from one suffix to another, under its new name. -/
def moveTarget (rules : FoldRules α) (data : α) (old new : String) : α :=
  rules.rename data
    (match rules.foldedName with
      | some foldedName => foldedName data old new
      | none => Suffix.strip (rules.nameOf data) old ++ new)

/-- The suffixes that more than one of the variants claim, each with its claimants. -/
def contested (rules : FoldRules α) (variants : List String) : List (String × List String) :=
  let suffixed := variants.map fun variant => (rules.suffixOf variant, variant)
  let claims := (NameSet.ofList (suffixed.map (·.1))).names.map fun suffix =>
    (suffix, (suffixed.filter (·.1 = suffix)).map (·.2))
  claims.filter fun claim => 1 < claim.2.length

def keepApart (rules : FoldRules α) (buildType : String) (group : SortedMap α) (expanded : Bool)
    (decision : Decision) : GroupOutcome α where
  buildType := buildType
  targets := group.entries.map fun entry => (rules.suffixOf entry.1, entry.2)
  assignment := group.keys.map fun variant => (variant, rules.suffixOf variant)
  expanded := expanded
  decision := decision

/-- The outcome in which the first variant stands for all of them. -/
def foldTogether (rules : FoldRules α) (buildType : String) (group : SortedMap α) :
    GroupOutcome α where
  buildType := buildType
  targets := group.entries.head?.toList.map fun entry =>
    (rules.suffixOf buildType,
      rules.moveTarget entry.2 (rules.suffixOf entry.1) (rules.suffixOf buildType))
  assignment := group.keys.map fun variant => (variant, rules.suffixOf buildType)
  expanded := false
  decision := .folded buildType group.keys (rules.suffixOf buildType)

/-- The outcome of a group without contested suffixes. A single variant is never blocked. -/
def settleGroup (rules : FoldRules α) (blocker : Option (Blocker α)) (buildType : String)
    (group : SortedMap α) : GroupOutcome α :=
  match group.keys with
  | [variant] =>
    rules.keepApart buildType group false (.single buildType variant (rules.suffixOf variant))
  | variants =>
    match blocker.bind fun block => block buildType group with
    | some reason => rules.keepApart buildType group true (.expanded buildType variants reason)
    | none =>
      if rules.interchangeable group.values then rules.foldTogether buildType group
      else
        rules.keepApart buildType group true
          (.expanded buildType variants differingConfiguration)

def foldGroup (rules : FoldRules α) (blocker : Option (Blocker α)) (buildType : String)
    (group : SortedMap α) : Except Collision (GroupOutcome α) :=
  match rules.contested group.keys with
  | [] => .ok (rules.settleGroup blocker buildType group)
  | claims => .error (.variants buildType claims)

end FoldRules

end BuildVariants

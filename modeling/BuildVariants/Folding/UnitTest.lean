import BuildVariants.Folding.Outcome
import BuildVariants.Variant

/-!
Folding unit test variants. No target depends on a test, so the state of its dependencies does not
matter. A target that stands for several test variants is named after its project and suffix.
-/

set_option autoImplicit false
set_option relaxedAutoImplicit false

namespace BuildVariants.UnitTestVariant

def foldRules (project : String) (buildTypeOf : String → String) : FoldRules UnitTestVariant where
  nameOf := name
  rename := rename
  interchangeable := allInterchangeable
  buildTypeOf := buildTypeOf
  foldedName := some fun _ _ suffix => Suffix.testTargetName project suffix

def crossFold (crossBuildTypes : Bool) : CrossFold UnitTestVariant where
  enabled := crossBuildTypes
  interchangeable := allInterchangeable

def foldOutcome (crossBuildTypes : Bool) (project : String) (buildTypeOf : String → String)
    (variants : OrderedMap UnitTestVariant) : Except Collision (Outcome UnitTestVariant) :=
  (foldRules project buildTypeOf).fold none (some (crossFold crossBuildTypes)) variants

def fold (crossBuildTypes : Bool) (project : String) (buildTypeOf : String → String)
    (variants : OrderedMap UnitTestVariant) : Except Fault (FoldingReport UnitTestVariant) :=
  match foldOutcome crossBuildTypes project buildTypeOf variants with
  | .error collision => .error collision.fault
  | .ok outcome => outcome.report

end BuildVariants.UnitTestVariant

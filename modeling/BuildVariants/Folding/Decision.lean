import BuildVariants.Text.Quoted

/-!
Decisions report what folding did to the variants of a build type or of the whole project. They
are shown to people and decide nothing.
-/

set_option autoImplicit false
set_option relaxedAutoImplicit false

namespace BuildVariants

/-- What folding did: it folded the variants of a build type into one target, kept them apart for a
reason, found a single variant, or folded all build types into one target. -/
inductive Decision
  | folded (buildType : String) (variants : List String) (suffix : String)
  | expanded (buildType : String) (variants : List String) (reason : String)
  | single (buildType variant suffix : String)
  | full (buildTypes variants : List String)
  deriving DecidableEq

namespace Decision

/-- The build type that a decision is about, unless it is about all of them. -/
def buildType? : Decision → Option String
  | .folded buildType _ _ => some buildType
  | .expanded buildType _ _ => some buildType
  | .single buildType _ _ => some buildType
  | .full _ _ => none

def text : Decision → String
  | .folded _ variants suffix =>
    "compressed " ++ Text.quotedList variants ++ " -> [" ++ suffix ++ "]"
  | .expanded _ variants reason =>
    "kept expanded " ++ Text.quotedList variants ++ " (" ++ reason ++ ")"
  | .single _ variant suffix => "single variant " ++ variant ++ " -> [" ++ suffix ++ "]"
  | .full buildTypes _ =>
    "fully compressed [" ++ ", ".intercalate buildTypes ++ "] -> single target"

end Decision

end BuildVariants

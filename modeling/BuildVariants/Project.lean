/-!
Projects of a build, identified by their paths, whose parts are separated by colons.
-/

set_option autoImplicit false
set_option relaxedAutoImplicit false

namespace BuildVariants

structure Project where
  path : String
  isLibrary : Bool
  deriving DecidableEq

def lastPart (path : List Char) : List Char :=
  ((path.reverse.dropWhile (· = ':')).takeWhile (· ≠ ':')).reverse

/-- The last part of the path that is not empty, or `root` where there is none. -/
def Project.name (p : Project) : String :=
  let part := lastPart p.path.toList
  if part.isEmpty then "root" else String.ofList part

end BuildVariants

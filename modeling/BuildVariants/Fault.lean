import BuildVariants.Json
import BuildVariants.OrderedMap

/-!
Faults: the errors that the library reports. A fault has a kind with a stable code, a message, an
optional hint and a context of named facts. The kinds of a dependency cycle and of a suffix
collision carry the cycle and the contested suffixes as data. A `Failure` is a fault, or an error
that a source of variants met outside this library.
-/

set_option autoImplicit false
set_option relaxedAutoImplicit false

namespace BuildVariants

/-- The stable identifiers of faults. -/
inductive FaultCode
  | validation | dependencyCycle | suffixCollision | extraction | invariant
  deriving DecidableEq

def FaultCode.text : FaultCode → String
  | .validation => "E_VALIDATION"
  | .dependencyCycle => "E_DEPENDENCY_CYCLE"
  | .suffixCollision => "E_SUFFIX_COLLISION"
  | .extraction => "E_EXTRACTION"
  | .invariant => "E_INVARIANT"

/-- The contested suffixes, each with its claimants in ascending order. -/
abbrev Claims := SortedMap (List String)

/-- Brings the claimants of every suffix into ascending order. -/
def Claims.ofList (claims : List (String × List String)) : Claims :=
  SortedMap.ofList (claims.map fun claim => (claim.1, sortNames claim.2))

/-- The kind of a fault with the data that belongs to it. -/
inductive FaultKind
  | general (code : FaultCode)
  | validation
  | dependencyCycle (cycle : List String)
  | suffixCollision (claims : Claims)
  | extraction
  | invariant
  deriving DecidableEq

def FaultKind.code : FaultKind → FaultCode
  | .general code => code
  | .validation => .validation
  | .dependencyCycle _ => .dependencyCycle
  | .suffixCollision _ => .suffixCollision
  | .extraction => .extraction
  | .invariant => .invariant

/-- An error with the facts that help to find its cause. -/
structure Fault where
  kind : FaultKind
  message : String
  hint : Option String := none
  context : OrderedMap String := .empty
  deriving DecidableEq

namespace Fault

def code (f : Fault) : FaultCode := f.kind.code

/-- Whether a fault reports a defect of the library itself, from which a run does not recover. -/
def isInvariant (f : Fault) : Bool := f.kind = .invariant

/-- The line of a hint, which an absent or empty hint does not have. -/
def hintLines : Option String → List String
  | none => []
  | some hint => if hint.isEmpty then [] else ["Hint: " ++ hint]

/-- The lines of the context, one for each fact that is not empty. -/
def contextLines (context : OrderedMap String) : List String :=
  (context.entries.filter fun fact => !fact.2.isEmpty).map fun fact =>
    "  " ++ fact.1 ++ ": " ++ fact.2

/-- A suffix as a report shows it, where the empty one has a name. -/
def shownSuffix (suffix : String) : String := if suffix.isEmpty then "<empty>" else suffix

/-- The lines of the data that belongs to the kind of a fault. -/
def detailLines (f : Fault) : List String :=
  match f.kind with
  | .dependencyCycle cycle => ["  cycle: " ++ " -> ".intercalate cycle]
  | .suffixCollision claims =>
    claims.entries.map fun claim =>
      "  " ++ shownSuffix claim.1 ++ " claimed by: " ++ ", ".intercalate claim.2
  | _ => []

/-- The whole text of a fault: message, hint, context and data, one line each. -/
def text (f : Fault) : String :=
  "\n".intercalate
    (f.message :: hintLines f.hint ++ contextLines f.context ++ f.detailLines)

/-- The data that belongs to the kind of a fault, as the members of a JSON object. -/
def details (f : Fault) : List (String × Json) :=
  match f.kind with
  | .dependencyCycle cycle => [("cycle", .texts cycle)]
  | .suffixCollision claims =>
    [("collisions", .obj (claims.entries.map fun claim => (claim.1, .texts claim.2)))]
  | _ => []

def contextJson (f : Fault) : Json :=
  .obj (f.context.entries.map fun fact => (fact.1, .str fact.2))

/-- A fault as a JSON object, in which an absent hint and absent data have no member. -/
def toJson (f : Fault) : Json :=
  .obj ([("code", .str f.code.text), ("message", .str f.text), ("context", f.contextJson)] ++
    (f.hint.map fun hint => ("hint", Json.str hint)).toList ++
    if f.details.isEmpty then [] else [("details", .obj f.details)])

end Fault

/-- Why a stage of an analysis ended without a result. -/
inductive Failure
  | fault (f : Fault)
  | unexpected (message : String)
  deriving DecidableEq

namespace Failure

def text : Failure → String
  | .fault f => f.text
  | .unexpected message => message

/-- The stable code of a failure, which only a fault has. -/
def code? : Failure → Option FaultCode
  | .fault f => some f.code
  | .unexpected _ => none

def details : Failure → List (String × Json)
  | .fault f => f.details
  | .unexpected _ => []

def isInvariant : Failure → Bool
  | .fault f => f.isInvariant
  | .unexpected _ => false

end Failure

end BuildVariants

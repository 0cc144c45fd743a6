import BuildVariants.SortedMap

/-!
The JSON values of the run log and of the summary: null, booleans, integers, texts, arrays and
objects. The members of an object are a list; `canonical` brings them into ascending order of the
keys at every level, with the last value of a repeated key, so that two values denote the same
data exactly if their canonical forms are equal.
-/

set_option autoImplicit false
set_option relaxedAutoImplicit false

namespace BuildVariants

/-- A JSON value without fractions. -/
inductive Json
  | null
  | bool (value : Bool)
  | int (value : Int)
  | str (text : String)
  | arr (items : List Json)
  | obj (members : List (String × Json))

namespace Json

mutual

/-- The value with the members of every object in ascending order of their keys. -/
def canonical : Json → Json
  | .null => .null
  | .bool value => .bool value
  | .int value => .int value
  | .str text => .str text
  | .arr items => .arr (canonicalItems items)
  | .obj members => .obj (SortedMap.ofList (canonicalMembers members)).entries

def canonicalItems : List Json → List Json
  | [] => []
  | item :: rest => canonical item :: canonicalItems rest

def canonicalMembers : List (String × Json) → List (String × Json)
  | [] => []
  | (key, value) :: rest => (key, canonical value) :: canonicalMembers rest

end

def texts (items : List String) : Json := .arr (items.map .str)

def optionalText : Option String → Json
  | none => .null
  | some text => .str text

end Json

end BuildVariants

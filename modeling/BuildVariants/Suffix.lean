import BuildVariants.Text.Pattern

/-!
The suffix of a build target. A camel-cased variant name is cut into tokens of lower-case letters
or of digits, and its suffix is the tokens with a hyphen before each: `freeDebug` gives
`-free-debug`. Only ASCII letters and digits belong to a token. Everything else separates tokens.
-/

set_option autoImplicit false
set_option relaxedAutoImplicit false

namespace BuildVariants.Suffix

def separator : Pattern := .run fun c => !c.isAlphanum

/-- Capitals, of which the last is not followed by a small letter. -/
def capitals : Pattern := .seq (.run Char.isUpper) (.unlessNext Char.isLower)

/-- Small letters after at most one capital. -/
def word : Pattern := .seq (.optional Char.isUpper) (.run Char.isLower)

def camelToken : Pattern := .choice capitals (.choice word (.run Char.isDigit))

/-- The tokens of a variant name, in order and in lower case. -/
def tokens (name : String) : List String :=
  (separator.split name.toList).flatMap fun chunk =>
    (camelToken.findAll chunk).map fun token => String.ofList (token.map Char.toLower)

/-- The tokens with a hyphen before each. -/
def ofTokens : List String → String
  | [] => ""
  | token :: rest => "-" ++ token ++ ofTokens rest

/-- The target suffix of a variant or build type, which is empty if the name has no tokens. -/
def ofName (name : String) : String := ofTokens (tokens name)

def targetName (base suffix : String) : String := base ++ suffix

def testTargetName (project suffix : String) : String := project ++ suffix ++ "-test"

/-- The name without the suffix at its end, or the name itself if it does not end in the suffix. -/
def strip (name suffix : String) : String :=
  if suffix.toList.isSuffixOf name.toList then
    String.ofList (name.toList.take (name.toList.length - suffix.toList.length))
  else name

end BuildVariants.Suffix

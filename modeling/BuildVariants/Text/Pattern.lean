/-!
Patterns, which match at the front of a text. A pattern may match in several ways, and these are
tried in order: a run takes as many characters as it can before it takes fewer, and an alternative
is tried after those before it. The first way is the match. A text is searched from left to right,
and the search goes on after each match.
-/

set_option autoImplicit false
set_option relaxedAutoImplicit false

namespace BuildVariants

/-- A run of one or more characters of a kind, one or no such character, the condition that no such
character comes next, a sequence of two patterns, and a choice between two. -/
inductive Pattern
  | run (kind : Char → Bool)
  | optional (kind : Char → Bool)
  | unlessNext (kind : Char → Bool)
  | seq (first next : Pattern)
  | choice (first other : Pattern)

namespace Pattern

/-- The lengths of the runs of a kind at the front of a text, the longest first. -/
def runLengths (kind : Char → Bool) : List Char → List Nat
  | [] => []
  | c :: rest => if kind c then (runLengths kind rest).map (· + 1) ++ [1] else []

/-- The lengths of the matches at the front of a text, in the order in which they are tried. -/
def lengths : Pattern → List Char → List Nat
  | run kind, text => runLengths kind text
  | optional kind, text => if text.head?.any kind then [1, 0] else [0]
  | unlessNext kind, text => if text.head?.any kind then [] else [0]
  | seq first next, text =>
    (first.lengths text).flatMap fun count => (next.lengths (text.drop count)).map (count + ·)
  | choice first other, text => first.lengths text ++ other.lengths text

def firstLength (pattern : Pattern) (text : List Char) : Option Nat := (pattern.lengths text).head?

/-- The matches in a text once some characters, which belong to the last match, are passed. -/
def matchesAfter (pattern : Pattern) : Nat → List Char → List (List Char)
  | _, [] => []
  | count + 1, _ :: rest => matchesAfter pattern count rest
  | 0, c :: rest =>
    match pattern.firstLength (c :: rest) with
    | some (count + 1) => (c :: rest.take count) :: matchesAfter pattern count rest
    | _ => matchesAfter pattern 0 rest

/-- The matches in a text that have at least one character. -/
def findAll (pattern : Pattern) (text : List Char) : List (List Char) :=
  pattern.matchesAfter 0 text

def prepend (c : Char) : List (List Char) → List (List Char)
  | [] => [[c]]
  | piece :: rest => (c :: piece) :: rest

/-- The pieces of a text between matches once some characters, which belong to the last match, are
passed. -/
def piecesAfter (pattern : Pattern) : Nat → List Char → List (List Char)
  | _, [] => [[]]
  | count + 1, _ :: rest => piecesAfter pattern count rest
  | 0, c :: rest =>
    match pattern.firstLength (c :: rest) with
    | some (count + 1) => [] :: piecesAfter pattern count rest
    | _ => prepend c (piecesAfter pattern 0 rest)

/-- The pieces of a text before, between and after the matches with at least one character. -/
def split (pattern : Pattern) (text : List Char) : List (List Char) := pattern.piecesAfter 0 text

end Pattern

end BuildVariants

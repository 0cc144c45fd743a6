import BuildVariants.Json
import BuildVariants.Text.Hex

/-!
The JSON text of a value. It is printable ASCII: a character that is not is written by its UTF-16
units. Members stand in ascending order of their keys. `line` writes a value on one line and
`block` writes each item and member on a line of its own.
-/

set_option autoImplicit false
set_option relaxedAutoImplicit false

namespace BuildVariants.Json

/-- A UTF-16 unit as an escape of four hexadecimal digits. -/
def unitEscape (unit : Nat) : List Char := '\\' :: 'u' :: Text.hexDigits 4 unit

/-- A character by its UTF-16 units: itself up to `U+FFFF`, and a surrogate pair above. -/
def unitEscapes (c : Char) : List Char :=
  if c.toNat < 0x10000 then unitEscape c.toNat
  else
    unitEscape (0xd800 + (c.toNat - 0x10000) / 0x400) ++
      unitEscape (0xdc00 + (c.toNat - 0x10000) % 0x400)

def escapedChar (c : Char) : List Char :=
  if c = '\x22' || c = '\\' then ['\\', c]
  else if c = '\n' then ['\\', 'n']
  else if c = '\r' then ['\\', 'r']
  else if c = '\t' then ['\\', 't']
  else if c.toNat = 0x8 then ['\\', 'b']
  else if c.toNat = 0xc then ['\\', 'f']
  else if 0x20 ≤ c.toNat && c.toNat < 0x7f then [c]
  else unitEscapes c

def quoteChars (text : String) : List Char :=
  '\x22' :: text.toList.flatMap escapedChar ++ ['\x22']

def intChars (n : Int) : List Char :=
  if n < 0 then '-' :: Nat.toDigits 10 n.natAbs else Nat.toDigits 10 n.natAbs

mutual

/-- A value on one line, with its members in the order in which they stand. -/
def lineChars : Json → List Char
  | .null => "null".toList
  | .bool true => "true".toList
  | .bool false => "false".toList
  | .int value => intChars value
  | .str text => quoteChars text
  | .arr [] => "[]".toList
  | .arr (item :: rest) => '[' :: lineChars item ++ lineItems rest ++ [']']
  | .obj [] => "\x7b\x7d".toList
  | .obj ((key, value) :: rest) =>
    '\x7b' :: quoteChars key ++ ": ".toList ++ lineChars value ++ lineMembers rest ++ ['\x7d']

/-- The items after the first one. -/
def lineItems : List Json → List Char
  | [] => []
  | item :: rest => ", ".toList ++ lineChars item ++ lineItems rest

/-- The members after the first one. -/
def lineMembers : List (String × Json) → List Char
  | [] => []
  | (key, value) :: rest =>
    ", ".toList ++ quoteChars key ++ ": ".toList ++ lineChars value ++ lineMembers rest

end

/-- A new line at a depth of nesting, indented by two spaces for each level. -/
def newLine (depth : Nat) : List Char := '\n' :: List.replicate (2 * depth) ' '

mutual

/-- A value at a depth of nesting, with each item and member on a line of its own. -/
def blockChars (depth : Nat) : Json → List Char
  | .null => "null".toList
  | .bool true => "true".toList
  | .bool false => "false".toList
  | .int value => intChars value
  | .str text => quoteChars text
  | .arr [] => "[]".toList
  | .arr (item :: rest) =>
    '[' :: newLine (depth + 1) ++ blockChars (depth + 1) item ++ blockItems (depth + 1) rest ++
      newLine depth ++ [']']
  | .obj [] => "\x7b\x7d".toList
  | .obj ((key, value) :: rest) =>
    '\x7b' :: newLine (depth + 1) ++ quoteChars key ++ ": ".toList ++
      blockChars (depth + 1) value ++ blockMembers (depth + 1) rest ++ newLine depth ++ ['\x7d']

def blockItems (depth : Nat) : List Json → List Char
  | [] => []
  | item :: rest => ',' :: newLine depth ++ blockChars depth item ++ blockItems depth rest

def blockMembers (depth : Nat) : List (String × Json) → List Char
  | [] => []
  | (key, value) :: rest =>
    ',' :: newLine depth ++ quoteChars key ++ ": ".toList ++ blockChars depth value ++
      blockMembers depth rest

end

def line (value : Json) : String := String.ofList (lineChars value.canonical)

def block (value : Json) : String := String.ofList (blockChars 0 value.canonical)

end BuildVariants.Json

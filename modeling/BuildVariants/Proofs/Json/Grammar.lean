import BuildVariants.Json
import Mathlib.Computability.Language

/-!
The grammar of JSON documents. The documents of a value are the texts that denote it: white space
may stand around values, commas and colons, a character of a text may be written by itself or by an
escape, in several ways, and a number is written in decimal digits without superfluous zeros. The
members of an object stand in the order in which the value lists them.
-/

set_option autoImplicit false
set_option relaxedAutoImplicit false

namespace BuildVariants.Json

def isSpace (c : Char) : Bool := c = ' ' || c = '\t' || c = '\n' || c = '\r'

def spaces : Language Char := {text | ∀ c ∈ text, isSpace c = true}

def padded (part : Language Char) : Language Char := spaces * part * spaces

/-- The escapes of one sign behind a backslash, with the characters that they stand for. -/
def shortEscapes : List (Char × Char) :=
  [('\x22', '\x22'), ('\\', '\\'), ('/', '/'), ('b', '\x08'), ('f', '\x0c'), ('n', '\n'),
    ('r', '\r'), ('t', '\t')]

def hexValue? (c : Char) : Option Nat :=
  if '0' ≤ c ∧ c ≤ '9' then some (c.toNat - '0'.toNat)
  else if 'a' ≤ c ∧ c ≤ 'f' then some (c.toNat - 'a'.toNat + 10)
  else if 'A' ≤ c ∧ c ≤ 'F' then some (c.toNat - 'A'.toNat + 10)
  else none

/-- The number that hexadecimal digits write, the highest digit first. -/
def hexNumber? (digits : List Char) : Option Nat :=
  digits.foldlM (fun number c => (hexValue? c).map (16 * number + ·)) 0

/-- The escape of a UTF-16 unit: four hexadecimal digits behind a backslash and a letter. -/
def unitForms (unit : Nat) : Language Char :=
  {text | ∃ digits, text = '\\' :: 'u' :: digits ∧ digits.length = 4 ∧
    hexNumber? digits = some unit}

/-- The UTF-16 units of a character: its code up to `U+FFFF`, and a surrogate pair above. -/
inductive IsUtf16 (c : Char) : List Nat → Prop
  | single : IsUtf16 c [c.toNat]
  | pair (high low : Nat) (hhigh : 0xd800 ≤ high ∧ high < 0xdc00)
    (hlow : 0xdc00 ≤ low ∧ low < 0xe000)
    (hcode : c.toNat = 0x10000 + 0x400 * (high - 0xd800) + (low - 0xdc00)) : IsUtf16 c [high, low]

/-- The ways to write a character between quotes: itself, an escape of one sign, or the escapes of
its units. -/
inductive CharForm (c : Char) : List Char → Prop
  | plain (hcode : 0x20 ≤ c.toNat) (hquote : c ≠ '\x22') (hescape : c ≠ '\\') : CharForm c [c]
  | short (sign : Char) (h : (sign, c) ∈ shortEscapes) : CharForm c ['\\', sign]
  | units (units : List Nat) (text : List Char) (hunits : IsUtf16 c units)
    (h : text ∈ (units.map unitForms).prod) : CharForm c text

def charForms (c : Char) : Language Char := {text | CharForm c text}

def textForms (text : String) : Language Char :=
  {['\x22']} * (text.toList.map charForms).prod * {['\x22']}

/-- Decimal digits of a number, without a zero in front of other digits. -/
structure IsNumeral (digits : List Char) : Prop where
  ne_nil : digits ≠ []
  isDigit : ∀ c ∈ digits, c.isDigit = true
  zero : digits.head? = some '0' → digits = ['0']

inductive IntForm : Int → List Char → Prop
  | plain (digits : List Char) (h : IsNumeral digits) :
    IntForm (Nat.ofDigitChars 10 digits 0) digits
  | minus (digits : List Char) (h : IsNumeral digits) :
    IntForm (-(Nat.ofDigitChars 10 digits 0)) ('-' :: digits)

def intForms (n : Int) : Language Char := {text | IntForm n text}

/-- Elements with a comma before each. -/
def further : List (Language Char) → Language Char
  | [] => 1
  | element :: rest => {[',']} * element * further rest

/-- Elements with commas between them, or white space alone. -/
def separated : List (Language Char) → Language Char
  | [] => spaces
  | first :: rest => first * further rest

mutual

/-- The forms of a value, without white space around it. -/
def forms : Json → Language Char
  | .null => {"null".toList}
  | .bool value => {if value then "true".toList else "false".toList}
  | .int value => intForms value
  | .str text => textForms text
  | .arr items => {['[']} * separated (itemForms items) * {[']']}
  | .obj members => {['\x7b']} * separated (memberForms members) * {['\x7d']}

def itemForms : List Json → List (Language Char)
  | [] => []
  | item :: rest => padded (forms item) :: itemForms rest

def memberForms : List (String × Json) → List (Language Char)
  | [] => []
  | (key, value) :: rest =>
    (padded (textForms key) * {[':']} * padded (forms value)) :: memberForms rest

end

/-- The documents of a value: its forms with white space around them. -/
def documents (value : Json) : Language Char := padded value.forms

def pairForms (member : String × Json) : Language Char :=
  padded (textForms member.1) * {[':']} * member.2.documents

theorem forms_arr (items : List Json) :
    (arr items).forms = {['[']} * separated (items.map documents) * {[']']} := by
  have hitems : itemForms items = items.map documents := by
    induction items with
    | nil => rfl
    | cons item rest ih => rw [itemForms, ih, List.map_cons, documents]
  rw [forms, hitems]

theorem forms_obj (members : List (String × Json)) :
    (obj members).forms = {['\x7b']} * separated (members.map pairForms) * {['\x7d']} := by
  have hmembers : memberForms members = members.map pairForms := by
    induction members with
    | nil => rfl
    | cons member rest ih => rw [memberForms, ih, List.map_cons, pairForms, documents]
  rw [forms, hmembers]

variable {t : List Char}

theorem mem_enclosed_iff {opening closing : Char} {content : Language Char} :
    t ∈ {[opening]} * content * {[closing]} ↔
      ∃ inner ∈ content, t = opening :: (inner ++ [closing]) := by
  constructor
  · rintro ⟨_, ⟨_, rfl, inner, hinner, rfl⟩, _, rfl, rfl⟩
    exact ⟨inner, hinner, rfl⟩
  · rintro ⟨inner, hinner, rfl⟩
    exact ⟨_, ⟨_, rfl, inner, hinner, rfl⟩, _, rfl, rfl⟩

theorem mem_further_cons {element : Language Char} {rest : List (Language Char)} :
    t ∈ further (element :: rest) ↔
      ∃ text ∈ element, ∃ more ∈ further rest, t = ',' :: (text ++ more) := by
  constructor
  · rintro ⟨_, ⟨_, rfl, text, htext, rfl⟩, more, hmore, rfl⟩
    exact ⟨text, htext, more, hmore, rfl⟩
  · rintro ⟨text, htext, more, hmore, rfl⟩
    exact ⟨_, ⟨_, rfl, text, htext, rfl⟩, more, hmore, rfl⟩

end BuildVariants.Json

import BuildVariants.Text.CodePoints

/-!
Blank text: nothing but white space. The white space characters are those of Unicode's property
together with the four information separators.
-/

set_option autoImplicit false
set_option relaxedAutoImplicit false

namespace BuildVariants.Text

/-- Horizontal tab to carriage return, the information separators and the space, and the white
space outside ASCII. -/
def whiteSpace : CodePoints :=
  [(0x9, 0xd), (0x1c, 0x20), (0x85, 0x85), (0xa0, 0xa0), (0x1680, 0x1680), (0x2000, 0x200a),
    (0x2028, 0x2029), (0x202f, 0x202f), (0x205f, 0x205f), (0x3000, 0x3000)]

theorem contains_whiteSpace {c : Char} (h : c.isWhitespace = true) :
    whiteSpace.contains c = true := by
  simp only [Char.isWhitespace, Bool.or_eq_true, decide_eq_true_eq] at h
  rcases h with ((rfl | rfl) | rfl) | rfl <;> decide

def isBlank (text : String) : Bool := text.toList.all whiteSpace.contains

end BuildVariants.Text

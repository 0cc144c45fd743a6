/-!
Hexadecimal digits of a fixed width.
-/

set_option autoImplicit false
set_option relaxedAutoImplicit false

namespace BuildVariants.Text

/-- The lower-case hexadecimal digits of a number, padded with zeros to a width. -/
def hexDigits (width n : Nat) : List Char :=
  let digits := Nat.toDigits 16 n
  List.replicate (width - digits.length) '0' ++ digits

end BuildVariants.Text

/-!
ASCII letters and digits by their codes. A character is a capital, a small letter, a digit or none
of these, and only capitals have another lower case.
-/

set_option autoImplicit false
set_option relaxedAutoImplicit false

namespace BuildVariants

variable {c : Char}

theorem isUpper_iff : c.isUpper = true ↔ 65 ≤ c.toNat ∧ c.toNat ≤ 90 := decide_eq_true_iff

theorem isLower_iff : c.isLower = true ↔ 97 ≤ c.toNat ∧ c.toNat ≤ 122 :=
  Bool.and_eq_true_iff.trans (and_congr decide_eq_true_iff decide_eq_true_iff)

theorem isDigit_iff : c.isDigit = true ↔ 48 ≤ c.toNat ∧ c.toNat ≤ 57 := Char.isDigit_iff_toNat

theorem isAlphanum_eq (c : Char) : c.isAlphanum = (c.isUpper || c.isLower || c.isDigit) := rfl

theorem isAlphanum_iff :
    c.isAlphanum = true ↔ c.isUpper = true ∨ c.isLower = true ∨ c.isDigit = true := by
  simp [isAlphanum_eq, or_assoc]

theorem others_of_isUpper (h : c.isUpper = true) : c.isLower = false ∧ c.isDigit = false := by
  rw [isUpper_iff] at h
  simp only [← Bool.not_eq_true, isLower_iff, isDigit_iff]
  omega

theorem others_of_isLower (h : c.isLower = true) : c.isUpper = false ∧ c.isDigit = false := by
  rw [isLower_iff] at h
  simp only [← Bool.not_eq_true, isUpper_iff, isDigit_iff]
  omega

theorem others_of_isDigit (h : c.isDigit = true) : c.isUpper = false ∧ c.isLower = false := by
  rw [isDigit_iff] at h
  simp only [← Bool.not_eq_true, isUpper_iff, isLower_iff]
  omega

theorem toLower_of_not_isUpper (h : c.isUpper = false) : c.toLower = c :=
  dif_neg (of_decide_eq_false h)

theorem toNat_toLower_of_isUpper (h : c.isUpper = true) : c.toLower.toNat = c.toNat + 32 := by
  have hval : c.toLower.val = c.val + 32 := congrArg Char.val (dif_pos (of_decide_eq_true h))
  have hsum : c.toLower.toNat = (c.toNat + 32) % 2 ^ 32 := by
    rw [← Char.toNat_val, hval, UInt32.toNat_add]
    rfl
  rw [isUpper_iff] at h
  omega

theorem isLower_toLower_of_isUpper (h : c.isUpper = true) : c.toLower.isLower = true := by
  rw [isLower_iff, toNat_toLower_of_isUpper h]
  rw [isUpper_iff] at h
  omega

theorem isDigit_toLower (c : Char) : c.toLower.isDigit = c.isDigit := by
  cases hc : c.isUpper with
  | true =>
    have hlower := isLower_toLower_of_isUpper hc
    rw [(others_of_isLower hlower).2, (others_of_isUpper hc).2]
  | false => rw [toLower_of_not_isUpper hc]

theorem isLower_or_isDigit_toLower (h : c.isAlphanum = true) :
    c.toLower.isLower = true ∨ c.toLower.isDigit = true := by
  rcases isAlphanum_iff.mp h with hupper | hlower | hdigit
  · exact Or.inl (isLower_toLower_of_isUpper hupper)
  · rw [toLower_of_not_isUpper (others_of_isLower hlower).1]
    exact Or.inl hlower
  · rw [isDigit_toLower]
    exact Or.inr hdigit

end BuildVariants

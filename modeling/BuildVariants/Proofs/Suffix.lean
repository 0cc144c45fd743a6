import BuildVariants.Proofs.Suffix.Split

/-!
Which names have the empty suffix. Every ASCII letter or digit of a name belongs to one of its
tokens, so the suffix of a name is empty exactly if the name has neither letters nor digits. A
suffix that was appended to a base is stripped again.
-/

set_option autoImplicit false
set_option relaxedAutoImplicit false

namespace BuildVariants.Suffix

/-- A name is wordless if it has no ASCII letters or digits, as the empty name. -/
def Wordless (name : String) : Prop := ∀ c ∈ name.toList, c.isAlphanum = false

instance (name : String) : Decidable (Wordless name) :=
  List.decidableBAll (fun c : Char => c.isAlphanum = false) name.toList

theorem ofTokens_eq_empty_iff {tokens : List String} : ofTokens tokens = "" ↔ tokens = [] := by
  cases tokens with
  | nil => simp [ofTokens]
  | cons token rest => simp [ofTokens, String.append_eq_empty_iff]

theorem ofName_eq_empty_iff {name : String} : ofName name = "" ↔ Wordless name := by
  rw [ofName, ofTokens_eq_empty_iff, tokens_eq, List.map_eq_nil_iff, split_eq_nil_iff, Wordless]

theorem strip_append (base suffix : String) : strip (base ++ suffix) suffix = base := by
  simp [strip]

end BuildVariants.Suffix

import BuildVariants.Proofs.Text.Letters
import BuildVariants.Proofs.Text.Pattern
import BuildVariants.Suffix
import Mathlib.Data.List.Basic
import Mathlib.Data.List.TakeWhile

/-!
The tokens of a name by a rule on adjacent characters. The patterns that cut a name look at runs of
any length. What they find between two letters or digits depends on these and on the character after
them alone, so the tokens of a name are those that one pass with this rule gives.
-/

set_option autoImplicit false
set_option relaxedAutoImplicit false

namespace BuildVariants.Suffix

/-- Whether a token ends between two adjacent letters or digits, given what stands after them: at a
change between letters and digits, where a capital follows a small letter, and before the last
capital of a run that a small letter follows. -/
def isBoundary (c d : Char) (after : Option Char) : Bool :=
  (c.isDigit != d.isDigit) || (c.isLower && d.isUpper) ||
    (c.isUpper && d.isUpper && after.any Char.isLower)

/-- Whether the token of a letter or digit goes on with the first character of the rest. -/
def goesOn (c : Char) : List Char → Bool
  | [] => false
  | d :: rest => d.isAlphanum && !isBoundary c d rest.head?

/-- The tokens of a text by the rule on adjacent characters, in order and in lower case. -/
def split : List Char → List (List Char)
  | [] => []
  | c :: rest =>
    if c.isAlphanum then
      if goesOn c rest then Pattern.prepend c.toLower (split rest) else [c.toLower] :: split rest
    else split rest

section Characters

variable {c d : Char} {rest : List Char}

theorem exists_goesOn (h : goesOn c rest = true) :
    ∃ d more, rest = d :: more ∧ d.isAlphanum = true ∧ isBoundary c d more.head? = false := by
  cases rest with
  | nil => cases h
  | cons d more =>
    rw [goesOn, Bool.and_eq_true, Bool.not_eq_true'] at h
    exact ⟨d, more, rfl, h⟩

theorem goesOn_of_isDigit (h : c.isDigit = true) : goesOn c (d :: rest) = d.isDigit := by
  obtain ⟨hupper, hlower⟩ := others_of_isDigit h
  cases hd : d.isDigit with
  | true => simp [goesOn, isBoundary, isAlphanum_eq, h, hd, hupper, hlower]
  | false => simp [goesOn, isBoundary, h, hd]

theorem goesOn_of_isLower (h : c.isLower = true) : goesOn c (d :: rest) = d.isLower := by
  obtain ⟨hupper, hdigit⟩ := others_of_isLower h
  cases hd : d.isLower with
  | true =>
    obtain ⟨hcapital, hother⟩ := others_of_isLower hd
    simp [goesOn, isBoundary, isAlphanum_eq, hdigit, hupper, hd, hother, hcapital]
  | false =>
    cases hcapital : d.isUpper with
    | true => simp [goesOn, isBoundary, h, hcapital]
    | false => simp [goesOn, isBoundary, isAlphanum_eq, hdigit, hupper, hd, hcapital]

theorem goesOn_of_isUpper (h : c.isUpper = true) :
    goesOn c (d :: rest) = (d.isLower || (d.isUpper && !rest.head?.any Char.isLower)) := by
  obtain ⟨hlower, hdigit⟩ := others_of_isUpper h
  cases hd : d.isDigit with
  | true =>
    obtain ⟨hupper, hsmall⟩ := others_of_isDigit hd
    simp [goesOn, isBoundary, hdigit, hd, hupper, hsmall]
  | false =>
    cases hupper : d.isUpper with
    | true =>
      obtain ⟨hsmall, -⟩ := others_of_isUpper hupper
      simp [goesOn, isBoundary, isAlphanum_eq, h, hdigit, hd, hupper, hlower, hsmall]
    | false => simp [goesOn, isBoundary, isAlphanum_eq, hdigit, hd, hupper, hlower]

end Characters

def tokenLength : List Char → Nat
  | [] => 0
  | c :: rest => if goesOn c rest then tokenLength rest + 1 else 1

section Matches

variable {c : Char} {rest text : List Char}

theorem tokenLength_of_run {kind : Char → Bool}
    (hkind : ∀ {c d rest}, kind c = true → goesOn c (d :: rest) = kind d) (h : kind c = true) :
    tokenLength (c :: rest) = (rest.takeWhile kind).length + 1 := by
  induction rest generalizing c with
  | nil => rfl
  | cons d rest ih =>
    rw [tokenLength, hkind h]
    cases hd : kind d with
    | true => rw [if_pos rfl, ih hd, List.takeWhile_cons_of_pos hd, List.length_cons]
    | false => simp [hd]

/-- Capitals that start after a capital are tried first, and that capital alone is tried last. -/
theorem lengths_capitals_cons (h : c.isUpper = true) :
    capitals.lengths (c :: rest) = (capitals.lengths rest).map (· + 1) ++
      (if rest.head?.any Char.isLower then [] else [1]) := by
  simp only [capitals, Pattern.lengths, Pattern.runLengths, if_pos h, List.flatMap_append,
    List.flatMap_map, List.map_flatMap, List.drop_succ_cons, List.flatMap_singleton, List.drop_zero]
  congr 1
  · refine List.flatMap_congr fun count _ => ?_
    split
    · rfl
    · simp [Nat.add_comm]
  · split
    · rfl
    · rfl

theorem lengths_capitals_of_false (h : text.head?.any Char.isUpper = false) :
    capitals.lengths text = [] := by
  rw [capitals, Pattern.lengths, Pattern.lengths, Pattern.runLengths_of_false h]
  rfl

/-- Capitals match as far as the first token reaches, unless a single capital precedes a small
letter. -/
theorem head?_lengths_capitals (h : c.isUpper = true) :
    (capitals.lengths (c :: rest)).head? =
      if rest.head?.any Char.isLower then none else some (tokenLength (c :: rest)) := by
  induction rest generalizing c with
  | nil => rw [lengths_capitals_cons h]; rfl
  | cons d rest ih =>
    rw [lengths_capitals_cons h, List.head?_append, List.head?_map, tokenLength,
      goesOn_of_isUpper h]
    cases hd : d.isUpper with
    | true =>
      obtain ⟨hlower, -⟩ := others_of_isUpper hd
      rw [ih hd]
      cases hnext : rest.head?.any Char.isLower with
      | true => simp [hlower]
      | false => simp [hlower]
    | false =>
      rw [lengths_capitals_of_false (by simpa using hd)]
      cases hlower : d.isLower with
      | true => simp [hlower]
      | false => simp [hlower]

theorem head?_lengths_word_of_isLower (h : c.isLower = true) :
    (word.lengths (c :: rest)).head? = some (tokenLength (c :: rest)) := by
  obtain ⟨hupper, -⟩ := others_of_isLower h
  simp [word, Pattern.lengths, hupper, Pattern.head?_runLengths_cons h,
    tokenLength_of_run goesOn_of_isLower h]

theorem head?_lengths_word_of_isUpper (h : c.isUpper = true)
    (hnext : rest.head?.any Char.isLower = true) :
    (word.lengths (c :: rest)).head? = some (tokenLength (c :: rest)) := by
  obtain ⟨hlower, -⟩ := others_of_isUpper h
  cases rest with
  | nil => cases hnext
  | cons d rest =>
    have hd : d.isLower = true := by simpa using hnext
    have hgoes : goesOn c (d :: rest) = true := by simp [goesOn_of_isUpper h, hd]
    rw [tokenLength, if_pos hgoes, tokenLength_of_run goesOn_of_isLower hd]
    simp [word, Pattern.lengths, h, List.head?_append, Pattern.head?_runLengths_cons hd,
      Nat.add_comm]

/-- The pattern of a token matches as far as the first token reaches by the rule. -/
theorem firstLength_camelToken (h : c.isAlphanum = true) :
    camelToken.firstLength (c :: rest) = some (tokenLength (c :: rest)) := by
  rw [camelToken, Pattern.firstLength_choice, Pattern.firstLength_choice, Pattern.firstLength,
    Pattern.firstLength]
  rcases isAlphanum_iff.mp h with hupper | hlower | hdigit
  · rw [head?_lengths_capitals hupper]
    cases hnext : rest.head?.any Char.isLower with
    | true => simp [head?_lengths_word_of_isUpper hupper hnext]
    | false => simp
  · obtain ⟨hupper, -⟩ := others_of_isLower hlower
    rw [lengths_capitals_of_false (by simpa using hupper), head?_lengths_word_of_isLower hlower]
    rfl
  · obtain ⟨hupper, hlower⟩ := others_of_isDigit hdigit
    have hsmall : Pattern.runLengths Char.isLower (c :: rest) = [] :=
      Pattern.runLengths_of_false (by simpa using hlower)
    have hword : word.lengths (c :: rest) = [] := by simp [word, Pattern.lengths, hupper, hsmall]
    rw [lengths_capitals_of_false (by simpa using hupper), hword,
      Pattern.firstLength_run_cons hdigit, tokenLength_of_run goesOn_of_isDigit hdigit]
    rfl

end Matches

theorem split_eq_take (c : Char) {rest : List Char} (h : ∀ d ∈ c :: rest, d.isAlphanum = true) :
    split (c :: rest) = ((c :: rest).take (tokenLength (c :: rest))).map Char.toLower ::
      split ((c :: rest).drop (tokenLength (c :: rest))) := by
  induction rest generalizing c with
  | nil => simp [split, goesOn, tokenLength, h c]
  | cons d rest ih =>
    obtain ⟨hc, hrest⟩ := List.forall_mem_cons.mp h
    rw [split, if_pos hc, tokenLength]
    cases hgoes : goesOn c (d :: rest) with
    | true =>
      rw [if_pos rfl, if_pos rfl, ih d hrest]
      rfl
    | false => rfl

theorem map_findAll_camelToken (chunk : List Char) (h : ∀ c ∈ chunk, c.isAlphanum = true) :
    (camelToken.findAll chunk).map (List.map Char.toLower) = split chunk := by
  induction hlength : chunk.length using Nat.strongRecOn generalizing chunk with
  | _ length ih =>
    cases chunk with
    | nil => rfl
    | cons c rest =>
      obtain ⟨count, hcount⟩ : ∃ count, tokenLength (c :: rest) = count + 1 := by
        rw [tokenLength]
        split
        · exact ⟨_, rfl⟩
        · exact ⟨0, rfl⟩
      have hfirst : camelToken.firstLength (c :: rest) = some (count + 1) :=
        hcount ▸ firstLength_camelToken (h c List.mem_cons_self)
      have hlater : ∀ d ∈ rest.drop count, d.isAlphanum = true := fun d hd =>
        h d (List.mem_cons_of_mem c (List.mem_of_mem_drop hd))
      have hshorter : (rest.drop count).length < length := by
        rw [← hlength, List.length_drop, List.length_cons]
        omega
      rw [Pattern.findAll_cons_of_some hfirst, List.map_cons, ih _ hshorter _ hlater rfl,
        split_eq_take c h, hcount]
      rfl

theorem split_eq_nil_iff {cs : List Char} : split cs = [] ↔ ∀ c ∈ cs, c.isAlphanum = false := by
  induction cs with
  | nil => simp [split]
  | cons c rest ih =>
    rw [split, List.forall_mem_cons, ← ih]
    cases hc : c.isAlphanum with
    | false => simp
    | true =>
      simp only [↓reduceIte, Bool.true_eq_false, false_and, iff_false]
      split
      · exact Pattern.prepend_ne_nil c.toLower _
      · exact List.cons_ne_nil _ _

/-- Whether a token goes on does not depend on what stands beyond the chunk. -/
theorem goesOn_takeWhile (c : Char) (text : List Char) :
    goesOn c (text.takeWhile Char.isAlphanum) = goesOn c text := by
  cases text with
  | nil => rfl
  | cons d rest =>
    cases hd : d.isAlphanum with
    | false => simp [goesOn, hd]
    | true =>
      cases rest with
      | nil => simp [goesOn, hd]
      | cons e rest =>
        cases he : e.isAlphanum with
        | true => simp [goesOn, hd, he]
        | false =>
          have hlower : e.isLower = false := by
            rw [← Bool.not_eq_true] at he ⊢
            exact fun hlower => he (isAlphanum_iff.mpr (Or.inr (Or.inl hlower)))
          simp [goesOn, isBoundary, hd, he, hlower]

theorem split_takeWhile_ne_nil {c : Char} {rest : List Char} (h : goesOn c rest = true) :
    split (rest.takeWhile Char.isAlphanum) ≠ [] := by
  obtain ⟨d, more, rfl, hd, -⟩ := exists_goesOn h
  rw [ne_eq, split_eq_nil_iff, List.takeWhile_cons_of_pos hd, List.forall_mem_cons]
  simp [hd]

theorem split_dropWhile (text : List Char) :
    split (text.dropWhile fun c => !c.isAlphanum) = split text := by
  induction text with
  | nil => rfl
  | cons c rest ih =>
    cases hc : c.isAlphanum with
    | true => simp [hc]
    | false => simpa [hc, split] using ih

/-- The first chunk of a text is its front of letters and digits, all chunks have nothing else, and
their tokens are those of the text. -/
theorem exists_chunks (text : List Char) :
    ∃ more, separator.split text = text.takeWhile Char.isAlphanum :: more ∧
      (∀ chunk ∈ more, ∀ c ∈ chunk, c.isAlphanum = true) ∧
      split (text.takeWhile Char.isAlphanum) ++ more.flatMap split = split text := by
  -- What separates chunks is passed as a whole, so the induction is on the length.
  induction hlength : text.length using Nat.strongRecOn generalizing text with
  | _ length ih =>
    cases text with
    | nil => exact ⟨[], rfl, by simp, rfl⟩
    | cons c rest =>
      have hrest : rest.length < length := by simp [← hlength]
      cases hc : c.isAlphanum with
      | true =>
        obtain ⟨more, hsplit, hchunks, htokens⟩ := ih _ hrest rest rfl
        have hnone : separator.firstLength (c :: rest) = none :=
          Pattern.firstLength_run_of_false (by simp [hc])
        refine ⟨more, ?_, hchunks, ?_⟩
        · rw [Pattern.split_cons_of_none hnone, hsplit, List.takeWhile_cons_of_pos hc]
          rfl
        · rw [List.takeWhile_cons_of_pos hc, split, split, if_pos hc, if_pos hc, goesOn_takeWhile,
            ← htokens]
          cases hgoes : goesOn c rest with
          | true => exact (Pattern.prepend_append (split_takeWhile_ne_nil hgoes) _).symm
          | false => rfl
      | false =>
        have hshorter : (rest.dropWhile fun d => !d.isAlphanum).length < length :=
          Nat.lt_of_le_of_lt (List.dropWhile_sublist _).length_le hrest
        obtain ⟨more, hsplit, hchunks, htokens⟩ := ih _ hshorter _ rfl
        have hchunk : ∀ d ∈ (rest.dropWhile fun d => !d.isAlphanum).takeWhile Char.isAlphanum,
            d.isAlphanum = true := fun d => List.mem_takeWhile_imp
        refine ⟨_, ?_, List.forall_mem_cons.mpr ⟨hchunk, hchunks⟩, ?_⟩
        · rw [separator, Pattern.split_run_cons (by simp [hc]), ← separator, hsplit,
            List.takeWhile_cons_of_neg (by simp [hc])]
        · rw [List.takeWhile_cons_of_neg (by simp [hc]), List.flatMap_cons, htokens,
            split_dropWhile]
          simp [split, hc]

/-- The tokens of a name are those by the rule on adjacent characters. -/
theorem tokens_eq (name : String) : tokens name = (split name.toList).map String.ofList := by
  obtain ⟨more, hsplit, hchunks, htokens⟩ := exists_chunks name.toList
  have hchunk : ∀ chunk : List Char, (∀ c ∈ chunk, c.isAlphanum = true) →
      ((camelToken.findAll chunk).map fun token => String.ofList (token.map Char.toLower)) =
        (split chunk).map String.ofList := by
    intro chunk h
    rw [← map_findAll_camelToken chunk h, List.map_map]
    rfl
  rw [tokens, hsplit, List.flatMap_cons, hchunk _ fun c hc => List.mem_takeWhile_imp hc,
    List.flatMap_congr fun chunk hmem => hchunk chunk (hchunks chunk hmem), ← htokens,
    List.map_append, List.map_flatMap]

end BuildVariants.Suffix

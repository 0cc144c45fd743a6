import BuildVariants.Proofs.Suffix.Split
import BuildVariants.Proofs.Text.Pieces

/-!
Where a name is cut into tokens. The tokens of a name spell its letters and digits, each token has
letters alone or digits alone, and whether a token ends between two adjacent letters or digits
depends on these and on the character after them. Whatever is neither a letter nor a digit separates
tokens as well. No other list of tokens has these properties.
-/

set_option autoImplicit false
set_option relaxedAutoImplicit false

namespace BuildVariants.Suffix

/-- The ASCII letters and digits of a text, in order and in lower case. -/
def spelling (text : List Char) : List Char := (text.filter Char.isAlphanum).map Char.toLower

section Spelling

variable {c : Char} {text : List Char}

theorem spelling_cons (h : c.isAlphanum = true) (text : List Char) :
    spelling (c :: text) = c.toLower :: spelling text := by
  simp [spelling, h]

theorem spelling_cons_of_false (h : c.isAlphanum = false) (text : List Char) :
    spelling (c :: text) = spelling text := by
  simp [spelling, h]

theorem spelling_ne_nil (h : c.isAlphanum = true) (hmem : c ∈ text) : spelling text ≠ [] :=
  List.ne_nil_of_mem (List.mem_map_of_mem (List.mem_filter.mpr ⟨hmem, h⟩))

theorem spelling_append (text more : List Char) :
    spelling (text ++ more) = spelling text ++ spelling more := by
  simp [spelling]

theorem spelling_eq_nil_iff : spelling text = [] ↔ ∀ c ∈ text, c.isAlphanum = false := by
  simp [spelling]

theorem exists_of_spelling_eq {before more : List Char} (h : spelling text = before ++ c :: more) :
    ∃ front d rest, text = front ++ d :: rest ∧ d.isAlphanum = true ∧ d.toLower = c ∧
      spelling front = before ∧ spelling rest = more := by
  obtain ⟨kept, later, hkept, rfl, hlater⟩ := List.map_eq_append_iff.mp h
  obtain ⟨d, others, rfl, rfl, rfl⟩ := List.map_eq_cons_iff.mp hlater
  obtain ⟨front, tail, rfl, rfl, htail⟩ := List.filter_eq_append_iff.mp hkept
  obtain ⟨skipped, rest, rfl, hskipped, hd, rfl⟩ := List.filter_eq_cons_iff.mp htail
  have hnone : spelling skipped = [] := spelling_eq_nil_iff.mpr (by simpa using hskipped)
  refine ⟨front ++ skipped, d, rest, by simp, hd, rfl, ?_, rfl⟩
  rw [spelling_append, hnone, List.append_nil, spelling]

theorem isLower_or_isDigit_of_mem_spelling (h : c ∈ spelling text) :
    c.isLower = true ∨ c.isDigit = true := by
  obtain ⟨d, hd, rfl⟩ := List.mem_map.mp h
  exact isLower_or_isDigit_toLower (List.mem_filter.mp hd).2

end Spelling

/-- A token ends after a front of a name: the tokens up to some place spell that front. -/
def EndsToken (tokens : List String) (front : List Char) : Prop :=
  Ends (tokens.map String.toList) (spelling front)

/-- Tokens cut a name at the boundaries of its camel case, and leave out no letter or digit. -/
structure CutsCamelCase (name : List Char) (tokens : List String) : Prop where
  spells : tokens.flatMap String.toList = spelling name
  uniform : ∀ token ∈ tokens, token ≠ "" ∧
    ((∀ c ∈ token.toList, c.isLower = true) ∨ ∀ c ∈ token.toList, c.isDigit = true)
  boundary : ∀ (front : List Char) (c d : Char) (rest : List Char),
    name = front ++ c :: d :: rest → c.isAlphanum = true → d.isAlphanum = true →
    (EndsToken tokens (front ++ [c]) ↔
      c.isDigit ≠ d.isDigit ∨ (c.isLower = true ∧ d.isUpper = true) ∨
        (c.isUpper = true ∧ d.isUpper = true ∧ ∃ e ∈ rest.head?, e.isLower = true))
  separated : ∀ (front : List Char) (c : Char) (between : List Char) (d : Char) (rest : List Char),
    name = front ++ c :: (between ++ d :: rest) → c.isAlphanum = true → d.isAlphanum = true →
    (∃ x ∈ between, x.isAlphanum = false) →
    ∃ passed, passed <+: between ∧ EndsToken tokens (front ++ c :: passed)

variable {b c d : Char} {text front rest : List Char}

theorem exists_split (h : c.isAlphanum = true) (rest : List Char) :
    ∃ token later, split (c :: rest) = (c.toLower :: token) :: later := by
  rw [split, if_pos h]
  cases goesOn c rest with
  | true =>
    cases split rest with
    | nil => exact ⟨[], [], rfl⟩
    | cons token later => exact ⟨token, later, rfl⟩
  | false => exact ⟨[], split rest, rfl⟩

theorem flatten_prepend (c : Char) (pieces : List (List Char)) :
    (Pattern.prepend c pieces).flatten = c :: pieces.flatten := by
  cases pieces with
  | nil => rfl
  | cons piece rest => rfl

theorem flatten_split (text : List Char) : (split text).flatten = spelling text := by
  induction text with
  | nil => rfl
  | cons c rest ih =>
    cases hc : c.isAlphanum with
    | true =>
      rw [spelling_cons hc, ← ih, split, if_pos hc]
      cases goesOn c rest with
      | true => exact flatten_prepend c.toLower (split rest)
      | false => rfl
    | false => simpa [split, hc, spelling_cons_of_false hc] using ih

/-- A letter or digit at the front of a text moves the ends of its tokens, and a token ends right
behind it exactly if that token does not go on. -/
theorem ends_split_cons_iff (hb : b.isAlphanum = true) :
    Ends (split (b :: rest)) (b.toLower :: text) ↔
      (goesOn b rest = true → text ≠ []) ∧ Ends (split rest) text := by
  rw [split, if_pos hb]
  cases hgoes : goesOn b rest with
  | true =>
    obtain ⟨d, more, rfl, hd, -⟩ := exists_goesOn hgoes
    obtain ⟨token, later, hsplit⟩ := exists_split hd more
    rw [hsplit]
    simpa [Pattern.prepend] using ends_cons_cons_iff (List.cons_ne_nil d.toLower token)
  | false => simpa using ends_append_iff (List.cons_ne_nil b.toLower [])

theorem ends_split_iff (hc : c.isAlphanum = true) (front rest : List Char) :
    Ends (split (front ++ c :: rest)) (spelling (front ++ [c])) ↔ goesOn c rest = false := by
  induction front with
  | nil =>
    rw [List.nil_append, List.nil_append, spelling_cons hc, ends_split_cons_iff hc]
    simp [spelling, ends_nil]
  | cons b front ih =>
    rw [List.cons_append, List.cons_append]
    cases hb : b.isAlphanum with
    | true =>
      have hne : spelling (front ++ [c]) ≠ [] := spelling_ne_nil hc (by simp)
      rw [spelling_cons hb, ends_split_cons_iff hb, ih]
      exact and_iff_right fun _ => hne
    | false => rw [spelling_cons_of_false hb, split, if_neg (by simp [hb]), ih]

theorem ends_split_of_false (hc : c.isAlphanum = false) (front rest : List Char) :
    Ends (split (front ++ c :: rest)) (spelling front) := by
  induction front with
  | nil => exact ends_nil _
  | cons b front ih =>
    rw [List.cons_append]
    cases hb : b.isAlphanum with
    | true =>
      rw [spelling_cons hb, ends_split_cons_iff hb]
      refine ⟨fun hgoes => ?_, ih⟩
      obtain ⟨d, more, htext, hd, -⟩ := exists_goesOn hgoes
      cases front with
      | nil =>
        rw [List.nil_append, List.cons_eq_cons] at htext
        rw [htext.1, hd] at hc
        cases hc
      | cons e front =>
        rw [List.cons_append, List.cons_eq_cons] at htext
        exact spelling_ne_nil hd (by simp [htext.1])
    | false => rwa [spelling_cons_of_false hb, split, if_neg (by simp [hb])]

theorem isDigit_eq_of_mem_split {token : List Char} (h : token ∈ split text) :
    ∃ digit, ∀ c ∈ token, c.isDigit = digit := by
  induction text generalizing token with
  | nil => cases h
  | cons c rest ih =>
    cases hc : c.isAlphanum with
    | false =>
      rw [split, if_neg (by simp [hc])] at h
      exact ih h
    | true =>
      rw [split, if_pos hc] at h
      cases hgoes : goesOn c rest with
      | false =>
        rw [hgoes, if_neg Bool.false_ne_true, List.mem_cons] at h
        rcases h with rfl | h
        · exact ⟨c.toLower.isDigit, by simp⟩
        · exact ih h
      | true =>
        obtain ⟨d, more, rfl, hd, hboundary⟩ := exists_goesOn hgoes
        obtain ⟨next, later, hsplit⟩ := exists_split hd more
        rw [hgoes, if_pos rfl, hsplit, Pattern.prepend, List.mem_cons] at h
        rcases h with rfl | h
        -- The token gets the character in front and keeps its kind, which is that of `d`.
        · obtain ⟨digit, hdigit⟩ := ih (hsplit ▸ List.mem_cons_self)
          have hsame : c.isDigit = d.isDigit := by
            simp only [isBoundary, Bool.or_eq_false_iff, bne_eq_false_iff_eq] at hboundary
            exact hboundary.1.1
          have hfirst := hdigit d.toLower List.mem_cons_self
          rw [isDigit_toLower, ← hsame, ← isDigit_toLower] at hfirst
          exact ⟨digit, List.forall_mem_cons.mpr ⟨hfirst, hdigit⟩⟩
        · exact ih (hsplit ▸ List.mem_cons_of_mem _ h)

theorem ne_nil_of_mem_prepend {pieces : List (List Char)} {piece : List Char}
    (h : piece ∈ Pattern.prepend c pieces) : piece ∈ pieces ∨ piece ≠ [] := by
  cases pieces with
  | nil => exact Or.inr (by simp_all [Pattern.prepend])
  | cons first rest =>
    rw [Pattern.prepend, List.mem_cons] at h
    rcases h with rfl | h
    · exact Or.inr (List.cons_ne_nil c first)
    · exact Or.inl (List.mem_cons_of_mem first h)

theorem ne_nil_of_mem_split {token : List Char} (h : token ∈ split text) : token ≠ [] := by
  induction text with
  | nil => cases h
  | cons c rest ih =>
    rw [split] at h
    split at h
    · split at h
      · exact (ne_nil_of_mem_prepend h).elim ih id
      · rcases List.mem_cons.mp h with rfl | h
        · exact List.cons_ne_nil _ _
        · exact ih h
    · exact ih h

theorem uniform_of_mem_split {token : List Char} (h : token ∈ split text) :
    (∀ c ∈ token, c.isLower = true) ∨ ∀ c ∈ token, c.isDigit = true := by
  have hkind : ∀ c ∈ token, c.isLower = true ∨ c.isDigit = true := by
    intro c hc
    have hspelling : c ∈ spelling text := by
      rw [← flatten_split]
      exact List.mem_flatten.mpr ⟨token, h, hc⟩
    exact isLower_or_isDigit_of_mem_spelling hspelling
  obtain ⟨digit, hdigit⟩ := isDigit_eq_of_mem_split h
  cases digit with
  | true => exact Or.inr hdigit
  | false =>
    refine Or.inl fun c hc => (hkind c hc).resolve_right ?_
    simp [hdigit c hc]

theorem map_toList_tokens (name : String) :
    (tokens name).map String.toList = split name.toList := by
  rw [tokens_eq, List.map_map]
  exact List.map_id'' (fun _ => String.toList_ofList) _

theorem isBoundary_iff {after : Option Char} : isBoundary c d after = true ↔
    c.isDigit ≠ d.isDigit ∨ (c.isLower = true ∧ d.isUpper = true) ∨
      (c.isUpper = true ∧ d.isUpper = true ∧ ∃ e ∈ after, e.isLower = true) := by
  simp [isBoundary, or_assoc, and_assoc, Option.any_eq_true]

theorem cutsCamelCase_tokens (name : String) : CutsCamelCase name.toList (tokens name) where
  spells := by rw [List.flatMap_def, map_toList_tokens, flatten_split]
  uniform := by
    intro token htoken
    have hpiece : token.toList ∈ split name.toList := by
      rw [← map_toList_tokens]
      exact List.mem_map_of_mem htoken
    refine ⟨?_, uniform_of_mem_split hpiece⟩
    rintro rfl
    exact ne_nil_of_mem_split hpiece String.toList_empty
  boundary := by
    intro front c d rest hname hc hd
    rw [EndsToken, map_toList_tokens, hname, ends_split_iff hc, goesOn, hd, Bool.true_and,
      Bool.not_eq_false', isBoundary_iff]
  separated := by
    rintro front c between d rest hname - - ⟨x, hx, hother⟩
    obtain ⟨passed, more, rfl⟩ := List.append_of_mem hx
    have hfront : name.toList = (front ++ c :: passed) ++ x :: (more ++ d :: rest) := by
      simp [hname]
    refine ⟨passed, List.prefix_append passed (x :: more), ?_⟩
    rw [EndsToken, map_toList_tokens, hfront]
    exact ends_split_of_false hother _ _

section Unique

variable {name : List Char} {tokens others : List String}

theorem CutsCamelCase.endsToken {skipped : List Char} (h : CutsCamelCase name tokens)
    (hothers : CutsCamelCase name others) (hname : name = front ++ c :: (skipped ++ d :: rest))
    (hc : c.isAlphanum = true) (hd : d.isAlphanum = true) (hskipped : spelling skipped = [])
    (hends : EndsToken tokens (front ++ [c])) : EndsToken others (front ++ [c]) := by
  cases skipped with
  | nil =>
    have hboundary := (h.boundary front c d rest hname hc hd).mp hends
    exact (hothers.boundary front c d rest hname hc hd).mpr hboundary
  | cons x more =>
    have hother := spelling_eq_nil_iff.mp hskipped
    obtain ⟨passed, hpassed, hcut⟩ := hothers.separated front c (x :: more) d rest hname hc hd
      ⟨x, List.mem_cons_self, hother x List.mem_cons_self⟩
    have hnone : spelling passed = [] :=
      spelling_eq_nil_iff.mpr fun y hy => hother y (hpassed.subset hy)
    have hsame : spelling (front ++ c :: passed) = spelling (front ++ [c]) := by
      rw [spelling_append, spelling_append, spelling_cons hc, hnone, spelling_cons hc]
      rfl
    rwa [EndsToken, hsame] at hcut

/-- Where tokens cut a name is determined by the boundaries of its camel case. -/
theorem CutsCamelCase.ends (h : CutsCamelCase name tokens) (hothers : CutsCamelCase name others)
    (hends : Ends (tokens.map String.toList) text) : Ends (others.map String.toList) text := by
  obtain ⟨more, hmore⟩ : ∃ more, spelling name = text ++ more := by
    obtain ⟨first, later, hfirst, rfl⟩ := hends
    refine ⟨later.flatten, ?_⟩
    rw [← h.spells, List.flatMap_def, hfirst, List.flatten_append]
  -- Both lists end at the front and at the end of the spelling. Elsewhere a letter or digit of the
  -- name stands on each side, with or without something else between them.
  cases more with
  | nil =>
    rw [List.append_nil, ← hothers.spells] at hmore
    exact ⟨others.map String.toList, [], (List.append_nil _).symm, hmore⟩
  | cons y more =>
    rcases List.eq_nil_or_concat text with rfl | ⟨before, x, rfl⟩
    · exact ends_nil _
    · rw [List.concat_eq_append, List.append_assoc, List.singleton_append] at hmore
      obtain ⟨front, c, tail, hname, hc, rfl, rfl, htail⟩ := exists_of_spelling_eq hmore
      obtain ⟨skipped, d, rest, rfl, hd, -, hskipped, -⟩ :=
        exists_of_spelling_eq (htail.trans (List.nil_append _).symm)
      have hlast : spelling (front ++ [c]) = spelling front ++ [c.toLower] := by
        rw [spelling_append, spelling_cons hc]
        rfl
      rw [List.concat_eq_append, ← hlast] at hends ⊢
      exact h.endsToken hothers hname hc hd hskipped hends

theorem CutsCamelCase.ne_nil (h : CutsCamelCase name tokens) :
    ∀ piece ∈ tokens.map String.toList, piece ≠ [] := by
  intro piece hpiece
  obtain ⟨token, htoken, rfl⟩ := List.mem_map.mp hpiece
  rw [ne_eq, String.toList_eq_nil_iff]
  exact (h.uniform token htoken).1

theorem CutsCamelCase.unique (h : CutsCamelCase name tokens) (hothers : CutsCamelCase name others) :
    tokens = others := by
  have hpieces : tokens.map String.toList = others.map String.toList :=
    eq_of_ends_iff h.ne_nil hothers.ne_nil fun text => ⟨h.ends hothers, hothers.ends h⟩
  exact (List.map_inj_right fun token other => String.toList_inj.mp).mp hpieces

end Unique

/-- The tokens of a name cut it at the boundaries of its camel case, and no others do. -/
theorem cutsCamelCase_iff (name : String) (others : List String) :
    CutsCamelCase name.toList others ↔ others = tokens name := by
  constructor
  · intro h
    exact h.unique (cutsCamelCase_tokens name)
  · rintro rfl
    exact cutsCamelCase_tokens name

example : tokens "freeXMLHttp_2d" = ["free", "xml", "http", "2", "d"] := by decide

end BuildVariants.Suffix

import BuildVariants.Proofs.Folding.Collision
import BuildVariants.Proofs.Suffix.Tokens

/-!
Suffixes as canonical forms of names. A suffix consists of runs of small letters and runs of digits
with a hyphen before each, and these runs are its tokens again. Cutting a suffix therefore gives the
tokens of the name that it was made from. Two names have one suffix exactly if they have the same
tokens, and these are the names whose collision is reported.
-/

set_option autoImplicit false
set_option relaxedAutoImplicit false

namespace BuildVariants.Suffix

def IsRun (run : String) : Prop :=
  run ≠ "" ∧ ((∀ c ∈ run.toList, c.isLower = true) ∨ ∀ c ∈ run.toList, c.isDigit = true)

/-- A suffix is canonical if it consists of any number of runs with a hyphen before each. -/
def IsCanonical (suffix : String) : Prop :=
  ∃ runs : List String, (∀ run ∈ runs, IsRun run) ∧
    suffix.toList = runs.flatMap fun run => '-' :: run.toList

section Runs

variable {runs : List String} {text rest : List Char}

theorem toList_ofTokens (runs : List String) :
    (ofTokens runs).toList = runs.flatMap fun run => '-' :: run.toList := by
  induction runs with
  | nil => rfl
  | cons run runs ih => simp [ofTokens, ih]

theorem isCanonical_iff {suffix : String} :
    IsCanonical suffix ↔ ∃ runs, (∀ run ∈ runs, IsRun run) ∧ ofTokens runs = suffix := by
  refine exists_congr fun runs => and_congr_right fun _ => ?_
  rw [← toList_ofTokens, String.toList_inj]
  exact eq_comm

/-- Characters that go on with their own kind alone, and are their own lower case, are a token up to
where the kind ends. -/
theorem split_append_of_kind {kind : Char → Bool}
    (hgoes : ∀ {c d rest}, kind c = true → goesOn c (d :: rest) = kind d)
    (hself : ∀ {c}, kind c = true → c.isAlphanum = true ∧ c.toLower = c)
    (hne : text ≠ []) (htext : ∀ c ∈ text, kind c = true) (hrest : rest.head?.any kind = false) :
    split (text ++ rest) = text :: split rest := by
  induction text with
  | nil => exact absurd rfl hne
  | cons c text ih =>
    obtain ⟨hc, htext⟩ := List.forall_mem_cons.mp htext
    obtain ⟨halphanum, hlower⟩ := hself hc
    rw [List.cons_append, split, if_pos halphanum, hlower]
    cases text with
    | nil =>
      have hends : goesOn c rest = false := by
        cases rest with
        | nil => rfl
        | cons d rest => rw [hgoes hc]; simpa using hrest
      rw [List.nil_append, hends, if_neg Bool.false_ne_true]
    | cons d text =>
      have hd : kind d = true := htext d List.mem_cons_self
      rw [ih (List.cons_ne_nil d text) htext, List.cons_append, hgoes hc, hd, if_pos rfl]
      rfl

theorem split_run_append {run : String} (hrun : IsRun run)
    (hrest : ∀ c ∈ rest.head?, c = '-') :
    split (run.toList ++ rest) = run.toList :: split rest := by
  have hends : ∀ kind : Char → Bool, kind '-' = false → rest.head?.any kind = false := by
    intro kind hkind
    cases rest with
    | nil => rfl
    | cons c rest => simpa [hrest c rfl] using hkind
  have hne : run.toList ≠ [] := mt String.toList_eq_nil_iff.mp hrun.1
  rcases hrun.2 with hlower | hdigit
  · refine split_append_of_kind goesOn_of_isLower (fun {c} hc => ⟨?_, ?_⟩) hne hlower
      (hends _ rfl)
    · exact isAlphanum_iff.mpr (Or.inr (Or.inl hc))
    · exact toLower_of_not_isUpper (others_of_isLower hc).1
  · refine split_append_of_kind goesOn_of_isDigit (fun {c} hc => ⟨?_, ?_⟩) hne hdigit
      (hends _ rfl)
    · exact isAlphanum_iff.mpr (Or.inr (Or.inr hc))
    · exact toLower_of_not_isUpper (others_of_isDigit hc).1

theorem split_hyphenated (h : ∀ run ∈ runs, IsRun run) :
    split (runs.flatMap fun run => '-' :: run.toList) = runs.map String.toList := by
  induction runs with
  | nil => rfl
  | cons run runs ih =>
    obtain ⟨hrun, hruns⟩ := List.forall_mem_cons.mp h
    have hhyphen : ∀ c ∈ (runs.flatMap fun run => '-' :: run.toList).head?, c = '-' := by
      intro c hc
      cases runs with
      | nil => cases hc
      | cons next runs => exact (Option.some.inj hc).symm
    rw [List.flatMap_cons, List.cons_append, split, if_neg (by decide),
      split_run_append hrun hhyphen, ih hruns, List.map_cons]

theorem tokens_ofTokens (h : ∀ run ∈ runs, IsRun run) : tokens (ofTokens runs) = runs := by
  have hpieces : (tokens (ofTokens runs)).map String.toList = runs.map String.toList := by
    rw [map_toList_tokens, toList_ofTokens, split_hyphenated h]
  exact (List.map_inj_right fun run other => String.toList_inj.mp).mp hpieces

end Runs

section Names

variable {name other : String}

theorem isRun_of_mem_tokens {token : String} (h : token ∈ tokens name) : IsRun token :=
  (cutsCamelCase_tokens name).uniform token h

theorem tokens_ofName (name : String) : tokens (ofName name) = tokens name :=
  tokens_ofTokens fun _ => isRun_of_mem_tokens

theorem ofName_eq_iff : ofName name = ofName other ↔ tokens name = tokens other := by
  constructor
  · intro h
    rw [← tokens_ofName name, h, tokens_ofName]
  · intro h
    rw [ofName, h, ofName]

theorem exists_ofName_eq_iff {suffix : String} :
    (∃ name, ofName name = suffix) ↔ IsCanonical suffix := by
  rw [isCanonical_iff]
  constructor
  · rintro ⟨name, rfl⟩
    exact ⟨tokens name, fun _ => isRun_of_mem_tokens, rfl⟩
  · rintro ⟨runs, hruns, rfl⟩
    exact ⟨ofTokens runs, by rw [ofName, tokens_ofTokens hruns]⟩

end Names

end BuildVariants.Suffix

namespace BuildVariants.FoldRules

open Suffix (ofName tokens)

variable {α : Type} {rules : FoldRules α} {blocker : Option (Blocker α)} {buildType : String}
  {group : SortedMap α}

/-- Two names are reported together: they claim the same suffix. -/
def ClaimTogether (claims : List (String × List String)) (v w : String) : Prop :=
  ∃ claim ∈ claims, v ∈ claim.2 ∧ w ∈ claim.2

theorem claimTogether_contested_iff {names : List String} {v w : String} (hne : v ≠ w) :
    ClaimTogether (rules.contested names) v w ↔
      v ∈ names ∧ w ∈ names ∧ rules.suffixOf v = rules.suffixOf w := by
  constructor
  · rintro ⟨⟨suffix, claimants⟩, hclaim, hv, hw⟩
    obtain ⟨rfl, -⟩ := mem_contested_iff.mp hclaim
    obtain ⟨hv, hsuffix⟩ := List.mem_filter.mp hv
    obtain ⟨hw, hother⟩ := List.mem_filter.mp hw
    exact ⟨hv, hw, (of_decide_eq_true hsuffix).trans (of_decide_eq_true hother).symm⟩
  · rintro ⟨hv, hw, hsame⟩
    have hvmem : v ∈ names.filter fun name => rules.suffixOf name = rules.suffixOf w :=
      List.mem_filter.mpr ⟨hv, decide_eq_true hsame⟩
    have hwmem : w ∈ names.filter fun name => rules.suffixOf name = rules.suffixOf w :=
      List.mem_filter.mpr ⟨hw, decide_eq_true rfl⟩
    refine ⟨_, mem_contested_iff.mpr ⟨rfl, ?_⟩, hvmem, hwmem⟩
    by_contra hshort
    obtain ⟨only, honly⟩ := List.length_eq_one_iff.mp
      (Nat.le_antisymm (Nat.not_lt.mp hshort) (List.length_pos_of_mem hvmem))
    rw [honly, List.mem_singleton] at hvmem hwmem
    exact hne (hvmem.trans hwmem.symm)

theorem exists_error_foldGroup_iff :
    (∃ collision, rules.foldGroup blocker buildType group = .error collision) ↔
      ∃ v ∈ group.keys, ∃ w ∈ group.keys, v ≠ w ∧ rules.suffixOf v = rules.suffixOf w := by
  simp only [foldGroup_eq_error_iff, exists_and_left, exists_eq, and_true,
    List.nodup_map_iff_inj_on (SortedMap.nodup_keys group)]
  push Not
  simp only [and_comm]

end BuildVariants.FoldRules

namespace BuildVariants.Suffix

/-- Suffixes are canonical forms. The suffix of a suffix is that suffix, the suffixes of names are
the texts that consist of runs with a hyphen before each, and names have one suffix exactly if they
have the same tokens. Under the usual suffixes the variants of a build type therefore collide
exactly if two of them have the same tokens, and the report has together those that do. -/
theorem ofName_canonical :
    (∀ name, ofName (ofName name) = ofName name) ∧
    (∀ suffix, (∃ name, ofName name = suffix) ↔ IsCanonical suffix) ∧
    (∀ name other, ofName name = ofName other ↔ tokens name = tokens other) ∧
    ∀ {α : Type} (rules : FoldRules α), rules.suffixOf = ofName →
      ∀ (blocker : Option (Blocker α)) (buildType : String) (group : SortedMap α),
        ((∃ collision, rules.foldGroup blocker buildType group = .error collision) ↔
          ∃ v ∈ group.keys, ∃ w ∈ group.keys, v ≠ w ∧ tokens v = tokens w) ∧
        ∀ collision, rules.foldGroup blocker buildType group = .error collision →
          ∃ claims, collision = .variants buildType claims ∧
            ∀ v w, v ≠ w → (FoldRules.ClaimTogether claims v w ↔
              v ∈ group.keys ∧ w ∈ group.keys ∧ tokens v = tokens w) := by
  refine ⟨fun name => ?_, fun suffix => exists_ofName_eq_iff, fun name other => ofName_eq_iff, ?_⟩
  · rw [ofName_eq_iff, tokens_ofName]
  · intro α rules hrules blocker buildType group
    have hsame : ∀ v w, rules.suffixOf v = rules.suffixOf w ↔ tokens v = tokens w := by
      intro v w
      rw [hrules, ofName_eq_iff]
    constructor
    · simp only [FoldRules.exists_error_foldGroup_iff, hsame]
    · intro collision hfails
      obtain ⟨-, rfl⟩ := FoldRules.foldGroup_eq_error_iff.mp hfails
      refine ⟨_, rfl, fun v w hne => ?_⟩
      rw [FoldRules.claimTogether_contested_iff hne, hsame]

end BuildVariants.Suffix

import BuildVariants.Text.Pattern

/-!
How patterns match. A run is as long as its characters reach, and an alternative matches where those
before it do not. A search goes on after each match, and a split keeps a character where there is
none.
-/

set_option autoImplicit false
set_option relaxedAutoImplicit false

namespace BuildVariants.Pattern

variable {pattern first other : Pattern} {kind : Char → Bool} {c : Char} {rest text : List Char}

theorem runLengths_of_false (h : text.head?.any kind = false) : runLengths kind text = [] := by
  cases text with
  | nil => rfl
  | cons c rest => simpa [runLengths] using h

theorem head?_runLengths_cons (h : kind c = true) :
    (runLengths kind (c :: rest)).head? = some ((rest.takeWhile kind).length + 1) := by
  induction rest generalizing c with
  | nil => simp [runLengths, h]
  | cons d rest ih =>
    rw [runLengths, if_pos h, List.head?_append, List.head?_map]
    cases hd : kind d with
    | true => rw [ih hd, List.takeWhile_cons_of_pos hd, List.length_cons]; rfl
    | false =>
      rw [runLengths_of_false (by simpa using hd), List.takeWhile_cons_of_neg (by simp [hd])]
      rfl

theorem firstLength_run_cons (h : kind c = true) :
    (run kind).firstLength (c :: rest) = some ((rest.takeWhile kind).length + 1) :=
  head?_runLengths_cons h

theorem firstLength_run_of_false (h : text.head?.any kind = false) :
    (run kind).firstLength text = none := by
  rw [firstLength, lengths, runLengths_of_false h]
  rfl

theorem firstLength_choice :
    (choice first other).firstLength text = (first.firstLength text).or (other.firstLength text) :=
  List.head?_append

theorem matchesAfter_eq_findAll (pattern : Pattern) (count : Nat) (text : List Char) :
    pattern.matchesAfter count text = pattern.findAll (text.drop count) := by
  induction text generalizing count with
  | nil => simp [matchesAfter, findAll]
  | cons c rest ih =>
    cases count with
    | zero => rfl
    | succ count => exact ih count

theorem findAll_cons_of_some {count : Nat}
    (h : pattern.firstLength (c :: rest) = some (count + 1)) :
    pattern.findAll (c :: rest) = (c :: rest.take count) :: pattern.findAll (rest.drop count) := by
  rw [findAll, matchesAfter, h, ← matchesAfter_eq_findAll]

theorem split_cons_of_none (h : pattern.firstLength (c :: rest) = none) :
    pattern.split (c :: rest) = prepend c (pattern.split rest) := by
  rw [split, piecesAfter, h]
  rfl

theorem piecesAfter_eq_split (pattern : Pattern) (count : Nat) (text : List Char) :
    pattern.piecesAfter count text = pattern.split (text.drop count) := by
  induction text generalizing count with
  | nil => simp [piecesAfter, split]
  | cons c rest ih =>
    cases count with
    | zero => rfl
    | succ count => exact ih count

theorem split_cons_of_some {count : Nat} (h : pattern.firstLength (c :: rest) = some (count + 1)) :
    pattern.split (c :: rest) = [] :: pattern.split (rest.drop count) := by
  rw [split, piecesAfter, h, ← piecesAfter_eq_split]

theorem split_run_cons (h : kind c = true) :
    (run kind).split (c :: rest) = [] :: (run kind).split (rest.dropWhile kind) := by
  have hdrop := calc
    rest.drop (rest.takeWhile kind).length
    _ = (rest.takeWhile kind ++ rest.dropWhile kind).drop (rest.takeWhile kind).length := by
      rw [List.takeWhile_append_dropWhile]
    _ = rest.dropWhile kind := List.drop_left
  rw [split_cons_of_some (firstLength_run_cons h), hdrop]

theorem prepend_ne_nil (c : Char) (pieces : List (List Char)) : prepend c pieces ≠ [] := by
  cases pieces with
  | nil => exact List.cons_ne_nil _ _
  | cons piece rest => exact List.cons_ne_nil _ _

theorem prepend_append {pieces : List (List Char)} (h : pieces ≠ [])
    (others : List (List Char)) : prepend c (pieces ++ others) = prepend c pieces ++ others := by
  cases pieces with
  | nil => exact absurd rfl h
  | cons piece rest => rfl

end BuildVariants.Pattern

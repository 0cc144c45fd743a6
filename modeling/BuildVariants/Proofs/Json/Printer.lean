import BuildVariants.Json.Printer
import BuildVariants.Proofs.Json.Unambiguous

/-!
The one-line text of a value is a form of the value, and it is printable ASCII. Numbers are written
by the digits of the standard library, which have no superfluous zero in front; a character that is
not printable ASCII is written by its UTF-16 units, each in four digits. The two statements about a
value go by induction on its nesting. As documents are unambiguous, values have one line exactly if
they are the same data.
-/

set_option autoImplicit false
set_option relaxedAutoImplicit false

namespace BuildVariants.Json

/-- Printable ASCII: the space and the characters that show. -/
def IsPrintable (c : Char) : Prop := 0x20 ≤ c.toNat ∧ c.toNat < 0x7f

instance (c : Char) : Decidable (IsPrintable c) := inferInstanceAs (Decidable (_ ∧ _))

section Digits

variable {n width : Nat} {c : Char}

theorem hexValue?_digitChar {d : Nat} (h : d < 16) : hexValue? d.digitChar = some d := by
  have hdigits : ∀ d < 16, hexValue? d.digitChar = some d := by decide
  exact hdigits d h

theorem hexNumber?_toDigits (n : Nat) : hexNumber? (Nat.toDigits 16 n) = some n := by
  induction n using Nat.strongRecOn with
  | ind n ih =>
    rw [Nat.toDigits_eq_if (by decide)]
    split
    · next hsmall => simp [hexNumber?, hexValue?_digitChar hsmall]
    · next hlarge =>
      have hlast : n % 16 < 16 := Nat.mod_lt n (by decide)
      have hfirst := ih (n / 16) (by omega)
      rw [hexNumber?] at hfirst ⊢
      rw [List.foldlM_append, hfirst]
      simp [hexValue?_digitChar hlast, Nat.div_add_mod]

theorem hexNumber?_hexDigits (width n : Nat) : hexNumber? (Text.hexDigits width n) = some n := by
  have hzeros : ∀ count : Nat,
      hexNumber? (List.replicate count '0' ++ Nat.toDigits 16 n) = some n := by
    intro count
    induction count with
    | zero => exact hexNumber?_toDigits n
    | succ count ih =>
      rw [List.replicate_succ, List.cons_append, hexNumber?, List.foldlM_cons]
      exact ih
  exact hzeros _

theorem length_hexDigits (hwidth : 0 < width) (h : n < 16 ^ width) :
    (Text.hexDigits width n).length = width := by
  have hlength := (Nat.length_toDigits_le_iff (by decide) hwidth).mpr h
  rw [Text.hexDigits, List.length_append, List.length_replicate]
  omega

theorem isPrintable_of_mem_hexDigits (h : c ∈ Text.hexDigits width n) : IsPrintable c := by
  have hdigit : ∀ d < 16, IsPrintable d.digitChar := by decide
  have hdigits : ∀ n, ∀ c ∈ Nat.toDigits 16 n, IsPrintable c := by
    intro n
    induction n using Nat.strongRecOn with
    | ind n ih =>
      rw [Nat.toDigits_eq_if (by decide)]
      split
      · next hsmall => exact List.forall_mem_singleton.mpr (hdigit n hsmall)
      · next hlarge =>
        refine List.forall_mem_append.mpr ⟨ih (n / 16) (by omega), ?_⟩
        exact List.forall_mem_singleton.mpr (hdigit _ (Nat.mod_lt n (by decide)))
  rcases List.mem_append.mp h with hzero | hmem
  · rw [List.eq_of_mem_replicate hzero]
    decide
  · exact hdigits n c hmem

theorem isNumeral_toDigits (n : Nat) : IsNumeral (Nat.toDigits 10 n) where
  ne_nil := Nat.toDigits_ne_nil
  isDigit := fun _ => Nat.isDigit_of_mem_toDigits (by decide) (by decide)
  zero := by
    induction n using Nat.strongRecOn with
    | ind n ih =>
      intro hzero
      by_cases hsmall : n < 10
      · rw [Nat.toDigits_of_lt_base hsmall] at hzero ⊢
        rw [Option.some.inj hzero]
      · rw [Nat.toDigits_of_base_le (by decide) (Nat.not_lt.mp hsmall),
          List.head?_append_of_ne_nil _ Nat.toDigits_ne_nil] at hzero
        have hquotient := congrArg (fun digits => Nat.ofDigitChars 10 digits 0)
          (ih (n / 10) (by omega) hzero)
        rw [Nat.ofDigitChars_ten_toDigits] at hquotient
        have hzero' : n / 10 = 0 := hquotient
        omega

theorem intChars_mem_intForms (n : Int) : intChars n ∈ intForms n := by
  have hvalue : Nat.ofDigitChars 10 (Nat.toDigits 10 n.natAbs) 0 = n.natAbs :=
    Nat.ofDigitChars_ten_toDigits
  unfold intChars
  split
  · next hneg =>
    have hform := IntForm.minus _ (isNumeral_toDigits n.natAbs)
    rwa [hvalue, show -(n.natAbs : Int) = n by omega] at hform
  · next hneg =>
    have hform := IntForm.plain _ (isNumeral_toDigits n.natAbs)
    rwa [hvalue, show (n.natAbs : Int) = n by omega] at hform

end Digits

section Characters

variable {unit : Nat} {c x : Char}

theorem unitEscape_mem_unitForms (h : unit < 0x10000) : unitEscape unit ∈ unitForms unit :=
  ⟨_, rfl, length_hexDigits (by decide) h, hexNumber?_hexDigits 4 unit⟩

/-- Above `U+FFFF` the two units are a high and a low surrogate, which give the code back. -/
theorem charForm_unitEscapes (c : Char) : CharForm c (unitEscapes c) := by
  have hbound : c.toNat < 0x110000 := by
    rcases c.valid with h | ⟨-, h⟩
    · exact h.trans (by decide)
    · exact h
  unfold unitEscapes
  split
  · next hsmall =>
    refine .units [c.toNat] _ .single ?_
    rw [List.map_singleton, List.prod_singleton]
    exact unitEscape_mem_unitForms hsmall
  · next hlarge =>
    refine .units [0xd800 + (c.toNat - 0x10000) / 0x400, 0xdc00 + (c.toNat - 0x10000) % 0x400] _
      (.pair _ _ (by omega) (by omega) (by omega)) ?_
    rw [List.map_cons, List.map_singleton, List.prod_cons, List.prod_singleton]
    exact Language.mem_mul.mpr ⟨_, unitEscape_mem_unitForms (by omega), _,
      unitEscape_mem_unitForms (by omega), rfl⟩

theorem escapedChar_mem_charForms (c : Char) : escapedChar c ∈ charForms c := by
  have hcode : ∀ {d : Char}, c.toNat = d.toNat → c = d := Char.toNat_inj.mp
  unfold escapedChar
  split_ifs with hself hline hreturn htab hback hfeed hplain
  · rcases Bool.or_eq_true_iff.mp hself with h | h
    · rw [of_decide_eq_true h]
      exact .short _ (by decide)
    · rw [of_decide_eq_true h]
      exact .short _ (by decide)
  · exact hline ▸ .short 'n' (by decide)
  · exact hreturn ▸ .short 'r' (by decide)
  · exact htab ▸ .short 't' (by decide)
  · obtain rfl : c = '\x08' := hcode hback
    exact .short 'b' (by decide)
  · obtain rfl : c = '\x0c' := hcode hfeed
    exact .short 'f' (by decide)
  · have hother : c ≠ '\x22' ∧ c ≠ '\\' := by simpa using hself
    exact .plain (by simpa using (Bool.and_eq_true_iff.mp hplain).1) hother.1 hother.2
  · exact charForm_unitEscapes c

theorem isPrintable_of_mem_unitEscape (h : x ∈ unitEscape unit) : IsPrintable x := by
  rcases List.mem_cons.mp h with rfl | h
  · decide
  · rcases List.mem_cons.mp h with rfl | h
    · decide
    · exact isPrintable_of_mem_hexDigits h

theorem isPrintable_of_mem_escapedChar (h : x ∈ escapedChar c) : IsPrintable x := by
  have hshort : ∀ sign, IsPrintable sign → x ∈ ['\\', sign] → IsPrintable x := by
    intro sign hsign hx
    rcases List.mem_cons.mp hx with rfl | hx
    · decide
    · exact List.mem_singleton.mp hx ▸ hsign
  unfold escapedChar at h
  split_ifs at h with hself hline hreturn htab hback hfeed hplain
  · refine hshort c ?_ h
    rcases Bool.or_eq_true_iff.mp hself with hc | hc <;> rw [of_decide_eq_true hc] <;> decide
  · exact hshort 'n' (by decide) h
  · exact hshort 'r' (by decide) h
  · exact hshort 't' (by decide) h
  · exact hshort 'b' (by decide) h
  · exact hshort 'f' (by decide) h
  · rw [List.mem_singleton.mp h]
    simpa [IsPrintable] using hplain
  · unfold unitEscapes at h
    split at h
    · exact isPrintable_of_mem_unitEscape h
    · exact (List.mem_append.mp h).elim isPrintable_of_mem_unitEscape isPrintable_of_mem_unitEscape

end Characters

section Texts

variable {n : Int} {text : String} {c : Char}

theorem quoteChars_mem_textForms (text : String) : quoteChars text ∈ textForms text := by
  have hchars : ∀ chars : List Char, chars.flatMap escapedChar ∈ (chars.map charForms).prod := by
    intro chars
    induction chars with
    | nil => exact Language.nil_mem_one
    | cons c chars ih =>
      exact Language.mem_mul.mpr ⟨_, escapedChar_mem_charForms c, _, ih, rfl⟩
  exact mem_enclosed_iff.mpr ⟨_, hchars text.toList, rfl⟩

theorem isPrintable_of_mem_quoteChars (h : c ∈ quoteChars text) : IsPrintable c := by
  rcases List.mem_append.mp h with h | h
  · rcases List.mem_cons.mp h with rfl | h
    · decide
    · obtain ⟨d, -, hd⟩ := List.mem_flatMap.mp h
      exact isPrintable_of_mem_escapedChar hd
  · rw [List.mem_singleton.mp h]
    decide

theorem isPrintable_of_mem_intChars (h : c ∈ intChars n) : IsPrintable c := by
  have hdigits : ∀ c ∈ Nat.toDigits 10 n.natAbs, IsPrintable c := by
    intro c hc
    obtain ⟨hlow, hhigh⟩ :=
      Char.isDigit_iff_toNat.mp (Nat.isDigit_of_mem_toDigits (by decide) (by decide) hc)
    exact ⟨Nat.le_trans (by decide) hlow, Nat.lt_of_le_of_lt hhigh (by decide)⟩
  unfold intChars at h
  split at h
  · rcases List.mem_cons.mp h with rfl | h
    · decide
    · exact hdigits c h
  · exact hdigits c h

end Texts

section Values

variable {α : Type} {elements : List α} {text : α → List Char} {family : α → Language Char}

def memberChars (member : String × Json) : List Char :=
  quoteChars member.1 ++ ": ".toList ++ lineChars member.2

theorem intercalate_cons (sep first : List Char) (rest : List (List Char)) :
    sep.intercalate (first :: rest) = first ++ rest.flatMap (sep ++ ·) := by
  induction rest generalizing first with
  | nil => simp
  | cons second rest ih => simp [List.intercalate_cons_cons, ih second]

theorem lineChars_arr (items : List Json) :
    lineChars (.arr items) = '[' :: (", ".toList.intercalate (items.map lineChars) ++ [']']) := by
  have hrest : ∀ rest, lineItems rest = (rest.map lineChars).flatMap (", ".toList ++ ·) := by
    intro rest
    induction rest with
    | nil => rfl
    | cons item rest ih => rw [lineItems, ih, List.map_cons, List.flatMap_cons]
  cases items with
  | nil => rfl
  | cons item rest =>
    rw [lineChars, hrest, List.map_cons, intercalate_cons]
    rfl

theorem lineChars_obj (members : List (String × Json)) :
    lineChars (.obj members) =
      '\x7b' :: (", ".toList.intercalate (members.map memberChars) ++ ['\x7d']) := by
  have hrest : ∀ rest, lineMembers rest = (rest.map memberChars).flatMap (", ".toList ++ ·) := by
    intro rest
    induction rest with
    | nil => rfl
    | cons member rest ih =>
      rw [lineMembers, ih, List.map_cons, List.flatMap_cons, memberChars]
      simp only [List.append_assoc]
  cases members with
  | nil => rfl
  | cons member rest =>
    rw [lineChars, hrest, List.map_cons, intercalate_cons, memberChars]
    simp only [List.append_assoc, List.cons_append]

theorem nil_mem_spaces : [] ∈ spaces := nofun

theorem blank_mem_spaces : [' '] ∈ spaces := List.forall_mem_singleton.mpr rfl

theorem append_mem_padded {part : Language Char} {before t : List Char} (hbefore : before ∈ spaces)
    (ht : t ∈ part) : before ++ t ∈ padded part :=
  ⟨_, ⟨before, hbefore, t, ht, rfl⟩, [], nofun, List.append_nil _⟩

theorem intercalate_mem_separated
    (h : ∀ a ∈ elements, ∀ before ∈ spaces, before ++ text a ∈ family a) :
    ", ".toList.intercalate (elements.map text) ∈ separated (elements.map family) := by
  have hrest : ∀ rest : List α, (∀ a ∈ rest, ∀ before ∈ spaces, before ++ text a ∈ family a) →
      (rest.map text).flatMap (", ".toList ++ ·) ∈ further (rest.map family) := by
    intro rest h
    induction rest with
    | nil => exact Language.nil_mem_one
    | cons a rest ih =>
      obtain ⟨ha, hrest⟩ := List.forall_mem_cons.mp h
      exact mem_further_cons.mpr ⟨_, ha _ blank_mem_spaces, _, ih hrest, rfl⟩
  cases elements with
  | nil => exact nil_mem_spaces
  | cons a rest =>
    obtain ⟨ha, h⟩ := List.forall_mem_cons.mp h
    rw [List.map_cons, List.map_cons, intercalate_cons]
    exact Language.mem_mul.mpr ⟨_, ha _ nil_mem_spaces, _, hrest rest h, rfl⟩

theorem append_memberChars_mem_pairForms {member : String × Json} {before : List Char}
    (h : lineChars member.2 ∈ member.2.forms) (hbefore : before ∈ spaces) :
    before ++ memberChars member ∈ pairForms member := by
  have hkey := append_mem_padded hbefore (quoteChars_mem_textForms member.1)
  have hvalue := append_mem_padded blank_mem_spaces h
  refine ⟨_, ⟨_, hkey, _, rfl, rfl⟩, _, hvalue, ?_⟩
  simp [memberChars]

theorem lineChars_mem_forms (value : Json) : lineChars value ∈ value.forms := by
  induction value with
  | null => rfl
  | bool value => cases value <;> rfl
  | int value => exact intChars_mem_intForms value
  | str text => exact quoteChars_mem_textForms text
  | arr items ih =>
    rw [lineChars_arr, forms_arr]
    exact mem_enclosed_iff.mpr ⟨_, intercalate_mem_separated fun item hitem before hbefore =>
      append_mem_padded hbefore (ih item hitem), rfl⟩
  | obj members ih =>
    rw [lineChars_obj, forms_obj]
    exact mem_enclosed_iff.mpr ⟨_, intercalate_mem_separated fun member hmember before hbefore =>
      append_memberChars_mem_pairForms (ih member hmember) hbefore, rfl⟩

theorem isPrintable_of_mem_intercalate {c : Char} (h : ∀ a ∈ elements, ∀ c ∈ text a, IsPrintable c)
    (hc : c ∈ ", ".toList.intercalate (elements.map text)) : IsPrintable c := by
  have htexts : ∀ part ∈ elements.map text, ∀ c ∈ part, IsPrintable c := List.forall_mem_map.mpr h
  cases hparts : elements.map text with
  | nil => simp [hparts] at hc
  | cons first rest =>
    rw [hparts] at htexts hc
    obtain ⟨hfirst, hrest⟩ := List.forall_mem_cons.mp htexts
    rw [intercalate_cons] at hc
    rcases List.mem_append.mp hc with hc | hc
    · exact hfirst c hc
    · obtain ⟨part, hpart, hc⟩ := List.mem_flatMap.mp hc
      rcases List.mem_append.mp hc with hc | hc
      · have hsep : ∀ c ∈ [',', ' '], IsPrintable c := by simp [IsPrintable]
        exact hsep c hc
      · exact hrest part hpart c hc

theorem isPrintable_of_mem_lineChars (value : Json) : ∀ c ∈ lineChars value, IsPrintable c := by
  have henclosed : ∀ {opening closing : Char} {inner : List Char}, IsPrintable opening →
      IsPrintable closing → (∀ c ∈ inner, IsPrintable c) →
      ∀ c ∈ opening :: (inner ++ [closing]), IsPrintable c := by
    intro opening closing inner hopening hclosing hinner
    exact List.forall_mem_cons.mpr
      ⟨hopening, List.forall_mem_append.mpr ⟨hinner, List.forall_mem_singleton.mpr hclosing⟩⟩
  induction value with
  | null => simp [lineChars, IsPrintable]
  | bool value => cases value <;> simp [lineChars, IsPrintable]
  | int value => exact fun c => isPrintable_of_mem_intChars
  | str text => exact fun c => isPrintable_of_mem_quoteChars
  | arr items ih =>
    rw [lineChars_arr]
    exact henclosed (by decide) (by decide) fun c => isPrintable_of_mem_intercalate ih
  | obj members ih =>
    rw [lineChars_obj]
    refine henclosed (by decide) (by decide) fun c => isPrintable_of_mem_intercalate ?_
    intro member hmember c hc
    rcases List.mem_append.mp hc with hc | hc
    · rcases List.mem_append.mp hc with hc | hc
      · exact isPrintable_of_mem_quoteChars hc
      · have hcolon : ∀ c ∈ [':', ' '], IsPrintable c := by simp [IsPrintable]
        exact hcolon c hc
    · exact ih member hmember c hc

end Values

theorem line_mem_documents (value : Json) : value.line.toList ∈ value.canonical.documents := by
  rw [line, String.toList_ofList]
  exact append_mem_padded nil_mem_spaces (lineChars_mem_forms value.canonical)

theorem isPrintable_of_mem_line (value : Json) : ∀ c ∈ value.line.toList, IsPrintable c := by
  rw [line, String.toList_ofList]
  exact isPrintable_of_mem_lineChars value.canonical

theorem line_ne_nil (value : Json) : value.line.toList ≠ [] := by
  rw [line, String.toList_ofList]
  obtain ⟨c, more, hline, -⟩ := exists_first (lineChars_mem_forms value.canonical)
  rw [hline]
  exact List.cons_ne_nil c more

theorem mem_documents_iff_of_line {value other : Json} :
    value.line.toList ∈ other.documents ↔ other = value.canonical := by
  constructor
  · intro h
    exact eq_of_mem_documents h (line_mem_documents value)
  · intro h
    exact h ▸ line_mem_documents value

theorem line_eq_iff {a b : Json} : a.line = b.line ↔ a.Same b := by
  rw [← canonical_eq_iff]
  constructor
  · intro h
    have hline := line_mem_documents a
    rw [h] at hline
    exact eq_of_mem_documents hline (line_mem_documents b)
  · intro h
    rw [line, line, h]

end BuildVariants.Json

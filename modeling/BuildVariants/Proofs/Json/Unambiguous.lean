import BuildVariants.Proofs.Json
import BuildVariants.Proofs.Json.Grammar

/-!
JSON documents are unambiguous: a text is a document of one value at most. The argument reads from
the left. A form at the front of a text is told by the text alone, and so is the rest behind it, as
long as what follows a number is no digit and what follows a document is a comma, a closing bracket
or the end. The first character behind the white space tells the kind of a value, and the induction
is on the nesting of the value.
-/

set_option autoImplicit false
set_option relaxedAutoImplicit false

namespace BuildVariants.Json

/-- A value of a family is read off the front of a text: whichever form of the family begins the
text, it is a form of this value and leaves the same rest. The rests are those that may follow. -/
def ReadsOff {α : Type} (family : α → Language Char) (follows : List Char → Prop) (a : α) : Prop :=
  ∀ ⦃b t u r s⦄, t ∈ family a → u ∈ family b → follows r → follows s → t ++ r = u ++ s →
    a = b ∧ r = s

variable {t u r s : List Char}

/-- A run of characters of a kind ends where the kind ends. -/
theorem run_append_inj {kind : Char → Bool} (ht : ∀ c ∈ t, kind c = true)
    (hu : ∀ c ∈ u, kind c = true) (hr : r.head?.any kind = false) (hs : s.head?.any kind = false)
    (h : t ++ r = u ++ s) : t = u ∧ r = s := by
  have hdrop : ∀ {run rest : List Char}, (∀ c ∈ run, kind c = true) →
      rest.head?.any kind = false → (run ++ rest).dropWhile kind = rest := by
    intro run rest hrun hrest
    rw [List.dropWhile_append_of_pos hrun]
    cases rest with
    | nil => rfl
    | cons c rest => exact List.dropWhile_cons_of_neg (by simpa using hrest)
  have hrest : r = s := by rw [← hdrop ht hr, h, hdrop hu hs]
  exact ⟨List.append_cancel_right (hrest ▸ h), hrest⟩

section Characters

variable {c d : Char} {units others : List Nat}

theorem readsOff_unitForms (unit : Nat) : ReadsOff unitForms (fun _ => True) unit := by
  rintro other _ _ r s ⟨digits, rfl, hlength, hunit⟩ ⟨digits', rfl, hlength', hother⟩ - - h
  rw [List.cons_append, List.cons_append, List.cons_append, List.cons_append, List.cons_eq_cons,
    List.cons_eq_cons] at h
  obtain ⟨rfl, hrest⟩ := List.append_inj h.2.2 (hlength.trans hlength'.symm)
  exact ⟨Option.some.inj (hunit.symm.trans hother), hrest⟩

theorem eq_of_shortEscapes {sign : Char} (hc : (sign, c) ∈ shortEscapes)
    (hd : (sign, d) ∈ shortEscapes) : c = d := by
  have hsigns : ∀ x ∈ shortEscapes, ∀ y ∈ shortEscapes, x.1 = y.1 → x.2 = y.2 := by decide
  exact hsigns _ hc _ hd rfl

theorem sign_ne_of_shortEscapes {sign : Char} (h : (sign, c) ∈ shortEscapes) : sign ≠ 'u' := by
  have hsigns : ∀ x ∈ shortEscapes, x.1 ≠ 'u' := by decide
  exact hsigns _ h

/-- No character has the code of a surrogate, so its first unit tells whether there is a second. -/
theorem toNat_not_surrogate (c : Char) : c.toNat < 0xd800 ∨ 0xdfff < c.toNat :=
  c.valid.imp id And.left

theorem IsUtf16.readsOff (hc : IsUtf16 c units) (hd : IsUtf16 d others)
    (ht : t ∈ (units.map unitForms).prod) (hu : u ∈ (others.map unitForms).prod)
    (h : t ++ r = u ++ s) : c = d ∧ r = s := by
  have hc' := toNat_not_surrogate c
  have hd' := toNat_not_surrogate d
  cases hc with
  | single =>
    cases hd with
    | single =>
      rw [List.map_singleton, List.prod_singleton] at ht hu
      obtain ⟨hcode, hrest⟩ := readsOff_unitForms _ ht hu trivial trivial h
      exact ⟨Char.toNat_inj.mp hcode, hrest⟩
    | pair high low hhigh _ _ =>
      rw [List.map_singleton, List.prod_singleton] at ht
      obtain ⟨first, hfirst, more, -, rfl⟩ := Language.mem_mul.mp hu
      rw [List.append_assoc] at h
      obtain ⟨hcode, -⟩ := readsOff_unitForms _ ht hfirst trivial trivial h
      omega
  | pair high low hhigh hlow hcode =>
    rw [List.map_cons, List.prod_cons] at ht
    obtain ⟨first, hfirst, more, hmore, rfl⟩ := Language.mem_mul.mp ht
    cases hd with
    | single =>
      rw [List.map_singleton, List.prod_singleton] at hu
      rw [List.append_assoc] at h
      obtain ⟨hcode, -⟩ := readsOff_unitForms _ hfirst hu trivial trivial h
      omega
    | pair high' low' _ _ hcode' =>
      rw [List.map_cons, List.prod_cons] at hu
      obtain ⟨first', hfirst', more', hmore', rfl⟩ := Language.mem_mul.mp hu
      rw [List.map_singleton, List.prod_singleton] at hmore hmore'
      rw [List.append_assoc, List.append_assoc] at h
      obtain ⟨rfl, h⟩ := readsOff_unitForms _ hfirst hfirst' trivial trivial h
      obtain ⟨rfl, hrest⟩ := readsOff_unitForms _ hmore hmore' trivial trivial h
      exact ⟨Char.toNat_inj.mp (hcode.trans hcode'.symm), hrest⟩

theorem IsUtf16.exists_eq_cons (hc : IsUtf16 c units) (ht : t ∈ (units.map unitForms).prod) :
    ∃ more, t = '\\' :: 'u' :: more := by
  obtain ⟨unit, rest, rfl⟩ : ∃ unit rest, units = unit :: rest := by
    cases hc with
    | single => exact ⟨_, [], rfl⟩
    | pair high low => exact ⟨high, [low], rfl⟩
  obtain ⟨_, ⟨digits, rfl, -⟩, more, -, rfl⟩ := Language.mem_mul.mp ht
  exact ⟨digits ++ more, rfl⟩

theorem readsOff_charForms (c : Char) : ReadsOff charForms (fun _ => True) c := by
  intro d t u r s ht hu _ _ h
  cases ht with
  | plain _ _ hescape =>
    cases hu with
    | plain _ _ _ => exact List.cons_eq_cons.mp h
    | short sign _ => exact absurd (List.cons_eq_cons.mp h).1 hescape
    | units others _ hothers hu =>
      obtain ⟨more, rfl⟩ := hothers.exists_eq_cons hu
      exact absurd (List.cons_eq_cons.mp h).1 hescape
  | short sign hsign =>
    cases hu with
    | plain _ _ hescape => exact absurd (List.cons_eq_cons.mp h).1.symm hescape
    | short other hother =>
      obtain ⟨-, h⟩ := List.cons_eq_cons.mp h
      obtain ⟨rfl, hrest⟩ := List.cons_eq_cons.mp h
      exact ⟨eq_of_shortEscapes hsign hother, hrest⟩
    | units others _ hothers hu =>
      obtain ⟨more, rfl⟩ := hothers.exists_eq_cons hu
      obtain ⟨-, h⟩ := List.cons_eq_cons.mp h
      exact absurd (List.cons_eq_cons.mp h).1 (sign_ne_of_shortEscapes hsign)
  | units units _ hunits ht =>
    cases hu with
    | plain _ _ hescape =>
      obtain ⟨more, rfl⟩ := hunits.exists_eq_cons ht
      exact absurd (List.cons_eq_cons.mp h).1.symm hescape
    | short sign hsign =>
      obtain ⟨more, rfl⟩ := hunits.exists_eq_cons ht
      obtain ⟨-, h⟩ := List.cons_eq_cons.mp h
      exact absurd (List.cons_eq_cons.mp h).1.symm (sign_ne_of_shortEscapes hsign)
    | units others _ hothers hu => exact hunits.readsOff hothers ht hu h

theorem CharForm.exists_eq_cons (h : CharForm c t) :
    ∃ first more, t = first :: more ∧ first ≠ '\x22' := by
  cases h with
  | plain _ hquote _ => exact ⟨c, [], rfl, hquote⟩
  | short sign _ => exact ⟨'\\', [sign], rfl, by decide⟩
  | units units _ hunits ht =>
    obtain ⟨more, rfl⟩ := hunits.exists_eq_cons ht
    exact ⟨'\\', 'u' :: more, rfl, by decide⟩

theorem chars_append_inj {chars others : List Char} (ht : t ∈ (chars.map charForms).prod)
    (hu : u ∈ (others.map charForms).prod) (h : t ++ '\x22' :: r = u ++ '\x22' :: s) :
    chars = others ∧ r = s := by
  have hquote : ∀ {c : Char} {form more before after : List Char}, form ∈ charForms c →
      form ++ more ++ after ≠ '\x22' :: before := by
    intro c form more before after hform heq
    obtain ⟨first, tail, rfl, hne⟩ := CharForm.exists_eq_cons hform
    exact hne (List.cons_eq_cons.mp heq).1
  induction chars generalizing others t u with
  | nil =>
    obtain rfl := (Language.mem_one t).mp ht
    cases others with
    | nil =>
      obtain rfl := (Language.mem_one u).mp hu
      exact ⟨rfl, (List.cons_eq_cons.mp h).2⟩
    | cons d others =>
      obtain ⟨form, hform, more, -, rfl⟩ := Language.mem_mul.mp hu
      exact absurd h.symm (hquote hform)
  | cons c chars ih =>
    obtain ⟨form, hform, more, hmore, rfl⟩ := Language.mem_mul.mp ht
    cases others with
    | nil =>
      obtain rfl := (Language.mem_one u).mp hu
      exact absurd h (hquote hform)
    | cons d others =>
      obtain ⟨form', hform', more', hmore', rfl⟩ := Language.mem_mul.mp hu
      rw [List.append_assoc, List.append_assoc] at h
      obtain ⟨rfl, h⟩ := readsOff_charForms c hform hform' trivial trivial h
      obtain ⟨rfl, hrest⟩ := ih hmore hmore' h
      exact ⟨rfl, hrest⟩

end Characters

section Scalars

theorem readsOff_textForms (text : String) : ReadsOff textForms (fun _ => True) text := by
  intro other t u r s ht hu _ _ h
  obtain ⟨inner, hinner, rfl⟩ := mem_enclosed_iff.mp ht
  obtain ⟨inner', hinner', rfl⟩ := mem_enclosed_iff.mp hu
  simp only [List.cons_append, List.append_assoc, List.nil_append] at h
  obtain ⟨htext, hrest⟩ := chars_append_inj hinner hinner' (List.cons_eq_cons.mp h).2
  exact ⟨String.toList_inj.mp htext, hrest⟩

def NoDigitNext (rest : List Char) : Prop := rest.head?.any Char.isDigit = false

theorem IsNumeral.exists_eq_cons (h : IsNumeral t) :
    ∃ c more, t = c :: more ∧ c.isDigit = true := by
  obtain ⟨c, more, rfl⟩ := List.exists_cons_of_ne_nil h.ne_nil
  exact ⟨c, more, rfl, h.isDigit c List.mem_cons_self⟩

theorem readsOff_intForms (n : Int) : ReadsOff intForms NoDigitNext n := by
  intro m t u r s ht hu hr hs h
  have hminus : ('-' : Char).isDigit ≠ true := by decide
  cases ht with
  | plain _ ht =>
    cases hu with
    | plain _ hu =>
      obtain ⟨rfl, hrest⟩ := run_append_inj ht.isDigit hu.isDigit hr hs h
      exact ⟨rfl, hrest⟩
    | minus _ hu =>
      obtain ⟨c, more, rfl, hc⟩ := ht.exists_eq_cons
      exact absurd ((List.cons_eq_cons.mp h).1 ▸ hc) hminus
  | minus digits ht =>
    cases hu with
    | plain _ hu =>
      obtain ⟨c, more, rfl, hc⟩ := hu.exists_eq_cons
      exact absurd ((List.cons_eq_cons.mp h).1 ▸ hc) hminus
    | minus others hu =>
      obtain ⟨rfl, hrest⟩ :=
        run_append_inj ht.isDigit hu.isDigit hr hs (List.cons_eq_cons.mp h).2
      exact ⟨rfl, hrest⟩

end Scalars

section Padding

variable {α : Type} {family : α → Language Char} {a : α} {follows outer : List Char → Prop}

/-- White space around a part is passed over, if neither the part nor what may come next begins with
white space. -/
theorem ReadsOff.padded (h : ReadsOff family follows a)
    (hfirst : ∀ b, ∀ text ∈ family b, ∃ c more, text = c :: more ∧ isSpace c = false)
    (hfollows : ∀ space ∈ spaces, ∀ rest, outer rest → follows (space ++ rest))
    (houter : ∀ rest, outer rest → rest.head?.any isSpace = false) :
    ReadsOff (fun b => padded (family b)) outer a := by
  rintro b _ _ r s ⟨_, ⟨before, hbefore, part, hpart, rfl⟩, after, hafter, rfl⟩
    ⟨_, ⟨before', hbefore', part', hpart', rfl⟩, after', hafter', rfl⟩ hr hs heq
  have hstart : ∀ {b text rest}, text ∈ family b → (text ++ rest).head?.any isSpace = false := by
    intro b text rest htext
    obtain ⟨c, more, rfl, hc⟩ := hfirst b text htext
    simpa using hc
  simp only [List.append_assoc] at heq
  obtain ⟨-, heq⟩ := run_append_inj hbefore hbefore' (hstart hpart) (hstart hpart') heq
  obtain ⟨rfl, heq⟩ :=
    h hpart hpart' (hfollows after hafter r hr) (hfollows after' hafter' s hs) heq
  exact ⟨rfl, (run_append_inj hafter hafter' (houter r hr) (houter s hs) heq).2⟩

end Padding

section Values

inductive Kind
  | null | bool | int | str | arr | obj

def kind : Json → Kind
  | .null => .null
  | .bool _ => .bool
  | .int _ => .int
  | .str _ => .str
  | .arr _ => .arr
  | .obj _ => .obj

/-- The kind that the first character of a form tells. -/
def Kind.ofFirst? (c : Char) : Option Kind :=
  if c = 'n' then some .null
  else if c = 't' ∨ c = 'f' then some .bool
  else if c = '\x22' then some .str
  else if c = '[' then some .arr
  else if c = '\x7b' then some .obj
  else if c = '-' ∨ c.isDigit = true then some .int
  else none

/-- The signs that may stand behind an item or a member. -/
def isClosing (c : Char) : Bool := c = ',' || c = ']' || c = '\x7d'

/-- What follows a document is a comma or a closing bracket, or nothing. -/
def ClosesNext (rest : List Char) : Prop := ∀ c ∈ rest.head?, isClosing c = true

variable {a b value : Json} {c : Char}

theorem isSpace_iff : isSpace c = true ↔ c = ' ' ∨ c = '\t' ∨ c = '\n' ∨ c = '\r' := by
  simp [isSpace, or_assoc]

theorem isClosing_iff : isClosing c = true ↔ c = ',' ∨ c = ']' ∨ c = '\x7d' := by
  simp [isClosing, or_assoc]

theorem others_of_ofFirst? {k : Kind} (h : Kind.ofFirst? c = some k) :
    isSpace c = false ∧ isClosing c = false := by
  rw [← Bool.not_eq_true, ← Bool.not_eq_true, isSpace_iff, isClosing_iff]
  constructor
  · rintro (rfl | rfl | rfl | rfl) <;> cases h
  · rintro (rfl | rfl | rfl) <;> cases h

theorem isDigit_of_isSpace (h : isSpace c = true) : c.isDigit = false := by
  rcases isSpace_iff.mp h with rfl | rfl | rfl | rfl <;> rfl

theorem others_of_isClosing (h : isClosing c = true) : c.isDigit = false ∧ isSpace c = false := by
  rcases isClosing_iff.mp h with rfl | rfl | rfl <;> exact ⟨rfl, rfl⟩

theorem ofFirst?_of_isDigit (h : c.isDigit = true) : Kind.ofFirst? c = some .int := by
  have hne : ∀ other : Char, other.isDigit = false → c ≠ other := by
    rintro other hother rfl
    exact absurd h (by simp [hother])
  simp [Kind.ofFirst?, h, hne 'n' rfl, hne 't' rfl, hne 'f' rfl, hne '\x22' rfl, hne '[' rfl,
    hne '\x7b' rfl]

theorem exists_first (ht : t ∈ value.forms) :
    ∃ c more, t = c :: more ∧ Kind.ofFirst? c = some value.kind := by
  cases value with
  | null => exact ⟨'n', _, ht, rfl⟩
  | bool value =>
    cases value with
    | false => exact ⟨'f', _, ht, rfl⟩
    | true => exact ⟨'t', _, ht, rfl⟩
  | int value =>
    cases ht with
    | plain digits h =>
      obtain ⟨c, more, rfl, hc⟩ := h.exists_eq_cons
      exact ⟨c, more, rfl, ofFirst?_of_isDigit hc⟩
    | minus digits h => exact ⟨'-', digits, rfl, rfl⟩
  | str text =>
    obtain ⟨inner, -, rfl⟩ := mem_enclosed_iff.mp ht
    exact ⟨'\x22', _, rfl, rfl⟩
  | arr items =>
    rw [forms_arr] at ht
    obtain ⟨inner, -, rfl⟩ := mem_enclosed_iff.mp ht
    exact ⟨'[', _, rfl, rfl⟩
  | obj members =>
    rw [forms_obj] at ht
    obtain ⟨inner, -, rfl⟩ := mem_enclosed_iff.mp ht
    exact ⟨'\x7b', _, rfl, rfl⟩

theorem kind_eq (ht : t ∈ a.forms) (hu : u ∈ b.forms) (h : t ++ r = u ++ s) : a.kind = b.kind := by
  obtain ⟨c, more, rfl, hc⟩ := exists_first ht
  obtain ⟨d, more', rfl, hd⟩ := exists_first hu
  obtain rfl : c = d := (List.cons_eq_cons.mp h).1
  exact Option.some.inj (hc.symm.trans hd)

theorem noDigitNext_of_closesNext {space rest : List Char} (hspace : space ∈ spaces)
    (h : ClosesNext rest) : NoDigitNext (space ++ rest) := by
  cases space with
  | cons c space => exact isDigit_of_isSpace (hspace c List.mem_cons_self)
  | nil =>
    cases rest with
    | nil => rfl
    | cons c rest => exact (others_of_isClosing (h c rfl)).1

theorem noSpace_of_closesNext {rest : List Char} (h : ClosesNext rest) :
    rest.head?.any isSpace = false := by
  cases rest with
  | nil => rfl
  | cons c rest => exact (others_of_isClosing (h c rfl)).2

theorem readsOff_documents (h : ReadsOff forms NoDigitNext value) :
    ReadsOff documents ClosesNext value := by
  refine h.padded (fun other text htext => ?_)
    (fun space hspace rest => noDigitNext_of_closesNext hspace) fun rest => noSpace_of_closesNext
  obtain ⟨c, more, rfl, hc⟩ := exists_first htext
  exact ⟨c, more, rfl, (others_of_ofFirst? hc).1⟩

theorem readsOff_pairForms {member : String × Json} (h : ReadsOff forms NoDigitNext member.2) :
    ReadsOff pairForms ClosesNext member := by
  have hkey : ReadsOff (fun text => padded (textForms text))
      (fun rest => ∃ more, rest = ':' :: more) member.1 := by
    refine (readsOff_textForms member.1).padded (fun text form hform => ?_)
      (fun _ _ _ _ => trivial) ?_
    · obtain ⟨inner, -, rfl⟩ := mem_enclosed_iff.mp hform
      exact ⟨'\x22', _, rfl, rfl⟩
    · rintro _ ⟨more, rfl⟩
      rfl
  obtain ⟨key, value⟩ := member
  rintro ⟨key', value'⟩ _ _ r s ⟨_, ⟨first, hfirst, _, rfl, rfl⟩, last, hlast, rfl⟩
    ⟨_, ⟨first', hfirst', _, rfl, rfl⟩, last', hlast', rfl⟩ hr hs heq
  simp only [List.append_assoc, List.cons_append, List.nil_append] at heq
  obtain ⟨rfl, heq⟩ := hkey hfirst hfirst' ⟨_, rfl⟩ ⟨_, rfl⟩ heq
  obtain ⟨rfl, hrest⟩ := readsOff_documents h hlast hlast' hr hs (List.cons_eq_cons.mp heq).2
  exact ⟨rfl, hrest⟩

end Values

section Elements

variable {α : Type} {family : α → Language Char} {elements others : List α} {close : Char}

/-- A text does not begin with a closing sign behind its white space, and has more than white
space. -/
def BeginsElement (text : List Char) : Prop :=
  ∀ rest, ∃ c, ((text ++ rest).dropWhile isSpace).head? = some c ∧ isClosing c = false

theorem beginsElement_padded {part : Language Char}
    (h : ∀ text ∈ part, ∃ c more, text = c :: more ∧ isSpace c = false ∧ isClosing c = false)
    (ht : t ∈ padded part) : BeginsElement t := by
  obtain ⟨_, ⟨before, hbefore, text, htext, rfl⟩, after, -, rfl⟩ := ht
  obtain ⟨c, more, rfl, hspace, hclosing⟩ := h text htext
  intro rest
  rw [List.append_assoc, List.append_assoc, List.dropWhile_append_of_pos hbefore, List.cons_append,
    List.dropWhile_cons_of_neg (by simp [hspace])]
  exact ⟨c, rfl, hclosing⟩

theorem beginsElement_of_mem_documents {value : Json} (ht : t ∈ value.documents) :
    BeginsElement t := by
  refine beginsElement_padded (fun text htext => ?_) ht
  obtain ⟨c, more, rfl, hc⟩ := exists_first htext
  exact ⟨c, more, rfl, others_of_ofFirst? hc⟩

theorem beginsElement_of_mem_pairForms {member : String × Json} (ht : t ∈ pairForms member) :
    BeginsElement t := by
  obtain ⟨_, ⟨key, hkey, colon, -, rfl⟩, value, -, rfl⟩ := ht
  have hbegins : BeginsElement key := by
    refine beginsElement_padded (fun text htext => ?_) hkey
    obtain ⟨inner, -, rfl⟩ := mem_enclosed_iff.mp htext
    exact ⟨'\x22', _, rfl, rfl, rfl⟩
  intro rest
  simpa using hbegins (colon ++ (value ++ rest))

theorem closesNext_further {rest : List (Language Char)} (hclose : isClosing close = true)
    (ht : t ∈ further rest) : ClosesNext (t ++ close :: r) := by
  intro c hc
  cases rest with
  | nil =>
    obtain rfl := (Language.mem_one t).mp ht
    exact Option.some.inj hc ▸ hclose
  | cons element rest =>
    obtain ⟨text, -, more, -, rfl⟩ := mem_further_cons.mp ht
    exact Option.some.inj hc ▸ rfl

theorem further_append_inj (hcomma : close ≠ ',') (hclose : isClosing close = true)
    (h : ∀ a ∈ elements, ReadsOff family ClosesNext a) (ht : t ∈ further (elements.map family))
    (hu : u ∈ further (others.map family)) (heq : t ++ close :: r = u ++ close :: s) :
    elements = others ∧ r = s := by
  induction elements generalizing others t u with
  | nil =>
    obtain rfl := (Language.mem_one t).mp ht
    cases others with
    | nil =>
      obtain rfl := (Language.mem_one u).mp hu
      exact ⟨rfl, (List.cons_eq_cons.mp heq).2⟩
    | cons b others =>
      obtain ⟨text, -, more, -, rfl⟩ := mem_further_cons.mp hu
      exact absurd (List.cons_eq_cons.mp heq).1 hcomma
  | cons a elements ih =>
    obtain ⟨ha, helements⟩ := List.forall_mem_cons.mp h
    obtain ⟨text, htext, more, hmore, rfl⟩ := mem_further_cons.mp ht
    cases others with
    | nil =>
      obtain rfl := (Language.mem_one u).mp hu
      exact absurd (List.cons_eq_cons.mp heq).1.symm hcomma
    | cons b others =>
      obtain ⟨text', htext', more', hmore', rfl⟩ := mem_further_cons.mp hu
      simp only [List.cons_append, List.append_assoc, List.cons_eq_cons, true_and] at heq
      obtain ⟨rfl, heq⟩ := ha htext htext' (closesNext_further hclose hmore)
        (closesNext_further hclose hmore') heq
      obtain ⟨rfl, hrest⟩ := ih helements hmore hmore' heq
      exact ⟨rfl, hrest⟩

theorem separated_append_inj (hcomma : close ≠ ',') (hclose : isClosing close = true)
    (hbegins : ∀ a, ∀ text ∈ family a, BeginsElement text)
    (h : ∀ a ∈ elements, ReadsOff family ClosesNext a) (ht : t ∈ separated (elements.map family))
    (hu : u ∈ separated (others.map family)) (heq : t ++ close :: r = u ++ close :: s) :
    elements = others ∧ r = s := by
  have hspace : isSpace close = false := (others_of_isClosing hclose).2
  -- White space up to the bracket is no element.
  have hempty : ∀ {b : α} {space text more before after : List Char}, space ∈ spaces →
      text ∈ family b → space ++ close :: before ≠ text ++ more ++ close :: after := by
    intro b space text more before after hblank htext heq
    obtain ⟨c, hc, hopen⟩ := hbegins b text htext (more ++ close :: after)
    rw [← List.append_assoc, ← heq, List.dropWhile_append_of_pos hblank,
      List.dropWhile_cons_of_neg (by simp [hspace])] at hc
    obtain rfl := Option.some.inj hc
    exact absurd hclose (by simp [hopen])
  cases elements with
  | nil =>
    cases others with
    | nil =>
      have hstop : ∀ rest : List Char, (close :: rest).head?.any isSpace = false := fun _ => hspace
      obtain ⟨-, hrest⟩ := run_append_inj ht hu (hstop r) (hstop s) heq
      exact ⟨rfl, (List.cons_eq_cons.mp hrest).2⟩
    | cons b others =>
      obtain ⟨text, htext, more, -, rfl⟩ := Language.mem_mul.mp hu
      exact absurd heq (hempty ht htext)
  | cons a elements =>
    obtain ⟨ha, helements⟩ := List.forall_mem_cons.mp h
    obtain ⟨text, htext, more, hmore, rfl⟩ := Language.mem_mul.mp ht
    cases others with
    | nil => exact absurd heq.symm (hempty hu htext)
    | cons b others =>
      obtain ⟨text', htext', more', hmore', rfl⟩ := Language.mem_mul.mp hu
      rw [List.append_assoc, List.append_assoc] at heq
      obtain ⟨rfl, heq⟩ := ha htext htext' (closesNext_further hclose hmore)
        (closesNext_further hclose hmore') heq
      obtain ⟨rfl, hrest⟩ := further_append_inj hcomma hclose helements hmore hmore' heq
      exact ⟨rfl, hrest⟩

end Elements

/-- A value is read off the front of a text: its kind by the first character, and its parts one
after the other. -/
theorem readsOff_forms (value : Json) : ReadsOff forms NoDigitNext value := by
  induction value with
  | null =>
    intro other t u r s ht hu _ _ h
    have hkind := kind_eq ht hu h
    cases other with
    | null =>
      obtain rfl : t = _ := ht
      obtain rfl : u = _ := hu
      exact ⟨rfl, List.append_cancel_left h⟩
    | _ => cases hkind
  | bool value =>
    intro other t u r s ht hu _ _ h
    have hkind := kind_eq ht hu h
    cases other with
    | bool other =>
      obtain rfl : t = _ := ht
      obtain rfl : u = _ := hu
      cases value <;> cases other <;> simp_all
    | _ => cases hkind
  | int value =>
    intro other t u r s ht hu hr hs h
    have hkind := kind_eq ht hu h
    cases other with
    | int other =>
      obtain ⟨rfl, hrest⟩ := readsOff_intForms value ht hu hr hs h
      exact ⟨rfl, hrest⟩
    | _ => cases hkind
  | str text =>
    intro other t u r s ht hu _ _ h
    have hkind := kind_eq ht hu h
    cases other with
    | str other =>
      obtain ⟨rfl, hrest⟩ := readsOff_textForms text ht hu trivial trivial h
      exact ⟨rfl, hrest⟩
    | _ => cases hkind
  | arr items ih =>
    intro other t u r s ht hu _ _ h
    have hkind := kind_eq ht hu h
    cases other with
    | arr others =>
      rw [forms_arr] at ht hu
      obtain ⟨inner, hinner, rfl⟩ := mem_enclosed_iff.mp ht
      obtain ⟨inner', hinner', rfl⟩ := mem_enclosed_iff.mp hu
      simp only [List.cons_append, List.append_assoc, List.nil_append] at h
      obtain ⟨rfl, hrest⟩ := separated_append_inj (by decide) rfl
        (fun _ _ => beginsElement_of_mem_documents)
        (fun item hitem => readsOff_documents (ih item hitem)) hinner hinner'
        (List.cons_eq_cons.mp h).2
      exact ⟨rfl, hrest⟩
    | _ => cases hkind
  | obj members ih =>
    intro other t u r s ht hu _ _ h
    have hkind := kind_eq ht hu h
    cases other with
    | obj others =>
      rw [forms_obj] at ht hu
      obtain ⟨inner, hinner, rfl⟩ := mem_enclosed_iff.mp ht
      obtain ⟨inner', hinner', rfl⟩ := mem_enclosed_iff.mp hu
      simp only [List.cons_append, List.append_assoc, List.nil_append] at h
      obtain ⟨rfl, hrest⟩ := separated_append_inj (by decide) rfl
        (fun _ _ => beginsElement_of_mem_pairForms)
        (fun member hmember => readsOff_pairForms (ih member hmember)) hinner hinner'
        (List.cons_eq_cons.mp h).2
      exact ⟨rfl, hrest⟩
    | _ => cases hkind

/-- A text is a document of one value at most. -/
theorem eq_of_mem_documents {a b : Json} (ha : t ∈ a.documents) (hb : t ∈ b.documents) : a = b :=
  (readsOff_documents (readsOff_forms a) ha hb (r := []) (s := []) nofun nofun rfl).1

end BuildVariants.Json

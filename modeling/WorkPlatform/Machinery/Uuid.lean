import Mathlib.Data.List.Basic
import Mathlib.Data.Nat.Notation
import Mathlib.Data.String.Basic

/-!
# Machinery/Uuid — ids of 128 bits, and the texts that stand for them

    3f2504e0-4f89-41d3-9a0c-0305e82c3301
    3F2504E0-4F89-41D3-9A0C-0305E82C3301        one id, two texts

An id is ordered by its value, a text by its characters, and an upper-case letter is a smaller
character than any lower-case one.  Where the texts of two ids first differ decides whether the two
orders agree (`aligned_iff`); texts in lower case always do (`aligned_of_lowercase`).

A database compares ids (`Id`), a program the texts it has of them: `read` takes many texts for one
id, and `Id.text` is the one it gives back (`read_text`).
-/

namespace Machinery.Uuid

/-! ## Texts and values -/

/-- The value of a hexadecimal digit, in either case. -/
def digit (c : Char) : Option ℕ :=
  if '0' ≤ c ∧ c ≤ '9' then some (c.toNat - '0'.toNat)
  else if 'a' ≤ c ∧ c ≤ 'f' then some (c.toNat - 'a'.toNat + 10)
  else if 'A' ≤ c ∧ c ≤ 'F' then some (c.toNat - 'A'.toNat + 10)
  else none

/-- `8-4-4-4-12`: where digits stand, and where hyphens. -/
def shape : List Bool :=
  .replicate 8 true ++ false :: .replicate 4 true ++ false :: .replicate 4 true ++
    false :: .replicate 4 true ++ false :: .replicate 12 true

/-- The text has a digit at each `true` and a hyphen at each `false`. -/
def fits : List Bool → List Char → Bool
  | [], [] => true
  | true :: p, c :: cs => (digit c).isSome ∧ fits p cs
  | false :: p, c :: cs => c = '-' ∧ fits p cs
  | _, _ => false

def isUuid (text : String) : Bool := fits shape text.toList

def digits (cs : List Char) : List ℕ := cs.filterMap digit

def ofDigits (ds : List ℕ) : ℕ := ds.foldl (fun n d => 16 * n + d) 0

/-- The 128 bits, as a number. -/
def value (text : String) : ℕ := ofDigits (digits text.toList)

/-! ## The order of values -/

section

variable {ds es : List ℕ} {a b : ℕ}

/-- Of two numerals of one length the one that starts lower is lower. -/
theorem foldl_lt (hlen : ds.length = es.length) (hds : ∀ d ∈ ds, d < 16) (hab : a < b) :
    ds.foldl (fun n d => 16 * n + d) a < es.foldl (fun n d => 16 * n + d) b := by
  induction ds generalizing es a b with
  | nil =>
    obtain rfl := List.length_eq_zero_iff.mp hlen.symm
    exact hab
  | cons d ds ih =>
    cases es with
    | nil => cases hlen
    | cons e es =>
      have hd := hds d List.mem_cons_self
      have hnext : 16 * a + d < 16 * b + e := by omega
      have hlen' : ds.length = es.length := by simpa using hlen
      rw [List.foldl_cons, List.foldl_cons]
      exact ih hlen' (fun x hx => hds x (List.mem_cons_of_mem d hx)) hnext

/-- Digits of one length are ordered as their numbers. -/
theorem foldl_lt_iff (hlen : ds.length = es.length) (hds : ∀ d ∈ ds, d < 16)
    (hes : ∀ e ∈ es, e < 16) :
    ds.foldl (fun n d => 16 * n + d) a < es.foldl (fun n d => 16 * n + d) a ↔ ds < es := by
  induction ds generalizing es a with
  | nil =>
    obtain rfl := List.length_eq_zero_iff.mp hlen.symm
    simp
  | cons d ds ih =>
    cases es with
    | nil => cases hlen
    | cons e es =>
      have hlen' : ds.length = es.length := by simpa using hlen
      have hds' : ∀ x ∈ ds, x < 16 := fun x hx => hds x (List.mem_cons_of_mem d hx)
      have hes' : ∀ x ∈ es, x < 16 := fun x hx => hes x (List.mem_cons_of_mem e hx)
      rw [List.foldl_cons, List.foldl_cons, List.cons_lt_cons_iff]
      rcases Nat.lt_trichotomy d e with hlt | rfl | hgt
      · have hnext : 16 * a + d < 16 * a + e := by omega
        exact iff_of_true (foldl_lt hlen' hds' hnext) (Or.inl hlt)
      · rw [ih hlen' hds' hes']
        simp
      · have hnext : 16 * a + e < 16 * a + d := by omega
        refine iff_of_false (Nat.lt_asymm (foldl_lt hlen'.symm hes' hnext)) ?_
        rintro (hlt | ⟨rfl, -⟩) <;> omega

/-- **Values are ordered as their digits are.** -/
theorem ofDigits_lt_iff (hlen : ds.length = es.length) (hds : ∀ d ∈ ds, d < 16)
    (hes : ∀ e ∈ es, e < 16) : ofDigits ds < ofDigits es ↔ ds < es :=
  foldl_lt_iff hlen hds hes

theorem ofDigits_inj (hlen : ds.length = es.length) (hds : ∀ d ∈ ds, d < 16)
    (hes : ∀ e ∈ es, e < 16) : ofDigits ds = ofDigits es ↔ ds = es := by
  refine ⟨fun heq => ?_, fun heq => heq ▸ rfl⟩
  by_contra hne
  rcases lt_or_gt_of_ne hne with hlt | hgt
  · exact Nat.ne_of_lt ((ofDigits_lt_iff hlen hds hes).mpr hlt) heq
  · exact Nat.ne_of_lt ((ofDigits_lt_iff hlen.symm hes hds).mpr hgt) heq.symm

end

/-! ## The order of texts -/

def rank (c : Char) : ℕ := (digit c).getD 0

/-- Where two texts first differ, the smaller character is the smaller digit; where it is one letter
in both cases, other digits differ, and they are smaller where the letter is upper case. -/
def Aligned : List Char → List Char → Prop
  | c :: cs, d :: ds =>
    if c = d then Aligned cs ds
    else if rank c = rank d then digits cs ≠ digits ds ∧ (c < d ↔ digits cs < digits ds)
    else (c < d ↔ rank c < rank d)
  | _, _ => True

instance decidableAligned : ∀ cs ds, Decidable (Aligned cs ds)
  | [], _ => inferInstanceAs (Decidable True)
  | _ :: _, [] => inferInstanceAs (Decidable True)
  | c :: cs, d :: ds =>
    have := decidableAligned cs ds
    inferInstanceAs (Decidable (if c = d then Aligned cs ds
      else if rank c = rank d then digits cs ≠ digits ds ∧ (c < d ↔ digits cs < digits ds)
      else (c < d ↔ rank c < rank d)))

section

variable {p : List Bool} {c d : Char} {cs ds : List Char}

/-- The three kinds of digits. -/
theorem digit_cases {n : ℕ} (h : digit c = some n) :
    (48 ≤ c.toNat ∧ c.toNat ≤ 57 ∧ n = c.toNat - 48) ∨
      (97 ≤ c.toNat ∧ c.toNat ≤ 102 ∧ n = c.toNat - 97 + 10) ∨
        (65 ≤ c.toNat ∧ c.toNat ≤ 70 ∧ n = c.toNat - 65 + 10) := by
  unfold digit at h
  split_ifs at h with h₁ h₂ h₃
  · exact Or.inl ⟨h₁.1, h₁.2, (Option.some.inj h).symm⟩
  · exact Or.inr (Or.inl ⟨h₂.1, h₂.2, (Option.some.inj h).symm⟩)
  · exact Or.inr (Or.inr ⟨h₃.1, h₃.2, (Option.some.inj h).symm⟩)

theorem digit_lt {n : ℕ} (h : digit c = some n) : n < 16 := by
  rcases digit_cases h with h | h | h <;> omega

theorem digits_lt : ∀ n ∈ digits cs, n < 16 := by
  intro n hn
  obtain ⟨c, -, hc⟩ := List.mem_filterMap.mp hn
  exact digit_lt hc

theorem digits_cons_digit (h : (digit c).isSome) : digits (c :: cs) = rank c :: digits cs := by
  obtain ⟨n, hn⟩ := Option.isSome_iff_exists.mp h
  simp [digits, rank, hn]

@[simp] theorem digits_cons_hyphen : digits ('-' :: cs) = digits cs := rfl

/-- A text is a digit and a text, or a hyphen and a text. -/
theorem fits_cons {b : Bool} (h : fits (b :: p) cs) : ∃ c cs', cs = c :: cs' ∧ fits p cs' ∧
    if b = true then (digit c).isSome = true else c = '-' := by
  cases cs with
  | nil => cases b <;> cases h
  | cons c cs =>
    cases b with
    | true =>
      obtain ⟨hc, hcs⟩ := of_decide_eq_true h
      exact ⟨c, cs, rfl, hcs, hc⟩
    | false =>
      obtain ⟨hc, hcs⟩ := of_decide_eq_true h
      exact ⟨c, cs, rfl, hcs, hc⟩

/-- A text that fits has as many digits as the pattern has places. -/
theorem length_digits (h : fits p cs) : (digits cs).length = p.count true := by
  induction p generalizing cs with
  | nil =>
    cases cs with
    | nil => rfl
    | cons c cs => cases h
  | cons b p ih =>
    obtain ⟨c, cs, rfl, hcs, hc⟩ := fits_cons h
    cases b with
    | true =>
      rw [digits_cons_digit hc, List.length_cons, ih hcs, List.count_cons_self]
    | false =>
      obtain rfl : c = '-' := hc
      rw [digits_cons_hyphen, ih hcs]
      simp

/-- **When the two orders agree**: other texts stand for other ids, and these come in the order of
the texts. -/
theorem aligned_iff (hcs : fits p cs) (hds : fits p ds) :
    Aligned cs ds ↔ (digits cs = digits ds → cs = ds) ∧
      (digits cs ≠ digits ds → (cs < ds ↔ digits cs < digits ds)) := by
  induction p generalizing cs ds with
  | nil =>
    cases cs with
    | nil =>
      cases ds with
      | nil => exact iff_of_true trivial ⟨fun _ => rfl, fun hne => absurd rfl hne⟩
      | cons d ds => cases hds
    | cons c cs => cases hcs
  | cons b p ih =>
    obtain ⟨c, cs, rfl, hcs, hc⟩ := fits_cons hcs
    obtain ⟨d, ds, rfl, hds, hd⟩ := fits_cons hds
    have hih := ih hcs hds
    cases b with
    | false =>
      obtain rfl : c = '-' := hc
      obtain rfl : d = '-' := hd
      simpa [Aligned] using hih
    | true =>
      rw [digits_cons_digit hc, digits_cons_digit hd, Aligned]
      by_cases hsame : c = d
      · subst hsame
        simpa [List.cons_lt_cons_iff] using hih
      · have htexts : c :: cs < d :: ds ↔ c < d := by simp [List.cons_lt_cons_iff, hsame]
        rw [if_neg hsame, htexts]
        by_cases hrank : rank c = rank d
        · have hvalues : rank c :: digits cs < rank d :: digits ds ↔ digits cs < digits ds := by
            simp [hrank]
          rw [if_pos hrank, hvalues]
          simp only [hrank, hsame, List.cons.injEq, true_and, false_and, imp_false, ne_eq]
          exact and_congr_right fun hne => (imp_iff_right hne).symm
        · have hvalues : rank c :: digits cs < rank d :: digits ds ↔ rank c < rank d := by
            simp [List.cons_lt_cons_iff, hrank]
          rw [if_neg hrank, hvalues]
          simp [hrank]

/-- Two ids have their digits in as many places. -/
theorem value_lt_iff {x y : String} (hx : isUuid x) (hy : isUuid y) :
    value x < value y ↔ digits x.toList < digits y.toList :=
  ofDigits_lt_iff ((length_digits hx).trans (length_digits hy).symm) digits_lt digits_lt

theorem value_inj {x y : String} (hx : isUuid x) (hy : isUuid y) :
    value x = value y ↔ digits x.toList = digits y.toList :=
  ofDigits_inj ((length_digits hx).trans (length_digits hy).symm) digits_lt digits_lt

/-- **Texts agree with values** where they are aligned. -/
theorem aligned_iff_value {x y : String} (hx : isUuid x) (hy : isUuid y) :
    Aligned x.toList y.toList ↔
      (value x = value y → x = y) ∧ (value x ≠ value y → (x < y ↔ value x < value y)) := by
  rw [aligned_iff hx hy, value_lt_iff hx hy, ne_eq, ne_eq, value_inj hx hy,
    String.lt_iff_toList_lt, String.toList_inj]

/-- Digits in lower case are in the order of their values. -/
theorem lt_iff_rank_lt (hc : (digit c).isSome) (hd : (digit d).isSome) (hc' : ¬ c.isUpper)
    (hd' : ¬ d.isUpper) : c < d ↔ rank c < rank d := by
  obtain ⟨m, hm⟩ := Option.isSome_iff_exists.mp hc
  obtain ⟨n, hn⟩ := Option.isSome_iff_exists.mp hd
  have hchars : c < d ↔ c.toNat < d.toNat := Iff.rfl
  have hcupper : ¬ (65 ≤ c.toNat ∧ c.toNat ≤ 90) := fun h => hc' (decide_eq_true h)
  have hdupper : ¬ (65 ≤ d.toNat ∧ d.toNat ≤ 90) := fun h => hd' (decide_eq_true h)
  rw [hchars, rank, rank, hm, hn, Option.getD_some, Option.getD_some]
  rcases digit_cases hm with hm | hm | hm <;> rcases digit_cases hn with hn | hn | hn <;> omega

/-- **Texts in lower case are aligned.** -/
theorem aligned_of_lowercase (hcs : fits p cs) (hds : fits p ds)
    (hlower : (cs.all fun c => !c.isUpper) = true) (hlower' : (ds.all fun d => !d.isUpper) = true) :
    Aligned cs ds := by
  induction p generalizing cs ds with
  | nil =>
    cases cs with
    | nil => trivial
    | cons c cs => cases hcs
  | cons b p ih =>
    obtain ⟨c, cs, rfl, hcs, hc⟩ := fits_cons hcs
    obtain ⟨d, ds, rfl, hds, hd⟩ := fits_cons hds
    rw [List.all_cons, Bool.and_eq_true, Bool.not_eq_true'] at hlower hlower'
    have hrest := ih hcs hds hlower.2 hlower'.2
    have hcase := ne_true_of_eq_false hlower.1
    have hcase' := ne_true_of_eq_false hlower'.1
    rw [Aligned]
    by_cases hsame : c = d
    · rwa [if_pos hsame]
    · cases b with
      | false =>
        obtain rfl : c = '-' := hc
        obtain rfl : d = '-' := hd
        exact absurd rfl hsame
      | true =>
        have hlt := lt_iff_rank_lt hc hd hcase hcase'
        have hgt := lt_iff_rank_lt hd hc hcase' hcase
        have hrank : rank c ≠ rank d := by
          intro heq
          rcases lt_or_gt_of_ne hsame with h | h
          · exact Nat.ne_of_lt (hlt.mp h) heq
          · exact Nat.ne_of_lt (hgt.mp h) heq.symm
        rwa [if_neg hsame, if_neg hrank]

end

/-! ## Reading and printing -/

/-- A hyphen may follow every second byte but the last, with so many bytes left. -/
def skipHyphen (left : ℕ) : List Char → List Char
  | '-' :: cs => if left % 2 = 0 ∧ left ≠ 0 then cs else '-' :: cs
  | cs => cs

/-- So many bytes, and what follows them. -/
def readBytes : ℕ → List Char → Option (List ℕ × List Char)
  | 0, cs => some ([], cs)
  | n + 1, c :: d :: cs =>
    match digit c, digit d, readBytes n (skipHyphen n cs) with
    | some x, some y, some (ds, rest) => some (x :: y :: ds, rest)
    | _, _, _ => none
  | _ + 1, _ => none

/-- 16 bytes, in braces or not. -/
def readDigits : List Char → Option (List ℕ)
  | '\x7b' :: cs =>
    match readBytes 16 cs with
    | some (ds, ['\x7d']) => some ds
    | _ => none
  | cs =>
    match readBytes 16 cs with
    | some (ds, []) => some ds
    | _ => none

/-- In lower case, with a hyphen where `8-4-4-4-12` has one. -/
def printBytes : ℕ → List ℕ → List Char
  | n + 1, x :: y :: ds =>
    x.digitChar :: y.digitChar ::
      ((if n = 12 ∨ n = 10 ∨ n = 8 ∨ n = 6 then ['-'] else []) ++ printBytes n ds)
  | _, _ => []

/-- An id of 128 bits. -/
structure Id where
  digits : List ℕ
  length : digits.length = 32
  small : ∀ d ∈ digits, d < 16
  deriving DecidableEq

/-- The id with one digit all through. -/
def Id.replicate (digit : ℕ) : Id where
  digits := .replicate 32 (digit % 16)
  length := List.length_replicate
  small d hd := by
    rw [List.eq_of_mem_replicate hd]
    exact Nat.mod_lt digit (by decide)

/-- The text an id is printed as. -/
def Id.text (id : Id) : String := .ofList (printBytes 16 id.digits)

/-- The id a text is read as; `none` where it is the text of none. -/
def read (text : String) : Option Id :=
  match readDigits text.toList with
  | some ds =>
    if h : ds.length = 32 ∧ ∀ d ∈ ds, d < 16 then some ⟨ds, h.1, h.2⟩ else none
  | none => none

section

variable {n : ℕ} {cs ds : List ℕ}

theorem digit_digitChar : ∀ {d : ℕ}, d < 16 → digit d.digitChar = some d := by
  decide

/-- A digit is no hyphen. -/
theorem skipHyphen_printBytes (h : ∀ d ∈ ds, d < 16) (left : ℕ) :
    skipHyphen left (printBytes n ds) = printBytes n ds := by
  match n, ds with
  | 0, _ => rfl
  | _ + 1, [] => rfl
  | _ + 1, [_] => rfl
  | n + 1, x :: y :: ds =>
    have hx := digit_digitChar (h x List.mem_cons_self)
    rw [printBytes]
    unfold skipHyphen
    split
    case h_1 heq =>
      rw [(List.cons.inj heq).1] at hx
      cases hx
    case h_2 => rfl

/-- **What is printed is read**, byte by byte. -/
theorem readBytes_printBytes (hlen : ds.length = 2 * n) (h : ∀ d ∈ ds, d < 16) :
    readBytes n (printBytes n ds) = some (ds, []) := by
  induction n generalizing ds with
  | zero =>
    obtain rfl := List.length_eq_zero_iff.mp hlen
    rfl
  | succ n ih =>
    match ds, hlen with
    | x :: y :: ds, hlen =>
      have hds : ∀ d ∈ ds, d < 16 :=
        fun d hd => h d (List.mem_cons_of_mem x (List.mem_cons_of_mem y hd))
      have hx := digit_digitChar (h x List.mem_cons_self)
      have hy := digit_digitChar (h y (List.mem_cons_of_mem x List.mem_cons_self))
      have hlen' : ds.length = 2 * n := by
        simp only [List.length_cons] at hlen
        omega
      have hskip : skipHyphen n ((if n = 12 ∨ n = 10 ∨ n = 8 ∨ n = 6 then ['-'] else [])
          ++ printBytes n ds) = printBytes n ds := by
        split
        case isTrue hn => exact if_pos (by omega)
        case isFalse => exact skipHyphen_printBytes hds n
      rw [printBytes, readBytes, hskip, ih hlen' hds, hx, hy]

/-- The text of an id has no brace in front. -/
theorem readDigits_printBytes (hlen : ds.length = 2 * 16) (h : ∀ d ∈ ds, d < 16) :
    readDigits (printBytes 16 ds) = some ds := by
  have hread := readBytes_printBytes hlen h
  match ds, hlen with
  | x :: y :: ds, _ =>
    have hx := digit_digitChar (h x List.mem_cons_self)
    rw [printBytes] at hread ⊢
    unfold readDigits
    split
    case h_1 heq =>
      rw [(List.cons.inj heq).1] at hx
      cases hx
    case h_2 => rw [hread]

end

/-- **The text of an id is read as the id.** -/
@[simp] theorem read_text (id : Id) : read id.text = some id := by
  rw [read, Id.text, String.toList_ofList, readDigits_printBytes id.length id.small]
  exact dif_pos ⟨id.length, id.small⟩

theorem text_injective : Function.Injective Id.text := fun x y h =>
  Option.some.inj ((read_text x).symm.trans ((congrArg read h).trans (read_text y)))

end Machinery.Uuid

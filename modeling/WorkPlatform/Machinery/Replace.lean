import Mathlib.Data.List.Chain
import Mathlib.Data.List.DropRight
import WorkPlatform.Machinery.Regex

/-!
# Machinery/Replace — `text.replace(re, sub)` of a global regular expression

    a b <x> c   ──<[^>]+> ↦ " "──▸   a b   c   ──\s{2,} ↦ " "──▸   a b c

The matches are looked for from left to right, each behind the one before, and what is put in their
place is not looked at again.  So a replacement may leave matches that were not there before; it
leaves none where brackets are replaced by something without brackets (`bracketed_free_replace`),
and no run where each is replaced by one character (`isChain_replace_runs`).
-/

namespace Machinery

namespace Regex

variable {α : Type*} (re : Regex α) (sub : List α)

/-! ## Replacing -/

/-- The rest of the text, of which `skip` characters belong to a match. -/
def replaceFrom : List α → ℕ → List α
  | [], _ => []
  | _ :: l, skip + 1 => replaceFrom l skip
  | c :: l, 0 =>
    match re.matchAt (c :: l) with
    | some n => sub ++ replaceFrom l (n - 1)
    | none => c :: replaceFrom l 0

/-- `text.replace(re, sub)`. -/
def replace (l : List α) : List α := re.replaceFrom sub l 0

/-- No match begins anywhere in the text. -/
def Free (l : List α) : Prop := ∀ s, s <:+ l → re.matchAt s = none

variable {re sub} {l : List α} {c : α} {n : ℕ}

theorem replaceFrom_eq (k : ℕ) : re.replaceFrom sub l k = re.replace sub (l.drop k) := by
  induction l generalizing k with
  | nil => rw [List.drop_nil]; rfl
  | cons c l ih =>
    cases k with
    | zero => rfl
    | succ k => exact ih k

theorem replace_cons_none (h : re.matchAt (c :: l) = none) :
    re.replace sub (c :: l) = c :: re.replace sub l := by
  rw [replace, replaceFrom, h]
  rfl

theorem replace_some (h : re.matchAt l = some n) :
    re.replace sub l = sub ++ re.replace sub (l.drop n) := by
  cases l with
  | nil => rw [matchAt_nil] at h; cases h
  | cons c l =>
    obtain ⟨n, rfl⟩ := Nat.exists_eq_succ_of_ne_zero (re.nonempty h).ne'
    rw [replace, replaceFrom, h]
    exact congrArg (sub ++ ·) (replaceFrom_eq n)

/-- **The induction of a replacement**: behind a character where none begins, and behind a match. -/
theorem replace_induction {P : List α → List α → Prop} (nil : P [] [])
    (other : ∀ c l, re.matchAt (c :: l) = none → P l (re.replace sub l) →
      P (c :: l) (c :: re.replace sub l))
    (found : ∀ l n, re.matchAt l = some n → P (l.drop n) (re.replace sub (l.drop n)) →
      P l (sub ++ re.replace sub (l.drop n))) :
    ∀ l, P l (re.replace sub l) := by
  intro l
  induction hn : l.length using Nat.strong_induction_on generalizing l with
  | h m ih =>
    subst hn
    cases l with
    | nil => exact nil
    | cons c l =>
      cases h : re.matchAt (c :: l) with
      | none =>
        rw [replace_cons_none h]
        exact other c l h (ih _ (Nat.lt_succ_self _) l rfl)
      | some n =>
        rw [replace_some h]
        have hpos := re.nonempty h
        refine found (c :: l) n h (ih _ ?_ _ rfl)
        rw [List.length_drop, List.length_cons]
        omega

theorem Free.suffix {s : List α} (h : re.Free l) (hs : s <:+ l) : re.Free s :=
  fun s' hs' => h s' (hs'.trans hs)

theorem free_nil : re.Free [] := by
  intro s hs
  rw [List.suffix_nil.mp hs]
  exact matchAt_nil

theorem free_cons (h : re.matchAt (c :: l) = none) (hl : re.Free l) : re.Free (c :: l) := by
  intro s hs
  rcases List.suffix_cons_iff.mp hs with rfl | hs
  · exact h
  · exact hl s hs

theorem Free.replace_eq (h : re.Free l) : re.replace sub l = l := by
  induction l with
  | nil => rfl
  | cons c l ih =>
    rw [replace_cons_none (h _ List.suffix_rfl), ih (h.suffix (List.suffix_cons c l))]

/-- What begins no match is left as it is, whatever is behind it. -/
theorem replace_append {s : List α}
    (h : ∀ c t, c :: t <:+ s → re.matchAt (c :: (t ++ l)) = none) :
    re.replace sub (s ++ l) = s ++ re.replace sub l := by
  induction s with
  | nil => rfl
  | cons c s ih =>
    rw [List.cons_append, replace_cons_none (h c s List.suffix_rfl),
      ih fun c' t ht => h c' t (ht.trans (List.suffix_cons c s)), List.cons_append]

/-- A text that is put together, replaced part by part. -/
theorem replace_flatMap {β : Type*} {f g : β → List α}
    (h : ∀ b l, re.replace sub (f b ++ l) = g b ++ re.replace sub l) (bs : List β) :
    re.replace sub (bs.flatMap f) = bs.flatMap g := by
  induction bs with
  | nil => rfl
  | cons b bs ih => rw [List.flatMap_cons, List.flatMap_cons, h, ih]

/-! ## Brackets -/

section Bracketed

variable (opens closes : α → Bool)

/-- `/<[^>]+>/`, at the start of a text. -/
def bracketedAt : List α → Option ℕ
  | [] => none
  | c :: rest =>
    if opens c ∧ rest.takeWhile (! closes ·) ≠ [] ∧ rest.dropWhile (! closes ·) ≠ [] then
      some ((rest.takeWhile (! closes ·)).length + 2)
    else none

/-- `/<[^>]+>/`. -/
def bracketed : Regex α where
  matchAt := bracketedAt opens closes
  nonempty := by
    intro l n h
    cases l with
    | nil => cases h
    | cons c rest =>
      rw [bracketedAt] at h
      split_ifs at h
      obtain rfl := Option.some.inj h
      exact Nat.succ_pos _
  fits := by
    intro l n h
    cases l with
    | nil => cases h
    | cons c rest =>
      rw [bracketedAt] at h
      split_ifs at h with hmatch
      obtain rfl := Option.some.inj h
      have hlength := congrArg List.length
        (List.takeWhile_append_dropWhile (p := (! closes ·)) (l := rest))
      have hpos := List.length_pos_iff.mpr hmatch.2.2
      rw [List.length_append] at hlength
      rw [List.length_cons]
      omega

variable {opens closes}

/-- Where no bracket begins: none opens, it closes at once, or none closes. -/
theorem bracketedAt_eq_none : bracketedAt opens closes (c :: l) = none
    ↔ opens c = false ∨ (∃ a, l.head? = some a ∧ closes a = true) ∨ ∀ a ∈ l, closes a = false := by
  rw [bracketedAt]
  constructor
  · intro h
    by_contra hnot
    rw [not_or, not_or] at hnot
    obtain ⟨hopens, hfirst, hall⟩ := hnot
    have hinner : l.takeWhile (! closes ·) ≠ [] := by
      cases l with
      | nil => exact absurd (fun a ha => absurd ha List.not_mem_nil) hall
      | cons a l =>
        have ha : closes a = false := by
          by_contra hcloses
          exact hfirst ⟨a, rfl, by simpa using hcloses⟩
        rw [List.takeWhile_cons, if_pos (by simpa using ha)]
        exact List.cons_ne_nil a _
    have hclosed : l.dropWhile (! closes ·) ≠ [] := by
      intro hnil
      refine hall fun a ha => ?_
      have hkept := List.dropWhile_eq_nil_iff.mp hnil a ha
      simpa using hkept
    rw [if_pos ⟨by simpa using hopens, hinner, hclosed⟩] at h
    cases h
  · rintro (hopens | ⟨a, ha, hcloses⟩ | hall)
    · exact if_neg fun h => Bool.noConfusion (hopens.symm.trans h.1)
    · refine if_neg fun h => h.2.1 ?_
      cases l with
      | nil => rfl
      | cons b l =>
        obtain rfl := Option.some.inj ha
        rw [List.takeWhile_cons, if_neg (by simpa using hcloses)]
    · refine if_neg fun h => h.2.2 (List.dropWhile_eq_nil_iff.mpr fun a ha => ?_)
      simpa using hall a ha

theorem bracketed_none_of_not_opens (h : opens c = false) :
    (bracketed opens closes).matchAt (c :: l) = none :=
  bracketedAt_eq_none.mpr (Or.inl h)

theorem Free.append {s : List α} (h : (bracketed opens closes).Free l)
    (hs : ∀ a ∈ s, opens a = false) : (bracketed opens closes).Free (s ++ l) := by
  induction s with
  | nil => exact h
  | cons b s ih =>
    exact free_cons (bracketed_none_of_not_opens (hs b List.mem_cons_self))
      (ih fun a ha => hs a (List.mem_cons_of_mem b ha))

/-- A bracket, whatever is behind it. -/
theorem bracketed_match {inner : List α} {a b : α} (ha : opens a = true) (hb : closes b = true)
    (hne : inner ≠ []) (hinner : ∀ c ∈ inner, closes c = false) :
    (bracketed opens closes).matchAt (a :: (inner ++ b :: l)) = some (inner.length + 2) := by
  have htake : (inner ++ b :: l).takeWhile (! closes ·) = inner := by
    rw [List.takeWhile_append_of_pos fun c hc => by simpa using hinner c hc, List.takeWhile_cons,
      if_neg (by simpa using hb), List.append_nil]
  have hdrop : (inner ++ b :: l).dropWhile (! closes ·) = b :: l := by
    rw [List.dropWhile_append_of_pos fun c hc => by simpa using hinner c hc, List.dropWhile_cons,
      if_neg (by simpa using hb)]
  show bracketedAt opens closes (a :: (inner ++ b :: l)) = _
  rw [bracketedAt, htake, hdrop, if_pos ⟨ha, hne, nofun⟩]

/-- **A replacement leaves no bracket**, where it stops at every bracket that is there, does not
begin at a closing one, and puts none in. -/
theorem bracketed_free_replace (hsub : ∀ a ∈ sub, opens a = false ∧ closes a = false)
    (hstart : ∀ c l n, re.matchAt (c :: l) = some n → closes c = false)
    (hl : ∀ s, s <:+ l → re.matchAt s = none → bracketedAt opens closes s = none) :
    (bracketed opens closes).Free (re.replace sub l) := by
  -- what closes in the result closed in the text, and where the text begins by closing
  suffices h : ∀ l, (∀ s, s <:+ l → re.matchAt s = none → bracketedAt opens closes s = none) →
      (bracketed opens closes).Free (re.replace sub l)
        ∧ ((∀ a ∈ l, closes a = false) → ∀ a ∈ re.replace sub l, closes a = false)
        ∧ ∀ a, l.head? = some a → closes a = true → (re.replace sub l).head? = some a from
    (h l hl).1
  refine replace_induction (P := fun l r =>
    (∀ s, s <:+ l → re.matchAt s = none → bracketedAt opens closes s = none) →
      (bracketed opens closes).Free r ∧ ((∀ a ∈ l, closes a = false) → ∀ a ∈ r, closes a = false)
        ∧ ∀ a, l.head? = some a → closes a = true → r.head? = some a) ?_ ?_ ?_
  · exact fun _ => ⟨free_nil, fun h => h, fun _ h _ => h⟩
  · intro c l hnone ih hl
    obtain ⟨hfree, hcloses, hhead⟩ := ih fun s hs => hl s (hs.trans (List.suffix_cons c l))
    refine ⟨free_cons (bracketedAt_eq_none.mpr ?_) hfree, fun h a ha => ?_, fun a ha _ => ha⟩
    · rcases bracketedAt_eq_none.mp (hl _ List.suffix_rfl hnone) with h | ⟨a, ha, h⟩ | h
      · exact Or.inl h
      · exact Or.inr (Or.inl ⟨a, hhead a ha h, h⟩)
      · exact Or.inr (Or.inr (hcloses h))
    · rcases List.mem_cons.mp ha with rfl | ha
      · exact h a List.mem_cons_self
      · exact hcloses (fun b hb => h b (List.mem_cons_of_mem c hb)) a ha
  · intro l n hfound ih hl
    obtain ⟨hfree, hcloses, -⟩ := ih fun s hs => hl s (hs.trans (List.drop_suffix n l))
    refine ⟨?_, fun h a ha => ?_, fun a ha hclose => ?_⟩
    · exact hfree.append fun a ha => (hsub a ha).1
    · rcases List.mem_append.mp ha with ha | ha
      · exact (hsub a ha).2
      · exact hcloses (fun b hb => h b (List.mem_of_mem_drop hb)) a ha
    · cases l with
      | nil => cases ha
      | cons b l =>
        obtain rfl := Option.some.inj ha
        rw [hstart b l n hfound] at hclose
        cases hclose

/-- What is cut off at the end takes no bracket in. -/
theorem Free.bracketed_initial {s : List α} (h : (bracketed opens closes).Free l) (hs : s <+: l) :
    (bracketed opens closes).Free s := by
  intro s' hs'
  obtain ⟨back, rfl⟩ := hs
  obtain ⟨front, rfl⟩ := hs'
  have hl : (bracketed opens closes).matchAt (s' ++ back) = none :=
    h _ ⟨front, (List.append_assoc front s' back).symm⟩
  cases s' with
  | nil => exact matchAt_nil
  | cons c s' =>
    refine bracketedAt_eq_none.mpr ?_
    rcases bracketedAt_eq_none.mp hl with hopens | ⟨a, ha, hcloses⟩ | hall
    · exact Or.inl hopens
    · cases s' with
      | nil =>
        exact Or.inr (Or.inr fun b hb => absurd hb List.not_mem_nil)
      | cons b s' => exact Or.inr (Or.inl ⟨a, ha, hcloses⟩)
    · exact Or.inr (Or.inr fun a ha => hall a (List.mem_append_left back ha))

end Bracketed

/-! ## Runs -/

section Runs

variable (p : α → Bool)

/-- `/\s{2,}/`, at the start of a text. -/
def runAt (l : List α) : Option ℕ :=
  if 2 ≤ (l.takeWhile p).length then some (l.takeWhile p).length else none

/-- `/\s{2,}/`. -/
def runs : Regex α where
  matchAt := runAt p
  nonempty := by
    intro l n h
    unfold runAt at h
    split_ifs at h with hlong
    obtain rfl := Option.some.inj h
    omega
  fits := by
    intro l n h
    unfold runAt at h
    split_ifs at h
    obtain rfl := Option.some.inj h
    exact (List.takeWhile_prefix p).length_le

variable {p}

/-- No run of two begins here. -/
theorem runs_matchAt_eq_none : (runs p).matchAt (c :: l) = none
    ↔ p c = false ∨ ∀ a, l.head? = some a → p a = false := by
  show runAt p (c :: l) = none ↔ _
  unfold runAt
  cases hc : p c with
  | false =>
    rw [List.takeWhile_cons, if_neg (by simp [hc])]
    exact ⟨fun _ => Or.inl rfl, fun _ => rfl⟩
  | true =>
    rw [List.takeWhile_cons, if_pos hc]
    cases l with
    | nil =>
      refine ⟨fun _ => Or.inr fun a ha => ?_, fun _ => rfl⟩
      cases ha
    | cons b l =>
      cases hb : p b with
      | false =>
        rw [List.takeWhile_cons, if_neg (by simp [hb])]
        refine ⟨fun _ => Or.inr fun a ha => ?_, fun _ => rfl⟩
        obtain rfl := Option.some.inj ha
        exact hb
      | true =>
        have hlong : 2 ≤ (c :: b :: l.takeWhile p).length := Nat.le_add_left 2 _
        rw [List.takeWhile_cons, if_pos hb, if_pos hlong]
        refine ⟨fun h => (Option.some_ne_none _ h).elim, ?_⟩
        rintro (h | h)
        · cases h
        · exact Bool.noConfusion ((h b rfl).symm.trans hb)

/-- A run is all of them, and what is behind it is none of them. -/
theorem runs_found (h : (runs p).matchAt l = some n) :
    (∀ a ∈ l.take n, p a = true) ∧ (∀ a, (l.drop n).head? = some a → p a = false)
      ∧ ∃ c s, l = c :: s ∧ p c = true := by
  change runAt p l = some n at h
  unfold runAt at h
  split_ifs at h with hlong
  obtain rfl := Option.some.inj h
  have hsplit := List.takeWhile_append_dropWhile (p := p) (l := l)
  have htake : l.take (l.takeWhile p).length = l.takeWhile p :=
    (List.prefix_iff_eq_take.mp (List.takeWhile_prefix p)).symm
  have hdrop : l.drop (l.takeWhile p).length = l.dropWhile p := by
    have hparts := List.take_append_drop (l.takeWhile p).length l
    rw [htake] at hparts
    exact List.append_cancel_left (hparts.trans hsplit.symm)
  refine ⟨fun a ha => ?_, fun a ha => ?_, ?_⟩
  · rw [htake] at ha
    exact List.mem_takeWhile_imp ha
  · rw [hdrop] at ha
    have hnot := List.head?_dropWhile_not p l
    rw [ha] at hnot
    exact hnot
  · cases l with
    | nil => simp at hlong
    | cons c s =>
      refine ⟨c, s, rfl, ?_⟩
      by_contra hc
      rw [List.takeWhile_cons, if_neg hc] at hlong
      simp at hlong

theorem runs_head (h : (runs p).matchAt (c :: l) = some n) : p c = true := by
  obtain ⟨-, -, c', s, heq, hc⟩ := runs_found h
  obtain ⟨rfl, -⟩ := List.cons.inj heq
  exact hc

/-- **No run is left** where each is replaced by one character. -/
theorem isChain_replace_runs (a : α) (l : List α) :
    ((runs p).replace [a] l).IsChain fun b c => p b = true → p c = false := by
  -- what begins with none of them still does
  suffices h : ((runs p).replace [a] l).IsChain (fun b c => p b = true → p c = false)
      ∧ ((∀ c, l.head? = some c → p c = false) →
        ∀ c, ((runs p).replace [a] l).head? = some c → p c = false) from h.1
  refine replace_induction (P := fun l r => r.IsChain (fun b c => p b = true → p c = false)
    ∧ ((∀ c, l.head? = some c → p c = false) → ∀ c, r.head? = some c → p c = false)) ?_ ?_ ?_ l
  · exact ⟨.nil, fun h => h⟩
  · intro c l hnone ⟨hchain, hhead⟩
    refine ⟨List.isChain_cons.mpr ⟨fun b hb hc => ?_, hchain⟩, fun h => h⟩
    rcases runs_matchAt_eq_none.mp hnone with hnot | hnext
    · rw [hnot] at hc
      cases hc
    · exact hhead hnext b hb
  · intro l n hfound ⟨hchain, hhead⟩
    obtain ⟨-, hnext, c, s, rfl, hc⟩ := runs_found hfound
    refine ⟨List.isChain_cons.mpr ⟨fun b hb _ => hhead hnext b hb, hchain⟩, fun h => ?_⟩
    rw [h c rfl] at hc
    cases hc

/-- A text without two of them in a row has no run. -/
theorem runs_free_of_isChain (h : l.IsChain fun b c => p b = true → p c = false) :
    (runs p).Free l := by
  induction l with
  | nil => exact free_nil
  | cons c l ih =>
    obtain ⟨hnext, hl⟩ := List.isChain_cons.mp h
    refine free_cons (runs_matchAt_eq_none.mpr ?_) (ih hl)
    cases hc : p c with
    | false => exact Or.inl rfl
    | true => exact Or.inr fun a ha => hnext a ha hc

/-! ### Words -/

variable (p) in
/-- The words of a text, between the characters of a class. -/
def words (l : List α) : List (List α) := (l.splitOnP p).filter (! ·.isEmpty)

theorem words_append_cons (s : List α) (hc : p c = true) :
    words p (s ++ c :: l) = words p s ++ words p l := by
  unfold words
  rw [List.splitOnP_append_cons s l hc, List.filter_append]

theorem words_append_of_all {s : List α} (hs : ∀ a ∈ s, p a = true) :
    words p (s ++ l) = words p l := by
  induction s with
  | nil => rfl
  | cons a s ih =>
    have hfirst : words p ([] ++ a :: (s ++ l)) = words p [] ++ words p (s ++ l) :=
      words_append_cons [] (hs a List.mem_cons_self)
    exact hfirst.trans (ih fun b hb => hs b (List.mem_cons_of_mem a hb))

/-- Separators at the end are no words. -/
theorem words_append_all {s : List α} (hs : ∀ a ∈ s, p a = true) :
    words p (l ++ s) = words p l := by
  cases s with
  | nil => rw [List.append_nil]
  | cons a s =>
    have hrest : words p (s ++ []) = words p [] :=
      words_append_of_all fun b hb => hs b (List.mem_cons_of_mem a hb)
    rw [words_append_cons l (hs a List.mem_cons_self), ← List.append_nil s, hrest]
    exact List.append_nil _

/-- **The words stay**, where each run is replaced by one of its characters. -/
theorem words_replace_runs {a : α} (ha : p a = true) (l : List α) :
    words p ((runs p).replace [a] l) = words p l := by
  -- in front of the text there may be the beginning of a word
  suffices h : ∀ front, words p (front ++ (runs p).replace [a] l) = words p (front ++ l) from h []
  refine replace_induction (P := fun l r => ∀ front, words p (front ++ r) = words p (front ++ l))
    (fun _ => rfl) ?_ ?_ l
  · intro c l _ ih front
    have hnext := ih (front ++ [c])
    rwa [List.append_assoc, List.append_assoc] at hnext
  · intro l n hfound ih front
    obtain ⟨hall, -, c, s, rfl, hc⟩ := runs_found hfound
    have hrun : words p (c :: s) = words p ((c :: s).drop n) := by
      conv_lhs => rw [← List.take_append_drop n (c :: s)]
      exact words_append_of_all hall
    have hfirst : words p (c :: s) = words p s :=
      words_append_of_all (s := [c]) fun b hb => by rwa [List.mem_singleton.mp hb]
    have hbehind : words p ((runs p).replace [a] ((c :: s).drop n)) = words p ((c :: s).drop n) :=
      ih []
    calc words p (front ++ ([a] ++ (runs p).replace [a] ((c :: s).drop n)))
        = words p front ++ words p ((runs p).replace [a] ((c :: s).drop n)) :=
          words_append_cons front ha
      _ = words p front ++ words p s := by rw [hbehind, ← hrun, hfirst]
      _ = words p (front ++ c :: s) := (words_append_cons front hc).symm

/-! ### The ends of a text -/

variable (p) in
/-- `text.trim()`. -/
def trim (l : List α) : List α := (l.dropWhile p).rdropWhile p

theorem trim_prefix : trim p l <+: l.dropWhile p := List.rdropWhile_prefix p _

theorem words_trim (l : List α) : words p (trim p l) = words p l := by
  have hfront : words p l = words p (l.dropWhile p) := by
    conv_lhs => rw [← List.takeWhile_append_dropWhile (p := p) (l := l)]
    exact words_append_of_all fun a ha => List.mem_takeWhile_imp ha
  have hback : words p (l.dropWhile p) = words p (trim p l) := by
    conv_lhs => rw [← List.rdropWhile_append_rtakeWhile (p := p) (l := l.dropWhile p)]
    exact words_append_all fun a ha => List.mem_rtakeWhile_imp ha
  rw [hfront, hback]

/-- What is left begins with none of them. -/
theorem head_trim (hc : (trim p l).head? = some c) : p c = false := by
  obtain ⟨back, hback⟩ := trim_prefix (p := p) (l := l)
  have hhead : (l.dropWhile p).head? = some c := by
    rw [← hback, List.head?_append, hc]
    rfl
  have hnot := List.head?_dropWhile_not p l
  rw [hhead] at hnot
  exact hnot

/-- And ends with none of them. -/
theorem getLast_trim (hc : (trim p l).getLast? = some c) : p c = false := by
  have hne : trim p l ≠ [] := by
    intro hnil
    rw [hnil] at hc
    cases hc
  rw [List.getLast?_eq_some_getLast hne] at hc
  obtain rfl := Option.some.inj hc
  exact eq_false_of_ne_true (List.rdropWhile_last_not p (l.dropWhile p) hne)

/-- A text that neither begins nor ends with a separator is trimmed to itself. -/
theorem trim_eq_self (hhead : ∀ c, l.head? = some c → p c = false)
    (hlast : ∀ c, l.getLast? = some c → p c = false) : trim p l = l := by
  have hfront : l.dropWhile p = l := by
    cases l with
    | nil => rfl
    | cons c l => rw [List.dropWhile_cons, if_neg (by simp [hhead c rfl])]
  unfold trim
  rw [hfront]
  refine List.rdropWhile_eq_self_iff.mpr fun hne => ?_
  have hnot := hlast _ (List.getLast?_eq_some_getLast hne)
  simp [hnot]

end Runs

/-! ## Blocks -/

section Blocks

variable (same : α → α → Bool)

/-- The text starts with the word, where `same` tells which characters are equal. -/
def startsWith : List α → List α → Bool
  | [], _ => true
  | _ :: _, [] => false
  | a :: w, b :: l => same a b && startsWith w l

/-- Where the word is first. -/
def position (w : List α) : List α → Option ℕ
  | [] => if startsWith same w [] then some 0 else none
  | c :: l => if startsWith same w (c :: l) then some 0 else (position w l).map (· + 1)

variable (first last : List α) (closes : α → Bool)

/-- `/<style[^>]*>/`, at the start of a text. -/
def openingAt (l : List α) : Option ℕ :=
  if startsWith same first l ∧ (l.drop first.length).dropWhile (! closes ·) ≠ [] then
    some (first.length + (((l.drop first.length).takeWhile (! closes ·)).length + 1))
  else none

/-- `/<style[^>]*>[\s\S]*?<\/style>/`, at the start of a text. -/
def blockAt (l : List α) : Option ℕ :=
  (openingAt same first closes l).bind fun n =>
    (position same last (l.drop n)).map fun k => n + (k + last.length)

variable {same first last closes} {w s : List α} {a b : α}

/-- A word is no longer than what starts with it. -/
theorem length_le_of_startsWith (h : startsWith same w l = true) : w.length ≤ l.length := by
  induction w generalizing l with
  | nil => exact Nat.zero_le _
  | cons a w ih =>
    cases l with
    | nil => cases h
    | cons b l =>
      rw [startsWith, Bool.and_eq_true] at h
      exact Nat.succ_le_succ (ih h.2)

/-- Only as much of the text counts as the word is long. -/
theorem startsWith_append (h : w.length ≤ s.length) :
    startsWith same w (s ++ l) = startsWith same w s := by
  induction w generalizing s with
  | nil =>
    rw [startsWith]
    rfl
  | cons a w ih =>
    cases s with
    | nil => exact absurd h (Nat.not_succ_le_zero _)
    | cons b s => rw [List.cons_append, startsWith, startsWith, ih (Nat.le_of_succ_le_succ h)]

/-- The word does not go over a character that it does not have. -/
theorem startsWith_of_append (hw : ∀ a ∈ w, same a b = false)
    (h : startsWith same w (s ++ b :: l) = true) : startsWith same w s = true := by
  induction w generalizing s with
  | nil => rfl
  | cons a w ih =>
    cases s with
    | nil =>
      rw [List.nil_append, startsWith, hw a List.mem_cons_self] at h
      cases h
    | cons c s =>
      rw [List.cons_append, startsWith, Bool.and_eq_true] at h
      rw [startsWith, Bool.and_eq_true]
      exact ⟨h.1, ih (fun a' ha' => hw a' (List.mem_cons_of_mem a ha')) h.2⟩

/-- A word stands within the text. -/
theorem position_le {k : ℕ} (h : position same w l = some k) : k + w.length ≤ l.length := by
  induction l generalizing k with
  | nil =>
    rw [position] at h
    split_ifs at h with hstart
    obtain rfl := Option.some.inj h
    rw [Nat.zero_add]
    exact length_le_of_startsWith hstart
  | cons c l ih =>
    rw [position] at h
    split_ifs at h with hstart
    · obtain rfl := Option.some.inj h
      rw [Nat.zero_add]
      exact length_le_of_startsWith hstart
    · obtain ⟨k, hk, rfl⟩ := Option.map_eq_some_iff.mp h
      have hle := ih hk
      rw [List.length_cons]
      omega

/-- An opening is not empty and stands within the text. -/
theorem openingAt_le (h : openingAt same first closes l = some n) : 0 < n ∧ n ≤ l.length := by
  unfold openingAt at h
  split_ifs at h with hopen
  obtain rfl := Option.some.inj h
  have hlength := congrArg List.length
    (List.takeWhile_append_dropWhile (p := (! closes ·)) (l := l.drop first.length))
  have hpos := List.length_pos_iff.mpr hopen.2
  have hfirst := length_le_of_startsWith hopen.1
  rw [List.length_append, List.length_drop] at hlength
  omega

variable (same first last closes) in
/-- `/<style[^>]*>[\s\S]*?<\/style>/`. -/
def block : Regex α where
  matchAt := blockAt same first last closes
  nonempty := by
    intro l n h
    obtain ⟨m, hm, hclosing⟩ := Option.bind_eq_some_iff.mp h
    obtain ⟨k, -, rfl⟩ := Option.map_eq_some_iff.mp hclosing
    exact Nat.add_pos_left (openingAt_le hm).1 _
  fits := by
    intro l n h
    obtain ⟨m, hm, hclosing⟩ := Option.bind_eq_some_iff.mp h
    obtain ⟨k, hk, rfl⟩ := Option.map_eq_some_iff.mp hclosing
    have hle := position_le hk
    have hm := (openingAt_le hm).2
    rw [List.length_drop] at hle
    omega

theorem block_none (h : startsWith same first l = false) :
    (block same first last closes).matchAt l = none := by
  show blockAt same first last closes l = none
  unfold blockAt openingAt
  rw [h, if_neg fun hnot => Bool.noConfusion hnot.1]
  rfl

/-- The opening of a block is closed in it. -/
theorem closes_of_block (h : (block same first last closes).matchAt l = some n) :
    ∃ a ∈ l.drop first.length, closes a = true := by
  obtain ⟨m, hm, -⟩ := Option.bind_eq_some_iff.mp h
  unfold openingAt at hm
  split_ifs at hm with hopen
  by_contra hnone
  refine hopen.2 (List.dropWhile_eq_nil_iff.mpr fun a ha => ?_)
  by_contra hcloses
  exact hnone ⟨a, ha, by simpa using hcloses⟩

/-- The word behind a text that it does not start in. -/
theorem position_append {t : List α} (hw : startsWith same w t = true) (hlength : t.length = w.length)
    (hs : ∀ c s', c :: s' <:+ s → startsWith same w (c :: s' ++ t) = false) :
    position same w (s ++ (t ++ l)) = some s.length := by
  induction s with
  | nil =>
    have hstart : startsWith same w (t ++ l) = true := by
      rw [startsWith_append hlength.ge, hw]
    rw [List.nil_append]
    cases htl : t ++ l with
    | nil =>
      rw [htl] at hstart
      rw [position, if_pos hstart]
      rfl
    | cons c l' =>
      rw [htl] at hstart
      rw [position, if_pos hstart]
      rfl
  | cons c s ih =>
    have hlong : w.length ≤ (c :: s ++ t).length := by
      rw [List.length_append, hlength]
      exact Nat.le_add_left _ _
    have hnot : startsWith same w (c :: (s ++ (t ++ l))) = false := by
      have hnone := hs c s List.suffix_rfl
      rw [← startsWith_append (l := l) hlong, List.append_assoc] at hnone
      exact hnone
    rw [List.cons_append, position, if_neg (by rw [hnot]; exact Bool.false_ne_true),
      ih fun c' s' hs' => hs c' s' (hs'.trans (List.suffix_cons c s))]
    rfl

/-- A block, whatever is behind it. -/
theorem block_match {name inner body t : List α} (hname : startsWith same first name = true)
    (hfirst : name.length = first.length) (hinner : ∀ a ∈ inner, closes a = false)
    (hb : closes b = true) (ht : startsWith same last t = true) (hlast : t.length = last.length)
    (hbody : ∀ c s, c :: s <:+ body → startsWith same last (c :: s ++ t) = false) :
    (block same first last closes).matchAt (name ++ (inner ++ b :: (body ++ (t ++ l))))
      = some (name ++ (inner ++ b :: (body ++ t))).length := by
  have hrest : (name ++ (inner ++ b :: (body ++ (t ++ l)))).drop first.length
      = inner ++ b :: (body ++ (t ++ l)) := by
    rw [← hfirst, List.drop_left]
  have htake : (inner ++ b :: (body ++ (t ++ l))).takeWhile (! closes ·) = inner := by
    rw [List.takeWhile_append_of_pos fun c hc => by simpa using hinner c hc, List.takeWhile_cons,
      if_neg (by simpa using hb), List.append_nil]
  have hdrop : (inner ++ b :: (body ++ (t ++ l))).dropWhile (! closes ·)
      = b :: (body ++ (t ++ l)) := by
    rw [List.dropWhile_append_of_pos fun c hc => by simpa using hinner c hc, List.dropWhile_cons,
      if_neg (by simpa using hb)]
  have hopening : openingAt same first closes (name ++ (inner ++ b :: (body ++ (t ++ l))))
      = some (first.length + (inner.length + 1)) := by
    unfold openingAt
    rw [hrest, htake, hdrop, startsWith_append hfirst.ge, if_pos ⟨hname, List.cons_ne_nil _ _⟩]
  have hbehind : (name ++ (inner ++ b :: (body ++ (t ++ l)))).drop
      (first.length + (inner.length + 1)) = body ++ (t ++ l) := by
    rw [← List.drop_drop, hrest, ← List.drop_drop, List.drop_left]
    rfl
  show blockAt same first last closes _ = _
  unfold blockAt
  rw [hopening, Option.bind_some, hbehind, position_append ht hlast hbody, Option.map_some]
  simp only [List.length_append, List.length_cons]
  rw [hfirst, hlast]
  congr 1
  omega

end Blocks

end Regex

end Machinery

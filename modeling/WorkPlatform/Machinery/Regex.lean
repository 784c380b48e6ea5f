import Mathlib.Data.List.Basic
import Mathlib.Data.List.Infix
import Mathlib.Data.List.TakeWhile
import Mathlib.Data.Nat.Notation

/-!
# Machinery/Regex — a global regular expression, and the position it remembers

    while ((match = re.exec(text)) !== null) …

      lastIndex   0 ──match──▸ its end ──match──▸ its end ── … ──no match──▸ 0

A call of `exec` looks from the position the call before has left.  Where no match begins within
another, the loop finds the match at every position that has one, in order, and leaves the position
at 0 (`execAll_eq`): the next text is read from its start.
-/

namespace Machinery

/-- A regular expression, by the length of its match at the start of a text. -/
structure Regex (α : Type*) where
  matchAt : List α → Option ℕ
  nonempty : ∀ {l n}, matchAt l = some n → 0 < n
  fits : ∀ {l n}, matchAt l = some n → n ≤ l.length

namespace Regex

variable {α : Type*} (re : Regex α)

/-- The first match from a position on, and the position of its end. -/
def find : List α → ℕ → Option (List α × ℕ)
  | [], _ => none
  | c :: l, i =>
    match re.matchAt (c :: l) with
    | some n => some ((c :: l).take n, i + n)
    | none => find l (i + 1)

/-- `re.exec(text)`, and what it leaves `lastIndex` at. -/
def exec (text : List α) (lastIndex : ℕ) : Option (List α) × ℕ :=
  if text.length < lastIndex then (none, 0)
  else
    match re.find (text.drop lastIndex) lastIndex with
    | some (m, next) => (some m, next)
    | none => (none, 0)

/-- The loop, for as many rounds as there is fuel. -/
def execAll (text : List α) : ℕ → ℕ → Option (List (List α) × ℕ)
  | 0, _ => none
  | fuel + 1, lastIndex =>
    match re.exec text lastIndex with
    | (none, next) => some ([], next)
    | (some m, next) => (execAll text fuel next).map fun r => (m :: r.1, r.2)

/-- The match at every position that has one. -/
def all (text : List α) : List (List α) := text.tails.filterMap fun l => (re.matchAt l).map l.take

/-- No match begins within another. -/
def Apart : Prop := ∀ l n, re.matchAt l = some n → ∀ k, 0 < k → k < n → re.matchAt (l.drop k) = none

variable {re} {l : List α} {c : α} {n i : ℕ}

theorem matchAt_nil : re.matchAt [] = none := by
  cases h : re.matchAt [] with
  | none => rfl
  | some n => exact absurd (re.nonempty h) (Nat.not_lt.mpr (re.fits h))

@[simp] theorem all_nil : re.all [] = [] := by simp [all, matchAt_nil]

theorem all_cons_none (h : re.matchAt (c :: l) = none) : re.all (c :: l) = re.all l := by
  simp [all, h]

theorem all_cons_some (h : re.matchAt (c :: l) = some n) :
    re.all (c :: l) = (c :: l).take n :: re.all l := by
  simp [all, h]

theorem all_of_none (h : re.matchAt l = none) : re.all l = re.all (l.drop 1) := by
  cases l with
  | nil => rfl
  | cons c l => exact all_cons_none h

/-- Behind a match, the next one begins at its end. -/
theorem all_of_some (hapart : re.Apart) (h : re.matchAt l = some n) :
    re.all l = l.take n :: re.all (l.drop n) := by
  have hwithin : ∀ k, k < n → re.all l = l.take n :: re.all (l.drop (k + 1)) := by
    intro k hk
    induction k with
    | zero =>
      cases l with
      | nil => rw [matchAt_nil] at h; cases h
      | cons c l => exact all_cons_some h
    | succ k ih =>
      have hnone := hapart l n h (k + 1) (Nat.succ_pos k) hk
      rw [ih (Nat.lt_of_succ_lt hk), all_of_none hnone, List.drop_drop]
  have hlast := hwithin (n - 1) (Nat.sub_lt (re.nonempty h) Nat.one_pos)
  rwa [Nat.sub_add_cancel (re.nonempty h)] at hlast

/-- **What a search finds**: the first of the matches, with the rest of them behind its end. -/
theorem find_eq (hapart : re.Apart) : (re.find l i = none ∧ re.all l = []) ∨
    ∃ k, 0 < k ∧ k ≤ l.length ∧
      ∃ m, re.find l i = some (m, i + k) ∧ re.all l = m :: re.all (l.drop k) := by
  induction l generalizing i with
  | nil => exact Or.inl ⟨rfl, all_nil⟩
  | cons c l ih =>
    cases h : re.matchAt (c :: l) with
    | some n =>
      exact Or.inr ⟨n, re.nonempty h, re.fits h, _, by simp only [find, h], all_of_some hapart h⟩
    | none =>
      simp only [find, h, all_cons_none h]
      rcases ih (i := i + 1) with hnone | ⟨k, -, hk, m, hfind, hall⟩
      · exact Or.inl hnone
      · refine Or.inr ⟨k + 1, Nat.succ_pos k, Nat.succ_le_succ hk, m, ?_, hall⟩
        rw [hfind, Nat.add_assoc, Nat.add_comm 1]

/-- **The loop ends, with every match, and at position 0.** -/
theorem execAll_eq (hapart : re.Apart) {text : List α} {fuel lastIndex : ℕ}
    (hle : lastIndex ≤ text.length) (hfuel : text.length < fuel + lastIndex) :
    re.execAll text fuel lastIndex = some (re.all (text.drop lastIndex), 0) := by
  induction fuel generalizing lastIndex with
  | zero => omega
  | succ fuel ih =>
    have hinside : ¬ text.length < lastIndex := Nat.not_lt.mpr hle
    rcases find_eq hapart (l := text.drop lastIndex) (i := lastIndex) with
      ⟨hfind, hall⟩ | ⟨k, hpos, hk, m, hfind, hall⟩
    · simp only [execAll, exec, if_neg hinside, hfind, hall]
    · rw [List.length_drop] at hk
      have hnext : re.execAll text fuel (lastIndex + k) =
          some (re.all (text.drop (lastIndex + k)), 0) := ih (by omega) (by omega)
      simp only [execAll, exec, if_neg hinside, hfind, hnext, Option.map_some, hall, List.drop_drop]

/-! ## A character, and one or more of a class -/

section

variable (lead body : α → Bool)

/-- `/ab+/`, at the start of a text. -/
def leadManyAt : List α → Option ℕ
  | [] => none
  | c :: rest =>
    if lead c ∧ rest.takeWhile body ≠ [] then some ((rest.takeWhile body).length + 1) else none

variable {lead body}

/-- Such a match is the first character and the longest run after it. -/
theorem leadManyAt_eq (h : leadManyAt lead body l = some n) :
    ∃ c rest, l = c :: rest ∧ lead c = true ∧ rest.takeWhile body ≠ [] ∧
      n = (rest.takeWhile body).length + 1 := by
  cases l with
  | nil => cases h
  | cons c rest =>
    rw [leadManyAt] at h
    split_ifs at h with hmatch
    exact ⟨c, rest, rfl, hmatch.1, hmatch.2, (Option.some.inj h).symm⟩

variable (lead body)

/-- `/ab+/`. -/
def leadMany : Regex α where
  matchAt := leadManyAt lead body
  nonempty h := by
    obtain ⟨c, rest, -, -, -, rfl⟩ := leadManyAt_eq h
    exact Nat.succ_pos _
  fits h := by
    obtain ⟨c, rest, rfl, -, -, rfl⟩ := leadManyAt_eq h
    exact Nat.succ_le_succ (List.takeWhile_prefix body).length_le

variable {lead body}

/-- Where the first character is none of the class, matches are apart. -/
theorem leadMany_apart (hlead : ∀ c, body c = true → lead c = false) :
    (leadMany lead body).Apart := by
  intro l n h k hpos hk
  obtain ⟨c, rest, rfl, -, -, rfl⟩ := leadManyAt_eq h
  obtain ⟨k, rfl⟩ := Nat.exists_eq_succ_of_ne_zero hpos.ne'
  have hk : k < (rest.takeWhile body).length := Nat.lt_of_succ_lt_succ hk
  have hkrest : k < rest.length := Nat.lt_of_lt_of_le hk (List.takeWhile_prefix body).length_le
  have hbody : body rest[k] = true := by
    have hmem := List.getElem_mem hk
    rw [(List.takeWhile_prefix body).getElem hk] at hmem
    exact List.mem_takeWhile_imp hmem
  show leadManyAt lead body (rest.drop k) = none
  rw [List.drop_eq_getElem_cons hkrest, leadManyAt, hlead _ hbody]
  exact if_neg fun h => Bool.false_ne_true h.1

end

end Regex

end Machinery

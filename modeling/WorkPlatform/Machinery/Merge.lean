import WorkPlatform.Machinery.Keyset

/-!
# Machinery/Merge — lists that are paged apart, merged, and cut to a page

    part₁ ──drop o, take n──┐
    part₂ ──drop o, take n──┼──▸ by score ──take n──▸ the page at o
    part₃ ──drop o, take n──┘

What one page leaves out no later page brings back, since each part goes on from `o + n`.  So the
pages are all of it exactly where nothing is ever cut: where one part alone has rows, or all rows
fit on a page (`merged_iff`).
-/

namespace Machinery

variable {α β : Type*} [LinearOrder β] (score : α → β)

/-- The page at an offset. -/
def mergedPage (parts : List (List α)) (n o : ℕ) : List α :=
  ((parts.flatMap fun l => (l.drop o).take n).insertionSort fun a b => score b ≤ score a).take n

/-- All pages, until one is empty. -/
def mergedPages (parts : List (List α)) (n : ℕ) (requests o : ℕ) : Option (List (List α)) :=
  follow (mergedPage score parts n) (fun o _ => o + n) requests o

/-- No row has a higher score than one before it. -/
def Descending (l : List α) : Prop := l.Pairwise fun a b => score b ≤ score a

variable {score} {parts : List (List α)} {l : List α} {n m o : ℕ}

theorem length_mergedPage : (mergedPage score parts n o).length =
    min n (parts.flatMap fun l => (l.drop o).take n).length := by
  rw [mergedPage, List.length_take, List.length_insertionSort]

theorem descending_insertionSort (l : List α) :
    Descending score (l.insertionSort fun a b => score b ≤ score a) := by
  have : Std.Total fun a b : α => score b ≤ score a := ⟨fun a b => le_total _ _⟩
  have : IsTrans α fun a b => score b ≤ score a := ⟨fun _ _ _ hba hcb => le_trans hcb hba⟩
  exact List.pairwise_insertionSort _ _

/-! ## It comes to an end -/

theorem mergedPage_eq_nil (h : ∀ l ∈ parts, l.length ≤ o) : mergedPage score parts n o = [] := by
  have hnone : (parts.flatMap fun l => (l.drop o).take n) = [] := by
    simp only [List.flatMap_eq_nil_iff]
    intro l hl
    rw [List.drop_eq_nil_of_le (h l hl), List.take_nil]
  rw [mergedPage, hnone, List.insertionSort_nil, List.take_nil]

/-- Paging comes to an end. -/
theorem exists_mergedPages (hn : 0 < n) (h : ∀ l ∈ parts, l.length ≤ o + m) :
    ∃ pages, mergedPages score parts n (m + 1) o = some pages := by
  induction m generalizing o with
  | zero =>
    have hnone : mergedPage score parts n o = [] := mergedPage_eq_nil h
    exact ⟨[], by simp [mergedPages, follow, hnone]⟩
  | succ m ih =>
    rw [mergedPages, follow]
    cases hpage : mergedPage score parts n o with
    | nil => exact ⟨[], rfl⟩
    | cons a as =>
      obtain ⟨pages, hpages⟩ := ih (o := o + n) fun l hl => by
        have hle := h l hl
        omega
      rw [mergedPages] at hpages
      exact ⟨(a :: as) :: pages, by simp only [hpages, Option.map_some]⟩

/-! ## What is left out -/

/-- How many rows the parts have from an offset on. -/
def rowsFrom (parts : List (List α)) (o : ℕ) : ℕ := (parts.flatMap (·.drop o)).length

/-- The rows from here on are those of this page and those from the next one on. -/
theorem rowsFrom_eq (parts : List (List α)) (n o : ℕ) :
    rowsFrom parts o =
      (parts.flatMap fun l => (l.drop o).take n).length + rowsFrom parts (o + n) := by
  induction parts with
  | nil => rfl
  | cons l parts ih =>
    simp only [rowsFrom, List.flatMap_cons, List.length_append, List.length_take,
      List.length_drop] at ih ⊢
    omega

/-- **The pages have no more than there is.** -/
theorem length_mergedPages {pages : List (List α)}
    (h : mergedPages score parts n m o = some pages) :
    pages.flatten.length ≤ rowsFrom parts o := by
  induction m generalizing o pages with
  | zero => cases h
  | succ m ih =>
    rw [mergedPages, follow] at h
    cases hpage : mergedPage score parts n o with
    | nil =>
      obtain rfl : [] = pages := by simpa [hpage] using h
      exact Nat.zero_le _
    | cons a as =>
      simp only [hpage] at h
      obtain ⟨rest, hrest, rfl⟩ := Option.map_eq_some_iff.mp h
      have hlater := ih hrest
      have hfirst : (a :: as).length ≤ (parts.flatMap fun l => (l.drop o).take n).length := by
        rw [← hpage, length_mergedPage]
        exact Nat.min_le_right _ _
      rw [rowsFrom_eq parts n o, List.flatten_cons, List.length_append]
      omega

/-- The parts that have rows. -/
def filled (parts : List (List α)) : ℕ := parts.countP fun l => !l.isEmpty

theorem filled_cons (l : List α) (parts : List (List α)) :
    filled (l :: parts) = filled parts + if l.isEmpty then 0 else 1 := by
  rw [filled, List.countP_cons]
  cases l.isEmpty <;> rfl

theorem length_pos_of_filled (h : 0 < filled parts) : 0 < parts.flatten.length := by
  obtain ⟨l, hl, hne⟩ := List.countP_pos_iff.mp h
  have hlength : 0 < l.length := List.length_pos_iff.mpr (by simpa using hne)
  exact hlength.trans_le (List.sublist_flatten_of_mem hl).length_le

/-- The heads of the parts make up a page, where there are so many rows. -/
theorem min_le_length_heads (parts : List (List α)) (n : ℕ) :
    min n parts.flatten.length ≤ (parts.flatMap (·.take n)).length := by
  induction parts with
  | nil => simp
  | cons l parts ih =>
    simp only [List.flatten_cons, List.flatMap_cons, List.length_append, List.length_take] at ih ⊢
    omega

/-- **Where two parts have rows, more than a page in all, the first page leaves some out.** -/
theorem lt_length_heads (hn : 0 < n) (hfilled : 1 < filled parts)
    (h : n < parts.flatten.length) : n < (parts.flatMap (·.take n)).length := by
  induction parts with
  | nil => simp at h
  | cons l parts ih =>
    rw [filled_cons] at hfilled
    rw [List.flatten_cons, List.length_append] at h
    rw [List.flatMap_cons, List.length_append, List.length_take]
    have hheads := min_le_length_heads parts n
    cases l with
    | nil =>
      have hrest := ih (by simpa using hfilled) (by simpa using h)
      omega
    | cons a as =>
      have hrest : 0 < parts.flatten.length := length_pos_of_filled (by simpa using hfilled)
      rw [List.length_cons] at h ⊢
      omega

/-! ## When nothing is -/

/-- At most one part has rows: it is all there is. -/
theorem exists_part (h : filled parts ≤ 1) (hsorted : ∀ l ∈ parts, Descending score l) :
    ∃ l, Descending score l ∧ ∀ f : List α → List α, f [] = [] → parts.flatMap f = f l := by
  induction parts with
  | nil => exact ⟨[], .nil, fun f hf => hf.symm⟩
  | cons l parts ih =>
    rw [filled_cons] at h
    cases l with
    | nil =>
      obtain ⟨l, hl, hall⟩ := ih (by simpa using h) fun l hl => hsorted l (.tail _ hl)
      refine ⟨l, hl, fun f hf => ?_⟩
      rw [List.flatMap_cons, hf, List.nil_append, hall f hf]
    | cons a as =>
      refine ⟨a :: as, hsorted _ List.mem_cons_self, fun f hf => ?_⟩
      have hnone : parts.flatMap f = [] := by
        rw [List.flatMap_eq_nil_iff]
        intro l hl
        have hempty : l.isEmpty = true := by
          by_contra hne
          have hpos : 0 < filled parts := List.countP_pos_iff.mpr ⟨l, hl, by simpa using hne⟩
          simp only [List.isEmpty_cons, Bool.false_eq_true, if_false] at h
          omega
        rw [List.isEmpty_iff.mp hempty, hf]
      rw [List.flatMap_cons, hnone, List.append_nil]

/-- Where at most one part is filled, paging loses nothing. -/
theorem pages_of_one (hn : 0 < n) (h : filled parts ≤ 1)
    (hsorted : ∀ l ∈ parts, Descending score l) {pages : List (List α)}
    (hpages : mergedPages score parts n m 0 = some pages) :
    pages.flatten = parts.flatten ∧ Descending score parts.flatten := by
  obtain ⟨l, hl, hall⟩ := exists_part h hsorted
  have hflatten : parts.flatten = l := by
    rw [← List.flatMap_id]
    exact hall id rfl
  have hpage : ∀ o, mergedPage score parts n o = (l.drop o).take n := by
    intro o
    have hpart : Descending score ((l.drop o).take n) :=
      hl.sublist ((List.take_sublist _ _).trans (List.drop_sublist _ _))
    rw [mergedPage, hall _ (by simp), hpart.insertionSort_eq, List.take_take, Nat.min_self]
  have hpaged : Paged (mergedPage score parts n) (fun o _ => o + n) (· ++ ·) (fun o => l.drop o)
      fun _ => True := by
    refine ⟨fun _ _ _ => trivial, fun o _ hnil => ?_, fun o _ _ => ?_, fun o _ hne => ?_⟩
    · rw [hpage, List.take_eq_nil_iff] at hnil
      exact hnil.resolve_left hn.ne'
    · rw [hpage, ← List.drop_drop, List.take_append_drop]
    · have hsome := List.length_pos_iff.mpr hne
      rw [hpage, List.length_take, List.length_drop] at hsome
      simp only [List.length_drop]
      omega
  obtain ⟨pages', hpages', hjoined⟩ := hpaged.follow (k := 0) trivial (Nat.lt_succ_self _)
  obtain rfl : pages' = pages := follow_unique hpages' hpages
  rw [foldr_append, List.drop_zero] at hjoined
  exact ⟨hjoined.trans hflatten.symm, hflatten ▸ hl⟩

/-- Where everything fits on a page, paging loses nothing. -/
theorem pages_of_le (h : parts.flatten.length ≤ n) {pages : List (List α)}
    (hpages : mergedPages score parts n m 0 = some pages) :
    pages.flatten = parts.flatten.insertionSort fun a b => score b ≤ score a := by
  have hpart : ∀ l ∈ parts, l.length ≤ n := fun l hl =>
    (List.sublist_flatten_of_mem hl).length_le.trans h
  have hfirst : mergedPage score parts n 0 =
      parts.flatten.insertionSort fun a b => score b ≤ score a := by
    have hheads : (parts.flatMap fun l => (l.drop 0).take n) = parts.flatten := by
      rw [← List.flatMap_id]
      exact List.flatMap_congr fun l hl => List.take_of_length_le (hpart l hl)
    rw [mergedPage, hheads]
    exact List.take_of_length_le (by rwa [List.length_insertionSort])
  have hsecond : mergedPage score parts n (0 + n) = [] :=
    mergedPage_eq_nil fun l hl => by simpa using hpart l hl
  cases hsorted : parts.flatten.insertionSort fun a b => score b ≤ score a with
  | nil =>
    have hone : mergedPages score parts n 1 0 = some [] := by
      simp [mergedPages, follow, hfirst, hsorted]
    obtain rfl : [] = pages := follow_unique hone hpages
    rfl
  | cons a as =>
    have htwo : mergedPages score parts n 2 0 = some [a :: as] := by
      simp only [mergedPages, follow, hfirst, hsorted, hsecond, Option.map_some]
    obtain rfl : [a :: as] = pages := follow_unique htwo hpages
    simp

/-- **A page that is cut is not made up for.** -/
theorem length_lt (hn : 0 < n) (hfilled : 1 < filled parts) (h : n < parts.flatten.length)
    {pages : List (List α)} (hpages : mergedPages score parts n m 0 = some pages) :
    pages.flatten.length < parts.flatten.length := by
  have hheads := lt_length_heads hn hfilled h
  have hrows : rowsFrom parts 0 = parts.flatten.length := by simp [rowsFrom, List.flatMap_id']
  have htotal := rowsFrom_eq parts n 0
  simp only [List.drop_zero, hrows] at htotal
  cases m with
  | zero => cases hpages
  | succ m =>
    rw [mergedPages, follow] at hpages
    cases hpage : mergedPage score parts n 0 with
    | nil =>
      obtain rfl : [] = pages := by simpa [hpage] using hpages
      rw [List.flatten_nil, List.length_nil]
      omega
    | cons a as =>
      simp only [hpage] at hpages
      obtain ⟨rest, hrest, rfl⟩ := Option.map_eq_some_iff.mp hpages
      have hlater := length_mergedPages hrest
      have hfirst : (a :: as).length ≤ n := by
        rw [← hpage, length_mergedPage]
        exact Nat.min_le_left _ _
      rw [List.flatten_cons, List.length_append]
      omega

/-- **The pages are all there is, by score, exactly where one part alone has rows or all rows fit on
a page.** -/
theorem merged_iff (hn : 0 < n) (hsorted : ∀ l ∈ parts, Descending score l) :
    ∃ requests pages, (∀ m ≥ requests, mergedPages score parts n m 0 = some pages) ∧
      ((pages.flatten.Perm parts.flatten ∧ Descending score pages.flatten) ↔
        filled parts ≤ 1 ∨ parts.flatten.length ≤ n) := by
  have hbound : ∀ l ∈ parts, l.length ≤ 0 + parts.flatten.length := by
    intro l hl
    have hle := (List.sublist_flatten_of_mem hl).length_le
    omega
  obtain ⟨pages, hpages⟩ : ∃ pages, mergedPages score parts n (parts.flatten.length + 1) 0 =
      some pages := exists_mergedPages hn hbound
  refine ⟨_, pages, fun m hm => follow_mono hpages hm, ?_, ?_⟩
  · rintro ⟨hperm, -⟩
    by_contra hnot
    obtain ⟨hfilled, hlong⟩ := not_or.mp hnot
    have hless := length_lt hn (by omega) (by omega) hpages
    exact hless.ne hperm.length_eq
  · rintro (hone | hle)
    · obtain ⟨hall, hdescending⟩ := pages_of_one hn hone hsorted hpages
      rw [hall]
      exact ⟨.refl _, hdescending⟩
    · rw [pages_of_le hle hpages]
      exact ⟨List.perm_insertionSort _ _, descending_insertionSort _⟩

end Machinery

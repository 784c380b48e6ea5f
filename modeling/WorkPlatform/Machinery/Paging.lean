import Mathlib.Data.List.Perm.Basic

/-!
# Machinery/Paging — rows read a page at a time, by offset

    rows ──scan o──▸ an order of them ──drop o──▸ ──take n──▸ the page at o

Nothing ties the order of one query to that of the next.  The pages have as many rows as there are
(`length_pages`), and each is one of them (`mem_pages`).  Read in one order they are the rows
(`pages_of_stable`); where the rows do not fit on a page and are not all the same, there are orders
in which they are not (`exists_scan_not_perm`).
-/

namespace Machinery

variable {α : Type*}

/-- The order in which each query, by its offset, comes upon the rows. -/
def Scan (rows : List α) := ℕ → {l : List α // l.Perm rows}

namespace Scan

variable {rows rows' l : List α} {n : ℕ}

/-- `LIMIT limit OFFSET offset`. -/
def page (scan : Scan rows) (limit offset : ℕ) : List α := ((scan offset).1.drop offset).take limit

/-- `m` pages of `n`, one after the other. -/
def pages (scan : Scan rows) (n : ℕ) : ℕ → ℕ → List α
  | 0, _ => []
  | m + 1, offset => scan.page n offset ++ scan.pages n m (offset + n)

/-- One order for every query. -/
def constant (h : l.Perm rows) : Scan rows := fun _ => ⟨l, h⟩

/-- The scans of one list are those of any list with the same rows. -/
def ofPerm (h : rows.Perm rows') (scan : Scan rows) : Scan rows' :=
  fun o => ⟨(scan o).1, (scan o).2.trans h⟩

theorem length_page (scan : Scan rows) (n o : ℕ) :
    (scan.page n o).length = min n (rows.length - o) := by
  unfold page
  rw [List.length_take, List.length_drop, (scan o).2.length_eq]

theorem mem_page {scan : Scan rows} {o : ℕ} {a : α} (h : a ∈ scan.page n o) : a ∈ rows :=
  (scan o).2.mem_iff.mp (List.mem_of_mem_drop (List.mem_of_mem_take h))

theorem mem_pages {scan : Scan rows} {a : α} : ∀ {m o : ℕ}, a ∈ scan.pages n m o → a ∈ rows
  | 0, _, h => by cases h
  | _ + 1, _, h => (List.mem_append.mp h).elim mem_page mem_pages

theorem pages_of_le {scan : Scan rows} : ∀ {m o : ℕ}, rows.length ≤ o → scan.pages n m o = []
  | 0, _, _ => rfl
  | m + 1, o, h => by
    have hpage : scan.page n o = [] := by
      rw [← List.length_eq_zero_iff, length_page, Nat.sub_eq_zero_of_le h, Nat.min_zero]
    rw [pages, hpage, pages_of_le (Nat.le_trans h (Nat.le_add_right o n)), List.append_nil]

theorem length_pages (scan : Scan rows) : ∀ m o : ℕ,
    (scan.pages n m o).length = min (m * n) (rows.length - o)
  | 0, o => by rw [pages, Nat.zero_mul, Nat.zero_min, List.length_nil]
  | m + 1, o => by
    rw [pages, List.length_append, length_page, length_pages scan m, Nat.succ_mul]
    omega

/-- **In one order the pages are the rows.** -/
theorem pages_of_stable {scan : Scan rows} {m o : ℕ} (h : ∀ k, (scan (o + k)).1 = l) :
    scan.pages n m o = (l.drop o).take (m * n) := by
  induction m generalizing o with
  | zero => rw [pages, Nat.zero_mul, List.take_zero]
  | succ m ih =>
    have hpage : scan.page n o = (l.drop o).take n := congrArg (fun l => (l.drop o).take n) (h 0)
    rw [pages, hpage, ih fun k => (congrArg (fun o => (scan o).1) (Nat.add_assoc o n k)).trans
      (h (n + k)), Nat.succ_mul, Nat.add_comm (m * n), List.take_add, List.drop_drop]

theorem pages_constant (h : l.Perm rows) {m : ℕ} (hm : rows.length ≤ m * n) :
    (constant h).pages n m 0 = l := by
  rw [pages_of_stable (l := l) fun _ => rfl, List.drop_zero,
    List.take_of_length_le (h.length_eq ▸ hm)]

/-- What fits on a page is read whole. -/
theorem pages_perm_of_le {scan : Scan rows} {m : ℕ} (h : rows.length ≤ n) :
    (scan.pages n (m + 1) 0).Perm rows := by
  have hpage : scan.page n 0 = (scan 0).1 :=
    List.take_of_length_le ((scan 0).2.length_eq ▸ h)
  rw [pages, pages_of_le (Nat.le_trans h (Nat.le_add_left n 0)), List.append_nil, hpage]
  exact (scan 0).2

/-- Rows that are all the same are read whole. -/
theorem pages_perm_of_const {scan : Scan rows} {m : ℕ} (hm : rows.length ≤ m * n)
    (h : ∀ a ∈ rows, ∀ b ∈ rows, a = b) : (scan.pages n m 0).Perm rows := by
  have hlength : (scan.pages n m 0).length = rows.length := by
    rw [length_pages, Nat.sub_zero, Nat.min_eq_right hm]
  by_cases hnil : rows = []
  · rw [List.length_eq_zero_iff.mp (hlength.trans (congrArg List.length hnil))]
    exact .of_eq hnil.symm
  · obtain ⟨a, ha⟩ := List.exists_mem_of_ne_nil rows hnil
    have hrows : rows = .replicate rows.length a :=
      List.eq_replicate_of_mem fun b hb => h b hb a ha
    have hpages : scan.pages n m 0 = .replicate (scan.pages n m 0).length a :=
      List.eq_replicate_of_mem fun b hb => h b (mem_pages hb) a ha
    exact .of_eq (hpages.trans (hlength ▸ hrows.symm))

/-- **Where the rows do not fit on a page**, and are not all the same, the first query may give
what a later one gives again. -/
theorem exists_scan_not_perm (hn : 0 < n) (hlt : n < rows.length) {a b : α} (ha : a ∈ rows)
    (hb : b ∈ rows) (hne : a ≠ b) :
    ∃ scan : Scan rows, ∀ m, rows.length ≤ m * n → ¬ (scan.pages n m 0).Perm rows := by
  obtain ⟨l, hl⟩ : ∃ l, (a :: b :: l).Perm rows := by
    classical
    have hb' : b ∈ rows.erase a := (List.mem_erase_of_ne hne.symm).mpr hb
    exact ⟨_, ((List.perm_cons_erase hb').symm.cons a).trans (List.perm_cons_erase ha).symm⟩
  obtain ⟨k, rfl⟩ : ∃ k, n = k + 1 := Nat.exists_eq_succ_of_ne_zero (Nat.ne_of_gt hn)
  have hk : (l.take k).length = k := by
    have hlength := hl.length_eq
    rw [List.length_cons, List.length_cons] at hlength
    rw [List.length_take]
    omega
  -- two orders: what is on the first page of the one is not on the first page of the other
  have hfirst : (a :: l.take k ++ b :: l.drop k).Perm rows := by
    refine List.Perm.trans (.cons a ?_) hl
    exact List.perm_middle.trans (.cons b (.of_eq (List.take_append_drop k l)))
  have hlater : (b :: l.take k ++ a :: l.drop k).Perm rows := by
    refine List.Perm.trans ?_ ((List.Perm.swap a b l).trans hl)
    refine .cons b (List.perm_middle.trans (.cons a (.of_eq (List.take_append_drop k l))))
  let scan : Scan rows := fun o => if o = 0 then ⟨_, hfirst⟩ else ⟨_, hlater⟩
  refine ⟨scan, fun m hm hperm => hne ?_⟩
  obtain ⟨m, rfl⟩ : ∃ m', m = m' + 1 := by
    refine Nat.exists_eq_succ_of_ne_zero ?_
    rintro rfl
    rw [Nat.zero_mul] at hm
    omega
  have hpage : scan.page (k + 1) 0 = a :: l.take k :=
    List.take_left' (congrArg Nat.succ hk)
  have hpages : scan.pages (k + 1) m (0 + (k + 1)) = a :: l.drop k := by
    have hdrop : (b :: l.take k ++ a :: l.drop k).drop (0 + (k + 1)) = a :: l.drop k :=
      List.drop_left' ((congrArg Nat.succ hk).trans (Nat.zero_add _).symm)
    rw [pages_of_stable (l := b :: l.take k ++ a :: l.drop k) fun j =>
      congrArg Subtype.val (if_neg (by omega)), hdrop]
    refine List.take_of_length_le ?_
    have hlength := hfirst.length_eq
    rw [List.length_append, List.length_cons, hk, List.length_cons] at hlength
    rw [← hlength, Nat.succ_mul] at hm
    change (l.drop k).length + 1 ≤ m * (k + 1)
    omega
  rw [pages, hpage, hpages] at hperm
  have htail := (List.perm_append_left_iff (a :: l.take k)).mp (hperm.trans hfirst.symm)
  exact List.singleton_perm_singleton.mp ((List.perm_append_right_iff (l.drop k)).mp htail)

end Scan

end Machinery

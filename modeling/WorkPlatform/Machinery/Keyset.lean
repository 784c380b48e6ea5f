import Mathlib.Data.List.Sort
import Mathlib.Order.Basic

/-!
# Machinery/Keyset — pages that are asked for by what the page before has shown

    page k ──next k──▸ page k' ──next k'──▸ … ──▸ []

`follow` asks for page after page until one is empty.  Where each page takes something off what is
`left` it comes to an end, and the pages put together are what was left at first (`Paged.follow`).

Rows in the order of a key are read so from either side: what is above the largest key of the front,
or below the smallest key of the back, is the rest (`filter_above`, `filter_below`).
-/

namespace Machinery

variable {α κ : Type*}

/-! ## Until a page is empty -/

/-- So many requests, each for the page after the one before; `none` when they do not suffice. -/
def follow (page : κ → List α) (next : κ → List α → κ) : ℕ → κ → Option (List (List α))
  | 0, _ => none
  | n + 1, k =>
    match page k with
    | [] => some []
    | a :: as => (follow page next n (next k (a :: as))).map ((a :: as) :: ·)

/-- A longer bound on the pages gives the same pages. -/
theorem follow_mono {page : κ → List α} {next : κ → List α → κ} {n m : ℕ} {k : κ}
    {pages : List (List α)} (h : follow page next n k = some pages) (hnm : n ≤ m) :
    follow page next m k = some pages := by
  induction n generalizing m k pages with
  | zero => cases h
  | succ n ih =>
    obtain ⟨m, rfl⟩ : ∃ m', m = m' + 1 := ⟨m - 1, by omega⟩
    rw [follow] at h ⊢
    cases hpage : page k with
    | nil => simpa [hpage] using h
    | cons a as =>
      simp only [hpage] at h ⊢
      obtain ⟨rest, hrest, rfl⟩ := Option.map_eq_some_iff.mp h
      rw [ih hrest (by omega), Option.map_some]

theorem follow_unique {page : κ → List α} {next : κ → List α → κ} {n m : ℕ} {k : κ}
    {pages pages' : List (List α)} (h : follow page next n k = some pages)
    (h' : follow page next m k = some pages') : pages = pages' :=
  Option.some.inj ((follow_mono h (Nat.le_max_left n m)).symm.trans
    (follow_mono h' (Nat.le_max_right n m)))

/-- A page is a part of what is left, which `join` puts together with the rest. -/
structure Paged (page : κ → List α) (next : κ → List α → κ) (join : List α → List α → List α)
    (left : κ → List α) (Ok : κ → Prop) : Prop where
  next_ok : ∀ k, Ok k → page k ≠ [] → Ok (next k (page k))
  done : ∀ k, Ok k → page k = [] → left k = []
  turn : ∀ k, Ok k → page k ≠ [] → left k = join (page k) (left (next k (page k)))
  less : ∀ k, Ok k → page k ≠ [] → (left (next k (page k))).length < (left k).length

namespace Paged

variable {page : κ → List α} {next : κ → List α → κ} {join : List α → List α → List α}
  {left : κ → List α} {Ok : κ → Prop}

/-- **The pages are what was left**, and there are no more of them than rows. -/
theorem follow (h : Paged page next join left Ok) {n : ℕ} {k : κ} (hk : Ok k)
    (hn : (left k).length < n) :
    ∃ pages, Machinery.follow page next n k = some pages ∧ pages.foldr join [] = left k := by
  induction n generalizing k with
  | zero => exact absurd hn (Nat.not_lt_zero _)
  | succ n ih =>
    rw [Machinery.follow]
    cases hpage : page k with
    | nil => exact ⟨[], rfl, (h.done k hk hpage).symm⟩
    | cons a as =>
      have hne : page k ≠ [] := by simp [hpage]
      have hless := h.less k hk hne
      obtain ⟨pages, hfollow, hjoined⟩ := ih (h.next_ok k hk hne) (by omega)
      have hturn := h.turn k hk hne
      rw [hpage] at hfollow hjoined hturn
      refine ⟨(a :: as) :: pages, ?_, ?_⟩
      · simp only [hfollow, Option.map_some]
      · rw [List.foldr_cons, hjoined, hturn]

end Paged

theorem foldr_append (pages : List (List α)) : pages.foldr (· ++ ·) [] = pages.flatten := by
  induction pages with
  | nil => rfl
  | cons page pages ih => simp [ih]

/-- Pages that are read from the back. -/
theorem foldr_append_swap (pages : List (List α)) :
    pages.foldr (fun page rest => rest ++ page) [] = pages.reverse.flatten := by
  induction pages with
  | nil => rfl
  | cons page pages ih => simp [ih]

/-! ## Rows in the order of a key -/

section Keys

variable {key : α → ℕ} {l l' rows : List α} {m n : ℕ}

/-- The rows are in the order of their keys, which are different. -/
def Ascending (key : α → ℕ) (l : List α) : Prop := l.Pairwise fun a b => key a < key b

theorem Ascending.filter (h : Ascending key l) (p : α → Bool) : Ascending key (l.filter p) :=
  List.Pairwise.filter p h

/-- The same rows come in one order. -/
theorem Ascending.eq_of_perm (h : Ascending key l) (h' : Ascending key l') (hperm : l.Perm l') :
    l = l' :=
  hperm.eq_of_pairwise (fun _ _ _ _ hab hba => absurd hab (Nat.lt_asymm hba)) h h'

/-- Sorted by any order, rows with different keys are never tied. -/
theorem pairwise_lt_of_sorted {k : α → ℕ} (hnodup : (rows.map k).Nodup) (hperm : l.Perm rows)
    (hsorted : l.Pairwise fun a b => k a ≤ k b) : Ascending k l := by
  have hdistinct : l.Pairwise fun a b => k a ≠ k b :=
    List.pairwise_map.mp ((hperm.map k).nodup_iff.mpr hnodup)
  exact (hsorted.and hdistinct).imp fun h => Nat.lt_of_le_of_ne h.1 h.2

theorem ascending_insertionSort (hnodup : (rows.map key).Nodup) :
    Ascending key (rows.insertionSort fun a b => key a ≤ key b) := by
  have : Std.Total fun a b : α => key a ≤ key b := ⟨fun a b => Nat.le_total _ _⟩
  have : IsTrans α fun a b => key a ≤ key b := ⟨fun _ _ _ => Nat.le_trans⟩
  exact pairwise_lt_of_sorted hnodup (List.perm_insertionSort _ rows)
    (List.pairwise_insertionSort _ _)

/-- The other order is this one from the back. -/
theorem reverse_insertionSort (hnodup : (rows.map key).Nodup) :
    (rows.insertionSort fun a b => key b ≤ key a).reverse =
      rows.insertionSort fun a b => key a ≤ key b := by
  have : Std.Total fun a b : α => key b ≤ key a := ⟨fun a b => Nat.le_total _ _⟩
  have : IsTrans α fun a b => key b ≤ key a := ⟨fun _ _ _ hba hcb => Nat.le_trans hcb hba⟩
  have hperm : (rows.insertionSort fun a b => key b ≤ key a).reverse.Perm rows :=
    (List.reverse_perm _).trans (List.perm_insertionSort _ rows)
  have hsorted := List.pairwise_insertionSort (fun a b : α => key b ≤ key a) rows
  have hascending := pairwise_lt_of_sorted hnodup hperm (List.pairwise_reverse.mpr hsorted)
  exact hascending.eq_of_perm (ascending_insertionSort hnodup)
    (hperm.trans (List.perm_insertionSort _ rows).symm)

/-- A selection of the rows, in their order. -/
theorem insertionSort_filter (hnodup : (rows.map key).Nodup) (p : α → Bool) :
    (rows.filter p).insertionSort (fun a b => key a ≤ key b) =
      (rows.insertionSort fun a b => key a ≤ key b).filter p := by
  have hsome : ((rows.filter p).map key).Nodup := (List.filter_sublist.map key).nodup hnodup
  refine (ascending_insertionSort hsome).eq_of_perm
    ((ascending_insertionSort hnodup).filter p) ?_
  exact (List.perm_insertionSort _ _).trans ((List.perm_insertionSort _ rows).symm.filter p)

/-- **Above the largest key of the front is the rest.** -/
theorem filter_above (h : Ascending key l) (hm : ((l.take n).map key).max? = some m) :
    l.filter (fun a => m < key a) = l.drop n := by
  obtain ⟨hmem, hmax⟩ := List.max?_eq_some_iff.mp hm
  obtain ⟨a, ha, rfl⟩ := List.mem_map.mp hmem
  rw [← List.take_append_drop n l] at h
  obtain ⟨-, -, hcross⟩ := List.pairwise_append.mp h
  have hfront : (l.take n).filter (fun b => key a < key b) = [] :=
    List.filter_eq_nil_iff.mpr fun b hb => by simpa using hmax _ (List.mem_map_of_mem hb)
  have hback : (l.drop n).filter (fun b => key a < key b) = l.drop n :=
    List.filter_eq_self.mpr fun b hb => by simpa using hcross a ha b hb
  calc l.filter (fun b => key a < key b)
      = (l.take n ++ l.drop n).filter (fun b => key a < key b) := by rw [List.take_append_drop]
    _ = l.drop n := by rw [List.filter_append, hfront, hback, List.nil_append]

/-- **Below the smallest key of the back is the rest.** -/
theorem filter_below (h : Ascending key l) (hm : ((l.drop n).map key).min? = some m) :
    l.filter (fun a => key a < m) = l.take n := by
  obtain ⟨hmem, hmin⟩ := List.min?_eq_some_iff.mp hm
  obtain ⟨b, hb, rfl⟩ := List.mem_map.mp hmem
  rw [← List.take_append_drop n l] at h
  obtain ⟨-, -, hcross⟩ := List.pairwise_append.mp h
  have hfront : (l.take n).filter (fun a => key a < key b) = l.take n :=
    List.filter_eq_self.mpr fun a ha => by simpa using hcross a ha b hb
  have hback : (l.drop n).filter (fun a => key a < key b) = [] :=
    List.filter_eq_nil_iff.mpr fun a ha => by simpa using hmin _ (List.mem_map_of_mem ha)
  calc l.filter (fun a => key a < key b)
      = (l.take n ++ l.drop n).filter (fun a => key a < key b) := by rw [List.take_append_drop]
    _ = l.take n := by rw [List.filter_append, hfront, hback, List.append_nil]

/-! ## From either side -/

variable {page : ℕ → List α} {Ok : ℕ → Prop} {limit : ℕ}

/-- The largest key of a page is above the key it was asked for. -/
theorem exists_max_page {k : ℕ} (hok : ∀ a ∈ l, Ok (key a))
    (hpage : page k = (l.filter fun a => k < key a).take limit) (hne : page k ≠ []) :
    ∃ m, ((page k).map key).max? = some m ∧ Ok m ∧ k < m := by
  obtain ⟨m, hm⟩ := Option.isSome_iff_exists.mp
    (List.isSome_max?_of_ne_nil (l := (page k).map key) (by simpa using hne))
  obtain ⟨a, ha, rfl⟩ := List.mem_map.mp (List.max?_eq_some_iff.mp hm).1
  rw [hpage] at ha
  obtain ⟨hmem, hlt⟩ := List.mem_filter.mp (List.mem_of_mem_take ha)
  exact ⟨key a, hm, hok a hmem, of_decide_eq_true hlt⟩

/-- What is above it is the rest of what the page was cut from. -/
theorem above_max_page {k : ℕ} (h : Ascending key l)
    (hpage : page k = (l.filter fun a => k < key a).take limit)
    (hm : ((page k).map key).max? = some m) (hkm : k < m) :
    l.filter (fun a => m < key a) = (l.filter fun a => k < key a).drop limit := by
  rw [hpage] at hm
  rw [← filter_above (h.filter _) hm, List.filter_filter]
  refine List.filter_congr fun a _ => ?_
  rw [Bool.eq_iff_iff]
  simp only [decide_eq_true_eq, Bool.and_eq_true]
  omega

/-- **From the front**, each page from the largest key of the one before. -/
theorem paged_front (h : Ascending key l) (hlimit : 0 < limit) (hok : ∀ a ∈ l, Ok (key a))
    (hpage : ∀ k, Ok k → page k = (l.filter fun a => k < key a).take limit) :
    Paged page (fun k page => (page.map key).max?.getD k) (· ++ ·)
      (fun k => l.filter fun a => k < key a) Ok := by
  have hrest : ∀ k, Ok k → page k ≠ [] →
      l.filter (fun a => ((page k).map key).max?.getD k < key a) =
        (l.filter fun a => k < key a).drop limit := by
    intro k hk hne
    obtain ⟨m, hm, -, hkm⟩ := exists_max_page hok (hpage k hk) hne
    rw [← above_max_page h (hpage k hk) hm hkm, hm, Option.getD_some]
  refine ⟨?_, ?_, ?_, ?_⟩
  · intro k hk hne
    obtain ⟨m, hm, hmok, -⟩ := exists_max_page hok (hpage k hk) hne
    rwa [hm, Option.getD_some]
  · intro k hk hnil
    rw [hpage k hk, List.take_eq_nil_iff] at hnil
    exact hnil.resolve_left (Nat.ne_of_gt hlimit)
  · intro k hk hne
    rw [hrest k hk hne, hpage k hk, List.take_append_drop]
  · intro k hk hne
    have hsome := List.length_pos_iff.mpr hne
    rw [hrest k hk hne, List.length_drop]
    rw [hpage k hk, List.length_take] at hsome
    omega

variable {back : Option ℕ → List α} {OkBound : Option ℕ → Prop}

/-- The rows below a bound. -/
def belowKey (key : α → ℕ) (bound : Option ℕ) (a : α) : Bool := bound.all fun m => key a < m

theorem belowKey_of_lt {bound : Option ℕ} {a b : α} (ha : belowKey key bound a = true)
    (hlt : key b < key a) : belowKey key bound b = true := by
  cases bound with
  | none => rfl
  | some n =>
    simp only [belowKey, Option.all_some, decide_eq_true_eq] at ha ⊢
    omega

/-- The smallest key of a page is one below the bound it was asked for. -/
theorem exists_min_page {k : Option ℕ}
    (hpage : back k =
      (l.filter (belowKey key k)).drop ((l.filter (belowKey key k)).length - limit))
    (hne : back k ≠ []) :
    ∃ a ∈ l, ((back k).map key).min? = some (key a) ∧ belowKey key k a = true := by
  obtain ⟨m, hm⟩ := Option.isSome_iff_exists.mp
    (List.isSome_min?_of_ne_nil (l := (back k).map key) (by simpa using hne))
  obtain ⟨a, ha, rfl⟩ := List.mem_map.mp (List.min?_eq_some_iff.mp hm).1
  rw [hpage] at ha
  obtain ⟨hmem, hbelow⟩ := List.mem_filter.mp (List.mem_of_mem_drop ha)
  exact ⟨a, hmem, hm, hbelow⟩

/-- What is below it is the rest of what the page was cut from. -/
theorem below_min_page {k : Option ℕ} {a : α} (h : Ascending key l)
    (hpage : back k =
      (l.filter (belowKey key k)).drop ((l.filter (belowKey key k)).length - limit))
    (hm : ((back k).map key).min? = some (key a)) (hbelow : belowKey key k a = true) :
    l.filter (belowKey key (some (key a))) =
      (l.filter (belowKey key k)).take ((l.filter (belowKey key k)).length - limit) := by
  rw [hpage] at hm
  rw [← filter_below (h.filter _) hm, List.filter_filter]
  refine List.filter_congr fun b _ => ?_
  rw [Bool.eq_iff_iff, Bool.and_eq_true, decide_eq_true_eq]
  constructor
  · intro hb
    have hlt : key b < key a := of_decide_eq_true hb
    exact ⟨hlt, belowKey_of_lt hbelow hlt⟩
  · rintro ⟨hlt, -⟩
    exact decide_eq_true hlt

/-- **From the back**, each page from the smallest key of the one before. -/
theorem paged_back (h : Ascending key l) (hlimit : 0 < limit)
    (hok : ∀ a ∈ l, OkBound (some (key a)))
    (hpage : ∀ k, OkBound k → back k =
      (l.filter (belowKey key k)).drop ((l.filter (belowKey key k)).length - limit)) :
    Paged back (fun _ page => (page.map key).min?) (fun page rest => rest ++ page)
      (fun k => l.filter (belowKey key k)) OkBound := by
  have hrest : ∀ k, OkBound k → back k ≠ [] →
      l.filter (belowKey key ((back k).map key).min?) =
        (l.filter (belowKey key k)).take ((l.filter (belowKey key k)).length - limit) := by
    intro k hk hne
    obtain ⟨a, -, hm, hbelow⟩ := exists_min_page (hpage k hk) hne
    rw [← below_min_page h (hpage k hk) hm hbelow, hm]
  refine ⟨?_, ?_, ?_, ?_⟩
  · intro k hk hne
    obtain ⟨a, ha, hm, -⟩ := exists_min_page (hpage k hk) hne
    rw [hm]
    exact hok a ha
  · intro k hk hnil
    rw [hpage k hk, List.drop_eq_nil_iff] at hnil
    exact List.eq_nil_of_length_eq_zero (by omega)
  · intro k hk hne
    rw [hrest k hk hne, hpage k hk, List.take_append_drop]
  · intro k hk hne
    have hsome := List.length_pos_iff.mpr hne
    rw [hrest k hk hne, List.length_take]
    rw [hpage k hk, List.length_drop] at hsome
    omega

end Keys

end Machinery

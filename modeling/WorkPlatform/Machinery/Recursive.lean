import Mathlib.Data.Finset.Card
import Mathlib.Data.Finset.Filter
import WorkPlatform.Machinery.Acyclic

/-!
# Machinery/Recursive — a recursive query, one generation after another

    xs ──next──▸ next xs ──next──▸ … ──▸ []            the answer is all of them

`WITH RECURSIVE … UNION ALL` keeps no account of what it has found, so it is the relation it follows
that has to stop: over an acyclic one into a finite set the query comes to an end
(`exists_unionAll`), and then its answer is what the first generation reaches (`mem_unionAll`).
-/

namespace Machinery

open Relation

variable {α : Type*} {r : α → α → Prop} {next : List α → List α} {xs res : List α}

/-- The query from a generation, for so many more; `none` when they do not suffice. -/
def unionAll (next : List α → List α) : ℕ → List α → Option (List α)
  | _, [] => some []
  | 0, _ :: _ => none
  | n + 1, a :: as => (unionAll next n (next (a :: as))).map (a :: as ++ ·)

@[simp] theorem unionAll_nil (next : List α → List α) (n : ℕ) : unionAll next n [] = some [] := by
  cases n <;> rfl

/-- A generation is followed by the successors of its members. -/
def Generates (next : List α → List α) (r : α → α → Prop) : Prop :=
  ∀ xs y, y ∈ next xs ↔ ∃ x ∈ xs, r x y

/-- A longer bound gives the same rows. -/
theorem unionAll_mono {n m : ℕ} (h : unionAll next n xs = some res) (hnm : n ≤ m) :
    unionAll next m xs = some res := by
  induction n generalizing m xs res with
  | zero =>
    cases xs with
    | nil => simpa using h
    | cons a as => cases h
  | succ n ih =>
    cases xs with
    | nil => simpa using h
    | cons a as =>
      obtain ⟨m, rfl⟩ : ∃ m', m = m' + 1 := ⟨m - 1, by omega⟩
      rw [unionAll] at h ⊢
      obtain ⟨rest, hrest, rfl⟩ := Option.map_eq_some_iff.mp h
      rw [ih hrest (by omega), Option.map_some]

/-- **The answer is what the first generation reaches.** -/
theorem mem_unionAll (hnext : Generates next r) {n : ℕ} (h : unionAll next n xs = some res) {y : α} :
    y ∈ res ↔ ∃ x ∈ xs, ReflTransGen r x y := by
  induction n generalizing xs res with
  | zero =>
    cases xs with
    | nil =>
      obtain rfl : [] = res := by simpa using h
      simp
    | cons a as => cases h
  | succ n ih =>
    cases xs with
    | nil =>
      obtain rfl : [] = res := by simpa using h
      simp
    | cons a as =>
      rw [unionAll] at h
      obtain ⟨rest, hrest, rfl⟩ := Option.map_eq_some_iff.mp h
      rw [List.mem_append, ih hrest]
      constructor
      · rintro (hy | ⟨z, hz, hzy⟩)
        · exact ⟨y, hy, .refl⟩
        · obtain ⟨x, hx, hxz⟩ := (hnext _ z).mp hz
          exact ⟨x, hx, .head hxz hzy⟩
      · rintro ⟨x, hx, hxy⟩
        rcases ReflTransGen.cases_head hxy with rfl | ⟨z, hxz, hzy⟩
        · exact Or.inl hx
        · exact Or.inr ⟨z, (hnext _ z).mpr ⟨x, hx, hxz⟩, hzy⟩

/-- **What the answer holds**, each time it is found: what the first generation holds in all, where
that is what a generation holds itself and what the next one holds in all. -/
theorem flatMap_unionAll {β : Type*} {own total : α → List β}
    (hstep : ∀ xs, (xs.flatMap own ++ (next xs).flatMap total).Perm (xs.flatMap total)) {n : ℕ}
    (h : unionAll next n xs = some res) : (res.flatMap own).Perm (xs.flatMap total) := by
  induction n generalizing xs res with
  | zero =>
    cases xs with
    | nil =>
      obtain rfl : [] = res := Option.some.inj h
      exact .refl _
    | cons a as => cases h
  | succ n ih =>
    cases xs with
    | nil =>
      obtain rfl : [] = res := Option.some.inj h
      exact .refl _
    | cons a as =>
      obtain ⟨rest, hrest, rfl⟩ := Option.map_eq_some_iff.mp h
      rw [List.flatMap_append]
      exact ((ih hrest).append_left _).trans (hstep (a :: as))

/-! ## When it comes to an end -/

/-- **A query whose generations have less and less rank comes to an end.** -/
theorem exists_unionAll_of_rank (rank : α → ℕ)
    (hrank : ∀ xs, ∀ y ∈ next xs, ∃ x ∈ xs, rank y < rank x) {n : ℕ} (hn : ∀ x ∈ xs, rank x < n) :
    ∃ res, unionAll next n xs = some res := by
  induction n generalizing xs with
  | zero =>
    cases xs with
    | nil => exact ⟨[], rfl⟩
    | cons a as => exact absurd (hn a List.mem_cons_self) (Nat.not_lt_zero _)
  | succ n ih =>
    cases xs with
    | nil => exact ⟨[], rfl⟩
    | cons a as =>
      have hlater : ∀ y ∈ next (a :: as), rank y < n := by
        intro y hy
        obtain ⟨x, hx, hless⟩ := hrank _ y hy
        have hbound := hn x hx
        omega
      obtain ⟨rest, hrest⟩ := ih hlater
      exact ⟨a :: as ++ rest, by rw [unionAll, hrest, Option.map_some]⟩

section Below

open Classical in
/-- How many of the points are reached from `x`. -/
noncomputable def below (r : α → α → Prop) (points : Finset α) (x : α) : ℕ :=
  (points.filter (TransGen r x)).card

variable {points : Finset α} {x y : α}

/-- **Each generation has less below it.** -/
theorem below_lt (hr : Acyclic r) (hpoints : ∀ x y, r x y → y ∈ points) (hxy : r x y) :
    below r points y < below r points x := by
  classical
  refine Finset.card_lt_card (Finset.ssubset_iff_subset_ne.mpr ⟨?_, ?_⟩)
  · intro z hz
    obtain ⟨hmem, hyz⟩ := Finset.mem_filter.mp hz
    exact Finset.mem_filter.mpr ⟨hmem, .head hxy hyz⟩
  · intro heq
    have hy : y ∈ points.filter (TransGen r x) :=
      Finset.mem_filter.mpr ⟨hpoints x y hxy, .single hxy⟩
    rw [← heq] at hy
    exact hr y (Finset.mem_filter.mp hy).2

theorem below_lt_card (hr : Acyclic r) (hx : x ∈ points) :
    below r points x < points.card := by
  classical
  refine Finset.card_lt_card (Finset.ssubset_iff_subset_ne.mpr ⟨Finset.filter_subset _ _, ?_⟩)
  intro heq
  rw [← heq] at hx
  exact hr x (Finset.mem_filter.mp hx).2

theorem exists_unionAll_of_below (hnext : Generates next r) (hr : Acyclic r)
    (hpoints : ∀ x y, r x y → y ∈ points) {n : ℕ} (hn : ∀ x ∈ xs, below r points x < n) :
    ∃ res, unionAll next n xs = some res := by
  refine exists_unionAll_of_rank (below r points) (fun xs y hy => ?_) hn
  obtain ⟨x, hx, hxy⟩ := (hnext xs y).mp hy
  exact ⟨x, hx, below_lt hr hpoints hxy⟩

/-- **Over an acyclic relation the query comes to an end**: there are not more generations than
points. -/
theorem exists_unionAll (hnext : Generates next r) (hr : Acyclic r)
    (hpoints : ∀ x y, r x y → y ∈ points) (hxs : ∀ x ∈ xs, x ∈ points) {n : ℕ}
    (hn : points.card ≤ n) : ∃ res, unionAll next n xs = some res := by
  refine exists_unionAll_of_below hnext hr hpoints fun x hx => ?_
  have hless := below_lt_card hr (hxs x hx)
  omega

end Below

end Machinery

import Mathlib.Data.List.Sort

/-!
# Machinery/Growing — rows read a page at a time while others are added

    L 0 ──▸ L 1 ──▸ L 2 ──▸ …        each a sublist of the next
    page k = (L k).drop (k * n).take n

A row that is there from the beginning moves back only, so a reader that goes forward page by page
meets it, as long as it goes on to a page that is not full (`mem_page_of_growing`).
-/

namespace Machinery

variable {α : Type*}

/-- `LIMIT n OFFSET k * n`. -/
def pageAt (n k : ℕ) (l : List α) : List α := (l.drop (k * n)).take n

/-- A row that is still to come, or was met. -/
theorem mem_drop_or_page {L : ℕ → List α} {n : ℕ} {a : α} (ha : a ∈ L 0) :
    ∀ {k : ℕ}, (∀ j < k, (L j).Sublist (L (j + 1))) →
      a ∈ (L k).drop (k * n) ∨ ∃ j < k, a ∈ pageAt n j (L j)
  | 0, _ => by
      rw [Nat.zero_mul, List.drop_zero]
      exact Or.inl ha
  | k + 1, hgrow => by
      rcases mem_drop_or_page ha fun j hj => hgrow j (Nat.lt_succ_of_lt hj) with hlater | ⟨j, hj, hmet⟩
      · rw [← List.take_append_drop n ((L k).drop (k * n)), List.drop_drop, ← Nat.succ_mul] at hlater
        rcases List.mem_append.mp hlater with hmet | hlater
        · exact Or.inr ⟨k, Nat.lt_succ_self k, hmet⟩
        · exact Or.inl (((hgrow k (Nat.lt_succ_self k)).drop _).subset hlater)
      · exact Or.inr ⟨j, Nat.lt_succ_of_lt hj, hmet⟩

/-- **Nothing that was there is missed**, however much is added while the pages are read. -/
theorem mem_page_of_growing {L : ℕ → List α} {n m : ℕ} {a : α}
    (hgrow : ∀ j < m, (L j).Sublist (L (j + 1))) (hlast : (pageAt n m (L m)).length < n)
    (ha : a ∈ L 0) : ∃ j ≤ m, a ∈ pageAt n j (L j) := by
  rcases mem_drop_or_page ha hgrow with hlater | ⟨j, hj, hmet⟩
  · refine ⟨m, le_rfl, ?_⟩
    have hshort : ((L m).drop (m * n)).length ≤ n := by
      unfold pageAt at hlast
      rw [List.length_take] at hlast
      omega
    unfold pageAt
    rw [List.take_of_length_le hshort]
    exact hlater
  · exact ⟨j, hj.le, hmet⟩

section Sorted

variable {r₁ r₂ : α → α → Prop} [DecidableRel r₁] [DecidableRel r₂] [Std.Total r₁] [IsTrans α r₁]
  [Std.Total r₂] [IsTrans α r₂] {l₁ l₂ : List α}

/-- Fewer rows, in an order that the other agrees with and that has no ties. -/
theorem insertionSort_sublist (h : l₁.Sublist l₂) (hr : ∀ a ∈ l₂, ∀ b ∈ l₂, r₁ a b → r₂ a b)
    (hties : ∀ a ∈ l₂, ∀ b ∈ l₂, r₂ a b → r₂ b a → a = b) :
    (l₁.insertionSort r₁).Sublist (l₂.insertionSort r₂) := by
  have hsub : (l₁.insertionSort r₁).Subperm (l₂.insertionSort r₂) :=
    ((List.perm_insertionSort r₁ l₁).subperm.trans h.subperm).trans
      (List.perm_insertionSort r₂ l₂).symm.subperm
  obtain ⟨l, hperm, hl⟩ := hsub
  have hmem : ∀ a ∈ l, a ∈ l₂ := fun a ha => (List.mem_insertionSort r₂).mp (hl.subset ha)
  have hmem₁ : ∀ a ∈ l₁.insertionSort r₁, a ∈ l₂ :=
    fun a ha => h.subset ((List.mem_insertionSort r₁).mp ha)
  have hsorted : (l₁.insertionSort r₁).Pairwise r₂ :=
    (List.pairwise_insertionSort r₁ l₁).imp_of_mem fun ha hb => hr _ (hmem₁ _ ha) _ (hmem₁ _ hb)
  have heq : l = l₁.insertionSort r₁ :=
    hperm.eq_of_pairwise (fun a b ha hb => hties a (hmem a ha) b (hmem₁ b hb))
      ((List.pairwise_insertionSort r₂ l₂).sublist hl) hsorted
  exact heq ▸ hl

end Sorted

end Machinery

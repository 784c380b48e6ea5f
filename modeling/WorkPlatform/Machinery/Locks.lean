import WorkPlatform.Machinery.Run

/-!
# Machinery/Locks — locks that the calls of a pool hold

    call i   ──acquires l──▸ holds l ──…──▸ gives it up, or crashes
    call j        waits for l ─────────────────────────────▸ acquires l

A running call holds the locks of its control point, and a call that is down holds none.  Where no
call takes a lock that another one holds, no two calls ever hold the same (`exclusive_next`).
-/

namespace Machinery

variable {ι σ κ L : Type*} {holds : κ → List L}

/-- Two calls that hold no lock in common. -/
def Unshared (holds : κ → List L) (x y : Proc κ) : Prop :=
  ∀ l, x.Live (l ∈ holds ·) → ¬ y.Live (l ∈ holds ·)

theorem Unshared.symm {x y : Proc κ} (h : Unshared holds x y) : Unshared holds y x :=
  fun l hy hx => h l hx hy

/-- No lock is held by two calls. -/
def Exclusive (holds : κ → List L) (calls : ι → Proc κ) : Prop :=
  ∀ i j, i ≠ j → Unshared holds (calls i) (calls j)

section

variable {calls : ι → Proc κ} {i j : ι} {k k' : κ} {l : L}

theorem exclusive_of_none (h : ∀ i, holds (calls i).at' = []) : Exclusive holds calls := by
  intro i j _ l hlive
  obtain ⟨k, hk, hl⟩ := hlive.exists
  have hnone := h i
  rw [hk, Proc.at'_up] at hnone
  rw [hnone] at hl
  cases hl

/-- What another call holds this one does not. -/
theorem Exclusive.notMem (h : Exclusive holds calls) (hij : i ≠ j) (hi : calls i = .up k)
    (hj : calls j = .up k') (hl : l ∈ holds k) : l ∉ holds k' := by
  have hunshared := h i j hij l
  rw [hi, hj] at hunshared
  exact hunshared hl

variable [DecidableEq ι]

/-- **A move of a call**: it keeps locks, gives some up, or takes such that nobody holds. -/
theorem exclusive_next (h : Exclusive holds calls) (hi : calls i = .up k)
    (htake : ∀ l ∈ holds k', l ∈ holds k ∨ ∀ j, ¬ (calls j).Live (l ∈ holds ·)) :
    Exclusive holds (Function.update calls i (.up k')) := by
  refine pairwise_update Unshared.symm h fun j hj l hl => ?_
  rcases htake l hl with hheld | hfree
  · have hunshared := h i j hj.symm l
    rw [hi] at hunshared
    exact hunshared hheld
  · exact hfree j

theorem exclusive_crash (h : Exclusive holds calls) :
    Exclusive holds (Function.update calls i (.down k)) :=
  pairwise_update Unshared.symm h fun _ _ _ hl => hl.elim

end

end Machinery

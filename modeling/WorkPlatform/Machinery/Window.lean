import Mathlib.Data.Finset.Card

/-!
# Machinery/Window — at most so many events in every window of time

    Bounded width limit time A     among the events `A`, at most `limit` lie in any `[a, a + width)`

Events are admitted one at a time.  What keeps the bound is that whoever admits an event knows of
fewer than `limit` others less than `width` away from it, before or after (`Bounded.insert`); it
does not matter in which order of their times events are admitted.
-/

namespace Machinery.Window

variable {α : Type*} {width limit : ℕ} {time : α → ℕ} {A B : α → Prop}

/-- The times are less than `width` apart. -/
def Near (width s t : ℕ) : Prop := s < t + width ∧ t < s + width

/-- At most `limit` of the events `A` lie in any window. -/
def Bounded (width limit : ℕ) (time : α → ℕ) (A : α → Prop) : Prop :=
  ∀ (a : ℕ) (S : Finset α), (∀ x ∈ S, A x ∧ a ≤ time x ∧ time x < a + width) → S.card ≤ limit

theorem Bounded.mono (h : Bounded width limit time A) (hBA : ∀ x, B x → A x) :
    Bounded width limit time B := by
  intro a S hS
  refine h a S fun x hx => ?_
  obtain ⟨hB, hwin⟩ := hS x hx
  exact ⟨hBA x hB, hwin⟩

theorem Bounded.congr {time' : α → ℕ} (h : Bounded width limit time A)
    (ht : ∀ x, A x → time' x = time x) : Bounded width limit time' A := by
  intro a S hS
  refine h a S fun x hx => ?_
  obtain ⟨hA, hwin⟩ := hS x hx
  rw [ht x hA] at hwin
  exact ⟨hA, hwin⟩

theorem bounded_of_forall_not (h : ∀ x, ¬ A x) : Bounded width limit time A := by
  intro a S hS
  have hempty : S = ∅ := Finset.eq_empty_of_forall_notMem fun x hx => h x (hS x hx).1
  rw [hempty]
  exact Nat.zero_le limit

/-- More than `limit` events in one window. -/
theorem not_bounded {a : ℕ} {S : Finset α}
    (hS : ∀ x ∈ S, A x ∧ a ≤ time x ∧ time x < a + width) (hmore : limit < S.card) :
    ¬ Bounded width limit time A :=
  fun h => absurd (h a S hS) (Nat.not_le.mpr hmore)

/-- No event lies in an empty window. -/
theorem bounded_zero : Bounded 0 limit time A := by
  intro a S hS
  have hempty : S = ∅ := Finset.eq_empty_of_forall_notMem fun x hx => by
    obtain ⟨-, hlow, hhigh⟩ := hS x hx
    omega
  rw [hempty]
  exact Nat.zero_le limit

/-- **One more event.**  The admitted events near it are few enough for one more. -/
theorem Bounded.insert {x : α} (h : Bounded width limit time A)
    (hx : ∀ S : Finset α, (∀ y ∈ S, A y ∧ y ≠ x ∧ Near width (time y) (time x)) →
      S.card + 1 ≤ limit)
    (hB : ∀ y, B y → A y ∨ y = x) : Bounded width limit time B := by
  classical
  intro a S hS
  by_cases hmem : x ∈ S
  · have hfew := hx (S.erase x) fun y hy => by
      obtain ⟨hne, hyS⟩ := Finset.mem_erase.mp hy
      obtain ⟨hBy, hlow, hhigh⟩ := hS y hyS
      obtain ⟨-, hlow', hhigh'⟩ := hS x hmem
      exact ⟨(hB y hBy).resolve_right hne, hne, by omega, by omega⟩
    rwa [Finset.card_erase_add_one hmem] at hfew
  · refine h a S fun y hy => ?_
    obtain ⟨hBy, hwin⟩ := hS y hy
    exact ⟨(hB y hBy).resolve_right fun heq => hmem (heq ▸ hy), hwin⟩

end Machinery.Window

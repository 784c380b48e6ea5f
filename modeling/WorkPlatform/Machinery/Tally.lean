import Mathlib.Logic.Function.Basic
import Mathlib.Data.Nat.Notation

/-!
# Machinery/Tally — a limit on tries, kept by a counter that is read before it is raised

    outside ▸ reading seen limit ▸ tried seen limit ▸ outside            below the limit
                                                    ▸ closing ▸ outside  at the limit

A call reads the counter, makes its try, raises the counter, and closes if what it has read has
reached its limit.  The tries since the last reset or closing are tallied.

As long as no call reads the counter while another one is between its reading and its end, and
every limit is at most `N`, the tally never exceeds `N` (`Tally.le`), however resets fall.
-/

namespace Machinery

/-- Where a call stands; `seen` is the counter it has read. -/
inductive Try
  | outside
  | reading (seen limit : ℕ)
  | tried (seen limit : ℕ)
  | closing
  deriving DecidableEq

namespace Try

/-- One step of a call at the counter `a`, with the tally `w`.  A try may be left out. -/
inductive Step (a w : ℕ) : Try → ℕ → ℕ → Try → Prop
  | stay (t : Try) : Step a w t a w t
  | read {seen : ℕ} (limit : ℕ) : a ≤ seen → Step a w outside a w (reading seen limit)
  | attempt (seen limit : ℕ) : Step a w (reading seen limit) a (w + 1) (tried seen limit)
  | pass (seen limit : ℕ) : Step a w (reading seen limit) a w (tried seen limit)
  | raise {seen limit : ℕ} : seen + 1 < limit → Step a w (tried seen limit) (a + 1) w outside
  | reach {seen limit : ℕ} : limit ≤ seen + 1 → Step a w (tried seen limit) (a + 1) w closing
  | close : Step a w closing a 0 outside
  | reset : Step a w outside 0 0 outside

/-- A tally that can go on: below the limit, unless nothing was tried yet. -/
def Calm (N a w : ℕ) : Prop := w ≤ a ∧ (w = 0 ∨ a < N)

/-- What the counter and the tally owe to a call in progress. -/
def Fits (N a w : ℕ) : Try → Prop
  | outside => True
  | reading seen limit => Calm N a w ∧ a ≤ seen ∧ limit ≤ N
  | tried seen limit => w ≤ a + 1 ∧ (w ≤ 1 ∨ a < N) ∧ a ≤ seen ∧ limit ≤ N
  | closing => w ≤ N

theorem calm_zero (N a : ℕ) : Calm N a 0 := ⟨a.zero_le, Or.inl rfl⟩

theorem Calm.le {N a w : ℕ} (h : Calm N a w) : w ≤ N := by
  obtain ⟨hle, hlim⟩ := h
  omega

theorem Fits.le {N a w : ℕ} (hN : 0 < N) : ∀ {t : Try}, t.Fits N a w → t ≠ outside → w ≤ N
  | outside, _, h => absurd rfl h
  | reading _ _, h, _ => h.1.le
  | tried _ _, ⟨hle, hlim, _⟩, _ => by omega
  | closing, h, _ => h

/-- A reset suits every call. -/
theorem Fits.reset {N a w : ℕ} : ∀ {t : Try}, t.Fits N a w → t.Fits N 0 0
  | outside, _ => trivial
  | reading seen _, ⟨_, _, hlim⟩ => ⟨calm_zero N 0, seen.zero_le, hlim⟩
  | tried seen _, ⟨_, _, _, hlim⟩ => ⟨Nat.zero_le _, Or.inl (Nat.zero_le _), seen.zero_le, hlim⟩
  | closing, _ => Nat.zero_le N

end Try

/-! ## Any number of calls -/

variable {ι : Type*}

/-- What the calls keep, one at a time between its reading and its end. -/
structure Tally (N a w : ℕ) (f : ι → Try) : Prop where
  single : ∀ i j, f i ≠ .outside → f j ≠ .outside → i = j
  fits : ∀ i, (f i).Fits N a w
  calm : (∀ i, f i = .outside) → Try.Calm N a w

namespace Tally

variable {N a w a' w' : ℕ} {f : ι → Try} {i : ι} {t : Try}

theorem of_outside (h : ∀ i, f i = .outside) : Tally N a 0 f where
  single i _ hi := absurd (h i) hi
  fits i := by
    rw [h i]
    trivial
  calm _ := Try.calm_zero N a

/-- **The limit.** -/
theorem le (hN : 0 < N) (h : Tally N a w f) : w ≤ N := by
  by_cases hf : ∀ i, f i = .outside
  · exact (h.calm hf).le
  · obtain ⟨i, hi⟩ := not_forall.mp hf
    exact (h.fits i).le hN hi

/-- While one call is in progress, the others are outside. -/
theorem others (h : Tally N a w f) (hi : f i ≠ .outside) : ∀ j, j ≠ i → f j = .outside := by
  intro j hj
  by_contra hne
  exact hj (h.single j i hne hi)

variable [DecidableEq ι]

/-- A call that is alone moves: what it owes afterwards is owed to nobody else. -/
theorem of_alone (hothers : ∀ j, j ≠ i → f j = .outside) (hfits : t.Fits N a' w')
    (hcalm : t = .outside → Try.Calm N a' w') : Tally N a' w' (Function.update f i t) where
  single j k hj hk := by
    have hat : ∀ l, Function.update f i t l ≠ .outside → l = i := by
      intro l hl
      by_contra hne
      rw [Function.update_of_ne hne] at hl
      exact hl (hothers l hne)
    rw [hat j hj, hat k hk]
  fits j := by
    by_cases hj : j = i
    · subst hj
      rw [Function.update_self]
      exact hfits
    · rw [Function.update_of_ne hj, hothers j hj]
      trivial
  calm h := by
    have hi := h i
    rw [Function.update_self] at hi
    exact hcalm hi

/-- **One step**, where a call reads the counter only while no other call is in progress, and with a
limit of at most `N`. -/
theorem step (hN : 0 < N) (h : Tally N a w f) (hstep : Try.Step a w (f i) a' w' t)
    (hread : ∀ seen limit, f i = .outside → t = .reading seen limit →
      limit ≤ N ∧ ∀ j, j ≠ i → f j = .outside) :
    Tally N a' w' (Function.update f i t) := by
  have hfits := h.fits i
  have hothers := h.others (i := i)
  generalize hx : f i = x at hstep hfits hread hothers
  cases hstep with
  | stay =>
    rw [← hx, Function.update_eq_self]
    exact h
  | read limit hseen =>
    obtain ⟨hlimit, halone⟩ := hread _ _ rfl rfl
    have hcalm : Try.Calm N a w := by
      refine h.calm fun j => ?_
      by_cases hj : j = i
      · rw [hj, hx]
      · exact halone j hj
    exact of_alone halone ⟨hcalm, hseen, hlimit⟩ nofun
  | attempt seen limit =>
    obtain ⟨⟨hle, hlim⟩, hseen, hlimit⟩ := hfits
    refine of_alone (hothers nofun) ⟨?_, ?_, hseen, hlimit⟩ nofun
    · omega
    · omega
  | pass seen limit =>
    obtain ⟨⟨hle, hlim⟩, hseen, hlimit⟩ := hfits
    refine of_alone (hothers nofun) ⟨?_, ?_, hseen, hlimit⟩ nofun
    · omega
    · omega
  | raise hbelow =>
    obtain ⟨hle, -, hseen, hlimit⟩ := hfits
    refine of_alone (hothers nofun) trivial fun _ => ⟨hle, Or.inr ?_⟩
    omega
  | reach hat =>
    have hle : w ≤ N := hfits.le hN nofun
    exact of_alone (hothers nofun) hle nofun
  | close => exact of_alone (hothers nofun) trivial fun _ => Try.calm_zero N a
  | reset =>
    rw [← hx, Function.update_eq_self]
    exact ⟨h.single, fun j => (h.fits j).reset, fun _ => Try.calm_zero N 0⟩

end Tally

end Machinery

import WorkPlatform.Machinery.Run

/-!
# Machinery/Provenance — where what is there comes from

    p ──▸ u ──statement of a call──▸ u' ──▸ q        Made p q s k s' k'

Between the beginning and the end of a run a call **made** a statement: in the store `s` it was at
the control point `k`, and the statement led to `s'` and `k'`.  What was made stays made, so what is
derived from it, by a chain of grants from an origin (`Derived`), stays derived, whatever is
forgotten by the store and by the calls themselves.  A grant comes after what it rests on.
-/

namespace Machinery

/-! ## Chains of grants -/

section Derived

variable {σ α : Type*} {origin : σ → α → Prop} {grants : σ → σ → α → α → Prop} {u v : σ} {a b : α}

/-- **`a` comes from an origin by the state `u`**: it is one by then, or was granted since its
granter came from one. -/
inductive Derived (origin : σ → α → Prop) (grants : σ → σ → α → α → Prop) : σ → α → Prop
  | origin {u : σ} {a : α} (h : origin u a) : Derived origin grants u a
  | grant {u v : σ} {a b : α} (ha : Derived origin grants u a) (hab : grants u v a b) :
      Derived origin grants v b

theorem Derived.later (horigin : ∀ a, origin u a → origin v a)
    (hgrants : ∀ t a b, grants t u a b → grants t v a b) (h : Derived origin grants u a) :
    Derived origin grants v a := by
  cases h with
  | origin h => exact .origin (horigin _ h)
  | grant ha hab => exact .grant ha (hgrants _ _ _ hab)

end Derived

/-! ## Statements of a run -/

section Made

variable {ι σ κ δ ε : Type*} [DecidableEq ι] {M : Machine σ κ δ ε} {p q u : Pool ι σ κ}
  {s s' : σ} {k k' : κ}

/-- **A call made the statement** between `p` and `q`. -/
def Made (M : Machine σ κ δ ε) (p q : Pool ι σ κ) (s : σ) (k : κ) (s' : σ) (k' : κ) : Prop :=
  ∃ u i d, Run (Pool.step M) anyStep p u ∧ u.store = s ∧ u.calls i = .up k
    ∧ M.next s k d = some (s', k')
    ∧ Run (Pool.step M) anyStep ⟨s', Function.update u.calls i (.up k')⟩ q

theorem Made.later (h : Made M p q s k s' k') (hrun : Run (Pool.step M) anyStep q u) :
    Made M p u s k s' k' := by
  obtain ⟨t, i, d, ht, hs, hk, hn, hq⟩ := h
  exact ⟨t, i, d, ht, hs, hk, hn, hq.trans hrun⟩

theorem Made.earlier (h : Made M p q s k s' k') (hrun : Run (Pool.step M) anyStep u p) :
    Made M u q s k s' k' := by
  obtain ⟨t, i, d, ht, hs, hk, hn, hq⟩ := h
  exact ⟨t, i, d, hrun.trans ht, hs, hk, hn, hq⟩

theorem Made.run (h : Made M p q s k s' k') : Run (Pool.step M) anyStep p q := by
  obtain ⟨t, i, d, ht, rfl, hk, hn, hq⟩ := h
  exact (ht.tail trivial (Pool.step_of_next hk hn)).trans hq

/-- The statement that is made now. -/
theorem made_of_next {i : ι} {d : δ} (hk : u.calls i = .up k)
    (hn : M.next u.store k d = some (s', k')) :
    Made M u ⟨s', Function.update u.calls i (.up k')⟩ u.store k s' k' :=
  ⟨u, i, d, .refl, rfl, hk, hn, .refl⟩

/-- **An invariant over what has been made**, where what holds of a state holds of it later as
well. -/
theorem invariant_made {I : Pool ι σ κ → Pool ι σ κ → Prop} (h₀ : I p p)
    (hlater : ∀ u v w, I u v → Run (Pool.step M) anyStep v w → I u w)
    (hnext : ∀ (u v : Pool ι σ κ) i d k s' k', Run (Pool.step M) anyStep p u → I u u → I u v →
      u.calls i = .up k → M.next u.store k d = some (s', k') → Made M u v u.store k s' k' →
      I ⟨s', Function.update u.calls i (.up k')⟩ v)
    (hcrash : ∀ (u v : Pool ι σ κ) i k, I u v → u.calls i = .up k →
      I ⟨u.store, Function.update u.calls i (.down k)⟩ v)
    (henv : ∀ (u v : Pool ι σ κ) e, I u v → I ⟨M.env u.store e, u.calls⟩ v)
    (hrun : Run (Pool.step M) anyStep p q) : I q q := by
  refine Pool.invariant_along (I := fun u => I u u) (J := Run (Pool.step M) anyStep p)
    (fun _ hu => hu) h₀ ?_ ?_ ?_ hrun
  · intro u i d k s' k' hu hI _ hk hn
    have hmade := made_of_next hk hn
    exact hnext u _ i d k s' k' hu hI (hlater _ _ _ hI hmade.run) hk hn hmade
  · intro u i k hI _ hk
    have hstep : Pool.step M u (.crash i)
        = some ⟨u.store, Function.update u.calls i (.down k)⟩ := by
      rw [Pool.step, hk]
    exact hcrash u _ i k (hlater _ _ _ hI (Run.refl.tail trivial hstep)) hk
  · intro u e hI _
    exact henv u _ e (hlater _ _ _ hI (Run.refl.tail (a := .env e) trivial rfl))

end Made

end Machinery

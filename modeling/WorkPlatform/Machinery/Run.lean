import Mathlib.Algebra.GroupWithZero.Nat
import Mathlib.Logic.Function.Basic
import Mathlib.Data.Fintype.Pi

/-!
# Machinery/Run — guarded runs of a step function, and pools of interleaved calls

    Run step G s t      `t` is reached from `s`, every step taken where the guard `G` allows it

A **pool** is a shared store together with any number of calls, each at a control point of its
own.  A **machine** says what the next statement of a call does to the store; a move of the pool
runs one statement of one call, stops a call for good, or lets the environment act.  The moves
interleave in any order, so a property of every `Run` of a pool holds for every schedule.

Assumptions on the schedule (calls one after another, a window nobody else enters) are guards.
`Pool.invariant` is the rule every invariant of a pool goes through.
-/

namespace Machinery

variable {σ α : Type*}

/-! ## Runs -/

/-- `t` is reached from `s` by steps that were each allowed by `G` where they were taken. -/
inductive Run (step : σ → α → Option σ) (G : σ → α → Prop) (s : σ) : σ → Prop
  | refl : Run step G s s
  | tail {t u : σ} {a : α} : Run step G s t → G t a → step t a = some u → Run step G s u

/-- The guard that allows every step. -/
abbrev anyStep (_ : σ) (_ : α) : Prop := True

namespace Run

variable {step : σ → α → Option σ} {G G' : σ → α → Prop} {s t u : σ}

/-- **The invariant rule.** -/
theorem invariant {I : σ → Prop} (h₀ : I s)
    (hstep : ∀ t a u, I t → G t a → step t a = some u → I u) (h : Run step G s t) : I t := by
  induction h with
  | refl => exact h₀
  | tail _ hG hs ih => exact hstep _ _ _ ih hG hs

theorem trans (h₁ : Run step G s t) (h₂ : Run step G t u) : Run step G s u := by
  induction h₂ with
  | refl => exact h₁
  | tail _ hG hs ih => exact ih.tail hG hs

theorem mono (hG : ∀ t a, G t a → G' t a) (h : Run step G s t) : Run step G' s t := by
  induction h with
  | refl => exact .refl
  | tail _ hg hs ih => exact ih.tail (hG _ _ hg) hs

/-- **What has come about**: the last step that made `B` true, and the run after it. -/
theorem entered {B : σ → Prop} (hs : ¬ B s) (h : Run step G s t) (ht : B t) :
    ∃ u a v, Run step G s u ∧ G u a ∧ step u a = some v ∧ ¬ B u ∧ B v ∧ Run step G v t := by
  induction h with
  | refl => exact absurd ht hs
  | @tail t u a hrun hG hstep ih =>
    by_cases hB : B t
    · obtain ⟨u', a', v', hu', hG', hstep', hbefore, hafter, hrest⟩ := ih hB
      exact ⟨u', a', v', hu', hG', hstep', hbefore, hafter, hrest.tail hG hstep⟩
    · exact ⟨t, a, u, hrun, hG, hstep, hB, ht, .refl⟩

end Run

/-- Take the listed steps in order; `none` as soon as one is not allowed or not possible. -/
def exec (step : σ → α → Option σ) (G : σ → α → Prop) [∀ s a, Decidable (G s a)] :
    σ → List α → Option σ
  | s, [] => some s
  | s, a :: as => if G s a then (step s a).bind fun t => exec step G t as else none

/-- What is computed step by step is a run. -/
theorem run_of_exec {step : σ → α → Option σ} {G : σ → α → Prop} [∀ s a, Decidable (G s a)] :
    ∀ {s t : σ} {as : List α}, exec step G s as = some t → Run step G s t
  | s, t, [], h => by
      obtain rfl : s = t := Option.some.inj h
      exact .refl
  | s, t, a :: as, h => by
      rw [exec] at h
      split at h
      case isFalse => cases h
      case isTrue hG =>
        obtain ⟨u, hu, hrest⟩ := Option.bind_eq_some_iff.mp h
        exact (Run.tail .refl hG hu).trans (run_of_exec hrest)

/-- A listed run that ends in a state where `p` holds. -/
theorem exists_run_of_exec (step : σ → α → Option σ) (G : σ → α → Prop)
    [∀ s a, Decidable (G s a)] (s : σ) (as : List α) (p : σ → Bool)
    (h : (exec step G s as).any p = true) : ∃ t, Run step G s t ∧ p t = true := by
  cases he : exec step G s as with
  | none => rw [he] at h; cases h
  | some t => rw [he] at h; exact ⟨t, run_of_exec he, h⟩

/-- A listed run and one more step, with `p` of the two states around it. -/
theorem exists_step_of_exec (step : σ → α → Option σ) (G : σ → α → Prop)
    [∀ s a, Decidable (G s a)] (s : σ) (as : List α) (a : α) (p : σ → σ → Bool)
    (h : (exec step G s as).any (fun t => G t a ∧ (step t a).any (p t)) = true) :
    ∃ t u, Run step G s t ∧ G t a ∧ step t a = some u ∧ p t u = true := by
  obtain ⟨t, hrun, ht⟩ := exists_run_of_exec step G s as _ h
  obtain ⟨hG, hstep⟩ := of_decide_eq_true ht
  cases hu : step t a with
  | none => rw [hu] at hstep; cases hstep
  | some u => rw [hu] at hstep; exact ⟨t, u, hrun, hG, hu, hstep⟩

/-! ## Pools of calls -/

variable {ι κ δ ε : Type*}

/-- A call: running, at its control point, or stopped there for good by a crash. -/
inductive Proc (κ : Type*)
  | up (k : κ)
  | down (k : κ)
  deriving DecidableEq

namespace Proc

/-- The control point a call is at, running or not. -/
def at' : Proc κ → κ
  | up k => k
  | down k => k

/-- The call is running and its control point satisfies `P`. -/
def Live (P : κ → Prop) : Proc κ → Prop
  | up k => P k
  | down _ => False

/-- If the call is running, its control point satisfies `P`. -/
def Keeps (P : κ → Prop) : Proc κ → Prop
  | up k => P k
  | down _ => True

@[simp] theorem at'_up (k : κ) : (up k).at' = k := rfl

@[simp] theorem at'_down (k : κ) : (down k).at' = k := rfl

@[simp] theorem live_up {P : κ → Prop} {k : κ} : (up k).Live P ↔ P k := Iff.rfl

@[simp] theorem live_down {P : κ → Prop} {k : κ} : (down k).Live P ↔ False := Iff.rfl

@[simp] theorem keeps_up {P : κ → Prop} {k : κ} : (up k).Keeps P ↔ P k := Iff.rfl

@[simp] theorem keeps_down {P : κ → Prop} {k : κ} : (down k).Keeps P ↔ True := Iff.rfl

theorem Live.exists {P : κ → Prop} : ∀ {c : Proc κ}, c.Live P → ∃ k, c = up k ∧ P k
  | up k, h => ⟨k, rfl, h⟩

theorem Live.imp {P Q : κ → Prop} (h : ∀ k, P k → Q k) : ∀ {c : Proc κ}, c.Live P → c.Live Q
  | up k, hP => h k hP

theorem Keeps.of_up {P : κ → Prop} {c : Proc κ} {k : κ} (h : c.Keeps P) (hc : c = up k) : P k := by
  rw [hc] at h
  exact h

theorem Keeps.imp {P Q : κ → Prop} (h : ∀ k, P k → Q k) : ∀ {c : Proc κ}, c.Keeps P → c.Keeps Q
  | up k, hP => h k hP
  | down _, _ => trivial

instance {P : κ → Prop} [DecidablePred P] : DecidablePred (Live P)
  | up k => inferInstanceAs (Decidable (P k))
  | down _ => inferInstanceAs (Decidable False)

instance {P : κ → Prop} [DecidablePred P] : DecidablePred (Keeps P)
  | up k => inferInstanceAs (Decidable (P k))
  | down _ => inferInstanceAs (Decidable True)

end Proc

/-- What the next statement of a call does, given the random draws it makes, and what the
environment can do to the store. -/
structure Machine (σ κ δ ε : Type*) where
  next : σ → κ → δ → Option (σ × κ)
  env : σ → ε → σ

/-- A store shared by calls that are each at a control point of their own. -/
structure Pool (ι σ κ : Type*) where
  store : σ
  calls : ι → Proc κ

/-! The calls of a small pool are named by numerals. -/

instance neZero_one : NeZero 1 := ⟨by decide⟩

instance neZero_two : NeZero 2 := ⟨by decide⟩

instance neZero_three : NeZero 3 := ⟨by decide⟩

instance neZero_four : NeZero 4 := ⟨by decide⟩

instance neZero_five : NeZero 5 := ⟨by decide⟩

instance neZero_six : NeZero 6 := ⟨by decide⟩

/-- One move of a pool. -/
inductive Move (ι δ ε : Type*)
  | run (i : ι) (d : δ)
  | crash (i : ι)
  | env (e : ε)

/-- A machine put together from the statements of several services: the statement of a call is the
statement of its service. -/
theorem pc_of_next {κ' : Type*} {o : Option (σ × κ)} {f : κ → κ'} {s' : σ} {c' : κ'}
    (h : (o.map fun x => (x.1, f x.2)) = some (s', c')) :
    ∃ pc', o = some (s', pc') ∧ c' = f pc' := by
  obtain ⟨⟨s₁, pc'⟩, hpc, heq⟩ := Option.map_eq_some_iff.mp h
  obtain ⟨rfl, rfl⟩ := Prod.mk.inj heq
  exact ⟨pc', hpc, rfl⟩

/-- The same, where the service has only a part of the store. -/
theorem part_of_next {τ κ' : Type*} {o : Option (τ × κ)} {g : τ → σ} {f : κ → κ'} {s' : σ} {c' : κ'}
    (h : (o.map fun x => (g x.1, f x.2)) = some (s', c')) :
    ∃ t pc', o = some (t, pc') ∧ s' = g t ∧ c' = f pc' := by
  obtain ⟨⟨t, pc'⟩, hpc, heq⟩ := Option.map_eq_some_iff.mp h
  obtain ⟨rfl, rfl⟩ := Prod.mk.inj heq
  exact ⟨t, pc', hpc, rfl, rfl⟩

/-- What holds of a call after a move of call `i` holds of where `i` has got, or held before. -/
theorem update_cases [DecidableEq ι] {γ : Type*} {f : ι → γ} {i j : ι} {x : γ} (P : γ → Prop)
    (h : P (Function.update f i x j)) : j = i ∧ P x ∨ j ≠ i ∧ P (f j) := by
  by_cases hj : j = i
  · subst hj
    rw [Function.update_self] at h
    exact Or.inl ⟨rfl, h⟩
  · rw [Function.update_of_ne hj] at h
    exact Or.inr ⟨hj, h⟩

/-- What relates any two calls is kept where the moved one is so related to the others. -/
theorem pairwise_update [DecidableEq ι] {γ : Type*} {R : γ → γ → Prop} {f : ι → γ} {i : ι} {x : γ}
    (hsymm : ∀ {y z}, R y z → R z y) (h : ∀ j k, j ≠ k → R (f j) (f k))
    (hx : ∀ j, j ≠ i → R x (f j)) :
    ∀ j k, j ≠ k → R (Function.update f i x j) (Function.update f i x k) := by
  intro j k hjk
  by_cases hj : j = i
  · subst hj
    rw [Function.update_self, Function.update_of_ne hjk.symm]
    exact hx k hjk.symm
  · rw [Function.update_of_ne hj]
    by_cases hk : k = i
    · subst hk
      rw [Function.update_self]
      exact hsymm (hx j hj)
    · rw [Function.update_of_ne hk]
      exact h j k hjk

section Updates

variable [DecidableEq ι] {f : ι → Proc κ} {P : κ → Prop} {i j : ι} {k : κ}

theorem live_update_up (h : (Function.update f i (.up k) j).Live P) :
    j = i ∧ P k ∨ j ≠ i ∧ (f j).Live P :=
  update_cases (Proc.Live P) h

theorem live_update_down (h : (Function.update f i (.down k) j).Live P) : j ≠ i ∧ (f j).Live P := by
  rcases update_cases (Proc.Live P) h with ⟨-, hself⟩ | hother
  · cases hself
  · exact hother

theorem keeps_update_up (hk : P k) (h : ∀ j, j ≠ i → (f j).Keeps P) :
    ∀ j, (Function.update f i (.up k) j).Keeps P :=
  (Function.forall_update_iff f fun _ => Proc.Keeps P).mpr ⟨hk, h⟩

theorem keeps_update_down_of (h : (f j).Keeps P) :
    (Function.update f i (.down k) j).Keeps P := by
  by_cases hj : j = i
  · rw [hj, Function.update_self]
    trivial
  · rwa [Function.update_of_ne hj]

theorem keeps_update_down (h : ∀ j, (f j).Keeps P) :
    ∀ j, (Function.update f i (.down k) j).Keeps P :=
  fun j => keeps_update_down_of (h j)

/-! ### Some call -/

/-- Another call is where it was. -/
theorem exists_live_of_ne (h : ∃ j, j ≠ i ∧ (f j).Live P) (x : Proc κ) :
    ∃ j, (Function.update f i x j).Live P := by
  obtain ⟨j, hj, hlive⟩ := h
  refine ⟨j, ?_⟩
  rw [Function.update_of_ne hj]
  exact hlive

theorem exists_live_self (hk : P k) : ∃ j, (Function.update f i (.up k) j).Live P := by
  refine ⟨i, ?_⟩
  rw [Function.update_self]
  exact hk

/-- A call that goes on as it should is still one of them. -/
theorem exists_live_update {k' : κ} (hi : f i = .up k) (hP : P k → P k')
    (h : ∃ j, (f j).Live P) : ∃ j, (Function.update f i (.up k') j).Live P := by
  obtain ⟨j, hlive⟩ := h
  by_cases hj : j = i
  · subst hj
    rw [hi] at hlive
    exact exists_live_self (hP hlive)
  · exact exists_live_of_ne ⟨j, hj, hlive⟩ _

omit [DecidableEq ι] in
/-- A call that is none of them leaves another. -/
theorem exists_live_ne (hi : f i = .up k) (hP : ¬ P k) (h : ∃ j, (f j).Live P) :
    ∃ j, j ≠ i ∧ (f j).Live P := by
  obtain ⟨j, hlive⟩ := h
  refine ⟨j, ?_, hlive⟩
  rintro rfl
  rw [hi] at hlive
  exact hP hlive

end Updates

theorem at'_update_self [DecidableEq ι] (f : ι → Proc κ) (i : ι) (x : Proc κ) :
    (Function.update f i x i).at' = x.at' := by
  rw [Function.update_self]

theorem at'_update_of_ne [DecidableEq ι] {f : ι → Proc κ} {i j : ι} (h : j ≠ i) (x : Proc κ) :
    (Function.update f i x j).at' = (f j).at' := by
  rw [Function.update_of_ne h]

/-- A crash moves no control point. -/
theorem at'_update_down [DecidableEq ι] {f : ι → Proc κ} {i : ι} {k : κ} (h : f i = .up k) (j : ι) :
    (Function.update f i (.down k) j).at' = (f j).at' := by
  by_cases hj : j = i
  · subst hj
    rw [Function.update_self, h]
    rfl
  · rw [Function.update_of_ne hj]

namespace Pool

variable [DecidableEq ι] {M : Machine σ κ δ ε} {G : Pool ι σ κ → Move ι δ ε → Prop}

/-- **One move**: a statement of a running call, a crash, or the environment. -/
def step (M : Machine σ κ δ ε) (p : Pool ι σ κ) : Move ι δ ε → Option (Pool ι σ κ)
  | .run i d =>
    match p.calls i with
    | .up k => (M.next p.store k d).map fun r => ⟨r.1, Function.update p.calls i (.up r.2)⟩
    | .down _ => none
  | .crash i =>
    match p.calls i with
    | .up k => some ⟨p.store, Function.update p.calls i (.down k)⟩
    | .down _ => none
  | .env e => some ⟨M.env p.store e, p.calls⟩

/-- What a statement of a call does to the pool. -/
theorem step_run {p q : Pool ι σ κ} {i : ι} {d : δ} (h : p.step M (.run i d) = some q) :
    ∃ k s k', p.calls i = .up k ∧ M.next p.store k d = some (s, k')
      ∧ q = ⟨s, Function.update p.calls i (.up k')⟩ := by
  rw [step] at h
  split at h
  case h_1 k hk =>
    obtain ⟨⟨s, k'⟩, hn, rfl⟩ := Option.map_eq_some_iff.mp h
    exact ⟨k, s, k', hk, hn, rfl⟩
  case h_2 => cases h

theorem step_of_next {p : Pool ι σ κ} {i : ι} {d : δ} {k k' : κ} {s : σ} (hk : p.calls i = .up k)
    (hn : M.next p.store k d = some (s, k')) :
    p.step M (.run i d) = some ⟨s, Function.update p.calls i (.up k')⟩ := by
  rw [step, hk]
  dsimp only
  rw [hn]
  rfl

theorem step_crash {p q : Pool ι σ κ} {i : ι} (h : p.step M (.crash i : Move ι δ ε) = some q) :
    ∃ k, p.calls i = .up k ∧ q = ⟨p.store, Function.update p.calls i (.down k)⟩ := by
  rw [step] at h
  split at h
  case h_1 k hk => exact ⟨k, hk, (Option.some.inj h).symm⟩
  case h_2 => cases h

/-- **The invariant rule for pools**: what every statement of every call, every crash and every
act of the environment keeps, every run keeps. -/
theorem invariant {I : Pool ι σ κ → Prop} {p q : Pool ι σ κ} (h₀ : I p)
    (hrun : ∀ (p : Pool ι σ κ) i d k s k', I p → G p (.run i d) → p.calls i = .up k →
      M.next p.store k d = some (s, k') → I ⟨s, Function.update p.calls i (.up k')⟩)
    (hcrash : ∀ (p : Pool ι σ κ) i k, I p → G p (.crash i) → p.calls i = .up k →
      I ⟨p.store, Function.update p.calls i (.down k)⟩)
    (henv : ∀ (p : Pool ι σ κ) e, I p → G p (.env e) → I ⟨M.env p.store e, p.calls⟩)
    (h : Run (step M) G p q) : I q := by
  refine h.invariant h₀ fun p m q hI hG hs => ?_
  cases m with
  | run i d =>
    obtain ⟨k, s, k', hk, hn, rfl⟩ := step_run hs
    exact hrun p i d k s k' hI hG hk hn
  | crash i =>
    obtain ⟨k, hk, rfl⟩ := step_crash hs
    exact hcrash p i k hI hG hk
  | env e =>
    obtain rfl : (⟨M.env p.store e, p.calls⟩ : Pool ι σ κ) = q := Option.some.inj hs
    exact henv p e hI hG

/-- The same, where `J` is known to hold all along the run. -/
theorem invariant_along {I J : Pool ι σ κ → Prop} {p q : Pool ι σ κ}
    (hJ : ∀ q, Run (step M) G p q → J q) (h₀ : I p)
    (hrun : ∀ (p : Pool ι σ κ) i d k s k', J p → I p → G p (.run i d) → p.calls i = .up k →
      M.next p.store k d = some (s, k') → I ⟨s, Function.update p.calls i (.up k')⟩)
    (hcrash : ∀ (p : Pool ι σ κ) i k, I p → G p (.crash i) → p.calls i = .up k →
      I ⟨p.store, Function.update p.calls i (.down k)⟩)
    (henv : ∀ (p : Pool ι σ κ) e, I p → G p (.env e) → I ⟨M.env p.store e, p.calls⟩)
    (h : Run (step M) G p q) : I q := by
  induction h with
  | refl => exact h₀
  | @tail q q' m hq hG hs ih =>
    cases m with
    | run i d =>
      obtain ⟨k, s, k', hk, hn, rfl⟩ := step_run hs
      exact hrun q i d k s k' (hJ q hq) ih hG hk hn
    | crash i =>
      obtain ⟨k, hk, rfl⟩ := step_crash hs
      exact hcrash q i k ih hG hk
    | env e =>
      obtain rfl : (⟨M.env q.store e, q.calls⟩ : Pool ι σ κ) = q' := Option.some.inj hs
      exact henv q e ih hG

/-- **Once the calls that were on their way have ended**, all keep what new calls keep. -/
theorem keeps_of_over {P R : κ → Prop} {p q : Pool ι σ κ} (hR : ∀ k, ¬ R k → P k)
    (hstep : ∀ (t : Pool ι σ κ) i d k s k', Run (step M) G p t → G t (.run i d) →
      t.calls i = .up k → P k → M.next t.store k d = some (s, k') → P k')
    (h : Run (step M) G p q) (hover : ∀ j, (p.calls j).Live R → ¬ (q.calls j).Live R) :
    ∀ j, (q.calls j).Keeps P := by
  have hnot : ∀ {c : Proc κ}, ¬ c.Live R → c.Keeps P := by
    rintro (k | k) hc
    · exact hR k hc
    · trivial
  have hnew : ∀ j, ¬ (p.calls j).Live R → (q.calls j).Keeps P := by
    clear hover
    induction h with
    | refl => exact fun j => hnot
    | @tail t u m hrun hG hs ih =>
      intro j hj
      cases m with
      | run i d =>
        obtain ⟨k, s, k', hk, hn, rfl⟩ := step_run hs
        by_cases hij : j = i
        · subst hij
          show (Function.update t.calls j (.up k') j).Keeps P
          rw [Function.update_self]
          exact hstep t j d k s k' hrun hG hk ((ih j hj).of_up hk) hn
        · show (Function.update t.calls i (.up k') j).Keeps P
          rw [Function.update_of_ne hij]
          exact ih j hj
      | crash i =>
        obtain ⟨k, -, rfl⟩ := step_crash hs
        exact keeps_update_down_of (ih j hj)
      | env e =>
        obtain rfl : (⟨M.env t.store e, t.calls⟩ : Pool ι σ κ) = u := Option.some.inj hs
        exact ih j hj
  intro j
  by_cases hj : (p.calls j).Live R
  · exact hnot (hover j hj)
  · exact hnew j hj

/-! ## Calls one after another -/

/-- A call runs only while no other call is in progress. -/
def Alone (busy : κ → Prop) (p : Pool ι σ κ) : Move ι δ ε → Prop
  | .run i _ => ∀ j, j ≠ i → ¬ (p.calls j).Live busy
  | _ => True

instance [Fintype ι] {busy : κ → Prop} [DecidablePred busy] (p : Pool ι σ κ) :
    ∀ m : Move ι δ ε, Decidable (Alone busy p m)
  | .run i _ => inferInstanceAs (Decidable (∀ j, j ≠ i → ¬ (p.calls j).Live busy))
  | .crash _ => inferInstanceAs (Decidable True)
  | .env _ => inferInstanceAs (Decidable True)

end Pool

/-! ## Statements that fail -/

/-- How a statement goes: done, done while the caller is told that it failed, or not done. -/
inductive Outcome
  | ok
  | lost
  | failed
  deriving DecidableEq

namespace Outcome

def took : Outcome → Bool
  | ok | lost => true
  | failed => false

def answered : Outcome → Bool
  | ok => true
  | lost | failed => false

end Outcome

/-! ## A call by itself -/

namespace Machine

/-- At most `n` statements of a call that runs by itself. -/
def proceed (M : Machine σ κ δ ε) (d : δ) : ℕ → σ × κ → σ × κ
  | 0, x => x
  | n + 1, x =>
    match M.next x.1 x.2 d with
    | some y => M.proceed d n y
    | none => x

variable {M : Machine σ κ δ ε} {d : δ}

/-- What every statement of the call keeps, the call keeps. -/
theorem proceed_invariant {I : σ × κ → Prop}
    (hstep : ∀ s k s' k', I (s, k) → M.next s k d = some (s', k') → I (s', k')) :
    ∀ (n : ℕ) {x : σ × κ}, I x → I (M.proceed d n x)
  | 0, _, h => h
  | n + 1, (s, k), h => by
      rw [proceed]
      split
      case h_1 y hy => exact proceed_invariant hstep n (hstep s k y.1 y.2 h hy)
      case h_2 => exact h

theorem proceed_of_none {s : σ} {k : κ} (h : M.next s k d = none) :
    ∀ n, M.proceed d n (s, k) = (s, k)
  | 0 => rfl
  | n + 1 => by
      rw [proceed]
      simp only [h]

theorem proceed_add (n : ℕ) : ∀ (m : ℕ) (x : σ × κ),
    M.proceed d (m + n) x = M.proceed d n (M.proceed d m x)
  | 0, x => by rw [Nat.zero_add, proceed]
  | m + 1, (s, k) => by
      rw [Nat.add_right_comm, proceed, proceed]
      cases hn : M.next s k d with
      | none => exact (proceed_of_none hn n).symm
      | some y => exact proceed_add n m y

/-- A call by itself comes to one end. -/
theorem proceed_end {m n : ℕ} {x y z : σ × κ} (hy : M.proceed d m x = y)
    (hz : M.proceed d n x = z) (hyend : M.next y.1 y.2 d = none) (hzend : M.next z.1 z.2 d = none) :
    y = z := by
  rcases Nat.le_total m n with h | h
  · obtain ⟨l, rfl⟩ := Nat.exists_eq_add_of_le h
    rw [proceed_add, hy, proceed_of_none hyend] at hz
    exact hz
  · obtain ⟨l, rfl⟩ := Nat.exists_eq_add_of_le h
    rw [proceed_add, hz, proceed_of_none hzend] at hy
    exact hy.symm

theorem proceed_succ {s s' : σ} {k k' : κ} (h : M.next s k d = some (s', k')) (n : ℕ) :
    M.proceed d (n + 1) (s, k) = M.proceed d n (s', k') := by
  rw [proceed]
  simp only [h]

/-- A call that runs by itself comes to its end, with the same draw at every statement. -/
def Ends (M : Machine σ κ δ ε) (d : δ) (x y : σ × κ) : Prop :=
  ∃ n, M.proceed d n x = y ∧ M.next y.1 y.2 d = none

theorem Ends.of_none {s : σ} {k : κ} (h : M.next s k d = none) : M.Ends d (s, k) (s, k) :=
  ⟨0, rfl, h⟩

theorem Ends.of_next {s s' : σ} {k k' : κ} {y : σ × κ} (h : M.next s k d = some (s', k'))
    (hend : M.Ends d (s', k') y) : M.Ends d (s, k) y := by
  obtain ⟨n, hn, hnone⟩ := hend
  exact ⟨n + 1, (proceed_succ h n).trans hn, hnone⟩

theorem Ends.unique {x y z : σ × κ} (hy : M.Ends d x y) (hz : M.Ends d x z) : y = z := by
  obtain ⟨m, hm, hynone⟩ := hy
  obtain ⟨n, hn, hznone⟩ := hz
  exact proceed_end hm hn hynone hznone

/-! ### Whatever it draws -/

/-- A call that runs by itself gets from one state to the other, by what it draws. -/
def Alone (M : Machine σ κ δ ε) (x y : σ × κ) : Prop :=
  Run (fun z d => M.next z.1 z.2 d) anyStep x y

theorem Alone.refl (x : σ × κ) : M.Alone x x := Run.refl

theorem Alone.next {s s' : σ} {k k' : κ} {d : δ} {x : σ × κ} (h : M.Alone x (s, k))
    (hn : M.next s k d = some (s', k')) : M.Alone x (s', k') :=
  Run.tail h trivial hn

/-- What every statement of the call keeps, the call keeps. -/
theorem Alone.invariant {I : σ × κ → Prop} {x y : σ × κ} (h₀ : I x)
    (hstep : ∀ s k d s' k', I (s, k) → M.next s k d = some (s', k') → I (s', k'))
    (h : M.Alone x y) : I y :=
  Run.invariant h₀ (fun t d u ht _ hu => hstep t.1 t.2 d u.1 u.2 ht hu) h

/-- What a call does by itself, it can do in a pool. -/
theorem Alone.run [DecidableEq ι] {G : Pool ι σ κ → Move ι δ ε → Prop} {p : Pool ι σ κ} {i : ι}
    {k k' : κ} {s' : σ} (hk : p.calls i = .up k) (hG : ∀ q d, G q (.run i d))
    (h : M.Alone (p.store, k) (s', k')) :
    Run (Pool.step M) G p ⟨s', Function.update p.calls i (.up k')⟩ := by
  suffices hrun : ∀ x : σ × κ, M.Alone (p.store, k) x →
      Run (Pool.step M) G p ⟨x.1, Function.update p.calls i (.up x.2)⟩ from hrun _ h
  intro x hx
  induction hx with
  | refl =>
    rw [← hk, Function.update_eq_self]
    exact .refl
  | @tail y z d _ _ hstep ih =>
    refine ih.tail (hG _ d) ?_
    rw [Pool.step_of_next (Function.update_self ..) hstep, Function.update_idem]

/-- The same for the calls of one service: what holds of the store and of the control point. -/
theorem Alone.part {κ' : Type*} {f : κ' → κ} (hf : Function.Injective f) {J : σ → Prop}
    {P : κ' → Prop} {s s' : σ} {pc pc' : κ'} (hJ : J s) (hP : P pc)
    (hstep : ∀ s pc d s' k', J s → P pc → M.next s (f pc) d = some (s', k') →
      ∃ pc', k' = f pc' ∧ J s' ∧ P pc')
    (h : M.Alone (s, f pc) (s', f pc')) : P pc' := by
  have hend := h.invariant (I := fun x => J x.1 ∧ ∃ pc, x.2 = f pc ∧ P pc) ⟨hJ, pc, rfl, hP⟩ (by
    rintro s k d s' k' ⟨hJ, pc, rfl, hP⟩ hn
    obtain ⟨pc', rfl, hJ', hP'⟩ := hstep s pc d s' k' hJ hP hn
    exact ⟨hJ', pc', rfl, hP'⟩)
  obtain ⟨-, pc₁, heq, hP₁⟩ := hend
  rw [hf heq]
  exact hP₁

end Machine

end Machinery

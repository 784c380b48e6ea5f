import WorkPlatform.Payment.Grace

/-!
# Payment/GraceStart — when a failure starts a grace period

    handlePaymentFailure   find      skips a suspended organisation, and one with a date
                           update    SET grace_period_ends_at … WHERE status = 'active'
                           outbox    org.grace_period_started
                           enqueue   check-grace-period, delayed by 7 days

`reactivateOrg` leaves `grace_period_ends_at` as it is, so the first failure after a suspension and
a manual reactivation is skipped (`failure_after_reactivation_skipped`).  And `find` passes an
organisation that is being offboarded, whose UPDATE then finds no row while event and job follow.

In runs where every activation clears the date, and a job reads an organisation that is active or
suspended and finds it active still at its UPDATE (`Renewed`), a failure of an active organisation
that has not failed since it became active sets the date; and event and job follow a date that was
set (`grace_period_starts`).
-/

namespace WorkPlatform.Payment

open Machinery

/-- The job is about to read the organisation, or to start its grace period. -/
def Call.failing (orgId : String) : Call → Bool
  | .handlePaymentFailure o .find | .handlePaymentFailure o .update => o = orgId
  | _ => false

/-- The job is past its UPDATE, with the event or the job still to write. -/
def Call.announcing (orgId : String) : Call → Bool
  | .handlePaymentFailure o .outbox | .handlePaymentFailure o .enqueue => o = orgId
  | _ => false

/-- The organisation after the next statement of a call. -/
def Store.rowAfter (s : Store) (c : Call) (orgId : String) : Option OrgRow :=
  written s.primary (c.orgWrite s.now) orgId

/-- What the statements of a job do that starts a grace period. -/
def GraceEffect (orgId : String) (s s' : Store) : FailurePc → FailurePc → Prop
  | .update, .outbox =>
    (s'.primary orgId).map (·.gracePeriodEndsAt) = some (some (s.now + Store.gracePeriod))
      ∧ s'.outbox = s.outbox ∧ s'.jobs = s.jobs
  | .outbox, .enqueue => s'.primary = s.primary
      ∧ s'.outbox = ⟨.orgGracePeriodStarted, orgId, orgId⟩ :: s.outbox ∧ s'.jobs = s.jobs
  | .enqueue, .returned => s'.primary = s.primary
      ∧ s'.outbox = s.outbox ∧ s'.jobs = .checkGracePeriod orgId Store.gracePeriod :: s.jobs
  | _, _ => False

section Steps

variable {cfg : Config} {s s' : Store} {c c' : Call} {orgId : String} {org : OrgRow}

/-! ## One statement -/

theorem setStatus_date (status : OrgStatus) (org : OrgRow) :
    (org.setStatus status).gracePeriodEndsAt = org.gracePeriodEndsAt := by
  unfold OrgRow.setStatus
  split <;> rfl

theorem date_transition {t : Transition} {o o' : String} {pc : TransitionPc} {f : OrgRow → OrgRow}
    (hw : pc.write t o = some (o', f)) (hdate : org.gracePeriodEndsAt = none) :
    (f org).gracePeriodEndsAt = none := by
  cases pc with
  | update v =>
    cases hw
    rw [setStatus_date, hdate]
  | _ => cases hw

/-- Only the UPDATE of a failure sets a date. -/
theorem date_write {now : ℕ} {f : OrgRow → OrgRow} (hw : c.orgWrite now = some (orgId, f))
    (hf : c.failing orgId = false) (hdate : org.gracePeriodEndsAt = none) :
    (f org).gracePeriodEndsAt = none := by
  cases c with
  | verifyPayment o orderId paymentId signature pc =>
    cases pc with
    | plan payment updated =>
      cases hw
      exact hdate
    | _ => cases hw
  | webhook event pc =>
    cases pc with
    | reactivate e =>
      cases hw
      unfold OrgRow.reactivate
      split
      · rfl
      · exact hdate
    | _ => cases hw
  | suspendOrg o pc | reactivateOrg o pc | startOffboarding o pc => exact date_transition hw hdate
  | handlePaymentFailure o pc =>
    cases pc with
    | update =>
      cases hw
      exact absurd rfl (of_decide_eq_false hf)
    | _ => cases hw
  | checkGracePeriod o pc =>
    cases pc with
    | suspend pc => exact date_transition hw hdate
    | _ => cases hw
  | offboard o pc =>
    cases pc with
    | update v =>
      cases hw
      exact hdate
    | _ => cases hw
  | runOffboardingJob o pc =>
    cases pc with
    | delete =>
      cases hw
      exact hdate
    | _ => cases hw

/-- An active organisation without a date has none afterwards. -/
theorem date_rowAfter {org' : OrgRow} (hf : c.failing orgId = false)
    (horg : s.primary orgId = some org) (hdate : org.gracePeriodEndsAt = none)
    (horg' : s.rowAfter c orgId = some org') : org'.gracePeriodEndsAt = none := by
  unfold Store.rowAfter at horg'
  cases hw : c.orgWrite s.now with
  | none =>
    rw [hw, written, horg] at horg'
    obtain rfl := Option.some.inj horg'
    exact hdate
  | some w =>
    obtain ⟨o, f⟩ := w
    rw [hw, written] at horg'
    by_cases ho : orgId = o
    · subst ho
      rw [Function.update_self, horg] at horg'
      obtain rfl := Option.some.inj horg'
      exact date_write hw hf hdate
    · rw [Function.update_of_ne ho, horg] at horg'
      obtain rfl := Option.some.inj horg'
      exact hdate

/-- Who comes to the UPDATE of a failure, has read an organisation that is not suspended. -/
theorem update_next (h : next cfg s c = some (s', .handlePaymentFailure orgId .update)) :
    c = .handlePaymentFailure orgId .find
      ∧ ∃ org, s.findOrgById orgId = some org ∧ org.status ≠ .suspended := by
  cases c with
  | handlePaymentFailure o pc =>
    obtain ⟨pc', hpc, heq⟩ := pc_of_next h
    obtain ⟨rfl, rfl⟩ := Call.handlePaymentFailure.inj heq
    cases pc with
    | find =>
      have hpc' := (Prod.mk.inj (Option.some.inj hpc)).2
      refine ⟨rfl, ?_⟩
      split at hpc'
      · cases hpc'
      · rename_i org hfind
        split at hpc'
        · cases hpc'
        · rename_i hskip
          exact ⟨org, hfind, fun hs => hskip (Or.inl hs)⟩
    | returned => cases hpc
    | _ => cases (Prod.mk.inj (Option.some.inj hpc)).2
  | _ =>
    obtain ⟨pc', -, heq⟩ := pc_of_next h
    cases heq

/-- Event and job are written by the one that has run its UPDATE. -/
theorem announcing_next (h : next cfg s c = some (s', c')) (hc' : c'.announcing orgId = true)
    (hc : c.announcing orgId = false) : c = .handlePaymentFailure orgId .update := by
  cases c with
  | handlePaymentFailure o pc =>
    obtain ⟨pc', hpc, rfl⟩ := pc_of_next h
    cases pc with
    | find =>
      obtain ⟨-, rfl⟩ := Prod.mk.inj (Option.some.inj hpc)
      split at hc'
      · cases hc'
      · split at hc' <;> cases hc'
    | update =>
      obtain ⟨-, rfl⟩ := Prod.mk.inj (Option.some.inj hpc)
      rw [of_decide_eq_true hc']
    | outbox =>
      obtain ⟨-, rfl⟩ := Prod.mk.inj (Option.some.inj hpc)
      exact absurd (of_decide_eq_true hc') (of_decide_eq_false hc)
    | enqueue =>
      obtain ⟨-, rfl⟩ := Prod.mk.inj (Option.some.inj hpc)
      cases hc'
    | returned => cases hpc
  | _ =>
    obtain ⟨pc', -, rfl⟩ := pc_of_next h
    cases hc'

theorem status_eq_some : s.status orgId = some .active ↔
    ∃ org, s.primary orgId = some org ∧ org.status = .active := by
  unfold Store.status
  rw [Option.map_eq_some_iff]

/-- A job past its reading does as it should, with its UPDATE where the organisation is active. -/
theorem graceEffect_next (cfg : Config) {pc : FailurePc} (hfind : pc ≠ .find)
    (hreturned : pc ≠ .returned) (hactive : pc = .update → s.status orgId = some .active) :
    ∃ s' pc', next cfg s (.handlePaymentFailure orgId pc) =
        some (s', .handlePaymentFailure orgId pc') ∧ GraceEffect orgId s s' pc pc' := by
  cases pc with
  | find => exact absurd rfl hfind
  | update =>
    obtain ⟨org, horg, hstatus⟩ := status_eq_some.mp (hactive rfl)
    refine ⟨_, _, rfl, ?_, rfl, rfl⟩
    have hnext : next cfg s (.handlePaymentFailure orgId .update) =
      some ((s.startGracePeriod orgId).mark (.failure orgId s.now),
        .handlePaymentFailure orgId .outbox) := rfl
    rw [primary_next hnext, Call.orgWrite, written, Function.update_self, horg, Option.map_some,
      Option.map_some, OrgRow.startGrace, if_pos hstatus]
  | outbox | enqueue => exact ⟨_, _, rfl, rfl, rfl, rfl⟩
  | returned => exact absurd rfl hreturned

end Steps

/-! ## Runs -/

section Runs

variable {ι : Type*} {cfg : Config} {orgId : String}

/-- **Failures start from a clean slate**: an activation of the organisation leaves no date; a job
reads what the primary has, and an organisation that is active or suspended; and no organisation
leaves `active` while a job is on its way to its UPDATE. -/
def Renewed (orgId : String) (p : Calls ι) : Move ι Unit Env → Prop
  | .run i _ => (p.calls i).Keeps fun c =>
      (p.store.status orgId ≠ some .active →
        (p.store.rowAfter c orgId).all fun org => ¬ org.inGrace)
      ∧ (c = .handlePaymentFailure orgId .find → p.store.replica orgId = p.store.primary orgId
        ∧ (p.store.primary orgId).all fun org => org.status = .active ∨ org.status = .suspended)
      ∧ (p.store.status orgId = some .active →
        (∃ j, (p.calls j).Live (· = .handlePaymentFailure orgId .update)) →
        (p.store.rowAfter c orgId).map (·.status) = some .active)
  | _ => True

instance [Fintype ι] (p : Calls ι) : ∀ m : Move ι Unit Env, Decidable (Renewed orgId p m)
  | .run i _ => inferInstanceAs (Decidable ((p.calls i).Keeps fun c =>
      (p.store.status orgId ≠ some .active →
        (p.store.rowAfter c orgId).all fun org => ¬ org.inGrace)
      ∧ (c = .handlePaymentFailure orgId .find → p.store.replica orgId = p.store.primary orgId
        ∧ (p.store.primary orgId).all fun org => org.status = .active ∨ org.status = .suspended)
      ∧ (p.store.status orgId = some .active →
        (∃ j, (p.calls j).Live (· = .handlePaymentFailure orgId .update)) →
        (p.store.rowAfter c orgId).map (·.status) = some .active)))
  | .crash _ => inferInstanceAs (Decidable True)
  | .env _ => inferInstanceAs (Decidable True)

/-- No failure of the organisation is processed. -/
def Quiet (orgId : String) (p : Calls ι) : Move ι Unit Env → Prop
  | .run i _ => (p.calls i).Keeps fun c => c.failing orgId = false
  | _ => True

instance (p : Calls ι) : ∀ m : Move ι Unit Env, Decidable (Quiet orgId p m)
  | .run i _ => inferInstanceAs (Decidable ((p.calls i).Keeps fun c => c.failing orgId = false))
  | .crash _ => inferInstanceAs (Decidable True)
  | .env _ => inferInstanceAs (Decidable True)

/-- The organisation is not active with a date. -/
def Undated (orgId : String) (p : Calls ι) : Prop :=
  ∀ org, p.store.primary orgId = some org → org.inGrace = false

/-- Who is about to start the grace period, finds the organisation active. -/
def Awaited (orgId : String) (p : Calls ι) : Prop :=
  ∀ i, (p.calls i).Live (· = .handlePaymentFailure orgId .update) →
    p.store.status orgId = some .active

variable [DecidableEq ι] {p q a : Calls ι} {i : ι}

/-- An activation leaves no date. -/
theorem undated_of_activation {m : Move ι Unit Env} (hG : Renewed orgId p m)
    (hstep : p.step (paymentMachine cfg) m = some q) (hbefore : p.store.status orgId ≠ some .active)
    (hafter : q.store.status orgId = some .active) : Undated orgId q := by
  cases m with
  | run i d =>
    obtain ⟨c, s', c', hc, hnext, rfl⟩ := Pool.step_run hstep
    rw [Renewed, hc] at hG
    intro org horg
    have hnone := hG.1 hbefore
    rw [Store.rowAfter, ← primary_next hnext, horg] at hnone
    simpa using hnone
  | crash i =>
    obtain ⟨c, -, rfl⟩ := Pool.step_crash hstep
    exact absurd hafter hbefore
  | env e =>
    obtain rfl := Option.some.inj hstep
    cases e <;> exact absurd hafter hbefore

/-- An organisation of which nothing is heard is not in grace, in every state of such a run. -/
theorem undated_run (hI : Undated orgId p)
    (h : Run (Pool.step (paymentMachine cfg)) (fun p m => Renewed orgId p m ∧ Quiet orgId p m) p q) :
    Undated orgId q := by
  refine Pool.invariant (I := Undated orgId) hI ?_ ?_ ?_ h
  · rintro p i d c s' c' hI ⟨hG, hquiet⟩ hc hnext org' horg'
    rw [Renewed, hc] at hG
    rw [Quiet, hc] at hquiet
    dsimp only at horg'
    rw [primary_next hnext] at horg'
    by_cases hactive : p.store.status orgId = some .active
    · obtain ⟨org, horg, hstatus⟩ := status_eq_some.mp hactive
      have hdate : org.gracePeriodEndsAt = none := by
        simpa [OrgRow.inGrace, hstatus] using hI org horg
      simp [OrgRow.inGrace, date_rowAfter hquiet horg hdate horg']
    · have hnone := hG.1 hactive
      rw [Store.rowAfter, horg'] at hnone
      simpa using hnone
  · intro p i c hI _ _
    exact hI
  · rintro p (_ | _) hI - <;> exact hI

/-- Who is about to start a grace period finds the organisation active, in every state of such a
run. -/
theorem awaited_run (hI : Awaited orgId p)
    (h : Run (Pool.step (paymentMachine cfg)) (Renewed orgId) p q) : Awaited orgId q := by
  refine Pool.invariant (I := Awaited orgId) hI ?_ ?_ ?_ h
  · intro p i d c s' c' hI hG hc hnext j hj
    rw [Renewed, hc] at hG
    obtain ⟨-, hread, hstay⟩ := hG
    have hafter : s'.status orgId = (p.store.rowAfter c orgId).map (·.status) := by
      rw [Store.status, primary_next hnext]
      rfl
    rcases live_update_up hj with ⟨-, hself⟩ | ⟨-, hother⟩
    · obtain rfl : c' = .handlePaymentFailure orgId .update := hself
      obtain ⟨rfl, org, hfind, hstatus⟩ := update_next hnext
      obtain ⟨hreplica, hstatuses⟩ := hread rfl
      unfold Store.findOrgById at hfind
      rw [hreplica] at hfind
      have horg := (Option.filter_eq_some_iff.mp hfind).1
      rw [horg] at hstatuses
      have hactive : org.status = .active := by
        have hor : org.status = .active ∨ org.status = .suspended := by simpa using hstatuses
        exact hor.resolve_right hstatus
      obtain ⟨rfl, -⟩ := Prod.mk.inj (Option.some.inj hnext)
      exact status_eq_some.mpr ⟨org, horg, hactive⟩
    · exact hafter.trans (hstay (hI j hother) ⟨j, hother⟩)
  · intro p i c hI _ _ j hj
    exact hI j (live_update_down hj).2
  · rintro p (_ | _) hI - <;> exact hI

theorem not_failing_of_fresh {c : Call} (h : c.fresh = true) :
    c ≠ .handlePaymentFailure orgId .update ∧ c.announcing orgId = false := by
  unfold Call.fresh at h
  split at h <;> first | exact ⟨nofun, rfl⟩ | cases h

/-- A job that has event or job still to write has set the date. -/
theorem date_set_of_announcing (hstart : ∀ i, (p.calls i).Live fun c => c.fresh)
    (h : Run (Pool.step (paymentMachine cfg)) (Renewed orgId) p q)
    (hq : (q.calls i).Live fun c => c.announcing orgId) :
    ∃ u v, Run (Pool.step (paymentMachine cfg)) (Renewed orgId) p u
      ∧ u.calls i = .up (.handlePaymentFailure orgId .update)
      ∧ u.step (paymentMachine cfg) (.run i ()) = some v
      ∧ Run (Pool.step (paymentMachine cfg)) (Renewed orgId) v q := by
  have hnone : ¬ (p.calls i).Live fun c => c.announcing orgId := by
    obtain ⟨c, hc, hfresh⟩ := (hstart i).exists
    rw [hc, Proc.live_up, (not_failing_of_fresh hfresh).2]
    exact Bool.false_ne_true
  obtain ⟨u, m, v, hu, -, hstep, hbefore, hafter, hrest⟩ :=
    h.entered (B := fun x : Calls ι => (x.calls i).Live fun c => c.announcing orgId) hnone hq
  refine ⟨u, v, hu, ?_⟩
  cases m with
  | run j d =>
    obtain ⟨c, s', c', hc, hnext, rfl⟩ := Pool.step_run hstep
    rcases live_update_up hafter with ⟨rfl, hself⟩ | ⟨-, hother⟩
    · rw [hc] at hbefore
      obtain rfl := announcing_next hnext hself (eq_false_of_ne_true hbefore)
      exact ⟨hc, hstep, hrest⟩
    · exact absurd hother hbefore
  | crash j =>
    obtain ⟨c, -, rfl⟩ := Pool.step_crash hstep
    exact absurd (live_update_down hafter).2 hbefore
  | env e =>
    obtain rfl := Option.some.inj hstep
    exact absurd hafter hbefore

/-- **A failure starts a grace period.**  Where an active organisation has not failed since the
start or since it became active, a job that reads it goes on to its UPDATE.  A job past its reading
sets the date, writes one event and enqueues one check, statement by statement; and it has set the
date where it is about to write the others. -/
theorem grace_period_starts (hstart : ∀ i, (p.calls i).Live fun c => c.fresh)
    (h₀ : ∀ org, p.store.primary orgId = some org → org.inGrace = false) :
    (∀ a q i, (a = p ∨ ∃ b m, Run (Pool.step (paymentMachine cfg)) (Renewed orgId) p b
          ∧ Renewed orgId b m ∧ b.step (paymentMachine cfg) m = some a
          ∧ b.store.status orgId ≠ some .active ∧ a.store.status orgId = some .active) →
        Run (Pool.step (paymentMachine cfg)) (fun p m => Renewed orgId p m ∧ Quiet orgId p m) a q →
        (∃ org, q.store.primary orgId = some org ∧ org.status = .active ∧ org.deleted = false) →
        q.calls i = .up (.handlePaymentFailure orgId .find) → Renewed orgId q (.run i ()) →
        q.step (paymentMachine cfg) (.run i ()) = some
          ⟨q.store, Function.update q.calls i (.up (.handlePaymentFailure orgId .update))⟩)
    ∧ (∀ q i pc, Run (Pool.step (paymentMachine cfg)) (Renewed orgId) p q →
        q.calls i = .up (.handlePaymentFailure orgId pc) → pc ≠ .find → pc ≠ .returned →
        ∃ s' pc', q.step (paymentMachine cfg) (.run i ()) = some
            ⟨s', Function.update q.calls i (.up (.handlePaymentFailure orgId pc'))⟩
          ∧ GraceEffect orgId q.store s' pc pc')
    ∧ (∀ q i, Run (Pool.step (paymentMachine cfg)) (Renewed orgId) p q →
        ((q.calls i).Live fun c => c.announcing orgId) →
        ∃ u v, Run (Pool.step (paymentMachine cfg)) (Renewed orgId) p u
          ∧ u.calls i = .up (.handlePaymentFailure orgId .update)
          ∧ u.step (paymentMachine cfg) (.run i ()) = some v
          ∧ GraceEffect orgId u.store v.store .update .outbox
          ∧ Run (Pool.step (paymentMachine cfg)) (Renewed orgId) v q) := by
  have hawaited : Awaited orgId p := by
    intro i hi
    obtain ⟨c, hc, hfresh⟩ := (hstart i).exists
    rw [hc] at hi
    exact absurd hi (not_failing_of_fresh hfresh).1
  -- the UPDATE of a job finds the organisation active
  have hactive : ∀ q i pc, Run (Pool.step (paymentMachine cfg)) (Renewed orgId) p q →
      q.calls i = .up (.handlePaymentFailure orgId pc) → pc = .update →
      q.store.status orgId = some .active := by
    rintro q i _ hq hi rfl
    refine awaited_run hawaited hq i ?_
    rw [hi]
    rfl
  refine ⟨?_, ?_, ?_⟩
  · rintro a q i hbegins hq ⟨org, horg, hstatus, hdeleted⟩ hi hG
    have hundated : Undated orgId q := by
      refine undated_run ?_ hq
      rcases hbegins with rfl | ⟨b, m, -, hGb, hstep, hbefore, hafter⟩
      · exact h₀
      · exact undated_of_activation hGb hstep hbefore hafter
    have hdate : org.gracePeriodEndsAt = none := by
      simpa [OrgRow.inGrace, hstatus] using hundated org horg
    rw [Renewed, hi] at hG
    have hread : q.store.findOrgById orgId = some org := by
      rw [Store.findOrgById, (hG.2.1 rfl).1, horg]
      simp [hdeleted]
    refine Pool.step_of_next hi ?_
    simp [paymentMachine, next, failureNext, hread, hstatus, hdate]
  · intro q i pc hq hi hfind hreturned
    obtain ⟨s', pc', hnext, heffect⟩ :=
      graceEffect_next cfg hfind hreturned (hactive q i pc hq hi)
    exact ⟨s', pc', Pool.step_of_next hi hnext, heffect⟩
  · intro q i hq hannouncing
    obtain ⟨u, v, hu, hcall, hstep, hv⟩ := date_set_of_announcing hstart hq hannouncing
    have hfind : FailurePc.update ≠ .find := by rintro ⟨⟩
    have hreturned : FailurePc.update ≠ .returned := by rintro ⟨⟩
    obtain ⟨s', pc', hnext, heffect⟩ :=
      graceEffect_next cfg hfind hreturned (hactive u i .update hu hcall)
    obtain rfl := Option.some.inj ((Pool.step_of_next hcall hnext).symm.trans hstep)
    obtain rfl : pc' = .outbox := by
      cases pc' with
      | outbox => rfl
      | _ => exact heffect.elim
    exact ⟨u, _, hu, hcall, hstep, heffect, hv⟩

end Runs

/-! ## A failure, a suspension, a reactivation, and the next failure -/

/-- An active organisation fails, is suspended and reactivated by hand, and fails again. -/
def failedTwice : Calls (Fin 4) where
  store := demoStore ⟨⟨.active, false⟩, none, .free⟩
  calls := ![.up (.handlePaymentFailure "o" .find), .up (.suspendOrg "o" .find),
    .up (.reactivateOrg "o" .find), .up (.handlePaymentFailure "o" .find)]

/-- **The first failure after a reactivation is skipped**: the date of the failure before the
suspension is still there. -/
theorem failure_after_reactivation_skipped :
    (∀ i, (failedTwice.calls i).Live fun c => c.fresh)
      ∧ (∀ org, failedTwice.store.primary "o" = some org → org.inGrace = false)
      ∧ ∃ b a q r, Run (Pool.step (paymentMachine demoConfig)) anyStep failedTwice b
        ∧ b.step (paymentMachine demoConfig) (.run 2 () : Move (Fin 4) Unit Env) = some a
        ∧ b.store.status "o" = some .suspended ∧ a.store.status "o" = some .active
        ∧ Run (Pool.step (paymentMachine demoConfig)) (Quiet "o") a q
        ∧ q.store.primary "o" = some ⟨⟨.active, false⟩, some Store.gracePeriod, .free⟩
        ∧ q.store.replica "o" = q.store.primary "o"
        ∧ q.calls 3 = .up (.handlePaymentFailure "o" .find)
        ∧ q.step (paymentMachine demoConfig) (.run 3 () : Move (Fin 4) Unit Env) = some r
        ∧ r.calls 3 = .up (.handlePaymentFailure "o" .returned) := by
  refine ⟨by decide, ?_, ?_⟩
  · rintro org h
    obtain rfl : (⟨⟨.active, false⟩, none, .free⟩ : OrgRow) = org := Option.some.inj h
    rfl
  obtain ⟨b, a, hb, -, ha, h⟩ := exists_step_of_exec (Pool.step (paymentMachine demoConfig)) anyStep
    failedTwice (List.flatten [List.replicate 4 (.run 0 ()), [.env .replicate],
      List.replicate 4 (.run 1 ()), [.env .replicate, .run 2 ()]]) (.run 2 ())
    (fun b a => b.store.status "o" = some .suspended ∧ a.store.status "o" = some .active
      ∧ (exec (Pool.step (paymentMachine demoConfig)) (Quiet "o") a [.env .replicate]).any fun q =>
        q.store.primary "o" = some ⟨⟨.active, false⟩, some Store.gracePeriod, .free⟩
          ∧ q.store.replica "o" = q.store.primary "o"
          ∧ q.calls 3 = .up (.handlePaymentFailure "o" .find)
          ∧ (q.step (paymentMachine demoConfig) (.run 3 () : Move (Fin 4) Unit Env)).any fun r =>
            r.calls 3 = .up (.handlePaymentFailure "o" .returned)) (by decide)
  obtain ⟨hsuspended, hactive, hexec⟩ := of_decide_eq_true h
  obtain ⟨q, hq, h⟩ := exists_run_of_exec _ _ _ _ _ hexec
  obtain ⟨hrow, hreplica, hcall, hstep⟩ := of_decide_eq_true h
  obtain ⟨r, hr, hreturned⟩ := (Option.any_eq_true _ _).mp hstep
  exact ⟨b, a, q, r, hb, ha, hsuspended, hactive, hq, hrow, hreplica, hcall, hr,
    of_decide_eq_true hreturned⟩

/-- A suspended organisation with the date of an old failure: a payment is captured, and another
one fails. -/
def paidThenFailed : Calls (Fin 2) where
  store := { demoOrder with
    primary := (demoStore ⟨⟨.suspended, false⟩, some 0, .free⟩).primary
    replica := (demoStore ⟨⟨.suspended, false⟩, some 0, .free⟩).primary }
  calls := ![.up (.webhook (.paymentCaptured "pay" (some "order")) .get),
    .up (.handlePaymentFailure "o" .find)]

/-- The webhook clears the date, and the failure starts a new grace period. -/
theorem failure_after_payment_starts :
    ∃ a q r, a.store.status "o" = some .active
      ∧ Run (Pool.step (paymentMachine demoConfig))
        (fun p m => Renewed "o" p m ∧ Quiet "o" p m) a q
      ∧ q.step (paymentMachine demoConfig) (.run 1 () : Move (Fin 2) Unit Env) = some r
      ∧ r.calls 1 = .up (.handlePaymentFailure "o" .update) := by
  obtain ⟨b, a, hb, hG, ha, h⟩ := exists_step_of_exec (Pool.step (paymentMachine demoConfig))
    (Renewed "o") paidThenFailed (List.replicate 3 (.run 0 ())) (.run 0 ())
    (fun b a => b.store.status "o" ≠ some .active ∧ a.store.status "o" = some .active
      ∧ (exec (Pool.step (paymentMachine demoConfig)) (fun p m => Renewed "o" p m ∧ Quiet "o" p m) a
        [.run 0 (), .run 0 (), .env .replicate]).any fun q =>
          q.store.primary "o" = some ⟨⟨.active, false⟩, none, .free⟩
            ∧ q.calls 1 = .up (.handlePaymentFailure "o" .find) ∧ Renewed "o" q (.run 1 ()))
    (by decide)
  obtain ⟨hsuspended, hactive, hexec⟩ := of_decide_eq_true h
  obtain ⟨q, hq, h⟩ := exists_run_of_exec _ _ _ _ _ hexec
  obtain ⟨hrow, hcall, hGq⟩ := of_decide_eq_true h
  have hstart : ∀ org, paidThenFailed.store.primary "o" = some org → org.inGrace = false := by
    intro org h
    obtain rfl : (⟨⟨.suspended, false⟩, some 0, .free⟩ : OrgRow) = org := Option.some.inj h
    rfl
  have hstep := (grace_period_starts (by decide) hstart).1 a q 1
    (Or.inr ⟨b, _, hb, hG, ha, hsuspended, hactive⟩) hq ⟨_, hrow, rfl, rfl⟩ hcall hGq
  refine ⟨a, q, _, hactive, hq, hstep, ?_⟩
  dsimp only
  exact Function.update_self _ _ _

end WorkPlatform.Payment

import Mathlib.Data.Fin.VecNotation
import WorkPlatform.Payment.Status

/-!
# Payment/Grace — the grace period after a failed payment

    payment.failed ▸ handlePaymentFailure   sets grace_period_ends_at, 7 days ahead
                     checkGracePeriod       suspends an active organisation whose grace is over

`verifyPayment` and a manual reactivation leave `grace_period_ends_at` as it is, and the webhook
clears it only where the organisation is suspended.  So the grace of an old failure outlives the
payment that settled it, and the delayed check suspends an organisation that has paid
(`paid_organisation_suspended`).

As long as no capture or reactivation leaves an active organisation with a grace period, or falls
between the read of a check and its UPDATE, and the check reads what the primary has
(`Settled`), only failures that nothing has settled for 7 days suspend (`suspended_unpaid`).
-/

namespace WorkPlatform.Payment

open Machinery

/-! ## Failures nothing has settled -/

/-- The times of the failures processed since the organisation's last capture or reactivation. -/
def unpaidSince (orgId : String) : List Milestone → List ℕ
  | [] => []
  | .failure o time :: ms =>
    if o = orgId then time :: unpaidSince orgId ms else unpaidSince orgId ms
  | .recovery o :: ms => if o = orgId then [] else unpaidSince orgId ms

/-- Some failure was processed at least 7 days ago, and no capture or reactivation after it. -/
def Store.Overdue (s : Store) (orgId : String) : Prop :=
  ∃ time ∈ unpaidSince orgId s.milestones, time + Store.gracePeriod ≤ s.now

instance (s : Store) (orgId : String) : Decidable (s.Overdue orgId) :=
  inferInstanceAs (Decidable (∃ time ∈ unpaidSince orgId s.milestones, _))

/-- The organisation whose capture or reactivation the next statement of a call is. -/
def Call.recovers (s : Store) : Call → Option String
  | .verifyPayment orgId _ _ _ (.capture _) => some orgId
  | .webhook _ (.capture _ _ payment) => some payment.orgId
  | .webhook _ (.reactivate e) =>
    if (s.primary e.orgId).any (·.status = .suspended) then some e.orgId else none
  | .reactivateOrg orgId (.update _) => some orgId
  | _ => none

/-- A check that has found the grace period over and has not suspended yet. -/
def Call.suspending (orgId : String) : Call → Bool
  | .checkGracePeriod o (.suspend .find) | .checkGracePeriod o (.suspend (.update _)) => o = orgId
  | _ => false

/-- An organisation that is active with a grace period. -/
def OrgRow.inGrace (org : OrgRow) : Bool := org.status = .active ∧ org.gracePeriodEndsAt.isSome

section Steps

variable {cfg : Config} {s s' : Store} {c c' : Call} {orgId : String}

/-- What a statement puts on record: nothing, a recovery or a failure.  It takes no time. -/
inductive Marks (s s' : Store) (c : Call) : Prop
  | none (hnow : s'.now = s.now) (h : s'.milestones = s.milestones)
  | recovery {o : String} (hnow : s'.now = s.now) (hr : c.recovers s = some o)
      (h : s'.milestones = .recovery o :: s.milestones)
  | failure {o : String} (hnow : s'.now = s.now) (hc : c = .handlePaymentFailure o .update)
      (h : s'.milestones = .failure o s.now :: s.milestones)

/-- The three services; only a reactivation is a recovery. -/
theorem marks_transition {t : Transition} {o : String} {pc pc' : TransitionPc}
    (h : transitionNext t s o pc = some (s', pc'))
    (hr : ∀ v, t.target = .active → pc = .update v → c.recovers s = some o) : Marks s s' c := by
  cases pc with
  | update v =>
    obtain ⟨rfl, -⟩ := Prod.mk.inj (Option.some.inj h)
    split
    · rename_i ht
      exact .recovery rfl (hr v ht rfl) rfl
    · exact .none rfl rfl
  | returned | threw _ => cases h
  | _ =>
    obtain ⟨rfl, -⟩ := Prod.mk.inj (Option.some.inj h)
    exact .none rfl rfl

/-- A payment is settled by its capture. -/
theorem marks_verify {o orderId paymentId signature : String} {pc pc' : VerifyPc}
    (h : verifyNext cfg s o orderId paymentId signature pc = some (s', pc')) :
    Marks s s' (.verifyPayment o orderId paymentId signature pc) := by
  cases pc with
  | capture payment =>
    rw [verifyNext] at h
    split at h
    · obtain ⟨rfl, -⟩ := Prod.mk.inj (Option.some.inj h)
      exact .none rfl rfl
    · split at h <;> obtain ⟨rfl, -⟩ := Prod.mk.inj (Option.some.inj h)
      · exact .none rfl rfl
      · exact .recovery rfl rfl rfl
  | subscribe payment updated =>
    obtain ⟨rfl, -⟩ := Prod.mk.inj (Option.some.inj h)
    unfold Store.upsertSubscription
    split <;> exact .none rfl rfl
  | returned _ | threw _ | failed => cases h
  | _ =>
    obtain ⟨rfl, -⟩ := Prod.mk.inj (Option.some.inj h)
    exact .none rfl rfl

/-- An event settles a payment by its capture, or reactivates the organisation. -/
theorem marks_webhook {event : WebhookEvent} {pc pc' : WebhookPc}
    (h : webhookNext cfg s event pc = some (s', pc')) : Marks s s' (.webhook event pc) := by
  cases pc with
  | capture id orderId payment =>
    rw [webhookNext] at h
    split at h <;> obtain ⟨rfl, -⟩ := Prod.mk.inj (Option.some.inj h)
    · exact .none rfl rfl
    · exact .recovery rfl rfl rfl
  | fail _ _ | outbox _ =>
    rw [webhookNext] at h
    split at h <;> (obtain ⟨rfl, -⟩ := Prod.mk.inj (Option.some.inj h); exact .none rfl rfl)
  | reactivate e =>
    obtain ⟨rfl, -⟩ := Prod.mk.inj (Option.some.inj h)
    split
    · rename_i hs
      exact .recovery rfl (if_pos hs) rfl
    · exact .none rfl rfl
  | received | failed => cases h
  | _ =>
    obtain ⟨rfl, -⟩ := Prod.mk.inj (Option.some.inj h)
    exact .none rfl rfl

/-- **One statement, seen from the record.** -/
theorem marks_next (h : next cfg s c = some (s', c')) : Marks s s' c := by
  cases c with
  | verifyPayment o orderId paymentId signature pc =>
    obtain ⟨pc', hpc, -⟩ := pc_of_next h
    exact marks_verify hpc
  | webhook event pc =>
    obtain ⟨pc', hpc, -⟩ := pc_of_next h
    exact marks_webhook hpc
  | suspendOrg o pc | startOffboarding o pc =>
    obtain ⟨pc', hpc, -⟩ := pc_of_next h
    refine marks_transition hpc ?_
    rintro v ⟨⟩
  | reactivateOrg o pc =>
    obtain ⟨pc', hpc, -⟩ := pc_of_next h
    refine marks_transition hpc fun v _ hv => ?_
    rw [hv]
    rfl
  | handlePaymentFailure o pc =>
    obtain ⟨pc', hpc, -⟩ := pc_of_next h
    cases pc with
    | update =>
      obtain ⟨rfl, -⟩ := Prod.mk.inj (Option.some.inj hpc)
      exact .failure rfl rfl rfl
    | returned => cases hpc
    | _ =>
      obtain ⟨rfl, -⟩ := Prod.mk.inj (Option.some.inj hpc)
      exact .none rfl rfl
  | checkGracePeriod o pc =>
    obtain ⟨pc', hpc, -⟩ := pc_of_next h
    cases pc with
    | find =>
      obtain ⟨rfl, -⟩ := Prod.mk.inj (Option.some.inj hpc)
      exact .none rfl rfl
    | suspend pc =>
      obtain ⟨pc'', hsuspend, -⟩ := pc_of_next hpc
      refine marks_transition hsuspend ?_
      rintro v ⟨⟩
    | returned => cases hpc
  | offboard o pc =>
    obtain ⟨pc', hpc, -⟩ := pc_of_next h
    cases pc with
    | accepted | threw _ => cases hpc
    | _ =>
      obtain ⟨rfl, -⟩ := Prod.mk.inj (Option.some.inj hpc)
      exact .none rfl rfl
  | runOffboardingJob o pc =>
    obtain ⟨pc', hpc, -⟩ := pc_of_next h
    cases pc with
    | returned => cases hpc
    | _ =>
      obtain ⟨rfl, -⟩ := Prod.mk.inj (Option.some.inj hpc)
      exact .none rfl rfl

theorem Marks.now (h : Marks s s' c) : s'.now = s.now := by
  cases h <;> assumption

/-- A statement that settles nothing for the organisation and is no failure of its leaves its
failures as they are. -/
theorem Marks.unpaidSince (h : Marks s s' c) (hr : c.recovers s ≠ some orgId)
    (hf : c ≠ .handlePaymentFailure orgId .update) :
    unpaidSince orgId s'.milestones = unpaidSince orgId s.milestones := by
  cases h with
  | none _ h => rw [h]
  | @recovery o _ ho h =>
    have hne : o ≠ orgId := by
      rintro rfl
      exact hr ho
    rw [h, Payment.unpaidSince, if_neg hne]
  | @failure o _ hc h =>
    have hne : o ≠ orgId := by
      rintro rfl
      exact hf hc
    rw [h, Payment.unpaidSince, if_neg hne]

theorem inGrace_setStatus {org : OrgRow} {status : OrgStatus} (hne : status ≠ .active)
    (h : (org.setStatus status).inGrace = true) : org.setStatus status = org := by
  unfold OrgRow.setStatus at h ⊢
  split at h
  · rename_i hd
    rw [if_pos hd]
  · simp [OrgRow.inGrace, hne] at h

theorem inGrace_transition {t : Transition} {o o' : String} {pc : TransitionPc}
    {f : OrgRow → OrgRow} {org : OrgRow} (hw : pc.write t o = some (o', f))
    (ht : t.target ≠ .active) (hg : (f org).inGrace = true) : f org = org := by
  cases pc with
  | update v =>
    cases hw
    exact inGrace_setStatus ht hg
  | _ => cases hw

/-- A write that settles nothing and starts no grace period leaves an organisation in its grace
period as it is, but for the plan. -/
theorem inGrace_write {now : ℕ} {f : OrgRow → OrgRow} {org : OrgRow}
    (hw : c.orgWrite now = some (orgId, f)) (horg : s.primary orgId = some org)
    (hr : c.recovers s ≠ some orgId) (hf : c ≠ .handlePaymentFailure orgId .update)
    (hg : (f org).inGrace = true) :
    org.inGrace = true ∧ org.gracePeriodEndsAt = (f org).gracePeriodEndsAt := by
  have hsame : f org = org →
      org.inGrace = true ∧ org.gracePeriodEndsAt = (f org).gracePeriodEndsAt := by
    intro heq
    rw [heq] at hg ⊢
    exact ⟨hg, rfl⟩
  cases c with
  | verifyPayment o orderId paymentId signature pc =>
    cases pc with
    | plan payment updated =>
      cases hw
      exact ⟨hg, rfl⟩
    | _ => cases hw
  | webhook event pc =>
    cases pc with
    | reactivate e =>
      cases hw
      refine hsame (if_neg fun hs => hr ?_)
      rw [Call.recovers, horg, if_pos (by simp [hs])]
    | _ => cases hw
  | suspendOrg o pc | startOffboarding o pc => exact hsame (inGrace_transition hw nofun hg)
  | reactivateOrg o pc =>
    cases pc with
    | update v =>
      cases hw
      exact absurd rfl hr
    | _ => cases hw
  | handlePaymentFailure o pc =>
    cases pc with
    | update =>
      cases hw
      exact absurd rfl hf
    | _ => cases hw
  | checkGracePeriod o pc =>
    cases pc with
    | suspend pc => exact hsame (inGrace_transition hw nofun hg)
    | _ => cases hw
  | offboard o pc =>
    cases pc with
    | update v =>
      cases hw
      simp [OrgRow.inGrace] at hg
    | _ => cases hw
  | runOffboardingJob o pc =>
    cases pc with
    | delete =>
      cases hw
      simp [OrgRow.inGrace] at hg
    | _ => cases hw

/-- **One statement, seen from the grace period**: unless it settles or starts one, an organisation
is in its grace period afterwards only as it was before. -/
theorem inGrace_next {org' : OrgRow} (h : next cfg s c = some (s', c'))
    (hr : c.recovers s ≠ some orgId) (hf : c ≠ .handlePaymentFailure orgId .update)
    (horg' : s'.primary orgId = some org') (hg : org'.inGrace = true) :
    ∃ org, s.primary orgId = some org ∧ org.inGrace = true
      ∧ org.gracePeriodEndsAt = org'.gracePeriodEndsAt := by
  rw [primary_next h] at horg'
  cases hw : c.orgWrite s.now with
  | none =>
    rw [hw] at horg'
    exact ⟨org', horg', hg, rfl⟩
  | some w =>
    obtain ⟨o, f⟩ := w
    rw [hw, written] at horg'
    by_cases ho : orgId = o
    · subst ho
      rw [Function.update_self] at horg'
      obtain ⟨org, horg, rfl⟩ := Option.map_eq_some_iff.mp horg'
      exact ⟨org, horg, inGrace_write hw horg hr hf hg⟩
    · rw [Function.update_of_ne ho] at horg'
      exact ⟨org', horg', hg, rfl⟩

/-- A check goes on to suspend only what it has found over, or had found over before. -/
theorem suspending_next (h : next cfg s c = some (s', c')) (hc' : c'.suspending orgId = true) :
    c.suspending orgId = true ∨ c = .checkGracePeriod orgId .find
      ∧ ∃ org, s.findOrgById orgId = some org ∧ graceExpired s.now org = true := by
  cases c with
  | checkGracePeriod o pc =>
    obtain ⟨pc', hpc, rfl⟩ := pc_of_next h
    cases pc with
    | find =>
      obtain ⟨-, rfl⟩ := Prod.mk.inj (Option.some.inj hpc)
      split at hc'
      · rename_i hany
        obtain rfl := of_decide_eq_true hc'
        cases hfind : s.findOrgById o with
        | none => rw [hfind] at hany; cases hany
        | some org => rw [hfind] at hany; exact Or.inr ⟨rfl, org, rfl, hany⟩
      · cases hc'
    | suspend pc =>
      obtain ⟨pc'', hsuspend, rfl⟩ := pc_of_next hpc
      cases pc with
      | find =>
        refine Or.inl ?_
        cases pc'' with
        | update v => exact hc'
        | find => exact hc'
        | _ => cases hc'
      | returned | threw _ => cases hsuspend
      | _ =>
        obtain ⟨-, rfl⟩ := Prod.mk.inj (Option.some.inj hsuspend)
        cases hc'
    | returned => cases hpc
  | _ =>
    obtain ⟨pc', -, rfl⟩ := pc_of_next h
    cases hc'

theorem not_suspending_of_fresh (h : c.fresh = true) : c.suspending orgId = false := by
  unfold Call.fresh at h
  split at h <;> first | rfl | cases h

/-- A grace period that has expired is one, and over. -/
theorem inGrace_of_expired {now : ℕ} {org : OrgRow} (h : graceExpired now org = true) :
    org.inGrace = true ∧ ∀ endsAt, org.gracePeriodEndsAt = some endsAt → endsAt ≤ now := by
  obtain ⟨hactive, hends⟩ := of_decide_eq_true h
  cases hgrace : org.gracePeriodEndsAt with
  | none => rw [hgrace] at hends; cases hends
  | some endsAt =>
    rw [hgrace] at hends
    refine ⟨by simp [OrgRow.inGrace, hactive, hgrace], ?_⟩
    rintro _ ⟨⟩
    exact of_decide_eq_true hends

end Steps

/-! ## Runs -/

section Runs

variable {ι : Type*} {cfg : Config} {orgId : String}

/-- **Captures and reactivations settle the grace period**: none leaves the organisation active with
a grace period, or falls between the read of a check and its UPDATE; and a check reads the
organisation as the primary has it. -/
def Settled (orgId : String) (p : Calls ι) : Move ι Unit Env → Prop
  | .run i _ => (p.calls i).Keeps fun c =>
      (c.recovers p.store = some orgId →
        (written p.store.primary (c.orgWrite p.store.now) orgId).all (fun org => ¬ org.inGrace)
          ∧ ∀ j, ¬ (p.calls j).Live fun c => c.suspending orgId)
      ∧ (c = .checkGracePeriod orgId .find → p.store.replica orgId = p.store.primary orgId)
  | _ => True

/-- What settled runs keep: the grace period of an active organisation is that of a failure nothing
has settled, and a check on its way to its UPDATE has found one that is over. -/
structure GraceInv (orgId : String) (p : Calls ι) : Prop where
  grace : ∀ org, p.store.primary orgId = some org → org.inGrace = true →
    ∃ time ∈ unpaidSince orgId p.store.milestones,
      org.gracePeriodEndsAt = some (time + Store.gracePeriod)
  checks : ∀ i, (p.calls i).Live (fun c => c.suspending orgId) → p.store.Overdue orgId

theorem graceInv_of_fresh {p : Calls ι} (hstart : ∀ i, (p.calls i).Live fun c => c.fresh)
    (h₀ : ∀ org, p.store.primary orgId = some org → org.gracePeriodEndsAt = none) :
    GraceInv orgId p := by
  refine ⟨fun org horg hg => ?_, fun i hi => ?_⟩
  · simp [OrgRow.inGrace, h₀ org horg] at hg
  · obtain ⟨c, hc, hfresh⟩ := (hstart i).exists
    rw [hc, Proc.live_up, not_suspending_of_fresh hfresh] at hi
    cases hi

variable [DecidableEq ι] {c c' : Call} {s' : Store}

omit [DecidableEq ι] in
/-- What a check that reads the organisation now goes on with. -/
theorem GraceInv.overdue_of_expired {p : Calls ι} {org : OrgRow} (h : GraceInv orgId p)
    (hcurrent : p.store.replica orgId = p.store.primary orgId)
    (hfind : p.store.findOrgById orgId = some org) (hexp : graceExpired p.store.now org = true) :
    p.store.Overdue orgId := by
  unfold Store.findOrgById at hfind
  rw [hcurrent] at hfind
  have horg := (Option.filter_eq_some_iff.mp hfind).1
  obtain ⟨hg, hends⟩ := inGrace_of_expired hexp
  obtain ⟨time, htime, hgrace⟩ := h.grace org horg hg
  exact ⟨time, htime, hends _ hgrace⟩

/-- A capture or a reactivation. -/
theorem GraceInv.recover {p : Calls ι} {i : ι} (hi : p.calls i = .up c)
    (hn : next cfg p.store c = some (s', c')) (hr : c.recovers p.store = some orgId)
    (hnone : (written p.store.primary (c.orgWrite p.store.now) orgId).all
      (fun org => ¬ org.inGrace))
    (hidle : ∀ j, ¬ (p.calls j).Live fun c => c.suspending orgId) :
    GraceInv orgId ⟨s', Function.update p.calls i (.up c')⟩ := by
  refine ⟨fun org horg hg => ?_, fun j hj => ?_⟩
  · dsimp only at horg
    rw [primary_next hn] at horg
    rw [horg] at hnone
    simp [hg] at hnone
  · rcases live_update_up hj with ⟨-, hself⟩ | ⟨-, hother⟩
    · rcases suspending_next hn hself with hbefore | ⟨rfl, -⟩
      · refine absurd ?_ (hidle i)
        rw [hi]
        exact hbefore
      · cases hr
    · exact absurd hother (hidle j)

/-- A failure that is processed. -/
theorem GraceInv.fail {p : Calls ι} {i : ι} (h : GraceInv orgId p)
    (hn : next cfg p.store (.handlePaymentFailure orgId .update) = some (s', c')) :
    GraceInv orgId ⟨s', Function.update p.calls i (.up c')⟩ := by
  have hprimary := primary_next hn
  obtain ⟨rfl, rfl⟩ := Prod.mk.inj (Option.some.inj hn)
  have hunpaid : unpaidSince orgId ((p.store.startGracePeriod orgId).mark
      (.failure orgId p.store.now)).milestones
        = p.store.now :: unpaidSince orgId p.store.milestones := if_pos rfl
  refine ⟨fun org horg hg => ?_, fun j hj => ?_⟩
  · dsimp only at horg ⊢
    rw [hunpaid]
    rw [hprimary, Call.orgWrite, written, Function.update_self] at horg
    obtain ⟨old, -, rfl⟩ := Option.map_eq_some_iff.mp horg
    unfold OrgRow.startGrace at hg ⊢
    split at hg
    · rename_i hactive
      rw [if_pos hactive]
      exact ⟨p.store.now, List.mem_cons_self, rfl⟩
    · rename_i hactive
      simp [OrgRow.inGrace, hactive] at hg
  · rcases live_update_up hj with ⟨-, hself⟩ | ⟨-, hother⟩
    · cases hself
    · obtain ⟨time, htime, hover⟩ := h.checks j hother
      refine ⟨time, ?_, hover⟩
      dsimp only
      rw [hunpaid]
      exact List.mem_cons_of_mem _ htime

/-- A statement in a settled run. -/
theorem GraceInv.run {p : Calls ι} {i : ι} {d : Unit} (h : GraceInv orgId p)
    (hm : Settled orgId p (.run i d)) (hi : p.calls i = .up c)
    (hn : next cfg p.store c = some (s', c')) :
    GraceInv orgId ⟨s', Function.update p.calls i (.up c')⟩ := by
  simp only [Settled] at hm
  rw [hi] at hm
  obtain ⟨hsettles, hcurrent⟩ := hm
  by_cases hr : c.recovers p.store = some orgId
  · obtain ⟨hnone, hidle⟩ := hsettles hr
    exact GraceInv.recover hi hn hr hnone hidle
  by_cases hf : c = .handlePaymentFailure orgId .update
  · subst hf
    exact h.fail hn
  -- neither settled nor failed: the failures stand, and so does a grace period
  have hunpaid := (marks_next hn).unpaidSince hr hf
  have hoverdue : p.store.Overdue orgId → s'.Overdue orgId := by
    unfold Store.Overdue
    rw [hunpaid, (marks_next hn).now]
    exact id
  refine ⟨fun org horg hg => ?_, fun j hj => ?_⟩
  · obtain ⟨old, hold, hgold, hends⟩ := inGrace_next hn hr hf horg hg
    dsimp only
    rw [hunpaid, ← hends]
    exact h.grace old hold hgold
  · refine hoverdue ?_
    rcases live_update_up hj with ⟨-, hself⟩ | ⟨-, hother⟩
    · rcases suspending_next hn hself with hbefore | ⟨rfl, org, hfind, hexp⟩
      · refine h.checks i ?_
        rw [hi]
        exact hbefore
      · exact h.overdue_of_expired (hcurrent rfl) hfind hexp
    · exact h.checks j hother

theorem GraceInv.crash {p : Calls ι} {i : ι} (h : GraceInv orgId p) :
    GraceInv orgId ⟨p.store, Function.update p.calls i (.down c)⟩ := by
  refine ⟨h.grace, fun j hj => ?_⟩
  exact h.checks j (live_update_down hj).2

omit [DecidableEq ι] in
theorem GraceInv.env {p : Calls ι} (h : GraceInv orgId p) (e : Env) :
    GraceInv orgId ⟨env p.store e, p.calls⟩ := by
  cases e with
  | tick ms =>
    refine ⟨h.grace, fun i hi => ?_⟩
    obtain ⟨time, htime, hover⟩ := h.checks i hi
    exact ⟨time, htime, hover.trans (Nat.le_add_right _ _)⟩
  | replicate => exact ⟨h.grace, h.checks⟩

/-- **Only what is unpaid for 7 days is suspended**: where a check is about to run its UPDATE, in
every settled run of an organisation that starts without a grace period. -/
theorem suspended_unpaid {p q : Calls ι} {i : ι} {v : OrgStatus}
    (hstart : ∀ i, (p.calls i).Live fun c => c.fresh)
    (h₀ : ∀ org, p.store.primary orgId = some org → org.gracePeriodEndsAt = none)
    (hrun : Run (Pool.step (paymentMachine cfg)) (Settled orgId) p q)
    (hi : q.calls i = .up (.checkGracePeriod orgId (.suspend (.update v)))) :
    q.store.Overdue orgId := by
  have hinv : GraceInv orgId q :=
    Pool.invariant (I := GraceInv orgId) (graceInv_of_fresh hstart h₀)
      (fun p i d c s' c' h hG hi hn => h.run hG hi hn) (fun p i c h _ _ => h.crash)
      (fun p e h _ => h.env e) hrun
  refine hinv.checks i ?_
  rw [hi]
  exact decide_eq_true rfl

end Runs

instance {ι : Type*} [Fintype ι] (orgId : String) (p : Calls ι) :
    ∀ m : Move ι Unit Env, Decidable (Settled orgId p m)
  | .run i _ => inferInstanceAs (Decidable ((p.calls i).Keeps fun c =>
      (c.recovers p.store = some orgId →
        (written p.store.primary (c.orgWrite p.store.now) orgId).all (fun org => ¬ org.inGrace)
          ∧ ∀ j, ¬ (p.calls j).Live fun c => c.suspending orgId)
      ∧ (c = .checkGracePeriod orgId .find → p.store.replica orgId = p.store.primary orgId)))
  | .crash _ => inferInstanceAs (Decidable True)
  | .env _ => inferInstanceAs (Decidable True)

/-! ## A failure, a payment, and the check of the failure -/

/-- An active organisation: a failure is processed, the payment is captured, the check runs. -/
def failedThenPaid : Calls (Fin 3) where
  store := demoOrder
  calls := ![.up (.handlePaymentFailure "o" .find),
    .up (.webhook (.paymentCaptured "pay" (some "order")) .get), .up (.checkGracePeriod "o" .find)]

theorem failedThenPaid_fresh (i : Fin 3) : (failedThenPaid.calls i).Live fun c => c.fresh := by
  revert i
  decide

theorem failedThenPaid_start (org : OrgRow) (h : failedThenPaid.store.primary "o" = some org) :
    org.gracePeriodEndsAt = none := by
  obtain rfl : (⟨⟨.active, false⟩, none, .free⟩ : OrgRow) = org := Option.some.inj h
  rfl

/-- **The webhook captures while the organisation is active**: the grace period stays, and seven
days after the failure the check suspends an organisation that has paid. -/
theorem paid_organisation_suspended :
    (∀ i, (failedThenPaid.calls i).Live fun c => c.fresh)
      ∧ (∀ org, failedThenPaid.store.primary "o" = some org → org.gracePeriodEndsAt = none)
      ∧ ∃ q r v, Run (Pool.step (paymentMachine demoConfig)) anyStep failedThenPaid q
        ∧ q.calls 2 = .up (.checkGracePeriod "o" (.suspend (.update v)))
        ∧ q.step (paymentMachine demoConfig) (.run 2 () : Move (Fin 3) Unit Env) = some r
        ∧ r.store.status "o" = some .suspended ∧ ¬ q.store.Overdue "o" := by
  refine ⟨failedThenPaid_fresh, failedThenPaid_start, ?_⟩
  obtain ⟨q, r, hq, -, hr, h⟩ := exists_step_of_exec (Pool.step (paymentMachine demoConfig)) anyStep
    failedThenPaid (List.flatten [List.replicate 4 (.run 0 ()), List.replicate 6 (.run 1 ()),
      [.env .replicate, .env (.tick Store.gracePeriod), .run 2 (), .run 2 ()]]) (.run 2 ())
    (fun q r => q.calls 2 = .up (.checkGracePeriod "o" (.suspend (.update .active)))
      ∧ r.store.status "o" = some .suspended ∧ ¬ q.store.Overdue "o") (by decide)
  obtain ⟨hcall, hsuspended, hpaid⟩ := of_decide_eq_true h
  exact ⟨q, r, .active, hq, hcall, hr, hsuspended, hpaid⟩

/-- Without the payment, the check is in order. -/
theorem suspended_unpaid_after_failure :
    ∃ q v, Run (Pool.step (paymentMachine demoConfig)) (Settled "o") failedThenPaid q
      ∧ q.calls 2 = .up (.checkGracePeriod "o" (.suspend (.update v))) ∧ q.store.Overdue "o" := by
  obtain ⟨q, hq, h⟩ := exists_run_of_exec (Pool.step (paymentMachine demoConfig)) (Settled "o")
    failedThenPaid (List.flatten [List.replicate 4 (.run 0 ()),
      [.env .replicate, .env (.tick Store.gracePeriod), .run 2 (), .run 2 ()]])
    (fun q => q.calls 2 = .up (.checkGracePeriod "o" (.suspend (.update .active)))) (by decide)
  have hcall := of_decide_eq_true h
  exact ⟨q, .active, hq, hcall,
    suspended_unpaid failedThenPaid_fresh failedThenPaid_start hq hcall⟩

end WorkPlatform.Payment

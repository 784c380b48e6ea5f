import WorkPlatform.Payment.Purchase

/-!
# Payment/Upgrade — no plan without a payment

    verifyPayment   signature ▸ find ▸ capture ▸ subscribe ▸ plan
                                          └─ the payment has a Razorpay id from here on

A plan is written to `subscriptions` and to `organizations`, in two statements after the capture,
and from the row that was read before it.  In between, webhooks may fail the payment, refund it or
give it another Razorpay id, and other calls may write other plans.

Whatever interleaves, an organisation has the plan it started with, or one that a `verifyPayment`
of its own with a valid signature brought, for a payment of the organisation that was for this plan
and has a Razorpay id (`plan_was_paid`).
-/

namespace WorkPlatform.Payment

open Machinery

variable {ι : Type*} {cfg : Config}

/-! ## What a payment keeps -/

/-- A payment of the organisation for the plan is on record. -/
def Payments.Ordered (t : Payments) (orgId orderId : String) (tier : PlanTier) : Prop :=
  ∃ r ∈ t.rows, r.razorpayOrderId = orderId ∧ r.orgId = orgId ∧ r.purchasedTier = tier

/-- The same, and Razorpay has named a payment for it. -/
def Payments.Bought (t : Payments) (orgId orderId : String) (tier : PlanTier) : Prop :=
  ∃ r ∈ t.rows, r.razorpayOrderId = orderId ∧ r.orgId = orgId ∧ r.purchasedTier = tier
    ∧ r.razorpayPaymentId.isSome = true

/-- No row goes, changes hands or loses its Razorpay id. -/
def Payments.Keeps (t t' : Payments) : Prop :=
  ∀ r ∈ t.rows, ∃ r' ∈ t'.rows, r'.razorpayOrderId = r.razorpayOrderId ∧ r'.orgId = r.orgId
    ∧ r'.purchasedTier = r.purchasedTier
    ∧ (r.razorpayPaymentId.isSome = true → r'.razorpayPaymentId.isSome = true)

namespace Payments

variable {t t' : Payments} {orgId orderId paymentId : String} {status : PaymentStatus}
  {tier : PlanTier}

theorem Keeps.refl (t : Payments) : t.Keeps t := fun r hr => ⟨r, hr, rfl, rfl, rfl, id⟩

theorem Keeps.ordered (h : t.Keeps t') (hr : t.Ordered orgId orderId tier) :
    t'.Ordered orgId orderId tier := by
  obtain ⟨r, hmem, horder, horg, htier⟩ := hr
  obtain ⟨r', hmem', horder', horg', htier', -⟩ := h r hmem
  exact ⟨r', hmem', horder'.trans horder, horg'.trans horg, htier'.trans htier⟩

theorem Keeps.bought (h : t.Keeps t') (hr : t.Bought orgId orderId tier) :
    t'.Bought orgId orderId tier := by
  obtain ⟨r, hmem, horder, horg, htier, hid⟩ := hr
  obtain ⟨r', hmem', horder', horg', htier', hid'⟩ := h r hmem
  exact ⟨r', hmem', horder'.trans horder, horg'.trans horg, htier'.trans htier, hid' hid⟩

/-- Setting a status keeps every payment. -/
theorem keeps_updateStatus {pid : Option String}
    (h : t.updateStatus orderId status pid = some t') : t.Keeps t' := by
  intro r hr
  refine ⟨r.setStatus orderId status pid, ?_, ?_⟩
  · rw [rows_updateStatus h]
    exact List.mem_map_of_mem hr
  · unfold PaymentRow.setStatus
    split
    · refine ⟨rfl, rfl, rfl, fun hid => ?_⟩
      cases pid with
      | none => exact hid
      | some id => rfl
    · exact ⟨rfl, rfl, rfl, id⟩

theorem keeps_updateStatusOf : t.Keeps (t.updateStatusOf paymentId status) := by
  intro r hr
  refine ⟨r.setStatusOf paymentId status, List.mem_map_of_mem hr, ?_⟩
  unfold PaymentRow.setStatusOf
  split <;> exact ⟨rfl, rfl, rfl, id⟩

/-- The capture names the payment. -/
theorem Ordered.bought (hr : t.Ordered orgId orderId tier)
    (h : t.updateStatus orderId status (some paymentId) = some t') :
    t'.Bought orgId orderId tier := by
  obtain ⟨r, hmem, horder, horg, htier⟩ := hr
  refine ⟨r.setStatus orderId status (some paymentId), ?_, ?_⟩
  · rw [rows_updateStatus h]
    exact List.mem_map_of_mem hmem
  · rw [PaymentRow.setStatus, if_pos horder]
    exact ⟨horder, horg, htier, rfl⟩

end Payments

/-! ## What a call has made sure of -/

/-- The call pays the order for the organisation, with a valid signature. -/
def Call.Signed (cfg : Config) (orgId orderId : String) : Call → Prop
  | .verifyPayment orgId' orderId' paymentId signature _ =>
    orgId' = orgId ∧ orderId' = orderId
      ∧ cfg.verifyPaymentSignature orderId paymentId signature = true
  | _ => False

/-- What a call that is past its checks knows of its payment. -/
def Call.Due (cfg : Config) (t : Payments) : Call → Prop
  | .verifyPayment orgId orderId paymentId signature (.capture payment) =>
    cfg.verifyPaymentSignature orderId paymentId signature = true
      ∧ t.Ordered orgId orderId payment.purchasedTier
  | .verifyPayment orgId orderId paymentId signature (.subscribe payment _)
  | .verifyPayment orgId orderId paymentId signature (.plan payment _) =>
    cfg.verifyPaymentSignature orderId paymentId signature = true
      ∧ t.Bought orgId orderId payment.purchasedTier
  | _ => True

section Steps

variable {s s' : Store} {c c' : Call} {orgId orderId : String} {t t' : Payments}

theorem due_of_fresh (h : c.fresh = true) : c.Due cfg t := by
  cases c with
  | verifyPayment orgId orderId paymentId signature pc =>
    cases pc with
    | capture _ | subscribe _ _ | plan _ _ => cases h
    | _ => trivial
  | _ => trivial

theorem Call.Due.mono (h : t.Keeps t') (hc : c.Due cfg t) : c.Due cfg t' := by
  cases c with
  | verifyPayment orgId orderId paymentId signature pc =>
    cases pc with
    | capture payment => exact ⟨hc.1, h.ordered hc.2⟩
    | subscribe payment updated | plan payment updated => exact ⟨hc.1, h.bought hc.2⟩
    | _ => trivial
  | _ => trivial

theorem signed_next (h : next cfg s c = some (s', c')) (hc : c.Signed cfg orgId orderId) :
    c'.Signed cfg orgId orderId := by
  cases c with
  | verifyPayment orgId' orderId' paymentId signature pc =>
    obtain ⟨pc', -, rfl⟩ := pc_of_next h
    exact hc
  | _ => cases hc

/-- The calls that write payments and subscriptions. -/
def Call.pays : Call → Bool
  | .verifyPayment .. | .webhook .. => true
  | _ => false

/-- A transition of the organisation writes no payment and no subscription. -/
theorem tables_transition {t : Transition} {pc pc' : TransitionPc}
    (h : transitionNext t s orgId pc = some (s', pc')) :
    s'.payments = s.payments ∧ s'.subscriptions = s.subscriptions := by
  cases pc with
  | update v =>
    obtain ⟨rfl, -⟩ := Prod.mk.inj (Option.some.inj h)
    split <;> exact ⟨rfl, rfl⟩
  | returned | threw e => cases h
  | _ =>
    obtain ⟨rfl, -⟩ := Prod.mk.inj (Option.some.inj h)
    exact ⟨rfl, rfl⟩

/-- The other calls leave both tables. -/
theorem tables_next (h : next cfg s c = some (s', c')) (hc : c.pays = false) :
    s'.payments = s.payments ∧ s'.subscriptions = s.subscriptions := by
  cases c with
  | verifyPayment orgId orderId paymentId signature pc => cases hc
  | webhook event pc => cases hc
  | suspendOrg orgId pc | reactivateOrg orgId pc | startOffboarding orgId pc =>
    obtain ⟨pc', hpc, -⟩ := pc_of_next h
    exact tables_transition hpc
  | handlePaymentFailure orgId pc =>
    obtain ⟨pc', hpc, -⟩ := pc_of_next h
    cases pc with
    | returned => cases hpc
    | _ =>
      obtain ⟨rfl, -⟩ := Prod.mk.inj (Option.some.inj hpc)
      exact ⟨rfl, rfl⟩
  | checkGracePeriod orgId pc =>
    obtain ⟨pc', hpc, -⟩ := pc_of_next h
    cases pc with
    | find =>
      obtain ⟨rfl, -⟩ := Prod.mk.inj (Option.some.inj hpc)
      exact ⟨rfl, rfl⟩
    | suspend pc =>
      obtain ⟨pc'', hsuspend, -⟩ := pc_of_next hpc
      exact tables_transition hsuspend
    | returned => cases hpc
  | offboard orgId pc =>
    obtain ⟨pc', hpc, -⟩ := pc_of_next h
    cases pc with
    | accepted | threw _ => cases hpc
    | _ =>
      obtain ⟨rfl, -⟩ := Prod.mk.inj (Option.some.inj hpc)
      exact ⟨rfl, rfl⟩
  | runOffboardingJob orgId pc =>
    obtain ⟨pc', hpc, -⟩ := pc_of_next h
    cases pc with
    | returned => cases hpc
    | _ =>
      obtain ⟨rfl, -⟩ := Prod.mk.inj (Option.some.inj hpc)
      exact ⟨rfl, rfl⟩

/-- **One statement, seen from `payments`.** -/
theorem keeps_next (h : next cfg s c = some (s', c')) : s.payments.Keeps s'.payments := by
  have hsame : s'.payments = s.payments → s.payments.Keeps s'.payments := by
    intro heq
    rw [heq]
    exact .refl _
  cases c with
  | verifyPayment orgId orderId paymentId signature pc =>
    obtain ⟨pc', hpc, rfl⟩ := pc_of_next h
    cases pc with
    | capture payment =>
      rw [verifyNext] at hpc
      split at hpc
      · obtain ⟨rfl, -⟩ := Prod.mk.inj (Option.some.inj hpc)
        exact .refl _
      · rename_i t ht
        split at hpc <;>
          (obtain ⟨rfl, -⟩ := Prod.mk.inj (Option.some.inj hpc)
           exact Payments.keeps_updateStatus ht)
    | find =>
      obtain ⟨rfl, -⟩ := Prod.mk.inj (Option.some.inj hpc)
      exact .refl _
    | _ => exact hsame (settled_next h rfl).1
  | webhook event pc =>
    obtain ⟨pc', hpc, rfl⟩ := pc_of_next h
    cases pc with
    | capture id orderId payment | fail orderId payment =>
      rw [webhookNext] at hpc
      split at hpc
      · obtain ⟨rfl, -⟩ := Prod.mk.inj (Option.some.inj hpc)
        exact .refl _
      · rename_i t ht
        obtain ⟨rfl, -⟩ := Prod.mk.inj (Option.some.inj hpc)
        exact Payments.keeps_updateStatus ht
    | settle paymentId status eventType =>
      obtain ⟨rfl, -⟩ := Prod.mk.inj (Option.some.inj hpc)
      exact Payments.keeps_updateStatusOf
    | get | findCaptured id orderId | findFailed orderId =>
      obtain ⟨rfl, -⟩ := Prod.mk.inj (Option.some.inj hpc)
      exact .refl _
    | _ => exact hsame (settled_next h rfl).1
  | _ => exact hsame (tables_next h rfl).1

/-- What a call makes sure of, it has made sure of in the table it leaves. -/
theorem due_next (h : next cfg s c = some (s', c')) (hc : c.Due cfg s.payments) :
    c'.Due cfg s'.payments := by
  cases c with
  | verifyPayment orgId orderId paymentId signature pc =>
    obtain ⟨pc', hpc, rfl⟩ := pc_of_next h
    cases pc with
    | find =>
      obtain ⟨rfl, rfl⟩ := Prod.mk.inj (Option.some.inj hpc)
      by_cases hsig : cfg.verifyPaymentSignature orderId paymentId signature = true
      case neg =>
        rw [if_neg hsig]
        trivial
      rw [if_pos hsig]
      cases hfind : s.payments.findByOrderId orderId with
      | none => trivial
      | some payment =>
        rw [VerifyPc.found]
        split
        · trivial
        rename_i horg
        split
        · trivial
        exact ⟨hsig, payment, List.mem_of_find?_eq_some hfind, orderId_of_find hfind,
          not_not.mp horg, rfl⟩
    | capture payment =>
      rw [verifyNext] at hpc
      split at hpc
      · obtain ⟨-, rfl⟩ := Prod.mk.inj (Option.some.inj hpc)
        trivial
      · rename_i t ht
        split at hpc
        · obtain ⟨-, rfl⟩ := Prod.mk.inj (Option.some.inj hpc)
          trivial
        · obtain ⟨rfl, rfl⟩ := Prod.mk.inj (Option.some.inj hpc)
          exact ⟨hc.1, hc.2.bought ht⟩
    | subscribe payment updated =>
      obtain ⟨rfl, rfl⟩ := Prod.mk.inj (Option.some.inj hpc)
      refine ⟨hc.1, ?_⟩
      rw [upsert_payments]
      exact hc.2
    | plan _ _ | outbox _ =>
      obtain ⟨rfl, rfl⟩ := Prod.mk.inj (Option.some.inj hpc)
      trivial
    | returned _ | threw _ | failed => cases hpc
  | webhook event pc =>
    obtain ⟨pc', -, rfl⟩ := pc_of_next h
    trivial
  | suspendOrg orgId pc | reactivateOrg orgId pc | startOffboarding orgId pc
  | handlePaymentFailure orgId pc | checkGracePeriod orgId pc | offboard orgId pc
  | runOffboardingJob orgId pc =>
    obtain ⟨pc', -, rfl⟩ := pc_of_next h
    trivial

/-! ## Who writes a plan -/

/-- The call writes the plan of the organisation, and it was paid for. -/
def Call.Sells (cfg : Config) (t : Payments) (orgId : String) (tier : PlanTier) (c : Call) : Prop :=
  ∃ orderId, c.Signed cfg orgId orderId ∧ t.Bought orgId orderId tier

theorem planTier_write {t : Transition} {pc : TransitionPc} {o : String} {f : OrgRow → OrgRow}
    (h : pc.write t o = some (orgId, f)) (org : OrgRow) : (f org).planTier = org.planTier := by
  cases pc with
  | update v =>
    obtain ⟨-, rfl⟩ := Prod.mk.inj (Option.some.inj h)
    unfold OrgRow.setStatus
    split <;> rfl
  | _ => cases h

/-- Of the UPDATEs of `organizations`, only that of `verifyPayment` writes a plan. -/
theorem planTier_orgWrite {now : ℕ} {f : OrgRow → OrgRow} (h : c.orgWrite now = some (orgId, f)) :
    (∀ org, (f org).planTier = org.planTier)
      ∨ ∃ orderId paymentId signature payment updated,
        c = .verifyPayment orgId orderId paymentId signature (.plan payment updated)
          ∧ ∀ org, (f org).planTier = payment.purchasedTier := by
  cases c with
  | verifyPayment o orderId paymentId signature pc =>
    cases pc with
    | plan payment updated =>
      obtain ⟨rfl, rfl⟩ := Prod.mk.inj (Option.some.inj h)
      exact Or.inr ⟨orderId, paymentId, signature, payment, updated, rfl, fun org => rfl⟩
    | _ => cases h
  | webhook event pc =>
    cases pc with
    | reactivate e =>
      obtain ⟨-, rfl⟩ := Prod.mk.inj (Option.some.inj h)
      refine Or.inl fun org => ?_
      unfold OrgRow.reactivate
      split <;> rfl
    | _ => cases h
  | suspendOrg o pc | reactivateOrg o pc | startOffboarding o pc =>
    exact Or.inl (planTier_write h)
  | handlePaymentFailure o pc =>
    cases pc with
    | update =>
      obtain ⟨-, rfl⟩ := Prod.mk.inj (Option.some.inj h)
      refine Or.inl fun org => ?_
      unfold OrgRow.startGrace
      split <;> rfl
    | _ => cases h
  | checkGracePeriod o pc =>
    cases pc with
    | suspend pc => exact Or.inl (planTier_write h)
    | _ => cases h
  | offboard o pc =>
    cases pc with
    | update v =>
      obtain ⟨-, rfl⟩ := Prod.mk.inj (Option.some.inj h)
      exact Or.inl fun org => rfl
    | _ => cases h
  | runOffboardingJob o pc =>
    cases pc with
    | delete =>
      obtain ⟨-, rfl⟩ := Prod.mk.inj (Option.some.inj h)
      exact Or.inl fun org => rfl
    | _ => cases h

/-- **One statement, seen from the plan of an organisation.** -/
theorem orgTier_next (h : next cfg s c = some (s', c')) (hc : c.Due cfg s.payments) :
    s'.orgTier orgId = s.orgTier orgId
      ∨ ∃ tier, s'.orgTier orgId = some tier ∧ c.Sells cfg s.payments orgId tier := by
  unfold Store.orgTier
  rw [primary_next h]
  cases hw : c.orgWrite s.now with
  | none => exact Or.inl rfl
  | some w =>
    obtain ⟨o, f⟩ := w
    rw [written]
    by_cases ho : orgId = o
    case neg =>
      rw [Function.update_of_ne ho]
      exact Or.inl rfl
    subst ho
    rw [Function.update_self, Option.map_map]
    rcases planTier_orgWrite hw
      with hkeep | ⟨orderId, paymentId, signature, payment, updated, rfl, hset⟩
    · exact Or.inl (congrArg (fun g => Option.map g (s.primary orgId)) (funext hkeep))
    · cases hrow : s.primary orgId with
      | none => exact Or.inl rfl
      | some org =>
        refine Or.inr ⟨payment.purchasedTier, congrArg some (hset org), orderId, ?_, hc.2⟩
        exact ⟨rfl, rfl, hc.1⟩

/-- A subscription after the upsert was there, or is the one it wrote. -/
theorem mem_upsert {tier : PlanTier} {r : SubscriptionRow}
    (h : r ∈ (s.upsertSubscription orgId tier).subscriptions) :
    r ∈ s.subscriptions ∨ r.orgId = orgId ∧ r.planTier = tier := by
  unfold Store.upsertSubscription at h
  dsimp only at h
  split at h
  · obtain ⟨r₀, hr₀, rfl⟩ := List.mem_map.mp h
    split
    · rename_i horg
      exact Or.inr ⟨horg, rfl⟩
    · exact Or.inl hr₀
  · rcases List.mem_cons.mp h with rfl | hold
    · exact Or.inr ⟨rfl, rfl⟩
    · exact Or.inl hold

/-- **One statement, seen from `subscriptions`.** -/
theorem subscriptions_next (h : next cfg s c = some (s', c')) (hc : c.Due cfg s.payments)
    {r : SubscriptionRow} (hr : r ∈ s'.subscriptions) :
    r ∈ s.subscriptions ∨ c.Sells cfg s.payments r.orgId r.planTier := by
  cases c with
  | verifyPayment orgId orderId paymentId signature pc =>
    obtain ⟨pc', hpc, rfl⟩ := pc_of_next h
    cases pc with
    | capture payment =>
      rw [verifyNext] at hpc
      split at hpc
      · obtain ⟨rfl, -⟩ := Prod.mk.inj (Option.some.inj hpc)
        exact Or.inl hr
      · split at hpc <;>
          (obtain ⟨rfl, -⟩ := Prod.mk.inj (Option.some.inj hpc)
           exact Or.inl hr)
    | subscribe payment updated =>
      obtain ⟨rfl, -⟩ := Prod.mk.inj (Option.some.inj hpc)
      rcases mem_upsert hr with hold | ⟨rfl, htier⟩
      · exact Or.inl hold
      · refine Or.inr ⟨orderId, ⟨rfl, rfl, hc.1⟩, ?_⟩
        rw [htier]
        exact hc.2
    | find | plan _ _ | outbox _ =>
      obtain ⟨rfl, -⟩ := Prod.mk.inj (Option.some.inj hpc)
      exact Or.inl hr
    | returned _ | threw _ | failed => cases hpc
  | webhook event pc =>
    obtain ⟨pc', hpc, rfl⟩ := pc_of_next h
    cases pc with
    | capture id orderId payment | fail orderId payment | outbox e =>
      rw [webhookNext] at hpc
      split at hpc <;>
        (obtain ⟨rfl, -⟩ := Prod.mk.inj (Option.some.inj hpc)
         exact Or.inl hr)
    | reactivate e =>
      obtain ⟨rfl, -⟩ := Prod.mk.inj (Option.some.inj hpc)
      split at hr <;> exact Or.inl hr
    | received | failed => cases hpc
    | _ =>
      obtain ⟨rfl, -⟩ := Prod.mk.inj (Option.some.inj hpc)
      exact Or.inl hr
  | _ =>
    rw [(tables_next h rfl).2] at hr
    exact Or.inl hr

end Steps

/-! ## Runs -/

/-- A call of the pool pays for the plan: the signature is valid, and the payment it names is the
organisation's, was for this plan, and is one Razorpay has named. -/
def Paid (cfg : Config) (q : Calls ι) (orgId : String) (tier : PlanTier) : Prop :=
  ∃ i, (q.calls i).at'.Sells cfg q.store.payments orgId tier

/-- What every move keeps. -/
structure UpgradeInv (cfg : Config) (p q : Calls ι) : Prop where
  due : ∀ i, (q.calls i).Keeps (·.Due cfg q.store.payments)
  organisation : ∀ orgId, q.store.orgTier orgId = p.store.orgTier orgId
    ∨ ∃ tier, q.store.orgTier orgId = some tier ∧ Paid cfg q orgId tier
  subscription : ∀ r ∈ q.store.subscriptions,
    r ∈ p.store.subscriptions ∨ Paid cfg q r.orgId r.planTier

section Runs

variable [DecidableEq ι] {p q : Calls ι} {i : ι} {c c' : Call} {s' : Store} {orgId : String}
  {tier : PlanTier}

theorem Call.Sells.keeps {t t' : Payments} (h : t.Keeps t') (hc : c.Sells cfg t orgId tier)
    (hsigned : ∀ orderId, c.Signed cfg orgId orderId → c'.Signed cfg orgId orderId) :
    c'.Sells cfg t' orgId tier := by
  obtain ⟨orderId, hsig, hbought⟩ := hc
  exact ⟨orderId, hsigned orderId hsig, h.bought hbought⟩

/-- What was paid for stays paid for. -/
theorem Paid.moved (h : Paid cfg q orgId tier) (hc : q.calls i = .up c)
    (hn : next cfg q.store c = some (s', c')) :
    Paid cfg ⟨s', Function.update q.calls i (.up c')⟩ orgId tier := by
  obtain ⟨j, hj⟩ := h
  refine ⟨j, ?_⟩
  by_cases hji : j = i
  · subst hji
    rw [hc] at hj
    rw [at'_update_self]
    exact hj.keeps (keeps_next hn) fun _ hsig => signed_next hn hsig
  · rw [at'_update_of_ne hji]
    exact hj.keeps (keeps_next hn) fun _ => id

/-- The call that moves has paid for what it writes. -/
theorem Paid.of_sells (hn : next cfg q.store c = some (s', c'))
    (hsells : c.Sells cfg q.store.payments orgId tier) :
    Paid cfg (⟨s', Function.update q.calls i (.up c')⟩ : Calls ι) orgId tier := by
  refine ⟨i, ?_⟩
  rw [at'_update_self]
  exact hsells.keeps (keeps_next hn) fun _ hsig => signed_next hn hsig

/-- One statement of one call. -/
theorem upgradeInv_run (h : UpgradeInv cfg p q) (hc : q.calls i = .up c)
    (hn : next cfg q.store c = some (s', c')) :
    UpgradeInv cfg p ⟨s', Function.update q.calls i (.up c')⟩ where
  due := by
    have hdue := (h.due i).of_up hc
    exact keeps_update_up (due_next hn hdue) fun j _ =>
      (h.due j).imp fun _ hj => hj.mono (keeps_next hn)
  organisation := by
    intro orgId
    have hmoved : s'.orgTier orgId = q.store.orgTier orgId
        ∨ ∃ tier, s'.orgTier orgId = some tier ∧ c.Sells cfg q.store.payments orgId tier :=
      orgTier_next hn ((h.due i).of_up hc)
    rcases hmoved with hsame | ⟨tier, htier, hsells⟩
    · dsimp only
      rw [hsame]
      rcases h.organisation orgId with hold | ⟨tier, htier, hpaid⟩
      · exact Or.inl hold
      · exact Or.inr ⟨tier, htier, hpaid.moved hc hn⟩
    · exact Or.inr ⟨tier, htier, .of_sells hn hsells⟩
  subscription := by
    intro r hr
    rcases subscriptions_next hn ((h.due i).of_up hc) hr with hsame | hsells
    · exact (h.subscription r hsame).imp_right fun hpaid => hpaid.moved hc hn
    · exact Or.inr (.of_sells hn hsells)

omit [DecidableEq ι] in
/-- A crash leaves every control point, time and replication the tables. -/
theorem Paid.congr {q q' : Calls ι} (hcalls : ∀ j, (q'.calls j).at' = (q.calls j).at')
    (hpayments : q'.store.payments = q.store.payments) (h : Paid cfg q orgId tier) :
    Paid cfg q' orgId tier := by
  obtain ⟨j, hj⟩ := h
  refine ⟨j, ?_⟩
  rw [hcalls j, hpayments]
  exact hj

/-- What every call has made sure of, in every state of a run. -/
theorem upgradeInv_of_run (hfresh : ∀ i, ∃ c, p.calls i = .up c ∧ c.fresh = true)
    (hrun : Run (Pool.step (paymentMachine cfg)) anyStep p q) : UpgradeInv cfg p q := by
  refine Pool.invariant (I := UpgradeInv cfg p) ⟨?_, fun _ => Or.inl rfl, fun _ => Or.inl⟩
    (fun q i c _ s' c' h _ hc hn => upgradeInv_run h hc hn) ?_ ?_ hrun
  · intro i
    obtain ⟨c, hc, hfresh⟩ := hfresh i
    rw [hc]
    exact due_of_fresh hfresh
  · intro q i c h _ hc
    have hcalls := at'_update_down hc
    exact ⟨keeps_update_down h.due,
      fun orgId => (h.organisation orgId).imp_right fun ⟨tier, htier, hpaid⟩ =>
        ⟨tier, htier, hpaid.congr hcalls rfl⟩,
      fun r hr => (h.subscription r hr).imp_right fun hpaid => hpaid.congr hcalls rfl⟩
  · intro q e h _
    cases e with
    | tick ms => exact ⟨h.due, h.organisation, h.subscription⟩
    | replicate => exact ⟨h.due, h.organisation, h.subscription⟩

/-- **No plan without a payment.**  Whatever interleaves and crashes, the plan of an organisation
and the plan of a subscription are what they were at the start, or were paid for. -/
theorem plan_was_paid (hfresh : ∀ i, ∃ c, p.calls i = .up c ∧ c.fresh = true)
    (hrun : Run (Pool.step (paymentMachine cfg)) anyStep p q) :
    (∀ orgId, q.store.orgTier orgId = p.store.orgTier orgId
        ∨ ∃ tier, q.store.orgTier orgId = some tier ∧ Paid cfg q orgId tier)
      ∧ ∀ r ∈ q.store.subscriptions,
        r ∈ p.store.subscriptions ∨ Paid cfg q r.orgId r.planTier := by
  have h := upgradeInv_of_run hfresh hrun
  exact ⟨h.organisation, h.subscription⟩

end Runs

/-- The customer of `demoOrder` pays, while Razorpay reports a failed attempt. -/
def soldAndFailed : Calls (Fin 2) :=
  ⟨demoOrder, fun i =>
    .up (if i = 0 then demoArgs.at' .find
      else .webhook (.paymentFailed "pay0" (some "order")) .get)⟩

theorem soldAndFailed_fresh : ∀ i, ∃ c, soldAndFailed.calls i = .up c ∧ c.fresh = true
  | 0 => ⟨_, rfl, rfl⟩
  | 1 => ⟨_, rfl, rfl⟩

/-- The failure comes between the capture and the plan: the payment ends as failed, the plan is
written all the same, and it was paid for. -/
theorem plan_was_paid_then_failed :
    ∃ q, Run (Pool.step (paymentMachine demoConfig)) anyStep soldAndFailed q
      ∧ q.store.paymentStatus "order" = some .failed ∧ q.store.orgTier "o" = some .pro
      ∧ Paid demoConfig q "o" .pro := by
  obtain ⟨q, hrun, hq⟩ := exists_run_of_exec (Pool.step (paymentMachine demoConfig)) anyStep
    soldAndFailed [.run 0 (), .run 0 (), .run 1 (), .run 1 (), .run 1 (), .run 0 (), .run 0 ()]
    (fun q => q.store.paymentStatus "order" = some .failed ∧ q.store.orgTier "o" = some .pro)
    (by decide)
  obtain ⟨hfailed, htier⟩ := of_decide_eq_true hq
  refine ⟨q, hrun, hfailed, htier, ?_⟩
  rcases (plan_was_paid soldAndFailed_fresh hrun).1 "o" with hold | ⟨tier, htier', hpaid⟩
  · rw [htier] at hold
    exact absurd hold (by decide)
  · rw [htier] at htier'
    obtain rfl := Option.some.inj htier'
    exact hpaid

end WorkPlatform.Payment

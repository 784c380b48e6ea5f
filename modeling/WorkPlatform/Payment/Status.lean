import WorkPlatform.Payment.OrgStatus

/-!
# Payment/Status — the lifecycle of a payment, delivery after delivery

    created ▸ authorized ▸ captured ▸ refunded
    created ▸ captured                ▸ disputed
    created ▸ failed

`payment.failed`, `refund.created` and `dispute.created` write the status without looking at it;
`payment.captured` and `verifyPayment` look only whether it is `captured` already.  A processor
delivers late, twice and out of order, so a captured payment can become failed and a refunded one
captured again (`late_failure_unpays`).

A sequence of deliveries and calls keeps to the diagram exactly if each of them, where it reaches
the payment at all, finds it in a status it is due in (`lifecycle_iff`).
-/

namespace WorkPlatform.Payment

open Machinery

/-! ## One delivery or call after another -/

/-- A call of `verifyPayment`, or the delivery of a webhook. -/
inductive Op
  | verify (orgId orderId paymentId signature : String)
  | deliver (event : WebhookEvent)
  deriving DecidableEq

/-- The call that an operation starts. -/
def Op.call : Op → Call
  | .verify orgId orderId paymentId signature =>
    .verifyPayment orgId orderId paymentId signature .find
  | .deliver event => .webhook event .get

/-- `op` from its first statement to its last; none has more than six. -/
def process (cfg : Config) (s : Store) (op : Op) : Store :=
  ((paymentMachine cfg).proceed () 6 (s, op.call)).1

/-- `P` holds of each operation of a sequence, in the state it starts from. -/
def Along (cfg : Config) (P : Store → Op → Prop) : Store → List Op → Prop
  | _, [] => True
  | s, op :: ops => P s op ∧ Along cfg P (process cfg s op) ops

theorem along_congr {cfg : Config} {P Q : Store → Op → Prop} (h : ∀ s op, P s op ↔ Q s op) :
    ∀ (s : Store) (ops : List Op), Along cfg P s ops ↔ Along cfg Q s ops
  | _, [] => Iff.rfl
  | s, op :: ops => and_congr (h s op) (along_congr h _ ops)

/-! ## The table of payments -/

section Table

variable {t t' : Payments} {o orderId paymentId : String} {status : PaymentStatus}

/-- What is found after the UPDATE is what was found, with its status set. -/
theorem findByOrderId_updateStatus {pid : Option String}
    (h : t.updateStatus orderId status pid = some t') :
    t'.findByOrderId o = (t.findByOrderId o).map (.setStatus orderId status pid) := by
  unfold Payments.updateStatus at h
  dsimp only at h
  split at h
  · obtain rfl := Option.some.inj h
    unfold Payments.findByOrderId
    rw [List.find?_map]
    simp only [Function.comp_def, PaymentRow.setStatus_orderId]
  · cases h

theorem findByOrderId_updateStatusOf :
    (t.updateStatusOf paymentId status).findByOrderId o
      = (t.findByOrderId o).map (.setStatusOf paymentId status) := by
  unfold Payments.findByOrderId Payments.updateStatusOf
  rw [List.find?_map]
  simp only [Function.comp_def, PaymentRow.setStatusOf_orderId]

theorem orderId_of_find {r : PaymentRow} (h : t.findByOrderId o = some r) :
    r.razorpayOrderId = o := by
  have := List.find?_some h
  simpa using this

/-- The UPDATE without a Razorpay id meets no constraint. -/
theorem updateStatus_none_isSome (t : Payments) (orderId : String) (status : PaymentStatus) :
    (t.updateStatus orderId status none).isSome = true := by
  have hkeep : ∀ r : PaymentRow,
      (r.setStatus orderId status none).razorpayPaymentId = r.razorpayPaymentId := by
    intro r
    unfold PaymentRow.setStatus
    split <;> rfl
  unfold Payments.updateStatus
  dsimp only
  rw [dif_pos]
  · rfl
  · rw [List.filterMap_map, Function.comp_def]
    simpa only [hkeep] using t.payments_nodup

theorem status_setStatus {pid : Option String} (r : PaymentRow) :
    (r.setStatus orderId status pid).status
      = if r.razorpayOrderId = orderId then status else r.status := by
  unfold PaymentRow.setStatus
  split <;> rfl

theorem status_setStatusOf (r : PaymentRow) :
    (r.setStatusOf paymentId status).status
      = if r.razorpayPaymentId = some paymentId then status else r.status := by
  unfold PaymentRow.setStatusOf
  split <;> rfl

end Table

/-! ## What an operation does to a payment -/

/-- The calls that write no payment any more. -/
def Call.settled : Call → Bool
  | .verifyPayment _ _ _ _ .find | .verifyPayment _ _ _ _ (.capture _) => false
  | .verifyPayment _ _ _ _ _ => true
  | .webhook _ .get | .webhook _ (.findCaptured _ _) | .webhook _ (.capture _ _ _)
  | .webhook _ (.findFailed _) | .webhook _ (.fail _ _) | .webhook _ (.settle _ _ _) => false
  | .webhook _ _ => true
  | _ => false

section Process

variable {cfg : Config} {s s' : Store} {c c' : Call} {o orgId orderId paymentId signature : String}
  {r : PaymentRow}

/-- A call that has settled leaves the payments alone. -/
theorem settled_next (h : next cfg s c = some (s', c')) (hc : c.settled = true) :
    s'.payments = s.payments ∧ c'.settled = true := by
  cases c with
  | verifyPayment _ _ _ _ pc =>
    obtain ⟨pc', hpc, rfl⟩ := pc_of_next h
    cases pc with
    | find | capture _ => cases hc
    | subscribe payment updated =>
      obtain ⟨rfl, rfl⟩ := Prod.mk.inj (Option.some.inj hpc)
      unfold Store.upsertSubscription
      split <;> exact ⟨rfl, rfl⟩
    | plan _ _ | outbox _ =>
      obtain ⟨rfl, rfl⟩ := Prod.mk.inj (Option.some.inj hpc)
      exact ⟨rfl, rfl⟩
    | returned _ | threw _ | failed => cases hpc
  | webhook event pc =>
    obtain ⟨pc', hpc, rfl⟩ := pc_of_next h
    cases pc with
    | get | findCaptured _ _ | capture _ _ _ | findFailed _ | fail _ _ | settle _ _ _ => cases hc
    | reactivate e =>
      obtain ⟨rfl, rfl⟩ := Prod.mk.inj (Option.some.inj hpc)
      split <;> exact ⟨rfl, rfl⟩
    | findByOrg id | findSubscription id =>
      obtain ⟨rfl, rfl⟩ := Prod.mk.inj (Option.some.inj hpc)
      split <;> exact ⟨rfl, rfl⟩
    | outbox e =>
      rw [webhookNext] at hpc
      split at hpc <;>
        (obtain ⟨rfl, rfl⟩ := Prod.mk.inj (Option.some.inj hpc); exact ⟨rfl, rfl⟩)
    | received | failed => cases hpc
    | _ =>
      obtain ⟨rfl, rfl⟩ := Prod.mk.inj (Option.some.inj hpc)
      exact ⟨rfl, rfl⟩
  | _ => cases hc

/-- The rest of a settled call. -/
theorem proceed_settled (n : ℕ) (hc : c.settled = true) :
    ((paymentMachine cfg).proceed () n (s, c)).1.payments = s.payments := by
  have h := Machine.proceed_invariant (M := paymentMachine cfg) (d := ())
    (I := fun x => x.1.payments = s.payments ∧ x.2.settled = true)
    (fun s₁ k s₂ k' hI hn => by
      obtain ⟨hpay, hset⟩ := settled_next hn hI.2
      exact ⟨hpay.trans hI.1, hset⟩) n (x := (s, c)) ⟨rfl, hc⟩
  exact h.1

theorem proceed_verify {pc pc' : VerifyPc} (n : ℕ)
    (h : verifyNext cfg s orgId orderId paymentId signature pc = some (s', pc')) :
    (paymentMachine cfg).proceed () (n + 1) (s, .verifyPayment orgId orderId paymentId signature pc)
      = (paymentMachine cfg).proceed () n
        (s', .verifyPayment orgId orderId paymentId signature pc') :=
  Machine.proceed_succ (congrArg (Option.map _) h) n

theorem proceed_webhook {event : WebhookEvent} {pc pc' : WebhookPc} (n : ℕ)
    (h : webhookNext cfg s event pc = some (s', pc')) :
    (paymentMachine cfg).proceed () (n + 1) (s, .webhook event pc)
      = (paymentMachine cfg).proceed () n (s', .webhook event pc') :=
  Machine.proceed_succ (congrArg (Option.map _) h) n

/-- The status `op` writes to the payment, where it reaches it: the signature is valid and the
delivery not a duplicate, it names the payment, and no other payment has the Razorpay id it
brings. -/
def Op.target (cfg : Config) (s : Store) (r : PaymentRow) : Op → Option PaymentStatus
  | .verify orgId orderId paymentId signature =>
    if cfg.verifyPaymentSignature orderId paymentId signature ∧ r.razorpayOrderId = orderId
        ∧ r.orgId = orgId ∧ (s.payments.updateStatus orderId .captured (some paymentId)).isSome then
      some .captured
    else none
  | .deliver event =>
    if s.alreadyProcessed event.key then none
    else
      match event with
      | .paymentCaptured id orderId =>
        if truthy orderId = some r.razorpayOrderId
            ∧ (s.payments.updateStatus r.razorpayOrderId .captured (some id)).isSome then
          some .captured
        else none
      | .paymentFailed _ orderId =>
        if truthy orderId = some r.razorpayOrderId then some .failed else none
      | .refundCreated _ paymentId =>
        if r.razorpayPaymentId = some paymentId then some .refunded else none
      | .disputeCreated _ paymentId =>
        if r.razorpayPaymentId = some paymentId then some .disputed else none
      | .subscriptionCharged _ => none

/-- Rows of one order are one row. -/
theorem eq_of_find (hr : s.payments.findByOrderId o = some r) {payment : PaymentRow}
    (h : s.payments.findByOrderId orderId = some payment) (ho : r.razorpayOrderId = orderId) :
    payment = r := by
  rw [← ho, orderId_of_find hr, hr] at h
  exact (Option.some.inj h).symm

theorem orderId_ne_of_find_none (hr : s.payments.findByOrderId o = some r)
    (hfind : s.payments.findByOrderId orderId = none) : r.razorpayOrderId ≠ orderId := by
  rintro rfl
  rw [orderId_of_find hr, hr] at hfind
  cases hfind

/-- A row after the UPDATE of a capture. -/
theorem captured_row {t : Payments} (hr : s.payments.findByOrderId o = some r)
    (ht : s.payments.updateStatus orderId .captured (some paymentId) = some t) :
    ∃ r', t.findByOrderId o = some r'
      ∧ r'.status = if r.razorpayOrderId = orderId then .captured else r.status := by
  rw [findByOrderId_updateStatus ht, hr]
  exact ⟨_, rfl, status_setStatus r⟩

/-- What `verifyPayment` makes of the status of a payment. -/
theorem status_verify (hr : s.payments.findByOrderId o = some r) :
    ∃ r', (process cfg s (.verify orgId orderId paymentId signature)).payments.findByOrderId o
        = some r'
      ∧ r'.status
        = ((Op.verify orgId orderId paymentId signature).target cfg s r).getD r.status := by
  rw [process, Op.call, proceed_verify 5 rfl, Op.target]
  by_cases hsig : cfg.verifyPaymentSignature orderId paymentId signature = true
  case neg =>
    rw [if_neg hsig, proceed_settled 5 rfl, if_neg fun h => hsig h.1]
    exact ⟨r, hr, rfl⟩
  rw [if_pos hsig]
  cases hfind : s.payments.findByOrderId orderId with
  | none =>
    rw [VerifyPc.found, proceed_settled 5 rfl, if_neg]
    · exact ⟨r, hr, rfl⟩
    · rintro ⟨-, ho, -⟩
      exact orderId_ne_of_find_none hr hfind ho
  | some payment =>
    rw [VerifyPc.found]
    split
    · rename_i horg
      rw [proceed_settled 5 rfl, if_neg]
      · exact ⟨r, hr, rfl⟩
      · rintro ⟨-, ho, horg', -⟩
        obtain rfl := eq_of_find hr hfind ho
        exact horg horg'
    rename_i horg
    split
    · rename_i hcap
      rw [proceed_settled 5 rfl]
      refine ⟨r, hr, ?_⟩
      split
      · rename_i htarget
        obtain rfl := eq_of_find hr hfind htarget.2.1
        exact hcap
      · rfl
    · rename_i hcap
      cases ht : s.payments.updateStatus orderId .captured (some paymentId) with
      | none =>
        have hraised : verifyNext cfg s orgId orderId paymentId signature (.capture payment)
            = some (s, .failed) := by rw [verifyNext, ht]
        rw [proceed_verify 4 hraised, proceed_settled 4 rfl]
        exact ⟨r, hr, by simp⟩
      | some t =>
        obtain ⟨r', hr', hstatus⟩ := captured_row hr ht
        have hup : t.findByOrderId orderId
            = some (payment.setStatus orderId .captured (some paymentId)) := by
          rw [findByOrderId_updateStatus ht, hfind]
          rfl
        rw [proceed_verify 4 (by rw [verifyNext, ht]; dsimp only; rw [hup]), proceed_settled 4 rfl]
        refine ⟨r', hr', ?_⟩
        rw [hstatus]
        by_cases ho : r.razorpayOrderId = orderId
        · obtain rfl := eq_of_find hr hfind ho
          simp [hsig, ho, not_not.mp horg]
        · simp [ho]

/-- A delivery of `payment.captured`, behind the check for duplicates. -/
theorem status_captured (cfg : Config) (event : WebhookEvent) (id orderId : String) (n : ℕ)
    (hr : s.payments.findByOrderId o = some r) :
    ∃ r', ((paymentMachine cfg).proceed () (n + 2)
        (s, .webhook event (.findCaptured id orderId))).1.payments.findByOrderId o = some r'
      ∧ r'.status = if r.razorpayOrderId = orderId
          ∧ (s.payments.updateStatus orderId .captured (some id)).isSome then .captured
        else r.status := by
  cases hfind : s.payments.findByOrderId orderId with
  | none =>
    have ho := orderId_ne_of_find_none hr hfind
    have hnext : webhookNext cfg s event (.findCaptured id orderId) = some (s, .set) := by
      rw [webhookNext, hfind]
    rw [proceed_webhook (n + 1) hnext, proceed_settled _ rfl]
    exact ⟨r, hr, by simp [ho]⟩
  | some payment =>
    by_cases hcap : payment.status = .captured
    · have hnext : webhookNext cfg s event (.findCaptured id orderId) = some (s, .set) := by
        rw [webhookNext, hfind]
        dsimp only
        rw [if_pos hcap]
      rw [proceed_webhook (n + 1) hnext, proceed_settled _ rfl]
      refine ⟨r, hr, ?_⟩
      split
      · rename_i htarget
        obtain rfl := eq_of_find hr hfind htarget.1
        exact hcap
      · rfl
    · have hnext : webhookNext cfg s event (.findCaptured id orderId)
          = some (s, .capture id orderId payment) := by
        rw [webhookNext, hfind]
        dsimp only
        rw [if_neg hcap]
      rw [proceed_webhook (n + 1) hnext]
      cases ht : s.payments.updateStatus orderId .captured (some id) with
      | none =>
        have hraised : webhookNext cfg s event (.capture id orderId payment) = some (s, .failed) := by
          rw [webhookNext, ht]
        rw [proceed_webhook n hraised, proceed_settled _ rfl]
        exact ⟨r, hr, by simp⟩
      | some t =>
        obtain ⟨r', hr', hstatus⟩ := captured_row hr ht
        rw [proceed_webhook n (by rw [webhookNext, ht]), proceed_settled _ rfl]
        exact ⟨r', hr', by simp [hstatus]⟩

/-- A delivery of `payment.failed`, behind the check for duplicates. -/
theorem status_failed (cfg : Config) (event : WebhookEvent) (orderId : String) (n : ℕ)
    (hr : s.payments.findByOrderId o = some r) :
    ∃ r', ((paymentMachine cfg).proceed () (n + 2)
        (s, .webhook event (.findFailed orderId))).1.payments.findByOrderId o = some r'
      ∧ r'.status = if r.razorpayOrderId = orderId then .failed else r.status := by
  cases hfind : s.payments.findByOrderId orderId with
  | none =>
    have ho := orderId_ne_of_find_none hr hfind
    have hnext : webhookNext cfg s event (.findFailed orderId) = some (s, .set) := by
      rw [webhookNext, hfind]
    rw [proceed_webhook (n + 1) hnext, proceed_settled _ rfl]
    exact ⟨r, hr, by simp [ho]⟩
  | some payment =>
    obtain ⟨t, ht⟩ := Option.isSome_iff_exists.mp
      (updateStatus_none_isSome s.payments orderId .failed)
    have hnext : webhookNext cfg s event (.findFailed orderId) = some (s, .fail orderId payment) := by
      rw [webhookNext, hfind]
    rw [proceed_webhook (n + 1) hnext, proceed_webhook n (by rw [webhookNext, ht]),
      proceed_settled _ rfl]
    dsimp only
    rw [findByOrderId_updateStatus ht, hr]
    exact ⟨_, rfl, status_setStatus r⟩

/-- What a webhook makes of the status of a payment. -/
theorem status_deliver {event : WebhookEvent} (hr : s.payments.findByOrderId o = some r) :
    ∃ r', (process cfg s (.deliver event)).payments.findByOrderId o = some r'
      ∧ r'.status = ((Op.deliver event).target cfg s r).getD r.status := by
  rw [process, Op.call, proceed_webhook 5 rfl]
  unfold Op.target
  dsimp only
  split
  · rw [proceed_settled 5 rfl]
    exact ⟨r, hr, rfl⟩
  cases event with
  | paymentCaptured id orderId =>
    dsimp only [WebhookEvent.handler]
    cases htruthy : truthy orderId with
    | none =>
      dsimp only
      rw [proceed_settled 5 rfl]
      exact ⟨r, hr, by simp⟩
    | some orderId =>
      obtain ⟨r', hr', hstatus⟩ := status_captured cfg (.paymentCaptured id _) id orderId 3 hr
      refine ⟨r', hr', ?_⟩
      rw [hstatus]
      by_cases ho : r.razorpayOrderId = orderId
      · subst ho
        simp only [true_and]
        split <;> rfl
      · simp [ho, Ne.symm ho]
  | paymentFailed id orderId =>
    dsimp only [WebhookEvent.handler]
    cases htruthy : truthy orderId with
    | none =>
      dsimp only
      rw [proceed_settled 5 rfl]
      exact ⟨r, hr, by simp⟩
    | some orderId =>
      obtain ⟨r', hr', hstatus⟩ := status_failed cfg (.paymentFailed id _) orderId 3 hr
      refine ⟨r', hr', ?_⟩
      rw [hstatus]
      by_cases ho : r.razorpayOrderId = orderId
      · simp [ho]
      · simp [ho, Ne.symm ho]
  | subscriptionCharged id =>
    rw [WebhookEvent.handler, proceed_settled 5 rfl]
    exact ⟨r, hr, rfl⟩
  | refundCreated id paymentId | disputeCreated id paymentId =>
    rw [WebhookEvent.handler, proceed_webhook 4 rfl, proceed_settled]
    · dsimp only
      rw [findByOrderId_updateStatusOf, hr]
      refine ⟨_, rfl, ?_⟩
      rw [status_setStatusOf]
      split <;> rfl
    · cases s.payments.findByPaymentId paymentId <;> rfl

/-- **What an operation does to a payment**: it writes its target, if it reaches the payment. -/
theorem status_process (cfg : Config) (op : Op) (hr : s.payments.findByOrderId o = some r) :
    ∃ r', (process cfg s op).payments.findByOrderId o = some r'
      ∧ r'.status = (op.target cfg s r).getD r.status := by
  cases op with
  | verify orgId orderId paymentId signature => exact status_verify hr
  | deliver event => exact status_deliver hr

end Process

/-! ## The lifecycle -/

/-- The arrows of the diagram. -/
def PaymentStatus.leadsTo : PaymentStatus → PaymentStatus → Bool
  | .created, .authorized | .authorized, .captured | .created, .captured | .created, .failed
  | .captured, .refunded | .captured, .disputed => true
  | _, _ => false

/-- The status of the payment with the given order id. -/
def Store.paymentStatus (s : Store) (orderId : String) : Option PaymentStatus :=
  (s.payments.findByOrderId orderId).map (·.status)

/-- The operation changes the status of the payment along an arrow, or not at all. -/
def Lawful (cfg : Config) (orderId : String) (s : Store) (op : Op) : Prop :=
  ∀ a b, s.paymentStatus orderId = some a → (process cfg s op).paymentStatus orderId = some b →
    a ≠ b → a.leadsTo b = true

/-- The statuses an event is due in: a capture once the payment is created or authorized, a failure
while it is only created, a refund or a dispute once it is captured; and any of them again. -/
def PaymentStatus.dueIn : PaymentStatus → PaymentStatus → Bool
  | .captured, .created | .captured, .authorized | .captured, .captured => true
  | .failed, .created | .failed, .failed => true
  | .refunded, .captured | .refunded, .refunded => true
  | .disputed, .captured | .disputed, .disputed => true
  | _, _ => false

/-- Where the operation reaches the payment, it is due. -/
def Due (cfg : Config) (orderId : String) (s : Store) (op : Op) : Prop :=
  ∀ r ∈ s.payments.findByOrderId orderId, ∀ status ∈ op.target cfg s r,
    status.dueIn r.status = true

section Lifecycle

variable {cfg : Config} {s : Store} {r : PaymentRow} {op : Op}

/-- What an operation can write. -/
theorem target_mem {status : PaymentStatus} (h : op.target cfg s r = some status) :
    status = .captured ∨ status = .failed ∨ status = .refunded ∨ status = .disputed := by
  unfold Op.target at h
  cases op with
  | verify orgId orderId paymentId signature =>
    dsimp only at h
    split at h
    · exact Or.inl (Option.some.inj h).symm
    · cases h
  | deliver event =>
    dsimp only at h
    split at h
    · cases h
    cases event with
    | subscriptionCharged id => cases h
    | paymentCaptured id orderId | paymentFailed id orderId | refundCreated id paymentId
    | disputeCreated id paymentId =>
      dsimp only at h
      split at h
      · obtain rfl := Option.some.inj h
        simp
      · cases h

theorem dueIn_iff {status a : PaymentStatus}
    (h : status = .captured ∨ status = .failed ∨ status = .refunded ∨ status = .disputed) :
    status.dueIn a = true ↔ (a ≠ status → a.leadsTo status = true) := by
  rcases h with rfl | rfl | rfl | rfl <;> cases a <;> decide

/-- An operation moves a payment lawfully exactly where the move is due. -/
theorem lawful_iff_due (orderId : String) : Lawful cfg orderId s op ↔ Due cfg orderId s op := by
  unfold Lawful Due Store.paymentStatus
  cases hr : s.payments.findByOrderId orderId with
  | none =>
    constructor
    · rintro _ r ⟨⟩
    · rintro _ a b ⟨⟩
  | some r =>
    obtain ⟨r', hr', hstatus⟩ := status_process cfg op hr
    rw [hr']
    constructor
    · rintro h _ ⟨⟩ status hst
      have htarget : op.target cfg s r = some status := hst
      rw [htarget] at hstatus
      refine (dueIn_iff (target_mem htarget)).mpr fun hne => ?_
      rw [← show r'.status = status from hstatus] at hne ⊢
      exact h r.status r'.status rfl rfl hne
    · rintro h _ _ ⟨⟩ ⟨⟩ hne
      cases htarget : op.target cfg s r with
      | none =>
        rw [htarget] at hstatus
        exact absurd hstatus.symm hne
      | some status =>
        rw [htarget] at hstatus
        dsimp only at hne ⊢
        rw [show r'.status = status from hstatus] at hne ⊢
        exact (dueIn_iff (target_mem htarget)).mp (h r rfl status htarget) hne

end Lifecycle

/-- **A sequence keeps to the diagram exactly if everything in it is due**, whatever it starts
from. -/
theorem lifecycle_iff (cfg : Config) (orderId : String) (s : Store) (ops : List Op) :
    Along cfg (Lawful cfg orderId) s ops ↔ Along cfg (Due cfg orderId) s ops :=
  along_congr (fun _ _ => lawful_iff_due orderId) s ops

/-! ## A failure that comes late -/

/-- One payment of the organisation `o`, not captured yet. -/
def demoPayments : Payments where
  rows := [⟨"p", "o", "order", none, .created, some .pro⟩]
  orders_nodup := by decide
  payments_nodup := by decide

/-- An active organisation on the free plan, and an order for the plan `pro`. -/
def demoOrder : Store := { demoStore ⟨⟨.active, false⟩, none, .free⟩ with payments := demoPayments }

/-- **A failed attempt reported after the capture of the next one**: the payment is captured, and
then failed. -/
theorem late_failure_unpays :
    demoOrder.paymentStatus "order" = some .created
      ∧ (process demoConfig demoOrder
          (.deliver (.paymentCaptured "pay2" (some "order")))).paymentStatus "order"
        = some .captured
      ∧ (process demoConfig (process demoConfig demoOrder
          (.deliver (.paymentCaptured "pay2" (some "order"))))
          (.deliver (.paymentFailed "pay1" (some "order")))).paymentStatus "order" = some .failed
      ∧ ¬ Along demoConfig (Lawful demoConfig "order") demoOrder
        [.deliver (.paymentCaptured "pay2" (some "order")),
          .deliver (.paymentFailed "pay1" (some "order"))] := by
  have hcaptured : (process demoConfig demoOrder
      (.deliver (.paymentCaptured "pay2" (some "order")))).paymentStatus "order"
        = some .captured := by decide
  have hfailed : (process demoConfig (process demoConfig demoOrder
      (.deliver (.paymentCaptured "pay2" (some "order"))))
      (.deliver (.paymentFailed "pay1" (some "order")))).paymentStatus "order"
        = some .failed := by decide
  refine ⟨by decide, hcaptured, hfailed, ?_⟩
  rintro ⟨-, hlate, -⟩
  cases hlate _ _ hcaptured hfailed nofun

end WorkPlatform.Payment

import Mathlib.Data.List.Nodup
import Mathlib.Logic.Function.Basic

/-!
# Payment/Store — payments, subscriptions and the organisations they pay for

    PostgreSQL   organizations (a primary and a replica that lags), payments, subscriptions,
                 outbox_events
    Redis        webhook:razorpay:<event>:<entity id>, the queue payments

`payments` carries its two uniqueness constraints: an order is one payment, and an UPDATE that
would give two payments one Razorpay id fails.  Every write of `organizations.status` and of
`grace_period_ends_at` in the repository goes through a statement below.
-/

namespace WorkPlatform.Payment

/-! ## Rows -/

inductive PaymentStatus
  | created | authorized | captured | failed | refunded | disputed
  deriving DecidableEq, Repr

inductive PlanTier
  | free | pro | business | enterprise
  deriving DecidableEq, Repr

inductive OrgStatus
  | active | suspended | offboarding | deleted
  deriving DecidableEq, Repr

/-- A row of `payments`; `planTier` is `metadata['planTier']`. -/
structure PaymentRow where
  id : String
  orgId : String
  razorpayOrderId : String
  razorpayPaymentId : Option String
  status : PaymentStatus
  planTier : Option PlanTier
  deriving DecidableEq

/-- A row of `subscriptions`. -/
structure SubscriptionRow where
  orgId : String
  razorpaySubscriptionId : Option String
  planTier : PlanTier
  deriving DecidableEq

/-- The columns of `organizations` that every service reads. -/
structure OrgState where
  status : OrgStatus
  deleted : Bool
  deriving DecidableEq

/-- A row of `organizations`, less the columns nothing here reads; times are in milliseconds. -/
structure OrgRow extends OrgState where
  gracePeriodEndsAt : Option ℕ
  planTier : PlanTier
  deriving DecidableEq

/-- The events of these services. -/
inductive OutboxType
  | paymentCaptured | paymentRefunded | paymentDisputed | paymentSubscriptionCharged
  | orgSuspended | orgReactivated | orgOffboardingStarted | orgGracePeriodStarted
  deriving DecidableEq, Repr

/-- A row of `outbox_events`, less its payload. -/
structure OutboxEvent where
  eventType : OutboxType
  orgId : String
  entityId : String
  deriving DecidableEq

inductive WebhookKind
  | paymentCaptured | paymentFailed | subscriptionCharged | refundCreated | disputeCreated
  deriving DecidableEq, Repr

/-- `webhook:razorpay:<event>:<entity id>`; no event has a colon in its name. -/
structure WebhookKey where
  event : WebhookKind
  entityId : String
  deriving DecidableEq

/-! ## The table of payments -/

/-- The table `payments`, with its two UNIQUE columns. -/
structure Payments where
  rows : List PaymentRow
  orders_nodup : (rows.map (·.razorpayOrderId)).Nodup
  payments_nodup : (rows.filterMap (·.razorpayPaymentId)).Nodup

namespace PaymentRow

/-- `SET status = $1, razorpay_payment_id = $2 WHERE razorpay_order_id = $3`, for one row; the id is
left out where the caller gives none. -/
def setStatus (orderId : String) (status : PaymentStatus) (paymentId : Option String)
    (r : PaymentRow) : PaymentRow :=
  if r.razorpayOrderId = orderId then
    { r with status := status, razorpayPaymentId := paymentId.or r.razorpayPaymentId }
  else r

/-- `SET status = … WHERE razorpay_payment_id = $1`, for one row. -/
def setStatusOf (paymentId : String) (status : PaymentStatus) (r : PaymentRow) : PaymentRow :=
  if r.razorpayPaymentId = some paymentId then { r with status := status } else r

@[simp] theorem setStatus_orderId (orderId : String) (status : PaymentStatus)
    (paymentId : Option String) (r : PaymentRow) :
    (r.setStatus orderId status paymentId).razorpayOrderId = r.razorpayOrderId := by
  unfold setStatus
  split <;> rfl

@[simp] theorem setStatusOf_orderId (paymentId : String) (status : PaymentStatus)
    (r : PaymentRow) : (r.setStatusOf paymentId status).razorpayOrderId = r.razorpayOrderId := by
  unfold setStatusOf
  split <;> rfl

@[simp] theorem setStatusOf_paymentId (paymentId : String) (status : PaymentStatus)
    (r : PaymentRow) :
    (r.setStatusOf paymentId status).razorpayPaymentId = r.razorpayPaymentId := by
  unfold setStatusOf
  split <;> rfl

end PaymentRow

namespace Payments

/-- `SELECT * FROM payments WHERE razorpay_order_id = $1 LIMIT 1`. -/
def findByOrderId (t : Payments) (orderId : String) : Option PaymentRow :=
  t.rows.find? (·.razorpayOrderId = orderId)

/-- `updateStatus`; `none` where the UPDATE violates the constraint on `razorpay_payment_id`. -/
def updateStatus (t : Payments) (orderId : String) (status : PaymentStatus)
    (paymentId : Option String) : Option Payments :=
  let rows := t.rows.map (.setStatus orderId status paymentId)
  if h : (rows.filterMap (·.razorpayPaymentId)).Nodup then
    some ⟨rows, by simpa [rows, Function.comp_def] using t.orders_nodup, h⟩
  else none

/-- The UPDATE sets the status of the rows of the order. -/
theorem rows_updateStatus {t t' : Payments} {orderId : String} {status : PaymentStatus}
    {paymentId : Option String} (h : t.updateStatus orderId status paymentId = some t') :
    t'.rows = t.rows.map (.setStatus orderId status paymentId) := by
  unfold updateStatus at h
  dsimp only at h
  split at h
  · obtain rfl := Option.some.inj h
    rfl
  · cases h

/-- The UPDATE of refunds and disputes. -/
def updateStatusOf (t : Payments) (paymentId : String) (status : PaymentStatus) : Payments where
  rows := t.rows.map (.setStatusOf paymentId status)
  orders_nodup := by simpa [Function.comp_def] using t.orders_nodup
  payments_nodup := by simpa [List.filterMap_map, Function.comp_def] using t.payments_nodup

/-- The row `RETURNING` returns to refunds and disputes. -/
def findByPaymentId (t : Payments) (paymentId : String) : Option PaymentRow :=
  t.rows.find? (·.razorpayPaymentId = some paymentId)

end Payments

/-! ## The store -/

/-- What is on record of an organisation: the failures that were processed, with their time, and
the captures and reactivations. -/
inductive Milestone
  | failure (orgId : String) (time : ℕ)
  | recovery (orgId : String)
  deriving DecidableEq

/-- A job of the queue `payments`, with its delay in milliseconds. -/
inductive Job
  | handlePaymentFailure (orgId : String)
  | checkGracePeriod (orgId : String) (delay : ℕ)
  deriving DecidableEq

/-- Organisations on both databases, payments and subscriptions, what is recorded of webhooks, and
the events that were sent. -/
structure Store where
  now : ℕ
  primary : String → Option OrgRow
  replica : String → Option OrgRow
  payments : Payments
  subscriptions : List SubscriptionRow
  outbox : List OutboxEvent
  processed : WebhookKey → Option ℕ
  milestones : List Milestone
  jobs : List Job

namespace Store

/-- What happened to an organisation, on record. -/
def mark (s : Store) (m : Milestone) : Store := { s with milestones := m :: s.milestones }

/-! ## Statements on `organizations` -/

/-- `findById`: `SELECT … WHERE id = $1 AND deleted_at IS NULL`, on the replica. -/
def findOrgById (s : Store) (orgId : String) : Option OrgRow :=
  (s.replica orgId).filter fun org => ¬ org.deleted

/-- `UPDATE organizations SET … WHERE id = $1 AND p`. -/
def updateOrg (s : Store) (orgId : String) (p : OrgRow → Bool) (f : OrgRow → OrgRow) : Store :=
  let row := (s.primary orgId).map fun org => if p org then f org else org
  { s with primary := Function.update s.primary orgId row }

/-- `updateStatus`: `… WHERE id = $1 AND deleted_at IS NULL`. -/
def updateStatus (s : Store) (orgId : String) (status : OrgStatus) : Store :=
  s.updateOrg orgId (fun org => ¬ org.deleted) fun org => { org with status := status }

/-- The UPDATE of the webhook, `… WHERE id = $1 AND status = 'suspended'`. -/
def reactivateSuspended (s : Store) (orgId : String) : Store :=
  s.updateOrg orgId (·.status = .suspended) fun org =>
    { org with status := .active, gracePeriodEndsAt := none }

/-- 7 days. -/
def gracePeriod : ℕ := 7 * 24 * 60 * 60 * 1000

/-- The UPDATE of `handlePaymentFailure`, `… WHERE id = $1 AND status = 'active'`. -/
def startGracePeriod (s : Store) (orgId : String) : Store :=
  s.updateOrg orgId (·.status = .active) fun org =>
    { org with gracePeriodEndsAt := some (s.now + gracePeriod) }

/-- The UPDATE of the GDPR route, `… WHERE id = $1`. -/
def setOffboarding (s : Store) (orgId : String) : Store :=
  s.updateOrg orgId (fun _ => true) fun org => { org with status := .offboarding }

/-- The UPDATE of the offboarding job, `… WHERE id = $1`. -/
def setDeleted (s : Store) (orgId : String) : Store :=
  s.updateOrg orgId (fun _ => true) fun org => { org with status := .deleted, deleted := true }

/-- The UPDATE of `verifyPayment`, `… WHERE id = $2`. -/
def setPlanTier (s : Store) (orgId : String) (planTier : PlanTier) : Store :=
  s.updateOrg orgId (fun _ => true) fun org => { org with planTier := planTier }

/-! ## Statements on the other tables, and Redis -/

/-- `SubscriptionRepository.upsert`, with no Razorpay id of its own. -/
def upsertSubscription (s : Store) (orgId : String) (planTier : PlanTier) : Store :=
  let set (r : SubscriptionRow) := if r.orgId = orgId then { r with planTier := planTier } else r
  if s.subscriptions.any (·.orgId = orgId) then
    { s with subscriptions := s.subscriptions.map set }
  else { s with subscriptions := ⟨orgId, none, planTier⟩ :: s.subscriptions }

/-- `SELECT org_id FROM subscriptions WHERE razorpay_subscription_id = $1 LIMIT 1`. -/
def orgOfSubscription (s : Store) (razorpaySubscriptionId : String) : Option String :=
  (s.subscriptions.find? (·.razorpaySubscriptionId = some razorpaySubscriptionId)).map (·.orgId)

def writeOutboxEvent (s : Store) (e : OutboxEvent) : Store := { s with outbox := e :: s.outbox }

/-- `queues['payments'].add`. -/
def enqueue (s : Store) (job : Job) : Store := { s with jobs := job :: s.jobs }

/-- `IDEMPOTENCY_TTL`, 7 days. -/
def idempotencyTtl : ℕ := 7 * 24 * 3600 * 1000

/-- `GET webhook:razorpay:…`. -/
def alreadyProcessed (s : Store) (key : WebhookKey) : Bool := (s.processed key).any (s.now < ·)

/-- `SET webhook:razorpay:… EX`. -/
def markProcessed (s : Store) (key : WebhookKey) : Store :=
  { s with processed := Function.update s.processed key (some (s.now + idempotencyTtl)) }

end Store

end WorkPlatform.Payment

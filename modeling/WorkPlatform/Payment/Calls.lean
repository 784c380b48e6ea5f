import WorkPlatform.Machinery.Run
import WorkPlatform.Shared.AppError
import WorkPlatform.Payment.Store

/-!
# Payment/Calls — everything that writes a payment or the status of an organisation

    verifyPayment      find ▸ capture ▸ subscribe ▸ plan ▸ outbox
    webhook            get ▸ … ▸ set, and in between
      payment.captured     find ▸ capture ▸ reactivate ▸ outbox
      payment.failed       find ▸ fail ▸ enqueue
      subscription.charged findByOrg ▸ findSubscription ▸ reactivate ▸ outbox
      refund.created, dispute.created   settle ▸ outbox
    suspendOrg, reactivateOrg, startOffboarding   find ▸ update ▸ outbox ▸ audit
    handlePaymentFailure   find ▸ update ▸ outbox ▸ enqueue
    checkGracePeriod       find ▸ suspendOrg
    offboard (GDPR)        select ▸ update ▸ enqueue
    runOffboardingJob      select ▸ members ▸ softDelete ▸ delete ▸ audit

A move of a call is one statement and the code after it, up to the next statement.  A webhook
starts behind its signature and its schema.  Jobs run at any time and any number of times, whatever
is in the queue; `payment-captured` is enqueued nowhere and left out.
-/

namespace WorkPlatform.Payment

open Machinery

/-- `razorpayClient.verifyPaymentSignature`, and the texts PostgreSQL takes for a UUID. -/
structure Config where
  verifyPaymentSignature : String → String → String → Bool
  isUuid : String → Bool

/-- A text that is neither null nor empty. -/
def truthy : Option String → Option String
  | some t => if t = "" then none else some t
  | none => none

/-! ## `verifyPayment` -/

/-- `payment` is the row the call has read, `updated` the row its UPDATE returned. -/
inductive VerifyPc
  | find
  | capture (payment : PaymentRow)
  | subscribe (payment updated : PaymentRow)
  | plan (payment updated : PaymentRow)
  | outbox (updated : PaymentRow)
  | returned (payment : PaymentRow)
  | threw (e : AppError)
  | failed
  deriving DecidableEq

/-- The checks on the payment. -/
def VerifyPc.found (orgId : String) : Option PaymentRow → VerifyPc
  | none => .threw (.notFound "Payment")
  | some payment =>
    if payment.orgId ≠ orgId then .threw (.notFound "Payment")
    else if payment.status = .captured then .returned payment
    else .capture payment

/-- `(payment.metadata['planTier'] as string) ?? 'pro'`. -/
def PaymentRow.purchasedTier (payment : PaymentRow) : PlanTier := payment.planTier.getD .pro

/-- The next statement of `verifyPayment`. -/
def verifyNext (cfg : Config) (s : Store) (orgId orderId paymentId signature : String) :
    VerifyPc → Option (Store × VerifyPc)
  | .find => some (s,
      if cfg.verifyPaymentSignature orderId paymentId signature then
        .found orgId (s.payments.findByOrderId orderId)
      else .threw (.badRequest "INVALID_PAYMENT_SIGNATURE" "Payment signature verification failed"))
  | .capture payment =>
    match s.payments.updateStatus orderId .captured (some paymentId) with
    | none => some (s, .failed)
    | some t =>
      match t.findByOrderId orderId with
      | none => some ({ s with payments := t },
          .threw (.conflict "PAYMENT_UPDATE_CONFLICT" "Payment status update conflict"))
      | some updated => some (({ s with payments := t } : Store).mark (.recovery orgId),
          .subscribe payment updated)
  | .subscribe payment updated =>
    some (s.upsertSubscription orgId payment.purchasedTier, .plan payment updated)
  | .plan payment updated => some (s.setPlanTier orgId payment.purchasedTier, .outbox updated)
  | .outbox updated =>
    some (s.writeOutboxEvent ⟨.paymentCaptured, orgId, updated.id⟩, .returned updated)
  | .returned _ | .threw _ | .failed => none

/-! ## Webhooks -/

/-- A parsed payload, less what no handler reads. -/
inductive WebhookEvent
  | paymentCaptured (id : String) (orderId : Option String)
  | paymentFailed (id : String) (orderId : Option String)
  | subscriptionCharged (id : String)
  | refundCreated (id paymentId : String)
  | disputeCreated (id paymentId : String)
  deriving DecidableEq

/-- The key under which a delivery is recorded. -/
def WebhookEvent.key : WebhookEvent → WebhookKey
  | .paymentCaptured id _ => ⟨.paymentCaptured, id⟩
  | .paymentFailed id _ => ⟨.paymentFailed, id⟩
  | .subscriptionCharged id => ⟨.subscriptionCharged, id⟩
  | .refundCreated id _ => ⟨.refundCreated, id⟩
  | .disputeCreated id _ => ⟨.disputeCreated, id⟩

/-- `failed` is the answer 500 of a statement that raised. -/
inductive WebhookPc
  | get
  | findCaptured (id orderId : String)
  | capture (id orderId : String) (payment : PaymentRow)
  | reactivate (event : OutboxEvent)
  | findFailed (orderId : String)
  | fail (orderId : String) (payment : PaymentRow)
  | enqueue (orgId : String)
  | findByOrg (id : String)
  | findSubscription (id : String)
  | settle (paymentId : String) (status : PaymentStatus) (eventType : OutboxType)
  | outbox (event : OutboxEvent)
  | set
  | received
  | failed
  deriving DecidableEq

/-- The handler of an event, up to its first statement. -/
def WebhookEvent.handler : WebhookEvent → WebhookPc
  | .paymentCaptured id orderId =>
    match truthy orderId with
    | some orderId => .findCaptured id orderId
    | none => .set
  | .paymentFailed _ orderId =>
    match truthy orderId with
    | some orderId => .findFailed orderId
    | none => .set
  | .subscriptionCharged id => .findByOrg id
  | .refundCreated _ paymentId => .settle paymentId .refunded .paymentRefunded
  | .disputeCreated _ paymentId => .settle paymentId .disputed .paymentDisputed

/-- The result of `findByOrg('')` is not used, but the statement raises where PostgreSQL takes `''`
for no UUID.  Of the other values that go to a UUID column, only the entity of an outbox event may
come from the payload. -/
def webhookNext (cfg : Config) (s : Store) (event : WebhookEvent) :
    WebhookPc → Option (Store × WebhookPc)
  | .get => some (s, if s.alreadyProcessed event.key then .received else event.handler)
  | .findCaptured id orderId => some (s,
      match s.payments.findByOrderId orderId with
      | none => .set
      | some payment => if payment.status = .captured then .set else .capture id orderId payment)
  | .capture id orderId payment =>
    match s.payments.updateStatus orderId .captured (some id) with
    | none => some (s, .failed)
    | some t => some (({ s with payments := t } : Store).mark (.recovery payment.orgId),
        .reactivate ⟨.paymentCaptured, payment.orgId, payment.id⟩)
  | .findFailed orderId => some (s,
      match s.payments.findByOrderId orderId with
      | none => .set
      | some payment => .fail orderId payment)
  | .fail orderId payment =>
    match s.payments.updateStatus orderId .failed none with
    | none => some (s, .failed)
    | some t => some ({ s with payments := t }, .enqueue payment.orgId)
  | .enqueue orgId => some (s.enqueue (.handlePaymentFailure orgId), .set)
  | .findByOrg id => some (s, if cfg.isUuid "" then .findSubscription id else .failed)
  | .findSubscription id => some (s,
      match s.orgOfSubscription id with
      | none => .set
      | some orgId => .reactivate ⟨.paymentSubscriptionCharged, orgId, id⟩)
  | .reactivate e =>
    let s' := s.reactivateSuspended e.orgId
    let suspended := (s.primary e.orgId).any (·.status = .suspended)
    some (if suspended then s'.mark (.recovery e.orgId) else s', .outbox e)
  | .settle paymentId status eventType =>
    some ({ s with payments := s.payments.updateStatusOf paymentId status },
      match s.payments.findByPaymentId paymentId with
      | none => .set
      | some payment => .outbox ⟨eventType, payment.orgId, payment.id⟩)
  | .outbox e =>
    if cfg.isUuid e.entityId then some (s.writeOutboxEvent e, .set) else some (s, .failed)
  | .set => some (s.markProcessed event.key, .received)
  | .received | .failed => none

/-! ## `suspendOrg`, `reactivateOrg`, `startOffboarding` -/

/-- What the three services differ in; where nothing is thrown, a refusal returns with a warning. -/
structure Transition where
  target : OrgStatus
  allows : OrgStatus → Bool
  refusal : Option AppError
  eventType : OutboxType

def suspendOrg : Transition := ⟨.suspended, (· = .active), none, .orgSuspended⟩

def invalidStatusTransition (message : String) : AppError :=
  .forbidden "INVALID_STATUS_TRANSITION" message

/-- `reactivateOrg`. -/
def reactivateOrg : Transition where
  target := .active
  allows := (· = .suspended)
  refusal := some (invalidStatusTransition "Only suspended organizations can be reactivated")
  eventType := .orgReactivated

/-- `startOffboarding`. -/
def startOffboarding : Transition where
  target := .offboarding
  allows status := status = .active ∨ status = .suspended
  refusal := some
    (invalidStatusTransition "Offboarding can only start from active or suspended status")
  eventType := .orgOffboardingStarted

/-- `validated` is the status the call has read and allowed. -/
inductive TransitionPc
  | find
  | update (validated : OrgStatus)
  | outbox
  | audit
  | returned
  | threw (e : AppError)
  deriving DecidableEq

/-- The check on the organisation that was found. -/
def TransitionPc.found (t : Transition) : Option OrgRow → TransitionPc
  | none => .threw (.notFound "Organization")
  | some org =>
    if t.allows org.status then .update org.status
    else
      match t.refusal with
      | some e => .threw e
      | none => .returned

/-- A reactivation is on record with its UPDATE. -/
def transitionNext (t : Transition) (s : Store) (orgId : String) :
    TransitionPc → Option (Store × TransitionPc)
  | .find => some (s, .found t (s.findOrgById orgId))
  | .update _ =>
    let s' := s.updateStatus orgId t.target
    some (if t.target = .active then s'.mark (.recovery orgId) else s', .outbox)
  | .outbox => some (s.writeOutboxEvent ⟨t.eventType, orgId, orgId⟩, .audit)
  | .audit => some (s, .returned)
  | .returned | .threw _ => none

/-! ## The jobs of the payment worker -/

/-- Where a call of `handlePaymentFailure` is. -/
inductive FailurePc
  | find
  | update
  | outbox
  | enqueue
  | returned
  deriving DecidableEq

/-- The next statement of `handlePaymentFailure`. -/
def failureNext (s : Store) (orgId : String) : FailurePc → Option (Store × FailurePc)
  | .find => some (s,
      match s.findOrgById orgId with
      | none => .returned
      | some org =>
        if org.status = .suspended ∨ org.gracePeriodEndsAt.isSome then .returned else .update)
  | .update => some ((s.startGracePeriod orgId).mark (.failure orgId s.now), .outbox)
  | .outbox => some (s.writeOutboxEvent ⟨.orgGracePeriodStarted, orgId, orgId⟩, .enqueue)
  | .enqueue => some (s.enqueue (.checkGracePeriod orgId Store.gracePeriod), .returned)
  | .returned => none

/-- `suspend` is the call of `suspendOrg`. -/
inductive CheckPc
  | find
  | suspend (pc : TransitionPc)
  | returned
  deriving DecidableEq

/-- The tests of `checkGracePeriod`. -/
def graceExpired (now : ℕ) (org : OrgRow) : Bool :=
  org.status = .active ∧ org.gracePeriodEndsAt.any (· ≤ now)

/-- The next statement of `checkGracePeriod`. -/
def checkNext (s : Store) (orgId : String) : CheckPc → Option (Store × CheckPc)
  | .find => some (s,
      if (s.findOrgById orgId).any (graceExpired s.now) then .suspend .find else .returned)
  | .suspend pc => (transitionNext suspendOrg s orgId pc).map fun x => (x.1, .suspend x.2)
  | .returned => none

/-! ## Offboarding -/

/-- Where the route that offboards is. -/
inductive GdprPc
  | select
  | update (validated : OrgStatus)
  | enqueue
  | accepted
  | threw (e : AppError)
  deriving DecidableEq

/-- `POST /admin/orgs/:orgId/offboard`. -/
def gdprNext (s : Store) (orgId : String) : GdprPc → Option (Store × GdprPc)
  | .select => some (s,
      match (s.primary orgId).filter fun org => ¬ org.deleted with
      | none => .threw (.notFound "Organization")
      | some org =>
        if org.status = .deleted then
          .threw (.forbidden "ORG_ALREADY_DELETED" "Organization is already deleted.")
        else .update org.status)
  | .update _ => some (s.setOffboarding orgId, .enqueue)
  | .enqueue => some (s, .accepted)
  | .accepted | .threw _ => none

/-- The SELECT of the members with the jobs it enqueues, and the UPDATEs of the organisation's
other tables, touch nothing here. -/
inductive OffboardPc
  | select
  | members
  | softDelete
  | delete
  | audit
  | returned
  deriving DecidableEq

/-- The next statement of the offboarding job, as far as it concerns organisations. -/
def offboardNext (s : Store) (orgId : String) : OffboardPc → Option (Store × OffboardPc)
  | .select => some (s,
      match s.primary orgId with
      | none => .returned
      | some org => if org.status = .offboarding then .members else .returned)
  | .members => some (s, .softDelete)
  | .softDelete => some (s, .delete)
  | .delete => some (s.setDeleted orgId, .audit)
  | .audit => some (s, .returned)
  | .returned => none

/-! ## The machine -/

/-- A call, and where it is. -/
inductive Call
  | verifyPayment (orgId orderId paymentId signature : String) (pc : VerifyPc)
  | webhook (event : WebhookEvent) (pc : WebhookPc)
  | suspendOrg (orgId : String) (pc : TransitionPc)
  | reactivateOrg (orgId : String) (pc : TransitionPc)
  | startOffboarding (orgId : String) (pc : TransitionPc)
  | handlePaymentFailure (orgId : String) (pc : FailurePc)
  | checkGracePeriod (orgId : String) (pc : CheckPc)
  | offboard (orgId : String) (pc : GdprPc)
  | runOffboardingJob (orgId : String) (pc : OffboardPc)
  deriving DecidableEq

/-- The call has not run a statement yet. -/
def Call.fresh : Call → Bool
  | .verifyPayment _ _ _ _ .find | .webhook _ .get | .suspendOrg _ .find | .reactivateOrg _ .find
  | .startOffboarding _ .find | .handlePaymentFailure _ .find | .checkGracePeriod _ .find
  | .offboard _ .select | .runOffboardingJob _ .select => true
  | _ => false

/-- What happens around the calls: time and replication. -/
inductive Env
  | tick (ms : ℕ)
  | replicate

def env (s : Store) : Env → Store
  | .tick ms => { s with now := s.now + ms }
  | .replicate => { s with replica := s.primary }

/-- The next statement of a call. -/
def next (cfg : Config) (s : Store) : Call → Option (Store × Call)
  | .verifyPayment orgId orderId paymentId signature pc =>
    (verifyNext cfg s orgId orderId paymentId signature pc).map fun x =>
      (x.1, .verifyPayment orgId orderId paymentId signature x.2)
  | .webhook event pc => (webhookNext cfg s event pc).map fun x => (x.1, .webhook event x.2)
  | .suspendOrg orgId pc =>
    (transitionNext Payment.suspendOrg s orgId pc).map fun x => (x.1, .suspendOrg orgId x.2)
  | .reactivateOrg orgId pc =>
    (transitionNext Payment.reactivateOrg s orgId pc).map fun x => (x.1, .reactivateOrg orgId x.2)
  | .startOffboarding orgId pc =>
    (transitionNext Payment.startOffboarding s orgId pc).map fun x =>
      (x.1, .startOffboarding orgId x.2)
  | .handlePaymentFailure orgId pc =>
    (failureNext s orgId pc).map fun x => (x.1, .handlePaymentFailure orgId x.2)
  | .checkGracePeriod orgId pc =>
    (checkNext s orgId pc).map fun x => (x.1, .checkGracePeriod orgId x.2)
  | .offboard orgId pc => (gdprNext s orgId pc).map fun x => (x.1, .offboard orgId x.2)
  | .runOffboardingJob orgId pc =>
    (offboardNext s orgId pc).map fun x => (x.1, .runOffboardingJob orgId x.2)

/-- No call draws anything. -/
def paymentMachine (cfg : Config) : Machine Store Call Unit Env := ⟨fun s c _ => next cfg s c, env⟩

/-- Calls over the store. -/
abbrev Calls (ι : Type*) := Pool ι Store Call

end WorkPlatform.Payment

import WorkPlatform.Payment.Status

/-!
# Payment/Webhook — what one delivery ends with

    payment.captured       get ▸ find ▸ capture ▸ reactivate ▸ outbox ▸ set
    payment.failed         get ▸ find ▸ fail ▸ enqueue ▸ set
    subscription.charged   get ▸ findByOrg('') ▸ …
    refund, dispute        get ▸ settle ▸ outbox ▸ set

Each statement commits by itself, and one that raises ends the delivery with 500.  As `''` is no
UUID, that is the end of every `subscription.charged` (`charged_subscription_fails`); and a
`payment.captured` for a payment that is captured already is answered 200 with nothing done.

Otherwise a delivery that names a stored payment has all its effects (`delivered_iff`).
-/

namespace WorkPlatform.Payment

open Machinery

/-- A delivery from its first statement to its last; none has more than six. -/
def deliver (cfg : Config) (s : Store) (event : WebhookEvent) : Store × Call :=
  (paymentMachine cfg).proceed () 6 (s, .webhook event .get)

/-! ## What a delivery is about, and what it should do -/

/-- The payment of the order. -/
def Store.orderOf (s : Store) (orderId : Option String) : Option PaymentRow :=
  (truthy orderId).bind s.payments.findByOrderId

/-- The event names a payment or a subscription that is stored. -/
def WebhookEvent.Names (s : Store) : WebhookEvent → Prop
  | .paymentCaptured _ orderId | .paymentFailed _ orderId => (s.orderOf orderId).isSome = true
  | .subscriptionCharged id => (s.orgOfSubscription id).isSome = true
  | .refundCreated _ paymentId | .disputeCreated _ paymentId =>
    (s.payments.findByPaymentId paymentId).isSome = true

/-- Where the organisation was suspended, it is active again and has no grace period. -/
def Reactivated (s s' : Store) (orgId : String) : Prop :=
  ∀ org, s.primary orgId = some org → org.status = .suspended →
    s'.primary orgId = some { org with status := .active, gracePeriodEndsAt := none }

/-- The refund or the dispute of a payment is on its row and in the outbox. -/
def Settles (s s' : Store) (paymentId : String) (status : PaymentStatus) (eventType : OutboxType) :
    Prop :=
  ∃ r r', s.payments.findByPaymentId paymentId = some r
    ∧ s'.payments.findByPaymentId paymentId = some r' ∧ r'.status = status
    ∧ s'.outbox = ⟨eventType, r.orgId, r.id⟩ :: s.outbox

/-- **All the effects of an event.** -/
def WebhookEvent.Effects (s s' : Store) : WebhookEvent → Prop
  | .paymentCaptured id orderId => ∃ r r', s.orderOf orderId = some r
      ∧ s'.orderOf orderId = some r' ∧ r'.status = .captured ∧ r'.razorpayPaymentId = some id
      ∧ Reactivated s s' r.orgId ∧ s'.outbox = ⟨.paymentCaptured, r.orgId, r.id⟩ :: s.outbox
  | .paymentFailed _ orderId => ∃ r r', s.orderOf orderId = some r
      ∧ s'.orderOf orderId = some r' ∧ r'.status = .failed
      ∧ s'.jobs = .handlePaymentFailure r.orgId :: s.jobs
  | .subscriptionCharged id => ∃ orgId, s.orgOfSubscription id = some orgId
      ∧ Reactivated s s' orgId ∧ s'.outbox = ⟨.paymentSubscriptionCharged, orgId, id⟩ :: s.outbox
  | .refundCreated _ paymentId => Settles s s' paymentId .refunded .paymentRefunded
  | .disputeCreated _ paymentId => Settles s s' paymentId .disputed .paymentDisputed

/-- The event is no charge of a subscription; and where it captures a payment, that is not captured
yet, and no other payment has its Razorpay id. -/
def WebhookEvent.Accepted (s : Store) : WebhookEvent → Prop
  | .paymentCaptured id orderId => ∀ r, s.orderOf orderId = some r → r.status ≠ .captured
      ∧ ∀ r' ∈ s.payments.rows, r'.razorpayPaymentId = some id →
        r'.razorpayOrderId = r.razorpayOrderId
  | .subscriptionCharged _ => False
  | _ => True

/-! ## The constraint on the Razorpay ids -/

section Table

variable {t : Payments} {r : PaymentRow} {o paymentId : String} {status : PaymentStatus}

theorem paymentId_setStatus (r : PaymentRow) :
    (r.setStatus o status (some paymentId)).razorpayPaymentId
      = if r.razorpayOrderId = o then some paymentId else r.razorpayPaymentId := by
  unfold PaymentRow.setStatus
  split <;> rfl

/-- A Razorpay id is one payment's. -/
theorem eq_of_paymentId {r' : PaymentRow} (hr : r ∈ t.rows) (hr' : r' ∈ t.rows)
    (hid : r.razorpayPaymentId = some paymentId) (hid' : r'.razorpayPaymentId = some paymentId) :
    r = r' := by
  have hpair := List.pairwise_filterMap.mp t.payments_nodup
  have hsymm : Std.Symm fun a b : PaymentRow => ∀ x, a.razorpayPaymentId = some x →
      ∀ y, b.razorpayPaymentId = some y → x ≠ y :=
    ⟨fun a b h x hx y hy => (h y hy x hx).symm⟩
  by_contra hne
  exact hpair.forall hr hr' hne paymentId hid paymentId hid' rfl

/-- The UPDATE of a capture goes through exactly where no other payment has the id. -/
theorem updateStatus_isSome_iff (hr : t.findByOrderId o = some r) :
    (t.updateStatus o status (some paymentId)).isSome = true
      ↔ ∀ r' ∈ t.rows, r'.razorpayPaymentId = some paymentId → r'.razorpayOrderId = o := by
  have hmem := List.mem_of_find?_eq_some hr
  have horder := orderId_of_find hr
  constructor
  · intro hsome r' hr' hid
    obtain ⟨t', ht'⟩ := Option.isSome_iff_exists.mp hsome
    by_contra hne
    have heq : r.setStatus o status (some paymentId) = r'.setStatus o status (some paymentId) := by
      have hrows := Payments.rows_updateStatus ht'
      refine eq_of_paymentId (t := t') ?_ ?_ ((paymentId_setStatus r).trans (if_pos horder))
        (((paymentId_setStatus r').trans (if_neg hne)).trans hid)
      · rw [hrows]
        exact List.mem_map_of_mem hmem
      · rw [hrows]
        exact List.mem_map_of_mem hr'
    have horders := congrArg PaymentRow.razorpayOrderId heq
    rw [PaymentRow.setStatus_orderId, PaymentRow.setStatus_orderId, horder] at horders
    exact hne horders.symm
  · intro honly
    have horders := List.pairwise_map.mp t.orders_nodup
    have hids := List.pairwise_filterMap.mp t.payments_nodup
    unfold Payments.updateStatus
    dsimp only
    rw [Option.isSome_dite, List.filterMap_map]
    refine List.pairwise_filterMap.mpr ((horders.and hids).imp_of_mem ?_)
    rintro a b ha hb ⟨hord, hdis⟩ x hx y hy rfl
    rw [Function.comp_apply, paymentId_setStatus] at hx hy
    split at hx <;> split at hy
    · rename_i h₁ h₂
      exact hord (h₁.trans h₂.symm)
    · rename_i h₁ h₂
      obtain rfl := Option.some.inj hx
      exact h₂ (honly b hb hy)
    · rename_i h₁ h₂
      obtain rfl := Option.some.inj hy
      exact h₁ (honly a ha hx)
    · exact hdis x hx x hy rfl

theorem findByPaymentId_updateStatusOf :
    (t.updateStatusOf paymentId status).findByPaymentId paymentId
      = (t.findByPaymentId paymentId).map (.setStatusOf paymentId status) := by
  unfold Payments.findByPaymentId Payments.updateStatusOf
  rw [List.find?_map]
  simp only [Function.comp_def, PaymentRow.setStatusOf_paymentId]

end Table

/-! ## A delivery, statement by statement -/

section Deliver

variable {cfg : Config} {s s' : Store} {event : WebhookEvent} {r : PaymentRow}

theorem deliver_new (hnew : s.alreadyProcessed event.key = false) :
    deliver cfg s event = (paymentMachine cfg).proceed () 5 (s, .webhook event event.handler) := by
  refine proceed_webhook 5 ?_
  rw [webhookNext, hnew]
  rfl

theorem orderOf_eq_some {orderId : Option String} (h : s.orderOf orderId = some r) :
    ∃ o, truthy orderId = some o ∧ s.payments.findByOrderId o = some r :=
  Option.bind_eq_some_iff.mp h

/-- The statement that reactivates, and what it leaves as it was. -/
theorem reactivate_next (cfg : Config) (s : Store) (event : WebhookEvent) (e : OutboxEvent) :
    ∃ s', webhookNext cfg s event (.reactivate e) = some (s', .outbox e)
      ∧ s'.payments = s.payments ∧ s'.outbox = s.outbox ∧ Reactivated s s' e.orgId := by
  refine ⟨_, rfl, ?_, ?_, fun org horg hsuspended => ?_⟩
  · split <;> rfl
  · split <;> rfl
  · have hrow : (s.reactivateSuspended e.orgId).primary e.orgId =
        some { org with status := .active, gracePeriodEndsAt := none } := by
      simp [Store.reactivateSuspended, Store.updateOrg, horg, hsuspended]
    split <;> exact hrow

/-- The end of a delivery that has its outbox event still to write. -/
theorem proceed_outbox {e : OutboxEvent} (hid : cfg.isUuid e.entityId = true) (n : ℕ) :
    (paymentMachine cfg).proceed () (n + 2) (s, .webhook event (.outbox e)) =
      ((s.writeOutboxEvent e).markProcessed event.key, .webhook event .received) := by
  have houtbox : webhookNext cfg s event (.outbox e) = some (s.writeOutboxEvent e, .set) := by
    rw [webhookNext, if_pos hid]
  rw [proceed_webhook (n + 1) houtbox, proceed_webhook n rfl, Machine.proceed_of_none rfl]

/-- A capture of a payment that is not captured, and whose id is free. -/
theorem deliver_captured {id o : String} {orderId : Option String} {t : Payments}
    (hnew : s.alreadyProcessed (WebhookEvent.paymentCaptured id orderId).key = false)
    (ho : truthy orderId = some o) (hr : s.payments.findByOrderId o = some r)
    (hstatus : r.status ≠ .captured)
    (ht : s.payments.updateStatus o .captured (some id) = some t)
    (hid : cfg.isUuid r.id = true) :
    ∃ s', deliver cfg s (.paymentCaptured id orderId) =
        (s', .webhook (.paymentCaptured id orderId) .received)
      ∧ s'.payments = t ∧ Reactivated s s' r.orgId
      ∧ s'.outbox = ⟨.paymentCaptured, r.orgId, r.id⟩ :: s.outbox := by
  rw [deliver_new hnew, WebhookEvent.handler, ho]
  have hfind : webhookNext cfg s (.paymentCaptured id orderId) (.findCaptured id o) =
      some (s, .capture id o r) := by
    rw [webhookNext, hr]
    dsimp only
    rw [if_neg hstatus]
  have hcapture : webhookNext cfg s (.paymentCaptured id orderId) (.capture id o r) =
      some (({ s with payments := t } : Store).mark (.recovery r.orgId),
        .reactivate ⟨.paymentCaptured, r.orgId, r.id⟩) := by
    rw [webhookNext, ht]
  obtain ⟨s₁, hreactivate, hpayments, houtbox, hactive⟩ := reactivate_next cfg
    (({ s with payments := t } : Store).mark (.recovery r.orgId)) (.paymentCaptured id orderId)
    ⟨.paymentCaptured, r.orgId, r.id⟩
  dsimp only
  rw [proceed_webhook 4 hfind, proceed_webhook 3 hcapture, proceed_webhook 2 hreactivate,
    proceed_outbox hid 0]
  refine ⟨_, rfl, hpayments, hactive, ?_⟩
  exact congrArg (List.cons _) houtbox

/-- A capture of a payment that is captured already. -/
theorem deliver_captured_again {id o : String} {orderId : Option String}
    (hnew : s.alreadyProcessed (WebhookEvent.paymentCaptured id orderId).key = false)
    (ho : truthy orderId = some o) (hr : s.payments.findByOrderId o = some r)
    (hstatus : r.status = .captured) :
    deliver cfg s (.paymentCaptured id orderId) =
      (s.markProcessed (WebhookEvent.paymentCaptured id orderId).key,
        .webhook (.paymentCaptured id orderId) .received) := by
  rw [deliver_new hnew, WebhookEvent.handler, ho]
  have hfind : webhookNext cfg s (.paymentCaptured id orderId) (.findCaptured id o) =
      some (s, .set) := by
    rw [webhookNext, hr]
    dsimp only
    rw [if_pos hstatus]
  dsimp only
  rw [proceed_webhook 4 hfind, proceed_webhook 3 rfl, Machine.proceed_of_none rfl]

/-- A capture with the Razorpay id of another payment. -/
theorem deliver_captured_taken {id o : String} {orderId : Option String}
    (hnew : s.alreadyProcessed (WebhookEvent.paymentCaptured id orderId).key = false)
    (ho : truthy orderId = some o) (hr : s.payments.findByOrderId o = some r)
    (hstatus : r.status ≠ .captured)
    (ht : s.payments.updateStatus o .captured (some id) = none) :
    deliver cfg s (.paymentCaptured id orderId) =
      (s, .webhook (.paymentCaptured id orderId) .failed) := by
  rw [deliver_new hnew, WebhookEvent.handler, ho]
  have hfind : webhookNext cfg s (.paymentCaptured id orderId) (.findCaptured id o) =
      some (s, .capture id o r) := by
    rw [webhookNext, hr]
    dsimp only
    rw [if_neg hstatus]
  have hcapture : webhookNext cfg s (.paymentCaptured id orderId) (.capture id o r) =
      some (s, .failed) := by
    rw [webhookNext, ht]
  dsimp only
  rw [proceed_webhook 4 hfind, proceed_webhook 3 hcapture, Machine.proceed_of_none rfl]

/-- The delivery of a failed payment, by itself. -/
theorem deliver_failed (cfg : Config) {id o : String} {orderId : Option String} {t : Payments}
    (hnew : s.alreadyProcessed (WebhookEvent.paymentFailed id orderId).key = false)
    (ho : truthy orderId = some o) (hr : s.payments.findByOrderId o = some r)
    (ht : s.payments.updateStatus o .failed none = some t) :
    ∃ s', deliver cfg s (.paymentFailed id orderId) =
        (s', .webhook (.paymentFailed id orderId) .received)
      ∧ s'.payments = t ∧ s'.jobs = .handlePaymentFailure r.orgId :: s.jobs := by
  rw [deliver_new hnew, WebhookEvent.handler, ho]
  have hfind : webhookNext cfg s (.paymentFailed id orderId) (.findFailed o) =
      some (s, .fail o r) := by
    rw [webhookNext, hr]
  have hfail : webhookNext cfg s (.paymentFailed id orderId) (.fail o r) =
      some ({ s with payments := t }, .enqueue r.orgId) := by
    rw [webhookNext, ht]
  dsimp only
  rw [proceed_webhook 4 hfind, proceed_webhook 3 hfail, proceed_webhook 2 rfl,
    proceed_webhook 1 rfl, Machine.proceed_of_none rfl]
  exact ⟨_, rfl, rfl, rfl⟩

theorem deliver_charged {id : String} (hempty : cfg.isUuid "" = false)
    (hnew : s.alreadyProcessed (WebhookEvent.subscriptionCharged id).key = false) :
    deliver cfg s (.subscriptionCharged id) = (s, .webhook (.subscriptionCharged id) .failed) := by
  rw [deliver_new hnew, WebhookEvent.handler]
  have hfind : webhookNext cfg s (.subscriptionCharged id) (.findByOrg id) = some (s, .failed) := by
    rw [webhookNext, hempty]
    rfl
  rw [proceed_webhook 4 hfind, Machine.proceed_of_none rfl]

/-- Refunds and disputes. -/
theorem deliver_settle {paymentId : String} {status : PaymentStatus} {eventType : OutboxType}
    (hnew : s.alreadyProcessed event.key = false)
    (hevent : event.handler = .settle paymentId status eventType)
    (hr : s.payments.findByPaymentId paymentId = some r) (hid : cfg.isUuid r.id = true) :
    ∃ s', deliver cfg s event = (s', .webhook event .received)
      ∧ Settles s s' paymentId status eventType := by
  rw [deliver_new hnew, hevent]
  have hsettle : webhookNext cfg s event (.settle paymentId status eventType) =
      some ({ s with payments := s.payments.updateStatusOf paymentId status },
        .outbox ⟨eventType, r.orgId, r.id⟩) := by
    rw [webhookNext, hr]
  rw [proceed_webhook 4 hsettle, proceed_outbox hid 2]
  refine ⟨_, rfl, r, r.setStatusOf paymentId status, hr, ?_, ?_, rfl⟩
  · exact findByPaymentId_updateStatusOf.trans (congrArg (Option.map _) hr)
  · rw [status_setStatusOf, if_pos (by simpa using List.find?_some hr)]

/-- **The delivery is honoured**: it is answered 200 with all its effects, and were it answered 500,
the tables would be as before. -/
def Honoured (cfg : Config) (s : Store) (event : WebhookEvent) : Prop :=
  (∃ s', deliver cfg s event = (s', .webhook event .received) ∧ event.Effects s s')
    ∧ ∀ s', deliver cfg s event = (s', .webhook event .failed) →
      s'.payments = s.payments ∧ s'.primary = s.primary ∧ s'.outbox = s.outbox

theorem Honoured.of_received
    (h : ∃ s', deliver cfg s event = (s', .webhook event .received) ∧ event.Effects s s') :
    Honoured cfg s event := by
  refine ⟨h, fun s' hfailed => ?_⟩
  obtain ⟨s₁, hreceived, -⟩ := h
  cases (Prod.mk.inj (hreceived.symm.trans hfailed)).2

theorem not_honoured_of_failed (h : deliver cfg s event = (s', .webhook event .failed)) :
    ¬ Honoured cfg s event := by
  rintro ⟨⟨s₁, hreceived, -⟩, -⟩
  cases (Prod.mk.inj (hreceived.symm.trans h)).2

/-- A captured payment is honoured exactly where its event is accepted. -/
theorem honoured_captured_iff {id : String} {orderId : Option String}
    (hids : ∀ r ∈ s.payments.rows, cfg.isUuid r.id = true)
    (hnew : s.alreadyProcessed (WebhookEvent.paymentCaptured id orderId).key = false)
    (hr : s.orderOf orderId = some r) :
    Honoured cfg s (.paymentCaptured id orderId)
      ↔ (WebhookEvent.paymentCaptured id orderId).Accepted s := by
  obtain ⟨o, ho, hfind⟩ := orderOf_eq_some hr
  have horder := orderId_of_find hfind
  have hid := hids r (List.mem_of_find?_eq_some hfind)
  have haccepted : (WebhookEvent.paymentCaptured id orderId).Accepted s ↔ r.status ≠ .captured
      ∧ (s.payments.updateStatus o .captured (some id)).isSome = true := by
    rw [updateStatus_isSome_iff hfind, ← horder]
    refine ⟨fun h => h r hr, ?_⟩
    rintro h _ hr'
    obtain rfl := Option.some.inj (hr.symm.trans hr')
    exact h
  rw [haccepted]
  constructor
  · intro h
    have hstatus : r.status ≠ .captured := by
      intro hcaptured
      obtain ⟨⟨s', hreceived, r₁, r', -, -, -, -, -, houtbox⟩, -⟩ := h
      rw [deliver_captured_again hnew ho hfind hcaptured] at hreceived
      obtain rfl := (Prod.mk.inj hreceived).1
      exact List.cons_ne_self _ _ houtbox.symm
    refine ⟨hstatus, ?_⟩
    cases ht : s.payments.updateStatus o .captured (some id) with
    | none =>
      exact absurd h (not_honoured_of_failed (deliver_captured_taken hnew ho hfind hstatus ht))
    | some t => rfl
  · rintro ⟨hstatus, hsome⟩
    obtain ⟨t, ht⟩ := Option.isSome_iff_exists.mp hsome
    obtain ⟨s', hreceived, hpayments, hactive, houtbox⟩ :=
      deliver_captured hnew ho hfind hstatus ht hid
    refine .of_received ⟨s', hreceived, r, r.setStatus o .captured (some id), hr, ?_, ?_, ?_,
      hactive, houtbox⟩
    · rw [Store.orderOf, ho, hpayments]
      exact (findByOrderId_updateStatus ht).trans (congrArg (Option.map _) hfind)
    · rw [status_setStatus, if_pos horder]
    · rw [paymentId_setStatus, if_pos horder]

/-- **When a delivery is honoured**: exactly if it is no charge of a subscription, and no capture of
a payment that is captured already or with the Razorpay id of another. -/
theorem delivered_iff (hempty : cfg.isUuid "" = false)
    (hids : ∀ r ∈ s.payments.rows, cfg.isUuid r.id = true)
    (hnew : s.alreadyProcessed event.key = false) (hnames : event.Names s) :
    Honoured cfg s event ↔ event.Accepted s := by
  cases event with
  | paymentCaptured id orderId =>
    obtain ⟨r, hr⟩ := Option.isSome_iff_exists.mp hnames
    exact honoured_captured_iff hids hnew hr
  | paymentFailed id orderId =>
    obtain ⟨r, hr⟩ := Option.isSome_iff_exists.mp hnames
    obtain ⟨o, ho, hfind⟩ := orderOf_eq_some hr
    obtain ⟨t, ht⟩ := Option.isSome_iff_exists.mp (updateStatus_none_isSome s.payments o .failed)
    obtain ⟨s', hreceived, hpayments, hjobs⟩ := deliver_failed cfg hnew ho hfind ht
    refine iff_of_true (.of_received ⟨s', hreceived, r, r.setStatus o .failed none, hr, ?_, ?_,
      hjobs⟩) trivial
    · rw [Store.orderOf, ho, hpayments]
      exact (findByOrderId_updateStatus ht).trans (congrArg (Option.map _) hfind)
    · rw [status_setStatus, if_pos (orderId_of_find hfind)]
  | subscriptionCharged id =>
    exact iff_of_false (not_honoured_of_failed (deliver_charged hempty hnew)) not_false
  | refundCreated id paymentId =>
    obtain ⟨r, hr⟩ := Option.isSome_iff_exists.mp hnames
    exact iff_of_true (.of_received (deliver_settle hnew rfl hr
      (hids r (List.mem_of_find?_eq_some hr)))) trivial
  | disputeCreated id paymentId =>
    obtain ⟨r, hr⟩ := Option.isSome_iff_exists.mp hnames
    exact iff_of_true (.of_received (deliver_settle hnew rfl hr
      (hids r (List.mem_of_find?_eq_some hr)))) trivial

end Deliver

/-! ## A suspended organisation pays -/

def demoOrgUuid : String := "8d3c9f9e-0b5e-4c43-9a59-8f4a0a6a2b11"

def demoPaymentUuid : String := "b6a1c7d2-4f0e-4d8b-8c55-1e9f3a7b6c20"

/-- The two ids of the store are UUIDs, the texts of the payloads and the empty one are not. -/
def webhookConfig : Config := ⟨fun _ _ _ => true, (· ∈ [demoOrgUuid, demoPaymentUuid])⟩

/-- A suspended organisation with a payment and a subscription. -/
def webhookStore : Store where
  now := 0
  primary orgId := if orgId = demoOrgUuid then some ⟨⟨.suspended, false⟩, some 0, .pro⟩ else none
  replica orgId := if orgId = demoOrgUuid then some ⟨⟨.suspended, false⟩, some 0, .pro⟩ else none
  payments := ⟨[⟨demoPaymentUuid, demoOrgUuid, "order_1", none, .created, some .pro⟩], by decide,
    by decide⟩
  subscriptions := [⟨demoOrgUuid, some "sub_1", .pro⟩]
  outbox := []
  processed _ := none
  milestones := []
  jobs := []

theorem webhookStore_ids : ∀ r ∈ webhookStore.payments.rows, webhookConfig.isUuid r.id = true := by
  decide

/-- **A subscription that is charged**: the delivery is answered 500, the organisation stays
suspended and no event is written. -/
theorem charged_subscription_fails :
    webhookConfig.isUuid "" = false
      ∧ (∀ r ∈ webhookStore.payments.rows, webhookConfig.isUuid r.id = true)
      ∧ webhookStore.alreadyProcessed (WebhookEvent.subscriptionCharged "sub_1").key = false
      ∧ (WebhookEvent.subscriptionCharged "sub_1").Names webhookStore
      ∧ deliver webhookConfig webhookStore (.subscriptionCharged "sub_1") =
        (webhookStore, .webhook (.subscriptionCharged "sub_1") .failed)
      ∧ ¬ Honoured webhookConfig webhookStore (.subscriptionCharged "sub_1") := by
  have hempty : webhookConfig.isUuid "" = false := by decide
  have hfailed : deliver webhookConfig webhookStore (.subscriptionCharged "sub_1") =
      (webhookStore, .webhook (.subscriptionCharged "sub_1") .failed) := deliver_charged hempty rfl
  exact ⟨hempty, webhookStore_ids, rfl, rfl, hfailed, not_honoured_of_failed hfailed⟩

/-- The capture of its payment is honoured. -/
theorem captured_payment_honoured :
    Honoured webhookConfig webhookStore (.paymentCaptured "pay_1" (some "order_1")) := by
  have hnames : (WebhookEvent.paymentCaptured "pay_1" (some "order_1")).Names webhookStore := rfl
  refine (delivered_iff (by decide) webhookStore_ids rfl hnames).mpr fun r hr => ?_
  obtain rfl : (⟨demoPaymentUuid, demoOrgUuid, "order_1", none, .created, some .pro⟩ : PaymentRow)
    = r := Option.some.inj hr
  exact ⟨nofun, by decide⟩

end WorkPlatform.Payment

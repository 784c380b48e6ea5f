import WorkPlatform.Payment.Status

/-!
# Payment/Purchase — who gets the plan that was paid for

    verifyPayment   capture ▸ subscribe ▸ plan ▸ outbox
    webhook         capture ▸ reactivate ▸ outbox

Both capture the payment, and both return early where they find it captured; only `verifyPayment`
hands out the plan.  So a webhook that comes first takes the plan from the customer
(`webhook_first_withholds_plan`), and a `verifyPayment` that crashes after its capture is never
caught up with (`crash_after_capture_withholds_plan`).

The plan arrives exactly if a `verifyPayment` comes first, or it was there before
(`purchased_iff`); and a retry that succeeds leaves capture and plan together exactly if no attempt
stopped between its capture and its outbox row (`retried_iff`).
-/

namespace WorkPlatform.Payment

open Machinery

/-! ## Plans -/

/-- `subscriptions.plan_tier` of the organisation. -/
def Store.subscriptionTier (s : Store) (orgId : String) : Option PlanTier :=
  (s.subscriptions.find? (·.orgId = orgId)).map (·.planTier)

/-- `organizations.plan_tier`. -/
def Store.orgTier (s : Store) (orgId : String) : Option PlanTier :=
  (s.primary orgId).map (·.planTier)

/-- The subscription has the plan that was upserted. -/
theorem subscriptionTier_upsert (s : Store) (orgId : String) (tier : PlanTier) :
    (s.upsertSubscription orgId tier).subscriptionTier orgId = some tier := by
  unfold Store.upsertSubscription Store.subscriptionTier
  dsimp only
  split
  · rename_i hany
    have hkeep : ∀ r : SubscriptionRow,
        (if r.orgId = orgId then { r with planTier := tier } else r).orgId = r.orgId := by
      intro r
      split <;> rfl
    obtain ⟨row, hmem, horg⟩ := List.any_eq_true.mp hany
    rw [List.find?_map]
    simp only [Function.comp_def, hkeep]
    cases hfind : s.subscriptions.find? fun r => decide (r.orgId = orgId) with
    | none => exact absurd horg (List.find?_eq_none.mp hfind row hmem)
    | some found =>
      have hfound := List.find?_some hfind
      simp [of_decide_eq_true hfound]
  · simp

theorem orgTier_setPlanTier {s : Store} {orgId : String} (tier : PlanTier)
    (h : (s.primary orgId).isSome = true) :
    (s.setPlanTier orgId tier).orgTier orgId = some tier := by
  obtain ⟨org, horg⟩ := Option.isSome_iff_exists.mp h
  simp [Store.orgTier, Store.setPlanTier, Store.updateOrg, horg]

/-- A reactivation leaves the plan. -/
theorem orgTier_reactivate (s : Store) (o orgId : String) :
    (s.reactivateSuspended o).orgTier orgId = s.orgTier orgId := by
  unfold Store.orgTier Store.reactivateSuspended Store.updateOrg
  dsimp only
  by_cases ho : orgId = o
  · subst ho
    rw [Function.update_self, Option.map_map]
    refine congrArg (fun f => Option.map f (s.primary orgId)) (funext fun org => ?_)
    dsimp only [Function.comp_apply]
    split <;> rfl
  · rw [Function.update_of_ne ho]

/-! ## `verifyPayment`, statement by statement -/

/-- What `verifyPayment` is called with. -/
structure VerifyArgs where
  orgId : String
  orderId : String
  paymentId : String
  signature : String

def VerifyArgs.op (a : VerifyArgs) : Op := .verify a.orgId a.orderId a.paymentId a.signature

def VerifyArgs.at' (a : VerifyArgs) (pc : VerifyPc) : Call :=
  .verifyPayment a.orgId a.orderId a.paymentId a.signature pc

/-- The store after the first `n` statements of a call that captures. -/
def stage (a : VerifyArgs) (s : Store) (t : Payments) (r : PaymentRow) (n : ℕ) : Store :=
  let captured := ({ s with payments := t } : Store).mark (.recovery a.orgId)
  let subscribed := captured.upsertSubscription a.orgId r.purchasedTier
  let planned := subscribed.setPlanTier a.orgId r.purchasedTier
  match n with
  | 0 | 1 => s
  | 2 => captured
  | 3 => subscribed
  | 4 => planned
  | _ => planned.writeOutboxEvent ⟨.paymentCaptured, a.orgId, r.id⟩

/-- A call that gets to its UPDATE: the signature is valid, the payment is the organisation's and
not captured yet, and no other payment has the Razorpay id. -/
structure Captures (cfg : Config) (a : VerifyArgs) (s : Store) (t : Payments) (r : PaymentRow) :
    Prop where
  signed : cfg.verifyPaymentSignature a.orderId a.paymentId a.signature = true
  found : s.payments.findByOrderId a.orderId = some r
  org : r.orgId = a.orgId
  uncaptured : r.status ≠ .captured
  updated : s.payments.updateStatus a.orderId .captured (some a.paymentId) = some t

section Verify

variable {cfg : Config} {a : VerifyArgs} {s : Store} {t : Payments} {r : PaymentRow}

/-- A call of `verifyPayment` by itself goes through its stages, and returns after five. -/
theorem proceed_captures (h : Captures cfg a s t r) (n : ℕ) :
    ((paymentMachine cfg).proceed () n (s, a.at' .find)).1 = stage a s t r n
      ∧ (5 ≤ n → ∃ row, ((paymentMachine cfg).proceed () n (s, a.at' .find)).2
        = a.at' (.returned row)) := by
  have hfind : verifyNext cfg s a.orgId a.orderId a.paymentId a.signature .find
      = some (s, .capture r) := by
    simp [verifyNext, VerifyPc.found, h.signed, h.found, h.org, h.uncaptured]
  have hup : t.findByOrderId a.orderId
      = some (r.setStatus a.orderId .captured (some a.paymentId)) := by
    rw [findByOrderId_updateStatus h.updated, h.found]
    rfl
  have hcap : verifyNext cfg s a.orgId a.orderId a.paymentId a.signature (.capture r)
      = some (stage a s t r 2,
        .subscribe r (r.setStatus a.orderId .captured (some a.paymentId))) := by
    rw [verifyNext, h.updated]
    dsimp only
    rw [hup]
    rfl
  have hid : (r.setStatus a.orderId .captured (some a.paymentId)).id = r.id := by
    unfold PaymentRow.setStatus
    split <;> rfl
  rcases n with _ | _ | _ | _ | _ | n
  · exact ⟨rfl, fun h => absurd h (by decide)⟩
  · rw [VerifyArgs.at', proceed_verify 0 hfind]
    exact ⟨rfl, fun h => absurd h (by decide)⟩
  · rw [VerifyArgs.at', proceed_verify 1 hfind, proceed_verify 0 hcap]
    exact ⟨rfl, fun h => absurd h (by decide)⟩
  · rw [VerifyArgs.at', proceed_verify 2 hfind, proceed_verify 1 hcap, proceed_verify 0 rfl]
    exact ⟨rfl, fun h => absurd h (by decide)⟩
  · rw [VerifyArgs.at', proceed_verify 3 hfind, proceed_verify 2 hcap, proceed_verify 1 rfl,
      proceed_verify 0 rfl]
    exact ⟨rfl, fun h => absurd h (by decide)⟩
  · rw [VerifyArgs.at', proceed_verify (n + 4) hfind, proceed_verify (n + 3) hcap,
      proceed_verify (n + 2) rfl, proceed_verify (n + 1) rfl, proceed_verify n rfl,
      Machine.proceed_of_none rfl, hid]
    exact ⟨rfl, fun _ => ⟨_, rfl⟩⟩

/-- A call that finds the payment captured leaves everything as it is. -/
theorem proceed_captured (cfg : Config) (hr : s.payments.findByOrderId a.orderId = some r)
    (hcap : r.status = .captured) (n : ℕ) :
    ((paymentMachine cfg).proceed () n (s, a.at' .find)).1 = s := by
  match n with
  | 0 => rfl
  | n + 1 =>
    rw [VerifyArgs.at', proceed_verify n rfl, hr, VerifyPc.found]
    split
    · split
      · rw [Machine.proceed_of_none rfl]
      · rw [Machine.proceed_of_none rfl]
    · rw [Machine.proceed_of_none rfl]

/-- A call that does not capture an uncaptured payment does nothing, and does not return. -/
theorem proceed_refused (hr : s.payments.findByOrderId a.orderId = some r)
    (huncap : r.status ≠ .captured) (h : ∀ t, ¬ Captures cfg a s t r) (n : ℕ) :
    ((paymentMachine cfg).proceed () n (s, a.at' .find)).1 = s
      ∧ ∀ row, ((paymentMachine cfg).proceed () n (s, a.at' .find)).2 ≠ a.at' (.returned row) := by
  rcases n with _ | n
  · exact ⟨rfl, fun row h => by cases h⟩
  · rw [VerifyArgs.at', proceed_verify n rfl, hr, VerifyPc.found]
    by_cases hsig : cfg.verifyPaymentSignature a.orderId a.paymentId a.signature = true
    case neg =>
      rw [if_neg hsig, Machine.proceed_of_none rfl]
      exact ⟨rfl, fun row h => by cases h⟩
    rw [if_pos hsig]
    by_cases horg : r.orgId = a.orgId
    case neg =>
      rw [if_pos horg, Machine.proceed_of_none rfl]
      exact ⟨rfl, fun row h => by cases h⟩
    rw [if_neg (not_not.mpr horg), if_neg huncap]
    cases ht : s.payments.updateStatus a.orderId .captured (some a.paymentId) with
    | some t => exact absurd ⟨hsig, hr, horg, huncap, ht⟩ (h t)
    | none =>
      rcases n with _ | n
      · exact ⟨rfl, fun row h => by cases h⟩
      · have hraised : verifyNext cfg s a.orgId a.orderId a.paymentId a.signature (.capture r)
            = some (s, .failed) := by rw [verifyNext, ht]
        rw [proceed_verify n hraised, Machine.proceed_of_none rfl]
        exact ⟨rfl, fun row h => by cases h⟩

/-! ## The stages -/

/-- The organisation has the plan the payment was for, and the outbox the event. -/
structure Delivered (s : Store) (orgId : String) (r : PaymentRow) : Prop where
  subscription : s.subscriptionTier orgId = some r.purchasedTier
  organisation : s.orgTier orgId = some r.purchasedTier
  event : ⟨.paymentCaptured, orgId, r.id⟩ ∈ s.outbox

theorem upsert_primary (s : Store) (orgId : String) (tier : PlanTier) :
    (s.upsertSubscription orgId tier).primary = s.primary := by
  unfold Store.upsertSubscription
  dsimp only
  split <;> rfl

theorem upsert_payments (s : Store) (orgId : String) (tier : PlanTier) :
    (s.upsertSubscription orgId tier).payments = s.payments := by
  unfold Store.upsertSubscription
  dsimp only
  split <;> rfl

theorem upsert_outbox (s : Store) (orgId : String) (tier : PlanTier) :
    (s.upsertSubscription orgId tier).outbox = s.outbox := by
  unfold Store.upsertSubscription
  dsimp only
  split <;> rfl

theorem stage_payments {n : ℕ} (hn : 2 ≤ n) : (stage a s t r n).payments = t := by
  match n with
  | 2 => rfl
  | 3 => exact upsert_payments _ _ _
  | 4 => exact upsert_payments _ _ _
  | n + 5 => exact upsert_payments _ _ _

theorem stage_outbox {n : ℕ} (hn : n < 5) : (stage a s t r n).outbox = s.outbox := by
  match n with
  | 0 => rfl
  | 1 => rfl
  | 2 => rfl
  | 3 => exact upsert_outbox _ _ _
  | 4 => exact upsert_outbox _ _ _
  | n + 5 => omega

theorem stage_delivered {n : ℕ} (hn : 5 ≤ n) (horg : (s.primary a.orgId).isSome = true) :
    Delivered (stage a s t r n) a.orgId r := by
  match n with
  | n + 5 =>
    refine ⟨subscriptionTier_upsert _ _ _, orgTier_setPlanTier _ ?_, List.mem_cons_self⟩
    rw [upsert_primary]
    exact horg

/-- The payment after its capture. -/
theorem captured_of_updated (h : Captures cfg a s t r) :
    ∃ r', t.findByOrderId a.orderId = some r' ∧ r'.status = .captured := by
  refine ⟨r.setStatus a.orderId .captured (some a.paymentId), ?_, ?_⟩
  · rw [findByOrderId_updateStatus h.updated, h.found]
    rfl
  · rw [status_setStatus, if_pos (orderId_of_find h.found)]

theorem stage_captured (h : Captures cfg a s t r) {n : ℕ} (hn : 2 ≤ n) :
    ∃ r', (stage a s t r n).payments.findByOrderId a.orderId = some r' ∧ r'.status = .captured := by
  rw [stage_payments hn]
  exact captured_of_updated h

end Verify

/-! ## Crashes and retries -/

section Retries

variable {cfg : Config} {a : VerifyArgs} {s : Store} {r : PaymentRow}

/-- An attempt that stops after `n` statements. -/
def attempt (cfg : Config) (a : VerifyArgs) (s : Store) (n : ℕ) : Store :=
  ((paymentMachine cfg).proceed () n (s, a.at' .find)).1

/-- Attempts that stop where the list says, one after another. -/
def attempts (cfg : Config) (a : VerifyArgs) (s : Store) (crashes : List ℕ) : Store :=
  crashes.foldl (attempt cfg a) s

/-- The attempt after the crashes, to its end. -/
def retried (cfg : Config) (a : VerifyArgs) (s : Store) (crashes : List ℕ) : Store × Call :=
  (paymentMachine cfg).proceed () 5 (attempts cfg a s crashes, a.at' .find)

/-- The payment is captured if and only if the plan is delivered. -/
def Consistent (s : Store) (orgId orderId : String) (r : PaymentRow) : Prop :=
  s.paymentStatus orderId = some .captured ↔ Delivered s orgId r

/-- No attempt stops between its capture and its outbox row: the first one to stop after the
capture has got to the end. -/
def WholeCapture (crashes : List ℕ) : Prop := ∀ n ∈ crashes.find? (2 ≤ ·), 5 ≤ n

theorem attempts_captured (cfg : Config) (hr : s.payments.findByOrderId a.orderId = some r)
    (hcap : r.status = .captured) (crashes : List ℕ) : attempts cfg a s crashes = s := by
  induction crashes with
  | nil => rfl
  | cons n rest ih =>
    rw [attempts, List.foldl_cons, attempt, proceed_captured cfg hr hcap]
    exact ih

theorem attempts_refused (hr : s.payments.findByOrderId a.orderId = some r)
    (huncap : r.status ≠ .captured) (h : ∀ t, ¬ Captures cfg a s t r) (crashes : List ℕ) :
    attempts cfg a s crashes = s := by
  induction crashes with
  | nil => rfl
  | cons n rest ih =>
    rw [attempts, List.foldl_cons, attempt, (proceed_refused hr huncap h n).1]
    exact ih

theorem consistent_iff_of_captured {r' : PaymentRow}
    (hr' : s.payments.findByOrderId a.orderId = some r') (hcap : r'.status = .captured) :
    Consistent s a.orgId a.orderId r ↔ Delivered s a.orgId r := by
  have hstatus : s.paymentStatus a.orderId = some .captured := by
    rw [Store.paymentStatus, hr', Option.map_some, hcap]
  unfold Consistent
  rw [hstatus]
  exact ⟨fun h => h.mp rfl, fun h => ⟨fun _ => h, fun _ => rfl⟩⟩

/-- Where the call captures, what is left of the attempts is one of its stages. -/
theorem retried_captures {t : Payments} (h : Captures cfg a s t r)
    (hout : ⟨.paymentCaptured, a.orgId, r.id⟩ ∉ s.outbox)
    (horg : (s.primary a.orgId).isSome = true) (crashes : List ℕ) :
    Consistent (retried cfg a s crashes).1 a.orgId a.orderId r ↔ WholeCapture crashes := by
  induction crashes with
  | nil =>
    obtain ⟨r', hr', hcap⟩ := stage_captured h (n := 5) (by decide)
    have hdelivered := stage_delivered (a := a) (s := s) (t := t) (r := r) (le_refl 5) horg
    rw [retried, attempts, List.foldl_nil, (proceed_captures h 5).1,
      consistent_iff_of_captured hr' hcap]
    exact ⟨fun _ n hn => (nomatch hn), fun _ => hdelivered⟩
  | cons n rest ih =>
    by_cases hn : 2 ≤ n
    · obtain ⟨r', hr', hcap⟩ := stage_captured h hn
      have hstage : (retried cfg a s (n :: rest)).1 = stage a s t r n := by
        rw [retried, attempts, List.foldl_cons, attempt, (proceed_captures h n).1]
        have hrest := attempts_captured cfg hr' hcap rest
        rw [attempts] at hrest
        rw [hrest, proceed_captured cfg hr' hcap]
      rw [hstage, consistent_iff_of_captured hr' hcap, WholeCapture,
        List.find?_cons_of_pos (by simpa using hn)]
      constructor
      · rintro hd _ ⟨⟩
        by_contra hlt
        have hevent := hd.event
        rw [stage_outbox (Nat.lt_of_not_le hlt)] at hevent
        exact hout hevent
      · intro hall
        exact stage_delivered (hall n rfl) horg
    · have hsame : attempt cfg a s n = s := by
        rw [attempt, (proceed_captures h n).1]
        match n, hn with
        | 0, _ => rfl
        | 1, _ => rfl
        | n + 2, hn => omega
      rw [WholeCapture, List.find?_cons_of_neg (by simpa using hn)]
      rw [retried, attempts, List.foldl_cons, hsame]
      exact ih

/-- **Capture and plan together**: a retry that returns leaves them so exactly if no attempt stopped
between its capture and its outbox row. -/
theorem retried_iff {row : PaymentRow} (crashes : List ℕ)
    (hr : s.payments.findByOrderId a.orderId = some r) (hcreated : r.status = .created)
    (hout : ⟨.paymentCaptured, a.orgId, r.id⟩ ∉ s.outbox)
    (horg : (s.primary a.orgId).isSome = true)
    (hreturned : (retried cfg a s crashes).2 = a.at' (.returned row)) :
    Consistent (retried cfg a s crashes).1 a.orgId a.orderId r ↔ WholeCapture crashes := by
  have huncap : r.status ≠ .captured := by
    rw [hcreated]
    exact nofun
  by_cases h : ∃ t, Captures cfg a s t r
  · obtain ⟨t, h⟩ := h
    exact retried_captures h hout horg crashes
  · have hnot : ∀ t, ¬ Captures cfg a s t r := not_exists.mp h
    rw [retried, attempts_refused hr huncap hnot] at hreturned
    exact absurd hreturned ((proceed_refused hr huncap hnot 5).2 row)

end Retries

/-- The customer of `demoOrder` pays. -/
def demoArgs : VerifyArgs := ⟨"o", "order", "pay", "signature"⟩

/-- The row of the order. -/
def demoPayment : PaymentRow := ⟨"p", "o", "order", none, .created, some .pro⟩

/-- **A crash right after the capture, and a retry**: the retry returns the captured payment, and
the organisation has no plan. -/
theorem crash_after_capture_withholds_plan :
    demoOrder.payments.findByOrderId demoArgs.orderId = some demoPayment
      ∧ demoPayment.status = .created ∧ ⟨.paymentCaptured, demoArgs.orgId, "p"⟩ ∉ demoOrder.outbox
      ∧ (retried demoConfig demoArgs demoOrder [2]).2
        = demoArgs.at'
          (.returned { demoPayment with status := .captured, razorpayPaymentId := "pay" })
      ∧ (retried demoConfig demoArgs demoOrder [2]).1.orgTier "o" = some .free
      ∧ ¬ Consistent (retried demoConfig demoArgs demoOrder [2]).1 demoArgs.orgId demoArgs.orderId
        demoPayment := by
  refine ⟨by decide, rfl, by decide, by decide, by decide, fun h => ?_⟩
  have hdelivered := h.mp (by decide)
  exact absurd hdelivered.event (by decide)

/-- A crash before the capture is caught up with. -/
theorem retried_after_early_crash :
    Consistent (retried demoConfig demoArgs demoOrder [1]).1 demoArgs.orgId demoArgs.orderId
        demoPayment
      ∧ (retried demoConfig demoArgs demoOrder [1]).1.orgTier "o" = some .pro := by
  have hreturned : (retried demoConfig demoArgs demoOrder [1]).2 = demoArgs.at' (.returned
      { demoPayment with status := .captured, razorpayPaymentId := "pay" }) := by decide
  refine ⟨(retried_iff [1] (by decide) rfl (by decide) (by decide) hreturned).mpr ?_, by decide⟩
  rintro n ⟨⟩

/-! ## Webhook or `verifyPayment` first -/

/-- The operation pays for the order: a call with a valid signature, or a delivery of
`payment.captured`; and the Razorpay id it brings is that of no other payment. -/
def Op.Pays (cfg : Config) (s : Store) (r : PaymentRow) : Op → Prop
  | .verify orgId orderId paymentId signature =>
    orgId = r.orgId ∧ orderId = r.razorpayOrderId
      ∧ cfg.verifyPaymentSignature orderId paymentId signature = true
      ∧ (s.payments.updateStatus r.razorpayOrderId .captured (some paymentId)).isSome = true
  | .deliver (.paymentCaptured id orderId) =>
    orderId = some r.razorpayOrderId ∧ r.razorpayOrderId ≠ ""
      ∧ (s.payments.updateStatus r.razorpayOrderId .captured (some id)).isSome = true
  | _ => False

def Op.isVerify : Op → Bool
  | .verify _ _ _ _ => true
  | .deliver _ => false

/-- A delivery whose key is already there. -/
def Op.duplicate (s : Store) : Op → Bool
  | .verify _ _ _ _ => false
  | .deliver event => s.alreadyProcessed event.key

/-- The operations, one after another. -/
def processAll (cfg : Config) (s : Store) (ops : List Op) : Store := ops.foldl (process cfg) s

/-- The payment is captured, and the organisation has the plan. -/
structure Upgraded (s : Store) (r : PaymentRow) (tier : PlanTier) : Prop where
  payment : s.paymentStatus r.razorpayOrderId = some .captured
  subscription : s.subscriptionTier r.orgId = some tier
  organisation : s.orgTier r.orgId = some tier

section Order

variable {cfg : Config} {s s' : Store} {r : PaymentRow} {op : Op} {tier : PlanTier}

/-- The tables that say who has paid for what. -/
def SameTables (s s' : Store) : Prop :=
  s'.payments = s.payments ∧ s'.subscriptions = s.subscriptions ∧ s'.primary = s.primary

/-- Whether an organisation was upgraded depends on the tables alone. -/
theorem SameTables.upgraded_iff (h : SameTables s s') : Upgraded s' r tier ↔ Upgraded s r tier := by
  obtain ⟨hpay, hsub, hprim⟩ := h
  constructor
  · rintro ⟨h₁, h₂, h₃⟩
    refine ⟨?_, ?_, ?_⟩
    · rwa [Store.paymentStatus, hpay] at h₁
    · rwa [Store.subscriptionTier, hsub] at h₂
    · rwa [Store.orgTier, hprim] at h₃
  · rintro ⟨h₁, h₂, h₃⟩
    refine ⟨?_, ?_, ?_⟩
    · rwa [Store.paymentStatus, hpay]
    · rwa [Store.subscriptionTier, hsub]
    · rwa [Store.orgTier, hprim]

/-- An operation for an order. -/
def Op.names (orderId : String) : Op → Bool
  | .verify _ o _ _ => o = orderId
  | .deliver (.paymentCaptured _ o) => o = some orderId
  | .deliver _ => false

theorem Op.Pays.names (h : op.Pays cfg s r) : op.names r.razorpayOrderId = true := by
  cases op with
  | verify orgId orderId paymentId signature => exact decide_eq_true h.2.1
  | deliver event =>
    cases event with
    | paymentCaptured id orderId => exact decide_eq_true h.1
    | _ => exact h.elim

/-- Once the payment is captured, the operations for its order change nothing of this. -/
theorem sameTables_of_captured (cfg : Config) {orderId : String} (hop : op.names orderId = true)
    (hr : s.payments.findByOrderId orderId = some r) (hcap : r.status = .captured) :
    SameTables s (process cfg s op) := by
  cases op with
  | verify orgId o paymentId signature =>
    obtain rfl : o = orderId := of_decide_eq_true hop
    have hsame := proceed_captured cfg (a := ⟨orgId, o, paymentId, signature⟩) hr hcap 6
    rw [process, Op.call]
    rw [VerifyArgs.at'] at hsame
    rw [hsame]
    exact ⟨rfl, rfl, rfl⟩
  | deliver event =>
    cases event with
    | paymentCaptured id o =>
      obtain rfl : o = some orderId := of_decide_eq_true hop
      rw [process, Op.call, proceed_webhook 5 rfl]
      split
      · rw [Machine.proceed_of_none rfl]
        exact ⟨rfl, rfl, rfl⟩
      · have hset : ∀ n, SameTables s ((paymentMachine cfg).proceed () (n + 1)
            (s, .webhook (.paymentCaptured id (some orderId)) .set)).1 := by
          intro n
          rw [proceed_webhook n rfl, Machine.proceed_of_none rfl]
          exact ⟨rfl, rfl, rfl⟩
        dsimp only [WebhookEvent.handler]
        split
        · rename_i orderId' htruthy
          have ho : orderId' = orderId := by
            unfold truthy at htruthy
            split at htruthy
            · rename_i heq
              split at htruthy
              · cases htruthy
              · rw [← Option.some.inj htruthy, ← Option.some.inj heq]
            · cases htruthy
          subst ho
          have hnext : webhookNext cfg s (.paymentCaptured id (some orderId'))
              (.findCaptured id orderId') = some (s, .set) := by
            rw [webhookNext, hr]
            dsimp only
            rw [if_pos hcap]
          rw [proceed_webhook 4 hnext]
          exact hset 3
        · exact hset 4
    | _ => cases hop

/-- Once a payment is captured, nothing that names it changes the tables. -/
theorem processAll_captured (cfg : Config) {orderId : String} (ops : List Op)
    (hops : ∀ op ∈ ops, op.names orderId = true) (hr : s.payments.findByOrderId orderId = some r)
    (hcap : r.status = .captured) : SameTables s (processAll cfg s ops) := by
  induction ops generalizing s with
  | nil => exact ⟨rfl, rfl, rfl⟩
  | cons op rest ih =>
    obtain ⟨hpay, hsub, hprim⟩ := sameTables_of_captured cfg
      (hops op List.mem_cons_self) hr hcap
    obtain ⟨hpay', hsub', hprim'⟩ := ih (s := process cfg s op)
      (fun op' h => hops op' (List.mem_cons_of_mem _ h)) (by rw [hpay]; exact hr)
    exact ⟨hpay'.trans hpay, hsub'.trans hsub, hprim'.trans hprim⟩

/-- A `verifyPayment` that comes first captures and upgrades. -/
theorem upgraded_of_verify {orgId orderId paymentId signature : String}
    (hop : (Op.verify orgId orderId paymentId signature).Pays cfg s r)
    (hr : s.payments.findByOrderId r.razorpayOrderId = some r) (huncap : r.status ≠ .captured)
    (htier : r.planTier = some tier) (horg : (s.primary r.orgId).isSome = true) :
    (∃ r', (process cfg s (.verify orgId orderId paymentId signature)).payments.findByOrderId
        r.razorpayOrderId = some r' ∧ r'.status = .captured)
      ∧ Upgraded (process cfg s (.verify orgId orderId paymentId signature)) r tier := by
  obtain ⟨rfl, rfl, hsig, hup⟩ := hop
  obtain ⟨t, ht⟩ := Option.isSome_iff_exists.mp hup
  have hcap : Captures cfg ⟨r.orgId, r.razorpayOrderId, paymentId, signature⟩ s t r :=
    ⟨hsig, hr, rfl, huncap, ht⟩
  have hproc : process cfg s (.verify r.orgId r.razorpayOrderId paymentId signature)
      = stage ⟨r.orgId, r.razorpayOrderId, paymentId, signature⟩ s t r 6 :=
    (proceed_captures hcap 6).1
  obtain ⟨r', hr', hstatus⟩ := stage_captured hcap (n := 6) (by decide)
  have hdelivered := stage_delivered (a := ⟨r.orgId, r.razorpayOrderId, paymentId, signature⟩)
    (s := s) (t := t) (r := r) (n := 6) (by decide) horg
  have htier' : r.purchasedTier = tier := by
    rw [PaymentRow.purchasedTier, htier]
    rfl
  rw [hproc]
  refine ⟨⟨r', hr', hstatus⟩, ?_, ?_, ?_⟩
  · rw [Store.paymentStatus, hr', Option.map_some, hstatus]
  · rw [← htier']
    exact hdelivered.subscription
  · rw [← htier']
    exact hdelivered.organisation

/-- A delivery that has only its outbox event and its key to write. -/
theorem sameTables_outbox (cfg : Config) (s : Store) (event : WebhookEvent) (e : OutboxEvent) :
    SameTables s ((paymentMachine cfg).proceed () 2 (s, .webhook event (.outbox e))).1 := by
  by_cases hid : cfg.isUuid e.entityId = true
  · rw [proceed_webhook 1 (by rw [webhookNext, if_pos hid]), proceed_webhook 0 rfl]
    exact ⟨rfl, rfl, rfl⟩
  · rw [proceed_webhook 1 (by rw [webhookNext, if_neg hid]), Machine.proceed_of_none rfl]
    exact ⟨rfl, rfl, rfl⟩

/-- A webhook that comes first captures, and hands out nothing. -/
theorem tiers_of_deliver {event : WebhookEvent} (hop : (Op.deliver event).Pays cfg s r)
    (hnew : (Op.deliver event).duplicate s = false)
    (hr : s.payments.findByOrderId r.razorpayOrderId = some r) (huncap : r.status ≠ .captured) :
    (∃ r', (process cfg s (.deliver event)).payments.findByOrderId r.razorpayOrderId = some r'
        ∧ r'.status = .captured)
      ∧ (process cfg s (.deliver event)).subscriptions = s.subscriptions
      ∧ (process cfg s (.deliver event)).orgTier r.orgId = s.orgTier r.orgId := by
  cases event with
  | paymentCaptured id orderId =>
    obtain ⟨rfl, hne, hup⟩ := hop
    obtain ⟨t, ht⟩ := Option.isSome_iff_exists.mp hup
    have hget : webhookNext cfg s (.paymentCaptured id (some r.razorpayOrderId)) .get
        = some (s, .findCaptured id r.razorpayOrderId) := by
      rw [Op.duplicate] at hnew
      simp [webhookNext, hnew, WebhookEvent.handler, truthy, hne]
    have hfind : webhookNext cfg s (.paymentCaptured id (some r.razorpayOrderId))
        (.findCaptured id r.razorpayOrderId) = some (s, .capture id r.razorpayOrderId r) := by
      rw [webhookNext, hr]
      dsimp only
      rw [if_neg huncap]
    rw [process, Op.call, proceed_webhook 5 hget, proceed_webhook 4 hfind,
      proceed_webhook 3 (by rw [webhookNext, ht]), proceed_webhook 2 rfl]
    obtain ⟨hpayments, hsubscriptions, hprimary⟩ := sameTables_outbox cfg _ _ _
    rw [hpayments, hsubscriptions, Store.orgTier, hprimary]
    refine ⟨⟨r.setStatus r.razorpayOrderId .captured (some id), ?_, ?_⟩, ?_, ?_⟩
    · have hpay : t.findByOrderId r.razorpayOrderId
          = some (r.setStatus r.razorpayOrderId .captured (some id)) := by
        rw [findByOrderId_updateStatus ht, hr]
        rfl
      dsimp only
      split <;> exact hpay
    · rw [status_setStatus, if_pos rfl]
    · dsimp only
      split <;> rfl
    · dsimp only
      split <;> exact orgTier_reactivate _ _ _
  | _ => exact hop.elim

theorem process_duplicate (h : op.duplicate s = true) : process cfg s op = s := by
  cases op with
  | verify orgId orderId paymentId signature => cases h
  | deliver event =>
    rw [Op.duplicate] at h
    rw [process, Op.call, proceed_webhook 5 rfl, if_pos h, Machine.proceed_of_none rfl]

/-- The first operation that counts decides. -/
theorem upgraded_cons (rest : List Op) (hop : op.Pays cfg s r) (hnew : op.duplicate s = false)
    (hrest : ∀ op' ∈ rest, op'.Pays cfg s r)
    (hr : s.payments.findByOrderId r.razorpayOrderId = some r) (huncap : r.status ≠ .captured)
    (htier : r.planTier = some tier) (horg : (s.primary r.orgId).isSome = true) :
    Upgraded (processAll cfg s (op :: rest)) r tier ↔
      op.isVerify = true
        ∨ s.subscriptionTier r.orgId = some tier ∧ s.orgTier r.orgId = some tier := by
  have hnames : ∀ op' ∈ rest, op'.names r.razorpayOrderId = true :=
    fun op' h => (hrest op' h).names
  rw [processAll, List.foldl_cons]
  cases op with
  | verify orgId orderId paymentId signature =>
    obtain ⟨⟨r', hr', hcap⟩, hup⟩ := upgraded_of_verify hop hr huncap htier horg
    have hsame := processAll_captured cfg rest hnames hr' hcap
    exact ⟨fun _ => Or.inl rfl, fun _ => hsame.upgraded_iff.mpr hup⟩
  | deliver event =>
    obtain ⟨⟨r', hr', hcap⟩, hsub, horgTier⟩ := tiers_of_deliver hop hnew hr huncap
    have hsame := processAll_captured cfg rest hnames hr' hcap
    refine Iff.trans hsame.upgraded_iff ⟨fun h => Or.inr ⟨?_, ?_⟩, ?_⟩
    · have hsubscription := h.subscription
      rwa [Store.subscriptionTier, hsub] at hsubscription
    · rw [← horgTier]
      exact h.organisation
    · rintro (h | ⟨hsubscription, horganisation⟩)
      · cases h
      · refine ⟨?_, ?_, ?_⟩
        · rw [Store.paymentStatus, hr', Option.map_some, hcap]
        · rwa [Store.subscriptionTier, hsub]
        · rwa [horgTier]

/-- **The plan arrives exactly if a `verifyPayment` comes first** among the operations that are no
duplicates of deliveries processed before, or if one comes at all and the plan was there before. -/
theorem purchased_iff (ops : List Op) (hr : s.payments.findByOrderId r.razorpayOrderId = some r)
    (hcreated : r.status = .created) (htier : r.planTier = some tier)
    (horg : (s.primary r.orgId).isSome = true) (hops : ∀ op ∈ ops, op.Pays cfg s r) :
    Upgraded (processAll cfg s ops) r tier ↔
      ∃ op, ops.find? (fun op => ¬ op.duplicate s) = some op
        ∧ (op.isVerify = true
          ∨ s.subscriptionTier r.orgId = some tier ∧ s.orgTier r.orgId = some tier) := by
  have huncap : r.status ≠ .captured := by
    rw [hcreated]
    exact nofun
  induction ops with
  | nil =>
    constructor
    · intro h
      have hpayment := h.payment
      rw [processAll, List.foldl_nil, Store.paymentStatus, hr] at hpayment
      exact absurd (Option.some.inj hpayment) huncap
    · rintro ⟨op, ⟨⟩, -⟩
  | cons op rest ih =>
    have hrest : ∀ op' ∈ rest, op'.Pays cfg s r := fun op' h => hops op' (List.mem_cons_of_mem _ h)
    cases hdup : op.duplicate s with
    | true =>
      rw [processAll, List.foldl_cons, process_duplicate hdup,
        List.find?_cons_of_neg (by simp [hdup])]
      exact ih hrest
    | false =>
      rw [List.find?_cons_of_pos (by simp [hdup]),
        upgraded_cons rest (hops op List.mem_cons_self) hdup hrest hr huncap htier horg]
      exact ⟨fun h => ⟨op, rfl, h⟩, fun ⟨_, heq, h⟩ => Option.some.inj heq ▸ h⟩

end Order

/-- **The webhook comes first**: the payment is captured, and the plan stays `free` although
`verifyPayment` succeeds afterwards. -/
theorem webhook_first_withholds_plan :
    demoOrder.payments.findByOrderId "order" = some demoPayment ∧ demoPayment.status = .created
      ∧ (∀ op ∈ [.deliver (.paymentCaptured "pay" (some "order")), demoArgs.op],
        op.Pays demoConfig demoOrder demoPayment)
      ∧ (processAll demoConfig demoOrder
          [.deliver (.paymentCaptured "pay" (some "order")), demoArgs.op]).orgTier "o" = some .free
      ∧ ¬ Upgraded (processAll demoConfig demoOrder
        [.deliver (.paymentCaptured "pay" (some "order")), demoArgs.op]) demoPayment .pro := by
  refine ⟨by decide, rfl, ?_, by decide, fun h => absurd h.organisation (by decide)⟩
  rintro op hop
  rcases List.mem_cons.mp hop with rfl | hop
  · exact ⟨rfl, by decide, by decide⟩
  · obtain rfl := List.mem_singleton.mp hop
    exact ⟨rfl, rfl, rfl, by decide⟩

/-- `verifyPayment` first, and then the webhook. -/
theorem purchased_verify_first :
    Upgraded (processAll demoConfig demoOrder
      [demoArgs.op, .deliver (.paymentCaptured "pay" (some "order"))]) demoPayment .pro := by
  refine (purchased_iff _ (by decide) rfl rfl (by decide) ?_).mpr ⟨_, rfl, Or.inl rfl⟩
  rintro op hop
  rcases List.mem_cons.mp hop with rfl | hop
  · exact ⟨rfl, rfl, rfl, by decide⟩
  · obtain rfl := List.mem_singleton.mp hop
    exact ⟨rfl, by decide, by decide⟩

end WorkPlatform.Payment

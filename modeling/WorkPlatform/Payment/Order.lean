import Mathlib.Data.Fin.VecNotation
import WorkPlatform.Machinery.Run
import WorkPlatform.Machinery.Table
import WorkPlatform.Shared.AppError
import WorkPlatform.Payment.Store

/-!
# Payment/Order — one order a day

    createOrder   find (by {orgId}:{planTier}:{billingCycle}:{epochDay})
                    ▸ razorpayClient.createOrder ▸ insert ▸ outbox

The lookup, the order at Razorpay and the INSERT are separate steps, and the INSERT into a UNIQUE
column has no way back to the row that is there already.  Of two calls that both look up first, one
creates an order nobody will pay for, and fails (`second_call_fails`).

Where a call looks up only while no other one is between its lookup and its INSERT (`InTurn`), every
call returns, with the one payment of the key (`order_once`).
-/

namespace WorkPlatform.Payment.Order

open Machinery

/-! ## Rows and orders -/

inductive BillingCycle
  | monthly | annual
  deriving DecidableEq, Repr

def BillingCycle.text : BillingCycle → String
  | .monthly => "monthly"
  | .annual => "annual"

/-- The plan as it is stored. -/
def tierText : PlanTier → String
  | .free => "free"
  | .pro => "pro"
  | .business => "business"
  | .enterprise => "enterprise"

/-- The status as it is stored. -/
def statusText : PaymentStatus → String
  | .created => "created"
  | .authorized => "authorized"
  | .captured => "captured"
  | .failed => "failed"
  | .refunded => "refunded"
  | .disputed => "disputed"

/-- `PLAN_AMOUNTS`, in paise. -/
def planAmounts : PlanTier → Option (BillingCycle → ℕ)
  | .free => none
  | .pro => some fun | .monthly => 99900 | .annual => 999900
  | .business => some fun | .monthly => 299900 | .annual => 2999900
  | .enterprise => some fun | .monthly => 999900 | .annual => 9999900

/-- A row of `payments`, as it is created; the metadata are the last three of the caller's
values. -/
structure Row where
  id : String
  orgId : String
  razorpayOrderId : String
  amountPaise : ℕ
  currency : String
  status : PaymentStatus
  idempotencyKey : String
  planTier : PlanTier
  billingCycle : BillingCycle
  userId : String
  createdAt : ℕ
  deriving DecidableEq

/-- The order Razorpay answers. -/
structure RazorpayOrder where
  id : String
  entity : String
  amount : ℕ
  currency : String
  status : String
  receipt : Option String
  createdAt : ℕ
  deriving DecidableEq

/-- `existingOrder`: the order of a row that is there already. -/
def Row.existingOrder (r : Row) : RazorpayOrder where
  id := r.razorpayOrderId
  entity := "order"
  amount := r.amountPaise
  currency := r.currency
  status := statusText r.status
  receipt := none
  createdAt := r.createdAt / 1000

/-! ## The store -/

/-- `created` are the `payment.created` events of the outbox, by organisation and payment. -/
structure Store where
  now : ℕ
  payments : Table Row.idempotencyKey
  created : List (String × String)

/-- A day, in milliseconds. -/
def dayMs : ℕ := 86400000

/-- `Math.floor(Date.now() / 86_400_000)`. -/
def Store.epochDay (s : Store) : ℕ := s.now / dayMs

/-- `PaymentRepository.create`; `none` where the INSERT violates one of the three uniqueness
constraints. -/
def Store.create (s : Store) (r : Row) : Option Store :=
  if s.payments.rows.any fun r' => r'.id = r.id ∨ r'.razorpayOrderId = r.razorpayOrderId then none
  else (s.payments.insert r).map fun t => { s with payments := t }

/-! ## `createOrder` -/

/-- The arguments of `createOrder`. -/
structure Args where
  orgId : String
  planTier : PlanTier
  billingCycle : BillingCycle
  userId : String
  deriving DecidableEq

/-- `{orgId}:{planTier}:{billingCycle}:{epochDay}`. -/
def orderKey (orgId : String) (planTier : PlanTier) (billingCycle : BillingCycle) (day : ℕ) :
    String :=
  orgId ++ ":" ++ tierText planTier ++ ":" ++ billingCycle.text ++ ":" ++ toString day

def Args.idempotencyKey (a : Args) (day : ℕ) : String :=
  orderKey a.orgId a.planTier a.billingCycle day

/-- The receipt the order is asked for with. -/
def Args.receipt (a : Args) (day : ℕ) : String :=
  String.ofList (a.orgId.toList.take 8) ++ "-" ++ a.billingCycle.text ++ "-" ++ toString day

/-- Where a call of `createOrder` is. -/
inductive Pc
  | find
  | create (amountPaise : ℕ) (key receipt : String)
  | insert (amountPaise : ℕ) (key : String) (order : RazorpayOrder)
  | outbox (order : RazorpayOrder) (payment : Row)
  | returned (order : RazorpayOrder) (payment : Row)
  | threw (e : AppError)
  | failed
  deriving DecidableEq

/-- What comes from outside: the order Razorpay answers with, and the id PostgreSQL gives a row. -/
structure Draw where
  order : RazorpayOrder
  uuid : String

/-- The lookup, after the checks on the plan. -/
def Pc.lookup (s : Store) (a : Args) (amountPaise : ℕ) : Pc :=
  match s.payments.find (a.idempotencyKey s.epochDay) with
  | some existing => .returned existing.existingOrder existing
  | none => .create amountPaise (a.idempotencyKey s.epochDay) (a.receipt s.epochDay)

/-- The next statement of `createOrder`. -/
def createOrderNext (s : Store) (a : Args) (d : Draw) : Pc → Option (Store × Pc)
  | .find => some (s,
      match planAmounts a.planTier with
      | none => .threw (.unprocessable "INVALID_PLAN" ("Unknown plan tier: " ++ tierText a.planTier))
      | some amounts =>
        if amounts a.billingCycle = 0 then
          .threw (.unprocessable "INVALID_BILLING_CYCLE"
            ("Unknown billing cycle: " ++ a.billingCycle.text))
        else .lookup s a (amounts a.billingCycle))
  | .create amountPaise key _ => some (s, .insert amountPaise key d.order)
  | .insert amountPaise key order =>
    let payment : Row := ⟨d.uuid, a.orgId, order.id, amountPaise, "INR", .created, key, a.planTier,
      a.billingCycle, a.userId, s.now⟩
    match s.create payment with
    | none => some (s, .failed)
    | some s' => some (s', .outbox order payment)
  | .outbox order payment =>
    some ({ s with created := (a.orgId, payment.id) :: s.created }, .returned order payment)
  | .returned _ _ | .threw _ | .failed => none

/-! ## The machine -/

/-- A call, and where it is. -/
structure Call where
  args : Args
  pc : Pc
  deriving DecidableEq

/-- Time passes. -/
inductive Env
  | tick (ms : ℕ)

def env (s : Store) : Env → Store
  | .tick ms => { s with now := s.now + ms }

def next (s : Store) (c : Call) (d : Draw) : Option (Store × Call) :=
  (createOrderNext s c.args d c.pc).map fun x => (x.1, ⟨c.args, x.2⟩)

def orderMachine : Machine Store Call Draw Env := ⟨next, env⟩

/-- Calls over the store. -/
abbrev Calls (ι : Type*) := Pool ι Store Call

/-- The call is between its lookup and its INSERT. -/
def Pc.ordering : Pc → Bool
  | .create _ _ _ | .insert _ _ _ => true
  | _ => false

/-- The statements a call has before it. -/
def Pc.rank : Pc → ℕ
  | .find => 4
  | .create _ _ _ => 3
  | .insert _ _ _ => 2
  | .outbox _ _ => 1
  | .returned _ _ | .threw _ | .failed => 0

/-- The draw is fresh: no row has the id of the order, or the id of the row. -/
def Store.Fresh (s : Store) (d : Draw) : Prop :=
  ∀ r ∈ s.payments.rows, r.id ≠ d.uuid ∧ r.razorpayOrderId ≠ d.order.id

instance (s : Store) (d : Draw) : Decidable (s.Fresh d) :=
  inferInstanceAs (Decidable (∀ r ∈ s.payments.rows, _ ∧ _))

/-- What the table owes to a call on its way to its INSERT. -/
def Pc.Open (s : Store) (key : String) : Pc → Prop
  | .create _ key' _ => key' = key ∧ s.payments.find key = none
  | .insert _ key' order => key' = key ∧ s.payments.find key = none
      ∧ ∀ r ∈ s.payments.rows, r.razorpayOrderId ≠ order.id
  | _ => True

/-- What a call has to show: the payment of the key, under its order; and it never fails. -/
def Pc.Done (s : Store) (key : String) : Pc → Prop
  | .outbox order payment | .returned order payment =>
    s.payments.find key = some payment ∧ order.id = payment.razorpayOrderId
  | .threw _ | .failed => False
  | _ => True

section Steps

variable {s s' : Store} {a : Args} {d : Draw} {pc pc' : Pc} {key : String}

theorem Pc.Open.find_none (h : pc.Open s key) (ho : pc.ordering = true) :
    s.payments.find key = none := by
  cases pc with
  | create _ _ _ => exact h.2
  | insert _ _ _ => exact h.2.1
  | _ => cases ho

theorem Pc.open_of_not_ordering (h : ¬ pc.ordering = true) : pc.Open s key := by
  cases pc with
  | create _ _ _ | insert _ _ _ => exact absurd rfl h
  | _ => trivial

theorem Pc.Open.congr (h : pc.Open s key) (hs : s'.payments = s.payments) : pc.Open s' key := by
  cases pc with
  | create _ _ _ | insert _ _ _ =>
    unfold Pc.Open
    rw [hs]
    exact h
  | _ => trivial

theorem Pc.Done.congr (h : pc.Done s key) (hs : s'.payments = s.payments) : pc.Done s' key := by
  cases pc with
  | outbox _ _ | returned _ _ =>
    unfold Pc.Done
    rw [hs]
    exact h
  | threw _ | failed => exact h.elim
  | _ => trivial

/-- Nobody has a payment to show where there is none. -/
theorem Pc.Done.of_none (h : pc.Done s key) (hnone : s.payments.find key = none) (s' : Store) :
    pc.Done s' key := by
  cases pc with
  | outbox _ _ | returned _ _ =>
    have hsome := h.1
    rw [hnone] at hsome
    cases hsome
  | threw _ | failed => exact h.elim
  | _ => trivial

/-! ## One statement -/

theorem planAmounts_pos {tier : PlanTier} (h : tier ≠ .free) (cycle : BillingCycle) :
    ∃ amounts, planAmounts tier = some amounts ∧ amounts cycle ≠ 0 := by
  cases tier with
  | free => exact absurd rfl h
  | _ => cases cycle <;> exact ⟨_, rfl, nofun⟩

/-- The INSERT of a payment that is new in every way goes through. -/
theorem create_fresh {r : Row} (hid : ∀ r' ∈ s.payments.rows, r'.id ≠ r.id)
    (horder : ∀ r' ∈ s.payments.rows, r'.razorpayOrderId ≠ r.razorpayOrderId)
    (hkey : s.payments.find r.idempotencyKey = none) :
    ∃ t, s.payments.insert r = some t ∧ s.create r = some { s with payments := t } := by
  have hany : ¬ (s.payments.rows.any fun r' =>
      r'.id = r.id ∨ r'.razorpayOrderId = r.razorpayOrderId) = true := by
    rw [List.any_eq_true]
    rintro ⟨r', hr', h⟩
    rcases of_decide_eq_true h with h | h
    · exact hid r' hr' h
    · exact horder r' hr' h
  have hnew : r.idempotencyKey ∉ s.payments.rows.map Row.idempotencyKey := by
    intro hmem
    obtain ⟨r', hr', heq⟩ := List.mem_map.mp hmem
    exact Table.find_eq_none.mp hkey r' hr' heq
  have hinsert : ∃ t, s.payments.insert r = some t := by
    unfold Table.insert
    rw [dif_neg hnew]
    exact ⟨_, rfl⟩
  obtain ⟨t, ht⟩ := hinsert
  refine ⟨t, ht, ?_⟩
  rw [Store.create, if_neg hany, ht]
  rfl

/-- What a statement can do, as the key is the call's and the draw fresh. -/
inductive Ordered (s : Store) (key : String) (d : Draw) : Pc → Store → Pc → Prop
  | found {payment : Row} (h : s.payments.find key = some payment) :
      Ordered s key d .find s (.returned payment.existingOrder payment)
  | missing {amountPaise : ℕ} {receipt : String} (h : s.payments.find key = none) :
      Ordered s key d .find s (.create amountPaise key receipt)
  | order {amountPaise : ℕ} {receipt : String} :
      Ordered s key d (.create amountPaise key receipt) s (.insert amountPaise key d.order)
  | insert {amountPaise : ℕ} {order : RazorpayOrder} {payment : Row} {t : Table Row.idempotencyKey}
      (hkey : payment.idempotencyKey = key) (horder : order.id = payment.razorpayOrderId)
      (ht : s.payments.insert payment = some t) :
      Ordered s key d (.insert amountPaise key order) { s with payments := t }
        (.outbox order payment)
  | event {order : RazorpayOrder} {payment : Row} {created : List (String × String)} :
      Ordered s key d (.outbox order payment) { s with created := created }
        (.returned order payment)

/-- **One statement of a call**: unless it has returned, it goes on, and does not fail. -/
theorem ordered_next (htier : a.planTier ≠ .free) (hkey : a.idempotencyKey s.epochDay = key)
    (hfresh : s.Fresh d) (hopen : pc.Open s key) (hdone : pc.Done s key)
    (hgoing : ∀ order payment, pc ≠ .returned order payment) :
    ∃ s' pc', createOrderNext s a d pc = some (s', pc') ∧ Ordered s key d pc s' pc' := by
  cases pc with
  | find =>
    obtain ⟨amounts, hamounts, hpos⟩ := planAmounts_pos htier a.billingCycle
    refine ⟨s, .lookup s a (amounts a.billingCycle), ?_, ?_⟩
    · rw [createOrderNext, hamounts]
      dsimp only
      rw [if_neg hpos]
    · unfold Pc.lookup
      rw [hkey]
      cases hfind : s.payments.find key with
      | some payment => exact .found hfind
      | none => exact .missing hfind
  | create amountPaise key' receipt =>
    obtain ⟨rfl, -⟩ := hopen
    exact ⟨_, _, rfl, .order⟩
  | insert amountPaise key' order =>
    obtain ⟨rfl, hnone, hunused⟩ := hopen
    obtain ⟨t, ht, hcreate⟩ := create_fresh (r := ⟨d.uuid, a.orgId, order.id, amountPaise, "INR",
      .created, key', a.planTier, a.billingCycle, a.userId, s.now⟩)
      (fun r hr => (hfresh r hr).1) hunused hnone
    refine ⟨_, _, ?_, .insert rfl rfl ht⟩
    rw [createOrderNext, hcreate]
  | outbox order payment => exact ⟨_, _, rfl, .event⟩
  | returned order payment => exact absurd rfl (hgoing order payment)
  | threw e => exact hdone.elim
  | failed => exact hdone.elim

theorem Ordered.rank_lt (h : Ordered s key d pc s' pc') : pc'.rank < pc.rank := by
  cases h <;> simp [Pc.rank]

theorem Ordered.now (h : Ordered s key d pc s' pc') : s'.now = s.now := by
  cases h <;> rfl

/-- Where the call has got, it has to show what it should. -/
theorem Ordered.done (h : Ordered s key d pc s' pc') (hdone : pc.Done s key) : pc'.Done s' key := by
  cases h with
  | found h => exact ⟨h, rfl⟩
  | missing _ => trivial
  | order => trivial
  | insert hkey horder ht =>
    refine ⟨?_, horder⟩
    dsimp only
    rw [Table.find_insert ht, if_pos hkey]
  | event => exact hdone

theorem Ordered.open (h : Ordered s key d pc s' pc') (hfresh : s.Fresh d) (hopen : pc.Open s key) :
    pc'.Open s' key := by
  cases h with
  | missing h => exact ⟨rfl, h⟩
  | order => exact ⟨rfl, hopen.2, fun r hr => (hfresh r hr).2⟩
  | _ => trivial

/-- The table changes with an INSERT only. -/
theorem Ordered.payments (h : Ordered s key d pc s' pc') :
    s'.payments = s.payments ∨ pc.ordering = true := by
  cases h with
  | insert _ _ _ => exact Or.inr rfl
  | _ => exact Or.inl rfl

/-- A call comes between its lookup and its INSERT by its lookup. -/
theorem Ordered.ordering (h : Ordered s key d pc s' pc') (hpc' : pc'.ordering = true) :
    pc = .find ∨ pc.ordering = true := by
  cases h with
  | missing _ => exact Or.inl rfl
  | order => exact Or.inr rfl
  | _ => cases hpc'

end Steps

/-! ## Runs -/

section Runs

variable {ι : Type*} {key : String}

/-- **The calls take turns**: one looks up only while no other is between its lookup and its INSERT.
Draws are fresh, and it is the same day. -/
def InTurn (p : Calls ι) : Move ι Draw Env → Prop
  | .run i d => p.store.Fresh d ∧ (p.calls i).Keeps fun c => c.pc = .find →
      ∀ j, ¬ (p.calls j).Live fun c => c.pc.ordering
  | .crash _ => True
  | .env (.tick ms) => (p.store.now + ms) / dayMs = p.store.now / dayMs

instance [Fintype ι] (p : Calls ι) : ∀ m : Move ι Draw Env, Decidable (InTurn p m)
  | .run i d => inferInstanceAs (Decidable (p.store.Fresh d ∧ (p.calls i).Keeps fun c =>
      c.pc = .find → ∀ j, ¬ (p.calls j).Live fun c => c.pc.ordering))
  | .crash _ => inferInstanceAs (Decidable True)
  | .env (.tick ms) =>
    inferInstanceAs (Decidable ((p.store.now + ms) / dayMs = p.store.now / dayMs))

/-- What such runs keep. -/
structure OrderInv (key : String) (p : Calls ι) : Prop where
  tier : ∀ i, (p.calls i).at'.args.planTier ≠ .free
  keys : ∀ i, (p.calls i).at'.args.idempotencyKey p.store.epochDay = key
  single : ∀ i j, ((p.calls i).Live fun c => c.pc.ordering) →
    ((p.calls j).Live fun c => c.pc.ordering) → i = j
  opens : ∀ i, (p.calls i).Keeps fun c => c.pc.Open p.store key
  dones : ∀ i, (p.calls i).at'.pc.Done p.store key

variable [DecidableEq ι] {p q : Calls ι} {i : ι} {d : Draw} {c : Call}

omit [DecidableEq ι] in
/-- The call whose turn it is goes on. -/
theorem OrderInv.next (hI : OrderInv key p) (hG : InTurn p (.run i d)) (hc : p.calls i = .up c)
    (hgoing : ∀ order payment, c.pc ≠ .returned order payment) :
    ∃ s' pc', Order.next p.store c d = some (s', ⟨c.args, pc'⟩)
      ∧ Ordered p.store key d c.pc s' pc' := by
  have htier := hI.tier i
  have hkey := hI.keys i
  have hopen := hI.opens i
  have hdone := hI.dones i
  rw [hc] at htier hkey hopen hdone
  obtain ⟨s', pc', hnext, hordered⟩ := ordered_next htier hkey hG.1 hopen hdone hgoing
  exact ⟨s', pc', congrArg (Option.map _) hnext, hordered⟩

/-- A statement keeps one order for a key, where calls come in turn. -/
theorem OrderInv.run {s' : Store} {pc' : Pc} (hI : OrderInv key p) (hG : InTurn p (.run i d))
    (hc : p.calls i = .up c) (h : Ordered p.store key d c.pc s' pc') :
    OrderInv key (⟨s', Function.update p.calls i (.up ⟨c.args, pc'⟩)⟩ : Calls ι) := by
  obtain ⟨hfresh, hturn⟩ := hG
  have htier := hI.tier i
  have hkey := hI.keys i
  have hopen := hI.opens i
  have hdone := hI.dones i
  rw [hc] at hturn htier hkey hopen hdone
  have hday : s'.epochDay = p.store.epochDay := by rw [Store.epochDay, h.now, Store.epochDay]
  -- while a call is on its way to its INSERT, no other is
  have hothers : pc'.ordering = true ∨ c.pc.ordering = true →
      ∀ j, j ≠ i → ¬ (p.calls j).Live fun c => c.pc.ordering := by
    intro ho j hj hlive
    have hcases : c.pc = .find ∨ c.pc.ordering = true := ho.elim h.ordering Or.inr
    rcases hcases with hfind | hordering
    · exact hturn hfind j hlive
    · refine hj (hI.single j i hlive ?_)
      rw [hc]
      exact hordering
  refine ⟨?_, ?_, ?_, ?_, ?_⟩
  · exact (Function.forall_update_iff p.calls fun _ (x : Proc Call) =>
      x.at'.args.planTier ≠ .free).mpr ⟨htier, fun j _ => hI.tier j⟩
  · refine (Function.forall_update_iff p.calls fun _ (x : Proc Call) =>
      x.at'.args.idempotencyKey s'.epochDay = key).mpr ⟨?_, fun j _ => ?_⟩
    · rw [hday]
      exact hkey
    · rw [hday]
      exact hI.keys j
  · intro j k hj hk
    rcases live_update_up hj with ⟨rfl, hself⟩ | ⟨hji, hjold⟩
    · rcases live_update_up hk with ⟨rfl, -⟩ | ⟨hkj, hkold⟩
      · rfl
      · exact absurd hkold (hothers (Or.inl hself) k hkj)
    · rcases live_update_up hk with ⟨rfl, hself⟩ | ⟨-, hkold⟩
      · exact absurd hjold (hothers (Or.inl hself) j hji)
      · exact hI.single j k hjold hkold
  · refine keeps_update_up (h.open hfresh hopen) fun j hj => ?_
    rcases h.payments with hsame | ho
    · exact (hI.opens j).imp fun c hopen => hopen.congr hsame
    · have hidle := hothers (Or.inr ho) j hj
      cases hcj : p.calls j with
      | up c' =>
        rw [hcj] at hidle
        exact Pc.open_of_not_ordering hidle
      | down c' => trivial
  · refine (Function.forall_update_iff p.calls fun _ (x : Proc Call) =>
      x.at'.pc.Done s' key).mpr ⟨h.done hdone, fun j _ => ?_⟩
    rcases h.payments with hsame | ho
    · exact (hI.dones j).congr hsame
    · exact (hI.dones j).of_none (hopen.find_none ho) s'

/-- There is one order for a key in every state of such a run. -/
theorem orderInv_run (hI : OrderInv key p) (h : Run (Pool.step orderMachine) InTurn p q) :
    OrderInv key q := by
  refine Pool.invariant (I := OrderInv key) hI ?_ ?_ ?_ h
  · intro p i d c s' c' hI hG hc hnext
    have hgoing : ∀ order payment, c.pc ≠ .returned order payment := by
      intro order payment hpc
      have hnone : next p.store c d = none := by rw [next, hpc]; rfl
      rw [orderMachine] at hnext
      cases hnone.symm.trans hnext
    obtain ⟨s₁, pc₁, hnext₁, hordered⟩ := hI.next hG hc hgoing
    obtain ⟨rfl, rfl⟩ := Prod.mk.inj (Option.some.inj (hnext₁.symm.trans hnext))
    exact hI.run hG hc hordered
  · intro p i c hI _ hc
    refine ⟨?_, ?_, ?_, ?_, ?_⟩
    · intro j
      dsimp only
      rw [at'_update_down hc]
      exact hI.tier j
    · intro j
      dsimp only
      rw [at'_update_down hc]
      exact hI.keys j
    · intro j k hj hk
      exact hI.single j k (live_update_down hj).2 (live_update_down hk).2
    · exact keeps_update_down hI.opens
    · intro j
      dsimp only
      rw [at'_update_down hc]
      exact hI.dones j
  · rintro p ⟨ms⟩ hI hG
    have hday : (env p.store (.tick ms)).epochDay = p.store.epochDay := hG
    refine ⟨hI.tier, fun i => ?_, hI.single, fun i => (hI.opens i).imp fun c h => h.congr rfl,
      fun i => (hI.dones i).congr rfl⟩
    dsimp only [orderMachine]
    rw [hday]
    exact hI.keys i

/-- **One order.**  No call fails; those that have returned have the one payment of the key and its
order; and a call that has not returned goes on, one statement nearer to its end. -/
theorem order_once {orgId : String} {planTier : PlanTier} {billingCycle : BillingCycle}
    (htier : planTier ≠ .free)
    (hstart : ∀ i, ∃ userId, p.calls i = .up ⟨⟨orgId, planTier, billingCycle, userId⟩, .find⟩)
    (h : Run (Pool.step orderMachine) InTurn p q) :
    (∀ i, (∀ e, (q.calls i).at'.pc ≠ .threw e) ∧ (q.calls i).at'.pc ≠ .failed)
    ∧ (∀ i order payment, (q.calls i).at'.pc = .returned order payment →
      order.id = payment.razorpayOrderId
        ∧ q.store.payments.rows.filter
          (·.idempotencyKey = orderKey orgId planTier billingCycle p.store.epochDay) = [payment])
    ∧ (∀ i c d, q.calls i = .up c → (∀ order payment, c.pc ≠ .returned order payment) →
      InTurn q (.run i d) → ∃ q' c', q.step orderMachine (.run i d) = some q'
        ∧ q'.calls i = .up c' ∧ c'.pc.rank < c.pc.rank) := by
  have hI₀ : OrderInv (orderKey orgId planTier billingCycle p.store.epochDay) p := by
    refine ⟨fun i => ?_, fun i => ?_, fun i j hi => ?_, fun i => ?_, fun i => ?_⟩
    all_goals obtain ⟨userId, hc⟩ := hstart i
    · rw [hc]
      exact htier
    · rw [hc]
      rfl
    · rw [hc] at hi
      cases hi
    · rw [hc]
      trivial
    · rw [hc]
      trivial
  have hI := orderInv_run hI₀ h
  refine ⟨fun i => ?_, fun i order payment hpc => ?_, fun i c d hc hgoing hG => ?_⟩
  · have hdone := hI.dones i
    constructor
    · intro e he
      rw [he] at hdone
      exact hdone
    · intro he
      rw [he] at hdone
      exact hdone
  · have hdone := hI.dones i
    rw [hpc] at hdone
    exact ⟨hdone.2, Table.filter_of_find hdone.1⟩
  · obtain ⟨s', pc', hnext, hordered⟩ := hI.next hG hc hgoing
    refine ⟨_, ⟨c.args, pc'⟩, Pool.step_of_next hc hnext, ?_, hordered.rank_lt⟩
    dsimp only
    exact Function.update_self _ _ _

end Runs

/-! ## Two administrators upgrade the plan -/

/-- The order Razorpay answers with, under the id given. -/
def demoOrder (id : String) : RazorpayOrder := ⟨id, "order", 99900, "INR", "created", none, 0⟩

def twoOrders : Calls (Fin 2) where
  store := ⟨0, .empty, []⟩
  calls := ![.up ⟨⟨"o", .pro, .monthly, "u"⟩, .find⟩, .up ⟨⟨"o", .pro, .monthly, "v"⟩, .find⟩]

theorem twoOrders_start : ∀ i, ∃ userId,
    twoOrders.calls i = .up ⟨⟨"o", .pro, .monthly, userId⟩, .find⟩
  | 0 => ⟨"u", rfl⟩
  | 1 => ⟨"v", rfl⟩

/-- **The second call fails**: both find no payment and have an order each, and the INSERT of the
second meets the key of the first. -/
theorem second_call_fails :
    (∀ i, ∃ userId, twoOrders.calls i = .up ⟨⟨"o", .pro, .monthly, userId⟩, .find⟩)
      ∧ ∃ q, Run (Pool.step orderMachine) anyStep twoOrders q
        ∧ (∃ payment, q.calls 0 =
          .up ⟨⟨"o", .pro, .monthly, "u"⟩, .returned (demoOrder "order_1") payment⟩)
        ∧ q.calls 1 = .up ⟨⟨"o", .pro, .monthly, "v"⟩, .failed⟩ := by
  refine ⟨twoOrders_start, ?_⟩
  obtain ⟨q, hq, h⟩ := exists_run_of_exec (Pool.step orderMachine) anyStep twoOrders
    [.run 0 ⟨demoOrder "", ""⟩, .run 1 ⟨demoOrder "", ""⟩, .run 0 ⟨demoOrder "order_1", ""⟩,
      .run 1 ⟨demoOrder "order_2", ""⟩, .run 0 ⟨demoOrder "", "p"⟩, .run 1 ⟨demoOrder "", "r"⟩,
      .run 0 ⟨demoOrder "", ""⟩]
    (fun q => q.calls 0 = .up ⟨⟨"o", .pro, .monthly, "u"⟩, .returned (demoOrder "order_1")
        ⟨"p", "o", "order_1", 99900, "INR", .created, orderKey "o" .pro .monthly 0, .pro, .monthly,
          "u", 0⟩⟩
      ∧ q.calls 1 = .up ⟨⟨"o", .pro, .monthly, "v"⟩, .failed⟩) (by decide)
  obtain ⟨hreturned, hfailed⟩ := of_decide_eq_true h
  exact ⟨q, hq, ⟨_, hreturned⟩, hfailed⟩

/-- The second call looks up after the first one's INSERT, and gets its payment. -/
theorem second_call_returns :
    ∃ q order payment, Run (Pool.step orderMachine) InTurn twoOrders q
      ∧ (q.calls 1).at'.pc = .returned order payment ∧ order.id = payment.razorpayOrderId
      ∧ q.store.payments.rows.filter (·.idempotencyKey = orderKey "o" .pro .monthly 0) =
        [payment] := by
  obtain ⟨q, hq, h⟩ := exists_run_of_exec (Pool.step orderMachine) InTurn twoOrders
    [.run 0 ⟨demoOrder "", ""⟩, .run 0 ⟨demoOrder "order_1", ""⟩, .run 0 ⟨demoOrder "", "p"⟩,
      .env (.tick 1000), .run 1 ⟨demoOrder "", ""⟩]
    (fun q => (q.calls 1).at'.pc = .returned ⟨"order_1", "order", 99900, "INR", "created", none, 0⟩
      ⟨"p", "o", "order_1", 99900, "INR", .created, orderKey "o" .pro .monthly 0, .pro, .monthly,
        "u", 0⟩) (by decide)
  have hpc := of_decide_eq_true h
  have htier : PlanTier.pro ≠ .free := nofun
  obtain ⟨-, hreturned, -⟩ := order_once htier twoOrders_start hq
  obtain ⟨horder, hrows⟩ := hreturned 1 _ _ hpc
  exact ⟨q, _, _, hq, hpc, horder, hrows⟩

end WorkPlatform.Payment.Order

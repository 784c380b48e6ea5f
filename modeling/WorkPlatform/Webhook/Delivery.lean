import WorkPlatform.Machinery.Run
import WorkPlatform.Machinery.Table

/-!
# Webhook/Delivery — webhook deliveries, and the record each of them has

    SELECT record ▸ [INSERT] ▸ SELECT webhook ▸ new URL, decrypt ▸ DNS ▸ POST ▸ UPDATE
                                                          └──────────┴───────┴──▸ UPDATE 'failed'

`updateDeliveryLog` uses `$2` as a varchar and as a text, and PostgreSQL deduces one type for a
parameter or refuses the statement.  So every UPDATE throws: the first into the catch block, the
second out of it.  A record stays as the INSERT has made it, and each retry sends its POST again.

`count_of_attempts`: a record counts its attempts as long as there are none.
-/

namespace WorkPlatform.Webhook

open Machinery

/-! ## Addresses -/

/-- The host of a URL: a name, or an address. -/
inductive Host (α : Type)
  | name (hostname : String)
  | ip (address : α)
  deriving DecidableEq

/-- The parts of a URL that a request is made of. -/
structure Url (α : Type) where
  protocol : String
  host : Host α
  port : String
  pathname : String
  search : String
  deriving DecidableEq

/-- What the libraries do: `new URL`, `ipaddr.parse(ip).range()`, and how many redirects axios
follows if it is not told.  `none` is where they throw. -/
structure Lib (α : Type) where
  parseUrl : String → Option (Url α)
  decryptSecret : String → Option String
  range : α → Option String
  isIPv6 : α → Bool
  maxRedirects : ℕ

section Addresses

variable {α : Type} (lib : Lib α)

/-- Every range but "unicast" is refused, and so is what does not parse. -/
def isPrivateIp (ip : α) : Bool :=
  match lib.range ip with
  | some range => range ≠ "unicast"
  | none => true

/-- The address of a host: itself, or what DNS answers at the time. -/
def lookup (host : Host α) (answer : Option α) : Option α :=
  match host with
  | .name _ => answer
  | .ip address => some address

/-- The check at the registration. -/
def isPrivateOrBlockedUrl (urlStr : String) (answer : Option α) : Bool :=
  match lib.parseUrl urlStr with
  | none => true
  | some url =>
    if url.protocol ≠ "https:" then true
    else
      match lookup url.host answer with
      | none => true
      | some address => isPrivateIp lib address

/-- `<protocol>//<address><pathname><search>`: the port is gone. -/
def targetUrl (url : Url α) (address : α) : Url α :=
  { url with host := .ip address, port := "" }

end Addresses

/-! ## Rows -/

/-- A row of `webhook_subscriptions`. -/
structure WebhookRow where
  id : String
  orgId : String
  url : String
  secretEncrypted : String
  isActive : Bool
  deleted : Bool
  deriving DecidableEq

/-- `CHECK (status IN ('pending', 'delivered', 'failed', 'exhausted'))`. -/
inductive DeliveryStatus
  | pending
  | delivered
  | failed
  | exhausted
  deriving DecidableEq

/-- A row of `webhook_delivery_log`. -/
structure DeliveryLogRow where
  webhookId : String
  orgId : String
  eventId : String
  eventType : String
  status : DeliveryStatus
  attemptCount : ℕ
  responseStatusCode : Option ℕ
  deliveredAt : Option ℕ
  deriving DecidableEq

/-- A record is the one of its webhook and event: `UNIQUE(webhook_id, event_id)`. -/
def DeliveryLogRow.id (row : DeliveryLogRow) : String × String := (row.webhookId, row.eventId)

/-- What a job of the queue says; its payload is of no account here. -/
structure WebhookDeliveryJobData where
  webhookId : String
  orgId : String
  eventId : String
  eventType : String
  deriving DecidableEq

/-- The record of a job. -/
def WebhookDeliveryJobData.id (job : WebhookDeliveryJobData) : String × String :=
  (job.webhookId, job.eventId)

/-- The row that `createDeliveryLog` inserts. -/
def WebhookDeliveryJobData.row (job : WebhookDeliveryJobData) : DeliveryLogRow where
  webhookId := job.webhookId
  orgId := job.orgId
  eventId := job.eventId
  eventType := job.eventType
  status := .pending
  attemptCount := 0
  responseStatusCode := none
  deliveredAt := none

/-- `SET status = …, attempt_count = attempt_count + 1, …`. -/
def DeliveryLogRow.write (status : DeliveryStatus) (responseStatusCode : Option ℕ) (now : ℕ)
    (row : DeliveryLogRow) : DeliveryLogRow :=
  { row with
    status := status
    responseStatusCode := responseStatusCode
    attemptCount := row.attemptCount + 1
    deliveredAt := if status = .delivered then some now else none }

theorem DeliveryLogRow.id_write {status : DeliveryStatus} {code : Option ℕ} {now : ℕ}
    (row : DeliveryLogRow) : (row.write status code now).id = row.id := rfl

/-! ### The types of a parameter -/

/-- The types that the statements of the delivery log deal in. -/
inductive SqlType
  | uuid
  | integer
  | text
  | varchar
  deriving DecidableEq

/-- The type PostgreSQL deduces for a parameter from the places where it stands: one that all of
them have, or none (42P08). -/
def deducedType : List SqlType → Option SqlType
  | [] => none
  | type :: places => if ∀ place ∈ places, place = type then some type else none

/-- Where the parameters of `updateDeliveryLog` stand.  `$2` is compared with a literal in
`CASE WHEN $2 = 'delivered'`, which makes it a text, and assigned in `status = $2`, where the column
is a `VARCHAR(20)`. -/
def updateDeliveryLogPlaces : List (List SqlType) :=
  [[.uuid], [.text, .varchar], [.integer], [.text]]

/-- The two tables; the HTTP attempts, by their records; and the addresses that requests were sent
to, newest first. -/
structure Store (α : Type) where
  now : ℕ
  webhooks : List WebhookRow
  log : Table DeliveryLogRow.id
  attempts : List (String × String)
  contacted : List α

namespace Store

variable {α : Type}

/-- `WHERE id = $1 AND org_id = $2 AND deleted_at IS NULL`. -/
def findById (s : Store α) (id orgId : String) : Option WebhookRow :=
  s.webhooks.find? fun row => row.id = id ∧ row.orgId = orgId ∧ row.deleted = false

/-- `WHERE webhook_id = $1 AND event_id = $2 LIMIT 1`. -/
def findDeliveryLog (s : Store α) (job : WebhookDeliveryJobData) : Option DeliveryLogRow :=
  s.log.find job.id

/-- The INSERT of a pending record; a record that is there already makes it throw. -/
def createDeliveryLog (s : Store α) (job : WebhookDeliveryJobData) : Option (Store α) :=
  (s.log.insert job.row).map fun log => { s with log := log }

/-- The UPDATE of a record.  PostgreSQL executes it if it finds a type for every parameter. -/
def updateDeliveryLog (s : Store α) (id : String × String) (status : DeliveryStatus)
    (responseStatusCode : Option ℕ) : Option (Store α) :=
  if ∀ places ∈ updateDeliveryLogPlaces, (deducedType places).isSome then
    some { s with
      log := s.log.update id (·.write status responseStatusCode s.now) fun row => row.id_write }
  else none

/-- **The UPDATE is refused**, whatever it is to write. -/
@[simp] theorem updateDeliveryLog_eq_none (s : Store α) (id : String × String)
    (status : DeliveryStatus) (responseStatusCode : Option ℕ) :
    s.updateDeliveryLog id status responseStatusCode = none :=
  if_neg (by decide)

/-- A POST is sent for a record. -/
def attempt (s : Store α) (id : String × String) : Store α :=
  { s with attempts := id :: s.attempts }

/-- A request goes to an address. -/
def contact (s : Store α) (address : α) : Store α :=
  { s with contacted := address :: s.contacted }

end Store

/-! ## The worker -/

/-- Where a job stands: the statement or the request that is next. -/
inductive DeliveryPc (α : Type)
  | findDeliveryLog (job : WebhookDeliveryJobData)
  | createDeliveryLog (job : WebhookDeliveryJobData)
  | findById (job : WebhookDeliveryJobData)
  | prepare (job : WebhookDeliveryJobData) (webhook : WebhookRow)
  | lookup (job : WebhookDeliveryJobData) (url : Url α)
  | post (job : WebhookDeliveryJobData) (url : Url α) (address : α)
  | redirected (job : WebhookDeliveryJobData) (url : Url α) (left : ℕ)
  | update (job : WebhookDeliveryJobData) (responseStatus : ℕ)
  | caught (job : WebhookDeliveryJobData) (responseStatus : Option ℕ)
  | returned
  | threw
  deriving DecidableEq

/-- What comes back of a request: nothing, a response, or a response with a `Location`. -/
inductive Response (α : Type)
  | error
  | status (code : ℕ)
  | redirect (location : Url α)
  deriving DecidableEq

/-- How the statement goes, what DNS answers, and what comes back. -/
structure Draw (α : Type) where
  outcome : Outcome
  address : Option α
  response : Response α

/-- Time, registrations (with what DNS answers to them), and webhooks that are switched off or
deleted. -/
inductive Env (α : Type)
  | tick (seconds : ℕ)
  | create (row : WebhookRow) (answer : Option α)
  | deactivate (id : String)
  | softDelete (id : String)

section Machine

variable {α : Type} (lib : Lib α)

/-- What happens beside the jobs. -/
def env (s : Store α) : Env α → Store α
  | .tick seconds => { s with now := s.now + seconds }
  | .create row answer =>
    if isPrivateOrBlockedUrl lib row.url answer then s
    else { s with webhooks := row :: s.webhooks }
  | .deactivate id =>
    { s with webhooks := s.webhooks.map fun row =>
        if row.id = id then { row with isActive := false } else row }
  | .softDelete id =>
    { s with webhooks := s.webhooks.map fun row =>
        if row.id = id then { row with isActive := false, deleted := true } else row }

/-- What axios does with a response, with so many redirects left. -/
def DeliveryPc.respond (job : WebhookDeliveryJobData) (left : ℕ) : Response α → DeliveryPc α
  | .error => .caught job none
  | .status code => .update job code
  | .redirect location =>
    match left with
    | 0 => .caught job none
    | left + 1 => .redirected job location left

/-- `responseStatus >= 200 && responseStatus < 300`. -/
def success (responseStatus : ℕ) : Bool := 200 ≤ responseStatus ∧ responseStatus < 300

/-- **`webhookDeliveryWorkerJob`**, statement by statement, with `deliverWebhook` in it. -/
def DeliveryPc.next (s : Store α) (pc : DeliveryPc α) (d : Draw α) :
    Option (Store α × DeliveryPc α) :=
  match pc with
  | .findDeliveryLog job =>
    if d.outcome.answered then
      match s.findDeliveryLog job with
      | some row => some (s, if row.status = .delivered then .returned else .findById job)
      | none => some (s, .createDeliveryLog job)
    else some (s, .threw)
  | .createDeliveryLog job =>
    match if d.outcome.took then s.createDeliveryLog job else none with
    | some s' => some (s', if d.outcome.answered then .findById job else .threw)
    | none => some (s, .threw)
  | .findById job =>
    if d.outcome.answered then
      match s.findById job.webhookId job.orgId with
      | some webhook => some (s, if webhook.isActive then .prepare job webhook else .returned)
      | none => some (s, .returned)
    else some (s, .threw)
  | .prepare job webhook =>
    match lib.parseUrl webhook.url, lib.decryptSecret webhook.secretEncrypted with
    | some url, some _ => some (s, .lookup job url)
    | _, _ => some (s, .caught job none)
  | .lookup job url =>
    match Webhook.lookup url.host d.address with
    | some address =>
      some (s, if isPrivateIp lib address then .caught job none else .post job url address)
    | none => some (s, .caught job none)
  | .post job url address =>
    -- an IPv6 address without brackets is no host, and axios throws before it sends anything
    if lib.isIPv6 address then some (s, .caught job none)
    else
      match Webhook.lookup (targetUrl url address).host d.address with
      | some host => some ((s.attempt job.id).contact host, .respond job lib.maxRedirects d.response)
      | none => some (s.attempt job.id, .caught job none)
  | .redirected job url left =>
    match Webhook.lookup url.host d.address with
    | some host => some (s.contact host, .respond job left d.response)
    | none => some (s, .caught job none)
  | .update job responseStatus =>
    match s.updateDeliveryLog job.id (if success responseStatus then .delivered else .failed)
      (some responseStatus) with
    | some s' =>
      some (if d.outcome.took then s' else s,
        if d.outcome.answered ∧ success responseStatus then .returned
        else .caught job (some responseStatus))
    | none => some (s, .caught job (some responseStatus))
  | .caught job responseStatus =>
    match s.updateDeliveryLog job.id .failed responseStatus with
    | some s' => some (if d.outcome.took then s' else s, .threw)
    | none => some (s, .threw)
  | .returned | .threw => none

/-- The worker, and what happens beside it. -/
def deliveryMachine : Machine (Store α) (DeliveryPc α) (Draw α) (Env α) :=
  ⟨DeliveryPc.next lib, env lib⟩

/-- Delivery jobs, over the store they share. -/
abbrev Deliveries (ι : Type*) (α : Type) := Pool ι (Store α) (DeliveryPc α)

end Machine

/-! ## Counts and ends -/

namespace Store

variable {α : Type}

/-- `attempt_count` of the record, 0 where there is none. -/
def attemptCount (s : Store α) (id : String × String) : ℕ :=
  ((s.log.find id).map (·.attemptCount)).getD 0

/-- The HTTP attempts made for the record. -/
def httpAttempts (s : Store α) (id : String × String) : ℕ := s.attempts.count id

/-- The record is there, and says so. -/
def Delivered (s : Store α) (id : String × String) : Prop :=
  (s.log.find id).map (·.status) = some .delivered

instance (s : Store α) (id : String × String) : Decidable (s.Delivered id) :=
  inferInstanceAs (Decidable (_ = _))

end Store

/-- The record that the delivery has an UPDATE of before it. -/
def DeliveryPc.settling {α : Type} : DeliveryPc α → Option (String × String)
  | .redirected job _ _ | .update job _ | .caught job _ => some job.id
  | _ => none

def DeliveryPc.Settling {α : Type} (id : String × String) (pc : DeliveryPc α) : Prop :=
  pc.settling = some id

/-- The count is the number of attempts, for every record that nobody is about to update. -/
def CountsAttempts {ι : Type*} {α : Type} (p : Deliveries ι α) : Prop :=
  ∀ id, (∀ i, ¬ (p.calls i).Live (DeliveryPc.Settling id)) →
    p.store.attemptCount id = p.store.httpAttempts id

/-- **Attempts are counted and delivered is final**, in a state and in one reached from it. -/
def DeliveredOnce {ι : Type*} {α : Type} (p q : Deliveries ι α) : Prop :=
  CountsAttempts p ∧ CountsAttempts q ∧ ∀ id, p.store.Delivered id → q.store.Delivered id

section Sent

variable {α : Type} (lib : Lib α)

/-- The record of a delivery that is about to send its POST: an address that is checked, and that
axios can be given. -/
def DeliveryPc.sent : DeliveryPc α → Option (String × String)
  | .post job _ address => if lib.isIPv6 address then none else some job.id
  | _ => none

/-- The step sends no POST. -/
def Unsent {ι : Type*} (p : Deliveries ι α) : Move ι (Draw α) (Env α) → Prop
  | .run i _ => (p.calls i).at'.sent lib = none
  | .crash _ | .env _ => True

instance {ι : Type*} (p : Deliveries ι α) : ∀ m : Move ι (Draw α) (Env α), Decidable (Unsent lib p m)
  | .run i _ => inferInstanceAs (Decidable ((p.calls i).at'.sent lib = none))
  | .crash _ | .env _ => inferInstanceAs (Decidable True)

end Sent

/-! ## What a statement does -/

/-- Records are as they were, and new ones have counted nothing. -/
structure Untouched {α : Type} (s s' : Store α) : Prop where
  rows : ∀ {id row}, s.log.find id = some row → s'.log.find id = some row
  counts : ∀ id, s'.attemptCount id = s.attemptCount id

section Untouched

variable {α : Type} {s s' s'' : Store α}

theorem untouched_of_log (h : s'.log = s.log) : Untouched s s' where
  rows hrow := by rwa [h]
  counts id := by rw [Store.attemptCount, Store.attemptCount, h]

theorem Untouched.trans (h : Untouched s s') (h' : Untouched s' s'') : Untouched s s'' where
  rows hrow := h'.rows (h.rows hrow)
  counts id := (h'.counts id).trans (h.counts id)

/-- Final, for a record that is delivered. -/
theorem Untouched.delivered (h : Untouched s s') {id : String × String} (hid : s.Delivered id) :
    s'.Delivered id := by
  obtain ⟨row, hrow, hstatus⟩ := Option.map_eq_some_iff.mp hid
  exact Option.map_eq_some_iff.mpr ⟨row, h.rows hrow, hstatus⟩

/-- The INSERT adds a record that has counted nothing. -/
theorem untouched_createDeliveryLog {job : WebhookDeliveryJobData}
    (h : s.createDeliveryLog job = some s') : Untouched s s' ∧ s'.attempts = s.attempts := by
  obtain ⟨log, hlog, rfl⟩ := Option.map_eq_some_iff.mp h
  have hnone : s.log.find job.id = none := (Table.insert_eq_some hlog).1
  refine ⟨⟨fun {id row} hrow => ?_, fun id => ?_⟩, rfl⟩
  · have hne : ¬ job.id = id := by
      rintro rfl
      cases hnone.symm.trans hrow
    exact (Table.find_insert hlog id).trans ((if_neg hne).trans hrow)
  · unfold Store.attemptCount
    dsimp only
    rw [Table.find_insert hlog]
    split
    case isTrue hid =>
      rw [← hid, show s.log.find job.row.id = none from hnone]
      rfl
    case isFalse => rfl

end Untouched

section Next

variable {α : Type} {lib : Lib α} {s s' : Store α} {k k' : DeliveryPc α} {d : Draw α}
  {job : WebhookDeliveryJobData}

/-- What a statement is to the records and the attempts. -/
def Spec (lib : Lib α) (s : Store α) (k : DeliveryPc α) (s' : Store α) : Prop :=
  Untouched s s' ∧ s'.attempts = (k.sent lib).toList ++ s.attempts

/-- A statement that leaves the records and sends nothing. -/
theorem spec_of_log (hk : k.sent lib = none) (hlog : s'.log = s.log)
    (hattempts : s'.attempts = s.attempts) : Spec lib s k s' := by
  refine ⟨untouched_of_log hlog, ?_⟩
  rw [hk, hattempts]
  rfl

theorem spec_self (hk : k.sent lib = none) : Spec lib s k s := spec_of_log hk rfl rfl

/-- The SELECT of the record touches none, and sends nothing. -/
theorem spec_findDeliveryLog
    (h : (DeliveryPc.findDeliveryLog job).next lib s d = some (s', k')) :
    Spec lib s (.findDeliveryLog job) s' := by
  unfold DeliveryPc.next at h
  dsimp only at h
  split at h
  · split at h <;> obtain ⟨rfl, -⟩ := Prod.mk.inj (Option.some.inj h) <;> exact spec_self rfl
  · obtain ⟨rfl, -⟩ := Prod.mk.inj (Option.some.inj h)
    exact spec_self rfl

/-- The INSERT of a record touches no other one, and sends nothing. -/
theorem spec_createDeliveryLog
    (h : (DeliveryPc.createDeliveryLog job).next lib s d = some (s', k')) :
    Spec lib s (.createDeliveryLog job) s' := by
  unfold DeliveryPc.next at h
  dsimp only at h
  split at h
  case h_1 s₁ hs₁ =>
    obtain ⟨rfl, -⟩ := Prod.mk.inj (Option.some.inj h)
    split at hs₁
    · exact untouched_createDeliveryLog hs₁
    · cases hs₁
  case h_2 =>
    obtain ⟨rfl, -⟩ := Prod.mk.inj (Option.some.inj h)
    exact spec_self rfl

theorem spec_findById (h : (DeliveryPc.findById job).next lib s d = some (s', k')) :
    Spec lib s (.findById job) s' := by
  unfold DeliveryPc.next at h
  dsimp only at h
  split at h
  · split at h <;> obtain ⟨rfl, -⟩ := Prod.mk.inj (Option.some.inj h) <;> exact spec_self rfl
  · obtain ⟨rfl, -⟩ := Prod.mk.inj (Option.some.inj h)
    exact spec_self rfl

theorem spec_prepare {webhook : WebhookRow}
    (h : (DeliveryPc.prepare job webhook).next lib s d = some (s', k')) :
    Spec lib s (.prepare job webhook) s' := by
  unfold DeliveryPc.next at h
  dsimp only at h
  split at h <;> obtain ⟨rfl, -⟩ := Prod.mk.inj (Option.some.inj h) <;> exact spec_self rfl

theorem spec_lookup {url : Url α} (h : (DeliveryPc.lookup job url).next lib s d = some (s', k')) :
    Spec lib s (.lookup job url) s' := by
  unfold DeliveryPc.next at h
  dsimp only at h
  split at h <;> obtain ⟨rfl, -⟩ := Prod.mk.inj (Option.some.inj h) <;> exact spec_self rfl

/-- **The POST is an attempt**, if axios can be given the address. -/
theorem spec_post {url : Url α} {address : α}
    (h : (DeliveryPc.post job url address).next lib s d = some (s', k')) :
    Spec lib s (.post job url address) s' := by
  unfold DeliveryPc.next at h
  dsimp only at h
  split at h
  case isTrue hv6 =>
    obtain ⟨rfl, -⟩ := Prod.mk.inj (Option.some.inj h)
    exact spec_self (if_pos hv6)
  case isFalse hv4 =>
    have hsent : (DeliveryPc.post job url address).sent lib = some job.id := if_neg hv4
    obtain ⟨rfl, -⟩ := Prod.mk.inj (Option.some.inj h)
    refine ⟨untouched_of_log rfl, ?_⟩
    rw [hsent]
    rfl

theorem spec_redirected {url : Url α} {left : ℕ}
    (h : (DeliveryPc.redirected job url left).next lib s d = some (s', k')) :
    Spec lib s (.redirected job url left) s' := by
  unfold DeliveryPc.next at h
  dsimp only at h
  split at h <;> obtain ⟨rfl, -⟩ := Prod.mk.inj (Option.some.inj h) <;>
    exact spec_of_log rfl rfl rfl

/-- The UPDATE is refused, and the catch block is next. -/
theorem next_update (responseStatus : ℕ) :
    (DeliveryPc.update job responseStatus).next lib s d
      = some (s, .caught job (some responseStatus)) := by
  rw [DeliveryPc.next, Store.updateDeliveryLog_eq_none]

/-- The UPDATE of the catch block is refused, and the job throws. -/
theorem next_caught (responseStatus : Option ℕ) :
    (DeliveryPc.caught job responseStatus).next lib s d = some (s, .threw) := by
  rw [DeliveryPc.next, Store.updateDeliveryLog_eq_none]

/-- **A statement leaves every record as it is**, and a POST is an attempt. -/
theorem spec_of_next (h : k.next lib s d = some (s', k')) : Spec lib s k s' := by
  cases k with
  | findDeliveryLog job => exact spec_findDeliveryLog h
  | createDeliveryLog job => exact spec_createDeliveryLog h
  | findById job => exact spec_findById h
  | prepare job webhook => exact spec_prepare h
  | lookup job url => exact spec_lookup h
  | post job url address => exact spec_post h
  | redirected job url left => exact spec_redirected h
  | update job responseStatus =>
    obtain ⟨rfl, -⟩ := Prod.mk.inj (Option.some.inj ((next_update responseStatus).symm.trans h))
    exact spec_self rfl
  | caught job responseStatus =>
    obtain ⟨rfl, -⟩ := Prod.mk.inj (Option.some.inj ((next_caught responseStatus).symm.trans h))
    exact spec_self rfl
  | returned => cases h
  | threw => cases h

variable (lib) in
theorem env_log (s : Store α) (e : Env α) :
    (env lib s e).log = s.log ∧ (env lib s e).attempts = s.attempts := by
  cases e with
  | create row answer =>
    unfold env
    dsimp only
    split <;> exact ⟨rfl, rfl⟩
  | _ => exact ⟨rfl, rfl⟩

end Next

/-! ## Runs -/

section Runs

variable {ι : Type*} {α : Type} [DecidableEq ι] {lib : Lib α} {p q : Deliveries ι α}

/-- A move takes nothing off the record of attempts, and adds nothing where it sends nothing. -/
theorem untouched_step {m : Move ι (Draw α) (Env α)}
    (h : p.step (deliveryMachine lib) m = some q) :
    Untouched p.store q.store ∧ ∃ sent, q.store.attempts = sent ++ p.store.attempts
      ∧ (Unsent lib p m → sent = []) := by
  cases m with
  | run i d =>
    obtain ⟨k, s', k', hk, hn, rfl⟩ := Pool.step_run h
    obtain ⟨huntouched, hattempts⟩ := spec_of_next hn
    refine ⟨huntouched, _, hattempts, fun hunsent => ?_⟩
    have hnone : (p.calls i).at'.sent lib = none := hunsent
    rw [hk] at hnone
    exact congrArg Option.toList hnone
  | crash i =>
    obtain ⟨k, -, rfl⟩ := Pool.step_crash h
    exact ⟨untouched_of_log rfl, [], rfl, fun _ => rfl⟩
  | env e =>
    obtain rfl := Option.some.inj h
    obtain ⟨hlog, hattempts⟩ := env_log lib p.store e
    exact ⟨untouched_of_log hlog, [], hattempts, fun _ => rfl⟩

/-- **A run leaves every record as it is**, and attempts are only added. -/
theorem untouched_run (h : Run (Pool.step (deliveryMachine lib)) anyStep p q) :
    Untouched p.store q.store ∧ p.store.attempts <:+ q.store.attempts := by
  induction h with
  | refl => exact ⟨untouched_of_log rfl, List.suffix_refl _⟩
  | tail _ _ hs ih =>
    obtain ⟨huntouched, sent, hattempts, -⟩ := untouched_step hs
    exact ⟨ih.1.trans huntouched, ih.2.trans ⟨sent, hattempts.symm⟩⟩

theorem attempts_of_unsent (h : Run (Pool.step (deliveryMachine lib)) (Unsent lib) p q) :
    q.store.attempts = p.store.attempts := by
  induction h with
  | refl => rfl
  | tail _ hG hs ih =>
    obtain ⟨-, sent, hattempts, hnil⟩ := untouched_step hs
    rw [hattempts, hnil hG, List.nil_append, ih]

/-- Every record counts its attempts, busy or not. -/
theorem counts_of_unsent {s₀ : Store α} (hs₀ : ∀ id, s₀.attemptCount id = s₀.httpAttempts id)
    {calls : ι → Proc (DeliveryPc α)}
    (h : Run (Pool.step (deliveryMachine lib)) (Unsent lib) ⟨s₀, calls⟩ p) : CountsAttempts p := by
  intro id _
  obtain ⟨huntouched, -⟩ := untouched_run (h.mono fun _ _ _ => trivial)
  rw [huntouched.counts, Store.httpAttempts, attempts_of_unsent h]
  exact hs₀ id

/-- **Attempts are counted and delivered is final as long as no POST is sent**; and a record that a
POST was sent for has counted too few from then on. -/
theorem count_of_attempts {s₀ : Store α} (hs₀ : ∀ id, s₀.attemptCount id = s₀.httpAttempts id)
    (jobs : ι → WebhookDeliveryJobData) :
    (∀ p q, Run (Pool.step (deliveryMachine lib)) (Unsent lib)
          ⟨s₀, fun i => .up (.findDeliveryLog (jobs i))⟩ p →
        Run (Pool.step (deliveryMachine lib)) (Unsent lib) p q → DeliveredOnce p q)
      ∧ ∀ p p' q i d id, Run (Pool.step (deliveryMachine lib)) anyStep
          ⟨s₀, fun i => .up (.findDeliveryLog (jobs i))⟩ p →
        (p.calls i).at'.sent lib = some id → p.step (deliveryMachine lib) (.run i d) = some p' →
        Run (Pool.step (deliveryMachine lib)) anyStep p' q →
        q.store.attemptCount id < q.store.httpAttempts id := by
  constructor
  · intro p q hp hq
    refine ⟨counts_of_unsent hs₀ hp, counts_of_unsent hs₀ (hp.trans hq), fun id hid => ?_⟩
    exact (untouched_run (hq.mono fun _ _ _ => trivial)).1.delivered hid
  · intro p p' q i d id hp hsent hstep hq
    obtain ⟨hcounts, hsuffix⟩ := untouched_run hp
    obtain ⟨hcounts', hsuffix'⟩ := untouched_run hq
    obtain ⟨k, s', k', hk, hn, rfl⟩ := Pool.step_run hstep
    obtain ⟨huntouched, hattempts⟩ := spec_of_next hn
    rw [hk, Proc.at'_up] at hsent
    rw [hsent] at hattempts
    calc q.store.attemptCount id
        = s₀.attemptCount id := by
          rw [hcounts'.counts, huntouched.counts, hcounts.counts]
      _ = s₀.httpAttempts id := hs₀ id
      _ ≤ p.store.httpAttempts id := hsuffix.sublist.count_le id
      _ < (id :: p.store.attempts).count id := by
          rw [List.count_cons_self]
          exact Nat.lt_succ_self _
      _ = s'.attempts.count id := congrArg (List.count id) hattempts.symm
      _ ≤ q.store.httpAttempts id := hsuffix'.sublist.count_le id

end Runs

/-! ## A webhook that answers -/

/-- A parser that knows one URL, and one public address. -/
def demoLib : Lib String where
  parseUrl _ := some ⟨"https:", .name "api.partner.com", "", "/hook", ""⟩
  decryptSecret := some
  range address := some (if address = "93.184.216.34" then "unicast" else "private")
  isIPv6 _ := false
  maxRedirects := 21

def demoJob : WebhookDeliveryJobData := ⟨"wh-1", "org-1", "ev-1", "task.created"⟩

/-- One subscription, and nothing delivered. -/
def demoStore : Store String where
  now := 0
  webhooks := [⟨"wh-1", "org-1", "https://api.partner.com/hook", "secret", true, false⟩]
  log := .empty
  attempts := []
  contacted := []

/-- Two jobs for one record. -/
def twoJobs : Deliveries (Fin 2) String := ⟨demoStore, fun _ => .up (.findDeliveryLog demoJob)⟩

/-- A statement that goes well. -/
def answer (response : Response String) : Draw String := ⟨.ok, some "93.184.216.34", response⟩

/-- The statements of a job, the POST among them. -/
def deliver (i : Fin 2) (n : ℕ) (response : Response String) :
    List (Move (Fin 2) (Draw String) (Env String)) :=
  List.replicate n (.run i (answer response))

/-- A record from before, that has been delivered. -/
def deliveredStore : Store String :=
  { demoStore with
    log := ⟨[⟨"wh-1", "org-1", "ev-1", "task.created", .delivered, 1, some 200, some 0⟩], by decide⟩
    attempts := [demoJob.id] }

/-- In that store every count is right. -/
theorem counts_deliveredStore (id : String × String) :
    deliveredStore.attemptCount id = deliveredStore.httpAttempts id := by
  by_cases hid : demoJob.id = id
  · rw [← hid]
    decide
  · have hfind : deliveredStore.log.find id = none := by
      refine Table.find_eq_none.mpr fun row hrow => ?_
      obtain rfl := List.mem_singleton.mp hrow
      exact hid
    rw [Store.attemptCount, hfind, Store.httpAttempts]
    exact (List.count_eq_zero.mpr fun hmem => hid (List.mem_singleton.mp hmem).symm).symm

/-- One job of the delivered record, and one of another event. -/
def otherJobs (i : Fin 2) : WebhookDeliveryJobData :=
  if i = 0 then demoJob else { demoJob with eventId := "ev-2" }

def twoRecords : Deliveries (Fin 2) String :=
  ⟨deliveredStore, fun i => .up (.findDeliveryLog (otherJobs i))⟩

/-- The delivered record is skipped, and DNS answers the other job with a private address; with a
public one its POST is sent, and answered with success, and counts for nothing. -/
theorem count_of_two_records : (∃ p : Deliveries (Fin 2) String,
      (∀ i, (p.calls i).at'.settling = none) ∧ p.store.Delivered demoJob.id ∧ CountsAttempts p)
    ∧ ∃ q : Deliveries (Fin 2) String,
      q.store.attemptCount (otherJobs 1).id < q.store.httpAttempts (otherJobs 1).id := by
  obtain ⟨hquiet, hsent⟩ :=
    @count_of_attempts (Fin 2) String _ demoLib _ counts_deliveredStore otherJobs
  constructor
  · obtain ⟨p, hp, hend⟩ := exists_run_of_exec (Pool.step (deliveryMachine demoLib))
      (Unsent demoLib) twoRecords
      (deliver 0 1 .error ++ List.replicate 6 (.run 1 ⟨.ok, some "10.0.0.1", .error⟩))
      (fun p => decide ((∀ i, (p.calls i).at'.settling = none) ∧ p.store.Delivered demoJob.id))
      (by decide)
    obtain ⟨hidle, hdelivered⟩ := of_decide_eq_true hend
    exact ⟨p, hidle, hdelivered, (hquiet p p hp .refl).1⟩
  · obtain ⟨p, q, hp, -, hstep, hsends⟩ := exists_step_of_exec
      (Pool.step (deliveryMachine demoLib)) anyStep twoRecords (deliver 1 5 .error)
      (.run 1 (answer (.status 200)))
      (fun p _ => decide ((p.calls 1).at'.sent demoLib = some (otherJobs 1).id)) (by decide)
    exact ⟨q, hsent p q q 1 _ _ hp (of_decide_eq_true hsends) hstep .refl⟩

/-- **A POST that is answered with success is not counted**, and its record not delivered. -/
theorem attempt_not_counted : ¬ ∀ (lib : Lib String) (s₀ : Store String)
    (jobs : Fin 2 → WebhookDeliveryJobData) (p q : Deliveries (Fin 2) String),
    (∀ id, s₀.attemptCount id = s₀.httpAttempts id) →
    Run (Pool.step (deliveryMachine lib)) anyStep ⟨s₀, fun i => .up (.findDeliveryLog (jobs i))⟩ p →
    Run (Pool.step (deliveryMachine lib)) anyStep p q → DeliveredOnce p q := by
  intro hclaim
  obtain ⟨p, hp, hcount⟩ := exists_run_of_exec (Pool.step (deliveryMachine demoLib)) anyStep
    twoJobs (deliver 0 8 (.status 200))
    (fun p => decide ((∀ i, (p.calls i).at'.settling = none)
      ∧ p.store.attemptCount demoJob.id = 0 ∧ p.store.httpAttempts demoJob.id = 1)) (by decide)
  obtain ⟨hidle, hzero, hone⟩ := of_decide_eq_true hcount
  have heq := (hclaim demoLib demoStore (fun _ => demoJob) p p (fun _ => rfl) hp .refl).1
    demoJob.id fun i hi => by
      obtain ⟨k, hk, hsettling⟩ := hi.exists
      have hnone := hidle i
      rw [hk] at hnone
      cases hnone.symm.trans hsettling
  rw [hzero, hone] at heq
  exact absurd heq (by decide)

end WorkPlatform.Webhook

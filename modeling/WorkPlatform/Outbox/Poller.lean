import Mathlib.Data.List.Sort
import WorkPlatform.Machinery.Run
import WorkPlatform.Machinery.Table

/-!
# Outbox/Poller — publishing events, and the clean-up

    pollCycle       SET NX ▸ connect ▸ BEGIN ▸ SELECT … FOR UPDATE SKIP LOCKED
                      ▸ PUBLISH event … ▸ UPDATE … SET published ▸ COMMIT
                    where something fails: ▸ ROLLBACK
    runCleanupJob   DELETE published, seven days old ▸ DELETE failed, thirty days old

A statement is answered, fails, or is done without an answer.  What a transaction writes is there
once it commits; the rows it has selected are locked until it ends.  The server may end a
transaction by itself, which is what becomes of that of a call that has crashed.  `NOW()` is when
the transaction began.  The clean-up is that of `outbox_events` only.
-/

namespace WorkPlatform.Outbox

open Machinery

/-! ## The store -/

inductive EventStatus
  | pending | published | failed
  deriving DecidableEq, Repr

/-- A row of `outbox_events`; `event` stands for the columns from `org_id` to `payload`, and no
statement sets `retry_count` or `last_error`. -/
structure OutboxRow where
  id : String
  event : String
  status : EventStatus
  occurredAt : ℕ
  createdAt : ℕ
  publishedAt : Option ℕ
  deriving DecidableEq

/-- The row as it was inserted. -/
def OutboxRow.original (r : OutboxRow) : OutboxRow :=
  { r with
    status := .pending
    publishedAt := none }

/-- The value of `outbox:poller:lock`, and when it expires. -/
structure PollerLock where
  instanceId : String
  expiresAt : ℕ
  deriving DecidableEq

/-- A transaction of the poller, by its number and the time of its `BEGIN`. -/
structure Tx where
  id : ℕ
  startedAt : ℕ
  deriving DecidableEq

/-- `rows` is what is committed, `rowLocks` the transaction that has a row locked; `channel` is
everything that was published to `outbox:events`, the last first. -/
structure Store where
  now : ℕ
  rows : Table OutboxRow.id
  lock : Option PollerLock
  nextTx : ℕ
  openTxs : List ℕ
  rowLocks : String → Option ℕ
  channel : List OutboxRow

/-- The row after the UPDATE of a batch. -/
def OutboxRow.mark (tx : Tx) (events : List OutboxRow) (r : OutboxRow) : OutboxRow :=
  if r.id ∈ events.map (·.id) then
    { r with
      status := .published
      publishedAt := some tx.startedAt }
  else r

theorem OutboxRow.mark_id (tx : Tx) (events : List OutboxRow) (r : OutboxRow) :
    (r.mark tx events).id = r.id := by
  unfold OutboxRow.mark
  split <;> rfl

def lockTtl : ℕ := 10 * 1000

def day : ℕ := 24 * 60 * 60 * 1000

namespace Store

/-- There is no lock, or it has expired. -/
def lockFree (s : Store) : Bool := s.lock.all fun lock => lock.expiresAt ≤ s.now

def acquire (s : Store) (instanceId : String) : Store :=
  { s with lock := some ⟨instanceId, s.now + lockTtl⟩ }

/-- `BEGIN`. -/
def begin (s : Store) : Store :=
  { s with
    nextTx := s.nextTx + 1
    openTxs := s.nextTx :: s.openTxs }

/-- What the SELECT may return: pending, more than 100 ms old, and not locked. -/
def eligible (s : Store) (tx : Tx) (r : OutboxRow) : Bool :=
  r.status = .pending ∧ r.occurredAt + 100 < tx.startedAt ∧ (s.rowLocks r.id).isNone

/-- The SELECT, oldest first. -/
def select (s : Store) (batchSize : ℕ) (tx : Tx) : List OutboxRow :=
  ((s.rows.rows.filter (s.eligible tx)).insertionSort fun a b => a.createdAt ≤ b.createdAt).take
    batchSize

def lockRows (s : Store) (tx : Tx) (events : List OutboxRow) : Store :=
  { s with
    rowLocks := fun id => if id ∈ events.map (·.id) then some tx.id else s.rowLocks id }

def publish (s : Store) (event : OutboxRow) : Store := { s with channel := event :: s.channel }

/-- The end of a transaction. -/
def endTx (s : Store) (txId : ℕ) : Store :=
  { s with
    openTxs := s.openTxs.filter (· ≠ txId)
    rowLocks := fun id => if s.rowLocks id = some txId then none else s.rowLocks id }

/-- The UPDATE of a batch. -/
def markPublished (s : Store) (tx : Tx) (events : List OutboxRow) : Store :=
  { s with rows := s.rows.map (·.mark tx events) (OutboxRow.mark_id tx events) }

/-- The COMMIT of a transaction that has marked its batch. -/
def commit (s : Store) (tx : Tx) (events : List OutboxRow) : Store :=
  (s.markPublished tx events).endTx tx.id

/-- The DELETE of published events. -/
def purgePublished (s : Store) : Store :=
  { s with
    rows := s.rows.filter fun r =>
      ¬ (r.status = .published ∧ r.publishedAt.any fun time => time + 7 * day < s.now) }

/-- The DELETE of failed events. -/
def purgeFailed (s : Store) : Store :=
  { s with
    rows := s.rows.filter fun r => ¬ (r.status = .failed ∧ r.createdAt + 30 * day < s.now) }

end Store

/-! ## `pollCycle` -/

/-- What becomes of a statement: done and answered, done and not answered, or not done. -/
inductive Reply
  | ok | lost | error
  deriving DecidableEq, Repr

def Reply.done (r : Reply) : Bool := r ≠ .error

/-- `instanceId` is the token of the cycle. -/
structure Draw where
  instanceId : String
  reply : Reply
  deriving DecidableEq

/-- Where a cycle of the poller is: the events of its batch, and those it has not published. -/
inductive PollPc
  | lock
  | connect
  | begin
  | select (tx : Tx)
  | publish (tx : Tx) (events : List OutboxRow) (event : OutboxRow) (rest : List OutboxRow)
  | update (tx : Tx) (events : List OutboxRow)
  | commit (tx : Tx) (events : List OutboxRow)
  | rollback (tx : Tx)
  | returned (isFull : Bool)
  | threw
  deriving DecidableEq

/-- A batch of nothing is rolled back. -/
def PollPc.selected (tx : Tx) : List OutboxRow → PollPc
  | [] => .rollback tx
  | event :: rest => .publish tx (event :: rest) event rest

/-- The loop over the batch. -/
def PollPc.publishing (tx : Tx) (events : List OutboxRow) : List OutboxRow → PollPc
  | [] => .update tx events
  | event :: rest => .publish tx events event rest

/-- The next statement of `pollCycle`. -/
def pollNext (batchSize : ℕ) (s : Store) (d : Draw) : PollPc → Option (Store × PollPc)
  | .lock => some (if d.reply.done ∧ s.lockFree then s.acquire d.instanceId else s,
      if d.reply ≠ .ok then .threw else if s.lockFree then .connect else .returned false)
  | .connect => some (s, if d.reply = .ok then .begin else .threw)
  | .begin =>
    if d.reply = .ok then some (s.begin, .select ⟨s.nextTx, s.now⟩) else some (s, .returned false)
  | .select tx =>
    if tx.id ∈ s.openTxs ∧ d.reply.done then
      some (s.lockRows tx (s.select batchSize tx),
        if d.reply = .ok then .selected tx (s.select batchSize tx) else .rollback tx)
    else some (s, .rollback tx)
  | .publish tx events event rest => some (if d.reply.done then s.publish event else s,
      if d.reply = .ok then .publishing tx events rest else .rollback tx)
  | .update tx events =>
    some (s, if tx.id ∈ s.openTxs ∧ d.reply = .ok then .commit tx events else .rollback tx)
  | .commit tx events =>
    if tx.id ∈ s.openTxs ∧ d.reply.done then
      some (s.commit tx events,
        if d.reply = .ok then .returned (batchSize ≤ events.length) else .rollback tx)
    else some (s, .rollback tx)
  | .rollback tx => some (if d.reply.done then s.endTx tx.id else s, .returned false)
  | .returned _ | .threw => none

/-! ## `runCleanupJob` -/

/-- Where the clean-up of the outbox is. -/
inductive CleanupPc
  | purgePublished
  | purgeFailed
  | returned
  deriving DecidableEq

/-- An error is logged, and the job goes on. -/
def cleanupNext (s : Store) (d : Draw) : CleanupPc → Option (Store × CleanupPc)
  | .purgePublished => some (if d.reply.done then s.purgePublished else s, .purgeFailed)
  | .purgeFailed => some (if d.reply.done then s.purgeFailed else s, .returned)
  | .returned => none

/-! ## The machine -/

/-- A call, and where it is. -/
inductive Call
  | pollCycle (pc : PollPc)
  | cleanup (pc : CleanupPc)
  deriving DecidableEq

/-- The call has not run a statement yet. -/
def Call.fresh : Call → Bool
  | .pollCycle .lock | .cleanup .purgePublished => true
  | _ => false

def Call.next (batchSize : ℕ) (s : Store) (d : Draw) : Call → Option (Store × Call)
  | .pollCycle pc => (pollNext batchSize s d pc).map fun x => (x.1, .pollCycle x.2)
  | .cleanup pc => (cleanupNext s d pc).map fun x => (x.1, .cleanup x.2)

/-- What happens around the calls: time, an event that a service inserts, and the end of a
transaction whose client is gone. -/
inductive Env
  | tick (ms : ℕ)
  | event (id event : String) (occurredAt : ℕ)
  | abort (txId : ℕ)

/-- Time, new events, and transactions that PostgreSQL gives up. -/
def env (s : Store) : Env → Store
  | .tick ms => { s with now := s.now + ms }
  | .event id event occurredAt =>
    { s with
      rows := (s.rows.insert ⟨id, event, .pending, occurredAt, s.now, none⟩).getD s.rows }
  | .abort txId => s.endTx txId

def outboxMachine (batchSize : ℕ) : Machine Store Call Draw Env :=
  ⟨fun s c d => c.next batchSize s d, env⟩

/-- Pollers and clean-ups over the store. -/
abbrev Calls (ι : Type*) := Pool ι Store Call

end WorkPlatform.Outbox

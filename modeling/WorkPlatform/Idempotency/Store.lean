import WorkPlatform.Machinery.Run
import WorkPlatform.Idempotency.Key

/-!
# Idempotency/Store — `checkAndStore`, the handler and `saveResponse`, statement by statement

The `idempotency_keys` table and the requests that go through it.  A request runs the SELECT of a
live row, and either answers from it or goes on to the INSERT; the handler starts in the same turn
in which the INSERT returns, and `saveResponse` is one more statement after the handler has
answered.  The environment lets time pass and runs the purge of `runCleanupJob`.

Three tests on the age of a row meet here: the SELECT wants `expires_at > NOW()`, the purge deletes
`expires_at < NOW()`, and `ON CONFLICT DO NOTHING` looks at no age at all.
-/

namespace WorkPlatform.Idempotency

open Machinery

variable {β : Type*}

/-! ## The table and its statements -/

/-- `TTL_HOURS`, in milliseconds. -/
def ttl : ℕ := 24 * 60 * 60 * 1000

/-- A row of `idempotency_keys`, less the columns nothing reads; `none` is NULL. -/
structure IdempotencyRecord (β : Type*) where
  responseStatus : Option ℕ
  responseBody : Option β
  expiresAt : ℕ
  deriving DecidableEq

/-- A response that `saveResponse` wrote, with the times of its INSERT and of the save. -/
structure Saved (β : Type*) where
  insertedAt : ℕ
  savedAt : ℕ
  status : ℕ
  body : β
  deriving DecidableEq

/-- The clock, the table by its unique `key_hash`, and the history of the saves. -/
structure Db (β : Type*) where
  now : ℕ
  rows : String → Option (IdempotencyRecord β)
  saved : String → List (Saved β)

/-- `SELECT … WHERE key_hash = $1 AND expires_at > NOW()`. -/
def selectLive (db : Db β) (keyHash : String) : Option (IdempotencyRecord β) :=
  (db.rows keyHash).filter fun r => db.now < r.expiresAt

/-- `INSERT … ON CONFLICT (key_hash) DO NOTHING`. -/
def insertKey (db : Db β) (keyHash : String) : Db β :=
  match db.rows keyHash with
  | some _ => db
  | none => { db with rows := Function.update db.rows keyHash (some ⟨none, none, db.now + ttl⟩) }

/-- `saveResponse`: `UPDATE … WHERE key_hash = $3`; it saves something only where there is a row. -/
def saveResponse (db : Db β) (keyHash : String) (insertedAt status : ℕ) (body : β) : Db β :=
  match db.rows keyHash with
  | none => db
  | some r =>
    { db with
      rows := Function.update db.rows keyHash
        (some { r with responseStatus := some status, responseBody := some body })
      saved := Function.update db.saved keyHash
        (⟨insertedAt, db.now, status, body⟩ :: db.saved keyHash) }

/-- The purge of `runCleanupJob`: `DELETE … WHERE expires_at < NOW()`. -/
def purgeExpired (db : Db β) : Db β :=
  { db with rows := fun k => (db.rows k).filter fun r => ¬ r.expiresAt < db.now }

/-! ## Requests -/

/-- What a request is answered. -/
inductive Reply (β : Type*)
  | cached (status : ℕ) (body : β)
  | conflict (e : AppError)
  | handled (status : ℕ) (body : β)
  deriving DecidableEq

/-- `IDEMPOTENCY_IN_PROGRESS`. -/
def inProgress : AppError :=
  .conflict "IDEMPOTENCY_IN_PROGRESS" "A request with this Idempotency-Key is already in progress"

/-- Where a request stands.  From `running` on, its handler has been executed; `insertedAt` is the
time of its INSERT. -/
inductive Pc (β : Type*)
  | select
  | insert
  | running (insertedAt : ℕ)
  | save (insertedAt status : ℕ) (body : β)
  | replied (r : Reply β)
  deriving DecidableEq

/-- A request under check. -/
structure Req (β : Type*) where
  args : CheckArgs
  pc : Pc β
  deriving DecidableEq

/-- The request has started its handler. -/
def Pc.executed : Pc β → Prop
  | .running _ | .save _ _ _ | .replied (.handled _ _) => True
  | _ => False

/-- The request is between its SELECT and its answer. -/
def Pc.busy : Pc β → Prop
  | .insert | .running _ | .save _ _ _ => True
  | _ => False

instance : DecidablePred (@Pc.busy β)
  | .select | .replied _ => inferInstanceAs (Decidable False)
  | .insert | .running _ | .save _ _ _ => inferInstanceAs (Decidable True)

/-- What is decided outside the modelled code: the handler's response, and whether the save goes
through (its failure is swallowed). -/
structure Draw (β : Type*) where
  status : ℕ
  body : β
  saves : Bool

/-- What the SELECT leads to. -/
def answer : Option (IdempotencyRecord β) → Pc β
  | none => .insert
  | some r =>
    match r.responseStatus, r.responseBody with
    | some status, some body => .replied (.cached status body)
    | _, _ => .replied (.conflict inProgress)

/-- The next statement of a request with the given record. -/
def nextPc (db : Db β) (keyHash : String) (d : Draw β) : Pc β → Option (Db β × Pc β)
  | .select => some (db, answer (selectLive db keyHash))
  | .insert => some (insertKey db keyHash, .running db.now)
  | .running insertedAt => some (db, .save insertedAt d.status d.body)
  | .save insertedAt status body =>
    some (if d.saves then saveResponse db keyHash insertedAt status body else db,
      .replied (.handled status body))
  | .replied _ => none

/-- What happens around the requests. -/
inductive Env
  | tick (ms : ℕ)
  | cleanup

/-- Time passes, or the purge runs. -/
def env (db : Db β) : Env → Db β
  | .tick ms => { db with now := db.now + ms }
  | .cleanup => purgeExpired db

section Machine

variable (hashToken : String → String)

/-- The record a request uses. -/
def Req.keyHash (r : Req β) : String := computeKeyHash hashToken r.args

/-- The statements of requests under check. -/
def idempotencyMachine : Machine (Db β) (Req β) (Draw β) Env where
  next db r d := (nextPc db (r.keyHash hashToken) d r.pc).map fun x => (x.1, { r with pc := x.2 })
  env := env

end Machine

/-- Requests over the table. -/
abbrev Requests (ι β : Type*) := Pool ι (Db β) (Req β)

/-! ## What one statement can do -/

theorem next_inv {hashToken : String → String} {db db' : Db β} {r r' : Req β} {d : Draw β}
    (h : (idempotencyMachine hashToken).next db r d = some (db', r')) :
    nextPc db (r.keyHash hashToken) d r.pc = some (db', r'.pc) ∧ r' = { r with pc := r'.pc } := by
  obtain ⟨⟨db₁, pc⟩, hpc, heq⟩ := Option.map_eq_some_iff.mp h
  obtain ⟨rfl, rfl⟩ := Prod.mk.inj heq
  exact ⟨hpc, rfl⟩

theorem selectLive_eq_none {db : Db β} {k : String} :
    selectLive db k = none ↔ ∀ r, db.rows k = some r → r.expiresAt ≤ db.now := by
  cases hr : db.rows k with
  | none => simp [selectLive, hr]
  | some r => simp [selectLive, hr]

theorem selectLive_eq_some {db : Db β} {k : String} {r : IdempotencyRecord β} :
    selectLive db k = some r ↔ db.rows k = some r ∧ db.now < r.expiresAt := by
  simp [selectLive, Option.filter_eq_some_iff]

@[simp] theorem insertKey_now (db : Db β) (k : String) : (insertKey db k).now = db.now := by
  unfold insertKey
  split <;> rfl

@[simp] theorem insertKey_saved (db : Db β) (k : String) : (insertKey db k).saved = db.saved := by
  unfold insertKey
  split <;> rfl

theorem insertKey_rows_of_none {db : Db β} {k : String} (h : db.rows k = none) :
    (insertKey db k).rows k = some ⟨none, none, db.now + ttl⟩ := by
  simp [insertKey, h]

theorem insertKey_rows_of_some {db : Db β} {k : String} {r : IdempotencyRecord β}
    (h : db.rows k = some r) : insertKey db k = db := by
  simp [insertKey, h]

/-- The SELECT sends a request to the INSERT exactly when it finds nothing. -/
theorem answer_eq_insert {row : Option (IdempotencyRecord β)} :
    answer row = .insert ↔ row = none := by
  cases row with
  | none => exact ⟨fun _ => rfl, fun _ => rfl⟩
  | some r =>
    rcases r with ⟨_ | status, _ | body, e⟩
    all_goals exact ⟨nofun, nofun⟩

/-- Only a SELECT that finds nothing leads to the INSERT. -/
theorem nextPc_insert {db db' : Db β} {k : String} {d : Draw β} {pc : Pc β}
    (h : nextPc db k d pc = some (db', .insert)) : pc = .select ∧ selectLive db k = none := by
  cases pc with
  | select => exact ⟨rfl, answer_eq_insert.mp (Prod.mk.inj (Option.some.inj h)).2⟩
  | _ => cases h

/-- A statement under one record leaves the others alone. -/
theorem rows_of_ne {db db' : Db β} {k k' : String} {d : Draw β} {pc pc' : Pc β}
    (h : nextPc db k d pc = some (db', pc')) (hne : k' ≠ k) :
    db'.rows k' = db.rows k' ∧ db'.saved k' = db.saved k' := by
  cases pc with
  | select =>
    obtain ⟨rfl, -⟩ := Prod.mk.inj (Option.some.inj h)
    exact ⟨rfl, rfl⟩
  | insert =>
    obtain ⟨rfl, -⟩ := Prod.mk.inj (Option.some.inj h)
    refine ⟨?_, by simp⟩
    unfold insertKey
    split
    · rfl
    · simp [hne]
  | running τ =>
    obtain ⟨rfl, -⟩ := Prod.mk.inj (Option.some.inj h)
    exact ⟨rfl, rfl⟩
  | save τ status body =>
    obtain ⟨rfl, -⟩ := Prod.mk.inj (Option.some.inj h)
    unfold saveResponse
    split
    · split
      · exact ⟨rfl, rfl⟩
      · simp [hne]
    · exact ⟨rfl, rfl⟩
  | replied r => cases h

/-- No statement moves the clock. -/
theorem now_nextPc {db db' : Db β} {k : String} {d : Draw β} {pc pc' : Pc β}
    (h : nextPc db k d pc = some (db', pc')) : db'.now = db.now := by
  cases pc with
  | select => rw [← (Prod.mk.inj (Option.some.inj h)).1]
  | insert => rw [← (Prod.mk.inj (Option.some.inj h)).1, insertKey_now]
  | running τ => rw [← (Prod.mk.inj (Option.some.inj h)).1]
  | save τ status body =>
    rw [← (Prod.mk.inj (Option.some.inj h)).1]
    unfold saveResponse
    repeat' split
    all_goals rfl
  | replied r => cases h

end WorkPlatform.Idempotency

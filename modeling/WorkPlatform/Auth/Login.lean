import WorkPlatform.Auth.Calls

/-!
# Auth/Login — `login`, statement by statement

    login   find ▸ verify ▸ [threshold ▸] increment [▸ lock]
            find ▸ verify ▸ reset ▸ touch ▸ [lookupRole ▸] insert ▸ audit

The columns of `users` that no other service reads (`failed_login_attempts`, `locked_until`) and
the index on `email` stand beside the stores of the other services.  `verifyPassword` is awaited,
so it is a move of its own.  What becomes of an account is on record: the passwords evaluated for
it, and the statements that reset or lock it.
-/

namespace WorkPlatform.Auth

open Machinery

/-! ## The stores of `login` -/

/-- `failed_login_attempts` and `locked_until`. -/
structure Lockout where
  failedLoginAttempts : ℕ
  lockedUntil : Option ℕ
  deriving DecidableEq

/-- `user.locked_until && user.locked_until > new Date()`. -/
def Lockout.lockedAt (l : Lockout) (now : ℕ) : Bool := l.lockedUntil.any (now < ·)

/-- What `login` needs of `users` beside the other services' columns: the unique index on the
emails of users that are not deleted, and the lockout columns by user id. -/
structure Accounts where
  emails : String → Option String
  lockouts : String → Lockout

/-- What became of an account.  A password that is evaluated is recorded with whether it was right
and whether the account was locked when the call started. -/
inductive LoginEvent
  | evaluated (userId : String) (valid locked : Bool)
  | reset (userId : String)
  | locked (userId : String)
  deriving DecidableEq

/-- `lockoutAttempts` is `organizations.account_lockout_attempts`, by the id of an organisation
that is not deleted. -/
structure LoginStore where
  auth : Store
  primary : Accounts
  replica : Accounts
  lockoutAttempts : String → Option ℕ
  history : List LoginEvent

/-- The configuration, `toLowerCase().trim()` and bcrypt's `compare`. -/
structure LoginConfig extends Config where
  normalizeEmail : String → String
  verifyPassword : String → String → Bool

/-- `DEFAULT_LOCKOUT_ATTEMPTS`. -/
def defaultLockoutAttempts : ℕ := 5

/-- `LOCK_DURATION_MS`. -/
def lockDuration : ℕ := 30 * 60 * 1000

/-- The row `findUserByEmail` returns. -/
structure Account where
  id : String
  row : UserRow
  lockout : Lockout
  deriving DecidableEq

namespace LoginStore

/-- `SELECT * FROM users WHERE email = $1 AND deleted_at IS NULL LIMIT 1`, on the replica. -/
def findUserByEmail (s : LoginStore) (email : String) : Option Account := do
  let id ← s.replica.emails email
  let row ← s.auth.findUserById id
  return ⟨id, row, s.replica.lockouts id⟩

def record (s : LoginStore) (e : LoginEvent) : LoginStore := { s with history := e :: s.history }

/-- `UPDATE users SET …` of the lockout columns, `WHERE id = $1`. -/
def setLockout (s : LoginStore) (id : String) (l : Lockout) : LoginStore :=
  { s with primary.lockouts := Function.update s.primary.lockouts id l }

def incrementFailedLoginAttempts (s : LoginStore) (id : String) : LoginStore :=
  let l := s.primary.lockouts id
  s.setLockout id ⟨l.failedLoginAttempts + 1, l.lockedUntil⟩

def resetFailedLoginAttempts (s : LoginStore) (id : String) : LoginStore :=
  (s.setLockout id ⟨0, none⟩).record (.reset id)

def lockUser (s : LoginStore) (id : String) (lockUntil : ℕ) : LoginStore :=
  let failed := (s.primary.lockouts id).failedLoginAttempts
  (s.setLockout id ⟨failed, some lockUntil⟩).record (.locked id)

/-- `lockoutAttempts` after the SELECT from `organizations`. -/
def thresholdOf (s : LoginStore) (orgId : String) : ℕ :=
  (s.lockoutAttempts orgId).getD defaultLockoutAttempts

end LoginStore

/-! ## The errors of `login` -/

def invalidCredentials : AppError := .unauthorized "INVALID_CREDENTIALS" "Invalid email or password"

def emailNotVerified : AppError :=
  .forbidden "EMAIL_NOT_VERIFIED" "Email address has not been verified"

def accountLocked : AppError :=
  .forbidden "ACCOUNT_LOCKED"
    "Account is temporarily locked due to too many failed login attempts"

def accountLockedNow : AppError :=
  .forbidden "ACCOUNT_LOCKED" "Account is locked due to too many failed login attempts"

def notOrgMember : AppError :=
  .forbidden "NOT_ORG_MEMBER" "User is not an active member of this organization"

/-! ## `login` -/

/-- `user` is the row the call has read.  The `locked` of `verify` is what the primary said of the
account when the call started; no statement reads it. -/
inductive LoginPc
  | find
  | verify (user : Account) (locked : Bool)
  | threshold (user : Account) (orgId : String)
  | increment (user : Account) (lockoutAttempts : ℕ)
  | lock (user : Account) (lockUntil : ℕ)
  | reset (user : Account)
  | touch (user : Account)
  | lookupRole (user : Account) (orgId : String)
  | insert (m : Minted)
  | audit (m : Minted)
  | returned (pair : TokenPair)
  | threw (e : AppError)
  | failed
  deriving DecidableEq

/-- The checks on the row, before the password. -/
def LoginPc.found (s : LoginStore) : Option Account → LoginPc
  | none => .threw invalidCredentials
  | some user =>
    if ¬ user.row.emailVerified then .threw emailNotVerified
    else if user.lockout.lockedAt s.auth.now then .threw accountLocked
    else .verify user ((s.primary.lockouts user.id).lockedAt s.auth.now)

/-- `user.password_hash ? await verifyPassword(password, user.password_hash) : false`. -/
def passwordValid (cfg : LoginConfig) (password : String) (user : Account) : Bool :=
  (truthy user.row.passwordHash).any (cfg.verifyPassword password)

/-- The move of `verifyPassword`: a user without a password hash has nothing evaluated. -/
def LoginStore.evaluate (cfg : LoginConfig) (s : LoginStore) (password : String) (user : Account)
    (locked : Bool) : LoginStore :=
  if (truthy user.row.passwordHash).isSome then
    s.record (.evaluated user.id (passwordValid cfg password user) locked)
  else s

/-- After the password. -/
def LoginPc.verified (orgId : Option String) (user : Account) (valid : Bool) : LoginPc :=
  if valid then .reset user
  else
    match truthy orgId with
    | some org => .threshold user org
    | none => .increment user defaultLockoutAttempts

/-- After the increment: `newCount` is computed from the row the call has read. -/
def LoginPc.counted (now : ℕ) (user : Account) (lockoutAttempts : ℕ) : LoginPc :=
  if lockoutAttempts ≤ user.lockout.failedLoginAttempts + 1 then .lock user (now + lockDuration)
  else .threw invalidCredentials

/-- `issueTokenPair(user.id, orgId ?? '', role, user.is_platform_admin)`, up to its INSERT. -/
def loginIssue (cfg : LoginConfig) (s : LoginStore) (d : Draw) (orgId : Option String)
    (user : Account) (role : Role) : LoginStore × LoginPc :=
  let x := issueTokenPair cfg.toConfig s.auth d
    ⟨user.id, orgId.getD "", role, user.row.isPlatformAdmin, none⟩
  ({ s with auth := x.1 }, .insert x.2)

/-- `last_login_at` and the audit log are read by nothing here. -/
def loginNext (cfg : LoginConfig) (s : LoginStore) (d : Draw) (email password : String)
    (orgId : Option String) : LoginPc → Option (LoginStore × LoginPc)
  | .find => some (s, .found s (s.findUserByEmail (cfg.normalizeEmail email)))
  | .verify user locked =>
    some (s.evaluate cfg password user locked,
      .verified orgId user (passwordValid cfg password user))
  | .threshold user org => some (s, .increment user (s.thresholdOf org))
  | .increment user lockoutAttempts =>
    some (s.incrementFailedLoginAttempts user.id, .counted s.auth.now user lockoutAttempts)
  | .lock user lockUntil => some (s.lockUser user.id lockUntil, .threw accountLockedNow)
  | .reset user => some (s.resetFailedLoginAttempts user.id, .touch user)
  | .touch user =>
    match truthy orgId with
    | some org => some (s, .lookupRole user org)
    | none => some (loginIssue cfg s d orgId user .member)
  | .lookupRole user org =>
    match s.auth.findActiveRole user.id org with
    | some role => some (loginIssue cfg s d orgId user role)
    | none => some (s, .threw notOrgMember)
  | .insert m =>
    match s.auth.createRefreshToken (m.row cfg.toConfig d.rowId) with
    | some a => some ({ s with auth := a }, .audit m)
    | none => some (s, .failed)
  | .audit m => some (s, .returned (m.pair cfg.toConfig))
  | .returned _ | .threw _ | .failed => none

/-! ## The machine -/

/-- A call of `login`, and where it is. -/
structure LoginCall where
  email : String
  password : String
  orgId : Option String
  pc : LoginPc
  deriving DecidableEq

/-- What happens around the calls: time and replication. -/
inductive LoginEnv
  | tick (ms : ℕ)
  | replicate

def loginEnv (s : LoginStore) : LoginEnv → LoginStore
  | .tick ms => { s with auth := env s.auth (.tick ms) }
  | .replicate => { s with auth := env s.auth .replicate, replica := s.primary }

/-- The calls of `login`, and what happens around them. -/
def loginMachine (cfg : LoginConfig) : Machine LoginStore LoginCall Draw LoginEnv where
  next s c d := (loginNext cfg s d c.email c.password c.orgId c.pc).map fun x =>
    (x.1, { c with pc := x.2 })
  env := loginEnv

/-- The statement of a call is the statement of `login`. -/
theorem loginMachine_next {cfg : LoginConfig} {s s' : LoginStore} {c c' : LoginCall} {d : Draw}
    (h : (loginMachine cfg).next s c d = some (s', c')) :
    ∃ pc', loginNext cfg s d c.email c.password c.orgId c.pc = some (s', pc')
      ∧ c' = { c with pc := pc' } := by
  obtain ⟨⟨s₁, pc'⟩, hpc, heq⟩ := Option.map_eq_some_iff.mp h
  obtain ⟨rfl, rfl⟩ := Prod.mk.inj heq
  exact ⟨pc', hpc, rfl⟩

end WorkPlatform.Auth

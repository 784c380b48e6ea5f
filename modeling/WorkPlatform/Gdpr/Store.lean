import WorkPlatform.Organization.Store

/-!
# Gdpr/Store — what offboarding and erasure write

    PostgreSQL   users, refresh_tokens, auth_providers, audit_logs, invitations,
                 organizations (a primary and a replica that lags), org_memberships,
                 workspaces, tasks, channels, files, webhook_subscriptions
    Redis        user:cache:<id>, the queues offboarding and erase-user

Users, refresh tokens and the user cache are those of the authentication services; the columns of
`users` they do not read stand beside them.  The tables that offboarding soft-deletes differ in
nothing it reads, and are one list.
-/

namespace WorkPlatform.Gdpr

open Organization (MembershipRow InvitationRow)

/-! ## Rows -/

/-- The columns of `users` that the authentication services do not read. -/
structure Profile where
  email : String
  name : String
  phone : Option String
  avatarUrl : Option String
  totpSecret : Option String
  totpEnabled : Bool
  mfaBackupCodes : List String
  deletedAt : Option ℕ
  deriving DecidableEq

/-- A row of `auth_providers`; the metadata is an object of texts. -/
structure AuthProviderRow where
  id : String
  userId : String
  provider : String
  providerUserId : String
  orgId : Option String
  metadata : List (String × String)
  deriving DecidableEq

/-- A row of `audit_logs`, less the columns nothing here reads. -/
structure AuditLogRow where
  orgId : Option String
  actorId : Option String
  eventType : String
  entityId : String
  deriving DecidableEq

/-- A row of `organizations`, with the time its offboarding started. -/
structure OrgRow extends Payment.OrgRow where
  offboardingStartedAt : Option ℕ
  deriving DecidableEq

/-- The tables that offboarding soft-deletes. -/
inductive ContentTable
  | workspaces | tasks | channels | files | webhookSubscriptions
  deriving DecidableEq, Repr

/-- A row of one of them; `status` where the table has that column. -/
structure ContentRow where
  table : ContentTable
  id : String
  orgId : String
  status : Option String
  deletedAt : Option ℕ
  deriving DecidableEq

/-- `ErasureJobData`. -/
structure EraseJob where
  userId : String
  orgId : String
  deriving DecidableEq

/-! ## The store -/

/-- `offboardJobs` and `eraseJobs` are the jobs that were enqueued, in any state BullMQ keeps them
in; `offboarded` and `erased` those that were completed. -/
structure Store where
  auth : Auth.Store
  profiles : String → Profile
  authProviders : List AuthProviderRow
  auditLogs : List AuditLogRow
  invitations : List InvitationRow
  organizations : String → Option OrgRow
  replica : String → Option OrgRow
  memberships : List MembershipRow
  content : List ContentRow
  offboardJobs : List String
  offboarded : List String
  eraseJobs : List EraseJob
  erased : List EraseJob

/-! ## What a statement does to a row -/

/-- What the UPDATE of `users` sets, of the columns the authentication services read. -/
def eraseUser (row : Auth.UserRow) : Auth.UserRow :=
  { row with passwordHash := none, status := .deleted, deleted := true }

/-- `'deleted_' || id || '@anonymised.invalid'`. -/
def anonymisedEmail (id : String) : String := "deleted_" ++ id ++ "@anonymised.invalid"

/-- What it sets of the others. -/
def Profile.erase (id : String) (now : ℕ) (_ : Profile) : Profile where
  email := anonymisedEmail id
  name := "Deleted User"
  phone := none
  avatarUrl := none
  totpSecret := none
  totpEnabled := false
  mfaBackupCodes := []
  deletedAt := some now

/-- `SET actor_id = NULL WHERE actor_id = $1`, for one row. -/
def AuditLogRow.anonymise (userId : String) (r : AuditLogRow) : AuditLogRow :=
  if r.actorId = some userId then { r with actorId := none } else r

/-- `SET deleted_at = $2 WHERE org_id = $1 AND deleted_at IS NULL`, for one row of the table; of a
file the status as well. -/
def ContentRow.softDelete (table : ContentTable) (orgId : String) (now : ℕ) (r : ContentRow) :
    ContentRow :=
  if r.table = table ∧ r.orgId = orgId ∧ r.deletedAt = none then
    { r with
      deletedAt := some now
      status := if table = .files then some "deleted" else r.status }
  else r

namespace Store

def now (s : Store) : ℕ := s.auth.now

/-- The row of a user, all columns. -/
def user (s : Store) (id : String) : Option (Auth.UserRow × Profile) :=
  (s.auth.primary.users id).map fun row => (row, s.profiles id)

/-! ## Statements of the erasure -/

/-- `UPDATE users SET … WHERE id = $1`. -/
def anonymise (s : Store) (id : String) : Store :=
  let users := Function.update s.auth.primary.users id ((s.auth.primary.users id).map eraseUser)
  { s with
    auth := { s.auth with primary := { s.auth.primary with users := users } }
    profiles := Function.update s.profiles id ((s.profiles id).erase id s.now) }

/-- `revokeAllUserTokens`. -/
def revokeAllUserTokens (s : Store) (id : String) : Store :=
  { s with auth := s.auth.revokeAllUserTokens id }

/-- `DEL user:cache:<id>`. -/
def delUserCache (s : Store) (id : String) : Store := { s with auth := s.auth.delUserCache id }

/-- `UPDATE audit_logs SET actor_id = NULL WHERE actor_id = $1`. -/
def anonymiseAuditLogs (s : Store) (id : String) : Store :=
  { s with auditLogs := s.auditLogs.map (.anonymise id) }

/-- `DELETE FROM auth_providers WHERE user_id = $1`. -/
def deleteAuthProviders (s : Store) (id : String) : Store :=
  { s with authProviders := s.authProviders.filter (·.userId ≠ id) }

/-- `persistAuditLog`. -/
def persistAuditLog (s : Store) (row : AuditLogRow) : Store :=
  { s with auditLogs := row :: s.auditLogs }

def completeErasure (s : Store) (job : EraseJob) : Store := { s with erased := job :: s.erased }

theorem anonymise_users (s : Store) (id : String) : (s.anonymise id).auth.primary.users
    = Function.update s.auth.primary.users id ((s.auth.primary.users id).map eraseUser) := rfl

theorem anonymise_profiles (s : Store) (id : String) : (s.anonymise id).profiles
    = Function.update s.profiles id ((s.profiles id).erase id s.now) := rfl

theorem delUserCache_userCache (s : Store) (id : String) :
    (s.delUserCache id).auth.userCache = Function.update s.auth.userCache id none := rfl

/-! ## Statements of the offboarding -/

/-- `SELECT user_id … WHERE org_id = $1 AND status = 'active' AND deleted_at IS NULL`. -/
def activeMembers (s : Store) (orgId : String) : List String :=
  (s.memberships.filter (·.activeIn orgId)).map (·.userId)

def enqueueErasure (s : Store) (job : EraseJob) : Store :=
  { s with eraseJobs := job :: s.eraseJobs }

def enqueueOffboarding (s : Store) (orgId : String) : Store :=
  { s with offboardJobs := orgId :: s.offboardJobs }

def completeOffboarding (s : Store) (orgId : String) : Store :=
  { s with offboarded := orgId :: s.offboarded }

def softDelete (s : Store) (table : ContentTable) (orgId : String) (now : ℕ) : Store :=
  { s with content := s.content.map (.softDelete table orgId now) }

/-- `UPDATE organizations SET … WHERE id = $1`. -/
def updateOrg (s : Store) (orgId : String) (f : OrgRow → OrgRow) : Store :=
  { s with organizations :=
      Function.update s.organizations orgId ((s.organizations orgId).map f) }

/-- `findById`, on the replica. -/
def findOrgById (s : Store) (orgId : String) : Option OrgRow :=
  (s.replica orgId).filter fun org => ¬ org.deleted

end Store

end WorkPlatform.Gdpr

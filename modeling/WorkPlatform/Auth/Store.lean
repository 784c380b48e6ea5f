import Mathlib.Data.List.Nodup
import Mathlib.Logic.Function.Basic

/-!
# Auth/Store — what the authentication services keep, and the statements on it

    PostgreSQL   users, org_memberships (a primary and a replica that lags), refresh_tokens
    Redis        blacklist:token:<jti>, user:cache:<id>, magic:<hash>, pwd_reset:<hash>,
                 email_verify:<hash>

`refresh_tokens` carries its two uniqueness constraints: an INSERT against one of them fails, every
UPDATE keeps them.  The list of the access tokens ever signed is no table; it says which tokens
`jwt.verify` accepts and which family each belongs to.
-/

namespace WorkPlatform.Auth

/-! ## Rows -/

inductive UserStatus
  | active | suspended | deleted
  deriving DecidableEq, Repr

inductive Role
  | orgOwner | orgAdmin | member | guest
  deriving DecidableEq, Repr

inductive MembershipStatus
  | active | suspended | removed
  deriving DecidableEq, Repr

/-- A row of `users`, less the columns nothing here reads; times are in milliseconds. -/
structure UserRow where
  isPlatformAdmin : Bool
  status : UserStatus
  deleted : Bool
  emailVerified : Bool
  passwordHash : Option String
  passwordChangedAt : Option ℕ
  deriving DecidableEq

/-- A row of `org_memberships`. -/
structure MembershipRow where
  userId : String
  orgId : String
  role : Role
  status : MembershipStatus
  deriving DecidableEq

/-- The tables that have a replica. -/
structure Replicated where
  users : String → Option UserRow
  memberships : List MembershipRow

/-- A row of `refresh_tokens`. -/
structure RefreshTokenRow where
  id : String
  userId : String
  orgId : Option String
  tokenHash : String
  familyId : String
  lastAccessTokenJti : Option String
  isRevoked : Bool
  expiresAt : ℕ
  deriving DecidableEq

/-- The table `refresh_tokens`, with its primary key and its UNIQUE column. -/
structure RefreshTokens where
  rows : List RefreshTokenRow
  ids_nodup : (rows.map (·.id)).Nodup
  hashes_nodup : (rows.map (·.tokenHash)).Nodup

/-- The claims of an access token; `iat` and `exp` are in seconds. -/
structure AccessToken where
  sub : String
  orgId : String
  role : Role
  isPlatformAdmin : Bool
  mfaVerifiedAt : Option ℕ
  authTime : ℕ
  jti : String
  iat : ℕ
  exp : ℕ
  deriving DecidableEq

/-- An access token that was signed, with the family of the refresh token it came with. -/
structure Issued where
  familyId : String
  token : AccessToken
  deriving DecidableEq

/-- What `resolveUser` caches. -/
structure CachedUser where
  id : String
  status : UserStatus
  passwordChangedAt : Option ℕ
  deriving DecidableEq

/-- The Redis keys of one-time tokens. -/
inductive OneTimeKey
  | magic (hash : String)
  | pwdReset (hash : String)
  | emailVerify (hash : String)
  deriving DecidableEq

/-- What a one-time key holds; only magic links name an organisation. -/
structure OneTimeValue where
  userId : String
  orgId : Option String
  deriving DecidableEq

/-- A value in Redis and the time at which it is gone. -/
structure Expiring (α : Type) where
  value : α
  expiresAt : ℕ
  deriving DecidableEq

/-- The stores the authentication services share. -/
structure Store where
  now : ℕ
  primary : Replicated
  replica : Replicated
  refreshTokens : RefreshTokens
  blacklist : String → Option (Expiring Unit)
  userCache : String → Option (Expiring CachedUser)
  oneTime : OneTimeKey → Option (Expiring OneTimeValue)
  issued : List Issued

/-! ## The table of refresh tokens -/

namespace RefreshTokenRow

/-- `SET is_revoked = TRUE WHERE p`, for one row. -/
def revokeIf (p : RefreshTokenRow → Bool) (r : RefreshTokenRow) : RefreshTokenRow :=
  { r with isRevoked := r.isRevoked || p r }

/-- `SET last_access_token_jti = jti WHERE id = id`, for one row. -/
def setJti (id jti : String) (r : RefreshTokenRow) : RefreshTokenRow :=
  { r with lastAccessTokenJti := if r.id = id then some jti else r.lastAccessTokenJti }

end RefreshTokenRow

namespace RefreshTokens

/-- `UPDATE refresh_tokens SET …` of columns without a constraint. -/
def modify (t : RefreshTokens) (f : RefreshTokenRow → RefreshTokenRow) (hid : ∀ r, (f r).id = r.id)
    (hhash : ∀ r, (f r).tokenHash = r.tokenHash) : RefreshTokens where
  rows := t.rows.map f
  ids_nodup := by
    rw [List.map_map, Function.comp_def]
    simpa only [hid] using t.ids_nodup
  hashes_nodup := by
    rw [List.map_map, Function.comp_def]
    simpa only [hhash] using t.hashes_nodup

/-- `UPDATE refresh_tokens SET is_revoked = TRUE … WHERE p`. -/
def revokeWhere (t : RefreshTokens) (p : RefreshTokenRow → Bool) : RefreshTokens :=
  t.modify (.revokeIf p) (fun _ => rfl) fun _ => rfl

/-- `UPDATE refresh_tokens SET last_access_token_jti = $1 WHERE id = $2`. -/
def setJti (t : RefreshTokens) (id jti : String) : RefreshTokens :=
  t.modify (.setJti id jti) (fun _ => rfl) fun _ => rfl

/-- `INSERT INTO refresh_tokens`; `none` where a constraint is violated. -/
def insert (t : RefreshTokens) (r : RefreshTokenRow) : Option RefreshTokens :=
  if h : r.id ∉ t.rows.map (·.id) ∧ r.tokenHash ∉ t.rows.map (·.tokenHash) then
    some ⟨r :: t.rows, List.nodup_cons.mpr ⟨h.1, t.ids_nodup⟩,
      List.nodup_cons.mpr ⟨h.2, t.hashes_nodup⟩⟩
  else none

@[simp] theorem revokeWhere_rows (t : RefreshTokens) (p : RefreshTokenRow → Bool) :
    (t.revokeWhere p).rows = t.rows.map (.revokeIf p) := rfl

/-- The id of a row that is inserted is new. -/
theorem insert_id_notMem {t t' : RefreshTokens} {r : RefreshTokenRow} (h : t.insert r = some t') :
    ∀ x ∈ t.rows, x.id ≠ r.id := by
  unfold insert at h
  split at h
  · rename_i hnew
    intro x hx hid
    refine hnew.1 ?_
    rw [← hid]
    exact List.mem_map_of_mem hx
  · cases h

theorem insert_rows {t t' : RefreshTokens} {r : RefreshTokenRow} (h : t.insert r = some t') :
    t'.rows = r :: t.rows := by
  unfold insert at h
  split at h
  · rw [← Option.some.inj h]
  · cases h

/-- Rows with one id are one row. -/
theorem eq_of_id_eq {t : RefreshTokens} {r r' : RefreshTokenRow} (hr : r ∈ t.rows)
    (hr' : r' ∈ t.rows) (hid : r.id = r'.id) : r = r' :=
  List.inj_on_of_nodup_map t.ids_nodup hr hr' hid

/-- Rows with one token hash are one row. -/
theorem eq_of_hash_eq {t : RefreshTokens} {r r' : RefreshTokenRow} (hr : r ∈ t.rows)
    (hr' : r' ∈ t.rows) (hhash : r.tokenHash = r'.tokenHash) : r = r' :=
  List.inj_on_of_nodup_map t.hashes_nodup hr hr' hhash

end RefreshTokens

/-! ## Statements on `refresh_tokens` -/

namespace Store

/-- `findRefreshToken`. -/
def findRefreshToken (s : Store) (tokenHash : String) : Option RefreshTokenRow :=
  s.refreshTokens.rows.find? (·.tokenHash = tokenHash)

/-- `createRefreshToken`; `none` where the INSERT fails. -/
def createRefreshToken (s : Store) (r : RefreshTokenRow) : Option Store :=
  (s.refreshTokens.insert r).map fun t => { s with refreshTokens := t }

/-- `updateRefreshTokenJti`. -/
def updateRefreshTokenJti (s : Store) (id jti : String) : Store :=
  { s with refreshTokens := s.refreshTokens.setJti id jti }

/-- The three UPDATEs that revoke. -/
def revokeWhere (s : Store) (p : RefreshTokenRow → Bool) : Store :=
  { s with refreshTokens := s.refreshTokens.revokeWhere p }

def revokeRefreshToken (s : Store) (id : String) : Store := s.revokeWhere (·.id = id)

def revokeTokenFamily (s : Store) (familyId : String) : Store :=
  s.revokeWhere (·.familyId = familyId)

def revokeAllUserTokens (s : Store) (userId : String) : Store :=
  s.revokeWhere fun r => r.userId = userId ∧ r.isRevoked = false

/-! ## Statements on users and memberships -/

/-- `SELECT … FROM users WHERE id = $1 AND deleted_at IS NULL`, on the replica. -/
def findUserById (s : Store) (id : String) : Option UserRow :=
  (s.replica.users id).filter fun u => ¬ u.deleted

/-- `SELECT role FROM org_memberships WHERE … AND status = 'active' LIMIT 1`, on the replica. -/
def findActiveRole (s : Store) (userId orgId : String) : Option Role :=
  (s.replica.memberships.find? fun m =>
    m.userId = userId ∧ m.orgId = orgId ∧ m.status = .active).map (·.role)

/-- `updateUser`: `UPDATE users SET … WHERE id = $1 AND deleted_at IS NULL`. -/
def updateUser (s : Store) (id : String) (f : UserRow → UserRow) : Store :=
  match s.primary.users id with
  | none => s
  | some u =>
    if u.deleted then s
    else { s with primary.users := Function.update s.primary.users id (some (f u)) }

/-- The SELECT of `resolveUser`, on the primary. -/
def selectCachedUser (s : Store) (id : String) : Option CachedUser :=
  (s.primary.users id).map fun u => ⟨id, u.status, u.passwordChangedAt⟩

/-! ## Redis -/

/-- The value under a key that has not expired. -/
def live {α : Type} (s : Store) (v : Option (Expiring α)) : Option α :=
  (v.filter fun x => s.now < x.expiresAt).map (·.value)

/-- An entry `blacklist:token:<jti>`. -/
def list (s : Store) (jti : String) (expiresAt : ℕ) : Store :=
  { s with blacklist := Function.update s.blacklist jti (some ⟨(), expiresAt⟩) }

/-- `SET blacklist:token:<jti> 1 EX ttl`; Redis refuses an expiry of zero. -/
def blacklistToken (s : Store) (jti : String) (ttlSeconds : ℕ) : Option Store :=
  if ttlSeconds = 0 then none else some (s.list jti (s.now + ttlSeconds * 1000))

/-- `GET blacklist:token:<jti>`. -/
def isBlacklisted (s : Store) (jti : String) : Bool := (s.live (s.blacklist jti)).isSome

/-- `USER_CACHE_TTL`, in milliseconds. -/
def userCacheTtl : ℕ := 60 * 1000

/-- `GET user:cache:<id>`. -/
def getUserCache (s : Store) (id : String) : Option CachedUser := s.live (s.userCache id)

/-- `SETEX user:cache:<id>`. -/
def setUserCache (s : Store) (id : String) (u : CachedUser) : Store :=
  { s with userCache := Function.update s.userCache id (some ⟨u, s.now + userCacheTtl⟩) }

/-- `DEL user:cache:<id>`. -/
def delUserCache (s : Store) (id : String) : Store :=
  { s with userCache := Function.update s.userCache id none }

/-- `GET` of a one-time key. -/
def getOneTime (s : Store) (k : OneTimeKey) : Option OneTimeValue := s.live (s.oneTime k)

/-- `DEL` of a one-time key. -/
def delOneTime (s : Store) (k : OneTimeKey) : Store :=
  { s with oneTime := Function.update s.oneTime k none }

/-- `SET` of a one-time key, by `requestLink`, `requestPasswordReset` and
`resendVerificationEmail`. -/
def setOneTime (s : Store) (k : OneTimeKey) (v : OneTimeValue) (ttlSeconds : ℕ) : Store :=
  { s with oneTime := Function.update s.oneTime k (some ⟨v, s.now + ttlSeconds * 1000⟩) }

/-- A statement that does not fail, as the write it is. -/
theorem createRefreshToken_eq {s s' : Store} {r : RefreshTokenRow}
    (h : s.createRefreshToken r = some s') :
    ∃ t, s.refreshTokens.insert r = some t ∧ s' = { s with refreshTokens := t } := by
  obtain ⟨t, ht, rfl⟩ := Option.map_eq_some_iff.mp h
  exact ⟨t, ht, rfl⟩

theorem blacklistToken_eq {s s' : Store} {jti : String} {ttl : ℕ}
    (h : s.blacklistToken jti ttl = some s') : s' = s.list jti (s.now + ttl * 1000) := by
  unfold blacklistToken at h
  split at h
  · cases h
  · exact (Option.some.inj h).symm

end Store

end WorkPlatform.Auth

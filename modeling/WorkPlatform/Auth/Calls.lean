import WorkPlatform.Machinery.Run
import WorkPlatform.Shared.AppError
import WorkPlatform.Auth.Store

/-!
# Auth/Calls — the authentication services, statement by statement

A move of a call is one statement and the code after it, up to the next statement: what a call
computes between two statements (the claims of a new access token, the hash of a password, the
date of a change) it computes at the time of the first.  What a call draws at random, and whether
Redis answers where the code tolerates that it does not, comes with the move.

    refreshTokenPair   find ▸ lookupUser ▸ lookupRole ▸ revoke ▸ insert ▸ updateJti
                       find ▸ revokeFamily ▸ blacklist
    confirmPasswordReset   get ▸ hash ▸ update ▸ delCache ▸ revokeAll ▸ delKey ▸ audit
    verifyLink   get ▸ del ▸ findUser ▸ verify ▸ insert
    authenticate   verify ▸ blacklist ▸ cacheGet ▸ select ▸ setex
-/

namespace WorkPlatform.Auth

open Machinery

/-! ## Parameters and draws -/

/-- The configuration, and the hashes of `shared/crypto` and bcrypt. -/
structure Config where
  jwtAccessTokenTtl : ℕ
  ttl_pos : 0 < jwtAccessTokenTtl
  hashToken : String → String
  hashPassword : String → String → String

/-- What a move draws: the UUIDs, the random bytes of a refresh token, the salt of a password, and
whether Redis answers. -/
structure Draw where
  jti : String
  familyId : String
  refreshToken : String
  rowId : String
  salt : String
  redis : Bool

/-- `REFRESH_TOKEN_TTL_MS`. -/
def refreshTokenTtl : ℕ := 30 * 24 * 60 * 60 * 1000

/-- `TokenPair`, as `issueTokenPair` returns it. -/
structure TokenPair where
  accessToken : AccessToken
  refreshToken : String
  expiresIn : ℕ
  deriving DecidableEq

/-- What `generateAccessToken` is given. -/
structure AccessTokenPayload where
  sub : String
  orgId : String
  role : Role
  isPlatformAdmin : Bool
  mfaVerifiedAt : Option ℕ
  deriving DecidableEq

/-- A token pair that was generated and whose row is not inserted yet. -/
structure Minted where
  accessToken : AccessToken
  refreshToken : String
  userId : String
  orgId : Option String
  familyId : String
  expiresAt : ℕ
  deriving DecidableEq

section Tokens

variable (cfg : Config)

/-- `generateAccessToken`. -/
def generateAccessToken (now : ℕ) (jti : String) (payload : AccessTokenPayload) : AccessToken where
  sub := payload.sub
  orgId := payload.orgId
  role := payload.role
  isPlatformAdmin := payload.isPlatformAdmin
  mfaVerifiedAt := payload.mfaVerifiedAt
  authTime := now / 1000
  jti := jti
  iat := now / 1000
  exp := now / 1000 + cfg.jwtAccessTokenTtl

/-- The pair a call generates in the given family, and the signed token on record. -/
def mint (s : Store) (d : Draw) (payload : AccessTokenPayload) (orgId : Option String)
    (familyId : String) : Store × Minted :=
  let accessToken := generateAccessToken cfg s.now d.jti payload
  ({ s with issued := ⟨familyId, accessToken⟩ :: s.issued },
    ⟨accessToken, d.refreshToken, payload.sub, orgId, familyId, s.now + refreshTokenTtl⟩)

/-- The row of a pair. -/
def Minted.row (m : Minted) (id : String) : RefreshTokenRow where
  id := id
  userId := m.userId
  orgId := m.orgId
  tokenHash := cfg.hashToken m.refreshToken
  familyId := m.familyId
  lastAccessTokenJti := some m.accessToken.jti
  isRevoked := false
  expiresAt := m.expiresAt

def Minted.pair (m : Minted) : TokenPair := ⟨m.accessToken, m.refreshToken, cfg.jwtAccessTokenTtl⟩

end Tokens

/-! ## `issueTokenPair` -/

/-- The arguments of `issueTokenPair`. -/
structure IssueArgs where
  userId : String
  orgId : String
  role : Role
  isPlatformAdmin : Bool
  mfaVerifiedAt : Option ℕ
  deriving DecidableEq

/-- `failed` is a statement that raised: the INSERT against a constraint. -/
inductive IssuePc
  | generate
  | insert (m : Minted)
  | returned (pair : TokenPair)
  | failed
  deriving DecidableEq

/-- `issueTokenPair` up to its INSERT. -/
def issueTokenPair (cfg : Config) (s : Store) (d : Draw) (a : IssueArgs) : Store × Minted :=
  mint cfg s d ⟨a.userId, a.orgId, a.role, a.isPlatformAdmin, a.mfaVerifiedAt⟩
    (if a.orgId = "" then none else some a.orgId) d.familyId

/-- The next statement of `issueTokenPair`. -/
def issueNext (cfg : Config) (s : Store) (d : Draw) (a : IssueArgs) :
    IssuePc → Option (Store × IssuePc)
  | .generate =>
    let x := issueTokenPair cfg s d a
    some (x.1, .insert x.2)
  | .insert m =>
    match s.createRefreshToken (m.row cfg d.rowId) with
    | some s' => some (s', .returned (m.pair cfg))
    | none => some (s, .failed)
  | .returned _ | .failed => none

/-! ## `refreshTokenPair` -/

/-- `revoked` is the answer `TOKEN_FAMILY_REVOKED`; `row` is the row the call has found. -/
inductive RefreshPc
  | find
  | revokeFamily (row : RefreshTokenRow)
  | blacklist (row : RefreshTokenRow) (jti : String)
  | lookupUser (row : RefreshTokenRow)
  | lookupRole (row : RefreshTokenRow) (orgId : String) (isPlatformAdmin : Bool)
  | revoke (row : RefreshTokenRow) (isPlatformAdmin : Bool) (role : Role)
  | insert (row : RefreshTokenRow) (m : Minted)
  | updateJti (row : RefreshTokenRow) (m : Minted) (newId : String)
  | returned (row : RefreshTokenRow) (pair : TokenPair)
  | revoked (row : RefreshTokenRow)
  | threw (e : AppError)
  | failed (row : RefreshTokenRow)
  deriving DecidableEq

/-- What `refreshTokenPair` does with the row it has found. -/
def RefreshPc.found (now : ℕ) : Option RefreshTokenRow → RefreshPc
  | none => .threw (.unauthorized "TOKEN_NOT_FOUND" "Refresh token not found")
  | some row =>
    if row.isRevoked then .revokeFamily row
    else if row.expiresAt < now then
      .threw (.unauthorized "TOKEN_EXPIRED" "Refresh token has expired")
    else .lookupUser row

/-- A text that is neither null nor empty. -/
def truthy : Option String → Option String
  | some t => if t = "" then none else some t
  | none => none

/-- After the family of a reused token is revoked. -/
def RefreshPc.reused (row : RefreshTokenRow) : RefreshPc :=
  match truthy row.lastAccessTokenJti with
  | some jti => .blacklist row jti
  | none => .revoked row

/-- After the lookup of the user. -/
def RefreshPc.lookedUp (row : RefreshTokenRow) : Option UserRow → RefreshPc
  | none => .threw (.unauthorized "USER_NOT_FOUND" "User not found")
  | some user =>
    match truthy row.orgId with
    | some orgId => .lookupRole row orgId user.isPlatformAdmin
    | none => .revoke row user.isPlatformAdmin .member

/-- The next statement of `refreshTokenPair`. -/
def refreshNext (cfg : Config) (s : Store) (d : Draw) (raw : String) :
    RefreshPc → Option (Store × RefreshPc)
  | .find => some (s, .found s.now (s.findRefreshToken (cfg.hashToken raw)))
  | .revokeFamily row => some (s.revokeTokenFamily row.familyId, .reused row)
  | .blacklist row jti =>
    match s.blacklistToken jti cfg.jwtAccessTokenTtl with
    | some s' => some (s', .revoked row)
    | none => some (s, .failed row)
  | .lookupUser row => some (s, .lookedUp row (s.findUserById row.userId))
  | .lookupRole row orgId isPlatformAdmin => some (s, .revoke row isPlatformAdmin
      ((s.findActiveRole row.userId orgId).getD .member))
  | .revoke row isPlatformAdmin role =>
    let payload := ⟨row.userId, row.orgId.getD "", role, isPlatformAdmin, none⟩
    let x := mint cfg (s.revokeRefreshToken row.id) d payload row.orgId row.familyId
    some (x.1, .insert row x.2)
  | .insert row m =>
    match s.createRefreshToken (m.row cfg d.rowId) with
    | some s' => some (s', .updateJti row m d.rowId)
    | none => some (s, .failed row)
  | .updateJti row m newId =>
    some (s.updateRefreshTokenJti newId m.accessToken.jti, .returned row (m.pair cfg))
  | .returned _ _ | .revoked _ | .threw _ | .failed _ => none

/-! ## `revokeTokens` -/

/-- Where a call of `revokeTokens` is. -/
inductive RevokePc
  | find
  | revoke (id : String)
  | blacklist
  | returned
  | failed
  deriving DecidableEq

/-- The next statement of `revokeTokens`. -/
def revokeNext (cfg : Config) (s : Store) (raw jti : String) (remainingTtl : ℕ) :
    RevokePc → Option (Store × RevokePc)
  | .find => some (s,
      match s.findRefreshToken (cfg.hashToken raw) with
      | some row => .revoke row.id
      | none => .blacklist)
  | .revoke id => some (s.revokeRefreshToken id, .blacklist)
  | .blacklist =>
    match s.blacklistToken jti remainingTtl with
    | some s' => some (s', .returned)
    | none => some (s, .failed)
  | .returned | .failed => none

/-! ## `confirmPasswordReset` -/

/-- The error all one-time tokens share, but for its subject. -/
def invalidOrExpired (subject : String) : AppError :=
  .unauthorized "INVALID_OR_EXPIRED_TOKEN" (subject ++ " token is invalid or has expired")

/-- Where a call of `confirmPasswordReset` is. -/
inductive ResetPc
  | get
  | hash (userId : String)
  | update (userId passwordHash : String) (changedAt : ℕ)
  | delCache (userId : String)
  | revokeAll (userId : String)
  | delKey (userId : String)
  | audit (userId : String)
  | returned (userId : String)
  | threw (e : AppError)
  deriving DecidableEq

/-- `{ password_hash, password_changed_at }`. -/
def UserRow.changePassword (passwordHash : String) (changedAt : ℕ) (u : UserRow) : UserRow :=
  { u with passwordHash := some passwordHash, passwordChangedAt := some changedAt }

/-- `{ email_verified: true }`. -/
def UserRow.verifyEmail (u : UserRow) : UserRow := { u with emailVerified := true }

/-- The next statement of `confirmPasswordReset`; the key goes after all that it pays for. -/
def resetNext (cfg : Config) (s : Store) (d : Draw) (token newPassword : String) :
    ResetPc → Option (Store × ResetPc)
  | .get => some (s,
      match s.getOneTime (.pwdReset (cfg.hashToken token)) with
      | some v => .hash v.userId
      | none => .threw (invalidOrExpired "Password reset"))
  | .hash userId => some (s, .update userId (cfg.hashPassword newPassword d.salt) s.now)
  | .update userId passwordHash changedAt =>
    some (s.updateUser userId (.changePassword passwordHash changedAt), .delCache userId)
  | .delCache userId => some (s.delUserCache userId, .revokeAll userId)
  | .revokeAll userId => some (s.revokeAllUserTokens userId, .delKey userId)
  | .delKey userId => some (s.delOneTime (.pwdReset (cfg.hashToken token)), .audit userId)
  | .audit userId => some (s, .returned userId)
  | .returned _ | .threw _ => none

/-! ## `verifyLink` -/

/-- Where a call of `verifyLink` is. -/
inductive LinkPc
  | get
  | del (v : OneTimeValue)
  | findUser (v : OneTimeValue)
  | verify (v : OneTimeValue) (isPlatformAdmin : Bool)
  | insert (m : Minted)
  | returned (pair : TokenPair)
  | threw (e : AppError)
  | failed
  deriving DecidableEq

/-- `issueTokenPair(userId, orgId ?? '', 'member', user.is_platform_admin)`, up to its INSERT. -/
def linkIssue (cfg : Config) (s : Store) (d : Draw) (v : OneTimeValue) (isPlatformAdmin : Bool) :
    Store × LinkPc :=
  let x := issueTokenPair cfg s d ⟨v.userId, v.orgId.getD "", .member, isPlatformAdmin, none⟩
  (x.1, .insert x.2)

/-- The next statement of `verifyLink`. -/
def linkNext (cfg : Config) (s : Store) (d : Draw) (token : String) :
    LinkPc → Option (Store × LinkPc)
  | .get => some (s,
      match s.getOneTime (.magic (cfg.hashToken token)) with
      | some v => .del v
      | none => .threw (invalidOrExpired "Magic link"))
  | .del v => some (s.delOneTime (.magic (cfg.hashToken token)), .findUser v)
  | .findUser v =>
    match s.findUserById v.userId with
    | none => some (s, .threw (.unauthorized "USER_NOT_FOUND" "User not found"))
    | some user =>
      if user.emailVerified then some (linkIssue cfg s d v user.isPlatformAdmin)
      else some (s, .verify v user.isPlatformAdmin)
  | .verify v isPlatformAdmin =>
    some (linkIssue cfg (s.updateUser v.userId .verifyEmail) d v isPlatformAdmin)
  | .insert m =>
    match s.createRefreshToken (m.row cfg d.rowId) with
    | some s' => some (s', .returned (m.pair cfg))
    | none => some (s, .failed)
  | .returned _ | .threw _ | .failed => none

/-! ## `verifyEmail` -/

/-- Where a call of `verifyEmail` is. -/
inductive EmailPc
  | get
  | update (userId : String)
  | del (userId : String)
  | audit (userId : String)
  | returned
  | threw (e : AppError)
  deriving DecidableEq

/-- The next statement of `verifyEmail`. -/
def emailNext (cfg : Config) (s : Store) (token : String) : EmailPc → Option (Store × EmailPc)
  | .get => some (s,
      match s.getOneTime (.emailVerify (cfg.hashToken token)) with
      | some v => .update v.userId
      | none => .threw (invalidOrExpired "Email verification"))
  | .update userId => some (s.updateUser userId .verifyEmail, .del userId)
  | .del userId => some (s.delOneTime (.emailVerify (cfg.hashToken token)), .audit userId)
  | .audit _ => some (s, .returned)
  | .returned | .threw _ => none

/-! ## `authenticate` -/

/-- Where `authenticate` of the middleware is with a request. -/
inductive AuthPc
  | verify
  | blacklist
  | cacheGet
  | select
  | setex (user : CachedUser)
  | accepted
  | threw (e : AppError)
  deriving DecidableEq

/-- The checks on the resolved user. -/
def checkUser (token : AccessToken) (user : CachedUser) : AuthPc :=
  if user.status = .deleted then
    .threw (.unauthorized "USER_DELETED" "User account has been deleted")
  else
    match user.passwordChangedAt with
    | some changedAt =>
      if token.iat < changedAt / 1000 then
        .threw (.unauthorized "SESSION_INVALIDATED" "Session invalidated by password change")
      else .accepted
    | none => .accepted

/-- `jwt.verify`: the token was signed here and has not expired. -/
def Store.verifies (s : Store) (token : AccessToken) : Bool :=
  s.issued.any (·.token = token) ∧ s.now / 1000 < token.exp

/-- The next statement of `authenticate`. -/
def authNext (s : Store) (d : Draw) (token : AccessToken) : AuthPc → Option (Store × AuthPc)
  | .verify => some (s,
      if s.verifies token then .blacklist
      else .threw (.unauthorized "INVALID_TOKEN" "Token is invalid or expired"))
  | .blacklist => some (s,
      if d.redis ∧ s.isBlacklisted token.jti then
        .threw (.unauthorized "TOKEN_BLACKLISTED" "Token has been revoked")
      else .cacheGet)
  | .cacheGet => some (s,
      match s.getUserCache token.sub with
      | some user => if d.redis then checkUser token user else .select
      | none => .select)
  | .select => some (s,
      match s.selectCachedUser token.sub with
      | some user => .setex user
      | none => .threw (.unauthorized "USER_NOT_FOUND" "User not found"))
  | .setex user =>
    some (if d.redis then s.setUserCache token.sub user else s, checkUser token user)
  | .accepted | .threw _ => none

/-! ## The machine -/

/-- A call, and where it is. -/
inductive Call
  | issue (args : IssueArgs) (pc : IssuePc)
  | refresh (raw : String) (pc : RefreshPc)
  | revokeTokens (raw jti : String) (remainingTtl : ℕ) (pc : RevokePc)
  | reset (token newPassword : String) (pc : ResetPc)
  | link (token : String) (pc : LinkPc)
  | verifyEmail (token : String) (pc : EmailPc)
  | authenticate (token : AccessToken) (pc : AuthPc)
  deriving DecidableEq

/-- The call has not run a statement yet. -/
def Call.fresh : Call → Bool
  | .issue _ .generate | .refresh _ .find | .revokeTokens _ _ _ .find | .reset _ _ .get
  | .link _ .get | .verifyEmail _ .get | .authenticate _ .verify => true
  | _ => false

/-- The call has returned or thrown. -/
def Call.over : Call → Bool
  | .issue _ (.returned _) | .issue _ .failed => true
  | .refresh _ (.returned _ _) | .refresh _ (.revoked _) | .refresh _ (.threw _)
  | .refresh _ (.failed _) => true
  | .revokeTokens _ _ _ .returned | .revokeTokens _ _ _ .failed => true
  | .reset _ _ (.returned _) | .reset _ _ (.threw _) => true
  | .link _ (.returned _) | .link _ (.threw _) | .link _ .failed => true
  | .verifyEmail _ .returned | .verifyEmail _ (.threw _) => true
  | .authenticate _ .accepted | .authenticate _ (.threw _) => true
  | _ => false

/-- The call is between its first statement and its end. -/
def Call.busy (c : Call) : Prop := c.fresh = false ∧ c.over = false

instance : DecidablePred Call.busy := fun _ => inferInstanceAs (Decidable (_ ∧ _))

/-- What happens around the calls: time, replication, other modules writing users, memberships and
one-time keys, and a cache entry that goes away. -/
inductive Env
  | tick (ms : ℕ)
  | replicate
  | writeUser (id : String) (isPlatformAdmin : Bool) (status : UserStatus) (deleted : Bool)
  | writeMemberships (rows : List MembershipRow)
  | evictUser (id : String)
  | storeOneTime (k : OneTimeKey) (v : OneTimeValue) (ttlSeconds : ℕ)

/-- What time, replication and other services do. -/
def env (s : Store) : Env → Store
  | .tick ms => { s with now := s.now + ms }
  | .replicate => { s with replica := s.primary }
  | .writeUser id isPlatformAdmin status deleted =>
    let row := (s.primary.users id).map fun u =>
      { u with isPlatformAdmin := isPlatformAdmin, status := status, deleted := deleted }
    { s with primary.users := Function.update s.primary.users id row }
  | .writeMemberships rows => { s with primary.memberships := rows }
  | .evictUser id => s.delUserCache id
  | .storeOneTime k v ttlSeconds => s.setOneTime k v ttlSeconds

/-- The next statement of a call. -/
def next (cfg : Config) (s : Store) (c : Call) (d : Draw) : Option (Store × Call) :=
  match c with
  | .issue a pc => (issueNext cfg s d a pc).map fun x => (x.1, .issue a x.2)
  | .refresh raw pc => (refreshNext cfg s d raw pc).map fun x => (x.1, .refresh raw x.2)
  | .revokeTokens raw jti ttl pc =>
    (revokeNext cfg s raw jti ttl pc).map fun x => (x.1, .revokeTokens raw jti ttl x.2)
  | .reset token password pc =>
    (resetNext cfg s d token password pc).map fun x => (x.1, .reset token password x.2)
  | .link token pc => (linkNext cfg s d token pc).map fun x => (x.1, .link token x.2)
  | .verifyEmail token pc => (emailNext cfg s token pc).map fun x => (x.1, .verifyEmail token x.2)
  | .authenticate token pc => (authNext s d token pc).map fun x => (x.1, .authenticate token x.2)

def authMachine (cfg : Config) : Machine Store Call Draw Env := ⟨next cfg, env⟩

/-- Calls over the stores. -/
abbrev Calls (ι : Type*) := Pool ι Store Call

end WorkPlatform.Auth

import WorkPlatform.Organization.Store

/-!
# Organization/Calls — the routes of an organisation, statement by statement

    createOrg          findSlug ▸ transaction ▸ outbox
    acceptInvitation   find ▸ findUser ▸ [createUser ▸ preferences ▸ provider ▸]
                       membership ▸ seed ▸ mark ▸ outbox ▸ insert
                       find ▸ expire
    routes of a member context ▸ …, and behind the context
      role change          updateRole
      removal              remove
      invite               findOrg ▸ count ▸ pending ▸ insertInvitation ▸ outbox
      revokeInvitation     revoke ▸ outbox
    runCleanupJob      expire

A move of a call is one statement and the code after it, up to the next statement.  A route starts
behind its schema and its JWT; its context (the caller's role) comes from a Redis session of up to
30 s, or from the replica.
-/

namespace WorkPlatform.Organization

open Machinery
open Auth (Role Minted TokenPair)
open Payment (OrgStatus)

/-! ## Parameters and draws -/

/-- The configuration, and the HMAC of an invitation's organisation, email, role, inviter and
expiry. -/
structure Config extends Auth.LoginConfig where
  inviteToken : String → String → GrantedRole → String → ℕ → String

/-- What a move draws: the ids of a token pair, and the id of a new row. -/
structure Draw extends Auth.Draw where
  newId : String

/-! ## Users -/

/-- There is a user with the email that is not deleted, on the primary. -/
def emailTaken (l : Auth.LoginStore) (email : String) : Bool :=
  (l.primary.emails email).any fun id => (l.auth.primary.users id).any fun u => ¬ u.deleted

/-- The row `createUser` inserts. -/
def newUser (emailVerified : Bool) : Auth.UserRow :=
  ⟨false, .active, false, emailVerified, none, none⟩

/-- `createUser`; `none` where the INSERT fails. -/
def createUser (l : Auth.LoginStore) (id email : String) (emailVerified : Bool) :
    Option Auth.LoginStore :=
  if (l.auth.primary.users id).isSome ∨ emailTaken l email then none
  else
    let users := Function.update l.auth.primary.users id (some (newUser emailVerified))
    some { l with
      auth := { l.auth with primary := { l.auth.primary with users := users } }
      primary := ⟨Function.update l.primary.emails email (some id),
        Function.update l.primary.lockouts id ⟨0, none⟩⟩ }

/-- The id is a new one, and the tables of the users are all that is written. -/
theorem createUser_spec {l l' : Auth.LoginStore} {id email : String} {emailVerified : Bool}
    (h : createUser l id email emailVerified = some l') :
    (l.auth.primary.users id).isSome = false ∧ ∃ users primary,
      users = Function.update l.auth.primary.users id (some (newUser emailVerified))
        ∧ l' = { l with
            auth := { l.auth with primary := { l.auth.primary with users := users } }
            primary := primary } := by
  unfold createUser at h
  split at h
  · cases h
  · rename_i hnew
    obtain rfl := Option.some.inj h
    exact ⟨(Bool.not_eq_true _).mp fun hold => hnew (Or.inl hold), _, _, rfl, rfl⟩

/-! ## `acceptInvitation` -/

/-- `v` is the invitation the call has read. -/
inductive AcceptPc
  | find
  | expire (v : InvitationRow)
  | findUser (v : InvitationRow)
  | createUser (v : InvitationRow)
  | preferences (v : InvitationRow) (userId : String)
  | provider (v : InvitationRow) (userId : String)
  | membership (v : InvitationRow) (userId : String) (isPlatformAdmin : Bool)
  | seed (v : InvitationRow) (userId : String) (isPlatformAdmin : Bool)
  | mark (v : InvitationRow) (userId : String) (isPlatformAdmin : Bool)
  | outbox (v : InvitationRow) (userId : String) (isPlatformAdmin : Bool)
  | insert (m : Minted)
  | returned (pair : TokenPair) (userId : String)
  | threw (e : AppError)
  | failed
  deriving DecidableEq

/-- 410 of an invitation. -/
def gone (code message : String) : AppError := ⟨410, code, message⟩

/-- The checks on the invitation. -/
def AcceptPc.found (now : ℕ) : Option InvitationRow → AcceptPc
  | none => .threw (.notFound "Invitation")
  | some v =>
    if v.status ≠ .pending then
      .threw (gone "INVITATION_GONE" "Invitation has already been used, expired, or revoked")
    else if v.expiresAt < now then .expire v
    else .findUser v

/-- `issueTokenPair(user.id, invitation.org_id, invitation.role, user.is_platform_admin)`, up to its
INSERT. -/
def acceptIssue (cfg : Config) (s : Store) (d : Draw) (v : InvitationRow) (userId : String)
    (isPlatformAdmin : Bool) : Store × AcceptPc :=
  let x := Auth.issueTokenPair cfg.toConfig s.login.auth d.toDraw
    ⟨userId, v.orgId, v.role.1, isPlatformAdmin, none⟩
  ({ s with login := { s.login with auth := x.1 } }, .insert x.2)

/-- The preferences, the auth provider and the notification preferences are read by nothing here; an
INSERT of theirs that fails ends the call as a crash does.  `member.joined` and the token pair are
on record with the outbox statement, behind which the pair is generated. -/
def acceptNext (cfg : Config) (s : Store) (d : Draw) (token : String) :
    AcceptPc → Option (Store × AcceptPc)
  | .find => some (s, .found s.now (s.primary.findByTokenHash (cfg.hashToken token)))
  | .expire v => some (s.setInvitation v.id (fun _ => true) .expired,
      .threw (gone "INVITATION_EXPIRED" "Invitation has expired"))
  | .findUser v => some (s,
      match s.login.findUserByEmail (cfg.normalizeEmail v.email) with
      | some user => .membership v user.id user.row.isPlatformAdmin
      | none => .createUser v)
  | .createUser v =>
    match createUser s.login d.newId (cfg.normalizeEmail v.email) true with
    | some l => some ({ s with login := l }, .preferences v d.newId)
    | none => some (s, .failed)
  | .preferences v userId => some (s, .provider v userId)
  | .provider v userId => some (s, .membership v userId false)
  | .membership v userId isPlatformAdmin =>
    match s.primary.createMembership v.orgId userId v.role with
    | some t => some (({ s with primary := t } : Store).record v.id .granted,
        .seed v userId isPlatformAdmin)
    | none => some (s, .failed)
  | .seed v userId isPlatformAdmin => some (s, .mark v userId isPlatformAdmin)
  | .mark v userId isPlatformAdmin =>
    some (s.setInvitation v.id (fun _ => true) .accepted, .outbox v userId isPlatformAdmin)
  | .outbox v userId isPlatformAdmin =>
    some (acceptIssue cfg ((s.record v.id .joined).record v.id .issued) d v userId isPlatformAdmin)
  | .insert m =>
    match s.login.auth.createRefreshToken (m.row cfg.toConfig d.rowId) with
    | some a => some ({ s with login := { s.login with auth := a } },
        .returned (m.pair cfg.toConfig) m.userId)
    | none => some (s, .failed)
  | .returned _ _ | .threw _ | .failed => none

/-! ## `createOrg` -/

/-- Where a call of `createOrg` is. -/
inductive CreatePc
  | findSlug
  | transaction
  | outbox
  | returned
  | threw (e : AppError)
  | failed
  deriving DecidableEq

/-- The row of a new organisation; `max_members` is the column's default. -/
def newOrg (id slug : String) : OrgRow := ⟨⟨.active, false⟩, id, slug, 5⟩

theorem ids_newOrg_nodup (id slug : String) : ([newOrg id slug].map (·.id)).Nodup :=
  List.nodup_singleton _

theorem slugs_newOrg_nodup (id slug : String) : ([newOrg id slug].map (·.slug)).Nodup :=
  List.nodup_singleton _

/-- The next statement of `createOrg`; its transaction is one step. -/
def createNext (s : Store) (d : Draw) (userId slug : String) : CreatePc → Option (Store × CreatePc)
  | .findSlug => some (s,
      if (s.replica.findBySlug slug).isSome then
        .threw (.conflict "SLUG_TAKEN" "Organization slug is already in use")
      else .transaction)
  | .transaction =>
    match s.primary.createOrg (newOrg d.newId slug) userId with
    | some t => some ({ s with primary := t }, .outbox)
    | none => some (s, .failed)
  | .outbox => some (s, .returned)
  | .returned | .threw _ | .failed => none

/-! ## The context of a route -/

/-- What the JWT says of the caller. -/
structure Caller where
  userId : String
  orgId : String
  isPlatformAdmin : Bool
  deriving DecidableEq

/-- Where the resolution of an organisation context is. -/
inductive ContextPc
  | get
  | select
  | existence
  | setex (ctx : OrgContext)
  | resolved (ctx : OrgContext)
  | threw (e : AppError)
  deriving DecidableEq

/-- The join of `resolveOrgContext`, on the replica. -/
def selectContext (t : Tables) (userId orgId : String) : Option OrgContext := do
  let m ← t.memberships.find? fun m => m.activeIn orgId ∧ m.userId = userId
  let org ← t.orgs.find? (·.id = orgId)
  return ⟨org.status, m.role⟩

/-- `orgContextMiddleware`; `orgId` is the header `x-org-id`. -/
def contextNext (s : Store) (d : Draw) (caller : Caller) (orgId : String) :
    ContextPc → Option (Store × ContextPc)
  | .get => some (s,
      if ¬ caller.isPlatformAdmin ∧ caller.orgId ≠ orgId then
        .threw (.forbidden "ORG_MISMATCH" "Token org does not match X-Org-ID header")
      else
        match if d.redis then s.getSession caller.userId orgId else none with
        | some ctx => .resolved ctx
        | none => .select)
  | .select => some (s,
      match selectContext s.replica caller.userId orgId with
      | some ctx =>
        if ctx.orgStatus = .deleted then
          .threw (.forbidden "ORG_DELETED" "Organization has been deleted")
        else .setex ctx
      | none => .existence)
  | .existence => some (s,
      if (s.replica.orgs.find? (·.id = orgId)).all (·.status = .deleted) then
        .threw (.forbidden "ORG_DELETED" "Organization does not exist or has been deleted")
      else .threw (.forbidden "NOT_ORG_MEMBER" "User is not an active member of this organization"))
  | .setex ctx => some (if d.redis then s.setSession caller.userId orgId ctx else s, .resolved ctx)
  | .resolved _ | .threw _ => none

/-! ## The routes of a member -/

/-- What the routes of members and invitations do. -/
inductive Action
  | changeRole (userId : String) (role : GrantedRole)
  | removeMember (userId : String)
  | invite (email : String) (role : GrantedRole)
  | revokeInvitation (invitationId : String)
  deriving DecidableEq

/-- Where a request of one of these routes is: its context comes first. -/
inductive RoutePc
  | context (pc : ContextPc)
  | updateRole (userId : String) (role : GrantedRole)
  | remove (userId : String)
  | findOrg (email : String) (role : GrantedRole)
  | count (email : String) (role : GrantedRole) (org : OrgRow)
  | pending (email : String) (role : GrantedRole)
  | insertInvitation (email : String) (role : GrantedRole) (expiresAt : ℕ)
  | revoke (invitationId : String)
  | outbox
  | returned
  | threw (e : AppError)
  | failed
  deriving DecidableEq

/-- What each route says to a caller who is neither owner nor admin. -/
def Action.insufficientRole : Action → AppError
  | .changeRole _ _ =>
    .forbidden "INSUFFICIENT_ROLE" "Only org owners and admins can change member roles"
  | .removeMember _ =>
    .forbidden "INSUFFICIENT_ROLE" "Only org owners and admins can remove members"
  | .invite _ _ => .forbidden "INSUFFICIENT_ROLE" "Only org owners and admins can invite members"
  | .revokeInvitation _ =>
    .forbidden "INSUFFICIENT_ROLE" "Only org owners and admins can revoke invitations"

/-- `orgStatusMiddleware`, for a write. -/
def orgStatusError : OrgStatus → Option AppError
  | .deleted => some (.forbidden "ORG_DELETED" "Organization has been deleted")
  | .offboarding =>
    some (.forbidden "ORG_OFFBOARDING" "Organization is in offboarding — writes are disabled")
  | .suspended =>
    some (.forbidden "ORG_SUSPENDED" "Organization is suspended — writes are disabled")
  | .active => none

/-- `INVITATION_TTL_DAYS`, 7 days. -/
def invitationTtl : ℕ := 7 * 24 * 60 * 60 * 1000

/-- The first statement of the action, behind the checks on status and role. -/
def Action.admitted (normalizeEmail : String → String) (action : Action) (ctx : OrgContext) :
    RoutePc :=
  match orgStatusError ctx.orgStatus with
  | some e => .threw e
  | none =>
    if ctx.memberRole ≠ .orgOwner ∧ ctx.memberRole ≠ .orgAdmin then .threw action.insufficientRole
    else
      match action with
      | .changeRole userId role => .updateRole userId role
      | .removeMember userId => .remove userId
      | .invite email role => .findOrg (normalizeEmail email) role
      | .revokeInvitation invitationId => .revoke invitationId

/-- What a route does with its context. -/
def RoutePc.ofContext (normalizeEmail : String → String) (action : Action) : ContextPc → RoutePc
  | .resolved ctx => action.admitted normalizeEmail ctx
  | .threw e => .threw e
  | pc => .context pc

/-- The checks of `invite` on the organisation. -/
def RoutePc.inviting (email : String) (role : GrantedRole) : Option OrgRow → RoutePc
  | none => .threw (.notFound "Organization")
  | some org =>
    if org.status ≠ .active then
      .threw (.forbidden "ORG_NOT_ACTIVE" "Invitations can only be sent for active organizations")
    else .count email role org

/-- The row `invite` inserts. -/
def newInvitation (cfg : Config) (d : Draw) (caller : Caller) (orgId email : String)
    (role : GrantedRole) (expiresAt : ℕ) : InvitationRow where
  id := d.newId
  orgId := orgId
  email := email
  role := role
  tokenHash := cfg.hashToken (cfg.inviteToken orgId email role caller.userId expiresAt)
  status := .pending
  expiresAt := expiresAt

/-- The next statement of a request of these routes. -/
def routeNext (cfg : Config) (s : Store) (d : Draw) (caller : Caller) (orgId : String)
    (action : Action) : RoutePc → Option (Store × RoutePc)
  | .context pc => (contextNext s d caller orgId pc).map fun x =>
      (x.1, .ofContext cfg.normalizeEmail action x.2)
  | .updateRole userId role =>
    some ({ s with primary := s.primary.updateRole orgId userId role },
      if s.primary.memberships.any (·.isOf orgId userId) then .returned
      else .threw (.notFound "Membership"))
  | .remove userId =>
    some ({ s with primary := s.primary.removeMembership orgId userId }, .returned)
  | .findOrg email role => some (s, .inviting email role (s.replica.findOrgById orgId))
  | .count email role org => some (s,
      if org.maxMembers ≤ s.replica.countActiveMembers orgId then
        .threw (.forbidden "PLAN_MEMBER_LIMIT_EXCEEDED" "Organization has reached its member limit")
      else .pending email role)
  | .pending email role => some (s,
      if s.replica.invitations.any fun v =>
          v.orgId = orgId ∧ v.email = email ∧ v.status = .pending then
        .threw (.forbidden "INVITATION_ALREADY_PENDING"
          "A pending invitation already exists for this email")
      else .insertInvitation email role (s.now + invitationTtl))
  | .insertInvitation email role expiresAt =>
    match s.primary.insertInvitation (newInvitation cfg d caller orgId email role expiresAt) with
    | some t => some ({ s with primary := t }, .outbox)
    | none => some (s, .failed)
  | .revoke id =>
    some (s.setInvitation id (fun v => v.orgId = orgId ∧ v.status = .pending) .revoked,
      if s.primary.invitations.any fun v => v.id = id ∧ v.orgId = orgId ∧ v.status = .pending then
        .outbox
      else .threw (.notFound "Invitation"))
  | .outbox => some (s, .returned)
  | .returned | .threw _ | .failed => none

/-! ## The machine -/

/-- Where the clean-up of invitations is. -/
inductive CleanupPc
  | expire
  | returned
  deriving DecidableEq

def cleanupNext (s : Store) : CleanupPc → Option (Store × CleanupPc)
  | .expire => some (s.expireOldInvitations, .returned)
  | .returned => none

/-- A call, and where it is. -/
inductive Call
  | createOrg (userId slug : String) (pc : CreatePc)
  | accept (token : String) (pc : AcceptPc)
  | route (caller : Caller) (orgId : String) (action : Action) (pc : RoutePc)
  | cleanup (pc : CleanupPc)
  deriving DecidableEq

/-- The call has not run a statement yet. -/
def Call.fresh : Call → Bool
  | .createOrg _ _ .findSlug | .accept _ .find | .route _ _ _ (.context .get) | .cleanup .expire =>
    true
  | _ => false

/-- What happens around the calls: time and replication. -/
inductive Env
  | tick (ms : ℕ)
  | replicate

def env (s : Store) : Env → Store
  | .tick ms => { s with login := Auth.loginEnv s.login (.tick ms) }
  | .replicate => { s with login := Auth.loginEnv s.login .replicate, replica := s.primary }

/-- The next statement of a call. -/
def next (cfg : Config) (s : Store) (c : Call) (d : Draw) : Option (Store × Call) :=
  match c with
  | .createOrg userId slug pc =>
    (createNext s d userId slug pc).map fun x => (x.1, .createOrg userId slug x.2)
  | .accept token pc => (acceptNext cfg s d token pc).map fun x => (x.1, .accept token x.2)
  | .route caller orgId action pc =>
    (routeNext cfg s d caller orgId action pc).map fun x => (x.1, .route caller orgId action x.2)
  | .cleanup pc => (cleanupNext s pc).map fun x => (x.1, .cleanup x.2)

def orgMachine (cfg : Config) : Machine Store Call Draw Env := ⟨next cfg, env⟩

/-- Calls over the store. -/
abbrev Calls (ι : Type*) := Pool ι Store Call

end WorkPlatform.Organization

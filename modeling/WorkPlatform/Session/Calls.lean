import WorkPlatform.Organization.Calls

/-!
# Session/Calls — every service that issues a token pair, over one database

    login             find ▸ verify ▸ … ▸ [lookupRole ▸] insert ▸ audit
    refreshTokenPair  find ▸ lookupUser ▸ lookupRole ▸ revoke ▸ insert ▸ updateJti
    requestLink       find ▸ set ▸ outbox
    verifyLink        get ▸ del ▸ findUser ▸ [verify ▸] insert
    handleCallback    flag ▸ config ▸ validate ▸ replay ▸ insertAssertion ▸ findProvider ▸
                      [findUser ▸ [createUser ▸ preferences ▸ | verifyEmail ▸] provider ▸]
                      lookupRole ▸ audit ▸ insert
    acceptInvitation, role changes, removals: the calls of the organisation

The services read the memberships the organisation's routes write; `loginStore` hands them the
tables.  The feature flag and the SAML columns of an organisation come with the move that reads them
and may be anything; `passport-saml` is a parameter.
-/

namespace WorkPlatform.Session

open Machinery
open Auth (Role Minted TokenPair)

/-! ## Parameters and draws -/

/-- The IdP metadata of an organisation. -/
structure OrgSamlConfig where
  entryPoint : String
  issuer : String
  cert : String
  audience : Option String
  deriving DecidableEq

/-- What `handleCallback` reads of a validated profile; the display name and `notOnOrAfter` are only
stored. -/
structure SamlProfile where
  id : Option String
  email : Option String
  deriving DecidableEq

/-- The configuration, and `validatePostResponseAsync` at a time of the clock. -/
structure Config extends toOrgConfig : Organization.Config where
  validatePostResponse : OrgSamlConfig → ℕ → String → Option SamlProfile

/-- What a move draws: the random bytes of a magic link, and what `isEnabled` and
`getOrgSamlConfig` answer. -/
structure Draw extends toOrgDraw : Organization.Draw where
  linkToken : String
  ssoEnabled : Bool
  saml : Option OrgSamlConfig

/-! ## The store -/

/-- `auth_providers` of provider `saml`, by `provider_user_id`, and `saml_used_assertions`. -/
structure Store extends Organization.Store where
  samlProviders : String → Option String
  samlProvidersReplica : String → Option String
  usedAssertions : List (String × String)

namespace Store

/-- The stores of `login`, with the memberships of the organisations' tables. -/
def loginStore (s : Store) : Auth.LoginStore :=
  { s.login with
    auth := { s.login.auth with
      primary := { s.login.auth.primary with
        memberships := s.primary.memberships.map (·.toMembershipRow) }
      replica := { s.login.auth.replica with
        memberships := s.replica.memberships.map (·.toMembershipRow) } } }

def putOrg (s : Store) (o : Organization.Store) : Store := { s with toStore := o }

def putLogin (s : Store) (l : Auth.LoginStore) : Store := { s with login := l }

def putAuth (s : Store) (a : Auth.Store) : Store := s.putLogin { s.login with auth := a }

/-- `SELECT role FROM org_memberships WHERE … AND status = 'active' LIMIT 1`, on the replica. -/
def findActiveRole (s : Store) (userId orgId : String) : Option Role :=
  s.loginStore.auth.findActiveRole userId orgId

end Store

/-! ## `requestLink` -/

/-- Where a call of `requestLink` is. -/
inductive RequestPc
  | find
  | set (userId : String)
  | outbox
  | returned
  deriving DecidableEq

/-- The organisation of the request goes into the key as it is. -/
def requestNext (cfg : Config) (s : Store) (d : Draw) (email : String) (orgId : Option String) :
    RequestPc → Option (Store × RequestPc)
  | .find => some (s,
      match s.login.findUserByEmail (cfg.normalizeEmail email) with
      | some user => .set user.id
      | none => .returned)
  | .set userId =>
    let key := .magic (cfg.hashToken d.linkToken)
    some (s.putAuth (s.login.auth.setOneTime key ⟨userId, orgId⟩ 900), .outbox)
  | .outbox => some (s, .returned)
  | .returned => none

/-! ## `handleCallback` -/

/-- Where a call of `handleCallback` is. -/
inductive SamlPc
  | flag
  | config
  | validate (saml : OrgSamlConfig)
  | replay (assertionId email : String)
  | insertAssertion (assertionId email : String)
  | findProvider (email : String)
  | findUser (email : String)
  | createUser (email : String)
  | preferences (email userId : String)
  | verifyEmail (email userId : String)
  | provider (email userId : String)
  | lookupRole (userId : String)
  | audit (userId : String) (role : Role)
  | insert (m : Minted)
  | returned (pair : TokenPair)
  | threw (e : AppError)
  | failed
  deriving DecidableEq

/-- The profile, up to the replay check; without an email the code raises. -/
def SamlPc.validated (normalizeEmail : String → String) : Option SamlProfile → SamlPc
  | none => .threw (.unauthorized "SAML_VALIDATION_FAILED" "SAML response could not be validated")
  | some profile =>
    match profile.email, Auth.truthy profile.id with
    | none, _ => .failed
    | some _, none =>
      .threw (.unauthorized "SAML_MISSING_ASSERTION_ID" "SAML assertion ID is missing")
    | some email, some assertionId => .replay assertionId (normalizeEmail email)

/-- `issueTokenPair(userId, orgId, role, false)`, up to its INSERT. -/
def samlIssue (cfg : Config) (s : Store) (d : Draw) (orgId userId : String) (role : Role) :
    Store × SamlPc :=
  let x := Auth.issueTokenPair cfg.toConfig s.login.auth d.toDraw
    ⟨userId, orgId, role, false, none⟩
  (s.putAuth x.1, .insert x.2)

/-- `provider_user_id`. -/
def providerUserId (orgId email : String) : String := orgId ++ ":" ++ email

/-- The next statement of `handleCallback`. -/
def samlNext (cfg : Config) (s : Store) (d : Draw) (orgId samlResponse : String) :
    SamlPc → Option (Store × SamlPc)
  | .flag => some (s,
      if d.ssoEnabled then .config
      else .threw (.forbidden "FEATURE_NOT_ENABLED"
        "SSO is not enabled for this organization. Upgrade to enterprise plan."))
  | .config => some (s,
      match d.saml with
      | some saml => .validate saml
      | none =>
        .threw (.unauthorized "SAML_NOT_CONFIGURED" "SAML is not configured for this organization"))
  | .validate saml =>
    some (s, .validated cfg.normalizeEmail (cfg.validatePostResponse saml s.now samlResponse))
  | .replay assertionId email => some (s,
      if (assertionId, orgId) ∈ s.usedAssertions then
        .threw (.unauthorized "SAML_ASSERTION_REPLAYED" "SAML assertion already used")
      else .insertAssertion assertionId email)
  | .insertAssertion assertionId email =>
    if (assertionId, orgId) ∈ s.usedAssertions ∨ orgId ∉ s.primary.orgs.map (·.id) then
      some (s, .failed)
    else
      some ({ s with usedAssertions := (assertionId, orgId) :: s.usedAssertions },
        .findProvider email)
  | .findProvider email => some (s,
      match s.samlProvidersReplica (providerUserId orgId email) with
      | some userId => .lookupRole userId
      | none => .findUser email)
  | .findUser email => some (s,
      match s.login.findUserByEmail (cfg.normalizeEmail email) with
      | none => .createUser email
      | some user =>
        if user.row.emailVerified then .provider email user.id else .verifyEmail email user.id)
  | .createUser email =>
    match Organization.createUser s.login d.newId (cfg.normalizeEmail email) true with
    | some l => some (s.putLogin l, .preferences email d.newId)
    | none => some (s, .failed)
  | .preferences email userId => some (s, .provider email userId)
  | .verifyEmail email userId =>
    some (s.putAuth (s.login.auth.updateUser userId .verifyEmail), .provider email userId)
  | .provider email userId =>
    let key := providerUserId orgId email
    if (s.samlProviders key).isSome then some (s, .failed)
    else
      some ({ s with samlProviders := Function.update s.samlProviders key (some userId) },
        .lookupRole userId)
  | .lookupRole userId => some (s, .audit userId ((s.findActiveRole userId orgId).getD .member))
  | .audit userId role => some (samlIssue cfg s d orgId userId role)
  | .insert m =>
    match s.login.auth.createRefreshToken (m.row cfg.toConfig d.rowId) with
    | some a => some (s.putAuth a, .returned (m.pair cfg.toConfig))
    | none => some (s, .failed)
  | .returned _ | .threw _ | .failed => none

/-! ## The machine -/

/-- A call, and where it is. -/
inductive Call
  | login (email password : String) (orgId : Option String) (pc : Auth.LoginPc)
  | refresh (raw : String) (pc : Auth.RefreshPc)
  | requestLink (email : String) (orgId : Option String) (pc : RequestPc)
  | verifyLink (token : String) (pc : Auth.LinkPc)
  | saml (orgId samlResponse : String) (pc : SamlPc)
  | org (c : Organization.Call)
  deriving DecidableEq

/-- The call has not run a statement yet. -/
def Call.fresh : Call → Bool
  | .login _ _ _ .find | .refresh _ .find | .requestLink _ _ .find | .verifyLink _ .get
  | .saml _ _ .flag => true
  | .org c => c.fresh
  | _ => false

/-- Time and replication. -/
def env (s : Store) : Organization.Env → Store
  | .tick ms => s.putOrg (Organization.env s.toStore (.tick ms))
  | .replicate => { s.putOrg (Organization.env s.toStore .replicate) with
      samlProvidersReplica := s.samlProviders }

/-- The next statement of a call. -/
def next (cfg : Config) (s : Store) (c : Call) (d : Draw) : Option (Store × Call) :=
  match c with
  | .login email password orgId pc =>
    (Auth.loginNext cfg.toLoginConfig s.loginStore d.toDraw email password orgId pc).map
      fun x => (s.putLogin x.1, .login email password orgId x.2)
  | .refresh raw pc =>
    (Auth.refreshNext cfg.toConfig s.loginStore.auth d.toDraw raw pc).map
      fun x => (s.putAuth x.1, .refresh raw x.2)
  | .requestLink email orgId pc =>
    (requestNext cfg s d email orgId pc).map fun x => (x.1, .requestLink email orgId x.2)
  | .verifyLink token pc =>
    (Auth.linkNext cfg.toConfig s.loginStore.auth d.toDraw token pc).map
      fun x => (s.putAuth x.1, .verifyLink token x.2)
  | .saml orgId samlResponse pc =>
    (samlNext cfg s d orgId samlResponse pc).map fun x => (x.1, .saml orgId samlResponse x.2)
  | .org c =>
    (Organization.next cfg.toOrgConfig s.toStore c d.toOrgDraw).map fun x =>
      (s.putOrg x.1, .org x.2)

def sessionMachine (cfg : Config) : Machine Store Call Draw Organization.Env := ⟨next cfg, env⟩

/-- Calls over the store. -/
abbrev Calls (ι : Type*) := Pool ι Store Call

end WorkPlatform.Session

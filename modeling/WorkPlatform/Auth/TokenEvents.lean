import WorkPlatform.Auth.Login
import WorkPlatform.Auth.OneTime

/-!
# Auth/TokenEvents — what the recipient of a one-time token is sent

    register, resendVerificationEmail   email_verify:<hash>   verifyEmail
    requestPasswordReset                pwd_reset:<hash>      confirmPasswordReset
    requestLink                         magic:<hash>          verifyLink

A request draws a token, keeps its hash in Redis and sends an outbox event.  The event carries the
hash; the token itself is dropped.  The call that redeems a token hashes what it is given, so the
token would do (`delivers_token`), and what is sent never does (`sent_hash_not_accepted`).
-/

namespace WorkPlatform.Auth

open Machinery

/-! ## Tokens -/

inductive TokenKind
  | emailVerify | pwdReset | magic
  deriving DecidableEq

namespace TokenKind

/-- The Redis key of a token with the given hash. -/
def key : TokenKind → String → OneTimeKey
  | emailVerify, hash => .emailVerify hash
  | pwdReset, hash => .pwdReset hash
  | magic, hash => .magic hash

/-- The `EX` of the key, in seconds. -/
def ttl : TokenKind → ℕ
  | emailVerify => 86400
  | pwdReset => 3600
  | magic => 900

theorem key_injective (kind : TokenKind) : Function.Injective kind.key := by
  cases kind with
  | emailVerify => exact fun _ _ h => OneTimeKey.emailVerify.inj h
  | pwdReset => exact fun _ _ h => OneTimeKey.pwdReset.inj h
  | magic => exact fun _ _ h => OneTimeKey.magic.inj h

theorem ttl_pos (kind : TokenKind) : 0 < kind.ttl := by
  cases kind <;> decide

end TokenKind

/-- What the three generators of `utils/token` return. -/
structure GeneratedToken where
  token : String
  hash : String
  expiresAt : ℕ

section Generators

variable (cfg : Config) (now : ℕ) (bytes : String)

def generateEmailVerificationToken : GeneratedToken :=
  ⟨bytes, cfg.hashToken bytes, now + 24 * 60 * 60 * 1000⟩

def generatePasswordResetToken : GeneratedToken :=
  ⟨bytes, cfg.hashToken bytes, now + 60 * 60 * 1000⟩

def generateMagicLinkToken : GeneratedToken :=
  ⟨bytes, cfg.hashToken bytes, now + 15 * 60 * 1000⟩

end Generators

/-! ## Events -/

/-- The payload; a field that is missing is `none`. -/
structure TokenPayload where
  userId : String
  email : Option String
  tokenHash : String
  expiresAt : ℕ
  orgId : Option (Option String)
  deriving DecidableEq

/-- An event of the outbox that is about a token. -/
structure TokenEvent where
  eventType : String
  entityType : String
  entityId : String
  actorUserId : Option String
  payload : TokenPayload
  deriving DecidableEq

/-- `writeOutboxEvent`, of an event about a user. -/
def userEvent (eventType userId : String) (payload : TokenPayload) : TokenEvent :=
  ⟨eventType, "user", userId, some userId, payload⟩

/-! ## The requests -/

/-- What a request draws: the random bytes of the token, the id of a new user, the salt. -/
structure TokenDraw where
  bytes : String
  newId : String
  salt : String

/-- A request that is refused: by the service, or by a constraint of the database. -/
inductive Refusal
  | app (e : AppError)
  | database
  deriving DecidableEq

/-- What a request that is accepted leaves, and the event it sends if there is somebody to send it
to. -/
abbrev Accepted := LoginStore × Option TokenEvent

def setOneTime (s : LoginStore) (kind : TokenKind) (hash : String) (v : OneTimeValue) :
    LoginStore :=
  { s with auth := s.auth.setOneTime (kind.key hash) v kind.ttl }

/-- `createUser` of `register`; `none` where a unique index refuses the row. -/
def createUser (s : LoginStore) (id email passwordHash : String) : Option LoginStore :=
  let taken := (s.primary.emails email).any fun x => (s.auth.primary.users x).any fun u => ¬ u.deleted
  if (s.auth.primary.users id).isSome ∨ taken then none
  else
    let row : UserRow := ⟨false, .active, false, false, some passwordHash, none⟩
    some { s with
      auth := { s.auth with primary := { s.auth.primary with
        users := Function.update s.auth.primary.users id (some row) } }
      primary := ⟨Function.update s.primary.emails email (some id),
        Function.update s.primary.lockouts id ⟨0, none⟩⟩ }

section Requests

variable (cfg : LoginConfig) (s : LoginStore) (d : TokenDraw)

/-- `register`.  The preferences, the provider and the audit entry are read by nothing here. -/
def register (email password : String) : Except Refusal Accepted :=
  let normalizedEmail := cfg.normalizeEmail email
  if (s.findUserByEmail normalizedEmail).isSome then
    .error (.app (.conflict "EMAIL_ALREADY_EXISTS" "An account with this email already exists"))
  else
    match createUser s d.newId normalizedEmail (cfg.hashPassword password d.salt) with
    | none => .error .database
    | some s =>
      let g := generateEmailVerificationToken cfg.toConfig s.auth.now d.bytes
      .ok (setOneTime s .emailVerify g.hash ⟨d.newId, none⟩,
        some (userEvent "user.email_verification_requested" d.newId
          ⟨d.newId, some normalizedEmail, g.hash, g.expiresAt, none⟩))

/-- `resendVerificationEmail`. -/
def resendVerificationEmail (userId : String) : LoginStore × TokenEvent :=
  let g := generateEmailVerificationToken cfg.toConfig s.auth.now d.bytes
  (setOneTime s .emailVerify g.hash ⟨userId, none⟩,
    userEvent "user.email_verification_requested" userId
      ⟨userId, none, g.hash, g.expiresAt, none⟩)

/-- `findUserByEmailForResend`. -/
def findUserByEmailForResend (email : String) : Option String :=
  ((s.findUserByEmail (cfg.normalizeEmail email)).filter fun user =>
    ¬ user.row.emailVerified).map (·.id)

/-- The route of a resend. -/
def resend (email : String) : Accepted :=
  match findUserByEmailForResend cfg s email with
  | none => (s, none)
  | some userId =>
    let x := resendVerificationEmail cfg s d userId
    (x.1, some x.2)

/-- `requestPasswordReset`; an unknown email is accepted and nothing is sent. -/
def requestPasswordReset (email : String) : Accepted :=
  let normalizedEmail := cfg.normalizeEmail email
  match s.findUserByEmail normalizedEmail with
  | none => (s, none)
  | some user =>
    let g := generatePasswordResetToken cfg.toConfig s.auth.now d.bytes
    (setOneTime s .pwdReset g.hash ⟨user.id, none⟩,
      some (userEvent "user.password_reset_requested" user.id
        ⟨user.id, some normalizedEmail, g.hash, g.expiresAt, none⟩))

/-- `requestLink`; an unknown email is accepted and nothing is sent. -/
def requestLink (email : String) (orgId : Option String) : Accepted :=
  let normalizedEmail := cfg.normalizeEmail email
  match s.findUserByEmail normalizedEmail with
  | none => (s, none)
  | some user =>
    let g := generateMagicLinkToken cfg.toConfig s.auth.now d.bytes
    (setOneTime s .magic g.hash ⟨user.id, orgId⟩,
      some (userEvent "user.magic_link_requested" user.id
        ⟨user.id, some normalizedEmail, g.hash, g.expiresAt, some orgId⟩))

end Requests

/-- A request that makes a token and sends an event. -/
inductive TokenRequest
  | register (email password : String)
  | resend (email : String)
  | passwordReset (email : String)
  | magicLink (email : String) (orgId : Option String)

namespace TokenRequest

/-- The kind of the token it makes. -/
def kind : TokenRequest → TokenKind
  | register .. | resend _ => .emailVerify
  | passwordReset _ => .pwdReset
  | magicLink .. => .magic

/-- The service that answers the request. -/
def run (cfg : LoginConfig) (s : LoginStore) (d : TokenDraw) : TokenRequest → Except Refusal Accepted
  | register email password => Auth.register cfg s d email password
  | resend email => .ok (Auth.resend cfg s d email)
  | passwordReset email => .ok (requestPasswordReset cfg s d email)
  | magicLink email orgId => .ok (requestLink cfg s d email orgId)

variable {cfg : LoginConfig} {s s' : LoginStore} {d : TokenDraw} {r : TokenRequest} {e : TokenEvent}

/-- **What every request does**: the hash of the token is stored under its key, and the hash is what
the event carries. -/
theorem run_eq (h : r.run cfg s d = .ok (s', some e)) :
    e.payload.tokenHash = cfg.hashToken d.bytes ∧
      ∃ s₀ v, s' = setOneTime s₀ r.kind (cfg.hashToken d.bytes) v := by
  cases r with
  | register email password =>
    rw [run, Auth.register] at h
    dsimp only at h
    split at h
    · cases h
    · split at h
      case h_1 => cases h
      case h_2 s₁ _ =>
        obtain ⟨rfl, he⟩ := Prod.mk.inj (Except.ok.inj h)
        obtain rfl := Option.some.inj he
        exact ⟨rfl, s₁, _, rfl⟩
  | resend email =>
    rw [run, Auth.resend] at h
    split at h
    case h_1 => cases h
    case h_2 userId _ =>
      obtain ⟨rfl, he⟩ := Prod.mk.inj (Except.ok.inj h)
      obtain rfl := Option.some.inj he
      exact ⟨rfl, s, _, rfl⟩
  | passwordReset email =>
    rw [run, requestPasswordReset] at h
    dsimp only at h
    split at h
    case h_1 => cases h
    case h_2 user _ =>
      obtain ⟨rfl, he⟩ := Prod.mk.inj (Except.ok.inj h)
      obtain rfl := Option.some.inj he
      exact ⟨rfl, s, _, rfl⟩
  | magicLink email orgId =>
    rw [run, requestLink] at h
    dsimp only at h
    split at h
    case h_1 => cases h
    case h_2 user _ =>
      obtain ⟨rfl, he⟩ := Prod.mk.inj (Except.ok.inj h)
      obtain rfl := Option.some.inj he
      exact ⟨rfl, s, _, rfl⟩

end TokenRequest

/-! ## Redeeming -/

/-- The call that redeems a token; a reset comes with the new password. -/
def TokenKind.redeem (newPassword : String) : TokenKind → String → Call
  | emailVerify, token => .verifyEmail token .get
  | pwdReset, token => .reset token newPassword .get
  | magic, token => .link token .get

/-- The redeeming call finds its key. -/
def Accepts (cfg : Config) (s : Store) (kind : TokenKind) (token : String) : Prop :=
  (s.getOneTime (kind.key (cfg.hashToken token))).isSome = true

instance (cfg : Config) (s : Store) (kind : TokenKind) (token : String) :
    Decidable (Accepts cfg s kind token) := inferInstanceAs (Decidable (_ = true))

/-- The call has thrown `INVALID_OR_EXPIRED_TOKEN`. -/
def Call.refused : Call → Bool
  | .verifyEmail _ (.threw e) | .reset _ _ (.threw e) | .link _ (.threw e) =>
    e.code = "INVALID_OR_EXPIRED_TOKEN"
  | _ => false

section Redeem

variable {cfg : Config} {s : Store} {kind : TokenKind} {token newPassword : String} {d : Draw}

theorem getOneTime_delOneTime_self (s : Store) (k : OneTimeKey) :
    (s.delOneTime k).getOneTime k = none := by
  change s.live (Function.update s.oneTime k none k) = none
  rw [Function.update_self]
  rfl

theorem getOneTime_delOneTime_of_ne (s : Store) {k k' : OneTimeKey} (h : k' ≠ k) :
    (s.delOneTime k).getOneTime k' = s.getOneTime k' := by
  change s.live (Function.update s.oneTime k none k') = s.live (s.oneTime k')
  rw [Function.update_of_ne h]

theorem getOneTime_updateUser (s : Store) (id : String) (f : UserRow → UserRow) (k : OneTimeKey) :
    (s.updateUser id f).getOneTime k = s.getOneTime k := by
  rw [Store.getOneTime, Store.live, updateUser_oneTime, updateUser_now]
  rfl

/-- **A call that finds its key deletes it**, and no other one-time key. -/
theorem redeem_deletes (cfg : Config) (s : Store) (kind : TokenKind) (token : String)
    (h : Accepts cfg s kind token) :
    ∃ t c, (authMachine cfg).Alone (s, kind.redeem "" token) (t, c) ∧
      t.getOneTime (kind.key (cfg.hashToken token)) = none ∧
      ∀ k, k ≠ kind.key (cfg.hashToken token) → t.getOneTime k = s.getOneTime k := by
  obtain ⟨v, hv⟩ := Option.isSome_iff_exists.mp h
  let d : Draw := ⟨"", "", "", "", "", true⟩
  have hstart := Machine.Alone.refl (M := authMachine cfg) (s, kind.redeem "" token)
  cases kind with
  | emailVerify =>
    have hget : next cfg s (.verifyEmail token .get) d =
        some (s, .verifyEmail token (.update v.userId)) := by
      rw [next, emailNext, show s.getOneTime (.emailVerify _) = some v from hv]
      rfl
    refine ⟨_, _, ((hstart.next (d := d) hget).next (d := d) rfl).next (d := d) rfl,
      getOneTime_delOneTime_self _ _, fun k hk => ?_⟩
    exact (getOneTime_delOneTime_of_ne _ hk).trans (getOneTime_updateUser ..)
  | pwdReset =>
    have hget : next cfg s (.reset token "" .get) d =
        some (s, .reset token "" (.hash v.userId)) := by
      rw [next, resetNext, show s.getOneTime (.pwdReset _) = some v from hv]
      rfl
    refine ⟨_, _, (((((hstart.next (d := d) hget).next (d := d) rfl).next (d := d) rfl).next (d := d)
      rfl).next (d := d) rfl).next (d := d) rfl, getOneTime_delOneTime_self _ _, fun k hk => ?_⟩
    exact (getOneTime_delOneTime_of_ne _ hk).trans
      (getOneTime_updateUser s v.userId (.changePassword _ s.now) k)
  | magic =>
    have hget : next cfg s (.link token .get) d =
        some (s, .link token (.del v)) := by
      rw [next, linkNext, show s.getOneTime (.magic _) = some v from hv]
      rfl
    exact ⟨_, _, (hstart.next (d := d) hget).next (d := d) rfl, getOneTime_delOneTime_self _ _,
      fun k hk => getOneTime_delOneTime_of_ne _ hk⟩

end Redeem

/-! ## What is sent -/

/-- **The token does what it was sent for**: whatever is called from `s` on, as long as the entry
lives the redeeming call accepts the token. -/
def Delivers (cfg : Config) (kind : TokenKind) (entry : OneTimeKey) (token : String) (s : Store) :
    Prop :=
  ∀ p q : Calls ℕ, p.store = s → Run (Pool.step (authMachine cfg)) anyStep p q →
    (q.store.getOneTime entry).isSome = true → Accepts cfg q.store kind token

/-- The token that was drawn would do. -/
theorem delivers_token (cfg : Config) (kind : TokenKind) (token : String) (s : Store) :
    Delivers cfg kind (kind.key (cfg.hashToken token)) token s :=
  fun _ _ _ _ hlive => hlive

/-- The entry just stored can be read. -/
theorem entry_lives (s : LoginStore) (kind : TokenKind) (hash : String) (v : OneTimeValue) :
    ((setOneTime s kind hash v).auth.getOneTime (kind.key hash)).isSome = true := by
  have hlive : (setOneTime s kind hash v).auth.getOneTime (kind.key hash) = some v := by
    change s.auth.live (Function.update s.auth.oneTime (kind.key hash)
      (some ⟨v, s.auth.now + kind.ttl * 1000⟩) (kind.key hash)) = some v
    have hnow : s.auth.now < s.auth.now + kind.ttl * 1000 := by
      have hpos := kind.ttl_pos
      omega
    rw [Function.update_self]
    simp [Store.live, hnow]
  rw [hlive]
  rfl

/-- The hash of a token is no token for the same entry, unless hashing it again gives it back. -/
theorem not_delivers_hash {cfg : Config} {kind : TokenKind} {hash : String} {s : Store}
    (hhash : cfg.hashToken hash ≠ hash) (hlive : (s.getOneTime (kind.key hash)).isSome = true) :
    ¬ Delivers cfg kind (kind.key hash) hash s := by
  intro hdelivers
  have hkey : kind.key hash ≠ kind.key (cfg.hashToken hash) := fun h =>
    hhash (kind.key_injective h).symm
  let p : Calls ℕ := ⟨s, fun _ => .up (kind.redeem "" hash)⟩
  have haccepts : Accepts cfg s kind hash := hdelivers p p rfl .refl hlive
  -- Some other entry answers to the hash; the call that redeems that one deletes it.
  obtain ⟨t, c, halone, hgone, hothers⟩ := redeem_deletes cfg s kind hash haccepts
  have hrun := halone.run (p := p) (i := 0) (G := anyStep) rfl fun _ _ => trivial
  have hstill := hdelivers p _ rfl hrun (by rw [hothers _ hkey]; exact hlive)
  rw [Accepts, hgone] at hstill
  cases hstill

/-- **What is sent is never accepted for what was stored**, by any of the four requests: the payload
carries the hash, and the redeeming call hashes it again. -/
theorem sent_hash_not_accepted {cfg : LoginConfig}
    (hhash : ∀ x, cfg.hashToken (cfg.hashToken x) ≠ cfg.hashToken x) {s s' : LoginStore}
    {r : TokenRequest} {d : TokenDraw} {e : TokenEvent} (h : r.run cfg s d = .ok (s', some e)) :
    ¬ Delivers cfg.toConfig r.kind (r.kind.key (cfg.hashToken d.bytes)) e.payload.tokenHash
      s'.auth := by
  obtain ⟨hpayload, s₀, v, rfl⟩ := TokenRequest.run_eq h
  rw [hpayload]
  exact not_delivers_hash (hhash d.bytes) (entry_lives s₀ r.kind _ v)

/-! ### A password reset -/

/-- A hash that adds a mark. -/
def markingConfig : LoginConfig :=
  ⟨⟨900, demoConfig.ttl_pos, (· ++ "#"), fun password salt => password ++ salt⟩, id, fun _ _ => true⟩

theorem markingConfig_hash (x : String) :
    markingConfig.hashToken (markingConfig.hashToken x) ≠ markingConfig.hashToken x := by
  intro h
  have hlength := congrArg String.length h
  simp [markingConfig] at hlength

/-- The user `u`, by the email `u@x`. -/
def tokenAccounts : Accounts :=
  ⟨fun email => if email = "u@x" then some "u" else none, fun _ => ⟨0, none⟩⟩

def tokenLogins : LoginStore := ⟨demoSession, tokenAccounts, tokenAccounts, fun _ => none, []⟩

def demoTokenDraw : TokenDraw := ⟨"token", "u2", "salt"⟩

/-- The user asks for a reset. -/
theorem reset_hash_not_accepted :
    ∃ s' e, (TokenRequest.passwordReset "u@x").run markingConfig tokenLogins demoTokenDraw =
        .ok (s', some e) ∧ e.payload.tokenHash = "token#" ∧
      ¬ Delivers markingConfig.toConfig .pwdReset (.pwdReset (markingConfig.hashToken "token"))
        e.payload.tokenHash s'.auth :=
  ⟨_, _, rfl, rfl, sent_hash_not_accepted (s := tokenLogins) (d := demoTokenDraw)
    (r := .passwordReset "u@x") markingConfig_hash rfl⟩

/-- **The reset link does not work**: the entry is there, under `token#`, and what was sent is
looked up under `token##`. -/
theorem reset_not_delivered :
    ¬ ∀ cfg : LoginConfig, (∀ x, cfg.hashToken (cfg.hashToken x) ≠ cfg.hashToken x) →
      ∀ s s' r d e, TokenRequest.run cfg s d r = .ok (s', some e) →
        Delivers cfg.toConfig r.kind (r.kind.key (cfg.hashToken d.bytes)) e.payload.tokenHash
          s'.auth := by
  intro h
  have hdelivers := h markingConfig markingConfig_hash tokenLogins _ (.passwordReset "u@x")
    demoTokenDraw _ rfl
  have haccepts := hdelivers ⟨_, fun _ => .up (.verifyEmail "" .get)⟩ _ rfl .refl (by decide)
  exact absurd haccepts (by decide)

end WorkPlatform.Auth

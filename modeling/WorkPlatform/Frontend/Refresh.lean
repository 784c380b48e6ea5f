import WorkPlatform.Auth.Rotation
import WorkPlatform.Frontend.AuthService

/-!
# Frontend/Refresh — the browser and `refreshTokenPair`

    browser ──sign in──▸ server ──{tokens: {…}, user}──▸ res.data.accessToken ──▸ localStorage
       │                                                                              │
       └────────────── 401 ──▸ refreshToken() ─────────────── POST? ──────────────────┘

One browser, and a server that rotates the refresh token at every exchange.  The pair of a login is
not where the browser looks for it, so that its storage says "undefined" twice (`login_storage`),
and the first request that needs a token is answered 401.  Then the browser asks for a refresh and
never sends it (`refreshes_iff`).  Were it sent, with a token that is one, the reply's `map` keeps
the access token only: what the storage holds is the token that was just rotated, and presenting it
again revokes the family (`presented_again`).
-/

open Machinery

namespace WorkPlatform.Frontend

open Auth (authMachine IssueArgs Draw Env TokenPair AccessToken RefreshTokenRow)

/-! ## What a login answers -/

/-- The `data` of a reply, as far as texts and objects go. -/
inductive Data
  | text (s : String)
  | object (fields : List (String × Data))

/-- What stands under a key; nothing is `undefined`. -/
def Data.get (key : String) : Data → Option Data
  | .text _ => none
  | .object fields => fields.lookup key

/-- What `localStorage.setItem` keeps of a value. -/
def storedText : Option Data → String
  | none => "undefined"
  | some (.text s) => s
  | some (.object _) => "[object Object]"

/-- What `loginHandler` answers. -/
def loginData (user accessToken refreshToken : String) : Data :=
  .object [("tokens", .object [("accessToken", .text accessToken),
    ("refreshToken", .text refreshToken)]), ("user", .text user)]

section Login

variable {ι : Type*}

/-- The `map` of `login`: `res.data.accessToken` and `res.data.refreshToken` are stored. -/
def AuthClient.login (c : AuthClient ι) (user : String) (data : Data) : AuthClient ι :=
  c.signIn user (storedText (data.get "accessToken")) (storedText (data.get "refreshToken"))

/-- **A login stores no token**: both are under `tokens`. -/
theorem login_storage (c : AuthClient ι) (user accessToken refreshToken : String) :
    (c.login user (loginData user accessToken refreshToken)).storage
      = ⟨some "undefined", some "undefined"⟩ := rfl

end Login

/-! ## The session -/

/-- The browser, the server, and the refresh token the browser was last issued. -/
structure Session (ι : Type*) where
  client : AuthClient ι
  server : Auth.Store
  lastIssued : Option String

/-- A step of the browser that waits for no authentication endpoint; a sign-in; a POST that reaches
the server; or what happens around the two. -/
inductive SessionEvent (ι : Type*)
  | client (e : AuthEvent ι)
  | signIn (user : String) (args : IssueArgs) (d : Draw)
  | serve (post : ℕ) (d : Draw)
  | around (e : Env)

/-- An event in which no answer of an authentication endpoint arrives. -/
def AuthEvent.own {ι : Type*} : AuthEvent ι → Bool
  | .signIn .. | .handleSsoToken .. | .refreshed .. | .refreshFailed .. => false
  | _ => true

namespace Session

variable {ι : Type*} [DecidableEq ι] (cfg : Auth.Config) (sign : AccessToken → String)

/-- `issueTokenPair`, as the end of a sign-in. -/
def issue (s : Auth.Store) (args : IssueArgs) (d : Draw) : Option (Auth.Store × TokenPair) :=
  match (authMachine cfg).proceed d 2 (s, .issue args .generate) with
  | (s', .issue _ (.returned pair)) => some (s', pair)
  | _ => none

/-- `refreshTokenPair`, from its first statement to its last. -/
def exchange (s : Auth.Store) (raw : String) (d : Draw) : Auth.Store × Option TokenPair :=
  match (authMachine cfg).proceed d 7 (s, .refresh raw .find) with
  | (s', .refresh _ (.returned _ pair)) => (s', some pair)
  | (s', _) => (s', none)

/-- The POST reaches the server and its answer the browser; `validate` refuses a null. -/
def serve (s : Session ι) (post : ℕ) (d : Draw) : Option (Session ι) :=
  match s.client.posts[post]? with
  | some ⟨some raw, false⟩ =>
    match exchange cfg s.server raw d with
    | (server, some pair) => (s.client.refreshed post (sign pair.accessToken)).map fun c =>
      ⟨c, server, some pair.refreshToken⟩
    | (server, none) => (s.client.refreshFailed post).map fun c => ⟨c, server, s.lastIssued⟩
  | some ⟨none, false⟩ => (s.client.refreshFailed post).map fun c => { s with client := c }
  | _ => none

/-- One event. -/
def step (s : Session ι) : SessionEvent ι → Option (Session ι)
  | .client e => if e.own then (s.client.step e).map fun c => { s with client := c } else none
  | .signIn user args d => (issue cfg s.server args d).map fun x =>
    ⟨s.client.login user (loginData user (sign x.2.accessToken) x.2.refreshToken), x.1,
      some x.2.refreshToken⟩
  | .serve post d => s.serve cfg sign post d
  | .around e => some { s with server := Auth.env s.server e }

/-! ## Every refresh succeeds -/

/-- The server knows the token and takes it for unexpired. -/
def Unexpired (s : Session ι) (raw : String) : Prop :=
  ∃ row, s.server.findRefreshToken (cfg.hashToken raw) = some row ∧ s.server.now ≤ row.expiresAt

/-- **The refreshes succeed**: one that was asked for while the last refresh token issued is
unexpired is on its way with it, and no token on its way was rotated. -/
structure Refreshes (s : Session ι) : Prop where
  presented : s.client.refreshing = true → ∀ raw, s.lastIssued = some raw → s.Unexpired cfg raw →
    ⟨some raw, false⟩ ∈ s.client.posts
  unrotated : ∀ raw, ⟨some raw, false⟩ ∈ s.client.posts → ∀ row,
    s.server.findRefreshToken (cfg.hashToken raw) = some row → row.isRevoked = false

variable {cfg sign} {s s' : Session ι} {e : SessionEvent ι}

/-- No event of a session sends the POST. -/
theorem unissued_step (h : s.client.Unissued) (hs : s.step cfg sign e = some s') :
    s'.client.Unissued := by
  cases e with
  | client e =>
    rw [step] at hs
    split at hs
    · obtain ⟨c, hc, rfl⟩ := Option.map_eq_some_iff.mp hs
      exact h.step hc
    · cases hs
  | signIn user args d =>
    obtain ⟨x, -, rfl⟩ := Option.map_eq_some_iff.mp hs
    exact h.step (e := .signIn user "undefined" "undefined") rfl
  | serve post d =>
    rw [step, serve, h.posts] at hs
    cases hs
  | around e =>
    obtain rfl := Option.some.inj hs
    exact h

omit [DecidableEq ι] in
/-- Where none was sent, a session refreshes only if nothing was refused or nothing could be
presented. -/
theorem refreshes_iff_of_unissued (h : s.client.Unissued) :
    s.Refreshes cfg ↔ s.client.unauthorized = 0 ∨
      ∀ raw, s.lastIssued = some raw → ¬ s.Unexpired cfg raw := by
  constructor
  · intro hr
    rcases Nat.eq_zero_or_pos s.client.unauthorized with hzero | hpos
    · exact .inl hzero
    · refine .inr fun raw hraw hlive => ?_
      have hpost := hr.presented (h.raised.trans (decide_eq_true hpos)) raw hraw hlive
      rw [h.posts] at hpost
      cases hpost
  · intro hcase
    refine ⟨fun hraised raw hraw hlive => ?_, fun raw hpost => ?_⟩
    · rcases hcase with hzero | hexpired
      · rw [h.raised, hzero] at hraised
        cases hraised
      · exact absurd hlive (hexpired raw hraw)
    · rw [h.posts] at hpost
      cases hpost

end Session

/-- **Refreshes succeed exactly as long as none is asked for**, or the last refresh token issued has
expired. -/
theorem refreshes_iff {ι : Type*} [DecidableEq ι] {cfg : Auth.Config} {sign : AccessToken → String}
    {s₀ s : Session ι} (h₀ : s₀.client.Fresh) (h : Run (Session.step cfg sign) anyStep s₀ s) :
    s.Refreshes cfg ↔ s.client.unauthorized = 0 ∨
      ∀ raw, s.lastIssued = some raw → ¬ s.Unexpired cfg raw := by
  have hunissued : s.client.Unissued :=
    h.invariant (I := fun t => t.client.Unissued) h₀.unissued fun _ _ _ ht _ hs =>
      Session.unissued_step ht hs
  exact Session.refreshes_iff_of_unissued hunissued

/-! ### Two runs -/

/-- A browser nobody has signed in with. -/
def demoBrowsing : Session ℕ where
  client :=
    ⟨⟨none, none⟩, none, "/auth/login", none, false, none, fun _ => .unborn, [], 0, 0⟩
  server := Auth.demoSession
  lastIssued := none

theorem demoBrowsing_fresh : demoBrowsing.client.Fresh := ⟨fun _ => rfl, rfl, rfl, rfl, rfl⟩

def demoSignIn : SessionEvent ℕ :=
  .signIn "u" ⟨"u", "", .member, false, none⟩ (Auth.drawn "a1" "t1" "r1")

/-- The texts of access tokens are their `jti`. -/
def demoSign (token : AccessToken) : String := token.jti

/-- A session that has asked an auth URL only. -/
theorem refreshes_after_login :
    ∃ s, Run (Session.step Auth.demoConfig demoSign) anyStep demoBrowsing s ∧
      s.Refreshes Auth.demoConfig ∧ s.lastIssued = some "t1"
        ∧ s.client.requests 0 = .succeeded := by
  obtain ⟨s, hrun, hs⟩ := exists_run_of_exec (Session.step Auth.demoConfig demoSign) anyStep
    demoBrowsing
    [demoSignIn, .client (.send 0 "/api/v1/auth/verify-email"), .client (.answered 0 none)]
    (fun s => s.client.unauthorized = 0 ∧ s.lastIssued = some "t1"
      ∧ s.client.requests 0 = .succeeded) (by decide)
  obtain ⟨hnone, hlast, hdone⟩ := of_decide_eq_true hs
  exact ⟨s, hrun, (refreshes_iff demoBrowsing_fresh hrun).mpr (.inl hnone), hlast, hdone⟩

/-- **The first request**: it carries "undefined", and is answered 401; the refresh token has thirty
days to go, and no refresh is on its way. -/
theorem first_refresh_not_sent :
    ¬ ∀ s₀ s : Session ℕ, s₀.client.Fresh →
      Run (Session.step Auth.demoConfig demoSign) anyStep s₀ s → s.Refreshes Auth.demoConfig := by
  intro hrefreshes
  obtain ⟨s, hrun, hs⟩ := exists_run_of_exec (Session.step Auth.demoConfig demoSign) anyStep
    demoBrowsing [demoSignIn, .client (.send 0 "/api/v1/orgs/mine"),
      .client (.answered 0 (some 401)), .client (.subscribe 0)]
    (fun s => s.client.refreshing = true ∧ s.client.posts.length = 0 ∧ s.lastIssued = some "t1" ∧
      (s.server.findRefreshToken "t1").any (fun row => s.server.now ≤ row.expiresAt) = true)
    (by decide)
  obtain ⟨hraised, hposts, hlast, hlive⟩ := of_decide_eq_true hs
  obtain ⟨row, hrow, hunexpired⟩ := (Option.any_eq_true _ _).mp hlive
  have hpost := (hrefreshes demoBrowsing s demoBrowsing_fresh hrun).presented hraised "t1" hlast
    ⟨row, hrow, of_decide_eq_true hunexpired⟩
  rw [List.eq_nil_of_length_eq_zero hposts] at hpost
  cases hpost

/-! ## The token that is kept -/

section Kept

variable {cfg : Auth.Config}

/-- What a presentation keeps of the row it has found: it is in the table under the hash of the
token, and once it is spent it is revoked. -/
structure Presenting (cfg : Auth.Config) (raw : String) (x : Auth.Store × Auth.Call) : Prop where
  call : ∃ pc, x.2 = .refresh raw pc
  presents : x.2.Presents cfg
  traced : ∀ row, x.2.hold.taken = some row →
    ∃ r ∈ x.1.refreshTokens.rows, r.id = row.id ∧ r.tokenHash = row.tokenHash
  spent : ∀ row, x.2.hold.spent = some row →
    ∀ r ∈ x.1.refreshTokens.rows, r.id = row.id → r.isRevoked = true

/-- A refresh by itself goes on presenting the token it has. -/
theorem Presenting.next {raw : String} {s s' : Auth.Store} {c c' : Auth.Call} {d : Draw}
    (h : Presenting cfg raw (s, c)) (hn : (authMachine cfg).next s c d = some (s', c')) :
    Presenting cfg raw (s', c') := by
  have hn : Auth.next cfg s c d = some (s', c') := hn
  have hs := Auth.tokenStep_of_next hn
  refine ⟨?_, Auth.presents_next hn h.presents, fun row hrow => ?_, fun row hrow => ?_⟩
  · obtain ⟨pc, rfl⟩ := h.call
    obtain ⟨pc', -, rfl⟩ := pc_of_next hn
    exact ⟨pc', rfl⟩
  · have hold : ∃ r ∈ s.refreshTokens.rows, r.id = row.id ∧ r.tokenHash = row.tokenHash := by
      rcases Auth.taken_step hs hrow with hold | ⟨-, -, hmem, -⟩
      · exact h.traced row hold
      · exact ⟨row, hmem, rfl, rfl⟩
    obtain ⟨r, hr, hid, hhash⟩ := hold
    obtain ⟨r', hr', hid', -, hhash'⟩ := Auth.mem_step hs hr
    exact ⟨r', hr', hid'.trans hid, hhash'.trans hhash⟩
  · rcases Auth.spent_step hs hrow with hold | hnew
    · obtain ⟨r, hr, hid, -⟩ := h.traced row (Auth.taken_of_spent hold)
      exact Auth.revoked_step hs ⟨r, hr, hid⟩ (h.spent row hold)
    · exact hnew

/-- A presentation that returned has revoked the row of the token presented. -/
theorem revoked_of_returned {raw : String} {s s' : Auth.Store} {row : RefreshTokenRow}
    {pair : TokenPair} (h : (authMachine cfg).Alone (s, .refresh raw .find)
      (s', .refresh raw (.returned row pair))) :
    ∃ r, s'.findRefreshToken (cfg.hashToken raw) = some r ∧ r.isRevoked = true := by
  have hend : Presenting cfg raw (s', .refresh raw (.returned row pair)) := by
    refine h.invariant ⟨⟨.find, rfl⟩, ?_, ?_, ?_⟩ fun _ _ _ _ _ hx hn => hx.next hn
    all_goals exact fun row hrow => nomatch hrow
  obtain ⟨r, hr, hid, hhash⟩ := hend.traced row rfl
  have hraw : r.tokenHash = cfg.hashToken raw := hhash.trans (hend.presents row rfl)
  cases hfind : s'.findRefreshToken (cfg.hashToken raw) with
  | none =>
    have hnone := List.find?_eq_none.mp hfind r hr
    exact absurd (decide_eq_true hraw) hnone
  | some r' =>
    obtain ⟨hr', hhash'⟩ := Auth.findRefreshToken_mem hfind
    obtain rfl := Auth.RefreshTokens.eq_of_hash_eq hr' hr (hhash'.trans hraw.symm)
    exact ⟨r', rfl, hend.spent row rfl r' hr hid⟩

/-- **Were the POST sent, the next one would present the token that was just rotated**: the reply
leaves the stored refresh token as it was, and the server answers it by revoking the family. -/
theorem presented_again {ι : Type*} [DecidableEq ι] {c : AuthClient ι} {raw : String}
    {s s' : Auth.Store} {row : RefreshTokenRow} {pair : TokenPair}
    (hc : c.storage.refreshToken = some raw)
    (h : (authMachine cfg).Alone (s, .refresh raw .find) (s', .refresh raw (.returned row pair)))
    (accessToken : String) (d : Draw) :
    (c.storeRefreshed accessToken).refreshToken.1.refreshTokenObservable =
        some (.post (some raw)) ∧
      ∃ r, Auth.refreshNext cfg s' d raw .find = some (s', .revokeFamily r) := by
  obtain ⟨r, hfind, hrevoked⟩ := revoked_of_returned h
  refine ⟨?_, r, ?_⟩
  · rw [← hc]
    rfl
  · rw [Auth.refreshNext, hfind, Auth.RefreshPc.found, if_pos hrevoked]

end Kept

end WorkPlatform.Frontend

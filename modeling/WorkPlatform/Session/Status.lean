import WorkPlatform.Realtime.SocketSession
import WorkPlatform.Session.Standing

/-!
# Session/Status — who is kept out by the status of an account

    login, verifyLink     users.deleted_at      (of the row they find)
    refreshTokenPair      users.deleted_at
    handleCallback        nothing, where a provider names the user; else users.deleted_at
    jwtMiddleware         users.status = 'deleted'
    socket revalidation   users.status ≠ 'active'

A suspended user is turned away by the last of them only.  All six agree on an account that is not
active exactly where it is deleted, in its status and its date, and no SAML provider names it
(`entry_points_agree_iff`).
-/

namespace WorkPlatform.Session

open Machinery
open Auth (AccessToken TokenPair UserRow UserStatus Minted)

/-! ## The account and its stores -/

/-- An account: its row, and whether a SAML provider names it. -/
structure AccountState where
  row : UserRow
  linked : Bool

/-- The stores show the account, the replica and the cache as well. -/
structure Shows (s : Store) (id : String) (a : AccountState) : Prop where
  primary : s.login.auth.primary.users id = some a.row
  replica : s.login.auth.replica.users id = some a.row
  cache : ∀ x ∈ s.login.auth.userCache id, x.value = ⟨id, a.row.status, a.row.passwordChangedAt⟩
  linked : a.linked = true ↔ ∃ key, s.samlProvidersReplica key = some id

/-- What the socket server sees of the tables. -/
def Store.socketTables (s : Store) : SocketSession.Tables :=
  ⟨s.login.auth.replica.users, s.replica.memberships⟩

/-- **Every entry point turns the account away**: no pair is issued for it, no token of it is
accepted, no tick keeps a socket of it. -/
structure Refuses (cfg : Config) (s : Store) (id : String) : Prop where
  login : ∀ email password orgId s' pair,
    (sessionMachine cfg).Alone (s, .login email password orgId .find)
      (s', .login email password orgId (.returned pair)) → pair.accessToken.sub ≠ id
  refresh : ∀ raw s' row pair,
    (sessionMachine cfg).Alone (s, .refresh raw .find) (s', .refresh raw (.returned row pair)) →
      pair.accessToken.sub ≠ id
  verifyLink : ∀ token s' pair,
    (sessionMachine cfg).Alone (s, .verifyLink token .get)
      (s', .verifyLink token (.returned pair)) → pair.accessToken.sub ≠ id
  saml : ∀ orgId samlResponse s' pair,
    (sessionMachine cfg).Alone (s, .saml orgId samlResponse .flag)
      (s', .saml orgId samlResponse (.returned pair)) → pair.accessToken.sub ≠ id
  jwt : ∀ token s',
    (Auth.authMachine cfg.toConfig).Alone (s.loginStore.auth, .authenticate token .verify)
      (s', .authenticate token .accepted) → token.sub ≠ id
  socket : ∀ (w w' : SocketSession.Store String) signed k token, w.replica = s.socketTables →
    w.sockets k = .connected token →
      (SocketSession.socketMachine signed).Alone (w, .check k .selectUser) (w', .check k .kept) →
        token.sub ≠ id

/-! ## The sockets -/

section Sockets

open SocketSession (CheckPc)

/-- What a tick makes of a user who is not active. -/
def FindsInactive (tables : SocketSession.Tables) (token : AccessToken) (k : String)
    (x : SocketSession.Store String × SocketSession.Call String) : Prop :=
  x.1.replica = tables ∧ ∃ pc, x.2 = .check k pc ∧
    (pc = .selectUser ∧ x.1.sockets k = .connected token ∨ pc = .dropped ∨ pc = .failed
      ∨ ∃ user, pc = .selectMembership token user ∧ user ≠ some .active)

/-- A handler that meets an inactive user goes on to refuse the socket. -/
theorem findsInactive_next {tables : SocketSession.Tables} {token : AccessToken}
    (hinactive : tables.userStatus token.sub ≠ some .active) {signed : AccessToken → Bool}
    {k : String} {s s' : SocketSession.Store String} {c c' : SocketSession.Call String}
    {d : SocketSession.Draw} (hc : FindsInactive tables token k (s, c))
    (h : SocketSession.next signed s c d = some (s', c')) :
    FindsInactive tables token k (s', c') := by
  obtain ⟨hreplica, pc, rfl, hpc⟩ := hc
  obtain ⟨pc', hnext, rfl⟩ := pc_of_next h
  dsimp only at hreplica hpc
  rcases hpc with ⟨rfl, hsocket⟩ | rfl | rfl | ⟨user, rfl, huser⟩
  · unfold SocketSession.checkNext at hnext
    dsimp only at hnext
    rw [hsocket] at hnext
    obtain ⟨rfl, rfl⟩ := Prod.mk.inj (Option.some.inj hnext)
    refine ⟨hreplica, _, rfl, ?_⟩
    split
    · refine Or.inr (Or.inr (Or.inr ⟨_, rfl, ?_⟩))
      rw [hreplica]
      exact hinactive
    · exact Or.inr (Or.inr (Or.inl rfl))
  · cases hnext
  · cases hnext
  · unfold SocketSession.checkNext at hnext
    dsimp only at hnext
    split at hnext
    · split at hnext
      · obtain ⟨rfl, rfl⟩ := Prod.mk.inj (Option.some.inj hnext)
        exact ⟨hreplica, _, rfl, Or.inr (Or.inl rfl)⟩
      · rename_i hactive
        simp [SocketSession.expired, huser] at hactive
    · obtain ⟨rfl, rfl⟩ := Prod.mk.inj (Option.some.inj hnext)
      exact ⟨hreplica, _, rfl, Or.inr (Or.inr (Or.inl rfl))⟩

/-- **A tick drops whoever is not active.** -/
theorem socket_refuses {s : Store} {id : String} {a : AccountState} (h : Shows s id a)
    (hinactive : a.row.status ≠ .active) {w w' : SocketSession.Store String}
    {signed : AccessToken → Bool} {k : String} {token : AccessToken}
    (hw : w.replica = s.socketTables) (hk : w.sockets k = .connected token)
    (hrun : (SocketSession.socketMachine signed).Alone (w, .check k .selectUser)
      (w', .check k .kept)) : token.sub ≠ id := by
  rintro rfl
  have hstatus : s.socketTables.userStatus token.sub ≠ some .active := by
    have hrow : s.socketTables.userStatus token.sub = some a.row.status := by
      show (s.login.auth.replica.users token.sub).map (·.status) = some a.row.status
      rw [h.replica]
      rfl
    rw [hrow]
    exact fun heq => hinactive (Option.some.inj heq)
  have hend := hrun.invariant (I := FindsInactive s.socketTables token k)
    ⟨hw, _, rfl, Or.inl ⟨rfl, hk⟩⟩ fun _ _ _ _ _ hI hn => findsInactive_next hstatus hI hn
  obtain ⟨-, pc, heq, hpc⟩ := hend
  cases heq
  rcases hpc with ⟨hpc, -⟩ | hpc | hpc | ⟨user, hpc, -⟩ <;> cases hpc

end Sockets

/-! ## The requests -/

section Requests

open Auth (AuthPc CachedUser checkUser)

/-- The primary and the cache know the user as deleted. -/
structure KnownDeleted (a : Auth.Store) (id : String) : Prop where
  primary : ∀ u ∈ a.primary.users id, u.status = .deleted
  cache : ∀ x ∈ a.userCache id, x.value.status = .deleted

/-- What a request of a deleted user comes to. -/
def AuthPc.Denied : AuthPc → Prop
  | .setex user => user.status = .deleted
  | .accepted => False
  | _ => True

theorem checkUser_denied {token : AccessToken} {user : CachedUser}
    (h : user.status = .deleted) : AuthPc.Denied (checkUser token user) := by
  rw [checkUser, if_pos h]
  trivial

theorem live_mem {α : Type} {a : Auth.Store} {v : Option (Auth.Expiring α)} {x : α}
    (h : a.live v = some x) : ∃ y ∈ v, y.value = x := by
  obtain ⟨y, hy, rfl⟩ := Option.map_eq_some_iff.mp h
  exact ⟨y, (Option.mem_filter_iff.mp hy).1, rfl⟩

/-- The middleware goes on to refuse a deleted user. -/
theorem denied_next {a a' : Auth.Store} {token : AccessToken} {pc pc' : AuthPc} {d : Auth.Draw}
    (hknown : KnownDeleted a token.sub) (hpc : AuthPc.Denied pc)
    (h : Auth.authNext a d token pc = some (a', pc')) :
    KnownDeleted a' token.sub ∧ AuthPc.Denied pc' := by
  cases pc with
  | verify =>
    obtain ⟨rfl, rfl⟩ := Prod.mk.inj (Option.some.inj h)
    refine ⟨hknown, ?_⟩
    split <;> trivial
  | blacklist =>
    obtain ⟨rfl, rfl⟩ := Prod.mk.inj (Option.some.inj h)
    refine ⟨hknown, ?_⟩
    split <;> trivial
  | cacheGet =>
    obtain ⟨rfl, rfl⟩ := Prod.mk.inj (Option.some.inj h)
    refine ⟨hknown, ?_⟩
    split
    · rename_i user hcached
      obtain ⟨y, hy, rfl⟩ := live_mem hcached
      split
      · exact checkUser_denied (hknown.cache y hy)
      · trivial
    · trivial
  | select =>
    obtain ⟨rfl, rfl⟩ := Prod.mk.inj (Option.some.inj h)
    refine ⟨hknown, ?_⟩
    split
    · rename_i user hselect
      obtain ⟨u, hu, rfl⟩ := Option.map_eq_some_iff.mp hselect
      exact hknown.primary u hu
    · trivial
  | setex user =>
    obtain ⟨rfl, rfl⟩ := Prod.mk.inj (Option.some.inj h)
    refine ⟨?_, checkUser_denied hpc⟩
    split
    · refine ⟨hknown.primary, fun x hx => ?_⟩
      have hself : (a.setUserCache token.sub user).userCache token.sub
          = some ⟨user, a.now + Auth.Store.userCacheTtl⟩ := Function.update_self ..
      rw [hself] at hx
      obtain rfl := Option.some.inj hx
      exact hpc
    · exact hknown
  | accepted => cases h
  | threw e => cases h

/-- **No request of a deleted user is accepted.** -/
theorem jwt_refuses {cfg : Auth.Config} {a a' : Auth.Store} {id : String}
    (h : KnownDeleted a id) {token : AccessToken}
    (hrun : (Auth.authMachine cfg).Alone (a, .authenticate token .verify)
      (a', .authenticate token .accepted)) : token.sub ≠ id := by
  rintro rfl
  refine Machine.Alone.part (f := Auth.Call.authenticate token) (J := (KnownDeleted · token.sub))
    (P := AuthPc.Denied) (fun _ _ heq => (Auth.Call.authenticate.inj heq).2) h
    (show AuthPc.Denied .verify from trivial) ?_ hrun
  intro a pc d a' c' hknown hpc hn
  obtain ⟨pc', hnext, rfl⟩ := pc_of_next hn
  exact ⟨pc', rfl, denied_next hknown hpc hnext⟩

end Requests

/-! ## The services -/

section Services

open Auth (LoginPc RefreshPc LinkPc)

/-- The replica shows the user as deleted. -/
def GoneOnReplica (a : Auth.Store) (id : String) : Prop :=
  ∀ u ∈ a.replica.users id, u.deleted = true

theorem findUserById_ne {a : Auth.Store} {id id' : String} {u : UserRow}
    (h : GoneOnReplica a id) (hfind : a.findUserById id' = some u) : id' ≠ id := by
  rintro rfl
  obtain ⟨hmem, hlive⟩ := Option.mem_filter_iff.mp hfind
  simp [h u hmem] at hlive

theorem findUserByEmail_ne {l : Auth.LoginStore} {id email : String} {user : Auth.Account}
    (h : GoneOnReplica l.auth id) (hfind : l.findUserByEmail email = some user) :
    user.id ≠ id := by
  unfold Auth.LoginStore.findUserByEmail at hfind
  simp only [Option.bind_eq_bind, Option.pure_def, Option.bind_eq_some_iff,
    Option.some.injEq] at hfind
  obtain ⟨id', -, row, hrow, rfl⟩ := hfind
  exact findUserById_ne h hrow

/-- The call deals with somebody else. -/
def LoginPc.Spares (id : String) : LoginPc → Prop
  | .verify user _ | .threshold user _ | .increment user _ | .lock user _ | .reset user
  | .touch user | .lookupRole user _ => user.id ≠ id
  | .insert m | .audit m => m.accessToken.sub ≠ id
  | .returned pair => pair.accessToken.sub ≠ id
  | .find | .threw _ | .failed => True

/-- The refresh deals with somebody else. -/
def RefreshPc.Spares (id : String) : RefreshPc → Prop
  | .lookupRole row _ _ | .revoke row _ _ => row.userId ≠ id
  | .insert _ m | .updateJti _ m _ => m.accessToken.sub ≠ id
  | .returned _ pair => pair.accessToken.sub ≠ id
  | _ => True

/-- The magic link deals with somebody else. -/
def LinkPc.Spares (id : String) : LinkPc → Prop
  | .verify v _ => v.userId ≠ id
  | .insert m => m.accessToken.sub ≠ id
  | .returned pair => pair.accessToken.sub ≠ id
  | _ => True

/-- The callback deals with somebody else. -/
def SamlPc.Spares (id : String) : SamlPc → Prop
  | .preferences _ userId | .verifyEmail _ userId | .provider _ userId | .lookupRole userId
  | .audit userId _ => userId ≠ id
  | .insert m => m.accessToken.sub ≠ id
  | .returned pair => pair.accessToken.sub ≠ id
  | _ => True

variable {id : String}

theorem evaluate_auth (cfg : Auth.LoginConfig) (l : Auth.LoginStore) (password : String)
    (user : Auth.Account) (locked : Bool) :
    (l.evaluate cfg password user locked).auth = l.auth := by
  unfold Auth.LoginStore.evaluate
  split <;> rfl

/-- A statement of `login` deals with nobody whom the replica shows as deleted. -/
theorem spares_login {cfg : Auth.LoginConfig} {l l' : Auth.LoginStore} {d : Auth.Draw}
    {email password : String} {orgId : Option String} {pc pc' : LoginPc}
    (hgone : GoneOnReplica l.auth id) (hpc : LoginPc.Spares id pc)
    (h : Auth.loginNext cfg l d email password orgId pc = some (l', pc')) :
    GoneOnReplica l'.auth id ∧ LoginPc.Spares id pc' := by
  cases pc with
  | find =>
    obtain ⟨rfl, rfl⟩ := Prod.mk.inj (Option.some.inj h)
    refine ⟨hgone, ?_⟩
    cases hfind : l.findUserByEmail (cfg.normalizeEmail email) with
    | none => trivial
    | some user =>
      unfold LoginPc.found
      dsimp only
      repeat' split
      · trivial
      · trivial
      · exact findUserByEmail_ne hgone hfind
  | verify user locked =>
    obtain ⟨rfl, rfl⟩ := Prod.mk.inj (Option.some.inj h)
    refine ⟨?_, ?_⟩
    · rw [evaluate_auth]
      exact hgone
    unfold LoginPc.verified
    repeat' split
    all_goals exact hpc
  | threshold user org =>
    obtain ⟨rfl, rfl⟩ := Prod.mk.inj (Option.some.inj h)
    exact ⟨hgone, hpc⟩
  | increment user lockoutAttempts =>
    obtain ⟨rfl, rfl⟩ := Prod.mk.inj (Option.some.inj h)
    refine ⟨hgone, ?_⟩
    unfold LoginPc.counted
    split
    · exact hpc
    · trivial
  | lock user lockUntil =>
    obtain ⟨rfl, rfl⟩ := Prod.mk.inj (Option.some.inj h)
    exact ⟨hgone, trivial⟩
  | reset user =>
    obtain ⟨rfl, rfl⟩ := Prod.mk.inj (Option.some.inj h)
    exact ⟨hgone, hpc⟩
  | touch user =>
    unfold Auth.loginNext at h
    dsimp only at h
    split at h
    · obtain ⟨rfl, rfl⟩ := Prod.mk.inj (Option.some.inj h)
      exact ⟨hgone, hpc⟩
    · obtain ⟨rfl, rfl⟩ := Prod.mk.inj (Option.some.inj h)
      exact ⟨hgone, hpc⟩
  | lookupRole user org =>
    unfold Auth.loginNext at h
    dsimp only at h
    split at h
    · obtain ⟨rfl, rfl⟩ := Prod.mk.inj (Option.some.inj h)
      exact ⟨hgone, hpc⟩
    · obtain ⟨rfl, rfl⟩ := Prod.mk.inj (Option.some.inj h)
      exact ⟨hgone, trivial⟩
  | insert m =>
    unfold Auth.loginNext at h
    dsimp only at h
    split at h
    · rename_i a hins
      obtain ⟨rfl, rfl⟩ := Prod.mk.inj (Option.some.inj h)
      obtain ⟨t, -, rfl⟩ := Auth.Store.createRefreshToken_eq hins
      exact ⟨hgone, hpc⟩
    · obtain ⟨rfl, rfl⟩ := Prod.mk.inj (Option.some.inj h)
      exact ⟨hgone, trivial⟩
  | audit m =>
    obtain ⟨rfl, rfl⟩ := Prod.mk.inj (Option.some.inj h)
    exact ⟨hgone, hpc⟩
  | returned pair => cases h
  | threw e => cases h
  | failed => cases h

/-- Nor does a statement of a refresh. -/
theorem spares_refresh {cfg : Auth.Config} {a a' : Auth.Store} {d : Auth.Draw} {raw : String}
    {pc pc' : RefreshPc} (hgone : GoneOnReplica a id) (hpc : RefreshPc.Spares id pc)
    (h : Auth.refreshNext cfg a d raw pc = some (a', pc')) :
    GoneOnReplica a' id ∧ RefreshPc.Spares id pc' := by
  cases pc with
  | find =>
    obtain ⟨rfl, rfl⟩ := Prod.mk.inj (Option.some.inj h)
    refine ⟨hgone, ?_⟩
    cases a.findRefreshToken (cfg.hashToken raw) with
    | none => trivial
    | some row =>
      unfold RefreshPc.found
      dsimp only
      repeat' split
      all_goals trivial
  | revokeFamily row =>
    obtain ⟨rfl, rfl⟩ := Prod.mk.inj (Option.some.inj h)
    refine ⟨hgone, ?_⟩
    unfold RefreshPc.reused
    split <;> trivial
  | blacklist row jti =>
    unfold Auth.refreshNext at h
    dsimp only at h
    split at h
    · rename_i s₁ hs₁
      obtain ⟨rfl, rfl⟩ := Prod.mk.inj (Option.some.inj h)
      obtain rfl := Auth.Store.blacklistToken_eq hs₁
      exact ⟨hgone, trivial⟩
    · obtain ⟨rfl, rfl⟩ := Prod.mk.inj (Option.some.inj h)
      exact ⟨hgone, trivial⟩
  | lookupUser row =>
    obtain ⟨rfl, rfl⟩ := Prod.mk.inj (Option.some.inj h)
    refine ⟨hgone, ?_⟩
    cases hfind : a.findUserById row.userId with
    | none => trivial
    | some user =>
      unfold RefreshPc.lookedUp
      dsimp only
      split <;> exact findUserById_ne hgone hfind
  | lookupRole row orgId isPlatformAdmin =>
    obtain ⟨rfl, rfl⟩ := Prod.mk.inj (Option.some.inj h)
    exact ⟨hgone, hpc⟩
  | revoke row isPlatformAdmin role =>
    obtain ⟨rfl, rfl⟩ := Prod.mk.inj (Option.some.inj h)
    exact ⟨hgone, hpc⟩
  | insert row m =>
    unfold Auth.refreshNext at h
    dsimp only at h
    split at h
    · rename_i s₁ hins
      obtain ⟨rfl, rfl⟩ := Prod.mk.inj (Option.some.inj h)
      obtain ⟨t, -, rfl⟩ := Auth.Store.createRefreshToken_eq hins
      exact ⟨hgone, hpc⟩
    · obtain ⟨rfl, rfl⟩ := Prod.mk.inj (Option.some.inj h)
      exact ⟨hgone, trivial⟩
  | updateJti row m newId =>
    obtain ⟨rfl, rfl⟩ := Prod.mk.inj (Option.some.inj h)
    exact ⟨hgone, hpc⟩
  | _ => cases h

theorem updateUser_replica (a : Auth.Store) (id : String) (f : UserRow → UserRow) :
    (a.updateUser id f).replica = a.replica := by
  unfold Auth.Store.updateUser
  repeat' split
  all_goals rfl

/-- An update removes no user. -/
theorem updateUser_isSome (a : Auth.Store) (userId : String) (f : UserRow → UserRow)
    (h : (a.primary.users id).isSome) : ((a.updateUser userId f).primary.users id).isSome := by
  unfold Auth.Store.updateUser
  split
  · exact h
  · split
    · exact h
    · dsimp only
      by_cases hid : id = userId
      · subst hid
        rw [Function.update_self]
        rfl
      · rw [Function.update_of_ne hid]
        exact h

/-- Nor does a statement of `verifyLink`. -/
theorem spares_link {cfg : Auth.Config} {a a' : Auth.Store} {d : Auth.Draw} {token : String}
    {pc pc' : LinkPc} (hgone : GoneOnReplica a id) (hpc : LinkPc.Spares id pc)
    (h : Auth.linkNext cfg a d token pc = some (a', pc')) :
    GoneOnReplica a' id ∧ LinkPc.Spares id pc' := by
  cases pc with
  | get =>
    obtain ⟨rfl, rfl⟩ := Prod.mk.inj (Option.some.inj h)
    refine ⟨hgone, ?_⟩
    split <;> trivial
  | del v =>
    obtain ⟨rfl, rfl⟩ := Prod.mk.inj (Option.some.inj h)
    exact ⟨hgone, trivial⟩
  | findUser v =>
    unfold Auth.linkNext at h
    dsimp only at h
    split at h
    · obtain ⟨rfl, rfl⟩ := Prod.mk.inj (Option.some.inj h)
      exact ⟨hgone, trivial⟩
    · rename_i user hfind
      split at h
      · obtain ⟨rfl, rfl⟩ := Prod.mk.inj (Option.some.inj h)
        exact ⟨hgone, findUserById_ne hgone hfind⟩
      · obtain ⟨rfl, rfl⟩ := Prod.mk.inj (Option.some.inj h)
        exact ⟨hgone, findUserById_ne hgone hfind⟩
  | verify v isPlatformAdmin =>
    obtain ⟨rfl, rfl⟩ := Prod.mk.inj (Option.some.inj h)
    refine ⟨?_, hpc⟩
    show GoneOnReplica (a.updateUser v.userId .verifyEmail) id
    rw [GoneOnReplica, updateUser_replica]
    exact hgone
  | insert m =>
    unfold Auth.linkNext at h
    dsimp only at h
    split at h
    · rename_i s₁ hins
      obtain ⟨rfl, rfl⟩ := Prod.mk.inj (Option.some.inj h)
      obtain ⟨t, -, rfl⟩ := Auth.Store.createRefreshToken_eq hins
      exact ⟨hgone, hpc⟩
    · obtain ⟨rfl, rfl⟩ := Prod.mk.inj (Option.some.inj h)
      exact ⟨hgone, trivial⟩
  | returned pair => cases h
  | threw e => cases h
  | failed => cases h

/-- The user is gone, and has not been heard of by SAML. -/
structure Closed (s : Store) (id : String) : Prop where
  replica : GoneOnReplica s.login.auth id
  primary : (s.login.auth.primary.users id).isSome
  provider : ∀ key, s.samlProvidersReplica key ≠ some id

/-- A new user is not the one who is gone: the primary knows that one. -/
theorem closed_createUser {s : Store} {l : Auth.LoginStore} {newId email : String} {verified : Bool}
    (hclosed : Closed s id)
    (hcreate : Organization.createUser s.login newId email verified = some l) :
    Closed (s.putLogin l) id ∧ newId ≠ id := by
  obtain ⟨hnew, users, primary, husers, rfl⟩ := Organization.createUser_spec hcreate
  have hne : newId ≠ id := by
    rintro rfl
    exact Bool.false_ne_true (hnew.symm.trans hclosed.primary)
  refine ⟨⟨hclosed.replica, ?_, hclosed.provider⟩, hne⟩
  show (users id).isSome
  rw [husers, Function.update_of_ne hne.symm]
  exact hclosed.primary

theorem closed_updateUser {s : Store} {userId : String} {f : UserRow → UserRow}
    (hclosed : Closed s id) : Closed (s.putAuth (s.login.auth.updateUser userId f)) id := by
  refine ⟨?_, updateUser_isSome _ _ _ hclosed.primary, hclosed.provider⟩
  show GoneOnReplica (s.login.auth.updateUser userId f) id
  rw [GoneOnReplica, updateUser_replica]
  exact hclosed.replica

/-- Nor does a statement of `handleCallback`, where the user is not linked: it finds users on the
replica, and a new one has an id that nobody has. -/
theorem spares_saml {cfg : Config} {s s' : Store} {d : Draw} {orgId samlResponse : String}
    {pc pc' : SamlPc} (hclosed : Closed s id) (hpc : pc.Spares id)
    (h : samlNext cfg s d orgId samlResponse pc = some (s', pc')) :
    Closed s' id ∧ pc'.Spares id := by
  cases pc with
  | flag | config | replay assertionId email =>
    obtain ⟨rfl, rfl⟩ := Prod.mk.inj (Option.some.inj h)
    refine ⟨hclosed, ?_⟩
    split <;> trivial
  | validate saml =>
    obtain ⟨rfl, rfl⟩ := Prod.mk.inj (Option.some.inj h)
    refine ⟨hclosed, ?_⟩
    unfold SamlPc.validated
    repeat' split
    all_goals trivial
  | insertAssertion assertionId email =>
    unfold samlNext at h
    dsimp only at h
    split at h
    · obtain ⟨rfl, rfl⟩ := Prod.mk.inj (Option.some.inj h)
      exact ⟨hclosed, trivial⟩
    · obtain ⟨rfl, rfl⟩ := Prod.mk.inj (Option.some.inj h)
      exact ⟨⟨hclosed.replica, hclosed.primary, hclosed.provider⟩, trivial⟩
  | findProvider email =>
    obtain ⟨rfl, rfl⟩ := Prod.mk.inj (Option.some.inj h)
    refine ⟨hclosed, ?_⟩
    split
    · rename_i userId hprovider
      rintro rfl
      exact hclosed.provider _ hprovider
    · trivial
  | findUser email =>
    obtain ⟨rfl, rfl⟩ := Prod.mk.inj (Option.some.inj h)
    refine ⟨hclosed, ?_⟩
    split
    · trivial
    · rename_i user hfind
      split <;> exact findUserByEmail_ne hclosed.replica hfind
  | createUser email =>
    unfold samlNext at h
    dsimp only at h
    split at h
    · rename_i l hcreate
      obtain ⟨rfl, rfl⟩ := Prod.mk.inj (Option.some.inj h)
      exact closed_createUser hclosed hcreate
    · obtain ⟨rfl, rfl⟩ := Prod.mk.inj (Option.some.inj h)
      exact ⟨hclosed, trivial⟩
  | preferences email userId =>
    obtain ⟨rfl, rfl⟩ := Prod.mk.inj (Option.some.inj h)
    exact ⟨hclosed, hpc⟩
  | verifyEmail email userId =>
    obtain ⟨rfl, rfl⟩ := Prod.mk.inj (Option.some.inj h)
    exact ⟨closed_updateUser hclosed, hpc⟩
  | provider email userId =>
    unfold samlNext at h
    dsimp only at h
    split at h
    · obtain ⟨rfl, rfl⟩ := Prod.mk.inj (Option.some.inj h)
      exact ⟨hclosed, trivial⟩
    · obtain ⟨rfl, rfl⟩ := Prod.mk.inj (Option.some.inj h)
      exact ⟨⟨hclosed.replica, hclosed.primary, hclosed.provider⟩, hpc⟩
  | lookupRole userId =>
    obtain ⟨rfl, rfl⟩ := Prod.mk.inj (Option.some.inj h)
    exact ⟨hclosed, hpc⟩
  | audit userId role =>
    obtain ⟨rfl, rfl⟩ := Prod.mk.inj (Option.some.inj h)
    exact ⟨⟨hclosed.replica, hclosed.primary, hclosed.provider⟩, hpc⟩
  | insert m =>
    unfold samlNext at h
    dsimp only at h
    split at h
    · rename_i a hins
      obtain ⟨rfl, rfl⟩ := Prod.mk.inj (Option.some.inj h)
      obtain ⟨t, -, rfl⟩ := Auth.Store.createRefreshToken_eq hins
      exact ⟨⟨hclosed.replica, hclosed.primary, hclosed.provider⟩, hpc⟩
    · obtain ⟨rfl, rfl⟩ := Prod.mk.inj (Option.some.inj h)
      exact ⟨hclosed, trivial⟩
  | returned pair => cases h
  | threw e => cases h
  | failed => cases h

end Services

/-! ## An account that everybody turns away -/

/-- A user that is deleted and not linked is refused by every service. -/
theorem refuses_of_deleted {cfg : Config} {s : Store} {id : String} {a : AccountState}
    (h : Shows s id a) (hstatus : a.row.status = .deleted) (hdeleted : a.row.deleted = true)
    (hlinked : a.linked = false) : Refuses cfg s id := by
  have hreplica : GoneOnReplica s.login.auth id := by
    intro u hu
    obtain rfl := Option.some.inj (h.replica.symm.trans hu)
    exact hdeleted
  have hclosed : Closed s id := by
    refine ⟨hreplica, ?_, fun key hkey => ?_⟩
    · rw [h.primary]
      rfl
    · have hlink := h.linked.mpr ⟨key, hkey⟩
      rw [hlinked] at hlink
      cases hlink
  have hknown : KnownDeleted s.loginStore.auth id := by
    refine ⟨fun u hu => ?_, fun x hx => ?_⟩
    · obtain rfl := Option.some.inj (h.primary.symm.trans hu)
      exact hstatus
    · rw [h.cache x hx]
      exact hstatus
  have hinactive : a.row.status ≠ .active := by
    rw [hstatus]
    nofun
  refine ⟨fun email password orgId s' pair hrun => ?_, fun raw s' row pair hrun => ?_,
    fun token s' pair hrun => ?_, fun orgId samlResponse s' pair hrun => ?_,
    fun token s' => jwt_refuses hknown, fun w w' signed k token => socket_refuses h hinactive⟩
  · refine Machine.Alone.part (f := Call.login email password orgId) (P := LoginPc.Spares id)
      (J := (GoneOnReplica ·.login.auth id)) (fun _ _ heq => (Call.login.inj heq).2.2.2) hreplica
      (show LoginPc.Spares id .find from trivial) ?_ hrun
    intro s pc d s' c' hgone hpc hn
    obtain ⟨l, pc', hnext, rfl, rfl⟩ := part_of_next hn
    exact ⟨pc', rfl, spares_login (l := s.loginStore) hgone hpc hnext⟩
  · refine Machine.Alone.part (f := Call.refresh raw) (P := RefreshPc.Spares id)
      (J := (GoneOnReplica ·.login.auth id)) (fun _ _ heq => (Call.refresh.inj heq).2) hreplica
      (show RefreshPc.Spares id .find from trivial) ?_ hrun
    intro s pc d s' c' hgone hpc hn
    obtain ⟨l, pc', hnext, rfl, rfl⟩ := part_of_next hn
    exact ⟨pc', rfl, spares_refresh (a := s.loginStore.auth) hgone hpc hnext⟩
  · refine Machine.Alone.part (f := Call.verifyLink token) (P := LinkPc.Spares id)
      (J := (GoneOnReplica ·.login.auth id)) (fun _ _ heq => (Call.verifyLink.inj heq).2) hreplica
      (show LinkPc.Spares id .get from trivial) ?_ hrun
    intro s pc d s' c' hgone hpc hn
    obtain ⟨l, pc', hnext, rfl, rfl⟩ := part_of_next hn
    exact ⟨pc', rfl, spares_link (a := s.loginStore.auth) hgone hpc hnext⟩
  · refine Machine.Alone.part (f := Call.saml orgId samlResponse) (P := SamlPc.Spares id)
      (J := (Closed · id)) (fun _ _ heq => (Call.saml.inj heq).2.2) hclosed
      (show SamlPc.Spares id .flag from trivial) ?_ hrun
    intro s pc d s' c' hclosed hpc hn
    obtain ⟨pc', hnext, rfl⟩ := pc_of_next hn
    exact ⟨pc', rfl, spares_saml hclosed hpc hnext⟩

/-! ## An account that somebody lets in -/

/-- SAML vouches for everybody. -/
def openConfig : Config := ⟨Organization.demoConfig, fun _ _ _ => some ⟨some "a", some "e"⟩⟩

/-- An access token of the account, as old as its password. -/
def tokenOf (id : String) (a : AccountState) : AccessToken :=
  Auth.generateAccessToken Auth.demoConfig (a.row.passwordChangedAt.getD 0) "a0"
    ⟨id, "", .member, false, none⟩

/-- The account in the state, with a session. -/
def authOf (now : ℕ) (id : String) (a : AccountState) : Auth.Store where
  now := now
  primary := ⟨fun _ => some a.row, []⟩
  replica := ⟨fun _ => some a.row, []⟩
  refreshTokens := ⟨[⟨"r0", id, none, "t0", "f0", some "a0", false, now⟩],
    List.nodup_singleton _, List.nodup_singleton _⟩
  blacklist _ := none
  userCache _ := none
  oneTime _ := none
  issued := [⟨"f0", tokenOf id a⟩]

/-- The services where the account is the only one. -/
def storeOf (now : ℕ) (id : String) (a : AccountState) : Store where
  toStore := { Organization.demoStore Organization.oneInvitation with
    login := { Auth.demoLogins with auth := authOf now id a } }
  samlProviders _ := if a.linked then some id else none
  samlProvidersReplica _ := if a.linked then some id else none
  usedAssertions := []

/-- The store of an account's state shows it. -/
theorem shows_storeOf (now : ℕ) (id : String) (a : AccountState) :
    Shows (storeOf now id a) id a where
  primary := rfl
  replica := rfl
  cache := nofun
  linked := by
    constructor
    · intro h
      exact ⟨"", if_pos h⟩
    · rintro ⟨key, hkey⟩
      by_contra hlinked
      cases (if_neg hlinked).symm.trans hkey

/-- What a request of a user comes to who is not deleted in the status. -/
theorem checkUser_accepts {id : String} {a : AccountState} (hstatus : a.row.status ≠ .deleted) :
    Auth.checkUser (tokenOf id a) ⟨id, a.row.status, a.row.passwordChangedAt⟩ = .accepted := by
  unfold Auth.checkUser
  rw [if_neg hstatus]
  dsimp only
  split
  · rename_i changedAt hchanged
    have hiat : (tokenOf id a).iat = changedAt / 1000 := by
      show a.row.passwordChangedAt.getD 0 / 1000 = changedAt / 1000
      rw [hchanged, Option.getD_some]
    rw [hiat, if_neg (lt_irrefl _)]
  · rfl

theorem verifies_tokenOf (id : String) (a : AccountState) :
    (storeOf (a.row.passwordChangedAt.getD 0) id a).loginStore.auth.verifies (tokenOf id a)
      = true := by
  refine decide_eq_true ⟨?_, Nat.lt_add_of_pos_right Auth.demoConfig.ttl_pos⟩
  show [(⟨"f0", tokenOf id a⟩ : Auth.Issued)].any (·.token = tokenOf id a) = true
  rw [List.any_cons, decide_eq_true rfl, Bool.true_or]

/-- A request by itself, with a token nothing speaks against. -/
theorem authenticate_alone {cfg : Auth.Config} {a : Auth.Store} {token : AccessToken}
    {user : Auth.CachedUser} (hverify : a.verifies token = true)
    (hblacklist : a.isBlacklisted token.jti = false) (hcache : a.getUserCache token.sub = none)
    (hselect : a.selectCachedUser token.sub = some user)
    (hcheck : Auth.checkUser token user = .accepted) :
    ∃ a', (Auth.authMachine cfg).Alone (a, .authenticate token .verify)
      (a', .authenticate token .accepted) := by
  have h₁ : (Auth.authMachine cfg).Alone (a, .authenticate token .verify)
      (a, .authenticate token .blacklist) :=
    (Machine.Alone.refl _).next (d := Auth.noDraw)
      (by simp [Auth.authMachine, Auth.next, Auth.authNext, hverify])
  have h₂ : (Auth.authMachine cfg).Alone (a, .authenticate token .verify)
      (a, .authenticate token .cacheGet) :=
    h₁.next (d := Auth.noDraw) (by simp [Auth.authMachine, Auth.next, Auth.authNext, hblacklist])
  have h₃ : (Auth.authMachine cfg).Alone (a, .authenticate token .verify)
      (a, .authenticate token .select) :=
    h₂.next (d := Auth.noDraw) (by simp [Auth.authMachine, Auth.next, Auth.authNext, hcache])
  have h₄ : (Auth.authMachine cfg).Alone (a, .authenticate token .verify)
      (a, .authenticate token (.setex user)) :=
    h₃.next (d := Auth.noDraw) (by simp [Auth.authMachine, Auth.next, Auth.authNext, hselect])
  exact ⟨a.setUserCache token.sub user, h₄.next (d := Auth.noDraw)
    (by simp [Auth.authMachine, Auth.next, Auth.authNext, hcheck, Auth.noDraw])⟩

/-- **A request passes**, unless the status is `deleted`. -/
theorem jwt_accepts (id : String) {a : AccountState} (hstatus : a.row.status ≠ .deleted) :
    ∃ s', (Auth.authMachine openConfig.toConfig).Alone
      ((storeOf (a.row.passwordChangedAt.getD 0) id a).loginStore.auth,
        .authenticate (tokenOf id a) .verify)
      (s', .authenticate (tokenOf id a) .accepted) :=
  authenticate_alone (verifies_tokenOf id a) rfl rfl rfl (checkUser_accepts hstatus)

/-- **A refresh issues a pair**, unless the user has a date of deletion. -/
theorem refresh_issues (id : String) {a : AccountState} (hdeleted : a.row.deleted = false) :
    ∃ s' row pair, (sessionMachine openConfig).Alone (storeOf 0 id a, .refresh "t0" .find)
      (s', .refresh "t0" (.returned row pair)) ∧ pair.accessToken.sub = id := by
  obtain ⟨⟨isPlatformAdmin, status, deleted, verified, hash, changedAt⟩, linked⟩ := a
  obtain rfl : deleted = false := hdeleted
  have hmoves : exec (fun x d => next openConfig x.1 x.2 d) anyStep
      (storeOf 0 id ⟨⟨isPlatformAdmin, status, false, verified, hash, changedAt⟩, linked⟩,
        .refresh "t0" .find) (List.replicate 5 (drawn ""))
      = some (_, .refresh "t0" (.returned _ _)) := rfl
  exact ⟨_, _, _, run_of_exec hmoves, rfl⟩

/-- An organisation with SAML. -/
def samlDraw : Draw := ⟨Organization.drawn "", "", true, some ⟨"", "", "", none⟩⟩

/-- **SAML issues a pair** for whomever a provider names. -/
theorem saml_issues (id : String) {a : AccountState} (hlinked : a.linked = true) :
    ∃ s' pair, (sessionMachine openConfig).Alone (storeOf 0 id a, .saml "o" "" .flag)
      (s', .saml "o" "" (.returned pair)) ∧ pair.accessToken.sub = id := by
  obtain ⟨row, linked⟩ := a
  obtain rfl : linked = true := hlinked
  have hmoves : exec (fun x d => next openConfig x.1 x.2 d) anyStep
      (storeOf 0 id ⟨row, true⟩, .saml "o" "" .flag) (List.replicate 9 samlDraw)
        = some (_, .saml "o" "" (.returned _)) :=
    rfl
  exact ⟨_, _, run_of_exec hmoves, rfl⟩

/-! ## The entry points -/

/-- **The entry points agree** on an account that is not active exactly where its status is
`deleted`, it has a date of deletion, and no SAML provider names it. -/
theorem entry_points_agree_iff (id : String) (a : AccountState) :
    (a.row.status ≠ .active → ∀ cfg s, Shows s id a → Refuses cfg s id) ↔
      a.row.status = .active
        ∨ a.row.status = .deleted ∧ a.row.deleted = true ∧ a.linked = false := by
  constructor
  · intro h
    refine or_iff_not_imp_left.mpr fun hinactive => ⟨?_, ?_, ?_⟩
    · by_contra hstatus
      obtain ⟨s', hrun⟩ := jwt_accepts id hstatus
      exact (h hinactive openConfig _ (shows_storeOf _ id a)).jwt _ s' hrun rfl
    · by_contra hdeleted
      obtain ⟨s', row, pair, hrun, hsub⟩ := refresh_issues id (eq_false_of_ne_true hdeleted)
      exact (h hinactive openConfig _ (shows_storeOf 0 id a)).refresh _ s' row pair hrun hsub
    · by_contra hlinked
      obtain ⟨s', pair, hrun, hsub⟩ := saml_issues id (eq_true_of_ne_false hlinked)
      exact (h hinactive openConfig _ (shows_storeOf 0 id a)).saml _ _ s' pair hrun hsub
  · rintro (hactive | ⟨hstatus, hdeleted, hlinked⟩) hinactive cfg s h
    · exact absurd hactive hinactive
    · exact refuses_of_deleted h hstatus hdeleted hlinked

/-- A suspended user. -/
def suspended : AccountState := ⟨⟨false, .suspended, false, true, some "x", none⟩, false⟩

/-- **A suspended user** is issued a pair by a refresh and passes with a token, and only the next
tick of a socket turns them away. -/
theorem suspended_user_let_in :
    suspended.row.status ≠ .active ∧ Shows (storeOf 0 "u" suspended) "u" suspended
      ∧ (∃ s' row pair, (sessionMachine openConfig).Alone
        (storeOf 0 "u" suspended, .refresh "t0" .find) (s', .refresh "t0" (.returned row pair))
        ∧ pair.accessToken.sub = "u")
      ∧ (∃ s', (Auth.authMachine openConfig.toConfig).Alone
        ((storeOf 0 "u" suspended).loginStore.auth, .authenticate (tokenOf "u" suspended) .verify)
        (s', .authenticate (tokenOf "u" suspended) .accepted))
      ∧ ¬ Refuses openConfig (storeOf 0 "u" suspended) "u" := by
  have hjwt := jwt_accepts "u" (a := suspended) (by decide)
  refine ⟨by decide, shows_storeOf 0 "u" suspended, refresh_issues "u" rfl, hjwt, fun h => ?_⟩
  obtain ⟨s', hrun⟩ := hjwt
  exact h.jwt _ s' hrun rfl

end WorkPlatform.Session

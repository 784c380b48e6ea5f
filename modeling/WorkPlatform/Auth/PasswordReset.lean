import WorkPlatform.Auth.Reuse

/-!
# Auth/PasswordReset — what a password change invalidates, under interleaved requests

`confirmPasswordReset` writes the new password and the time of the change, deletes the cached user,
and revokes the user's refresh tokens, while requests read and refill the cache and refreshes are
on their way.  Three things can go wrong:

* an access token issued in the second of the change, or after the time was taken, is not older
  than the change by its `iat`;
* a request that read the row before the change writes it into the cache after the deletion
  (`stale_cache_accepts_old_token`);
* a refresh or a login that is past its reading inserts its row after the revocation.

Where none of them happens (`Undisturbed`), the tokens issued before the change are worth nothing
once the call has returned (`invalidated_of_undisturbed`).
-/

namespace WorkPlatform.Auth

open Machinery

variable {ι : Type*}

/-! ## Access tokens -/

/-- The user's access tokens on record were all issued in a second before the given change. -/
def Outdates (u : String) (is : List Issued) (changedAt : Option ℕ) : Prop :=
  ∃ c, changedAt = some c ∧ ∀ x ∈ is, x.token.sub = u → x.token.iat < c / 1000

variable {u : String} {is : List Issued}

/-- A token that the change outdates is refused. -/
theorem checkUser_of_outdates {user : CachedUser} {x : Issued}
    (h : Outdates u is user.passwordChangedAt) (hx : x ∈ is) (hsub : x.token.sub = u) :
    checkUser x.token user ≠ .accepted := by
  obtain ⟨c, hc, hiat⟩ := h
  unfold checkUser
  split
  · exact nofun
  · rw [hc]
    dsimp only
    rw [if_pos (hiat x hx hsub)]
    exact nofun

/-- The user's row carries a change that outdates the tokens on record. -/
def RowUpdated (u : String) (is : List Issued) (s : Store) : Prop :=
  ∀ row, s.primary.users u = some row → Outdates u is row.passwordChangedAt

/-- So does what is cached. -/
def CacheUpdated (u : String) (is : List Issued) (s : Store) : Prop :=
  ∀ e, s.userCache u = some e → Outdates u is e.value.passwordChangedAt

/-- So does what a request is about to cache. -/
def Call.Updated (u : String) (is : List Issued) : Call → Prop
  | .authenticate token (.setex user) =>
    token.sub = u → Outdates u is user.passwordChangedAt
  | _ => True

/-- The call does not write an older change. -/
def Call.WritesNewer (u : String) (is : List Issued) : Call → Prop
  | .reset _ _ (.update userId _ changedAt) => userId = u → Outdates u is (some changedAt)
  | _ => True

section Statements

variable {cfg : Config} {d : Draw} {s s' : Store} {c c' : Call}

/-- A row after an update is the old one, or the updated one. -/
theorem updateUser_users {id : String} {f : UserRow → UserRow} {row : UserRow}
    (h : (s.updateUser id f).primary.users u = some row) :
    s.primary.users u = some row
      ∨ id = u ∧ ∃ row₀, s.primary.users u = some row₀ ∧ row = f row₀ := by
  unfold Store.updateUser at h
  split at h
  · exact Or.inl h
  · rename_i row₀ hrow₀
    split at h
    · exact Or.inl h
    · dsimp only at h
      by_cases hid : u = id
      · subst hid
        rw [Function.update_self] at h
        exact Or.inr ⟨rfl, row₀, hrow₀, (Option.some.inj h).symm⟩
      · rw [Function.update_of_ne hid] at h
        exact Or.inl h

theorem updateUser_users_self {id : String} {f : UserRow → UserRow} {row : UserRow}
    (h : s.primary.users id = some row) (hdel : row.deleted = false) :
    (s.updateUser id f).primary.users id = some (f row) := by
  simp [Store.updateUser, h, hdel]

/-- An UPDATE that leaves the time of the change alone. -/
theorem RowUpdated.verifyEmail (h : RowUpdated u is s) (id : String) :
    RowUpdated u is (s.updateUser id .verifyEmail) := by
  intro row hrow
  rcases updateUser_users hrow with hold | ⟨-, row₀, hrow₀, rfl⟩
  · exact h row hold
  · exact h row₀ hrow₀

theorem RowUpdated.changePassword (h : RowUpdated u is s) {id passwordHash : String}
    {changedAt : ℕ} (hnew : id = u → Outdates u is (some changedAt)) :
    RowUpdated u is (s.updateUser id (.changePassword passwordHash changedAt)) := by
  intro row hrow
  rcases updateUser_users hrow with hold | ⟨hid, row₀, -, rfl⟩
  · exact h row hold
  · exact hnew hid

theorem updateUser_userCache (s : Store) (id : String) (f : UserRow → UserRow) :
    (s.updateUser id f).userCache = s.userCache := by
  unfold Store.updateUser
  repeat' split
  all_goals rfl

/-- What a statement of a call can do to the users and their cache. -/
inductive UserStep (s s' : Store) : Call → Prop
  | same {c : Call} : s'.primary = s.primary → s'.userCache = s.userCache → UserStep s s' c
  | verify {c : Call} (id : String) : s'.primary = (s.updateUser id .verifyEmail).primary →
      s'.userCache = s.userCache → UserStep s s' c
  | change (token password id passwordHash : String) (changedAt : ℕ) :
      s'.primary = (s.updateUser id (.changePassword passwordHash changedAt)).primary →
      s'.userCache = s.userCache →
      UserStep s s' (.reset token password (.update id passwordHash changedAt))
  | evict {c : Call} (id : String) : s'.primary = s.primary →
      s'.userCache = (s.delUserCache id).userCache → UserStep s s' c
  | cache (token : AccessToken) (user : CachedUser) : s'.primary = s.primary →
      s'.userCache = (s.setUserCache token.sub user).userCache →
      UserStep s s' (.authenticate token (.setex user))

/-- What a refresh does to the user and the sessions. -/
theorem userStep_refresh {raw : String} {pc pc' : RefreshPc}
    (h : refreshNext cfg s d raw pc = some (s', pc')) : UserStep s s' (.refresh raw pc) := by
  cases pc with
  | blacklist row jti =>
    rw [refreshNext] at h
    split at h
    · rename_i s₁ hs₁
      obtain ⟨rfl, -⟩ := Prod.mk.inj (Option.some.inj h)
      obtain rfl := Store.blacklistToken_eq hs₁
      exact .same rfl rfl
    · obtain ⟨rfl, -⟩ := Prod.mk.inj (Option.some.inj h)
      exact .same rfl rfl
  | insert row m =>
    rw [refreshNext] at h
    split at h
    · rename_i s₁ hs₁
      obtain ⟨rfl, -⟩ := Prod.mk.inj (Option.some.inj h)
      obtain ⟨t, -, rfl⟩ := Store.createRefreshToken_eq hs₁
      exact .same rfl rfl
    · obtain ⟨rfl, -⟩ := Prod.mk.inj (Option.some.inj h)
      exact .same rfl rfl
  | returned _ _ => cases h
  | revoked _ => cases h
  | threw _ => cases h
  | failed _ => cases h
  | _ =>
    obtain ⟨rfl, -⟩ := Prod.mk.inj (Option.some.inj h)
    exact .same rfl rfl

/-- What a magic link does to the user and the sessions. -/
theorem userStep_link {token : String} {pc pc' : LinkPc}
    (h : linkNext cfg s d token pc = some (s', pc')) : UserStep s s' (.link token pc) := by
  cases pc with
  | findUser v =>
    rw [linkNext] at h
    split at h
    · obtain ⟨rfl, -⟩ := Prod.mk.inj (Option.some.inj h)
      exact .same rfl rfl
    · split at h
      all_goals
        obtain ⟨rfl, -⟩ := Prod.mk.inj (Option.some.inj h)
        exact .same rfl rfl
  | verify v isPlatformAdmin =>
    obtain ⟨rfl, -⟩ := Prod.mk.inj (Option.some.inj h)
    exact .verify v.userId rfl (updateUser_userCache s v.userId .verifyEmail)
  | insert m =>
    rw [linkNext] at h
    split at h
    · rename_i s₁ hs₁
      obtain ⟨rfl, -⟩ := Prod.mk.inj (Option.some.inj h)
      obtain ⟨t, -, rfl⟩ := Store.createRefreshToken_eq hs₁
      exact .same rfl rfl
    · obtain ⟨rfl, -⟩ := Prod.mk.inj (Option.some.inj h)
      exact .same rfl rfl
  | returned _ => cases h
  | threw _ => cases h
  | failed => cases h
  | _ =>
    obtain ⟨rfl, -⟩ := Prod.mk.inj (Option.some.inj h)
    exact .same rfl rfl

/-- A statement that issues tokens is such a step. -/
theorem userStep_issue {a : IssueArgs} {pc pc' : IssuePc}
    (h : issueNext cfg s d a pc = some (s', pc')) : UserStep s s' (.issue a pc) := by
  cases pc with
  | generate =>
    obtain ⟨rfl, -⟩ := Prod.mk.inj (Option.some.inj h)
    exact .same rfl rfl
  | insert m =>
    rw [issueNext] at h
    split at h
    · rename_i s₁ hs₁
      obtain ⟨rfl, -⟩ := Prod.mk.inj (Option.some.inj h)
      obtain ⟨t, -, rfl⟩ := Store.createRefreshToken_eq hs₁
      exact .same rfl rfl
    · obtain ⟨rfl, -⟩ := Prod.mk.inj (Option.some.inj h)
      exact .same rfl rfl
  | _ => cases h

/-- What a logout does to the user and the sessions. -/
theorem userStep_revoke {raw jti : String} {ttl : ℕ} {pc pc' : RevokePc}
    (h : revokeNext cfg s raw jti ttl pc = some (s', pc')) :
    UserStep s s' (.revokeTokens raw jti ttl pc) := by
  cases pc with
  | blacklist =>
    rw [revokeNext] at h
    split at h
    · rename_i s₁ hs₁
      obtain ⟨rfl, -⟩ := Prod.mk.inj (Option.some.inj h)
      obtain rfl := Store.blacklistToken_eq hs₁
      exact .same rfl rfl
    · obtain ⟨rfl, -⟩ := Prod.mk.inj (Option.some.inj h)
      exact .same rfl rfl
  | returned => cases h
  | failed => cases h
  | _ =>
    obtain ⟨rfl, -⟩ := Prod.mk.inj (Option.some.inj h)
    exact .same rfl rfl

/-- So is one of a password reset. -/
theorem userStep_reset {token password : String} {pc pc' : ResetPc}
    (h : resetNext cfg s d token password pc = some (s', pc')) :
    UserStep s s' (.reset token password pc) := by
  cases pc with
  | update id passwordHash changedAt =>
    obtain ⟨rfl, -⟩ := Prod.mk.inj (Option.some.inj h)
    exact .change _ _ _ _ _ rfl (updateUser_userCache _ _ _)
  | delCache id =>
    obtain ⟨rfl, -⟩ := Prod.mk.inj (Option.some.inj h)
    exact .evict id rfl rfl
  | returned _ => cases h
  | threw _ => cases h
  | _ =>
    obtain ⟨rfl, -⟩ := Prod.mk.inj (Option.some.inj h)
    exact .same rfl rfl

/-- So is one that verifies an email. -/
theorem userStep_email {token : String} {pc pc' : EmailPc}
    (h : emailNext cfg s token pc = some (s', pc')) : UserStep s s' (.verifyEmail token pc) := by
  cases pc with
  | update id =>
    obtain ⟨rfl, -⟩ := Prod.mk.inj (Option.some.inj h)
    exact .verify id rfl (updateUser_userCache _ _ _)
  | returned => cases h
  | threw _ => cases h
  | _ =>
    obtain ⟨rfl, -⟩ := Prod.mk.inj (Option.some.inj h)
    exact .same rfl rfl

/-- So is one that authenticates a request. -/
theorem userStep_authenticate {token : AccessToken} {pc pc' : AuthPc}
    (h : authNext s d token pc = some (s', pc')) : UserStep s s' (.authenticate token pc) := by
  cases pc with
  | setex user =>
    obtain ⟨rfl, -⟩ := Prod.mk.inj (Option.some.inj h)
    split
    · exact .cache token user rfl rfl
    · exact .same rfl rfl
  | accepted => cases h
  | threw _ => cases h
  | _ =>
    obtain ⟨rfl, -⟩ := Prod.mk.inj (Option.some.inj h)
    exact .same rfl rfl

/-- **The statements refine the steps on the users and their cache.** -/
theorem userStep_of_next (h : next cfg s c d = some (s', c')) : UserStep s s' c := by
  cases c with
  | refresh raw pc =>
    obtain ⟨pc', hpc, rfl⟩ := pc_of_next h
    exact userStep_refresh hpc
  | link token pc =>
    obtain ⟨pc', hpc, rfl⟩ := pc_of_next h
    exact userStep_link hpc
  | issue a pc =>
    obtain ⟨pc', hpc, rfl⟩ := pc_of_next h
    exact userStep_issue hpc
  | revokeTokens raw jti ttl pc =>
    obtain ⟨pc', hpc, rfl⟩ := pc_of_next h
    exact userStep_revoke hpc
  | reset token password pc =>
    obtain ⟨pc', hpc, rfl⟩ := pc_of_next h
    exact userStep_reset hpc
  | verifyEmail token pc =>
    obtain ⟨pc', hpc, rfl⟩ := pc_of_next h
    exact userStep_email hpc
  | authenticate token pc =>
    obtain ⟨pc', hpc, rfl⟩ := pc_of_next h
    exact userStep_authenticate hpc

/-- The row stays updated, as long as no older change is written. -/
theorem RowUpdated.next (h : RowUpdated u is s) (hn : next cfg s c d = some (s', c'))
    (hnew : c.WritesNewer u is) : RowUpdated u is s' := by
  have hcongr : ∀ {s₁ : Store}, s'.primary = s₁.primary → RowUpdated u is s₁ →
      RowUpdated u is s' := by
    intro s₁ heq h₁ row hrow
    rw [heq] at hrow
    exact h₁ row hrow
  cases userStep_of_next hn with
  | same hp _ => exact hcongr hp h
  | verify id hp _ => exact hcongr hp (h.verifyEmail id)
  | change token password id passwordHash changedAt hp _ => exact hcongr hp (h.changePassword hnew)
  | evict id hp _ => exact hcongr hp h
  | cache token user hp _ => exact hcongr hp h

/-- An eviction leaves what is cached updated. -/
theorem CacheUpdated.evict (h : CacheUpdated u is s) (id : String) :
    CacheUpdated u is (s.delUserCache id) := by
  intro e he
  rw [Store.delUserCache] at he
  dsimp only at he
  by_cases hid : u = id
  · subst hid
    rw [Function.update_self] at he
    cases he
  · rw [Function.update_of_ne hid] at he
    exact h e he

/-- The cache stays updated, as long as only updated users are cached. -/
theorem CacheUpdated.next (h : CacheUpdated u is s) (hn : next cfg s c d = some (s', c'))
    (hc : c.Updated u is) : CacheUpdated u is s' := by
  have hcongr : ∀ {s₁ : Store}, s'.userCache = s₁.userCache → CacheUpdated u is s₁ →
      CacheUpdated u is s' := by
    intro s₁ heq h₁ e he
    rw [heq] at he
    exact h₁ e he
  cases userStep_of_next hn with
  | same _ hcache => exact hcongr hcache h
  | verify _ _ hcache => exact hcongr hcache h
  | change _ _ _ _ _ _ hcache => exact hcongr hcache h
  | evict id _ hcache => exact hcongr hcache (h.evict id)
  | cache token user _ hcache =>
    refine hcongr hcache fun e he => ?_
    rw [Store.setUserCache] at he
    dsimp only at he
    by_cases hid : u = token.sub
    · subst hid
      rw [Function.update_self] at he
      obtain rfl := Option.some.inj he
      exact hc rfl
    · rw [Function.update_of_ne hid] at he
      exact h e he

theorem updated_checkUser (token token' : AccessToken) (user : CachedUser) :
    Call.Updated u is (.authenticate token (checkUser token' user)) := by
  unfold checkUser
  repeat' split
  all_goals trivial

/-- A token is accepted on a cached user, or on one the request has read. -/
theorem accepted_of_next {token : AccessToken}
    (hn : next cfg s c d = some (s', .authenticate token .accepted)) :
    ∃ user, checkUser token user = .accepted
      ∧ ((∃ e, s.userCache token.sub = some e ∧ e.value = user)
      ∨ c = .authenticate token (.setex user)) := by
  cases c with
  | authenticate token' pc =>
    obtain ⟨⟨s₁, pc'⟩, hpc, heq⟩ := Option.map_eq_some_iff.mp hn
    obtain ⟨rfl, hcall⟩ := Prod.mk.inj heq
    obtain ⟨rfl, rfl⟩ := Call.authenticate.inj hcall
    cases pc with
    | cacheGet =>
      obtain ⟨-, hadm⟩ := Prod.mk.inj (Option.some.inj hpc)
      cases hget : s.getUserCache token'.sub with
      | none => rw [hget] at hadm; cases hadm
      | some user =>
        rw [hget] at hadm
        dsimp only at hadm
        split at hadm
        · obtain ⟨e, he, rfl⟩ := Option.map_eq_some_iff.mp hget
          exact ⟨_, hadm, Or.inl ⟨e, (Option.filter_eq_some_iff.mp he).1, rfl⟩⟩
        · cases hadm
    | setex user => exact ⟨user, (Prod.mk.inj (Option.some.inj hpc)).2, Or.inr rfl⟩
    | verify =>
      obtain ⟨-, hadm⟩ := Prod.mk.inj (Option.some.inj hpc)
      split at hadm <;> cases hadm
    | blacklist =>
      obtain ⟨-, hadm⟩ := Prod.mk.inj (Option.some.inj hpc)
      split at hadm <;> cases hadm
    | select =>
      obtain ⟨-, hadm⟩ := Prod.mk.inj (Option.some.inj hpc)
      cases hsel : s.selectCachedUser token'.sub with
      | none => rw [hsel] at hadm; cases hadm
      | some user => rw [hsel] at hadm; cases hadm
    | accepted => cases hpc
    | threw _ => cases hpc
  | _ =>
    obtain ⟨⟨s₁, pc'⟩, -, heq⟩ := Option.map_eq_some_iff.mp hn
    cases (Prod.mk.inj heq).2

/-- What a request is about to cache is the row it has read. -/
theorem updated_next (h : RowUpdated u is s) (hn : next cfg s c d = some (s', c')) :
    c'.Updated u is := by
  cases c with
  | authenticate token pc =>
    obtain ⟨pc', hpc, rfl⟩ := pc_of_next hn
    cases pc with
    | select =>
      obtain ⟨rfl, rfl⟩ := Prod.mk.inj (Option.some.inj hpc)
      cases hsel : s.selectCachedUser token.sub with
      | none => trivial
      | some user =>
        rintro rfl
        obtain ⟨row, hrow, rfl⟩ := Option.map_eq_some_iff.mp hsel
        exact h row hrow
    | verify =>
      obtain ⟨rfl, rfl⟩ := Prod.mk.inj (Option.some.inj hpc)
      split <;> trivial
    | blacklist =>
      obtain ⟨rfl, rfl⟩ := Prod.mk.inj (Option.some.inj hpc)
      split <;> trivial
    | cacheGet =>
      obtain ⟨rfl, rfl⟩ := Prod.mk.inj (Option.some.inj hpc)
      cases s.getUserCache token.sub with
      | none => trivial
      | some user =>
        dsimp only
        split
        · exact updated_checkUser token token user
        · trivial
    | setex user =>
      obtain ⟨rfl, rfl⟩ := Prod.mk.inj (Option.some.inj hpc)
      exact updated_checkUser token token user
    | accepted => cases hpc
    | threw _ => cases hpc
  | _ =>
    obtain ⟨pc', -, rfl⟩ := pc_of_next hn
    trivial

end Statements

/-! ## Refresh tokens -/

/-- A row of the user, in a family from before the change. -/
def BeforeChange (u : String) (s : Store) (l : Lineage) : Prop :=
  l.userId = u ∧ ((∃ r ∈ s.refreshTokens.rows, r.userId = u ∧ r.familyId = l.familyId)
    ∨ ∃ x ∈ s.issued, x.token.sub = u ∧ x.familyId = l.familyId)

theorem BeforeChange.used {s : Store} {l : Lineage} (h : BeforeChange u s l) :
    Used s.refreshTokens s.issued l.familyId := by
  rcases h.2 with ⟨r, hr, -, hfam⟩ | ⟨x, hx, -, hfam⟩
  · exact Or.inl ⟨r, hr, hfam⟩
  · exact Or.inr ⟨x, hx, hfam⟩

/-- `revokeAllUserTokens`, while no call is about to insert a row of the user from before the
change. -/
theorem barren_revokeAllUserTokens {s₁ s : Store} {f : ι → Hold}
    (hused : ∀ l, BeforeChange u s₁ l → Used s.refreshTokens s.issued l.familyId)
    (hnone : ∀ j, ∀ l ∈ (f j).lineage, ¬ BeforeChange u s₁ l) :
    Barren (BeforeChange u s₁) (s.revokeAllUserTokens u).refreshTokens s.issued f := by
  refine ⟨fun l hl => ?_, ?_⟩
  · rcases hused l hl with ⟨r, hr, hfam⟩ | hissued
    · exact Or.inl ⟨_, List.mem_map_of_mem hr, hfam⟩
    · exact Or.inr hissued
  · rintro l x hl (⟨id, ⟨r, hr, hlive, hlin, -⟩, -⟩ | ⟨j, hj⟩)
    · obtain ⟨r₀, -, rfl⟩ := List.mem_map.mp hr
      have huser : r₀.userId = u := (congrArg Lineage.userId hlin).trans hl.1
      cases hrev : r₀.isRevoked with
      | false => simp [RefreshTokenRow.revokeIf, huser, hrev] at hlive
      | true => simp [RefreshTokenRow.revokeIf, hrev] at hlive
    · exact hnone j l hj.lineage hl

/-! ## The property and the condition -/

/-- **What the reset has invalidated**: the next move accepts no access token from before the
change, no row from before it or after one from before it is unrevoked, and no call is about to
insert one. -/
structure Invalidated [DecidableEq ι] (cfg : Config) (u : String) (s₁ : Store) (q : Calls ι) :
    Prop where
  access : ∀ j d q' token, q.step (authMachine cfg) (.run j d) = some q' →
    q'.calls j = .up (.authenticate token .accepted) →
    ∀ x ∈ s₁.issued, x.token.sub = u → x.token ≠ token
  rows : ∀ r ∈ q.store.refreshTokens.rows, BeforeChange u s₁ r.lineage → r.isRevoked = true
  exchanges : ∀ j, ∀ l ∈ (held (q.calls j)).lineage, ¬ BeforeChange u s₁ l

/-- A call that can still insert a row from before the change. -/
def Call.inFlight (u : String) (s₁ : Store) (c : Call) : Prop :=
  ∃ l ∈ c.hold.lineage, BeforeChange u s₁ l

/-- A reset that is about to delete the cached user. -/
def Call.evicts (u : String) : Call → Bool
  | .reset _ _ (.delCache id) => id = u
  | _ => false

/-- A reset that is about to revoke the user's refresh tokens. -/
def Call.revokesAll (u : String) : Call → Bool
  | .reset _ _ (.revokeAll id) => id = u
  | _ => false

/-- **The reset of call `i` is not disturbed**: no older change is written; when it deletes the
cached user, no request is about to cache an older row; when it revokes the refresh tokens, no call
is about to insert a row from before the change. -/
def Undisturbed (u : String) (s₁ : Store) (i : ι) (p : Calls ι) : Move ι Draw Env → Prop
  | .run j _ => (p.calls j).Keeps (Call.WritesNewer u s₁.issued)
      ∧ (j = i → (p.calls i).Live (fun c => c.evicts u) →
        ∀ k, (p.calls k).Keeps (Call.Updated u s₁.issued))
      ∧ (j = i → (p.calls i).Live (fun c => c.revokesAll u) →
        ∀ k, ¬ (p.calls k).Live (Call.inFlight u s₁))
  | _ => True

/-! ## Every run -/

section Runs

/-- Nothing older than the change is cached, or about to be. -/
def Cached (u : String) (s₁ : Store) (p : Calls ι) : Prop :=
  CacheUpdated u s₁.issued p.store ∧ ∀ k, (p.calls k).Keeps (Call.Updated u s₁.issued)

/-- No row from before the change is unrevoked, or about to be inserted. -/
def Emptied (u : String) (s₁ : Store) (p : Calls ι) : Prop :=
  Barren (BeforeChange u s₁) p.store.refreshTokens p.store.issued (held ∘ p.calls)

/-- How far the reset has come. -/
def Stage (u : String) (s₁ : Store) (p : Calls ι) : Call → Prop
  | .reset _ _ (.delCache id) => id = u
  | .reset _ _ (.revokeAll id) => id = u ∧ Cached u s₁ p
  | .reset _ _ (.delKey id) | .reset _ _ (.audit id) | .reset _ _ (.returned id) =>
    id = u ∧ Cached u s₁ p ∧ Emptied u s₁ p
  | _ => False

/-- What undisturbed runs keep, after the UPDATE of call `i`. -/
structure ResetInv (u : String) (s₁ : Store) (i : ι) (p : Calls ι) : Prop where
  row : RowUpdated u s₁.issued p.store
  used : ∀ l, BeforeChange u s₁ l → Used p.store.refreshTokens p.store.issued l.familyId
  stage : (p.calls i).Keeps (Stage u s₁ p)

variable {s₁ : Store} {i : ι} {cfg : Config} {d : Draw}

/-- A reset stays as far as it has come. -/
theorem Stage.mono {p p' : Calls ι} {c : Call} (h : Stage u s₁ p c)
    (hcached : Cached u s₁ p → Cached u s₁ p') (hempty : Emptied u s₁ p → Emptied u s₁ p') :
    Stage u s₁ p' c := by
  unfold Stage at h ⊢
  split at h
  · exact h
  · exact ⟨h.1, hcached h.2⟩
  · exact ⟨h.1, hcached h.2.1, hempty h.2.2⟩
  · exact ⟨h.1, hcached h.2.1, hempty h.2.2⟩
  · exact ⟨h.1, hcached h.2.1, hempty h.2.2⟩
  · exact h

/-- What the surroundings write leaves an updated row updated. -/
theorem RowUpdated.env {s : Store} (h : RowUpdated u is s) (e : Env) :
    RowUpdated u is (Auth.env s e) := by
  cases e with
  | writeUser id isPlatformAdmin status deleted =>
    intro row hrow
    dsimp only [Auth.env] at hrow
    by_cases hid : u = id
    · subst hid
      rw [Function.update_self] at hrow
      obtain ⟨row₀, hrow₀, rfl⟩ := Option.map_eq_some_iff.mp hrow
      exact h row₀ hrow₀
    · rw [Function.update_of_ne hid] at hrow
      exact h row hrow
  | _ => exact h

/-- The surroundings keep the invariant of a reset. -/
theorem ResetInv.env {p : Calls ι} (h : ResetInv u s₁ i p) (e : Env) :
    ResetInv u s₁ i ⟨Auth.env p.store e, p.calls⟩ := by
  have hcache : Cached u s₁ p → Cached u s₁ ⟨Auth.env p.store e, p.calls⟩ := by
    rintro ⟨hc, hk⟩
    refine ⟨?_, hk⟩
    cases e with
    | evictUser id => exact hc.evict id
    | _ => exact hc
  have hempty : Emptied u s₁ p → Emptied u s₁ ⟨Auth.env p.store e, p.calls⟩ := by
    intro he
    rw [Emptied, env_refreshTokens, env_issued]
    exact he
  refine ⟨h.row.env e, ?_, h.stage.imp fun c hc => hc.mono hcache hempty⟩
  rw [env_refreshTokens, env_issued]
  exact h.used

/-- When the reset returns, every session from before it is over. -/
theorem ResetInv.invalidated [DecidableEq ι] {p : Calls ι} {token password : String}
    (h : ResetInv u s₁ i p) (hret : p.calls i = .up (.reset token password (.returned u))) :
    Invalidated cfg u s₁ p := by
  have hstage := h.stage
  rw [hret] at hstage
  obtain ⟨-, ⟨hcache, hcalls⟩, hempty⟩ := hstage
  refine ⟨fun j d q' token hstep hacc x hx hsub heq => ?_, fun r hr hl => ?_, fun j l hl hb => ?_⟩
  · obtain ⟨c, s', c', hj, hn, rfl⟩ := Pool.step_run hstep
    have hc' : c' = .authenticate token .accepted := by simpa using hacc
    rw [hc'] at hn
    obtain ⟨user, hadm, hfrom⟩ := accepted_of_next hn
    have hsub' : token.sub = u := heq ▸ hsub
    have hout : Outdates u s₁.issued user.passwordChangedAt := by
      rcases hfrom with ⟨e, he, rfl⟩ | rfl
      · rw [hsub'] at he
        exact hcache e he
      · have hj' := hcalls j
        rw [hj] at hj'
        exact hj' hsub'
    rw [← heq] at hadm
    exact checkUser_of_outdates hout hx hsub hadm
  · by_contra hlive
    exact hempty.empty r.lineage _ hl (Or.inl ⟨r.id, ⟨r, hr, by simpa using hlive, rfl, rfl⟩, rfl⟩)
  · obtain ⟨x, hx⟩ := Hold.carries_of_lineage j hl
    exact hempty.empty l x hb (Or.inr ⟨j, hx⟩)

variable [DecidableEq ι]

theorem Cached.run {p : Calls ι} {j : ι} {c c' : Call} {s' : Store} (h : Cached u s₁ p)
    (hrow : RowUpdated u s₁.issued p.store) (hj : p.calls j = .up c)
    (hn : (authMachine cfg).next p.store c d = some (s', c')) :
    Cached u s₁ ⟨s', Function.update p.calls j (.up c')⟩ := by
  have hc : c.Updated u s₁.issued := by simpa [hj] using h.2 j
  exact ⟨h.1.next hn hc, keeps_update_up (updated_next hrow hn) fun k _ => h.2 k⟩

theorem Emptied.run {p : Calls ι} {j : ι} {c c' : Call} {s' : Store} (h : Emptied u s₁ p)
    (hfresh : FreshFamilies p (.run j d)) (hj : p.calls j = .up c)
    (hn : (authMachine cfg).next p.store c d = some (s', c')) :
    Emptied u s₁ ⟨s', Function.update p.calls j (.up c')⟩ := by
  rw [Emptied, Function.comp_update]
  exact Barren.step h hfresh (tokenStep_run hj hn)

/-- The deletion of the cached user, when no request is about to cache an older row. -/
theorem cached_delUserCache {p : Calls ι} {c : Call}
    (hkeeps : ∀ k, (p.calls k).Keeps (Call.Updated u s₁.issued)) (hc : c.Updated u s₁.issued) :
    Cached u s₁ ⟨p.store.delUserCache u, Function.update p.calls i (.up c)⟩ := by
  refine ⟨fun e he => ?_, keeps_update_up hc fun k _ => hkeeps k⟩
  dsimp only [Store.delUserCache] at he
  rw [Function.update_self] at he
  cases he

/-- The revocation, when no call is about to insert a row from before the change. -/
theorem emptied_revokeAllUserTokens {p : Calls ι} {c : Call}
    (hused : ∀ l, BeforeChange u s₁ l → Used p.store.refreshTokens p.store.issued l.familyId)
    (hnone : ∀ k, ¬ (p.calls k).Live (Call.inFlight u s₁)) (hc : c.hold = .idle) :
    Emptied u s₁ ⟨p.store.revokeAllUserTokens u, Function.update p.calls i (.up c)⟩ := by
  rw [Emptied, Function.comp_update]
  refine barren_revokeAllUserTokens hused ((Function.forall_update_iff (held ∘ p.calls)
    fun _ h => ∀ l ∈ h.lineage, ¬ BeforeChange u s₁ l).mpr ⟨fun l hl => ?_, fun k _ l hl hb => ?_⟩)
  · rw [held, hc] at hl
    cases hl
  · have hk := hnone k
    rw [Function.comp_apply] at hl
    cases hck : p.calls k with
    | up ck =>
      rw [hck] at hk hl
      exact hk ⟨l, hl, hb⟩
    | down ck =>
      rw [hck, held] at hl
      cases hh : ck.hold with
      | _ => rw [hh] at hl; cases hl

/-- The statement of the reset itself. -/
theorem stage_next {p : Calls ι} {c c' : Call} {s' : Store} (h : ResetInv u s₁ i p)
    (hG : FreshFamilies p (.run i d) ∧ Undisturbed u s₁ i p (.run i d)) (hi : p.calls i = .up c)
    (hn : (authMachine cfg).next p.store c d = some (s', c')) :
    Stage u s₁ ⟨s', Function.update p.calls i (.up c')⟩ c' := by
  have hstage : Stage u s₁ p c := by simpa [hi] using h.stage
  obtain ⟨hfresh, -, hevict, hrevoke⟩ := hG
  cases c with
  | reset token password pc =>
    have hcached : Cached u s₁ p → Cached u s₁ ⟨s', Function.update p.calls i (.up c')⟩ :=
      fun hc => hc.run h.row hi hn
    have hempty : Emptied u s₁ p → Emptied u s₁ ⟨s', Function.update p.calls i (.up c')⟩ :=
      fun he => he.run hfresh hi hn
    obtain ⟨⟨s₂, pc'⟩, hpc, heq⟩ := Option.map_eq_some_iff.mp hn
    obtain ⟨rfl, rfl⟩ := Prod.mk.inj heq
    cases pc with
    | delCache id =>
      obtain ⟨rfl, rfl⟩ := Prod.mk.inj (Option.some.inj hpc)
      obtain rfl : id = u := hstage
      exact ⟨rfl, cached_delUserCache (hevict rfl (by rw [hi]; exact decide_eq_true rfl)) trivial⟩
    | revokeAll id =>
      obtain ⟨rfl, rfl⟩ := Prod.mk.inj (Option.some.inj hpc)
      obtain ⟨rfl, hc⟩ := hstage
      exact ⟨rfl, hcached hc,
        emptied_revokeAllUserTokens h.used (hrevoke rfl (by rw [hi]; exact decide_eq_true rfl)) rfl⟩
    | delKey id =>
      obtain ⟨rfl, rfl⟩ := Prod.mk.inj (Option.some.inj hpc)
      exact ⟨hstage.1, hcached hstage.2.1, hempty hstage.2.2⟩
    | audit id =>
      obtain ⟨rfl, rfl⟩ := Prod.mk.inj (Option.some.inj hpc)
      exact ⟨hstage.1, hcached hstage.2.1, hempty hstage.2.2⟩
    | returned id => cases hpc
    | _ => exact hstage.elim
  | _ => exact hstage.elim

/-- A statement of any call keeps it, where nothing disturbs the reset. -/
theorem ResetInv.run {p : Calls ι} {j : ι} {c c' : Call} {s' : Store} (h : ResetInv u s₁ i p)
    (hG : FreshFamilies p (.run j d) ∧ Undisturbed u s₁ i p (.run j d)) (hj : p.calls j = .up c)
    (hn : (authMachine cfg).next p.store c d = some (s', c')) :
    ResetInv u s₁ i ⟨s', Function.update p.calls j (.up c')⟩ := by
  have hnew : c.WritesNewer u s₁.issued := by simpa [hj] using hG.2.1
  refine ⟨h.row.next hn hnew, fun l hl => (h.used l hl).step (tokenStep_run hj hn), ?_⟩
  by_cases hji : j = i
  · subst hji
    dsimp only
    rw [Function.update_self]
    exact stage_next h hG hj hn
  · dsimp only
    rw [Function.update_of_ne (Ne.symm hji)]
    exact h.stage.imp fun _ hc => hc.mono (fun hc => hc.run h.row hj hn)
      fun he => he.run hG.1 hj hn

/-- So does a call that stops. -/
theorem ResetInv.crash {p : Calls ι} {j : ι} {c : Call} (h : ResetInv u s₁ i p)
    (hj : p.calls j = .up c) : ResetInv u s₁ i ⟨p.store, Function.update p.calls j (.down c)⟩ := by
  refine ⟨h.row, h.used, ?_⟩
  by_cases hji : j = i
  · subst hji
    dsimp only
    rw [Function.update_self]
    trivial
  · dsimp only
    rw [Function.update_of_ne (Ne.symm hji)]
    refine h.stage.imp fun _ hc => hc.mono (fun hc => ⟨hc.1, ?_⟩) fun he => ?_
    · exact keeps_update_down hc.2
    · rw [Emptied, held_crash hj]
      exact Barren.drop he

/-- **What a password reset invalidates**: from any state in which it writes a change that outdates
the user's access tokens, in every run that does not disturb it, once it has returned. -/
theorem invalidated_of_undisturbed {p p' q : Calls ι} {token password passwordHash : String}
    {changedAt : ℕ}
    (hi : p.calls i = .up (.reset token password (.update u passwordHash changedAt)))
    (huser : ∃ row, p.store.primary.users u = some row ∧ row.deleted = false)
    (hchange : Outdates u p.store.issued (some changedAt))
    (hupdate : p.step (authMachine cfg) (.run i d) = some p')
    (hrun : Run (Pool.step (authMachine cfg))
      (fun r m => FreshFamilies r m ∧ Undisturbed u p.store i r m) p' q)
    (hret : q.calls i = .up (.reset token password (.returned u))) :
    Invalidated cfg u p.store q := by
  have hinv : ResetInv u p.store i q := by
    refine Pool.invariant (I := ResetInv u p.store i) ?_
      (fun r j d c s' c' h hG hj hn => h.run hG hj hn) (fun r j c h _ hj => h.crash hj)
      (fun r e h _ => h.env e) hrun
    obtain ⟨c, s', c', hc, hn, rfl⟩ := Pool.step_run hupdate
    rw [hi] at hc
    obtain rfl := Proc.up.inj hc
    obtain ⟨rfl, rfl⟩ := Prod.mk.inj (Option.some.inj hn)
    refine ⟨fun row hrow => ?_, fun l hl => ?_, ?_⟩
    · obtain ⟨row₀, hrow₀, hdel⟩ := huser
      dsimp only at hrow
      rw [updateUser_users_self hrow₀ hdel] at hrow
      obtain rfl := Option.some.inj hrow
      exact hchange
    · dsimp only
      rw [updateUser_refreshTokens, updateUser_issued]
      exact hl.used
    · dsimp only
      rw [Function.update_self]
      rfl
  exact hinv.invalidated hret

end Runs

/-! ## A request that caches the row of before the change -/

section Guard

instance (u : String) (is : List Issued) : DecidablePred (Outdates u is)
  | none => .isFalse nofun
  | some c => decidable_of_iff (∀ x ∈ is, x.token.sub = u → x.token.iat < c / 1000)
      ⟨fun h => ⟨c, rfl, h⟩, fun ⟨_, hc, h⟩ => Option.some.inj hc ▸ h⟩

instance (u : String) (is : List Issued) : DecidablePred (Call.Updated u is)
  | .authenticate token pc =>
    match pc with
    | .setex user =>
      inferInstanceAs (Decidable (token.sub = u → Outdates u is user.passwordChangedAt))
    | .verify | .blacklist | .cacheGet | .select | .accepted | .threw _ =>
      inferInstanceAs (Decidable True)
  | .issue _ _ | .refresh _ _ | .revokeTokens _ _ _ _ | .reset _ _ _ | .link _ _
  | .verifyEmail _ _ => inferInstanceAs (Decidable True)

instance (u : String) (is : List Issued) : DecidablePred (Call.WritesNewer u is)
  | .reset _ _ pc =>
    match pc with
    | .update userId _ changedAt =>
      inferInstanceAs (Decidable (userId = u → Outdates u is (some changedAt)))
    | .get | .hash _ | .delCache _ | .revokeAll _ | .delKey _ | .audit _ | .returned _ | .threw _ =>
      inferInstanceAs (Decidable True)
  | .issue _ _ | .refresh _ _ | .revokeTokens _ _ _ _ | .link _ _ | .verifyEmail _ _
  | .authenticate _ _ => inferInstanceAs (Decidable True)

instance (u : String) (s : Store) : DecidablePred (BeforeChange u s) :=
  fun _ => inferInstanceAs (Decidable (_ ∧ (_ ∨ _)))

instance (u : String) (s : Store) : DecidablePred (Call.inFlight u s) :=
  fun c => inferInstanceAs (Decidable (∃ l ∈ c.hold.lineage, BeforeChange u s l))

instance [Fintype ι] [DecidableEq ι] (u : String) (s : Store) (i : ι) (p : Calls ι) :
    ∀ m : Move ι Draw Env, Decidable (Undisturbed u s i p m)
  | .run j _ => inferInstanceAs (Decidable ((p.calls j).Keeps (Call.WritesNewer u s.issued)
      ∧ (j = i → (p.calls i).Live (fun c => c.evicts u) →
        ∀ k, (p.calls k).Keeps (Call.Updated u s.issued))
      ∧ (j = i → (p.calls i).Live (fun c => c.revokesAll u) →
        ∀ k, ¬ (p.calls k).Live (Call.inFlight u s))))
  | .crash _ => inferInstanceAs (Decidable True)
  | .env _ => inferInstanceAs (Decidable True)

end Guard

/-- The access token of the session. -/
def demoToken : AccessToken := ⟨"u", "", .member, false, none, 0, "a0", 0, 900⟩

/-- Ten seconds into the session: a password reset, and two requests with its access token. -/
def resetAndRequests : Calls (Fin 3) where
  store := { demoSession with
    now := 10000
    oneTime := Function.update demoSession.oneTime (.pwdReset "k") (some ⟨⟨"u", none⟩, 3600000⟩) }
  calls := ![.up (.reset "k" "new" .get), .up (.authenticate demoToken .verify),
    .up (.authenticate demoToken .verify)]

/-- A statement of a call that draws nothing. -/
def quiet (i : Fin 3) : Move (Fin 3) Draw Env := .run i (drawn "" "" "")

/-- The reset is about to write the change of its user. -/
def AtUpdate (p : Calls (Fin 3)) : Prop :=
  p.calls 0 = .up (.reset "k" "new" (.update "u" "newsalt" 10000))
    ∧ p.store.primary.users "u" = some demoUser ∧ Outdates "u" p.store.issued (some 10000)

instance (p : Calls (Fin 3)) : Decidable (AtUpdate p) := inferInstanceAs (Decidable (_ ∧ _ ∧ _))

/-- **A request that has read the old row caches it after the deletion**: once the reset has
returned, the access token from before the change is accepted from the cache. -/
theorem stale_cache_accepts_old_token :
    (∀ i, (resetAndRequests.calls i).Live fun c => c.fresh)
      ∧ ∃ p p' q, Run (Pool.step (authMachine demoConfig)) FreshFamilies resetAndRequests p
        ∧ AtUpdate p ∧ p.step (authMachine demoConfig) (quiet 0) = some p'
        ∧ Run (Pool.step (authMachine demoConfig)) FreshFamilies p' q
        ∧ q.calls 0 = .up (.reset "k" "new" (.returned "u"))
        ∧ ¬ Invalidated demoConfig "u" p.store q := by
  refine ⟨fun i => by fin_cases i <;> rfl, ?_⟩
  obtain ⟨p, hp, hlater⟩ := exists_run_of_exec (Pool.step (authMachine demoConfig)) FreshFamilies
    resetAndRequests [quiet 0, quiet 0, quiet 1, quiet 1, quiet 1, quiet 1]
    (fun p => (AtUpdate p ∧ ∃ x ∈ p.store.issued, x.token = demoToken)
      ∧ (p.step (authMachine demoConfig) (quiet 0)).any fun p' =>
        (exec (Pool.step (authMachine demoConfig)) FreshFamilies p'
          [quiet 0, quiet 1, quiet 0, quiet 0, quiet 0, quiet 2, quiet 2]).any fun q =>
          q.calls 0 = .up (.reset "k" "new" (.returned "u"))
            ∧ (q.step (authMachine demoConfig) (quiet 2)).any fun q' =>
              q'.calls 2 = .up (.authenticate demoToken .accepted)) (by decide)
  obtain ⟨⟨hat, x, hx, hxtok⟩, hany⟩ := of_decide_eq_true hlater
  obtain ⟨p', hstep, hrest⟩ := (Option.any_eq_true _ _).mp hany
  obtain ⟨q, hq, hend⟩ := exists_run_of_exec _ _ p' _ _ hrest
  obtain ⟨hret, hacc⟩ := of_decide_eq_true hend
  obtain ⟨q', hq', hq'acc⟩ := (Option.any_eq_true _ _).mp hacc
  refine ⟨p, p', q, hp, hat, hstep, hq, hret, fun h => ?_⟩
  exact h.access 2 _ q' demoToken hq' (of_decide_eq_true hq'acc) x hx (by rw [hxtok]; rfl) hxtok

/-- The requests come after the change: the reset is not disturbed. -/
theorem invalidated_without_requests :
    ∃ p p' q, AtUpdate p ∧ p.step (authMachine demoConfig) (quiet 0) = some p'
      ∧ Run (Pool.step (authMachine demoConfig))
        (fun r m => FreshFamilies r m ∧ Undisturbed "u" p.store 0 r m) p' q
      ∧ q.calls 0 = .up (.reset "k" "new" (.returned "u"))
      ∧ Invalidated demoConfig "u" p.store q := by
  obtain ⟨p, hp, hlater⟩ := exists_run_of_exec (Pool.step (authMachine demoConfig)) FreshFamilies
    resetAndRequests [quiet 0, quiet 0]
    (fun p => AtUpdate p ∧ (p.step (authMachine demoConfig) (quiet 0)).any fun p' =>
      (exec (Pool.step (authMachine demoConfig))
        (fun r m => FreshFamilies r m ∧ Undisturbed "u" p.store 0 r m) p'
        (List.replicate 5 (quiet 1) ++ List.replicate 4 (quiet 0))).any fun q =>
        q.calls 0 = .up (.reset "k" "new" (.returned "u"))) (by decide)
  obtain ⟨hat, hany⟩ := of_decide_eq_true hlater
  obtain ⟨p', hstep, hrest⟩ := (Option.any_eq_true _ _).mp hany
  obtain ⟨q, hq, hend⟩ := exists_run_of_exec _ _ p' _ _ hrest
  have hret := of_decide_eq_true hend
  exact ⟨p, p', q, hat, hstep, hq, hret,
    invalidated_of_undisturbed hat.1 ⟨_, hat.2.1, rfl⟩ hat.2.2 hstep hq hret⟩

end WorkPlatform.Auth

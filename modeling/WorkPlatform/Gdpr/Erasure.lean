import WorkPlatform.Session.Status
import WorkPlatform.Gdpr.WaitingPeriod

/-!
# Gdpr/Erasure — what is left of a user after the erasure

    anonymise ▸ revoke ▸ delCache ▸ auditLogs ▸ authProviders ▸ audit
       users     tokens    cache                    identities

The job goes by the id of the user.  What is kept by the email address instead is not looked for:
an invitation keeps the address it was sent to (`invitation_keeps_email`).  And the job is not
alone: a login that inserts its token after the revocation, or a request that caches the row it has
read before, undoes a statement of the job.

Where the address and the name are the user's alone and neither of the two happens, nothing is left,
however often the job has failed before (`erased_of_undisturbed`).
-/

namespace WorkPlatform.Gdpr

open Machinery
open Auth (AccessToken CachedUser RefreshTokenRow Minted)

/-! ## What is to be gone -/

/-- The text is part of a value. -/
def Occurs (text value : String) : Prop := text.toList <:+: value.toList

instance (text value : String) : Decidable (Occurs text value) :=
  inferInstanceAs (Decidable (_ <:+: _))

/-- The columns of `users` that say who somebody is. -/
def Profile.texts (p : Profile) : List String :=
  p.email :: p.name :: (p.phone.toList ++ p.avatarUrl.toList)

def AuthProviderRow.texts (r : AuthProviderRow) : List String :=
  r.providerUserId :: r.metadata.map (·.2)

/-- A row of `users`, of `auth_providers` or of `invitations` contains the text. -/
inductive Mentions (s : Store) (text : String) : Prop
  | user (v : String) : (s.auth.primary.users v).isSome →
      (∃ value ∈ (s.profiles v).texts, Occurs text value) → Mentions s text
  | authProvider : (∃ r ∈ s.authProviders, ∃ value ∈ r.texts, Occurs text value) → Mentions s text
  | invitation : (∃ v ∈ s.invitations, Occurs text v.email) → Mentions s text

/-- The job by itself, from its first statement on, with any outcomes. -/
def RunsAgain (cfg : Config) (job : EraseJob) (s s' : Store) : Prop :=
  ∃ pc', Run (fun x d => eraseNext cfg x.1 d x.2) (fun x _ => x.2 ≠ ErasePc.idle)
    (s, .anonymise job) (s', pc')

/-- Nothing differs but times, audit rows, and whether the user is cached. -/
structure SameData (u : String) (s s' : Store) : Prop where
  users : s'.auth.primary.users = s.auth.primary.users
  profiles : ∀ v, { s'.profiles v with deletedAt := none } = { s.profiles v with deletedAt := none }
  refreshTokens : s'.auth.refreshTokens.rows = s.auth.refreshTokens.rows
  userCache : ∀ v, v ≠ u → s'.auth.userCache v = s.auth.userCache v
  authProviders : s'.authProviders = s.authProviders
  invitations : s'.invitations = s.invitations
  organizations : s'.organizations = s.organizations
  memberships : s'.memberships = s.memberships
  content : s'.content = s.content

/-- **Nothing is left** of the user, as the database knew it in `s₀`. -/
structure Erased (cfg : Config) (s₀ : Store) (u : String) (s : Store) : Prop where
  email : ¬ Mentions s (s₀.profiles u).email
  name : ¬ Mentions s (s₀.profiles u).name
  tokens : ∀ r ∈ s.auth.refreshTokens.rows, r.userId = u → r.isRevoked = true
  rejects : ∀ token a, (Auth.authMachine cfg.auth).Alone (s.auth, .authenticate token .verify)
    (a, .authenticate token .accepted) → token.sub ≠ u
  again : ∀ o s', RunsAgain cfg ⟨u, o⟩ s s' → SameData u s s'

/-! ## The condition -/

/-- The text is the user's alone: it occurs in no row of anybody else, in no invitation, and in
nothing an erasure writes. -/
structure Own (s : Store) (u text : String) : Prop where
  users : ∀ v, v ≠ u → (s.auth.primary.users v).isSome →
    ∀ value ∈ (s.profiles v).texts, ¬ Occurs text value
  authProviders : ∀ r ∈ s.authProviders, r.userId ≠ u → ∀ value ∈ r.texts, ¬ Occurs text value
  invitations : ∀ v ∈ s.invitations, ¬ Occurs text v.email
  emails : ∀ v, (s.auth.primary.users v).isSome → ¬ Occurs text (anonymisedEmail v)
  name : ¬ Occurs text "Deleted User"

/-- How many statements the job has started. -/
def ErasePc.number : ErasePc → ℕ
  | .idle => 0
  | .anonymise _ => 1
  | .revoke _ => 2
  | .delCache _ => 3
  | .auditLogs _ => 4
  | .authProviders _ => 5
  | .audit _ => 6

/-- A job of the user that has got to its `n`th statement. -/
def Call.Past (u : String) (n : ℕ) : Call → Prop
  | .erasureWorker pc => n ≤ pc.number ∧ ∃ job ∈ pc.job, job.userId = u
  | _ => False

/-- The pair whose row a call inserts next. -/
def inserted : Auth.Hold → Option Minted
  | .rotating _ m | .opening m => some m
  | _ => none

def Call.inserts : Call → Option Minted
  | .auth c => inserted c.hold
  | _ => none

/-- A job that is about to delete the cached user. -/
def Call.evicts (u : String) : Call → Bool
  | .erasureWorker (.delCache job) => job.userId = u
  | _ => false

/-- The call is not about to cache the user as anything but deleted. -/
def Call.CachesGone (u : String) : Call → Prop
  | .auth (.authenticate token (.setex user)) => token.sub = u → user.status = .deleted
  | _ => True

section Runs

variable {ι : Type*}

/-- A job of the user has got to its `n`th statement, or one is completed. -/
def Reached (u : String) (n : ℕ) (p : Calls ι) : Prop :=
  (∃ job ∈ p.store.erased, job.userId = u) ∨ ∃ j, (p.calls j).Live (Call.Past u n)

/-- **The erasure is not disturbed**: from the revocation on no refresh token of the user is
inserted, and when the cached user is deleted no request is about to cache the row of before.
Nobody else writes the status of the user. -/
def Undisturbed (u : String) (p : Calls ι) : Move ι Draw Env → Prop
  | .run i _ =>
    ((p.calls i).Live (fun c => ∃ m ∈ c.inserts, m.userId = u) → ¬ Reached u 3 p)
      ∧ ((p.calls i).Live (fun c => c.evicts u) → ∀ k, (p.calls k).Keeps (Call.CachesGone u))
  | .env (.auth (.writeUser id _ _ _)) => id ≠ u
  | _ => True

end Runs

/-! ## How far a job has got -/

section Steps

variable {cfg : Config} {s s' : Store} {c c' : Call} {d : Draw} {u : String} {n : ℕ}

/-- What brings a job of the user to its `n`th statement. -/
inductive Brings (u : String) (s s' : Store) (pc : ErasePc) : ℕ → Prop
  | taken {n : ℕ} : n ≤ 1 → Brings u s s' pc n
  | anonymised : s' = s.anonymise u → Brings u s s' pc 2
  | revoked : s' = s.revokeAllUserTokens u → Brings u s s' pc 3
  | evicted (job : EraseJob) : pc = .delCache job → job.userId = u → s' = s.delUserCache u →
      Brings u s s' pc 4
  | audited : Brings u s s' pc 5
  | unlinked : s' = s.deleteAuthProviders u → Brings u s s' pc 6

/-- What the job has done when it gets past a statement. -/
theorem brings_of_past {pc pc' : ErasePc} (hn : EraseStep cfg s pc s' pc')
    (hpast : Call.Past u n (.erasureWorker pc')) (hnot : ¬ Call.Past u n (.erasureWorker pc)) :
    Brings u s s' pc n := by
  obtain ⟨hle, job, hjob, rfl⟩ := hpast
  have hnext : ∀ {k : ℕ}, pc.job = some job → pc.number = k → n ≤ k + 1 → n = k + 1 := by
    intro k hpc hk hle
    refine Nat.le_antisymm hle (Nat.succ_le_of_lt (Nat.lt_of_not_le fun hle' => hnot ?_))
    exact ⟨hk.symm ▸ hle', job, hpc, rfl⟩
  cases hn with
  | take _ => exact .taken hle
  | anonymise hpc' =>
    rcases hpc' with rfl | rfl
    · obtain rfl := Option.some.inj hjob
      obtain rfl := hnext rfl rfl hle
      exact .anonymised rfl
    · cases hjob
  | revoke hpc' =>
    rcases hpc' with rfl | rfl
    · obtain rfl := Option.some.inj hjob
      obtain rfl := hnext rfl rfl hle
      exact .revoked rfl
    · cases hjob
  | delCache hpc' =>
    rcases hpc' with rfl | rfl
    · obtain rfl := Option.some.inj hjob
      obtain rfl := hnext rfl rfl hle
      exact .evicted _ rfl rfl rfl
    · cases hjob
  | auditLogs _ | caught =>
    obtain rfl := Option.some.inj hjob
    obtain rfl := hnext rfl rfl hle
    exact .audited
  | authProviders hpc' =>
    rcases hpc' with rfl | rfl
    · obtain rfl := Option.some.inj hjob
      obtain rfl := hnext rfl rfl hle
      exact .unlinked rfl
    · cases hjob
  | audit | complete | fail => cases hjob

/-- Only the last statement completes a job. -/
theorem erased_next (hn : next cfg s c d = some (s', c')) {job : EraseJob} (hjob : job ∈ s'.erased) :
    job ∈ s.erased ∨ c = .erasureWorker (.audit job) := by
  cases c with
  | transition service o pc =>
    obtain ⟨pc', hpc, -⟩ := pc_of_next hn
    cases pc with
    | returned | threw e => cases hpc
    | _ =>
      obtain ⟨rfl, -⟩ := Prod.mk.inj (Option.some.inj hpc)
      exact Or.inl hjob
  | offboard o pc =>
    obtain ⟨pc', hpc, -⟩ := pc_of_next hn
    cases pc with
    | accepted | threw e => cases hpc
    | _ =>
      obtain ⟨rfl, -⟩ := Prod.mk.inj (Option.some.inj hpc)
      exact Or.inl hjob
  | offboardingWorker pc =>
    obtain ⟨pc', hpc, -⟩ := pc_of_next hn
    cases offboardStep_of_next hpc <;> exact Or.inl hjob
  | erasureWorker pc =>
    obtain ⟨pc', hpc, -⟩ := pc_of_next hn
    cases eraseStep_of_next hpc with
    | complete =>
      rcases List.mem_cons.mp hjob with rfl | hjob
      · exact Or.inr rfl
      · exact Or.inl hjob
    | _ => exact Or.inl hjob
  | auth c =>
    obtain ⟨a, c', -, rfl, rfl⟩ := auth_of_next hn
    exact Or.inl hjob

/-- What a statement does to the data of users. -/
inductive UserEffect (cfg : Config) (d : Draw) (s s' : Store) : Call → Call → Prop
  | same {c c' : Call} : s'.auth = s.auth → s'.profiles = s.profiles →
      s'.authProviders = s.authProviders → s'.invitations = s.invitations →
      c.inserts = none → UserEffect cfg d s s' c c'
  | erase {pc pc' : ErasePc} : EraseStep cfg s pc s' pc' →
      UserEffect cfg d s s' (.erasureWorker pc) (.erasureWorker pc')
  | auth {c c' : Auth.Call} {a : Auth.Store} : Auth.next cfg.auth s.auth c d.auth = some (a, c') →
      s' = { s with auth := a } → UserEffect cfg d s s' (.auth c) (.auth c')

/-- What each statement of a call does to the users. -/
theorem userEffect_of_next (hn : next cfg s c d = some (s', c')) : UserEffect cfg d s s' c c' := by
  cases c with
  | transition service o pc =>
    obtain ⟨pc', hpc, -⟩ := pc_of_next hn
    cases pc with
    | returned | threw e => cases hpc
    | _ =>
      obtain ⟨rfl, -⟩ := Prod.mk.inj (Option.some.inj hpc)
      exact .same rfl rfl rfl rfl rfl
  | offboard o pc =>
    obtain ⟨pc', hpc, -⟩ := pc_of_next hn
    cases pc with
    | accepted | threw e => cases hpc
    | _ =>
      obtain ⟨rfl, -⟩ := Prod.mk.inj (Option.some.inj hpc)
      exact .same rfl rfl rfl rfl rfl
  | offboardingWorker pc =>
    obtain ⟨pc', hpc, -⟩ := pc_of_next hn
    cases offboardStep_of_next hpc <;> exact .same rfl rfl rfl rfl rfl
  | erasureWorker pc =>
    obtain ⟨pc', hpc, rfl⟩ := pc_of_next hn
    exact .erase (eraseStep_of_next hpc)
  | auth c =>
    obtain ⟨a, c', ha, rfl, rfl⟩ := auth_of_next hn
    exact .auth ha rfl

end Steps

/-! ## What the statements have done, and what keeps it -/

/-- The row of the user says nothing of who it was. -/
structure Gone (u : String) (s : Store) : Prop where
  row : ∀ row ∈ s.auth.primary.users u, eraseUser row = row
  profile : ∃ p t, s.profiles u = Profile.erase u t p

/-- No refresh token of the user is live. -/
def Revoked (u : String) (s : Store) : Prop :=
  ∀ r ∈ s.auth.refreshTokens.rows, r.userId = u → r.isRevoked = true

/-- The user is not cached as anything but deleted. -/
def CacheGone (u : String) (s : Store) : Prop :=
  ∀ x ∈ s.auth.userCache u, x.value.status = .deleted

/-- No provider identifies the user. -/
def Unlinked (u : String) (s : Store) : Prop := ∀ r ∈ s.authProviders, r.userId ≠ u

section Effects

variable {cfg : Config} {s s' : Store} {c c' : Call} {d : Draw} {u : String}

theorem Gone.deleted (h : Gone u s) {row : Auth.UserRow} (hrow : row ∈ s.auth.primary.users u) :
    row.deleted = true := by
  rw [← h.row row hrow]
  rfl

theorem Gone.status (h : Gone u s) {row : Auth.UserRow} (hrow : row ∈ s.auth.primary.users u) :
    row.status = .deleted := by
  rw [← h.row row hrow]
  rfl

theorem gone_anonymise (u : String) (s : Store) : Gone u (s.anonymise u) := by
  refine ⟨fun row hrow => ?_, s.profiles u, s.now, Function.update_self ..⟩
  have hself : (s.anonymise u).auth.primary.users u = (s.auth.primary.users u).map eraseUser :=
    Function.update_self ..
  rw [hself] at hrow
  obtain ⟨row₀, -, rfl⟩ := Option.map_eq_some_iff.mp hrow
  rfl

theorem Gone.anonymise (h : Gone u s) (v : String) : Gone u (s.anonymise v) := by
  by_cases hv : u = v
  · subst hv
    exact gone_anonymise u s
  · refine ⟨fun row hrow => h.row row ?_, ?_⟩
    · rwa [Store.anonymise_users, Function.update_of_ne hv] at hrow
    · rw [Store.anonymise_profiles, Function.update_of_ne hv]
      exact h.profile

/-- An UPDATE of the authentication services passes a deleted row by. -/
theorem updateUser_of_deleted {a : Auth.Store} (hdel : ∀ row ∈ a.primary.users u, row.deleted = true)
    (id : String) (f : Auth.UserRow → Auth.UserRow) :
    (a.updateUser id f).primary.users u = a.primary.users u := by
  unfold Auth.Store.updateUser
  split
  · rfl
  · rename_i row hrow
    by_cases hid : u = id
    · subst hid
      rw [if_pos (hdel row hrow)]
    · split
      · rfl
      · exact Function.update_of_ne hid ..

/-- No call of the authentication changes a user whose row is deleted. -/
theorem users_of_deleted {a a' : Auth.Store} {c c' : Auth.Call} {x : Auth.Draw}
    (hn : Auth.next cfg.auth a c x = some (a', c'))
    (hdel : ∀ row ∈ a.primary.users u, row.deleted = true) :
    a'.primary.users u = a.primary.users u := by
  cases Auth.userStep_of_next hn with
  | same hp _ | evict _ hp _ | cache _ _ hp _ => rw [hp]
  | verify id hp _ | change _ _ id _ _ hp _ =>
    rw [hp]
    exact updateUser_of_deleted hdel id _

/-- **The row stays as it is.** -/
theorem Gone.next (h : Gone u s) (hn : next cfg s c d = some (s', c')) : Gone u s' := by
  cases userEffect_of_next hn with
  | same hauth hprofiles _ _ _ =>
    refine ⟨fun row hrow => h.row row ?_, ?_⟩
    · rwa [hauth] at hrow
    · rw [hprofiles]
      exact h.profile
  | erase hstep =>
    cases hstep with
    | anonymise _ => exact h.anonymise _
    | _ => exact ⟨h.row, h.profile⟩
  | auth ha heq =>
    subst heq
    refine ⟨fun row hrow => h.row row ?_, h.profile⟩
    rwa [Option.mem_def, users_of_deleted ha fun row hrow => h.deleted hrow] at hrow

/-- A step on the tokens updates them, or inserts the row of the pair that is held. -/
theorem inserted_of_step {acfg : Auth.Config} {now : ℕ} {x : Auth.Draw} {t t' : Auth.RefreshTokens}
    {is is' : List Auth.Issued} {h h' : Auth.Hold} (hs : Auth.TokenStep acfg now x t is h t' is' h') :
    Auth.Updates t t' ∨ ∃ m, inserted h = some m ∧ t.insert (m.row acfg x.rowId) = some t' := by
  cases hs with
  | update hu | finish hu => exact Or.inl hu
  | release | claim _ _ | «open» _ _ => exact Or.inl (.refl _)
  | rotate _ _ _ => exact Or.inl (.revokeWhere _ _)
  | insert hins | create hins => exact Or.inr ⟨_, rfl, hins⟩

theorem Revoked.updates (h : Revoked u s) {a : Auth.Store}
    (hu : Auth.Updates s.auth.refreshTokens a.refreshTokens) : Revoked u { s with auth := a } := by
  obtain ⟨f, hrows, hf⟩ := hu
  intro r hr huser
  rw [hrows] at hr
  obtain ⟨r₀, hr₀, rfl⟩ := List.mem_map.mp hr
  obtain ⟨-, hsame, -, -, hkeeps⟩ := hf r₀
  exact hkeeps (h r₀ hr₀ (hsame.symm.trans huser))

/-- After the UPDATE no refresh token of the user is live. -/
theorem revoked_revokeAllUserTokens (u : String) (s : Store) :
    Revoked u (s.revokeAllUserTokens u) := by
  intro r hr huser
  obtain ⟨r₀, -, rfl⟩ := List.mem_map.mp hr
  obtain rfl : r₀.userId = u := huser
  show (r₀.isRevoked || decide (r₀.userId = r₀.userId ∧ r₀.isRevoked = false)) = true
  cases r₀.isRevoked with
  | false => exact decide_eq_true ⟨rfl, rfl⟩
  | true => rfl

/-- **The tokens stay revoked**, as long as none of the user is inserted. -/
theorem Revoked.next (h : Revoked u s) (hn : next cfg s c d = some (s', c'))
    (hins : ∀ m ∈ c.inserts, m.userId ≠ u) : Revoked u s' := by
  cases userEffect_of_next hn with
  | same hauth _ _ _ _ =>
    unfold Revoked
    rw [hauth]
    exact h
  | erase hstep =>
    cases hstep with
    | revoke _ => exact h.updates (.revokeWhere _ _)
    | _ => exact h
  | auth ha heq =>
    subst heq
    rcases inserted_of_step (Auth.tokenStep_of_next ha) with hu | ⟨m, hm, hinsert⟩
    · exact h.updates hu
    · intro r hr huser
      rw [Auth.RefreshTokens.insert_rows hinsert] at hr
      rcases List.mem_cons.mp hr with rfl | hr
      · exact absurd huser (hins m hm)
      · exact h r hr huser

theorem cacheGone_delUserCache (u : String) (s : Store) : CacheGone u (s.delUserCache u) := by
  intro x hx
  rw [Store.delUserCache_userCache, Function.update_self] at hx
  cases hx

theorem CacheGone.evict (h : CacheGone u s) (v : String) : CacheGone u (s.delUserCache v) := by
  intro x hx
  by_cases hv : u = v
  · subst hv
    exact cacheGone_delUserCache u s x hx
  · rw [Store.delUserCache_userCache, Function.update_of_ne hv] at hx
    exact h x hx

/-- **The cache stays so**, as long as nothing older is cached. -/
theorem CacheGone.next (h : CacheGone u s) (hn : next cfg s c d = some (s', c'))
    (hc : c.CachesGone u) : CacheGone u s' := by
  cases userEffect_of_next hn with
  | same hauth _ _ _ _ =>
    unfold CacheGone
    rw [hauth]
    exact h
  | erase hstep =>
    cases hstep with
    | delCache _ => exact h.evict _
    | _ => exact h
  | auth ha heq =>
    subst heq
    have hcongr : ∀ {b : Auth.Store}, (∀ x ∈ b.userCache u, x.value.status = .deleted) →
        ∀ {a : Auth.Store}, a.userCache = b.userCache → CacheGone u { s with auth := a } := by
      intro b hb a hab x hx
      rw [show ({ s with auth := a } : Store).auth.userCache = _ from hab] at hx
      exact hb x hx
    cases Auth.userStep_of_next ha with
    | same _ hcache | verify _ _ hcache | change _ _ _ _ _ _ hcache => exact hcongr h hcache
    | evict id _ hcache => exact hcongr (h.evict id) hcache
    | cache token user _ hcache =>
      refine hcongr (fun x hx => ?_) hcache
      have hset : (s.auth.setUserCache token.sub user).userCache = Function.update s.auth.userCache
          token.sub (some ⟨user, s.auth.now + Auth.Store.userCacheTtl⟩) := rfl
      rw [hset] at hx
      by_cases hid : u = token.sub
      · subst hid
        rw [Function.update_self] at hx
        obtain rfl := Option.some.inj hx
        exact hc rfl
      · rw [Function.update_of_ne hid] at hx
        exact h x hx

/-- No statement gives an unlinked user a provider. -/
theorem Unlinked.next (h : Unlinked u s) (hn : next cfg s c d = some (s', c')) :
    Unlinked u s' := by
  cases userEffect_of_next hn with
  | same _ _ hproviders _ _ =>
    unfold Unlinked
    rw [hproviders]
    exact h
  | erase hstep =>
    cases hstep with
    | authProviders _ => exact fun r hr => h r (List.mem_filter.mp hr).1
    | _ => exact h
  | auth _ heq =>
    subst heq
    exact h

/-- Behind the check nothing is cached. -/
theorem cachesGone_checkUser (u : String) (token : AccessToken) (user : CachedUser) :
    Call.CachesGone u (.auth (.authenticate token (Auth.checkUser token user))) := by
  unfold Auth.checkUser
  repeat' split
  all_goals trivial

/-- What a request is about to cache is the row it has read. -/
theorem cachesGone_next (h : Gone u s) (hn : next cfg s c d = some (s', c'))
    (hc : c.CachesGone u) : c'.CachesGone u := by
  cases c with
  | auth c =>
    obtain ⟨a, c', ha, -, rfl⟩ := auth_of_next hn
    cases c with
    | authenticate token pc =>
      obtain ⟨pc', hpc, rfl⟩ := pc_of_next ha
      cases pc with
      | select =>
        obtain ⟨-, rfl⟩ := Prod.mk.inj (Option.some.inj hpc)
        cases hsel : s.auth.selectCachedUser token.sub with
        | none => trivial
        | some user =>
          rintro rfl
          obtain ⟨row, hrow, rfl⟩ := Option.map_eq_some_iff.mp hsel
          exact h.status hrow
      | verify | blacklist =>
        obtain ⟨-, rfl⟩ := Prod.mk.inj (Option.some.inj hpc)
        split <;> trivial
      | cacheGet =>
        obtain ⟨-, rfl⟩ := Prod.mk.inj (Option.some.inj hpc)
        cases s.auth.getUserCache token.sub with
        | none => trivial
        | some user =>
          dsimp only
          split
          · exact cachesGone_checkUser u token user
          · trivial
      | setex user =>
        obtain ⟨-, rfl⟩ := Prod.mk.inj (Option.some.inj hpc)
        exact cachesGone_checkUser u token user
      | accepted | threw e => cases hpc
    | _ =>
      obtain ⟨pc', -, rfl⟩ := pc_of_next ha
      trivial
  | _ =>
    obtain ⟨pc', -, rfl⟩ := pc_of_next hn
    trivial

/-- What a run makes of the rows: users are erased or not, providers are gone or not. -/
structure Descends (s₀ s : Store) : Prop where
  users : ∀ v, (s.auth.primary.users v).isSome → (s₀.auth.primary.users v).isSome
  profiles : ∀ v, s.profiles v = s₀.profiles v ∨ ∃ p t, s.profiles v = Profile.erase v t p
  authProviders : ∀ r ∈ s.authProviders, r ∈ s₀.authProviders
  invitations : s.invitations = s₀.invitations

/-- No call of the authentication removes a user. -/
theorem users_isSome {a a' : Auth.Store} {c c' : Auth.Call} {x : Auth.Draw} {v : String}
    (hn : Auth.next cfg.auth a c x = some (a', c')) (h : (a'.primary.users v).isSome) :
    (a.primary.users v).isSome := by
  have hupdate : ∀ {id : String} {f : Auth.UserRow → Auth.UserRow},
      a'.primary = (a.updateUser id f).primary → (a.primary.users v).isSome := by
    intro id f hp
    rw [hp] at h
    obtain ⟨row, hrow⟩ := Option.isSome_iff_exists.mp h
    rcases Auth.updateUser_users hrow with hold | ⟨-, row₀, hrow₀, -⟩
    · exact Option.isSome_of_eq_some hold
    · exact Option.isSome_of_eq_some hrow₀
  cases Auth.userStep_of_next hn with
  | same hp _ | evict _ hp _ | cache _ _ hp _ => rwa [hp] at h
  | verify id hp _ | change _ _ id _ _ hp _ => exact hupdate hp

/-- Every session of the user still descends from one of before. -/
theorem Descends.next {s₀ : Store} (h : Descends s₀ s) (hn : next cfg s c d = some (s', c')) :
    Descends s₀ s' := by
  cases userEffect_of_next hn with
  | same hauth hprofiles hproviders hinvitations _ =>
    refine ⟨?_, ?_, ?_, hinvitations.trans h.invitations⟩
    · rw [hauth]
      exact h.users
    · rw [hprofiles]
      exact h.profiles
    · rw [hproviders]
      exact h.authProviders
  | erase hstep =>
    cases hstep with
    | @anonymise job _ _ =>
      refine { h with users := fun v hv => h.users v ?_, profiles := fun v => ?_ }
      · rw [Store.anonymise_users] at hv
        by_cases hid : v = job.userId
        · subst hid
          rwa [Function.update_self, Option.isSome_map] at hv
        · rwa [Function.update_of_ne hid] at hv
      · rw [Store.anonymise_profiles]
        by_cases hid : v = job.userId
        · subst hid
          rw [Function.update_self]
          exact Or.inr ⟨_, _, rfl⟩
        · rw [Function.update_of_ne hid]
          exact h.profiles v
    | authProviders _ =>
      exact { h with authProviders := fun r hr => h.authProviders r (List.mem_filter.mp hr).1 }
    | _ => exact ⟨h.users, h.profiles, h.authProviders, h.invitations⟩
  | auth ha heq =>
    subst heq
    exact { h with users := fun v hv => h.users v (users_isSome ha hv) }

/-! ### The environment -/

/-- The surroundings leave an erased user so, unless they write that user. -/
theorem Gone.env (h : Gone u s) {e : Env}
    (he : ∀ id isPlatformAdmin status deleted,
      e = .auth (.writeUser id isPlatformAdmin status deleted) → id ≠ u) : Gone u (Gdpr.env s e) := by
  cases e with
  | auth e =>
    cases e with
    | writeUser id isPlatformAdmin status deleted =>
      have hne : u ≠ id := (he id _ _ _ rfl).symm
      refine ⟨fun row hrow => h.row row ?_, h.profile⟩
      dsimp only [Gdpr.env, Auth.env] at hrow
      rwa [Option.mem_def, Function.update_of_ne hne] at hrow
    | _ => exact ⟨h.row, h.profile⟩
  | _ => exact ⟨h.row, h.profile⟩

theorem Revoked.env (h : Revoked u s) (e : Env) : Revoked u (Gdpr.env s e) := by
  cases e with
  | auth e => exact fun r hr => h r (by rwa [Gdpr.env, Auth.env_refreshTokens] at hr)
  | _ => exact h

theorem CacheGone.env (h : CacheGone u s) (e : Env) : CacheGone u (Gdpr.env s e) := by
  cases e with
  | auth e =>
    cases e with
    | evictUser id => exact h.evict id
    | _ => exact h
  | _ => exact h

/-- So does what the surroundings write. -/
theorem Descends.env {s₀ : Store} (h : Descends s₀ s) (e : Env) : Descends s₀ (Gdpr.env s e) := by
  cases e with
  | auth e =>
    cases e with
    | writeUser id isPlatformAdmin status deleted =>
      refine { h with users := fun v hv => h.users v ?_ }
      dsimp only [Gdpr.env, Auth.env] at hv
      by_cases hid : v = id
      · subst hid
        rwa [Function.update_self, Option.isSome_map] at hv
      · rwa [Function.update_of_ne hid] at hv
    | _ => exact ⟨h.users, h.profiles, h.authProviders, h.invitations⟩
  | _ => exact ⟨h.users, h.profiles, h.authProviders, h.invitations⟩

end Effects

/-! ## Every run -/

section Invariant

variable {ι : Type*} {cfg : Config} {u : String} {s₀ : Store}

/-- What undisturbed runs keep. -/
structure ErasureInv (u : String) (s₀ : Store) (p : Calls ι) : Prop where
  gone : Reached u 2 p → Gone u p.store
  revoked : Reached u 3 p → Revoked u p.store
  cache : Reached u 4 p → CacheGone u p.store ∧ ∀ k, (p.calls k).Keeps (Call.CachesGone u)
  unlinked : Reached u 6 p → Unlinked u p.store
  descends : Descends s₀ p.store

theorem Reached.mono {m n : ℕ} {p : Calls ι} (h : Reached u n p) (hle : m ≤ n) :
    Reached u m p := by
  rcases h with hdone | ⟨j, hj⟩
  · exact Or.inl hdone
  · refine Or.inr ⟨j, hj.imp fun c hc => ?_⟩
    cases c with
    | erasureWorker pc => exact ⟨hle.trans hc.1, hc.2⟩
    | _ => cases hc

theorem Reached.env {n : ℕ} {p : Calls ι} {e : Env} (h : Reached u n ⟨Gdpr.env p.store e, p.calls⟩) :
    Reached u n p := by
  rcases h with hdone | hlive
  · refine Or.inl ?_
    cases e <;> exact hdone
  · exact Or.inr hlive

variable [DecidableEq ι]

theorem Reached.crash {n : ℕ} {p : Calls ι} {i : ι} {c : Call}
    (h : Reached u n ⟨p.store, Function.update p.calls i (.down c)⟩) : Reached u n p := by
  rcases h with hdone | ⟨j, hj⟩
  · exact Or.inl hdone
  · exact Or.inr ⟨j, (live_update_down hj).2⟩

/-- A statement was reached before, or is reached by the statement before it. -/
theorem Reached.run {n : ℕ} {p : Calls ι} {i : ι} {c c' : Call} {d : Draw} {s' : Store}
    (h : Reached u n ⟨s', Function.update p.calls i (.up c')⟩) (hle : n ≤ 6)
    (hc : p.calls i = .up c) (hn : next cfg p.store c d = some (s', c')) :
    Reached u n p ∨ ∃ pc pc', c = .erasureWorker pc ∧ c' = .erasureWorker pc'
      ∧ Brings u p.store s' pc n := by
  rcases h with ⟨job, hjob, hu⟩ | ⟨j, hj⟩
  · rcases erased_next hn hjob with hold | rfl
    · exact Or.inl (Or.inl ⟨job, hold, hu⟩)
    · refine Or.inl (Or.inr ⟨i, ?_⟩)
      rw [hc]
      exact ⟨hle, job, rfl, hu⟩
  · rcases live_update_up hj with ⟨rfl, hpast⟩ | ⟨-, hlive⟩
    · by_cases hold : Call.Past u n c
      · refine Or.inl (Or.inr ⟨j, ?_⟩)
        rw [hc]
        exact hold
      · cases c with
        | erasureWorker pc =>
          obtain ⟨pc', hpc, rfl⟩ := pc_of_next hn
          exact Or.inr ⟨pc, pc', rfl, rfl, brings_of_past (eraseStep_of_next hpc) hpast hold⟩
        | auth c =>
          obtain ⟨a, c', -, -, rfl⟩ := auth_of_next hn
          cases hpast
        | _ =>
          obtain ⟨pc', -, rfl⟩ := pc_of_next hn
          cases hpast
    · exact Or.inl (Or.inr ⟨j, hlive⟩)

/-- A statement undoes nothing of what the job has done, where nobody disturbs it. -/
theorem ErasureInv.run {p : Calls ι} {i : ι} {c c' : Call} {d : Draw} {s' : Store}
    (h : ErasureInv u s₀ p) (hG : Undisturbed u p (.run i d)) (hc : p.calls i = .up c)
    (hn : next cfg p.store c d = some (s', c')) :
    ErasureInv u s₀ ⟨s', Function.update p.calls i (.up c')⟩ := by
  obtain ⟨hinserts, hevicts⟩ := hG
  rw [hc] at hinserts hevicts
  refine ⟨fun hr => ?_, fun hr => ?_, fun hr => ?_, fun hr => ?_, h.descends.next hn⟩
  · rcases hr.run (by decide) hc hn with hold | ⟨pc, pc', rfl, rfl, hbrings⟩
    · exact (h.gone hold).next hn
    · cases hbrings with
      | taken hle => exact absurd hle (by decide)
      | anonymised heq =>
        subst heq
        exact gone_anonymise u p.store
  · rcases hr.run (by decide) hc hn with hold | ⟨pc, pc', rfl, rfl, hbrings⟩
    · exact (h.revoked hold).next hn fun m hm hu => hinserts ⟨m, hm, hu⟩ hold
    · cases hbrings with
      | taken hle => exact absurd hle (by decide)
      | revoked heq =>
        subst heq
        exact revoked_revokeAllUserTokens u p.store
  · rcases hr.run (by decide) hc hn with hold | ⟨pc, pc', rfl, rfl, hbrings⟩
    · obtain ⟨hcache, hcalls⟩ := h.cache hold
      have hself := (hcalls i).of_up hc
      have hgone := h.gone (hold.mono (by decide))
      exact ⟨hcache.next hn hself,
        keeps_update_up (cachesGone_next hgone hn hself) fun j _ => hcalls j⟩
    · cases hbrings with
      | taken hle => exact absurd hle (by decide)
      | evicted job hpc hu heq =>
        subst heq hpc
        refine ⟨cacheGone_delUserCache u p.store, keeps_update_up trivial fun j _ => ?_⟩
        exact hevicts (decide_eq_true hu) j
  · rcases hr.run le_rfl hc hn with hold | ⟨pc, pc', rfl, rfl, hbrings⟩
    · exact (h.unlinked hold).next hn
    · cases hbrings with
      | taken hle => exact absurd hle (by decide)
      | unlinked heq =>
        subst heq
        exact fun r hr => of_decide_eq_true (List.mem_filter.mp hr).2

theorem ErasureInv.crash {p : Calls ι} {i : ι} {c : Call} (h : ErasureInv u s₀ p) :
    ErasureInv u s₀ ⟨p.store, Function.update p.calls i (.down c)⟩ where
  gone hr := h.gone hr.crash
  revoked hr := h.revoked hr.crash
  cache hr := ⟨(h.cache hr.crash).1, keeps_update_down (h.cache hr.crash).2⟩
  unlinked hr := h.unlinked hr.crash
  descends := h.descends

omit [DecidableEq ι] in
/-- What the surroundings do keeps the invariant, where they leave the user alone. -/
theorem ErasureInv.env {p : Calls ι} {e : Env} (h : ErasureInv u s₀ p)
    (hG : Undisturbed u p (.env e)) : ErasureInv u s₀ ⟨Gdpr.env p.store e, p.calls⟩ where
  gone hr := (h.gone hr.env).env fun id _ _ _ heq => by
    subst heq
    exact hG
  revoked hr := (h.revoked hr.env).env e
  cache hr := ⟨(h.cache hr.env).1.env e, (h.cache hr.env).2⟩
  unlinked hr := by
    cases e <;> exact h.unlinked hr.env
  descends := h.descends.env e

/-- No job of the user has been started. -/
structure Unstarted (u : String) (p : Calls ι) : Prop where
  erased : ∀ job ∈ p.store.erased, job.userId ≠ u
  workers : ∀ i, ¬ (p.calls i).Live (Call.Past u 1)

omit [DecidableEq ι] in
theorem Unstarted.not_reached {p : Calls ι} (h : Unstarted u p) {n : ℕ} (hn : 1 ≤ n) :
    ¬ Reached u n p := by
  intro hr
  rcases hr.mono hn with ⟨job, hjob, hu⟩ | ⟨j, hj⟩
  · exact h.erased job hjob hu
  · exact h.workers j hj

/-- The invariant of the erasure holds in every state of such a run. -/
theorem erasureInv_run {p q : Calls ι} (hstart : Unstarted u p)
    (hrun : Run (Pool.step (gdprMachine cfg)) (Undisturbed u) p q) :
    ErasureInv u p.store q := by
  refine Pool.invariant (I := ErasureInv u p.store) ?_ ?_ ?_ ?_ hrun
  · exact ⟨fun hr => absurd hr (hstart.not_reached (by decide)),
      fun hr => absurd hr (hstart.not_reached (by decide)),
      fun hr => absurd hr (hstart.not_reached (by decide)),
      fun hr => absurd hr (hstart.not_reached (by decide)),
      fun _ h => h, fun _ => Or.inl rfl, fun _ h => h, rfl⟩
  · exact fun p i d c s' c' h hG hc hn => h.run hG hc hn
  · exact fun p i c h _ _ => h.crash
  · exact fun p e h hG => h.env hG

end Invariant

/-! ## What is left -/

section Result

variable {cfg : Config} {s s' s₀ : Store} {u o text : String}

/-- **Nobody mentions the user** by a text that was the user's alone. -/
theorem not_mentions (hown : Own s₀ u text) (hd : Descends s₀ s) (hgone : Gone u s)
    (hunlinked : Unlinked u s) : ¬ Mentions s text := by
  have herased : ∀ {v : String} {p : Profile} {t : ℕ}, (s₀.auth.primary.users v).isSome →
      ∀ value ∈ (Profile.erase v t p).texts, ¬ Occurs text value := by
    intro v p t hv value hvalue
    rcases List.mem_cons.mp hvalue with rfl | hvalue
    · exact hown.emails v hv
    · rw [List.mem_singleton.mp hvalue]
      exact hown.name
  rintro (⟨v, hv, value, hvalue, hocc⟩ | ⟨r, hr, value, hvalue, hocc⟩ | ⟨v, hv, hocc⟩)
  · have hv₀ := hd.users v hv
    by_cases hu : v = u
    · subst hu
      obtain ⟨p, t, hp⟩ := hgone.profile
      rw [hp] at hvalue
      exact herased hv₀ value hvalue hocc
    · rcases hd.profiles v with hsame | ⟨p, t, hp⟩
      · rw [hsame] at hvalue
        exact hown.users v hu hv₀ value hvalue hocc
      · rw [hp] at hvalue
        exact herased hv₀ value hvalue hocc
  · exact hown.authProviders r (hd.authProviders r hr) (hunlinked r hr) value hvalue hocc
  · rw [hd.invitations] at hv
    exact hown.invitations v hv hocc

/-- To revoke the tokens of a user a second time changes nothing. -/
theorem revokeAllUserTokens_of_revoked (h : Revoked u s) :
    (s.revokeAllUserTokens u).auth.refreshTokens.rows = s.auth.refreshTokens.rows := by
  have hsame : ∀ r ∈ s.auth.refreshTokens.rows,
      RefreshTokenRow.revokeIf (fun r => r.userId = u ∧ r.isRevoked = false) r = r := by
    intro r hr
    have hnot : ¬ (r.userId = u ∧ r.isRevoked = false) := by
      rintro ⟨hu, hlive⟩
      rw [h r hr hu] at hlive
      cases hlive
    unfold RefreshTokenRow.revokeIf
    dsimp only
    rw [decide_eq_false hnot, Bool.or_false]
  exact (List.map_congr_left hsame).trans (List.map_id _)

theorem anonymise_of_gone (h : Gone u s) :
    (s.anonymise u).auth.primary.users = s.auth.primary.users := by
  rw [Store.anonymise_users]
  refine (Function.update_eq_self_iff).mpr ?_
  cases hrow : s.auth.primary.users u with
  | none => rfl
  | some row => rw [Option.map_some, h.row row hrow]

/-- What the job finds and leaves when it runs again. -/
structure Idle (u : String) (s : Store) (x : Store × ErasePc) : Prop where
  same : SameData u s x.1
  gone : Gone u x.1
  revoked : Revoked u x.1
  unlinked : Unlinked u x.1
  job : ∀ job ∈ x.2.job, job.userId = u

/-- The job that runs again changes nothing. -/
theorem Idle.step {s₁ s₂ : Store} {pc pc' : ErasePc} (h : Idle u s (s₁, pc)) (hpc : pc ≠ .idle)
    (hn : EraseStep cfg s₁ pc s₂ pc') : Idle u s (s₂, pc') := by
  have hgoes : ∀ {job : EraseJob} {pc₁ : ErasePc}, job.userId = u → pc' = pc₁ ∨ pc' = .idle →
      pc₁.job = some job → ∀ j ∈ pc'.job, j.userId = u := by
    rintro job pc₁ hu (rfl | rfl) heq j hj
    · rw [heq] at hj
      obtain rfl := Option.some.inj hj
      exact hu
    · cases hj
  have hsame := h.same
  cases hn with
  | take _ => exact absurd rfl hpc
  | @anonymise job _ hpc' =>
    obtain rfl := h.job job rfl
    refine ⟨{ hsame with
      users := (anonymise_of_gone h.gone).trans hsame.users
      profiles := fun v => ?_ }, gone_anonymise _ s₁, h.revoked, h.unlinked, hgoes rfl hpc' rfl⟩
    rw [← hsame.profiles v, Store.anonymise_profiles]
    by_cases hv : v = job.userId
    · subst hv
      obtain ⟨p, t, hp⟩ := h.gone.profile
      rw [Function.update_self, hp]
      rfl
    · rw [Function.update_of_ne hv]
  | @revoke job _ hpc' =>
    obtain rfl := h.job job rfl
    exact ⟨{ hsame with
      refreshTokens := (revokeAllUserTokens_of_revoked h.revoked).trans hsame.refreshTokens },
      ⟨h.gone.row, h.gone.profile⟩, revoked_revokeAllUserTokens _ s₁, h.unlinked,
      hgoes rfl hpc' rfl⟩
  | @delCache job _ hpc' =>
    obtain rfl := h.job job rfl
    refine ⟨{ hsame with userCache := fun v hv => ?_ }, ⟨h.gone.row, h.gone.profile⟩, h.revoked,
      h.unlinked, hgoes rfl hpc' rfl⟩
    rw [Store.delUserCache_userCache, Function.update_of_ne hv]
    exact hsame.userCache v hv
  | auditLogs _ =>
    exact ⟨{ hsame with }, ⟨h.gone.row, h.gone.profile⟩, h.revoked, h.unlinked,
      hgoes (h.job _ rfl) (Or.inl rfl) rfl⟩
  | caught =>
    exact ⟨{ hsame with }, ⟨h.gone.row, h.gone.profile⟩, h.revoked, h.unlinked,
      hgoes (h.job _ rfl) (Or.inl rfl) rfl⟩
  | @authProviders job _ hpc' =>
    obtain rfl := h.job job rfl
    have hfilter : s₁.authProviders.filter (·.userId ≠ job.userId) = s₁.authProviders :=
      List.filter_eq_self.mpr fun r hr => decide_eq_true (h.unlinked r hr)
    exact ⟨{ hsame with authProviders := hfilter.trans hsame.authProviders },
      ⟨h.gone.row, h.gone.profile⟩, h.revoked, fun r hr => h.unlinked r (List.mem_filter.mp hr).1,
      hgoes rfl hpc' rfl⟩
  | audit | complete =>
    exact ⟨{ hsame with }, ⟨h.gone.row, h.gone.profile⟩, h.revoked, h.unlinked, nofun⟩
  | fail => exact ⟨hsame, h.gone, h.revoked, h.unlinked, nofun⟩

/-- **To run it again changes nothing.** -/
theorem sameData_of_runsAgain (hgone : Gone u s) (hrevoked : Revoked u s)
    (hunlinked : Unlinked u s) (h : RunsAgain cfg ⟨u, o⟩ s s') : SameData u s s' := by
  obtain ⟨pc', hrun⟩ := h
  have hend : Idle u s (s', pc') := by
    refine hrun.invariant (I := Idle u s)
      ⟨⟨rfl, fun _ => rfl, rfl, fun _ _ => rfl, rfl, rfl, rfl, rfl, rfl⟩, hgone, hrevoked,
        hunlinked, ?_⟩ fun x d y hx hpc hn => hx.step hpc (eraseStep_of_next hn)
    intro job hjob
    obtain rfl := Option.some.inj hjob
    rfl
  exact hend.same

variable {ι : Type*} [DecidableEq ι]

/-- **Nothing is left of the user** once a job of the user is completed, in every undisturbed run,
where the address and the name were the user's alone. -/
theorem erased_of_undisturbed {p q : Calls ι} (hstart : Unstarted u p)
    (hemail : Own p.store u (p.store.profiles u).email)
    (hname : Own p.store u (p.store.profiles u).name)
    (hrun : Run (Pool.step (gdprMachine cfg)) (Undisturbed u) p q)
    (hdone : ⟨u, o⟩ ∈ q.store.erased) : Erased cfg p.store u q.store := by
  have hinv := erasureInv_run hstart hrun
  have hreached : ∀ n, Reached u n q := fun n => Or.inl ⟨_, hdone, rfl⟩
  have hgone := hinv.gone (hreached 2)
  have hrevoked := hinv.revoked (hreached 3)
  have hcache := (hinv.cache (hreached 4)).1
  have hunlinked := hinv.unlinked (hreached 6)
  exact ⟨not_mentions hemail hinv.descends hgone hunlinked,
    not_mentions hname hinv.descends hgone hunlinked, hrevoked,
    fun _ _ => Session.jwt_refuses ⟨fun _ hrow => hgone.status hrow, hcache⟩,
    fun _ _ hagain => sameData_of_runsAgain hgone hrevoked hunlinked hagain⟩

end Result

/-! ## An invitation -/

/-- A worker, and the job to erase `u`. -/
def eraseU (s : Store) : Calls (Fin 1) :=
  ⟨{ s with eraseJobs := [⟨"u", "A"⟩] }, fun _ => .up (.erasureWorker .idle)⟩

/-- `u` once accepted an invitation to `A`. -/
def invited : Store :=
  { demoStore with invitations := [⟨"i", "A", "u@x", ⟨.member, Organization.member_ne_orgOwner⟩, "h",
    .accepted, 0⟩] }

/-- **The invitation keeps the address** of a user who is erased without any disturbance. -/
theorem invitation_keeps_email :
    ¬ ∀ q : Calls (Fin 1), Run (Pool.step (gdprMachine demoConfig)) anyStep (eraseU invited) q →
      ⟨"u", "A"⟩ ∈ q.store.erased → Erased demoConfig invited "u" q.store := by
  intro hclaim
  obtain ⟨q, hrun, hend⟩ := exists_run_of_exec (Pool.step (gdprMachine demoConfig)) anyStep
    (eraseU invited) (List.replicate 7 (.run 0 demoDraw))
    (fun q => ⟨"u", "A"⟩ ∈ q.store.erased ∧ q.store.invitations = invited.invitations) (by decide)
  obtain ⟨hdone, hinvitations⟩ := of_decide_eq_true hend
  refine (hclaim q hrun hdone).email (.invitation ?_)
  rw [hinvitations]
  exact ⟨_, List.mem_cons_self, by decide⟩

section Guard

instance (u : String) (n : ℕ) : DecidablePred (Call.Past u n)
  | .erasureWorker pc =>
    inferInstanceAs (Decidable (n ≤ pc.number ∧ ∃ job ∈ pc.job, job.userId = u))
  | .transition _ _ _ | .offboard _ _ | .offboardingWorker _ | .auth _ =>
    inferInstanceAs (Decidable False)

instance (u : String) : DecidablePred (Call.CachesGone u)
  | .auth (.authenticate token (.setex user)) =>
    inferInstanceAs (Decidable (token.sub = u → user.status = .deleted))
  | .auth (.authenticate _ .verify) | .auth (.authenticate _ .blacklist)
  | .auth (.authenticate _ .cacheGet) | .auth (.authenticate _ .select)
  | .auth (.authenticate _ .accepted) | .auth (.authenticate _ (.threw _))
  | .auth (.issue _ _) | .auth (.refresh _ _) | .auth (.revokeTokens _ _ _ _)
  | .auth (.reset _ _ _) | .auth (.link _ _) | .auth (.verifyEmail _ _)
  | .transition _ _ _ | .offboard _ _ | .offboardingWorker _ | .erasureWorker _ =>
    inferInstanceAs (Decidable True)

instance (u : String) (n : ℕ) (p : Calls (Fin 1)) : Decidable (Reached u n p) :=
  inferInstanceAs (Decidable (_ ∨ ∃ j, (p.calls j).Live (Call.Past u n)))

instance (u : String) (p : Calls (Fin 1)) : ∀ m, Decidable (Undisturbed u p m)
  | .run i _ => inferInstanceAs (Decidable
      (((p.calls i).Live (fun c => ∃ m ∈ c.inserts, m.userId = u) → ¬ Reached u 3 p)
        ∧ ((p.calls i).Live (fun c => c.evicts u) → ∀ k, (p.calls k).Keeps (Call.CachesGone u))))
  | .env (.auth (.writeUser id _ _ _)) => inferInstanceAs (Decidable (id ≠ u))
  | .env (.auth (.tick _)) | .env (.auth .replicate) | .env (.auth (.writeMemberships _))
  | .env (.auth (.evictUser _)) | .env (.auth (.storeOneTime _ _ _)) | .env .replicate
  | .env (.reactivateSuspended _) | .crash _ => inferInstanceAs (Decidable True)

end Guard

theorem demo_users {v : String} (h : (demoStore.auth.primary.users v).isSome) : v = "u" := by
  by_contra hv
  have hnone : demoStore.auth.primary.users v = none := if_neg hv
  rw [hnone] at h
  cases h

/-- In that store a text is the user's alone, unless an erasure writes it. -/
theorem own_demo {text : String} (hemail : ¬ Occurs text (anonymisedEmail "u"))
    (hname : ¬ Occurs text "Deleted User") : Own demoStore "u" text where
  users v hv h := absurd (demo_users h) hv
  authProviders r hr hu := absurd (by rw [List.mem_singleton.mp hr]) hu
  invitations := nofun
  emails v h := by
    rw [demo_users h]
    exact hemail
  name := hname

/-- Without the invitation nothing is left. -/
theorem erased_without_invitation :
    ∃ q : Calls (Fin 1), ⟨"u", "A"⟩ ∈ q.store.erased ∧ Erased demoConfig demoStore "u" q.store := by
  obtain ⟨q, hrun, hend⟩ := exists_run_of_exec (Pool.step (gdprMachine demoConfig))
    (Undisturbed "u") (eraseU demoStore) (List.replicate 7 (.run 0 demoDraw))
    (fun q => ⟨"u", "A"⟩ ∈ q.store.erased) (by decide)
  have hdone := of_decide_eq_true hend
  have hown : ∀ {text : String}, Own demoStore "u" text → Own (eraseU demoStore).store "u" text :=
    fun h => { h with }
  have hstart : Unstarted "u" (eraseU demoStore) := ⟨by decide, by decide⟩
  have herased := erased_of_undisturbed hstart (hown (own_demo (by decide) (by decide)))
    (hown (own_demo (by decide) (by decide))) hrun hdone
  exact ⟨q, hdone, { herased with }⟩

end WorkPlatform.Gdpr

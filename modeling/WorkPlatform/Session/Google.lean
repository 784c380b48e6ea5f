import WorkPlatform.Gdpr.Jobs
import WorkPlatform.Session.Standing

/-!
# Session/Google — a Google account signs in as one user

    loginWithGoogle   verifyIdToken ▸ findProvider ▸ [findUser ▸
                        [createUser ▸ preferences ▸ | verifyEmail ▸] provider ▸ outbox ▸]
                      audit ▸ insert
    erasureWorkerJob  anonymise ▸ revoke ▸ delCache ▸ authProviders

Whether the account is linked is read on the replica, the user is found by an email that may have
changed, and the row that links them comes last.  Sign-ins of one account may overlap, find
different users, and crash; the other services run beside them.

What holds them together is the unique index on `auth_providers`: whatever the order, an account
that has signed in as two users has been erased as one of them (`google_account_one_user`).
-/

namespace WorkPlatform.Session.Google

open Machinery
open Auth (Minted TokenPair)

/-! ## Parameters and the store -/

/-- What `loginWithGoogle` reads of a verified token; the name and the picture are only stored. -/
structure GooglePayload where
  sub : Option String
  email : Option String
  deriving DecidableEq

/-- The configuration, and `client.verifyIdToken` at a time of the clock. -/
structure Config extends toSessionConfig : Session.Config where
  verifyIdToken : ℕ → String → Option GooglePayload

/-- `auth_providers` of provider `google`, by `provider_user_id`.  `linked` are the rows that were
ever inserted and `erased` the users whose rows were deleted; they are no tables. -/
structure Store extends toSession : Session.Store where
  providers : String → Option String
  providersReplica : String → Option String
  linked : List (String × String)
  erased : List String

namespace Store

def putSession (s : Store) (b : Session.Store) : Store := { s with toSession := b }

def putAuth (s : Store) (a : Auth.Store) : Store := s.putSession (s.toSession.putAuth a)

/-- `createAuthProvider`; `none` where the INSERT fails. -/
def createAuthProvider (s : Store) (sub userId : String) : Option Store :=
  if (s.providers sub).isSome then none
  else
    some { s with
      providers := Function.update s.providers sub (some userId)
      linked := (sub, userId) :: s.linked }

/-- `DELETE FROM auth_providers WHERE user_id = $1`, with the rows of SAML. -/
def deleteAuthProviders (s : Store) (userId : String) : Store :=
  { s with
    samlProviders := fun key => (s.samlProviders key).filter (· ≠ userId)
    providers := fun sub => (s.providers sub).filter (· ≠ userId)
    erased := userId :: s.erased }

/-- The first UPDATE of the erasure. -/
def anonymise (s : Store) (userId : String) : Store :=
  let row := (s.login.auth.primary.users userId).map Gdpr.eraseUser
  s.putAuth { s.login.auth with
    primary.users := Function.update s.login.auth.primary.users userId row }

end Store

/-! ## `loginWithGoogle` -/

/-- Where a call of `loginWithGoogle` is. -/
inductive GooglePc
  | verifyIdToken
  | findProvider (sub email : String)
  | findUser (sub email : String)
  | createUser (sub email : String)
  | preferences (sub userId : String)
  | verifyEmail (sub userId : String)
  | provider (sub userId : String)
  | outbox (sub userId : String)
  | audit (sub userId : String)
  | insert (sub : String) (m : Minted)
  | returned (sub : String) (pair : TokenPair)
  | threw (e : AppError)
  | failed
  deriving DecidableEq

/-- The payload of the token. -/
def GooglePc.verified (normalizeEmail : String → String) (payload : Option GooglePayload) :
    GooglePc :=
  match payload.bind fun x => Auth.truthy x.sub, payload.bind fun x => Auth.truthy x.email with
  | some sub, some email => .findProvider sub (normalizeEmail email)
  | _, _ => .threw (.unauthorized "INVALID_GOOGLE_TOKEN" "Google ID token is invalid")

/-- The next statement of `loginWithGoogle`. -/
def googleNext (cfg : Config) (s : Store) (d : Draw) (idToken : String) :
    GooglePc → Option (Store × GooglePc)
  | .verifyIdToken => some (s, .verified cfg.normalizeEmail (cfg.verifyIdToken s.now idToken))
  | .findProvider sub email => some (s,
      match s.providersReplica sub with
      | some userId => .audit sub userId
      | none => .findUser sub email)
  | .findUser sub email => some (s,
      match s.login.findUserByEmail (cfg.normalizeEmail email) with
      | none => .createUser sub email
      | some user =>
        if user.row.emailVerified then .provider sub user.id else .verifyEmail sub user.id)
  | .createUser sub email =>
    match Organization.createUser s.login d.newId (cfg.normalizeEmail email) true with
    | some l => some (s.putSession (s.putLogin l), .preferences sub d.newId)
    | none => some (s, .failed)
  | .preferences sub userId => some (s, .provider sub userId)
  | .verifyEmail sub userId =>
    some (s.putAuth (s.login.auth.updateUser userId .verifyEmail), .provider sub userId)
  | .provider sub userId =>
    match s.createAuthProvider sub userId with
    | some s' => some (s', .outbox sub userId)
    | none => some (s, .failed)
  | .outbox sub userId => some (s, .audit sub userId)
  | .audit sub userId =>
    let x := Auth.issueTokenPair cfg.toConfig s.login.auth d.toDraw
      ⟨userId, "", .member, false, none⟩
    some (s.putAuth x.1, .insert sub x.2)
  | .insert sub m =>
    match s.login.auth.createRefreshToken (m.row cfg.toConfig d.rowId) with
    | some a => some (s.putAuth a, .returned sub (m.pair cfg.toConfig))
    | none => some (s, .failed)
  | .returned _ _ | .threw _ | .failed => none

/-! ## `erasureWorkerJob`, on these tables -/

/-- Where the worker is with a job. -/
inductive ErasePc
  | anonymise
  | revoke
  | delCache
  | authProviders
  | done
  deriving DecidableEq

/-- The next statement of the job for a user. -/
def eraseNext (s : Store) (userId : String) : ErasePc → Option (Store × ErasePc)
  | .anonymise => some (s.anonymise userId, .revoke)
  | .revoke => some (s.putAuth (s.login.auth.revokeAllUserTokens userId), .delCache)
  | .delCache => some (s.putAuth (s.login.auth.delUserCache userId), .authProviders)
  | .authProviders => some (s.deleteAuthProviders userId, .done)
  | .done => none

/-- Where the worker is on these tables. -/
def ErasePc.ofJob : Gdpr.ErasePc → ErasePc
  | .idle | .anonymise _ => .anonymise
  | .revoke _ => .revoke
  | .delCache _ => .delCache
  | .auditLogs _ | .authProviders _ => .authProviders
  | .audit _ => .done

/-- The users, their tokens and the links to Google are those the worker writes. -/
structure Store.Shows (s : Store) (t : Gdpr.Store) : Prop where
  auth : s.login.auth = t.auth
  providers : ∀ sub userId, s.providers sub = some userId ↔ ∃ row ∈ t.authProviders,
    row.provider = "google" ∧ row.providerUserId = sub ∧ row.userId = userId

/-- **One worker**: each statement of its job is one of these, or leaves these tables alone. -/
theorem Store.Shows.step {s : Store} {t t' : Gdpr.Store} {cfg : Gdpr.Config}
    {pc pc' : Gdpr.ErasePc} (h : s.Shows t) (hstep : Gdpr.EraseStep cfg t pc t' pc') :
    ∃ s', s'.Shows t' ∧ (s' = s ∨ ∃ job ∈ pc.job, ∃ pc₁,
      eraseNext s job.userId (.ofJob pc) = some (s', pc₁) ∧ (pc' = .idle ∨ .ofJob pc' = pc₁)) := by
  cases hstep with
  | take _ | auditLogs _ | caught | audit | complete | fail =>
    exact ⟨s, ⟨h.auth, h.providers⟩, Or.inl rfl⟩
  | @anonymise job _ hpc =>
    refine ⟨s.anonymise job.userId, ⟨?_, h.providers⟩, Or.inr ⟨job, rfl, .revoke, rfl, ?_⟩⟩
    · have hown : (s.anonymise job.userId).login.auth = { s.login.auth with
          primary.users := Function.update s.login.auth.primary.users job.userId
            ((s.login.auth.primary.users job.userId).map Gdpr.eraseUser) } := rfl
      rw [hown, h.auth]
      rfl
    · exact hpc.symm.imp_right (congrArg ErasePc.ofJob)
  | @revoke job _ hpc =>
    refine ⟨s.putAuth (s.login.auth.revokeAllUserTokens job.userId), ⟨?_, h.providers⟩,
      Or.inr ⟨job, rfl, .delCache, rfl, ?_⟩⟩
    · exact congrArg (Auth.Store.revokeAllUserTokens · job.userId) h.auth
    · exact hpc.symm.imp_right (congrArg ErasePc.ofJob)
  | @delCache job _ hpc =>
    refine ⟨s.putAuth (s.login.auth.delUserCache job.userId), ⟨?_, h.providers⟩,
      Or.inr ⟨job, rfl, .authProviders, rfl, ?_⟩⟩
    · exact congrArg (Auth.Store.delUserCache · job.userId) h.auth
    · exact hpc.symm.imp_right (congrArg ErasePc.ofJob)
  | @authProviders job _ hpc =>
    refine ⟨s.deleteAuthProviders job.userId, ⟨h.auth, fun sub userId => ?_⟩,
      Or.inr ⟨job, rfl, .done, rfl, hpc.symm.imp_right (congrArg ErasePc.ofJob)⟩⟩
    change (s.providers sub).filter (· ≠ job.userId) = some userId ↔ _
    rw [Option.filter_eq_some_iff, h.providers]
    constructor
    · rintro ⟨⟨row, hrow, hprovider, hsub, rfl⟩, hother⟩
      exact ⟨row, List.mem_filter.mpr ⟨hrow, hother⟩, hprovider, hsub, rfl⟩
    · rintro ⟨row, hrow, hprovider, hsub, rfl⟩
      obtain ⟨hrow, hother⟩ := List.mem_filter.mp hrow
      exact ⟨⟨row, hrow, hprovider, hsub, rfl⟩, hother⟩

/-! ## The machine -/

/-- A call, and where it is. -/
inductive Call
  | google (idToken : String) (pc : GooglePc)
  | erase (userId : String) (pc : ErasePc)
  | session (c : Session.Call)
  deriving DecidableEq

/-- The call has not run a statement yet; the other services may be anywhere. -/
def Call.fresh : Call → Bool
  | .google _ .verifyIdToken | .erase _ .anonymise | .session _ => true
  | _ => false

/-- Time and replication. -/
def env (s : Store) (e : Organization.Env) : Store :=
  match e with
  | .tick ms => s.putSession (Session.env s.toSession (.tick ms))
  | .replicate => { s.putSession (Session.env s.toSession .replicate) with
      providersReplica := s.providers }

/-- The next statement of a call. -/
def next (cfg : Config) (s : Store) (c : Call) (d : Draw) : Option (Store × Call) :=
  match c with
  | .google idToken pc => (googleNext cfg s d idToken pc).map fun x => (x.1, .google idToken x.2)
  | .erase userId pc => (eraseNext s userId pc).map fun x => (x.1, .erase userId x.2)
  | .session c =>
    (Session.next cfg.toSessionConfig s.toSession c d).map fun x =>
      (s.putSession x.1, .session x.2)

def googleMachine (cfg : Config) : Machine Store Call Draw Organization.Env := ⟨next cfg, env⟩

/-- Calls over the store. -/
abbrev Calls (ι : Type*) := Pool ι Store Call

/-! ## What is linked -/

/-- The tables show links that were made, and the primary those of the users who were not erased. -/
structure Consistent (s : Store) : Prop where
  primary : ∀ sub userId, s.providers sub = some userId → (sub, userId) ∈ s.linked
  replica : ∀ sub userId, s.providersReplica sub = some userId → (sub, userId) ∈ s.linked
  current : ∀ sub userId, (sub, userId) ∈ s.linked → userId ∉ s.erased →
    s.providers sub = some userId

/-- The Google account and the user of a sign-in that is past the link. -/
def GooglePc.account : GooglePc → Option (String × String)
  | .outbox sub userId | .audit sub userId => some (sub, userId)
  | .insert sub m => some (sub, m.accessToken.sub)
  | .returned sub pair => some (sub, pair.accessToken.sub)
  | _ => none

def Call.account : Call → Option (String × String)
  | .google _ pc => pc.account
  | _ => none

section Steps

variable {cfg : Config} {s s' : Store} {d : Draw} {c c' : Call} {sub userId : String}

/-- The tables of Google are untouched. -/
structure SameLinks (s s' : Store) : Prop where
  providers : s'.providers = s.providers
  replica : s'.providersReplica = s.providersReplica
  linked : s'.linked = s.linked
  erased : s'.erased = s.erased

theorem SameLinks.refl (s : Store) : SameLinks s s := ⟨rfl, rfl, rfl, rfl⟩

theorem SameLinks.putSession (s : Store) (b : Session.Store) : SameLinks s (s.putSession b) :=
  ⟨rfl, rfl, rfl, rfl⟩

/-- What leaves the links as they were keeps them consistent. -/
theorem SameLinks.consistent (h : SameLinks s s') (hs : Consistent s) : Consistent s' where
  primary sub userId hp := by
    rw [h.linked]
    exact hs.primary sub userId (h.providers ▸ hp)
  replica sub userId hp := by
    rw [h.linked]
    exact hs.replica sub userId (h.replica ▸ hp)
  current sub userId hl he := by
    rw [h.providers]
    exact hs.current sub userId (h.linked ▸ hl) (h.erased ▸ he)

/-- **The unique index**: a row is inserted only where there is none, so of the users the account
was linked to before, all have been erased. -/
theorem consistent_create (hs : Consistent s) (h : s.createAuthProvider sub userId = some s') :
    Consistent s' ∧ s'.linked = (sub, userId) :: s.linked := by
  unfold Store.createAuthProvider at h
  split at h
  · cases h
  rename_i hfree
  obtain rfl := Option.some.inj h
  have hnone : s.providers sub = none := by simpa using hfree
  refine ⟨⟨fun sub' u hp => ?_, fun sub' u hp => ?_, fun sub' u hl he => ?_⟩, rfl⟩
  · dsimp only at hp
    by_cases hsub : sub' = sub
    · subst hsub
      rw [Function.update_self] at hp
      rw [← Option.some.inj hp]
      exact List.mem_cons_self
    · rw [Function.update_of_ne hsub] at hp
      exact List.mem_cons_of_mem _ (hs.primary sub' u hp)
  · exact List.mem_cons_of_mem _ (hs.replica sub' u hp)
  · dsimp only
    rcases List.mem_cons.mp hl with heq | hold
    · obtain ⟨rfl, rfl⟩ := Prod.mk.inj heq
      exact Function.update_self ..
    · have hrow := hs.current sub' u hold he
      have hsub : sub' ≠ sub := by
        rintro rfl
        rw [hnone] at hrow
        cases hrow
      rw [Function.update_of_ne hsub]
      exact hrow

/-- The erasure deletes the rows of one user, and says so. -/
theorem consistent_delete (hs : Consistent s) (userId : String) :
    Consistent (s.deleteAuthProviders userId) where
  primary sub u hp := hs.primary sub u (Option.filter_eq_some_iff.mp hp).1
  replica := hs.replica
  current sub u hl he := by
    have hu : u ≠ userId := fun h => he (h ▸ List.mem_cons_self)
    have hrow := hs.current sub u hl fun h => he (List.mem_cons_of_mem _ h)
    exact Option.filter_eq_some_iff.mpr ⟨hrow, decide_eq_true hu⟩

/-- What a statement leaves of the links: they are kept, and a sign-in that gets past the link has
one. -/
structure LinkStep (s s' : Store) (c c' : Call) : Prop where
  consistent : Consistent s'
  kept : s.linked ⊆ s'.linked
  linked : ∀ x, c'.account = some x → c.account = some x ∨ x ∈ s'.linked

/-- Where the tables of Google are untouched, the call has come no further than its tables. -/
theorem LinkStep.of_same (h : SameLinks s s') (hs : Consistent s)
    (hlinked : ∀ x, c'.account = some x → c.account = some x ∨ x ∈ s.linked) :
    LinkStep s s' c c' := by
  refine ⟨h.consistent hs, ?_, ?_⟩
  · rw [h.linked]
    exact List.Subset.refl _
  · rw [h.linked]
    exact hlinked

/-- What a statement of `loginWithGoogle` leaves of the links. -/
theorem linkStep_google {idToken : String} {pc pc' : GooglePc} (hs : Consistent s)
    (h : googleNext cfg s d idToken pc = some (s', pc')) :
    LinkStep s s' (.google idToken pc) (.google idToken pc') := by
  cases pc with
  | verifyIdToken =>
    obtain ⟨rfl, rfl⟩ := Prod.mk.inj (Option.some.inj h)
    refine .of_same (.refl s) hs fun x hx => ?_
    unfold GooglePc.verified at hx
    split at hx <;> cases hx
  | findProvider sub email =>
    obtain ⟨rfl, rfl⟩ := Prod.mk.inj (Option.some.inj h)
    refine .of_same (.refl s) hs fun x hx => ?_
    cases hrow : s.providersReplica sub with
    | none =>
      rw [hrow] at hx
      cases hx
    | some userId =>
      rw [hrow] at hx
      obtain rfl := Option.some.inj hx
      exact Or.inr (hs.replica sub userId hrow)
  | findUser sub email =>
    obtain ⟨rfl, rfl⟩ := Prod.mk.inj (Option.some.inj h)
    refine .of_same (.refl s) hs fun x hx => ?_
    split at hx
    · cases hx
    · split at hx <;> cases hx
  | createUser sub email =>
    rw [googleNext] at h
    split at h
    · obtain ⟨rfl, rfl⟩ := Prod.mk.inj (Option.some.inj h)
      exact .of_same (.putSession s _) hs fun x hx => nomatch hx
    · obtain ⟨rfl, rfl⟩ := Prod.mk.inj (Option.some.inj h)
      exact .of_same (.refl s) hs fun x hx => nomatch hx
  | preferences sub userId =>
    obtain ⟨rfl, rfl⟩ := Prod.mk.inj (Option.some.inj h)
    exact .of_same (.refl s) hs fun x hx => nomatch hx
  | verifyEmail sub userId =>
    obtain ⟨rfl, rfl⟩ := Prod.mk.inj (Option.some.inj h)
    exact .of_same (.putSession s _) hs fun x hx => nomatch hx
  | provider sub userId =>
    rw [googleNext] at h
    split at h
    · rename_i s₁ hs₁
      obtain ⟨rfl, rfl⟩ := Prod.mk.inj (Option.some.inj h)
      obtain ⟨hcons, hlinked⟩ := consistent_create hs hs₁
      refine ⟨hcons, ?_, fun x hx => Or.inr ?_⟩
      · rw [hlinked]
        exact List.subset_cons_self _ _
      · obtain rfl := Option.some.inj hx
        rw [hlinked]
        exact List.mem_cons_self
    · obtain ⟨rfl, rfl⟩ := Prod.mk.inj (Option.some.inj h)
      exact .of_same (.refl s) hs fun x hx => nomatch hx
  | outbox sub userId =>
    obtain ⟨rfl, rfl⟩ := Prod.mk.inj (Option.some.inj h)
    exact .of_same (.refl s) hs fun x hx => Or.inl hx
  | audit sub userId =>
    obtain ⟨rfl, rfl⟩ := Prod.mk.inj (Option.some.inj h)
    exact .of_same (.putSession s _) hs fun x hx => Or.inl hx
  | insert sub m =>
    rw [googleNext] at h
    split at h
    · obtain ⟨rfl, rfl⟩ := Prod.mk.inj (Option.some.inj h)
      exact .of_same (.putSession s _) hs fun x hx => Or.inl hx
    · obtain ⟨rfl, rfl⟩ := Prod.mk.inj (Option.some.inj h)
      exact .of_same (.refl s) hs fun x hx => nomatch hx
  | returned _ _ | threw _ | failed => cases h

/-- A statement of the erasure is such a step. -/
theorem linkStep_erase {u : String} {pc pc' : ErasePc} (hs : Consistent s)
    (h : eraseNext s u pc = some (s', pc')) : LinkStep s s' (.erase u pc) (.erase u pc') := by
  cases pc with
  | authProviders =>
    obtain ⟨rfl, rfl⟩ := Prod.mk.inj (Option.some.inj h)
    exact ⟨consistent_delete hs u, List.Subset.refl _, fun x hx => nomatch hx⟩
  | done => cases h
  | _ =>
    obtain ⟨rfl, rfl⟩ := Prod.mk.inj (Option.some.inj h)
    exact .of_same (.putSession s _) hs fun x hx => nomatch hx

/-- **One statement, seen from the links.** -/
theorem linkStep_next (hs : Consistent s) (h : next cfg s c d = some (s', c')) :
    LinkStep s s' c c' := by
  cases c with
  | google idToken pc =>
    obtain ⟨pc', hpc, rfl⟩ := pc_of_next h
    exact linkStep_google hs hpc
  | erase u pc =>
    obtain ⟨pc', hpc, rfl⟩ := pc_of_next h
    exact linkStep_erase hs hpc
  | session c =>
    obtain ⟨b, c₁, -, rfl, rfl⟩ := part_of_next h
    exact .of_same (.putSession s b) hs fun x hx => nomatch hx

theorem consistent_env (hs : Consistent s) (e : Organization.Env) : Consistent (env s e) := by
  cases e with
  | tick ms => exact (SameLinks.putSession s _).consistent hs
  | replicate => exact ⟨hs.primary, hs.primary, hs.current⟩

theorem env_linked (s : Store) (e : Organization.Env) : (env s e).linked = s.linked := by
  cases e <;> rfl

end Steps

/-! ## Runs -/

section Runs

variable {ι : Type*} [DecidableEq ι] {cfg : Config} {p q : Calls ι}

/-- What every move keeps. -/
structure LinkInv (q : Calls ι) : Prop where
  tables : Consistent q.store
  linked : ∀ i x, (q.calls i).at'.account = some x → x ∈ q.store.linked

/-- The links are kept in every state of a run. -/
theorem linkInv_of_run (hfresh : ∀ i, ∃ c, p.calls i = .up c ∧ c.fresh = true)
    (h₀ : Consistent p.store) (hrun : Run (Pool.step (googleMachine cfg)) anyStep p q) :
    LinkInv q := by
  refine Pool.invariant (I := LinkInv) ⟨h₀, fun i x hx => ?_⟩ ?_ ?_ ?_ hrun
  · obtain ⟨c, hc, hfresh⟩ := hfresh i
    rw [hc] at hx
    cases c with
    | google idToken pc =>
      cases pc with
      | verifyIdToken => cases hx
      | _ => cases hfresh
    | _ => cases hx
  · intro q i d c s' c' h _ hc hn
    have hstep := linkStep_next h.tables hn
    refine ⟨hstep.consistent, fun j x hx => ?_⟩
    by_cases hj : j = i
    · subst hj
      rw [at'_update_self] at hx
      rcases hstep.linked x hx with hold | hnew
      · refine hstep.kept (h.linked j x ?_)
        rw [hc]
        exact hold
      · exact hnew
    · rw [at'_update_of_ne hj] at hx
      exact hstep.kept (h.linked j x hx)
  · intro q i c h _ hc
    refine ⟨h.tables, fun j x hx => ?_⟩
    rw [at'_update_down hc] at hx
    exact h.linked j x hx
  · intro q e h _
    refine ⟨consistent_env h.tables e, fun j x hx => ?_⟩
    dsimp only [googleMachine]
    rw [env_linked]
    exact h.linked j x hx

/-- **One Google account, one user.**  Whatever interleaves and crashes, and however far the replica
lags: the token pairs that sign-ins with one Google account return are of one user, unless the
erasure has deleted the links of one of the two. -/
theorem google_account_one_user (hfresh : ∀ i, ∃ c, p.calls i = .up c ∧ c.fresh = true)
    (h₀ : Consistent p.store) (hrun : Run (Pool.step (googleMachine cfg)) anyStep p q)
    {i j : ι} {idToken idToken' sub : String} {pair pair' : TokenPair}
    (hi : (q.calls i).at' = .google idToken (.returned sub pair))
    (hj : (q.calls j).at' = .google idToken' (.returned sub pair')) :
    pair.accessToken.sub = pair'.accessToken.sub ∨ pair.accessToken.sub ∈ q.store.erased
      ∨ pair'.accessToken.sub ∈ q.store.erased := by
  have hinv := linkInv_of_run hfresh h₀ hrun
  have hlinked : ∀ {k token} {pair : TokenPair},
      (q.calls k).at' = .google token (.returned sub pair) →
      pair.accessToken.sub ∉ q.store.erased →
        q.store.providers sub = some pair.accessToken.sub := by
    intro k token pair hk herased
    refine hinv.tables.current sub _ (hinv.linked k _ ?_) herased
    rw [hk]
    rfl
  by_cases herased : pair.accessToken.sub ∈ q.store.erased
  · exact Or.inr (Or.inl herased)
  by_cases herased' : pair'.accessToken.sub ∈ q.store.erased
  · exact Or.inr (Or.inr herased')
  have hrow := hlinked hi herased
  rw [hlinked hj herased'] at hrow
  exact Or.inl (Option.some.inj hrow).symm

end Runs

/-- Every ID token is valid, for the account `g` and the email it is. -/
def demoConfig : Config := ⟨Session.demoConfig, fun _ idToken => some ⟨"g", idToken⟩⟩

/-- A move that draws the id of a user and of a row. -/
def drawn (newId rowId : String) : Draw :=
  ⟨⟨⟨"jti" ++ rowId, "f" ++ rowId, "t" ++ rowId, rowId, "", true⟩, newId⟩, "", false, none⟩

/-- The pair such a move mints for a user. -/
def pairOf (userId rowId : String) : TokenPair :=
  ⟨⟨userId, "", .member, false, none, 0, "jti" ++ rowId, 0, 900⟩, "t" ++ rowId, 900⟩

/-- The account signs in under two emails. -/
def twoEmails : Calls (Fin 2) :=
  ⟨⟨Session.demoStore, fun _ => none, fun _ => none, [], []⟩, fun i =>
    .up (.google (if i = 0 then "a@x" else "b@x") .verifyIdToken)⟩

theorem twoEmails_fresh : ∀ i, ∃ c, twoEmails.calls i = .up c ∧ c.fresh = true :=
  fun _ => ⟨_, rfl, rfl⟩

theorem twoEmails_consistent : Consistent twoEmails.store :=
  ⟨fun _ _ h => (nomatch h), fun _ _ h => (nomatch h), fun _ _ h _ => absurd h List.not_mem_nil⟩

/-- The second sign-in, under another email, is the user the first one has created. -/
theorem google_account_one_user_two_emails :
    ∃ q pair pair', Run (Pool.step (googleMachine demoConfig)) anyStep twoEmails q
      ∧ (q.calls 0).at' = .google "a@x" (.returned "g" pair)
      ∧ (q.calls 1).at' = .google "b@x" (.returned "g" pair')
      ∧ pair.accessToken.jti ≠ pair'.accessToken.jti
      ∧ pair.accessToken.sub = pair'.accessToken.sub := by
  obtain ⟨q, hrun, hq⟩ := exists_run_of_exec (Pool.step (googleMachine demoConfig)) anyStep twoEmails
    (List.replicate 9 (.run 0 (drawn "v" "r1")) ++ [.env .replicate]
      ++ List.replicate 4 (.run 1 (drawn "w" "r2")))
    (fun q => (q.calls 0).at' = .google "a@x" (.returned "g" (pairOf "v" "r1"))
      ∧ (q.calls 1).at' = .google "b@x" (.returned "g" (pairOf "v" "r2")) ∧ q.store.erased = [])
    (by decide)
  obtain ⟨h0, h1, herased⟩ := of_decide_eq_true hq
  refine ⟨q, _, _, hrun, h0, h1, by decide, ?_⟩
  rcases google_account_one_user twoEmails_fresh twoEmails_consistent hrun h0 h1 with h | h | h
  · exact h
  · rw [herased] at h
    exact absurd h List.not_mem_nil
  · rw [herased] at h
    exact absurd h List.not_mem_nil

end WorkPlatform.Session.Google

import WorkPlatform.Auth.Family
import WorkPlatform.Organization.Granted
import WorkPlatform.Session.Standing

/-!
# Session/Authenticated — who has a session has proved who they are

    login              an email, and the password of its account   ─┐
    requestLink ▸ …    a link, asked for with the email             │
       … ▸ verifyLink  … and followed within 15 minutes             ├─▸ a family of the user
    handleCallback     an assertion of the provider on the email    │      │
    acceptInvitation   the token of an invitation to the email     ─┘      └──▸ rotated

Between the proof and the token pair a user's id passes through statements of other calls, a Redis
key, a provider row and the rows of `refresh_tokens`, and no statement asks where it comes from.
Still nobody has a token of a user that was not opened for this user by a call that was shown a
credential of theirs, unless it was there at the beginning: across any interleaving, any crash and
any lag of the replica (`session_was_proved`).
-/

namespace WorkPlatform.Session

open Machinery
open Auth (Account Expiring OneTimeValue Lineage Minted Names)
open Organization (HasEmail Users Mirrored InvitationRow)

/-! ## Credentials -/

/-- What a caller shows to be somebody. -/
inductive Credential
  | password (email password : String)
  | link (token : String)
  | assertion (orgId samlResponse : String)
  | invitation (token : String)

/-- What a call presents to prove who it is. -/
def Call.credential : Call → Option Credential
  | .login email password _ _ => some (.password email password)
  | .verifyLink token _ => some (.link token)
  | .saml orgId samlResponse _ => some (.assertion orgId samlResponse)
  | .org (.accept token _) => some (.invitation token)
  | _ => none

/-- The pair that a call has generated and is about to store. -/
def Call.minted : Call → Option Minted
  | .login _ _ _ (.insert m) | .refresh _ (.insert _ m) | .verifyLink _ (.insert m)
  | .saml _ _ (.insert m) | .org (.accept _ (.insert m)) => some m
  | _ => none

/-- The call asks for a link. -/
def Call.asks : Call → Bool
  | .requestLink _ _ _ => true
  | _ => false

/-- A refresh token or a signed access token is of the user and the family. -/
def Store.HasSession (s : Store) (x : Lineage) : Prop :=
  Names s.login.auth.refreshTokens s.login.auth.issued x

section Evidence

variable {ι : Type*} [DecidableEq ι] (cfg : Config) (p q : Calls ι)

/-- A login has read the account, by the email. -/
def Found (email password : String) (user : Account) : Prop :=
  ∃ s s' orgId locked, s.login.findUserByEmail (cfg.normalizeEmail email) = some user
    ∧ Made (sessionMachine cfg) p q s (.login email password orgId .find) s'
        (.login email password orgId (.verify user locked))

/-- A link was asked for with the email of the user. -/
def Asked (email : String) (orgId : Option String) (userId : String) : Prop :=
  ∃ s user, s.login.findUserByEmail (cfg.normalizeEmail email) = some user ∧ user.id = userId
    ∧ Made (sessionMachine cfg) p q s (.requestLink email orgId .find) s
        (.requestLink email orgId (.set userId))

/-- **A link of the beginning, or one that was asked for** and is good for 15 minutes. -/
def Sent (hash : String) (x : Expiring OneTimeValue) : Prop :=
  p.store.login.auth.oneTime (.magic hash) = some x
    ∨ ∃ email s s', Asked cfg p q email x.value.orgId x.value.userId
      ∧ x.expiresAt = s.now + 15 * 60 * 1000
      ∧ s'.login.auth = s.login.auth.setOneTime (.magic hash) x.value (15 * 60)
      ∧ Made (sessionMachine cfg) p q s (.requestLink email x.value.orgId (.set x.value.userId)) s'
          (.requestLink email x.value.orgId .outbox)

/-- The link was followed while it was good. -/
def Followed (token userId : String) : Prop :=
  ∃ s s' x, x.value.userId = userId ∧ Sent cfg p q (cfg.hashToken token) x ∧ s.now < x.expiresAt
    ∧ Made (sessionMachine cfg) p q s (.verifyLink token .get) s' (.verifyLink token (.del x.value))

/-- The provider of the organisation has asserted the email. -/
def Asserted (orgId samlResponse email : String) : Prop :=
  ∃ s saml profile given assertionId,
    cfg.validatePostResponse saml s.now samlResponse = some profile ∧ profile.email = some given
      ∧ cfg.normalizeEmail given = email
      ∧ Made (sessionMachine cfg) p q s (.saml orgId samlResponse (.validate saml)) s
          (.saml orgId samlResponse (.replay assertionId email))

/-- **A provider row of the beginning, or one of the user whose email was asserted.** -/
def Linked (l : Auth.LoginStore) (key userId : String) : Prop :=
  (p.store.samlProviders key = some userId ∨ p.store.samlProvidersReplica key = some userId)
    ∨ ∃ orgId samlResponse email, providerUserId orgId email = key
      ∧ Asserted cfg p q orgId samlResponse email ∧ HasEmail l (cfg.normalizeEmail email) userId

/-- The token of a pending invitation was presented. -/
def Presented (token : String) (v : InvitationRow) : Prop :=
  ∃ s, v ∈ s.primary.invitations ∧ v.tokenHash = cfg.hashToken token ∧ v.status = .pending
    ∧ s.now ≤ v.expiresAt
    ∧ Made (sessionMachine cfg) p q s (.org (.accept token .find)) s
        (.org (.accept token (.findUser v)))

/-- **The credential is the user's.** -/
inductive Proves (l : Auth.LoginStore) : Credential → String → Prop
  | password {email password : String} {user : Account} (hfound : Found cfg p q email password user)
      (hvalid : Auth.passwordValid cfg.toLoginConfig password user = true) :
      Proves l (.password email password) user.id
  | link {token userId : String} (hfollowed : Followed cfg p q token userId) :
      Proves l (.link token) userId
  | assertion {orgId samlResponse email userId : String}
      (hasserted : Asserted cfg p q orgId samlResponse email)
      (hlinked : Linked cfg p q l (providerUserId orgId email) userId) :
      Proves l (.assertion orgId samlResponse) userId
  | invitation {token userId : String} {v : InvitationRow} (hpresented : Presented cfg p q token v)
      (hemail : HasEmail l (cfg.normalizeEmail v.email) userId) :
      Proves l (.invitation token) userId

/-- **The family was opened for its user**, by a call that had been shown a credential of the
user. -/
def Opened (x : Lineage) : Prop :=
  ∃ u s c s' c' m credential, Run (Pool.step (sessionMachine cfg)) anyStep p u
    ∧ c.credential = some credential ∧ Proves cfg p u s.login credential x.userId
    ∧ c'.minted = some m ∧ m.lineage = x ∧ Made (sessionMachine cfg) u q s c s' c'

/-- A family of the beginning, or one that was opened. -/
def Vouched (x : Lineage) : Prop := p.store.HasSession x ∨ Opened cfg p q x

/-! ## What a call relies on -/

/-- What `login` has to show: the user it found, then the password, then the family. -/
def LoginBacked (email password : String) : Auth.LoginPc → Prop
  | .verify user _ => Found cfg p q email password user
  | .reset user | .touch user | .lookupRole user _ => Found cfg p q email password user
    ∧ Auth.passwordValid cfg.toLoginConfig password user = true
  | .insert m => Vouched cfg p q m.lineage
  | _ => True

/-- What a refresh has to show: the family it presented is vouched for. -/
def RefreshBacked : Auth.RefreshPc → Prop
  | .lookupUser row | .lookupRole row _ _ | .revoke row _ _ => Vouched cfg p q row.lineage
  | .insert _ m => Vouched cfg p q m.lineage
  | _ => True

def RequestBacked (email : String) (orgId : Option String) : RequestPc → Prop
  | .set userId => Asked cfg p q email orgId userId
  | _ => True

/-- What `verifyLink` has to show: the link that was sent to the user. -/
def LinkBacked (token : String) : Auth.LinkPc → Prop
  | .del v | .findUser v | .verify v _ => Followed cfg p q token v.userId
  | .insert m => Vouched cfg p q m.lineage
  | _ => True

/-- What `handleCallback` has to show: the assertion, and whose email it names. -/
def SamlBacked (l : Auth.LoginStore) (orgId samlResponse : String) : SamlPc → Prop
  | .replay _ email | .insertAssertion _ email | .findProvider email | .findUser email
  | .createUser email => Asserted cfg p q orgId samlResponse email
  | .preferences email userId | .verifyEmail email userId | .provider email userId =>
    Asserted cfg p q orgId samlResponse email ∧ HasEmail l (cfg.normalizeEmail email) userId
  | .lookupRole userId | .audit userId _ =>
    Proves cfg p q l (.assertion orgId samlResponse) userId
  | .insert m => Vouched cfg p q m.lineage
  | _ => True

/-- What `acceptInvitation` has to show: the invitation, and whose email it is to. -/
def AcceptBacked (l : Auth.LoginStore) (token : String) : Organization.AcceptPc → Prop
  | .findUser v | .createUser v => Presented cfg p q token v
  | .preferences v userId | .provider v userId | .membership v userId _ | .seed v userId _
  | .mark v userId _ | .outbox v userId _ =>
    Presented cfg p q token v ∧ HasEmail l (cfg.normalizeEmail v.email) userId
  | .insert m => Vouched cfg p q m.lineage
  | _ => True

/-- What a call has to show where it is. -/
def Backed (l : Auth.LoginStore) : Call → Prop
  | .login email password _ pc => LoginBacked cfg p q email password pc
  | .refresh _ pc => RefreshBacked cfg p q pc
  | .requestLink email orgId pc => RequestBacked cfg p q email orgId pc
  | .verifyLink token pc => LinkBacked cfg p q token pc
  | .saml orgId samlResponse pc => SamlBacked cfg p q l orgId samlResponse pc
  | .org (.accept token pc) => AcceptBacked cfg p q l token pc
  | .org _ => True

/-- What holds of the stores. -/
structure Proved (s : Store) : Prop where
  sessions : ∀ x, s.HasSession x → Vouched cfg p q x
  links : ∀ hash x, s.login.auth.oneTime (.magic hash) = some x → Sent cfg p q hash x
  providers : ∀ key userId, s.samlProviders key = some userId
    ∨ s.samlProvidersReplica key = some userId → Linked cfg p q s.login key userId
  mirrored : Mirrored s.login

end Evidence

/-! ## One statement -/

/-- **What a statement may do to the stores of `login`**: no email is lost, no link is new, and only
`P` come to have a session. -/
structure Effect (P : Lineage → Prop) (l l' : Auth.LoginStore) : Prop where
  users : Users l l'
  links : ∀ hash x, l'.auth.oneTime (.magic hash) = some x → l.auth.oneTime (.magic hash) = some x
  sessions : ∀ x, Names l'.auth.refreshTokens l'.auth.issued x →
    Names l.auth.refreshTokens l.auth.issued x ∨ P x

section Effects

variable {P : Lineage → Prop} {l l' l'' : Auth.LoginStore} {a a' : Auth.Store} {d : Auth.Draw}
  {m : Minted}

theorem Effect.quiet (husers : Users l l') (hlinks : l'.auth.oneTime = l.auth.oneTime)
    (hrows : l'.auth.refreshTokens = l.auth.refreshTokens) (hissued : l'.auth.issued = l.auth.issued) :
    Effect P l l' where
  users := husers
  links _ _ h := by rwa [hlinks] at h
  sessions _ h := by
    rw [hrows, hissued] at h
    exact Or.inl h

theorem Effect.refl (l : Auth.LoginStore) : Effect P l l := .quiet (.refl l) rfl rfl rfl

theorem Effect.trans (h : Effect P l l') (h' : Effect P l' l'') : Effect P l l'' where
  users := ⟨fun _ _ he => h'.users.emails _ _ (h.users.emails _ _ he),
    fun email => (h'.users.found email).trans (h.users.found email)⟩
  links _ _ hx := h.links _ _ (h'.links _ _ hx)
  sessions x hx := (h'.sessions x hx).elim (h.sessions x) Or.inr

/-- The memberships that the services are handed over count for nothing here. -/
theorem Effect.of_loginStore {s : Store} (h : Effect P s.loginStore l') : Effect P s.login l' :=
  ⟨⟨h.users.emails, h.users.found⟩, h.links, h.sessions⟩

/-- An UPDATE of `refresh_tokens`. -/
theorem effect_updates {t : Auth.RefreshTokens} (hu : Auth.Updates l.auth.refreshTokens t) :
    Effect P l { l with auth := { l.auth with refreshTokens := t } } where
  users := ⟨fun _ _ h => h, fun _ => rfl⟩
  links _ _ h := h
  sessions _ h := Or.inl (hu.names_iff.mp h)

/-- The pair of a session is stored. -/
theorem effect_create {cfg : Auth.Config} (hP : P m.lineage)
    (ha : l.auth.createRefreshToken (m.row cfg d.rowId) = some a) :
    Effect P l { l with auth := a } := by
  obtain ⟨t, ht, rfl⟩ := Auth.Store.createRefreshToken_eq ha
  exact ⟨⟨fun _ _ h => h, fun _ => rfl⟩, fun _ _ h => h,
    fun x h => ((Auth.names_insert_iff ht).mp h).elim (fun heq => Or.inr (heq ▸ hP)) Or.inl⟩

/-- A token is signed. -/
theorem effect_mint {cfg : Auth.Config} {payload : Auth.AccessTokenPayload} {orgId : Option String}
    {familyId : String} (hP : P ⟨payload.sub, familyId⟩) :
    Effect P l { l with auth := (Auth.mint cfg l.auth d payload orgId familyId).1 } where
  users := ⟨fun _ _ h => h, fun _ => rfl⟩
  links _ _ h := h
  sessions _ h :=
    ((Auth.names_cons_iff (m := (Auth.mint cfg l.auth d payload orgId familyId).2)
      ⟨payload, rfl, rfl⟩).mp h).elim (fun heq => Or.inr (heq ▸ hP)) Or.inl

/-- Nobody is deleted by a verification. -/
theorem effect_verifyEmail (userId : String) :
    Effect P l { l with auth := l.auth.updateUser userId .verifyEmail } := by
  have husers : Users l { l with auth := l.auth.updateUser userId .verifyEmail } := by
    unfold Auth.Store.updateUser
    split
    · exact .refl l
    · rename_i u hu
      split
      · exact .refl l
      · refine ⟨fun email id ⟨hid, hlive⟩ => ⟨hid, ?_⟩, fun _ => rfl⟩
        dsimp only
        by_cases hsame : id = userId
        · subst hsame
          rw [hu] at hlive
          rw [Function.update_self]
          exact hlive
        · rw [Function.update_of_ne hsame]
          exact hlive
  refine .quiet husers ?_ (Auth.updateUser_refreshTokens _ _ _) (Auth.updateUser_issued _ _ _)
  unfold Auth.Store.updateUser
  repeat' split
  all_goals rfl

theorem effect_createUser {id email : String} {emailVerified : Bool}
    (h : Organization.createUser l id email emailVerified = some l') : Effect P l l' := by
  obtain ⟨-, users, primary, -, rfl⟩ := Organization.createUser_spec h
  exact .quiet (Organization.users_createUser h).1 rfl rfl rfl

/-- What a statement of `login` does to accounts and families. -/
theorem effect_login {cfg : Auth.LoginConfig} {email password : String} {orgId : Option String}
    {pc pc' : Auth.LoginPc} (hP : ∀ m, pc = .insert m ∨ pc' = .insert m → P m.lineage)
    (h : Auth.loginNext cfg l d email password orgId pc = some (l', pc')) : Effect P l l' := by
  cases pc with
  | verify user locked =>
    obtain ⟨rfl, -⟩ := Prod.mk.inj (Option.some.inj h)
    unfold Auth.LoginStore.evaluate
    split
    · exact .quiet ⟨fun _ _ h => h, fun _ => rfl⟩ rfl rfl rfl
    · exact .refl l
  | increment | lock | reset =>
    obtain ⟨rfl, -⟩ := Prod.mk.inj (Option.some.inj h)
    exact .quiet ⟨fun _ _ h => h, fun _ => rfl⟩ rfl rfl rfl
  | touch user =>
    rw [Auth.loginNext] at h
    split at h <;> obtain ⟨rfl, rfl⟩ := Prod.mk.inj (Option.some.inj h)
    · exact .refl l
    · exact effect_mint (hP _ (Or.inr rfl))
  | lookupRole user org =>
    rw [Auth.loginNext] at h
    split at h <;> obtain ⟨rfl, rfl⟩ := Prod.mk.inj (Option.some.inj h)
    · exact effect_mint (hP _ (Or.inr rfl))
    · exact .refl l
  | insert m =>
    rw [Auth.loginNext] at h
    split at h
    · rename_i a ha
      obtain ⟨rfl, -⟩ := Prod.mk.inj (Option.some.inj h)
      exact effect_create (hP m (Or.inl rfl)) ha
    · obtain ⟨rfl, -⟩ := Prod.mk.inj (Option.some.inj h)
      exact .refl l
  | find | threshold | audit =>
    obtain ⟨rfl, -⟩ := Prod.mk.inj (Option.some.inj h)
    exact .refl l
  | returned _ | threw _ | failed => cases h

/-- What a statement of a refresh does to them. -/
theorem effect_refresh {cfg : Auth.Config} {raw : String} {pc pc' : Auth.RefreshPc}
    (hP : ∀ row m, pc = .insert row m ∨ pc' = .insert row m → P m.lineage)
    (h : Auth.refreshNext cfg l.auth d raw pc = some (a', pc')) :
    Effect P l { l with auth := a' } := by
  cases pc with
  | revokeFamily row =>
    obtain ⟨rfl, -⟩ := Prod.mk.inj (Option.some.inj h)
    exact effect_updates (.revokeWhere _ _)
  | updateJti row m newId =>
    obtain ⟨rfl, -⟩ := Prod.mk.inj (Option.some.inj h)
    exact effect_updates (.setJti _ _ _)
  | blacklist row jti =>
    rw [Auth.refreshNext] at h
    split at h
    · rename_i b hb
      obtain ⟨rfl, -⟩ := Prod.mk.inj (Option.some.inj h)
      rw [Auth.Store.blacklistToken_eq hb]
      exact .quiet ⟨fun _ _ h => h, fun _ => rfl⟩ rfl rfl rfl
    · obtain ⟨rfl, -⟩ := Prod.mk.inj (Option.some.inj h)
      exact .refl l
  | revoke row isPlatformAdmin role =>
    obtain ⟨rfl, rfl⟩ := Prod.mk.inj (Option.some.inj h)
    exact (effect_updates (.revokeWhere _ (·.id = row.id))).trans
      (effect_mint (hP row _ (Or.inr rfl)))
  | insert row m =>
    rw [Auth.refreshNext] at h
    split at h
    · rename_i b hb
      obtain ⟨rfl, -⟩ := Prod.mk.inj (Option.some.inj h)
      exact effect_create (hP row m (Or.inl rfl)) hb
    · obtain ⟨rfl, -⟩ := Prod.mk.inj (Option.some.inj h)
      exact .refl l
  | find | lookupUser | lookupRole =>
    obtain ⟨rfl, -⟩ := Prod.mk.inj (Option.some.inj h)
    exact .refl l
  | returned _ _ | revoked _ | threw _ | failed _ => cases h

/-- What a statement of `verifyLink` does to them. -/
theorem effect_link {cfg : Auth.Config} {token : String} {pc pc' : Auth.LinkPc}
    (hP : ∀ m, pc = .insert m ∨ pc' = .insert m → P m.lineage)
    (h : Auth.linkNext cfg l.auth d token pc = some (a', pc')) :
    Effect P l { l with auth := a' } := by
  cases pc with
  | get =>
    obtain ⟨rfl, -⟩ := Prod.mk.inj (Option.some.inj h)
    exact .refl l
  | del v =>
    obtain ⟨rfl, -⟩ := Prod.mk.inj (Option.some.inj h)
    refine ⟨⟨fun _ _ h => h, fun _ => rfl⟩, fun hash x hx => ?_, fun _ h => Or.inl h⟩
    unfold Auth.Store.delOneTime at hx
    dsimp only at hx
    by_cases hsame : Auth.OneTimeKey.magic hash = .magic (cfg.hashToken token)
    · rw [hsame, Function.update_self] at hx
      cases hx
    · rwa [Function.update_of_ne hsame] at hx
  | findUser v =>
    rw [Auth.linkNext] at h
    split at h
    · obtain ⟨rfl, -⟩ := Prod.mk.inj (Option.some.inj h)
      exact .refl l
    · split at h <;> obtain ⟨rfl, rfl⟩ := Prod.mk.inj (Option.some.inj h)
      · exact effect_mint (hP _ (Or.inr rfl))
      · exact .refl l
  | verify v isPlatformAdmin =>
    obtain ⟨rfl, rfl⟩ := Prod.mk.inj (Option.some.inj h)
    exact (effect_verifyEmail v.userId).trans (effect_mint (hP _ (Or.inr rfl)))
  | insert m =>
    rw [Auth.linkNext] at h
    split at h
    · rename_i b hb
      obtain ⟨rfl, -⟩ := Prod.mk.inj (Option.some.inj h)
      exact effect_create (hP m (Or.inl rfl)) hb
    · obtain ⟨rfl, -⟩ := Prod.mk.inj (Option.some.inj h)
      exact .refl l
  | returned _ | threw _ | failed => cases h

/-- What a statement of an acceptance does to them. -/
theorem effect_accept {cfg : Organization.Config} {s s' : Organization.Store}
    {d : Organization.Draw} {token : String} {pc pc' : Organization.AcceptPc}
    (hP : ∀ m, pc = .insert m ∨ pc' = .insert m → P m.lineage)
    (h : Organization.acceptNext cfg s d token pc = some (s', pc')) :
    Effect P s.login s'.login := by
  cases pc with
  | expire v | mark v userId isPlatformAdmin =>
    obtain ⟨rfl, -⟩ := Prod.mk.inj (Option.some.inj h)
    rw [Organization.setInvitation_login]
    exact .refl _
  | createUser v =>
    rw [Organization.acceptNext] at h
    split at h
    · rename_i l hl
      obtain ⟨rfl, -⟩ := Prod.mk.inj (Option.some.inj h)
      exact effect_createUser hl
    · obtain ⟨rfl, -⟩ := Prod.mk.inj (Option.some.inj h)
      exact .refl _
  | membership v userId isPlatformAdmin =>
    rw [Organization.acceptNext] at h
    split at h <;> (obtain ⟨rfl, -⟩ := Prod.mk.inj (Option.some.inj h); exact .refl _)
  | outbox v userId isPlatformAdmin =>
    obtain ⟨rfl, rfl⟩ := Prod.mk.inj (Option.some.inj h)
    exact effect_mint (hP _ (Or.inr rfl))
  | insert m =>
    rw [Organization.acceptNext] at h
    split at h
    · rename_i a ha
      obtain ⟨rfl, -⟩ := Prod.mk.inj (Option.some.inj h)
      exact effect_create (d := d.toDraw) (hP m (Or.inl rfl)) ha
    · obtain ⟨rfl, -⟩ := Prod.mk.inj (Option.some.inj h)
      exact .refl _
  | find | findUser | preferences | provider | seed =>
    obtain ⟨rfl, -⟩ := Prod.mk.inj (Option.some.inj h)
    exact .refl _
  | returned _ _ | threw _ | failed => cases h

/-- What a statement of `handleCallback` does to them. -/
theorem effect_saml {cfg : Config} {s s' : Store} {d : Draw} {orgId samlResponse : String}
    {pc pc' : SamlPc} (hP : ∀ m, pc = .insert m ∨ pc' = .insert m → P m.lineage)
    (h : samlNext cfg s d orgId samlResponse pc = some (s', pc')) : Effect P s.login s'.login := by
  cases pc with
  | insertAssertion | provider =>
    rw [samlNext] at h
    split at h <;> (obtain ⟨rfl, -⟩ := Prod.mk.inj (Option.some.inj h); exact .refl _)
  | createUser email =>
    rw [samlNext] at h
    split at h
    · rename_i l hl
      obtain ⟨rfl, -⟩ := Prod.mk.inj (Option.some.inj h)
      exact effect_createUser hl
    · obtain ⟨rfl, -⟩ := Prod.mk.inj (Option.some.inj h)
      exact .refl _
  | verifyEmail email userId =>
    obtain ⟨rfl, -⟩ := Prod.mk.inj (Option.some.inj h)
    exact effect_verifyEmail userId
  | audit userId role =>
    obtain ⟨rfl, rfl⟩ := Prod.mk.inj (Option.some.inj h)
    exact effect_mint (hP _ (Or.inr rfl))
  | insert m =>
    rw [samlNext] at h
    split at h
    · rename_i a ha
      obtain ⟨rfl, -⟩ := Prod.mk.inj (Option.some.inj h)
      exact effect_create (hP m (Or.inl rfl)) ha
    · obtain ⟨rfl, -⟩ := Prod.mk.inj (Option.some.inj h)
      exact .refl _
  | flag | config | validate | replay | findProvider | findUser | preferences | lookupRole =>
    obtain ⟨rfl, -⟩ := Prod.mk.inj (Option.some.inj h)
    exact .refl _
  | returned _ | threw _ | failed => cases h

/-- What a statement of any call does to them. -/
theorem effect_next {cfg : Config} {s s' : Store} {d : Draw} {c c' : Call}
    (hP : ∀ m, c.minted = some m ∨ c'.minted = some m → P m.lineage) (hc : c.asks = false)
    (h : next cfg s c d = some (s', c')) : Effect P s.login s'.login := by
  cases c with
  | login email password orgId pc =>
    obtain ⟨l, pc', hpc, rfl, rfl⟩ := part_of_next h
    refine (effect_login (fun m hm => hP m ?_) hpc).of_loginStore
    exact hm.imp (by rintro rfl; rfl) (by rintro rfl; rfl)
  | refresh raw pc =>
    obtain ⟨a, pc', hpc, rfl, rfl⟩ := part_of_next h
    have he : Effect P s.loginStore { s.loginStore with auth := a } := by
      refine effect_refresh (fun row m hm => hP m ?_) hpc
      exact hm.imp (by rintro rfl; rfl) (by rintro rfl; rfl)
    exact he.of_loginStore
  | requestLink email orgId pc => cases hc
  | verifyLink token pc =>
    obtain ⟨a, pc', hpc, rfl, rfl⟩ := part_of_next h
    have he : Effect P s.loginStore { s.loginStore with auth := a } := by
      refine effect_link (fun m hm => hP m ?_) hpc
      exact hm.imp (by rintro rfl; rfl) (by rintro rfl; rfl)
    exact he.of_loginStore
  | saml orgId samlResponse pc =>
    obtain ⟨pc', hpc, rfl⟩ := pc_of_next h
    refine effect_saml (fun m hm => hP m ?_) hpc
    exact hm.imp (by rintro rfl; rfl) (by rintro rfl; rfl)
  | org c =>
    obtain ⟨t, c', hpc, rfl, rfl⟩ := part_of_next h
    show Effect P s.login t.login
    cases c with
    | createOrg userId slug pc =>
      obtain ⟨pc', hpc, -⟩ := pc_of_next hpc
      rcases Organization.create_store hpc with rfl | ⟨t, -, rfl⟩ <;> exact .refl _
    | accept token pc =>
      obtain ⟨pc', haccept, rfl⟩ := pc_of_next hpc
      refine effect_accept (fun m hm => hP m ?_) haccept
      exact hm.imp (by rintro rfl; rfl) (by rintro rfl; rfl)
    | route caller orgId action pc =>
      obtain ⟨pc', hpc, -⟩ := pc_of_next hpc
      rw [Organization.route_login hpc]
      exact .refl _
    | cleanup pc =>
      obtain ⟨pc', hpc, -⟩ := pc_of_next hpc
      cases pc with
      | expire =>
        obtain ⟨rfl, -⟩ := Prod.mk.inj (Option.some.inj hpc)
        exact .refl _
      | returned => cases hpc

end Effects

section Steps

variable {ι : Type*} [DecidableEq ι] {cfg : Config} {p q q' u : Calls ι} {s s' : Store} {d : Draw}
  {c c' : Call} {l l' : Auth.LoginStore} {orgId key userId : String}

/-! ## What was shown stays shown -/

section Later

variable (hrun : Run (Pool.step (sessionMachine cfg)) anyStep q q')
include hrun

theorem Found.later {email password : String} {user : Account}
    (h : Found cfg p q email password user) : Found cfg p q' email password user := by
  obtain ⟨s, s', orgId, locked, hfind, hmade⟩ := h
  exact ⟨s, s', orgId, locked, hfind, hmade.later hrun⟩

theorem Asked.later {email : String} {orgId : Option String} (h : Asked cfg p q email orgId userId) :
    Asked cfg p q' email orgId userId := by
  obtain ⟨s, user, hfind, hid, hmade⟩ := h
  exact ⟨s, user, hfind, hid, hmade.later hrun⟩

theorem Sent.later {hash : String} {x : Expiring OneTimeValue} (h : Sent cfg p q hash x) :
    Sent cfg p q' hash x := by
  refine h.imp_right ?_
  rintro ⟨email, s, s', hasked, hexpires, hset, hmade⟩
  exact ⟨email, s, s', hasked.later hrun, hexpires, hset, hmade.later hrun⟩

theorem Followed.later {token : String} (h : Followed cfg p q token userId) :
    Followed cfg p q' token userId := by
  obtain ⟨s, s', x, hid, hsent, hlive, hmade⟩ := h
  exact ⟨s, s', x, hid, hsent.later hrun, hlive, hmade.later hrun⟩

theorem Asserted.later {samlResponse email : String}
    (h : Asserted cfg p q orgId samlResponse email) : Asserted cfg p q' orgId samlResponse email := by
  obtain ⟨s, saml, profile, given, assertionId, hvalid, hgiven, hemail, hmade⟩ := h
  exact ⟨s, saml, profile, given, assertionId, hvalid, hgiven, hemail, hmade.later hrun⟩

theorem Presented.later {token : String} {v : InvitationRow} (h : Presented cfg p q token v) :
    Presented cfg p q' token v := by
  obtain ⟨s, hv, hhash, hpending, hlive, hmade⟩ := h
  exact ⟨s, hv, hhash, hpending, hlive, hmade.later hrun⟩

theorem Vouched.later {x : Lineage} (h : Vouched cfg p q x) : Vouched cfg p q' x := by
  refine h.imp_right ?_
  rintro ⟨u, s, c, s', c', m, credential, hu, hcredential, hproves, hm, hx, hmade⟩
  exact ⟨u, s, c, s', c', m, credential, hu, hcredential, hproves, hm, hx, hmade.later hrun⟩

theorem LoginBacked.later {email password : String} {pc : Auth.LoginPc}
    (h : LoginBacked cfg p q email password pc) : LoginBacked cfg p q' email password pc := by
  cases pc with
  | verify => exact Found.later hrun h
  | reset | touch | lookupRole => exact ⟨h.1.later hrun, h.2⟩
  | insert => exact Vouched.later hrun h
  | _ => trivial

theorem RefreshBacked.later {pc : Auth.RefreshPc} (h : RefreshBacked cfg p q pc) :
    RefreshBacked cfg p q' pc := by
  cases pc with
  | lookupUser | lookupRole | revoke | insert => exact Vouched.later hrun h
  | _ => trivial

theorem LinkBacked.later {token : String} {pc : Auth.LinkPc} (h : LinkBacked cfg p q token pc) :
    LinkBacked cfg p q' token pc := by
  cases pc with
  | del | findUser | verify => exact Followed.later hrun h
  | insert => exact Vouched.later hrun h
  | _ => trivial

variable (hl : ∀ email userId, HasEmail l email userId → HasEmail l' email userId)
include hl

theorem Linked.later (h : Linked cfg p q l key userId) : Linked cfg p q' l' key userId := by
  refine h.imp_right ?_
  rintro ⟨orgId, samlResponse, email, hkey, hasserted, hemail⟩
  exact ⟨orgId, samlResponse, email, hkey, hasserted.later hrun, hl _ _ hemail⟩

theorem Proves.later {credential : Credential} (h : Proves cfg p q l credential userId) :
    Proves cfg p q' l' credential userId := by
  cases h with
  | password hfound hvalid => exact .password (hfound.later hrun) hvalid
  | link hfollowed => exact .link (hfollowed.later hrun)
  | assertion hasserted hlinked => exact .assertion (hasserted.later hrun) (hlinked.later hrun hl)
  | invitation hpresented hemail => exact .invitation (hpresented.later hrun) (hl _ _ hemail)

/-- A callback has the same to show as the run goes on. -/
theorem SamlBacked.later {samlResponse : String} {pc : SamlPc}
    (h : SamlBacked cfg p q l orgId samlResponse pc) :
    SamlBacked cfg p q' l' orgId samlResponse pc := by
  cases pc with
  | replay | insertAssertion | findProvider | findUser | createUser => exact Asserted.later hrun h
  | preferences | verifyEmail | provider => exact ⟨h.1.later hrun, hl _ _ h.2⟩
  | lookupRole | audit => exact Proves.later hrun hl h
  | insert => exact Vouched.later hrun h
  | _ => trivial

theorem AcceptBacked.later {token : String} {pc : Organization.AcceptPc}
    (h : AcceptBacked cfg p q l token pc) : AcceptBacked cfg p q' l' token pc := by
  cases pc with
  | findUser | createUser => exact Presented.later hrun h
  | preferences | provider | membership | seed | mark | outbox =>
    exact ⟨h.1.later hrun, hl _ _ h.2⟩
  | insert => exact Vouched.later hrun h
  | _ => trivial

/-- A call has the same to show as the run goes on. -/
theorem Backed.later (h : Backed cfg p q l c) : Backed cfg p q' l' c := by
  cases c with
  | login email password orgId pc => exact LoginBacked.later hrun h
  | refresh raw pc => exact RefreshBacked.later hrun h
  | requestLink email orgId pc =>
    cases pc with
    | set => exact Asked.later hrun h
    | _ => trivial
  | verifyLink token pc => exact LinkBacked.later hrun h
  | saml orgId samlResponse pc => exact SamlBacked.later hrun hl h
  | org c =>
    cases c with
    | accept token pc => exact AcceptBacked.later hrun hl h
    | _ => trivial

end Later

theorem Proved.later (h : Proved cfg p q s)
    (hrun : Run (Pool.step (sessionMachine cfg)) anyStep q q') : Proved cfg p q' s where
  sessions x hx := (h.sessions x hx).later hrun
  links hash x hx := (h.links hash x hx).later hrun
  providers key userId hkey := (h.providers key userId hkey).later hrun fun _ _ h => h
  mirrored := h.mirrored

/-- Nothing but the provider rows is left to ask for. -/
theorem Proved.effect (h : Proved cfg p q s) (he : Effect (Vouched cfg p q) s.login s'.login)
    (hproviders : ∀ key userId, s'.samlProviders key = some userId
      ∨ s'.samlProvidersReplica key = some userId →
      Linked cfg p q s.login key userId) : Proved cfg p q s' where
  sessions x hx := (he.sessions x hx).elim (h.sessions x) id
  links hash x hx := h.links hash x (he.links hash x hx)
  providers key userId hkey := (hproviders key userId hkey).later .refl he.users.emails
  mirrored := he.users.mirrored h.mirrored

/-! ## From one statement of a call to the next -/

/-- A statement of `login` leaves it with what it has to show. -/
theorem backed_login {email password : String} {orgId : Option String} {pc pc' : Auth.LoginPc}
    (hu : Run (Pool.step (sessionMachine cfg)) anyStep p u) (hc : LoginBacked cfg p u email password pc)
    (hn : Auth.loginNext cfg.toLoginConfig s.loginStore d.toDraw email password orgId pc
      = some (l', pc'))
    (hmade : Made (sessionMachine cfg) u q s (.login email password orgId pc) s'
      (.login email password orgId pc')) : LoginBacked cfg p q email password pc' := by
  cases pc with
  | find =>
    obtain ⟨-, hpc⟩ := Prod.mk.inj (Option.some.inj hn)
    have hread : s.loginStore.findUserByEmail (cfg.normalizeEmail email)
      = s.login.findUserByEmail (cfg.normalizeEmail email) := rfl
    cases hfind : s.login.findUserByEmail (cfg.normalizeEmail email) with
    | none =>
      rw [hread, hfind] at hpc
      subst hpc
      trivial
    | some user =>
      rw [hread, hfind, Auth.LoginPc.found] at hpc
      split at hpc
      · subst hpc
        trivial
      · split at hpc <;> subst hpc
        · trivial
        · exact ⟨s, s', orgId, _, hfind, hmade.earlier hu⟩
  | verify user locked =>
    obtain ⟨-, rfl⟩ := Prod.mk.inj (Option.some.inj hn)
    unfold Auth.LoginPc.verified
    cases hvalid : Auth.passwordValid cfg.toLoginConfig password user with
    | true => exact ⟨Found.later hmade.run hc, hvalid⟩
    | false =>
      rw [if_neg Bool.false_ne_true]
      split <;> trivial
  | increment user lockoutAttempts =>
    obtain ⟨-, rfl⟩ := Prod.mk.inj (Option.some.inj hn)
    unfold Auth.LoginPc.counted
    split <;> trivial
  | reset user =>
    obtain ⟨-, rfl⟩ := Prod.mk.inj (Option.some.inj hn)
    exact ⟨hc.1.later hmade.run, hc.2⟩
  | touch user =>
    rw [Auth.loginNext] at hn
    split at hn <;> obtain ⟨-, rfl⟩ := Prod.mk.inj (Option.some.inj hn)
    · exact ⟨hc.1.later hmade.run, hc.2⟩
    · exact Or.inr ⟨u, s, _, s', _, _, _, hu, rfl, .password hc.1 hc.2, rfl, rfl, hmade⟩
  | lookupRole user org =>
    rw [Auth.loginNext] at hn
    split at hn <;> obtain ⟨-, rfl⟩ := Prod.mk.inj (Option.some.inj hn)
    · exact Or.inr ⟨u, s, _, s', _, _, _, hu, rfl, .password hc.1 hc.2, rfl, rfl, hmade⟩
    · trivial
  | insert m =>
    rw [Auth.loginNext] at hn
    split at hn <;> (obtain ⟨-, rfl⟩ := Prod.mk.inj (Option.some.inj hn); trivial)
  | threshold | lock | audit =>
    obtain ⟨-, rfl⟩ := Prod.mk.inj (Option.some.inj hn)
    trivial
  | returned _ | threw _ | failed => cases hn

/-- Who presents the token of a row goes on with the session of the row. -/
theorem backed_refresh {a : Auth.Store} {raw : String} {pc pc' : Auth.RefreshPc}
    (h : Proved cfg p q s) (hc : RefreshBacked cfg p q pc)
    (hn : Auth.refreshNext cfg.toConfig s.loginStore.auth d.toDraw raw pc = some (a, pc')) :
    RefreshBacked cfg p q pc' := by
  cases pc with
  | find =>
    obtain ⟨-, rfl⟩ := Prod.mk.inj (Option.some.inj hn)
    cases hfind : s.loginStore.auth.findRefreshToken (cfg.hashToken raw) with
    | none => trivial
    | some row =>
      unfold Auth.RefreshPc.found
      dsimp only
      split
      · trivial
      · split
        · trivial
        · exact h.sessions _ (Or.inl ⟨row, List.mem_of_find?_eq_some hfind, rfl⟩)
  | revokeFamily row =>
    obtain ⟨-, rfl⟩ := Prod.mk.inj (Option.some.inj hn)
    unfold Auth.RefreshPc.reused
    split <;> trivial
  | lookupUser row =>
    obtain ⟨-, rfl⟩ := Prod.mk.inj (Option.some.inj hn)
    unfold Auth.RefreshPc.lookedUp
    split
    · trivial
    · split <;> exact hc
  | lookupRole | revoke =>
    obtain ⟨-, rfl⟩ := Prod.mk.inj (Option.some.inj hn)
    exact hc
  | blacklist | insert =>
    rw [Auth.refreshNext] at hn
    split at hn <;> (obtain ⟨-, rfl⟩ := Prod.mk.inj (Option.some.inj hn); trivial)
  | updateJti =>
    obtain ⟨-, rfl⟩ := Prod.mk.inj (Option.some.inj hn)
    trivial
  | returned _ _ | revoked _ | threw _ | failed _ => cases hn

/-- What a request for a link has to show, statement by statement. -/
theorem backed_request {email : String} {orgId : Option String} {pc pc' : RequestPc}
    (hn : requestNext cfg s d email orgId pc = some (s', pc'))
    (hmade : Made (sessionMachine cfg) p q s (.requestLink email orgId pc) s'
      (.requestLink email orgId pc')) : RequestBacked cfg p q email orgId pc' := by
  cases pc with
  | find =>
    obtain ⟨rfl, hpc⟩ := Prod.mk.inj (Option.some.inj hn)
    split at hpc <;> subst hpc
    case h_1 user hfind => exact ⟨s, user, hfind, rfl, hmade⟩
    case h_2 => trivial
  | set | outbox =>
    obtain ⟨-, rfl⟩ := Prod.mk.inj (Option.some.inj hn)
    trivial
  | returned => cases hn

/-- A link that is read is one that was sent and is still good. -/
theorem backed_link {a : Auth.Store} {token : String} {pc pc' : Auth.LinkPc}
    (hu : Run (Pool.step (sessionMachine cfg)) anyStep p u) (h : Proved cfg p q s)
    (hc : LinkBacked cfg p u token pc)
    (hn : Auth.linkNext cfg.toConfig s.loginStore.auth d.toDraw token pc = some (a, pc'))
    (hmade : Made (sessionMachine cfg) u q s (.verifyLink token pc) s' (.verifyLink token pc')) :
    LinkBacked cfg p q token pc' := by
  cases pc with
  | get =>
    obtain ⟨-, hpc⟩ := Prod.mk.inj (Option.some.inj hn)
    split at hpc <;> subst hpc
    case h_1 v hget =>
      obtain ⟨x, hx, rfl⟩ := Option.map_eq_some_iff.mp hget
      obtain ⟨hkey, hlive⟩ := Option.filter_eq_some_iff.mp hx
      exact ⟨s, s', x, rfl, h.links _ x hkey, of_decide_eq_true hlive, hmade.earlier hu⟩
    case h_2 => trivial
  | del v =>
    obtain ⟨-, rfl⟩ := Prod.mk.inj (Option.some.inj hn)
    exact Followed.later hmade.run hc
  | findUser v =>
    rw [Auth.linkNext] at hn
    split at hn
    · obtain ⟨-, rfl⟩ := Prod.mk.inj (Option.some.inj hn)
      trivial
    · split at hn <;> obtain ⟨-, rfl⟩ := Prod.mk.inj (Option.some.inj hn)
      · exact Or.inr ⟨u, s, _, s', _, _, _, hu, rfl, .link hc, rfl, rfl, hmade⟩
      · exact Followed.later hmade.run hc
  | verify v isPlatformAdmin =>
    obtain ⟨-, rfl⟩ := Prod.mk.inj (Option.some.inj hn)
    exact Or.inr ⟨u, s, _, s', _, _, _, hu, rfl, .link hc, rfl, rfl, hmade⟩
  | insert m =>
    rw [Auth.linkNext] at hn
    split at hn <;> (obtain ⟨-, rfl⟩ := Prod.mk.inj (Option.some.inj hn); trivial)
  | returned _ | threw _ | failed => cases hn

/-- So does a statement of `handleCallback`. -/
theorem backed_saml {samlResponse : String} {pc pc' : SamlPc}
    (hu : Run (Pool.step (sessionMachine cfg)) anyStep p u) (h : Proved cfg p q s)
    (hc₀ : SamlBacked cfg p u s.login orgId samlResponse pc)
    (hn : samlNext cfg s d orgId samlResponse pc = some (s', pc'))
    (hmade : Made (sessionMachine cfg) u q s (.saml orgId samlResponse pc) s'
      (.saml orgId samlResponse pc')) : SamlBacked cfg p q s'.login orgId samlResponse pc' := by
  have hc := hc₀.later hmade.run fun _ _ h => h
  cases pc with
  | flag | config =>
    obtain ⟨-, rfl⟩ := Prod.mk.inj (Option.some.inj hn)
    split <;> trivial
  | validate saml =>
    obtain ⟨rfl, hpc⟩ := Prod.mk.inj (Option.some.inj hn)
    cases hvalid : cfg.validatePostResponse saml s.now samlResponse with
    | none =>
      rw [hvalid] at hpc
      subst hpc
      trivial
    | some profile =>
      rw [hvalid, SamlPc.validated] at hpc
      split at hpc <;> subst hpc
      case h_1 => trivial
      case h_2 => trivial
      case h_3 given assertionId hgiven _ =>
        exact ⟨s, saml, profile, given, assertionId, hvalid, hgiven, rfl, hmade.earlier hu⟩
  | replay assertionId email =>
    obtain ⟨-, rfl⟩ := Prod.mk.inj (Option.some.inj hn)
    split
    · trivial
    · exact hc
  | insertAssertion assertionId email =>
    rw [samlNext] at hn
    split at hn <;> obtain ⟨-, rfl⟩ := Prod.mk.inj (Option.some.inj hn)
    · trivial
    · exact hc
  | findProvider email =>
    obtain ⟨rfl, rfl⟩ := Prod.mk.inj (Option.some.inj hn)
    split
    case h_1 userId hrow => exact .assertion hc (h.providers _ _ (Or.inr hrow))
    case h_2 => exact hc
  | findUser email =>
    obtain ⟨rfl, rfl⟩ := Prod.mk.inj (Option.some.inj hn)
    split
    case h_1 => exact hc
    case h_2 user hfind => split <;> exact ⟨hc, h.mirrored _ user hfind⟩
  | createUser email =>
    rw [samlNext] at hn
    split at hn <;> obtain ⟨rfl, rfl⟩ := Prod.mk.inj (Option.some.inj hn)
    case h_1 l hl => exact ⟨hc, (Organization.users_createUser hl).2⟩
    case h_2 => trivial
  | preferences email userId =>
    obtain ⟨rfl, rfl⟩ := Prod.mk.inj (Option.some.inj hn)
    exact hc
  | verifyEmail email userId =>
    obtain ⟨rfl, rfl⟩ := Prod.mk.inj (Option.some.inj hn)
    exact ⟨hc.1, (effect_verifyEmail (P := fun _ => True) userId).users.emails _ _ hc.2⟩
  | provider email userId =>
    rw [samlNext] at hn
    split at hn <;> obtain ⟨rfl, rfl⟩ := Prod.mk.inj (Option.some.inj hn)
    · trivial
    · exact .assertion hc.1 (Or.inr ⟨orgId, samlResponse, email, rfl, hc.1, hc.2⟩)
  | lookupRole userId =>
    obtain ⟨rfl, rfl⟩ := Prod.mk.inj (Option.some.inj hn)
    exact hc
  | audit userId role =>
    obtain ⟨-, rfl⟩ := Prod.mk.inj (Option.some.inj hn)
    exact Or.inr ⟨u, s, _, s', _, _, _, hu, rfl, hc₀, rfl, rfl, hmade⟩
  | insert m =>
    rw [samlNext] at hn
    split at hn <;> (obtain ⟨-, rfl⟩ := Prod.mk.inj (Option.some.inj hn); trivial)
  | returned _ | threw _ | failed => cases hn

/-- So does a statement of an acceptance. -/
theorem backed_accept {t : Organization.Store} {token : String} {pc pc' : Organization.AcceptPc}
    (hu : Run (Pool.step (sessionMachine cfg)) anyStep p u) (h : Proved cfg p q s)
    (hc₀ : AcceptBacked cfg p u s.login token pc)
    (hn : Organization.acceptNext cfg.toOrgConfig s.toStore d.toOrgDraw token pc = some (t, pc'))
    (hmade : Made (sessionMachine cfg) u q s (.org (.accept token pc)) (s.putOrg t)
      (.org (.accept token pc'))) : AcceptBacked cfg p q t.login token pc' := by
  have hc := hc₀.later hmade.run fun _ _ h => h
  cases pc with
  | find =>
    obtain ⟨rfl, hpc⟩ := Prod.mk.inj (Option.some.inj hn)
    cases hfind : s.primary.findByTokenHash (cfg.hashToken token) with
    | none =>
      rw [hfind] at hpc
      subst hpc
      trivial
    | some v =>
      rw [hfind, Organization.AcceptPc.found] at hpc
      split at hpc
      · subst hpc
        trivial
      · rename_i hpending
        split at hpc <;> subst hpc
        · trivial
        · rename_i hlive
          have hhash := List.find?_some hfind
          rw [decide_eq_true_eq] at hhash
          exact ⟨s, List.mem_of_find?_eq_some hfind, hhash, not_not.mp hpending, not_lt.mp hlive,
            hmade.earlier hu⟩
  | findUser v =>
    obtain ⟨rfl, rfl⟩ := Prod.mk.inj (Option.some.inj hn)
    split
    case h_1 user hfind => exact ⟨hc, h.mirrored _ user hfind⟩
    case h_2 => exact hc
  | createUser v =>
    rw [Organization.acceptNext] at hn
    split at hn <;> obtain ⟨rfl, rfl⟩ := Prod.mk.inj (Option.some.inj hn)
    case h_1 l hl => exact ⟨hc, (Organization.users_createUser hl).2⟩
    case h_2 => trivial
  | preferences | provider | seed =>
    obtain ⟨rfl, rfl⟩ := Prod.mk.inj (Option.some.inj hn)
    exact hc
  | membership v userId isPlatformAdmin =>
    rw [Organization.acceptNext] at hn
    split at hn <;> obtain ⟨rfl, rfl⟩ := Prod.mk.inj (Option.some.inj hn)
    · exact hc
    · trivial
  | mark v userId isPlatformAdmin =>
    obtain ⟨rfl, rfl⟩ := Prod.mk.inj (Option.some.inj hn)
    rw [Organization.setInvitation_login]
    exact hc
  | outbox v userId isPlatformAdmin =>
    obtain ⟨-, rfl⟩ := Prod.mk.inj (Option.some.inj hn)
    exact Or.inr ⟨u, s, _, _, _, _, _, hu, rfl, .invitation hc₀.1 hc₀.2, rfl, rfl, hmade⟩
  | insert m =>
    rw [Organization.acceptNext] at hn
    split at hn <;> (obtain ⟨-, rfl⟩ := Prod.mk.inj (Option.some.inj hn); trivial)
  | expire v =>
    obtain ⟨-, rfl⟩ := Prod.mk.inj (Option.some.inj hn)
    trivial
  | returned _ _ | threw _ | failed => cases hn

/-- So does a statement of any call. -/
theorem backed_next (hu : Run (Pool.step (sessionMachine cfg)) anyStep p u) (h : Proved cfg p q s)
    (hc : Backed cfg p u s.login c) (hn : next cfg s c d = some (s', c'))
    (hmade : Made (sessionMachine cfg) u q s c s' c') : Backed cfg p q s'.login c' := by
  cases c with
  | login email password orgId pc =>
    obtain ⟨l, pc', hpc, rfl, rfl⟩ := part_of_next hn
    exact backed_login hu hc hpc hmade
  | refresh raw pc =>
    obtain ⟨a, pc', hpc, rfl, rfl⟩ := part_of_next hn
    exact backed_refresh h (RefreshBacked.later hmade.run hc) hpc
  | requestLink email orgId pc =>
    obtain ⟨pc', hpc, rfl⟩ := pc_of_next hn
    exact backed_request hpc (hmade.earlier hu)
  | verifyLink token pc =>
    obtain ⟨a, pc', hpc, rfl, rfl⟩ := part_of_next hn
    exact backed_link hu h hc hpc hmade
  | saml orgId samlResponse pc =>
    obtain ⟨pc', hpc, rfl⟩ := pc_of_next hn
    exact backed_saml hu h hc hpc hmade
  | org c =>
    obtain ⟨t, c', hpc, rfl, rfl⟩ := part_of_next hn
    cases c with
    | accept token pc =>
      obtain ⟨pc', haccept, rfl⟩ := pc_of_next hpc
      exact backed_accept hu h hc haccept hmade
    | createOrg userId slug pc | route caller orgId action pc | cleanup pc =>
      obtain ⟨pc', -, rfl⟩ := pc_of_next hpc
      trivial

/-! ## The stores after a statement -/

/-- The pairs of a call are of families that were opened. -/
theorem vouched_of_minted {l : Auth.LoginStore} {m : Minted} (h : Backed cfg p q l c)
    (hm : c.minted = some m) : Vouched cfg p q m.lineage := by
  unfold Call.minted at hm
  split at hm
  case h_6 => cases hm
  all_goals
    obtain rfl := Option.some.inj hm
    exact h

/-- A link that is set is that of a request. -/
theorem proved_request {email : String} {orgId : Option String} {pc pc' : RequestPc}
    (h : Proved cfg p q s) (hc : RequestBacked cfg p q email orgId pc)
    (hn : requestNext cfg s d email orgId pc = some (s', pc'))
    (hmade : Made (sessionMachine cfg) p q s (.requestLink email orgId pc) s'
      (.requestLink email orgId pc')) : Proved cfg p q s' := by
  cases pc with
  | set userId =>
    obtain ⟨rfl, rfl⟩ := Prod.mk.inj (Option.some.inj hn)
    refine ⟨h.sessions, fun hash x hx => ?_, h.providers, h.mirrored⟩
    have hkey : (s.login.auth.setOneTime (.magic (cfg.hashToken d.linkToken)) ⟨userId, orgId⟩
      900).oneTime (.magic hash) = some x := hx
    unfold Auth.Store.setOneTime at hkey
    dsimp only at hkey
    by_cases hsame : Auth.OneTimeKey.magic hash = .magic (cfg.hashToken d.linkToken)
    · rw [hsame, Function.update_self] at hkey
      obtain rfl := Option.some.inj hkey
      exact Or.inr ⟨email, s, _, hc, rfl, by rw [hsame]; rfl, hmade⟩
    · rw [Function.update_of_ne hsame] at hkey
      exact h.links hash x hkey
  | find | outbox =>
    obtain ⟨rfl, -⟩ := Prod.mk.inj (Option.some.inj hn)
    exact h
  | returned => cases hn

/-- A provider row is of the user whose email was asserted. -/
theorem linked_saml {samlResponse : String} {pc pc' : SamlPc} (h : Proved cfg p q s)
    (hc : SamlBacked cfg p q s.login orgId samlResponse pc)
    (hn : samlNext cfg s d orgId samlResponse pc = some (s', pc'))
    (hkey : s'.samlProviders key = some userId ∨ s'.samlProvidersReplica key = some userId) :
    Linked cfg p q s.login key userId := by
  cases pc with
  | provider email owner =>
    rw [samlNext] at hn
    split at hn <;> obtain ⟨rfl, -⟩ := Prod.mk.inj (Option.some.inj hn)
    · exact h.providers key userId hkey
    · rcases hkey with hrow | hrow
      · dsimp only at hrow
        by_cases hsame : key = providerUserId orgId email
        · rw [hsame, Function.update_self] at hrow
          obtain rfl := Option.some.inj hrow
          exact Or.inr ⟨orgId, samlResponse, email, hsame.symm, hc.1, hc.2⟩
        · rw [Function.update_of_ne hsame] at hrow
          exact h.providers key userId (Or.inl hrow)
      · exact h.providers key userId (Or.inr hrow)
  | insertAssertion | createUser | insert =>
    rw [samlNext] at hn
    split at hn <;>
      (obtain ⟨rfl, -⟩ := Prod.mk.inj (Option.some.inj hn)
       exact h.providers key userId hkey)
  | returned _ | threw _ | failed => cases hn
  | _ =>
    obtain ⟨rfl, -⟩ := Prod.mk.inj (Option.some.inj hn)
    exact h.providers key userId hkey

/-- A row of `auth_providers` is linked by an assertion that was shown. -/
theorem linked_next (h : Proved cfg p q s) (hc : Backed cfg p q s.login c)
    (hn : next cfg s c d = some (s', c'))
    (hkey : s'.samlProviders key = some userId ∨ s'.samlProvidersReplica key = some userId) :
    Linked cfg p q s.login key userId := by
  cases c with
  | saml orgId samlResponse pc =>
    obtain ⟨pc', hpc, -⟩ := pc_of_next hn
    exact linked_saml h hc hpc hkey
  | requestLink email orgId pc =>
    obtain ⟨pc', hpc, -⟩ := pc_of_next hn
    cases pc with
    | returned => cases hpc
    | _ =>
      obtain ⟨rfl, -⟩ := Prod.mk.inj (Option.some.inj hpc)
      exact h.providers key userId hkey
  | login | refresh | verifyLink | org =>
    obtain ⟨_, _, -, rfl, -⟩ := part_of_next hn
    exact h.providers key userId hkey

/-- One statement keeps what holds of the stores. -/
theorem proved_next (h : Proved cfg p q s) (hc : Backed cfg p q s.login c)
    (hc' : Backed cfg p q s'.login c') (hn : next cfg s c d = some (s', c'))
    (hmade : Made (sessionMachine cfg) p q s c s' c') : Proved cfg p q s' := by
  have hminted : ∀ m, c.minted = some m ∨ c'.minted = some m → Vouched cfg p q m.lineage :=
    fun m hm => hm.elim (vouched_of_minted hc) (vouched_of_minted hc')
  cases hasks : c.asks with
  | false =>
    exact h.effect (effect_next hminted hasks hn) fun key userId hkey => linked_next h hc hn hkey
  | true =>
    cases c with
    | requestLink email orgId pc =>
      obtain ⟨pc', hpc, rfl⟩ := pc_of_next hn
      exact proved_request h hc hpc hmade
    | _ => cases hasks

/-- No statement takes an email away. -/
theorem emails_next (hn : next cfg s c d = some (s', c')) (email userId : String)
    (h : HasEmail s.login email userId) : HasEmail s'.login email userId := by
  cases hasks : c.asks with
  | false =>
    have he : Effect (fun _ => True) s.login s'.login := effect_next (fun _ _ => trivial) hasks hn
    exact he.users.emails email userId h
  | true =>
    cases c with
    | requestLink email orgId pc =>
      obtain ⟨pc', hpc, -⟩ := pc_of_next hn
      cases pc with
      | returned => cases hpc
      | _ =>
        obtain ⟨rfl, -⟩ := Prod.mk.inj (Option.some.inj hpc)
        exact h
    | _ => cases hasks

/-! ## Runs -/

theorem proved_start (hmirrored : Mirrored p.store.login) : Proved cfg p p p.store where
  sessions _ hx := Or.inl hx
  links _ _ hx := Or.inl hx
  providers _ _ hkey := Or.inl hkey
  mirrored := hmirrored

/-- A call that has not started has nothing to show. -/
theorem backed_of_fresh (h : c.fresh = true) : Backed cfg p q l c := by
  unfold Call.fresh at h
  split at h
  case h_6 c =>
    unfold Organization.Call.fresh at h
    split at h
    case h_5 => cases h
    all_goals trivial
  case h_7 => cases h
  all_goals trivial

theorem proved_env (h : Proved cfg p q s) (e : Organization.Env) : Proved cfg p q (env s e) := by
  cases e with
  | tick ms => exact ⟨h.sessions, h.links, h.providers, h.mirrored⟩
  | replicate =>
    exact ⟨h.sessions, h.links, fun key userId hkey =>
      h.providers key userId (Or.inl (or_self_iff.mp hkey)), Organization.mirrored_of_same rfl rfl⟩

/-- Everything stored was proved, in every state of a run. -/
theorem proved_run (hfresh : ∀ i, (p.calls i).Live fun c => c.fresh)
    (hmirrored : Mirrored p.store.login)
    (hrun : Run (Pool.step (sessionMachine cfg)) anyStep p q) : Proved cfg p q q.store := by
  have hstart : ∀ i, (p.calls i).Keeps (Backed cfg p p p.store.login) := by
    intro i
    obtain ⟨c, hc, hc'⟩ := (hfresh i).exists
    rw [hc]
    exact backed_of_fresh hc'
  refine (invariant_made
    (I := fun u v => Proved cfg p v u.store ∧ ∀ i, (u.calls i).Keeps (Backed cfg p v u.store.login))
    ⟨proved_start hmirrored, hstart⟩ ?_ ?_ ?_ ?_ hrun).1
  · exact fun u v w ⟨hI, hcalls⟩ hvw => ⟨hI.later hvw, fun i =>
      (hcalls i).imp fun _ hb => hb.later hvw fun _ _ h => h⟩
  · intro u v i d c s' c' hu ⟨_, hbefore⟩ ⟨hI, hcalls⟩ hc hn hmade
    have hmine := backed_next hu hI ((hbefore i).of_up hc) hn hmade
    refine ⟨proved_next hI ((hcalls i).of_up hc) hmine hn (hmade.earlier hu),
      keeps_update_up hmine fun j _ => (hcalls j).imp ?_⟩
    exact fun _ hb => hb.later .refl (emails_next hn)
  · exact fun u v i c ⟨hI, hcalls⟩ _ => ⟨hI, keeps_update_down hcalls⟩
  · intro u v e ⟨hI, hcalls⟩
    refine ⟨proved_env hI e, fun j => (hcalls j).imp fun _ hb => hb.later .refl ?_⟩
    intro email userId hemail
    cases e <;> exact hemail

/-- **Who has a session has proved who they are.**  Whatever interleaves, crashes and lags: every
refresh token and every access token that was signed is of a user and a family that were there at
the beginning, or the family was opened for this user by a call that had been shown a credential
of theirs. -/
theorem session_was_proved (hfresh : ∀ i, (p.calls i).Live fun c => c.fresh)
    (hmirrored : Mirrored p.store.login)
    (hrun : Run (Pool.step (sessionMachine cfg)) anyStep p q) :
    ∀ x, q.store.HasSession x → p.store.HasSession x ∨ Opened cfg p q x :=
  (proved_run hfresh hmirrored hrun).sessions

end Steps

/-! ### A link that is followed -/

/-- `u` asks for a link and follows it: the session is new. -/
theorem session_was_proved_link :
    ∃ q, Run (Pool.step (sessionMachine demoConfig)) anyStep linkAndInvitation q
      ∧ q.store.HasSession ⟨"u", "fj"⟩ ∧ Opened demoConfig linkAndInvitation q ⟨"u", "fj"⟩ := by
  let opening : Draw := ⟨⟨Auth.drawn "j" "t" "r", ""⟩, "", false, none⟩
  obtain ⟨q, hq, h⟩ := exists_run_of_exec (Pool.step (sessionMachine demoConfig)) anyStep
    linkAndInvitation [.run 0 (drawn ""), .run 0 (drawn "l"), .run 1 (drawn ""), .run 1 (drawn ""),
      .run 1 opening, .run 1 opening]
    (fun q => q.store.login.auth.refreshTokens.rows.any fun r =>
      r.userId = "u" ∧ r.familyId = "fj") (by decide)
  obtain ⟨r, hr, hrow⟩ := List.any_eq_true.mp h
  obtain ⟨huser, hfamily⟩ := of_decide_eq_true hrow
  have hsession : q.store.HasSession ⟨"u", "fj"⟩ :=
    Or.inl ⟨r, hr, congrArg₂ Lineage.mk huser hfamily⟩
  have hmirrored : Mirrored linkAndInvitation.store.login := Organization.mirrored_of_same rfl rfl
  refine ⟨q, hq, hsession,
    (session_was_proved linkAndInvitation_fresh hmirrored hq _ hsession).resolve_left ?_⟩
  rintro (⟨r₀, hr₀, hlineage⟩ | ⟨x, hx, -, hfam⟩)
  · obtain rfl := List.mem_singleton.mp hr₀
    exact absurd (congrArg Lineage.familyId hlineage) (by decide)
  · obtain rfl := List.mem_singleton.mp hx
    exact absurd hfam (by decide)

end WorkPlatform.Session

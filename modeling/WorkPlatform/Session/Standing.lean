import WorkPlatform.Organization.Invitation
import WorkPlatform.Session.Calls

/-!
# Session/Standing — a token names an organisation its user is a member of

Five services sign tokens for an organisation, and each finds the role in its own way:

    login              the active role on the replica, or 403
    refreshTokenPair   the active role on the replica, or `member`   ▸ revoke ▸ sign
    handleCallback     the active role on the replica, or `member`   ▸ audit ▸ sign
    acceptInvitation   the role of the invitation, by the upsert     ▸ seed ▸ mark ▸ outbox ▸ sign
    verifyLink         `member`, for the organisation `requestLink` was given

So a token may name an organisation its user has left, or was never in (`link_signs_foreign_org`).

A **standing** is what a token says of its user.  Where the replica shows a membership as the
primary has it when a role is looked up, those the code takes for members are members, and no
membership is given another role or removed before a call has signed for it (`Steady`), every token
that is signed says what the memberships say (`signed_by_standing`).
-/

namespace WorkPlatform.Session

open Machinery
open Auth (Role AccessToken Issued)
open Organization (Tables MembersStep MemberWrite MembershipRow)

/-! ## Standings -/

/-- The user is an active member of the organisation, with the role. -/
structure Standing where
  orgId : String
  userId : String
  role : Role
  deriving DecidableEq

/-- What an access token says. -/
def standing (token : AccessToken) : Standing := ⟨token.orgId, token.sub, token.role⟩

/-- The role of an active membership that is not deleted. -/
def activeRole (t : Tables) (orgId userId : String) : Option Role :=
  ((t.findMembership orgId userId).filter (·.status = .active)).map (·.role)

/-- The standing is that of a membership, or names no organisation. -/
def Standing.backed (t : Tables) (x : Standing) : Bool :=
  x.orgId = "" ∨ activeRole t x.orgId x.userId = some x.role

/-- The write leaves the role of the user in the organisation what it is. -/
def keepsRole (t : Tables) (orgId userId : String) : String × String × MemberWrite → Bool
  | (o, u, .join role) | (o, u, .setRole role) =>
    o = orgId ∧ u = userId → activeRole t orgId userId = some role.1
  | (o, u, .remove) => ¬ (o = orgId ∧ u = userId)

/-- A membership of the user in the organisation, deleted or not. -/
def isFor (orgId userId : String) (m : MembershipRow) : Bool := m.orgId = orgId ∧ m.userId = userId

/-- The replica shows the memberships of the user in the organisation as the primary has them. -/
def Store.current (s : Store) (orgId userId : String) : Bool :=
  s.replica.memberships.filter (isFor orgId userId)
    = s.primary.memberships.filter (isFor orgId userId)

/-- No membership that is deleted is active: the removal sets both columns. -/
def Removed (t : Tables) : Prop := ∀ m ∈ t.memberships, m.deleted = true → m.status ≠ .active

instance (t : Tables) : Decidable (Removed t) :=
  inferInstanceAs (Decidable (∀ m ∈ t.memberships, m.deleted = true → m.status ≠ .active))

/-! ## What a call holds, and what it resolves -/

/-- The standing an acceptance has brought about, until it has signed. -/
def acceptHeld : Organization.AcceptPc → Option Standing
  | .seed v userId _ | .mark v userId _ | .outbox v userId _ => some ⟨v.orgId, userId, v.role.1⟩
  | _ => none

/-- The standing a call is going to sign. -/
def Call.held : Call → Option Standing
  | .refresh _ (.revoke row _ role) => some ⟨row.orgId.getD "", row.userId, role⟩
  | .saml orgId _ (.audit userId role) => some ⟨orgId, userId, role⟩
  | .org (.accept _ pc) => acceptHeld pc
  | _ => none

/-- The standing the next statement of a call resolves. -/
def Call.resolved (s : Store) : Call → Option Standing
  | .login _ _ orgId (.lookupRole user o) =>
    (s.findActiveRole user.id o).map fun role => ⟨orgId.getD "", user.id, role⟩
  | .refresh _ (.lookupRole row orgId _) =>
    some ⟨row.orgId.getD "", row.userId, (s.findActiveRole row.userId orgId).getD .member⟩
  | .saml orgId _ (.lookupRole userId) =>
    some ⟨orgId, userId, (s.findActiveRole userId orgId).getD .member⟩
  | .verifyLink _ (.findUser v) =>
    if (s.login.auth.findUserById v.userId).any (·.emailVerified) then
      some ⟨v.orgId.getD "", v.userId, .member⟩
    else none
  | .verifyLink _ (.verify v _) => some ⟨v.orgId.getD "", v.userId, .member⟩
  | _ => none

/-- The user of a link is a plain member of the organisation it names. -/
def isPlainMember (t : Tables) (v : Auth.OneTimeValue) : Bool :=
  v.orgId.getD "" = "" ∨ activeRole t (v.orgId.getD "") v.userId = some .member

/-- **What the code takes for granted** where a statement resolves a role. -/
def Call.fair (s : Store) : Call → Bool
  | .login _ _ _ (.lookupRole user o) => s.current o user.id
  | .refresh _ (.lookupRole row o _) =>
    s.current o row.userId ∧ (activeRole s.primary o row.userId).isSome
  | .saml orgId _ (.lookupRole userId) =>
    s.current orgId userId ∧ (activeRole s.primary orgId userId).isSome
  | .verifyLink _ (.findUser v) =>
    (s.login.auth.findUserById v.userId).any (·.emailVerified) → isPlainMember s.primary v
  | .verifyLink _ (.verify v _) => isPlainMember s.primary v
  | _ => true

/-- A role is looked up in the organisation the token is going to name. -/
def Call.Named : Call → Prop
  | .login _ _ orgId (.lookupRole _ o) => orgId = some o
  | .refresh _ (.lookupRole row o _) => row.orgId = some o
  | _ => True

/-- The membership a call is about to write. -/
def Call.memberWrite : Call → Option (String × String × MemberWrite)
  | .org c => c.memberWrite
  | _ => none

/-! ## Standings under a write -/

section Writes

variable {t t' : Tables} {orgId userId : String} {role : Role}

/-- The role that is found is that of an active membership. -/
theorem activeRole_iff : activeRole t orgId userId = some role
    ↔ ∃ m ∈ t.memberships, m.isOf orgId userId = true ∧ m.status = .active ∧ m.role = role := by
  unfold activeRole
  constructor
  · intro h
    obtain ⟨m, hm, hrole⟩ := Option.map_eq_some_iff.mp h
    obtain ⟨hfind, hactive⟩ := Option.filter_eq_some_iff.mp hm
    obtain ⟨hmem, hof⟩ := Organization.findMembership_iff.mp hfind
    exact ⟨m, hmem, hof, of_decide_eq_true hactive, hrole⟩
  · rintro ⟨m, hmem, hof, hactive, hrole⟩
    have hfind := Organization.findMembership_iff.mpr ⟨hmem, hof⟩
    exact Option.map_eq_some_iff.mpr
      ⟨m, Option.filter_eq_some_iff.mpr ⟨hfind, decide_eq_true hactive⟩, hrole⟩

/-- **A write that keeps the role** leaves a standing backed. -/
theorem Standing.backed_step {x : Standing} {w : Option (String × String × MemberWrite)}
    (h : x.backed t = true) (hstep : MembersStep w t t')
    (hkeeps : ∀ y ∈ w, keepsRole t x.orgId x.userId y = true) : x.backed t' = true := by
  refine decide_eq_true ((of_decide_eq_true h).imp_right fun hrole => activeRole_iff.mpr ?_)
  obtain ⟨m, hmem, hof, hactive, hm⟩ := activeRole_iff.mp hrole
  cases hstep with
  | same _ hmembers => exact ⟨m, by rw [hmembers]; exact hmem, hof, hactive, hm⟩
  | joined _ _ _ hmembers =>
    exact ⟨m, by rw [hmembers]; exact List.mem_cons_of_mem _ hmem, hof, hactive, hm⟩
  | founded _ _ hmembers =>
    exact ⟨m, by rw [hmembers]; exact List.mem_cons_of_mem _ hmem, hof, hactive, hm⟩
  | @written orgId userId write hw horgs hmembers =>
    have hmem' : write.row orgId userId m ∈ t'.memberships := by
      rw [hmembers]
      exact List.mem_map_of_mem hmem
    refine ⟨_, hmem', ?_⟩
    cases hhit : m.isOf orgId userId with
    | false =>
      rw [write.row_of_not hhit]
      exact ⟨hof, hactive, hm⟩
    | true =>
      -- the write is on the membership of the standing, and gives it the role it has
      obtain ⟨horg, huser, hlive⟩ := Organization.isOf_iff.mp hof
      obtain ⟨horg', huser', -⟩ := Organization.isOf_iff.mp hhit
      have hsame : orgId = x.orgId ∧ userId = x.userId :=
        ⟨horg'.symm.trans horg, huser'.symm.trans huser⟩
      have hx := hkeeps _ hw
      have hgiven : ∀ role : Organization.GrantedRole,
          activeRole t x.orgId x.userId = some role.1 → role.1 = x.role := fun role hrole' =>
        Option.some.inj (hrole'.symm.trans hrole)
      cases write with
      | join role =>
        rw [MemberWrite.row, MembershipRow.rejoin, if_pos hhit]
        exact ⟨hof, rfl, hgiven role (of_decide_eq_true hx hsame)⟩
      | setRole role =>
        rw [MemberWrite.row, MembershipRow.setRole, if_pos hhit]
        exact ⟨hof, hactive, hgiven role (of_decide_eq_true hx hsame)⟩
      | remove => exact absurd hsame (of_decide_eq_true hx)

/-- The removal sets both columns, and no other write sets `deleted_at`. -/
theorem Removed.step {w : Option (String × String × MemberWrite)} (h : Removed t)
    (hstep : MembersStep w t t') : Removed t' := by
  intro m hm hdeleted
  cases hstep with
  | same _ hmembers => exact h m (by rwa [← hmembers]) hdeleted
  | joined _ _ _ hmembers =>
    rw [hmembers] at hm
    rcases List.mem_cons.mp hm with rfl | hm
    · cases hdeleted
    · exact h m hm hdeleted
  | founded _ _ hmembers =>
    rw [hmembers] at hm
    rcases List.mem_cons.mp hm with rfl | hm
    · cases hdeleted
    · exact h m hm hdeleted
  | @written orgId userId write _ _ hmembers =>
    rw [hmembers] at hm
    obtain ⟨m₀, hm₀, rfl⟩ := List.mem_map.mp hm
    cases hhit : m₀.isOf orgId userId with
    | false =>
      rw [write.row_of_not hhit] at hdeleted ⊢
      exact h m₀ hm₀ hdeleted
    | true =>
      have hlive : m₀.deleted = false := (Organization.isOf_iff.mp hhit).2.2
      cases write with
      | join role =>
        rw [MemberWrite.row, MembershipRow.rejoin, if_pos hhit] at hdeleted
        exact absurd hdeleted (ne_true_of_eq_false hlive)
      | setRole role =>
        rw [MemberWrite.row, MembershipRow.setRole, if_pos hhit] at hdeleted
        exact absurd hdeleted (ne_true_of_eq_false hlive)
      | remove =>
        rw [MemberWrite.row, MembershipRow.remove, if_pos hhit]
        exact Auth.MembershipStatus.noConfusion

/-- **The SELECT of the role**, on a replica that shows the user's memberships, finds the role on
the primary. -/
theorem findActiveRole_eq {s : Store} (hremoved : Removed s.primary)
    (hcurrent : s.current orgId userId = true) :
    s.findActiveRole userId orgId = activeRole s.primary orgId userId := by
  have hprimary : ∀ m, isFor orgId userId m = true →
      (m ∈ s.replica.memberships ↔ m ∈ s.primary.memberships) := by
    intro m hm
    have hrows := congrArg (m ∈ ·) (of_decide_eq_true hcurrent)
    simpa only [List.mem_filter, hm, and_true, eq_iff_iff] using hrows
  have hactive : ∀ role, s.findActiveRole userId orgId = some role →
      activeRole s.primary orgId userId = some role := by
    intro role h
    obtain ⟨m', hm', rfl⟩ := Option.map_eq_some_iff.mp h
    obtain ⟨m, hm, rfl⟩ := List.mem_map.mp (List.mem_of_find?_eq_some hm')
    have hrow := List.find?_some hm'
    obtain ⟨huser, horg, hstatus⟩ := of_decide_eq_true hrow
    have hmem := (hprimary m (decide_eq_true ⟨horg, huser⟩)).mp hm
    have hlive : m.deleted = false :=
      eq_false_of_ne_true fun hdeleted => hremoved m hmem hdeleted hstatus
    exact activeRole_iff.mpr ⟨m, hmem, Organization.isOf_iff.mpr ⟨horg, huser, hlive⟩, hstatus, rfl⟩
  cases hfound : s.findActiveRole userId orgId with
  | some role => exact (hactive role hfound).symm
  | none =>
    refine (Option.eq_none_iff_forall_ne_some.mpr fun role hrole => ?_).symm
    obtain ⟨m, hmem, hof, hstatus, -⟩ := activeRole_iff.mp hrole
    obtain ⟨horg, huser, -⟩ := Organization.isOf_iff.mp hof
    have hm := (hprimary m (decide_eq_true ⟨horg, huser⟩)).mpr hmem
    have hnone := Option.map_eq_none_iff.mp hfound
    refine absurd (decide_eq_true ⟨huser, horg, hstatus⟩) (List.find?_eq_none.mp hnone _ ?_)
    exact List.mem_map_of_mem hm

/-- The upsert of an acceptance brings about the standing of its invitation. -/
theorem backed_createMembership {role : Organization.GrantedRole}
    (h : t.createMembership orgId userId role = some t') :
    Standing.backed t' ⟨orgId, userId, role.1⟩ = true := by
  refine decide_eq_true (Or.inr (activeRole_iff.mpr ?_))
  obtain ⟨-, -, ⟨-, hmembers⟩ | ⟨hold, hmembers⟩⟩ := Organization.Tables.createMembership_spec h
  · rw [hmembers]
    exact ⟨_, List.mem_cons_self, by simp [MembershipRow.isOf], rfl, rfl⟩
  · rw [hmembers]
    obtain ⟨m, hm, hof⟩ := List.any_eq_true.mp hold
    refine ⟨_, List.mem_map_of_mem hm, ?_⟩
    rw [MembershipRow.rejoin, if_pos hof]
    exact ⟨hof, rfl, rfl⟩

end Writes

/-! ## One statement -/

/-- What a statement signs: nothing, or one token, whose standing is as it should be. -/
inductive Signs (issued issued' : List Issued) (P : Standing → Prop) : Prop
  | none (h : issued' = issued)
  | one (x : Issued) (h : issued' = x :: issued) (hx : P (standing x.token))

/-- The access tokens signed so far. -/
def Store.issued (s : Store) : List Issued := s.login.auth.issued

section Steps

variable {cfg : Config} {s s' : Store} {d : Draw}

theorem getD_of_truthy {o : Option String} (h : Auth.truthy o = none) : o.getD "" = "" := by
  unfold Auth.truthy at h
  split at h
  · split at h
    · rename_i t ht
      exact ht
    · cases h
  · rfl

theorem createRefreshToken_issued {a a' : Auth.Store} {r : Auth.RefreshTokenRow}
    (h : a.createRefreshToken r = some a') : a'.issued = a.issued := by
  obtain ⟨t, -, rfl⟩ := Auth.Store.createRefreshToken_eq h
  rfl

/-- `login` signs the role it has looked up, or no organisation. -/
theorem signs_login {cfg : Auth.LoginConfig} {l l' : Auth.LoginStore} {d : Auth.Draw}
    {email password : String} {orgId : Option String} {pc pc' : Auth.LoginPc}
    (h : Auth.loginNext cfg l d email password orgId pc = some (l', pc')) :
    Signs l.auth.issued l'.auth.issued fun x => x.orgId = "" ∨ ∃ user o role,
      pc = .lookupRole user o ∧ l.auth.findActiveRole user.id o = some role
        ∧ x = ⟨orgId.getD "", user.id, role⟩ := by
  cases pc with
  | verify user locked =>
    obtain ⟨rfl, -⟩ := Prod.mk.inj (Option.some.inj h)
    refine .none ?_
    unfold Auth.LoginStore.evaluate
    split <;> rfl
  | touch user =>
    rw [Auth.loginNext] at h
    split at h
    · obtain ⟨rfl, -⟩ := Prod.mk.inj (Option.some.inj h)
      exact .none rfl
    · rename_i hnone
      obtain ⟨rfl, -⟩ := Prod.mk.inj (Option.some.inj h)
      exact .one _ rfl (Or.inl (getD_of_truthy hnone))
  | lookupRole user o =>
    rw [Auth.loginNext] at h
    split at h
    · rename_i role hrole
      obtain ⟨rfl, -⟩ := Prod.mk.inj (Option.some.inj h)
      exact .one _ rfl (Or.inr ⟨user, o, role, rfl, hrole, rfl⟩)
    · obtain ⟨rfl, -⟩ := Prod.mk.inj (Option.some.inj h)
      exact .none rfl
  | insert m =>
    rw [Auth.loginNext] at h
    split at h
    · rename_i a ha
      obtain ⟨rfl, -⟩ := Prod.mk.inj (Option.some.inj h)
      exact .none (createRefreshToken_issued ha)
    · obtain ⟨rfl, -⟩ := Prod.mk.inj (Option.some.inj h)
      exact .none rfl
  | returned _ | threw _ | failed => cases h
  | _ =>
    obtain ⟨rfl, -⟩ := Prod.mk.inj (Option.some.inj h)
    exact .none rfl

/-- A refresh signs the role it has looked up. -/
theorem signs_refresh {cfg : Auth.Config} {a a' : Auth.Store} {d : Auth.Draw} {raw : String}
    {pc pc' : Auth.RefreshPc} (h : Auth.refreshNext cfg a d raw pc = some (a', pc')) :
    Signs a.issued a'.issued fun x => ∃ row isPlatformAdmin role,
      pc = .revoke row isPlatformAdmin role ∧ x = ⟨row.orgId.getD "", row.userId, role⟩ := by
  cases pc with
  | blacklist row jti =>
    rw [Auth.refreshNext] at h
    split at h
    · rename_i b hb
      obtain ⟨rfl, -⟩ := Prod.mk.inj (Option.some.inj h)
      rw [Auth.Store.blacklistToken_eq hb]
      exact .none rfl
    · obtain ⟨rfl, -⟩ := Prod.mk.inj (Option.some.inj h)
      exact .none rfl
  | revoke row isPlatformAdmin role =>
    obtain ⟨rfl, -⟩ := Prod.mk.inj (Option.some.inj h)
    exact .one _ rfl ⟨row, isPlatformAdmin, role, rfl, rfl⟩
  | insert row m =>
    rw [Auth.refreshNext] at h
    split at h
    · rename_i b hb
      obtain ⟨rfl, -⟩ := Prod.mk.inj (Option.some.inj h)
      exact .none (createRefreshToken_issued hb)
    · obtain ⟨rfl, -⟩ := Prod.mk.inj (Option.some.inj h)
      exact .none rfl
  | returned _ _ | revoked _ | threw _ | failed _ => cases h
  | _ =>
    obtain ⟨rfl, -⟩ := Prod.mk.inj (Option.some.inj h)
    exact .none rfl

/-- `verifyLink` signs what was asked for with the link. -/
theorem signs_link {cfg : Auth.Config} {a a' : Auth.Store} {d : Auth.Draw} {token : String}
    {pc pc' : Auth.LinkPc} (h : Auth.linkNext cfg a d token pc = some (a', pc')) :
    Signs a.issued a'.issued fun x => ∃ v : Auth.OneTimeValue,
      x = ⟨v.orgId.getD "", v.userId, .member⟩ ∧ ((∃ b, pc = .verify v b)
        ∨ pc = .findUser v ∧ (a.findUserById v.userId).any (·.emailVerified) = true) := by
  cases pc with
  | findUser v =>
    rw [Auth.linkNext] at h
    split at h
    · obtain ⟨rfl, -⟩ := Prod.mk.inj (Option.some.inj h)
      exact .none rfl
    · rename_i user huser
      split at h
      · rename_i hverified
        obtain ⟨rfl, -⟩ := Prod.mk.inj (Option.some.inj h)
        exact .one _ rfl ⟨v, rfl, Or.inr ⟨rfl, by rw [huser]; exact hverified⟩⟩
      · obtain ⟨rfl, -⟩ := Prod.mk.inj (Option.some.inj h)
        exact .none rfl
  | verify v isPlatformAdmin =>
    obtain ⟨rfl, -⟩ := Prod.mk.inj (Option.some.inj h)
    refine .one _ (congrArg (_ :: ·) (Auth.updateUser_issued a v.userId .verifyEmail)) ?_
    exact ⟨v, rfl, Or.inl ⟨isPlatformAdmin, rfl⟩⟩
  | insert m =>
    rw [Auth.linkNext] at h
    split at h
    · rename_i b hb
      obtain ⟨rfl, -⟩ := Prod.mk.inj (Option.some.inj h)
      exact .none (createRefreshToken_issued hb)
    · obtain ⟨rfl, -⟩ := Prod.mk.inj (Option.some.inj h)
      exact .none rfl
  | returned _ | threw _ | failed => cases h
  | _ =>
    obtain ⟨rfl, -⟩ := Prod.mk.inj (Option.some.inj h)
    exact .none rfl

theorem createUser_issued {l l' : Auth.LoginStore} {id email : String} {verified : Bool}
    (h : Organization.createUser l id email verified = some l') :
    l'.auth.issued = l.auth.issued := by
  obtain ⟨-, users, primary, -, rfl⟩ := Organization.createUser_spec h
  rfl

/-- `handleCallback` signs the role it has looked up. -/
theorem signs_saml {orgId samlResponse : String} {pc pc' : SamlPc}
    (h : samlNext cfg s d orgId samlResponse pc = some (s', pc')) :
    Signs s.issued s'.issued fun x => ∃ userId role, pc = .audit userId role
      ∧ x = ⟨orgId, userId, role⟩ := by
  cases pc with
  | insertAssertion assertionId email =>
    rw [samlNext] at h
    split at h <;> (obtain ⟨rfl, -⟩ := Prod.mk.inj (Option.some.inj h); exact .none rfl)
  | createUser email =>
    rw [samlNext] at h
    split at h
    · rename_i l hl
      obtain ⟨rfl, -⟩ := Prod.mk.inj (Option.some.inj h)
      exact .none (createUser_issued hl)
    · obtain ⟨rfl, -⟩ := Prod.mk.inj (Option.some.inj h)
      exact .none rfl
  | verifyEmail email userId =>
    obtain ⟨rfl, -⟩ := Prod.mk.inj (Option.some.inj h)
    exact .none (Auth.updateUser_issued s.login.auth userId .verifyEmail)
  | provider email userId =>
    rw [samlNext] at h
    split at h <;> (obtain ⟨rfl, -⟩ := Prod.mk.inj (Option.some.inj h); exact .none rfl)
  | audit userId role =>
    obtain ⟨rfl, -⟩ := Prod.mk.inj (Option.some.inj h)
    exact .one _ rfl ⟨userId, role, rfl, rfl⟩
  | insert m =>
    rw [samlNext] at h
    split at h
    · rename_i b hb
      obtain ⟨rfl, -⟩ := Prod.mk.inj (Option.some.inj h)
      exact .none (createRefreshToken_issued hb)
    · obtain ⟨rfl, -⟩ := Prod.mk.inj (Option.some.inj h)
      exact .none rfl
  | returned _ | threw _ | failed => cases h
  | _ =>
    obtain ⟨rfl, -⟩ := Prod.mk.inj (Option.some.inj h)
    exact .none rfl

/-- An acceptance signs what it holds. -/
theorem signs_accept {cfg : Organization.Config} {s s' : Organization.Store}
    {d : Organization.Draw} {token : String} {pc pc' : Organization.AcceptPc}
    (h : Organization.acceptNext cfg s d token pc = some (s', pc')) :
    Signs s.login.auth.issued s'.login.auth.issued fun x => x ∈ acceptHeld pc := by
  cases pc with
  | expire v | mark v userId isPlatformAdmin =>
    obtain ⟨rfl, -⟩ := Prod.mk.inj (Option.some.inj h)
    rw [Organization.setInvitation_login]
    exact .none rfl
  | createUser v =>
    rw [Organization.acceptNext] at h
    split at h
    · rename_i l hl
      obtain ⟨rfl, -⟩ := Prod.mk.inj (Option.some.inj h)
      exact .none (createUser_issued hl)
    · obtain ⟨rfl, -⟩ := Prod.mk.inj (Option.some.inj h)
      exact .none rfl
  | membership v userId isPlatformAdmin =>
    rw [Organization.acceptNext] at h
    split at h <;> (obtain ⟨rfl, -⟩ := Prod.mk.inj (Option.some.inj h); exact .none rfl)
  | outbox v userId isPlatformAdmin =>
    obtain ⟨rfl, -⟩ := Prod.mk.inj (Option.some.inj h)
    exact .one _ rfl rfl
  | insert m =>
    rw [Organization.acceptNext] at h
    split at h
    · rename_i b hb
      obtain ⟨rfl, -⟩ := Prod.mk.inj (Option.some.inj h)
      exact .none (createRefreshToken_issued hb)
    · obtain ⟨rfl, -⟩ := Prod.mk.inj (Option.some.inj h)
      exact .none rfl
  | returned _ _ | threw _ | failed => cases h
  | _ =>
    obtain ⟨rfl, -⟩ := Prod.mk.inj (Option.some.inj h)
    exact .none rfl

/-- A call to the organisations signs what it holds. -/
theorem signs_org {cfg : Organization.Config} {s s' : Organization.Store} {d : Organization.Draw}
    {c c' : Organization.Call} (h : Organization.next cfg s c d = some (s', c')) :
    Signs s.login.auth.issued s'.login.auth.issued fun x => x ∈ (Call.org c).held := by
  cases c with
  | createOrg userId slug pc =>
    obtain ⟨pc', hpc, -⟩ := pc_of_next h
    rcases Organization.create_store hpc with rfl | ⟨t, -, rfl⟩ <;> exact .none rfl
  | accept token pc =>
    obtain ⟨pc', hpc, -⟩ := pc_of_next h
    exact signs_accept hpc
  | route caller orgId action pc =>
    obtain ⟨pc', hpc, -⟩ := pc_of_next h
    rw [Organization.route_login hpc]
    exact .none rfl
  | cleanup pc =>
    obtain ⟨pc', hpc, -⟩ := pc_of_next h
    cases pc with
    | expire =>
      obtain ⟨rfl, -⟩ := Prod.mk.inj (Option.some.inj hpc)
      exact .none rfl
    | returned => cases hpc

theorem Signs.imp {issued issued' : List Issued} {P Q : Standing → Prop}
    (h : Signs issued issued' P) (hPQ : ∀ x, P x → Q x) : Signs issued issued' Q := by
  cases h with
  | none h => exact .none h
  | one x h hx => exact .one x h (hPQ _ hx)

/-- **What a statement signs** is what its call holds or resolves, or names no organisation. -/
theorem signs_next {c c' : Call} (h : next cfg s c d = some (s', c')) :
    Signs s.issued s'.issued fun x => x.orgId = "" ∨ x ∈ c.held ∨ x ∈ c.resolved s := by
  cases c with
  | login email password orgId pc =>
    obtain ⟨l, pc', hpc, rfl, -⟩ := part_of_next h
    refine (signs_login hpc).imp fun x hx => hx.imp_right fun hrole => Or.inr ?_
    obtain ⟨user, o, role, rfl, hrole, rfl⟩ := hrole
    exact Option.map_eq_some_iff.mpr ⟨role, hrole, rfl⟩
  | refresh raw pc =>
    obtain ⟨a, pc', hpc, rfl, -⟩ := part_of_next h
    refine (signs_refresh hpc).imp fun x hx => Or.inr (Or.inl ?_)
    obtain ⟨row, isPlatformAdmin, role, rfl, rfl⟩ := hx
    rfl
  | requestLink email orgId pc =>
    obtain ⟨pc', hpc, -⟩ := pc_of_next h
    cases pc with
    | returned => cases hpc
    | _ =>
      obtain ⟨rfl, -⟩ := Prod.mk.inj (Option.some.inj hpc)
      exact .none rfl
  | verifyLink token pc =>
    obtain ⟨a, pc', hpc, rfl, -⟩ := part_of_next h
    refine (signs_link hpc).imp fun x hx => Or.inr (Or.inr ?_)
    obtain ⟨v, rfl, ⟨b, rfl⟩ | ⟨rfl, hverified⟩⟩ := hx
    · rfl
    · exact if_pos hverified
  | saml orgId samlResponse pc =>
    obtain ⟨pc', hpc, -⟩ := pc_of_next h
    refine (signs_saml hpc).imp fun x hx => Or.inr (Or.inl ?_)
    obtain ⟨userId, role, rfl, rfl⟩ := hx
    rfl
  | org c =>
    obtain ⟨t, pc', hpc, rfl, -⟩ := part_of_next h
    exact (signs_org hpc).imp fun x hx => Or.inr (Or.inl hx)

/-- No other service writes a membership. -/
theorem members_next {c c' : Call} (h : next cfg s c d = some (s', c')) :
    MembersStep c.memberWrite s.primary s'.primary := by
  cases c with
  | login email password orgId pc =>
    obtain ⟨l, pc', -, rfl, -⟩ := part_of_next h
    exact .same rfl rfl
  | refresh raw pc | verifyLink token pc =>
    obtain ⟨a, pc', -, rfl, -⟩ := part_of_next h
    exact .same rfl rfl
  | requestLink email orgId pc =>
    obtain ⟨pc', hpc, -⟩ := pc_of_next h
    cases pc with
    | returned => cases hpc
    | _ =>
      obtain ⟨rfl, -⟩ := Prod.mk.inj (Option.some.inj hpc)
      exact .same rfl rfl
  | saml orgId samlResponse pc =>
    obtain ⟨pc', hpc, -⟩ := pc_of_next h
    cases pc with
    | insertAssertion _ _ | createUser _ | provider _ _ | insert _ =>
      rw [samlNext] at hpc
      split at hpc <;> (obtain ⟨rfl, -⟩ := Prod.mk.inj (Option.some.inj hpc); exact .same rfl rfl)
    | returned _ | threw _ | failed => cases hpc
    | _ =>
      obtain ⟨rfl, -⟩ := Prod.mk.inj (Option.some.inj hpc)
      exact .same rfl rfl
  | org c =>
    obtain ⟨t, pc', hpc, rfl, -⟩ := part_of_next h
    exact Organization.members_next hpc

/-- A refresh holds the standing it has resolved, or one without an organisation. -/
theorem held_refresh {cfg : Auth.Config} {a a' : Auth.Store} {d : Auth.Draw} {raw : String}
    {pc pc' : Auth.RefreshPc} (h : Auth.refreshNext cfg a d raw pc = some (a', pc')) {x : Standing}
    (hx : x ∈ (Call.refresh raw pc').held) : x.orgId = "" ∨ ∃ row o isPlatformAdmin,
      pc = .lookupRole row o isPlatformAdmin ∧ x = ⟨row.orgId.getD "", row.userId,
        (a.findActiveRole row.userId o).getD .member⟩ := by
  cases pc with
  | find =>
    obtain ⟨-, rfl⟩ := Prod.mk.inj (Option.some.inj h)
    unfold Auth.RefreshPc.found at hx
    split at hx
    · cases hx
    · split at hx
      · cases hx
      · split at hx <;> cases hx
  | revokeFamily row =>
    obtain ⟨-, rfl⟩ := Prod.mk.inj (Option.some.inj h)
    unfold Auth.RefreshPc.reused at hx
    split at hx <;> cases hx
  | blacklist row jti | insert row m =>
    rw [Auth.refreshNext] at h
    split at h <;> (obtain ⟨-, rfl⟩ := Prod.mk.inj (Option.some.inj h); cases hx)
  | lookupUser row =>
    obtain ⟨-, rfl⟩ := Prod.mk.inj (Option.some.inj h)
    unfold Auth.RefreshPc.lookedUp at hx
    split at hx
    · cases hx
    · split at hx
      · cases hx
      · rename_i hnone
        obtain rfl := Option.some.inj hx
        exact Or.inl (getD_of_truthy hnone)
  | lookupRole row o isPlatformAdmin =>
    obtain ⟨-, rfl⟩ := Prod.mk.inj (Option.some.inj h)
    obtain rfl := Option.some.inj hx
    exact Or.inr ⟨row, o, isPlatformAdmin, rfl, rfl⟩
  | revoke row isPlatformAdmin role | updateJti row m newId =>
    obtain ⟨-, rfl⟩ := Prod.mk.inj (Option.some.inj h)
    cases hx
  | returned _ _ | revoked _ | threw _ | failed _ => cases h

/-- A SAML login holds the standing it has resolved. -/
theorem held_saml {orgId samlResponse : String} {pc pc' : SamlPc}
    (h : samlNext cfg s d orgId samlResponse pc = some (s', pc')) {x : Standing}
    (hx : x ∈ (Call.saml orgId samlResponse pc').held) :
    x ∈ (Call.saml orgId samlResponse pc).resolved s := by
  cases pc with
  | flag | replay _ _ =>
    obtain ⟨-, rfl⟩ := Prod.mk.inj (Option.some.inj h)
    split at hx <;> cases hx
  | config | findProvider email =>
    obtain ⟨-, rfl⟩ := Prod.mk.inj (Option.some.inj h)
    split at hx <;> cases hx
  | validate saml =>
    obtain ⟨-, rfl⟩ := Prod.mk.inj (Option.some.inj h)
    unfold SamlPc.validated at hx
    split at hx
    · cases hx
    · split at hx <;> cases hx
  | findUser email =>
    obtain ⟨-, rfl⟩ := Prod.mk.inj (Option.some.inj h)
    split at hx
    · cases hx
    · split at hx <;> cases hx
  | insertAssertion _ _ | createUser _ | provider _ _ | insert _ =>
    rw [samlNext] at h
    split at h <;> (obtain ⟨-, rfl⟩ := Prod.mk.inj (Option.some.inj h); cases hx)
  | lookupRole userId =>
    obtain ⟨-, rfl⟩ := Prod.mk.inj (Option.some.inj h)
    exact hx
  | preferences email userId | verifyEmail email userId | audit userId role =>
    obtain ⟨-, rfl⟩ := Prod.mk.inj (Option.some.inj h)
    cases hx
  | returned _ | threw _ | failed => cases h

/-- An acceptance holds what its upsert has brought about, and keeps it. -/
theorem held_accept {cfg : Organization.Config} {s s' : Organization.Store}
    {d : Organization.Draw} {token : String} {pc pc' : Organization.AcceptPc}
    (h : Organization.acceptNext cfg s d token pc = some (s', pc')) {x : Standing}
    (hx : x ∈ acceptHeld pc') (hheld : ∀ y ∈ acceptHeld pc, y.backed s.primary = true) :
    x.backed s'.primary = true := by
  cases pc with
  | find =>
    obtain ⟨-, rfl⟩ := Prod.mk.inj (Option.some.inj h)
    unfold Organization.AcceptPc.found at hx
    split at hx
    · cases hx
    · split at hx
      · cases hx
      · split at hx <;> cases hx
  | findUser v =>
    obtain ⟨-, rfl⟩ := Prod.mk.inj (Option.some.inj h)
    split at hx <;> cases hx
  | createUser _ | insert _ =>
    rw [Organization.acceptNext] at h
    split at h <;> (obtain ⟨-, rfl⟩ := Prod.mk.inj (Option.some.inj h); cases hx)
  | membership v userId isPlatformAdmin =>
    rw [Organization.acceptNext] at h
    split at h
    · rename_i t ht
      obtain ⟨rfl, rfl⟩ := Prod.mk.inj (Option.some.inj h)
      obtain rfl := Option.some.inj hx
      exact backed_createMembership ht
    · obtain ⟨-, rfl⟩ := Prod.mk.inj (Option.some.inj h)
      cases hx
  | seed v userId isPlatformAdmin =>
    obtain ⟨rfl, rfl⟩ := Prod.mk.inj (Option.some.inj h)
    exact hheld x hx
  | mark v userId isPlatformAdmin =>
    obtain ⟨rfl, rfl⟩ := Prod.mk.inj (Option.some.inj h)
    rw [Organization.setInvitation_primary]
    exact hheld x hx
  | expire _ | preferences _ _ | provider _ _ | outbox _ _ _ =>
    obtain ⟨-, rfl⟩ := Prod.mk.inj (Option.some.inj h)
    cases hx
  | returned _ _ | threw _ | failed => cases h

/-- **What a call holds is backed**, if what it resolves is. -/
theorem held_next {c c' : Call} (h : next cfg s c d = some (s', c'))
    (hheld : ∀ x ∈ c.held, x.backed s.primary = true)
    (hresolved : ∀ x ∈ c.resolved s, x.backed s.primary = true) :
    ∀ x ∈ c'.held, x.backed s'.primary = true := by
  intro x hx
  cases c with
  | login email password orgId pc =>
    obtain ⟨l, pc', -, -, rfl⟩ := part_of_next h
    cases hx
  | requestLink email orgId pc =>
    obtain ⟨pc', -, rfl⟩ := pc_of_next h
    cases hx
  | verifyLink token pc =>
    obtain ⟨a, pc', -, -, rfl⟩ := part_of_next h
    cases hx
  | refresh raw pc =>
    obtain ⟨a, pc', hpc, rfl, rfl⟩ := part_of_next h
    rcases held_refresh hpc hx with hnone | ⟨row, o, isPlatformAdmin, rfl, rfl⟩
    · exact decide_eq_true (Or.inl hnone)
    · exact hresolved _ rfl
  | saml orgId samlResponse pc =>
    obtain ⟨pc', hpc, rfl⟩ := pc_of_next h
    have hmembers := members_next h
    have hx' := hresolved x (held_saml hpc hx)
    exact Standing.backed_step hx' hmembers nofun
  | org c =>
    obtain ⟨t, c', hc, rfl, rfl⟩ := part_of_next h
    cases c with
    | accept token pc =>
      obtain ⟨pc', hpc, rfl⟩ := pc_of_next hc
      exact held_accept hpc hx hheld
    | createOrg _ _ _ | route _ _ _ _ | cleanup _ =>
      obtain ⟨pc', -, rfl⟩ := pc_of_next hc
      cases hx

theorem eq_some_of_truthy {o : Option String} {t : String} (h : Auth.truthy o = some t) :
    o = some t := by
  unfold Auth.truthy at h
  split at h
  · split at h
    · cases h
    · exact h
  · cases h

/-- `login` goes on for who it has found. -/
theorem named_login {cfg : Auth.LoginConfig} {l l' : Auth.LoginStore} {d : Auth.Draw}
    {email password : String} {orgId : Option String} {pc pc' : Auth.LoginPc}
    (h : Auth.loginNext cfg l d email password orgId pc = some (l', pc')) :
    (Call.login email password orgId pc').Named := by
  cases pc with
  | find =>
    obtain ⟨-, rfl⟩ := Prod.mk.inj (Option.some.inj h)
    unfold Auth.LoginPc.found
    split
    · trivial
    · split
      · trivial
      · split <;> trivial
  | verify user locked =>
    obtain ⟨-, rfl⟩ := Prod.mk.inj (Option.some.inj h)
    unfold Auth.LoginPc.verified
    split
    · trivial
    · split <;> trivial
  | increment user lockoutAttempts =>
    obtain ⟨-, rfl⟩ := Prod.mk.inj (Option.some.inj h)
    unfold Auth.LoginPc.counted
    split <;> trivial
  | touch user =>
    rw [Auth.loginNext] at h
    split at h
    · rename_i o ho
      obtain ⟨-, rfl⟩ := Prod.mk.inj (Option.some.inj h)
      exact eq_some_of_truthy ho
    · obtain ⟨-, rfl⟩ := Prod.mk.inj (Option.some.inj h)
      trivial
  | lookupRole _ _ | insert _ =>
    rw [Auth.loginNext] at h
    split at h <;> (obtain ⟨-, rfl⟩ := Prod.mk.inj (Option.some.inj h); trivial)
  | threshold _ _ | lock _ _ | reset _ | audit _ =>
    obtain ⟨-, rfl⟩ := Prod.mk.inj (Option.some.inj h)
    trivial
  | returned _ | threw _ | failed => cases h

/-- A refresh goes on for whose row it has found. -/
theorem named_refresh {cfg : Auth.Config} {a a' : Auth.Store} {d : Auth.Draw} {raw : String}
    {pc pc' : Auth.RefreshPc} (h : Auth.refreshNext cfg a d raw pc = some (a', pc')) :
    (Call.refresh raw pc').Named := by
  cases pc with
  | find =>
    obtain ⟨-, rfl⟩ := Prod.mk.inj (Option.some.inj h)
    unfold Auth.RefreshPc.found
    split
    · trivial
    · split
      · trivial
      · split <;> trivial
  | revokeFamily row =>
    obtain ⟨-, rfl⟩ := Prod.mk.inj (Option.some.inj h)
    unfold Auth.RefreshPc.reused
    split <;> trivial
  | lookupUser row =>
    obtain ⟨-, rfl⟩ := Prod.mk.inj (Option.some.inj h)
    unfold Auth.RefreshPc.lookedUp
    split
    · trivial
    · split
      · rename_i o ho
        exact eq_some_of_truthy ho
      · trivial
  | blacklist _ _ | insert _ _ =>
    rw [Auth.refreshNext] at h
    split at h <;> (obtain ⟨-, rfl⟩ := Prod.mk.inj (Option.some.inj h); trivial)
  | lookupRole _ _ _ | revoke _ _ _ | updateJti _ _ _ =>
    obtain ⟨-, rfl⟩ := Prod.mk.inj (Option.some.inj h)
    trivial
  | returned _ _ | revoked _ | threw _ | failed _ => cases h

/-- Every call does so. -/
theorem named_next {c c' : Call} (h : next cfg s c d = some (s', c')) : c'.Named := by
  cases c with
  | login email password orgId pc =>
    obtain ⟨l, pc', hpc, -, rfl⟩ := part_of_next h
    exact named_login hpc
  | refresh raw pc =>
    obtain ⟨a, pc', hpc, -, rfl⟩ := part_of_next h
    exact named_refresh hpc
  | verifyLink token pc =>
    obtain ⟨_, _, -, -, rfl⟩ := part_of_next h
    trivial
  | requestLink email orgId pc =>
    obtain ⟨_, -, rfl⟩ := pc_of_next h
    trivial
  | saml orgId samlResponse pc =>
    obtain ⟨_, -, rfl⟩ := pc_of_next h
    trivial
  | org c =>
    obtain ⟨_, _, -, -, rfl⟩ := part_of_next h
    trivial

/-- **What a statement resolves is backed**, where what the code takes for granted holds. -/
theorem backed_resolved {c : Call} (hremoved : Removed s.primary) (hnamed : c.Named)
    (hfair : c.fair s = true) : ∀ x ∈ c.resolved s, x.backed s.primary = true := by
  intro x hx
  unfold Call.resolved at hx
  split at hx
  case h_1 orgId user o =>
    obtain ⟨role, hrole, rfl⟩ := Option.map_eq_some_iff.mp hx
    obtain rfl : orgId = some o := hnamed
    rw [findActiveRole_eq hremoved hfair] at hrole
    exact decide_eq_true (Or.inr hrole)
  case h_2 row o isPlatformAdmin =>
    obtain ⟨hcurrent, hmember⟩ := of_decide_eq_true hfair
    have hrow : row.orgId = some o := hnamed
    obtain ⟨role, hrole⟩ := Option.isSome_iff_exists.mp hmember
    obtain rfl := Option.some.inj hx
    rw [findActiveRole_eq hremoved hcurrent, hrole, hrow]
    exact decide_eq_true (Or.inr hrole)
  case h_3 orgId _ userId =>
    obtain ⟨hcurrent, hmember⟩ := of_decide_eq_true hfair
    obtain ⟨role, hrole⟩ := Option.isSome_iff_exists.mp hmember
    obtain rfl := Option.some.inj hx
    rw [findActiveRole_eq hremoved hcurrent, hrole]
    exact decide_eq_true (Or.inr hrole)
  case h_4 v =>
    split at hx
    · rename_i hverified
      obtain rfl := Option.some.inj hx
      exact of_decide_eq_true hfair hverified
    · cases hx
  case h_5 v _ =>
    obtain rfl := Option.some.inj hx
    exact hfair
  case h_6 => cases hx

/-- A call that signs writes no membership. -/
theorem memberWrite_of_signs {c : Call} {x : Standing} (h : x ∈ c.held ∨ x ∈ c.resolved s) :
    c.memberWrite = none := by
  cases c with
  | org c =>
    rcases h with h | h
    · cases c with
      | accept token pc =>
        cases pc with
        | membership v userId isPlatformAdmin => cases h
        | _ => rfl
      | createOrg _ _ _ | route _ _ _ _ | cleanup _ => cases h
    · cases h
  | _ => rfl

theorem named_of_fresh {c : Call} (h : c.fresh = true) : c.Named := by
  unfold Call.fresh at h
  split at h
  all_goals trivial

theorem held_of_fresh {c : Call} (h : c.fresh = true) : c.held = none := by
  unfold Call.fresh at h
  split at h
  case h_6 c =>
    unfold Organization.Call.fresh at h
    split at h <;> first | rfl | cases h
  all_goals first | rfl | cases h

end Steps

/-! ## Runs -/

section Runs

variable {ι : Type*} {cfg : Config}

/-- What a running call holds. -/
def heldOf : Proc Call → Option Standing
  | .up c => c.held
  | .down _ => none

/-- The organisation and the user a running call is about to sign for. -/
def signingOf (c : Proc Call) : Option (String × String) :=
  (heldOf c).map fun x => (x.orgId, x.userId)

/-- **Standings are steady**: where a role is resolved, what the code takes for granted holds, and
no write changes the role of a user another call is about to sign for. -/
def Steady (p : Calls ι) : Move ι Draw Organization.Env → Prop
  | .run i _ => (p.calls i).Keeps fun c => c.fair p.store = true
      ∧ ∀ w ∈ c.memberWrite, ∀ j, j ≠ i → ∀ x ∈ signingOf (p.calls j),
        keepsRole p.store.primary x.1 x.2 w = true
  | _ => True

/-- What the states of such a run keep: what the calls hold is backed. -/
structure Standings (p : Calls ι) : Prop where
  removed : Removed p.store.primary
  named : ∀ i, (p.calls i).Keeps Call.Named
  held : ∀ i, ∀ x ∈ heldOf (p.calls i), x.backed p.store.primary = true

theorem env_primary (s : Store) (e : Organization.Env) : (env s e).primary = s.primary := by
  cases e <;> rfl

theorem env_issued (s : Store) (e : Organization.Env) : (env s e).issued = s.issued := by
  cases e <;> rfl

variable [DecidableEq ι]

/-- A steady statement keeps what the calls hold backed. -/
theorem Standings.run {p : Calls ι} {i : ι} {d : Draw} {c c' : Call} {s' : Store}
    (h : Standings p) (hG : Steady p (.run i d)) (hi : p.calls i = .up c)
    (hn : next cfg p.store c d = some (s', c')) :
    Standings ⟨s', Function.update p.calls i (.up c')⟩ := by
  obtain ⟨hfair, hkeeps⟩ := Proc.Keeps.of_up hG hi
  have hresolved := backed_resolved h.removed ((h.named i).of_up hi) hfair
  have hheld := h.held i
  rw [hi] at hheld
  refine ⟨h.removed.step (members_next hn),
    keeps_update_up (named_next hn) fun j _ => h.named j,
    (Function.forall_update_iff p.calls fun _ y =>
      ∀ x ∈ heldOf y, x.backed s'.primary = true).mpr ⟨held_next hn hheld hresolved, ?_⟩⟩
  intro j hj x hx
  refine Standing.backed_step (h.held j x hx) (members_next hn) fun w hw => ?_
  exact hkeeps w hw j hj (x.orgId, x.userId) (Option.mem_map_of_mem _ hx)

omit [DecidableEq ι] in
/-- Before the first statement the calls hold nothing. -/
theorem standings_of_fresh {p : Calls ι} (hremoved : Removed p.store.primary)
    (hstart : ∀ i, (p.calls i).Live fun c => c.fresh) : Standings p := by
  refine ⟨hremoved, fun i => ?_, fun i x hx => ?_⟩
  · obtain ⟨c, hc, hfresh⟩ := (hstart i).exists
    rw [hc]
    exact named_of_fresh hfresh
  · obtain ⟨c, hc, hfresh⟩ := (hstart i).exists
    rw [hc, heldOf, held_of_fresh hfresh] at hx
    cases hx

/-- So does a whole run. -/
theorem standings_run {p q : Calls ι} (h : Standings p)
    (hrun : Run (Pool.step (sessionMachine cfg)) Steady p q) : Standings q := by
  refine Pool.invariant (I := Standings) h (fun p i d c s' c' h hG hi hn => h.run hG hi hn)
    (fun p i c h _ hi => ?_) (fun p e h _ => ?_) hrun
  · refine ⟨h.removed, keeps_update_down h.named, ?_⟩
    exact (Function.forall_update_iff p.calls fun _ y =>
      ∀ x ∈ heldOf y, x.backed p.store.primary = true).mpr ⟨nofun, fun j _ => h.held j⟩
  · have hprimary := env_primary p.store e
    refine ⟨?_, h.named, fun i x hx => ?_⟩
    · dsimp only [sessionMachine]
      rw [hprimary]
      exact h.removed
    · dsimp only [sessionMachine]
      rw [hprimary]
      exact h.held i x hx

/-- **Every token is signed by standing**: in every run in which standings are steady, from tables
in which no deleted membership is active, a token that is signed names no organisation, or one in
which its user has an active membership at that moment, with that role. -/
theorem signed_by_standing {p q r : Calls ι} {m : Move ι Draw Organization.Env}
    (hremoved : Removed p.store.primary) (hstart : ∀ i, (p.calls i).Live fun c => c.fresh)
    (hrun : Run (Pool.step (sessionMachine cfg)) Steady p q) (hm : Steady q m)
    (hstep : q.step (sessionMachine cfg) m = some r) :
    Signs q.store.issued r.store.issued fun x => x.backed r.store.primary = true := by
  cases m with
  | run i d =>
    obtain ⟨c, s', c', hi, hn, rfl⟩ := Pool.step_run hstep
    have hstandings := standings_run (standings_of_fresh hremoved hstart) hrun
    obtain ⟨hfair, -⟩ := Proc.Keeps.of_up hm hi
    have hheld := hstandings.held i
    rw [hi] at hheld
    refine (signs_next hn).imp fun x hx => ?_
    rcases hx with hnone | hx
    · exact decide_eq_true (Or.inl hnone)
    · have hbefore : x.backed q.store.primary = true := by
        rcases hx with hx | hx
        · exact hheld x hx
        · exact backed_resolved hstandings.removed ((hstandings.named i).of_up hi) hfair x hx
      refine Standing.backed_step hbefore (members_next hn) fun w hw => ?_
      rw [memberWrite_of_signs hx] at hw
      cases hw
  | crash i =>
    obtain ⟨c, -, rfl⟩ := Pool.step_crash hstep
    exact .none rfl
  | env e =>
    obtain rfl := Option.some.inj hstep
    exact .none (env_issued q.store e)

end Runs

instance {ι : Type*} [Fintype ι] [DecidableEq ι] (p : Calls ι) :
    ∀ m : Move ι Draw Organization.Env, Decidable (Steady p m)
  | .run i _ => inferInstanceAs (Decidable ((p.calls i).Keeps fun c => c.fair p.store = true
      ∧ ∀ w ∈ c.memberWrite, ∀ j, j ≠ i → ∀ x ∈ signingOf (p.calls j),
        keepsRole p.store.primary x.1 x.2 w = true))
  | .crash _ => inferInstanceAs (Decidable True)
  | .env _ => inferInstanceAs (Decidable True)

/-! ## A link and an invitation -/

/-- No SAML response is valid. -/
def demoConfig : Config := ⟨Organization.demoConfig, fun _ _ _ => none⟩

/-- `u` has been invited to `o`, and is not a member. -/
def demoStore : Store :=
  ⟨Organization.demoStore Organization.oneInvitation, fun _ => none, fun _ => none, []⟩

/-- A move that draws `token` for a magic link. -/
def drawn (token : String) : Draw := ⟨Organization.drawn "", token, false, none⟩

/-- `u` asks for a link to `o`, follows it, and accepts the invitation. -/
def linkAndInvitation : Calls (Fin 3) :=
  ⟨demoStore, ![.up (.requestLink "u@x" (some "o") .find), .up (.verifyLink "l" .get),
    .up (.org (.accept "u@x" .find))]⟩

theorem linkAndInvitation_fresh (i : Fin 3) :
    (linkAndInvitation.calls i).Live fun c => c.fresh := by
  revert i
  decide

/-- One more token has been signed, with the standing. -/
def signed (x : Standing) (q r : Calls (Fin 3)) : Bool :=
  r.store.issued.length = q.store.issued.length + 1
    ∧ r.store.issued.head?.map (fun y => standing y.token) = some x

/-- What was signed is not as it should be, where its standing is not. -/
theorem not_signs_of_signed {x : Standing} {q r : Calls (Fin 3)} {P : Standing → Prop}
    (h : signed x q r = true) (hP : ¬ P x) : ¬ Signs q.store.issued r.store.issued P := by
  obtain ⟨hlength, hhead⟩ := of_decide_eq_true h
  intro hsigns
  cases hsigns with
  | none h =>
    rw [h] at hlength
    exact Nat.succ_ne_self _ hlength.symm
  | one y h hy =>
    rw [h] at hhead
    obtain rfl : standing y.token = x := Option.some.inj hhead
    exact hP hy

/-- **A magic link for an organisation its user is not in**: nobody looks, and the token is
signed. -/
theorem link_signs_foreign_org :
    Removed linkAndInvitation.store.primary
      ∧ (∀ i, (linkAndInvitation.calls i).Live fun c => c.fresh)
      ∧ ∃ q r, Run (Pool.step (sessionMachine demoConfig)) anyStep linkAndInvitation q
        ∧ q.step (sessionMachine demoConfig) (.run 1 (drawn "")) = some r
        ∧ signed ⟨"o", "u", .member⟩ q r = true ∧ activeRole r.store.primary "o" "u" = none
        ∧ ¬ Signs q.store.issued r.store.issued fun x => x.backed r.store.primary = true := by
  refine ⟨by decide, linkAndInvitation_fresh, ?_⟩
  obtain ⟨q, r, hq, -, hr, h⟩ := exists_step_of_exec (Pool.step (sessionMachine demoConfig)) anyStep
    linkAndInvitation [.run 0 (drawn ""), .run 0 (drawn "l"), .run 1 (drawn ""), .run 1 (drawn "")]
    (.run 1 (drawn ""))
    (fun q r => signed ⟨"o", "u", .member⟩ q r ∧ activeRole r.store.primary "o" "u" = none)
    (by decide)
  obtain ⟨hsigned, hrole⟩ := of_decide_eq_true h
  refine ⟨q, r, hq, hr, hsigned, hrole, not_signs_of_signed hsigned fun hbacked => ?_⟩
  rcases of_decide_eq_true hbacked with hnone | hsome
  · exact absurd hnone (by decide)
  · rw [hrole] at hsome
    cases hsome

/-- The invitation is accepted, and makes the member it signs for. -/
theorem signed_by_standing_of_invitation :
    ∃ q r, Run (Pool.step (sessionMachine demoConfig)) Steady linkAndInvitation q
      ∧ q.step (sessionMachine demoConfig) (.run 2 (drawn "")) = some r
      ∧ signed ⟨"o", "u", .member⟩ q r = true
      ∧ Signs q.store.issued r.store.issued fun x => x.backed r.store.primary = true := by
  obtain ⟨q, r, hq, hm, hr, h⟩ := exists_step_of_exec (Pool.step (sessionMachine demoConfig)) Steady
    linkAndInvitation (List.replicate 5 (.run 2 (drawn ""))) (.run 2 (drawn ""))
    (fun q r => signed ⟨"o", "u", .member⟩ q r) (by decide)
  exact ⟨q, r, hq, hr, h, signed_by_standing (by decide) linkAndInvitation_fresh hq hm hr⟩

end WorkPlatform.Session

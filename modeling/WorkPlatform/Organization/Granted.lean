import WorkPlatform.Machinery.Provenance
import WorkPlatform.Organization.Owner

/-!
# Organization/Granted — where a role comes from

    the beginning ─┐
    createOrg ─────┴─▸ owner or admin ──role change──▸ member, admin, …
                                      ──invite ▸ accept──▸ member, admin, …

A route asks for the role of its caller and not for where it comes from, and it may get it from a
session of up to 30 s or from a replica.  Still nobody has a role that was not given: from the
founder of an organisation, or from who was there at the beginning, a chain leads to every member in
which each was appointed by who had been made an owner or admin before, through a role change that
named the member or through an invitation whose token the member presented and whose email the
member has (`role_was_granted`).
-/

namespace WorkPlatform.Organization

open Machinery
open Auth (Role)

/-! ## Appointments -/

/-- A user in a role. -/
structure Post where
  userId : String
  role : Role

/-- The roles that the routes of an organisation ask for. -/
def Manages (role : Role) : Prop := role = .orgOwner ∨ role = .orgAdmin

/-- The email is the user's, who is not deleted. -/
def HasEmail (l : Auth.LoginStore) (email userId : String) : Prop :=
  l.primary.emails email = some userId
    ∧ ((l.auth.primary.users userId).any fun u => ! u.deleted) = true

section Evidence

variable {ι : Type*} [DecidableEq ι] (cfg : Config) (p q : Calls ι)

/-- The user presented the token of the invitation, has its email, and was made a member. -/
def Accepted (v : InvitationRow) (userId : String) : Prop :=
  ∃ token isPlatformAdmin s s', v.tokenHash = cfg.hashToken token
    ∧ HasEmail s.login (cfg.normalizeEmail v.email) userId
    ∧ Made (orgMachine cfg) p q s (.accept token (.membership v userId isPlatformAdmin)) s'
        (.accept token (.seed v userId isPlatformAdmin))

/-- The user sent the invitation. -/
def Invited (userId : String) (v : InvitationRow) : Prop :=
  ∃ caller action expiresAt s s', caller.userId = userId
    ∧ v.tokenHash = cfg.hashToken (cfg.inviteToken v.orgId v.email v.role userId expiresAt)
    ∧ Made (orgMachine cfg) p q s
        (.route caller v.orgId action (.insertInvitation v.email v.role expiresAt)) s'
        (.route caller v.orgId action .outbox)

/-- The user changed the role of the other. -/
def Changed (orgId userId : String) (y : Post) : Prop :=
  ∃ caller action role s s', caller.userId = userId ∧ role.1 = y.role
    ∧ Made (orgMachine cfg) p q s (.route caller orgId action (.updateRole y.userId role)) s'
        (.route caller orgId action .returned)

/-- The user created the organisation. -/
def Founded (orgId userId : String) : Prop :=
  ∃ slug s s', orgId ∉ s.primary.orgs.map (·.id) ∧ orgId ∈ s'.primary.orgs.map (·.id)
    ∧ Made (orgMachine cfg) p q s (.createOrg userId slug .transaction) s'
        (.createOrg userId slug .outbox)

/-- A post of the beginning, or of an invitation from then, or of the founder. -/
inductive Origin (orgId : String) (x : Post) : Prop
  | member {m : MembershipRow}
      (hm : m ∈ p.store.primary.memberships ∨ m ∈ p.store.replica.memberships)
      (horg : m.orgId = orgId) (hx : x = ⟨m.userId, m.role⟩)
  | session {ctx : Auth.Expiring OrgContext} (hctx : p.store.sessions x.userId orgId = some ctx)
      (hrole : x.role = ctx.value.memberRole)
  | invitation {v : InvitationRow} (hv : v ∈ p.store.primary.invitations) (horg : v.orgId = orgId)
      (hrole : x.role = v.role.1) (haccepted : Accepted cfg p q v x.userId)
  | founder (hrole : x.role = .orgOwner) (hfounded : Founded cfg p q orgId x.userId)

/-- **An owner or admin appoints somebody.** -/
inductive Appoints (orgId : String) (x y : Post) : Prop
  | changed (hmanages : Manages x.role) (hchanged : Changed cfg p q orgId x.userId y)
  | invited {v : InvitationRow} (hmanages : Manages x.role) (horg : v.orgId = orgId)
      (hrole : y.role = v.role.1) (hinvited : Invited cfg p q x.userId v)
      (haccepted : Accepted cfg p q v y.userId)

/-- **The post was given** by the state `q`, by a chain of appointments; each is made after the one
it rests on. -/
def Entitled (orgId : String) : Post → Prop :=
  Derived (fun u x => Run (Pool.step (orgMachine cfg)) anyStep p u ∧ Origin cfg p u orgId x)
    (fun u v x y => Appoints cfg u v orgId x y) q

/-- An invitation of the beginning, or one that was sent by who was an owner or admin. -/
def Sourced (v : InvitationRow) : Prop :=
  v ∈ p.store.primary.invitations
    ∨ ∃ u x, Manages x.role ∧ Entitled cfg p u v.orgId x ∧ Invited cfg u q x.userId v

/-- An owner or admin of the organisation is at the route. -/
def Admitted (orgId userId : String) : Prop :=
  ∃ role, Manages role ∧ Entitled cfg p q orgId ⟨userId, role⟩

/-- The invitation that a call is about to grant, and to whom. -/
def AcceptPc.granting : AcceptPc → Option (InvitationRow × Option String)
  | .findUser v | .createUser v => some (v, none)
  | .preferences v userId | .provider v userId | .membership v userId _ => some (v, some userId)
  | _ => none

/-- The route has asked for the role of its caller. -/
def RoutePc.admitted : RoutePc → Bool
  | .context _ | .threw _ | .failed => false
  | _ => true

/-- What a call relies on was given. -/
def Backed (l : Auth.LoginStore) : Call → Prop
  | .accept token pc => ∀ v user, pc.granting = some (v, user) →
      v.tokenHash = cfg.hashToken token ∧ Sourced cfg p q v
        ∧ ∀ userId ∈ user, HasEmail l (cfg.normalizeEmail v.email) userId
  | .route caller orgId _ (.context (.setex ctx)) =>
    Entitled cfg p q orgId ⟨caller.userId, ctx.memberRole⟩
  | .route caller orgId _ pc => pc.admitted = true → Admitted cfg p q orgId caller.userId
  | _ => True

end Evidence

section Steps

variable {ι : Type*} [DecidableEq ι] {cfg : Config} {p q q' u : Calls ι} {s s' : Store} {d : Draw}
  {c c' : Call} {f : ι → Proc Call} {i : ι} {orgId userId : String} {v : InvitationRow} {x : Post}

/-! ## What was given stays given -/

theorem Invited.run (h : Invited cfg p q userId v) : Run (Pool.step (orgMachine cfg)) anyStep p q := by
  obtain ⟨_, _, _, _, _, _, _, hmade⟩ := h
  exact hmade.run

theorem Accepted.earlier (h : Accepted cfg u q v userId)
    (hu : Run (Pool.step (orgMachine cfg)) anyStep p u) : Accepted cfg p q v userId := by
  obtain ⟨token, isPlatformAdmin, s, s', htoken, hemail, hmade⟩ := h
  exact ⟨token, isPlatformAdmin, s, s', htoken, hemail, hmade.earlier hu⟩

section Later

variable (hrun : Run (Pool.step (orgMachine cfg)) anyStep q q')
include hrun

theorem Accepted.later (h : Accepted cfg p q v userId) : Accepted cfg p q' v userId := by
  obtain ⟨token, isPlatformAdmin, s, s', htoken, hemail, hmade⟩ := h
  exact ⟨token, isPlatformAdmin, s, s', htoken, hemail, hmade.later hrun⟩

theorem Invited.later (h : Invited cfg p q userId v) : Invited cfg p q' userId v := by
  obtain ⟨caller, action, expiresAt, s, s', hcaller, htoken, hmade⟩ := h
  exact ⟨caller, action, expiresAt, s, s', hcaller, htoken, hmade.later hrun⟩

theorem Changed.later (h : Changed cfg p q orgId userId x) : Changed cfg p q' orgId userId x := by
  obtain ⟨caller, action, role, s, s', hcaller, hrole, hmade⟩ := h
  exact ⟨caller, action, role, s, s', hcaller, hrole, hmade.later hrun⟩

theorem Founded.later (h : Founded cfg p q orgId userId) : Founded cfg p q' orgId userId := by
  obtain ⟨slug, s, s', hbefore, hafter, hmade⟩ := h
  exact ⟨slug, s, s', hbefore, hafter, hmade.later hrun⟩

/-- Who is entitled is so later too. -/
theorem Entitled.later (h : Entitled cfg p q orgId x) : Entitled cfg p q' orgId x := by
  refine Derived.later (fun y ⟨hq, hy⟩ => ⟨hq.trans hrun, ?_⟩) (fun t y z hyz => ?_) h
  · cases hy with
    | member hm horg hx => exact .member hm horg hx
    | session hctx hrole => exact .session hctx hrole
    | invitation hv horg hrole haccepted => exact .invitation hv horg hrole (haccepted.later hrun)
    | founder hrole hfounded => exact .founder hrole (hfounded.later hrun)
  · cases hyz with
    | changed hmanages hchanged => exact .changed hmanages (hchanged.later hrun)
    | invited hmanages horg hrole hinvited haccepted =>
      exact .invited hmanages horg hrole (hinvited.later hrun) (haccepted.later hrun)

theorem Sourced.later (h : Sourced cfg p q v) : Sourced cfg p q' v :=
  h.imp_right fun ⟨u, x, hmanages, hentitled, hinvited⟩ =>
    ⟨u, x, hmanages, hentitled, hinvited.later hrun⟩

theorem Admitted.later (h : Admitted cfg p q orgId userId) : Admitted cfg p q' orgId userId :=
  h.imp fun _ hrole => ⟨hrole.1, Entitled.later hrun hrole.2⟩

/-- A call stays backed as the run goes on. -/
theorem Backed.later {l l' : Auth.LoginStore}
    (hl : ∀ email userId, HasEmail l email userId → HasEmail l' email userId)
    (h : Backed cfg p q l c) : Backed cfg p q' l' c := by
  cases c with
  | accept token pc =>
    intro v user hpc
    obtain ⟨htoken, hsourced, hemail⟩ := h v user hpc
    exact ⟨htoken, hsourced.later hrun, fun userId huser => hl _ _ (hemail userId huser)⟩
  | route caller orgId action pc =>
    cases pc with
    | context pc =>
      cases pc with
      | setex ctx => exact Entitled.later hrun h
      | _ => exact nofun
    | _ => exact fun hadmitted => Admitted.later hrun (h hadmitted)
  | createOrg | cleanup => trivial

end Later

/-! ## Users -/

/-- What the replica says of an email is so on the primary. -/
def Mirrored (l : Auth.LoginStore) : Prop :=
  ∀ email user, l.findUserByEmail email = some user → HasEmail l email user.id

/-- No user loses the email, and the replica is as it was. -/
structure Users (l l' : Auth.LoginStore) : Prop where
  emails : ∀ email userId, HasEmail l email userId → HasEmail l' email userId
  found : ∀ email, l'.findUserByEmail email = l.findUserByEmail email

theorem Users.refl (l : Auth.LoginStore) : Users l l := ⟨fun _ _ h => h, fun _ => rfl⟩

theorem Users.mirrored {l l' : Auth.LoginStore} (h : Users l l') (hl : Mirrored l) : Mirrored l' :=
  fun email user hfound => h.emails _ _ (hl email user ((h.found email).symm.trans hfound))

/-- The replica stays a mirror as long as emails and users are the same on both. -/
theorem mirrored_of_same {l : Auth.LoginStore} (hemails : l.replica.emails = l.primary.emails)
    (husers : l.auth.replica.users = l.auth.primary.users) : Mirrored l := by
  intro email user huser
  obtain ⟨id, hid, hrest⟩ := Option.bind_eq_some_iff.mp huser
  obtain ⟨row, hrow, heq⟩ := Option.bind_eq_some_iff.mp hrest
  obtain rfl := Option.some.inj heq
  obtain ⟨hfind, hlive⟩ := Option.filter_eq_some_iff.mp hrow
  rw [hemails] at hid
  rw [husers] at hfind
  refine ⟨hid, ?_⟩
  rw [hfind]
  simpa using hlive

/-- A new user takes neither an id nor an email. -/
theorem users_createUser {l l' : Auth.LoginStore} {id email : String} {emailVerified : Bool}
    (h : createUser l id email emailVerified = some l') :
    Users l l' ∧ HasEmail l' email id := by
  unfold createUser at h
  split at h
  · cases h
  rename_i hnew
  obtain rfl := Option.some.inj h
  refine ⟨⟨fun email' userId ⟨hid, hlive⟩ => ⟨?_, ?_⟩, fun _ => rfl⟩, ?_, ?_⟩
  · have hne : email' ≠ email := by
      rintro rfl
      refine hnew (Or.inr ?_)
      rw [emailTaken, hid]
      simpa using hlive
    exact (Function.update_of_ne hne _ _).trans hid
  · have hne : userId ≠ id := by
      rintro rfl
      refine hnew (Or.inl ?_)
      cases hrow : l.auth.primary.users userId with
      | none => rw [hrow] at hlive; cases hlive
      | some _ => rfl
    dsimp only
    rw [Function.update_of_ne hne]
    exact hlive
  · exact Function.update_self _ _ _
  · dsimp only
    rw [Function.update_self]
    rfl

/-! ## One statement -/

/-- Nobody gets a role, an invitation or a session. -/
structure Kept (s s' : Store) : Prop where
  users : Users s.login s'.login
  replica : s'.replica = s.replica
  sessions : s'.sessions = s.sessions
  invitations : ∀ v ∈ s'.primary.invitations, v.status = .pending → v ∈ s.primary.invitations
  members : ∀ m ∈ s'.primary.memberships, ∃ m₀ ∈ s.primary.memberships,
    m₀.orgId = m.orgId ∧ m₀.userId = m.userId ∧ m₀.role = m.role

theorem Kept.refl (s : Store) : Kept s s :=
  ⟨.refl _, rfl, rfl, fun _ hv _ => hv, fun m hm => ⟨m, hm, rfl, rfl, rfl⟩⟩

/-- What changes the rows of `users` that nobody reads for their email. -/
theorem Kept.of_login {l : Auth.LoginStore} (h : Users s.login l) : Kept s { s with login := l } :=
  ⟨h, rfl, rfl, fun _ hv _ => hv, fun m hm => ⟨m, hm, rfl, rfl, rfl⟩⟩

theorem Kept.record {s s' : Store} (h : Kept s s') (id : String) (deed : Deed) :
    Kept s (s'.record id deed) :=
  ⟨h.users, h.replica, h.sessions, h.invitations, h.members⟩

/-- An invitation that has become something else is not pending. -/
theorem pending_of_set {t : Tables} {p : InvitationRow → Bool} {status : InvitationStatus}
    (hstatus : status ≠ .pending) (hv : v ∈ (t.setInvitationStatus p status).invitations)
    (hpending : v.status = .pending) : v ∈ t.invitations := by
  obtain ⟨v₀, hv₀, rfl⟩ := List.mem_map.mp hv
  split at hpending
  · exact absurd hpending hstatus
  · rename_i hnot
    rw [if_neg hnot]
    exact hv₀

/-- A change of an invitation's status gives nobody anything. -/
theorem kept_setInvitation {id : String} {p : InvitationRow → Bool} {status : InvitationStatus}
    (hstatus : status ≠ .pending) : Kept s (s.setInvitation id p status) := by
  have hkept : Kept s { s with
      primary := s.primary.setInvitationStatus (fun v => v.id = id ∧ p v) status } :=
    ⟨.refl _, rfl, rfl, fun _ => pending_of_set hstatus, fun m hm => ⟨m, hm, rfl, rfl, rfl⟩⟩
  unfold Store.setInvitation
  split
  · split
    · exact hkept.record _ _
    · exact hkept
  · exact hkept

/-- **What a statement gives**: nothing, or one role, one invitation or one session. -/
inductive Gives (cfg : Config) (s : Store) (d : Draw) (c : Call) (s' : Store) (c' : Call) : Prop
  | nothing (h : Kept s s')
  | membership {token userId : String} {v : InvitationRow} {isPlatformAdmin : Bool} {t : Tables}
      (hc : c = .accept token (.membership v userId isPlatformAdmin))
      (hc' : c' = .accept token (.seed v userId isPlatformAdmin))
      (ht : s.primary.createMembership v.orgId userId v.role = some t)
      (hs' : s' = ({ s with primary := t } : Store).record v.id .granted)
  | organisation {userId slug : String} {t : Tables} (hc : c = .createOrg userId slug .transaction)
      (hc' : c' = .createOrg userId slug .outbox)
      (ht : s.primary.createOrg (newOrg d.newId slug) userId = some t)
      (hs' : s' = { s with primary := t })
  | session {caller : Caller} {orgId : String} {action : Action} {ctx : OrgContext}
      (hc : c = .route caller orgId action (.context (.setex ctx)))
      (hs' : s' = s.setSession caller.userId orgId ctx)
  | role {caller : Caller} {orgId userId : String} {action : Action} {role : GrantedRole}
      (hc : c = .route caller orgId action (.updateRole userId role))
      (hc' : c' = .route caller orgId action .returned)
      (hs' : s' = { s with primary := s.primary.updateRole orgId userId role })
  | invitation {caller : Caller} {orgId email : String} {action : Action} {role : GrantedRole}
      {expiresAt : ℕ} {t : Tables}
      (hc : c = .route caller orgId action (.insertInvitation email role expiresAt))
      (hc' : c' = .route caller orgId action .outbox)
      (ht : s.primary.insertInvitation (newInvitation cfg d caller orgId email role expiresAt) = some t)
      (hs' : s' = { s with primary := t })

/-- The roles that a statement of an acceptance gives. -/
theorem gives_accept {token : String} {pc pc' : AcceptPc}
    (h : acceptNext cfg s d token pc = some (s', pc')) :
    Gives cfg s d (.accept token pc) s' (.accept token pc') := by
  cases pc with
  | expire v =>
    obtain ⟨rfl, -⟩ := Prod.mk.inj (Option.some.inj h)
    exact .nothing (kept_setInvitation (by decide))
  | mark v userId isPlatformAdmin =>
    obtain ⟨rfl, -⟩ := Prod.mk.inj (Option.some.inj h)
    exact .nothing (kept_setInvitation (by decide))
  | createUser v =>
    rw [acceptNext] at h
    split at h
    case h_1 l hl =>
      obtain ⟨rfl, -⟩ := Prod.mk.inj (Option.some.inj h)
      exact .nothing (.of_login (users_createUser hl).1)
    case h_2 =>
      obtain ⟨rfl, -⟩ := Prod.mk.inj (Option.some.inj h)
      exact .nothing (.refl s)
  | membership v userId isPlatformAdmin =>
    rw [acceptNext] at h
    split at h
    case h_1 t ht =>
      obtain ⟨rfl, rfl⟩ := Prod.mk.inj (Option.some.inj h)
      exact .membership rfl rfl ht rfl
    case h_2 =>
      obtain ⟨rfl, -⟩ := Prod.mk.inj (Option.some.inj h)
      exact .nothing (.refl s)
  | outbox v userId isPlatformAdmin =>
    obtain ⟨rfl, -⟩ := Prod.mk.inj (Option.some.inj h)
    have hkept := ((Kept.refl s).record v.id .joined).record v.id .issued
    exact .nothing ⟨⟨fun _ _ h => h, fun _ => rfl⟩, rfl, rfl, hkept.invitations, hkept.members⟩
  | insert m =>
    rw [acceptNext] at h
    split at h
    case h_1 a ha =>
      obtain ⟨rfl, -⟩ := Prod.mk.inj (Option.some.inj h)
      obtain ⟨t, -, rfl⟩ := Option.map_eq_some_iff.mp ha
      exact .nothing (.of_login ⟨fun _ _ h => h, fun _ => rfl⟩)
    case h_2 =>
      obtain ⟨rfl, -⟩ := Prod.mk.inj (Option.some.inj h)
      exact .nothing (.refl s)
  | returned _ _ | threw _ | failed => cases h
  | find | findUser | preferences | provider | seed =>
    obtain ⟨rfl, -⟩ := Prod.mk.inj (Option.some.inj h)
    exact .nothing (.refl s)

/-- What a statement of `createOrg` gives. -/
theorem gives_createOrg {slug : String} {pc pc' : CreatePc}
    (h : createNext s d userId slug pc = some (s', pc')) :
    Gives cfg s d (.createOrg userId slug pc) s' (.createOrg userId slug pc') := by
  cases pc with
  | transaction =>
    rw [createNext] at h
    split at h
    case h_1 t ht =>
      obtain ⟨rfl, rfl⟩ := Prod.mk.inj (Option.some.inj h)
      exact .organisation rfl rfl ht rfl
    case h_2 =>
      obtain ⟨rfl, -⟩ := Prod.mk.inj (Option.some.inj h)
      exact .nothing (.refl s)
  | returned | threw _ | failed => cases h
  | findSlug | outbox =>
    obtain ⟨rfl, -⟩ := Prod.mk.inj (Option.some.inj h)
    exact .nothing (.refl s)

/-- Where no row is the user's, none is changed. -/
theorem kept_updateRole {role : GrantedRole}
    (hnone : s.primary.memberships.any (·.isOf orgId userId) = false) :
    Kept s { s with primary := s.primary.updateRole orgId userId role } := by
  refine ⟨.refl _, rfl, rfl, fun _ hv _ => hv, fun m hm => ?_⟩
  obtain ⟨m₀, hm₀, rfl⟩ := List.mem_map.mp hm
  refine ⟨m₀, hm₀, ?_⟩
  rw [MembershipRow.setRole, if_neg (List.any_eq_false.mp hnone m₀ hm₀)]
  exact ⟨rfl, rfl, rfl⟩

/-- A removal leaves the role in the row. -/
theorem kept_remove : Kept s { s with primary := s.primary.removeMembership orgId userId } := by
  refine ⟨.refl _, rfl, rfl, fun _ hv _ => hv, fun m hm => ?_⟩
  obtain ⟨m₀, hm₀, rfl⟩ := List.mem_map.mp hm
  refine ⟨m₀, hm₀, ?_⟩
  unfold MembershipRow.remove
  split <;> exact ⟨rfl, rfl, rfl⟩

/-- The roles that a statement of a route gives. -/
theorem gives_route {caller : Caller} {action : Action} {pc pc' : RoutePc}
    (h : routeNext cfg s d caller orgId action pc = some (s', pc')) :
    Gives cfg s d (.route caller orgId action pc) s' (.route caller orgId action pc') := by
  cases pc with
  | context pc =>
    obtain ⟨pc', hpc, -⟩ := pc_of_next h
    cases pc with
    | setex ctx =>
      obtain ⟨rfl, -⟩ := Prod.mk.inj (Option.some.inj hpc)
      split
      · exact .session rfl rfl
      · exact .nothing (.refl s)
    | resolved _ | threw _ => cases hpc
    | get | select | existence =>
      obtain ⟨rfl, -⟩ := Prod.mk.inj (Option.some.inj hpc)
      exact .nothing (.refl s)
  | updateRole userId role =>
    obtain ⟨rfl, rfl⟩ := Prod.mk.inj (Option.some.inj h)
    cases hany : s.primary.memberships.any (·.isOf orgId userId) with
    | true => exact .role rfl rfl rfl
    | false => exact .nothing (kept_updateRole hany)
  | remove userId =>
    obtain ⟨rfl, -⟩ := Prod.mk.inj (Option.some.inj h)
    exact .nothing kept_remove
  | insertInvitation email role expiresAt =>
    rw [routeNext] at h
    split at h
    case h_1 t ht =>
      obtain ⟨rfl, rfl⟩ := Prod.mk.inj (Option.some.inj h)
      exact .invitation rfl rfl ht rfl
    case h_2 =>
      obtain ⟨rfl, -⟩ := Prod.mk.inj (Option.some.inj h)
      exact .nothing (.refl s)
  | revoke invitationId =>
    obtain ⟨rfl, -⟩ := Prod.mk.inj (Option.some.inj h)
    exact .nothing (kept_setInvitation (by decide))
  | returned | threw _ | failed => cases h
  | findOrg | count | pending | outbox =>
    obtain ⟨rfl, -⟩ := Prod.mk.inj (Option.some.inj h)
    exact .nothing (.refl s)

/-- **One statement.** -/
theorem gives_next (h : next cfg s c d = some (s', c')) : Gives cfg s d c s' c' := by
  cases c with
  | createOrg userId slug pc =>
    obtain ⟨pc', hpc, rfl⟩ := pc_of_next h
    exact gives_createOrg hpc
  | accept token pc =>
    obtain ⟨pc', hpc, rfl⟩ := pc_of_next h
    exact gives_accept hpc
  | route caller orgId action pc =>
    obtain ⟨pc', hpc, rfl⟩ := pc_of_next h
    exact gives_route hpc
  | cleanup pc =>
    obtain ⟨pc', hpc, rfl⟩ := pc_of_next h
    cases pc with
    | expire =>
      obtain ⟨rfl, -⟩ := Prod.mk.inj (Option.some.inj hpc)
      exact .nothing ⟨.refl _, rfl, rfl, fun _ => pending_of_set (by decide),
        fun m hm => ⟨m, hm, rfl, rfl, rfl⟩⟩
    | returned => cases hpc

/-- **Every role was given**: of members, of sessions, of who sent an invitation. -/
structure Granted (cfg : Config) (p q : Calls ι) (s : Store) : Prop where
  primary : ∀ m ∈ s.primary.memberships, Entitled cfg p q m.orgId ⟨m.userId, m.role⟩
  replica : ∀ m ∈ s.replica.memberships, Entitled cfg p q m.orgId ⟨m.userId, m.role⟩
  sessions : ∀ userId orgId ctx, s.sessions userId orgId = some ctx →
    Entitled cfg p q orgId ⟨userId, ctx.value.memberRole⟩
  invitations : ∀ v ∈ s.primary.invitations, v.status = .pending → Sourced cfg p q v
  mirrored : Mirrored s.login

theorem Granted.later (hrun : Run (Pool.step (orgMachine cfg)) anyStep q q')
    (h : Granted cfg p q s) : Granted cfg p q' s where
  primary m hm := Entitled.later hrun (h.primary m hm)
  replica m hm := Entitled.later hrun (h.replica m hm)
  sessions userId orgId ctx hctx := Entitled.later hrun (h.sessions userId orgId ctx hctx)
  invitations v hv hpending := (h.invitations v hv hpending).later hrun
  mirrored := h.mirrored

/-- A statement that gives nothing keeps every role given. -/
theorem Granted.kept (h : Granted cfg p q s) (hk : Kept s s') : Granted cfg p q s' where
  primary m hm := by
    obtain ⟨m₀, hm₀, horg, huser, hrole⟩ := hk.members m hm
    rw [← horg, ← huser, ← hrole]
    exact h.primary m₀ hm₀
  replica m hm := by
    rw [hk.replica] at hm
    exact h.replica m hm
  sessions userId orgId ctx hctx := by
    rw [hk.sessions] at hctx
    exact h.sessions userId orgId ctx hctx
  invitations v hv hpending := h.invitations v (hk.invitations v hv hpending) hpending
  mirrored := hk.users.mirrored h.mirrored

/-- Who presents an invitation gets the role of it. -/
theorem entitled_accepted (hu : Run (Pool.step (orgMachine cfg)) anyStep p u)
    (huq : Run (Pool.step (orgMachine cfg)) anyStep u q) (hsourced : Sourced cfg p u v)
    (haccepted : Accepted cfg u q v userId) : Entitled cfg p q v.orgId ⟨userId, v.role.1⟩ := by
  rcases hsourced with hold | ⟨t, x, hmanages, hentitled, hinvited⟩
  · exact .origin ⟨hu.trans huq, .invitation hold rfl rfl (haccepted.earlier hu)⟩
  · exact .grant hentitled (.invited hmanages rfl rfl (hinvited.later huq)
      (haccepted.earlier hinvited.run))

/-- The members after an invitation is accepted. -/
theorem granted_createMembership {t : Tables} {role : GrantedRole} (h : Granted cfg p q s)
    (hnew : Entitled cfg p q orgId ⟨userId, role.1⟩)
    (ht : s.primary.createMembership orgId userId role = some t) :
    Granted cfg p q { s with primary := t } := by
  obtain ⟨-, hinvitations, hmembers⟩ := Tables.createMembership_spec ht
  refine ⟨fun m hm => ?_, h.replica, h.sessions, fun v hv hpending => ?_, h.mirrored⟩
  · rcases hmembers with ⟨-, hrows⟩ | ⟨-, hrows⟩
    · rcases List.mem_cons.mp (hrows ▸ hm) with rfl | hold
      · exact hnew
      · exact h.primary m hold
    · obtain ⟨m₀, hm₀, rfl⟩ := List.mem_map.mp (hrows ▸ hm)
      unfold MembershipRow.rejoin
      split
      case isTrue hof =>
        obtain ⟨horg, huser, -⟩ := isOf_iff.mp hof
        subst horg huser
        exact hnew
      case isFalse => exact h.primary m₀ hm₀
  · exact h.invitations v (hinvitations ▸ hv) hpending

/-- The members after a role is changed. -/
theorem granted_updateRole {role : GrantedRole} (h : Granted cfg p q s)
    (hnew : Entitled cfg p q orgId ⟨userId, role.1⟩) :
    Granted cfg p q { s with primary := s.primary.updateRole orgId userId role } := by
  refine ⟨fun m hm => ?_, h.replica, h.sessions, h.invitations, h.mirrored⟩
  obtain ⟨m₀, hm₀, rfl⟩ := List.mem_map.mp hm
  unfold MembershipRow.setRole
  split
  case isTrue hof =>
    obtain ⟨horg, huser, -⟩ := isOf_iff.mp hof
    subst horg huser
    exact hnew
  case isFalse => exact h.primary m₀ hm₀

/-- So does a new organisation, whose owner is entitled. -/
theorem granted_createOrg {t : Tables} {id slug : String} (h : Granted cfg p q s)
    (hnew : Entitled cfg p q id ⟨userId, .orgOwner⟩)
    (ht : s.primary.createOrg (newOrg id slug) userId = some t) :
    Granted cfg p q { s with primary := t } := by
  unfold Tables.createOrg at ht
  split at ht
  case isTrue =>
    obtain rfl := Option.some.inj ht
    refine ⟨fun m hm => ?_, h.replica, h.sessions, h.invitations, h.mirrored⟩
    rcases List.mem_cons.mp hm with rfl | hold
    · exact hnew
    · exact h.primary m hold
  case isFalse => cases ht

/-- So does an invitation that has its source. -/
theorem granted_insertInvitation {t : Tables} {v : InvitationRow} (h : Granted cfg p q s)
    (hnew : Sourced cfg p q v) (ht : s.primary.insertInvitation v = some t) :
    Granted cfg p q { s with primary := t } := by
  unfold Tables.insertInvitation at ht
  split at ht
  case isTrue =>
    obtain rfl := Option.some.inj ht
    refine ⟨h.primary, h.replica, h.sessions, fun w hw hpending => ?_, h.mirrored⟩
    rcases List.mem_cons.mp hw with rfl | hold
    · exact hnew
    · exact h.invitations w hold hpending
  case isFalse => cases ht

/-- A session that shows an entitled role is granted. -/
theorem granted_setSession {ctx : OrgContext} (h : Granted cfg p q s)
    (hnew : Entitled cfg p q orgId ⟨userId, ctx.memberRole⟩) :
    Granted cfg p q (s.setSession userId orgId ctx) := by
  refine ⟨h.primary, h.replica, fun userId' orgId' ctx' hctx => ?_, h.invitations, h.mirrored⟩
  rw [Store.setSession] at hctx
  dsimp only at hctx
  by_cases huser : userId' = userId
  · subst huser
    rw [Function.update_self] at hctx
    by_cases horg : orgId' = orgId
    · subst horg
      rw [Function.update_self] at hctx
      obtain rfl := Option.some.inj hctx
      exact hnew
    · rw [Function.update_of_ne horg] at hctx
      exact h.sessions userId' orgId' ctx' hctx
  · rw [Function.update_of_ne huser] at hctx
    exact h.sessions userId' orgId' ctx' hctx

/-- The organisation that a founder's statement makes. -/
theorem founded_of_made {t : Tables} {id slug : String}
    (ht : s.primary.createOrg (newOrg id slug) userId = some t)
    (hmade : Made (orgMachine cfg) p q s (.createOrg userId slug .transaction)
      { s with primary := t } (.createOrg userId slug .outbox)) : Founded cfg p q id userId := by
  unfold Tables.createOrg at ht
  split at ht
  case isTrue hnew =>
    obtain rfl := Option.some.inj ht
    exact ⟨slug, s, _, hnew.1, List.mem_cons_self, hmade⟩
  case isFalse => cases ht

/-- **A statement gives what its caller may give.** -/
theorem granted_next (hu : Run (Pool.step (orgMachine cfg)) anyStep p u) (h : Granted cfg p q s)
    (hc : Backed cfg p u s.login c) (hmade : Made (orgMachine cfg) u q s c s' c')
    (hg : Gives cfg s d c s' c') : Granted cfg p q s' := by
  cases hg with
  | nothing hk => exact h.kept hk
  | membership hcall hcall' ht hs' =>
    subst hcall hcall' hs'
    obtain ⟨htoken, hsourced, hemail⟩ := hc _ _ rfl
    have hentitled := entitled_accepted hu hmade.run hsourced
      ⟨_, _, s, _, htoken, hemail _ rfl, hmade⟩
    exact (granted_createMembership h hentitled ht).kept ((Kept.refl _).record _ _)
  | organisation hcall hcall' ht hs' =>
    subst hcall hcall' hs'
    have hfounded := founded_of_made ht (hmade.earlier hu)
    exact granted_createOrg h (.origin ⟨hu.trans hmade.run, .founder rfl hfounded⟩) ht
  | session hcall hs' =>
    subst hcall hs'
    exact granted_setSession h (Entitled.later hmade.run hc)
  | role hcall hcall' hs' =>
    subst hcall hcall' hs'
    obtain ⟨role', hmanages, hentitled⟩ := hc rfl
    exact granted_updateRole h
      (.grant hentitled (.changed hmanages ⟨_, _, _, s, _, rfl, rfl, hmade⟩))
  | invitation hcall hcall' ht hs' =>
    subst hcall hcall' hs'
    obtain ⟨role', hmanages, hentitled⟩ := hc rfl
    exact granted_insertInvitation h
      (Or.inr ⟨u, _, hmanages, hentitled, _, _, _, s, _, rfl, rfl, hmade⟩) ht

/-! ## What a call relies on -/

/-- An invitation that is not being granted relies on nothing. -/
theorem backed_of_granting_none {token : String} {pc : AcceptPc} (l : Auth.LoginStore)
    (h : pc.granting = none) : Backed cfg p q l (.accept token pc) := by
  intro v user hv
  rw [h] at hv
  cases hv

theorem backed_threw {caller : Caller} {action : Action} {e : AppError} (l : Auth.LoginStore) :
    Backed cfg p q l (.route caller orgId action (.threw e)) := by
  intro h
  cases h

/-- An action that is admitted for an entitled caller is backed. -/
theorem backed_admitted {caller : Caller} {action : Action} {ctx : OrgContext}
    (h : Entitled cfg p q orgId ⟨caller.userId, ctx.memberRole⟩) (l : Auth.LoginStore) :
    Backed cfg p q l (.route caller orgId action (action.admitted cfg.normalizeEmail ctx)) := by
  unfold Action.admitted
  cases orgStatusError ctx.orgStatus with
  | some e => exact backed_threw l
  | none =>
    dsimp only
    by_cases hrole : ctx.memberRole ≠ .orgOwner ∧ ctx.memberRole ≠ .orgAdmin
    · rw [if_pos hrole]
      exact backed_threw l
    · rw [if_neg hrole]
      have hadmitted : Admitted cfg p q orgId caller.userId := by
        refine ⟨ctx.memberRole, ?_, h⟩
        unfold Manages
        tauto
      cases action <;> exact fun _ => hadmitted

/-- The role that is selected is that of a membership. -/
theorem mem_of_selectContext {t : Tables} {ctx : OrgContext}
    (h : selectContext t userId orgId = some ctx) :
    ∃ m ∈ t.memberships, m.orgId = orgId ∧ m.userId = userId ∧ m.role = ctx.memberRole := by
  unfold selectContext at h
  obtain ⟨m, hm, hrest⟩ := Option.bind_eq_some_iff.mp h
  obtain ⟨org, -, hctx⟩ := Option.bind_eq_some_iff.mp hrest
  obtain rfl := Option.some.inj hctx
  have hrow := List.find?_some hm
  rw [decide_eq_true_eq] at hrow
  obtain ⟨hactive, huser⟩ := hrow
  exact ⟨m, List.mem_of_find?_eq_some hm, (activeIn_iff.mp hactive).1, huser, rfl⟩

/-- A context that is resolved shows a role that was granted. -/
theorem backed_context {caller : Caller} {action : Action} {pc pc' : ContextPc}
    (h : Granted cfg p q s) (hc : Backed cfg p q s.login (.route caller orgId action (.context pc)))
    (hn : contextNext s d caller orgId pc = some (s', pc')) :
    Backed cfg p q s'.login (.route caller orgId action (.ofContext cfg.normalizeEmail action pc')) := by
  cases pc with
  | get =>
    obtain ⟨rfl, rfl⟩ := Prod.mk.inj (Option.some.inj hn)
    split
    · exact nofun
    · split
      case h_1 ctx hctx =>
        refine backed_admitted ?_ _
        split at hctx
        · obtain ⟨x, hx, rfl⟩ := Option.map_eq_some_iff.mp hctx
          exact h.sessions _ _ x (Option.filter_eq_some_iff.mp hx).1
        · cases hctx
      case h_2 => exact nofun
  | select =>
    obtain ⟨rfl, rfl⟩ := Prod.mk.inj (Option.some.inj hn)
    split
    case h_1 ctx hctx =>
      split
      · exact nofun
      · obtain ⟨m, hm, horg, huser, hrole⟩ := mem_of_selectContext hctx
        show Entitled cfg p q orgId ⟨caller.userId, ctx.memberRole⟩
        rw [← horg, ← huser, ← hrole]
        exact h.replica m hm
    case h_2 => exact nofun
  | existence =>
    obtain ⟨rfl, rfl⟩ := Prod.mk.inj (Option.some.inj hn)
    split <;> exact nofun
  | setex ctx =>
    obtain ⟨-, rfl⟩ := Prod.mk.inj (Option.some.inj hn)
    exact backed_admitted hc _
  | resolved _ | threw _ => cases hn

/-- A statement of a route goes by a role that was granted. -/
theorem backed_route {caller : Caller} {action : Action} {pc pc' : RoutePc}
    (h : Granted cfg p q s) (hc : Backed cfg p q s.login (.route caller orgId action pc))
    (hn : routeNext cfg s d caller orgId action pc = some (s', pc')) :
    Backed cfg p q s'.login (.route caller orgId action pc') := by
  cases pc with
  | context pc =>
    obtain ⟨pc', hpc, rfl⟩ := pc_of_next hn
    exact backed_context h hc hpc
  | insertInvitation email role expiresAt =>
    rw [routeNext] at hn
    split at hn <;>
      (obtain ⟨-, rfl⟩ := Prod.mk.inj (Option.some.inj hn)
       exact fun _ => hc rfl)
  | findOrg email role =>
    obtain ⟨-, rfl⟩ := Prod.mk.inj (Option.some.inj hn)
    unfold RoutePc.inviting
    split
    · exact backed_threw _
    · split <;> exact fun _ => hc rfl
  | updateRole | count | pending | revoke =>
    obtain ⟨-, rfl⟩ := Prod.mk.inj (Option.some.inj hn)
    split <;> exact fun _ => hc rfl
  | remove | outbox =>
    obtain ⟨-, rfl⟩ := Prod.mk.inj (Option.some.inj hn)
    exact fun _ => hc rfl
  | returned | threw _ | failed => cases hn

/-- A statement of an acceptance goes by an invitation that was sent. -/
theorem backed_accept {token : String} {pc pc' : AcceptPc} (h : Granted cfg p q s)
    (hc : Backed cfg p q s.login (.accept token pc))
    (hn : acceptNext cfg s d token pc = some (s', pc')) :
    Backed cfg p q s'.login (.accept token pc') := by
  cases pc with
  | find =>
    obtain ⟨rfl, rfl⟩ := Prod.mk.inj (Option.some.inj hn)
    cases hfind : s.primary.findByTokenHash (cfg.hashToken token) with
    | none => exact backed_of_granting_none _ rfl
    | some v =>
      unfold AcceptPc.found
      dsimp only
      by_cases hpending : v.status = .pending
      · rw [if_neg (not_not.mpr hpending)]
        split
        · exact backed_of_granting_none _ rfl
        · intro v' user hv'
          obtain ⟨rfl, rfl⟩ := Prod.mk.inj (Option.some.inj hv')
          have hhash := List.find?_some hfind
          rw [decide_eq_true_eq] at hhash
          exact ⟨hhash, h.invitations v (List.mem_of_find?_eq_some hfind) hpending,
            fun _ hid => absurd hid (Option.not_mem_none _)⟩
      · rw [if_pos hpending]
        exact backed_of_granting_none _ rfl
  | findUser v =>
    obtain ⟨rfl, rfl⟩ := Prod.mk.inj (Option.some.inj hn)
    obtain ⟨htoken, hsourced, -⟩ := hc v none rfl
    split
    case h_1 user huser =>
      intro v' user' hv'
      obtain ⟨rfl, rfl⟩ := Prod.mk.inj (Option.some.inj hv')
      refine ⟨htoken, hsourced, fun userId hid => ?_⟩
      obtain rfl := Option.some.inj hid
      exact h.mirrored _ user huser
    case h_2 => exact hc
  | createUser v =>
    obtain ⟨htoken, hsourced, -⟩ := hc v none rfl
    rw [acceptNext] at hn
    split at hn <;> obtain ⟨rfl, rfl⟩ := Prod.mk.inj (Option.some.inj hn)
    case h_1 l hl =>
      intro v' user' hv'
      obtain ⟨rfl, rfl⟩ := Prod.mk.inj (Option.some.inj hv')
      refine ⟨htoken, hsourced, fun userId hid => ?_⟩
      obtain rfl := Option.some.inj hid
      exact (users_createUser hl).2
    case h_2 => exact backed_of_granting_none _ rfl
  | preferences | provider =>
    obtain ⟨rfl, rfl⟩ := Prod.mk.inj (Option.some.inj hn)
    exact hc
  | membership | insert =>
    rw [acceptNext] at hn
    split at hn <;>
      (obtain ⟨-, rfl⟩ := Prod.mk.inj (Option.some.inj hn)
       exact backed_of_granting_none _ rfl)
  | expire | seed | mark | outbox =>
    obtain ⟨-, rfl⟩ := Prod.mk.inj (Option.some.inj hn)
    exact backed_of_granting_none _ rfl
  | returned _ _ | threw _ | failed => cases hn

/-- A call stays backed, statement by statement. -/
theorem backed_next (h : Granted cfg p q s) (hc : Backed cfg p q s.login c)
    (hn : next cfg s c d = some (s', c')) : Backed cfg p q s'.login c' := by
  cases c with
  | createOrg userId slug pc =>
    obtain ⟨pc', -, rfl⟩ := pc_of_next hn
    trivial
  | accept token pc =>
    obtain ⟨pc', hpc, rfl⟩ := pc_of_next hn
    exact backed_accept h hc hpc
  | route caller orgId action pc =>
    obtain ⟨pc', hpc, rfl⟩ := pc_of_next hn
    exact backed_route h hc hpc
  | cleanup pc =>
    obtain ⟨pc', -, rfl⟩ := pc_of_next hn
    trivial

/-! ## Runs -/

theorem emails_of_gives (h : Gives cfg s d c s' c') (email userId : String)
    (hemail : HasEmail s.login email userId) : HasEmail s'.login email userId := by
  cases h with
  | nothing hk => exact hk.users.emails email userId hemail
  | membership hc hc' ht hs' | organisation hc hc' ht hs' | session hc hs' | role hc hc' hs'
  | invitation hc hc' ht hs' =>
    rw [hs']
    exact hemail

theorem granted_env (h : Granted cfg p q s) (e : Env) : Granted cfg p q (env s e) := by
  cases e with
  | tick ms =>
    exact h.kept ⟨⟨fun _ _ h => h, fun _ => rfl⟩, rfl, rfl, fun _ hv _ => hv,
      fun m hm => ⟨m, hm, rfl, rfl, rfl⟩⟩
  | replicate =>
    exact ⟨h.primary, h.primary, h.sessions, h.invitations, mirrored_of_same rfl rfl⟩

/-- A call that has not started is backed. -/
theorem backed_of_fresh {l : Auth.LoginStore} (h : c.fresh = true) : Backed cfg p q l c := by
  cases c with
  | createOrg | cleanup => trivial
  | accept token pc =>
    cases pc with
    | find => exact nofun
    | _ => cases h
  | route caller orgId action pc =>
    cases pc with
    | context pc =>
      cases pc with
      | get => exact nofun
      | _ => cases h
    | _ => cases h

theorem granted_start (hmirrored : Mirrored p.store.login) : Granted cfg p p p.store where
  primary _ hm := .origin ⟨.refl, .member (Or.inl hm) rfl rfl⟩
  replica _ hm := .origin ⟨.refl, .member (Or.inr hm) rfl rfl⟩
  sessions _ _ _ hctx := .origin ⟨.refl, .session hctx rfl⟩
  invitations _ hv _ := Or.inl hv
  mirrored := hmirrored

/-- Every role was granted, in every state of a run. -/
theorem granted_run (hfresh : ∀ i, (p.calls i).Live fun c => c.fresh)
    (hmirrored : Mirrored p.store.login) (hrun : Run (Pool.step (orgMachine cfg)) anyStep p q) :
    Granted cfg p q q.store := by
  have hstart : ∀ i, (p.calls i).Keeps (Backed cfg p p p.store.login) := by
    intro i
    obtain ⟨c, hc, hc'⟩ := (hfresh i).exists
    rw [hc]
    exact backed_of_fresh hc'
  refine (invariant_made
    (I := fun u v => Granted cfg p v u.store ∧ ∀ i, (u.calls i).Keeps (Backed cfg p v u.store.login))
    ⟨granted_start hmirrored, hstart⟩ ?_ ?_ ?_ ?_ hrun).1
  · exact fun u v w ⟨hI, hcalls⟩ hvw => ⟨hI.later hvw, fun i =>
      (hcalls i).imp fun _ hb => hb.later hvw fun _ _ h => h⟩
  · intro u v i d c s' c' hu ⟨_, hbefore⟩ ⟨hI, hcalls⟩ hc hn hmade
    have hgives := gives_next hn
    refine ⟨granted_next hu hI ((hbefore i).of_up hc) hmade hgives,
      keeps_update_up (backed_next hI ((hcalls i).of_up hc) hn) fun j _ => (hcalls j).imp ?_⟩
    exact fun _ hb => hb.later .refl (emails_of_gives hgives)
  · exact fun u v i c ⟨hI, hcalls⟩ _ => ⟨hI, keeps_update_down hcalls⟩
  · intro u v e ⟨hI, hcalls⟩
    refine ⟨granted_env hI e, fun j => (hcalls j).imp fun _ hb => hb.later .refl ?_⟩
    intro email userId hemail
    cases e <;> exact hemail

/-- **Every role was given.**  Whatever interleaves, crashes and lags: the role of a member, removed
or not, is that of the founder of the organisation or of somebody who was there at the beginning, or
it was given to the member by an owner or admin whose own role was given so. -/
theorem role_was_granted (hfresh : ∀ i, (p.calls i).Live fun c => c.fresh)
    (hmirrored : Mirrored p.store.login) (hrun : Run (Pool.step (orgMachine cfg)) anyStep p q) :
    ∀ m ∈ q.store.primary.memberships, Entitled cfg p q m.orgId ⟨m.userId, m.role⟩ :=
  (granted_run hfresh hmirrored hrun).primary

end Steps

/-! ### An admin who was invited -/

/-- The founder invites `u@x`, who joins as an admin. -/
theorem role_was_granted_invited :
    ∃ q, Run (Pool.step (orgMachine demoConfig)) anyStep
        (foundedBy (.invite "u@x" ⟨.orgAdmin, by decide⟩)) q
      ∧ (q.store.primary.memberships.map fun m => (m.userId, m.role))
          = [("u", .orgAdmin), ("w", .orgOwner)]
      ∧ ∀ m ∈ q.store.primary.memberships, Entitled demoConfig
          (foundedBy (.invite "u@x" ⟨.orgAdmin, by decide⟩)) q m.orgId ⟨m.userId, m.role⟩ := by
  obtain ⟨q, hq, h⟩ := exists_run_of_exec (Pool.step (orgMachine demoConfig)) anyStep
    (foundedBy (.invite "u@x" ⟨.orgAdmin, by decide⟩))
    (List.flatten [founding,
      [.run 1 (drawn ""), .run 1 (drawn ""), .run 1 (drawn ""), .run 1 (drawn "i"),
        .run 2 (drawn ""), .run 2 (drawn ""), .run 2 (drawn "")]])
    (fun q => (q.store.primary.memberships.map fun m => (m.userId, m.role))
      = [("u", .orgAdmin), ("w", .orgOwner)]) (by decide)
  exact ⟨q, hq, of_decide_eq_true h, role_was_granted (by decide) (mirrored_of_same rfl rfl) hq⟩

end WorkPlatform.Organization

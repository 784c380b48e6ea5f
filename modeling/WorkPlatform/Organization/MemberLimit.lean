import Mathlib.Data.Finset.Card
import Mathlib.Data.Finset.Option
import Mathlib.Data.Finset.Union
import WorkPlatform.Organization.Owner

/-!
# Organization/MemberLimit — no more members than `max_members`

    invite             count < max_members, on the replica   ▸ invitation
    acceptInvitation   (nothing)                             ▸ membership

The limit is checked where an invitation is sent, against the members there are then.  Invitations
that are out are not counted, and the acceptance, which makes the member, does not look at the limit
at all (`last_seat_taken_twice`).

A **seat** is taken by an active member, by whoever an invitation is out to, and by whoever a call
is about to invite or to make a member.  As long as an invite that counts fewer members than the
limit also has a seat for whom it invites, and the replica shows it the members there are
(`Counted`), the seats and so the members are within the limit (`within_limit`).
-/

namespace WorkPlatform.Organization

open Machinery

/-! ## Seats -/

/-- Who is a member or may become one: a user, or an email without an account. -/
inductive Seat
  | user (id : String)
  | email (email : String)
  deriving DecidableEq

/-- `max_members`, and 0 where there is no such organisation. -/
def Tables.maxMembers (t : Tables) (orgId : String) : ℕ :=
  ((t.orgs.find? (·.id = orgId)).map (·.maxMembers)).getD 0

/-- The active members of the organisation are within its limit. -/
def Tables.Within (t : Tables) (orgId : String) : Prop :=
  ∀ org ∈ t.orgs, org.id = orgId → t.countActiveMembers orgId ≤ org.maxMembers

/-- The user with the email, on the primary. -/
def Store.account (s : Store) (email : String) : Option String :=
  (s.login.primary.emails email).filter fun id =>
    (s.login.auth.primary.users id).any fun u => ¬ u.deleted

/-- The seat of whoever has the email. -/
def Store.seat (s : Store) (email : String) : Seat :=
  match s.account email with
  | some id => .user id
  | none => .email email

/-- The invitation can be accepted. -/
def InvitationRow.isOut (orgId : String) (now : ℕ) (v : InvitationRow) : Bool :=
  v.orgId = orgId ∧ v.status = .pending ∧ ¬ v.expiresAt < now

/-- The email of whom the call is about to make a member of the organisation, or to invite. -/
def Call.guest (orgId : String) : Call → Option String
  | .accept _ (.findUser v) | .accept _ (.createUser v) | .accept _ (.preferences v _)
  | .accept _ (.provider v _) | .accept _ (.membership v _ _) =>
    if v.orgId = orgId then some v.email else none
  | .route _ o _ (.pending email _) | .route _ o _ (.insertInvitation email _ _) =>
    if o = orgId then some email else none
  | _ => none

/-- The guest of a running call. -/
def guestOf (orgId : String) : Proc Call → Option String
  | .up c => c.guest orgId
  | .down _ => none

section Conditions

variable {ι : Type*} (cfg : Config) (orgId : String)

/-- The seats of active members, and of those an invitation is out to. -/
def Store.taken (s : Store) : List Seat :=
  (s.primary.memberships.filter (·.activeIn orgId)).map (fun m => .user m.userId)
    ++ (s.primary.invitations.filter (·.isOut orgId s.now)).map fun v =>
      s.seat (cfg.normalizeEmail v.email)

/-- The seat is taken. -/
def Taken (p : Calls ι) (x : Seat) : Prop :=
  x ∈ p.store.taken cfg orgId
    ∨ ∃ i, ∃ email ∈ guestOf orgId (p.calls i), p.store.seat (cfg.normalizeEmail email) = x

/-- The seats that are taken, and the guest's, are within the limit. -/
def Fit (p : Calls ι) (guest : Option Seat) : Prop :=
  ∃ seats : Finset Seat, seats.card ≤ p.store.primary.maxMembers orgId
    ∧ ∀ x, Taken cfg orgId p x ∨ x ∈ guest → x ∈ seats

/-- The replica shows what the statement asks it for: the members an invite counts, with the limit
it has read, and the account of whoever accepts. -/
def Call.shown (s : Store) : Call → Bool
  | .route _ o _ (.count _ _ org) => o = orgId →
      s.replica.countActiveMembers orgId = s.primary.countActiveMembers orgId
        ∧ s.primary.orgs.any fun row => row.id = orgId ∧ row.maxMembers = org.maxMembers
  | .accept _ (.findUser v) => v.orgId = orgId →
      (s.login.findUserByEmail (cfg.normalizeEmail v.email)).map (·.id)
        = s.account (cfg.normalizeEmail v.email)
  | _ => true

/-- The email of whom the call invites to the organisation, about to count its members. -/
def Call.invitee : Call → Option String
  | .route _ o _ (.count email _ _) => if o = orgId then some email else none
  | _ => none

/-- **Every invite has a seat for its guest**, where there are fewer members than the limit when it
counts them. -/
def Counted (p : Calls ι) : Move ι Draw Env → Prop
  | .run i _ => (p.calls i).Keeps fun c => c.shown cfg orgId p.store = true
      ∧ (c.invitee orgId ≠ none →
        p.store.primary.countActiveMembers orgId < p.store.primary.maxMembers orgId →
          Fit cfg orgId p ((c.invitee orgId).map fun email => p.store.seat (cfg.normalizeEmail email)))
  | _ => True

/-- An acceptance goes on for the user who has the email. -/
def Call.Known (s : Store) : Call → Prop
  | .accept _ (.preferences v userId) | .accept _ (.provider v userId)
  | .accept _ (.membership v userId _) =>
    v.orgId = orgId → s.account (cfg.normalizeEmail v.email) = some userId
  | _ => True

end Conditions

/-! ## One statement -/

section Steps

variable {cfg : Config} {s s' : Store} {d : Draw} {c c' k : Call} {orgId email userId : String}

theorem account_eq_some : s.account email = some userId ↔
    s.login.primary.emails email = some userId
      ∧ (s.login.auth.primary.users userId).any (fun u => ¬ u.deleted) = true := by
  unfold Store.account
  rw [Option.filter_eq_some_iff]

/-- Accounts stay, and no time passes. -/
structure Store.Grown (s s' : Store) : Prop where
  now : s'.now = s.now
  account : ∀ email userId, s.account email = some userId → s'.account email = some userId

theorem grown_of_login (h : s'.login = s.login) : s.Grown s' where
  now := by rw [Store.now, h, Store.now]
  account email userId hold := by
    unfold Store.account at hold ⊢
    rwa [h]

/-- A new user has the email it was created with. -/
theorem account_created {l : Auth.LoginStore} (h : createUser s.login userId email true = some l) :
    Store.account { s with login := l } email = some userId := by
  unfold createUser at h
  split at h
  · cases h
  · obtain rfl := Option.some.inj h
    refine account_eq_some.mpr ⟨Function.update_self .., ?_⟩
    dsimp only
    rw [Function.update_self]
    rfl

/-- A new user takes nobody's email. -/
theorem account_createUser {l : Auth.LoginStore} {id e : String}
    (h : createUser s.login id e true = some l) (hold : s.account email = some userId) :
    Store.account { s with login := l } email = some userId := by
  unfold createUser at h
  split at h
  case isTrue => cases h
  case isFalse hnew =>
    rw [not_or] at hnew
    obtain rfl := Option.some.inj h
    obtain ⟨hemail, huser⟩ := account_eq_some.mp hold
    have hne : email ≠ e := by
      rintro rfl
      refine hnew.2 ?_
      unfold emailTaken
      rw [hemail]
      exact huser
    have hid : userId ≠ id := by
      rintro rfl
      refine hnew.1 ?_
      obtain ⟨u, hu, -⟩ := (Option.any_eq_true _ _).mp huser
      rw [hu]
      rfl
    refine account_eq_some.mpr ⟨(Function.update_of_ne hne ..).trans hemail, ?_⟩
    dsimp only
    rw [Function.update_of_ne hid]
    exact huser

/-- An acceptance gives accounts, and takes none. -/
theorem grown_accept {token : String} {pc pc' : AcceptPc}
    (h : acceptNext cfg s d token pc = some (s', pc')) : s.Grown s' := by
  cases pc with
  | expire v | mark v u b =>
    obtain ⟨rfl, -⟩ := Prod.mk.inj (Option.some.inj h)
    exact grown_of_login (setInvitation_login _ _ _ _)
  | createUser v =>
    rw [acceptNext] at h
    split at h
    · rename_i l hl
      obtain ⟨rfl, -⟩ := Prod.mk.inj (Option.some.inj h)
      obtain ⟨-, _, _, -, rfl⟩ := createUser_spec hl
      exact ⟨rfl, fun email userId => account_createUser hl⟩
    · obtain ⟨rfl, -⟩ := Prod.mk.inj (Option.some.inj h)
      exact grown_of_login rfl
  | membership v u b =>
    rw [acceptNext] at h
    split at h <;> (obtain ⟨rfl, -⟩ := Prod.mk.inj (Option.some.inj h); exact grown_of_login rfl)
  | insert m =>
    rw [acceptNext] at h
    split at h
    · rename_i a ha
      obtain ⟨rfl, -⟩ := Prod.mk.inj (Option.some.inj h)
      obtain ⟨_, -, rfl⟩ := Auth.Store.createRefreshToken_eq ha
      exact ⟨rfl, fun email userId hold => hold⟩
    · obtain ⟨rfl, -⟩ := Prod.mk.inj (Option.some.inj h)
      exact grown_of_login rfl
  | outbox v u b =>
    obtain ⟨rfl, -⟩ := Prod.mk.inj (Option.some.inj h)
    exact ⟨rfl, fun email userId hold => hold⟩
  | returned _ _ | threw _ | failed => cases h
  | _ =>
    obtain ⟨rfl, -⟩ := Prod.mk.inj (Option.some.inj h)
    exact grown_of_login rfl

/-- **An account stays**: no statement gives an email that has one to somebody else. -/
theorem grown_next (h : next cfg s c d = some (s', c')) : s.Grown s' := by
  cases c with
  | createOrg u slug pc =>
    obtain ⟨pc', hpc, -⟩ := pc_of_next h
    rcases create_store hpc with rfl | ⟨t, -, rfl⟩ <;> exact grown_of_login rfl
  | accept token pc =>
    obtain ⟨pc', hpc, -⟩ := pc_of_next h
    exact grown_accept hpc
  | route caller o action pc =>
    obtain ⟨pc', hpc, -⟩ := pc_of_next h
    exact grown_of_login (route_login hpc)
  | cleanup pc =>
    obtain ⟨pc', hpc, -⟩ := pc_of_next h
    cases pc with
    | expire =>
      obtain ⟨rfl, -⟩ := Prod.mk.inj (Option.some.inj hpc)
      exact grown_of_login rfl
    | returned => cases hpc

/-- Where a seat has gone: an email may have got its account. -/
def Seat.carry (s' : Store) : Seat → Seat
  | .user id => .user id
  | .email e => s'.seat e

theorem carry_seat (h : next cfg s c d = some (s', c')) (e : String) :
    (s.seat e).carry s' = s'.seat e := by
  cases hold : s.account e with
  | none => rw [Store.seat, hold]; rfl
  | some id =>
    have hnew : s'.account e = some id := (grown_next h).account e id hold
    rw [Store.seat, hold, Store.seat, hnew]
    rfl

/-! ### Members -/

theorem row_userId (write : MemberWrite) (o u : String) (m : MembershipRow) :
    (write.row o u m).userId = m.userId := by
  cases write <;>
    (simp only [MemberWrite.row, MembershipRow.rejoin, MembershipRow.setRole,
      MembershipRow.remove]; split <;> rfl)

/-- Only a join makes a member active, in the organisation it names. -/
theorem activeIn_row {o : String} {m : MembershipRow} {write : MemberWrite}
    (h : (write.row o userId m).activeIn orgId = true) : m.activeIn orgId = true
      ∨ m.isOf o userId = true ∧ o = orgId ∧ ∃ role, write = .join role := by
  cases hof : m.isOf o userId with
  | false =>
    rw [write.row_of_not hof] at h
    exact Or.inl h
  | true =>
    obtain ⟨horg, hstatus, hlive⟩ := activeIn_iff.mp h
    cases write with
    | join role =>
      rw [MemberWrite.row, MembershipRow.rejoin_orgId, (isOf_iff.mp hof).1] at horg
      exact Or.inr ⟨rfl, horg, role, rfl⟩
    | setRole role =>
      simp only [MemberWrite.row, MembershipRow.setRole, hof, if_true] at horg hstatus hlive
      exact Or.inl (activeIn_iff.mpr ⟨horg, hstatus, hlive⟩)
    | remove =>
      simp only [MemberWrite.row, MembershipRow.remove, hof, if_true] at hlive
      exact Bool.noConfusion hlive

/-- Only an acceptance makes a member join. -/
theorem accept_of_join {o : String} {role : GrantedRole}
    (h : c.memberWrite = some (o, userId, .join role)) :
    ∃ token v b, c = .accept token (.membership v userId b) ∧ v.orgId = o := by
  unfold Call.memberWrite at h
  split at h
  · rename_i v u b
    obtain ⟨rfl, hrest⟩ := Prod.mk.inj (Option.some.inj h)
    obtain ⟨rfl, -⟩ := Prod.mk.inj hrest
    exact ⟨_, v, b, rfl, rfl⟩
  · cases h
  · cases h
  · cases h

/-- The organisation is new, with one member. -/
def FoundedBy (s s' : Store) (orgId userId : String) : Prop :=
  orgId ∉ s.primary.orgs.map (·.id) ∧ s'.primary.maxMembers orgId = 5
    ∧ s'.primary.memberships = ⟨⟨userId, orgId, .orgOwner, .active⟩, false⟩ :: s.primary.memberships

/-- **An active member was one**, or accepts just now, or founds the organisation. -/
theorem member_next {m : MembershipRow} (h : next cfg s c d = some (s', c'))
    (hm : m ∈ s'.primary.memberships) (hactive : m.activeIn orgId = true) :
    (∃ m₀ ∈ s.primary.memberships, m₀.activeIn orgId = true ∧ m₀.userId = m.userId)
      ∨ (∃ token v b, c = .accept token (.membership v m.userId b) ∧ v.orgId = orgId)
      ∨ FoundedBy s s' orgId m.userId := by
  cases members_next h with
  | same _ hmembers => exact Or.inl ⟨m, by rwa [← hmembers], hactive, rfl⟩
  | @written o u write hw _ hmembers =>
    rw [hmembers] at hm
    obtain ⟨m₀, hm₀, rfl⟩ := List.mem_map.mp hm
    rw [row_userId]
    rcases activeIn_row hactive with hold | ⟨hof, rfl, role, rfl⟩
    · exact Or.inl ⟨m₀, hm₀, hold, rfl⟩
    · rw [(isOf_iff.mp hof).2.1]
      exact Or.inr (Or.inl (accept_of_join hw))
  | joined hw _ _ hmembers =>
    rw [hmembers] at hm
    rcases List.mem_cons.mp hm with rfl | hm
    · obtain rfl := (activeIn_iff.mp hactive).1
      exact Or.inr (Or.inl (accept_of_join hw))
    · exact Or.inl ⟨m, hm, hactive, rfl⟩
  | @founded id slug u hid horgs hmembers =>
    have hmem := hm
    rw [hmembers] at hmem
    rcases List.mem_cons.mp hmem with rfl | hmem
    · obtain rfl := (activeIn_iff.mp hactive).1
      refine Or.inr (Or.inr ⟨hid, ?_, hmembers⟩)
      rw [Tables.maxMembers, horgs, List.find?_cons_of_pos (by simp [newOrg])]
      rfl
    · exact Or.inl ⟨m, hmem, hactive, rfl⟩

/-- The limit stays, but for a new organisation's. -/
theorem maxMembers_next (h : next cfg s c d = some (s', c')) :
    s'.primary.maxMembers orgId = s.primary.maxMembers orgId
      ∨ ∃ userId, FoundedBy s s' orgId userId := by
  cases members_next h with
  | same horgs _ | written _ _ horgs _ | joined _ horgs _ _ =>
    exact Or.inl (by rw [Tables.maxMembers, horgs, Tables.maxMembers])
  | @founded id slug u hid horgs hmembers =>
    by_cases hsame : id = orgId
    · subst hsame
      refine Or.inr ⟨u, hid, ?_, hmembers⟩
      rw [Tables.maxMembers, horgs, List.find?_cons_of_pos (by simp [newOrg])]
      rfl
    · refine Or.inl ?_
      rw [Tables.maxMembers, horgs, List.find?_cons_of_neg (by simp [newOrg, hsame])]
      rfl

/-! ### Invitations -/

/-- An invitation that is out after a change of status to another than `pending` was so before. -/
theorem isOut_setInvitationStatus {t : Tables} {p : InvitationRow → Bool}
    {status : InvitationStatus} {v : InvitationRow} {now : ℕ}
    (hv : v ∈ (t.setInvitationStatus p status).invitations) (hout : v.isOut orgId now = true)
    (hstatus : status ≠ .pending) : v ∈ t.invitations := by
  obtain ⟨w, hw, rfl⟩ := List.mem_map.mp hv
  split
  · rename_i hp
    have hpending := (of_decide_eq_true hout).2.1
    rw [if_pos hp] at hpending
    exact absurd hpending hstatus
  · exact hw

/-- An acceptance sends no invitation. -/
theorem invitation_accept {token : String} {pc pc' : AcceptPc} {v : InvitationRow} {now : ℕ}
    (h : acceptNext cfg s d token pc = some (s', pc')) (hv : v ∈ s'.primary.invitations)
    (hout : v.isOut orgId now = true) : v ∈ s.primary.invitations := by
  cases pc with
  | expire w | mark w u b =>
    obtain ⟨rfl, -⟩ := Prod.mk.inj (Option.some.inj h)
    rw [setInvitation_primary] at hv
    exact isOut_setInvitationStatus hv hout InvitationStatus.noConfusion
  | createUser w =>
    rw [acceptNext] at h
    split at h <;> (obtain ⟨rfl, -⟩ := Prod.mk.inj (Option.some.inj h); exact hv)
  | membership w u b =>
    rw [acceptNext] at h
    split at h
    · rename_i t ht
      obtain ⟨rfl, -⟩ := Prod.mk.inj (Option.some.inj h)
      have hsame : t.invitations = s.primary.invitations := (Tables.createMembership_spec ht).2.1
      rw [← hsame]
      exact hv
    · obtain ⟨rfl, -⟩ := Prod.mk.inj (Option.some.inj h)
      exact hv
  | insert m =>
    rw [acceptNext] at h
    split at h <;> (obtain ⟨rfl, -⟩ := Prod.mk.inj (Option.some.inj h); exact hv)
  | returned _ _ | threw _ | failed => cases h
  | _ =>
    obtain ⟨rfl, -⟩ := Prod.mk.inj (Option.some.inj h)
    exact hv

/-- A route sends one to its guest only. -/
theorem invitation_route {caller : Caller} {o : String} {action : Action} {pc pc' : RoutePc}
    {v : InvitationRow} {now : ℕ} (h : routeNext cfg s d caller o action pc = some (s', pc'))
    (hv : v ∈ s'.primary.invitations) (hout : v.isOut orgId now = true) :
    v ∈ s.primary.invitations
      ∨ v.email ∈ Call.guest orgId (.route caller o action pc) := by
  cases pc with
  | context pc =>
    obtain ⟨pc', hpc, -⟩ := pc_of_next h
    obtain ⟨sessions, rfl⟩ := context_store hpc
    exact Or.inl hv
  | insertInvitation email role expiresAt =>
    rw [routeNext] at h
    split at h
    · rename_i t ht
      obtain ⟨rfl, -⟩ := Prod.mk.inj (Option.some.inj h)
      unfold Tables.insertInvitation at ht
      split at ht
      · obtain rfl := Option.some.inj ht
        rcases List.mem_cons.mp hv with rfl | hv
        · exact Or.inr (if_pos (of_decide_eq_true hout).1)
        · exact Or.inl hv
      · cases ht
    · obtain ⟨rfl, -⟩ := Prod.mk.inj (Option.some.inj h)
      exact Or.inl hv
  | revoke id =>
    obtain ⟨rfl, -⟩ := Prod.mk.inj (Option.some.inj h)
    rw [setInvitation_primary] at hv
    exact Or.inl (isOut_setInvitationStatus hv hout InvitationStatus.noConfusion)
  | returned | threw _ | failed => cases h
  | _ =>
    obtain ⟨rfl, -⟩ := Prod.mk.inj (Option.some.inj h)
    exact Or.inl hv

/-- **An invitation that is out was out**, or is sent just now. -/
theorem invitation_next {v : InvitationRow} {now : ℕ} (h : next cfg s c d = some (s', c'))
    (hv : v ∈ s'.primary.invitations) (hout : v.isOut orgId now = true) :
    v ∈ s.primary.invitations ∨ v.email ∈ c.guest orgId := by
  cases c with
  | createOrg u slug pc =>
    obtain ⟨pc', hpc, -⟩ := pc_of_next h
    rcases create_store hpc with rfl | ⟨t, ht, rfl⟩
    · exact Or.inl hv
    · unfold Tables.createOrg at ht
      split at ht
      · obtain rfl := Option.some.inj ht
        exact Or.inl hv
      · cases ht
  | accept token pc =>
    obtain ⟨pc', hpc, -⟩ := pc_of_next h
    exact Or.inl (invitation_accept hpc hv hout)
  | route caller o action pc =>
    obtain ⟨pc', hpc, -⟩ := pc_of_next h
    exact invitation_route hpc hv hout
  | cleanup pc =>
    obtain ⟨pc', hpc, -⟩ := pc_of_next h
    cases pc with
    | expire =>
      obtain ⟨rfl, -⟩ := Prod.mk.inj (Option.some.inj hpc)
      exact Or.inl (isOut_setInvitationStatus hv hout InvitationStatus.noConfusion)
    | returned => cases hpc

/-! ### Guests -/

/-- The invite to `email` goes on: it has counted fewer members than the limit it has read. -/
def Call.passes (s : Store) (orgId email : String) (c : Call) : Prop :=
  ∃ caller action role org, c = .route caller orgId action (.count email role org)
    ∧ s.replica.countActiveMembers orgId < org.maxMembers

/-- An acceptance has a guest by its invitation. -/
theorem guest_accept {token : String} {pc pc' : AcceptPc}
    (h : acceptNext cfg s d token pc = some (s', pc'))
    (hguest : email ∈ Call.guest orgId (.accept token pc')) :
    email ∈ Call.guest orgId (.accept token pc)
      ∨ ∃ v ∈ s.primary.invitations, v.isOut orgId s.now = true ∧ v.email = email := by
  cases pc with
  | find =>
    obtain ⟨-, rfl⟩ := Prod.mk.inj (Option.some.inj h)
    unfold AcceptPc.found at hguest
    split at hguest
    · cases hguest
    · rename_i v hv
      split at hguest
      · cases hguest
      · rename_i hpending
        split at hguest
        · cases hguest
        · rename_i hexpired
          obtain ⟨horg, hemail⟩ := Option.ite_none_right_eq_some.mp hguest
          refine Or.inr ⟨v, List.mem_of_find?_eq_some hv, ?_, Option.some.inj hemail⟩
          exact decide_eq_true ⟨horg, not_not.mp hpending, hexpired⟩
  | findUser v =>
    obtain ⟨-, rfl⟩ := Prod.mk.inj (Option.some.inj h)
    split at hguest <;> exact Or.inl hguest
  | createUser v =>
    rw [acceptNext] at h
    split at h
    · obtain ⟨-, rfl⟩ := Prod.mk.inj (Option.some.inj h)
      exact Or.inl hguest
    · obtain ⟨-, rfl⟩ := Prod.mk.inj (Option.some.inj h)
      cases hguest
  | preferences v u | provider v u =>
    obtain ⟨-, rfl⟩ := Prod.mk.inj (Option.some.inj h)
    exact Or.inl hguest
  | membership v u b | insert m =>
    rw [acceptNext] at h
    split at h <;> (obtain ⟨-, rfl⟩ := Prod.mk.inj (Option.some.inj h); cases hguest)
  | returned _ _ | threw _ | failed => cases h
  | _ =>
    obtain ⟨-, rfl⟩ := Prod.mk.inj (Option.some.inj h)
    cases hguest

/-- A route has a guest when its invite passes the check. -/
theorem guest_route {caller : Caller} {o : String} {action : Action} {pc pc' : RoutePc}
    (h : routeNext cfg s d caller o action pc = some (s', pc'))
    (hguest : email ∈ Call.guest orgId (.route caller o action pc')) :
    email ∈ Call.guest orgId (.route caller o action pc)
      ∨ Call.passes s orgId email (.route caller o action pc) := by
  cases pc with
  | context pc =>
    obtain ⟨pc', -, rfl⟩ := pc_of_next h
    unfold RoutePc.ofContext at hguest
    split at hguest
    · unfold Action.admitted at hguest
      split at hguest
      · cases hguest
      · split at hguest
        · cases hguest
        · split at hguest <;> cases hguest
    · cases hguest
    · cases hguest
  | findOrg e role =>
    obtain ⟨-, rfl⟩ := Prod.mk.inj (Option.some.inj h)
    unfold RoutePc.inviting at hguest
    split at hguest
    · cases hguest
    · split at hguest <;> cases hguest
  | count e role org =>
    obtain ⟨-, rfl⟩ := Prod.mk.inj (Option.some.inj h)
    split at hguest
    · cases hguest
    · rename_i hfree
      obtain ⟨rfl, hemail⟩ := Option.ite_none_right_eq_some.mp hguest
      obtain rfl := Option.some.inj hemail
      exact Or.inr ⟨caller, action, role, org, rfl, Nat.lt_of_not_le hfree⟩
  | pending e role =>
    obtain ⟨-, rfl⟩ := Prod.mk.inj (Option.some.inj h)
    split at hguest
    · cases hguest
    · exact Or.inl hguest
  | insertInvitation e role expiresAt =>
    rw [routeNext] at h
    split at h <;> (obtain ⟨-, rfl⟩ := Prod.mk.inj (Option.some.inj h); cases hguest)
  | updateRole u role | revoke id =>
    obtain ⟨-, rfl⟩ := Prod.mk.inj (Option.some.inj h)
    split at hguest <;> cases hguest
  | remove u | outbox =>
    obtain ⟨-, rfl⟩ := Prod.mk.inj (Option.some.inj h)
    cases hguest
  | returned | threw _ | failed => cases h

/-- **The guest of a call** was its guest, or has an invitation that is out, or its invite has just
passed the check. -/
theorem guest_next (h : next cfg s c d = some (s', c')) (hguest : email ∈ c'.guest orgId) :
    email ∈ c.guest orgId
      ∨ (∃ v ∈ s.primary.invitations, v.isOut orgId s.now = true ∧ v.email = email)
      ∨ c.passes s orgId email := by
  cases c with
  | createOrg u slug pc =>
    obtain ⟨pc', -, rfl⟩ := pc_of_next h
    cases hguest
  | accept token pc =>
    obtain ⟨pc', hpc, rfl⟩ := pc_of_next h
    exact (guest_accept hpc hguest).imp_right Or.inl
  | route caller o action pc =>
    obtain ⟨pc', hpc, rfl⟩ := pc_of_next h
    exact (guest_route hpc hguest).imp_right Or.inr
  | cleanup pc =>
    obtain ⟨pc', -, rfl⟩ := pc_of_next h
    cases hguest

/-! ### Who accepts -/

theorem Call.Known.of_next (h : next cfg s c d = some (s', c')) (hk : k.Known cfg orgId s) :
    k.Known cfg orgId s' := by
  unfold Call.Known at hk ⊢
  split
  case h_4 => trivial
  all_goals exact fun horg => (grown_next h).account _ _ (hk horg)

/-- An acceptance goes on for who has the email. -/
theorem known_accept {token : String} {pc pc' : AcceptPc}
    (h : acceptNext cfg s d token pc = some (s', pc'))
    (hshown : Call.shown cfg orgId s (.accept token pc) = true)
    (hk : Call.Known cfg orgId s (.accept token pc)) :
    Call.Known cfg orgId s' (.accept token pc') := by
  cases pc with
  | find =>
    obtain ⟨-, rfl⟩ := Prod.mk.inj (Option.some.inj h)
    unfold AcceptPc.found
    split
    · trivial
    · split
      · trivial
      · split <;> trivial
  | findUser v =>
    obtain ⟨rfl, rfl⟩ := Prod.mk.inj (Option.some.inj h)
    split
    · rename_i user huser
      intro horg
      have hsame := of_decide_eq_true hshown horg
      rw [huser] at hsame
      exact hsame.symm
    · trivial
  | createUser v =>
    rw [acceptNext] at h
    split at h
    · rename_i l hl
      obtain ⟨rfl, rfl⟩ := Prod.mk.inj (Option.some.inj h)
      exact fun _ => account_created hl
    · obtain ⟨-, rfl⟩ := Prod.mk.inj (Option.some.inj h)
      trivial
  | preferences v u | provider v u =>
    obtain ⟨rfl, rfl⟩ := Prod.mk.inj (Option.some.inj h)
    exact hk
  | membership v u b | insert m =>
    rw [acceptNext] at h
    split at h <;> (obtain ⟨-, rfl⟩ := Prod.mk.inj (Option.some.inj h); trivial)
  | returned _ _ | threw _ | failed => cases h
  | _ =>
    obtain ⟨-, rfl⟩ := Prod.mk.inj (Option.some.inj h)
    trivial

/-- An acceptance goes on for the user who has the email, statement by statement. -/
theorem known_next (h : next cfg s c d = some (s', c')) (hshown : c.shown cfg orgId s = true)
    (hk : c.Known cfg orgId s) : c'.Known cfg orgId s' := by
  cases c with
  | createOrg u slug pc =>
    obtain ⟨pc', -, rfl⟩ := pc_of_next h
    trivial
  | accept token pc =>
    obtain ⟨pc', hpc, rfl⟩ := pc_of_next h
    exact known_accept hpc hshown hk
  | route caller o action pc =>
    obtain ⟨pc', -, rfl⟩ := pc_of_next h
    trivial
  | cleanup pc =>
    obtain ⟨pc', -, rfl⟩ := pc_of_next h
    trivial

/-- **A seat that is taken was taken**, or an invite has just passed the check, or the organisation
is new. -/
theorem taken_next {x : Seat} (h : next cfg s c d = some (s', c')) (hk : c.Known cfg orgId s)
    (hx : x ∈ s'.taken cfg orgId
      ∨ ∃ email ∈ c'.guest orgId, s'.seat (cfg.normalizeEmail email) = x) :
    (∃ y, (y ∈ s.taken cfg orgId
        ∨ ∃ email ∈ c.guest orgId, s.seat (cfg.normalizeEmail email) = y) ∧ y.carry s' = x)
      ∨ (∃ email, c.passes s orgId email ∧ (s.seat (cfg.normalizeEmail email)).carry s' = x)
      ∨ ∃ userId, FoundedBy s s' orgId userId ∧ x = .user userId := by
  have hinvited : ∀ v ∈ s.primary.invitations, v.isOut orgId s.now = true →
      s.seat (cfg.normalizeEmail v.email) ∈ s.taken cfg orgId := fun v hv hout =>
    List.mem_append_right _ (List.mem_map_of_mem (List.mem_filter.mpr ⟨hv, hout⟩))
  rcases hx with hx | ⟨email, hguest, rfl⟩
  · rcases List.mem_append.mp hx with hx | hx
    · obtain ⟨m, hm, rfl⟩ := List.mem_map.mp hx
      obtain ⟨hmem, hactive⟩ := List.mem_filter.mp hm
      rcases member_next h hmem hactive with
        ⟨m₀, hm₀, hold, huser⟩ | ⟨token, v, b, rfl, horg⟩ | hfounded
      · refine Or.inl ⟨.user m₀.userId, Or.inl (List.mem_append_left _ ?_), by rw [huser]; rfl⟩
        exact List.mem_map_of_mem (List.mem_filter.mpr ⟨hm₀, hold⟩)
      · -- who accepts had the seat of the email
        refine Or.inl ⟨.user m.userId, Or.inr ⟨v.email, if_pos horg, ?_⟩, rfl⟩
        rw [Store.seat, show s.account (cfg.normalizeEmail v.email) = some m.userId from hk horg]
      · exact Or.inr (Or.inr ⟨m.userId, hfounded, rfl⟩)
    · obtain ⟨v, hv, rfl⟩ := List.mem_map.mp hx
      obtain ⟨hmem, hout⟩ := List.mem_filter.mp hv
      rw [(grown_next h).now] at hout
      refine Or.inl ⟨s.seat (cfg.normalizeEmail v.email), ?_, carry_seat h _⟩
      exact (invitation_next h hmem hout).imp (fun hold => hinvited v hold hout) fun hguest =>
        ⟨v.email, hguest, rfl⟩
  · rcases guest_next h hguest with hold | ⟨v, hv, hout, rfl⟩ | hpasses
    · exact Or.inl ⟨_, Or.inr ⟨email, hold, rfl⟩, carry_seat h _⟩
    · exact Or.inl ⟨_, Or.inl (hinvited v hv hout), carry_seat h _⟩
    · exact Or.inr (Or.inl ⟨email, hpasses, carry_seat h _⟩)

end Steps

/-! ## Members and seats -/

/-- Every active member has a seat of his own. -/
theorem countActive_le_card {t : Tables} {orgId : String} {seats : Finset Seat}
    (h : ∀ m ∈ t.memberships, m.activeIn orgId = true → .user m.userId ∈ seats) :
    t.countActiveMembers orgId ≤ seats.card := by
  have hkeys : (t.memberships.filter (·.activeIn orgId)).filterMap (·.liveKey)
      = (t.memberships.filter (·.activeIn orgId)).map fun m => (orgId, m.userId) := by
    rw [← List.filterMap_eq_map]
    refine List.filterMap_congr fun m hm => ?_
    obtain ⟨horg, -, hlive⟩ := activeIn_iff.mp (List.mem_filter.mp hm).2
    exact MembershipRow.isOf_iff_liveKey.mp (isOf_iff.mpr ⟨horg, rfl, hlive⟩)
  have hnodup : ((t.memberships.filter (·.activeIn orgId)).map
      fun m => Seat.user m.userId).Nodup := by
    have hsub : ((t.memberships.filter (·.activeIn orgId)).filterMap (·.liveKey)).Sublist
        (t.memberships.filterMap (·.liveKey)) := List.filter_sublist.filterMap _
    have hpairs := t.live_nodup.sublist hsub
    rw [hkeys] at hpairs
    rw [List.nodup_iff_pairwise_ne, List.pairwise_map] at hpairs ⊢
    exact hpairs.imp fun hne heq => hne (congrArg (Prod.mk orgId) (Seat.user.inj heq))
  rw [Tables.countActiveMembers, List.countP_eq_length_filter,
    ← List.length_map (fun m => Seat.user m.userId), ← List.toFinset_card_of_nodup hnodup]
  refine Finset.card_le_card fun x hx => ?_
  obtain ⟨m, hm, rfl⟩ := List.mem_map.mp (List.mem_toFinset.mp hx)
  exact h m (List.mem_filter.mp hm).1 (List.mem_filter.mp hm).2

/-- The limit that is read is that of the organisation's row. -/
theorem maxMembers_of_mem {t : Tables} {org : OrgRow} (horg : org ∈ t.orgs) :
    t.maxMembers org.id = org.maxMembers := by
  have hfind : t.orgs.find? (·.id = org.id) = some org := by
    cases hfound : t.orgs.find? (·.id = org.id) with
    | none =>
      exact absurd (decide_eq_true rfl) (List.find?_eq_none.mp hfound org horg)
    | some org' =>
      have hid := List.find?_some hfound
      exact congrArg some (List.inj_on_of_nodup_map t.ids_nodup (List.mem_of_find?_eq_some hfound)
        horg (of_decide_eq_true hid))
  rw [Tables.maxMembers, hfind]
  rfl

theorem maxMembers_of_new {t : Tables} {orgId : String} (h : orgId ∉ t.orgs.map (·.id)) :
    t.maxMembers orgId = 0 := by
  have hnone : t.orgs.find? (·.id = orgId) = none :=
    List.find?_eq_none.mpr fun org horg hid =>
      h (of_decide_eq_true hid ▸ List.mem_map_of_mem horg)
  rw [Tables.maxMembers, hnone]
  rfl

/-- **The check of an invite**: one that goes on has counted fewer members than the limit. -/
theorem lt_maxMembers_of_passes {cfg : Config} {orgId email : String} {s : Store} {c : Call}
    (hshown : c.shown cfg orgId s = true) (h : c.passes s orgId email) :
    orgId ∈ s.primary.orgs.map (·.id) ∧ c.invitee orgId = some email
      ∧ s.primary.countActiveMembers orgId < s.primary.maxMembers orgId := by
  obtain ⟨caller, action, role, org, rfl, hlt⟩ := h
  obtain ⟨hcount, hany⟩ := of_decide_eq_true hshown rfl
  obtain ⟨row, hrow, hsame⟩ := List.any_eq_true.mp hany
  obtain ⟨rfl, hmax⟩ := of_decide_eq_true hsame
  refine ⟨List.mem_map_of_mem hrow, if_pos rfl, ?_⟩
  rw [maxMembers_of_mem hrow, hmax, ← hcount]
  exact hlt

/-! ## Runs -/

section Runs

variable {ι : Type*} {cfg : Config} {orgId : String} {p : Calls ι}

/-- The seats are within the limit, and acceptances go on for who has the email. -/
structure Seated (cfg : Config) (orgId : String) (p : Calls ι) : Prop where
  seats : Fit cfg orgId p none
  known : ∀ i, (p.calls i).Keeps (Call.Known cfg orgId p.store)

theorem Seated.within (h : Seated cfg orgId p) : p.store.primary.Within orgId := by
  rintro org horg rfl
  obtain ⟨seats, hcard, htaken⟩ := h.seats
  rw [maxMembers_of_mem horg] at hcard
  refine (countActive_le_card fun m hm hactive => htaken _ (Or.inl (Or.inl ?_))).trans hcard
  exact List.mem_append_left _ (List.mem_map_of_mem (List.mem_filter.mpr ⟨hm, hactive⟩))

variable [DecidableEq ι] {i : ι} {d : Draw} {c c' : Call} {s' : Store}

/-- Where every seat has gone, or come from, in one move. -/
theorem taken_move {x : Seat} (hk : c.Known cfg orgId p.store) (hi : p.calls i = .up c)
    (hn : next cfg p.store c d = some (s', c'))
    (hx : Taken cfg orgId ⟨s', Function.update p.calls i (.up c')⟩ x) :
    (∃ y, Taken cfg orgId p y ∧ y.carry s' = x)
      ∨ (∃ email, c.passes p.store orgId email
        ∧ (p.store.seat (cfg.normalizeEmail email)).carry s' = x)
      ∨ ∃ userId, FoundedBy p.store s' orgId userId ∧ x = .user userId := by
  have hown : (x ∈ s'.taken cfg orgId
      ∨ ∃ email ∈ c'.guest orgId, s'.seat (cfg.normalizeEmail email) = x) →
      (∃ y, Taken cfg orgId p y ∧ y.carry s' = x)
        ∨ (∃ email, c.passes p.store orgId email
          ∧ (p.store.seat (cfg.normalizeEmail email)).carry s' = x)
        ∨ ∃ userId, FoundedBy p.store s' orgId userId ∧ x = .user userId := by
    refine fun hx => (taken_next hn hk hx).imp_left ?_
    rintro ⟨y, hy | ⟨email, hguest, hseat⟩, hcarry⟩
    · exact ⟨y, Or.inl hy, hcarry⟩
    · exact ⟨y, Or.inr ⟨i, email, by rw [hi]; exact hguest, hseat⟩, hcarry⟩
  rcases hx with hx | ⟨j, email, hguest, hseat⟩
  · exact hown (Or.inl hx)
  · rcases update_cases (fun call => email ∈ guestOf orgId call) hguest with ⟨-, hself⟩ | ⟨-, hother⟩
    · exact hown (Or.inr ⟨email, hself, hseat⟩)
    · exact Or.inl ⟨_, Or.inr ⟨j, email, hother, rfl⟩, (carry_seat hn _).trans hseat⟩

/-- A statement of a call takes a seat only where there is one. -/
theorem Seated.run (h : Seated cfg orgId p) (hG : Counted cfg orgId p (.run i d))
    (hi : p.calls i = .up c) (hn : next cfg p.store c d = some (s', c')) :
    Seated cfg orgId ⟨s', Function.update p.calls i (.up c')⟩ := by
  obtain ⟨hshown, hcounted⟩ := Proc.Keeps.of_up hG hi
  have hk := (h.known i).of_up hi
  refine ⟨?_, keeps_update_up (known_next hn hshown hk) fun j _ =>
    (h.known j).imp fun k hk => hk.of_next hn⟩
  have hlimit : s'.primary.maxMembers orgId = p.store.primary.maxMembers orgId
      ∨ ∃ userId, FoundedBy p.store s' orgId userId := maxMembers_next hn
  rcases hlimit with hmax | ⟨founder, hfounded⟩
  · have hnot : ∀ userId, ¬ FoundedBy p.store s' orgId userId := by
      rintro userId ⟨hnew, hfive, -⟩
      rw [hmax, maxMembers_of_new hnew] at hfive
      cases hfive
    by_cases hpasses : ∃ email, c.passes p.store orgId email
    · -- the seats that are taken, and the one there was for the guest
      obtain ⟨email, hpass⟩ := hpasses
      obtain ⟨-, hinvitee, hlt⟩ := lt_maxMembers_of_passes hshown hpass
      obtain ⟨seats, hcard, htaken⟩ := hcounted (by rw [hinvitee]; exact nofun) hlt
      refine ⟨seats.image (Seat.carry s'), ?_, fun x hx => ?_⟩
      · rw [hmax]
        exact Finset.card_image_le.trans hcard
      · rcases taken_move hk hi hn (hx.resolve_right nofun) with
          ⟨y, hy, rfl⟩ | ⟨email', hpass', rfl⟩ | ⟨userId, hfounded, -⟩
        · exact Finset.mem_image_of_mem _ (htaken y (Or.inl hy))
        · have hsame := (lt_maxMembers_of_passes hshown hpass').2.1
          exact Finset.mem_image_of_mem _ (htaken _ (Or.inr (by rw [hsame]; rfl)))
        · exact absurd hfounded (hnot userId)
    · obtain ⟨seats, hcard, htaken⟩ := h.seats
      refine ⟨seats.image (Seat.carry s'), ?_, fun x hx => ?_⟩
      · rw [hmax]
        exact Finset.card_image_le.trans hcard
      · rcases taken_move hk hi hn (hx.resolve_right nofun) with
          ⟨y, hy, rfl⟩ | ⟨email, hpass, -⟩ | ⟨userId, hfounded, -⟩
        · exact Finset.mem_image_of_mem _ (htaken y (Or.inl hy))
        · exact absurd ⟨email, hpass⟩ hpasses
        · exact absurd hfounded (hnot userId)
  · -- the organisation is new: no seat was taken, and its founder takes the first of five
    obtain ⟨seats, hcard, htaken⟩ := h.seats
    rw [maxMembers_of_new hfounded.1, Nat.le_zero, Finset.card_eq_zero] at hcard
    subst hcard
    refine ⟨{.user founder}, ?_, fun x hx => ?_⟩
    · rw [Finset.card_singleton, hfounded.2.1]
      decide
    · rcases taken_move hk hi hn (hx.resolve_right nofun) with
        ⟨y, hy, -⟩ | ⟨email, hpass, -⟩ | ⟨userId, hagain, rfl⟩
      · exact absurd (htaken y (Or.inl hy)) (Finset.notMem_empty y)
      · exact absurd (lt_maxMembers_of_passes hshown hpass).1 hfounded.1
      · have hrows := hagain.2.2.symm.trans hfounded.2.2
        have hfirst := (List.cons.inj hrows).1
        have huser : userId = founder := congrArg (fun m : MembershipRow => m.userId) hfirst
        rw [huser]
        exact Finset.mem_singleton_self _

omit [DecidableEq ι] in
/-- Time and replication take no seat. -/
theorem Seated.env (h : Seated cfg orgId p) (e : Env) :
    Seated cfg orgId ⟨env p.store e, p.calls⟩ := by
  have hseat : ∀ email, (Organization.env p.store e).seat email = p.store.seat email := by
    cases e <;> exact fun _ => rfl
  have haccount : ∀ email,
      (Organization.env p.store e).account email = p.store.account email := by
    cases e <;> exact fun _ => rfl
  have hnow : p.store.now ≤ (Organization.env p.store e).now := by
    cases e with
    | tick ms => exact Nat.le_add_right _ _
    | replicate => exact le_rfl
  obtain ⟨seats, hcard, htaken⟩ := h.seats
  refine ⟨⟨seats, by rwa [env_primary], fun x hx => htaken x (hx.imp_left ?_)⟩, fun i => ?_⟩
  · rintro (hx | ⟨i, email, hguest, hx⟩)
    · refine Or.inl ?_
      rcases List.mem_append.mp hx with hx | hx
      · rw [env_primary] at hx
        exact List.mem_append_left _ hx
      · obtain ⟨v, hv, rfl⟩ := List.mem_map.mp hx
        obtain ⟨hmem, hout⟩ := List.mem_filter.mp hv
        obtain ⟨horg, hpending, hlive⟩ := of_decide_eq_true hout
        rw [env_primary] at hmem
        rw [hseat]
        refine List.mem_append_right _ (List.mem_map_of_mem (List.mem_filter.mpr ⟨hmem, ?_⟩))
        exact decide_eq_true ⟨horg, hpending, fun hover => hlive (lt_of_lt_of_le hover hnow)⟩
    · exact Or.inr ⟨i, email, hguest, (hseat _).symm.trans hx⟩
  · refine (h.known i).imp fun k hk => ?_
    unfold Call.Known at hk ⊢
    split
    case h_4 => trivial
    all_goals exact fun horg => (haccount _).trans (hk horg)

/-- A crash takes no seat. -/
theorem Seated.crash (h : Seated cfg orgId p) :
    Seated cfg orgId ⟨p.store, Function.update p.calls i (.down c)⟩ := by
  obtain ⟨seats, hcard, htaken⟩ := h.seats
  refine ⟨⟨seats, hcard, fun x hx => htaken x (hx.imp_left (Or.imp_right ?_))⟩,
    keeps_update_down h.known⟩
  rintro ⟨j, email, hguest, hx⟩
  rcases update_cases (fun call => email ∈ guestOf orgId call) hguest with ⟨-, hself⟩ | ⟨-, hother⟩
  · cases hself
  · exact ⟨j, email, hother, hx⟩

/-- **Within the limit**, in every state of every run in which every invite has a seat for its
guest, from a state in which the seats are within the limit. -/
theorem within_limit {q : Calls ι} (hstart : ∀ i, (p.calls i).Live fun c => c.fresh)
    (hseats : Fit cfg orgId p none)
    (hrun : Run (Pool.step (orgMachine cfg)) (Counted cfg orgId) p q) :
    q.store.primary.Within orgId := by
  refine Seated.within (Pool.invariant (I := Seated cfg orgId) ⟨hseats, fun i => ?_⟩
    (fun p i d c s' c' h hG hi hn => h.run hG hi hn) (fun p i c h _ _ => h.crash)
    (fun p e h _ => h.env e) hrun)
  obtain ⟨c, hc, hfresh⟩ := (hstart i).exists
  rw [hc]
  unfold Call.fresh at hfresh
  split at hfresh <;> trivial

end Runs

/-! ### Counting the seats of a finite pool -/

section Deciding

variable {ι : Type*} [Fintype ι] (cfg : Config) (orgId : String)

/-- The seats that are taken. -/
def takenSeats (p : Calls ι) : Finset Seat :=
  (p.store.taken cfg orgId).toFinset ∪ Finset.univ.biUnion fun i =>
    ((guestOf orgId (p.calls i)).map fun email =>
      p.store.seat (cfg.normalizeEmail email)).toFinset

theorem mem_takenSeats_union {p : Calls ι} {guest : Option Seat} {x : Seat} :
    x ∈ takenSeats cfg orgId p ∪ guest.toFinset ↔ Taken cfg orgId p x ∨ x ∈ guest := by
  simp [takenSeats, Taken, or_assoc]

instance (p : Calls ι) (guest : Option Seat) : Decidable (Fit cfg orgId p guest) :=
  decidable_of_iff ((takenSeats cfg orgId p ∪ guest.toFinset).card ≤ p.store.primary.maxMembers orgId)
    ⟨fun h => ⟨_, h, fun _ hx => (mem_takenSeats_union cfg orgId).mpr hx⟩,
      fun ⟨_, hcard, htaken⟩ => (Finset.card_le_card fun x hx =>
        htaken x ((mem_takenSeats_union cfg orgId).mp hx)).trans hcard⟩

instance (p : Calls ι) : ∀ m : Move ι Draw Env, Decidable (Counted cfg orgId p m)
  | .run i _ => inferInstanceAs (Decidable ((p.calls i).Keeps fun c =>
      c.shown cfg orgId p.store = true ∧ (c.invitee orgId ≠ none →
        p.store.primary.countActiveMembers orgId < p.store.primary.maxMembers orgId →
          Fit cfg orgId p
            ((c.invitee orgId).map fun email => p.store.seat (cfg.normalizeEmail email)))))
  | .crash _ => inferInstanceAs (Decidable True)
  | .env _ => inferInstanceAs (Decidable True)

end Deciding

/-! ## The last seat -/

/-- The organisation `o` with its owner `w` and three members: one of five seats is left. -/
def oneSeatLeft : Tables where
  orgs := [newOrg "o" "slug"]
  memberships := ⟨⟨"w", "o", .orgOwner, .active⟩, false⟩
    :: ["a", "b", "c"].map fun userId => ⟨⟨userId, "o", .member, .active⟩, false⟩
  invitations := []
  ids_nodup := ids_newOrg_nodup "o" "slug"
  slugs_nodup := slugs_newOrg_nodup "o" "slug"
  live_nodup := by decide
  hashes_nodup := List.nodup_nil
  invitations_nodup := List.nodup_nil
  members_org := by decide
  invitations_org := by decide

/-- The owner invites to `email`. -/
def inviting (email : String) : Call :=
  .route ⟨"w", "o", false⟩ "o" (.invite email ⟨.member, member_ne_orgOwner⟩) (.context .get)

/-- Two invitations, and their acceptances. -/
def invitedTwice : Calls (Fin 4) :=
  ⟨demoStore oneSeatLeft, ![.up (inviting "u@x"), .up (inviting "v@x"), .up (.accept "u@x" .find),
    .up (.accept "v@x" .find)]⟩

theorem oneSeatLeft_within : oneSeatLeft.Within "o" := by
  intro org horg _
  obtain rfl : org = newOrg "o" "slug" := List.mem_singleton.mp horg
  decide

/-- An invitation is sent, and `u@x`, who has an account, joins. -/
def firstInvited : List (Move (Fin 4) Draw Env) := List.replicate 7 (.run 0 (drawn "i"))

def firstJoins : List (Move (Fin 4) Draw Env) := List.replicate 3 (.run 2 (drawn ""))

/-- **The last seat is taken twice**: one seat is left when either invitation is sent (the second
request finds its context cached), and both are accepted. -/
theorem last_seat_taken_twice :
    (∀ i, (invitedTwice.calls i).Live fun c => c.fresh) ∧ invitedTwice.store.primary.Within "o"
      ∧ ∃ q, Run (Pool.step (orgMachine demoConfig)) anyStep invitedTwice q
        ∧ newOrg "o" "slug" ∈ q.store.primary.orgs ∧ q.store.primary.countActiveMembers "o" = 6
        ∧ ¬ q.store.primary.Within "o" := by
  refine ⟨by decide, oneSeatLeft_within, ?_⟩
  obtain ⟨q, hq, h⟩ := exists_run_of_exec (Pool.step (orgMachine demoConfig)) anyStep invitedTwice
    (List.flatten [firstInvited, List.replicate 5 (.run 1 (drawn "j")), firstJoins,
      List.replicate 6 (.run 3 (drawn "v"))])
    (fun q => newOrg "o" "slug" ∈ q.store.primary.orgs
      ∧ q.store.primary.countActiveMembers "o" = 6) (by decide)
  obtain ⟨horg, hsix⟩ := of_decide_eq_true h
  refine ⟨q, hq, horg, hsix, fun hwithin => ?_⟩
  have hle : q.store.primary.countActiveMembers "o" ≤ 5 := hwithin _ horg rfl
  rw [hsix] at hle
  exact absurd hle (by decide)

/-- The second invite counts when the first invitation has been accepted, and is refused. -/
theorem within_limit_of_one_accepted :
    ∃ q, Run (Pool.step (orgMachine demoConfig)) (Counted demoConfig "o") invitedTwice q
      ∧ q.store.primary.countActiveMembers "o" = 5 ∧ q.store.primary.Within "o" := by
  obtain ⟨q, hq, h⟩ := exists_run_of_exec (Pool.step (orgMachine demoConfig))
    (Counted demoConfig "o") invitedTwice
    (List.flatten [firstInvited, firstJoins, [.env .replicate],
      List.replicate 3 (.run 1 (drawn "j"))])
    (fun q => q.store.primary.countActiveMembers "o" = 5) (by decide)
  exact ⟨q, hq, of_decide_eq_true h, within_limit (by decide) (by decide) hq⟩

end WorkPlatform.Organization

import WorkPlatform.Organization.Calls

/-!
# Organization/Members — what a statement does to the members of an organisation

    createOrg          the organisation, with its creator as `org_owner`
    acceptInvitation   a membership, or the role and status of the one that is there
    role change        the role
    removal            the status, and `deleted_at`

`members_next` is the one place where the statements are gone through; the owner and the member
limit are read off it.
-/

namespace WorkPlatform.Organization

open Auth (Role)

/-! ## Writes -/

/-- What a statement does to the membership of a user. -/
inductive MemberWrite
  | join (role : GrantedRole)
  | setRole (role : GrantedRole)
  | remove

/-- The write on a row that is there. -/
def MemberWrite.row (orgId userId : String) : MemberWrite → MembershipRow → MembershipRow
  | join role => .rejoin orgId userId role
  | setRole role => .setRole orgId userId role
  | remove => .remove orgId userId

/-- The organisation and the user whose membership a call is about to write. -/
def Call.memberWrite : Call → Option (String × String × MemberWrite)
  | .accept _ (.membership v userId _) => some (v.orgId, userId, .join v.role)
  | .route _ orgId _ (.updateRole userId role) => some (orgId, userId, .setRole role)
  | .route _ orgId _ (.remove userId) => some (orgId, userId, .remove)
  | _ => none

/-- **What a statement does** to organisations and memberships, given the write it is about to
make. -/
inductive MembersStep (w : Option (String × String × MemberWrite)) (t t' : Tables) : Prop
  | same (horgs : t'.orgs = t.orgs) (hmembers : t'.memberships = t.memberships)
  | written {orgId userId : String} (write : MemberWrite) (hw : w = some (orgId, userId, write))
      (horgs : t'.orgs = t.orgs)
      (hmembers : t'.memberships = t.memberships.map (write.row orgId userId))
  | joined {orgId userId : String} {role : GrantedRole} (hw : w = some (orgId, userId, .join role))
      (horgs : t'.orgs = t.orgs) (hnew : t.memberships.any (·.isOf orgId userId) = false)
      (hmembers : t'.memberships = ⟨⟨userId, orgId, role.1, .active⟩, false⟩ :: t.memberships)
  | founded {id slug userId : String} (hid : id ∉ t.orgs.map (·.id))
      (horgs : t'.orgs = newOrg id slug :: t.orgs)
      (hmembers : t'.memberships = ⟨⟨userId, id, .orgOwner, .active⟩, false⟩ :: t.memberships)

theorem setInvitation_primary (s : Store) (id : String) (p : InvitationRow → Bool)
    (status : InvitationStatus) : (s.setInvitation id p status).primary
      = s.primary.setInvitationStatus (fun v => v.id = id ∧ p v) status := by
  unfold Store.setInvitation
  split
  · split <;> rfl
  · rfl

theorem setInvitation_login (s : Store) (id : String) (p : InvitationRow → Bool)
    (status : InvitationStatus) : (s.setInvitation id p status).login = s.login := by
  unfold Store.setInvitation
  split
  · split <;> rfl
  · rfl

section Steps

variable {cfg : Config} {s s' : Store} {d : Draw}

theorem createMembership_step {t t' : Tables} {orgId userId : String} {role : GrantedRole}
    (h : t.createMembership orgId userId role = some t') :
    MembersStep (some (orgId, userId, .join role)) t t' := by
  obtain ⟨horgs, -, ⟨hnew, hmembers⟩ | ⟨-, hmembers⟩⟩ := Tables.createMembership_spec h
  · exact .joined rfl horgs hnew hmembers
  · exact .written (.join role) rfl horgs hmembers

/-- A new organisation with its owner is a step of the members. -/
theorem createOrg_step {w : Option (String × String × MemberWrite)} {t t' : Tables}
    {id slug userId : String} (h : t.createOrg (newOrg id slug) userId = some t') :
    MembersStep w t t' := by
  unfold Tables.createOrg at h
  split at h
  case isTrue hnew =>
    obtain rfl := Option.some.inj h
    exact .founded hnew.1 rfl rfl
  case isFalse => cases h

/-- What a statement of an acceptance does to the members. -/
theorem members_accept {token : String} {pc pc' : AcceptPc}
    (h : acceptNext cfg s d token pc = some (s', pc')) :
    MembersStep (Call.memberWrite (.accept token pc)) s.primary s'.primary := by
  cases pc with
  | expire v | mark v userId isPlatformAdmin =>
    obtain ⟨rfl, -⟩ := Prod.mk.inj (Option.some.inj h)
    rw [setInvitation_primary]
    exact .same rfl rfl
  | createUser v =>
    rw [acceptNext] at h
    split at h <;> (obtain ⟨rfl, -⟩ := Prod.mk.inj (Option.some.inj h); exact .same rfl rfl)
  | membership v userId isPlatformAdmin =>
    rw [acceptNext] at h
    split at h
    case h_1 t ht =>
      obtain ⟨rfl, -⟩ := Prod.mk.inj (Option.some.inj h)
      exact createMembership_step ht
    case h_2 =>
      obtain ⟨rfl, -⟩ := Prod.mk.inj (Option.some.inj h)
      exact .same rfl rfl
  | insert m =>
    rw [acceptNext] at h
    split at h <;> (obtain ⟨rfl, -⟩ := Prod.mk.inj (Option.some.inj h); exact .same rfl rfl)
  | returned _ _ | threw _ | failed => cases h
  | _ =>
    obtain ⟨rfl, -⟩ := Prod.mk.inj (Option.some.inj h)
    exact .same rfl rfl

/-- The context of a route writes a session, and nothing else. -/
theorem context_store {caller : Caller} {orgId : String} {pc pc' : ContextPc}
    (h : contextNext s d caller orgId pc = some (s', pc')) :
    ∃ sessions, s' = { s with sessions := sessions } := by
  cases pc with
  | setex ctx =>
    obtain ⟨rfl, -⟩ := Prod.mk.inj (Option.some.inj h)
    split
    · exact ⟨_, rfl⟩
    · exact ⟨s.sessions, rfl⟩
  | resolved _ | threw _ => cases h
  | _ =>
    obtain ⟨rfl, -⟩ := Prod.mk.inj (Option.some.inj h)
    exact ⟨s.sessions, rfl⟩

/-- `createOrg` writes in its transaction, and nowhere else. -/
theorem create_store {userId slug : String} {pc pc' : CreatePc}
    (h : createNext s d userId slug pc = some (s', pc')) : s' = s ∨ ∃ t,
      s.primary.createOrg (newOrg d.newId slug) userId = some t ∧ s' = { s with primary := t } := by
  cases pc with
  | transaction =>
    rw [createNext] at h
    split at h
    case h_1 t ht =>
      obtain ⟨rfl, -⟩ := Prod.mk.inj (Option.some.inj h)
      exact Or.inr ⟨t, ht, rfl⟩
    case h_2 =>
      obtain ⟨rfl, -⟩ := Prod.mk.inj (Option.some.inj h)
      exact Or.inl rfl
  | returned | threw _ | failed => cases h
  | _ =>
    obtain ⟨rfl, -⟩ := Prod.mk.inj (Option.some.inj h)
    exact Or.inl rfl

theorem insertInvitation_step {w : Option (String × String × MemberWrite)} {t t' : Tables}
    {v : InvitationRow} (h : t.insertInvitation v = some t') : MembersStep w t t' := by
  unfold Tables.insertInvitation at h
  split at h
  · obtain rfl := Option.some.inj h
    exact .same rfl rfl
  · cases h

/-- What a statement of a route does to the members. -/
theorem members_route {caller : Caller} {orgId : String} {action : Action} {pc pc' : RoutePc}
    (h : routeNext cfg s d caller orgId action pc = some (s', pc')) :
    MembersStep (Call.memberWrite (.route caller orgId action pc)) s.primary s'.primary := by
  cases pc with
  | context pc =>
    obtain ⟨pc', hpc, -⟩ := Machinery.pc_of_next h
    obtain ⟨sessions, rfl⟩ := context_store hpc
    exact .same rfl rfl
  | updateRole userId role =>
    obtain ⟨rfl, -⟩ := Prod.mk.inj (Option.some.inj h)
    exact .written (.setRole role) rfl rfl rfl
  | remove userId =>
    obtain ⟨rfl, -⟩ := Prod.mk.inj (Option.some.inj h)
    exact .written .remove rfl rfl rfl
  | insertInvitation email role expiresAt =>
    rw [routeNext] at h
    split at h
    case h_1 t ht =>
      obtain ⟨rfl, -⟩ := Prod.mk.inj (Option.some.inj h)
      exact insertInvitation_step ht
    case h_2 =>
      obtain ⟨rfl, -⟩ := Prod.mk.inj (Option.some.inj h)
      exact .same rfl rfl
  | revoke invitationId =>
    obtain ⟨rfl, -⟩ := Prod.mk.inj (Option.some.inj h)
    rw [setInvitation_primary]
    exact .same rfl rfl
  | returned | threw _ | failed => cases h
  | _ =>
    obtain ⟨rfl, -⟩ := Prod.mk.inj (Option.some.inj h)
    exact .same rfl rfl

/-- No route touches the stores of `login`. -/
theorem route_login {caller : Caller} {orgId : String} {action : Action} {pc pc' : RoutePc}
    (h : routeNext cfg s d caller orgId action pc = some (s', pc')) : s'.login = s.login := by
  cases pc with
  | context pc =>
    obtain ⟨pc', hpc, -⟩ := Machinery.pc_of_next h
    obtain ⟨sessions, rfl⟩ := context_store hpc
    rfl
  | insertInvitation email role expiresAt =>
    rw [routeNext] at h
    split at h <;> (obtain ⟨rfl, -⟩ := Prod.mk.inj (Option.some.inj h); rfl)
  | revoke id =>
    obtain ⟨rfl, -⟩ := Prod.mk.inj (Option.some.inj h)
    exact setInvitation_login _ _ _ _
  | returned | threw _ | failed => cases h
  | _ =>
    obtain ⟨rfl, -⟩ := Prod.mk.inj (Option.some.inj h)
    rfl

/-- **One statement, seen from the members.** -/
theorem members_next {c c' : Call} (h : next cfg s c d = some (s', c')) :
    MembersStep c.memberWrite s.primary s'.primary := by
  cases c with
  | createOrg userId slug pc =>
    obtain ⟨pc', hpc, -⟩ := Machinery.pc_of_next h
    rcases create_store hpc with rfl | ⟨t, ht, rfl⟩
    · exact .same rfl rfl
    · exact createOrg_step ht
  | accept token pc =>
    obtain ⟨pc', hpc, -⟩ := Machinery.pc_of_next h
    exact members_accept hpc
  | route caller orgId action pc =>
    obtain ⟨pc', hpc, -⟩ := Machinery.pc_of_next h
    exact members_route hpc
  | cleanup pc =>
    obtain ⟨pc', hpc, -⟩ := Machinery.pc_of_next h
    cases pc with
    | expire =>
      obtain ⟨rfl, -⟩ := Prod.mk.inj (Option.some.inj hpc)
      exact .same rfl rfl
    | returned => cases hpc

end Steps

theorem env_primary (s : Store) (e : Env) : (env s e).primary = s.primary := by
  cases e <;> rfl

/-! ## Rows under a write -/

section Rows

variable {orgId userId : String} {m : MembershipRow}

theorem isOf_iff : m.isOf orgId userId = true
    ↔ m.orgId = orgId ∧ m.userId = userId ∧ m.deleted = false := by
  simp [MembershipRow.isOf]

theorem activeIn_iff {orgId : String} {m : MembershipRow} : m.activeIn orgId = true
    ↔ m.orgId = orgId ∧ m.status = .active ∧ m.deleted = false := by
  simp [MembershipRow.activeIn]

theorem ownerOf_iff {orgId : String} {m : MembershipRow} : m.ownerOf orgId = true
    ↔ m.activeIn orgId = true ∧ m.role = .orgOwner := by
  simp [MembershipRow.ownerOf]

/-- A write leaves every other membership as it is. -/
theorem MemberWrite.row_of_not (w : MemberWrite) (h : m.isOf orgId userId = false) :
    w.row orgId userId m = m := by
  cases w <;> simp [row, MembershipRow.rejoin, MembershipRow.setRole, MembershipRow.remove, h]

/-- Nothing that is written is an owner. -/
theorem MemberWrite.not_ownerOf (w : MemberWrite) (h : m.isOf orgId userId = true) (o : String) :
    (w.row orgId userId m).ownerOf o = false := by
  refine Bool.eq_false_iff.mpr fun howner => ?_
  obtain ⟨hactive, hrole⟩ := ownerOf_iff.mp howner
  cases w with
  | join role =>
    simp only [row, MembershipRow.rejoin, h, if_true] at hrole
    exact role.2 hrole
  | setRole role =>
    simp only [row, MembershipRow.setRole, h, if_true] at hrole
    exact role.2 hrole
  | remove =>
    simp only [row, MembershipRow.remove, h, if_true] at hactive
    exact Bool.noConfusion (activeIn_iff.mp hactive).2.2

/-- A user has one membership in an organisation. -/
theorem isOf_unique {t : Tables} {m' : MembershipRow} (hm : m ∈ t.memberships)
    (hm' : m' ∈ t.memberships) (h : m.isOf orgId userId = true) (h' : m'.isOf orgId userId = true) :
    m = m' := by
  by_contra hne
  have hpair := List.pairwise_filterMap.mp t.live_nodup
  have hsymm : Std.Symm fun m m' : MembershipRow => ∀ k, m.liveKey = some k →
      ∀ k', m'.liveKey = some k' → k ≠ k' :=
    ⟨fun _ _ hk k hkey k' hkey' heq => hk k' hkey' k hkey heq.symm⟩
  exact hpair.forall hm hm' hne _ (MembershipRow.isOf_iff_liveKey.mp h) _
    (MembershipRow.isOf_iff_liveKey.mp h') rfl

/-- `findMembership` finds the one membership there can be. -/
theorem findMembership_iff {t : Tables} : t.findMembership orgId userId = some m
    ↔ m ∈ t.memberships ∧ m.isOf orgId userId = true := by
  refine ⟨fun h => ⟨List.mem_of_find?_eq_some h, List.find?_some h⟩, fun ⟨hm, hof⟩ => ?_⟩
  cases hfind : t.findMembership orgId userId with
  | none => exact absurd hof (List.find?_eq_none.mp hfind m hm)
  | some m' =>
    exact congrArg some
      (isOf_unique (List.mem_of_find?_eq_some hfind) hm (List.find?_some hfind) hof)

/-- A new organisation has no members yet. -/
theorem orgId_ne_of_new {t : Tables} {id : String} (hid : id ∉ t.orgs.map (·.id))
    (hm : m ∈ t.memberships) : m.orgId ≠ id := by
  rintro rfl
  exact hid (t.members_org m hm)

end Rows

end WorkPlatform.Organization

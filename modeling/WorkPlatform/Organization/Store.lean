import WorkPlatform.Auth.Login
import WorkPlatform.Payment.Store

/-!
# Organization/Store — organisations, their members and their invitations

    PostgreSQL   organizations, org_memberships, invitations (a primary and a replica that lags)
    Redis        session:<user>:<org>

The tables carry their constraints: ids and slugs are unique, a user has at most one membership of
an organisation that is not deleted (the partial index), members and invitations belong to an
organisation that exists.  An INSERT against one of them fails.

Users, refresh tokens and the rest of Redis are those of the authentication services.
-/

namespace WorkPlatform.Organization

open Auth (Role MembershipStatus Expiring)
open Payment (OrgStatus)

/-! ## Rows -/

/-- The roles an invitation or a role change can give. -/
abbrev GrantedRole := { role : Role // role ≠ .orgOwner }

theorem member_ne_orgOwner : Role.member ≠ .orgOwner := by decide

/-- A row of `organizations`, less the columns nothing here reads. -/
structure OrgRow extends Payment.OrgState where
  id : String
  slug : String
  maxMembers : ℕ
  deriving DecidableEq

/-- A row of `org_memberships`, with whether `deleted_at` is set. -/
structure MembershipRow extends Auth.MembershipRow where
  deleted : Bool
  deriving DecidableEq

inductive InvitationStatus
  | pending | accepted | expired | revoked
  deriving DecidableEq, Repr

/-- A row of `invitations`. -/
structure InvitationRow where
  id : String
  orgId : String
  email : String
  role : GrantedRole
  tokenHash : String
  status : InvitationStatus
  expiresAt : ℕ
  deriving DecidableEq

namespace MembershipRow

/-- The membership of the user in the organisation, not deleted. -/
def isOf (orgId userId : String) (m : MembershipRow) : Bool :=
  m.orgId = orgId ∧ m.userId = userId ∧ ¬ m.deleted

/-- An active membership that is not deleted. -/
def activeIn (orgId : String) (m : MembershipRow) : Bool :=
  m.orgId = orgId ∧ m.status = .active ∧ ¬ m.deleted

/-- An active owner that is not deleted. -/
def ownerOf (orgId : String) (m : MembershipRow) : Bool := m.activeIn orgId ∧ m.role = .orgOwner

/-- The columns of the partial index, of a row it covers. -/
def liveKey (m : MembershipRow) : Option (String × String) :=
  if m.deleted then none else some (m.orgId, m.userId)

end MembershipRow

/-! ## Tables -/

/-- The tables of the module, with their constraints. -/
structure Tables where
  orgs : List OrgRow
  memberships : List MembershipRow
  invitations : List InvitationRow
  ids_nodup : (orgs.map (·.id)).Nodup
  slugs_nodup : (orgs.map (·.slug)).Nodup
  live_nodup : (memberships.filterMap (·.liveKey)).Nodup
  hashes_nodup : (invitations.map (·.tokenHash)).Nodup
  invitations_nodup : (invitations.map (·.id)).Nodup
  members_org : ∀ m ∈ memberships, m.orgId ∈ orgs.map (·.id)
  invitations_org : ∀ v ∈ invitations, v.orgId ∈ orgs.map (·.id)

/-- Dropping or keeping what a row counts for leaves no new duplicates. -/
theorem filterMap_comp_sublist {α β : Type*} {g : α → Option β} {f : α → α}
    (h : ∀ x, g (f x) = g x ∨ g (f x) = none) :
    ∀ l : List α, (l.filterMap (g ∘ f)).Sublist (l.filterMap g)
  | [] => .slnil
  | x :: l => by
      have ih := filterMap_comp_sublist h l
      rw [List.filterMap_cons, List.filterMap_cons, Function.comp_apply]
      rcases h x with hx | hx
      · rw [hx]
        cases g x with
        | none => exact ih
        | some k => exact ih.cons_cons k
      · rw [hx]
        cases g x with
        | none => exact ih
        | some k => exact ih.cons k

namespace MembershipRow

/-- `SET role = $1 WHERE org_id = $2 AND user_id = $3 AND deleted_at IS NULL`, for one row. -/
def setRole (orgId userId : String) (role : GrantedRole) (m : MembershipRow) : MembershipRow :=
  if m.isOf orgId userId then { m with role := role.1 } else m

/-- `SET status = 'removed', deleted_at = NOW() WHERE … AND deleted_at IS NULL`, for one row. -/
def remove (orgId userId : String) (m : MembershipRow) : MembershipRow :=
  if m.isOf orgId userId then { m with status := .removed, deleted := true } else m

/-- `ON CONFLICT … DO UPDATE SET role = EXCLUDED.role, status = 'active', deleted_at = NULL`, for
one row. -/
def rejoin (orgId userId : String) (role : GrantedRole) (m : MembershipRow) : MembershipRow :=
  if m.isOf orgId userId then { m with role := role.1, status := .active } else m

theorem setRole_orgId (orgId userId : String) (role : GrantedRole) (m : MembershipRow) :
    (m.setRole orgId userId role).orgId = m.orgId := by
  unfold setRole
  split <;> rfl

theorem remove_orgId (orgId userId : String) (m : MembershipRow) :
    (m.remove orgId userId).orgId = m.orgId := by
  unfold remove
  split <;> rfl

theorem rejoin_orgId (orgId userId : String) (role : GrantedRole) (m : MembershipRow) :
    (m.rejoin orgId userId role).orgId = m.orgId := by
  unfold rejoin
  split <;> rfl

theorem setRole_liveKey (orgId userId : String) (role : GrantedRole) (m : MembershipRow) :
    (m.setRole orgId userId role).liveKey = m.liveKey := by
  unfold setRole
  split <;> rfl

theorem rejoin_liveKey (orgId userId : String) (role : GrantedRole) (m : MembershipRow) :
    (m.rejoin orgId userId role).liveKey = m.liveKey := by
  unfold rejoin
  split <;> rfl

theorem remove_liveKey (orgId userId : String) (m : MembershipRow) :
    (m.remove orgId userId).liveKey = m.liveKey ∨ (m.remove orgId userId).liveKey = none := by
  unfold remove
  split
  · exact Or.inr rfl
  · exact Or.inl rfl

theorem isOf_iff_liveKey {orgId userId : String} {m : MembershipRow} :
    m.isOf orgId userId = true ↔ m.liveKey = some (orgId, userId) := by
  unfold isOf liveKey
  cases m.deleted <;> simp

end MembershipRow

namespace Tables

/-- `UPDATE org_memberships`, of columns without a constraint, or deleting. -/
def updateMemberships (t : Tables) (f : MembershipRow → MembershipRow)
    (horg : ∀ m, (f m).orgId = m.orgId)
    (hkey : ∀ m, (f m).liveKey = m.liveKey ∨ (f m).liveKey = none) : Tables :=
  { t with
    memberships := t.memberships.map f
    live_nodup := by
      rw [List.filterMap_map]
      exact t.live_nodup.sublist (filterMap_comp_sublist hkey t.memberships)
    members_org := by
      intro m hm
      obtain ⟨m₀, hm₀, rfl⟩ := List.mem_map.mp hm
      rw [horg]
      exact t.members_org m₀ hm₀ }

/-- `updateRole`. -/
def updateRole (t : Tables) (orgId userId : String) (role : GrantedRole) : Tables :=
  t.updateMemberships (.setRole orgId userId role) (MembershipRow.setRole_orgId orgId userId role)
    fun m => Or.inl (MembershipRow.setRole_liveKey orgId userId role m)

/-- `removeMembership`. -/
def removeMembership (t : Tables) (orgId userId : String) : Tables :=
  t.updateMemberships (.remove orgId userId) (MembershipRow.remove_orgId orgId userId)
    (MembershipRow.remove_liveKey orgId userId)

/-- `INSERT INTO org_memberships` of a row that meets no conflict; `none` where there is no such
organisation. -/
def insertMembership (t : Tables) (orgId userId : String) (role : Role)
    (hnew : t.memberships.any (·.isOf orgId userId) = false) : Option Tables :=
  if horg : orgId ∈ t.orgs.map (·.id) then
    some { t with
      memberships := ⟨⟨userId, orgId, role, .active⟩, false⟩ :: t.memberships
      live_nodup := by
        rw [List.filterMap_cons]
        refine List.nodup_cons.mpr ⟨fun hmem => ?_, t.live_nodup⟩
        obtain ⟨m, hm, hkey⟩ := List.mem_filterMap.mp hmem
        exact absurd (MembershipRow.isOf_iff_liveKey.mpr hkey) (List.any_eq_false.mp hnew m hm)
      members_org := by
        intro m hm
        rcases List.mem_cons.mp hm with rfl | hm
        · exact horg
        · exact t.members_org m hm }
  else none

/-- `createMembership` with a role that can be granted. -/
def createMembership (t : Tables) (orgId userId : String) (role : GrantedRole) : Option Tables :=
  if hnew : t.memberships.any (·.isOf orgId userId) = false then
    t.insertMembership orgId userId role.1 hnew
  else
    some (t.updateMemberships (.rejoin orgId userId role)
      (MembershipRow.rejoin_orgId orgId userId role)
      fun m => Or.inl (MembershipRow.rejoin_liveKey orgId userId role m))

/-- A new row of the user, or the one that is there joined again; no other table is written. -/
theorem createMembership_spec {t t' : Tables} {orgId userId : String} {role : GrantedRole}
    (h : t.createMembership orgId userId role = some t') :
    t'.orgs = t.orgs ∧ t'.invitations = t.invitations ∧
      (t.memberships.any (·.isOf orgId userId) = false
          ∧ t'.memberships = ⟨⟨userId, orgId, role.1, .active⟩, false⟩ :: t.memberships
        ∨ t.memberships.any (·.isOf orgId userId) = true
          ∧ t'.memberships = t.memberships.map (.rejoin orgId userId role)) := by
  unfold createMembership at h
  split at h
  case isTrue hnew =>
    unfold insertMembership at h
    split at h
    · obtain rfl := Option.some.inj h
      exact ⟨rfl, rfl, Or.inl ⟨hnew, rfl⟩⟩
    · cases h
  case isFalse hold =>
    obtain rfl := Option.some.inj h
    exact ⟨rfl, rfl, Or.inr ⟨Bool.eq_true_of_not_eq_false hold, rfl⟩⟩

/-- The transaction of `createOrg`: the organisation and the membership of its creator.  The
organisation is new, so no membership of it is there to conflict with. -/
def createOrg (t : Tables) (org : OrgRow) (userId : String) : Option Tables :=
  if hnew : org.id ∉ t.orgs.map (·.id) ∧ org.slug ∉ t.orgs.map (·.slug) then
    some { t with
      orgs := org :: t.orgs
      memberships := ⟨⟨userId, org.id, .orgOwner, .active⟩, false⟩ :: t.memberships
      ids_nodup := List.nodup_cons.mpr ⟨hnew.1, t.ids_nodup⟩
      slugs_nodup := List.nodup_cons.mpr ⟨hnew.2, t.slugs_nodup⟩
      live_nodup := by
        rw [List.filterMap_cons]
        refine List.nodup_cons.mpr ⟨fun hmem => ?_, t.live_nodup⟩
        obtain ⟨m, hm, hkey⟩ := List.mem_filterMap.mp hmem
        have horg : m.orgId = org.id :=
          (of_decide_eq_true (MembershipRow.isOf_iff_liveKey.mpr hkey)).1
        rw [← horg] at hnew
        exact hnew.1 (t.members_org m hm)
      members_org := by
        intro m hm
        rcases List.mem_cons.mp hm with rfl | hm
        · exact List.mem_cons_self
        · exact List.mem_cons_of_mem _ (t.members_org m hm)
      invitations_org := fun v hv => List.mem_cons_of_mem _ (t.invitations_org v hv) }
  else none

/-- `INSERT INTO invitations`; `none` where a constraint is violated. -/
def insertInvitation (t : Tables) (v : InvitationRow) : Option Tables :=
  if hnew : v.tokenHash ∉ t.invitations.map (·.tokenHash) ∧ v.id ∉ t.invitations.map (·.id)
      ∧ v.orgId ∈ t.orgs.map (·.id) then
    some { t with
      invitations := v :: t.invitations
      hashes_nodup := List.nodup_cons.mpr ⟨hnew.1, t.hashes_nodup⟩
      invitations_nodup := List.nodup_cons.mpr ⟨hnew.2.1, t.invitations_nodup⟩
      invitations_org := by
        intro w hw
        rcases List.mem_cons.mp hw with rfl | hw
        · exact hnew.2.2
        · exact t.invitations_org w hw }
  else none

/-- `UPDATE invitations SET status = $1 WHERE p`. -/
def setInvitationStatus (t : Tables) (p : InvitationRow → Bool) (status : InvitationStatus) :
    Tables :=
  let set (v : InvitationRow) := if p v then { v with status := status } else v
  have hset : ∀ v, (set v).id = v.id ∧ (set v).tokenHash = v.tokenHash
      ∧ (set v).orgId = v.orgId := by
    intro v
    simp only [set]
    split <;> exact ⟨rfl, rfl, rfl⟩
  { t with
    invitations := t.invitations.map set
    hashes_nodup := by
      rw [List.map_map, Function.comp_def]
      simpa only [(hset _).2.1] using t.hashes_nodup
    invitations_nodup := by
      rw [List.map_map, Function.comp_def]
      simpa only [(hset _).1] using t.invitations_nodup
    invitations_org := by
      intro v hv
      obtain ⟨w, hw, rfl⟩ := List.mem_map.mp hv
      rw [(hset w).2.2]
      exact t.invitations_org w hw }

/-! ## Reads -/

/-- `findById`: `… WHERE id = $1 AND deleted_at IS NULL`. -/
def findOrgById (t : Tables) (orgId : String) : Option OrgRow :=
  t.orgs.find? fun org => org.id = orgId ∧ ¬ org.deleted

/-- `findBySlug`: `… WHERE slug = $1 AND deleted_at IS NULL`. -/
def findBySlug (t : Tables) (slug : String) : Option OrgRow :=
  t.orgs.find? fun org => org.slug = slug ∧ ¬ org.deleted

/-- `SELECT * FROM invitations WHERE token_hash = $1 LIMIT 1`. -/
def findByTokenHash (t : Tables) (tokenHash : String) : Option InvitationRow :=
  t.invitations.find? (·.tokenHash = tokenHash)

/-- `findMembership`: `… WHERE org_id = $1 AND user_id = $2 AND deleted_at IS NULL LIMIT 1`. -/
def findMembership (t : Tables) (orgId userId : String) : Option MembershipRow :=
  t.memberships.find? (·.isOf orgId userId)

/-- `countActiveMembers`. -/
def countActiveMembers (t : Tables) (orgId : String) : ℕ := t.memberships.countP (·.activeIn orgId)

/-- The active memberships with role `org_owner`. -/
def countOwners (t : Tables) (orgId : String) : ℕ := t.memberships.countP (·.ownerOf orgId)

end Tables

/-! ## The store -/

/-- What a Redis session `session:<user>:<org>` holds. -/
structure OrgContext where
  orgStatus : OrgStatus
  memberRole : Role
  deriving DecidableEq

/-- What became of an invitation: a change of its status, a membership created or re-activated from
it, the event `member.joined`, a token pair. -/
inductive Deed
  | changed (before after : InvitationStatus)
  | granted
  | joined
  | issued
  deriving DecidableEq

/-- `history` is on record, by the id of the invitation; the other outbox events are read by nothing
here. -/
structure Store where
  login : Auth.LoginStore
  primary : Tables
  replica : Tables
  sessions : String → String → Option (Expiring OrgContext)
  history : List (String × Deed)

namespace Store

def now (s : Store) : ℕ := s.login.auth.now

def record (s : Store) (invitationId : String) (d : Deed) : Store :=
  { s with history := (invitationId, d) :: s.history }

/-- `SESSION_CACHE_TTL`, in milliseconds. -/
def sessionCacheTtl : ℕ := 30 * 1000

/-- `GET session:<user>:<org>`. -/
def getSession (s : Store) (userId orgId : String) : Option OrgContext :=
  s.login.auth.live (s.sessions userId orgId)

/-- `SETEX session:<user>:<org>`. -/
def setSession (s : Store) (userId orgId : String) (ctx : OrgContext) : Store :=
  let mine := Function.update (s.sessions userId) orgId (some ⟨ctx, s.now + sessionCacheTtl⟩)
  { s with sessions := Function.update s.sessions userId mine }

/-- The status of an invitation. -/
def invitationStatus (s : Store) (id : String) : Option InvitationStatus :=
  (s.primary.invitations.find? (·.id = id)).map (·.status)

/-- `UPDATE invitations SET status = $1 WHERE id = $2 AND p`, with the change on record. -/
def setInvitation (s : Store) (id : String) (p : InvitationRow → Bool)
    (status : InvitationStatus) : Store :=
  let s' := { s with primary := s.primary.setInvitationStatus (fun v => v.id = id ∧ p v) status }
  match s.primary.invitations.find? (·.id = id) with
  | some v => if p v ∧ v.status ≠ status then s'.record id (.changed v.status status) else s'
  | none => s'

/-- A row the cleanup job expires. -/
def overdue (now : ℕ) (v : InvitationRow) : Bool := v.status = .pending ∧ v.expiresAt < now

/-- The first statement of `runCleanupJob`. -/
def expireOldInvitations (s : Store) : Store :=
  let expired := s.primary.invitations.filter (overdue s.now)
  { s with
    primary := s.primary.setInvitationStatus (overdue s.now) .expired
    history := expired.map (fun v => (v.id, .changed .pending .expired)) ++ s.history }

end Store

end WorkPlatform.Organization

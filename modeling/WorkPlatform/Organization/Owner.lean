import WorkPlatform.Auth.Lockout
import WorkPlatform.Organization.Members
import Mathlib.Data.Fin.VecNotation

/-!
# Organization/Owner — exactly one owner

    createOrg   0 ▸ 1 owner of the new organisation

No route gives the role `org_owner`, so no organisation ever gets a second owner.  Nothing keeps
the one it has: a role change, a removal and an accepted invitation write the membership of their
target without looking at its role, and an admin may name the owner (`owner_is_removed`).

As long as none of them hits the owner's membership (`SparesOwner`), every organisation keeps
exactly one (`one_owner`).
-/

namespace WorkPlatform.Organization

open Machinery
open Auth (Role)

/-- Every organisation that is not deleted has exactly one owner. -/
def Tables.Owned (t : Tables) : Prop :=
  ∀ org ∈ t.orgs, org.deleted = false → t.countOwners org.id = 1

/-- The user is an owner of the organisation, which is not deleted. -/
def Tables.owns (t : Tables) (orgId userId : String) : Bool :=
  (t.orgs.any fun org => org.id = orgId ∧ ¬ org.deleted)
    && t.memberships.any fun m => m.isOf orgId userId && m.ownerOf orgId

/-- The membership a call is about to write is not an owner's. -/
def Call.sparesOwner (t : Tables) (c : Call) : Bool :=
  c.memberWrite.all fun (orgId, userId, _) => ! t.owns orgId userId

/-! ## One statement -/

section Steps

variable {t t' : Tables} {w : Option (String × String × MemberWrite)}

/-- What is written was no owner, if the write spares it. -/
theorem not_ownerOf_of_spared {org : OrgRow} {userId : String} {m : MembershipRow}
    (horg : org ∈ t.orgs) (hlive : org.deleted = false) (hspare : t.owns org.id userId = false)
    (hm : m ∈ t.memberships) (hof : m.isOf org.id userId = true) : m.ownerOf org.id = false := by
  have hany : (t.orgs.any fun o => o.id = org.id ∧ ¬ o.deleted) = true :=
    List.any_eq_true.mpr ⟨org, horg, by simp [hlive]⟩
  rw [Tables.owns, hany, Bool.true_and] at hspare
  have hnot := List.any_eq_false.mp hspare m hm
  rw [hof, Bool.true_and] at hnot
  exact Bool.eq_false_iff.mpr hnot

/-- A write that spares the owner leaves every row as much of an owner as it was. -/
theorem ownerOf_row {org : OrgRow} {orgId userId : String} (write : MemberWrite)
    {m : MembershipRow} (horg : org ∈ t.orgs) (hlive : org.deleted = false)
    (hspare : t.owns orgId userId = false) (hm : m ∈ t.memberships) :
    (write.row orgId userId m).ownerOf org.id = m.ownerOf org.id := by
  cases hof : m.isOf orgId userId with
  | false => rw [write.row_of_not hof]
  | true =>
    rw [write.not_ownerOf hof]
    by_cases ho : org.id = orgId
    · subst ho
      exact (not_ownerOf_of_spared horg hlive hspare hm hof).symm
    · refine (Bool.eq_false_iff.mpr fun howner => ho ?_).symm
      rw [← (isOf_iff.mp hof).1, (activeIn_iff.mp (ownerOf_iff.mp howner).1).1]

/-- A new organisation has the owner it was created with. -/
theorem countOwners_new {id : String} (hid : id ∉ t.orgs.map (·.id)) : t.countOwners id = 0 :=
  List.countP_eq_zero.mpr fun _ hm howner =>
    orgId_ne_of_new hid hm (activeIn_iff.mp (ownerOf_iff.mp howner).1).1

/-- **A statement that spares the owners** leaves each organisation its one. -/
theorem Tables.Owned.step (h : t.Owned) (hstep : MembersStep w t t')
    (hspare : (w.all fun (orgId, userId, _) => ! t.owns orgId userId) = true) : t'.Owned := by
  intro org horg hlive
  cases hstep with
  | same horgs hmembers =>
    rw [horgs] at horg
    rw [Tables.countOwners, hmembers]
    exact h org horg hlive
  | written write hw horgs hmembers =>
    subst hw
    rw [horgs] at horg
    rw [Tables.countOwners, hmembers, List.countP_map, ← h org horg hlive]
    refine List.countP_congr fun m hm => ?_
    rw [Function.comp_apply, ownerOf_row write horg hlive (by simpa using hspare) hm]
  | @joined orgId userId role hw horgs hnew hmembers =>
    rw [horgs] at horg
    have hrow : ¬ MembershipRow.ownerOf org.id ⟨⟨userId, orgId, role.1, .active⟩, false⟩ = true :=
      fun howner => role.2 (ownerOf_iff.mp howner).2
    rw [Tables.countOwners, hmembers, List.countP_cons_of_neg hrow]
    exact h org horg hlive
  | @founded id slug userId hid horgs hmembers =>
    rw [Tables.countOwners, hmembers]
    rw [horgs] at horg
    rcases List.mem_cons.mp horg with rfl | horg
    · rw [List.countP_cons_of_pos (by simp [MembershipRow.ownerOf, MembershipRow.activeIn, newOrg])]
      exact congrArg (· + 1) (countOwners_new hid)
    · have hne : id ≠ org.id := fun heq => hid (heq ▸ List.mem_map_of_mem horg)
      rw [List.countP_cons_of_neg (by simp [MembershipRow.ownerOf, MembershipRow.activeIn, hne])]
      exact h org horg hlive

end Steps

/-! ## Runs -/

section Runs

variable {ι : Type*} {cfg : Config}

/-- **No write hits an owner**: no role change, no removal and no accepted invitation. -/
def SparesOwner (p : Calls ι) : Move ι Draw Env → Prop
  | .run i _ => (p.calls i).Keeps fun c => c.sparesOwner p.store.primary
  | _ => True

/-- **Exactly one owner**, in every state of every run in which no write hits an owner. -/
theorem one_owner [DecidableEq ι] {p q : Calls ι} (hstart : p.store.primary.Owned)
    (hrun : Run (Pool.step (orgMachine cfg)) SparesOwner p q) : q.store.primary.Owned := by
  refine Pool.invariant (I := fun p : Calls ι => p.store.primary.Owned) hstart
    (fun p i d c s' c' h hG hi hn => ?_) (fun p i c h _ _ => h) (fun p e h _ => ?_) hrun
  · simp only [SparesOwner] at hG
    rw [hi] at hG
    exact h.step (members_next hn) hG
  · dsimp only [orgMachine]
    rw [env_primary]
    exact h

end Runs

instance {ι : Type*} (p : Calls ι) : ∀ m : Move ι Draw Env, Decidable (SparesOwner p m)
  | .run i _ => inferInstanceAs
      (Decidable ((p.calls i).Keeps fun c => c.sparesOwner p.store.primary))
  | .crash _ => inferInstanceAs (Decidable True)
  | .env _ => inferInstanceAs (Decidable True)

/-! ## An organisation and its creator -/

/-- The token of an invitation is the email it was sent to. -/
def demoConfig : Config where
  toLoginConfig := Auth.demoLoginConfig
  inviteToken _ email _ _ _ := email

/-- No organisation yet. -/
def emptyTables : Tables where
  orgs := []
  memberships := []
  invitations := []
  ids_nodup := by decide
  slugs_nodup := by decide
  live_nodup := by decide
  hashes_nodup := by decide
  invitations_nodup := by decide
  members_org := by decide
  invitations_org := by decide

/-- Primary and replica agree, no session is cached. -/
def demoStore (t : Tables) : Store where
  login := Auth.demoLogins
  primary := t
  replica := t
  sessions _ _ := none
  history := []

/-- A move that draws `id` for the row it inserts. -/
def drawn (id : String) : Draw := ⟨Auth.noDraw, id⟩

/-- `w` creates an organisation, and makes a request there. -/
def foundedBy (action : Action) : Calls (Fin 3) :=
  ⟨demoStore emptyTables, ![.up (.createOrg "w" "slug" .findSlug),
    .up (.route ⟨"w", "o", false⟩ "o" action (.context .get)), .up (.accept "u@x" .find)]⟩

/-- The three moves of `createOrg`, the replica catching up, and the context of the request. -/
def founding : List (Move (Fin 3) Draw Env) :=
  [.run 0 (drawn "o"), .run 0 (drawn "o"), .run 0 (drawn "o"), .env .replicate,
    .run 1 (drawn ""), .run 1 (drawn ""), .run 1 (drawn "")]

theorem emptyTables_owned : emptyTables.Owned := by
  intro org horg
  cases horg

/-- **The owner's membership is removed** through the route, and the organisation is left without
an owner. -/
theorem owner_is_removed :
    (∀ i, ((foundedBy (.removeMember "w")).calls i).Live fun c => c.fresh)
      ∧ (foundedBy (.removeMember "w")).store.primary.Owned
      ∧ ∃ q, Run (Pool.step (orgMachine demoConfig)) anyStep (foundedBy (.removeMember "w")) q
        ∧ newOrg "o" "slug" ∈ q.store.primary.orgs ∧ q.store.primary.countOwners "o" = 0
        ∧ ¬ q.store.primary.Owned := by
  refine ⟨by decide, emptyTables_owned, ?_⟩
  obtain ⟨q, hq, h⟩ := exists_run_of_exec (Pool.step (orgMachine demoConfig)) anyStep
    (foundedBy (.removeMember "w")) (List.flatten [founding, [.run 1 (drawn "")]])
    (fun q => newOrg "o" "slug" ∈ q.store.primary.orgs ∧ q.store.primary.countOwners "o" = 0)
    (by decide)
  obtain ⟨horg, hnone⟩ := of_decide_eq_true h
  refine ⟨q, hq, horg, hnone, fun howned => ?_⟩
  have hone : q.store.primary.countOwners "o" = 1 := howned _ horg rfl
  rw [hnone] at hone
  cases hone

/-- The owner invites `u@x`, who joins. -/
theorem one_owner_of_two_members :
    ∃ q, Run (Pool.step (orgMachine demoConfig)) SparesOwner
        (foundedBy (.invite "u@x" ⟨.member, by decide⟩)) q
      ∧ q.store.primary.countActiveMembers "o" = 2 ∧ q.store.primary.Owned := by
  obtain ⟨q, hq, h⟩ := exists_run_of_exec (Pool.step (orgMachine demoConfig)) SparesOwner
    (foundedBy (.invite "u@x" ⟨.member, by decide⟩))
    (List.flatten [founding,
      [.run 1 (drawn ""), .run 1 (drawn ""), .run 1 (drawn ""), .run 1 (drawn "i"),
        .run 2 (drawn ""), .run 2 (drawn ""), .run 2 (drawn "")]])
    (fun q => q.store.primary.countActiveMembers "o" = 2) (by decide)
  exact ⟨q, hq, of_decide_eq_true h, one_owner emptyTables_owned hq⟩

end WorkPlatform.Organization

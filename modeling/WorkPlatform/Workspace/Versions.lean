import WorkPlatform.Machinery.Noninterference
import WorkPlatform.Machinery.Serial
import WorkPlatform.Workspace.Update

/-!
# Workspace/Versions — the updates of a workspace, one after the other

    create   insert ▸ outbox
    list     select
    get      select
    update   some field is set:  update  [▸ select ▸ threw] ▸ outbox
             no field is set:    select ▸ outbox
    delete   select ▸ cascade ▸ outbox ▸ audit

Every UPDATE of a row names the version that the client has read and raises it.  So the updates that
were answered have one order, in which each was made of what the one before it left; nothing but a
deletion comes between them, and what a reader is shown, from a replica that lags as it likes, is
what some first of them made (`updates_linearise`).
-/

namespace WorkPlatform.Workspace.Versions

open Machinery

/-! ## Rows -/

/-- What `create` inserts. -/
structure CreateWorkspaceData where
  orgId : String
  name : String
  description : Option String
  ownerUserId : String
  deriving DecidableEq

/-- The row of the INSERT, with the defaults of the table. -/
def CreateWorkspaceData.row (data : CreateWorkspaceData) (id : String) (now : ℕ) : WorkspaceRow where
  id := id
  orgId := data.orgId
  name := data.name
  description := data.description
  status := .active
  ownerUserId := data.ownerUserId
  deletedAt := none
  createdAt := now
  updatedAt := now
  version := 1

/-- The default workspace of a new organisation. -/
def defaultWorkspace (orgId userId : String) : CreateWorkspaceData :=
  ⟨orgId, "Default Workspace", none, userId⟩

/-- `WHERE id = $1 AND org_id = $2 AND deleted_at IS NULL`. -/
def isLive (id orgId : String) (r : WorkspaceRow) : Bool :=
  r.id = id ∧ r.orgId = orgId ∧ r.deletedAt = none

/-- `SET deleted_at = …` of the rows of a statement, with the trigger on `updated_at`. -/
def softDelete (which : WorkspaceRow → Bool) (deletedAt now : ℕ) (r : WorkspaceRow) : WorkspaceRow :=
  if which r then { r with deletedAt := some deletedAt, updatedAt := now } else r

theorem softDelete_id (which : WorkspaceRow → Bool) (deletedAt now : ℕ) (r : WorkspaceRow) :
    (softDelete which deletedAt now r).id = r.id := by
  unfold softDelete
  split <;> rfl

/-! ## The database -/

/-- The tables of the workspaces, and the log that a deletion is written to. -/
structure Database extends Store where
  auditLogs : List WorkspaceEvent

/-- The id of a new row, when the transaction began, and the order PostgreSQL gives to rows of one
time. -/
structure Draw where
  id : String
  startedAt : ℕ
  rank : String → ℕ

/-- `ORDER BY created_at ASC`. -/
def older (d : Draw) (r r' : WorkspaceRow) : Prop :=
  r.createdAt < r'.createdAt ∨ r.createdAt = r'.createdAt ∧ d.rank r.id ≤ d.rank r'.id

instance (d : Draw) : DecidableRel (older d) := fun _ _ => inferInstanceAs (Decidable (_ ∨ _))

namespace Database

/-- `findByOrg`, on the replica. -/
def findByOrg (s : Database) (d : Draw) (orgId : String) : List WorkspaceRow :=
  (s.replica.rows.filter fun r => r.orgId = orgId ∧ r.deletedAt = none).insertionSort (older d)

def create (s : Database) (r : WorkspaceRow) : Option Database :=
  (s.primary.insert r).map fun t => { s with primary := t }

/-- `SET deleted_at = … WHERE …`. -/
def softDelete (s : Database) (which : WorkspaceRow → Bool) (deletedAt now : ℕ) : Database :=
  { s with
    primary := s.primary.map (Versions.softDelete which deletedAt now)
      (softDelete_id which deletedAt now) }

/-- The last statement of `cascadeSoftDelete`, whose transaction began at `startedAt`. -/
def cascadeSoftDelete (s : Database) (orgId workspaceId : String) (startedAt : ℕ) : Database :=
  s.softDelete (isLive workspaceId orgId) startedAt startedAt

def writeOutboxEvent (s : Database) (e : WorkspaceEvent) : Database :=
  { s with toStore := s.toStore.writeOutboxEvent e }

def persistAuditLog (s : Database) (e : WorkspaceEvent) : Database :=
  { s with auditLogs := e :: s.auditLogs }

end Database

/-! ## The service -/

/-- Where a call of `createWorkspace` is. -/
inductive CreatePc
  | insert
  | outbox (workspace : WorkspaceRow)
  | returned (workspace : WorkspaceRow)
  | failed
  deriving DecidableEq

/-- Where a call of `getWorkspace` is. -/
inductive GetPc
  | select
  | returned (ws : WorkspaceRow)
  | threw (e : AppError)
  deriving DecidableEq

/-- Where a call of `listWorkspaces` is. -/
inductive ListPc
  | select
  | returned (workspaces : List WorkspaceRow)
  deriving DecidableEq

/-- Where a call of `updateWorkspace` is. -/
inductive UpdatePc
  | update
  | select
  | outbox (updated : WorkspaceRow)
  | returned (updated : WorkspaceRow)
  | threw (e : AppError)
  deriving DecidableEq

/-- Where a call of `deleteWorkspace` is. -/
inductive DeletePc
  | select
  | cascade
  | outbox
  | audit
  | returned
  | threw (e : AppError)
  deriving DecidableEq

/-- The arguments of `updateWorkspace`. -/
structure UpdateArgs where
  orgId : String
  workspaceId : String
  data : UpdateWorkspaceData
  expectedVersion : ℕ
  actorId : String
  deriving DecidableEq

/-- An INSERT that a foreign key refuses ends the call as a crash does. -/
def createNext (s : Database) (d : Draw) (userId : String) (data : CreateWorkspaceData) :
    CreatePc → Option (Database × CreatePc)
  | .insert =>
    match s.create (data.row d.id s.now) with
    | some s' => some (s', .outbox (data.row d.id s.now))
    | none => some (s, .failed)
  | .outbox workspace =>
    some (s.writeOutboxEvent ⟨data.orgId, "workspace.created", workspace.id, userId⟩,
      .returned workspace)
  | .returned _ | .failed => none

/-- The next statement of `getWorkspace`. -/
def getNext (s : Database) (orgId workspaceId : String) : GetPc → Option (Database × GetPc)
  | .select => some (s,
      match getWorkspace s.toStore orgId workspaceId with
      | .ok ws => .returned ws
      | .error e => .threw e)
  | .returned _ | .threw _ => none

def listNext (s : Database) (d : Draw) (orgId : String) : ListPc → Option (Database × ListPc)
  | .select => some (s, .returned (s.findByOrg d orgId))
  | .returned _ => none

/-- The next statement of `updateWorkspace`; the SELECT only picks the error. -/
def updateNext (s : Database) (a : UpdateArgs) : UpdatePc → Option (Database × UpdatePc)
  | .update =>
    match s.toStore.update a.orgId a.workspaceId a.data a.expectedVersion with
    | (t, some updated) => some ({ s with toStore := t }, .outbox updated)
    | (t, none) => some ({ s with toStore := t }, .select)
  | .select => some (s, .threw (notUpdated s.toStore a.orgId a.workspaceId))
  | .outbox updated =>
    some (s.writeOutboxEvent ⟨a.orgId, "workspace.updated", a.workspaceId, a.actorId⟩,
      .returned updated)
  | .returned _ | .threw _ => none

/-- The next statement of `deleteWorkspace`. -/
def deleteNext (s : Database) (d : Draw) (orgId workspaceId actorId : String) :
    DeletePc → Option (Database × DeletePc)
  | .select => some (s,
      match getWorkspace s.toStore orgId workspaceId with
      | .ok _ => .cascade
      | .error e => .threw e)
  | .cascade => some (s.cascadeSoftDelete orgId workspaceId d.startedAt, .outbox)
  | .outbox =>
    some (s.writeOutboxEvent ⟨orgId, "workspace.deleted", workspaceId, actorId⟩, .audit)
  | .audit =>
    some (s.persistAuditLog ⟨orgId, "workspace.deleted", workspaceId, actorId⟩, .returned)
  | .returned | .threw _ => none

/-! ## The machine -/

/-- A call, and where it is. -/
inductive Call
  | create (userId : String) (data : CreateWorkspaceData) (pc : CreatePc)
  | get (orgId workspaceId : String) (pc : GetPc)
  | list (orgId : String) (pc : ListPc)
  | update (args : UpdateArgs) (pc : UpdatePc)
  | delete (orgId workspaceId actorId : String) (pc : DeletePc)
  deriving DecidableEq

/-- Time, replication, an organisation that is made, and one that is offboarded. -/
inductive Env
  | tick (ms : ℕ)
  | replicate
  | createOrg (id orgId userId : String)
  | offboard (orgId : String) (now : ℕ)

/-- Time, replication, and what other services do to workspaces. -/
def env (s : Database) : Env → Database
  | .tick ms => { s with now := s.now + ms }
  | .replicate => { s with replica := s.primary }
  | .createOrg id orgId userId =>
    (s.create ((defaultWorkspace orgId userId).row id s.now)).getD s
  | .offboard orgId now =>
    s.softDelete (fun r => r.orgId = orgId ∧ r.deletedAt = none) now s.now

/-- The next statement of a call. -/
def Call.next (s : Database) (d : Draw) : Call → Option (Database × Call)
  | .create userId data pc =>
    (createNext s d userId data pc).map fun x => (x.1, .create userId data x.2)
  | .get orgId workspaceId pc =>
    (getNext s orgId workspaceId pc).map fun x => (x.1, .get orgId workspaceId x.2)
  | .list orgId pc => (listNext s d orgId pc).map fun x => (x.1, .list orgId x.2)
  | .update args pc => (updateNext s args pc).map fun x => (x.1, .update args x.2)
  | .delete orgId workspaceId actorId pc =>
    (deleteNext s d orgId workspaceId actorId pc).map fun x =>
      (x.1, .delete orgId workspaceId actorId x.2)

def workspaceMachine : Machine Database Call Draw Env := ⟨fun s c d => c.next s d, env⟩

/-- Calls over the workspaces. -/
abbrev Calls (ι : Type*) := Pool ι Database Call

/-! ## Rows and calls -/

namespace Call

/-- The call has made no statement. -/
def fresh : Call → Bool
  | .create _ _ .insert | .get _ _ .select | .list _ .select | .update _ .update
  | .delete _ _ _ .select => true
  | _ => false

/-- The rows that the call has got. -/
def got : Call → List WorkspaceRow
  | .create _ _ (.outbox workspace) | .create _ _ (.returned workspace) => [workspace]
  | .get _ _ (.returned ws) => [ws]
  | .list _ (.returned workspaces) => workspaces
  | .update _ (.outbox updated) | .update _ (.returned updated) => [updated]
  | _ => []

/-- The update that the call has made, with the row that it was answered. -/
def wrote : Call → Option (UpdateArgs × WorkspaceRow)
  | .update a (.outbox updated) | .update a (.returned updated) =>
    if a.data.isEmpty then none else some (a, updated)
  | _ => none

/-- **The call made `r'` of `r`**: a row of the organisation it works for, not deleted, and of the
version it names. -/
def Edits (c : Call) (r r' : WorkspaceRow) : Prop :=
  ∃ a, c.wrote = some (a, r') ∧ r.id = a.workspaceId ∧ r.orgId = a.orgId
    ∧ r.version = a.expectedVersion ∧ r.deletedAt = none ∧ ∃ now, r' = a.data.set now r

/-- The call has updated the workspace. -/
def Updated (c : Call) (id : String) : Prop := ∃ a r, c.wrote = some (a, r) ∧ a.workspaceId = id

end Call

/-- A row that is deleted, and is otherwise the same. -/
def Deleted (r r' : WorkspaceRow) : Prop :=
  r.deletedAt = none ∧ ∃ at' now, r' = { r with deletedAt := some at', updatedAt := now }

/-- As its INSERT leaves it. -/
def New (r : WorkspaceRow) : Prop := ∃ data id now, r = CreateWorkspaceData.row data id now

/-- A row of the beginning, or a new one. -/
def Born {ι : Type*} (p : Calls ι) (r : WorkspaceRow) : Prop := r ∈ p.store.primary.rows ∨ New r

/-- The replica has the row, or a call has got it; and the replica did not have it at the
beginning. -/
def Shown {ι : Type*} (p q : Calls ι) (r : WorkspaceRow) : Prop :=
  r ∉ p.store.replica.rows ∧ (r ∈ q.store.replica.rows ∨ ∃ i, r ∈ (q.calls i).at'.got)

section Runs

variable {ι : Type*} {s s' : Database} {d : Draw} {c c' : Call} {p q : Calls ι}
  {order : String → List ι}

/-! ## One statement -/

/-- What a statement does to the rows and to what its call has got. -/
inductive Stated (s : Database) (c : Call) (s' : Database) (c' : Call) : Prop
  | looked (hprimary : s'.primary = s.primary) (hreplica : s'.replica = s.replica)
      (hwrote : c'.wrote = c.wrote) (hgot : ∀ r ∈ c'.got, r ∈ c.got ∨ r ∈ s.replica.rows)
  | created {r : WorkspaceRow} (hr : New r) (hins : s.primary.insert r = some s'.primary)
      (hreplica : s'.replica = s.replica) (hwrote : c'.wrote = c.wrote) (hgot : c'.got = [r])
  | edited {a : UpdateArgs} {r : WorkspaceRow} (hr : s.primary.find a.workspaceId = some r)
      (hprimary : s'.primary = s.primary.update a.workspaceId (a.data.set s.now) fun _ => rfl)
      (hreplica : s'.replica = s.replica) (hedits : c'.Edits r (a.data.set s.now r))
      (hwrote : c'.wrote = some (a, a.data.set s.now r)) (hnone : c.wrote = none)
      (hgot : c'.got = [a.data.set s.now r])
  | deleted {which : WorkspaceRow → Bool} {at' now : ℕ}
      (hwhich : ∀ r, which r = true → r.deletedAt = none)
      (hprimary : s'.primary = s.primary.map (softDelete which at' now) (softDelete_id which at' now))
      (hreplica : s'.replica = s.replica) (hwrote : c'.wrote = c.wrote) (hgot : c'.got = [])

/-- The workspace that is returned is a row of the replica. -/
theorem mem_of_getWorkspace {s : Store} {orgId workspaceId : String} {ws : WorkspaceRow}
    (h : getWorkspace s orgId workspaceId = .ok ws) : ws ∈ s.replica.rows := by
  unfold getWorkspace at h
  split at h
  case h_1 r hr =>
    split at h
    · obtain rfl := Except.ok.inj h
      exact (Table.find_eq_some.mp (Option.filter_eq_some_iff.mp hr).1).1
    · cases h
  case h_2 => cases h

theorem deletedAt_of_isLive {id orgId : String} {r : WorkspaceRow} (h : isLive id orgId r = true) :
    r.deletedAt = none :=
  (of_decide_eq_true h).2.2

/-- What each statement of `createWorkspace` does. -/
theorem stated_create {userId : String} {data : CreateWorkspaceData} {pc pc' : CreatePc}
    (h : createNext s d userId data pc = some (s', pc')) :
    Stated s (.create userId data pc) s' (.create userId data pc') := by
  cases pc with
  | insert =>
    rw [createNext] at h
    split at h
    case h_1 s₁ hins =>
      obtain ⟨rfl, rfl⟩ := Prod.mk.inj (Option.some.inj h)
      obtain ⟨t, ht, rfl⟩ := Option.map_eq_some_iff.mp hins
      exact .created ⟨data, d.id, s.now, rfl⟩ ht rfl rfl rfl
    case h_2 =>
      obtain ⟨rfl, rfl⟩ := Prod.mk.inj (Option.some.inj h)
      exact .looked rfl rfl rfl nofun
  | outbox workspace =>
    obtain ⟨rfl, rfl⟩ := Prod.mk.inj (Option.some.inj h)
    exact .looked rfl rfl rfl fun r hr => Or.inl hr
  | returned _ | failed => cases h

/-- A GET does as stated. -/
theorem stated_get {orgId workspaceId : String} {pc pc' : GetPc}
    (h : getNext s orgId workspaceId pc = some (s', pc')) :
    Stated s (.get orgId workspaceId pc) s' (.get orgId workspaceId pc') := by
  cases pc with
  | select =>
    obtain ⟨rfl, rfl⟩ := Prod.mk.inj (Option.some.inj h)
    cases hget : getWorkspace s.toStore orgId workspaceId with
    | error e => exact .looked rfl rfl rfl nofun
    | ok ws =>
      refine .looked rfl rfl rfl fun r hr => Or.inr ?_
      obtain rfl := List.mem_singleton.mp hr
      exact mem_of_getWorkspace hget
  | returned _ | threw _ => cases h

theorem stated_list {orgId : String} {pc pc' : ListPc} (h : listNext s d orgId pc = some (s', pc')) :
    Stated s (.list orgId pc) s' (.list orgId pc') := by
  cases pc with
  | select =>
    obtain ⟨rfl, rfl⟩ := Prod.mk.inj (Option.some.inj h)
    refine .looked rfl rfl rfl fun r hr => Or.inr ?_
    exact List.mem_of_mem_filter ((List.mem_insertionSort (older d)).mp hr)
  | returned _ => cases h

/-- The UPDATE of a call that sets some field. -/
theorem stated_updateWhere {a : UpdateArgs} (hdata : a.data.isEmpty = false) {r : WorkspaceRow}
    (hr : s.toStore.updatable a.orgId a.workspaceId a.expectedVersion = some r) :
    Stated s (.update a .update)
      { s with
        primary := s.primary.update a.workspaceId (a.data.set s.now) fun _ => rfl }
      (.update a (.outbox (a.data.set s.now r))) := by
  obtain ⟨hfind, hrow⟩ := Option.filter_eq_some_iff.mp hr
  obtain ⟨horg, hversion, hlive⟩ := of_decide_eq_true hrow
  have hwrote : (Call.update a (.outbox (a.data.set s.now r))).wrote
      = some (a, a.data.set s.now r) := by
    rw [Call.wrote, hdata]
    rfl
  exact .edited hfind rfl rfl
    ⟨a, hwrote, (Table.find_eq_some.mp hfind).2, horg, hversion, Option.isNone_iff_eq_none.mp hlive,
      s.now, rfl⟩
    hwrote rfl rfl

/-- What each statement of `updateWorkspace` does. -/
theorem stated_update {a : UpdateArgs} {pc pc' : UpdatePc}
    (h : updateNext s a pc = some (s', pc')) : Stated s (.update a pc) s' (.update a pc') := by
  cases pc with
  | update =>
    rw [updateNext, Store.update] at h
    cases hdata : a.data.isEmpty with
    | true =>
      rw [hdata, if_pos rfl] at h
      cases hfind : s.toStore.findById a.workspaceId with
      | none =>
        rw [hfind] at h
        obtain ⟨rfl, rfl⟩ := Prod.mk.inj (Option.some.inj h)
        exact .looked rfl rfl rfl nofun
      | some r =>
        rw [hfind] at h
        obtain ⟨rfl, rfl⟩ := Prod.mk.inj (Option.some.inj h)
        refine .looked rfl rfl ?_ fun r' hr' => Or.inr ?_
        · rw [Call.wrote, hdata]
          rfl
        · obtain rfl := List.mem_singleton.mp hr'
          exact (Table.find_eq_some.mp (Option.filter_eq_some_iff.mp hfind).1).1
    | false =>
      rw [hdata, if_neg (by simp), Store.updateWhere] at h
      cases hr : s.toStore.updatable a.orgId a.workspaceId a.expectedVersion with
      | none =>
        rw [hr] at h
        obtain ⟨rfl, rfl⟩ := Prod.mk.inj (Option.some.inj h)
        exact .looked rfl rfl rfl nofun
      | some r =>
        rw [hr] at h
        obtain ⟨rfl, rfl⟩ := Prod.mk.inj (Option.some.inj h)
        exact stated_updateWhere hdata hr
  | select =>
    obtain ⟨rfl, rfl⟩ := Prod.mk.inj (Option.some.inj h)
    exact .looked rfl rfl rfl nofun
  | outbox updated =>
    obtain ⟨rfl, rfl⟩ := Prod.mk.inj (Option.some.inj h)
    exact .looked rfl rfl rfl fun r hr => Or.inl hr
  | returned _ | threw _ => cases h

/-- So does a DELETE. -/
theorem stated_delete {orgId workspaceId actorId : String} {pc pc' : DeletePc}
    (h : deleteNext s d orgId workspaceId actorId pc = some (s', pc')) :
    Stated s (.delete orgId workspaceId actorId pc) s' (.delete orgId workspaceId actorId pc') := by
  cases pc with
  | cascade =>
    obtain ⟨rfl, rfl⟩ := Prod.mk.inj (Option.some.inj h)
    exact .deleted (fun _ => deletedAt_of_isLive) rfl rfl rfl rfl
  | select | outbox | audit =>
    obtain ⟨rfl, rfl⟩ := Prod.mk.inj (Option.some.inj h)
    exact .looked rfl rfl rfl nofun
  | returned | threw _ => cases h

/-- **One statement.** -/
theorem stated_next (h : c.next s d = some (s', c')) : Stated s c s' c' := by
  cases c with
  | create userId data pc =>
    obtain ⟨pc', hpc, rfl⟩ := pc_of_next h
    exact stated_create hpc
  | get orgId workspaceId pc =>
    obtain ⟨pc', hpc, rfl⟩ := pc_of_next h
    exact stated_get hpc
  | list orgId pc =>
    obtain ⟨pc', hpc, rfl⟩ := pc_of_next h
    exact stated_list hpc
  | update a pc =>
    obtain ⟨pc', hpc, rfl⟩ := pc_of_next h
    exact stated_update hpc
  | delete orgId workspaceId actorId pc =>
    obtain ⟨pc', hpc, rfl⟩ := pc_of_next h
    exact stated_delete hpc

theorem deleted_or_same {which : WorkspaceRow → Bool} {deletedAt now : ℕ}
    (hwhich : ∀ r, which r = true → r.deletedAt = none) (r : WorkspaceRow) :
    softDelete which deletedAt now r = r ∨ Deleted r (softDelete which deletedAt now r) := by
  unfold softDelete
  split
  case isTrue hr => exact Or.inr ⟨hwhich r hr, deletedAt, now, rfl⟩
  case isFalse => exact Or.inl rfl

/-! ## Runs -/

/-- What call `i` has made of what. -/
def edits (f : ι → Proc Call) (i : ι) : WorkspaceRow → WorkspaceRow → Prop := (f i).at'.Edits

/-- Call `i` has updated the workspace. -/
def updated (f : ι → Proc Call) (i : ι) : String → Prop := (f i).at'.Updated

/-- One order of the updates explains the workspaces, and what was shown of them. -/
def Ordered (p q : Calls ι) : (String → List ι) → Prop :=
  Serialised (edits q.calls) Deleted (Born p) (Shown p q) (updated q.calls) q.store.primary

theorem edits_congr (h : c'.wrote = c.wrote) : c'.Edits = c.Edits := by
  unfold Call.Edits
  rw [h]

theorem updated_congr (h : c'.wrote = c.wrote) : c'.Updated = c.Updated := by
  unfold Call.Updated
  rw [h]

theorem not_updated_of_none (h : c.wrote = none) (id : String) : ¬ c.Updated id := by
  rintro ⟨a, r, hwrote, -⟩
  rw [h] at hwrote
  cases hwrote

theorem not_edits_of_none (h : c.wrote = none) (r r' : WorkspaceRow) : ¬ c.Edits r r' := by
  rintro ⟨a, hwrote, -⟩
  rw [h] at hwrote
  cases hwrote

theorem fresh_idle (h : c.fresh = true) : c.wrote = none ∧ c.got = [] := by
  cases c with
  | create _ _ pc => cases pc <;> first | exact ⟨rfl, rfl⟩ | cases h
  | get _ _ pc => cases pc <;> first | exact ⟨rfl, rfl⟩ | cases h
  | list _ pc => cases pc <;> first | exact ⟨rfl, rfl⟩ | cases h
  | update _ pc => cases pc <;> first | exact ⟨rfl, rfl⟩ | cases h
  | delete _ _ _ pc => exact ⟨rfl, rfl⟩

/-- Before the first statement the empty order will do. -/
theorem ordered_fresh (hfresh : ∀ i, (p.calls i).Live fun c => c.fresh = true) :
    Ordered p p fun _ => [] := by
  have hidle (i : ι) : (p.calls i).at'.wrote = none ∧ (p.calls i).at'.got = [] := by
    obtain ⟨c, hc, hstart⟩ := (hfresh i).exists
    rw [hc]
    exact fresh_idle hstart
  refine ⟨fun _ => List.nodup_nil, fun id i => ?_, fun _ _ => rfl,
    fun r hr => ⟨r, Or.inl hr, .refl⟩, fun r hr => ?_⟩
  · constructor
    · nofun
    · rintro ⟨a, r, hwrote, -⟩
      rw [(hidle i).1] at hwrote
      cases hwrote
  · obtain ⟨hnot, hreplica | ⟨i, hgot⟩⟩ := hr
    · exact absurd hreplica hnot
    · rw [(hidle i).2] at hgot
      cases hgot

variable [DecidableEq ι] {i : ι}

/-- What is shown after a move of call `i`, which looks at the replica only or gets what the primary
now has. -/
theorem shown_run {t : Workspaces} (hc : q.calls i = .up c) (hreplica : s'.replica = q.store.replica)
    (hgot : ∀ r ∈ c'.got, r ∈ c.got ∨ r ∈ q.store.replica.rows ∨ r ∈ t.rows) :
    ∀ r, Shown p ⟨s', Function.update q.calls i (.up c')⟩ r →
      Shown p q r ∨ r ∈ t.rows ∨ Born p r := by
  rintro r ⟨hnot, hr | ⟨j, hj⟩⟩
  · refine Or.inl ⟨hnot, Or.inl ?_⟩
    rw [← hreplica]
    exact hr
  · rcases update_cases (fun x : Proc Call => r ∈ x.at'.got) hj with ⟨-, hself⟩ | ⟨-, hother⟩
    · rcases hgot r hself with hold | hread | hrow
      · refine Or.inl ⟨hnot, Or.inr ⟨i, ?_⟩⟩
        rw [hc]
        exact hold
      · exact Or.inl ⟨hnot, Or.inl hread⟩
      · exact Or.inr (Or.inl hrow)
    · exact Or.inl ⟨hnot, Or.inr ⟨j, hother⟩⟩

/-- A call that has updated nothing new. -/
theorem Ordered.same (h : Ordered p q order) (hc : q.calls i = .up c) (hwrote : c'.wrote = c.wrote) :
    Serialised (edits (Function.update q.calls i (.up c'))) Deleted (Born p) (Shown p q)
      (updated (Function.update q.calls i (.up c'))) q.store.primary order := by
  have hall (j : ι) : (Function.update q.calls i (.up c') j).at'.wrote = (q.calls j).at'.wrote := by
    by_cases hj : j = i
    · subst hj
      rw [at'_update_self, hc]
      exact hwrote
    · rw [at'_update_of_ne hj]
  refine h.mono (fun j r r' hedits => ?_) (fun j id => ?_)
  · rw [edits, edits_congr (hall j)]
    exact hedits
  · rw [updated, updated, updated_congr (hall j)]

/-- A call that has now updated its workspace. -/
theorem Ordered.edited (h : Ordered p q order) (hc : q.calls i = .up c) (hnone : c.wrote = none)
    {a : UpdateArgs} {r : WorkspaceRow} (hr : q.store.primary.find a.workspaceId = some r)
    (hedits : c'.Edits r (a.data.set q.store.now r))
    (hwrote : c'.wrote = some (a, a.data.set q.store.now r)) :
    Serialised (edits (Function.update q.calls i (.up c'))) Deleted (Born p) (Shown p q)
      (updated (Function.update q.calls i (.up c')))
      (q.store.primary.update a.workspaceId (a.data.set q.store.now) fun _ => rfl)
      (Function.update order a.workspaceId (order a.workspaceId ++ [i])) := by
  have hidle (id : String) : ¬ updated q.calls i id := by
    rw [updated, hc]
    exact not_updated_of_none hnone id
  have hbefore : Serialised (edits (Function.update q.calls i (.up c'))) Deleted (Born p) (Shown p q)
      (updated q.calls) q.store.primary order := by
    refine h.mono (fun j r₁ r₂ hj => ?_) fun _ _ => Iff.rfl
    by_cases hij : j = i
    · subst hij
      rw [edits, hc] at hj
      exact absurd hj (not_edits_of_none hnone r₁ r₂)
    · rw [edits, at'_update_of_ne hij]
      exact hj
  refine hbefore.acted hr ?_ hidle fun j id => ?_
  · rw [edits, at'_update_self]
    exact hedits
  by_cases hij : j = i
  · subst hij
    rw [updated, at'_update_self]
    constructor
    · rintro ⟨a', r', hwrote', rfl⟩
      rw [Proc.at'_up, hwrote] at hwrote'
      obtain ⟨rfl, -⟩ := Prod.mk.inj (Option.some.inj hwrote')
      exact Or.inr ⟨rfl, rfl⟩
    · rintro (hold | ⟨-, rfl⟩)
      · exact absurd hold (hidle id)
      · exact ⟨a, _, hwrote, rfl⟩
  · rw [updated, at'_update_of_ne hij]
    constructor
    · exact Or.inl
    · rintro (hold | ⟨hself, -⟩)
      · exact hold
      · exact absurd hself hij

/-- **One statement keeps an order.** -/
theorem ordered_run (h : Ordered p q order) (hc : q.calls i = .up c)
    (hn : c.next q.store d = some (s', c')) :
    ∃ order', Ordered p ⟨s', Function.update q.calls i (.up c')⟩ order' := by
  cases stated_next hn with
  | looked hprimary hreplica hwrote hgot =>
    refine ⟨order, ?_⟩
    have hlook := (h.same hc hwrote).look (shown_run hc hreplica fun r hr =>
      (hgot r hr).imp_right Or.inl)
    unfold Ordered
    rw [hprimary]
    exact hlook
  | @created r hr hins hreplica hwrote hgot =>
    refine ⟨order, ((h.same hc hwrote).insert (Or.inr hr) hins).look
      (shown_run hc hreplica fun r' hr' => Or.inr (Or.inr ?_))⟩
    rw [hgot] at hr'
    obtain rfl := List.mem_singleton.mp hr'
    obtain ⟨-, hrows⟩ := Table.insert_eq_some hins
    rw [hrows]
    exact List.mem_cons_self
  | @edited a r hr hprimary hreplica hedits hwrote hnone hgot =>
    refine ⟨Function.update order a.workspaceId (order a.workspaceId ++ [i]), ?_⟩
    unfold Ordered
    rw [hprimary]
    refine (h.edited hc hnone hr hedits hwrote).look
      (shown_run hc hreplica fun r' hr' => Or.inr (Or.inr ?_))
    rw [hgot] at hr'
    obtain rfl := List.mem_singleton.mp hr'
    obtain ⟨hmem, hid⟩ := Table.find_eq_some.mp hr
    exact List.mem_map.mpr ⟨r, hmem, if_pos hid⟩
  | @deleted which at' now hwhich hprimary hreplica hwrote hgot =>
    refine ⟨order, ?_⟩
    unfold Ordered
    rw [hprimary]
    refine ((h.same hc hwrote).changed (softDelete_id which at' now) fun r _ => ?_).look
      (shown_run hc hreplica fun r hr => ?_)
    · exact deleted_or_same hwhich r
    · rw [hgot] at hr
      cases hr

omit [DecidableEq ι] in
/-- Time and replication leave the updates in their order. -/
theorem ordered_env (h : Ordered p q order) (e : Env) :
    Ordered p ⟨env q.store e, q.calls⟩ order := by
  cases e with
  | tick ms => exact h
  | replicate =>
    refine h.look fun r hr => ?_
    obtain ⟨hnot, hrow | hgot⟩ := hr
    · exact Or.inr (Or.inl hrow)
    · exact Or.inl ⟨hnot, Or.inr hgot⟩
  | createOrg id orgId userId =>
    rw [env]
    cases hins : q.store.create ((defaultWorkspace orgId userId).row id q.store.now) with
    | none => exact h
    | some s' =>
      obtain ⟨t, ht, rfl⟩ := Option.map_eq_some_iff.mp hins
      exact h.insert (Or.inr ⟨_, id, q.store.now, rfl⟩) ht
  | offboard orgId now =>
    exact h.changed (softDelete_id _ now q.store.now) fun r _ =>
      deleted_or_same (fun r' hr' => (of_decide_eq_true hr').2) r

/-- A crash takes back nothing of what was done and shown. -/
theorem ordered_crash (h : Ordered p q order) (hc : q.calls i = .up c) :
    Ordered p ⟨q.store, Function.update q.calls i (.down c)⟩ order := by
  have hcalls := at'_update_down hc
  refine (h.mono (fun j r r' hedits => ?_) fun j id => ?_).look fun r hr => ?_
  · rw [edits, hcalls]
    exact hedits
  · rw [updated, hcalls]
    rfl
  · obtain ⟨hnot, hrow | ⟨j, hj⟩⟩ := hr
    · exact Or.inl ⟨hnot, Or.inl hrow⟩
    · rw [hcalls] at hj
      exact Or.inl ⟨hnot, Or.inr ⟨j, hj⟩⟩

/-- In every state of a run there is such an order. -/
theorem exists_ordered (hfresh : ∀ i, (p.calls i).Live fun c => c.fresh = true)
    (h : Run (Pool.step workspaceMachine) anyStep p q) : ∃ order, Ordered p q order := by
  refine Pool.invariant (I := fun q => ∃ order, Ordered p q order) ⟨_, ordered_fresh hfresh⟩ ?_ ?_ ?_ h
  · rintro q i d c s' c' ⟨order, hI⟩ _ hc hn
    exact ordered_run hI hc hn
  · rintro q i c ⟨order, hI⟩ _ hc
    exact ⟨order, ordered_crash hI hc⟩
  · rintro q e ⟨order, hI⟩ _
    exact ⟨order, ordered_env hI e⟩

/-! ## The history of a workspace -/

/-- `r` is what the listed updates made of `r₀`, one version after the other. -/
def History (q : Calls ι) (r₀ r : WorkspaceRow) (is : List ι) : Prop :=
  Serial (edits q.calls) Deleted r₀ is r ∧ r.id = r₀.id ∧ r.orgId = r₀.orgId
    ∧ r.version = r₀.version + is.length

omit [DecidableEq ι] in
theorem history_of_serial {r₀ r : WorkspaceRow} {is : List ι}
    (h : Serial (edits q.calls) Deleted r₀ is r) : History q r₀ r is := by
  refine ⟨h, h.keeps ?_ ?_, h.keeps ?_ ?_, h.count ?_ ?_⟩
  all_goals first
    | (rintro i r r' ⟨a, -, -, -, -, -, now, rfl⟩; rfl)
    | (rintro r r' ⟨-, at', now, rfl⟩; rfl)

/-- **The updates of a workspace take effect one after the other.**  Whatever interleaves, crashes
and lags: there is one order of the updates that were made of each workspace in which every row of
the primary is what all of them made of the row it was, each of the version that the client named;
and every row that a call has got is what some first of them made, unless it is as old as the
beginning. -/
theorem updates_linearise (hfresh : ∀ i, (p.calls i).Live fun c => c.fresh = true)
    (h : Run (Pool.step workspaceMachine) anyStep p q) :
    ∃ order : String → List ι,
      (∀ id, (order id).Nodup ∧ ∀ i, i ∈ order id ↔ (q.calls i).at'.Updated id)
        ∧ (∀ r ∈ q.store.primary.rows, ∃ r₀, Born p r₀ ∧ History q r₀ r (order r.id))
        ∧ ∀ i, ∀ r ∈ (q.calls i).at'.got,
            r ∈ p.store.replica.rows ∨ ∃ r₀ n, Born p r₀ ∧ History q r₀ r ((order r.id).take n) := by
  obtain ⟨order, hI⟩ := exists_ordered hfresh h
  refine ⟨order, fun id => ⟨hI.nodup id, hI.mem id⟩, fun r hr => ?_, fun i r hr => ?_⟩
  · obtain ⟨r₀, hborn, hserial⟩ := hI.current r hr
    exact ⟨r₀, hborn, history_of_serial hserial⟩
  · by_cases hold : r ∈ p.store.replica.rows
    · exact Or.inl hold
    · obtain ⟨r₀, n, hborn, hserial⟩ := hI.shown r ⟨hold, Or.inr ⟨i, hr⟩⟩
      exact Or.inr ⟨r₀, n, hborn, history_of_serial hserial⟩

end Runs

/-! ### Two clients with one version -/

/-- A workspace that primary and replica have. -/
def demoRow : WorkspaceRow := (CreateWorkspaceData.row ⟨"a", "Plans", none, "u"⟩ "w" 0)

theorem demoRow_nodup : ([demoRow].map WorkspaceRow.id).Nodup := by decide

def rename (name : String) (version : ℕ) : UpdateArgs :=
  ⟨"a", "w", ⟨some name, none, none⟩, version, "u"⟩

/-- Three clients rename the workspace, two of them with the version 1; a fourth reads it. -/
def renamers : Calls (Fin 4) :=
  ⟨⟨⟨0, ⟨[demoRow], demoRow_nodup⟩, ⟨[demoRow], demoRow_nodup⟩, []⟩, []⟩, fun i =>
    .up (match i with
      | 0 => .update (rename "One" 1) .update
      | 1 => .update (rename "Two" 1) .update
      | 2 => .update (rename "Three" 2) .update
      | 3 => .get "a" "w" .select)⟩

def renameMoves : List (Move (Fin 4) Draw Env) :=
  [.run 0 ⟨"", 0, String.length⟩, .env .replicate, .run 1 ⟨"", 0, String.length⟩,
    .run 3 ⟨"", 0, String.length⟩, .run 2 ⟨"", 0, String.length⟩, .run 1 ⟨"", 0, String.length⟩]

/-- Four calls that rename one workspace, and the order of what they did. -/
theorem updates_linearise_renamers : ∃ q : Calls (Fin 4),
    Run (Pool.step workspaceMachine) anyStep renamers q
      ∧ (q.store.primary.rows.map fun r => (r.name, r.version)) = [("Three", 3)]
      ∧ ∃ order : String → List (Fin 4),
          (∀ id, (order id).Nodup ∧ ∀ i, i ∈ order id ↔ (q.calls i).at'.Updated id)
            ∧ (∀ r ∈ q.store.primary.rows, ∃ r₀, Born renamers r₀ ∧ History q r₀ r (order r.id))
            ∧ ∀ i, ∀ r ∈ (q.calls i).at'.got,
                r ∈ renamers.store.replica.rows
                  ∨ ∃ r₀ n, Born renamers r₀ ∧ History q r₀ r ((order r.id).take n) := by
  obtain ⟨q, hrun, hend⟩ := exists_run_of_exec (Pool.step workspaceMachine) anyStep renamers
    renameMoves (fun q => (q.store.primary.rows.map fun r => (r.name, r.version)) = [("Three", 3)])
    (by decide)
  exact ⟨q, hrun, of_decide_eq_true hend, updates_linearise (by decide) hrun⟩

end WorkPlatform.Workspace.Versions

import WorkPlatform.Machinery.Table
import WorkPlatform.Shared.AppError

/-!
# Workspace/Update — what a PATCH of a workspace says about other organisations

    GET     findById ▸ org_id checked
    PATCH   some field is set:  UPDATE … WHERE org_id AND id AND version  [▸ findById ▸ org_id checked]
            no field is set:    findById

`update` builds its SET clauses from the fields that are given.  Where there are none it answers
from a lookup by id alone, and the service takes what it finds for the updated row: the workspace of
another organisation is in the response (`patch_same_iff`).
-/

open Machinery

namespace WorkPlatform.Workspace

/-! ## The table -/

inductive WorkspaceStatus
  | active | archived
  deriving DecidableEq

/-- A row of `workspaces`; times are in milliseconds. -/
structure WorkspaceRow where
  id : String
  orgId : String
  name : String
  description : Option String
  status : WorkspaceStatus
  ownerUserId : String
  deletedAt : Option ℕ
  createdAt : ℕ
  updatedAt : ℕ
  version : ℕ
  deriving DecidableEq

abbrev Workspaces := Table WorkspaceRow.id

/-- An outbox event about a workspace. -/
structure WorkspaceEvent where
  orgId : String
  eventType : String
  entityId : String
  actorUserId : String
  deriving DecidableEq

/-- The primary, the replica `queryReplica` reads, and the outbox. -/
structure Store where
  now : ℕ
  primary : Workspaces
  replica : Workspaces
  outbox : List WorkspaceEvent

/-! ## The repository -/

/-- What the router leaves of a body that passed its schema; a description may be set to null. -/
structure UpdateWorkspaceData where
  name : Option String
  description : Option (Option String)
  status : Option WorkspaceStatus
  deriving DecidableEq

/-- `setClauses.length === 0`. -/
def UpdateWorkspaceData.isEmpty (data : UpdateWorkspaceData) : Bool :=
  data.name.isNone && data.description.isNone && data.status.isNone

/-- The SET clauses, `version = version + 1` and the trigger on `updated_at`. -/
def UpdateWorkspaceData.set (data : UpdateWorkspaceData) (now : ℕ) (r : WorkspaceRow) :
    WorkspaceRow :=
  { r with
    name := data.name.getD r.name
    description := data.description.getD r.description
    status := data.status.getD r.status
    updatedAt := now
    version := r.version + 1 }

namespace Store

/-- `SELECT * FROM workspaces WHERE id = $1 AND deleted_at IS NULL LIMIT 1`, on the replica. -/
def findById (s : Store) (id : String) : Option WorkspaceRow :=
  (s.replica.find id).filter fun r => r.deletedAt.isNone

/-- `WHERE org_id = $1 AND id = $2 AND version = $3 AND deleted_at IS NULL`, on the primary. -/
def updatable (s : Store) (orgId id : String) (expectedVersion : ℕ) : Option WorkspaceRow :=
  (s.primary.find id).filter fun r =>
    r.orgId = orgId ∧ r.version = expectedVersion ∧ r.deletedAt.isNone

/-- `UPDATE workspaces SET … WHERE … RETURNING *`. -/
def updateWhere (s : Store) (orgId id : String) (data : UpdateWorkspaceData)
    (expectedVersion : ℕ) : Store × Option WorkspaceRow :=
  match s.updatable orgId id expectedVersion with
  | none => (s, none)
  | some r =>
    ({ s with primary := s.primary.update id (data.set s.now) fun _ => rfl },
      some (data.set s.now r))

/-- `update`. -/
def update (s : Store) (orgId id : String) (data : UpdateWorkspaceData) (expectedVersion : ℕ) :
    Store × Option WorkspaceRow :=
  if data.isEmpty then (s, s.findById id) else s.updateWhere orgId id data expectedVersion

def writeOutboxEvent (s : Store) (e : WorkspaceEvent) : Store := { s with outbox := e :: s.outbox }

end Store

/-! ## The service -/

/-- `getWorkspace`; the workspace of another organisation is not found. -/
def getWorkspace (s : Store) (orgId workspaceId : String) : Except AppError WorkspaceRow :=
  match s.findById workspaceId with
  | some ws => if ws.orgId = orgId then .ok ws else .error (.notFound "Workspace")
  | none => .error (.notFound "Workspace")

/-- What `updateWorkspace` throws where no row was updated. -/
def notUpdated (s : Store) (orgId workspaceId : String) : AppError :=
  match s.findById workspaceId with
  | some existing =>
    if existing.orgId = orgId then
      .conflict "VERSION_CONFLICT" "Workspace was modified by another request"
    else .notFound "Workspace"
  | none => .notFound "Workspace"

/-- `updateWorkspace`, with the event of an update that went through. -/
def updateWorkspace (s : Store) (orgId workspaceId : String) (data : UpdateWorkspaceData)
    (expectedVersion : ℕ) (actorId : String) : Store × Except AppError WorkspaceRow :=
  match s.update orgId workspaceId data expectedVersion with
  | (s, some updated) =>
    (s.writeOutboxEvent ⟨orgId, "workspace.updated", workspaceId, actorId⟩, .ok updated)
  | (s, none) => (s, .error (notUpdated s orgId workspaceId))

/-- The response to `PATCH /orgs/:orgId/workspaces/:workspaceId`, from the handler on. -/
def patch (s : Store) (orgId workspaceId : String) (data : UpdateWorkspaceData) (version : ℕ)
    (userId : String) : Except AppError WorkspaceRow :=
  (updateWorkspace s orgId workspaceId data version userId).2

/-! ## Two databases -/

/-- The rows of an organisation are the same in both tables. -/
def SameRows (orgId : String) (t t' : Workspaces) : Prop :=
  ∀ r : WorkspaceRow, r.orgId = orgId → (r ∈ t.rows ↔ r ∈ t'.rows)

/-- Two databases that agree on the rows of an organisation, at one time. -/
structure Agree (orgId : String) (s s' : Store) : Prop where
  now : s.now = s'.now
  primary : SameRows orgId s.primary s'.primary
  replica : SameRows orgId s.replica s'.replica

/-- The workspace of another organisation under an id, as the replica has it. -/
def Store.foreign (s : Store) (orgId id : String) : Option WorkspaceRow :=
  (s.findById id).filter fun r => r.orgId ≠ orgId

variable {orgId id userId : String} {s s' : Store} {data : UpdateWorkspaceData} {version : ℕ}

/-- A row of the organisation is found in both tables or in neither. -/
theorem SameRows.filter_find {t t' : Workspaces} (h : SameRows orgId t t')
    {p : WorkspaceRow → Bool} (hp : ∀ r, p r = true → r.orgId = orgId) :
    (t.find id).filter p = (t'.find id).filter p := by
  ext r
  rw [Option.filter_eq_some_iff, Option.filter_eq_some_iff, Table.find_eq_some, Table.find_eq_some]
  constructor
  · rintro ⟨⟨hr, hid⟩, hpr⟩
    exact ⟨⟨(h r (hp r hpr)).mp hr, hid⟩, hpr⟩
  · rintro ⟨⟨hr, hid⟩, hpr⟩
    exact ⟨⟨(h r (hp r hpr)).mpr hr, hid⟩, hpr⟩

/-- What the replica has of the organisation under an id. -/
theorem Agree.own_eq (h : Agree orgId s s') :
    (s.findById id).filter (fun r => r.orgId = orgId) =
      (s'.findById id).filter (fun r => r.orgId = orgId) := by
  unfold Store.findById
  rw [Option.filter_filter, Option.filter_filter]
  exact h.replica.filter_find fun r hr => by
    simp only [Bool.and_eq_true, decide_eq_true_eq] at hr
    exact hr.2

/-- The error where no row was updated is about the organisation's own row. -/
theorem notUpdated_eq (s : Store) (orgId id : String) :
    notUpdated s orgId id =
      if ((s.findById id).filter fun r => r.orgId = orgId).isSome then
        .conflict "VERSION_CONFLICT" "Workspace was modified by another request"
      else .notFound "Workspace" := by
  unfold notUpdated
  cases s.findById id with
  | none => rfl
  | some r =>
    by_cases h : r.orgId = orgId
    · simp [h]
    · simp [h]

/-- **Where some field is set**, the response is about the organisation's own rows. -/
theorem patch_of_set (s : Store) (hdata : data.isEmpty = false) :
    patch s orgId id data version userId =
      match s.updatable orgId id version with
      | some r => .ok (data.set s.now r)
      | none => .error (notUpdated s orgId id) := by
  unfold patch updateWorkspace Store.update Store.updateWhere
  rw [if_neg (by rw [hdata]; exact Bool.false_ne_true)]
  cases s.updatable orgId id version <;> rfl

/-- **Where no field is set**, it is whatever has the id. -/
theorem patch_of_empty (s : Store) (hdata : data.isEmpty = true) :
    patch s orgId id data version userId =
      match s.findById id with
      | some r => .ok r
      | none => .error (.notFound "Workspace") := by
  unfold patch updateWorkspace Store.update
  rw [if_pos hdata]
  cases hfind : s.findById id with
  | none => simp [notUpdated, hfind]
  | some r => rfl

theorem Agree.patch_same (h : Agree orgId s s') (hdata : data.isEmpty = false) :
    patch s orgId id data version userId = patch s' orgId id data version userId := by
  have hrow : s.updatable orgId id version = s'.updatable orgId id version :=
    h.primary.filter_find fun r hr => (of_decide_eq_true hr).1
  rw [patch_of_set s hdata, patch_of_set s' hdata, hrow, h.now, notUpdated_eq, notUpdated_eq, h.own_eq]

/-- What the replica has under an id is the organisation's own row or a foreign one. -/
theorem findById_eq (s : Store) (orgId id : String) :
    s.findById id =
      ((s.findById id).filter fun r => r.orgId = orgId).or (s.foreign orgId id) := by
  unfold Store.foreign
  cases s.findById id with
  | none => rfl
  | some r =>
    rw [Option.filter_some, Option.filter_some]
    by_cases h : r.orgId = orgId <;> simp [h]

/-- The response to an empty patch tells a foreign workspace from none, and from another. -/
theorem foreign_eq_of_same (hdata : data.isEmpty = true)
    (hsame : patch s orgId id data version userId = patch s' orgId id data version userId) :
    s.foreign orgId id = s'.foreign orgId id := by
  have hfind : s.findById id = s'.findById id := by
    rw [patch_of_empty s hdata, patch_of_empty s' hdata] at hsame
    cases hs : s.findById id with
    | none => cases hs' : s'.findById id <;> simp_all
    | some r => cases hs' : s'.findById id <;> simp_all
  rw [Store.foreign, Store.foreign, hfind]

/-- **The response is the same** for two databases that agree on the rows of the organisation,
exactly where the patch sets a field or the id names the same workspace of other organisations in
both. -/
theorem patch_same_iff (h : Agree orgId s s') :
    patch s orgId id data version userId = patch s' orgId id data version userId ↔
      data.isEmpty = false ∨ s.foreign orgId id = s'.foreign orgId id := by
  constructor
  · intro hsame
    cases hdata : data.isEmpty with
    | false => exact .inl rfl
    | true => exact .inr (foreign_eq_of_same hdata hsame)
  · rintro (hdata | hforeign)
    · exact h.patch_same hdata
    · cases hdata : data.isEmpty with
      | false => exact h.patch_same hdata
      | true =>
        rw [patch_of_empty s hdata, patch_of_empty s' hdata, findById_eq s orgId,
          findById_eq s' orgId, h.own_eq, hforeign]

/-- The GET of a workspace says nothing about other organisations. -/
theorem get_same (h : Agree orgId s s') : getWorkspace s orgId id = getWorkspace s' orgId id := by
  have hget (s : Store) : getWorkspace s orgId id =
      match (s.findById id).filter fun r => r.orgId = orgId with
      | some ws => .ok ws
      | none => .error (.notFound "Workspace") := by
    unfold getWorkspace
    cases s.findById id with
    | none => rfl
    | some r =>
      rw [Option.filter_some]
      by_cases hr : r.orgId = orgId <;> simp [hr]
  rw [hget, hget, h.own_eq]

/-! ### A workspace of somebody else -/

/-- A workspace of the organisation `b`. -/
def foreignRow : WorkspaceRow := ⟨"w", "b", "Payroll", none, .active, "u", none, 0, 0, 1⟩

def emptyStore : Store := ⟨0, .empty, .empty, []⟩

/-- The same database with the workspace of `b`. -/
def foreignStore : Store := ⟨0, ⟨[foreignRow], by decide⟩, ⟨[foreignRow], by decide⟩, []⟩

/-- The two example stores agree for the organisation. -/
theorem agree_foreign : Agree "a" emptyStore foreignStore := by
  have hrows : SameRows "a" .empty ⟨[foreignRow], by decide⟩ := by
    intro r hr
    constructor
    · intro h
      cases h
    · intro h
      rw [List.mem_singleton.mp h] at hr
      exact absurd hr (by decide)
  exact ⟨rfl, hrows, hrows⟩

/-- A patch that sets the name. -/
theorem rename_same :
    patch emptyStore "a" "w" ⟨some "Mine", none, none⟩ 1 "u" =
      patch foreignStore "a" "w" ⟨some "Mine", none, none⟩ 1 "u" :=
  (patch_same_iff agree_foreign).mpr (.inl rfl)

/-- **The empty patch answers with the workspace of the other organisation.** -/
theorem empty_patch_reveals :
    ¬ ∀ (orgId id userId : String) (data : UpdateWorkspaceData) (version : ℕ) (s s' : Store),
      Agree orgId s s' →
        patch s orgId id data version userId = patch s' orgId id data version userId := by
  intro h
  have hsame := h "a" "w" "u" ⟨none, none, none⟩ 1 emptyStore foreignStore agree_foreign
  have hnone : patch emptyStore "a" "w" ⟨none, none, none⟩ 1 "u" = .error (.notFound "Workspace") :=
    rfl
  have hsome : patch foreignStore "a" "w" ⟨none, none, none⟩ 1 "u" = .ok foreignRow := rfl
  rw [hnone, hsome] at hsame
  cases hsame

end WorkPlatform.Workspace

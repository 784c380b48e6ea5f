import WorkPlatform.Machinery.Noninterference
import WorkPlatform.Organization.Store
import WorkPlatform.Task.Edit

/-!
# Task/Template — the task templates of an organisation

    createTemplate   assertAdminOrOwner ▸ insert
    listTemplates    select
    getTemplate      select
    deleteTemplate   assertAdminOrOwner ▸ update

Reads are on the replica, the membership of the caller included; writes are on the primary.  Every
statement names the organisation of the route, and what it is answered depends on the rows of that
organisation only (`template_apart`).
-/

namespace WorkPlatform.Template

open Machinery
open Organization (MembershipRow)
open WorkPlatform.Task (TaskPriority)

/-! ## Rows -/

/-- A row of `task_templates`; a description is its JSON text. -/
structure TaskTemplateRow where
  id : String
  orgId : String
  name : String
  defaultTitle : Option String
  defaultDescription : Option String
  defaultPriority : Option TaskPriority
  defaultLabels : List String
  createdBy : String
  deletedAt : Option ℕ
  createdAt : ℕ
  deriving DecidableEq

/-- `CreateTemplateInput`. -/
structure CreateTemplateInput where
  name : String
  defaultTitle : Option String
  defaultDescription : Option String
  defaultPriority : Option TaskPriority
  defaultLabels : Option (List String)
  deriving DecidableEq

/-- The row of the INSERT. -/
def CreateTemplateInput.row (input : CreateTemplateInput) (id orgId userId : String) (now : ℕ) :
    TaskTemplateRow where
  id := id
  orgId := orgId
  name := input.name
  defaultTitle := input.defaultTitle
  defaultDescription := input.defaultDescription
  defaultPriority := input.defaultPriority
  defaultLabels := input.defaultLabels.getD []
  createdBy := userId
  deletedAt := none
  createdAt := now

namespace TaskTemplateRow

/-- `WHERE org_id = $1 AND deleted_at IS NULL`. -/
def liveIn (orgId : String) (r : TaskTemplateRow) : Bool := r.orgId = orgId ∧ r.deletedAt = none

/-- `WHERE id = $1 AND org_id = $2 AND deleted_at IS NULL`. -/
def isLive (id orgId : String) (r : TaskTemplateRow) : Bool := r.id = id ∧ r.liveIn orgId

/-- `SET deleted_at = NOW()` where the row is that of the statement. -/
def softDelete (id orgId : String) (now : ℕ) (r : TaskTemplateRow) : TaskTemplateRow :=
  if r.isLive id orgId then { r with deletedAt := some now } else r

theorem softDelete_id (id orgId : String) (now : ℕ) (r : TaskTemplateRow) :
    (r.softDelete id orgId now).id = r.id := by
  unfold softDelete
  split <;> rfl

theorem softDelete_orgId (id orgId : String) (now : ℕ) (r : TaskTemplateRow) :
    (r.softDelete id orgId now).orgId = r.orgId := by
  unfold softDelete
  split <;> rfl

theorem orgId_of_liveIn {orgId : String} {r : TaskTemplateRow} (h : r.liveIn orgId = true) :
    r.orgId = orgId :=
  (of_decide_eq_true h).1

theorem orgId_of_isLive {id orgId : String} {r : TaskTemplateRow} (h : r.isLive id orgId = true) :
    r.orgId = orgId :=
  orgId_of_liveIn (of_decide_eq_true h).2

theorem softDelete_of_ne {id orgId : String} {now : ℕ} {r : TaskTemplateRow}
    (h : r.orgId ≠ orgId) : r.softDelete id orgId now = r :=
  if_neg fun hlive => h (orgId_of_isLive hlive)

end TaskTemplateRow

/-! ## The store -/

/-- `org_memberships` is the replica's. -/
structure Store where
  now : ℕ
  memberships : List MembershipRow
  primary : Table TaskTemplateRow.id
  replica : Table TaskTemplateRow.id

/-- The id of a new row, and the order PostgreSQL gives to rows of one time. -/
structure Draw where
  id : String
  rank : String → ℕ

/-- `ORDER BY created_at ASC`. -/
def older (d : Draw) (r r' : TaskTemplateRow) : Prop :=
  r.createdAt < r'.createdAt ∨ r.createdAt = r'.createdAt ∧ d.rank r.id ≤ d.rank r'.id

instance (d : Draw) : DecidableRel (older d) := fun _ _ => inferInstanceAs (Decidable (_ ∨ _))

namespace Store

/-- `findMembership`, on the replica. -/
def findMembership (s : Store) (orgId userId : String) : Option MembershipRow :=
  s.memberships.find? (·.isOf orgId userId)

/-- `listTemplates`. -/
def listTemplates (s : Store) (d : Draw) (orgId : String) : List TaskTemplateRow :=
  (s.replica.rows.filter (·.liveIn orgId)).insertionSort (older d)

/-- `getTemplate`. -/
def getTemplate (s : Store) (orgId templateId : String) : Option TaskTemplateRow :=
  s.replica.rows.find? (·.isLive templateId orgId)

def insertTemplate (s : Store) (r : TaskTemplateRow) : Option Store :=
  (s.primary.insert r).map fun t => { s with primary := t }

/-- The UPDATE of `deleteTemplate`. -/
def softDelete (s : Store) (orgId templateId : String) : Store :=
  { s with
    primary := s.primary.map (.softDelete templateId orgId s.now)
      (TaskTemplateRow.softDelete_id templateId orgId s.now) }

end Store

/-! ## The service -/

/-- `assertAdminOrOwner`, of the membership it has found. -/
def assertAdminOrOwner (membership : Option MembershipRow) : Option AppError :=
  if membership.any fun m => m.role = .orgOwner ∨ m.role = .orgAdmin then none
  else some (Task.insufficientRole "Only org admins or owners can manage templates")

/-- Where a call of `createTemplate` is. -/
inductive CreatePc
  | assertAdminOrOwner
  | insert
  | returned (template : TaskTemplateRow)
  | threw (e : AppError)
  | failed
  deriving DecidableEq

/-- Where a call of `listTemplates` is. -/
inductive ListPc
  | select
  | returned (templates : List TaskTemplateRow)
  deriving DecidableEq

/-- Where a call of `getTemplate` is. -/
inductive GetPc
  | select
  | returned (template : TaskTemplateRow)
  | threw (e : AppError)
  deriving DecidableEq

/-- Where a call of `deleteTemplate` is. -/
inductive DeletePc
  | assertAdminOrOwner
  | update
  | returned
  | threw (e : AppError)
  deriving DecidableEq

/-- The next statement of `createTemplate`. -/
def createNext (s : Store) (d : Draw) (orgId userId : String) (input : CreateTemplateInput) :
    CreatePc → Option (Store × CreatePc)
  | .assertAdminOrOwner => some (s,
      match Template.assertAdminOrOwner (s.findMembership orgId userId) with
      | some e => .threw e
      | none => .insert)
  | .insert =>
    match s.insertTemplate (input.row d.id orgId userId s.now) with
    | some s' => some (s', .returned (input.row d.id orgId userId s.now))
    | none => some (s, .failed)
  | .returned _ | .threw _ | .failed => none

def listNext (s : Store) (d : Draw) (orgId : String) : ListPc → Option (Store × ListPc)
  | .select => some (s, .returned (s.listTemplates d orgId))
  | .returned _ => none

/-- The next statement of `getTemplate`. -/
def getNext (s : Store) (orgId templateId : String) : GetPc → Option (Store × GetPc)
  | .select => some (s,
      match s.getTemplate orgId templateId with
      | some template => .returned template
      | none => .threw (.notFound "TaskTemplate"))
  | .returned _ | .threw _ => none

/-- The UPDATE returns a row where there was one to delete. -/
def deleteNext (s : Store) (orgId templateId userId : String) :
    DeletePc → Option (Store × DeletePc)
  | .assertAdminOrOwner => some (s,
      match Template.assertAdminOrOwner (s.findMembership orgId userId) with
      | some e => .threw e
      | none => .update)
  | .update => some (s.softDelete orgId templateId,
      if s.primary.rows.any (·.isLive templateId orgId) then .returned
      else .threw (.notFound "TaskTemplate"))
  | .returned | .threw _ => none

/-! ## The machine -/

/-- A call, and where it is. -/
inductive Call
  | createTemplate (orgId userId : String) (input : CreateTemplateInput) (pc : CreatePc)
  | listTemplates (orgId : String) (pc : ListPc)
  | getTemplate (orgId templateId : String) (pc : GetPc)
  | deleteTemplate (orgId templateId userId : String) (pc : DeletePc)
  deriving DecidableEq

/-- The organisation of the route. -/
def Call.orgId : Call → String
  | .createTemplate orgId _ _ _ | .listTemplates orgId _ | .getTemplate orgId _ _
  | .deleteTemplate orgId _ _ _ => orgId

/-- Time, replication, and the memberships of an organisation, which other services write. -/
inductive Env
  | tick (ms : ℕ)
  | replicate
  | writeMemberships (orgId : String) (rows : List MembershipRow)

/-- Whose act an act of the environment is. -/
def Env.author : Env → Option String
  | .tick _ | .replicate => none
  | .writeMemberships orgId _ => some orgId

/-- Time, replication, and changes of members. -/
def env (s : Store) : Env → Store
  | .tick ms => { s with now := s.now + ms }
  | .replicate => { s with replica := s.primary }
  | .writeMemberships orgId rows =>
    { s with
      memberships := rows.filter (·.orgId = orgId) ++ s.memberships.filter (·.orgId ≠ orgId) }

/-- The next statement of a call. -/
def Call.next (s : Store) (d : Draw) : Call → Option (Store × Call)
  | .createTemplate orgId userId input pc =>
    (createNext s d orgId userId input pc).map fun x =>
      (x.1, .createTemplate orgId userId input x.2)
  | .listTemplates orgId pc => (listNext s d orgId pc).map fun x => (x.1, .listTemplates orgId x.2)
  | .getTemplate orgId templateId pc =>
    (getNext s orgId templateId pc).map fun x => (x.1, .getTemplate orgId templateId x.2)
  | .deleteTemplate orgId templateId userId pc =>
    (deleteNext s orgId templateId userId pc).map fun x =>
      (x.1, .deleteTemplate orgId templateId userId x.2)

def templateMachine : Machine Store Call Draw Env := ⟨fun s c d => c.next s d, env⟩

/-! ## Organisations apart -/

/-- What an organisation sees. -/
structure Sees (orgId : String) (s t : Store) : Prop where
  now : t.now = s.now
  memberships : t.memberships.filter (·.orgId = orgId) = s.memberships.filter (·.orgId = orgId)
  primary : SeesRows TaskTemplateRow.orgId orgId s.primary t.primary
  replica : SeesRows TaskTemplateRow.orgId orgId s.replica t.replica

def templateTenancy : Tenancy Store Call Env String := ⟨Call.orgId, Env.author, Sees⟩

/-- The next statement of the call is an INSERT. -/
def Call.inserts : Call → Bool
  | .createTemplate _ _ _ .insert => true
  | _ => false

/-- The id of a new row is a new one. -/
def Unused (s : Store) (c : Call) (d : Draw) : Prop := c.inserts = true → s.primary.find d.id = none

instance (s : Store) (c : Call) (d : Draw) : Decidable (Unused s c d) :=
  inferInstanceAs (Decidable (_ → _))

theorem Sees.refl (orgId : String) (s : Store) : Sees orgId s s :=
  ⟨rfl, rfl, .refl _, .refl _⟩

section Apart

variable {s s' t : Store} {d : Draw} {orgId u : String}

theorem Sees.findMembership (h : Sees u s t) (userId : String) :
    t.findMembership u userId = s.findMembership u userId :=
  find?_of_part h.memberships fun _ hm => decide_eq_true (of_decide_eq_true hm).1

theorem Sees.listTemplates (h : Sees u s t) (d : Draw) :
    t.listTemplates d u = s.listTemplates d u := by
  unfold Store.listTemplates
  rw [h.replica.filter_eq fun _ => TaskTemplateRow.orgId_of_liveIn]

theorem Sees.getTemplate (h : Sees u s t) (templateId : String) :
    t.getTemplate u templateId = s.getTemplate u templateId :=
  h.replica.find?_eq fun _ => TaskTemplateRow.orgId_of_isLive

theorem Sees.softDelete (h : Sees u s t) (templateId : String) :
    Sees u (s.softDelete u templateId) (t.softDelete u templateId) := by
  have hmap := h.primary.map_own (TaskTemplateRow.softDelete_id templateId u s.now)
    (TaskTemplateRow.softDelete_orgId templateId u s.now)
  refine ⟨h.now, h.memberships, ?_, h.replica⟩
  simp only [Store.softDelete, h.now]
  exact hmap

theorem Sees.softDelete_other (h : Sees u s t) (hne : orgId ≠ u) (templateId : String) :
    Sees u (s.softDelete orgId templateId) t :=
  ⟨h.now, h.memberships,
    h.primary.map_other (TaskTemplateRow.softDelete_id templateId orgId s.now)
      (TaskTemplateRow.softDelete_orgId templateId orgId s.now)
      fun _ hr => TaskTemplateRow.softDelete_of_ne (hr.trans_ne hne.symm), h.replica⟩

/-- A statement of an organisation goes by what that organisation sees. -/
theorem template_own {c c' : Call} (h : Sees u s t) (hc : c.orgId = u) (hG : Unused s c d)
    (hn : c.next s d = some (s', c')) :
    Unused t c d ∧ ∃ t', c.next t d = some (t', c') ∧ Sees u s' t' := by
  cases c with
  | createTemplate orgId userId input pc =>
    obtain rfl : orgId = u := hc
    obtain ⟨pc', hpc, rfl⟩ := pc_of_next hn
    cases pc with
    | assertAdminOrOwner =>
      obtain ⟨rfl, rfl⟩ := Prod.mk.inj (Option.some.inj hpc)
      refine ⟨nofun, t, ?_, h⟩
      rw [Call.next, createNext, h.findMembership]
      rfl
    | insert =>
      refine ⟨fun _ => h.primary.find_none (hG rfl), ?_⟩
      rw [createNext] at hpc
      cases hins : s.primary.insert (input.row d.id orgId userId s.now) with
      | none =>
        obtain ⟨r, hr⟩ := Table.find_of_insert_none hins
        exact absurd ((hG rfl).symm.trans hr) nofun
      | some rows =>
        rw [Store.insertTemplate, hins] at hpc
        obtain ⟨rfl, rfl⟩ := Prod.mk.inj (Option.some.inj hpc)
        obtain ⟨rows', hins', hsees⟩ := h.primary.insert_own hins
        refine ⟨{ t with primary := rows' }, ?_, h.now, h.memberships, hsees, h.replica⟩
        have hrow : input.row d.id orgId userId t.now = input.row d.id orgId userId s.now :=
          congrArg _ h.now
        rw [Call.next, createNext, hrow, Store.insertTemplate, hins']
        rfl
    | returned _ | threw _ | failed => cases hpc
  | listTemplates orgId pc =>
    obtain rfl : orgId = u := hc
    obtain ⟨pc', hpc, rfl⟩ := pc_of_next hn
    cases pc with
    | select =>
      obtain ⟨rfl, rfl⟩ := Prod.mk.inj (Option.some.inj hpc)
      refine ⟨nofun, t, ?_, h⟩
      rw [Call.next, listNext, h.listTemplates]
      rfl
    | returned _ => cases hpc
  | getTemplate orgId templateId pc =>
    obtain rfl : orgId = u := hc
    obtain ⟨pc', hpc, rfl⟩ := pc_of_next hn
    cases pc with
    | select =>
      obtain ⟨rfl, rfl⟩ := Prod.mk.inj (Option.some.inj hpc)
      refine ⟨nofun, t, ?_, h⟩
      rw [Call.next, getNext, h.getTemplate]
      rfl
    | returned _ | threw _ => cases hpc
  | deleteTemplate orgId templateId userId pc =>
    obtain rfl : orgId = u := hc
    obtain ⟨pc', hpc, rfl⟩ := pc_of_next hn
    cases pc with
    | assertAdminOrOwner =>
      obtain ⟨rfl, rfl⟩ := Prod.mk.inj (Option.some.inj hpc)
      refine ⟨nofun, t, ?_, h⟩
      rw [Call.next, deleteNext, h.findMembership]
      rfl
    | update =>
      obtain ⟨rfl, rfl⟩ := Prod.mk.inj (Option.some.inj hpc)
      refine ⟨nofun, t.softDelete orgId templateId, ?_, h.softDelete templateId⟩
      rw [Call.next, deleteNext, h.primary.any_eq fun _ => TaskTemplateRow.orgId_of_isLive]
      rfl
    | returned | threw _ => cases hpc

/-- A statement of another organisation changes nothing that is seen. -/
theorem template_other {c c' : Call} (h : Sees u s t) (hc : c.orgId ≠ u)
    (hn : c.next s d = some (s', c')) : Sees u s' t := by
  cases c with
  | createTemplate orgId userId input pc =>
    obtain ⟨pc', hpc, rfl⟩ := pc_of_next hn
    cases pc with
    | assertAdminOrOwner =>
      obtain ⟨rfl, rfl⟩ := Prod.mk.inj (Option.some.inj hpc)
      exact h
    | insert =>
      rw [createNext] at hpc
      split at hpc
      case h_1 s₁ hins =>
        obtain ⟨rfl, rfl⟩ := Prod.mk.inj (Option.some.inj hpc)
        obtain ⟨rows, hrows, rfl⟩ := Option.map_eq_some_iff.mp hins
        exact ⟨h.now, h.memberships, h.primary.insert_other hc hrows, h.replica⟩
      case h_2 =>
        obtain ⟨rfl, rfl⟩ := Prod.mk.inj (Option.some.inj hpc)
        exact h
    | returned _ | threw _ | failed => cases hpc
  | listTemplates orgId pc =>
    obtain ⟨pc', hpc, rfl⟩ := pc_of_next hn
    cases pc with
    | select =>
      obtain ⟨rfl, rfl⟩ := Prod.mk.inj (Option.some.inj hpc)
      exact h
    | returned _ => cases hpc
  | getTemplate orgId templateId pc =>
    obtain ⟨pc', hpc, rfl⟩ := pc_of_next hn
    cases pc with
    | select =>
      obtain ⟨rfl, rfl⟩ := Prod.mk.inj (Option.some.inj hpc)
      exact h
    | returned _ | threw _ => cases hpc
  | deleteTemplate orgId templateId userId pc =>
    obtain ⟨pc', hpc, rfl⟩ := pc_of_next hn
    cases pc with
    | assertAdminOrOwner =>
      obtain ⟨rfl, rfl⟩ := Prod.mk.inj (Option.some.inj hpc)
      exact h
    | update =>
      obtain ⟨rfl, rfl⟩ := Prod.mk.inj (Option.some.inj hpc)
      exact h.softDelete_other hc templateId
    | returned | threw _ => cases hpc

/-- The memberships of an organisation, and of another one. -/
theorem filter_memberships (s : Store) (orgId u : String) (rows : List MembershipRow) :
    (env s (.writeMemberships orgId rows)).memberships.filter (·.orgId = u)
      = if orgId = u then rows.filter (·.orgId = u) else s.memberships.filter (·.orgId = u) := by
  simp only [env]
  rw [List.filter_append, List.filter_filter, List.filter_filter]
  split
  case isTrue h =>
    subst h
    have hnone : s.memberships.filter
        (fun m => decide (m.orgId = orgId) && decide (m.orgId ≠ orgId)) = [] :=
      List.filter_eq_nil_iff.mpr fun m _ => by simp
    rw [hnone, List.append_nil]
    exact List.filter_congr fun m _ => Bool.and_self _
  case isFalse h =>
    have hnone : rows.filter (fun m => decide (m.orgId = u) && decide (m.orgId = orgId)) = [] := by
      refine List.filter_eq_nil_iff.mpr fun m _ hm => ?_
      simp only [Bool.and_eq_true, decide_eq_true_eq] at hm
      exact h (hm.2.symm.trans hm.1)
    rw [hnone, List.nil_append]
    refine List.filter_congr fun m _ => ?_
    by_cases hm : m.orgId = u
    · simp [hm, Ne.symm h]
    · simp [hm]

/-- **Organisations are kept apart** by the services of the templates. -/
theorem template_apart : templateTenancy.Apart templateMachine fun s c d => Unused s c d where
  owner_next := by
    intro s c d s' c' hn
    cases c <;>
      (obtain ⟨pc', -, rfl⟩ := pc_of_next hn
       rfl)
  own := fun u s t c d s' c' h hc hG hn => template_own h hc hG hn
  other := fun u s t c d s' c' h hc _ hn => template_other h hc hn
  env_own := by
    intro u s t e h hv
    cases e with
    | tick ms => exact ⟨congrArg (· + ms) h.now, h.memberships, h.primary, h.replica⟩
    | replicate => exact ⟨h.now, h.memberships, h.primary, h.primary⟩
    | writeMemberships orgId rows =>
      obtain rfl : orgId = u := hv orgId rfl
      refine ⟨h.now, ?_, h.primary, h.replica⟩
      exact ((filter_memberships t orgId orgId rows).trans (if_pos rfl)).trans
        ((filter_memberships s orgId orgId rows).trans (if_pos rfl)).symm
  env_other := by
    intro u s t e v h hv hne
    cases e with
    | tick ms => cases hv
    | replicate => cases hv
    | writeMemberships orgId rows =>
      obtain rfl : orgId = v := Option.some.inj hv
      refine ⟨h.now, ?_, h.primary, h.replica⟩
      exact h.memberships.trans ((filter_memberships s orgId u rows).trans (if_neg hne)).symm

end Apart

end WorkPlatform.Template

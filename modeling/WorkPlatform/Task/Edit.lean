import WorkPlatform.Machinery.Run
import WorkPlatform.Machinery.Table
import WorkPlatform.Shared.AppError

/-!
# Task/Edit — everything that changes a task

    updateTask         find ▸ membership ▸ update ▸ (getAssignees ▸ remove … ▸ add …)
                         ▸ outbox ▸ activity ▸ (enqueue)
                       where the UPDATE finds no row: ▸ recheck
    deleteTask         find ▸ membership ▸ (BEGIN cascade ▸ root ▸ commit) ▸ outbox ▸ audit
    bulkUpdateStatus   membership ▸ update
    bulkDelete         membership ▸ update

A move of a call is one statement and the code after it, up to the next statement.  Only the UPDATE
of `updateTask` looks at `version` and raises it.

The UPDATEs of `cascadeSoftDelete` are two of a transaction: what they have deleted is there for
everybody else until COMMIT, and a task may be inserted below it; a call that stops before has
deleted nothing.  An UPDATE that meets a row the transaction holds waits for its end; here it may
run before that too.

An UPDATE that names a board there is none of, or that would give two live children of a recurring
task one UTC date, is refused, and its call fails.  A statement that is refused for want of a user
or an organisation is a crash of its call.
-/

namespace WorkPlatform.Task

open Machinery

/-! ## Rows -/

inductive TaskStatus
  | todo | inProgress | inReview | done | cancelled
  deriving DecidableEq, Repr

/-- The status as it is stored. -/
def TaskStatus.text : TaskStatus → String
  | .todo => "todo"
  | .inProgress => "in_progress"
  | .inReview => "in_review"
  | .done => "done"
  | .cancelled => "cancelled"

inductive TaskPriority
  | low | medium | high | urgent
  deriving DecidableEq, Repr

inductive MemberRole
  | orgOwner | orgAdmin | member | guest
  deriving DecidableEq, Repr

/-- A row of `tasks`, less the columns no statement here sets or reads; a description is its JSON
text. -/
structure TaskRow where
  id : String
  orgId : String
  workspaceId : String
  boardId : Option String
  parentTaskId : Option String
  depth : ℕ
  title : String
  description : Option String
  status : TaskStatus
  priority : TaskPriority
  creatorId : String
  dueDate : Option ℕ
  completedAt : Option ℕ
  isRecurring : Bool
  recurrenceRule : Option String
  recurrenceParentId : Option String
  labels : List String
  deletedAt : Option ℕ
  version : ℕ
  deriving DecidableEq

/-- `timestamptz_to_date_utc`, in days since the epoch. -/
def utcDate (time : ℕ) : ℕ := time / (24 * 60 * 60 * 1000)

/-- A row of `workspaces`. -/
structure WorkspaceRow where
  id : String
  orgId : String
  deletedAt : Option ℕ
  deriving DecidableEq

/-- A row of `boards`. -/
structure BoardRow where
  id : String
  orgId : String
  workspaceId : String
  deletedAt : Option ℕ
  deriving DecidableEq

inductive EventType
  | taskCreated | taskUpdated | taskDeleted | workspaceDeleted
  deriving DecidableEq, Repr

/-- A row of `outbox_events`, less its payload. -/
structure OutboxEvent where
  type : EventType
  orgId : String
  entityId : String
  actorUserId : Option String
  deriving DecidableEq

/-- `UpdateTaskData`: the columns a caller gives, each to be set where it is given. -/
structure UpdateTaskData where
  title : Option String
  description : Option (Option String)
  status : Option TaskStatus
  priority : Option TaskPriority
  dueDate : Option (Option ℕ)
  boardId : Option (Option String)
  labels : Option (List String)
  isRecurring : Option Bool
  recurrenceRule : Option (Option String)
  deriving DecidableEq

/-- `setClauses.length === 0`. -/
def UpdateTaskData.isEmpty (d : UpdateTaskData) : Bool :=
  d.title.isNone ∧ d.description.isNone ∧ d.status.isNone ∧ d.priority.isNone ∧ d.dueDate.isNone
    ∧ d.boardId.isNone ∧ d.labels.isNone ∧ d.isRecurring.isNone ∧ d.recurrenceRule.isNone

namespace TaskRow

/-- The SET of `TaskRepository.update`. -/
def patch (d : UpdateTaskData) (now : ℕ) (r : TaskRow) : TaskRow :=
  { r with
    title := d.title.getD r.title
    description := d.description.getD r.description
    status := d.status.getD r.status
    completedAt := if d.status = some .done then some now else r.completedAt
    priority := d.priority.getD r.priority
    dueDate := d.dueDate.getD r.dueDate
    boardId := d.boardId.getD r.boardId
    labels := d.labels.getD r.labels
    isRecurring := d.isRecurring.getD r.isRecurring
    recurrenceRule := d.recurrenceRule.getD r.recurrenceRule
    version := r.version + 1 }

/-- Its WHERE, for the row of the task. -/
def current (orgId : String) (expectedVersion : ℕ) (r : TaskRow) : Bool :=
  r.orgId = orgId ∧ r.version = expectedVersion ∧ r.deletedAt = none

/-- `bulkUpdateStatus`, for one row. -/
def bulkStatus (orgId : String) (taskIds : List String) (status : TaskStatus) (now : ℕ)
    (r : TaskRow) : TaskRow :=
  if r.orgId = orgId ∧ r.id ∈ taskIds ∧ r.deletedAt = none then
    { r with
      status := status
      completedAt := if status = .done then some now else r.completedAt }
  else r

/-- A soft delete of the rows `p` selects, for one row. -/
def softDelete (p : TaskRow → Bool) (now : ℕ) (r : TaskRow) : TaskRow :=
  if p r then { r with deletedAt := some now } else r

/-- The key of a row in `idx_tasks_recurrence_dedup`, where it has one. -/
def dedupKey (r : TaskRow) : Option (String × ℕ) :=
  if r.deletedAt = none then
    r.recurrenceParentId.bind fun parent => r.dueDate.map fun due => (parent, utcDate due)
  else none

@[simp] theorem patch_id (d : UpdateTaskData) (now : ℕ) (r : TaskRow) :
    (r.patch d now).id = r.id := rfl

@[simp] theorem bulkStatus_id (orgId : String) (taskIds : List String) (status : TaskStatus)
    (now : ℕ) (r : TaskRow) : (r.bulkStatus orgId taskIds status now).id = r.id := by
  unfold bulkStatus
  split <;> rfl

@[simp] theorem softDelete_id (p : TaskRow → Bool) (now : ℕ) (r : TaskRow) :
    (r.softDelete p now).id = r.id := by
  unfold softDelete
  split <;> rfl

end TaskRow

/-! ## The store -/

/-- `assignees` is the primary's `task_assignees`, `replicaAssignees` the replica's; `members` are
the memberships of an organisation that are not deleted, `roles` those the replica has.  A
membership that is not deleted is active: only `removeMembership` ends one, and it sets both
columns. -/
structure Store where
  now : ℕ
  tasks : Table TaskRow.id
  assignees : String → List String
  replicaAssignees : String → List String
  members : String → String → Option MemberRole
  roles : String → String → Option MemberRole
  workspaces : Table WorkspaceRow.id
  replicaWorkspaces : Table WorkspaceRow.id
  boards : Table BoardRow.id
  outbox : List OutboxEvent

namespace Store

/-- `TaskRepository.findById`. -/
def findById (s : Store) (taskId : String) : Option TaskRow :=
  (s.tasks.find taskId).filter fun r => r.deletedAt = none

/-- Another live row has the row's place in `idx_tasks_recurrence_dedup`. -/
def duplicate (s : Store) (r : TaskRow) : Bool :=
  s.tasks.rows.any fun other => other.id ≠ r.id ∧ r.dedupKey.isSome ∧ other.dedupKey = r.dedupKey

/-- The UPDATE is refused: a board there is none of, or a due date another child has. -/
def refuses (s : Store) (d : UpdateTaskData) (r : TaskRow) : Bool :=
  (d.boardId.any fun board => board.any fun id => (s.boards.find id).isNone)
    ∨ d.dueDate.isSome ∧ s.duplicate (r.patch d s.now)

/-- The versioned UPDATE, where its row was found. -/
def patch (s : Store) (taskId : String) (d : UpdateTaskData) : Store :=
  { s with tasks := s.tasks.update taskId (.patch d s.now) (TaskRow.patch_id d s.now) }

/-- The UPDATE of `bulkUpdateStatus`. -/
def bulkUpdateStatus (s : Store) (orgId : String) (taskIds : List String) (status : TaskStatus) :
    Store :=
  { s with
    tasks := s.tasks.map (.bulkStatus orgId taskIds status s.now)
      (TaskRow.bulkStatus_id orgId taskIds status s.now) }

/-- A soft delete whose transaction began at `time`. -/
def softDelete (s : Store) (time : ℕ) (p : TaskRow → Bool) : Store :=
  { s with tasks := s.tasks.map (.softDelete p time) (TaskRow.softDelete_id p time) }

/-- `INSERT INTO task_assignees … ON CONFLICT DO NOTHING`. -/
def addAssignee (s : Store) (taskId userId : String) : Store :=
  { s with
    assignees := Function.update s.assignees taskId <|
      if userId ∈ s.assignees taskId then s.assignees taskId
      else s.assignees taskId ++ [userId] }

/-- `DELETE FROM task_assignees WHERE task_id = $1 AND user_id = $2`. -/
def removeAssignee (s : Store) (taskId userId : String) : Store :=
  { s with
    assignees := Function.update s.assignees taskId <|
      (s.assignees taskId).filter (· ≠ userId) }

def writeOutboxEvent (s : Store) (type : EventType) (orgId entityId : String)
    (actorUserId : Option String) : Store :=
  { s with outbox := ⟨type, orgId, entityId, actorUserId⟩ :: s.outbox }

/-- The recursive query of `cascadeSoftDelete`, one generation after the other. -/
def subtasks (s : Store) (orgId : String) : ℕ → List String → List String
  | 0, _ => []
  | n + 1, parents =>
    let children := (s.tasks.rows.filter fun r =>
      r.orgId = orgId ∧ r.deletedAt = none ∧ r.parentTaskId.any (· ∈ parents)).map (·.id)
    children ++ s.subtasks orgId n children

theorem softDelete_congr {s : Store} {time : ℕ} {p q : TaskRow → Bool}
    (h : ∀ r ∈ s.tasks.rows, p r = q r) : s.softDelete time p = s.softDelete time q := by
  unfold softDelete Table.map
  congr 2
  refine List.map_congr_left fun r hr => ?_
  rw [TaskRow.softDelete, TaskRow.softDelete, h r hr]

/-- The rows the second UPDATE of `cascadeSoftDelete` leaves deleted: those of the first, and the
task. -/
def withRoot (s : Store) (orgId taskId : String) (below : List String) : List String :=
  if (s.tasks.find taskId).any fun r => r.orgId = orgId ∧ r.deletedAt = none then taskId :: below
  else below

/-- `cascadeSoftDelete` with nobody in between: the subtasks, and the task. -/
def cascadeSoftDelete (s : Store) (orgId taskId : String) : Store :=
  let below := s.subtasks orgId s.tasks.rows.length [taskId]
  s.softDelete s.now fun r => r.id ∈ below ∨ r.id = taskId ∧ r.orgId = orgId ∧ r.deletedAt = none

/-- `bulkSoftDelete`. -/
def bulkSoftDelete (s : Store) (orgId : String) (taskIds : List String) : Store :=
  s.softDelete s.now fun r => r.orgId = orgId ∧ r.id ∈ taskIds ∧ r.deletedAt = none

/-- Whether the user is an owner or an admin. -/
def isAdmin (s : Store) (orgId userId : String) : Bool :=
  (s.roles orgId userId).any fun role => role = .orgOwner ∨ role = .orgAdmin

end Store

/-! ## `updateTask` -/

/-- `ALLOWED_TRANSITIONS`. -/
def TaskStatus.allowed : TaskStatus → List TaskStatus
  | .todo => [.inProgress, .cancelled]
  | .inProgress => [.inReview, .done, .cancelled, .todo]
  | .inReview => [.inProgress, .done, .cancelled]
  | .done => [.todo]
  | .cancelled => [.todo]

/-- The arguments of `updateTask`. -/
structure UpdateArgs where
  orgId : String
  taskId : String
  userId : String
  data : UpdateTaskData
  assigneeIds : Option (List String)
  version : ℕ
  deriving DecidableEq

/-- `existing` is the row the call has read, `updated` the row its UPDATE returned. -/
inductive UpdatePc
  | find
  | membership (existing : TaskRow)
  | update
  | recheck
  | getAssignees (updated : TaskRow)
  | remove (updated : TaskRow) (userId : String) (rest : List String)
  | add (updated : TaskRow) (userId : String) (rest : List String)
  | outbox (updated : TaskRow)
  | activity (updated : TaskRow)
  | enqueue (updated : TaskRow)
  | returned (updated : TaskRow)
  | threw (e : AppError)
  | failed
  deriving DecidableEq

def versionConflict : AppError := .conflict "VERSION_CONFLICT" "Task was modified by another request"

def insufficientRole (message : String) : AppError := .forbidden "INSUFFICIENT_ROLE" message

def invalidStatusTransition (existing status : TaskStatus) : AppError :=
  .unprocessable "INVALID_STATUS_TRANSITION"
    ("Cannot transition from " ++ existing.text ++ " to " ++ status.text)

/-- The checks on the row that was found, once the membership is read. -/
def UpdatePc.authorized (a : UpdateArgs) (existing : TaskRow) (isAdmin : Bool) : UpdatePc :=
  if existing.creatorId ≠ a.userId ∧ ¬ isAdmin then
    .threw (insufficientRole "Only the task creator or admins can update this task")
  else
    match a.data.status with
    | none => .update
    | some status =>
      if status = existing.status ∨ status ∈ existing.status.allowed then .update
      else .threw (invalidStatusTransition existing.status status)

/-- What the call goes on with once its UPDATE has returned a row. -/
def UpdatePc.updated (a : UpdateArgs) (updated : TaskRow) : UpdatePc :=
  if a.assigneeIds.isSome then .getAssignees updated else .outbox updated

/-- The loop that adds the new assignees. -/
def UpdatePc.adding (updated : TaskRow) : List String → UpdatePc
  | [] => .outbox updated
  | userId :: rest => .add updated userId rest

/-- The loop that removes the assignees that were read, and then adds the new ones. -/
def UpdatePc.removing (a : UpdateArgs) (updated : TaskRow) : List String → UpdatePc
  | [] => .adding updated (a.assigneeIds.getD [])
  | userId :: rest => .remove updated userId rest

/-- A patch with no column of the table is no UPDATE but a SELECT, which looks at no version. -/
def updateNext (s : Store) (a : UpdateArgs) : UpdatePc → Option (Store × UpdatePc)
  | .find => some (s,
      match s.findById a.taskId with
      | none => .threw (.notFound "Task")
      | some existing =>
        if existing.orgId ≠ a.orgId then .threw (.notFound "Task") else .membership existing)
  | .membership existing => some (s, .authorized a existing (s.isAdmin a.orgId a.userId))
  | .update =>
    if a.data.isEmpty then
      match s.findById a.taskId with
      | none => some (s, .recheck)
      | some r => some (s, .updated a r)
    else
      match (s.tasks.find a.taskId).filter (·.current a.orgId a.version) with
      | none => some (s, .recheck)
      | some r =>
        if s.refuses a.data r then some (s, .failed)
        else some (s.patch a.taskId a.data, .updated a (r.patch a.data s.now))
  | .recheck => some (s,
      match s.findById a.taskId with
      | none => .threw (.notFound "Task")
      | some r => if r.orgId ≠ a.orgId then .threw (.notFound "Task") else .threw versionConflict)
  | .getAssignees u => some (s, .removing a u (s.replicaAssignees a.taskId))
  | .remove u userId rest => some (s.removeAssignee a.taskId userId, .removing a u rest)
  | .add u userId rest => some (s.addAssignee a.taskId userId, .adding u rest)
  | .outbox u =>
    some (s.writeOutboxEvent .taskUpdated a.orgId a.taskId (some a.userId), .activity u)
  | .activity u => some (s,
      if a.data.status = some .done ∧ u.isRecurring then .enqueue u else .returned u)
  | .enqueue u => some (s, .returned u)
  | .returned _ | .threw _ | .failed => none

/-! ## `deleteTask` -/

/-- The transaction of `cascadeSoftDelete` began at `startedAt`; `below` is what its first UPDATE
has deleted, `taskIds` what both have. -/
inductive DeletePc
  | find
  | membership (existing : TaskRow)
  | cascade
  | root (startedAt : ℕ) (below : List String)
  | commit (startedAt : ℕ) (taskIds : List String)
  | outbox
  | audit
  | returned
  | threw (e : AppError)
  deriving DecidableEq

/-- The next statement of `deleteTask`. -/
def deleteNext (s : Store) (orgId taskId userId : String) : DeletePc → Option (Store × DeletePc)
  | .find => some (s,
      match s.findById taskId with
      | none => .threw (.notFound "Task")
      | some existing =>
        if existing.orgId ≠ orgId then .threw (.notFound "Task") else .membership existing)
  | .membership existing => some (s,
      if existing.creatorId ≠ userId ∧ ¬ s.isAdmin orgId userId then
        .threw (insufficientRole "Only the task creator or admins can delete this task")
      else .cascade)
  | .cascade => some (s, .root s.now (s.subtasks orgId s.tasks.rows.length [taskId]))
  | .root startedAt below => some (s, .commit startedAt (s.withRoot orgId taskId below))
  | .commit startedAt taskIds => some (s.softDelete startedAt fun r => r.id ∈ taskIds, .outbox)
  | .outbox => some (s.writeOutboxEvent .taskDeleted orgId taskId (some userId), .audit)
  | .audit => some (s, .returned)
  | .returned | .threw _ => none

/-! ## Bulk operations -/

/-- Where a bulk operation is. -/
inductive BulkPc
  | membership
  | update
  | returned
  | threw (e : AppError)
  deriving DecidableEq

def bulkMax : ℕ := 100

def bulkSizeInvalid : AppError :=
  .unprocessable "BULK_SIZE_INVALID" "Bulk operations require 1–100 task IDs"

/-- The two bulk operations, `write` their UPDATE. -/
def bulkNext (s : Store) (orgId userId : String) (taskIds : List String) (write : Store → Store) :
    BulkPc → Option (Store × BulkPc)
  | .membership => some (s,
      if taskIds.length = 0 ∨ taskIds.length > bulkMax then .threw bulkSizeInvalid
      else if s.isAdmin orgId userId then .update
      else .threw (insufficientRole "Bulk operations require org_admin or org_owner role"))
  | .update => some (write s, .returned)
  | .returned | .threw _ => none

/-! ## The machine -/

/-- A call, and where it is. -/
inductive Call
  | updateTask (args : UpdateArgs) (pc : UpdatePc)
  | deleteTask (orgId taskId userId : String) (pc : DeletePc)
  | bulkUpdateStatus (orgId userId : String) (taskIds : List String) (status : TaskStatus)
      (pc : BulkPc)
  | bulkDelete (orgId userId : String) (taskIds : List String) (pc : BulkPc)
  deriving DecidableEq

/-- What happens around the calls: time, replication, and changes of memberships. -/
inductive Env
  | tick (ms : ℕ)
  | replicate
  | member (orgId userId : String) (role : Option MemberRole)

/-- Time, replication, and changes of members. -/
def env (s : Store) : Env → Store
  | .tick ms => { s with now := s.now + ms }
  | .replicate =>
    { s with
      replicaAssignees := s.assignees
      roles := s.members
      replicaWorkspaces := s.workspaces }
  | .member orgId userId role =>
    { s with
      members := Function.update s.members orgId
        (Function.update (s.members orgId) userId role) }

/-- The call has not run a statement yet. -/
def Call.fresh : Call → Bool
  | .updateTask _ .find | .deleteTask _ _ _ .find | .bulkUpdateStatus _ _ _ _ .membership
  | .bulkDelete _ _ _ .membership => true
  | _ => false

/-- The next statement of a call. -/
def next (s : Store) : Call → Option (Store × Call)
  | .updateTask args pc => (updateNext s args pc).map fun x => (x.1, .updateTask args x.2)
  | .deleteTask orgId taskId userId pc =>
    (deleteNext s orgId taskId userId pc).map fun x => (x.1, .deleteTask orgId taskId userId x.2)
  | .bulkUpdateStatus orgId userId taskIds status pc =>
    (bulkNext s orgId userId taskIds (·.bulkUpdateStatus orgId taskIds status) pc).map fun x =>
      (x.1, .bulkUpdateStatus orgId userId taskIds status x.2)
  | .bulkDelete orgId userId taskIds pc =>
    (bulkNext s orgId userId taskIds (·.bulkSoftDelete orgId taskIds) pc).map fun x =>
      (x.1, .bulkDelete orgId userId taskIds x.2)

/-- No call draws anything. -/
def taskMachine : Machine Store Call Unit Env := ⟨fun s c _ => next s c, env⟩

/-- Calls over the store. -/
abbrev Calls (ι : Type*) := Pool ι Store Call

end WorkPlatform.Task

import WorkPlatform.Task.Edit

/-!
# Task/Create — what makes tasks, and the machine of everything that writes them

    createTask            [parent ▸] member … ▸ insert ▸ add … ▸ outbox ▸ activity
    runRecurringTaskJob   load ▸ count ▸ assignees ▸ insert ▸ add … ▸ outbox
    deleteWorkspace       find ▸ (BEGIN cascade ▸ commit) ▸ outbox ▸ audit
    edits, deletes and bulk operations: the calls of `Task/Edit`

Every statement is on its own, but for those of the two cascades.  Of the three UPDATEs of a
workspace's the first deletes tasks; the other two, of boards and workspaces, which nobody else
writes, are a move with COMMIT.  An INSERT draws the id of its row.  `rrule` is a parameter, and so
are the dates `due_date::date` and `$2::date`, which go by the time zones of the session and of the
driver.
-/

namespace WorkPlatform.Task

open Machinery

/-- `after rule now` is the next occurrence, `none` where there is none or the rule is no rule.
`rowDate` is `::date` of a column, `paramDate` of a parameter. -/
structure Config where
  after : String → ℕ → Option ℕ
  rowDate : ℕ → ℤ
  paramDate : ℕ → ℤ

namespace Store

/-- The constraints of `tasks` on a new row: its workspace, board, parent and recurrence parent
exist, its depth is in bounds, and no live child of the same task has its UTC date.  The empty text
is no UUID. -/
def accepts (s : Store) (r : TaskRow) : Bool :=
  (s.workspaces.find r.workspaceId).isSome
    ∧ (r.boardId.all fun id => (s.boards.find id).isSome)
    ∧ (r.parentTaskId.all fun id => id ≠ "" ∧ (s.tasks.find id).isSome)
    ∧ (r.recurrenceParentId.all fun id => (s.tasks.find id).isSome)
    ∧ r.depth ≤ 2 ∧ s.duplicate r = false

/-- `INSERT INTO tasks`; `none` where the row is refused. -/
def insertTask (s : Store) (r : TaskRow) : Option Store :=
  if s.accepts r then (s.tasks.insert r).map fun tasks => { s with tasks := tasks } else none

end Store

/-! ## `createTask` -/

/-- `CreateTaskInput`. -/
structure CreateTaskInput where
  workspaceId : String
  boardId : Option String
  parentTaskId : Option String
  title : String
  description : Option String
  status : Option TaskStatus
  priority : Option TaskPriority
  dueDate : Option ℕ
  isRecurring : Option Bool
  recurrenceRule : Option String
  labels : Option (List String)
  assigneeIds : Option (List String)
  deriving DecidableEq

/-- The arguments of `createTask`. -/
structure CreateArgs where
  orgId : String
  userId : String
  input : CreateTaskInput
  deriving DecidableEq

/-- The row `createTask` inserts. -/
def CreateArgs.row (a : CreateArgs) (depth : ℕ) (id : String) : TaskRow where
  id := id
  orgId := a.orgId
  workspaceId := a.input.workspaceId
  boardId := a.input.boardId
  parentTaskId := a.input.parentTaskId
  depth := depth
  title := a.input.title
  description := a.input.description
  status := a.input.status.getD .todo
  priority := a.input.priority.getD .medium
  creatorId := a.userId
  dueDate := a.input.dueDate
  completedAt := none
  isRecurring := a.input.isRecurring.getD false
  recurrenceRule := a.input.recurrenceRule
  recurrenceParentId := none
  labels := a.input.labels.getD []
  deletedAt := none
  version := 1

/-- Where a call of `createTask` is: the members it has still to look up, then the assignees it has
still to add. -/
inductive CreatePc
  | parent (parentTaskId : String)
  | member (depth : ℕ) (assigneeId : String) (rest : List String)
  | insert (depth : ℕ)
  | add (task : TaskRow) (assigneeId : String) (rest : List String)
  | outbox (task : TaskRow)
  | activity (task : TaskRow)
  | returned (task : TaskRow)
  | threw (e : AppError)
  | failed
  deriving DecidableEq

def maxTaskDepth : ℕ := 2

def taskDepthExceeded : AppError :=
  .unprocessable "TASK_DEPTH_EXCEEDED" "Tasks can be nested at most 2 levels deep"

def assigneeNotInOrg (assigneeId : String) : AppError :=
  .unprocessable "ASSIGNEE_NOT_IN_ORG" ("User " ++ assigneeId ++ " is not a member of this organization")

/-- The loop that looks the assignees up. -/
def CreatePc.checking (depth : ℕ) : List String → CreatePc
  | [] => .insert depth
  | assigneeId :: rest => .member depth assigneeId rest

/-- The loop that adds the assignees. -/
def CreatePc.adding (task : TaskRow) : List String → CreatePc
  | [] => .outbox task
  | assigneeId :: rest => .add task assigneeId rest

/-- The users a new task is to be assigned to. -/
def CreateArgs.assignees (a : CreateArgs) : List String := a.input.assigneeIds.getD []

/-- The first statement: a parent id that is given and not empty is looked up. -/
def CreateArgs.entry (a : CreateArgs) : CreatePc :=
  match a.input.parentTaskId.filter (· ≠ "") with
  | some parentTaskId => .parent parentTaskId
  | none => .checking 0 a.assignees

/-- The next statement of `createTask`. -/
def createNext (s : Store) (uuid : String) (a : CreateArgs) : CreatePc → Option (Store × CreatePc)
  | .parent parentTaskId => some (s,
      match s.findById parentTaskId with
      | none => .threw (.notFound "ParentTask")
      | some parent =>
        if parent.orgId ≠ a.orgId then .threw (.notFound "ParentTask")
        else if parent.depth + 1 > maxTaskDepth then .threw taskDepthExceeded
        else .checking (parent.depth + 1) a.assignees)
  | .member depth assigneeId rest => some (s,
      if (s.roles a.orgId assigneeId).isSome then .checking depth rest
      else .threw (assigneeNotInOrg assigneeId))
  | .insert depth =>
    match s.insertTask (a.row depth uuid) with
    | some s' => some (s', .adding (a.row depth uuid) a.assignees)
    | none => some (s, .failed)
  | .add task assigneeId rest => some (s.addAssignee task.id assigneeId, .adding task rest)
  | .outbox task =>
    some (s.writeOutboxEvent .taskCreated a.orgId task.id (some a.userId), .activity task)
  | .activity task => some (s, .returned task)
  | .returned _ | .threw _ | .failed => none

/-! ## `runRecurringTaskJob` -/

/-- `RecurringTaskJobData`. -/
structure RecurringTaskJobData where
  parentTaskId : String
  orgId : String
  deriving DecidableEq

/-- `next` is the occurrence the job has computed; `ended` is a return before there is one. -/
inductive SpawnPc
  | load
  | count (parent : TaskRow) (next : ℕ)
  | assignees (parent : TaskRow) (next : ℕ)
  | insert (parent : TaskRow) (next : ℕ) (users : List String)
  | add (next : ℕ) (newTaskId userId : String) (rest : List String)
  | outbox (next : ℕ) (newTaskId : String)
  | returned (next : ℕ)
  | ended
  | failed
  deriving DecidableEq

/-- The child of a recurring task. -/
def RecurringTaskJobData.row (job : RecurringTaskJobData) (parent : TaskRow) (next : ℕ)
    (id : String) : TaskRow where
  id := id
  orgId := job.orgId
  workspaceId := parent.workspaceId
  boardId := none
  parentTaskId := none
  depth := 0
  title := parent.title
  description := parent.description
  status := .todo
  priority := parent.priority
  creatorId := parent.creatorId
  dueDate := some next
  completedAt := none
  isRecurring := false
  recurrenceRule := none
  recurrenceParentId := some job.parentTaskId
  labels := []
  deletedAt := none
  version := 1

/-- The loop that copies the assignees. -/
def SpawnPc.adding (next : ℕ) (newTaskId : String) : List String → SpawnPc
  | [] => .outbox next newTaskId
  | userId :: rest => .add next newTaskId userId rest

/-- The next occurrence of a task, where it is a recurring one. -/
def TaskRow.nextOccurrence (cfg : Config) (now : ℕ) (parent : TaskRow) : Option ℕ :=
  if parent.isRecurring then
    (parent.recurrenceRule.filter (· ≠ "")).bind fun rule => cfg.after rule now
  else none

/-- A live child of the task whose date is that of the parameter. -/
def TaskRow.childOn (cfg : Config) (parentTaskId : String) (next : ℕ) (r : TaskRow) : Bool :=
  r.recurrenceParentId = some parentTaskId
    ∧ (r.dueDate.any fun due => cfg.rowDate due = cfg.paramDate next) ∧ r.deletedAt = none

/-- The next statement of `runRecurringTaskJob`. -/
def spawnNext (cfg : Config) (s : Store) (uuid : String) (job : RecurringTaskJobData) :
    SpawnPc → Option (Store × SpawnPc)
  | .load => some (s,
      match s.findById job.parentTaskId with
      | none => .ended
      | some parent =>
        match parent.nextOccurrence cfg s.now with
        | none => .ended
        | some next => .count parent next)
  | .count parent next => some (s,
      if s.tasks.rows.any (·.childOn cfg job.parentTaskId next) then .returned next
      else .assignees parent next)
  | .assignees parent next => some (s, .insert parent next (s.assignees job.parentTaskId))
  | .insert parent next users =>
    match s.insertTask (job.row parent next uuid) with
    | some s' => some (s', .adding next uuid users)
    | none => some (s, .failed)
  | .add next newTaskId userId rest =>
    some (s.addAssignee newTaskId userId, .adding next newTaskId rest)
  | .outbox next newTaskId =>
    some (s.writeOutboxEvent .taskCreated job.orgId newTaskId none, .returned next)
  | .returned _ | .ended | .failed => none

/-! ## `deleteWorkspace` -/

/-- The transaction of `cascadeSoftDelete` began at `startedAt`, and has deleted `taskIds`. -/
inductive WorkspacePc
  | find
  | cascade
  | commit (startedAt : ℕ) (taskIds : List String)
  | outbox
  | audit
  | returned
  | threw (e : AppError)
  deriving DecidableEq

/-- The tasks that `WorkspaceRepository.cascadeSoftDelete` deletes. -/
def TaskRow.inWorkspace (orgId workspaceId : String) (r : TaskRow) : Bool :=
  r.workspaceId = workspaceId ∧ r.orgId = orgId ∧ r.deletedAt = none

/-- What it commits: the tasks its first UPDATE has found, the boards, the workspace. -/
def Store.deleteWorkspace (s : Store) (orgId workspaceId : String) (startedAt : ℕ)
    (taskIds : List String) : Store :=
  { s.softDelete startedAt fun r => r.id ∈ taskIds with
    boards := s.boards.map (fun b =>
      { b with
        deletedAt := if b.workspaceId = workspaceId ∧ b.orgId = orgId ∧ b.deletedAt = none then
          some startedAt else b.deletedAt }) fun _ => rfl
    workspaces := s.workspaces.map (fun w =>
      { w with
        deletedAt := if w.id = workspaceId ∧ w.orgId = orgId ∧ w.deletedAt = none then some startedAt
          else w.deletedAt }) fun _ => rfl }

/-- The next statement of `deleteWorkspace`. -/
def workspaceNext (s : Store) (orgId workspaceId actorId : String) :
    WorkspacePc → Option (Store × WorkspacePc)
  | .find => some (s,
      match (s.replicaWorkspaces.find workspaceId).filter (·.deletedAt = none) with
      | none => .threw (.notFound "Workspace")
      | some existing =>
        if existing.orgId ≠ orgId then .threw (.notFound "Workspace") else .cascade)
  | .cascade =>
    some (s, .commit s.now ((s.tasks.rows.filter (·.inWorkspace orgId workspaceId)).map (·.id)))
  | .commit startedAt taskIds =>
    some (s.deleteWorkspace orgId workspaceId startedAt taskIds, .outbox)
  | .outbox => some (s.writeOutboxEvent .workspaceDeleted orgId workspaceId (some actorId), .audit)
  | .audit => some (s, .returned)
  | .returned | .threw _ => none

/-! ## The machine -/

/-- An operation on tasks. -/
inductive Op
  | edit (c : Call)
  | createTask (args : CreateArgs) (pc : CreatePc)
  | recurring (job : RecurringTaskJobData) (pc : SpawnPc)
  | deleteWorkspace (orgId workspaceId actorId : String) (pc : WorkspacePc)
  deriving DecidableEq

namespace Op

/-- The operation has not run a statement yet. -/
def fresh : Op → Bool
  | .edit c => c.fresh
  | .createTask a pc => pc = a.entry
  | .recurring _ .load | .deleteWorkspace _ _ _ .find => true
  | _ => false

/-- The next statement of an operation. -/
def next (cfg : Config) (s : Store) (uuid : String) : Op → Option (Store × Op)
  | .edit c => (Task.next s c).map fun x => (x.1, .edit x.2)
  | .createTask args pc => (createNext s uuid args pc).map fun x => (x.1, .createTask args x.2)
  | .recurring job pc => (spawnNext cfg s uuid job pc).map fun x => (x.1, .recurring job x.2)
  | .deleteWorkspace orgId workspaceId actorId pc =>
    (workspaceNext s orgId workspaceId actorId pc).map fun x =>
      (x.1, .deleteWorkspace orgId workspaceId actorId x.2)

end Op

/-- A statement draws the id of the row it inserts. -/
def opMachine (cfg : Config) : Machine Store Op String Env :=
  ⟨fun s c uuid => c.next cfg s uuid, env⟩

/-- Operations over the store. -/
abbrev Ops (ι : Type*) := Pool ι Store Op

/-! ## What one statement does -/

/-- Everything a statement can do to the store. -/
inductive Effect (s : Store) (uuid : String) : Op → Store → Prop
  | read {c : Op} : Effect s uuid c s
  | event {c : Op} (e : OutboxEvent) : Effect s uuid c { s with outbox := e :: s.outbox }
  | patched {a : UpdateArgs} {r : TaskRow} (hr : s.tasks.find a.taskId = some r)
      (hcurrent : r.current a.orgId a.version = true) (haccepted : s.refuses a.data r = false) :
      Effect s uuid (.edit (.updateTask a .update)) (s.patch a.taskId a.data)
  | removed {a : UpdateArgs} {u : TaskRow} {userId : String} {rest : List String} :
      Effect s uuid (.edit (.updateTask a (.remove u userId rest)))
        (s.removeAssignee a.taskId userId)
  | added {a : UpdateArgs} {u : TaskRow} {userId : String} {rest : List String} :
      Effect s uuid (.edit (.updateTask a (.add u userId rest))) (s.addAssignee a.taskId userId)
  | restated {orgId userId : String} {taskIds : List String} {status : TaskStatus} :
      Effect s uuid (.edit (.bulkUpdateStatus orgId userId taskIds status .update))
        (s.bulkUpdateStatus orgId taskIds status)
  | cascade {orgId taskId userId : String} {startedAt : ℕ} {taskIds : List String} :
      Effect s uuid (.edit (.deleteTask orgId taskId userId (.commit startedAt taskIds)))
        (s.softDelete startedAt fun r => r.id ∈ taskIds)
  | bulkDeleted {orgId userId : String} {taskIds : List String} :
      Effect s uuid (.edit (.bulkDelete orgId userId taskIds .update))
        (s.bulkSoftDelete orgId taskIds)
  | created {a : CreateArgs} {depth : ℕ} {tasks : Table TaskRow.id}
      (haccepts : s.accepts (a.row depth uuid) = true)
      (h : s.tasks.insert (a.row depth uuid) = some tasks) :
      Effect s uuid (.createTask a (.insert depth)) { s with tasks := tasks }
  | assigned {a : CreateArgs} {task : TaskRow} {assigneeId : String} {rest : List String} :
      Effect s uuid (.createTask a (.add task assigneeId rest)) (s.addAssignee task.id assigneeId)
  | spawned {job : RecurringTaskJobData} {parent : TaskRow} {next : ℕ} {users : List String}
      {tasks : Table TaskRow.id} (haccepts : s.accepts (job.row parent next uuid) = true)
      (h : s.tasks.insert (job.row parent next uuid) = some tasks) :
      Effect s uuid (.recurring job (.insert parent next users)) { s with tasks := tasks }
  | copied {job : RecurringTaskJobData} {next : ℕ} {newTaskId userId : String} {rest : List String} :
      Effect s uuid (.recurring job (.add next newTaskId userId rest))
        (s.addAssignee newTaskId userId)
  | workspaceDeleted {orgId workspaceId actorId : String} {startedAt : ℕ} {taskIds : List String} :
      Effect s uuid (.deleteWorkspace orgId workspaceId actorId (.commit startedAt taskIds))
        (s.deleteWorkspace orgId workspaceId startedAt taskIds)

section Effects

variable {cfg : Config} {s s' : Store} {uuid : String} {c c' : Op} {r : TaskRow}

/-- An INSERT that goes through was accepted. -/
theorem insertTask_eq_some (h : s.insertTask r = some s') :
    ∃ tasks, s.accepts r = true ∧ s.tasks.insert r = some tasks
      ∧ s' = { s with tasks := tasks } := by
  unfold Store.insertTask at h
  split at h
  · rename_i haccepts
    obtain ⟨tasks, htasks, rfl⟩ := Option.map_eq_some_iff.mp h
    exact ⟨tasks, haccepts, htasks, rfl⟩
  · cases h

/-- The UPDATE has such an effect. -/
theorem effect_update {a : UpdateArgs} {pc' : UpdatePc}
    (h : updateNext s a .update = some (s', pc')) :
    Effect s uuid (.edit (.updateTask a .update)) s' := by
  rw [updateNext] at h
  split at h
  · split at h <;> obtain ⟨rfl, rfl⟩ := Prod.mk.inj (Option.some.inj h) <;> exact .read
  · split at h
    · obtain ⟨rfl, rfl⟩ := Prod.mk.inj (Option.some.inj h)
      exact .read
    · rename_i r hr
      obtain ⟨hfind, hcurrent⟩ := Option.filter_eq_some_iff.mp hr
      split at h <;> obtain ⟨rfl, rfl⟩ := Prod.mk.inj (Option.some.inj h)
      · exact .read
      · rename_i haccepted
        exact .patched hfind hcurrent (eq_false_of_ne_true haccepted)

/-- What each statement of an edit does to the rows. -/
theorem effect_edit {c c' : Call} (h : next s c = some (s', c')) : Effect s uuid (.edit c) s' := by
  cases c with
  | updateTask a pc =>
    obtain ⟨pc', hpc, rfl⟩ := pc_of_next h
    cases pc with
    | update => exact effect_update hpc
    | remove u userId rest =>
      obtain ⟨rfl, rfl⟩ := Prod.mk.inj (Option.some.inj hpc)
      exact .removed
    | add u userId rest =>
      obtain ⟨rfl, rfl⟩ := Prod.mk.inj (Option.some.inj hpc)
      exact .added
    | outbox u =>
      obtain ⟨rfl, rfl⟩ := Prod.mk.inj (Option.some.inj hpc)
      exact .event _
    | returned u | threw e | failed => cases hpc
    | find | membership existing | recheck | getAssignees u | activity u | enqueue u =>
      obtain ⟨rfl, rfl⟩ := Prod.mk.inj (Option.some.inj hpc)
      exact .read
  | deleteTask orgId taskId userId pc =>
    obtain ⟨pc', hpc, rfl⟩ := pc_of_next h
    cases pc with
    | commit startedAt taskIds =>
      obtain ⟨rfl, rfl⟩ := Prod.mk.inj (Option.some.inj hpc)
      exact .cascade
    | outbox =>
      obtain ⟨rfl, rfl⟩ := Prod.mk.inj (Option.some.inj hpc)
      exact .event _
    | returned | threw e => cases hpc
    | find | membership existing | cascade | root startedAt below | audit =>
      obtain ⟨rfl, rfl⟩ := Prod.mk.inj (Option.some.inj hpc)
      exact .read
  | bulkUpdateStatus orgId userId taskIds status pc =>
    obtain ⟨pc', hpc, rfl⟩ := pc_of_next h
    cases pc with
    | update =>
      obtain ⟨rfl, rfl⟩ := Prod.mk.inj (Option.some.inj hpc)
      exact .restated
    | returned | threw e => cases hpc
    | membership =>
      obtain ⟨rfl, rfl⟩ := Prod.mk.inj (Option.some.inj hpc)
      exact .read
  | bulkDelete orgId userId taskIds pc =>
    obtain ⟨pc', hpc, rfl⟩ := pc_of_next h
    cases pc with
    | update =>
      obtain ⟨rfl, rfl⟩ := Prod.mk.inj (Option.some.inj hpc)
      exact .bulkDeleted
    | returned | threw e => cases hpc
    | membership =>
      obtain ⟨rfl, rfl⟩ := Prod.mk.inj (Option.some.inj hpc)
      exact .read

/-- What each statement of `createTask` does to the rows. -/
theorem effect_create {a : CreateArgs} {pc pc' : CreatePc}
    (h : createNext s uuid a pc = some (s', pc')) : Effect s uuid (.createTask a pc) s' := by
  cases pc with
  | insert depth =>
    rw [createNext] at h
    split at h <;> obtain ⟨rfl, rfl⟩ := Prod.mk.inj (Option.some.inj h)
    · rename_i hins
      obtain ⟨tasks, haccepts, htasks, rfl⟩ := insertTask_eq_some hins
      exact .created haccepts htasks
    · exact .read
  | add task assigneeId rest =>
    obtain ⟨rfl, rfl⟩ := Prod.mk.inj (Option.some.inj h)
    exact .assigned
  | outbox task =>
    obtain ⟨rfl, rfl⟩ := Prod.mk.inj (Option.some.inj h)
    exact .event _
  | returned task | threw e | failed => cases h
  | parent parentTaskId | member depth assigneeId rest | activity task =>
    obtain ⟨rfl, rfl⟩ := Prod.mk.inj (Option.some.inj h)
    exact .read

/-- What each statement of `runRecurringTaskJob` does to the rows. -/
theorem effect_spawn {job : RecurringTaskJobData} {pc pc' : SpawnPc}
    (h : spawnNext cfg s uuid job pc = some (s', pc')) : Effect s uuid (.recurring job pc) s' := by
  cases pc with
  | insert parent next users =>
    rw [spawnNext] at h
    split at h <;> obtain ⟨rfl, rfl⟩ := Prod.mk.inj (Option.some.inj h)
    · rename_i hins
      obtain ⟨tasks, haccepts, htasks, rfl⟩ := insertTask_eq_some hins
      exact .spawned haccepts htasks
    · exact .read
  | add next newTaskId userId rest =>
    obtain ⟨rfl, rfl⟩ := Prod.mk.inj (Option.some.inj h)
    exact .copied
  | outbox next newTaskId =>
    obtain ⟨rfl, rfl⟩ := Prod.mk.inj (Option.some.inj h)
    exact .event _
  | returned next | ended | failed => cases h
  | load | count parent next | assignees parent next =>
    obtain ⟨rfl, rfl⟩ := Prod.mk.inj (Option.some.inj h)
    exact .read

/-- **One statement.** -/
theorem effect_next (h : c.next cfg s uuid = some (s', c')) : Effect s uuid c s' := by
  cases c with
  | edit c =>
    obtain ⟨c', hc, rfl⟩ := pc_of_next h
    exact effect_edit hc
  | createTask a pc =>
    obtain ⟨pc', hpc, rfl⟩ := pc_of_next h
    exact effect_create hpc
  | recurring job pc =>
    obtain ⟨pc', hpc, rfl⟩ := pc_of_next h
    exact effect_spawn hpc
  | deleteWorkspace orgId workspaceId actorId pc =>
    obtain ⟨pc', hpc, rfl⟩ := pc_of_next h
    cases pc with
    | commit startedAt taskIds =>
      obtain ⟨rfl, rfl⟩ := Prod.mk.inj (Option.some.inj hpc)
      exact .workspaceDeleted
    | outbox =>
      obtain ⟨rfl, rfl⟩ := Prod.mk.inj (Option.some.inj hpc)
      exact .event _
    | returned | threw e => cases hpc
    | find | cascade | audit =>
      obtain ⟨rfl, rfl⟩ := Prod.mk.inj (Option.some.inj hpc)
      exact .read

end Effects

end WorkPlatform.Task

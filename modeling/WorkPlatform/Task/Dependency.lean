import WorkPlatform.Machinery.Run
import WorkPlatform.Machinery.Uuid
import WorkPlatform.Shared.AppError

/-!
# Task/Dependency — `addDependency` and `removeDependency`, statement by statement

The `tasks` and `task_dependencies` tables and the calls of `dependency.service`.  Every database
statement commits on its own, so a call is a control point between two statements together with
the local variables that survive it: the two lookups of `Promise.all`, one edge query for each
turn of the `while` loop of `wouldCreateCycle`, the INSERT, and the DELETE.

The columns are uuids.  PostgreSQL compares them with the id that a parameter is read as, and
answers with the text of an id; the service compares texts.  A text that is read as no id makes a
statement throw.

`dependencyMachine` is what one statement does; the calls of a `Pool` interleave in any order.
-/

namespace WorkPlatform.Dependency

open Machinery

/-! ## Tables and statements -/

/-- The columns of `tasks` the service reads. -/
structure TaskRow where
  id : Uuid.Id
  orgId : Uuid.Id
  workspaceId : Uuid.Id
  deleted : Bool
  deriving DecidableEq

/-- A row of `task_dependencies`. -/
structure TaskDependencyRow where
  id : Uuid.Id
  orgId : Uuid.Id
  blockingTaskId : Uuid.Id
  blockedTaskId : Uuid.Id
  createdBy : String
  deriving DecidableEq

/-- The two tables. -/
structure Db where
  tasks : List TaskRow
  taskDependencies : List TaskDependencyRow

/-- `TaskRepository.findById`; `none` where the statement throws. -/
def findById (db : Db) (id : String) : Option (Option TaskRow) :=
  (Uuid.read id).map fun id => db.tasks.find? fun t => t.id = id ∧ t.deleted = false

/-- The edge query of `wouldCreateCycle` for ids: the tasks that `current` blocks. -/
def blockedBy (db : Db) (orgId current : Uuid.Id) : List Uuid.Id :=
  (db.taskDependencies.filter fun r => r.orgId = orgId ∧ r.blockingTaskId = current).map
    (·.blockedTaskId)

/-- The same as the service has it, with texts; `none` where the statement throws. -/
def blockedTaskIds (db : Db) (orgId current : String) : Option (List String) :=
  match Uuid.read orgId, Uuid.read current with
  | some orgId, some current => some ((blockedBy db orgId current).map (·.text))
  | _, _ => none

/-- What the table demands of a new row: a fresh primary key, two existing tasks, and
`CHECK (blocking_task_id != blocked_task_id)`. -/
def Admissible (db : Db) (row : TaskDependencyRow) : Prop :=
  (∀ r ∈ db.taskDependencies, r.id ≠ row.id) ∧ (∃ t ∈ db.tasks, t.id = row.blockingTaskId)
    ∧ (∃ t ∈ db.tasks, t.id = row.blockedTaskId) ∧ row.blockingTaskId ≠ row.blockedTaskId

instance (db : Db) (row : TaskDependencyRow) : Decidable (Admissible db row) :=
  inferInstanceAs (Decidable (_ ∧ _ ∧ _ ∧ _))

/-- A row that the constraints let in; `none` where one refuses it. -/
def insertRow (db : Db) (row : TaskDependencyRow) : Option Db :=
  if Admissible db row then some { db with taskDependencies := row :: db.taskDependencies }
  else none

/-- `TaskRepository.insertDependency`, with the id that `gen_random_uuid()` gives. -/
def insertDependency (db : Db) (id : Uuid.Id)
    (orgId blockingTaskId blockedTaskId createdBy : String) : Option (Db × TaskDependencyRow) :=
  match Uuid.read orgId, Uuid.read blockingTaskId, Uuid.read blockedTaskId with
  | some orgId, some blockingTaskId, some blockedTaskId =>
    let row : TaskDependencyRow := ⟨id, orgId, blockingTaskId, blockedTaskId, createdBy⟩
    (insertRow db row).map (·, row)
  | _, _, _ => none

/-- The rows without one. -/
def deleteRow (db : Db) (orgId dependencyId : Uuid.Id) : Db :=
  { db with taskDependencies :=
      db.taskDependencies.filter fun r => ¬ (r.id = dependencyId ∧ r.orgId = orgId) }

/-- `TaskRepository.deleteDependency`; a statement that throws deletes nothing. -/
def deleteDependency (db : Db) (orgId dependencyId : String) : Db :=
  match Uuid.read orgId, Uuid.read dependencyId with
  | some orgId, some dependencyId => deleteRow db orgId dependencyId
  | _, _ => db

/-- The edge `x → y` of one organisation: `x` blocks `y`. -/
def Edge (db : Db) (orgId x y : Uuid.Id) : Prop :=
  ∃ r ∈ db.taskDependencies, r.orgId = orgId ∧ r.blockingTaskId = x ∧ r.blockedTaskId = y

section

variable {db db' : Db} {o x y : Uuid.Id}

theorem mem_blockedBy : y ∈ blockedBy db o x ↔ Edge db o x y := by
  simp [blockedBy, Edge, and_assoc]

/-- The answer to the edge query has the texts of the edges. -/
theorem mem_blockedTaskIds {orgId current text : String} {rows : List String}
    (ho : Uuid.read orgId = some o) (hx : Uuid.read current = some x)
    (h : blockedTaskIds db orgId current = some rows) :
    text ∈ rows ↔ ∃ y, Edge db o x y ∧ y.text = text := by
  rw [blockedTaskIds, ho, hx] at h
  obtain rfl := Option.some.inj h
  simp [mem_blockedBy]

/-- A query that is answered was of ids. -/
theorem read_of_blockedTaskIds {orgId current : String} {rows : List String}
    (h : blockedTaskIds db orgId current = some rows) :
    ∃ o x, Uuid.read orgId = some o ∧ Uuid.read current = some x := by
  unfold blockedTaskIds at h
  split at h
  case h_1 o x ho hx => exact ⟨o, x, ho, hx⟩
  case h_2 => cases h

theorem edge_of_deleteDependency {orgId dependencyId : String}
    (h : Edge (deleteDependency db orgId dependencyId) o x y) : Edge db o x y := by
  unfold deleteDependency at h
  split at h
  · obtain ⟨r, hr, hedge⟩ := h
    exact ⟨r, (List.mem_filter.mp hr).1, hedge⟩
  · exact h

/-- The edges after an INSERT are those before and the new one. -/
theorem edge_insertRow {row : TaskDependencyRow} (h : insertRow db row = some db') :
    Edge db' o x y ↔ Edge db o x y ∨ (row.orgId = o ∧ row.blockingTaskId = x
      ∧ row.blockedTaskId = y) := by
  rw [insertRow] at h
  split at h
  case isFalse => cases h
  case isTrue =>
    obtain rfl := Option.some.inj h
    simp only [Edge, List.mem_cons, exists_eq_or_imp]
    exact or_comm

/-- No task blocks itself. -/
theorem ne_of_insertRow {row : TaskDependencyRow} (h : insertRow db row = some db') :
    row.blockingTaskId ≠ row.blockedTaskId := by
  rw [insertRow] at h
  split at h
  case isFalse => cases h
  case isTrue hrow => exact hrow.2.2.2

/-- **An INSERT is of a row with the ids that its texts are read as.** -/
theorem insertDependency_eq_some {id : Uuid.Id}
    {orgId blockingTaskId blockedTaskId createdBy : String} {row : TaskDependencyRow}
    (h : insertDependency db id orgId blockingTaskId blockedTaskId createdBy = some (db', row)) :
    insertRow db row = some db' ∧ Uuid.read orgId = some row.orgId
      ∧ Uuid.read blockingTaskId = some row.blockingTaskId
      ∧ Uuid.read blockedTaskId = some row.blockedTaskId := by
  unfold insertDependency at h
  split at h
  case h_1 o x y ho hx hy =>
    obtain ⟨db₁, hins, heq⟩ := Option.map_eq_some_iff.mp h
    obtain ⟨rfl, rfl⟩ := Prod.mk.inj heq
    exact ⟨hins, ho, hx, hy⟩
  case h_2 => cases h

end

/-! ## The search between two queries -/

/-- Where the loop of `wouldCreateCycle` stops next. -/
inductive SearchStep
  | found
  | exhausted
  | query (current : String) (stack : List String)

/-- The turns of the loop up to the next edge query: tasks already visited are skipped without
one.  The top of the stack is the head of the list. -/
def nextQuery (blockingTaskId : String) (visited : List String) : List String → SearchStep
  | [] => .exhausted
  | current :: stack =>
    if current = blockingTaskId then .found
    else if current ∈ visited then nextQuery blockingTaskId visited stack
    else .query current stack

/-- `stack.push` for every row of the answer, in its order. -/
def pushAll (rows stack : List String) : List String := rows.foldl (fun st r => r :: st) stack

/-- What is on the stack afterwards was there, or is one of the rows. -/
@[simp] theorem mem_pushAll {x : String} :
    ∀ {rows stack : List String}, x ∈ pushAll rows stack ↔ x ∈ rows ∨ x ∈ stack
  | [], stack => by simp [pushAll]
  | r :: rows, stack => by
      have ih : x ∈ pushAll rows (r :: stack) ↔ x ∈ rows ∨ x ∈ r :: stack := mem_pushAll
      simp only [pushAll, List.foldl_cons] at ih ⊢
      rw [ih]
      simp only [List.mem_cons]
      tauto

/-! ## The calls -/

/-- The arguments of `addDependency`. -/
structure AddArgs where
  orgId : String
  blockingTaskId : String
  blockedTaskId : String
  createdBy : String
  deriving DecidableEq, Repr

/-- Where a call of `addDependency` stands.  `query` is about to run the edge query of `current`,
which is in `visited` already; `insert` keeps the tasks whose edges the search has read. -/
inductive AddPc
  | find (blocking blocked : Option (Option TaskRow))
  | query (visited stack : List String) (current : String)
  | insert (visited : List String)
  | threw (e : AppError)
  | dbError
  | returned (row : TaskDependencyRow)
  deriving DecidableEq

/-- A call of the service. -/
inductive Call
  | add (args : AddArgs) (pc : AddPc)
  | remove (orgId dependencyId : String) (deleted : Bool)
  deriving DecidableEq

/-- `addDependency` up to its first statement: the self-dependency check. -/
def addDependency (args : AddArgs) : Call :=
  if args.blockingTaskId = args.blockedTaskId then
    .add args (.threw (.unprocessable "SELF_DEPENDENCY" "A task cannot depend on itself"))
  else .add args (.find none none)

/-- `removeDependency` before its statement. -/
def removeDependency (orgId dependencyId : String) : Call := .remove orgId dependencyId false

/-- The loop from `visited` and `stack` to the next statement of the call. -/
def search (args : AddArgs) (visited stack : List String) : AddPc :=
  match nextQuery args.blockingTaskId visited stack with
  | .found => .threw (.unprocessable "DEPENDENCY_CYCLE"
      "Adding this dependency would create a cycle")
  | .exhausted => .insert visited
  | .query current stack => .query (current :: visited) stack current

/-- The checks between the lookups and the cycle detection: of texts. -/
def validate (args : AddArgs) : Option TaskRow → Option TaskRow → AddPc
  | none, _ => .threw (.notFound "BlockingTask")
  | some blocking, blocked? =>
    if blocking.orgId.text ≠ args.orgId then .threw (.notFound "BlockingTask")
    else match blocked? with
      | none => .threw (.notFound "BlockedTask")
      | some blocked =>
        if blocked.orgId.text ≠ args.orgId then .threw (.notFound "BlockedTask")
        else if blocking.workspaceId.text ≠ blocked.workspaceId.text then
          .threw (.unprocessable "CROSS_WORKSPACE_DEPENDENCY"
            "Task dependencies must be within the same workspace")
        else search args [] [args.blockedTaskId]

/-- A lookup has answered, or thrown. -/
def found (goOn : Option TaskRow → AddPc) : Option (Option TaskRow) → AddPc
  | some row => goOn row
  | none => .dbError

/-- `Promise.all`: the call goes on when both lookups have answered. -/
def join (args : AddArgs) : Option (Option TaskRow) → Option (Option TaskRow) → AddPc
  | some blocking, some blocked => validate args blocking blocked
  | blocking, blocked => .find blocking blocked

/-- What a statement draws: which of two lookups in flight is answered, and the id
`gen_random_uuid()` gives a new row. -/
structure Draw where
  blockingFirst : Bool
  rowId : Uuid.Id

/-- The next statement of `addDependency`. -/
def addNext (db : Db) (args : AddArgs) (d : Draw) : AddPc → Option (Db × AddPc)
  | .find none blocked =>
    if d.blockingFirst then
      some (db, found (fun row => join args (some row) blocked) (findById db args.blockingTaskId))
    else match blocked with
      | none =>
        some (db, found (fun row => join args none (some row)) (findById db args.blockedTaskId))
      | some _ => none
  | .find (some blocking) none =>
    some (db, found (fun row => join args (some blocking) (some row))
      (findById db args.blockedTaskId))
  | .query visited stack current =>
    match blockedTaskIds db args.orgId current with
    | some rows => some (db, search args visited (pushAll rows stack))
    | none => some (db, .dbError)
  | .insert _ =>
    match insertDependency db d.rowId args.orgId args.blockingTaskId args.blockedTaskId
      args.createdBy with
    | some (db', row) => some (db', .returned row)
    | none => some (db, .dbError)
  | _ => none

/-- The next statement of a call. -/
def next (db : Db) : Call → Draw → Option (Db × Call)
  | .add args pc, d => (addNext db args d pc).map fun r => (r.1, .add args r.2)
  | .remove orgId dependencyId false, _ =>
    some (deleteDependency db orgId dependencyId, .remove orgId dependencyId true)
  | .remove _ _ true, _ => none

/-- The statements of the dependency service; the environment does nothing here. -/
def dependencyMachine : Machine Db Call Draw Empty := ⟨next, fun db _ => db⟩

/-- Calls of the service over the two tables. -/
abbrev Calls (ι : Type*) := Pool ι Db Call

/-- A call that has run no statement yet. -/
inductive Fresh : Call → Prop
  | add (args : AddArgs) : Fresh (addDependency args)
  | remove (orgId dependencyId : String) : Fresh (removeDependency orgId dependencyId)

/-! ## What one statement can do -/

/-- A lookup leaves the tables alone and goes on to `Promise.all`, or throws. -/
theorem addNext_find {db db' : Db} {args : AddArgs} {d : Draw}
    {b b' : Option (Option TaskRow)} {pc' : AddPc}
    (h : addNext db args d (.find b b') = some (db', pc')) :
    db' = db ∧ (pc' = .dbError ∨ ∃ c c', pc' = join args c c') := by
  have hout : ∀ (f : Option TaskRow → Option (Option TaskRow) × Option (Option TaskRow)) row,
      some (db, found (fun r => join args (f r).1 (f r).2) row) = some (db', pc') →
      db' = db ∧ (pc' = .dbError ∨ ∃ c c', pc' = join args c c') := by
    intro f row heq
    obtain ⟨rfl, rfl⟩ := Prod.mk.inj (Option.some.inj heq)
    cases row with
    | none => exact ⟨rfl, Or.inl rfl⟩
    | some row => exact ⟨rfl, Or.inr ⟨_, _, rfl⟩⟩
  cases b with
  | none =>
    simp only [addNext] at h
    split at h
    · exact hout (fun r => (some r, b')) _ h
    · cases b' with
      | none => exact hout (fun r => (none, some r)) _ h
      | some _ => cases h
  | some b =>
    cases b' with
    | none => exact hout (fun r => (some b, some r)) _ h
    | some _ => cases h

/-- **The tables change by an INSERT or a DELETE**, and the INSERT is the edge the call was
given. -/
theorem next_db {db db' : Db} {c c' : Call} {d : Draw} (h : next db c d = some (db', c')) :
    db' = db
      ∨ (∃ args visited row, c = .add args (.insert visited) ∧ c' = .add args (.returned row)
        ∧ Uuid.read args.orgId = some row.orgId
        ∧ Uuid.read args.blockingTaskId = some row.blockingTaskId
        ∧ Uuid.read args.blockedTaskId = some row.blockedTaskId ∧ insertRow db row = some db')
      ∨ ∃ orgId dependencyId, db' = deleteDependency db orgId dependencyId
        ∧ c' = .remove orgId dependencyId true := by
  cases c with
  | remove orgId dependencyId deleted =>
    cases deleted with
    | true => cases h
    | false =>
      obtain ⟨rfl, rfl⟩ := Prod.mk.inj (Option.some.inj h)
      exact Or.inr (Or.inr ⟨orgId, dependencyId, rfl, rfl⟩)
  | add args pc =>
    obtain ⟨⟨db₁, pc'⟩, hpc, heq⟩ := Option.map_eq_some_iff.mp h
    obtain ⟨rfl, rfl⟩ := Prod.mk.inj heq
    cases pc with
    | insert visited =>
      simp only [addNext] at hpc
      split at hpc
      case h_1 db₂ row hins =>
        obtain ⟨rfl, rfl⟩ := Prod.mk.inj (Option.some.inj hpc)
        obtain ⟨hrow, ho, hx, hy⟩ := insertDependency_eq_some hins
        exact Or.inr (Or.inl ⟨args, visited, row, rfl, rfl, ho, hx, hy, hrow⟩)
      case h_2 => exact Or.inl (Prod.mk.inj (Option.some.inj hpc)).1.symm
    | find b b' => exact Or.inl (addNext_find hpc).1
    | query visited stack current =>
      simp only [addNext] at hpc
      split at hpc <;> exact Or.inl (Prod.mk.inj (Option.some.inj hpc)).1.symm
    | threw e => cases hpc
    | dbError => cases hpc
    | returned row => cases hpc

end WorkPlatform.Dependency

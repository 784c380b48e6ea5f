import Mathlib.Data.Fin.VecNotation
import WorkPlatform.Machinery.Forest
import WorkPlatform.Task.Create
import WorkPlatform.Task.Version

/-!
# Task/Forest — the parents of a task

    createTask       parent read ▸ … ▸ INSERT (parent_task_id, depth = the parent's + 1)
    recurring task   INSERT (no parent, depth 0)
    everything else  leaves id, org_id, workspace_id, parent_task_id and depth alone

No statement deletes a row, so the parent a call has read is there when it inserts, with the
organisation and the depth it had.  In every run the parents of a task are a chain that stays in its
organisation and is as long as the task is deep (`parent_chain`).
-/

namespace WorkPlatform.Task

open Machinery

/-! ## What a statement does to the table of tasks -/

/-- The rows an operation soft-deletes with its next statement, and the time it sets. -/
def Op.deletes (s : Store) : Op → Option (ℕ × (TaskRow → Bool))
  | .edit (.deleteTask _ _ _ (.commit startedAt taskIds)) => some (startedAt, fun r => r.id ∈ taskIds)
  | .edit (.bulkDelete orgId _ taskIds .update) => some (s.now, fun r =>
      r.orgId = orgId ∧ r.id ∈ taskIds ∧ r.deletedAt = none)
  | .deleteWorkspace _ _ _ (.commit startedAt taskIds) => some (startedAt, fun r => r.id ∈ taskIds)
  | _ => none

/-- What a statement can do to the table of tasks. -/
inductive Wrote (s : Store) (uuid : String) (c : Op) (s' : Store) : Prop
  | same (h : s'.tasks = s.tasks)
  | patched {a : UpdateArgs} {r : TaskRow} (hc : c = .edit (.updateTask a .update))
      (hr : s.tasks.find a.taskId = some r) (hcurrent : r.current a.orgId a.version = true)
      (haccepted : s.refuses a.data r = false) (h : s'.tasks = (s.patch a.taskId a.data).tasks)
  | restated {orgId userId : String} {taskIds : List String} {status : TaskStatus}
      (hc : c = .edit (.bulkUpdateStatus orgId userId taskIds status .update))
      (h : s'.tasks = (s.bulkUpdateStatus orgId taskIds status).tasks)
  | deleted {time : ℕ} {select : TaskRow → Bool} (hc : c.deletes s = some (time, select))
      (h : s'.tasks = (s.softDelete time select).tasks)
  | created {a : CreateArgs} {depth : ℕ} (hc : c = .createTask a (.insert depth))
      (haccepts : s.accepts (a.row depth uuid) = true)
      (h : s.tasks.insert (a.row depth uuid) = some s'.tasks)
  | spawned {job : RecurringTaskJobData} {parent : TaskRow} {next : ℕ} {users : List String}
      (hc : c = .recurring job (.insert parent next users))
      (haccepts : s.accepts (job.row parent next uuid) = true)
      (h : s.tasks.insert (job.row parent next uuid) = some s'.tasks)

section Steps

variable {cfg : Config} {s s' : Store} {uuid : String} {c c' : Op} {r : TaskRow}

theorem wrote_next (h : c.next cfg s uuid = some (s', c')) : Wrote s uuid c s' := by
  cases effect_next h with
  | read | event e | removed | added | assigned | copied => exact .same rfl
  | patched hr hcurrent haccepted => exact .patched rfl hr hcurrent haccepted rfl
  | restated => exact .restated rfl rfl
  | cascade | bulkDeleted | workspaceDeleted => exact .deleted rfl rfl
  | created haccepts hins => exact .created rfl haccepts hins
  | spawned haccepts hins => exact .spawned rfl haccepts hins

/-! ## The place of a task -/

/-- The columns no UPDATE sets. -/
def TaskRow.place (r : TaskRow) : String × String × Option String × ℕ × Option String :=
  (r.orgId, r.workspaceId, r.parentTaskId, r.depth, r.recurrenceParentId)

theorem place_eq {r' : TaskRow} (h : r'.place = r.place) :
    r'.orgId = r.orgId ∧ r'.workspaceId = r.workspaceId ∧ r'.parentTaskId = r.parentTaskId
      ∧ r'.depth = r.depth ∧ r'.recurrenceParentId = r.recurrenceParentId := by
  simpa only [TaskRow.place, Prod.mk.injEq] using h

theorem place_bulkStatus (orgId : String) (taskIds : List String) (status : TaskStatus) (now : ℕ)
    (r : TaskRow) : (r.bulkStatus orgId taskIds status now).place = r.place := by
  unfold TaskRow.bulkStatus
  split <;> rfl

theorem place_softDelete (select : TaskRow → Bool) (now : ℕ) (r : TaskRow) :
    (r.softDelete select now).place = r.place := by
  unfold TaskRow.softDelete
  split <;> rfl

theorem place_patch_ite (taskId : String) (d : UpdateTaskData) (now : ℕ) (r : TaskRow) :
    (if r.id = taskId then r.patch d now else r).place = r.place := by
  split <;> rfl

/-- A statement leaves the rows in their places, or inserts one. -/
inductive Placed (s : Store) (uuid : String) (c : Op) (s' : Store) : Prop
  | mapped {f : TaskRow → TaskRow} (hf : ∀ r, (f r).id = r.id) (hplace : ∀ r, (f r).place = r.place)
      (h : s'.tasks = s.tasks.map f hf)
  | created {a : CreateArgs} {depth : ℕ} (hc : c = .createTask a (.insert depth))
      (haccepts : s.accepts (a.row depth uuid) = true)
      (h : s.tasks.insert (a.row depth uuid) = some s'.tasks)
  | spawned {job : RecurringTaskJobData} {parent : TaskRow} {next : ℕ} {users : List String}
      (hc : c = .recurring job (.insert parent next users))
      (haccepts : s.accepts (job.row parent next uuid) = true)
      (h : s.tasks.insert (job.row parent next uuid) = some s'.tasks)

/-- Every statement does one of these. -/
theorem placed_next (h : c.next cfg s uuid = some (s', c')) : Placed s uuid c s' := by
  cases wrote_next h with
  | same h =>
    refine .mapped (f := id) (fun _ => rfl) (fun _ => rfl) ?_
    rw [h, Table.map_id]
  | @patched a r _ _ _ _ h =>
    exact .mapped (Table.key_ite (TaskRow.patch_id a.data s.now) a.taskId)
      (place_patch_ite a.taskId a.data s.now) h
  | @restated orgId _ taskIds status _ h =>
    exact .mapped (TaskRow.bulkStatus_id orgId taskIds status s.now)
      (place_bulkStatus orgId taskIds status s.now) h
  | @deleted time select _ h =>
    exact .mapped (TaskRow.softDelete_id select time) (place_softDelete select time) h
  | created hc haccepts h => exact .created hc haccepts h
  | spawned hc haccepts h => exact .spawned hc haccepts h

/-- **No row goes, and none is moved.** -/
theorem find_next {taskId : String} (h : c.next cfg s uuid = some (s', c'))
    (hr : s.tasks.find taskId = some r) :
    ∃ r', s'.tasks.find taskId = some r' ∧ r'.place = r.place := by
  cases placed_next h with
  | mapped hf hplace h =>
    rw [h, Table.find_map, hr]
    exact ⟨_, rfl, hplace r⟩
  | created _ _ h => exact ⟨r, Table.find_of_insert h hr, rfl⟩
  | spawned _ _ h => exact ⟨r, Table.find_of_insert h hr, rfl⟩

end Steps

/-! ## The parent a call has read -/

/-- The row to be inserted will be one deeper than its parent.  An empty parent id is not looked up,
and is refused by the INSERT. -/
def CreateArgs.Under (s : Store) (a : CreateArgs) (depth : ℕ) : Prop :=
  match a.input.parentTaskId with
  | none => depth = 0
  | some parentTaskId => parentTaskId = "" ∨
      ∃ parent, s.tasks.find parentTaskId = some parent ∧ parent.orgId = a.orgId
        ∧ depth = parent.depth + 1

/-- What a call that creates a task knows of the parent. -/
def Op.Under (s : Store) : Op → Prop
  | .createTask a (.parent parentTaskId) => a.input.parentTaskId = some parentTaskId
  | .createTask a (.member depth _ _) | .createTask a (.insert depth) => a.Under s depth
  | _ => True

section Under

variable {cfg : Config} {s s' : Store} {uuid : String} {a : CreateArgs} {c c' k : Op} {depth : ℕ}

theorem under_checking (h : a.Under s depth) :
    ∀ rest, Op.Under s (.createTask a (.checking depth rest))
  | [] => h
  | _ :: _ => h

/-- A call that has not begun has no parent to be under. -/
theorem under_of_fresh (h : c.fresh) : c.Under s := by
  cases c with
  | edit c => trivial
  | recurring job pc => trivial
  | deleteWorkspace orgId workspaceId actorId pc => trivial
  | createTask a pc =>
    obtain rfl : pc = a.entry := of_decide_eq_true h
    unfold CreateArgs.entry
    split
    · rename_i parentTaskId hparent
      exact (Option.filter_eq_some_iff.mp hparent).1
    · rename_i hnone
      refine under_checking ?_ a.assignees
      unfold CreateArgs.Under
      split
      · rfl
      · rename_i parentTaskId hparent
        rw [hparent] at hnone
        left
        by_contra hne
        rw [Option.filter_some_pos (by simpa using hne)] at hnone
        cases hnone

/-- The parent is there when the call goes on, as deep as it was. -/
theorem CreateArgs.Under.of_next (h : c.next cfg s uuid = some (s', c')) (hu : a.Under s depth) :
    a.Under s' depth := by
  unfold CreateArgs.Under at hu ⊢
  split
  · rename_i hnone
    rw [hnone] at hu
    exact hu
  · rename_i parentTaskId hparent
    rw [hparent] at hu
    rcases hu with hempty | ⟨parent, hfind, horg, hdepth⟩
    · exact Or.inl hempty
    · obtain ⟨parent', hfind', hplace⟩ := find_next h hfind
      obtain ⟨horg', -, -, hdepth', -⟩ := place_eq hplace
      exact Or.inr ⟨parent', hfind', horg'.trans horg, by rw [hdepth', hdepth]⟩

/-- What a call knows of the parent stays so, whatever runs. -/
theorem Op.Under.of_next (h : c.next cfg s uuid = some (s', c')) (hk : k.Under s) :
    k.Under s' := by
  cases k with
  | edit c => trivial
  | recurring job pc => trivial
  | deleteWorkspace orgId workspaceId actorId pc => trivial
  | createTask a pc =>
    cases pc with
    | parent parentTaskId => exact hk
    | member depth assigneeId rest => exact CreateArgs.Under.of_next h hk
    | insert depth => exact CreateArgs.Under.of_next h hk
    | _ => trivial

/-- After the lookup the row is to be one deeper than its parent. -/
theorem under_parent {parentTaskId : String} {pc' : CreatePc}
    (h : createNext s uuid a (.parent parentTaskId) = some (s', pc'))
    (hu : a.input.parentTaskId = some parentTaskId) : Op.Under s' (.createTask a pc') := by
  rw [createNext] at h
  obtain ⟨rfl, rfl⟩ := Prod.mk.inj (Option.some.inj h)
  split
  · trivial
  · rename_i parent hparent
    split
    · trivial
    · rename_i horg
      split
      · trivial
      · refine under_checking ?_ a.assignees
        unfold CreateArgs.Under
        rw [hu]
        exact Or.inr ⟨parent, (Option.filter_eq_some_iff.mp hparent).1, not_not.mp horg, rfl⟩

/-- A call goes on under the parent it has found. -/
theorem under_next (h : c.next cfg s uuid = some (s', c')) (hc : c.Under s) : c'.Under s' := by
  cases c with
  | edit c =>
    obtain ⟨c', -, rfl⟩ := pc_of_next h
    trivial
  | recurring job pc =>
    obtain ⟨pc', -, rfl⟩ := pc_of_next h
    trivial
  | deleteWorkspace orgId workspaceId actorId pc =>
    obtain ⟨pc', -, rfl⟩ := pc_of_next h
    trivial
  | createTask a pc =>
    obtain ⟨pc', hpc, rfl⟩ := pc_of_next h
    cases pc with
    | parent parentTaskId => exact under_parent hpc hc
    | member depth assigneeId rest =>
      obtain ⟨rfl, rfl⟩ := Prod.mk.inj (Option.some.inj hpc)
      split
      · exact under_checking hc rest
      · trivial
    | insert depth =>
      rw [createNext] at hpc
      split at hpc <;> obtain ⟨rfl, rfl⟩ := Prod.mk.inj (Option.some.inj hpc)
      · cases a.assignees <;> trivial
      · trivial
    | add task assigneeId rest =>
      obtain ⟨rfl, rfl⟩ := Prod.mk.inj (Option.some.inj hpc)
      cases rest <;> trivial
    | outbox task | activity task =>
      obtain ⟨rfl, rfl⟩ := Prod.mk.inj (Option.some.inj hpc)
      trivial
    | returned task | threw e | failed => cases hpc

end Under

/-! ## The forest -/

/-- Every task is at the end of a chain of parents of its organisation, as long as it is deep. -/
def Store.Forest (s : Store) : Prop :=
  ∀ r ∈ s.tasks.rows,
    s.tasks.Chain TaskRow.parentTaskId TaskRow.orgId r r.depth ∧ r.depth ≤ maxTaskDepth

section Runs

variable {ι : Type*} [DecidableEq ι] {cfg : Config} {s s' : Store} {uuid : String} {c c' : Op}
  {p q : Ops ι}

/-- `Forest`, in the form a step keeps. -/
theorem Store.forest_iff : s.Forest ↔
    s.tasks.Rooted TaskRow.parentTaskId TaskRow.orgId TaskRow.depth
      ∧ ∀ r ∈ s.tasks.rows, r.depth ≤ maxTaskDepth := by
  constructor
  · intro h
    exact ⟨Table.rooted_of_chain fun r hr => (h r hr).1, fun r hr => (h r hr).2⟩
  · rintro ⟨hrooted, hshallow⟩ r hr
    exact ⟨hrooted.chain hr, hshallow r hr⟩

theorem accepts_depth {r : TaskRow} (h : s.accepts r = true) : r.depth ≤ maxTaskDepth :=
  (of_decide_eq_true h).2.2.2.2.1

theorem accepts_parent {r : TaskRow} {parentTaskId : String} (h : s.accepts r = true)
    (hparent : r.parentTaskId = some parentTaskId) : parentTaskId ≠ "" := by
  have hall := (of_decide_eq_true h).2.2.1
  rw [hparent, Option.all_some] at hall
  exact (of_decide_eq_true hall).1

/-- The row `createTask` inserts is below its parent. -/
theorem below_created {a : CreateArgs} {depth : ℕ} (haccepts : s.accepts (a.row depth uuid) = true)
    (hu : a.Under s depth) :
    s.tasks.Below TaskRow.parentTaskId TaskRow.orgId TaskRow.depth (a.row depth uuid) := by
  unfold CreateArgs.Under at hu
  split at hu
  · rename_i hnone
    exact Table.below_of_none hnone hu
  · rename_i parentTaskId hparent
    rcases hu with rfl | ⟨parent, hfind, horg, hdepth⟩
    · exact absurd rfl (accepts_parent haccepts hparent)
    · exact Table.below_of_some hparent hfind horg hdepth

/-- A statement keeps the forest. -/
theorem forest_next (hnext : c.next cfg s uuid = some (s', c')) (hc : c.Under s) (hs : s.Forest) :
    s'.Forest := by
  rw [Store.forest_iff] at hs ⊢
  obtain ⟨hrooted, hshallow⟩ := hs
  cases placed_next hnext with
  | mapped hf hplace h =>
    have hcols := fun r => place_eq (hplace r)
    rw [h]
    refine ⟨hrooted.map hf (fun r => (hcols r).2.2.1) (fun r => (hcols r).1)
      fun r => (hcols r).2.2.2.1, fun r hr => ?_⟩
    obtain ⟨r₀, hr₀, rfl⟩ := List.mem_map.mp hr
    rw [(hcols r₀).2.2.2.1]
    exact hshallow r₀ hr₀
  | created hop haccepts h =>
    subst hop
    refine ⟨hrooted.insert h (below_created haccepts hc), ?_⟩
    rw [(Table.insert_eq_some h).2]
    exact List.forall_mem_cons.mpr ⟨accepts_depth haccepts, hshallow⟩
  | spawned hop haccepts h =>
    refine ⟨hrooted.insert h (Table.below_of_none rfl rfl), ?_⟩
    rw [(Table.insert_eq_some h).2]
    exact List.forall_mem_cons.mpr ⟨accepts_depth haccepts, hshallow⟩

/-- The calls know their parents, and the tasks are a forest. -/
theorem forest_run {G : Ops ι → Move ι String Env → Prop} (h₀ : p.store.Forest)
    (hstart : ∀ i, (p.calls i).Live fun c => c.fresh)
    (h : Run (Pool.step (opMachine cfg)) G p q) :
    q.store.Forest ∧ ∀ i, (q.calls i).Keeps (Op.Under q.store) := by
  refine Pool.invariant
    (I := fun p : Ops ι => p.store.Forest ∧ ∀ i, (p.calls i).Keeps (Op.Under p.store))
    ⟨h₀, fun i => ?_⟩ ?_ ?_ ?_ h
  · obtain ⟨c, hc, hfresh⟩ := (hstart i).exists
    rw [hc]
    exact under_of_fresh hfresh
  · rintro p i uuid c s' c' ⟨hforest, hunder⟩ - hc hnext
    have hself := (hunder i).of_up hc
    refine ⟨forest_next hnext hself hforest, ?_⟩
    exact keeps_update_up (under_next hnext hself)
      fun j _ => (hunder j).imp fun k hk => hk.of_next hnext
  · rintro p i c ⟨hforest, hunder⟩ - -
    exact ⟨hforest, keeps_update_down hunder⟩
  · rintro p (_ | _ | _) ⟨hforest, hunder⟩ -
    all_goals exact ⟨hforest, fun i => (hunder i).imp fun k hk => by cases k <;> exact hk⟩

/-- **The parents are a forest**: whatever is created, edited, deleted and spawned, in any order,
the parents of a task are a chain that stays in its organisation and is as long as the task is deep,
which is two at most. -/
theorem parent_chain (h₀ : p.store.Forest) (hstart : ∀ i, (p.calls i).Live fun c => c.fresh)
    (h : Run (Pool.step (opMachine cfg)) anyStep p q) :
    ∀ r ∈ q.store.tasks.rows,
      q.store.tasks.Chain TaskRow.parentTaskId TaskRow.orgId r r.depth ∧ r.depth ≤ 2 :=
  (forest_run h₀ hstart h).1

end Runs

/-! ## A subtask -/

/-- A subtask of the task. -/
def demoSubtask : CreateArgs where
  orgId := "o"
  userId := "u"
  input :=
    { workspaceId := "w", boardId := none, parentTaskId := some "t", title := "part",
      description := none, status := none, priority := none, dueDate := none, isRecurring := none,
      recurrenceRule := none, labels := none, assigneeIds := none }

/-- No rule has a next occurrence, and dates are UTC dates. -/
def demoConfig : Config := ⟨fun _ _ => none, fun due => utcDate due, fun due => utcDate due⟩

/-- The subtask is created while the task is deleted. -/
def subtaskAndDelete : Ops (Fin 2) where
  store := demoStore
  calls := ![.up (.createTask demoSubtask demoSubtask.entry),
    .up (.edit (.deleteTask "o" "t" "u" .find))]

theorem demoStore_forest : demoStore.Forest := by
  rintro r hr
  obtain rfl := List.mem_singleton.mp hr
  exact ⟨.root rfl, Nat.zero_le 2⟩

/-- The subtask is inserted after its parent is deleted; its chain is there all the same. -/
theorem subtask_chain :
    ∃ q, Run (Pool.step (opMachine demoConfig)) anyStep subtaskAndDelete q
      ∧ ∃ r ∈ q.store.tasks.rows, r.id = "c" ∧ r.parentTaskId = some "t" ∧ r.depth = 1
        ∧ q.store.tasks.Chain TaskRow.parentTaskId TaskRow.orgId r r.depth ∧ r.depth ≤ 2 := by
  obtain ⟨q, hq, h⟩ := exists_run_of_exec (Pool.step (opMachine demoConfig)) anyStep subtaskAndDelete
    [.run 0 "", .run 1 "", .run 1 "", .run 1 "", .run 0 "c"]
    (fun q => (q.store.tasks.find "c").any fun r => r.parentTaskId = some "t" ∧ r.depth = 1)
    (by decide)
  obtain ⟨r, hr, h⟩ := (Option.any_eq_true _ _).mp h
  obtain ⟨hparent, hdepth⟩ := of_decide_eq_true h
  obtain ⟨hmem, hid⟩ := Table.find_eq_some.mp hr
  exact ⟨q, hq, r, hmem, hid, hparent, hdepth,
    parent_chain demoStore_forest (by decide) hq r hmem⟩

end WorkPlatform.Task

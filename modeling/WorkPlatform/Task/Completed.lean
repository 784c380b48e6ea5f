import WorkPlatform.Task.Forest

/-!
# Task/Completed — `completed_at`, and the status

    INSERT of createTask       status given,    completed_at NULL
    INSERT of a job            status 'todo',   completed_at NULL
    UPDATE … SET status        'done'           completed_at = NOW()
                               anything else    completed_at as it was

Nothing clears the column, and an INSERT does not set it.  The two columns stay together in every
run in which no task is inserted as done and none that is done is given another status, and part at
the first statement that does one or the other (`completed_run`).
-/

namespace WorkPlatform.Task

open Machinery

/-- Where it is live, the row has `completed_at` if it is done and only then. -/
def TaskRow.Marked (r : TaskRow) : Prop :=
  r.deletedAt = none → (r.completedAt.isSome ↔ r.status = .done)

instance (r : TaskRow) : Decidable r.Marked := inferInstanceAs (Decidable (_ → _))

/-- **A live task has `completed_at` set exactly where its status is `done`.** -/
def Store.Marked (s : Store) : Prop := ∀ r ∈ s.tasks.rows, r.Marked

instance (s : Store) : Decidable s.Marked := inferInstanceAs (Decidable (∀ r ∈ s.tasks.rows, r.Marked))

/-- The status a row is given leaves it done, where it is. -/
def TaskRow.stays (r : TaskRow) (status : Option TaskStatus) : Bool :=
  r.status = .done → status.all (· = .done)

/-- The next statement inserts no task as done, and gives none that is done another status. -/
def Op.marks (s : Store) (uuid : String) : Op → Bool
  | .createTask a (.insert depth) =>
    a.input.status = some .done → (s.insertTask (a.row depth uuid)).isNone
  | .edit (.updateTask a .update) =>
    (s.tasks.find a.taskId).all fun r =>
      r.current a.orgId a.version → s.refuses a.data r = false → r.stays a.data.status
  | .edit (.bulkUpdateStatus orgId _ taskIds status .update) =>
    s.tasks.rows.all fun r =>
      r.orgId = orgId ∧ r.id ∈ taskIds ∧ r.deletedAt = none → r.stays (some status)
  | _ => true

/-! ## What an UPDATE does to a row -/

section

variable {r r' : TaskRow} {status : Option TaskStatus} {now : ℕ}

/-- **The SET of a status keeps a live row marked** exactly where the row stays done. -/
theorem marked_set (now : ℕ) (hlive : r.deletedAt = none) (hr : r.Marked) (hlive' : r'.deletedAt = none)
    (hstatus : r'.status = status.getD r.status)
    (hcompleted : r'.completedAt = if status = some .done then some now else r.completedAt) :
    r'.Marked ↔ r.stays status = true := by
  have hmarked := hr hlive
  rw [TaskRow.Marked, imp_iff_right hlive', hstatus, hcompleted, TaskRow.stays, decide_eq_true_iff]
  cases status with
  | none => simp [hmarked]
  | some status =>
    by_cases hdone : status = .done
    · simp [hdone]
    · simp [hdone, ← hmarked, Option.isNone_iff_eq_none]

theorem marked_patch {d : UpdateTaskData} (hlive : r.deletedAt = none) (hr : r.Marked) :
    (r.patch d now).Marked ↔ r.stays d.status = true :=
  marked_set now hlive hr hlive rfl rfl

theorem marked_bulkStatus {orgId : String} {taskIds : List String} {status : TaskStatus}
    (hr : r.Marked) : (r.bulkStatus orgId taskIds status now).Marked ↔
      (r.orgId = orgId ∧ r.id ∈ taskIds ∧ r.deletedAt = none → r.stays (some status) = true) := by
  by_cases hselected : r.orgId = orgId ∧ r.id ∈ taskIds ∧ r.deletedAt = none
  · rw [TaskRow.bulkStatus, if_pos hselected, imp_iff_right hselected]
    exact marked_set now hselected.2.2 hr hselected.2.2 rfl (by simp only [Option.some.injEq])
  · rw [TaskRow.bulkStatus, if_neg hselected]
    exact iff_of_true hr fun h => absurd h hselected

theorem marked_softDelete {select : TaskRow → Bool} (hr : r.Marked) :
    (r.softDelete select now).Marked := by
  unfold TaskRow.softDelete
  split
  · intro hlive
    cases hlive
  · exact hr

end

/-! ## What a statement does -/

section Steps

variable {cfg : Config} {s s' : Store} {uuid : String} {c c' : Op}

theorem marked_bulkUpdateStatus (hs : s.Marked) (orgId userId : String) (taskIds : List String)
    (status : TaskStatus) : (s.bulkUpdateStatus orgId taskIds status).Marked ↔
      (Op.edit (.bulkUpdateStatus orgId userId taskIds status .update)).marks s uuid = true := by
  rw [Op.marks, List.all_eq_true]
  refine List.forall_mem_map.trans (forall₂_congr fun r hr => ?_)
  rw [decide_eq_true_iff, marked_bulkStatus (hs r hr)]

/-- The UPDATE of one task leaves the tasks marked exactly where it keeps that one so. -/
theorem marked_patch_store {a : UpdateArgs} {r : TaskRow} (hs : s.Marked)
    (hr : s.tasks.find a.taskId = some r) (hlive : r.deletedAt = none) :
    (s.patch a.taskId a.data).Marked ↔ r.stays a.data.status = true := by
  obtain ⟨hmem, hid⟩ := Table.find_eq_some.mp hr
  constructor
  · intro h
    have hfind := find_patch hr a.data
    exact (marked_patch hlive (hs r hmem)).mp (h _ (Table.find_eq_some.mp hfind).1)
  · intro hstays
    refine List.forall_mem_map.mpr fun x hx => ?_
    split_ifs with hkey
    · have hsame : x = r := by
        have hfind := Table.find_key hx
        rw [hkey, hr] at hfind
        exact (Option.some.inj hfind).symm
      subst hsame
      exact (marked_patch hlive (hs x hx)).mpr hstays
    · exact hs x hx

theorem marked_insert {r : TaskRow} (hs : s.Marked) (h : s.tasks.insert r = some s'.tasks) :
    s'.Marked ↔ r.Marked := by
  rw [Store.Marked, (Table.insert_eq_some h).2, List.forall_mem_cons]
  exact and_iff_left hs

theorem marked_row (a : CreateArgs) (depth : ℕ) (id : String) :
    (a.row depth id).Marked ↔ a.input.status ≠ some .done := by
  have hrow : (a.row depth id).Marked ↔ a.input.status.getD .todo ≠ .done := by
    simp [TaskRow.Marked, CreateArgs.row]
  rw [hrow]
  cases a.input.status <;> simp

/-- **A statement that meets the condition keeps the columns together.** -/
theorem marked_of_marks (hnext : c.next cfg s uuid = some (s', c')) (hmarks : c.marks s uuid = true)
    (hs : s.Marked) : s'.Marked := by
  cases wrote_next hnext with
  | same h =>
    rw [Store.Marked, h]
    exact hs
  | @patched a r hc hr hcurrent haccepted h =>
    subst hc
    rw [Op.marks, hr, Option.all_some, decide_eq_true_iff] at hmarks
    rw [Store.Marked, h]
    have hlive : r.deletedAt = none := (of_decide_eq_true hcurrent).2.2
    exact (marked_patch_store hs hr hlive).mpr (hmarks hcurrent haccepted)
  | @restated orgId userId taskIds status hc h =>
    subst hc
    rw [Store.Marked, h]
    exact (marked_bulkUpdateStatus hs orgId userId taskIds status).mpr hmarks
  | deleted _ h =>
    rw [Store.Marked, h]
    exact List.forall_mem_map.mpr fun r hr => marked_softDelete (hs r hr)
  | @created a depth hc haccepts h =>
    subst hc
    refine (marked_insert hs h).mpr ((marked_row a depth uuid).mpr fun hdone => ?_)
    have hnone := of_decide_eq_true hmarks hdone
    rw [Store.insertTask, if_pos haccepts, h] at hnone
    cases hnone
  | spawned _ _ h =>
    refine (marked_insert hs h).mpr fun _ => ?_
    exact iff_of_false Bool.false_ne_true TaskStatus.noConfusion

/-- An INSERT that keeps every task marked meets the condition. -/
theorem marks_insert {a : CreateArgs} {depth : ℕ} {pc' : CreatePc}
    (hnext : createNext s uuid a (.insert depth) = some (s', pc')) (hs : s.Marked) (hs' : s'.Marked) :
    (Op.createTask a (.insert depth)).marks s uuid = true := by
  refine decide_eq_true fun hdone => ?_
  rw [createNext] at hnext
  cases hinsert : s.insertTask (a.row depth uuid) with
  | none => rfl
  | some s₁ =>
    simp only [hinsert] at hnext
    obtain ⟨rfl, -⟩ := Prod.mk.inj (Option.some.inj hnext)
    obtain ⟨tasks, -, h, rfl⟩ := insertTask_eq_some hinsert
    exact absurd hdone ((marked_row a depth uuid).mp ((marked_insert hs h).mp hs'))

/-- So does an UPDATE that does. -/
theorem marks_update {a : UpdateArgs} {pc' : UpdatePc}
    (hnext : updateNext s a .update = some (s', pc')) (hs : s.Marked) (hs' : s'.Marked) :
    (Op.edit (.updateTask a .update)).marks s uuid = true := by
  rw [Op.marks, Option.all_eq_true]
  refine fun r hr => decide_eq_true fun hcurrent haccepted => ?_
  by_cases hempty : a.data.isEmpty = true
  · have hnone : a.data.status = none := Option.isNone_iff_eq_none.mp (of_decide_eq_true hempty).2.2.1
    rw [hnone]
    exact decide_eq_true fun _ => rfl
  · rw [updateNext, if_neg hempty, hr, Option.filter_some_pos hcurrent] at hnext
    simp only [haccepted] at hnext
    obtain ⟨rfl, -⟩ := Prod.mk.inj (Option.some.inj hnext)
    exact (marked_patch_store hs hr (of_decide_eq_true hcurrent).2.2).mp hs'

/-- **And one that does not, parts them.** -/
theorem marks_of_marked (hnext : c.next cfg s uuid = some (s', c')) (hs : s.Marked)
    (hs' : s'.Marked) : c.marks s uuid = true := by
  cases c with
  | deleteWorkspace orgId workspaceId actorId pc => rfl
  | recurring job pc => rfl
  | createTask a pc =>
    obtain ⟨pc', hpc, -⟩ := pc_of_next hnext
    cases pc with
    | insert depth => exact marks_insert hpc hs hs'
    | _ => rfl
  | edit c =>
    obtain ⟨c', hc, -⟩ := pc_of_next hnext
    cases c with
    | deleteTask orgId taskId userId pc => rfl
    | bulkDelete orgId userId taskIds pc => rfl
    | updateTask a pc =>
      obtain ⟨pc', hpc, -⟩ := pc_of_next hc
      cases pc with
      | update => exact marks_update hpc hs hs'
      | _ => rfl
    | bulkUpdateStatus orgId userId taskIds status pc =>
      obtain ⟨pc', hpc, -⟩ := pc_of_next hc
      cases pc with
      | update =>
        obtain ⟨rfl, -⟩ := Prod.mk.inj (Option.some.inj hpc)
        exact (marked_bulkUpdateStatus hs orgId userId taskIds status).mp hs'
      | _ => rfl

end Steps

/-! ## Runs -/

section Runs

variable {ι : Type*}

/-- Every statement meets the condition where it runs. -/
def Marking (p : Ops ι) : Move ι String Env → Prop
  | .run i uuid => (p.calls i).Keeps fun c => c.marks p.store uuid = true
  | _ => True

instance (p : Ops ι) : ∀ m : Move ι String Env, Decidable (Marking p m)
  | .run i uuid => inferInstanceAs (Decidable ((p.calls i).Keeps fun c => c.marks p.store uuid = true))
  | .crash _ => inferInstanceAs (Decidable True)
  | .env _ => inferInstanceAs (Decidable True)

variable [DecidableEq ι] {cfg : Config} {p q q' : Ops ι}

/-- A step keeps every task marked exactly where it meets the condition. -/
theorem marked_step {m : Move ι String Env} (hs : p.store.Marked)
    (h : p.step (opMachine cfg) m = some q) : q.store.Marked ↔ Marking p m := by
  cases m with
  | run i uuid =>
    obtain ⟨c, s', c', hc, hnext, rfl⟩ := Pool.step_run h
    rw [Marking, hc]
    exact ⟨fun hs' => marks_of_marked hnext hs hs', fun hmarks => marked_of_marks hnext hmarks hs⟩
  | crash i =>
    obtain ⟨c, hc, rfl⟩ := Pool.step_crash h
    exact iff_of_true hs trivial
  | env e =>
    obtain rfl := Option.some.inj h
    cases e <;> exact iff_of_true hs trivial

/-- **`completed_at` is set exactly where the status is `done`**, in every run whose statements meet
the condition; and the next statement keeps it so exactly where it meets it too. -/
theorem completed_run (h₀ : p.store.Marked) (h : Run (Pool.step (opMachine cfg)) Marking p q) :
    q.store.Marked ∧
      ∀ m q', q.step (opMachine cfg) m = some q' → (q'.store.Marked ↔ Marking q m) := by
  have hs : q.store.Marked :=
    Run.invariant (I := fun p : Ops ι => p.store.Marked) h₀
      (fun p m q hs hG hstep => (marked_step hs hstep).mpr hG) h
  exact ⟨hs, fun m q' hstep => marked_step hs hstep⟩

end Runs

/-! ## A task that is done -/

/-- A bulk operation sets the task to `done`; its creator reopens it; a task is created as
`done`. -/
def doneTasks : Ops (Fin 3) where
  store := { demoStore with roles := fun _ userId => if userId = "admin" then some .orgAdmin else none }
  calls := ![.up (.edit (.bulkUpdateStatus "o" "admin" ["t"] .done .membership)),
    .up (.edit (.updateTask ⟨"o", "t", "u", { noColumn with status := some .todo }, none, 1⟩ .find)),
    .up (.createTask ⟨"o", "u", { demoSubtask.input with parentTaskId := none, status := some .done }⟩
      (.insert 0))]

/-- The bulk operation keeps the columns together. -/
theorem completed_run_bulk :
    ∃ q, Run (Pool.step (opMachine demoConfig)) Marking doneTasks q
      ∧ ((q.store.tasks.find "t").any fun r => r.status = .done)
      ∧ (q.store.Marked ∧
          ∀ m q', q.step (opMachine demoConfig) m = some q' → (q'.store.Marked ↔ Marking q m)) := by
  obtain ⟨q, hq, h⟩ := exists_run_of_exec (Pool.step (opMachine demoConfig)) Marking doneTasks
    [.run 0 "", .run 0 ""] (fun q => (q.store.tasks.find "t").any fun r => r.status = .done) (by decide)
  exact ⟨q, hq, h, completed_run (by decide) hq⟩

/-- **A task that is reopened keeps `completed_at`, and one created as done has none.** -/
theorem not_marked_reopened :
    doneTasks.store.Marked
      ∧ (∃ q, Run (Pool.step (opMachine demoConfig)) anyStep doneTasks q ∧ ¬ q.store.Marked
        ∧ (q.store.tasks.find "t").any fun r => r.status = .todo ∧ r.completedAt.isSome)
      ∧ ∃ q, Run (Pool.step (opMachine demoConfig)) anyStep doneTasks q ∧ ¬ q.store.Marked
        ∧ (q.store.tasks.find "c").any fun r => r.status = .done ∧ r.completedAt = none := by
  refine ⟨by decide, ?_, ?_⟩
  · obtain ⟨q, hq, h⟩ := exists_run_of_exec (Pool.step (opMachine demoConfig)) anyStep doneTasks
      [.run 0 "", .run 0 "", .run 1 "", .run 1 "", .run 1 ""]
      (fun q => ¬ q.store.Marked
        ∧ (q.store.tasks.find "t").any fun r => r.status = .todo ∧ r.completedAt.isSome) (by decide)
    exact ⟨q, hq, of_decide_eq_true h⟩
  · obtain ⟨q, hq, h⟩ := exists_run_of_exec (Pool.step (opMachine demoConfig)) anyStep doneTasks
      [.run 2 "c"]
      (fun q => ¬ q.store.Marked
        ∧ (q.store.tasks.find "c").any fun r => r.status = .done ∧ r.completedAt = none) (by decide)
    exact ⟨q, hq, of_decide_eq_true h⟩

end WorkPlatform.Task

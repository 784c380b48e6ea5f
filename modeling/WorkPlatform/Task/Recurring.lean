import WorkPlatform.Task.Forest

/-!
# Task/Recurring — the children of a recurring task

    runRecurringTaskJob   next occurrence d ▸ COUNT children on the date of d ▸ INSERT child
                            ▸ INSERT assignee … ▸ INSERT event
                          a child is there: the job is done

The unique index keeps one live child for a UTC date, whatever runs (`one_child`).  A job that finds
a child goes by the COUNT alone: the child may still be in the making, or its job may have crashed
half-way (`retry_skips_half_made_child`), or it may have the date of `d` in the time zone of the
session and another UTC date.

A run is `Settled` where what a COUNT finds has the UTC date of `d` and has been finished.  Then a
job that returns leaves a live child for `d` with all the assignees of the task and an event
(`recurring_child`).
-/

namespace WorkPlatform.Task

open Machinery

/-! ## One child for a date -/

/-- Live rows have different keys in `idx_tasks_recurrence_dedup`. -/
def Store.OneChild (s : Store) : Prop :=
  ∀ x ∈ s.tasks.rows, ∀ y ∈ s.tasks.rows, x.dedupKey.isSome → x.dedupKey = y.dedupKey → x.id = y.id

section OneChild

variable {cfg : Config} {s s' : Store} {uuid : String} {c c' : Op} {r : TaskRow}

theorem not_duplicate (h : s.duplicate r = false) {other : TaskRow} (hother : other ∈ s.tasks.rows)
    (hkey : r.dedupKey.isSome) (heq : other.dedupKey = r.dedupKey) : other.id = r.id := by
  by_contra hne
  unfold Store.duplicate at h
  have hnone := List.any_eq_false.mp h other hother
  exact hnone (decide_eq_true ⟨hne, hkey, heq⟩)

/-- An UPDATE that gives no row a new key. -/
theorem oneChild_map {f : TaskRow → TaskRow} (hf : ∀ r, (f r).id = r.id)
    (hkey : ∀ r, (f r).dedupKey = none ∨ (f r).dedupKey = r.dedupKey)
    (h : s'.tasks = s.tasks.map f hf) (hs : s.OneChild) : s'.OneChild := by
  intro x' hx' y' hy' hsome heq
  rw [h] at hx' hy'
  obtain ⟨x, hx, rfl⟩ := List.mem_map.mp hx'
  obtain ⟨y, hy, rfl⟩ := List.mem_map.mp hy'
  have hkept : ∀ r, (f r).dedupKey.isSome → (f r).dedupKey = r.dedupKey := by
    intro r hr
    rcases hkey r with hnone | hsame
    · rw [hnone] at hr
      cases hr
    · exact hsame
  have hsome' : (f y).dedupKey.isSome := by rw [← heq]; exact hsome
  rw [hkept x hsome, hkept y hsome'] at heq
  rw [hkept x hsome] at hsome
  rw [hf, hf]
  exact hs x hx y hy hsome heq

/-- An UPDATE of one row to a key no other row has. -/
theorem oneChild_update {f : TaskRow → TaskRow} (hf : ∀ r, (f r).id = r.id) {taskId : String}
    (hr : s.tasks.find taskId = some r) (hfree : s.duplicate (f r) = false)
    (h : s'.tasks = s.tasks.update taskId f hf) (hs : s.OneChild) : s'.OneChild := by
  have hrow : ∀ x ∈ s.tasks.rows, x.id = taskId → x = r := by
    rintro x hx rfl
    exact Option.some.inj ((Table.find_key hx).symm.trans hr)
  intro x' hx' y' hy' hsome heq
  rw [h] at hx' hy'
  obtain ⟨x, hx, rfl⟩ := List.mem_map.mp hx'
  obtain ⟨y, hy, rfl⟩ := List.mem_map.mp hy'
  by_cases hxt : x.id = taskId
  · obtain rfl := hrow x hx hxt
    by_cases hyt : y.id = taskId
    · obtain rfl := hrow y hy hyt
      rfl
    · rw [if_pos hxt] at hsome heq ⊢
      rw [if_neg hyt] at heq ⊢
      exact (not_duplicate hfree hy hsome heq.symm).symm
  · rw [if_neg hxt] at hsome heq ⊢
    by_cases hyt : y.id = taskId
    · obtain rfl := hrow y hy hyt
      rw [if_pos hyt] at heq ⊢
      exact not_duplicate hfree hx (by rw [← heq]; exact hsome) heq
    · rw [if_neg hyt] at heq ⊢
      exact hs x hx y hy hsome heq

/-- The INSERT of a task that is no duplicate keeps one child for each occurrence. -/
theorem oneChild_insert (hfree : s.duplicate r = false) (h : s.tasks.insert r = some s'.tasks)
    (hs : s.OneChild) : s'.OneChild := by
  intro x hx y hy hsome heq
  rw [(Table.insert_eq_some h).2] at hx hy
  rcases List.mem_cons.mp hx with rfl | hxold
  · rcases List.mem_cons.mp hy with rfl | hyold
    · rfl
    · exact (not_duplicate hfree hyold hsome heq.symm).symm
  · rcases List.mem_cons.mp hy with rfl | hyold
    · exact not_duplicate hfree hxold (by rw [← heq]; exact hsome) heq
    · exact hs x hxold y hyold hsome heq

theorem dedupKey_patch {d : UpdateTaskData} (now : ℕ) (hdue : d.dueDate = none) :
    (r.patch d now).dedupKey = r.dedupKey := by
  unfold TaskRow.patch TaskRow.dedupKey
  dsimp only
  rw [hdue]
  rfl

theorem accepts_free (h : s.accepts r = true) : s.duplicate r = false :=
  (of_decide_eq_true h).2.2.2.2.2

/-- A statement gives a task no second child for a date. -/
theorem oneChild_next (hnext : c.next cfg s uuid = some (s', c')) (hs : s.OneChild) :
    s'.OneChild := by
  cases wrote_next hnext with
  | same h =>
    exact oneChild_map (f := id) (fun _ => rfl) (fun _ => Or.inr rfl) (h.trans Table.map_id.symm) hs
  | @patched a r _ hr _ haccepted h =>
    by_cases hdue : a.data.dueDate = none
    · refine oneChild_map (Table.key_ite (TaskRow.patch_id a.data s.now) a.taskId)
        (fun r => Or.inr ?_) h hs
      split
      · exact dedupKey_patch s.now hdue
      · rfl
    · have hfree : s.duplicate (r.patch a.data s.now) = false := by
        refine eq_false_of_ne_true fun hdup => ?_
        refine absurd (decide_eq_true (Or.inr ⟨?_, hdup⟩)) (ne_true_of_eq_false haccepted)
        exact Option.isSome_iff_ne_none.mpr hdue
      exact oneChild_update (TaskRow.patch_id a.data s.now) hr hfree h hs
  | @restated orgId _ taskIds status _ h =>
    refine oneChild_map (TaskRow.bulkStatus_id orgId taskIds status s.now) (fun r => Or.inr ?_) h hs
    unfold TaskRow.bulkStatus
    split <;> rfl
  | @deleted time select _ h =>
    refine oneChild_map (TaskRow.softDelete_id select time) (fun r => ?_) h hs
    unfold TaskRow.softDelete
    split
    · exact Or.inl rfl
    · exact Or.inr rfl
  | created _ haccepts h => exact oneChild_insert (accepts_free haccepts) h hs
  | spawned _ haccepts h => exact oneChild_insert (accepts_free haccepts) h hs

variable {ι : Type*} [DecidableEq ι] {G : Ops ι → Move ι String Env → Prop} {p q : Ops ι}

/-- Whatever runs, live children have different dates. -/
theorem one_child (h₀ : p.store.OneChild) (h : Run (Pool.step (opMachine cfg)) G p q) :
    q.store.OneChild := by
  refine Pool.invariant (I := fun p : Ops ι => p.store.OneChild) h₀ ?_ ?_ ?_ h
  · intro p i uuid c s' c' hs _ _ hnext
    exact oneChild_next hnext hs
  · intro p i c hs _ _
    exact hs
  · rintro p (_ | _ | _) hs -
    all_goals exact hs

end OneChild

/-! ## What a job makes -/

namespace Store

/-- The task is there, and recurring. -/
def Loaded (s : Store) (taskId : String) : Prop :=
  ∃ r, s.tasks.find taskId = some r ∧ r.isRecurring = true

/-- The child has all the assignees of the task, and an event. -/
def Whole (s : Store) (taskId childId : String) : Prop :=
  (∀ userId ∈ s.assignees taskId, userId ∈ s.assignees childId)
    ∧ ∃ e ∈ s.outbox, e.type = .taskCreated ∧ e.entityId = childId

/-- **The child for the occurrence**: live, for its UTC date, with all the assignees of the task and
an event. -/
def HasChild (s : Store) (taskId : String) (next : ℕ) : Prop :=
  ∃ x ∈ s.tasks.rows, x.recurrenceParentId = some taskId ∧ x.deletedAt = none
    ∧ (∃ due, x.dueDate = some due ∧ utcDate due = utcDate next) ∧ s.Whole taskId x.id

/-- The row a job has inserted. -/
def Made (s : Store) (taskId : String) (next : ℕ) (childId : String) : Prop :=
  ∃ x, s.tasks.find childId = some x ∧ x.recurrenceParentId = some taskId ∧ x.deletedAt = none
    ∧ x.dueDate = some next ∧ x.isRecurring = false

end Store

namespace Op

/-- A job, and nothing else. -/
def isJob : Op → Bool
  | .recurring _ _ => true
  | _ => false

/-- The job has inserted the child and not written its event. -/
def makes (childId : String) : Op → Bool
  | .recurring _ (.add _ newTaskId _ _) | .recurring _ (.outbox _ newTaskId) => newTaskId = childId
  | _ => false

/-- The children the COUNT of a job is about to find. -/
def found (cfg : Config) (s : Store) : Op → List TaskRow
  | .recurring job (.count _ next) => s.tasks.rows.filter (·.childOn cfg job.parentTaskId next)
  | _ => []

/-- The row has the UTC date the job is at. -/
def onDate (x : TaskRow) : Op → Bool
  | .recurring _ (.count _ next) => x.dueDate.any fun due => utcDate due = utcDate next
  | _ => true

/-- What a job knows. -/
def Knows (s : Store) : Op → Prop
  | .recurring _ .load | .recurring _ .ended | .recurring _ .failed => True
  | .recurring job (.count _ _) | .recurring job (.assignees _ _) => s.Loaded job.parentTaskId
  | .recurring job (.insert _ _ users) =>
      s.Loaded job.parentTaskId ∧ users = s.assignees job.parentTaskId
  | .recurring job (.add next newTaskId userId rest) => s.Loaded job.parentTaskId
      ∧ s.Made job.parentTaskId next newTaskId
      ∧ ∃ done, s.assignees job.parentTaskId = done ++ userId :: rest
        ∧ ∀ user ∈ done, user ∈ s.assignees newTaskId
  | .recurring job (.outbox next newTaskId) => s.Loaded job.parentTaskId
      ∧ s.Made job.parentTaskId next newTaskId
      ∧ ∀ user ∈ s.assignees job.parentTaskId, user ∈ s.assignees newTaskId
  | .recurring job (.returned next) =>
      s.Loaded job.parentTaskId ∧ s.HasChild job.parentTaskId next
  | _ => False

end Op

section Jobs

variable {cfg : Config} {s s' : Store} {uuid : String} {job : RecurringTaskJobData}
  {pc pc' : SpawnPc} {taskId childId : String} {next : ℕ}

/-- Jobs add rows, assignees and events, and leave the assignees of recurring tasks alone. -/
structure Store.Grows (s s' : Store) : Prop where
  rows : ∀ id r, s.tasks.find id = some r → s'.tasks.find id = some r
  assignees : ∀ id userId, userId ∈ s.assignees id → userId ∈ s'.assignees id
  loaded : ∀ id, s.Loaded id → s'.assignees id = s.assignees id
  outbox : ∀ e ∈ s.outbox, e ∈ s'.outbox

theorem Store.Grows.refl : s.Grows s :=
  ⟨fun _ _ h => h, fun _ _ h => h, fun _ _ => rfl, fun _ h => h⟩

/-- An INSERT takes no assignee away. -/
theorem mem_addAssignee_of_mem {id userId user : String} (h : user ∈ s.assignees id) :
    user ∈ (s.addAssignee taskId userId).assignees id := by
  unfold Store.addAssignee
  dsimp only
  by_cases hid : id = taskId
  · subst hid
    rw [Function.update_self]
    split
    · exact h
    · exact List.mem_append_left _ h
  · rw [Function.update_of_ne hid]
    exact h

theorem mem_addAssignee_self (userId : String) :
    userId ∈ (s.addAssignee taskId userId).assignees taskId := by
  unfold Store.addAssignee
  dsimp only
  rw [Function.update_self]
  split
  · assumption
  · exact List.mem_append_right _ (List.mem_singleton.mpr rfl)

/-- What is made is not recurring. -/
theorem ne_of_made (hloaded : s.Loaded taskId) {parentId : String}
    (hmade : s.Made parentId next childId) : taskId ≠ childId := by
  rintro rfl
  obtain ⟨r, hr, hrecurring⟩ := hloaded
  obtain ⟨x, hx, -, -, -, hnot⟩ := hmade
  obtain rfl := Option.some.inj (hr.symm.trans hx)
  rw [hrecurring] at hnot
  cases hnot

theorem grows_addAssignee {parentId userId : String} (hmade : s.Made parentId next childId) :
    s.Grows (s.addAssignee childId userId) where
  rows _ _ h := h
  assignees _ _ h := mem_addAssignee_of_mem h
  loaded _ hloaded := Function.update_of_ne (ne_of_made hloaded hmade) _ _
  outbox _ h := h

theorem grows_insert {r : TaskRow} {tasks : Table TaskRow.id} (h : s.tasks.insert r = some tasks) :
    s.Grows { s with tasks := tasks } where
  rows _ _ hfind := Table.find_of_insert h hfind
  assignees _ _ hmem := hmem
  loaded _ _ := rfl
  outbox _ hmem := hmem

/-- A statement of the job takes no row and no event away. -/
theorem grows_next (h : spawnNext cfg s uuid job pc = some (s', pc'))
    (hk : Op.Knows s (.recurring job pc)) : s.Grows s' := by
  cases pc with
  | insert parent next users =>
    rw [spawnNext] at h
    split at h <;> obtain ⟨rfl, rfl⟩ := Prod.mk.inj (Option.some.inj h)
    · rename_i hins
      obtain ⟨tasks, -, htasks, rfl⟩ := insertTask_eq_some hins
      exact grows_insert htasks
    · exact .refl
  | add next newTaskId userId rest =>
    obtain ⟨rfl, rfl⟩ := Prod.mk.inj (Option.some.inj h)
    exact grows_addAssignee hk.2.1
  | outbox next newTaskId =>
    obtain ⟨rfl, rfl⟩ := Prod.mk.inj (Option.some.inj h)
    exact ⟨fun _ _ h => h, fun _ _ h => h, fun _ _ => rfl, fun _ h => List.mem_cons_of_mem _ h⟩
  | returned next | ended | failed => cases h
  | load | count parent next | assignees parent next =>
    obtain ⟨rfl, rfl⟩ := Prod.mk.inj (Option.some.inj h)
    exact .refl

/-! ## What stays -/

theorem Store.Loaded.of_grows (hg : s.Grows s') (h : s.Loaded taskId) : s'.Loaded taskId := by
  obtain ⟨r, hr, hrecurring⟩ := h
  exact ⟨r, hg.rows taskId r hr, hrecurring⟩

theorem Store.Whole.of_grows (hg : s.Grows s') (hloaded : s.Loaded taskId)
    (h : s.Whole taskId childId) : s'.Whole taskId childId := by
  obtain ⟨hassigned, e, he, htype, hentity⟩ := h
  refine ⟨fun userId hin => ?_, e, hg.outbox e he, htype, hentity⟩
  rw [hg.loaded taskId hloaded] at hin
  exact hg.assignees childId userId (hassigned userId hin)

theorem Store.HasChild.of_grows (hg : s.Grows s') (hloaded : s.Loaded taskId)
    (h : s.HasChild taskId next) : s'.HasChild taskId next := by
  obtain ⟨x, hx, hparent, hlive, hdate, hwhole⟩ := h
  have hrow := hg.rows x.id x (Table.find_key hx)
  exact ⟨x, (Table.find_eq_some.mp hrow).1, hparent, hlive, hdate, hwhole.of_grows hg hloaded⟩

theorem Store.Made.of_grows (hg : s.Grows s') (h : s.Made taskId next childId) :
    s'.Made taskId next childId := by
  obtain ⟨x, hx, hrest⟩ := h
  exact ⟨x, hg.rows childId x hx, hrest⟩

/-- What a job knows it still knows when there is more. -/
theorem Op.Knows.of_grows {k : Op} (hg : s.Grows s') (hk : k.Knows s) : k.Knows s' := by
  cases k with
  | edit c => exact hk
  | createTask a pc => exact hk
  | deleteWorkspace orgId workspaceId actorId pc => exact hk
  | recurring job pc =>
    cases pc with
    | load | ended | failed => trivial
    | count parent next | assignees parent next => exact Store.Loaded.of_grows hg hk
    | insert parent next users =>
      obtain ⟨hloaded, husers⟩ := hk
      exact ⟨hloaded.of_grows hg, by rw [hg.loaded _ hloaded]; exact husers⟩
    | add next newTaskId userId rest =>
      obtain ⟨hloaded, hmade, done, hdone, hassigned⟩ := hk
      refine ⟨hloaded.of_grows hg, hmade.of_grows hg, done, ?_, fun user hin => ?_⟩
      · rw [hg.loaded _ hloaded]
        exact hdone
      · exact hg.assignees newTaskId user (hassigned user hin)
    | outbox next newTaskId =>
      obtain ⟨hloaded, hmade, hassigned⟩ := hk
      refine ⟨hloaded.of_grows hg, hmade.of_grows hg, fun user hin => ?_⟩
      rw [hg.loaded _ hloaded] at hin
      exact hg.assignees newTaskId user (hassigned user hin)
    | returned next =>
      obtain ⟨hloaded, hchild⟩ := hk
      exact ⟨hloaded.of_grows hg, hchild.of_grows hg hloaded⟩

/-! ## One statement of a job -/

theorem recurring_of_nextOccurrence {parent : TaskRow} {now : ℕ}
    (h : parent.nextOccurrence cfg now = some next) : parent.isRecurring = true := by
  unfold TaskRow.nextOccurrence at h
  split at h
  · assumption
  · cases h

theorem childOn_iff {x : TaskRow} : x.childOn cfg taskId next = true ↔
    x.recurrenceParentId = some taskId
      ∧ (x.dueDate.any fun due => cfg.rowDate due = cfg.paramDate next) = true
      ∧ x.deletedAt = none := by
  unfold TaskRow.childOn
  exact decide_eq_true_iff

/-- Where some assignees are copied, the job knows which are left. -/
theorem knows_adding (done : List String) {rest : List String} (hloaded : s.Loaded job.parentTaskId)
    (hmade : s.Made job.parentTaskId next childId)
    (hdone : s.assignees job.parentTaskId = done ++ rest)
    (hassigned : ∀ user ∈ done, user ∈ s.assignees childId) :
    Op.Knows s (.recurring job (.adding next childId rest)) := by
  cases rest with
  | nil =>
    rw [List.append_nil] at hdone
    refine ⟨hloaded, hmade, fun user hin => hassigned user ?_⟩
    rw [← hdone]
    exact hin
  | cons userId rest => exact ⟨hloaded, hmade, done, hdone, hassigned⟩

theorem made_of_insert {parent : TaskRow} {tasks : Table TaskRow.id}
    (h : s.tasks.insert (job.row parent next uuid) = some tasks) :
    Store.Made { s with tasks := tasks } job.parentTaskId next uuid := by
  refine ⟨job.row parent next uuid, ?_, rfl, rfl, rfl, rfl⟩
  dsimp only
  rw [Table.find_insert h]
  exact if_pos rfl

theorem whole_of_outbox (hk : Op.Knows s (.recurring job (.outbox next childId))) :
    (s.writeOutboxEvent .taskCreated job.orgId childId none).Whole job.parentTaskId childId :=
  ⟨hk.2.2, _, List.mem_cons_self, rfl, rfl⟩

/-- A job that finds whole children only knows what it is to know. -/
theorem knows_spawn (h : spawnNext cfg s uuid job pc = some (s', pc'))
    (hk : Op.Knows s (.recurring job pc))
    (hfound : ∀ x ∈ Op.found cfg s (.recurring job pc),
      Op.onDate x (.recurring job pc) = true ∧ s.Whole job.parentTaskId x.id) :
    Op.Knows s' (.recurring job pc') := by
  cases pc with
  | load =>
    obtain ⟨rfl, rfl⟩ := Prod.mk.inj (Option.some.inj h)
    split
    · trivial
    · rename_i parent hparent
      split
      · trivial
      · rename_i next hnext
        exact ⟨parent, (Option.filter_eq_some_iff.mp hparent).1, recurring_of_nextOccurrence hnext⟩
  | count parent next =>
    obtain ⟨rfl, rfl⟩ := Prod.mk.inj (Option.some.inj h)
    split
    · rename_i hany
      obtain ⟨x, hx, hon⟩ := List.any_eq_true.mp hany
      obtain ⟨hdate, hwhole⟩ := hfound x (List.mem_filter.mpr ⟨hx, hon⟩)
      obtain ⟨hparent, -, hlive⟩ := childOn_iff.mp hon
      obtain ⟨due, hdue, hutc⟩ := (Option.any_eq_true _ _).mp hdate
      exact ⟨hk, x, hx, hparent, hlive, ⟨due, hdue, of_decide_eq_true hutc⟩, hwhole⟩
    · exact hk
  | assignees parent next =>
    obtain ⟨rfl, rfl⟩ := Prod.mk.inj (Option.some.inj h)
    exact ⟨hk, rfl⟩
  | insert parent next users =>
    obtain ⟨hloaded, husers⟩ := hk
    rw [spawnNext] at h
    split at h <;> obtain ⟨rfl, rfl⟩ := Prod.mk.inj (Option.some.inj h)
    · rename_i hins
      obtain ⟨tasks, -, htasks, rfl⟩ := insertTask_eq_some hins
      refine knows_adding [] (hloaded.of_grows (grows_insert htasks)) (made_of_insert htasks)
        husers.symm ?_
      exact fun user hin => absurd hin List.not_mem_nil
    · trivial
  | add next newTaskId userId rest =>
    have hg := grows_next h hk
    obtain ⟨hloaded, hmade, done, hdone, hassigned⟩ := hk
    obtain ⟨rfl, rfl⟩ := Prod.mk.inj (Option.some.inj h)
    refine knows_adding (done ++ [userId]) (hloaded.of_grows hg) (hmade.of_grows hg) ?_ ?_
    · rw [hg.loaded _ hloaded, hdone, List.append_assoc, List.singleton_append]
    · intro user hin
      rcases List.mem_append.mp hin with hbefore | hself
      · exact hg.assignees newTaskId user (hassigned user hbefore)
      · obtain rfl := List.mem_singleton.mp hself
        exact mem_addAssignee_self user
  | outbox next newTaskId =>
    have hwhole := whole_of_outbox hk
    obtain ⟨hloaded, ⟨x, hx, hparent, hlive, hdue, -⟩, -⟩ := hk
    obtain ⟨rfl, rfl⟩ := Prod.mk.inj (Option.some.inj h)
    obtain ⟨hmem, rfl⟩ := Table.find_eq_some.mp hx
    exact ⟨hloaded, x, hmem, hparent, hlive, ⟨next, hdue, rfl⟩, hwhole⟩
  | returned next | ended | failed => cases h

/-- A row that is new is in the making; one that was is still, or is whole. -/
theorem made_next (h : spawnNext cfg s uuid job pc = some (s', pc'))
    (hk : Op.Knows s (.recurring job pc)) {x : TaskRow} (hx : x ∈ s'.tasks.rows)
    (hparent : x.recurrenceParentId = some taskId)
    (hmakes : x ∉ s.tasks.rows ∨ Op.makes x.id (.recurring job pc) = true) :
    s'.Whole taskId x.id ∨ Op.makes x.id (.recurring job pc') = true := by
  cases pc with
  | insert parent due users =>
    have hnew : x ∉ s.tasks.rows := hmakes.resolve_right (by intro hfalse; cases hfalse)
    rw [spawnNext] at h
    split at h <;> obtain ⟨rfl, rfl⟩ := Prod.mk.inj (Option.some.inj h)
    · rename_i hins
      obtain ⟨tasks, -, htasks, rfl⟩ := insertTask_eq_some hins
      dsimp only at hx
      rw [(Table.insert_eq_some htasks).2] at hx
      rcases List.mem_cons.mp hx with rfl | hold
      · right
        cases users <;> exact decide_eq_true rfl
      · exact absurd hold hnew
    · exact absurd hx hnew
  | add due newTaskId userId rest =>
    obtain ⟨rfl, rfl⟩ := Prod.mk.inj (Option.some.inj h)
    rcases hmakes with hnew | hid
    · exact absurd hx hnew
    · right
      cases rest <;> exact hid
  | outbox due newTaskId =>
    have hwhole := whole_of_outbox hk
    obtain ⟨-, ⟨x', hx', hparent', -⟩, -⟩ := hk
    obtain ⟨rfl, rfl⟩ := Prod.mk.inj (Option.some.inj h)
    rcases hmakes with hnew | hid
    · exact absurd hx hnew
    · left
      obtain rfl : newTaskId = x.id := of_decide_eq_true hid
      obtain rfl := Option.some.inj ((Table.find_key hx).symm.trans hx')
      obtain rfl := Option.some.inj (hparent.symm.trans hparent')
      exact hwhole
  | load | count parent due | assignees parent due =>
    obtain ⟨rfl, rfl⟩ := Prod.mk.inj (Option.some.inj h)
    rcases hmakes with hnew | hfalse
    · exact absurd hx hnew
    · cases hfalse
  | returned due | ended | failed => cases h

/-- A statement of the job makes no task recurring. -/
theorem loaded_of_next (h : spawnNext cfg s uuid job pc = some (s', pc')) (hl : s'.Loaded taskId) :
    s.Loaded taskId := by
  cases pc with
  | insert parent next users =>
    rw [spawnNext] at h
    split at h <;> obtain ⟨rfl, rfl⟩ := Prod.mk.inj (Option.some.inj h)
    · rename_i hins
      obtain ⟨tasks, -, htasks, rfl⟩ := insertTask_eq_some hins
      obtain ⟨r, hr, hrecurring⟩ := hl
      dsimp only at hr
      rw [Table.find_insert htasks] at hr
      split at hr
      · obtain rfl := Option.some.inj hr
        cases hrecurring
      · exact ⟨r, hr, hrecurring⟩
    · exact hl
  | returned next | ended | failed => cases h
  | load | count parent next | assignees parent next | add next newTaskId userId rest
  | outbox next newTaskId =>
    obtain ⟨rfl, rfl⟩ := Prod.mk.inj (Option.some.inj h)
    exact hl

end Jobs

/-! ## Runs -/

section Runs

variable {ι : Type*}

/-- **What is found is finished**: where the COUNT of a job finds a child, the child has the UTC
date of the occurrence, and no job has inserted it and is not, or never came, to its event. -/
def Settled (cfg : Config) (p : Ops ι) : Move ι String Env → Prop
  | .run i _ => (p.calls i).Keeps fun c => ∀ x ∈ c.found cfg p.store,
      c.onDate x = true ∧ ∀ j, (p.calls j).at'.makes x.id = false
  | _ => True

instance [Fintype ι] (cfg : Config) (p : Ops ι) :
    ∀ m : Move ι String Env, Decidable (Settled cfg p m)
  | .run i _ => inferInstanceAs (Decidable ((p.calls i).Keeps fun c => ∀ x ∈ c.found cfg p.store,
      c.onDate x = true ∧ ∀ j, (p.calls j).at'.makes x.id = false))
  | .crash _ => inferInstanceAs (Decidable True)
  | .env _ => inferInstanceAs (Decidable True)

/-- Every live child of a recurring task is whole, or some job has not finished it. -/
def Accounted (p : Ops ι) : Prop :=
  ∀ taskId, p.store.Loaded taskId → ∀ x ∈ p.store.tasks.rows,
    x.recurrenceParentId = some taskId → x.deletedAt = none →
      p.store.Whole taskId x.id ∨ ∃ j, (p.calls j).at'.makes x.id = true

variable [DecidableEq ι] {cfg : Config} {p q : Ops ι}

/-- A statement of the job leaves every child accounted for. -/
theorem accounted_next {i : ι} {job : RecurringTaskJobData} {pc pc' : SpawnPc} {s' : Store}
    {uuid : String} (hi : p.calls i = .up (.recurring job pc))
    (h : spawnNext cfg p.store uuid job pc = some (s', pc'))
    (hk : Op.Knows p.store (.recurring job pc)) (hp : Accounted p) :
    Accounted ⟨s', Function.update p.calls i (.up (.recurring job pc'))⟩ := by
  have hg := grows_next h hk
  have hself : (Function.update p.calls i (.up (.recurring job pc')) i).at' = .recurring job pc' := by
    rw [Function.update_self]
    rfl
  intro taskId hloaded x hx hparent hlive
  have hloaded₀ := loaded_of_next h hloaded
  by_cases hold : x ∈ p.store.tasks.rows
  · rcases hp taskId hloaded₀ x hold hparent hlive with hwhole | ⟨j, hj⟩
    · exact Or.inl (hwhole.of_grows hg hloaded₀)
    · by_cases hji : j = i
      · subst hji
        rw [hi] at hj
        refine (made_next h hk hx hparent (Or.inr hj)).imp_right fun hmakes => ⟨j, ?_⟩
        dsimp only
        rw [hself]
        exact hmakes
      · refine Or.inr ⟨j, ?_⟩
        dsimp only
        rw [Function.update_of_ne hji]
        exact hj
  · refine (made_next h hk hx hparent (Or.inl hold)).imp_right fun hmakes => ⟨i, ?_⟩
    dsimp only
    rw [hself]
    exact hmakes

/-- Every child is accounted for, in every state of such a run. -/
theorem jobs_run (h₀ : Accounted p) (hstart : ∀ i, (p.calls i).Live fun c => c.fresh ∧ c.isJob)
    (h : Run (Pool.step (opMachine cfg)) (Settled cfg) p q) :
    (∀ i, (q.calls i).Keeps (Op.Knows q.store)) ∧ Accounted q := by
  refine Pool.invariant
    (I := fun p : Ops ι => (∀ i, (p.calls i).Keeps (Op.Knows p.store)) ∧ Accounted p)
    ⟨fun i => ?_, h₀⟩ ?_ ?_ ?_ h
  · obtain ⟨c, hc, hfresh, hjob⟩ := (hstart i).exists
    rw [hc]
    cases c with
    | recurring job pc =>
      cases pc with
      | load => trivial
      | _ => cases hfresh
    | _ => cases hjob
  · rintro p i uuid c s' c' ⟨hknows, haccounted⟩ hG hc hnext
    rw [Settled, hc] at hG
    have hself := (hknows i).of_up hc
    cases c with
    | recurring job pc =>
      obtain ⟨pc', hpc, rfl⟩ :=
        pc_of_next (o := spawnNext cfg p.store uuid job pc) (f := Op.recurring job) hnext
      have hg := grows_next hpc hself
      refine ⟨keeps_update_up (knows_spawn hpc hself fun x hx => ?_)
        fun j _ => (hknows j).imp fun k hk => hk.of_grows hg, accounted_next hc hpc hself haccounted⟩
      obtain ⟨hdate, hnobody⟩ := hG x hx
      refine ⟨hdate, ?_⟩
      cases pc with
      | count parent next =>
        obtain ⟨hmem, hon⟩ := List.mem_filter.mp hx
        obtain ⟨hparent, -, hlive⟩ := childOn_iff.mp hon
        refine (haccounted _ hself x hmem hparent hlive).resolve_right ?_
        rintro ⟨j, hj⟩
        rw [hnobody j] at hj
        cases hj
      | _ => cases hx
    | edit c => cases hself
    | createTask a pc => cases hself
    | deleteWorkspace orgId workspaceId actorId pc => cases hself
  · rintro p i c ⟨hknows, haccounted⟩ - hc
    refine ⟨keeps_update_down hknows, fun taskId hloaded x hx hparent hlive => ?_⟩
    refine (haccounted taskId hloaded x hx hparent hlive).imp_right ?_
    rintro ⟨j, hj⟩
    refine ⟨j, ?_⟩
    dsimp only
    rw [at'_update_down hc]
    exact hj
  · rintro p (_ | _ | _) ⟨hknows, haccounted⟩ -
    all_goals exact ⟨fun i => (hknows i).imp fun k hk => hk.of_grows ⟨fun _ _ h => h, fun _ _ h => h,
      fun _ _ => rfl, fun _ h => h⟩, haccounted⟩

/-- **A job that returns leaves the child**: whatever runs and crashes, live children of a task have
different UTC dates; and where jobs find finished children only, each job that returns after it has
computed an occurrence leaves a live child for it, with all the assignees and an event. -/
theorem recurring_child (hone : p.store.OneChild) (h₀ : Accounted p)
    (hstart : ∀ i, (p.calls i).Live fun c => c.fresh ∧ c.isJob) :
    (∀ q : Ops ι, Run (Pool.step (opMachine cfg)) anyStep p q →
      ∀ x ∈ q.store.tasks.rows, ∀ y ∈ q.store.tasks.rows, x.deletedAt = none → y.deletedAt = none →
        ∀ taskId due due', x.recurrenceParentId = some taskId → y.recurrenceParentId = some taskId →
          x.dueDate = some due → y.dueDate = some due' → utcDate due = utcDate due' → x.id = y.id)
    ∧ ∀ q : Ops ι, Run (Pool.step (opMachine cfg)) (Settled cfg) p q →
      ∀ i job next, q.calls i = .up (.recurring job (.returned next)) →
        q.store.HasChild job.parentTaskId next := by
  constructor
  · intro q hq x hx y hy hxlive hylive taskId due due' hxparent hyparent hxdue hydue hdate
    have hkey : ∀ {z : TaskRow} {d : ℕ}, z.deletedAt = none → z.recurrenceParentId = some taskId →
        z.dueDate = some d → z.dedupKey = some (taskId, utcDate d) := by
      intro z d hlive hparent hdue
      rw [TaskRow.dedupKey, if_pos hlive, hparent, hdue]
      rfl
    have hxkey := hkey hxlive hxparent hxdue
    have hykey := hkey hylive hyparent hydue
    refine one_child hone hq x hx y hy ?_ ?_
    · rw [hxkey]
      rfl
    · rw [hxkey, hykey, hdate]
  · intro q hq i job next hi
    have hknows := (jobs_run h₀ hstart hq).1 i
    rw [hi] at hknows
    exact hknows.2

end Runs

/-! ## A job and its retry -/

/-- Every rule has its next occurrence at 5. -/
def weeklyConfig : Config := { demoConfig with after := fun _ _ => some 5 }

/-- A recurring task with one assignee, a job for it, and its retry. -/
def jobAndRetry : Ops (Fin 2) where
  store :=
    { demoStore with
      tasks := ⟨[{ demoTask with isRecurring := true, recurrenceRule := some "FREQ=WEEKLY" }], by simp⟩
      assignees := fun id => if id = "t" then ["v"] else [] }
  calls := ![.up (.recurring ⟨"t", "o"⟩ .load), .up (.recurring ⟨"t", "o"⟩ .load)]

theorem jobAndRetry_start : jobAndRetry.store.OneChild ∧ Accounted jobAndRetry
    ∧ ∀ i, (jobAndRetry.calls i).Live fun c => c.fresh ∧ c.isJob := by
  have hparent : ∀ x ∈ jobAndRetry.store.tasks.rows, x.recurrenceParentId = none := by decide
  refine ⟨?_, fun taskId _ x hx hchild => ?_, by decide⟩
  · unfold Store.OneChild
    decide
  · rw [hparent x hx] at hchild
    cases hchild

/-- **A half-made child is taken for the child**: the job crashes after its INSERT, and the retry
returns. -/
theorem retry_skips_half_made_child :
    jobAndRetry.store.OneChild ∧ Accounted jobAndRetry
      ∧ (∀ i, (jobAndRetry.calls i).Live fun c => c.fresh ∧ c.isJob)
      ∧ ∃ q, Run (Pool.step (opMachine weeklyConfig)) anyStep jobAndRetry q
        ∧ q.calls 1 = .up (.recurring ⟨"t", "o"⟩ (.returned 5)) ∧ ¬ q.store.HasChild "t" 5 := by
  obtain ⟨hone, haccounted, hstart⟩ := jobAndRetry_start
  refine ⟨hone, haccounted, hstart, ?_⟩
  obtain ⟨q, hq, h⟩ := exists_run_of_exec (Pool.step (opMachine weeklyConfig)) anyStep jobAndRetry
    [.run 0 "", .run 0 "", .run 0 "", .run 0 "c", .crash 0, .run 1 "", .run 1 ""]
    (fun q => q.calls 1 = .up (.recurring ⟨"t", "o"⟩ (.returned 5)) ∧ q.store.outbox = [])
    (by decide)
  obtain ⟨hcall, houtbox⟩ := of_decide_eq_true h
  refine ⟨q, hq, hcall, ?_⟩
  rintro ⟨x, -, -, -, -, -, e, he, -⟩
  rw [houtbox] at he
  cases he

/-- The job runs to its end, and the retry finds the child. -/
theorem retry_finds_child :
    ∃ q, Run (Pool.step (opMachine weeklyConfig)) (Settled weeklyConfig) jobAndRetry q
      ∧ q.calls 1 = .up (.recurring ⟨"t", "o"⟩ (.returned 5)) ∧ q.store.HasChild "t" 5 := by
  obtain ⟨hone, haccounted, hstart⟩ := jobAndRetry_start
  obtain ⟨q, hq, h⟩ := exists_run_of_exec (Pool.step (opMachine weeklyConfig)) (Settled weeklyConfig)
    jobAndRetry [.run 0 "", .run 0 "", .run 0 "", .run 0 "c", .run 0 "", .run 0 "", .run 1 "",
      .run 1 ""]
    (fun q => q.calls 1 = .up (.recurring ⟨"t", "o"⟩ (.returned 5))) (by decide)
  have hcall := of_decide_eq_true h
  exact ⟨q, hq, hcall, (recurring_child hone haccounted hstart).2 q hq 1 ⟨"t", "o"⟩ 5 hcall⟩

end WorkPlatform.Task

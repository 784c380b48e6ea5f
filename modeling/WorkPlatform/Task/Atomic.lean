import WorkPlatform.Task.Forest

/-!
# Task/Atomic — a change of a task and its event

    createTask    … ▸ INSERT task    ▸ INSERT assignee … ▸ INSERT event ▸ …
    updateTask    … ▸ UPDATE task    ▸ DELETE assignee … ▸ INSERT assignee … ▸ INSERT event ▸ …
    deleteTask    … ▸ COMMIT tasks   ▸ INSERT event ▸ …
                      └─── from here on ───────┘ a call that stops leaves a change without its event

Every statement is committed by itself, but for the two UPDATEs of a deletion, so where a call stops
is what it leaves behind (`update_without_event`).  A call that stops `clean`ly, before its first
write or after its event, leaves nothing or everything, and no other does (`change_with_event`).
-/

namespace WorkPlatform.Task

open Machinery

/-! ## Nothing, or everything -/

/-- The call has changed nothing. -/
def Store.Untouched (s s' : Store) : Prop :=
  s'.tasks = s.tasks ∧ s'.outbox = s.outbox
    ∧ ∀ taskId userId, userId ∈ s'.assignees taskId ↔ userId ∈ s.assignees taskId

/-- The store once the UPDATE of an edit has gone through. -/
def UpdateArgs.written (s : Store) (a : UpdateArgs) : Store :=
  if a.data.isEmpty then s else s.patch a.taskId a.data

/-- The call has made its change, all of it, and its event. -/
def Op.Complete (s : Store) (uuid : String) (s' : Store) : Op → Prop
  | .createTask a _ => (∃ depth, s.tasks.insert (a.row depth uuid) = some s'.tasks)
      ∧ s'.outbox = ⟨.taskCreated, a.orgId, uuid, some a.userId⟩ :: s.outbox
      ∧ ∀ userId ∈ a.assignees, userId ∈ s'.assignees uuid
  | .edit (.updateTask a _) => s'.tasks = (a.written s).tasks
      ∧ s'.outbox = ⟨.taskUpdated, a.orgId, a.taskId, some a.userId⟩ :: s.outbox
      ∧ ∀ userId, userId ∈ s'.assignees a.taskId
        ↔ userId ∈ a.assigneeIds.getD (s.assignees a.taskId)
  | .edit (.deleteTask orgId taskId userId _) =>
      s'.tasks = (s.cascadeSoftDelete orgId taskId).tasks
        ∧ s'.outbox = ⟨.taskDeleted, orgId, taskId, some userId⟩ :: s.outbox
  | _ => False

/-- `createTask`, `updateTask` and `deleteTask`. -/
def Op.announced : Op → Bool
  | .createTask _ _ | .edit (.updateTask _ _) | .edit (.deleteTask _ _ _ _) => true
  | _ => false

/-! ## Where a call stops -/

namespace UpdateArgs

/-- The new assignees. -/
def users (a : UpdateArgs) : List String := a.assigneeIds.getD []

/-- The assignees an edit that runs to its event removes: those the replica has. -/
def replaced (s : Store) (a : UpdateArgs) : List String :=
  if a.assigneeIds.isSome then s.replicaAssignees a.taskId else []

/-- The assignees that are removed where the edit stops. -/
def removedAt (s : Store) (a : UpdateArgs) : UpdatePc → List String
  | .remove _ userId rest =>
    let users := s.replicaAssignees a.taskId
    users.take (users.length - (userId :: rest).length)
  | .add _ _ _ | .outbox _ => a.replaced s
  | _ => []

/-- The assignees that are added where the edit stops. -/
def addedAt (a : UpdateArgs) : UpdatePc → List String
  | .add _ userId rest => a.users.take (a.users.length - (userId :: rest).length)
  | .outbox _ => a.users
  | _ => []

end UpdateArgs

/-- Replacing the assignees so far leaves the set as it is. -/
def sameSet (old removed added : List String) : Bool :=
  (old.all fun userId => userId ∉ removed ∨ userId ∈ added) ∧ added.all fun userId => userId ∈ old

/-- An edit stops cleanly: between its UPDATE and its event only where there is no column to set and
the assignees are so far the same; after its event where no assignee is left the replica did not
have. -/
def UpdatePc.clean (s : Store) (a : UpdateArgs) (pc : UpdatePc) : Bool :=
  match pc with
  | .getAssignees _ | .remove _ _ _ | .add _ _ _ | .outbox _ =>
    a.data.isEmpty ∧ sameSet (s.assignees a.taskId) (a.removedAt s pc) (a.addedAt pc)
  | .activity _ | .enqueue _ | .returned _ =>
    a.assigneeIds.all fun users => (s.assignees a.taskId).all fun userId =>
      userId ∈ s.replicaAssignees a.taskId ∨ userId ∈ users
  | _ => true

/-- **A clean stop**: not between the first write and the event. -/
def Op.clean (s : Store) : Op → Bool
  | .createTask _ (.add _ _ _) | .createTask _ (.outbox _) | .edit (.deleteTask _ _ _ .outbox) =>
    false
  | .edit (.updateTask a pc) => pc.clean s a
  | _ => true

section Update

variable {s s' s'' : Store} {a : UpdateArgs} {pc pc' : UpdatePc} {u : TaskRow}
  {removed added : List String} {userId : String}

/-! ## `updateTask` -/

/-- The edit has gone through and is at its assignees: `removed` are out, `added` are in. -/
structure UpdateArgs.Partway (s : Store) (a : UpdateArgs) (removed added : List String)
    (s' : Store) : Prop where
  tasks : s'.tasks = (a.written s).tasks
  found : a.data.isEmpty = false → ∃ r, s.tasks.find a.taskId = some r
  replica : s'.replicaAssignees = s.replicaAssignees
  others : ∀ taskId, taskId ≠ a.taskId → s'.assignees taskId = s.assignees taskId
  set : ∀ userId, userId ∈ s'.assignees a.taskId ↔
    userId ∈ s.assignees a.taskId ∧ userId ∉ removed ∨ userId ∈ added

/-- One more assignee is removed. -/
theorem UpdateArgs.Partway.remove (h : a.Partway s removed [] s') (userId : String) :
    a.Partway s (removed ++ [userId]) [] (s'.removeAssignee a.taskId userId) where
  tasks := h.tasks
  found := h.found
  replica := h.replica
  others taskId hne := by
    unfold Store.removeAssignee
    dsimp only
    rw [Function.update_of_ne hne, h.others taskId hne]
  set other := by
    unfold Store.removeAssignee
    dsimp only
    rw [Function.update_self, List.mem_filter, h.set]
    simp only [List.mem_append, List.mem_singleton, List.not_mem_nil, or_false, decide_eq_true_eq]
    tauto

/-- One more assignee is added. -/
theorem UpdateArgs.Partway.add (h : a.Partway s removed added s') (userId : String) :
    a.Partway s removed (added ++ [userId]) (s'.addAssignee a.taskId userId) where
  tasks := h.tasks
  found := h.found
  replica := h.replica
  others taskId hne := by
    unfold Store.addAssignee
    dsimp only
    rw [Function.update_of_ne hne, h.others taskId hne]
  set other := by
    unfold Store.addAssignee
    dsimp only
    rw [Function.update_self, List.mem_append, List.mem_singleton]
    split
    · rename_i hin
      rw [h.set] at hin ⊢
      constructor
      · tauto
      · rintro (hold | hadded | rfl)
        · exact Or.inl hold
        · exact Or.inr hadded
        · exact hin
    · rw [List.mem_append, List.mem_singleton, h.set]
      tauto

/-- The store, where the edit stops. -/
def UpdateArgs.At (s : Store) (a : UpdateArgs) (s' : Store) : UpdatePc → Prop
  | .getAssignees _ => a.assigneeIds.isSome ∧ s'.outbox = s.outbox ∧ a.Partway s [] [] s'
  | .remove _ userId rest => a.assigneeIds.isSome ∧ s'.outbox = s.outbox
      ∧ ∃ done, s.replicaAssignees a.taskId = done ++ userId :: rest ∧ a.Partway s done [] s'
  | .add _ userId rest => a.assigneeIds.isSome ∧ s'.outbox = s.outbox
      ∧ ∃ done, a.users = done ++ userId :: rest ∧ a.Partway s (a.replaced s) done s'
  | .outbox _ => s'.outbox = s.outbox ∧ a.Partway s (a.replaced s) a.users s'
  | .activity _ | .enqueue _ | .returned _ =>
      s'.outbox = ⟨.taskUpdated, a.orgId, a.taskId, some a.userId⟩ :: s.outbox
        ∧ a.Partway s (a.replaced s) a.users s'
  | _ => s' = s

/-- Where the next assignee is to be added. -/
theorem at_adding {done rest : List String} (hsome : a.assigneeIds.isSome)
    (houtbox : s'.outbox = s.outbox) (hrest : a.users = done ++ rest)
    (h : a.Partway s (a.replaced s) done s') : a.At s s' (.adding u rest) := by
  cases rest with
  | nil =>
    rw [List.append_nil] at hrest
    refine ⟨houtbox, ?_⟩
    rw [hrest]
    exact h
  | cons userId rest => exact ⟨hsome, houtbox, done, hrest, h⟩

/-- Where the next assignee is to be removed. -/
theorem at_removing {done rest : List String} (hsome : a.assigneeIds.isSome)
    (houtbox : s'.outbox = s.outbox) (hrest : s.replicaAssignees a.taskId = done ++ rest)
    (h : a.Partway s done [] s') : a.At s s' (.removing a u rest) := by
  cases rest with
  | nil =>
    rw [List.append_nil] at hrest
    refine at_adding hsome houtbox (List.nil_append _).symm ?_
    rw [UpdateArgs.replaced, if_pos hsome, hrest]
    exact h
  | cons userId rest => exact ⟨hsome, houtbox, done, hrest, h⟩

/-- After the UPDATE no assignee is out and none is in. -/
theorem partway_written (hfound : a.data.isEmpty = false → ∃ r, s.tasks.find a.taskId = some r) :
    a.Partway s [] [] (a.written s) where
  tasks := rfl
  found := hfound
  replica := by
    unfold UpdateArgs.written
    split <;> rfl
  others taskId _ := by
    unfold UpdateArgs.written
    split <;> rfl
  set userId := by
    unfold UpdateArgs.written
    split <;> simp [Store.patch]

/-- What the store is after the UPDATE. -/
theorem at_updated (hs' : s' = a.written s)
    (hfound : a.data.isEmpty = false → ∃ r, s.tasks.find a.taskId = some r) :
    a.At s s' (.updated a u) := by
  subst hs'
  have hpartway := partway_written hfound
  have houtbox : (a.written s).outbox = s.outbox := by
    unfold UpdateArgs.written
    split <;> rfl
  unfold UpdatePc.updated
  split
  · rename_i hsome
    exact ⟨hsome, houtbox, hpartway⟩
  · rename_i hnone
    obtain hnone : a.assigneeIds = none := by simpa using hnone
    refine ⟨houtbox, ?_⟩
    rw [UpdateArgs.replaced, UpdateArgs.users, hnone]
    exact hpartway

theorem at_authorized {existing : TaskRow} {isAdmin : Bool} :
    a.At s s (.authorized a existing isAdmin) := by
  unfold UpdatePc.authorized
  split
  · rfl
  · split
    · rfl
    · split <;> rfl

/-- How the store stands after the UPDATE of `updateTask`. -/
theorem at_update (h : updateNext s a .update = some (s', pc')) : a.At s s' pc' := by
  rw [updateNext] at h
  split at h
  · rename_i hempty
    split at h <;> obtain ⟨rfl, rfl⟩ := Prod.mk.inj (Option.some.inj h)
    · rfl
    · refine at_updated (if_pos hempty).symm fun hfull => ?_
      rw [hempty] at hfull
      cases hfull
  · rename_i hfull
    split at h
    · obtain ⟨rfl, rfl⟩ := Prod.mk.inj (Option.some.inj h)
      rfl
    · rename_i r hr
      split at h <;> obtain ⟨rfl, rfl⟩ := Prod.mk.inj (Option.some.inj h)
      · rfl
      · exact at_updated (if_neg hfull).symm
          fun _ => ⟨r, (Option.filter_eq_some_iff.mp hr).1⟩

/-- How it stands after each statement of `updateTask`. -/
theorem at_updateNext (h : updateNext s' a pc = some (s'', pc')) (hat : a.At s s' pc) :
    a.At s s'' pc' := by
  cases pc with
  | find =>
    obtain rfl : s' = s := hat
    obtain ⟨rfl, rfl⟩ := Prod.mk.inj (Option.some.inj h)
    split
    · rfl
    · split <;> rfl
  | membership existing =>
    obtain rfl : s' = s := hat
    obtain ⟨rfl, rfl⟩ := Prod.mk.inj (Option.some.inj h)
    exact at_authorized
  | update =>
    obtain rfl : s' = s := hat
    exact at_update h
  | recheck =>
    obtain rfl : s' = s := hat
    obtain ⟨rfl, rfl⟩ := Prod.mk.inj (Option.some.inj h)
    split
    · rfl
    · split <;> rfl
  | getAssignees u =>
    obtain ⟨hsome, houtbox, hpartway⟩ := hat
    obtain ⟨rfl, rfl⟩ := Prod.mk.inj (Option.some.inj h)
    refine at_removing hsome houtbox ?_ hpartway
    rw [hpartway.replica, List.nil_append]
  | remove u userId rest =>
    obtain ⟨hsome, houtbox, done, hrest, hpartway⟩ := hat
    obtain ⟨rfl, rfl⟩ := Prod.mk.inj (Option.some.inj h)
    refine at_removing hsome houtbox ?_ (hpartway.remove userId)
    rw [hrest, List.append_assoc, List.singleton_append]
  | add u userId rest =>
    obtain ⟨hsome, houtbox, done, hrest, hpartway⟩ := hat
    obtain ⟨rfl, rfl⟩ := Prod.mk.inj (Option.some.inj h)
    refine at_adding hsome houtbox ?_ (hpartway.add userId)
    rw [hrest, List.append_assoc, List.singleton_append]
  | outbox u =>
    obtain ⟨houtbox, hpartway⟩ := hat
    obtain ⟨rfl, rfl⟩ := Prod.mk.inj (Option.some.inj h)
    refine ⟨?_, hpartway.tasks, hpartway.found, hpartway.replica, hpartway.others, hpartway.set⟩
    unfold Store.writeOutboxEvent
    dsimp only
    rw [houtbox]
  | activity u =>
    obtain ⟨rfl, rfl⟩ := Prod.mk.inj (Option.some.inj h)
    split <;> exact hat
  | enqueue u =>
    obtain ⟨rfl, rfl⟩ := Prod.mk.inj (Option.some.inj h)
    exact hat
  | returned u | threw e | failed => cases h

/-- Whether removals and additions leave the assignees as they were. -/
theorem sameSet_iff {old : List String} : sameSet old removed added = true ↔
    ∀ userId, userId ∈ old ∧ userId ∉ removed ∨ userId ∈ added ↔ userId ∈ old := by
  unfold sameSet
  rw [decide_eq_true_iff, List.all_eq_true, List.all_eq_true]
  simp only [decide_eq_true_eq]
  constructor
  · rintro ⟨hkept, hadded⟩ userId
    constructor
    · rintro (⟨hold, -⟩ | hnew)
      · exact hold
      · exact hadded userId hnew
    · intro hold
      rcases hkept userId hold with hnot | hnew
      · exact Or.inl ⟨hold, hnot⟩
      · exact Or.inr hnew
  · intro h
    refine ⟨fun userId hold => ?_, fun userId hnew => (h userId).mp (Or.inr hnew)⟩
    rcases (h userId).mpr hold with ⟨-, hnot⟩ | hnew
    · exact Or.inl hnot
    · exact Or.inr hnew

/-- An UPDATE that sets a column changes its row. -/
theorem patch_ne {r : TaskRow} (hr : s.tasks.find a.taskId = some r) :
    (s.patch a.taskId a.data).tasks ≠ s.tasks := by
  intro heq
  have hfind := find_patch hr a.data
  rw [heq, hr] at hfind
  have hversion : r.version = r.version + 1 := congrArg TaskRow.version (Option.some.inj hfind)
  omega

/-- Before the event: nothing is changed where there was no column to set and the assignees are so
far the same. -/
theorem untouched_iff (h : a.Partway s removed added s') (houtbox : s'.outbox = s.outbox) :
    s.Untouched s' ↔ a.data.isEmpty = true ∧ sameSet (s.assignees a.taskId) removed added = true := by
  rw [sameSet_iff]
  constructor
  · rintro ⟨htasks, -, hset⟩
    refine ⟨?_, fun userId => (h.set userId).symm.trans (hset a.taskId userId)⟩
    by_contra hfull
    obtain ⟨r, hr⟩ := h.found (eq_false_of_ne_true hfull)
    refine patch_ne hr ?_
    rw [← htasks, h.tasks, UpdateArgs.written, if_neg hfull]
  · rintro ⟨hempty, hset⟩
    refine ⟨?_, houtbox, fun taskId userId => ?_⟩
    · rw [h.tasks, UpdateArgs.written, if_pos hempty]
    · by_cases htask : taskId = a.taskId
      · subst htask
        exact (h.set userId).trans (hset userId)
      · rw [h.others taskId htask]

/-- After the event: everything is there where the replica had whom the edit was to remove. -/
theorem complete_iff (h : a.Partway s (a.replaced s) a.users s')
    (houtbox : s'.outbox = ⟨.taskUpdated, a.orgId, a.taskId, some a.userId⟩ :: s.outbox)
    (pc : UpdatePc) (uuid : String) :
    Op.Complete s uuid s' (.edit (.updateTask a pc)) ↔
      (a.assigneeIds.all fun users => (s.assignees a.taskId).all fun userId =>
        userId ∈ s.replicaAssignees a.taskId ∨ userId ∈ users) = true := by
  have hset := h.set
  rw [UpdateArgs.replaced, UpdateArgs.users] at hset
  cases hids : a.assigneeIds with
  | none =>
    rw [hids] at hset
    refine iff_of_true ⟨h.tasks, houtbox, fun userId => ?_⟩ rfl
    rw [hset, hids]
    simp
  | some users =>
    rw [hids] at hset
    rw [Option.all_some, List.all_eq_true]
    simp only [decide_eq_true_eq]
    constructor
    · rintro ⟨-, -, hcomplete⟩ userId hold
      rw [hids] at hcomplete
      by_contra hleft
      refine hleft (Or.inr ((hcomplete userId).mp ((hset userId).mpr (Or.inl ⟨hold, ?_⟩))))
      exact fun hreplica => hleft (Or.inl hreplica)
    · intro hcovered
      refine ⟨h.tasks, houtbox, fun userId => ?_⟩
      rw [hset, hids]
      constructor
      · rintro (⟨hold, hnot⟩ | hnew)
        · exact (hcovered userId hold).resolve_left hnot
        · exact hnew
      · exact Or.inr

theorem not_complete (houtbox : s'.outbox = s.outbox) (pc : UpdatePc) (uuid : String) :
    ¬ Op.Complete s uuid s' (.edit (.updateTask a pc)) := by
  rintro ⟨-, hevent, -⟩
  rw [houtbox] at hevent
  exact List.cons_ne_self _ _ hevent.symm

theorem take_of_append (done rest : List String) :
    (done ++ rest).take ((done ++ rest).length - rest.length) = done := by
  rw [List.length_append, Nat.add_sub_cancel, List.take_left]

/-- An edit leaves nothing or everything exactly where it stops cleanly. -/
theorem clean_update (h : a.At s s' pc) (pc₀ : UpdatePc) (uuid : String) :
    s.Untouched s' ∨ Op.Complete s uuid s' (.edit (.updateTask a pc₀)) ↔ pc.clean s a = true := by
  have huntouched : s.Untouched s := ⟨rfl, rfl, fun _ _ => Iff.rfl⟩
  cases pc with
  | getAssignees u =>
    obtain ⟨-, houtbox, hpartway⟩ := h
    rw [or_iff_left (not_complete houtbox pc₀ uuid), untouched_iff hpartway houtbox]
    exact (decide_eq_true_iff).symm
  | remove u userId rest =>
    obtain ⟨-, houtbox, done, hrest, hpartway⟩ := h
    rw [or_iff_left (not_complete houtbox pc₀ uuid), untouched_iff hpartway houtbox]
    have hdone : a.removedAt s (.remove u userId rest) = done := by
      unfold UpdateArgs.removedAt
      dsimp only
      rw [hrest, take_of_append]
    unfold UpdatePc.clean
    dsimp only
    rw [hdone, decide_eq_true_iff]
    rfl
  | add u userId rest =>
    obtain ⟨-, houtbox, done, hrest, hpartway⟩ := h
    rw [or_iff_left (not_complete houtbox pc₀ uuid), untouched_iff hpartway houtbox]
    have hdone : a.addedAt (.add u userId rest) = done := by
      unfold UpdateArgs.addedAt
      dsimp only
      rw [hrest, take_of_append]
    unfold UpdatePc.clean
    dsimp only
    rw [hdone, decide_eq_true_iff]
    rfl
  | outbox u =>
    obtain ⟨houtbox, hpartway⟩ := h
    rw [or_iff_left (not_complete houtbox pc₀ uuid), untouched_iff hpartway houtbox]
    exact (decide_eq_true_iff).symm
  | activity u | enqueue u | returned u =>
    obtain ⟨houtbox, hpartway⟩ := h
    have hchanged : ¬ s.Untouched s' := by
      rintro ⟨-, hsame, -⟩
      rw [houtbox] at hsame
      exact List.cons_ne_self _ _ hsame
    rw [or_iff_right hchanged]
    exact complete_iff hpartway houtbox pc₀ uuid
  | find | membership existing | update | recheck | threw e | failed =>
    obtain rfl : s' = s := h
    exact iff_of_true (Or.inl huntouched) rfl

end Update

/-! ## `createTask` -/

section Create

variable {s s' s'' : Store} {a : CreateArgs} {pc pc' : CreatePc} {uuid : String} {task : TaskRow}

/-- The task is inserted, and the users are assigned to it. -/
structure CreateArgs.Inserted (s : Store) (a : CreateArgs) (uuid : String) (task : TaskRow)
    (users : List String) (s' : Store) : Prop where
  row : ∃ depth, task = a.row depth uuid ∧ s.tasks.insert task = some s'.tasks
  assigned : ∀ userId ∈ users, userId ∈ s'.assignees uuid

/-- One more assignee is added. -/
theorem CreateArgs.Inserted.add {users : List String} (h : a.Inserted s uuid task users s')
    (userId : String) : a.Inserted s uuid task (users ++ [userId]) (s'.addAssignee task.id userId) := by
  obtain ⟨depth, rfl, hins⟩ := h.row
  refine ⟨⟨depth, rfl, hins⟩, fun other hother => ?_⟩
  unfold Store.addAssignee
  dsimp only
  rw [show (a.row depth uuid).id = uuid from rfl, Function.update_self]
  rcases List.mem_append.mp hother with hbefore | hself
  · split
    · exact h.assigned other hbefore
    · exact List.mem_append_left _ (h.assigned other hbefore)
  · obtain rfl := List.mem_singleton.mp hself
    split
    · assumption
    · exact List.mem_append_right _ hself

/-- The store, where `createTask` stops. -/
def CreateArgs.At (s : Store) (a : CreateArgs) (uuid : String) (s' : Store) : CreatePc → Prop
  | .add task userId rest => s'.outbox = s.outbox
      ∧ ∃ done, a.assignees = done ++ userId :: rest ∧ a.Inserted s uuid task done s'
  | .outbox task => s'.outbox = s.outbox ∧ a.Inserted s uuid task a.assignees s'
  | .activity task | .returned task =>
      s'.outbox = ⟨.taskCreated, a.orgId, uuid, some a.userId⟩ :: s.outbox
        ∧ a.Inserted s uuid task a.assignees s'
  | _ => s' = s

/-- Where the next assignee of a new task is to be added. -/
theorem at_createAdding {done rest : List String} (houtbox : s'.outbox = s.outbox)
    (hrest : a.assignees = done ++ rest) (h : a.Inserted s uuid task done s') :
    a.At s uuid s' (.adding task rest) := by
  cases rest with
  | nil =>
    rw [List.append_nil] at hrest
    refine ⟨houtbox, ?_⟩
    rw [hrest]
    exact h
  | cons userId rest => exact ⟨houtbox, done, hrest, h⟩

theorem at_checking (depth : ℕ) (rest : List String) : a.At s uuid s (.checking depth rest) := by
  cases rest <;> rfl

theorem at_entry : a.At s uuid s a.entry := by
  unfold CreateArgs.entry
  split
  · rfl
  · exact at_checking 0 a.assignees

/-- How the store stands after each statement of `createTask`. -/
theorem at_createNext (h : createNext s' uuid a pc = some (s'', pc')) (hat : a.At s uuid s' pc) :
    a.At s uuid s'' pc' := by
  cases pc with
  | parent parentTaskId =>
    obtain rfl : s' = s := hat
    obtain ⟨rfl, rfl⟩ := Prod.mk.inj (Option.some.inj h)
    split
    · rfl
    · split
      · rfl
      · split
        · rfl
        · exact at_checking _ a.assignees
  | member depth assigneeId rest =>
    obtain rfl : s' = s := hat
    obtain ⟨rfl, rfl⟩ := Prod.mk.inj (Option.some.inj h)
    split
    · exact at_checking depth rest
    · rfl
  | insert depth =>
    obtain rfl : s' = s := hat
    rw [createNext] at h
    split at h <;> obtain ⟨rfl, rfl⟩ := Prod.mk.inj (Option.some.inj h)
    · rename_i hins
      obtain ⟨tasks, -, htasks, rfl⟩ := insertTask_eq_some hins
      exact at_createAdding rfl (List.nil_append _).symm
        ⟨⟨depth, rfl, htasks⟩, fun _ hnone => absurd hnone List.not_mem_nil⟩
    · rfl
  | add task userId rest =>
    obtain ⟨houtbox, done, hrest, hinserted⟩ := hat
    obtain ⟨rfl, rfl⟩ := Prod.mk.inj (Option.some.inj h)
    refine at_createAdding houtbox ?_ (hinserted.add userId)
    rw [hrest, List.append_assoc, List.singleton_append]
  | outbox task =>
    obtain ⟨houtbox, hinserted⟩ := hat
    obtain ⟨depth, rfl, hins⟩ := hinserted.row
    obtain ⟨rfl, rfl⟩ := Prod.mk.inj (Option.some.inj h)
    refine ⟨?_, ⟨depth, rfl, hins⟩, hinserted.assigned⟩
    unfold Store.writeOutboxEvent
    dsimp only
    rw [houtbox]
    rfl
  | activity task =>
    obtain ⟨rfl, rfl⟩ := Prod.mk.inj (Option.some.inj h)
    exact hat
  | returned task | threw e | failed => cases h

/-- `createTask` leaves nothing or everything exactly where it stops cleanly. -/
theorem clean_create (h : a.At s uuid s' pc) (pc₀ : CreatePc) :
    s.Untouched s' ∨ Op.Complete s uuid s' (.createTask a pc₀)
      ↔ Op.clean s (.createTask a pc) = true := by
  have huntouched : s.Untouched s := ⟨rfl, rfl, fun _ _ => Iff.rfl⟩
  have hwindow : ∀ {task users}, s'.outbox = s.outbox → a.Inserted s uuid task users s' →
      ¬ (s.Untouched s' ∨ Op.Complete s uuid s' (.createTask a pc₀)) := by
    rintro task users houtbox ⟨⟨depth, -, hins⟩, -⟩ (⟨htasks, -, -⟩ | ⟨-, hevent, -⟩)
    · rw [htasks] at hins
      exact List.cons_ne_self _ _ (Table.insert_eq_some hins).2.symm
    · rw [houtbox] at hevent
      exact List.cons_ne_self _ _ hevent.symm
  cases pc with
  | add task userId rest =>
    obtain ⟨houtbox, done, -, hinserted⟩ := h
    exact iff_of_false (hwindow houtbox hinserted) Bool.false_ne_true
  | outbox task =>
    obtain ⟨houtbox, hinserted⟩ := h
    exact iff_of_false (hwindow houtbox hinserted) Bool.false_ne_true
  | activity task | returned task =>
    obtain ⟨houtbox, ⟨depth, rfl, hins⟩, hassigned⟩ := h
    exact iff_of_true (Or.inr ⟨⟨depth, hins⟩, houtbox, hassigned⟩) rfl
  | parent parentTaskId | member depth assigneeId rest | insert depth | threw e | failed =>
    obtain rfl : s' = s := h
    exact iff_of_true (Or.inl huntouched) rfl

end Create

/-! ## `deleteTask` -/

section Delete

variable {s s' s'' : Store} {orgId taskId userId : String} {pc pc' : DeletePc}

/-- The task is there to be deleted. -/
def Store.Deletable (s : Store) (orgId taskId : String) : Prop :=
  ∃ r, s.tasks.find taskId = some r ∧ r.orgId = orgId ∧ r.deletedAt = none

/-- The store, where `deleteTask` stops. -/
def DeletePc.At (s : Store) (orgId taskId userId : String) (s' : Store) : DeletePc → Prop
  | .find | .threw _ => s' = s
  | .membership _ | .cascade => s' = s ∧ s.Deletable orgId taskId
  | .root startedAt below => s' = s ∧ s.Deletable orgId taskId ∧ startedAt = s.now
      ∧ below = s.subtasks orgId s.tasks.rows.length [taskId]
  | .commit startedAt taskIds => s' = s ∧ s.Deletable orgId taskId ∧ startedAt = s.now
      ∧ taskIds = s.withRoot orgId taskId (s.subtasks orgId s.tasks.rows.length [taskId])
  | .outbox => s' = s.cascadeSoftDelete orgId taskId ∧ s.Deletable orgId taskId
  | .audit | .returned =>
      s' = (s.cascadeSoftDelete orgId taskId).writeOutboxEvent .taskDeleted orgId taskId (some userId)

/-- **With nobody in between** the two UPDATEs and the COMMIT are `cascadeSoftDelete`. -/
theorem commit_eq_cascadeSoftDelete (s : Store) (orgId taskId : String) :
    (s.softDelete s.now fun r =>
      r.id ∈ s.withRoot orgId taskId (s.subtasks orgId s.tasks.rows.length [taskId]))
      = s.cascadeSoftDelete orgId taskId := by
  refine Store.softDelete_congr fun r hr => ?_
  unfold Store.withRoot
  rw [decide_eq_decide]
  split
  case isTrue h =>
    obtain ⟨root, hroot, hlive⟩ := (Option.any_eq_true _ _).mp h
    rw [List.mem_cons, or_comm]
    refine or_congr_right ⟨fun hid => ?_, fun hboth => hboth.1⟩
    obtain rfl := Option.some.inj ((Table.find_key hr).symm.trans (hid ▸ hroot))
    exact ⟨hid, of_decide_eq_true hlive⟩
  case isFalse h =>
    refine (or_iff_left fun hboth => h ?_).symm
    obtain ⟨rfl, horg, hlive⟩ := hboth
    rw [Table.find_key hr, Option.any_some]
    exact decide_eq_true ⟨horg, hlive⟩

/-- How it stands after each statement of `deleteTask`. -/
theorem at_deleteNext (h : deleteNext s' orgId taskId userId pc = some (s'', pc'))
    (hat : pc.At s orgId taskId userId s') : pc'.At s orgId taskId userId s'' := by
  cases pc with
  | find =>
    obtain rfl : s' = s := hat
    obtain ⟨rfl, rfl⟩ := Prod.mk.inj (Option.some.inj h)
    split
    · rfl
    · rename_i existing hexisting
      split
      · rfl
      · rename_i horg
        obtain ⟨hfind, hlive⟩ := Option.filter_eq_some_iff.mp hexisting
        exact ⟨rfl, existing, hfind, not_not.mp horg, of_decide_eq_true hlive⟩
  | membership existing =>
    obtain ⟨rfl, hdeletable⟩ := hat
    obtain ⟨rfl, rfl⟩ := Prod.mk.inj (Option.some.inj h)
    split
    · rfl
    · exact ⟨rfl, hdeletable⟩
  | cascade =>
    obtain ⟨rfl, hdeletable⟩ := hat
    obtain ⟨rfl, rfl⟩ := Prod.mk.inj (Option.some.inj h)
    exact ⟨rfl, hdeletable, rfl, rfl⟩
  | root startedAt below =>
    obtain ⟨rfl, hdeletable, rfl, rfl⟩ := hat
    obtain ⟨rfl, rfl⟩ := Prod.mk.inj (Option.some.inj h)
    exact ⟨rfl, hdeletable, rfl, rfl⟩
  | commit startedAt taskIds =>
    obtain ⟨rfl, hdeletable, rfl, rfl⟩ := hat
    obtain ⟨rfl, rfl⟩ := Prod.mk.inj (Option.some.inj h)
    exact ⟨commit_eq_cascadeSoftDelete s' orgId taskId, hdeletable⟩
  | outbox =>
    obtain ⟨rfl, -⟩ := hat
    obtain ⟨rfl, rfl⟩ := Prod.mk.inj (Option.some.inj h)
    rfl
  | audit =>
    obtain ⟨rfl, rfl⟩ := Prod.mk.inj (Option.some.inj h)
    exact hat
  | returned | threw e => cases h

/-- `deleteTask` leaves nothing or everything exactly where it stops cleanly. -/
theorem clean_delete (h : pc.At s orgId taskId userId s') (pc₀ : DeletePc) (uuid : String) :
    s.Untouched s' ∨ Op.Complete s uuid s' (.edit (.deleteTask orgId taskId userId pc₀))
      ↔ Op.clean s (.edit (.deleteTask orgId taskId userId pc)) = true := by
  have huntouched : s.Untouched s := ⟨rfl, rfl, fun _ _ => Iff.rfl⟩
  cases pc with
  | outbox =>
    obtain ⟨rfl, r, hr, horg, hlive⟩ := h
    refine iff_of_false ?_ Bool.false_ne_true
    rintro (⟨htasks, -, -⟩ | ⟨-, hevent⟩)
    · have hdeleted := find_softDelete hr s.now fun r =>
        r.id ∈ s.subtasks orgId s.tasks.rows.length [taskId]
          ∨ r.id = taskId ∧ r.orgId = orgId ∧ r.deletedAt = none
      have hselected : r.id ∈ s.subtasks orgId s.tasks.rows.length [taskId]
          ∨ r.id = taskId ∧ r.orgId = orgId ∧ r.deletedAt = none :=
        Or.inr ⟨(Table.find_eq_some.mp hr).2, horg, hlive⟩
      unfold Store.cascadeSoftDelete at htasks
      dsimp only at htasks
      rw [htasks, hr, TaskRow.softDelete, if_pos (decide_eq_true hselected)] at hdeleted
      have hgone := congrArg TaskRow.deletedAt (Option.some.inj hdeleted)
      rw [hlive] at hgone
      cases hgone
    · exact List.cons_ne_self _ _ hevent.symm
  | audit | returned =>
    obtain rfl : s' = (s.cascadeSoftDelete orgId taskId).writeOutboxEvent .taskDeleted orgId taskId
      (some userId) := h
    exact iff_of_true (Or.inr ⟨rfl, rfl⟩) rfl
  | find | threw e =>
    obtain rfl : s' = s := h
    exact iff_of_true (Or.inl huntouched) rfl
  | membership existing | cascade | root startedAt below | commit startedAt taskIds =>
    obtain ⟨rfl, -⟩ := h
    exact iff_of_true (Or.inl huntouched) rfl

end Delete

/-! ## A call that stops -/

section Stops

variable (cfg : Config) (s : Store) (uuid : String)

/-- Wherever an update stops, the store is as stated for that point. -/
theorem stop_update (a : UpdateArgs) (n : ℕ) :
    ∃ s' pc, (opMachine cfg).proceed uuid n (s, .edit (.updateTask a .find))
      = (s', .edit (.updateTask a pc)) ∧ a.At s s' pc := by
  refine Machine.proceed_invariant (I := fun x : Store × Op =>
    ∃ s' pc, x = (s', .edit (.updateTask a pc)) ∧ a.At s s' pc) ?_ n ⟨s, .find, rfl, rfl⟩
  rintro s₁ c₁ s₂ c₂ ⟨s', pc, heq, hat⟩ hnext
  obtain ⟨rfl, rfl⟩ := Prod.mk.inj heq
  obtain ⟨c', hc', rfl⟩ := pc_of_next (o := next s₁ (.updateTask a pc)) (f := Op.edit) hnext
  obtain ⟨pc', hpc, rfl⟩ := pc_of_next hc'
  exact ⟨s₂, pc', rfl, at_updateNext hpc hat⟩

/-- Wherever a deletion stops, the store is as stated for that point. -/
theorem stop_delete (orgId taskId userId : String) (n : ℕ) :
    ∃ s' pc, (opMachine cfg).proceed uuid n (s, .edit (.deleteTask orgId taskId userId .find))
      = (s', .edit (.deleteTask orgId taskId userId pc)) ∧ pc.At s orgId taskId userId s' := by
  refine Machine.proceed_invariant (I := fun x : Store × Op =>
    ∃ s' pc, x = (s', .edit (.deleteTask orgId taskId userId pc))
      ∧ DeletePc.At s orgId taskId userId s' pc) ?_ n ⟨s, .find, rfl, rfl⟩
  rintro s₁ c₁ s₂ c₂ ⟨s', pc, heq, hat⟩ hnext
  obtain ⟨rfl, rfl⟩ := Prod.mk.inj heq
  obtain ⟨c', hc', rfl⟩ :=
    pc_of_next (o := next s₁ (.deleteTask orgId taskId userId pc)) (f := Op.edit) hnext
  obtain ⟨pc', hpc, rfl⟩ := pc_of_next hc'
  exact ⟨s₂, pc', rfl, at_deleteNext hpc hat⟩

/-- Wherever a creation stops, the store is as stated for that point. -/
theorem stop_create (a : CreateArgs) (n : ℕ) :
    ∃ s' pc, (opMachine cfg).proceed uuid n (s, .createTask a a.entry)
      = (s', .createTask a pc) ∧ a.At s uuid s' pc := by
  refine Machine.proceed_invariant (I := fun x : Store × Op =>
    ∃ s' pc, x = (s', .createTask a pc) ∧ a.At s uuid s' pc) ?_ n ⟨s, a.entry, rfl, at_entry⟩
  rintro s₁ c₁ s₂ c₂ ⟨s', pc, heq, hat⟩ hnext
  obtain ⟨rfl, rfl⟩ := Prod.mk.inj heq
  obtain ⟨pc', hpc, rfl⟩ :=
    pc_of_next (o := createNext s₁ uuid a pc) (f := Op.createTask a) hnext
  exact ⟨s₂, pc', rfl, at_createNext hpc hat⟩

/-- **A change comes with its event**, wherever the call stops, exactly where that is a clean stop:
after any number of statements nothing is changed, or everything is and the event is there; and the
assignees of the task are the old ones or the new ones, all of them. -/
theorem change_with_event {c : Op} (hfresh : c.fresh = true) (hc : c.announced = true) (n : ℕ) :
    s.Untouched ((opMachine cfg).proceed uuid n (s, c)).1
        ∨ c.Complete s uuid ((opMachine cfg).proceed uuid n (s, c)).1
      ↔ ((opMachine cfg).proceed uuid n (s, c)).2.clean s = true := by
  cases c with
  | recurring job pc => cases hc
  | deleteWorkspace orgId workspaceId actorId pc => cases hc
  | createTask a pc =>
    obtain rfl : pc = a.entry := of_decide_eq_true hfresh
    obtain ⟨s', pc', heq, hat⟩ := stop_create cfg s uuid a n
    rw [heq]
    exact clean_create hat a.entry
  | edit c =>
    cases c with
    | updateTask a pc =>
      cases pc with
      | find =>
        obtain ⟨s', pc', heq, hat⟩ := stop_update cfg s uuid a n
        rw [heq]
        exact clean_update hat .find uuid
      | _ => cases hfresh
    | deleteTask orgId taskId userId pc =>
      cases pc with
      | find =>
        obtain ⟨s', pc', heq, hat⟩ := stop_delete cfg s uuid orgId taskId userId n
        rw [heq]
        exact clean_delete hat .find uuid
      | _ => cases hfresh
    | _ => cases hc

end Stops

/-! ## An edit of the title -/

/-- The creator's edit of the title. -/
def demoRetitle : Op := .edit (.updateTask (demoEdit (some "final") none) .find)

/-- **An update without its event**: the edit stops after its UPDATE. -/
theorem update_without_event :
    demoRetitle.fresh = true ∧ demoRetitle.announced = true
      ∧ ∃ n, ¬ (demoStore.Untouched ((opMachine demoConfig).proceed "" n (demoStore, demoRetitle)).1
        ∨ demoRetitle.Complete demoStore ""
          ((opMachine demoConfig).proceed "" n (demoStore, demoRetitle)).1) := by
  have htitle : (((opMachine demoConfig).proceed "" 3 (demoStore, demoRetitle)).1.tasks.find "t").map
      TaskRow.title ≠ (demoStore.tasks.find "t").map TaskRow.title := by decide
  refine ⟨rfl, rfl, 3, ?_⟩
  rintro (⟨htasks, -, -⟩ | ⟨-, hevent, -⟩)
  · rw [htasks] at htitle
    exact htitle rfl
  · cases hevent

/-- The edit stops after its event. -/
theorem update_with_event :
    ((opMachine demoConfig).proceed "" 4 (demoStore, demoRetitle)).1.outbox
        = [⟨.taskUpdated, "o", "t", some "u"⟩]
      ∧ (demoStore.Untouched ((opMachine demoConfig).proceed "" 4 (demoStore, demoRetitle)).1
        ∨ demoRetitle.Complete demoStore ""
          ((opMachine demoConfig).proceed "" 4 (demoStore, demoRetitle)).1) :=
  ⟨by decide, (change_with_event demoConfig demoStore "" (by decide) (by decide) 4).mpr (by decide)⟩

end WorkPlatform.Task

import WorkPlatform.Task.Version

/-!
# Task/Transition — which way a status may move

    todo         →  in_progress, cancelled
    in_progress  →  in_review, done, cancelled, todo
    in_review    →  in_progress, done, cancelled
    done         →  todo
    cancelled    →  todo

`updateTask` looks the change up in this table, for the row it has read; its UPDATE then goes by the
version the client sent, which need not be the version of that row.  `bulkUpdateStatus` looks
nothing up (`done_task_cancelled`).

A run is `Looked` up where no edit of a status carries a version newer than the row it has read, and
every bulk operation changes statuses along the table and under no edit that has read the old one.
Then every change of a status is an arrow of the table (`status_change_allowed`).
-/

namespace WorkPlatform.Task

open Machinery

/-- The bulk operation changes the status of the row. -/
def TaskRow.restated (orgId : String) (taskIds : List String) (status : TaskStatus) (r : TaskRow) :
    Bool :=
  r.orgId = orgId ∧ r.id ∈ taskIds ∧ r.deletedAt = none ∧ r.status ≠ status

/-- The tasks whose status the next statement of a bulk operation changes. -/
def Call.restates (s : Store) : Call → List String
  | .bulkUpdateStatus orgId _ taskIds status .update =>
    (s.tasks.rows.filter (·.restated orgId taskIds status)).map (·.id)
  | _ => []

/-- The edit has read the task and is to set its status. -/
def Call.moving (taskId : String) : Call → Bool
  | .updateTask a (.membership _) | .updateTask a .update =>
    a.taskId = taskId ∧ a.data.status.isSome
  | _ => false

/-- An edit of a status is not ahead of the row it has read, and a bulk operation goes along the
table. -/
def Call.looked (s : Store) : Call → Bool
  | .updateTask a (.membership existing) => a.data.status.isSome → a.version ≤ existing.version
  | .bulkUpdateStatus orgId _ taskIds status .update =>
    (s.tasks.rows.filter (·.restated orgId taskIds status)).all fun r => status ∈ r.status.allowed
  | _ => true

section Steps

variable {s s' : Store} {c c' : Call} {taskId : String} {v : ℕ} {P : TaskStatus → Prop}

/-! ## One statement -/

/-- The task has been edited since version `v`, or still has that version, and a status as `P`
says. -/
def Store.Since (s : Store) (taskId : String) (v : ℕ) (P : TaskStatus → Prop) : Prop :=
  ∃ r, s.tasks.find taskId = some r ∧ (v < r.version ∨ v = r.version ∧ P r.status)

/-- A row that is not restated keeps its status. -/
theorem bulkStatus_status {r : TaskRow} {orgId : String} {taskIds : List String}
    {status : TaskStatus} {now : ℕ} (h : r.restated orgId taskIds status = false) :
    (r.bulkStatus orgId taskIds status now).status = r.status := by
  unfold TaskRow.bulkStatus
  split
  · rename_i hselected
    by_contra hne
    refine absurd (of_decide_eq_false h) (not_not_intro ?_)
    exact ⟨hselected.1, hselected.2.1, hselected.2.2, Ne.symm hne⟩
  · rfl

theorem restated_of_notMem {r : TaskRow} {orgId userId : String} {taskIds : List String}
    {status : TaskStatus} (hr : s.tasks.find taskId = some r)
    (h : taskId ∉ (Call.bulkUpdateStatus orgId userId taskIds status .update).restates s) :
    r.restated orgId taskIds status = false := by
  obtain ⟨hmem, rfl⟩ := Table.find_eq_some.mp hr
  refine eq_false_of_ne_true fun hrestated => h ?_
  exact List.mem_map_of_mem (List.mem_filter.mpr ⟨hmem, hrestated⟩)

theorem find_bulkUpdateStatus {r : TaskRow} (hr : s.tasks.find taskId = some r) (orgId : String)
    (taskIds : List String) (status : TaskStatus) :
    (s.bulkUpdateStatus orgId taskIds status).tasks.find taskId
      = some (r.bulkStatus orgId taskIds status s.now) := by
  unfold Store.bulkUpdateStatus
  dsimp only
  rw [Table.find_map, hr, Option.map_some]

theorem bulkStatus_version (r : TaskRow) (orgId : String) (taskIds : List String)
    (status : TaskStatus) (now : ℕ) : (r.bulkStatus orgId taskIds status now).version = r.version := by
  unfold TaskRow.bulkStatus
  split <;> rfl

theorem softDelete_version (r : TaskRow) (select : TaskRow → Bool) (now : ℕ) :
    (r.softDelete select now).version = r.version ∧ (r.softDelete select now).status = r.status := by
  unfold TaskRow.softDelete
  split <;> exact ⟨rfl, rfl⟩

/-- No statement but a bulk operation changes a status under its version. -/
theorem since_next (h : next s c = some (s', c')) (hquiet : taskId ∉ c.restates s)
    (hs : s.Since taskId v P) : s'.Since taskId v P := by
  obtain ⟨r, hr, hsince⟩ := hs
  have hedited : Edited s c s' c' taskId := edited_next h
  cases hedited with
  | same hrow _ _ => exact ⟨r, hrow.trans hr, hsince⟩
  | @patched a _ _ _ _ _ hs' =>
    rw [hs']
    refine ⟨_, find_patch hr a.data, Or.inl ?_⟩
    rcases hsince with hlt | ⟨heq, -⟩
    · exact Nat.lt_succ_of_lt hlt
    · exact Nat.lt_succ_of_le heq.le
  | @status orgId userId taskIds status hc hs' _ =>
    subst hc
    rw [hs']
    refine ⟨_, find_bulkUpdateStatus hr orgId taskIds status, ?_⟩
    rw [bulkStatus_version, bulkStatus_status (restated_of_notMem hr hquiet)]
    exact hsince
  | @deleted time select hs' _ =>
    rw [hs']
    refine ⟨_, find_softDelete hr time select, ?_⟩
    rw [(softDelete_version r select time).1, (softDelete_version r select time).2]
    exact hsince
  | assigned _ htasks => exact ⟨r, by rw [htasks, hr], hsince⟩

/-- The edit has still to make its UPDATE. -/
def UpdatePc.checking : UpdatePc → Bool
  | .find | .membership _ | .update => true
  | _ => false

theorem checking_updated (a : UpdateArgs) (u : TaskRow) :
    (UpdatePc.updated a u).checking = false := by
  unfold UpdatePc.updated
  split <;> rfl

theorem checking_adding (u : TaskRow) (users : List String) :
    (UpdatePc.adding u users).checking = false := by
  cases users <;> rfl

theorem checking_removing (a : UpdateArgs) (u : TaskRow) (users : List String) :
    (UpdatePc.removing a u users).checking = false := by
  cases users with
  | nil => exact checking_adding u _
  | cons userId rest => rfl

/-- An edit that has still to make its UPDATE has only read. -/
theorem checking_next {a : UpdateArgs} {pc pc' : UpdatePc}
    (h : updateNext s a pc = some (s', pc')) (hpc' : pc'.checking = true) :
    pc = .find ∧ s' = s ∨ ∃ existing, pc = .membership existing ∧ s' = s := by
  have hnot : ∀ {pc : UpdatePc}, pc.checking = false → pc ≠ pc' := by
    rintro _ hpc rfl
    rw [hpc] at hpc'
    cases hpc'
  cases pc with
  | find => exact Or.inl ⟨rfl, (Prod.mk.inj (Option.some.inj h)).1.symm⟩
  | membership existing =>
    exact Or.inr ⟨existing, rfl, (Prod.mk.inj (Option.some.inj h)).1.symm⟩
  | update =>
    rw [updateNext] at h
    split at h
    · split at h
      · exact absurd (Prod.mk.inj (Option.some.inj h)).2 (hnot rfl)
      · exact absurd (Prod.mk.inj (Option.some.inj h)).2 (hnot (checking_updated a _))
    · split at h
      · exact absurd (Prod.mk.inj (Option.some.inj h)).2 (hnot rfl)
      · split at h
        · exact absurd (Prod.mk.inj (Option.some.inj h)).2 (hnot rfl)
        · exact absurd (Prod.mk.inj (Option.some.inj h)).2 (hnot (checking_updated a _))
  | recheck =>
    refine absurd (Prod.mk.inj (Option.some.inj h)).2 (hnot ?_)
    split
    · rfl
    · split <;> rfl
  | getAssignees u | remove u userId rest =>
    exact absurd (Prod.mk.inj (Option.some.inj h)).2 (hnot (checking_removing a u _))
  | add u userId rest =>
    exact absurd (Prod.mk.inj (Option.some.inj h)).2 (hnot (checking_adding u rest))
  | activity u =>
    refine absurd (Prod.mk.inj (Option.some.inj h)).2 (hnot ?_)
    split <;> rfl
  | outbox u | enqueue u => exact absurd (Prod.mk.inj (Option.some.inj h)).2 (hnot rfl)
  | returned u | threw e | failed => cases h

/-- What an edit of a status knows of the row it has read. -/
def Call.Knows (s : Store) : Call → Prop
  | .updateTask a (.membership existing) => a.data.status.isSome = true →
      s.Since a.taskId existing.version (· = existing.status)
  | .updateTask a .update => ∀ status, a.data.status = some status →
      s.Since a.taskId a.version fun old => status = old ∨ status ∈ old.allowed
  | _ => True

/-- What an edit knows stays true, unless a bulk operation changes the status of its task. -/
theorem Call.Knows.of_next {k : Call} (h : next s c = some (s', c'))
    (hquiet : ∀ t ∈ c.restates s, k.moving t = false) (hk : k.Knows s) : k.Knows s' := by
  have hnotMem : ∀ {t}, k.moving t = true → t ∉ c.restates s := by
    intro t hmoving hmem
    rw [hquiet t hmem] at hmoving
    cases hmoving
  unfold Call.Knows at hk ⊢
  split at hk
  · exact fun hsome => since_next h (hnotMem (decide_eq_true ⟨rfl, hsome⟩)) (hk hsome)
  · intro status hstatus
    refine since_next h (hnotMem (decide_eq_true ⟨rfl, ?_⟩)) (hk status hstatus)
    rw [hstatus]
    rfl
  · trivial

/-- The call goes on with the transition it has checked. -/
theorem knows_authorized {a : UpdateArgs} {existing : TaskRow} {isAdmin : Bool}
    (hlooked : (Call.updateTask a (.membership existing)).looked s = true)
    (hk : (Call.updateTask a (.membership existing)).Knows s) :
    (Call.updateTask a (.authorized a existing isAdmin)).Knows s := by
  unfold UpdatePc.authorized
  split
  · trivial
  split
  · rename_i hnone
    intro status hstatus
    rw [hnone] at hstatus
    cases hstatus
  · rename_i status hstatus
    split
    · rename_i hallowed
      intro status' hstatus'
      obtain rfl := Option.some.inj (hstatus.symm.trans hstatus')
      have hsome : a.data.status.isSome = true := by rw [hstatus]; rfl
      have hle := of_decide_eq_true hlooked hsome
      obtain ⟨r, hr, hlt | ⟨heq, hsame⟩⟩ := hk hsome
      · exact ⟨r, hr, Or.inl (Nat.lt_of_le_of_lt hle hlt)⟩
      · refine ⟨r, hr, ?_⟩
        rw [heq] at hle
        exact (Nat.lt_or_eq_of_le hle).imp id fun hversion => ⟨hversion, hsame ▸ hallowed⟩
    · trivial

/-- **One statement, seen from what its call knows.** -/
theorem knows_next (h : next s c = some (s', c')) (hlooked : c.looked s = true) (hk : c.Knows s) :
    c'.Knows s' := by
  cases c with
  | updateTask a pc =>
    obtain ⟨pc', hpc, rfl⟩ := pc_of_next h
    by_cases hchecking : pc'.checking = true
    · rcases checking_next hpc hchecking with ⟨rfl, rfl⟩ | ⟨existing, rfl, rfl⟩
      · obtain ⟨-, rfl⟩ := Prod.mk.inj (Option.some.inj hpc)
        split
        · trivial
        · rename_i existing hexisting
          split
          · trivial
          · exact fun _ =>
              ⟨existing, (Option.filter_eq_some_iff.mp hexisting).1, Or.inr ⟨rfl, rfl⟩⟩
      · obtain ⟨-, rfl⟩ := Prod.mk.inj (Option.some.inj hpc)
        exact knows_authorized hlooked hk
    · cases pc' with
      | membership existing | update => exact absurd rfl hchecking
      | _ => trivial
  | _ =>
    obtain ⟨pc', -, rfl⟩ := pc_of_next h
    trivial

theorem knows_of_fresh (h : c.fresh = true) : c.Knows s := by
  unfold Call.fresh at h
  split at h <;> trivial

/-- **The status of a live task moves along the table.** -/
theorem allowed_next {r r' : TaskRow} (h : next s c = some (s', c')) (hlooked : c.looked s = true)
    (hk : c.Knows s) (hr : s.tasks.find taskId = some r) (hr' : s'.tasks.find taskId = some r') :
    r'.status = r.status ∨ r'.status ∈ r.status.allowed := by
  have hedited : Edited s c s' c' taskId := edited_next h
  cases hedited with
  | same hrow _ _ =>
    obtain rfl := Option.some.inj (hr'.symm.trans (hrow.trans hr))
    exact Or.inl rfl
  | @patched a _ hc ht hr₁ hcurrent hs' =>
    subst hc ht
    obtain rfl := Option.some.inj (hr₁.symm.trans hr)
    rw [hs', find_patch hr] at hr'
    obtain rfl := Option.some.inj hr'
    cases hstatus : a.data.status with
    | none =>
      left
      unfold TaskRow.patch
      rw [hstatus]
      rfl
    | some status =>
      obtain ⟨-, hversion, -⟩ := of_decide_eq_true hcurrent
      obtain ⟨r₂, hr₂, hlt | ⟨-, hallowed⟩⟩ := hk status hstatus
      · obtain rfl := Option.some.inj (hr₂.symm.trans hr)
        omega
      · obtain rfl := Option.some.inj (hr₂.symm.trans hr)
        unfold TaskRow.patch
        rw [hstatus]
        exact hallowed
  | @status orgId userId taskIds status hc hs' _ =>
    subst hc
    rw [hs', find_bulkUpdateStatus hr] at hr'
    obtain rfl := Option.some.inj hr'
    by_cases hrestated : r.restated orgId taskIds status = true
    · have hmem := (Table.find_eq_some.mp hr).1
      have hall := List.all_eq_true.mp hlooked r (List.mem_filter.mpr ⟨hmem, hrestated⟩)
      obtain ⟨horg, hid, hdeleted, -⟩ := of_decide_eq_true hrestated
      rw [TaskRow.bulkStatus, if_pos ⟨horg, hid, hdeleted⟩]
      exact Or.inr (of_decide_eq_true hall)
    · exact Or.inl (bulkStatus_status (eq_false_of_ne_true hrestated))
  | @deleted time select hs' _ =>
    rw [hs', find_softDelete hr] at hr'
    obtain rfl := Option.some.inj hr'
    exact Or.inl (softDelete_version r select time).2
  | assigned _ htasks =>
    rw [htasks, hr] at hr'
    obtain rfl := Option.some.inj hr'
    exact Or.inl rfl

end Steps

/-! ## Runs -/

section Runs

variable {ι : Type*}

/-- **Every change is looked up**: an edit of a status is not ahead of the row it has read; a bulk
operation goes along the table, and changes no status an edit has read and is to change. -/
def Looked (p : Calls ι) : Move ι Unit Env → Prop
  | .run i _ => (p.calls i).Keeps fun c => c.looked p.store = true
      ∧ ∀ t ∈ c.restates p.store, ∀ j, ¬ (p.calls j).Live fun k => k.moving t
  | _ => True

instance [Fintype ι] (p : Calls ι) : ∀ m : Move ι Unit Env, Decidable (Looked p m)
  | .run i _ => inferInstanceAs (Decidable ((p.calls i).Keeps fun c => c.looked p.store = true
      ∧ ∀ t ∈ c.restates p.store, ∀ j, ¬ (p.calls j).Live fun k => k.moving t))
  | .crash _ => inferInstanceAs (Decidable True)
  | .env _ => inferInstanceAs (Decidable True)

variable [DecidableEq ι] {p q q' : Calls ι} {m : Move ι Unit Env} {taskId : String}

/-- Each call knows the status it goes by, in every state of such a run. -/
theorem knows_run (hstart : ∀ i, (p.calls i).Live fun c => c.fresh)
    (h : Run (Pool.step taskMachine) Looked p q) :
    ∀ i, (q.calls i).Keeps (Call.Knows q.store) := by
  refine Pool.invariant (I := fun p : Calls ι => ∀ i, (p.calls i).Keeps (Call.Knows p.store))
    (fun i => ?_) ?_ ?_ ?_ h
  · obtain ⟨c, hc, hfresh⟩ := (hstart i).exists
    rw [hc]
    exact knows_of_fresh hfresh
  · rintro p i ⟨⟩ c s' c' hI hG hc hnext
    rw [Looked, hc] at hG
    obtain ⟨hlooked, hquiet⟩ := hG
    have hself := (hI i).of_up hc
    refine keeps_update_up (knows_next hnext hlooked hself) fun j _ => ?_
    have hj := hI j
    cases hk : p.calls j with
    | down k => trivial
    | up k =>
      rw [hk] at hj
      refine Call.Knows.of_next hnext (fun t ht => eq_false_of_ne_true fun hmoving => ?_) hj
      refine hquiet t ht j ?_
      rw [hk]
      exact hmoving
  · intro p i c hI _ _
    exact keeps_update_down hI
  · rintro p (_ | _ | _) hI - i
    all_goals exact (hI i).imp fun k hk => hk

/-- **Every change of a status is an arrow of the table**, in every run in which the changes are
looked up. -/
theorem status_change_allowed {r r' : TaskRow} (hstart : ∀ i, (p.calls i).Live fun c => c.fresh)
    (hrun : Run (Pool.step taskMachine) Looked p q) (hm : Looked q m)
    (hstep : q.step taskMachine m = some q') (hr : q.store.tasks.find taskId = some r)
    (hr' : q'.store.tasks.find taskId = some r') :
    r'.status = r.status ∨ r'.status ∈ r.status.allowed := by
  cases m with
  | run i d =>
    obtain ⟨c, s', c', hc, hnext, rfl⟩ := Pool.step_run hstep
    have hknows := knows_run hstart hrun i
    rw [hc] at hknows
    rw [Looked, hc] at hm
    exact allowed_next hnext hm.1 hknows hr hr'
  | crash i =>
    obtain ⟨c, -, rfl⟩ := Pool.step_crash hstep
    obtain rfl := Option.some.inj (hr.symm.trans hr')
    exact Or.inl rfl
  | env e =>
    obtain rfl := Option.some.inj hstep
    have hsame : (env q.store e).tasks = q.store.tasks := by cases e <;> rfl
    rw [taskMachine, hsame] at hr'
    obtain rfl := Option.some.inj (hr.symm.trans hr')
    exact Or.inl rfl

end Runs

/-! ## An edit and a bulk operation -/

/-- The creator moves the task to `in_progress`, and an admin moves it with a bulk operation. -/
def editAndBulk (old status : TaskStatus) : Calls (Fin 2) where
  store :=
    { demoStore with
      tasks := ⟨[{ demoTask with status := old }], by simp⟩
      roles := fun _ userId => if userId = "admin" then some .orgAdmin else none }
  calls := ![.up (.updateTask ⟨"o", "t", "u", { noColumn with status := some .inProgress }, none, 1⟩
      .find), .up (.bulkUpdateStatus "o" "admin" ["t"] status .membership)]

/-- **A task that is done is cancelled**, by a bulk operation. -/
theorem done_task_cancelled :
    (∀ i, ((editAndBulk .done .cancelled).calls i).Live fun c => c.fresh)
      ∧ ∃ q q' : Calls (Fin 2), Run (Pool.step taskMachine) anyStep (editAndBulk .done .cancelled) q
        ∧ q.step taskMachine (.run 1 ()) = some q'
        ∧ ∃ r r', q.store.tasks.find "t" = some r ∧ r.deletedAt = none
          ∧ q'.store.tasks.find "t" = some r' ∧ r'.status ≠ r.status
          ∧ r'.status ∉ r.status.allowed := by
  refine ⟨by decide, ?_⟩
  obtain ⟨q, q', hq, -, hq', h⟩ := exists_step_of_exec (Pool.step taskMachine) anyStep
    (editAndBulk .done .cancelled) [.run 1 ()] (.run 1 ())
    (fun q q' => (q.store.tasks.find "t").any fun r => r.deletedAt = none
      ∧ (q'.store.tasks.find "t").any fun r' => r'.status ≠ r.status
        ∧ r'.status ∉ r.status.allowed) (by decide)
  obtain ⟨r, hr, h⟩ := (Option.any_eq_true _ _).mp h
  obtain ⟨hlive, h⟩ := of_decide_eq_true h
  obtain ⟨r', hr', h⟩ := (Option.any_eq_true _ _).mp h
  obtain ⟨hne, hnot⟩ := of_decide_eq_true h
  exact ⟨q, q', hq, hq', r, r', hr, hlive, hr', hne, hnot⟩

/-- The edit moves the task to `in_progress`, and the bulk operation on to `in_review`. -/
theorem edited_task_reviewed :
    ∃ q q' : Calls (Fin 2), Run (Pool.step taskMachine) Looked (editAndBulk .todo .inReview) q
      ∧ q.step taskMachine (.run 1 ()) = some q'
      ∧ ∃ r r', q.store.tasks.find "t" = some r ∧ r.status = .inProgress
        ∧ q'.store.tasks.find "t" = some r'
        ∧ (r'.status = r.status ∨ r'.status ∈ r.status.allowed) := by
  obtain ⟨q, q', hq, hG, hq', h⟩ := exists_step_of_exec (Pool.step taskMachine) Looked
    (editAndBulk .todo .inReview) [.run 0 (), .run 0 (), .run 1 (), .run 0 ()] (.run 1 ())
    (fun q q' => (q.store.tasks.find "t").any (fun r => r.deletedAt = none ∧ r.status = .inProgress)
      ∧ (q'.store.tasks.find "t").isSome) (by decide)
  obtain ⟨hrow, hrow'⟩ := of_decide_eq_true h
  obtain ⟨r, hr, h⟩ := (Option.any_eq_true _ _).mp hrow
  obtain ⟨-, hstatus⟩ := of_decide_eq_true h
  obtain ⟨r', hr'⟩ := Option.isSome_iff_exists.mp hrow'
  exact ⟨q, q', hq, hq', r, r', hr, hstatus, hr',
    status_change_allowed (by decide) hq hG hq' hr hr'⟩

end WorkPlatform.Task

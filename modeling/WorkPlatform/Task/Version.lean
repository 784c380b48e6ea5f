import Mathlib.Data.Fin.VecNotation
import WorkPlatform.Task.Edit

/-!
# Task/Version — the optimistic lock of a task

    UPDATE tasks SET …, version = version + 1 WHERE … AND version = v      an edit
    UPDATE tasks SET status = …                                            bulkUpdateStatus
    DELETE / INSERT task_assignees                                         after the edit's UPDATE
    SELECT                                                                 an edit of no column

Only the first of these looks at the version, and only the first raises it.  Two clients who each
send assignees alone, or one of them anything, both succeed from one version
(`assignees_replaced_unseen`).

A run is `Versioned` for a task where every edit of it sets a column and is not refused, and no bulk
operation changes its row.  From a state of such a run in which nobody is replacing the task's
assignees, an edit with that state's version succeeds exactly where row and assignees are still
those of that state, and after it no other edit with that version does (`version_lock`).
-/

namespace WorkPlatform.Task

open Machinery

/-- The call has had its row of the task and is replacing its assignees. -/
def Call.assigning (taskId : String) : Call → Bool
  | .updateTask a (.getAssignees _) | .updateTask a (.remove _ _ _) | .updateTask a (.add _ _ _) =>
    a.taskId = taskId
  | _ => false

/-- The next statement of the call changes the row of the task only together with its version, and
is no edit that looks at no version or is refused. -/
def Call.versioned (s : Store) (taskId : String) : Call → Bool
  | .updateTask a .update => a.taskId = taskId →
      a.data.isEmpty = false ∧ (s.tasks.find a.taskId).all fun r => s.refuses a.data r = false
  | .bulkUpdateStatus orgId _ taskIds status .update =>
    (s.bulkUpdateStatus orgId taskIds status).tasks.find taskId = s.tasks.find taskId
  | _ => true

/-- The next statement of the call is the UPDATE of an edit of the task with this version, and it
finds its row. -/
def Call.succeeds (s : Store) (taskId : String) (version : ℕ) : Call → Bool
  | .updateTask a .update => a.taskId = taskId ∧ a.version = version
      ∧ (updateNext s a .update).any fun x => x.2 ≠ .recheck ∧ x.2 ≠ .failed
  | _ => false

/-- A row that edits with version `v` no longer reach. -/
def TaskRow.Past (v : ℕ) (r : TaskRow) : Prop := v < r.version ∨ r.deletedAt.isSome

theorem TaskRow.Past.not_current {r : TaskRow} {v : ℕ} (h : r.Past v) (orgId : String) :
    r.current orgId v = false := by
  refine decide_eq_false ?_
  rintro ⟨-, hversion, hlive⟩
  rcases h with hlt | hdeleted
  · omega
  · rw [hlive] at hdeleted
    cases hdeleted

theorem TaskRow.Past.bulkStatus {r : TaskRow} {v : ℕ} (h : r.Past v) (orgId : String)
    (taskIds : List String) (status : TaskStatus) (now : ℕ) :
    (r.bulkStatus orgId taskIds status now).Past v := by
  unfold TaskRow.bulkStatus
  split <;> exact h

theorem TaskRow.Past.softDelete {r : TaskRow} {v : ℕ} (h : r.Past v) (p : TaskRow → Bool)
    (now : ℕ) : (r.softDelete p now).Past v := by
  unfold TaskRow.softDelete
  split
  · exact Or.inr rfl
  · exact h

section Steps

variable {s s' : Store} {c c' : Call} {taskId : String} {r : TaskRow}

/-! ## One statement -/

theorem assigning_updated (a : UpdateArgs) (u : TaskRow) (h : a.taskId ≠ taskId) :
    (Call.updateTask a (.updated a u)).assigning taskId = false := by
  unfold UpdatePc.updated
  split
  · exact decide_eq_false h
  · rfl

theorem assigning_adding (a : UpdateArgs) (u : TaskRow) (users : List String)
    (h : (Call.updateTask a (.adding u users)).assigning taskId = true) : a.taskId = taskId := by
  cases users with
  | nil => cases h
  | cons userId rest => exact of_decide_eq_true h

theorem assigning_removing (a : UpdateArgs) (u : TaskRow) (users : List String)
    (h : (Call.updateTask a (.removing a u users)).assigning taskId = true) :
    a.taskId = taskId := by
  cases users with
  | nil => exact assigning_adding a u _ h
  | cons userId rest => exact of_decide_eq_true h

/-- What a statement can do to a task. -/
inductive Edited (s : Store) (c : Call) (s' : Store) (c' : Call) (taskId : String) : Prop
  | same (hrow : s'.tasks.find taskId = s.tasks.find taskId)
      (hassignees : s'.assignees taskId = s.assignees taskId)
      (hassigning : c.versioned s taskId = true → c'.assigning taskId = true →
        c.assigning taskId = true)
  | patched {a : UpdateArgs} {r : TaskRow} (hc : c = .updateTask a .update) (ht : a.taskId = taskId)
      (hr : s.tasks.find taskId = some r) (hcurrent : r.current a.orgId a.version = true)
      (hs' : s' = s.patch taskId a.data)
  | status {orgId userId : String} {taskIds : List String} {status : TaskStatus}
      (hc : c = .bulkUpdateStatus orgId userId taskIds status .update)
      (hs' : s' = s.bulkUpdateStatus orgId taskIds status) (hc' : c'.assigning taskId = false)
  | deleted {time : ℕ} {p : TaskRow → Bool} (hs' : s' = s.softDelete time p)
      (hc' : c'.assigning taskId = false)
  | assigned (hc : c.assigning taskId = true) (htasks : s'.tasks = s.tasks)

/-- What the UPDATE of `updateTask` does to a task. -/
theorem edited_update {a : UpdateArgs} {pc' : UpdatePc}
    (h : updateNext s a .update = some (s', pc')) :
    Edited s (.updateTask a .update) s' (.updateTask a pc') taskId := by
  rw [updateNext] at h
  split at h
  · rename_i hempty
    split at h <;> obtain ⟨rfl, rfl⟩ := Prod.mk.inj (Option.some.inj h)
    · exact .same rfl rfl nofun
    · refine .same rfl rfl fun hversioned hassigning => ?_
      by_cases ht : a.taskId = taskId
      · have hfull := (of_decide_eq_true hversioned ht).1
        rw [hempty] at hfull
        cases hfull
      · rw [assigning_updated a _ ht] at hassigning
        cases hassigning
  · split at h
    · obtain ⟨rfl, rfl⟩ := Prod.mk.inj (Option.some.inj h)
      exact .same rfl rfl nofun
    · rename_i r hr
      split at h <;> obtain ⟨rfl, rfl⟩ := Prod.mk.inj (Option.some.inj h)
      · exact .same rfl rfl nofun
      · obtain ⟨hfind, hcurrent⟩ := Option.filter_eq_some_iff.mp hr
        by_cases ht : a.taskId = taskId
        · subst ht
          exact .patched rfl rfl hfind hcurrent rfl
        · refine .same ?_ rfl fun _ hassigning => ?_
          · unfold Store.patch
            dsimp only
            rw [Table.find_update, if_neg (Ne.symm ht)]
          · rw [assigning_updated a _ ht] at hassigning
            cases hassigning

/-- A statement that writes assignees, for another task. -/
theorem same_of_ne {a : UpdateArgs} {pc pc' : UpdatePc} {users : List String}
    (ht : a.taskId ≠ taskId)
    (hpc' : (Call.updateTask a pc').assigning taskId = true → a.taskId = taskId) :
    Edited s (.updateTask a pc)
      { s with assignees := Function.update s.assignees a.taskId users } (.updateTask a pc')
      taskId :=
  .same rfl (Function.update_of_ne (Ne.symm ht) _ _) fun _ h => absurd (hpc' h) ht

/-- A statement of an edit: only its UPDATE and its assignees touch a task. -/
theorem edited_updateTask {a : UpdateArgs} {pc pc' : UpdatePc}
    (hpc : updateNext s a pc = some (s', pc')) :
    Edited s (.updateTask a pc) s' (.updateTask a pc') taskId := by
  cases pc with
  | update => exact edited_update hpc
  | remove u userId rest =>
    obtain ⟨rfl, rfl⟩ := Prod.mk.inj (Option.some.inj hpc)
    by_cases ht : a.taskId = taskId
    · exact .assigned (decide_eq_true ht) rfl
    · exact same_of_ne ht (assigning_removing a u rest)
  | add u userId rest =>
    obtain ⟨rfl, rfl⟩ := Prod.mk.inj (Option.some.inj hpc)
    by_cases ht : a.taskId = taskId
    · exact .assigned (decide_eq_true ht) rfl
    · exact same_of_ne ht (assigning_adding a u rest)
  | getAssignees u =>
    obtain ⟨rfl, rfl⟩ := Prod.mk.inj (Option.some.inj hpc)
    exact .same rfl rfl fun _ h => decide_eq_true (assigning_removing a u _ h)
  | find =>
    obtain ⟨rfl, rfl⟩ := Prod.mk.inj (Option.some.inj hpc)
    refine .same rfl rfl fun _ h => ?_
    split at h
    · cases h
    · split at h <;> cases h
  | membership existing =>
    obtain ⟨rfl, rfl⟩ := Prod.mk.inj (Option.some.inj hpc)
    refine .same rfl rfl fun _ h => ?_
    unfold UpdatePc.authorized at h
    split at h
    · cases h
    · split at h
      · cases h
      · split at h <;> cases h
  | recheck =>
    obtain ⟨rfl, rfl⟩ := Prod.mk.inj (Option.some.inj hpc)
    refine .same rfl rfl fun _ h => ?_
    split at h
    · cases h
    · split at h <;> cases h
  | activity u =>
    obtain ⟨rfl, rfl⟩ := Prod.mk.inj (Option.some.inj hpc)
    refine .same rfl rfl fun _ h => ?_
    split at h <;> cases h
  | outbox u | enqueue u =>
    obtain ⟨rfl, rfl⟩ := Prod.mk.inj (Option.some.inj hpc)
    exact .same rfl rfl nofun
  | returned u | threw e | failed => cases hpc

/-- **One statement, seen from a task.** -/
theorem edited_next (h : next s c = some (s', c')) : Edited s c s' c' taskId := by
  cases c with
  | updateTask a pc =>
    obtain ⟨pc', hpc, rfl⟩ := pc_of_next h
    exact edited_updateTask hpc
  | deleteTask orgId id userId pc =>
    obtain ⟨pc', hpc, rfl⟩ := pc_of_next h
    cases pc with
    | returned | threw e => cases hpc
    | commit startedAt taskIds =>
      obtain ⟨rfl, rfl⟩ := Prod.mk.inj (Option.some.inj hpc)
      exact .deleted rfl rfl
    | _ =>
      obtain ⟨rfl, rfl⟩ := Prod.mk.inj (Option.some.inj hpc)
      exact .same rfl rfl nofun
  | bulkUpdateStatus orgId userId taskIds status pc =>
    obtain ⟨pc', hpc, rfl⟩ := pc_of_next h
    cases pc with
    | returned | threw e => cases hpc
    | update =>
      obtain ⟨rfl, rfl⟩ := Prod.mk.inj (Option.some.inj hpc)
      exact .status rfl rfl rfl
    | membership =>
      obtain ⟨rfl, rfl⟩ := Prod.mk.inj (Option.some.inj hpc)
      exact .same rfl rfl nofun
  | bulkDelete orgId userId taskIds pc =>
    obtain ⟨pc', hpc, rfl⟩ := pc_of_next h
    cases pc with
    | returned | threw e => cases hpc
    | update =>
      obtain ⟨rfl, rfl⟩ := Prod.mk.inj (Option.some.inj hpc)
      exact .deleted rfl rfl
    | membership =>
      obtain ⟨rfl, rfl⟩ := Prod.mk.inj (Option.some.inj hpc)
      exact .same rfl rfl nofun

theorem find_patch (hr : s.tasks.find taskId = some r) (d : UpdateTaskData) :
    (s.patch taskId d).tasks.find taskId = some (r.patch d s.now) := by
  unfold Store.patch
  dsimp only
  rw [Table.find_update, if_pos rfl, hr, Option.map_some]

theorem find_softDelete (hr : s.tasks.find taskId = some r) (time : ℕ) (select : TaskRow → Bool) :
    (s.softDelete time select).tasks.find taskId = some (r.softDelete select time) := by
  unfold Store.softDelete
  dsimp only
  rw [Table.find_map, hr, Option.map_some]

/-- A row that is past a version stays so, whatever the statement. -/
theorem past_next {v : ℕ} (h : next s c = some (s', c')) (hr : s.tasks.find taskId = some r)
    (hpast : r.Past v) : ∃ r', s'.tasks.find taskId = some r' ∧ r'.Past v := by
  have hedited : Edited s c s' c' taskId := edited_next h
  cases hedited with
  | same hrow _ _ => exact ⟨r, hrow.trans hr, hpast⟩
  | @patched a _ _ _ hr₁ _ hs' =>
    rw [hs']
    exact ⟨_, find_patch hr a.data, hpast.imp Nat.lt_succ_of_lt id⟩
  | @status orgId _ taskIds status _ hs' _ =>
    have hrow : s'.tasks.find taskId = some (r.bulkStatus orgId taskIds status s.now) := by
      rw [hs']
      unfold Store.bulkUpdateStatus
      dsimp only
      rw [Table.find_map, hr, Option.map_some]
    exact ⟨_, hrow, hpast.bulkStatus orgId taskIds status s.now⟩
  | @deleted time select hs' _ =>
    rw [hs']
    exact ⟨_, find_softDelete hr time select, hpast.softDelete select time⟩
  | assigned _ htasks => exact ⟨r, by rw [htasks, hr], hpast⟩

/-- An edit that sets a column and is not refused. -/
theorem updateNext_update {a : UpdateArgs}
    (hversioned : (Call.updateTask a .update).versioned s a.taskId = true) :
    updateNext s a .update =
      match (s.tasks.find a.taskId).filter (·.current a.orgId a.version) with
      | none => some (s, .recheck)
      | some r => some (s.patch a.taskId a.data, .updated a (r.patch a.data s.now)) := by
  obtain ⟨hfull, haccepted⟩ := of_decide_eq_true hversioned rfl
  have hset : ¬ a.data.isEmpty = true := by
    rw [hfull]
    exact Bool.false_ne_true
  rw [updateNext, if_neg hset]
  cases hr : (s.tasks.find a.taskId).filter (·.current a.orgId a.version) with
  | none => rfl
  | some r =>
    rw [(Option.filter_eq_some_iff.mp hr).1] at haccepted
    have hr : ¬ s.refuses a.data r = true := by simpa using haccepted
    exact if_neg hr

/-- An edit that sets a column and is not refused finds its row where that is current. -/
theorem succeeds_iff {a : UpdateArgs}
    (hversioned : (Call.updateTask a .update).versioned s a.taskId = true) :
    (Call.updateTask a .update).succeeds s a.taskId a.version = true
      ↔ ∃ r, s.tasks.find a.taskId = some r ∧ r.current a.orgId a.version = true := by
  have hupdated : ∀ u, UpdatePc.updated a u ≠ .recheck ∧ UpdatePc.updated a u ≠ .failed := by
    intro u
    unfold UpdatePc.updated
    split <;> exact ⟨nofun, nofun⟩
  rw [Call.succeeds, updateNext_update hversioned, decide_eq_true_iff]
  cases hr : (s.tasks.find a.taskId).filter (·.current a.orgId a.version) with
  | none =>
    refine ⟨fun h => ?_, ?_⟩
    · exact absurd rfl (of_decide_eq_true
        (p := UpdatePc.recheck ≠ .recheck ∧ UpdatePc.recheck ≠ .failed) h.2.2).1
    rintro ⟨r, hfind, hcurrent⟩
    rw [Option.filter_eq_none_iff] at hr
    exact absurd hcurrent (hr r hfind)
  | some r =>
    refine ⟨fun _ => ⟨r, Option.filter_eq_some_iff.mp hr⟩, fun _ => ⟨rfl, rfl, ?_⟩⟩
    exact decide_eq_true (hupdated _)

/-- An edit that finds its row past its version looks the task up again. -/
theorem next_of_past {a : UpdateArgs}
    (hversioned : (Call.updateTask a .update).versioned s a.taskId = true)
    (hr : s.tasks.find a.taskId = some r) (hpast : r.Past a.version) :
    next s (.updateTask a .update) = some (s, .updateTask a .recheck) := by
  have hnone : (s.tasks.find a.taskId).filter (·.current a.orgId a.version) = none := by
    rw [hr, Option.filter_eq_none_iff]
    rintro _ ⟨⟩
    rw [hpast.not_current]
    exact Bool.false_ne_true
  rw [next, updateNext_update hversioned, hnone]
  rfl

/-- After a missed UPDATE the call ends in a conflict, or finds no task. -/
theorem next_recheck (a : UpdateArgs) :
    next s (.updateTask a .recheck) = some (s, .updateTask a (.threw
      (if (s.findById a.taskId).any (·.orgId = a.orgId) then versionConflict
        else .notFound "Task"))) := by
  rw [next, updateNext]
  cases hr : s.findById a.taskId with
  | none => rfl
  | some r =>
    by_cases horg : r.orgId = a.orgId
    · simp [horg]
    · simp [horg]

/-- An edit that succeeds takes the row past its version. -/
theorem past_of_succeeds {v : ℕ} (hversioned : c.versioned s taskId = true)
    (hsucceeds : c.succeeds s taskId v = true) (h : next s c = some (s', c')) :
    ∃ r', s'.tasks.find taskId = some r' ∧ r'.Past v := by
  unfold Call.succeeds at hsucceeds
  split at hsucceeds
  case h_2 => cases hsucceeds
  case h_1 a =>
    obtain ⟨rfl, rfl, -⟩ := of_decide_eq_true hsucceeds
    obtain ⟨r, hr, hcurrent⟩ := (succeeds_iff hversioned).mp hsucceeds
    obtain ⟨-, hversion, -⟩ := of_decide_eq_true hcurrent
    have hfilter := Option.filter_eq_some_iff.mpr ⟨hr, hcurrent⟩
    obtain ⟨pc', hpc, -⟩ := pc_of_next h
    rw [updateNext_update hversioned, hfilter] at hpc
    obtain ⟨rfl, -⟩ := Prod.mk.inj (Option.some.inj hpc)
    refine ⟨_, find_patch hr a.data, Or.inl ?_⟩
    rw [← hversion]
    exact Nat.lt_succ_self _

end Steps

/-! ## Runs -/

section Runs

variable {ι : Type*} {taskId : String} {r₀ : TaskRow} {users : List String}

/-- **The version guards the task**: every edit of it sets a column and is not refused, and no bulk
operation changes its row. -/
def Versioned (taskId : String) (p : Calls ι) : Move ι Unit Env → Prop
  | .run i _ => (p.calls i).Keeps fun c => c.versioned p.store taskId
  | _ => True

instance (p : Calls ι) : ∀ m : Move ι Unit Env, Decidable (Versioned taskId p m)
  | .run i _ => inferInstanceAs (Decidable ((p.calls i).Keeps fun c => c.versioned p.store taskId))
  | .crash _ => inferInstanceAs (Decidable True)
  | .env _ => inferInstanceAs (Decidable True)

/-- The task is as it was, with nobody about to replace its assignees; or its row is past the
version it had. -/
def Follows (taskId : String) (r₀ : TaskRow) (users : List String) (p : Calls ι) : Prop :=
  p.store.tasks.find taskId = some r₀ ∧ p.store.assignees taskId = users
      ∧ (∀ i, (p.calls i).Keeps fun c => c.assigning taskId = false)
    ∨ ∃ r, p.store.tasks.find taskId = some r ∧ r.Past r₀.version

variable [DecidableEq ι] {p q q' : Calls ι} {i : ι}

/-- A statement keeps the history of a task in step with its version. -/
theorem follows_step {c c' : Call} {s' : Store} (hI : Follows taskId r₀ users p)
    (hG : Versioned taskId p (.run i ())) (hc : p.calls i = .up c)
    (hnext : next p.store c = some (s', c')) :
    Follows taskId r₀ users (⟨s', Function.update p.calls i (.up c')⟩ : Calls ι) := by
  rw [Versioned, hc] at hG
  rcases hI with ⟨hr, husers, hidle⟩ | ⟨r, hr, hpast⟩
  · have hself : c.assigning taskId = false := by
      have hi := (hidle i).of_up hc
      exact hi
    -- the calls, where the statement does not start to replace the assignees
    have hcalls : c'.assigning taskId = false →
        ∀ j, (Function.update p.calls i (.up c') j).Keeps fun c => c.assigning taskId = false := by
      intro hc'
      exact keeps_update_up hc' fun j _ => hidle j
    have hedited : Edited p.store c s' c' taskId := edited_next hnext
    cases hedited with
    | same hrow hassignees hassigning =>
      refine Or.inl ⟨hrow.trans hr, hassignees.trans husers, hcalls ?_⟩
      by_contra hc'
      have hold := hassigning hG (eq_true_of_ne_false hc')
      rw [hself] at hold
      cases hold
    | @patched a _ _ _ _ _ hs' =>
      rw [hs']
      exact Or.inr ⟨_, find_patch hr a.data, Or.inl (Nat.lt_succ_self _)⟩
    | status hca hs' hc' =>
      subst hca
      have hrow := of_decide_eq_true hG
      rw [hs']
      exact Or.inl ⟨hrow.trans hr, husers, hcalls hc'⟩
    | @deleted time select hs' hc' =>
      rw [hs']
      have hrow := find_softDelete hr time select
      by_cases hselect : select r₀ = true
      · rw [TaskRow.softDelete, if_pos hselect] at hrow
        exact Or.inr ⟨_, hrow, Or.inr rfl⟩
      · rw [TaskRow.softDelete, if_neg hselect] at hrow
        exact Or.inl ⟨hrow, husers, hcalls hc'⟩
    | assigned hassigning _ =>
      rw [hself] at hassigning
      cases hassigning
  · exact Or.inr (past_next hnext hr hpast)

/-- It holds in every state of such a run. -/
theorem follows_run (hI : Follows taskId r₀ users p)
    (h : Run (Pool.step taskMachine) (Versioned taskId) p q) : Follows taskId r₀ users q := by
  refine Pool.invariant (I := Follows taskId r₀ users) hI ?_ ?_ ?_ h
  · rintro p i ⟨⟩ c s' c' hI hG hc hnext
    exact follows_step hI hG hc hnext
  · intro p i c hI _ _
    refine hI.imp ?_ id
    rintro ⟨hr, husers, hidle⟩
    exact ⟨hr, husers, keeps_update_down hidle⟩
  · rintro p (_ | _ | _) hI - <;> exact hI

/-- A version that is past stays so. -/
theorem past_run {r : TaskRow} {v : ℕ} (hr : p.store.tasks.find taskId = some r) (hpast : r.Past v)
    (h : Run (Pool.step taskMachine) (Versioned taskId) p q) :
    ∃ r', q.store.tasks.find taskId = some r' ∧ r'.Past v := by
  refine Pool.invariant (I := fun p : Calls ι =>
    ∃ r', p.store.tasks.find taskId = some r' ∧ r'.Past v) ⟨r, hr, hpast⟩ ?_ ?_ ?_ h
  · rintro p i ⟨⟩ c s' c' ⟨r, hr, hpast⟩ _ _ hnext
    exact past_next hnext hr hpast
  · intro p i c hI _ _
    exact hI
  · rintro p (_ | _ | _) hI - <;> exact hI

/-- **The version lock.**  In a run that keeps to the versions, an edit of the task with the version
it had succeeds exactly where the task is unchanged and its row one the edit may change.  Once it
has, no other edit with that version does; it goes on to look the task up again, and reports a
version conflict where it finds it. -/
theorem version_lock (hrow : p.store.tasks.find taskId = some r₀)
    (hidle : ∀ i, (p.calls i).Keeps fun c => c.assigning taskId = false)
    (h : Run (Pool.step taskMachine) (Versioned taskId) p q) :
    (∀ i a, q.calls i = .up (.updateTask a .update) → a.taskId = taskId →
      a.version = r₀.version → Versioned taskId q (.run i ()) →
      ((Call.updateTask a .update).succeeds q.store taskId r₀.version = true
        ↔ q.store.tasks.find taskId = some r₀ ∧ q.store.assignees taskId = p.store.assignees taskId
          ∧ r₀.current a.orgId a.version = true))
    ∧ (∀ i q', ((q.calls i).Live fun c => c.succeeds q.store taskId r₀.version) →
      Versioned taskId q (.run i ()) → q.step taskMachine (.run i ()) = some q' →
      ∀ u, Run (Pool.step taskMachine) (Versioned taskId) q' u →
      ∀ j b, u.calls j = .up (.updateTask b .update) → b.taskId = taskId →
        b.version = r₀.version → Versioned taskId u (.run j ()) →
        u.step taskMachine (.run j ()) =
          some ⟨u.store, Function.update u.calls j (.up (.updateTask b .recheck))⟩)
    ∧ (∀ j b, q.calls j = .up (.updateTask b .recheck) → b.taskId = taskId →
      ∃ e, q.step taskMachine (.run j ()) =
          some ⟨q.store, Function.update q.calls j (.up (.updateTask b (.threw e)))⟩
        ∧ e = if (q.store.findById taskId).any (·.orgId = b.orgId) then versionConflict
          else .notFound "Task") := by
  have hI : Follows taskId r₀ (p.store.assignees taskId) q :=
    follows_run (Or.inl ⟨hrow, rfl, hidle⟩) h
  refine ⟨?_, ?_, ?_⟩
  · intro i a hcall ht hv hG
    subst ht
    rw [Versioned, hcall] at hG
    rw [← hv, succeeds_iff hG]
    constructor
    · rintro ⟨r, hr, hcurrent⟩
      rcases hI with ⟨hr₀, husers, -⟩ | ⟨r₁, hr₁, hpast⟩
      · obtain rfl := Option.some.inj (hr.symm.trans hr₀)
        exact ⟨hr, husers, hcurrent⟩
      · obtain rfl := Option.some.inj (hr.symm.trans hr₁)
        rw [← hv] at hpast
        rw [hpast.not_current] at hcurrent
        cases hcurrent
    · rintro ⟨hr, -, hcurrent⟩
      exact ⟨r₀, hr, hcurrent⟩
  · intro i q' hlive hG hstep u hu j b hcall ht hv hGu
    obtain ⟨c, hc, hsucceeds⟩ := hlive.exists
    obtain ⟨k, s', k', hk, hnext, rfl⟩ := Pool.step_run hstep
    obtain rfl := Proc.up.inj (hc.symm.trans hk)
    rw [Versioned, hc] at hG
    obtain ⟨r, hr, hpast⟩ := past_of_succeeds hG hsucceeds hnext
    obtain ⟨r', hr', hpast'⟩ := past_run hr hpast hu
    subst ht
    rw [Versioned, hcall] at hGu
    rw [← hv] at hpast'
    exact Pool.step_of_next hcall (next_of_past hGu hr' hpast')
  · intro j b hcall ht
    subst ht
    exact ⟨_, Pool.step_of_next hcall (next_recheck b), rfl⟩

end Runs

/-! ## Two clients who have read one version -/

/-- A task of version 1. -/
def demoTask : TaskRow where
  id := "t"
  orgId := "o"
  workspaceId := "w"
  boardId := none
  parentTaskId := none
  depth := 0
  title := "draft"
  description := none
  status := .todo
  priority := .medium
  creatorId := "u"
  dueDate := none
  completedAt := none
  isRecurring := false
  recurrenceRule := none
  recurrenceParentId := none
  labels := []
  deletedAt := none
  version := 1

theorem demoTask_nodup : ([demoTask].map TaskRow.id).Nodup := by decide

def noColumn : UpdateTaskData := ⟨none, none, none, none, none, none, none, none, none⟩

/-- The creator's edit of the task, from version 1. -/
def demoEdit (title : Option String) (assigneeIds : Option (List String)) : UpdateArgs :=
  ⟨"o", "t", "u", { noColumn with title }, assigneeIds, 1⟩

/-- The task with one assignee. -/
def demoStore : Store where
  now := 0
  tasks := ⟨[demoTask], by decide⟩
  assignees := fun _ => ["v"]
  replicaAssignees := fun _ => ["v"]
  members := fun _ _ => none
  roles := fun _ _ => none
  workspaces := ⟨[⟨"w", "o", none⟩], by decide⟩
  replicaWorkspaces := ⟨[⟨"w", "o", none⟩], by decide⟩
  boards := .empty
  outbox := []

/-- The task, and the two edits. -/
def twoClients (a b : UpdateArgs) : Calls (Fin 2) where
  store := demoStore
  calls := ![.up (.updateTask a .find), .up (.updateTask b .find)]

theorem twoClients_idle (a b : UpdateArgs) :
    ∀ i, ((twoClients a b).calls i).Keeps fun c => c.assigning "t" = false
  | 0 | 1 => rfl

/-- One client replaces the assignees, the other sets the title. -/
def assigneesAndTitle : Calls (Fin 2) :=
  twoClients (demoEdit none (some ["w"])) (demoEdit (some "final") none)

/-- Both set the title, and one of them the assignees. -/
def titleClients : Calls (Fin 2) :=
  twoClients (demoEdit (some "mine") (some ["w"])) (demoEdit (some "final") none)

/-- **Assignees replaced unseen**: one client replaces the assignees and sets no column; the other's
edit from the same version succeeds all the same. -/
theorem assignees_replaced_unseen :
    assigneesAndTitle.store.tasks.find "t" = some demoTask
      ∧ assigneesAndTitle.store.assignees "t" = ["v"]
      ∧ (∀ i, (assigneesAndTitle.calls i).Keeps fun c => c.assigning "t" = false)
      ∧ ∃ q, Run (Pool.step taskMachine) anyStep assigneesAndTitle q
        ∧ q.calls 0 = .up (.updateTask (demoEdit none (some ["w"])) (.returned demoTask))
        ∧ q.store.assignees "t" = ["w"]
        ∧ q.calls 1 = .up (.updateTask (demoEdit (some "final") none) .update)
        ∧ ((q.calls 1).Live fun c => c.succeeds q.store "t" 1) := by
  refine ⟨by decide, rfl, twoClients_idle _ _, ?_⟩
  obtain ⟨q, hq, h⟩ := exists_run_of_exec (Pool.step taskMachine) anyStep assigneesAndTitle
    [.run 1 (), .run 1 (), .run 0 (), .run 0 (), .run 0 (), .run 0 (), .run 0 (), .run 0 (),
      .run 0 (), .run 0 ()]
    (fun q => q.calls 0 = .up (.updateTask (demoEdit none (some ["w"])) (.returned demoTask))
      ∧ q.store.assignees "t" = ["w"]
      ∧ q.calls 1 = .up (.updateTask (demoEdit (some "final") none) .update)
      ∧ ((q.calls 1).Live fun c => c.succeeds q.store "t" 1)) (by decide)
  exact ⟨q, hq, of_decide_eq_true h⟩

/-- With a column in both edits, the one that comes first finds the task as both have read it and
replaces the assignees; the other is told of the conflict. -/
theorem second_client_conflicts :
    ∃ q q' u : Calls (Fin 2), Run (Pool.step taskMachine) (Versioned "t") titleClients q
      ∧ q.store.tasks.find "t" = some demoTask ∧ q.store.assignees "t" = ["v"]
      ∧ q.step taskMachine (.run 0 ()) = some q'
      ∧ Run (Pool.step taskMachine) (Versioned "t") q' u ∧ u.store.assignees "t" = ["w"]
      ∧ ∃ v w : Calls (Fin 2), u.step taskMachine (.run 1 ()) = some v
        ∧ v.step taskMachine (.run 1 ()) = some w
        ∧ w.calls 1 =
          .up (.updateTask (demoEdit (some "final") none) (.threw versionConflict)) := by
  obtain ⟨q, q', hq, hG, hq', h⟩ := exists_step_of_exec (Pool.step taskMachine) (Versioned "t")
    titleClients [.run 1 (), .run 1 (), .run 0 (), .run 0 ()] (.run 0 ())
    (fun q q' => q.calls 0 = .up (.updateTask (demoEdit (some "mine") (some ["w"])) .update)
      ∧ ((q.calls 0).Live fun c => c.succeeds q.store "t" 1)
      ∧ (exec (Pool.step taskMachine) (Versioned "t") q' (List.replicate 5 (.run 0 ()))).any
        fun u => u.store.assignees "t" = ["w"]
          ∧ u.calls 1 = .up (.updateTask (demoEdit (some "final") none) .update)
          ∧ (u.store.findById "t").any (·.orgId = "o")) (by decide)
  obtain ⟨hedit, hsucceeds, hexec⟩ := of_decide_eq_true h
  obtain ⟨u, hu, h⟩ := exists_run_of_exec _ _ _ _ _ hexec
  obtain ⟨husers, hcall, hlive⟩ := of_decide_eq_true h
  have hrow : titleClients.store.tasks.find "t" = some demoTask := by decide
  obtain ⟨hseen, hlater, -⟩ := version_lock hrow (twoClients_idle _ _) hq
  rw [hedit] at hsucceeds
  obtain ⟨hunchanged, hassignees, -⟩ := (hseen 0 _ hedit rfl rfl hG).mp hsucceeds
  have hfinal : (Call.updateTask (demoEdit (some "final") none) .update).versioned u.store "t" =
    true := by
    simp [Call.versioned, Store.refuses, demoEdit, noColumn, UpdateTaskData.isEmpty]
  have hGu : Versioned "t" u (.run 1 ()) := by
    rw [Versioned, hcall]
    exact hfinal
  have hv := hlater 0 q' (by rw [hedit]; exact hsucceeds) hG hq' u hu 1 _ hcall rfl rfl hGu
  obtain ⟨-, -, hconflict⟩ := version_lock hrow (twoClients_idle _ _)
    (((hq.tail hG hq').trans hu).tail hGu hv)
  obtain ⟨e, hw, he⟩ := hconflict 1 (demoEdit (some "final") none)
    (by dsimp only; exact Function.update_self _ _ _) rfl
  have he : e = versionConflict := he.trans (if_pos hlive)
  rw [he] at hw
  refine ⟨q, q', u, hq, hunchanged, hassignees, hq', hu, husers, _, _, hv, hw, ?_⟩
  dsimp only
  exact Function.update_self _ _ _

end WorkPlatform.Task

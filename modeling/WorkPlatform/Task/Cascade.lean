import Mathlib.Data.Finset.Dedup
import WorkPlatform.Machinery.Recursive
import WorkPlatform.Task.Orphan

/-!
# Task/Cascade — the two statements of `cascadeSoftDelete`

    connect ▸ BEGIN ▸ UPDATE the subtasks ▸ UPDATE the task ▸ COMMIT
                        │                     │
                        └─── a failure ───────┴──▸ ROLLBACK

The first statement selects by a recursive query, which comes to an end because no task is below
itself; both set the transaction's one `NOW()`.  Where the statements are done and committed, what
is deleted is the task, where it is live, and the live tasks that hang from it by live tasks of the
organisation, and nothing else has changed; otherwise nothing has (`cascade_exact`).  It is the
`cascadeSoftDelete` a call of `deleteTask` makes where nobody comes in between
(`cascadeSoftDelete_eq`).
-/

namespace WorkPlatform.Task

open Machinery Relation

/-! ## The statements -/

/-- How the steps of `withTransaction` go. -/
structure Outcomes where
  connect : Outcome
  start : Outcome
  subtasks : Outcome
  root : Outcome
  commit : Outcome
  deriving DecidableEq

/-- Everything up to COMMIT has been answered, and COMMIT is done. -/
def Outcomes.Done (o : Outcomes) : Prop :=
  o.connect.answered ∧ o.start.answered ∧ o.subtasks.answered ∧ o.root.answered ∧ o.commit.took

instance (o : Outcomes) : Decidable o.Done := inferInstanceAs (Decidable (_ ∧ _ ∧ _ ∧ _ ∧ _))

namespace Store

/-- `JOIN subtasks s ON t.parent_task_id = s.id`: the children of each row of the generation. -/
def joined (s : Store) (orgId : String) (generation : List String) : List String :=
  generation.flatMap fun id => s.children orgId [id]

/-- The first UPDATE, with so many generations of its query. -/
def deleteSubtasks (s : Store) (orgId taskId : String) (generations : ℕ) : Option Store :=
  (unionAll (s.joined orgId) generations (s.children orgId [taskId])).map fun subtasks =>
    s.softDelete s.now fun r => r.id ∈ subtasks

/-- The second UPDATE. -/
def deleteRoot (s : Store) (orgId taskId : String) : Store :=
  s.softDelete s.now fun r => r.id = taskId ∧ r.orgId = orgId ∧ r.deletedAt = none

/-- `cascadeSoftDelete` in its transaction: what is committed when it is over, and whether the call
returns; `none` while the recursive query runs. -/
def cascade (s : Store) (orgId taskId : String) (o : Outcomes) (generations : ℕ) :
    Option (Store × Bool) :=
  if ¬ o.connect.answered ∨ ¬ o.start.answered ∨ ¬ o.subtasks.answered then some (s, false)
  else (s.deleteSubtasks orgId taskId generations).map fun s₁ =>
    if ¬ o.root.answered then (s, false)
    else (if o.commit.took then s₁.deleteRoot orgId taskId else s, o.commit.answered)

/-! ## What they are to delete -/

/-- The row is a live task of the organisation. -/
def Live (s : Store) (orgId : String) (r : TaskRow) : Prop :=
  r ∈ s.tasks.rows ∧ r.orgId = orgId ∧ r.deletedAt = none

/-- **Joined to the task by a chain of live tasks** of the organisation. -/
inductive Hangs (s : Store) (orgId taskId : String) : TaskRow → Prop
  | child {r : TaskRow} (hr : s.Live orgId r) (h : r.parentTaskId = some taskId) :
      Hangs s orgId taskId r
  | deeper {r parent : TaskRow} (hparent : Hangs s orgId taskId parent) (hr : s.Live orgId r)
      (h : r.parentTaskId = some parent.id) : Hangs s orgId taskId r

/-- The task, or one that hangs from it. -/
def Doomed (s : Store) (orgId taskId : String) (r : TaskRow) : Prop :=
  s.Live orgId r ∧ r.id = taskId ∨ s.Hangs orgId taskId r

/-- `c` is the id of a live child of `p`. -/
def Under (s : Store) (orgId p c : String) : Prop :=
  ∃ r, s.Live orgId r ∧ r.id = c ∧ r.parentTaskId = some p

end Store

section

variable {s : Store} {orgId taskId : String} {r : TaskRow}

theorem Store.Hangs.live (h : s.Hangs orgId taskId r) : s.Live orgId r := by
  cases h with
  | child hr _ => exact hr
  | deeper _ hr _ => exact hr

/-! ## The query -/

/-- The children are the tasks under one of the parents. -/
theorem mem_children_iff {parents : List String} {c : String} :
    c ∈ s.children orgId parents ↔ ∃ p ∈ parents, s.Under orgId p c := by
  simp only [Store.children, Store.Under, Store.Live, List.mem_map, List.mem_filter,
    decide_eq_true_eq, Option.any_eq_true]
  constructor
  · rintro ⟨r, ⟨hr, horg, hlive, p, hp, hmem⟩, hid⟩
    exact ⟨p, hmem, r, ⟨hr, horg, hlive⟩, hid, hp⟩
  · rintro ⟨p, hmem, r, ⟨hr, horg, hlive⟩, hid, hp⟩
    exact ⟨r, ⟨hr, horg, hlive, p, hp, hmem⟩, hid⟩

theorem generates_joined (s : Store) (orgId : String) :
    Generates (s.joined orgId) (s.Under orgId) := by
  intro xs y
  simp [Store.joined, mem_children_iff]

/-- What hangs from the task is what its children reach. -/
theorem hangs_iff (hr : r ∈ s.tasks.rows) : s.Hangs orgId taskId r ↔
    ∃ x ∈ s.children orgId [taskId], ReflTransGen (s.Under orgId) x r.id := by
  constructor
  · intro h
    clear hr
    induction h with
    | @child r hr h =>
      exact ⟨r.id, mem_children_iff.mpr ⟨taskId, List.mem_singleton_self _, r, hr, rfl, h⟩, .refl⟩
    | @deeper r parent _ hr h ih =>
      obtain ⟨x, hx, hreach⟩ := ih
      exact ⟨x, hx, hreach.tail ⟨r, hr, rfl, h⟩⟩
  · rintro ⟨x, hx, hreach⟩
    have hrow : ∀ y, ReflTransGen (s.Under orgId) x y → ∃ r, r.id = y ∧ s.Hangs orgId taskId r := by
      intro y hy
      induction hy with
      | refl =>
        obtain ⟨p, hp, r, hr, hid, hparent⟩ := mem_children_iff.mp hx
        obtain rfl := List.mem_singleton.mp hp
        exact ⟨r, hid, .child hr hparent⟩
      | tail _ hbc ih =>
        obtain ⟨parent, rfl, hhangs⟩ := ih
        obtain ⟨r, hr, hid, hparent⟩ := hbc
        exact ⟨r, hid, .deeper hhangs hr hparent⟩
    obtain ⟨r', hid, hhangs⟩ := hrow r.id hreach
    obtain rfl : r' = r := Table.eq_of_key hhangs.live.1 hr hid
    exact hhangs

/-- **No task is below itself**, so none is in the query's relation. -/
theorem acyclic_under (h : Acyclic s.Parent) (orgId : String) : Acyclic (s.Under orgId) := by
  intro x hx
  have hrow : ∀ y, TransGen (s.Under orgId) x y → ∀ a, s.tasks.find x = some a →
      ∃ b, s.tasks.find y = some b ∧ TransGen s.Parent b a := by
    intro y hy a ha
    induction hy with
    | single hxy =>
      obtain ⟨r, hr, rfl, hparent⟩ := hxy
      exact ⟨r, Table.find_key hr.1, .single ⟨x, hparent, ha⟩⟩
    | tail _ hyz ih =>
      obtain ⟨b, hb, hba⟩ := ih
      obtain ⟨r, hr, rfl, hparent⟩ := hyz
      exact ⟨r, Table.find_key hr.1, .head ⟨_, hparent, hb⟩ hba⟩
  obtain ⟨y, -, r, hr, rfl, -⟩ := TransGen.tail'_iff.mp hx
  obtain ⟨b, hb, hcycle⟩ := hrow r.id hx r (Table.find_key hr.1)
  obtain rfl := Option.some.inj ((Table.find_key hr.1).symm.trans hb)
  exact h r hcycle

/-- **The recursive query comes to an end** after no more generations than there are tasks, and has
found what hangs from the task. -/
theorem exists_subtasks (h : Acyclic s.Parent) (orgId taskId : String) :
    ∃ subtasks, (∀ n ≥ s.tasks.rows.length,
        unionAll (s.joined orgId) n (s.children orgId [taskId]) = some subtasks) ∧
      ∀ r ∈ s.tasks.rows, r.id ∈ subtasks ↔ s.Hangs orgId taskId r := by
  have hids : ∀ x y, s.Under orgId x y → y ∈ (s.tasks.rows.map (·.id)).toFinset := by
    rintro x y ⟨r, hr, rfl, -⟩
    exact List.mem_toFinset.mpr (List.mem_map_of_mem hr.1)
  have hcard : (s.tasks.rows.map (·.id)).toFinset.card ≤ s.tasks.rows.length := by
    rw [← List.length_map (·.id)]
    exact List.toFinset_card_le _
  have hstart : ∀ x ∈ s.children orgId [taskId], x ∈ (s.tasks.rows.map (·.id)).toFinset := by
    intro x hx
    obtain ⟨p, -, hunder⟩ := mem_children_iff.mp hx
    exact hids p x hunder
  obtain ⟨subtasks, hquery⟩ :=
    exists_unionAll (generates_joined s orgId) (acyclic_under h orgId) hids hstart hcard
  refine ⟨subtasks, fun n hn => unionAll_mono hquery hn, fun r hr => ?_⟩
  rw [mem_unionAll (generates_joined s orgId) hquery, hangs_iff hr]

/-! ## The transaction -/

/-- A row that is deleted already is not selected again. -/
theorem softDelete_softDelete {p q : TaskRow → Bool} (hq : ∀ r, q r = true → r.deletedAt = none) :
    (s.softDelete s.now p).softDelete s.now q = s.softDelete s.now fun r => p r || q r := by
  have hrow : ∀ r : TaskRow, (r.softDelete p s.now).softDelete q s.now =
      r.softDelete (fun r => p r || q r) s.now := by
    intro r
    cases hp : p r with
    | true =>
      have hdone : q { r with deletedAt := some s.now } = false := by
        rw [← Bool.not_eq_true]
        intro h
        cases hq _ h
      simp [TaskRow.softDelete, hp, hdone]
    | false => simp [TaskRow.softDelete, hp]
  simp only [Store.softDelete, Table.map, List.map_map]
  congr 2
  exact List.map_congr_left fun r _ => hrow r

/-- The rows the two statements select. -/
def doomed (orgId taskId : String) (subtasks : List String) (r : TaskRow) : Bool :=
  r.id ∈ subtasks ∨ r.id = taskId ∧ r.orgId = orgId ∧ r.deletedAt = none

/-- The two UPDATEs together delete what is doomed. -/
theorem deleteRoot_softDelete (subtasks : List String) :
    (s.softDelete s.now fun r => r.id ∈ subtasks).deleteRoot orgId taskId =
      s.softDelete s.now (doomed orgId taskId subtasks) := by
  have hlive : ∀ r : TaskRow, decide (r.id = taskId ∧ r.orgId = orgId ∧ r.deletedAt = none) = true →
      r.deletedAt = none := fun r hr => (of_decide_eq_true hr).2.2
  refine (softDelete_softDelete hlive).trans ?_
  congr 1
  funext r
  rw [doomed, Bool.decide_or]

theorem doomed_iff {subtasks : List String} (hr : r ∈ s.tasks.rows)
    (h : r.id ∈ subtasks ↔ s.Hangs orgId taskId r) :
    doomed orgId taskId subtasks r = true ↔ s.Doomed orgId taskId r := by
  rw [doomed, decide_eq_true_eq, h, Store.Doomed, Store.Live]
  tauto

/-- What the steps of the transaction leave, once the query has its answer. -/
theorem cascade_eq {o : Outcomes} {subtasks : List String} {n : ℕ}
    (h : unionAll (s.joined orgId) n (s.children orgId [taskId]) = some subtasks) :
    s.cascade orgId taskId o n =
      some (if o.Done then s.softDelete s.now (doomed orgId taskId subtasks) else s,
        decide (o.Done ∧ o.commit.answered = true)) := by
  rw [Store.cascade, Store.deleteSubtasks, h, Option.map_some, Option.map_some]
  by_cases hbefore :
      ¬ o.connect.answered = true ∨ ¬ o.start.answered = true ∨ ¬ o.subtasks.answered = true
  · have hdone : ¬ o.Done := by
      rintro ⟨hconnect, hstart, hsubtasks, -⟩
      simp [hconnect, hstart, hsubtasks] at hbefore
    rw [if_pos hbefore, if_neg hdone]
    simp [hdone]
  · rw [if_neg hbefore]
    simp only [not_or, not_not] at hbefore
    obtain ⟨hconnect, hstart, hsubtasks⟩ := hbefore
    cases hroot : o.root.answered with
    | false => simp [Outcomes.Done, hroot]
    | true =>
      have hdone : o.Done ↔ o.commit.took = true := by
        simp [Outcomes.Done, hconnect, hstart, hsubtasks, hroot]
      rw [deleteRoot_softDelete]
      cases hcommit : o.commit <;> simp [hdone, hcommit, Outcome.took, Outcome.answered]

/-- **`cascadeSoftDelete` deletes the task and what hangs from it, all or nothing.**  Where tasks
are not below themselves it comes to an end; when everything was done, the live rows that are the
task or hang from it have the transaction's time in `deleted_at` and nothing else has changed;
when a step failed, nothing has. -/
theorem cascade_exact (h : Acyclic s.Parent) (orgId taskId : String) (o : Outcomes) :
    ∃ s' returned, (∀ n ≥ s.tasks.rows.length,
        s.cascade orgId taskId o n = some (s', returned)) ∧
      (o.Done → ∃ select, s' = s.softDelete s.now select ∧
        ∀ r ∈ s.tasks.rows, select r = true ↔ s.Doomed orgId taskId r) ∧
      (¬ o.Done → s' = s) ∧ (returned = true → o.Done) := by
  obtain ⟨subtasks, hquery, hhangs⟩ := exists_subtasks h orgId taskId
  refine ⟨_, _, fun n hn => cascade_eq (hquery n hn), fun hdone => ?_, fun hdone => if_neg hdone,
    fun hreturned => (of_decide_eq_true hreturned).1⟩
  refine ⟨doomed orgId taskId subtasks, if_pos hdone, fun r hr => ?_⟩
  exact doomed_iff hr (hhangs r hr)

end

def clanTask (id : String) (parentTaskId : Option String) (depth : ℕ) (deletedAt : Option ℕ) :
    TaskRow :=
  { demoTask with id, parentTaskId, depth, deletedAt }

/-- The task `t` with a child and a grandchild, and a live task `e` below a deleted child `x`. -/
def clan : Store :=
  { demoStore with
    now := 9
    tasks := ⟨[clanTask "t" none 0 none, clanTask "c" (some "t") 1 none,
      clanTask "d" (some "c") 2 none, clanTask "x" (some "t") 1 (some 3),
      clanTask "e" (some "x") 2 none], by decide⟩ }

theorem clan_acyclic : Acyclic clan.Parent := by
  have hdeeper : ∀ r ∈ clan.tasks.rows, ∀ parentTaskId ∈ r.parentTaskId,
      ∀ parent ∈ clan.tasks.find parentTaskId, parent.depth < r.depth := by decide
  refine acyclic_of_rank (· ∈ clan.tasks.rows) TaskRow.depth ?_ ?_
  · rintro r parent ⟨parentTaskId, -, hfind⟩
    exact (Table.find_eq_some.mp hfind).1
  · rintro r parent hr ⟨parentTaskId, hparent, hfind⟩
    exact hdeeper r hr parentTaskId hparent parent hfind

/-- `e` stays live, `x` keeps its time; and nothing is deleted where the second UPDATE fails. -/
theorem cascade_exact_clan :
    (∃ s', clan.cascade "o" "t" ⟨.ok, .ok, .ok, .ok, .ok⟩ 5 = some (s', true) ∧
      s'.tasks.rows.map (fun r => (r.id, r.deletedAt)) =
        [("t", some 9), ("c", some 9), ("d", some 9), ("x", some 3), ("e", none)]) ∧
    clan.cascade "o" "t" ⟨.ok, .ok, .ok, .failed, .ok⟩ 5 = some (clan, false) := by
  constructor
  · obtain ⟨s', returned, hcascade, -⟩ :=
      cascade_exact clan_acyclic "o" "t" ⟨.ok, .ok, .ok, .ok, .ok⟩
    have hrun := hcascade 5 le_rfl
    have hrows : (clan.cascade "o" "t" ⟨.ok, .ok, .ok, .ok, .ok⟩ 5).map (fun x =>
        (x.1.tasks.rows.map fun r => (r.id, r.deletedAt), x.2)) =
        some ([("t", some 9), ("c", some 9), ("d", some 9), ("x", some 3), ("e", none)], true) := by
      decide
    rw [hrun] at hrows
    obtain ⟨hrows, rfl⟩ := Prod.mk.inj (Option.some.inj hrows)
    exact ⟨s', hrun, hrows⟩
  · obtain ⟨s', returned, hcascade, -, hsame, hreturned⟩ :=
      cascade_exact clan_acyclic "o" "t" ⟨.ok, .ok, .ok, .failed, .ok⟩
    obtain rfl := hsame (by decide)
    cases returned with
    | false => exact hcascade 5 le_rfl
    | true => exact absurd (hreturned rfl) (by decide)

section

variable {s : Store} {orgId taskId : String}

/-! ## In the forest of tasks -/

/-- The tasks of every run are a forest: a task is deeper than its parent. -/
theorem acyclic_of_forest (h : s.Forest) : Acyclic s.Parent := by
  obtain ⟨hrooted, -⟩ := Store.forest_iff.mp h
  refine acyclic_of_rank (· ∈ s.tasks.rows) TaskRow.depth ?_ ?_
  · rintro r parent ⟨parentTaskId, -, hfind⟩
    exact (Table.find_eq_some.mp hfind).1
  · rintro r parent hr ⟨parentTaskId, hparent, hfind⟩
    obtain ⟨b, hb, -, hdeeper⟩ := (hrooted r hr).of_parent hparent
    obtain rfl := Option.some.inj (hfind.symm.trans hb)
    omega

/-- The generations that are counted are those the query goes through. -/
theorem mem_subtasks_iff {n : ℕ} {parents xs res : List String}
    (hxs : ∀ x, x ∈ xs ↔ x ∈ s.children orgId parents)
    (h : unionAll (s.joined orgId) n xs = some res) (x : String) :
    x ∈ s.subtasks orgId n parents ↔ x ∈ res := by
  induction n generalizing parents xs res with
  | zero =>
    cases xs with
    | nil =>
      obtain rfl : [] = res := by simpa using h
      rfl
    | cons a as => cases h
  | succ n ih =>
    rw [Store.subtasks_succ, List.mem_append, ← hxs]
    have hnext : ∀ y, y ∈ s.joined orgId xs ↔ y ∈ s.children orgId (s.children orgId parents) := by
      intro y
      have hunder : y ∈ s.children orgId (s.children orgId parents) ↔
          ∃ p ∈ s.children orgId parents, s.Under orgId p y := mem_children_iff
      simp only [generates_joined s orgId xs y, hunder, hxs]
    cases xs with
    | nil =>
      obtain rfl : [] = res := by simpa using h
      rw [ih hnext (unionAll_nil _ n)]
      simp
    | cons a as =>
      rw [unionAll] at h
      obtain ⟨rest, hrest, rfl⟩ := Option.map_eq_some_iff.mp h
      rw [ih hnext hrest, List.mem_append]

/-- **The transaction that goes through is the `cascadeSoftDelete` of `deleteTask`.** -/
theorem cascadeSoftDelete_eq (h : Acyclic s.Parent) (orgId taskId : String) :
    s.cascade orgId taskId ⟨.ok, .ok, .ok, .ok, .ok⟩ s.tasks.rows.length =
      some (s.cascadeSoftDelete orgId taskId, true) := by
  obtain ⟨subtasks, hquery, -⟩ := exists_subtasks h orgId taskId
  have hmem := mem_subtasks_iff (fun _ => Iff.rfl) (hquery _ le_rfl)
  have hdone : Outcomes.Done ⟨.ok, .ok, .ok, .ok, .ok⟩ := by decide
  rw [cascade_eq (hquery _ le_rfl), if_pos hdone, Store.cascadeSoftDelete]
  simp only [hmem, hdone, Outcome.answered, and_self, decide_true]
  rfl

end

end WorkPlatform.Task

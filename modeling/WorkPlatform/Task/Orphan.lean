import Mathlib.Logic.Relation
import WorkPlatform.Task.Forest

/-!
# Task/Orphan — live tasks below deleted ones

    deleteTask        the task and everything live below it
    bulkDelete        the tasks that are named
    deleteWorkspace   the tasks of the workspace

Only `deleteTask` follows the parents; since the parents are a forest it finds everything there is
below (`covers_cascade`).  The other two leave the subtasks they do not select
(`bulkDelete_leaves_subtask`), and `createTask` inserts under a parent that may be deleted since it
was read, or is being deleted by a transaction that has not committed.

A run is `Tidy` where the other two select the live subtasks of what they select, and a new task's
parent is neither deleted nor being deleted when it is inserted.  Then what a transaction is about
to commit covers the live tasks below it (`Covers`), and no live task is ever below a deleted one
(`ancestors_live`).
-/

namespace WorkPlatform.Task

open Machinery

namespace Store

/-- The parent of a task. -/
def Parent (s : Store) (r parent : TaskRow) : Prop :=
  ∃ parentTaskId, r.parentTaskId = some parentTaskId ∧ s.tasks.find parentTaskId = some parent

/-- A task on the chain of parents of another. -/
def Ancestor (s : Store) : TaskRow → TaskRow → Prop := Relation.TransGen s.Parent

/-- **No live task is below a deleted one.** -/
def Sheltered (s : Store) : Prop :=
  ∀ r ∈ s.tasks.rows, r.deletedAt = none → ∀ ancestor, s.Ancestor r ancestor →
    ancestor.deletedAt = none

/-- The same, of the parents only. -/
def ParentsLive (s : Store) : Prop :=
  ∀ r ∈ s.tasks.rows, r.deletedAt = none → ∀ parent, s.Parent r parent → parent.deletedAt = none

/-- With a row the rows below it that are live are selected. -/
def closed (s : Store) (select : TaskRow → Bool) : Bool :=
  s.tasks.rows.all fun r =>
    (r.deletedAt = none ∧ (r.parentTaskId.bind s.tasks.find).any select) → select r

/-- One generation of the recursive query. -/
def children (s : Store) (orgId : String) (parents : List String) : List String :=
  (s.tasks.rows.filter fun r =>
    r.orgId = orgId ∧ r.deletedAt = none ∧ r.parentTaskId.any (· ∈ parents)).map (·.id)

theorem subtasks_succ (s : Store) (orgId : String) (n : ℕ) (parents : List String) :
    s.subtasks orgId (n + 1) parents
      = s.children orgId parents ++ s.subtasks orgId n (s.children orgId parents) := rfl

end Store

/-- The live tasks below the named ones are named. -/
def Store.Covers (s : Store) (taskIds : List String) : Prop :=
  ∀ r ∈ s.tasks.rows, r.deletedAt = none →
    ∀ parentTaskId ∈ taskIds, r.parentTaskId = some parentTaskId → r.id ∈ taskIds

namespace Op

/-- The tasks a transaction in progress has deleted, and the one it is about to delete. -/
def deleting : Op → List String
  | .edit (.deleteTask _ taskId _ (.root _ below)) => taskId :: below
  | .edit (.deleteTask _ _ _ (.commit _ taskIds)) => taskIds
  | .deleteWorkspace _ _ _ (.commit _ taskIds) => taskIds
  | _ => []

/-- What is deleted without a look at the parents is closed, and the parent of a new task is
live. -/
def tidy (s : Store) : Op → Bool
  | .createTask a (.insert _) =>
    a.input.parentTaskId.all fun parentTaskId =>
      (s.tasks.find parentTaskId).all fun parent => parent.deletedAt = none
  | .edit (.bulkDelete orgId _ taskIds .update) =>
    s.closed fun r => r.orgId = orgId ∧ r.id ∈ taskIds ∧ r.deletedAt = none
  | .deleteWorkspace orgId workspaceId _ .cascade => s.closed (·.inWorkspace orgId workspaceId)
  | _ => true

/-- A new task is not below one that the other operation is deleting. -/
def clear : Op → Op → Bool
  | .createTask a (.insert _), k => a.input.parentTaskId.all fun parentTaskId =>
      parentTaskId ∉ k.deleting
  | _, _ => true

/-- The task that is to be deleted is one of the organisation. -/
def Known (s : Store) : Op → Prop
  | .edit (.deleteTask orgId taskId _ (.membership _))
  | .edit (.deleteTask orgId taskId _ .cascade)
  | .edit (.deleteTask orgId taskId _ (.root _ _)) =>
    ∃ r, s.tasks.find taskId = some r ∧ r.orgId = orgId
  | _ => True

end Op

section Steps

variable {cfg : Config} {s s' : Store} {uuid : String} {c c' k : Op} {r parent : TaskRow}

/-! ## Parents and ancestors -/

/-- It is enough to look at the parents. -/
theorem sheltered_iff : s.Sheltered ↔ s.ParentsLive := by
  constructor
  · intro h r hr hlive parent hparent
    exact h r hr hlive parent (.single hparent)
  · intro h r hr hlive ancestor hancestor
    induction hancestor with
    | single hparent => exact h r hr hlive _ hparent
    | tail _ hparent ih =>
      rename_i b a hchain
      have hmem : b ∈ s.tasks.rows := by
        cases hchain with
        | single hb => exact (Table.find_eq_some.mp hb.choose_spec.2).1
        | tail _ hb => exact (Table.find_eq_some.mp hb.choose_spec.2).1
      exact h b hmem ih a hparent

/-! ## What the recursive query finds -/

theorem mem_children {orgId : String} {parents : List String} (hr : r ∈ s.tasks.rows)
    (horg : r.orgId = orgId) (hlive : r.deletedAt = none) {parentTaskId : String}
    (hparent : r.parentTaskId = some parentTaskId) (hmem : parentTaskId ∈ parents) :
    r.id ∈ s.children orgId parents := by
  refine List.mem_map_of_mem (List.mem_filter.mpr ⟨hr, decide_eq_true ⟨horg, hlive, ?_⟩⟩)
  rw [hparent, Option.any_some]
  exact decide_eq_true hmem

/-- A row that is found is of the organisation, and has its parent among the parents. -/
theorem of_mem_children {orgId : String} {parents : List String} (hr : r ∈ s.tasks.rows)
    (h : r.id ∈ s.children orgId parents) :
    r.orgId = orgId ∧ ∃ parentTaskId ∈ parents, r.parentTaskId = some parentTaskId := by
  obtain ⟨r', hr', hid⟩ := List.mem_map.mp h
  obtain ⟨hmem, hrow⟩ := List.mem_filter.mp hr'
  obtain rfl := List.inj_on_of_nodup_map s.tasks.keys_nodup hmem hr hid
  obtain ⟨horg, -, hparent⟩ := of_decide_eq_true hrow
  obtain ⟨parentTaskId, hparentTaskId, hin⟩ := (Option.any_eq_true _ _).mp hparent
  exact ⟨horg, parentTaskId, of_decide_eq_true hin, hparentTaskId⟩

theorem orgId_of_mem_subtasks {orgId : String} (hr : r ∈ s.tasks.rows) :
    ∀ {n : ℕ} {parents : List String}, r.id ∈ s.subtasks orgId n parents → r.orgId = orgId
  | 0, _, h => by cases h
  | n + 1, parents, h => by
      rw [Store.subtasks_succ] at h
      rcases List.mem_append.mp h with h | h
      · exact (of_mem_children hr h).1
      · exact orgId_of_mem_subtasks hr h

/-- The children of what is found in `n` generations are found in one more. -/
theorem mem_subtasks_succ {orgId : String} (hr : r ∈ s.tasks.rows) (horg : r.orgId = orgId)
    (hlive : r.deletedAt = none) {parentTaskId : String}
    (hparent : r.parentTaskId = some parentTaskId) :
    ∀ {n : ℕ} {parents : List String}, parentTaskId ∈ s.subtasks orgId n parents →
      r.id ∈ s.subtasks orgId (n + 1) parents
  | 0, _, h => by cases h
  | n + 1, parents, h => by
      rw [Store.subtasks_succ] at h ⊢
      refine List.mem_append_right _ ?_
      rcases List.mem_append.mp h with h | h
      · rw [Store.subtasks_succ]
        exact List.mem_append_left _ (mem_children hr horg hlive hparent h)
      · exact mem_subtasks_succ hr horg hlive hparent h

/-- Children are deeper than their parents. -/
theorem depth_lt_of_mem_children
    (hrooted : s.tasks.Rooted TaskRow.parentTaskId TaskRow.orgId TaskRow.depth) {orgId : String}
    {d : ℕ} {parents : List String}
    (hd : ∀ id ∈ parents, ∀ b, s.tasks.find id = some b → d ≤ b.depth) (hr : r ∈ s.tasks.rows)
    (h : r.id ∈ s.children orgId parents) : d + 1 ≤ r.depth := by
  obtain ⟨-, parentTaskId, hin, hparent⟩ := of_mem_children hr h
  obtain ⟨b, hb, -, hdeeper⟩ := (hrooted r hr).of_parent hparent
  rw [hdeeper]
  exact Nat.succ_le_succ (hd parentTaskId hin b hb)

/-- A row is found in as many generations as it is deeper than where the query starts. -/
theorem mem_subtasks_of_depth
    (hrooted : s.tasks.Rooted TaskRow.parentTaskId TaskRow.orgId TaskRow.depth) {orgId : String}
    (hr : r ∈ s.tasks.rows) :
    ∀ {n m d : ℕ} {parents : List String},
      (∀ id ∈ parents, ∀ b, s.tasks.find id = some b → d ≤ b.depth) →
      r.id ∈ s.subtasks orgId n parents → r.depth ≤ d + m → r.id ∈ s.subtasks orgId m parents
  | 0, _, _, _, _, h, _ => by cases h
  | n + 1, m, d, parents, hd, h, hdepth => by
      have hlow : ∀ id ∈ s.children orgId parents, ∀ b, s.tasks.find id = some b →
          d + 1 ≤ b.depth := by
        intro id hid b hb
        obtain ⟨hmem, rfl⟩ := Table.find_eq_some.mp hb
        exact depth_lt_of_mem_children hrooted hd hmem hid
      rw [Store.subtasks_succ] at h
      rcases List.mem_append.mp h with h | h
      · have hdeep := depth_lt_of_mem_children hrooted hd hr h
        obtain ⟨m, rfl⟩ : ∃ m', m = m' + 1 := ⟨m - 1, by omega⟩
        exact List.mem_append_left _ h
      · cases m with
        | zero =>
          have hnone := mem_subtasks_of_depth hrooted hr (m := 0) hlow h (by omega)
          cases hnone
        | succ m =>
          exact List.mem_append_right _ (mem_subtasks_of_depth hrooted hr hlow h (by omega))

/-- **The cascade is closed**: as many generations as there are rows are enough. -/
theorem closed_subtasks
    (hrooted : s.tasks.Rooted TaskRow.parentTaskId TaskRow.orgId TaskRow.depth) {orgId : String}
    {roots : List String} (hr : r ∈ s.tasks.rows) (horg : r.orgId = orgId)
    (hlive : r.deletedAt = none) {parentTaskId : String}
    (hparent : r.parentTaskId = some parentTaskId)
    (h : parentTaskId ∈ s.subtasks orgId s.tasks.rows.length roots) :
    r.id ∈ s.subtasks orgId s.tasks.rows.length roots := by
  refine mem_subtasks_of_depth hrooted hr (d := 0) (fun _ _ _ _ => Nat.zero_le _)
    (mem_subtasks_succ hr horg hlive hparent h) ?_
  have := hrooted.depth_lt hr
  omega

/-! ## Deleting -/

/-- A selection is closed where it takes the live children of what it takes. -/
theorem closed_iff {select : TaskRow → Bool} : s.closed select = true ↔
    ∀ r ∈ s.tasks.rows, r.deletedAt = none → ∀ parent, s.Parent r parent →
      select parent = true → select r = true := by
  unfold Store.closed
  rw [List.all_eq_true]
  constructor
  · rintro h r hr hlive parent ⟨parentTaskId, hparent, hfind⟩ hselect
    refine of_decide_eq_true (h r hr) ⟨hlive, ?_⟩
    rw [hparent, Option.bind_some, hfind, Option.any_some]
    exact hselect
  · rintro h r hr
    refine decide_eq_true ?_
    rintro ⟨hlive, hany⟩
    obtain ⟨parent, hparent, hselect⟩ := (Option.any_eq_true _ _).mp hany
    obtain ⟨parentTaskId, hparentTaskId, hfind⟩ := Option.bind_eq_some_iff.mp hparent
    exact h r hr hlive parent ⟨parentTaskId, hparentTaskId, hfind⟩ hselect

/-- What is closed covers what is below it. -/
theorem covers_of_closed {select : TaskRow → Bool} (h : s.closed select = true) :
    s.Covers ((s.tasks.rows.filter select).map (·.id)) := by
  intro r hr hlive parentTaskId hin hparent
  obtain ⟨parent, hmem, rfl⟩ := List.mem_map.mp hin
  obtain ⟨hparentMem, hselect⟩ := List.mem_filter.mp hmem
  have hbelow : s.Parent r parent := ⟨parent.id, hparent, Table.find_key hparentMem⟩
  have hrow := closed_iff.mp h r hr hlive parent hbelow hselect
  exact List.mem_map_of_mem (List.mem_filter.mpr ⟨hr, hrow⟩)

/-- And what covers is closed. -/
theorem closed_of_covers {taskIds : List String} (h : s.Covers taskIds) :
    s.closed (fun r => r.id ∈ taskIds) = true := by
  rw [closed_iff]
  rintro r hr hlive parent ⟨parentTaskId, hparent, hfind⟩ hin
  obtain ⟨-, rfl⟩ := Table.find_eq_some.mp hfind
  exact decide_eq_true (h r hr hlive parent.id (of_decide_eq_true hin) hparent)

/-- **The first UPDATE of `deleteTask` finds everything below**, as the parents are a forest. -/
theorem covers_cascade (hforest : s.Forest) {orgId taskId : String} {root : TaskRow}
    (hroot : s.tasks.find taskId = some root) (horg : root.orgId = orgId) :
    s.Covers (taskId :: s.subtasks orgId s.tasks.rows.length [taskId]) := by
  obtain ⟨hrooted, -⟩ := Store.forest_iff.mp hforest
  intro r hr hlive parentTaskId hin hparent
  obtain ⟨b, hb, hbOrg, -⟩ := (hrooted r hr).of_parent hparent
  refine List.mem_cons_of_mem taskId ?_
  rcases List.mem_cons.mp hin with rfl | hbelow
  · obtain rfl := Option.some.inj (hroot.symm.trans hb)
    obtain ⟨n, hn⟩ : ∃ n, s.tasks.rows.length = n + 1 :=
      Nat.exists_eq_succ_of_ne_zero (List.length_pos_of_mem hr).ne'
    rw [hn, Store.subtasks_succ]
    exact List.mem_append_left _
      (mem_children hr (hbOrg.symm.trans horg) hlive hparent (List.mem_singleton_self _))
  · obtain ⟨hbMem, rfl⟩ := Table.find_eq_some.mp hb
    have hparentOrg := orgId_of_mem_subtasks hbMem hbelow
    exact closed_subtasks hrooted hr (hbOrg.symm.trans hparentOrg) hlive hparent hbelow

/-- The second UPDATE passes over a task that is deleted already. -/
theorem covers_withRoot {orgId taskId : String} {below : List String} {root : TaskRow}
    (hroot : s.tasks.find taskId = some root) (horg : root.orgId = orgId)
    (h : s.Covers (taskId :: below)) : s.Covers (s.withRoot orgId taskId below) := by
  unfold Store.withRoot
  rw [hroot, Option.any_some]
  split
  case isTrue => exact h
  case isFalse hgone =>
    intro r hr hlive parentTaskId hin hparent
    have hmem := h r hr hlive parentTaskId (List.mem_cons_of_mem taskId hin) hparent
    rcases List.mem_cons.mp hmem with rfl | hbelow
    · obtain rfl := Option.some.inj ((Table.find_key hr).symm.trans hroot)
      exact absurd (decide_eq_true ⟨horg, hlive⟩) hgone
    · exact hbelow

theorem softDelete_live {select : TaskRow → Bool} {now : ℕ} :
    (r.softDelete select now).deletedAt = none ↔ select r = false ∧ r.deletedAt = none := by
  unfold TaskRow.softDelete
  split <;> simp_all

/-! ## One statement -/

/-- An update that deletes no parent of a live task keeps the parents live. -/
theorem parentsLive_map {f : TaskRow → TaskRow} (hf : ∀ r, (f r).id = r.id)
    (hplace : ∀ r, (f r).parentTaskId = r.parentTaskId)
    (hlive : ∀ r ∈ s.tasks.rows, (f r).deletedAt = none → r.deletedAt = none
      ∧ ∀ parent, s.Parent r parent → parent.deletedAt = none → (f parent).deletedAt = none)
    (h : s'.tasks = s.tasks.map f hf) (hs : s.ParentsLive) : s'.ParentsLive := by
  rintro r' hr' hlive' parent' ⟨parentTaskId, hparent, hfind⟩
  rw [h] at hr' hfind
  obtain ⟨r, hr, rfl⟩ := List.mem_map.mp hr'
  rw [Table.find_map] at hfind
  obtain ⟨parent, hfound, rfl⟩ := Option.map_eq_some_iff.mp hfind
  have hbelow : s.Parent r parent := ⟨parentTaskId, (hplace r).symm.trans hparent, hfound⟩
  obtain ⟨hrlive, hkept⟩ := hlive r hr hlive'
  exact hkept parent hbelow (hs r hr hrlive parent hbelow)

/-- An UPDATE that leaves `deleted_at` alone. -/
theorem parentsLive_edit {f : TaskRow → TaskRow} (hf : ∀ r, (f r).id = r.id)
    (hplace : ∀ r, (f r).parentTaskId = r.parentTaskId)
    (hdeleted : ∀ r, (f r).deletedAt = r.deletedAt) (h : s'.tasks = s.tasks.map f hf)
    (hs : s.ParentsLive) : s'.ParentsLive := by
  refine parentsLive_map hf hplace (fun r _ hlive => ?_) h hs
  rw [hdeleted] at hlive
  refine ⟨hlive, fun parent _ hparent => ?_⟩
  rw [hdeleted]
  exact hparent

/-- A new row whose parent is live. -/
theorem parentsLive_insert (hnew : r.deletedAt = none)
    (hparent : ∀ parent, s.Parent r parent → parent.deletedAt = none)
    (h : s.tasks.insert r = some s'.tasks) (hs : s.ParentsLive) : s'.ParentsLive := by
  rintro x hx hlive parent ⟨parentTaskId, hparentTaskId, hfind⟩
  rw [Table.find_insert h] at hfind
  rw [(Table.insert_eq_some h).2] at hx
  split at hfind
  · obtain rfl := Option.some.inj hfind
    exact hnew
  · rcases List.mem_cons.mp hx with rfl | hx
    · exact hparent parent ⟨parentTaskId, hparentTaskId, hfind⟩
    · exact hs x hx hlive parent ⟨parentTaskId, hparentTaskId, hfind⟩

/-- **A live row was there**, in its place and live, or it is new: below the parent a call has read,
or below none. -/
theorem live_next (hnext : c.next cfg s uuid = some (s', c')) (hr : r ∈ s'.tasks.rows)
    (hlive : r.deletedAt = none) :
    (∃ r₀ ∈ s.tasks.rows, r₀.id = r.id ∧ r₀.parentTaskId = r.parentTaskId ∧ r₀.deletedAt = none)
      ∨ (∃ a depth, c = .createTask a (.insert depth) ∧ r = a.row depth uuid)
      ∨ r.parentTaskId = none := by
  cases wrote_next hnext with
  | same h => exact Or.inl ⟨r, by rwa [← h], rfl, rfl, hlive⟩
  | @patched a _ _ _ _ _ h =>
    rw [h] at hr
    obtain ⟨r₀, hr₀, rfl⟩ := List.mem_map.mp hr
    refine Or.inl ⟨r₀, hr₀, ?_⟩
    split at hlive <;> rename_i hid
    · rw [if_pos hid]
      exact ⟨rfl, rfl, hlive⟩
    · rw [if_neg hid]
      exact ⟨rfl, rfl, hlive⟩
  | @restated orgId _ taskIds status _ h =>
    rw [h] at hr
    obtain ⟨r₀, hr₀, rfl⟩ := List.mem_map.mp hr
    refine Or.inl ⟨r₀, hr₀, ?_⟩
    unfold TaskRow.bulkStatus at hlive ⊢
    split <;> simp_all
  | @deleted time select _ h =>
    rw [h] at hr
    obtain ⟨r₀, hr₀, rfl⟩ := List.mem_map.mp hr
    exact Or.inl ⟨r₀, hr₀, (TaskRow.softDelete_id select time r₀).symm,
      (place_eq (place_softDelete select time r₀)).2.2.1.symm, (softDelete_live.mp hlive).2⟩
  | @created a depth hc _ h =>
    rw [(Table.insert_eq_some h).2] at hr
    rcases List.mem_cons.mp hr with rfl | hr
    · exact Or.inr (Or.inl ⟨a, depth, hc, rfl⟩)
    · exact Or.inl ⟨r, hr, rfl, rfl, hlive⟩
  | spawned _ _ h =>
    rw [(Table.insert_eq_some h).2] at hr
    rcases List.mem_cons.mp hr with rfl | hr
    · exact Or.inr (Or.inr rfl)
    · exact Or.inl ⟨r, hr, rfl, rfl, hlive⟩

/-! ## What a transaction is about to commit -/

/-- What another call does leaves it covered. -/
theorem covers_next (hnext : c.next cfg s uuid = some (s', c')) (hclear : c.clear k = true)
    (h : s.Covers k.deleting) : s'.Covers k.deleting := by
  intro r hr hlive parentTaskId hin hparent
  rcases live_next hnext hr hlive with ⟨r₀, hr₀, hid, hplace, hlive₀⟩ | ⟨a, depth, rfl, rfl⟩ | hnone
  · rw [← hid]
    exact h r₀ hr₀ hlive₀ parentTaskId hin (hplace.trans hparent)
  · have hall : (a.input.parentTaskId.all fun parentTaskId =>
      decide (parentTaskId ∉ k.deleting)) = true := hclear
    rw [show a.input.parentTaskId = some parentTaskId from hparent, Option.all_some] at hall
    exact absurd hin (of_decide_eq_true hall)
  · rw [hnone] at hparent
    cases hparent

theorem covers_nil : s.Covers [] := fun _ _ _ _ hin => absurd hin List.not_mem_nil

/-- What the call itself does next is covered. -/
theorem covers_own (hnext : c.next cfg s uuid = some (s', c')) (hforest : s.Forest)
    (htidy : c.tidy s = true) (hknown : c.Known s) (h : s.Covers c.deleting) :
    s'.Covers c'.deleting := by
  cases c with
  | createTask a pc =>
    obtain ⟨_, -, rfl⟩ := pc_of_next hnext
    exact covers_nil
  | recurring job pc =>
    obtain ⟨_, -, rfl⟩ := pc_of_next hnext
    exact covers_nil
  | deleteWorkspace orgId workspaceId actorId pc =>
    obtain ⟨pc', hpc, rfl⟩ := pc_of_next hnext
    cases pc with
    | cascade =>
      obtain ⟨rfl, rfl⟩ := Prod.mk.inj (Option.some.inj hpc)
      exact covers_of_closed htidy
    | find =>
      obtain ⟨rfl, rfl⟩ := Prod.mk.inj (Option.some.inj hpc)
      split
      · exact covers_nil
      · split <;> exact covers_nil
    | commit startedAt taskIds | outbox | audit =>
      obtain ⟨rfl, rfl⟩ := Prod.mk.inj (Option.some.inj hpc)
      exact covers_nil
    | returned | threw e => cases hpc
  | edit c =>
    obtain ⟨c', hc, rfl⟩ := pc_of_next hnext
    cases c with
    | deleteTask orgId taskId userId pc =>
      obtain ⟨pc', hpc, rfl⟩ := pc_of_next hc
      cases pc with
      | cascade =>
        obtain ⟨rfl, rfl⟩ := Prod.mk.inj (Option.some.inj hpc)
        obtain ⟨root, hroot, horg⟩ := hknown
        exact covers_cascade hforest hroot horg
      | root startedAt below =>
        obtain ⟨rfl, rfl⟩ := Prod.mk.inj (Option.some.inj hpc)
        obtain ⟨root, hroot, horg⟩ := hknown
        exact covers_withRoot hroot horg h
      | find =>
        obtain ⟨rfl, rfl⟩ := Prod.mk.inj (Option.some.inj hpc)
        split
        · exact covers_nil
        · split <;> exact covers_nil
      | membership existing =>
        obtain ⟨rfl, rfl⟩ := Prod.mk.inj (Option.some.inj hpc)
        split <;> exact covers_nil
      | commit startedAt taskIds | outbox | audit =>
        obtain ⟨rfl, rfl⟩ := Prod.mk.inj (Option.some.inj hpc)
        exact covers_nil
      | returned | threw e => cases hpc
    | updateTask a pc | bulkUpdateStatus orgId userId taskIds status pc
    | bulkDelete orgId userId taskIds pc =>
      obtain ⟨_, -, rfl⟩ := pc_of_next hc
      exact covers_nil

theorem deleting_of_fresh (h : c.fresh) : c.deleting = [] := by
  unfold Op.deleting
  split
  case h_4 => rfl
  all_goals cases h

theorem known_of_fresh (h : c.fresh) : c.Known s := by
  unfold Op.Known
  split
  case h_4 => trivial
  all_goals cases h

/-- No row goes, so the task stays known. -/
theorem known_next (hnext : c.next cfg s uuid = some (s', c')) (h : k.Known s) : k.Known s' := by
  unfold Op.Known at h ⊢
  split
  case h_4 => trivial
  all_goals
    obtain ⟨root, hroot, horg⟩ := h
    obtain ⟨root', hroot', hplace⟩ := find_next hnext hroot
    exact ⟨root', hroot', (place_eq hplace).1.trans horg⟩

/-- A statement leaves its call with what it knows of the parent. -/
theorem known_own (hnext : c.next cfg s uuid = some (s', c')) (h : c.Known s) : c'.Known s' := by
  cases c with
  | createTask a pc =>
    obtain ⟨_, -, rfl⟩ := pc_of_next hnext
    trivial
  | recurring job pc =>
    obtain ⟨_, -, rfl⟩ := pc_of_next hnext
    trivial
  | deleteWorkspace orgId workspaceId actorId pc =>
    obtain ⟨_, -, rfl⟩ := pc_of_next hnext
    trivial
  | edit c =>
    obtain ⟨c', hc, rfl⟩ := pc_of_next hnext
    cases c with
    | deleteTask orgId taskId userId pc =>
      obtain ⟨pc', hpc, rfl⟩ := pc_of_next hc
      cases pc with
      | find =>
        obtain ⟨rfl, rfl⟩ := Prod.mk.inj (Option.some.inj hpc)
        split
        · trivial
        · rename_i existing hexisting
          split
          · trivial
          · rename_i horg
            exact ⟨existing, (Option.filter_eq_some_iff.mp hexisting).1, not_not.mp horg⟩
      | membership existing =>
        obtain ⟨rfl, rfl⟩ := Prod.mk.inj (Option.some.inj hpc)
        split
        · trivial
        · exact h
      | cascade =>
        obtain ⟨rfl, rfl⟩ := Prod.mk.inj (Option.some.inj hpc)
        exact h
      | root startedAt below | commit startedAt taskIds | outbox | audit =>
        obtain ⟨rfl, rfl⟩ := Prod.mk.inj (Option.some.inj hpc)
        trivial
      | returned | threw e => cases hpc
    | updateTask a pc | bulkUpdateStatus orgId userId taskIds status pc
    | bulkDelete orgId userId taskIds pc =>
      obtain ⟨_, -, rfl⟩ := pc_of_next hc
      trivial

/-- What is deleted is closed: by the condition, or since it was covered up to the COMMIT. -/
theorem closed_of_deletes {time : ℕ} {select : TaskRow → Bool} (htidy : c.tidy s = true)
    (hcovers : s.Covers c.deleting) (h : c.deletes s = some (time, select)) :
    s.closed select = true := by
  unfold Op.deletes at h
  split at h
  case h_4 => cases h
  case h_2 =>
    obtain ⟨-, rfl⟩ := Prod.mk.inj (Option.some.inj h)
    exact htidy
  all_goals
    obtain ⟨-, rfl⟩ := Prod.mk.inj (Option.some.inj h)
    exact closed_of_covers hcovers

/-- A statement leaves every live task under a live parent. -/
theorem parentsLive_next (hnext : c.next cfg s uuid = some (s', c')) (htidy : c.tidy s = true)
    (hcovers : s.Covers c.deleting) (hs : s.ParentsLive) : s'.ParentsLive := by
  cases wrote_next hnext with
  | same h =>
    exact parentsLive_edit (f := id) (fun _ => rfl) (fun _ => rfl) (fun _ => rfl)
      (h.trans Table.map_id.symm) hs
  | @patched a _ _ _ _ _ h =>
    refine parentsLive_edit (Table.key_ite (TaskRow.patch_id a.data s.now) a.taskId)
      (fun r => ?_) (fun r => ?_) h hs
    all_goals split <;> rfl
  | @restated orgId _ taskIds status _ h =>
    refine parentsLive_edit (TaskRow.bulkStatus_id orgId taskIds status s.now)
      (fun r => ?_) (fun r => ?_) h hs
    all_goals unfold TaskRow.bulkStatus; split <;> rfl
  | @deleted time select hselect h =>
    have hclosed := closed_iff.mp (closed_of_deletes htidy hcovers hselect)
    refine parentsLive_map (TaskRow.softDelete_id select time)
      (fun r => (place_eq (place_softDelete select time r)).2.2.1) (fun r hr hlive => ?_) h hs
    obtain ⟨hkept, hrlive⟩ := softDelete_live.mp hlive
    refine ⟨hrlive, fun parent hparent hparentLive => softDelete_live.mpr ⟨?_, hparentLive⟩⟩
    refine eq_false_of_ne_true fun hgone => ?_
    rw [hclosed r hr hrlive parent hparent hgone] at hkept
    cases hkept
  | @created a depth hc _ h =>
    subst hc
    refine parentsLive_insert rfl ?_ h hs
    rintro parent ⟨parentTaskId, hparent, hfind⟩
    have hall : (a.input.parentTaskId.all fun parentTaskId =>
      (s.tasks.find parentTaskId).all fun parent => decide (parent.deletedAt = none)) = true := htidy
    rw [show a.input.parentTaskId = some parentTaskId from hparent, Option.all_some, hfind] at hall
    exact of_decide_eq_true hall
  | spawned _ _ h =>
    refine parentsLive_insert rfl ?_ h hs
    rintro parent ⟨parentTaskId, hparent, -⟩
    cases hparent

end Steps

/-! ## Runs -/

section Runs

variable {ι : Type*}

/-- Every statement is tidy where it runs, and no task is inserted below one that is being
deleted. -/
def Tidy (p : Ops ι) : Move ι String Env → Prop
  | .run i _ => (p.calls i).Keeps fun c =>
      c.tidy p.store = true ∧ ∀ j, (p.calls j).Keeps fun k => c.clear k = true
  | _ => True

instance [Fintype ι] (p : Ops ι) : ∀ m : Move ι String Env, Decidable (Tidy p m)
  | .run i _ => inferInstanceAs (Decidable ((p.calls i).Keeps fun c =>
      c.tidy p.store = true ∧ ∀ j, (p.calls j).Keeps fun k => c.clear k = true))
  | .crash _ => inferInstanceAs (Decidable True)
  | .env _ => inferInstanceAs (Decidable True)

/-- What every state keeps; a transaction in progress is about to delete whole subtrees. -/
structure Tended (p : Ops ι) : Prop where
  parentsLive : p.store.ParentsLive
  known : ∀ i, (p.calls i).Keeps fun c => c.Known p.store
  covers : ∀ i, (p.calls i).Keeps fun c => p.store.Covers c.deleting

variable [DecidableEq ι] {cfg : Config} {p q : Ops ι}

/-- A tidy statement keeps it. -/
theorem Tended.run {i : ι} {uuid : String} {c c' : Op} {s' : Store} (h : Tended p)
    (hforest : p.store.Forest) (hG : Tidy p (.run i uuid)) (hc : p.calls i = .up c)
    (hnext : c.next cfg p.store uuid = some (s', c')) :
    Tended ⟨s', Function.update p.calls i (.up c')⟩ := by
  obtain ⟨htidy, hclear⟩ := Proc.Keeps.of_up hG hc
  have hcovers := (h.covers i).of_up hc
  have hknown := (h.known i).of_up hc
  refine ⟨parentsLive_next hnext htidy hcovers h.parentsLive,
    keeps_update_up (known_own hnext hknown) fun j _ => (h.known j).imp fun k => known_next hnext,
    keeps_update_up (covers_own hnext hforest htidy hknown hcovers) fun j _ => ?_⟩
  have hj := h.covers j
  cases hcall : p.calls j with
  | down k => trivial
  | up k => exact covers_next hnext ((hclear j).of_up hcall) (hj.of_up hcall)

omit [DecidableEq ι] in
/-- Before the first statement it holds. -/
theorem tended_of_fresh (hsheltered : p.store.Sheltered)
    (hstart : ∀ i, (p.calls i).Live fun c => c.fresh) : Tended p := by
  refine ⟨sheltered_iff.mp hsheltered, fun i => ?_, fun i => ?_⟩
  · obtain ⟨c, hc, hfresh⟩ := (hstart i).exists
    rw [hc]
    exact known_of_fresh hfresh
  · obtain ⟨c, hc, hfresh⟩ := (hstart i).exists
    rw [hc, Proc.keeps_up, deleting_of_fresh hfresh]
    exact covers_nil

/-- **No live task has a deleted ancestor**, in every run in which what is deleted without a look at
the parents is closed and no task is created under one that is deleted or being deleted. -/
theorem ancestors_live (hforest : p.store.Forest) (hsheltered : p.store.Sheltered)
    (hstart : ∀ i, (p.calls i).Live fun c => c.fresh)
    (h : Run (Pool.step (opMachine cfg)) Tidy p q) :
    ∀ r ∈ q.store.tasks.rows, r.deletedAt = none → ∀ ancestor, q.store.Ancestor r ancestor →
      ancestor.deletedAt = none := by
  refine sheltered_iff.mpr (Tended.parentsLive (Pool.invariant_along (I := Tended)
    (fun q hq => (forest_run hforest hstart hq).1) (tended_of_fresh hsheltered hstart) ?_ ?_ ?_ h))
  · intro p i uuid c s' c' hforest hs hG hc hnext
    exact hs.run hforest hG hc hnext
  · intro p i c hs _ _
    exact ⟨hs.parentsLive, keeps_update_down hs.known, keeps_update_down hs.covers⟩
  · rintro p (_ | _ | _) hs -
    all_goals exact ⟨hs.parentsLive, hs.known, hs.covers⟩

end Runs

/-! ## A task with a subtask -/

/-- An admin deletes the task with a bulk operation; another subtask is created; the task is
deleted. -/
def family : Ops (Fin 3) where
  store :=
    { demoStore with
      tasks := ⟨[demoSubtask.row 1 "c", demoTask], by decide⟩
      roles := fun _ userId => if userId = "admin" then some .orgAdmin else none }
  calls := ![.up (.edit (.bulkDelete "o" "admin" ["t"] .membership)),
    .up (.createTask demoSubtask demoSubtask.entry),
    .up (.edit (.deleteTask "o" "t" "u" .find))]

theorem family_forest : family.store.Forest := by
  have hroot : family.store.tasks.Chain TaskRow.parentTaskId TaskRow.orgId demoTask 0 := .root rfl
  intro r hr
  rcases List.mem_cons.mp hr with rfl | hr
  · have hfind : family.store.tasks.find "t" = some demoTask := by decide
    exact ⟨.child rfl hfind rfl hroot, by decide⟩
  · obtain rfl := List.mem_singleton.mp hr
    exact ⟨hroot, by decide⟩

theorem family_sheltered : family.store.Sheltered := by
  refine sheltered_iff.mpr ?_
  rintro r - - parent ⟨parentTaskId, -, hfind⟩
  have hlive : ∀ x ∈ family.store.tasks.rows, x.deletedAt = none := by decide
  exact hlive parent (Table.find_eq_some.mp hfind).1

/-- **The subtask stays**: the bulk operation deletes the task it names, and not what is below. -/
theorem bulkDelete_leaves_subtask :
    family.store.Forest ∧ family.store.Sheltered
      ∧ (∀ i, (family.calls i).Live fun c => c.fresh)
      ∧ ∃ q, Run (Pool.step (opMachine demoConfig)) anyStep family q
        ∧ ∃ r ∈ q.store.tasks.rows, r.deletedAt = none
          ∧ ∃ ancestor, q.store.Ancestor r ancestor ∧ ancestor.deletedAt ≠ none := by
  refine ⟨family_forest, family_sheltered, by decide, ?_⟩
  obtain ⟨q, hq, h⟩ := exists_run_of_exec (Pool.step (opMachine demoConfig)) anyStep family
    [.run 0 "", .run 0 ""]
    (fun q => (q.store.tasks.find "c").any (fun r => r.deletedAt = none ∧ r.parentTaskId = some "t")
      ∧ (q.store.tasks.find "t").any fun r => r.deletedAt ≠ none) (by decide)
  obtain ⟨hchild, hparent⟩ := of_decide_eq_true h
  obtain ⟨r, hr, h⟩ := (Option.any_eq_true _ _).mp hchild
  obtain ⟨hlive, hbelow⟩ := of_decide_eq_true h
  obtain ⟨parent, hfind, hdeleted⟩ := (Option.any_eq_true _ _).mp hparent
  exact ⟨q, hq, r, (Table.find_eq_some.mp hr).1, hlive, parent, .single ⟨"t", hbelow, hfind⟩,
    of_decide_eq_true hdeleted⟩

/-- The new subtask goes with the task. -/
theorem deleteTask_takes_subtasks :
    ∃ q, Run (Pool.step (opMachine demoConfig)) Tidy family q
      ∧ ((q.store.tasks.find "d").any fun r => r.deletedAt = some 0) = true
      ∧ ∀ r ∈ q.store.tasks.rows, r.deletedAt = none → ∀ ancestor, q.store.Ancestor r ancestor →
        ancestor.deletedAt = none := by
  obtain ⟨q, hq, h⟩ := exists_run_of_exec (Pool.step (opMachine demoConfig)) Tidy family
    [.run 1 "", .run 1 "d", .run 2 "", .run 2 "", .run 2 "", .run 2 "", .run 2 ""]
    (fun q => (q.store.tasks.find "d").any fun r => r.deletedAt = some 0) (by decide)
  exact ⟨q, hq, h, ancestors_live family_forest family_sheltered (by decide) hq⟩

end WorkPlatform.Task

import WorkPlatform.Realtime.Rooms
import WorkPlatform.Task.Reply

/-!
# Realtime/CommentEvents — where a new comment is announced

    createComment     entity_id = the comment
    broadcaster       org:o:task:⟨entity_id⟩
    task:subscribe    org:o:task:⟨the task⟩

The broadcaster takes the `entity_id` of `comment.created` for a task, and it is the comment.  The
event goes to the room of the task only if the two have the same id
(`announced_in_task_room_iff`).
-/

namespace WorkPlatform.Realtime

open Machinery
open WorkPlatform.Task (CommentArgs CommentRow CommentPc CommentCall CommentEvent CommentCalls
  commentMachine)

/-- The event as it is published, of which the payload of a mention names a user. -/
def published : CommentEvent → OutboxEvent
  | .commentCreated orgId commentId _ _ => ⟨orgId, .commentCreated, commentId, none, none⟩
  | .mentionCreated orgId commentId _ _ mentionedUserId _ =>
    ⟨orgId, .mentionCreated, commentId, none, some mentionedUserId⟩

theorem mem_broadcastRooms_commentCreated {orgId commentId authorId taskId : String} :
    taskRoom orgId taskId
        ∈ broadcastRooms (published (.commentCreated orgId commentId authorId taskId))
      ↔ commentId = taskId := by
  show taskRoom orgId taskId ∈ [taskRoom orgId commentId] ↔ _
  rw [List.mem_singleton, taskRoom_inj]
  exact eq_comm

/-- A call is about to announce the comment it has inserted. -/
def Announces : CommentCall → Prop
  | .createComment a (.outbox comment) => ∃ id, comment = a.row id
  | _ => True

section Statements

variable {tasks : Table Task.TaskRow.id} {s s' : Task.CommentStore} {uuid : String}
  {c c' : CommentCall}

theorem announces_mentioning (a : CommentArgs) (comment : CommentRow) (handles : List String) :
    Announces (.createComment a (.mentioning comment handles)) := by
  cases handles <;> exact trivial

/-- A call to the comments announces the comment it has written. -/
theorem announces_next (h : c.next tasks s uuid = some (s', c')) : Announces c' := by
  cases c with
  | createComment a pc =>
    obtain ⟨pc', hpc, rfl⟩ := pc_of_next h
    cases pc with
    | parent =>
      obtain ⟨-, rfl⟩ := Prod.mk.inj (Option.some.inj hpc)
      split
      · exact trivial
      · split <;> exact trivial
    | insert =>
      rw [Task.createCommentNext] at hpc
      split at hpc
      all_goals obtain ⟨-, rfl⟩ := Prod.mk.inj (Option.some.inj hpc)
      case h_1 => exact ⟨uuid, rfl⟩
      case h_2 => exact trivial
    | outbox | mentioned =>
      obtain ⟨-, rfl⟩ := Prod.mk.inj (Option.some.inj hpc)
      exact announces_mentioning _ _ _
    | mention =>
      obtain ⟨-, rfl⟩ := Prod.mk.inj (Option.some.inj hpc)
      split
      · exact announces_mentioning _ _ _
      · exact trivial
    | returned | threw | failed => cases hpc
  | deleteComment =>
    obtain ⟨pc', -, rfl⟩ := pc_of_next h
    exact trivial

end Statements

section Runs

variable {ι : Type*} [DecidableEq ι] {p q q' : CommentCalls ι} {i : ι} {uuid : String}
  {a : CommentArgs} {comment : CommentRow}

/-- Every call does so in every state of a run. -/
theorem announces_run (hfresh : ∀ i, (p.calls i).Live fun c => c.fresh)
    (hrun : Run (Pool.step commentMachine) anyStep p q) : ∀ i, (q.calls i).Keeps Announces := by
  have hstart : ∀ i, (p.calls i).Keeps Announces := by
    intro i
    obtain ⟨c, hc, hstart⟩ := (hfresh i).exists
    rw [hc]
    cases c with
    | createComment a pc =>
      obtain rfl : pc = a.entry := of_decide_eq_true hstart
      show Announces (.createComment a a.entry)
      unfold CommentArgs.entry
      split <;> exact trivial
    | deleteComment => exact trivial
  refine Pool.invariant (I := fun q : CommentCalls ι => ∀ i, (q.calls i).Keeps Announces) hstart
    ?_ ?_ ?_ hrun
  · intro p i uuid c w' c' h _ _ hnext
    obtain ⟨s', hcall, rfl⟩ := Task.call_of_next hnext
    exact keeps_update_up (announces_next hcall) fun j _ => h j
  · intro p i c h _ _
    exact keeps_update_down h
  · intro p e h _
    exact h

/-- **Where a new comment is announced**: the event that `createComment` writes for a comment is
emitted to the room of its task if and only if the comment has the id of the task. -/
theorem announced_in_task_room_iff (hfresh : ∀ i, (p.calls i).Live fun c => c.fresh)
    (hrun : Run (Pool.step commentMachine) anyStep p q)
    (hc : q.calls i = .up (.createComment a (.outbox comment)))
    (hstep : Pool.step commentMachine q (.run i uuid) = some q') :
    ∃ e, q'.store.comments.outbox = e :: q.store.comments.outbox
      ∧ (taskRoom comment.orgId comment.taskId ∈ broadcastRooms (published e)
        ↔ comment.id = comment.taskId) := by
  obtain ⟨commentId, rfl⟩ := (announces_run hfresh hrun i).of_up hc
  obtain ⟨c, w', c', hc', hnext, rfl⟩ := Pool.step_run hstep
  obtain rfl := Proc.up.inj (hc.symm.trans hc')
  obtain ⟨s', hcall, rfl⟩ := Task.call_of_next hnext
  obtain ⟨rfl, -⟩ := Prod.mk.inj (Option.some.inj hcall)
  exact ⟨_, rfl, mem_broadcastRooms_commentCreated⟩

end Runs

/-! ## A comment on a task -/

/-- A comment on the task. -/
def demoComment : CommentCalls (Fin 1) where
  store :=
    { tasks := ⟨[Task.demoTask], Task.demoTask_nodup⟩
      comments := ⟨0, .empty, .empty, fun _ _ => none, []⟩ }
  calls _ := .up (.createComment ⟨"o", "u", "t", ⟨none⟩, none⟩ .insert)

/-- The INSERT of the comment. -/
def demoInserted (uuid : String) : CommentCalls (Fin 1) where
  store :=
    { tasks := ⟨[Task.demoTask], Task.demoTask_nodup⟩
      comments := ⟨0, ⟨[(⟨"o", "u", "t", ⟨none⟩, none⟩ : CommentArgs).row uuid], by simp⟩, .empty,
        fun _ _ => none, []⟩ }
  calls := Function.update demoComment.calls 0
    (.up (.createComment ⟨"o", "u", "t", ⟨none⟩, none⟩
      (.outbox ((⟨"o", "u", "t", ⟨none⟩, none⟩ : CommentArgs).row uuid))))

theorem demoInserted_run (uuid : String) :
    Run (Pool.step commentMachine) anyStep demoComment (demoInserted uuid) :=
  .tail .refl trivial (a := .run 0 uuid) rfl

theorem comment_with_id_of_task : ∃ q' e,
    Pool.step commentMachine (demoInserted "t") (.run 0 "") = some q'
      ∧ q'.store.comments.outbox = [e] ∧ taskRoom "o" "t" ∈ broadcastRooms (published e) := by
  obtain ⟨q', hstep⟩ : ∃ q', Pool.step commentMachine (demoInserted "t") (.run 0 "") = some q' :=
    ⟨_, rfl⟩
  obtain ⟨e, houtbox, hiff⟩ := announced_in_task_room_iff (by decide) (demoInserted_run "t") rfl
    hstep
  exact ⟨q', e, hstep, houtbox, hiff.mpr rfl⟩

/-- The comment `k` on the task `t` is announced in the room of a task `k`. -/
theorem comment_announced_elsewhere : ∃ q' e,
    Run (Pool.step commentMachine) anyStep demoComment (demoInserted "k")
      ∧ Pool.step commentMachine (demoInserted "k") (.run 0 "") = some q'
      ∧ q'.store.comments.outbox = [e] ∧ broadcastRooms (published e) = [taskRoom "o" "k"]
      ∧ taskRoom "o" "t" ∉ broadcastRooms (published e) :=
  ⟨_, _, demoInserted_run "k", rfl, rfl, rfl, by decide⟩

end WorkPlatform.Realtime

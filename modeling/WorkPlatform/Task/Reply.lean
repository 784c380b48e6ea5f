import WorkPlatform.Task.Comment
import WorkPlatform.Task.Version

/-!
# Task/Reply — replies to comments

    createComment    parent ▸ INSERT
                       │         └── task_id
                       └── org_id

The parent is looked up by organisation, the reply is inserted under a task, and nobody compares the
two: a reply can answer a comment on another task (`reply_on_other_task`).  Where replies name a
comment on their own task (`Answers`) every thread is on one task of one organisation and one level
deep (`replies_on_task`).

Of a comment only `deleted_at` ever changes; what stays is its **place**.
-/

namespace WorkPlatform.Task

open Machinery

/-! ## The machine -/

/-- The comments, and the tasks the foreign key looks at. -/
structure CommentWorld where
  tasks : Table TaskRow.id
  comments : CommentStore

def CommentWorld.putComments (w : CommentWorld) (comments : CommentStore) : CommentWorld :=
  { w with comments := comments }

/-- What happens around the calls. -/
inductive CommentEnv
  | tick (ms : ℕ)
  | replicate
  | tasks (t : Table TaskRow.id)
  | mentioned (f : String → String → Option String)

/-- Time, replication, and what other services write. -/
def commentEnv (w : CommentWorld) : CommentEnv → CommentWorld
  | .tick ms => { w with comments := { w.comments with now := w.comments.now + ms } }
  | .replicate =>
    { w with comments := { w.comments with replicaComments := w.comments.comments } }
  | .tasks t => { w with tasks := t }
  | .mentioned f => { w with comments := { w.comments with mentioned := f } }

/-- The calls to the comments, and what happens around them. -/
def commentMachine : Machine CommentWorld CommentCall String CommentEnv where
  next w c uuid :=
    (c.next w.tasks w.comments uuid).map fun x => (w.putComments x.1, x.2)
  env := commentEnv

theorem call_of_next {w w' : CommentWorld} {c c' : CommentCall} {uuid : String}
    (h : commentMachine.next w c uuid = some (w', c')) :
    ∃ s', c.next w.tasks w.comments uuid = some (s', c') ∧ w' = w.putComments s' := by
  obtain ⟨s', c'', hcall, rfl, rfl⟩ := part_of_next (g := w.putComments) (f := id) h
  exact ⟨s', hcall, rfl⟩

/-- Calls of the comment service. -/
abbrev CommentCalls (ι : Type*) := Pool ι CommentWorld CommentCall

/-! ## Places -/

/-- Where a comment is. -/
structure CommentPlace where
  id : String
  orgId : String
  taskId : String
  parentCommentId : Option String
  deriving DecidableEq

def CommentRow.place (c : CommentRow) : CommentPlace :=
  ⟨c.id, c.orgId, c.taskId, c.parentCommentId⟩

def places (t : Table CommentRow.id) : List CommentPlace := t.rows.map (·.place)

theorem mem_places {t : Table CommentRow.id} {x : CommentPlace} :
    x ∈ places t ↔ ∃ r ∈ t.rows, r.place = x := List.mem_map

/-- Every reply answers a comment on its task that is no reply. -/
def Threaded (l : List CommentPlace) : Prop :=
  ∀ x ∈ l, ∀ id, x.parentCommentId = some id → ⟨id, x.orgId, x.taskId, none⟩ ∈ l

theorem Threaded.cons {l : List CommentPlace} {x : CommentPlace} (h : Threaded l)
    (hx : ∀ id, x.parentCommentId = some id → ⟨id, x.orgId, x.taskId, none⟩ ∈ l) :
    Threaded (x :: l) := by
  intro y hy id hid
  rcases List.mem_cons.mp hy with rfl | hold
  · exact List.mem_cons_of_mem _ (hx id hid)
  · exact List.mem_cons_of_mem _ (h y hold id hid)

/-! ## What a statement writes -/

section Statements

variable {tasks : Table TaskRow.id} {s s' : CommentStore} {uuid : String} {c c' : CommentCall}

/-- **What a statement does to the comments.** -/
inductive CommentsWrote (tasks : Table TaskRow.id) (s s' : CommentStore) (uuid : String) :
    CommentCall → Prop
  | kept {c : CommentCall} (hplaces : places s'.comments = places s.comments) :
      CommentsWrote tasks s s' uuid c
  | added {a : CommentArgs} (haccepts : s.accepts tasks (a.row uuid) = true)
      (hplaces : places s'.comments = (a.row uuid).place :: places s.comments) :
      CommentsWrote tasks s s' uuid (.createComment a .insert)

theorem places_deleteComment (s : CommentStore) (commentId : String) :
    places (s.deleteComment commentId).comments = places s.comments := by
  unfold places CommentStore.deleteComment Table.update Table.map
  dsimp only
  rw [List.map_map]
  refine List.map_congr_left fun r _ => ?_
  dsimp only [Function.comp]
  split <;> rfl

/-- What each statement of a call writes to the comments. -/
theorem commentsWrote (h : c.next tasks s uuid = some (s', c')) :
    CommentsWrote tasks s s' uuid c ∧ s'.replicaComments = s.replicaComments := by
  cases c with
  | createComment a pc =>
    obtain ⟨pc', hpc, rfl⟩ := pc_of_next h
    cases pc with
    | insert =>
      rw [createCommentNext] at hpc
      split at hpc
      all_goals obtain ⟨rfl, -⟩ := Prod.mk.inj (Option.some.inj hpc)
      case h_1 hcomments =>
        obtain ⟨hinsert, haccepts⟩ := Option.filter_eq_some_iff.mp hcomments
        refine ⟨.added haccepts ?_, rfl⟩
        unfold places
        rw [(Table.insert_eq_some hinsert).2, List.map_cons]
      case h_2 => exact ⟨.kept rfl, rfl⟩
    | parent | outbox | mention | mentioned =>
      obtain ⟨rfl, -⟩ := Prod.mk.inj (Option.some.inj hpc)
      exact ⟨.kept rfl, rfl⟩
    | returned | threw | failed => cases hpc
  | deleteComment orgId commentId userId pc =>
    obtain ⟨pc', hpc, rfl⟩ := pc_of_next h
    cases pc with
    | check =>
      obtain ⟨rfl, -⟩ := Prod.mk.inj (Option.some.inj hpc)
      exact ⟨.kept rfl, rfl⟩
    | update =>
      obtain ⟨rfl, -⟩ := Prod.mk.inj (Option.some.inj hpc)
      exact ⟨.kept (places_deleteComment s commentId), rfl⟩
    | returned | threw => cases hpc

/-- Comments stay where they are. -/
theorem places_stay (h : c.next tasks s uuid = some (s', c')) :
    places s.comments ⊆ places s'.comments := by
  obtain ⟨hwrote, -⟩ := commentsWrote h
  cases hwrote with
  | kept hplaces =>
    rw [hplaces]
    exact List.Subset.refl _
  | added _ hplaces =>
    rw [hplaces]
    exact List.subset_cons_self _ _

/-! ## The parent -/

/-- A comment of the organisation that is no reply. -/
def TopLevel (l : List CommentPlace) (orgId id : String) : Prop :=
  ∃ taskId, ⟨id, orgId, taskId, none⟩ ∈ l

/-- What a call has found out about its parent. -/
def CommentCall.Checked (l : List CommentPlace) : CommentCall → Prop
  | .createComment a (.parent parentCommentId) => a.parentCommentId = some parentCommentId
  | .createComment a .insert =>
    ∀ id, a.parentCommentId = some id → id ≠ "" → TopLevel l a.orgId id
  | _ => True

/-- What was checked holds of a longer list. -/
theorem CommentCall.Checked.mono {l l' : List CommentPlace} (hl : l ⊆ l') {k : CommentCall}
    (hk : k.Checked l) : k.Checked l' := by
  match k, hk with
  | .createComment a (.parent _), hk => exact hk
  | .createComment a .insert, hk =>
    intro id hid hne
    obtain ⟨taskId, hmem⟩ := hk id hid hne
    exact ⟨taskId, hl hmem⟩
  | .createComment _ (.outbox _), _ | .createComment _ (.mention _ _ _), _
  | .createComment _ (.mentioned _ _ _ _), _ | .createComment _ (.returned _), _
  | .createComment _ (.threw _), _ | .createComment _ .failed, _ | .deleteComment _ _ _ _, _ =>
    exact trivial

/-- A parent that the replica shows is a top-level comment on the primary. -/
theorem topLevel_of_findComment {orgId id : String} {parent : CommentRow}
    (hreplica : places s.replicaComments ⊆ places s.comments)
    (h : s.findComment orgId id = some parent) (hparent : parent.parentCommentId = none) :
    TopLevel (places s.comments) orgId id := by
  obtain ⟨hfind, hselected⟩ := Option.filter_eq_some_iff.mp h
  obtain ⟨horg, -⟩ := of_decide_eq_true hselected
  obtain ⟨hrow, hid⟩ := Table.find_eq_some.mp hfind
  refine ⟨parent.taskId, hreplica (mem_places.mpr ⟨parent, hrow, ?_⟩)⟩
  unfold CommentRow.place
  rw [hid, horg, hparent]

theorem checked_mentioning (l : List CommentPlace) (a : CommentArgs) (comment : CommentRow)
    (handles : List String) :
    (CommentCall.createComment a (.mentioning comment handles)).Checked l := by
  cases handles <;> exact trivial

/-- What a call has checked of the parent comment it still knows after its statement. -/
theorem checked_next (h : c.next tasks s uuid = some (s', c'))
    (hreplica : places s.replicaComments ⊆ places s.comments)
    (hc : c.Checked (places s.comments)) : c'.Checked (places s'.comments) := by
  cases c with
  | createComment a pc =>
    obtain ⟨pc', hpc, rfl⟩ := pc_of_next h
    cases pc with
    | parent parentCommentId =>
      obtain ⟨rfl, rfl⟩ := Prod.mk.inj (Option.some.inj hpc)
      split
      case h_1 => exact trivial
      case h_2 parent hfound =>
        split_ifs with hreply
        · exact trivial
        · intro id hid _
          obtain rfl := Option.some.inj (hc.symm.trans hid)
          exact topLevel_of_findComment hreplica hfound (not_not.mp hreply)
    | insert =>
      rw [createCommentNext] at hpc
      split at hpc
      all_goals
        obtain ⟨-, rfl⟩ := Prod.mk.inj (Option.some.inj hpc)
        exact trivial
    | outbox | mentioned =>
      obtain ⟨-, rfl⟩ := Prod.mk.inj (Option.some.inj hpc)
      exact checked_mentioning _ _ _ _
    | mention comment handle rest =>
      obtain ⟨-, rfl⟩ := Prod.mk.inj (Option.some.inj hpc)
      split
      · exact checked_mentioning _ _ _ _
      · exact trivial
    | returned | threw | failed => cases hpc
  | deleteComment orgId commentId userId pc =>
    obtain ⟨pc', -, rfl⟩ := pc_of_next h
    exact trivial

/-- A call that has done nothing has checked nothing. -/
theorem checked_of_fresh {l : List CommentPlace} (h : c.fresh = true) : c.Checked l := by
  cases c with
  | createComment a pc =>
    obtain rfl : pc = a.entry := of_decide_eq_true h
    unfold CommentArgs.entry
    split
    case h_1 parentCommentId hgiven => exact (Option.filter_eq_some_iff.mp hgiven).1
    case h_2 hnone =>
      intro id hid hne
      rw [hid, Option.filter_some, if_pos (decide_eq_true hne)] at hnone
      cases hnone
  | deleteComment => exact trivial

end Statements

/-! ## Replies on their own task -/

/-- A reply that is about to be inserted answers a comment on its task. -/
def CommentCall.Answers (w : CommentWorld) : CommentCall → Prop
  | .createComment a .insert => (w.tasks.find a.taskId).isSome →
    ∀ id ∈ a.parentCommentId, ∀ parent ∈ w.comments.comments.find id, parent.taskId = a.taskId
  | _ => True

section Replies

variable {ι : Type*} {p q : CommentCalls ι}

/-- Replies are inserted where they answer a comment on their task; everything else is free. -/
def Answers (p : CommentCalls ι) : Move ι String CommentEnv → Prop
  | .run i _ => (p.calls i).Keeps (·.Answers p.store)
  | _ => True

/-- **The threads**, with what the calls have found out. -/
structure Threads (p : CommentCalls ι) : Prop where
  threaded : Threaded (places p.store.comments.comments)
  replica : places p.store.comments.replicaComments ⊆ places p.store.comments.comments
  checked : ∀ i, (p.calls i).Keeps (·.Checked (places p.store.comments.comments))

variable [DecidableEq ι] {w w' : CommentWorld} {uuid : String} {i : ι} {c c' : CommentCall}

/-- A reply that is inserted. -/
theorem threaded_added {a : CommentArgs} (h : Threaded (places w.comments.comments))
    (haccepts : w.comments.accepts w.tasks (a.row uuid) = true)
    (hc : (CommentCall.createComment a .insert).Checked (places w.comments.comments))
    (hanswers : (CommentCall.createComment a .insert).Answers w) :
    Threaded ((a.row uuid).place :: places w.comments.comments) := by
  obtain ⟨htask, hparents⟩ := of_decide_eq_true haccepts
  refine h.cons fun id hid => ?_
  have hgiven : a.parentCommentId = some id := hid
  have hne : id ≠ "" := by
    have hall : (a.parentCommentId.all fun id =>
        decide (id ≠ "" ∧ (w.comments.comments.find id).isSome)) = true := hparents
    rw [hgiven] at hall
    exact (of_decide_eq_true hall).1
  obtain ⟨taskId, htop⟩ := hc id hgiven hne
  obtain ⟨parent, hrow, hplace⟩ := mem_places.mp htop
  obtain ⟨hparentId, -, hparentTask, -⟩ := CommentPlace.mk.inj hplace
  have hsame := hanswers htask id hgiven parent (Table.find_eq_some.mpr ⟨hrow, hparentId⟩)
  rw [← hparentTask, hsame] at htop
  exact htop

/-- A statement answers a comment of its own task. -/
theorem threads_run {s' : CommentStore} (h : Threads p) (hc : p.calls i = .up c)
    (hanswers : c.Answers p.store)
    (hnext : c.next p.store.tasks p.store.comments uuid = some (s', c')) :
    Threads ⟨p.store.putComments s', Function.update p.calls i (.up c')⟩ := by
  have hknown := (h.checked i).of_up hc
  have hstay := places_stay hnext
  obtain ⟨hwrote, hreplica⟩ := commentsWrote hnext
  refine ⟨?_, ?_, keeps_update_up (checked_next hnext h.replica hknown) fun j _ => ?_⟩
  · cases hwrote with
    | kept hplaces =>
      dsimp only [CommentWorld.putComments]
      rw [hplaces]
      exact h.threaded
    | added haccepts hplaces =>
      dsimp only [CommentWorld.putComments]
      rw [hplaces]
      exact threaded_added h.threaded haccepts hknown hanswers
  · dsimp only [CommentWorld.putComments]
    rw [hreplica]
    exact List.Subset.trans h.replica hstay
  · exact (h.checked j).imp fun k hk => hk.mono hstay

omit [DecidableEq ι] in
theorem threads_env (h : Threads p) (e : CommentEnv) : Threads ⟨commentEnv p.store e, p.calls⟩ := by
  cases e with
  | replicate => exact ⟨h.threaded, List.Subset.refl _, h.checked⟩
  | tick | tasks | mentioned => exact ⟨h.threaded, h.replica, h.checked⟩

/-- **Replies answer comments on their own task** where they are given one: whatever calls run,
every comment with a parent has a parent on its task, in its organisation, that has none. -/
theorem replies_on_task (hfresh : ∀ i, (p.calls i).Live fun c => c.fresh)
    (hs : Threaded (places p.store.comments.comments))
    (hreplica : places p.store.comments.replicaComments ⊆ places p.store.comments.comments)
    (hrun : Run (Pool.step commentMachine) Answers p q) :
    ∀ r ∈ q.store.comments.comments.rows, ∀ id, r.parentCommentId = some id →
      ∃ x ∈ q.store.comments.comments.rows, x.id = id ∧ x.orgId = r.orgId ∧ x.taskId = r.taskId
        ∧ x.parentCommentId = none := by
  have hstart : Threads p := by
    refine ⟨hs, hreplica, fun i => ?_⟩
    obtain ⟨c, hc, hstart⟩ := (hfresh i).exists
    rw [hc]
    exact checked_of_fresh hstart
  have hend : Threads q := by
    refine Pool.invariant hstart ?_ ?_ ?_ hrun
    · intro p i uuid c w' c' h hG hc hnext
      obtain ⟨s', hcall, rfl⟩ := call_of_next hnext
      rw [Answers, hc] at hG
      exact threads_run h hc hG hcall
    · intro p i c h _ _
      exact ⟨h.threaded, h.replica, keeps_update_down h.checked⟩
    · intro p e h _
      exact threads_env h e
  intro r hr id hid
  have hplace := hend.threaded r.place (mem_places.mpr ⟨r, hr, rfl⟩) id hid
  obtain ⟨x, hx, heq⟩ := mem_places.mp hplace
  obtain ⟨hxid, horg, htask, hparent⟩ := CommentPlace.mk.inj heq
  exact ⟨x, hx, hxid, horg, htask, hparent⟩

end Replies

/-! ## Two tasks -/

instance (w : CommentWorld) : DecidablePred (CommentCall.Answers w)
  | .createComment a .insert => inferInstanceAs (Decidable ((w.tasks.find a.taskId).isSome →
      ∀ id ∈ a.parentCommentId, ∀ parent ∈ w.comments.comments.find id, parent.taskId = a.taskId))
  | .createComment _ (.parent _) | .createComment _ (.outbox _) | .createComment _ (.mention _ _ _)
  | .createComment _ (.mentioned _ _ _ _) | .createComment _ (.returned _)
  | .createComment _ (.threw _) | .createComment _ .failed | .deleteComment _ _ _ _ =>
    inferInstanceAs (Decidable True)

instance {ι : Type*} (p : CommentCalls ι) : ∀ m : Move ι String CommentEnv, Decidable (Answers p m)
  | .run i _ => inferInstanceAs (Decidable ((p.calls i).Keeps (·.Answers p.store)))
  | .crash _ | .env _ => inferInstanceAs (Decidable True)

/-- Two tasks, a comment on the first one, and a reply to it on the task that is given. -/
def demoThread (taskId : String) : CommentCalls (Fin 2) where
  store :=
    { tasks := ⟨[demoTask, { demoTask with id := "t2" }], by decide⟩
      comments := ⟨0, .empty, .empty, fun _ _ => none, []⟩ }
  calls i := .up (if i = 0 then .createComment ⟨"o", "u", "t", ⟨none⟩, none⟩ .insert
    else .createComment ⟨"o", "v", taskId, ⟨none⟩, some "k"⟩ (.parent "k"))

/-- A reply on the task of its parent. -/
theorem reply_on_own_task : ∃ q, Run (Pool.step commentMachine) Answers (demoThread "t") q
    ∧ (∃ r ∈ q.store.comments.comments.rows, r.parentCommentId = some "k")
    ∧ ∀ r ∈ q.store.comments.comments.rows, ∀ id, r.parentCommentId = some id →
      ∃ x ∈ q.store.comments.comments.rows, x.id = id ∧ x.orgId = r.orgId ∧ x.taskId = r.taskId
        ∧ x.parentCommentId = none := by
  obtain ⟨q, hrun, hq⟩ := exists_run_of_exec (Pool.step commentMachine) Answers (demoThread "t")
    [.run 0 "k", .env .replicate, .run 1 "", .run 1 "r"]
    (fun q => ∃ r ∈ q.store.comments.comments.rows, r.parentCommentId = some "k") (by decide)
  have hnone : Threaded (places (demoThread "t").store.comments.comments) :=
    fun _ hx => absurd hx List.not_mem_nil
  exact ⟨q, hrun, of_decide_eq_true hq,
    replies_on_task (by decide) hnone (List.Subset.refl _) hrun⟩

/-- The reply is inserted on the second task. -/
theorem reply_on_other_task : ∃ q, ∃ r ∈ q.store.comments.comments.rows,
    Run (Pool.step commentMachine) anyStep (demoThread "t2") q
    ∧ (∀ i, ((demoThread "t2").calls i).Live fun c => c.fresh) ∧ r.parentCommentId = some "k"
    ∧ ¬ ∃ x ∈ q.store.comments.comments.rows, x.id = "k" ∧ x.orgId = r.orgId
      ∧ x.taskId = r.taskId ∧ x.parentCommentId = none := by
  obtain ⟨q, hrun, hq⟩ := exists_run_of_exec (Pool.step commentMachine) anyStep (demoThread "t2")
    [.run 0 "k", .env .replicate, .run 1 "", .run 1 "r"]
    (fun q => ∃ r ∈ q.store.comments.comments.rows, r.parentCommentId = some "k"
      ∧ ¬ ∃ x ∈ q.store.comments.comments.rows, x.id = "k" ∧ x.orgId = r.orgId
        ∧ x.taskId = r.taskId ∧ x.parentCommentId = none) (by decide)
  obtain ⟨r, hr, hparent, hnone⟩ := of_decide_eq_true hq
  exact ⟨q, r, hr, hrun, by decide, hparent, hnone⟩

end WorkPlatform.Task

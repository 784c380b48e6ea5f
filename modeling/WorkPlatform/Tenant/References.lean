import WorkPlatform.Chat.Channel
import WorkPlatform.Task.Assignees
import WorkPlatform.Task.Comment

/-!
# Tenant/References — ids that name rows of another organisation

    task       workspace_id, board_id, parent_task_id     ┐
    comment    task_id                                    │  foreign keys without org_id
    channel    workspace_id                               ┘

Of the ids a caller gives only the parent of a task is looked up, and that by its organisation.  A
task, a comment or a channel of one organisation can name rows of another
(`foreign_workspace_taken`).

A run is `Own` where the ids that are given name rows of the caller's organisation, a parent is in
the workspace that is given, and a job names the organisation of its task.  Then every reference
stays in its organisation (`references_in_tenant`).
-/

namespace WorkPlatform.Tenant

open Machinery
open WorkPlatform.Task (TaskRow WorkspaceRow BoardRow CommentRow)
open WorkPlatform.Chat (ChannelRow)

/-! ## The services together -/

/-- The tasks, the comments and the channels. -/
structure Store where
  work : Task.Store
  comments : Task.CommentStore
  channels : Chat.ChannelStore
  chatEnabled : String → Bool

namespace Store

def putWork (s : Store) (work : Task.Store) : Store := { s with work := work }

def putComments (s : Store) (comments : Task.CommentStore) : Store :=
  { s with comments := comments }

def putChannels (s : Store) (channels : Chat.ChannelStore) : Store :=
  { s with channels := channels }

/-- What the channel service reads of the others. -/
def directory (s : Store) : Chat.Directory where
  isMember orgId userId := (s.work.roles orgId userId).isSome
  hasWorkspace id := (s.work.workspaces.find id).isSome
  chatEnabled := s.chatEnabled

end Store

/-- A call to one of the services. -/
inductive Call
  | task (c : Task.Op)
  | comment (c : Task.CommentCall)
  | channel (c : Chat.ChannelCall)
  deriving DecidableEq

/-- The call has not run a statement yet. -/
def Call.fresh : Call → Bool
  | .task c => c.fresh
  | .comment c => c.fresh
  | .channel c => c.fresh

/-- The next statement of a call. -/
def Call.next (cfg : Task.Config) (s : Store) (uuid : String) : Call → Option (Store × Call)
  | .task c => (c.next cfg s.work uuid).map fun x => (s.putWork x.1, .task x.2)
  | .comment c =>
    (c.next s.work.tasks s.comments uuid).map fun x => (s.putComments x.1, .comment x.2)
  | .channel c =>
    (c.next s.directory s.channels uuid).map fun x => (s.putChannels x.1, .channel x.2)

/-- What happens around the calls: that of the tasks, new workspaces and boards, what a handle
resolves to, and the flags. -/
inductive Env
  | work (e : Task.Env)
  | workspace (row : WorkspaceRow)
  | board (row : BoardRow)
  | mentioned (f : String → String → Option String)
  | flag (orgId : String) (enabled : Bool)

/-- What happens around the calls, in every service that sees it. -/
def env (s : Store) : Env → Store
  | .work (.tick ms) =>
    { s with
      work := Task.env s.work (.tick ms)
      comments := { s.comments with now := s.comments.now + ms } }
  | .work .replicate =>
    { s with
      work := Task.env s.work .replicate
      comments := { s.comments with replicaComments := s.comments.comments } }
  | .work (.member orgId userId role) =>
    { s with work := Task.env s.work (.member orgId userId role) }
  | .workspace row =>
    { s with
      work :=
        { s.work with workspaces := (s.work.workspaces.insert row).getD s.work.workspaces } }
  | .board row =>
    { s with work := { s.work with boards := (s.work.boards.insert row).getD s.work.boards } }
  | .mentioned f => { s with comments := { s.comments with mentioned := f } }
  | .flag orgId enabled => { s with chatEnabled := Function.update s.chatEnabled orgId enabled }

def tenantMachine (cfg : Task.Config) : Machine Store Call String Env :=
  ⟨fun s c uuid => c.next cfg s uuid, env⟩

/-- Calls of all the services over the store. -/
abbrev Calls (ι : Type*) := Pool ι Store Call

/-! ## References -/

section References

variable (s : Task.Store)

/-- The workspace is there, and the organisation's. -/
def WorkspaceOf (id orgId : String) : Prop :=
  ∃ w, s.workspaces.find id = some w ∧ w.orgId = orgId

/-- The board is there, and the organisation's. -/
def BoardOf (id orgId : String) : Prop := ∃ b, s.boards.find id = some b ∧ b.orgId = orgId

/-- The references of a task stay in its organisation, and its parent is in its workspace. -/
structure TaskInTenant (r : TaskRow) : Prop where
  workspace : WorkspaceOf s r.workspaceId r.orgId
  board : ∀ id, r.boardId = some id → BoardOf s id r.orgId
  parent : ∀ id, r.parentTaskId = some id → ∃ parent, s.tasks.find id = some parent
    ∧ parent.orgId = r.orgId ∧ parent.workspaceId = r.workspaceId

/-- The task of a comment is of its organisation. -/
def CommentInTenant (c : CommentRow) : Prop :=
  ∃ r, s.tasks.find c.taskId = some r ∧ r.orgId = c.orgId

/-- The workspace of a channel is of its organisation. -/
def ChannelInTenant (c : ChannelRow) : Prop :=
  ∀ id, c.workspaceId = some id → WorkspaceOf s id c.orgId

end References

/-- **Every reference stays in its organisation.** -/
structure Store.InTenant (s : Store) : Prop where
  tasks : ∀ r ∈ s.work.tasks.rows, TaskInTenant s.work r
  comments : ∀ c ∈ s.comments.comments.rows, CommentInTenant s.work c
  channels : ∀ c ∈ s.channels.channels.rows, ChannelInTenant s.work c

/-! ## Own ids -/

/-- The ids a call gives to its next statement name rows of its organisation. -/
def Call.own (s : Store) : Call → Bool
  | .task (.createTask a (.insert _)) =>
    (s.work.workspaces.find a.input.workspaceId).all (·.orgId = a.orgId)
      ∧ (a.input.boardId.all fun id => (s.work.boards.find id).all (·.orgId = a.orgId))
      ∧ a.input.parentTaskId.all fun id =>
        (s.work.tasks.find id).all (·.workspaceId = a.input.workspaceId)
  | .task (.edit (.updateTask a .update)) => a.applies s.work →
      a.data.boardId.all fun board => board.all fun id =>
        (s.work.boards.find id).all (·.orgId = a.orgId)
  | .task (.recurring job .load) => (s.work.findById job.parentTaskId).all (·.orgId = job.orgId)
  | .comment (.createComment a .insert) => (s.work.tasks.find a.taskId).all (·.orgId = a.orgId)
  | .channel (.createWorkspaceChannel a .transaction) =>
    (s.work.workspaces.find a.workspaceId).all (·.orgId = a.orgId)
  | _ => true

/-- What a call knows: the parent of a new task is of its organisation; so is the workspace of the
task a job has read. -/
def Call.Knows (s : Task.Store) : Call → Prop
  | .task (.recurring job (.count parent _)) | .task (.recurring job (.assignees parent _))
  | .task (.recurring job (.insert parent _ _)) => WorkspaceOf s parent.workspaceId job.orgId
  | .task c => c.Under s
  | _ => True

/-! ## What stays -/

section Kept

variable {cfg : Task.Config} {s s' : Task.Store} {uuid : String} {c c' : Task.Op} {r r' : TaskRow}

/-- Rows stay where they are. -/
structure Kept (s s' : Task.Store) : Prop where
  workspace : ∀ id orgId, WorkspaceOf s id orgId → WorkspaceOf s' id orgId
  board : ∀ id orgId, BoardOf s id orgId → BoardOf s' id orgId
  task : ∀ id r, s.tasks.find id = some r → ∃ r', s'.tasks.find id = some r' ∧ r'.place = r.place

theorem Kept.refl : Kept s s :=
  ⟨fun _ _ h => h, fun _ _ h => h, fun _ r h => ⟨r, h, rfl⟩⟩

/-- A statement leaves the rows where they are. -/
theorem kept_next (h : c.next cfg s uuid = some (s', c')) : Kept s s' where
  task _ _ hr := Task.find_next h hr
  workspace id orgId hw := by
    cases Task.effect_next h with
    | workspaceDeleted =>
      obtain ⟨w, hfind, horg⟩ := hw
      unfold WorkspaceOf Task.Store.deleteWorkspace
      dsimp only
      rw [Table.find_map, hfind]
      exact ⟨_, rfl, horg⟩
    | _ => exact hw
  board id orgId hb := by
    cases Task.effect_next h with
    | workspaceDeleted =>
      obtain ⟨b, hfind, horg⟩ := hb
      unfold BoardOf Task.Store.deleteWorkspace
      dsimp only
      rw [Table.find_map, hfind]
      exact ⟨_, rfl, horg⟩
    | _ => exact hb

/-- A task that keeps its place stays in its tenant. -/
theorem TaskInTenant.kept (hk : Kept s s') (hplace : r'.place = r.place)
    (hboard : r'.boardId = r.boardId) (h : TaskInTenant s r) : TaskInTenant s' r' := by
  obtain ⟨horg, hworkspace, hparent, -, -⟩ := Task.place_eq hplace
  refine ⟨?_, fun id hid => ?_, fun id hid => ?_⟩
  · rw [hworkspace, horg]
    exact hk.workspace _ _ h.workspace
  · rw [horg]
    exact hk.board _ _ (h.board id (hboard.symm.trans hid))
  · obtain ⟨parent, hfind, hparentOrg, hparentWorkspace⟩ := h.parent id (hparent.symm.trans hid)
    obtain ⟨parent', hfind', hplace'⟩ := hk.task id parent hfind
    obtain ⟨horg', hworkspace', -⟩ := Task.place_eq hplace'
    exact ⟨parent', hfind', by rw [horg', hparentOrg, horg],
      by rw [hworkspace', hparentWorkspace, hworkspace]⟩

theorem CommentInTenant.kept {c : CommentRow} (hk : Kept s s') (h : CommentInTenant s c) :
    CommentInTenant s' c := by
  obtain ⟨r, hr, horg⟩ := h
  obtain ⟨r', hr', hplace⟩ := hk.task c.taskId r hr
  exact ⟨r', hr', (Task.place_eq hplace).1.trans horg⟩

theorem ChannelInTenant.kept {c : ChannelRow} (hk : Kept s s') (h : ChannelInTenant s c) :
    ChannelInTenant s' c :=
  fun id hid => hk.workspace id c.orgId (h id hid)

end Kept

/-! ## Statements of the task service -/

section Tasks

variable {cfg : Task.Config} {s : Store} {work' : Task.Store} {uuid : String} {c c' : Task.Op}

/-- A row that is there and, where it is there, the organisation's. -/
theorem workspaceOf_of_all {w : Task.Store} {id orgId : String}
    (hsome : (w.workspaces.find id).isSome = true)
    (hall : ((w.workspaces.find id).all fun row => decide (row.orgId = orgId)) = true) :
    WorkspaceOf w id orgId := by
  obtain ⟨row, hrow⟩ := Option.isSome_iff_exists.mp hsome
  rw [hrow] at hall
  exact ⟨row, hrow, of_decide_eq_true hall⟩

theorem boardOf_of_all {w : Task.Store} {id orgId : String}
    (hsome : (w.boards.find id).isSome = true)
    (hall : ((w.boards.find id).all fun row => decide (row.orgId = orgId)) = true) :
    BoardOf w id orgId := by
  obtain ⟨row, hrow⟩ := Option.isSome_iff_exists.mp hsome
  rw [hrow] at hall
  exact ⟨row, hrow, of_decide_eq_true hall⟩

/-- A task that is created in its own workspace is in its tenant. -/
theorem created_in_tenant {a : Task.CreateArgs} {depth : ℕ}
    (haccepts : s.work.accepts (a.row depth uuid) = true) (hunder : a.Under s.work depth)
    (hown : Call.own s (.task (.createTask a (.insert depth))) = true) :
    TaskInTenant s.work (a.row depth uuid) := by
  obtain ⟨hworkspace, hboard, -⟩ := of_decide_eq_true haccepts
  obtain ⟨hownWorkspace, hownBoard, hownParent⟩ := of_decide_eq_true hown
  refine ⟨workspaceOf_of_all hworkspace hownWorkspace, fun id hid => ?_, fun id hid => ?_⟩
  · rw [hid, Option.all_some] at hboard
    rw [show a.input.boardId = some id from hid, Option.all_some] at hownBoard
    exact boardOf_of_all hboard hownBoard
  · have hparent : a.input.parentTaskId = some id := hid
    unfold Task.CreateArgs.Under at hunder
    rw [hparent] at hunder hownParent
    rcases hunder with hempty | ⟨parent, hfind, horg, -⟩
    · exact absurd hempty (Task.accepts_parent haccepts hid)
    · rw [Option.all_some, hfind] at hownParent
      exact ⟨parent, hfind, horg, of_decide_eq_true hownParent⟩

/-- An edit that gives a board of its own organisation. -/
theorem patched_in_tenant {a : Task.UpdateArgs} {r : TaskRow}
    (hr : s.work.tasks.find a.taskId = some r) (hcurrent : r.current a.orgId a.version = true)
    (haccepted : s.work.refuses a.data r = false)
    (hown : Call.own s (.task (.edit (.updateTask a .update))) = true)
    (h : TaskInTenant s.work r) : ∀ id, (r.patch a.data s.work.now).boardId = some id →
      BoardOf s.work id r.orgId := by
  intro id hid
  have hid' : a.data.boardId.getD r.boardId = some id := hid
  cases hboard : a.data.boardId with
  | none =>
    rw [hboard] at hid'
    exact h.board id hid'
  | some board =>
    rw [hboard] at hid'
    obtain rfl : board = some id := hid'
    have happlies := Task.applies_of_patched hr hcurrent haccepted
    have hownBoard := of_decide_eq_true hown happlies
    rw [hboard] at hownBoard
    have hnotRefused := of_decide_eq_false haccepted
    rw [hboard] at hnotRefused
    rw [(of_decide_eq_true hcurrent).1]
    refine boardOf_of_all ?_ hownBoard
    by_contra hnone
    refine hnotRefused (Or.inl ?_)
    simpa using hnone

/-- A statement leaves every task among references of its own organisation. -/
theorem tasks_next (hnext : c.next cfg s.work uuid = some (work', c'))
    (hown : Call.own s (.task c) = true) (hknows : Call.Knows s.work (.task c))
    (hs : ∀ r ∈ s.work.tasks.rows, TaskInTenant s.work r) :
    ∀ r ∈ work'.tasks.rows, TaskInTenant work' r := by
  have hk := kept_next hnext
  cases Task.wrote_next hnext with
  | same h =>
    intro r hr
    rw [h] at hr
    exact (hs r hr).kept hk rfl rfl
  | @patched a r hc hfind hcurrent haccepted h =>
    subst hc
    intro x' hx'
    rw [h] at hx'
    obtain ⟨x, hx, rfl⟩ := List.mem_map.mp hx'
    split
    · rename_i hid
      obtain rfl : x = r := Option.some.inj ((Table.find_eq_some.mpr ⟨hx, hid⟩).symm.trans hfind)
      have hold : TaskInTenant work' x := (hs x hx).kept hk rfl rfl
      refine ⟨hold.workspace, fun id hboard => ?_, hold.parent⟩
      exact hk.board _ _ (patched_in_tenant hfind hcurrent haccepted hown (hs x hx) id hboard)
    · exact (hs x hx).kept hk rfl rfl
  | @restated orgId userId taskIds status _ h =>
    intro x' hx'
    rw [h] at hx'
    obtain ⟨x, hx, rfl⟩ := List.mem_map.mp hx'
    refine (hs x hx).kept hk (Task.place_bulkStatus orgId taskIds status s.work.now x) ?_
    unfold TaskRow.bulkStatus
    split <;> rfl
  | @deleted time select _ h =>
    intro x' hx'
    rw [h] at hx'
    obtain ⟨x, hx, rfl⟩ := List.mem_map.mp hx'
    refine (hs x hx).kept hk (Task.place_softDelete select time x) ?_
    unfold TaskRow.softDelete
    split <;> rfl
  | @created a depth hc haccepts h =>
    subst hc
    intro x hx
    rw [(Table.insert_eq_some h).2] at hx
    rcases List.mem_cons.mp hx with rfl | hx
    · exact (created_in_tenant haccepts hknows hown).kept hk rfl rfl
    · exact (hs x hx).kept hk rfl rfl
  | @spawned job parent next users hc haccepts h =>
    subst hc
    intro x hx
    rw [(Table.insert_eq_some h).2] at hx
    rcases List.mem_cons.mp hx with rfl | hx
    · refine ⟨hk.workspace _ _ hknows, fun id hid => ?_, fun id hid => ?_⟩
      · cases hid
      · cases hid
    · exact (hs x hx).kept hk rfl rfl

/-- A call knows what it has read. -/
theorem knows_next (hnext : c.next cfg s.work uuid = some (work', c'))
    (hown : Call.own s (.task c) = true) (hknows : Call.Knows s.work (.task c))
    (hs : ∀ r ∈ s.work.tasks.rows, TaskInTenant s.work r) : Call.Knows work' (.task c') := by
  have hk := kept_next hnext
  cases c with
  | recurring job pc =>
    obtain ⟨pc', hpc, rfl⟩ := pc_of_next hnext
    cases pc with
    | load =>
      obtain ⟨rfl, rfl⟩ := Prod.mk.inj (Option.some.inj hpc)
      split
      · trivial
      · rename_i parent hparent
        split
        · trivial
        · have horg : parent.orgId = job.orgId := by
            have hall : ((s.work.findById job.parentTaskId).all fun r =>
              decide (r.orgId = job.orgId)) = true := hown
            rw [hparent] at hall
            exact of_decide_eq_true hall
          have hmem := (Table.find_eq_some.mp (Option.filter_eq_some_iff.mp hparent).1).1
          have hworkspace := (hs parent hmem).workspace
          rw [horg] at hworkspace
          exact hworkspace
    | count parent next =>
      obtain ⟨rfl, rfl⟩ := Prod.mk.inj (Option.some.inj hpc)
      split
      · trivial
      · exact hknows
    | assignees parent next =>
      obtain ⟨rfl, rfl⟩ := Prod.mk.inj (Option.some.inj hpc)
      exact hknows
    | insert parent next users =>
      rw [Task.spawnNext] at hpc
      split at hpc <;> obtain ⟨rfl, rfl⟩ := Prod.mk.inj (Option.some.inj hpc)
      · cases users <;> trivial
      · trivial
    | add next newTaskId userId rest =>
      obtain ⟨rfl, rfl⟩ := Prod.mk.inj (Option.some.inj hpc)
      cases rest <;> trivial
    | outbox next newTaskId =>
      obtain ⟨rfl, rfl⟩ := Prod.mk.inj (Option.some.inj hpc)
      trivial
    | returned next | ended | failed => cases hpc
  | edit c =>
    obtain ⟨c', -, rfl⟩ := pc_of_next hnext
    trivial
  | createTask a pc =>
    have hunder := Task.under_next hnext hknows
    obtain ⟨pc', -, rfl⟩ := pc_of_next hnext
    exact hunder
  | deleteWorkspace orgId workspaceId actorId pc =>
    obtain ⟨pc', -, rfl⟩ := pc_of_next hnext
    trivial

/-- What a call knows stays so, whatever runs. -/
theorem knows_of_next {k : Call} (hnext : c.next cfg s.work uuid = some (work', c'))
    (hk : k.Knows s.work) : k.Knows work' := by
  have hkept := kept_next hnext
  cases k with
  | comment k => trivial
  | channel k => trivial
  | task k =>
    cases k with
    | recurring job pc =>
      cases pc with
      | count parent next | assignees parent next | insert parent next users =>
        exact hkept.workspace _ _ hk
      | _ => trivial
    | edit k => trivial
    | createTask a pc => exact Task.Op.Under.of_next hnext hk
    | deleteWorkspace orgId workspaceId actorId pc => trivial

end Tasks

/-! ## Statements of the other services -/

section Others

variable {s : Store} {uuid : String}

/-- So it does every comment. -/
theorem comments_next {c c' : Task.CommentCall} {comments' : Task.CommentStore}
    (hnext : c.next s.work.tasks s.comments uuid = some (comments', c'))
    (hown : Call.own s (.comment c) = true)
    (hs : ∀ r ∈ s.comments.comments.rows, CommentInTenant s.work r) :
    ∀ r ∈ comments'.comments.rows, CommentInTenant s.work r := by
  cases c with
  | createComment a pc =>
    obtain ⟨pc', hpc, rfl⟩ := pc_of_next hnext
    cases pc with
    | insert =>
      rw [Task.createCommentNext] at hpc
      split at hpc <;> obtain ⟨rfl, rfl⟩ := Prod.mk.inj (Option.some.inj hpc)
      · rename_i comments hcomments
        obtain ⟨hins, haccepts⟩ := Option.filter_eq_some_iff.mp hcomments
        intro r hr
        dsimp only at hr
        rw [(Table.insert_eq_some hins).2] at hr
        rcases List.mem_cons.mp hr with rfl | hr
        · obtain ⟨task, htask⟩ := Option.isSome_iff_exists.mp (of_decide_eq_true haccepts).1
          have hall : ((s.work.tasks.find a.taskId).all fun r => decide (r.orgId = a.orgId)) = true :=
            hown
          rw [show s.work.tasks.find a.taskId = some task from htask] at hall
          exact ⟨task, htask, of_decide_eq_true hall⟩
        · exact hs r hr
      · exact hs
    | returned comment | threw e | failed => cases hpc
    | parent id | outbox comment | mention comment handle rest | mentioned comment handle userId rest =>
      obtain ⟨rfl, rfl⟩ := Prod.mk.inj (Option.some.inj hpc)
      exact hs
  | deleteComment orgId commentId userId pc =>
    obtain ⟨pc', hpc, rfl⟩ := pc_of_next hnext
    cases pc with
    | update =>
      obtain ⟨rfl, rfl⟩ := Prod.mk.inj (Option.some.inj hpc)
      intro r' hr'
      obtain ⟨r, hr, rfl⟩ := List.mem_map.mp hr'
      split <;> exact hs r hr
    | returned | threw e => cases hpc
    | check =>
      obtain ⟨rfl, rfl⟩ := Prod.mk.inj (Option.some.inj hpc)
      exact hs

/-- A new channel is in a workspace of its organisation, or in none. -/
theorem channel_created {row : ChannelRow} {users : List String} {channels' : Chat.ChannelStore}
    (h : s.channels.create s.directory row users = some channels')
    (hown : ∀ id, row.workspaceId = some id →
      ((s.work.workspaces.find id).all fun w => decide (w.orgId = row.orgId)) = true)
    (hs : ∀ c ∈ s.channels.channels.rows, ChannelInTenant s.work c) :
    ∀ c ∈ channels'.channels.rows, ChannelInTenant s.work c := by
  unfold Chat.ChannelStore.create at h
  split at h
  · rename_i hworkspace
    obtain ⟨channels, hins, rfl⟩ := Option.map_eq_some_iff.mp h
    intro c hc
    dsimp only at hc
    rw [(Table.insert_eq_some hins).2] at hc
    rcases List.mem_cons.mp hc with rfl | hc
    · intro id hid
      rw [hid, Option.all_some] at hworkspace
      exact workspaceOf_of_all hworkspace (hown id hid)
    · exact hs c hc
  · cases h

/-- And every channel. -/
theorem channels_next {c c' : Chat.ChannelCall} {channels' : Chat.ChannelStore}
    (hnext : c.next s.directory s.channels uuid = some (channels', c'))
    (hown : Call.own s (.channel c) = true)
    (hs : ∀ r ∈ s.channels.channels.rows, ChannelInTenant s.work r) :
    ∀ r ∈ channels'.channels.rows, ChannelInTenant s.work r := by
  cases Chat.channelWrote_next hnext with
  | same hchannels _ _ =>
    rw [hchannels]
    exact hs
  | made hmakes hcreated hchannels _ _ =>
    rw [hchannels]
    refine channel_created hcreated (fun id hid => ?_) hs
    -- Only `createWorkspaceChannel` gives a workspace.
    match c, hmakes with
    | .createDirect _ .transaction, rfl | .createGroup _ .transaction, rfl => cases hid
    | .createWorkspaceChannel a .transaction, rfl =>
      obtain rfl : a.workspaceId = id := Option.some.inj hid
      exact hown

end Others

/-- **One statement**: references stay in the organisation, and the calls go on knowing what they
know. -/
theorem inTenant_next {cfg : Task.Config} {s s' : Store} {uuid : String} {c c' : Call}
    (hnext : c.next cfg s uuid = some (s', c')) (hown : c.own s = true) (hknows : c.Knows s.work)
    (hs : s.InTenant) :
    s'.InTenant ∧ c'.Knows s'.work ∧ ∀ k : Call, k.Knows s.work → k.Knows s'.work := by
  cases c with
  | task c =>
    obtain ⟨work', c', htask, rfl, rfl⟩ := part_of_next hnext
    have hk := kept_next htask
    refine ⟨⟨tasks_next htask hown hknows hs.tasks, fun r hr => (hs.comments r hr).kept hk,
      fun r hr => (hs.channels r hr).kept hk⟩, knows_next htask hown hknows hs.tasks, ?_⟩
    exact fun k => knows_of_next htask
  | comment c =>
    obtain ⟨comments', c', hcomment, rfl, rfl⟩ := part_of_next hnext
    have hcomments := comments_next hcomment hown hs.comments
    exact ⟨⟨hs.tasks, hcomments, hs.channels⟩, trivial, fun _ hk => hk⟩
  | channel c =>
    obtain ⟨channels', c', hchannel, rfl, rfl⟩ := part_of_next hnext
    have hchannels := channels_next hchannel hown hs.channels
    exact ⟨⟨hs.tasks, hs.comments, hchannels⟩, trivial, fun _ hk => hk⟩

/-! ## Runs -/

section Runs

variable {ι : Type*}

/-- **Own ids only**: whatever a call names is its organisation's. -/
def Own (p : Calls ι) : Move ι String Env → Prop
  | .run i _ => (p.calls i).Keeps fun c => c.own p.store = true
  | _ => True

instance (p : Calls ι) : ∀ m : Move ι String Env, Decidable (Own p m)
  | .run i _ => inferInstanceAs (Decidable ((p.calls i).Keeps fun c => c.own p.store = true))
  | .crash _ => inferInstanceAs (Decidable True)
  | .env _ => inferInstanceAs (Decidable True)

variable [DecidableEq ι] {cfg : Task.Config} {p q : Calls ι}

/-- Where the tables are the same, everything stays in its tenant. -/
theorem inTenant_kept {s s' : Store} (hk : Kept s.work s'.work)
    (htasks : s'.work.tasks = s.work.tasks) (hcomments : s'.comments.comments = s.comments.comments)
    (hchannels : s'.channels = s.channels) (h : s.InTenant) : s'.InTenant := by
  refine ⟨fun r hr => ?_, fun c hc => ?_, fun c hc => ?_⟩
  · rw [htasks] at hr
    exact (h.tasks r hr).kept hk rfl rfl
  · rw [hcomments] at hc
    exact (h.comments c hc).kept hk
  · rw [hchannels] at hc
    exact (h.channels c hc).kept hk

/-- So does whatever happens around the calls. -/
theorem kept_env (s : Store) (e : Env) : Kept s.work (env s e).work := by
  have hinsert : ∀ {α : Type} {key : α → String} {t : Table key} {a b : α} {k : String},
      t.find k = some b → ((t.insert a).getD t).find k = some b := by
    intro α key t a b k hfind
    cases hins : t.insert a with
    | none => exact hfind
    | some t' => exact Table.find_of_insert hins hfind
  cases e with
  | work e => cases e <;> exact ⟨fun _ _ h => h, fun _ _ h => h, fun _ r h => ⟨r, h, rfl⟩⟩
  | workspace row =>
    refine ⟨fun id orgId hw => ?_, fun _ _ h => h, fun _ r h => ⟨r, h, rfl⟩⟩
    obtain ⟨w, hfind, horg⟩ := hw
    exact ⟨w, hinsert hfind, horg⟩
  | board row =>
    refine ⟨fun _ _ h => h, fun id orgId hb => ?_, fun _ r h => ⟨r, h, rfl⟩⟩
    obtain ⟨b, hfind, horg⟩ := hb
    exact ⟨b, hinsert hfind, horg⟩
  | mentioned f => exact .refl
  | flag orgId enabled => exact .refl

/-- A call still knows what it knew. -/
theorem knows_kept {s s' : Task.Store} {k : Call} (hk : Kept s s') (htasks : s'.tasks = s.tasks)
    (h : k.Knows s) : k.Knows s' := by
  cases k with
  | comment k => trivial
  | channel k => trivial
  | task k =>
    cases k with
    | recurring job pc =>
      cases pc with
      | count parent next | assignees parent next | insert parent next users =>
        exact hk.workspace _ _ h
      | _ => trivial
    | edit k => trivial
    | createTask a pc =>
      cases pc with
      | parent id => exact h
      | member depth userId rest | insert depth =>
        simp only [Call.Knows, Task.Op.Under, Task.CreateArgs.Under, htasks] at h ⊢
        exact h
      | _ => trivial
    | deleteWorkspace orgId workspaceId actorId pc => trivial

/-- A call that has not started has nothing to know. -/
theorem knows_of_fresh {s : Task.Store} {c : Call} (h : c.fresh = true) : c.Knows s := by
  cases c with
  | comment c => trivial
  | channel c => trivial
  | task c =>
    cases c with
    | recurring job pc =>
      cases pc with
      | load => trivial
      | _ => cases h
    | edit c => trivial
    | createTask a pc => exact Task.under_of_fresh h
    | deleteWorkspace orgId workspaceId actorId pc => trivial

/-- **References stay in the organisation**, in every run in which the ids that are given are of the
caller's organisation. -/
theorem references_in_tenant (h₀ : p.store.InTenant)
    (hstart : ∀ i, (p.calls i).Live fun c => c.fresh)
    (h : Run (Pool.step (tenantMachine cfg)) Own p q) : q.store.InTenant := by
  refine And.left (Pool.invariant (I := fun p : Calls ι =>
    p.store.InTenant ∧ ∀ i, (p.calls i).Keeps (Call.Knows p.store.work)) ⟨h₀, fun i => ?_⟩ ?_ ?_ ?_ h)
  · obtain ⟨c, hc, hfresh⟩ := (hstart i).exists
    rw [hc]
    exact knows_of_fresh hfresh
  · rintro p i uuid c s' c' ⟨hs, hknows⟩ hG hc hnext
    rw [Own, hc] at hG
    have hself := hknows i
    rw [hc] at hself
    obtain ⟨hs', hself', hothers⟩ := inTenant_next hnext hG hself hs
    exact ⟨hs', keeps_update_up hself' fun j _ => (hknows j).imp hothers⟩
  · rintro p i c ⟨hs, hknows⟩ - -
    exact ⟨hs, keeps_update_down hknows⟩
  · rintro p e ⟨hs, hknows⟩ -
    have hk := kept_env p.store e
    have htasks : (env p.store e).work.tasks = p.store.work.tasks := by
      rcases e with (_ | _ | _) | _ | _ | _ | _ <;> rfl
    refine ⟨inTenant_kept hk htasks ?_ ?_ hs, fun i => (hknows i).imp fun k => knows_kept hk htasks⟩
    all_goals rcases e with (_ | _ | _) | _ | _ | _ | _ <;> rfl

end Runs

/-! ## Two organisations -/

/-- A task and a workspace of `o`, and a workspace of another organisation. -/
def tenantStore : Store where
  work :=
    { Task.demoStore with
      workspaces := ⟨[⟨"w", "o", none⟩, ⟨"x", "other", none⟩], by decide⟩
      roles := fun _ _ => some .member }
  comments := ⟨0, .empty, .empty, fun _ _ => none, []⟩
  channels := ⟨.empty, fun _ => [], [], fun _ => none, []⟩
  chatEnabled := fun _ => true

/-- A user of `o` creates a task in a workspace, comments on the task and makes a channel of the
workspace. -/
def twoTenants (workspaceId : String) : Calls (Fin 3) where
  store := tenantStore
  calls := ![.up (.task (.createTask
      { Task.demoSubtask with
        input := { Task.demoSubtask.input with parentTaskId := none, workspaceId := workspaceId } }
      (.insert 0))),
    .up (.comment (.createComment ⟨"o", "u", "t", ⟨none⟩, none⟩ .insert)),
    .up (.channel (.createWorkspaceChannel ⟨"o", "u", "general", workspaceId⟩ (.member "u" [])))]

theorem tenantStore_inTenant : tenantStore.InTenant where
  tasks r hr := by
    obtain rfl := List.mem_singleton.mp hr
    refine ⟨⟨⟨"w", "o", none⟩, by decide, rfl⟩, fun id hid => ?_, fun id hid => ?_⟩
    · cases hid
    · cases hid
  comments c hc := by cases hc
  channels c hc := by cases hc

/-- **A workspace of another organisation is taken**: nobody looks at whose it is. -/
theorem foreign_workspace_taken :
    tenantStore.InTenant ∧ (∀ i, ((twoTenants "x").calls i).Live fun c => c.fresh)
      ∧ ∃ q, Run (Pool.step (tenantMachine Task.demoConfig)) anyStep (twoTenants "x") q
        ∧ ¬ q.store.InTenant := by
  refine ⟨tenantStore_inTenant, by decide, ?_⟩
  obtain ⟨q, hq, h⟩ := exists_run_of_exec (Pool.step (tenantMachine Task.demoConfig)) anyStep
    (twoTenants "x") [.run 0 "n"]
    (fun q => (q.store.work.tasks.find "n").any fun r => r.orgId = "o"
      ∧ (q.store.work.workspaces.find r.workspaceId).all fun w => w.orgId = "other") (by decide)
  obtain ⟨r, hr, h⟩ := (Option.any_eq_true _ _).mp h
  obtain ⟨horg, hall⟩ := of_decide_eq_true h
  refine ⟨q, hq, fun hin => ?_⟩
  obtain ⟨w, hw, hworkspaceOrg⟩ := (hin.tasks r (Table.find_eq_some.mp hr).1).workspace
  rw [hw] at hall
  rw [horg, of_decide_eq_true hall] at hworkspaceOrg
  exact absurd hworkspaceOrg (by decide)

/-- Each names what is its organisation's. -/
theorem own_workspace_taken :
    ∃ q, Run (Pool.step (tenantMachine Task.demoConfig)) Own (twoTenants "w") q
      ∧ (q.store.work.tasks.find "n").isSome = true
      ∧ (q.store.comments.comments.find "k").isSome = true
      ∧ (q.store.channels.channels.find "g").isSome = true ∧ q.store.InTenant := by
  obtain ⟨q, hq, h⟩ := exists_run_of_exec (Pool.step (tenantMachine Task.demoConfig)) Own
    (twoTenants "w") [.run 0 "n", .run 1 "k", .run 2 "", .run 2 "g"]
    (fun q => (q.store.work.tasks.find "n").isSome ∧ (q.store.comments.comments.find "k").isSome
      ∧ (q.store.channels.channels.find "g").isSome) (by decide)
  obtain ⟨htask, hcomment, hchannel⟩ := of_decide_eq_true h
  exact ⟨q, hq, htask, hcomment, hchannel,
    references_in_tenant tenantStore_inTenant (by decide) hq⟩

end WorkPlatform.Tenant

import WorkPlatform.Http.Spared

/-!
# Http/Guest — what a guest can change

    refused to a guest     bulk operations, the task of another, the comment of another,
                           the message of another
    open to a guest        new tasks, comments, workspaces, channels, messages and files;
                           any workspace; a task, comment or message of the guest's own

The routes let every member pass, and of the services some look at the role and some at who made
the row; most look at neither (`guest_creates_workspace`).

The tables stay as they are in every run in which no request asks for something that is open, or
asks for it in a way its service refuses to everybody (`guest_changes_nothing`).
-/

namespace WorkPlatform.Http

open Machinery

/-! ## A spared statement -/

section Steps

variable {cfg : Config} {s s' : Store} {orgId userId uuid : String} {work : Task.Store}

/-- The services see the same roles. -/
theorem not_isAdmin (h : s.work.isAdmin orgId userId = false) :
    ¬ s.tasks.isAdmin orgId userId = true :=
  fun hadmin => Bool.false_ne_true (h.symm.trans hadmin)

/-- Where neither who made the task nor the role lets the user change it. -/
theorem spared_update {a : Task.UpdateArgs} {pc pc' : Task.UpdatePc}
    (hadmin : s.work.isAdmin a.orgId a.userId = false)
    (hpc : SparesUpdate s a.orgId a.userId a pc)
    (h : Task.updateNext s.tasks a pc = some (work, pc')) :
    work = s.tasks ∧ SparesUpdate s a.orgId a.userId a pc' := by
  cases pc with
  | find =>
    obtain ⟨rfl, rfl⟩ := Prod.mk.inj (Option.some.inj h)
    refine ⟨rfl, ?_⟩
    split
    case h_1 => trivial
    case h_2 r hr =>
      split
      case isTrue => trivial
      case isFalse horg => exact fun hcreator => hpc ⟨r, hr, not_not.mp horg, hcreator⟩
  | membership existing =>
    obtain ⟨rfl, rfl⟩ := Prod.mk.inj (Option.some.inj h)
    rw [Task.UpdatePc.authorized, if_pos ⟨hpc, not_isAdmin hadmin⟩]
    exact ⟨rfl, trivial⟩
  | returned | threw | failed => cases h
  | _ => exact hpc.elim

/-- A `deleteTask` of somebody else's task changes nothing, where the user is no administrator. -/
theorem spared_delete {taskId : String} {pc pc' : Task.DeletePc}
    (hadmin : s.work.isAdmin orgId userId = false) (hpc : SparesDelete s orgId userId taskId pc)
    (h : Task.deleteNext s.tasks orgId taskId userId pc = some (work, pc')) :
    work = s.tasks ∧ SparesDelete s orgId userId taskId pc' := by
  cases pc with
  | find =>
    obtain ⟨rfl, rfl⟩ := Prod.mk.inj (Option.some.inj h)
    refine ⟨rfl, ?_⟩
    split
    case h_1 => trivial
    case h_2 r hr =>
      split
      case isTrue => trivial
      case isFalse horg => exact fun hcreator => hpc ⟨r, hr, not_not.mp horg, hcreator⟩
  | membership existing =>
    obtain ⟨rfl, rfl⟩ := Prod.mk.inj (Option.some.inj h)
    rw [if_pos ⟨hpc, not_isAdmin hadmin⟩]
    exact ⟨rfl, trivial⟩
  | returned | threw => cases h
  | _ => exact hpc.elim

/-- A bulk call by somebody who is no admin changes no task. -/
theorem spared_bulk {taskIds : List String} {write : Task.Store → Task.Store}
    {pc pc' : Task.BulkPc} (hadmin : s.work.isAdmin orgId userId = false) (hpc : SparesBulk pc)
    (h : Task.bulkNext s.tasks orgId userId taskIds write pc = some (work, pc')) :
    work = s.tasks ∧ SparesBulk pc' := by
  cases pc with
  | membership =>
    obtain ⟨rfl, rfl⟩ := Prod.mk.inj (Option.some.inj h)
    rw [if_neg (not_isAdmin hadmin)]
    refine ⟨rfl, ?_⟩
    split <;> trivial
  | update => exact hpc.elim
  | returned | threw => cases h

theorem noWorkspace_key {workspaceId : String} (h : NoWorkspace s workspaceId) :
    s.tasks.workspaces.find workspaceId = none := by
  rw [Table.find_eq_none]
  intro r hr
  obtain ⟨w, hw, rfl⟩ := List.mem_map.mp hr
  exact Table.find_eq_none.mp h w hw

/-- A creation that will be refused spares the tables while it checks its assignees. -/
theorem spares_checking {a : Task.CreateArgs} {depth : ℕ} {users : List String}
    (h : NoWorkspace s a.input.workspaceId ∨ HasStranger s a.orgId users) :
    SparesCreateTask s a (.checking depth users) := by
  cases users with
  | nil =>
    rcases h with hno | ⟨x, hx, -⟩
    · exact hno
    · cases hx
  | cons x rest => exact h

/-- Behind a user who is a member, the stranger is among the rest. -/
theorem hasStranger_tail {x : String} {rest : List String} (h : HasStranger s orgId (x :: rest))
    (hx : (s.work.roles orgId x).isSome) : HasStranger s orgId rest := by
  obtain ⟨y, hy, hno⟩ := h
  rcases List.mem_cons.mp hy with rfl | hy
  · exact absurd (.inr hx) hno
  · exact ⟨y, hy, hno⟩

/-- Nor does a `createTask` that meets an error. -/
theorem spared_createTask {a : Task.CreateArgs} {pc pc' : Task.CreatePc}
    (hpc : SparesCreateTask s a pc) (h : Task.createNext s.tasks uuid a pc = some (work, pc')) :
    work = s.tasks ∧ SparesCreateTask s a pc' := by
  cases pc with
  | parent parentTaskId =>
    obtain ⟨rfl, rfl⟩ := Prod.mk.inj (Option.some.inj h)
    refine ⟨rfl, ?_⟩
    split
    case h_1 => trivial
    case h_2 parent hparent =>
      split
      case isTrue => trivial
      case isFalse horg =>
        split
        case isTrue => trivial
        case isFalse hdepth =>
          refine spares_checking (hpc.imp_right fun hpc => hpc.resolve_left fun hbad => ?_)
          exact hdepth (hbad parent hparent (not_not.mp horg))
  | member depth assigneeId rest =>
    obtain ⟨rfl, rfl⟩ := Prod.mk.inj (Option.some.inj h)
    refine ⟨rfl, ?_⟩
    split
    case isTrue hmember =>
      exact spares_checking (hpc.imp_right fun hpc => hasStranger_tail hpc hmember)
    case isFalse => trivial
  | insert depth =>
    have hrefused : s.tasks.accepts (a.row depth uuid) = false := by
      rw [Task.Store.accepts]
      simp [Task.CreateArgs.row, noWorkspace_key hpc]
    rw [Task.createNext, Task.Store.insertTask, if_neg (by rw [hrefused]; decide)] at h
    obtain ⟨rfl, rfl⟩ := Prod.mk.inj (Option.some.inj h)
    exact ⟨rfl, trivial⟩
  | returned | threw | failed => cases h
  | _ => exact hpc.elim

/-- Nor does a `deleteWorkspace`. -/
theorem spared_deleteWorkspace {workspaceId actorId : String} {pc pc' : Task.WorkspacePc}
    (hpc : SparesDeleteWorkspace s orgId workspaceId pc)
    (h : Task.workspaceNext s.tasks orgId workspaceId actorId pc = some (work, pc')) :
    work = s.tasks ∧ SparesDeleteWorkspace s orgId workspaceId pc' := by
  cases pc with
  | find =>
    obtain ⟨rfl, rfl⟩ := Prod.mk.inj (Option.some.inj h)
    refine ⟨rfl, ?_⟩
    split
    case h_1 => trivial
    case h_2 existing hexisting =>
      split
      case isTrue => trivial
      case isFalse horg =>
        obtain ⟨hfind, hlive⟩ := Option.filter_eq_some_iff.mp hexisting
        obtain ⟨hmem, hid⟩ := Table.find_eq_some.mp hfind
        obtain ⟨w, hw, rfl⟩ := List.mem_map.mp hmem
        refine hpc ⟨_, .inr rfl, w, Table.find_eq_some.mpr ⟨hw, hid⟩, of_decide_eq_true hlive, ?_⟩
        exact not_not.mp horg
  | returned | threw => cases h
  | _ => exact hpc.elim

/-- The tasks' services leave what they see as it is, and nothing is cascaded. -/
theorem spared_task {c c' : Task.Op} (hadmin : s.work.isAdmin orgId userId = false)
    (hc : SparesTask s orgId userId c) (h : c.next cfg.task s.tasks uuid = some (work, c')) :
    Frame s (s.putWork c work) ∧ SparesTask s orgId userId c' := by
  have hframe : Frame s { s with work := s.tasks } := { Frame.refl s with }
  cases c with
  | edit c =>
    obtain ⟨c', hc', rfl⟩ := pc_of_next h
    cases c with
    | updateTask a pc =>
      obtain ⟨rfl, rfl, hpc⟩ := hc
      obtain ⟨pc', hpc', rfl⟩ := pc_of_next hc'
      obtain ⟨rfl, hspared⟩ := spared_update hadmin hpc hpc'
      exact ⟨hframe, rfl, rfl, hspared⟩
    | deleteTask o taskId u pc =>
      obtain ⟨rfl, rfl, hpc⟩ := hc
      obtain ⟨pc', hpc', rfl⟩ := pc_of_next hc'
      obtain ⟨rfl, hspared⟩ := spared_delete hadmin hpc hpc'
      exact ⟨hframe, rfl, rfl, hspared⟩
    | bulkUpdateStatus | bulkDelete =>
      obtain ⟨rfl, rfl, hpc⟩ := hc
      obtain ⟨pc', hpc', rfl⟩ := pc_of_next hc'
      obtain ⟨rfl, hspared⟩ := spared_bulk hadmin hpc hpc'
      exact ⟨hframe, rfl, rfl, hspared⟩
  | createTask a pc =>
    obtain ⟨pc', hpc', rfl⟩ := pc_of_next h
    obtain ⟨rfl, hspared⟩ := spared_createTask hc hpc'
    exact ⟨hframe, hspared⟩
  | recurring => exact hc.elim
  | deleteWorkspace o workspaceId actorId pc =>
    obtain ⟨pc', hpc', rfl⟩ := pc_of_next h
    obtain ⟨rfl, hspared⟩ := spared_deleteWorkspace hc hpc'
    refine ⟨?_, hspared⟩
    cases pc with
    | commit startedAt taskIds => exact hc.elim
    | _ => exact hframe

/-- Nor does a `createComment` that meets an error. -/
theorem spared_createComment {a : Task.CommentArgs} {pc pc' : Task.CommentPc}
    {t : Task.CommentStore} (hpc : SparesCreateComment s a pc)
    (h : Task.createCommentNext s.work.tasks s.comments uuid a pc = some (t, pc')) :
    t = s.comments ∧ SparesCreateComment s a pc' := by
  cases pc with
  | parent parentCommentId =>
    obtain ⟨rfl, rfl⟩ := Prod.mk.inj (Option.some.inj h)
    refine ⟨rfl, ?_⟩
    split
    case h_1 => trivial
    case h_2 parent hparent =>
      split
      case isTrue => trivial
      case isFalse hreply =>
        exact hpc.resolve_right fun hbad => hreply (hbad parent ⟨_, .inr rfl, hparent⟩)
  | insert =>
    have hno : s.work.tasks.find a.taskId = none := hpc
    have hrefused : s.comments.accepts s.work.tasks (a.row uuid) = false := by
      rw [Task.CommentStore.accepts]
      simp [Task.CommentArgs.row, hno]
    rw [Task.createCommentNext, hrefused] at h
    cases hinsert : s.comments.comments.insert (a.row uuid) <;> rw [hinsert] at h
    all_goals
      obtain ⟨rfl, rfl⟩ := Prod.mk.inj (Option.some.inj h)
      exact ⟨rfl, trivial⟩
  | returned | threw | failed => cases h
  | _ => exact hpc.elim

/-- Nor does a call to the comments. -/
theorem spared_comment {c c' : Task.CommentCall} {t : Task.CommentStore} (hc : SparesComment s c)
    (h : c.next s.work.tasks s.comments uuid = some (t, c')) :
    t = s.comments ∧ SparesComment s c' := by
  cases c with
  | createComment a pc =>
    obtain ⟨pc', hpc', rfl⟩ := pc_of_next h
    exact spared_createComment hc hpc'
  | deleteComment o commentId u pc =>
    obtain ⟨pc', hpc', rfl⟩ := pc_of_next h
    cases pc with
    | check =>
      obtain ⟨rfl, rfl⟩ := Prod.mk.inj (Option.some.inj hpc')
      refine ⟨rfl, ?_⟩
      split
      case h_1 => trivial
      case h_2 comment hcomment =>
        split
        case isTrue => trivial
        case isFalse hauthor =>
          exact hc ⟨comment, ⟨_, .inr rfl, hcomment⟩, not_not.mp hauthor⟩
    | update => exact hc.elim
    | returned | threw => cases hpc'

/-! ### The chat -/

/-- A message that is no reply that can be made is not sent. -/
theorem spares_checked {a : Chat.SendArgs} {row : Option Chat.MessageRow}
    (h : Chat.SendPc.checked row ≠ .sequence) : SparesSend s a (.checked row) := by
  revert h
  unfold Chat.SendPc.checked
  split
  case h_1 => exact fun _ => trivial
  case h_2 =>
    split
    case isTrue => exact fun _ => trivial
    case isFalse =>
      split
      case isTrue => exact fun _ => trivial
      case isFalse => exact fun h => absurd rfl h

/-- Nor does a `send` that meets an error. -/
theorem spared_send {a : Chat.SendArgs} {pc pc' : Chat.SendPc} {t : Chat.Store}
    (hpc : SparesSend s a pc) (h : Chat.sendNext s.messages uuid a pc = some (t, pc')) :
    t = s.messages ∧ SparesSend s a pc' := by
  cases pc with
  | member =>
    obtain ⟨rfl, rfl⟩ := Prod.mk.inj (Option.some.inj h)
    refine ⟨rfl, ?_⟩
    split
    case isTrue hmember =>
      exact hpc.resolve_left fun hno => hno (.inr (of_decide_eq_true hmember))
    case isFalse => trivial
  | existing =>
    obtain ⟨rfl, rfl⟩ := Prod.mk.inj (Option.some.inj h)
    refine ⟨rfl, ?_⟩
    split
    case h_1 => trivial
    case h_2 hnone =>
      have hunsent : ¬ IsSent s a := by
        rw [IsSent, show s.chat.findByClientMessageId _ _ = none from hnone]
        exact Bool.false_ne_true
      obtain ⟨id, hid, hbad⟩ := hpc.resolve_left hunsent
      rw [hid]
      exact hbad
  | parent id =>
    obtain ⟨rfl, rfl⟩ := Prod.mk.inj (Option.some.inj h)
    exact ⟨rfl, spares_checked hpc⟩
  | returned | threw | failed => cases h
  | _ => exact hpc.elim

/-- Nor does a `createDirect` that meets an error. -/
theorem spared_direct {a : Chat.DirectArgs} {pc pc' : Chat.DirectPc} {t : Chat.ChannelStore}
    (hpc : SparesDirect s a pc)
    (h : Chat.directNext s.directory s.chat.channels uuid a pc = some (t, pc')) :
    t = s.chat.channels ∧ SparesDirect s a pc' := by
  cases pc with
  | creator =>
    obtain ⟨rfl, rfl⟩ := Prod.mk.inj (Option.some.inj h)
    exact ⟨rfl, hpc⟩
  | other creatorMembership =>
    obtain ⟨rfl, rfl⟩ := Prod.mk.inj (Option.some.inj h)
    refine ⟨rfl, ?_⟩
    split
    case isTrue => trivial
    case isFalse =>
      split
      case isTrue => trivial
      case isFalse hother => exact hpc.resolve_right fun hno => hno (.inr (not_not.mp hother))
  | transaction =>
    have hpair : (s.chat.channels.findPair a.orgId a.userAId a.userBId).isSome = true := hpc
    have hnone : a.transaction s.chat.channels s.directory uuid = none := by
      rw [Chat.DirectArgs.transaction, if_pos hpair]
    rw [Chat.directNext, hnone] at h
    obtain ⟨rfl, rfl⟩ := Prod.mk.inj (Option.some.inj h)
    exact ⟨rfl, trivial⟩
  | existing =>
    obtain ⟨rfl, rfl⟩ := Prod.mk.inj (Option.some.inj h)
    refine ⟨rfl, ?_⟩
    split <;> trivial
  | outbox => exact hpc.elim
  | returned | threw | failed => cases h

/-- Nor does a `createGroup`. -/
theorem spared_group {a : Chat.GroupArgs} {pc pc' : Chat.GroupPc} {t : Chat.ChannelStore}
    (hpc : SparesGroup s a pc)
    (h : Chat.groupNext s.directory s.chat.channels uuid a pc = some (t, pc')) :
    t = s.chat.channels ∧ SparesGroup s a pc' := by
  have hchecking : ∀ {users : List String}, HasStranger s a.orgId users →
      SparesGroup s a (.checking users) := by
    intro users hstranger
    cases users with
    | nil => obtain ⟨x, hx, -⟩ := hstranger; cases hx
    | cons x rest => exact hstranger
  cases pc with
  | flag =>
    obtain ⟨rfl, rfl⟩ := Prod.mk.inj (Option.some.inj h)
    refine ⟨rfl, ?_⟩
    split
    case isTrue => trivial
    case isFalse henabled =>
      split
      case isTrue => trivial
      case isFalse hlength =>
        refine hchecking ((hpc.resolve_left fun hflag => henabled ?_).resolve_left hlength)
        exact Bool.eq_false_iff.mp hflag
  | member userId rest =>
    obtain ⟨rfl, rfl⟩ := Prod.mk.inj (Option.some.inj h)
    refine ⟨rfl, ?_⟩
    split
    case isTrue hmember => exact hchecking (hasStranger_tail hpc hmember)
    case isFalse => trivial
  | transaction | outbox => exact hpc.elim
  | returned | threw | failed => cases h

/-- Nor does a `createWorkspaceChannel`. -/
theorem spared_workspaceChannel {a : Chat.WorkspaceArgs} {pc pc' : Chat.GroupPc}
    {t : Chat.ChannelStore} (hpc : SparesWorkspaceChannel s a pc)
    (h : Chat.workspaceNext s.directory s.chat.channels uuid a pc = some (t, pc')) :
    t = s.chat.channels ∧ SparesWorkspaceChannel s a pc' := by
  cases pc with
  | member =>
    obtain ⟨rfl, rfl⟩ := Prod.mk.inj (Option.some.inj h)
    refine ⟨rfl, ?_⟩
    split
    case isTrue => exact hpc
    case isFalse => trivial
  | transaction =>
    have hno : s.workspaces.primary.find a.workspaceId = none := hpc
    have hrefused : s.chat.channels.create s.directory (a.row uuid) [a.creatorId] = none := by
      rw [Chat.ChannelStore.create, if_neg]
      simp [Chat.WorkspaceArgs.row, Store.directory, hno]
    simp only [Chat.workspaceNext, Chat.groupWrite, hrefused] at h
    obtain ⟨rfl, rfl⟩ := Prod.mk.inj (Option.some.inj h)
    exact ⟨rfl, trivial⟩
  | outbox => exact hpc.elim
  | flag | returned | threw | failed => cases h

/-- A message that is not the user's own is not deleted. -/
theorem softDelete_messages {a : Chat.DeleteArgs} (h : ¬ s.OwnMessage a.orgId a.userId a.messageId) :
    (s.messages.softDelete a.orgId a.messageId a.userId).messages = s.chat.messages := by
  have hsame : s.chat.messages.rows.map
      (·.softDelete a.orgId a.messageId a.userId s.chat.now) = s.chat.messages.rows := by
    refine (List.map_congr_left fun r hr => ?_).trans (List.map_id _)
    rw [Chat.MessageRow.softDelete, if_neg fun hown => h ⟨r, hr, hown⟩]
    rfl
  exact Table.mk.injEq .. ▸ hsame

/-- Nor does a call to the chat. -/
theorem spared_chat {c c' : Chat.Call} {t : Chat.Store} (hc : SparesChat s c)
    (h : c.next s.messages uuid = some (t, c')) :
    Frame s { s with chat := t } ∧ SparesChat s c' := by
  have hframe : Frame s { s with chat := s.messages } := { Frame.refl s with }
  cases c with
  | send a pc =>
    obtain ⟨pc', hpc', rfl⟩ := pc_of_next h
    obtain ⟨rfl, hspared⟩ := spared_send hc hpc'
    exact ⟨hframe, hspared⟩
  | deleteMessage a pc =>
    obtain ⟨pc', hpc', rfl⟩ := pc_of_next h
    cases pc with
    | update =>
      obtain ⟨rfl, rfl⟩ := Prod.mk.inj (Option.some.inj hpc')
      refine ⟨{ Frame.refl s with chatMessages := softDelete_messages hc }, ?_⟩
      split <;> trivial
    | returned | threw => cases hpc'
  | channel c =>
    obtain ⟨t', c', hc', rfl, rfl⟩ := part_of_next (g := s.messages.putChannels) h
    have hsame : t' = s.chat.channels ∧ SparesChat s (.channel c') := by
      cases c with
      | createDirect a pc =>
        obtain ⟨pc', hpc', rfl⟩ := pc_of_next hc'
        exact spared_direct hc hpc'
      | createGroup a pc =>
        obtain ⟨pc', hpc', rfl⟩ := pc_of_next hc'
        exact spared_group hc hpc'
      | createWorkspaceChannel a pc =>
        obtain ⟨pc', hpc', rfl⟩ := pc_of_next hc'
        exact spared_workspaceChannel hc hpc'
    obtain ⟨rfl, hspared⟩ := hsame
    exact ⟨{ Frame.refl s with }, hspared⟩
  | listMessages | sync => exact hc.elim

/-! ### Files, workspaces, organisations -/

/-- Nor does a call to the files. -/
theorem spared_file {c c' : File.Call} {t : File.Store} (hc : SparesFile s c)
    (h : File.next cfg.file s.files uuid c = some (t, c')) :
    t = s.files ∧ SparesFile s c' := by
  cases c with
  | requestUploadUrl a pc =>
    obtain ⟨pc', hpc', rfl⟩ := pc_of_next h
    cases pc with
    | generate =>
      obtain ⟨rfl, rfl⟩ := Prod.mk.inj (Option.some.inj hpc')
      refine ⟨rfl, ?_⟩
      split
      case isTrue => trivial
      case isFalse hmime =>
        split
        case isTrue => trivial
        case isFalse hsize =>
          split
          case h_1 => trivial
          case h_2 => exact (hc.resolve_left hmime).resolve_left hsize
    | reserve storageKey url =>
      have hfull : s.files.addStorageUsed a.orgId a.sizeBytes = none := by
        unfold File.Store.addStorageUsed
        split
        case h_1 => rfl
        case h_2 org horg => exact if_neg (not_le.mpr (hc org horg))
      simp only [File.uploadNext, hfull] at hpc'
      obtain ⟨rfl, rfl⟩ := Prod.mk.inj (Option.some.inj hpc')
      exact ⟨rfl, trivial⟩
    | returned | threw | failed => cases hpc'
  | virusScan | fileCleanup | updateStorageUsed => exact hc.elim

/-- Where a patch sets nothing or meets no row, the tables of workspaces stay as they are. -/
theorem updateWorkspace_spared {w : Workspace.Store} {orgId workspaceId : String}
    {data : Workspace.UpdateWorkspaceData} {version : ℕ} (actorId : String)
    (h : data.isEmpty = true ∨ w.updatable orgId workspaceId version = none) :
    (Workspace.updateWorkspace w orgId workspaceId data version actorId).1.primary = w.primary
      ∧ (Workspace.updateWorkspace w orgId workspaceId data version actorId).1.replica
        = w.replica := by
  have hsame : (w.update orgId workspaceId data version).1 = w := by
    unfold Workspace.Store.update
    split
    case isTrue => rfl
    case isFalse hset =>
      rw [Workspace.Store.updateWhere, h.resolve_left hset]
  unfold Workspace.updateWorkspace
  split
  all_goals
    rename_i heq
    rw [heq] at hsame
    obtain rfl : _ = w := hsame
    exact ⟨rfl, rfl⟩

/-- A call of the workspaces that spares the tables stays in the frame. -/
theorem spared_workspace {c c' : WorkspaceCall} (hc : SparesWorkspace s c)
    (h : c.next s uuid = some (s', c')) : Frame s s' ∧ SparesWorkspace s c' := by
  cases c with
  | create orgId name description ownerUserId pc =>
    obtain ⟨pc', hpc', rfl⟩ := pc_of_next h
    cases pc with
    | insert | outbox => exact hc.elim
    | returned | failed => cases hpc'
  | update o workspaceId data version actorId pc =>
    cases pc with
    | update =>
      obtain ⟨rfl, rfl⟩ := Prod.mk.inj (Option.some.inj h)
      obtain ⟨hprimary, hreplica⟩ := updateWorkspace_spared actorId hc
      exact ⟨{ Frame.refl s with
        workspaces := hprimary
        replicaWorkspaces := .inl hreplica }, trivial⟩
    | ended response => cases h

/-- **A spared statement changes none of the tables**, and the call stays spared. -/
theorem spared_next {c c' : Service} {d : Draw} (hadmin : s.work.isAdmin orgId userId = false)
    (hc : Spares s orgId userId c) (hslug : ∀ u, c = .createOrg u .findSlug → d.slugTaken = true)
    (h : c.next cfg s d = some (s', c')) : Frame s s' ∧ Spares s orgId userId c' := by
  cases c with
  | task c =>
    obtain ⟨⟨work, c'⟩, hnext, heq⟩ := Option.map_eq_some_iff.mp h
    obtain ⟨rfl, rfl⟩ := Prod.mk.inj heq
    exact spared_task hadmin hc hnext
  | comment c =>
    obtain ⟨⟨t, c'⟩, hnext, heq⟩ := Option.map_eq_some_iff.mp h
    obtain ⟨rfl, rfl⟩ := Prod.mk.inj heq
    obtain ⟨rfl, hspared⟩ := spared_comment hc hnext
    exact ⟨Frame.refl s, hspared⟩
  | chat c =>
    obtain ⟨⟨t, c'⟩, hnext, heq⟩ := Option.map_eq_some_iff.mp h
    obtain ⟨rfl, rfl⟩ := Prod.mk.inj heq
    exact spared_chat hc hnext
  | file c =>
    obtain ⟨⟨t, c'⟩, hnext, heq⟩ := Option.map_eq_some_iff.mp h
    obtain ⟨rfl, rfl⟩ := Prod.mk.inj heq
    obtain ⟨rfl, hspared⟩ := spared_file hc hnext
    exact ⟨Frame.refl s, hspared⟩
  | workspace c =>
    obtain ⟨c', hnext, rfl⟩ := pc_of_next h
    exact spared_workspace hc hnext
  | createOrg u pc =>
    obtain ⟨pc', hnext, rfl⟩ := pc_of_next h
    cases pc with
    | findSlug =>
      rw [createOrgNext, if_pos (hslug u rfl)] at hnext
      obtain ⟨rfl, rfl⟩ := Prod.mk.inj (Option.some.inj hnext)
      exact ⟨Frame.refl s, trivial⟩
    | transaction | outbox => exact hc.elim
    | returned | threw | failed => cases hnext
  | elsewhere => cases h

end Steps

/-! ## Runs of requests -/

variable {ι : Type*}

/-- The member is a guest, and the replica does not have them as more than a member. -/
structure IsGuest (s : Store) (orgId userId : String) : Prop where
  role : s.work.members orgId userId = some .guest
  replica : s.work.isAdmin orgId userId = false

/-- A guest stays a guest. -/
theorem Frame.isGuest {s s' : Store} {orgId userId : String} (h : Frame s s')
    (hguest : IsGuest s orgId userId) : IsGuest s' orgId userId := by
  refine ⟨by rw [h.members, hguest.role], ?_⟩
  unfold Task.Store.isAdmin
  rcases h.roles with hroles | hroles
  · rw [hroles]
    exact hguest.replica
  · rw [hroles, hguest.role]
    rfl

/-- **What a request asks for is spared**: behind the middlewares its service changes none of the
tables; and no new organisation has a slug that is free. -/
def Harmless (orgId userId : String) (p : Calls ι) : Move ι Draw Env → Prop
  | .run i d =>
    match (p.calls i).at' with
    | .arrived req body =>
      match arrive orgId userId d.caller req body with
      | .serving c => Spares p.store orgId userId c
      | _ => True
    | .serving (.createOrg _ .findSlug) => d.slugTaken = true
    | _ => True
  | _ => True

/-- The handlers that do something for a guest in one of the tables. -/
def Handler.opens : Handler → Bool
  | .createOrg | .createTask | .updateTask | .deleteTask | .createComment | .deleteComment
  | .createDirect | .createGroup | .createWorkspaceChannel | .sendMessage | .deleteMessage
  | .requestUploadUrl | .createWorkspace | .updateWorkspace | .deleteWorkspace => true
  | _ => false

/-- **The other handlers are closed to a guest**, whatever a request contains. -/
theorem spares_of_not_opens {s : Store} {orgId userId : String} {params : List String} {h : Handler}
    {body : Body} {c : Service} (hclosed : h.opens = false)
    (hstart : h.start orgId userId params body = .ok c) : Spares s orgId userId c := by
  cases h with
  | bulkUpdateStatus =>
    cases body with
    | bulkStatus taskIds status =>
      obtain rfl := Except.ok.inj hstart
      exact ⟨rfl, rfl, trivial⟩
    | _ => cases hstart
  | bulkDelete =>
    cases body with
    | bulkDelete taskIds =>
      obtain rfl := Except.ok.inj hstart
      exact ⟨rfl, rfl, trivial⟩
    | _ => cases hstart
  | createOrg | createTask | updateTask | deleteTask | createComment | deleteComment | createDirect
  | createGroup | createWorkspaceChannel | sendMessage | deleteMessage | requestUploadUrl
  | createWorkspace | updateWorkspace | deleteWorkspace => cases hclosed
  | _ =>
    obtain rfl := Except.ok.inj hstart
    trivial

/-- A request whose service, where it has begun, changes none of the tables. -/
def SparesCall (s : Store) (orgId userId : String) : Call → Prop
  | .serving c => Spares s orgId userId c
  | _ => True

theorem Frame.sparesCall {s s' : Store} {orgId userId : String} (h : Frame s s') {c : Call}
    (hc : SparesCall s orgId userId c) : SparesCall s' orgId userId c := by
  cases c with
  | serving c => exact h.spares hc
  | arrived | refused => trivial

/-- **One move of a request**, where it is harmless. -/
theorem spared_call [DecidableEq ι] {cfg : Config} {orgId userId : String} {p : Calls ι} {i : ι}
    {d : Draw} {c c' : Call} {s' : Store} (hguest : IsGuest p.store orgId userId)
    (hi : p.calls i = .up c) (hc : SparesCall p.store orgId userId c)
    (hharmless : Harmless orgId userId p (.run i d))
    (h : c.next cfg orgId userId p.store d = some (s', c')) :
    Frame p.store s' ∧ SparesCall p.store orgId userId c' := by
  rw [Harmless, hi] at hharmless
  cases c with
  | arrived req body =>
    obtain ⟨rfl, rfl⟩ := Prod.mk.inj (Option.some.inj h)
    refine ⟨Frame.refl _, ?_⟩
    change (match arrive orgId userId d.caller req body with
      | .serving c => Spares p.store orgId userId c
      | _ => True) at hharmless
    cases harrive : arrive orgId userId d.caller req body with
    | serving c =>
      rw [harrive] at hharmless
      exact hharmless
    | arrived | refused => trivial
  | serving c =>
    obtain ⟨c', hnext, rfl⟩ := pc_of_next h
    refine spared_next hguest.replica hc (fun u hu => ?_) hnext
    subst hu
    exact hharmless
  | refused e => cases h

/-- **A guest whose requests are harmless changes nothing**: however many requests there are, and
however their statements interleave. -/
theorem guest_changes_nothing [DecidableEq ι] {cfg : Config} {orgId userId : String}
    {p q : Calls ι} (harrived : ∀ i, ∃ req body, p.calls i = .up (.arrived req body))
    (hguest : IsGuest p.store orgId userId)
    (hrun : Run (Pool.step (requestMachine cfg orgId userId)) (Harmless orgId userId) p q) :
    SameTables p.store q.store := by
  have hinv : SameTables p.store q.store ∧ IsGuest q.store orgId userId
      ∧ ∀ i, (q.calls i).Keeps (SparesCall q.store orgId userId) := by
    refine Pool.invariant (I := fun t => SameTables p.store t.store ∧ IsGuest t.store orgId userId
      ∧ ∀ i, (t.calls i).Keeps (SparesCall t.store orgId userId)) ?_ ?_ ?_ ?_ hrun
    · refine ⟨(Frame.refl _).toSameTables, hguest, fun i => ?_⟩
      obtain ⟨req, body, hi⟩ := harrived i
      rw [hi]
      trivial
    · rintro t i d c s' c' ⟨hsame, hguest, hcalls⟩ hharmless hi hnext
      have hc : SparesCall t.store orgId userId c := (hcalls i).of_up hi
      obtain ⟨hframe, hc'⟩ := spared_call hguest hi hc hharmless hnext
      refine ⟨hsame.trans hframe.toSameTables, hframe.isGuest hguest, ?_⟩
      exact keeps_update_up (hframe.sparesCall hc') fun j _ =>
        (hcalls j).imp fun _ => hframe.sparesCall
    · rintro t i c ⟨hsame, hguest, hcalls⟩ - hi
      exact ⟨hsame, hguest, keeps_update_down hcalls⟩
    · rintro t e ⟨hsame, hguest, hcalls⟩ -
      have hframe := frame_env t.store e
      exact ⟨hsame.trans hframe.toSameTables, hframe.isGuest hguest, fun j =>
        (hcalls j).imp fun _ => hframe.sparesCall⟩
  exact hinv.1

/-! ## Two requests of a guest -/

def demoConfig : Config where
  task := ⟨fun _ _ => none, fun due => due, fun due => due⟩
  file := ⟨fun key _ _ => some key, id, fun _ => none, fun _ => none⟩

/-- A task of another member. -/
def demoTask : Task.TaskRow where
  id := "t"
  orgId := "o"
  workspaceId := "w"
  boardId := none
  parentTaskId := none
  depth := 0
  title := "draft"
  description := none
  status := .todo
  priority := .medium
  creatorId := "u"
  dueDate := none
  completedAt := none
  isRecurring := false
  recurrenceRule := none
  recurrenceParentId := none
  labels := []
  deletedAt := none
  version := 1

/-- An organisation with the guest `g` and a task of `u`. -/
def demoStore : Store where
  work :=
    { now := 0, tasks := ⟨[demoTask], by decide⟩, assignees := fun _ => []
      replicaAssignees := fun _ => [], members := fun _ _ => some .guest
      roles := fun _ _ => some .guest, workspaces := Table.empty
      replicaWorkspaces := Table.empty, boards := Table.empty, outbox := [] }
  comments := ⟨0, Table.empty, Table.empty, fun _ _ => none, []⟩
  chat :=
    { now := 0, channels := ⟨Table.empty, fun _ => [], [], fun _ => none, []⟩
      directory := ⟨fun _ _ => true, fun _ => false, fun _ => false⟩
      messages := Table.empty, replica := ⟨fun _ => [], Table.empty⟩, outbox := []
      received := fun _ => [] }
  files := ⟨0, fun _ => none, Table.empty, [], []⟩
  workspaces := ⟨0, Table.empty, Table.empty, []⟩
  chatEnabled := fun _ => false

def demoDraw : Draw := ⟨"w", "p", false, ⟨none, .ok ⟨.active, .guest⟩⟩⟩

/-- One request to the organisation of `demoStore`. -/
def oneRequest (req : Request) (body : Body) : Calls (Fin 1) :=
  ⟨demoStore, fun _ => .up (.arrived req body)⟩

/-- `DELETE /api/v1/orgs/o/tasks/t`. -/
def deleteTheirs : Request := ⟨.delete, "/api/v1/orgs/o/tasks/t".toList⟩

/-- The guest is refused, and nothing has changed. -/
theorem guest_keeps_theirs :
    ∃ q, Run (Pool.step (requestMachine demoConfig "o" "g")) (Harmless "o" "g")
        (oneRequest deleteTheirs .other) q
      ∧ (q.calls 0).at' = .serving (.task (.edit (.deleteTask "o" "t" "g" (.threw
          (Task.insufficientRole "Only the task creator or admins can delete this task")))))
      ∧ SameTables demoStore q.store := by
  have hharmless : Harmless "o" "g" (oneRequest deleteTheirs .other) (.run 0 demoDraw) := by
    refine ⟨rfl, rfl, ?_⟩
    rintro ⟨r, hr, -, hcreator⟩
    obtain rfl : demoTask = r := Option.some.inj hr
    exact absurd hcreator (by decide)
  have hstart : Run (Pool.step (requestMachine demoConfig "o" "g")) (Harmless "o" "g")
      (oneRequest deleteTheirs .other) _ := Run.refl.tail hharmless rfl
  have hfind := hstart.tail (a := .run 0 demoDraw) (by exact trivial) rfl
  have hrun := hfind.tail (a := .run 0 demoDraw) (by exact trivial) rfl
  exact ⟨_, hrun, rfl, guest_changes_nothing (fun _ => ⟨_, _, rfl⟩) ⟨rfl, rfl⟩ hrun⟩

/-- `POST /api/v1/orgs/o/workspaces`. -/
def postWorkspace : Request := ⟨.post, "/api/v1/orgs/o/workspaces".toList⟩

/-- A guest makes a workspace. -/
theorem guest_creates_workspace :
    IsGuest demoStore "o" "g"
      ∧ ∃ q, Run (Pool.step (requestMachine demoConfig "o" "g")) anyStep
          (oneRequest postWorkspace (.workspace "mine" none)) q
        ∧ ¬ SameTables demoStore q.store := by
  refine ⟨⟨rfl, rfl⟩, ?_⟩
  obtain ⟨q, hrun, hq⟩ := exists_run_of_exec (Pool.step (requestMachine demoConfig "o" "g")) anyStep
    (oneRequest postWorkspace (.workspace "mine" none)) [.run 0 demoDraw, .run 0 demoDraw]
    (fun q => q.store.workspaces.primary.rows.length = 1) (by decide)
  refine ⟨q, hrun, fun hsame => ?_⟩
  have hlength := of_decide_eq_true hq
  rw [hsame.workspaces] at hlength
  exact absurd hlength (by decide)

end WorkPlatform.Http

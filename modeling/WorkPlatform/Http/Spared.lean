import WorkPlatform.Http.Services

/-!
# Http/Spared — calls that change none of the seven tables

    tasks  task_assignees  comments  workspaces  channels  chat_messages  files

A call is spared where what it asks for is refused: by the role or by who made the row, for the user
at hand, or by the tables as they are, for everybody.  Where a refusal goes by a replica, it is to
hold of the primary as well: the replica catches up, and the call is still spared (`Frame.spares`).
-/

namespace WorkPlatform.Http

open Machinery

/-! ## The tables -/

/-- **The seven tables are as they were.** -/
structure SameTables (s s' : Store) : Prop where
  tasks : s'.work.tasks = s.work.tasks
  taskAssignees : s'.work.assignees = s.work.assignees
  comments : s'.comments.comments = s.comments.comments
  workspaces : s'.workspaces.primary = s.workspaces.primary
  channels : s'.chat.channels.channels = s.chat.channels.channels
  chatMessages : s'.chat.messages = s.chat.messages
  files : s'.files.files = s.files.files

/-- And so is everything else a refusal goes by, but that a replica may have caught up. -/
structure Frame (s s' : Store) : Prop extends SameTables s s' where
  members : s'.work.members = s.work.members
  roles : s'.work.roles = s.work.roles ∨ s'.work.roles = s.work.members
  replicaComments : s'.comments.replicaComments = s.comments.replicaComments
    ∨ s'.comments.replicaComments = s.comments.comments
  replicaWorkspaces : s'.workspaces.replica = s.workspaces.replica
    ∨ s'.workspaces.replica = s.workspaces.primary
  channelMembers : s'.chat.channels.members = s.chat.channels.members
  pairs : s'.chat.channels.pairs = s.chat.channels.pairs
  replicaMembers : s'.chat.replica.members = s.chat.replica.members
    ∨ s'.chat.replica.members = s.chat.channels.members
  storage : s'.files.orgs = s.files.orgs
  chatEnabled : s'.chatEnabled = s.chatEnabled

/-- The tables that are the same twice are the same. -/
theorem SameTables.trans {s t u : Store} (h : SameTables s t) (h' : SameTables t u) :
    SameTables s u where
  tasks := h'.tasks.trans h.tasks
  taskAssignees := h'.taskAssignees.trans h.taskAssignees
  comments := h'.comments.trans h.comments
  workspaces := h'.workspaces.trans h.workspaces
  channels := h'.channels.trans h.channels
  chatMessages := h'.chatMessages.trans h.chatMessages
  files := h'.files.trans h.files

theorem Frame.refl (s : Store) : Frame s s :=
  ⟨⟨rfl, rfl, rfl, rfl, rfl, rfl, rfl⟩, rfl, .inl rfl, .inl rfl, .inl rfl, rfl, rfl, .inl rfl, rfl,
    rfl⟩

/-- What the surroundings do stays in the frame. -/
theorem frame_env (s : Store) (e : Env) : Frame s (env s e) := by
  cases e with
  | tick ms => exact { Frame.refl s with }
  | replicate =>
    exact { Frame.refl s with
      roles := .inr rfl
      replicaComments := .inr rfl
      replicaWorkspaces := .inr rfl
      replicaMembers := .inr rfl }

/-! ## What a member has and is -/

namespace Store

variable (s : Store) (orgId userId : String)

/-- A live task of the organisation, made by the user. -/
def OwnTask (taskId : String) : Prop :=
  ∃ r, s.work.findById taskId = some r ∧ r.orgId = orgId ∧ r.creatorId = userId

/-- A live message of the organisation, sent by the user. -/
def OwnMessage (messageId : String) : Prop :=
  ∃ r ∈ s.chat.messages.rows,
    r.id = messageId ∧ r.orgId = orgId ∧ r.senderId = userId ∧ r.deletedAt = none

/-- A live comment of the organisation, on the primary or the replica. -/
def LiveComment (commentId : String) (c : Task.CommentRow) : Prop :=
  ∃ t, (t = s.comments.comments ∨ t = s.comments.replicaComments) ∧
    (t.find commentId).filter (fun c => c.orgId = orgId ∧ c.deletedAt = none) = some c

/-- One of the user's. -/
def OwnComment (commentId : String) : Prop :=
  ∃ c, s.LiveComment orgId commentId c ∧ c.authorId = userId

/-- A live workspace of the organisation, on the primary or the replica. -/
def LiveWorkspace (workspaceId : String) : Prop :=
  ∃ t, (t = s.workspaces.primary ∨ t = s.workspaces.replica) ∧
    ∃ w, t.find workspaceId = some w ∧ w.deletedAt = none ∧ w.orgId = orgId

/-- A member of the organisation, on the primary or the replica. -/
def IsMember : Prop :=
  (s.work.members orgId userId).isSome ∨ (s.work.roles orgId userId).isSome

/-- A member of the channel, on the primary or the replica. -/
def InChannel (channelId : String) : Prop :=
  userId ∈ s.chat.channels.members channelId ∨ userId ∈ s.chat.replica.members channelId

end Store

section Frame

variable {s s' : Store} {orgId userId : String} (h : Frame s s')
include h

theorem Frame.ownTask {taskId : String} (hown : s'.OwnTask orgId userId taskId) :
    s.OwnTask orgId userId taskId := by
  unfold Store.OwnTask Task.Store.findById at hown ⊢
  rwa [h.tasks] at hown

theorem Frame.ownMessage {messageId : String} (hown : s'.OwnMessage orgId userId messageId) :
    s.OwnMessage orgId userId messageId := by
  unfold Store.OwnMessage at hown ⊢
  rwa [h.chatMessages] at hown

theorem Frame.liveComment {commentId : String} {c : Task.CommentRow}
    (hlive : s'.LiveComment orgId commentId c) : s.LiveComment orgId commentId c := by
  obtain ⟨t, rfl | rfl, hc⟩ := hlive
  · exact ⟨_, .inl h.comments, hc⟩
  · exact ⟨_, h.replicaComments.symm, hc⟩

theorem Frame.liveWorkspace {workspaceId : String} (hlive : s'.LiveWorkspace orgId workspaceId) :
    s.LiveWorkspace orgId workspaceId := by
  obtain ⟨t, rfl | rfl, hw⟩ := hlive
  · exact ⟨_, .inl h.workspaces, hw⟩
  · exact ⟨_, h.replicaWorkspaces.symm, hw⟩

theorem Frame.isMember (hmember : s'.IsMember orgId userId) : s.IsMember orgId userId := by
  unfold Store.IsMember at hmember ⊢
  rw [h.members] at hmember
  rcases h.roles with hroles | hroles
  · rwa [hroles] at hmember
  · rw [hroles, or_self] at hmember
    exact .inl hmember

theorem Frame.inChannel {channelId : String} (hin : s'.InChannel userId channelId) :
    s.InChannel userId channelId := by
  unfold Store.InChannel at hin ⊢
  rw [h.channelMembers] at hin
  rcases h.replicaMembers with hreplica | hreplica
  · rwa [hreplica] at hin
  · rw [hreplica, or_self] at hin
    exact .inl hin

end Frame

/-! ## Calls that change nothing

A call is spared at a control point from which no statement of it changes a table: for what the
request asks, or for what the tables and their replicas say. -/

section Spared

variable (s : Store) (orgId userId : String)

/-- The task is not the user's own. -/
def SparesUpdate (a : Task.UpdateArgs) : Task.UpdatePc → Prop
  | .find => ¬ s.OwnTask orgId userId a.taskId
  | .membership existing => existing.creatorId ≠ userId
  | .returned _ | .threw _ | .failed => True
  | _ => False

/-- The task is not the user's own. -/
def SparesDelete (taskId : String) : Task.DeletePc → Prop
  | .find => ¬ s.OwnTask orgId userId taskId
  | .membership existing => existing.creatorId ≠ userId
  | .returned | .threw _ => True
  | _ => False

def SparesBulk : Task.BulkPc → Prop
  | .update => False
  | _ => True

/-- The parent is no task of the organisation, or it is too deep. -/
def BadParent (parentTaskId : String) : Prop :=
  ∀ r, s.work.findById parentTaskId = some r → r.orgId = orgId →
    Task.maxTaskDepth < r.depth + 1

/-- One of the users is no member of the organisation. -/
def HasStranger (users : List String) : Prop := ∃ x ∈ users, ¬ s.IsMember orgId x

/-- There is no such workspace. -/
def NoWorkspace (workspaceId : String) : Prop := s.workspaces.primary.find workspaceId = none

/-- A new task in no workspace, under a bad parent, or for a stranger. -/
def SparesCreateTask (a : Task.CreateArgs) : Task.CreatePc → Prop
  | .parent parentTaskId =>
    NoWorkspace s a.input.workspaceId ∨ BadParent s a.orgId parentTaskId
      ∨ HasStranger s a.orgId a.assignees
  | .member _ assigneeId rest =>
    NoWorkspace s a.input.workspaceId ∨ HasStranger s a.orgId (assigneeId :: rest)
  | .insert _ => NoWorkspace s a.input.workspaceId
  | .returned _ | .threw _ | .failed => True
  | _ => False

/-- There is no such workspace of the organisation. -/
def SparesDeleteWorkspace (workspaceId : String) : Task.WorkspacePc → Prop
  | .find => ¬ s.LiveWorkspace orgId workspaceId
  | .returned | .threw _ => True
  | _ => False

/-- A call to the tasks that changes nothing of the organisation's. -/
def SparesTask : Task.Op → Prop
  | .edit (.updateTask a pc) => a.orgId = orgId ∧ a.userId = userId ∧ SparesUpdate s orgId userId a pc
  | .edit (.deleteTask o taskId u pc) =>
    o = orgId ∧ u = userId ∧ SparesDelete s orgId userId taskId pc
  | .edit (.bulkUpdateStatus o u _ _ pc) | .edit (.bulkDelete o u _ pc) =>
    o = orgId ∧ u = userId ∧ SparesBulk pc
  | .createTask a pc => SparesCreateTask s a pc
  | .recurring _ _ => False
  | .deleteWorkspace o workspaceId _ pc => SparesDeleteWorkspace s o workspaceId pc

/-- The parent is no comment that can be answered. -/
def BadParentComment (o parentCommentId : String) : Prop :=
  ∀ c, s.LiveComment o parentCommentId c → c.parentCommentId ≠ none

/-- A new comment on no task, or under a bad parent. -/
def SparesCreateComment (a : Task.CommentArgs) : Task.CommentPc → Prop
  | .parent parentCommentId =>
    s.work.tasks.find a.taskId = none ∨ BadParentComment s a.orgId parentCommentId
  | .insert => s.work.tasks.find a.taskId = none
  | .returned _ | .threw _ | .failed => True
  | _ => False

/-- A comment that is not the user's own, or a new one that is refused. -/
def SparesComment : Task.CommentCall → Prop
  | .createComment a pc => SparesCreateComment s a pc
  | .deleteComment o commentId u .check => ¬ s.OwnComment o u commentId
  | .deleteComment _ _ _ .update => False
  | .deleteComment _ _ _ .returned | .deleteComment _ _ _ (.threw _) => True

/-- The message has been sent before. -/
def IsSent (a : Chat.SendArgs) : Prop :=
  (s.chat.findByClientMessageId a.channelId a.clientMessageId).isSome

/-- The parent is no message that can be answered. -/
def BadParentMessage (channelId id : String) : Prop :=
  Chat.SendPc.checked (s.chat.findById id channelId) ≠ .sequence

/-- A message to a channel the user is not in, one sent before, or one under a bad parent. -/
def SparesSend (a : Chat.SendArgs) : Chat.SendPc → Prop
  | .member =>
    ¬ s.InChannel a.senderId a.channelId ∨ IsSent s a
      ∨ ∃ id, a.parentMessageId = some id ∧ BadParentMessage s a.channelId id
  | .existing =>
    IsSent s a ∨ ∃ id, a.parentMessageId = some id ∧ BadParentMessage s a.channelId id
  | .parent id => BadParentMessage s a.channelId id
  | .returned _ | .threw _ | .failed => True
  | _ => False

/-- The two have a channel. -/
def HasPair (a : Chat.DirectArgs) : Prop :=
  (s.chat.channels.findPair a.orgId a.userAId a.userBId).isSome

/-- A direct channel that is there, or one with a stranger. -/
def SparesDirect (a : Chat.DirectArgs) : Chat.DirectPc → Prop
  | .creator | .other _ => HasPair s a ∨ ¬ s.IsMember a.orgId a.otherUserId
  | .transaction => HasPair s a
  | .outbox _ => False
  | _ => True

/-- A group without the chat feature, of fewer than two, or with a stranger. -/
def SparesGroup (a : Chat.GroupArgs) : Chat.GroupPc → Prop
  | .flag =>
    s.chatEnabled a.orgId = false ∨ a.memberIds.length < 2 ∨ HasStranger s a.orgId a.users
  | .member userId rest => HasStranger s a.orgId (userId :: rest)
  | .transaction | .outbox _ => False
  | _ => True

/-- A channel of no workspace. -/
def SparesWorkspaceChannel (a : Chat.WorkspaceArgs) : Chat.GroupPc → Prop
  | .member _ _ | .transaction => NoWorkspace s a.workspaceId
  | .outbox _ => False
  | _ => True

/-- A call to the chat that changes nothing of the organisation's. -/
def SparesChat : Chat.Call → Prop
  | .send a pc => SparesSend s a pc
  | .deleteMessage a .update => ¬ s.OwnMessage a.orgId a.userId a.messageId
  | .deleteMessage _ .returned | .deleteMessage _ (.threw _) => True
  | .channel (.createDirect a pc) => SparesDirect s a pc
  | .channel (.createGroup a pc) => SparesGroup s a pc
  | .channel (.createWorkspaceChannel a pc) => SparesWorkspaceChannel s a pc
  | .listMessages _ _ | .sync _ _ => False

/-- The organisation has no room for the file. -/
def NoRoom (a : File.UploadArgs) : Prop :=
  ∀ org, s.files.orgs a.orgId = some org →
    org.storageQuotaBytes < org.storageUsedBytes + a.sizeBytes

/-- A file of a kind or a size that is not taken, or one there is no room for. -/
def SparesFile : File.Call → Prop
  | .requestUploadUrl a .generate =>
    a.mimeType ∉ File.mimeAllowlist ∨ File.maxBytes a.planTier < a.sizeBytes ∨ NoRoom s a
  | .requestUploadUrl a (.reserve _ _) => NoRoom s a
  | .requestUploadUrl _ (.returned _ _) | .requestUploadUrl _ (.threw _)
  | .requestUploadUrl _ .failed => True
  | _ => False

/-- A patch with no field, or of no workspace of the organisation at that version. -/
def SparesWorkspace : WorkspaceCall → Prop
  | .create _ _ _ _ .insert | .create _ _ _ _ (.outbox _) => False
  | .create _ _ _ _ (.returned _) | .create _ _ _ _ .failed => True
  | .update o workspaceId data version _ .update =>
    data.isEmpty = true ∨ s.workspaces.updatable o workspaceId version = none
  | .update _ _ _ _ _ (.ended _) => True

/-- **A service that changes none of the tables**; of a new organisation that is up to its slug. -/
def Spares : Service → Prop
  | .task c => SparesTask s orgId userId c
  | .comment c => SparesComment s c
  | .chat c => SparesChat s c
  | .file c => SparesFile s c
  | .workspace c => SparesWorkspace s c
  | .createOrg _ .transaction | .createOrg _ .outbox => False
  | .createOrg _ _ | .elsewhere => True

end Spared

/-! ### Spared calls stay spared -/

section Stable

variable {s s' : Store} {orgId userId : String} (h : Frame s s')
include h

theorem Frame.findTask (taskId : String) : s'.work.findById taskId = s.work.findById taskId := by
  rw [Task.Store.findById, h.tasks, Task.Store.findById]

theorem Frame.noWorkspace {workspaceId : String} (hno : NoWorkspace s workspaceId) :
    NoWorkspace s' workspaceId := by
  rwa [NoWorkspace, h.workspaces]

theorem Frame.badParent {parentTaskId : String} (hbad : BadParent s orgId parentTaskId) :
    BadParent s' orgId parentTaskId := by
  intro r hr
  rw [h.findTask] at hr
  exact hbad r hr

theorem Frame.hasStranger {users : List String} (hstranger : HasStranger s orgId users) :
    HasStranger s' orgId users := by
  obtain ⟨x, hx, hno⟩ := hstranger
  exact ⟨x, hx, fun hmember => hno (h.isMember hmember)⟩

theorem Frame.badParentMessage {channelId id : String} (hbad : BadParentMessage s channelId id) :
    BadParentMessage s' channelId id := by
  unfold BadParentMessage Chat.Store.findById at hbad ⊢
  rwa [h.chatMessages]

/-- A call to the tasks stays spared. -/
theorem Frame.sparesTask {c : Task.Op} (hc : SparesTask s orgId userId c) :
    SparesTask s' orgId userId c := by
  cases c with
  | edit c =>
    cases c with
    | updateTask a pc =>
      obtain ⟨ho, hu, hpc⟩ := hc
      refine ⟨ho, hu, ?_⟩
      cases pc with
      | find => exact fun hown => hpc (h.ownTask hown)
      | _ => exact hpc
    | deleteTask o taskId u pc =>
      obtain ⟨ho, hu, hpc⟩ := hc
      refine ⟨ho, hu, ?_⟩
      cases pc with
      | find => exact fun hown => hpc (h.ownTask hown)
      | _ => exact hpc
    | bulkUpdateStatus | bulkDelete => exact hc
  | createTask a pc =>
    cases pc with
    | parent parentTaskId => exact hc.imp h.noWorkspace (Or.imp h.badParent h.hasStranger)
    | member depth assigneeId rest => exact hc.imp h.noWorkspace h.hasStranger
    | insert depth => exact h.noWorkspace hc
    | _ => exact hc
  | recurring => exact hc
  | deleteWorkspace o workspaceId actorId pc =>
    cases pc with
    | find => exact fun hlive => hc (h.liveWorkspace hlive)
    | _ => exact hc

/-- A comment call that spares the tables goes on sparing them in the frame. -/
theorem Frame.sparesComment {c : Task.CommentCall} (hc : SparesComment s c) :
    SparesComment s' c := by
  cases c with
  | createComment a pc =>
    cases pc with
    | parent parentCommentId =>
      refine hc.imp (fun hno => by rwa [h.tasks]) fun hbad c hlive => ?_
      exact hbad c (h.liveComment hlive)
    | insert => exact (congrArg (Table.find · a.taskId) h.tasks).trans hc
    | _ => exact hc
  | deleteComment o commentId u pc =>
    cases pc with
    | check =>
      rintro ⟨c, hlive, hauthor⟩
      exact hc ⟨c, h.liveComment hlive, hauthor⟩
    | _ => exact hc

theorem Frame.isSent {a : Chat.SendArgs} (hsent : IsSent s a) : IsSent s' a := by
  unfold IsSent Chat.Store.findByClientMessageId at hsent ⊢
  rwa [h.chatMessages]

/-- So does a send. -/
theorem Frame.sparesSend {a : Chat.SendArgs} {pc : Chat.SendPc} (hpc : SparesSend s a pc) :
    SparesSend s' a pc := by
  have hparent : (∃ id, a.parentMessageId = some id ∧ BadParentMessage s a.channelId id) →
      ∃ id, a.parentMessageId = some id ∧ BadParentMessage s' a.channelId id :=
    fun ⟨id, hid, hbad⟩ => ⟨id, hid, h.badParentMessage hbad⟩
  cases pc with
  | member =>
    exact hpc.imp (fun hno hin => hno (h.inChannel hin)) (Or.imp h.isSent hparent)
  | existing => exact hpc.imp h.isSent hparent
  | parent id => exact h.badParentMessage hpc
  | _ => exact hpc

theorem Frame.hasPair {a : Chat.DirectArgs} (hpair : HasPair s a) : HasPair s' a := by
  unfold HasPair Chat.ChannelStore.findPair at hpair ⊢
  rwa [h.pairs]

/-- A call to the chat stays spared. -/
theorem Frame.sparesChat {c : Chat.Call} (hc : SparesChat s c) : SparesChat s' c := by
  cases c with
  | send a pc => exact h.sparesSend hc
  | deleteMessage a pc =>
    cases pc with
    | update => exact fun hown => hc (h.ownMessage hown)
    | _ => exact hc
  | channel c =>
    cases c with
    | createDirect a pc =>
      cases pc with
      | creator | other => exact hc.imp h.hasPair fun hno hmember => hno (h.isMember hmember)
      | transaction => exact h.hasPair hc
      | _ => exact hc
    | createGroup a pc =>
      cases pc with
      | flag =>
        exact hc.imp (fun hflag => by rwa [h.chatEnabled]) (Or.imp id h.hasStranger)
      | member => exact h.hasStranger hc
      | _ => exact hc
    | createWorkspaceChannel a pc =>
      cases pc with
      | member | transaction => exact h.noWorkspace hc
      | _ => exact hc
  | listMessages | sync => exact hc

theorem Frame.noRoom {a : File.UploadArgs} (hno : NoRoom s a) : NoRoom s' a := by
  rwa [NoRoom, h.storage]

theorem Frame.sparesFile {c : File.Call} (hc : SparesFile s c) : SparesFile s' c := by
  cases c with
  | requestUploadUrl a pc =>
    cases pc with
    | generate => exact hc.imp_right (Or.imp_right h.noRoom)
    | reserve => exact h.noRoom hc
    | _ => exact hc
  | virusScan | fileCleanup | updateStorageUsed => exact hc

/-- So does a call of the workspaces. -/
theorem Frame.sparesWorkspace {c : WorkspaceCall} (hc : SparesWorkspace s c) :
    SparesWorkspace s' c := by
  cases c with
  | create orgId name description ownerUserId pc => cases pc <;> exact hc
  | update o workspaceId data version actorId pc =>
    cases pc with
    | update =>
      refine hc.imp_right fun hnone => ?_
      unfold Workspace.Store.updatable at hnone ⊢
      rwa [h.workspaces]
    | ended response => exact hc

/-- **What is spared stays spared.** -/
theorem Frame.spares {c : Service} (hc : Spares s orgId userId c) : Spares s' orgId userId c := by
  cases c with
  | task c => exact h.sparesTask hc
  | comment c => exact h.sparesComment hc
  | chat c => exact h.sparesChat hc
  | file c => exact h.sparesFile hc
  | workspace c => exact h.sparesWorkspace hc
  | createOrg userId pc => cases pc <;> exact hc
  | elsewhere => exact hc

end Stable

end WorkPlatform.Http

import WorkPlatform.Chat.Message
import WorkPlatform.File.Calls
import WorkPlatform.Http.Routes
import WorkPlatform.Task.Comment
import WorkPlatform.Task.Create
import WorkPlatform.Workspace.Update

/-!
# Http/Services — from a request to the service its handler calls

    arrived ▸ [middlewares ▸ schema] ▸ serving … ▸          tasks        Task.Op
                    ╲                                       comments     Task.CommentCall
                     refused                                chat         Chat.Call
                                                            files        File.Call
                                                            workspaces   WorkspaceCall
                                                            orgs         CreateOrgPc

The services are those of the other modules, over one store; what they read of one another's tables
is read from it.  A member sends the requests, with a token for the organisation and its id in the
header.  A handler of another service writes none of the tables here: it is `elsewhere`.
-/

namespace WorkPlatform.Http

open Machinery
open Organization (OrgContext)
open Workspace (WorkspaceRow Workspaces UpdateWorkspaceData)

/-! ## The store -/

/-- The stores of the services. -/
structure Store where
  work : Task.Store
  comments : Task.CommentStore
  chat : Chat.Store
  files : File.Store
  workspaces : Workspace.Store
  chatEnabled : String → Bool

/-- The columns of a workspace the tasks' services read. -/
def keyColumns (r : WorkspaceRow) : Task.WorkspaceRow := ⟨r.id, r.orgId, r.deletedAt⟩

/-- The workspaces, as far as tasks refer to them. -/
def keyTable (t : Workspaces) : Table Task.WorkspaceRow.id where
  rows := t.rows.map keyColumns
  keys_nodup := by
    rw [List.map_map]
    exact t.keys_nodup

namespace Store

/-- What the services of tasks see. -/
def tasks (s : Store) : Task.Store :=
  { s.work with
    workspaces := keyTable s.workspaces.primary
    replicaWorkspaces := keyTable s.workspaces.replica }

/-- What the chat reads of the others. -/
def directory (s : Store) : Chat.Directory where
  isMember orgId userId := (s.work.roles orgId userId).isSome
  hasWorkspace id := (s.workspaces.primary.find id).isSome
  chatEnabled := s.chatEnabled

/-- What the services of the chat see. -/
def messages (s : Store) : Chat.Store := { s.chat with directory := s.directory }

end Store

/-! ## Workspaces -/

/-- Where a call of `createWorkspace` is. -/
inductive CreateWorkspacePc
  | insert
  | outbox (workspace : WorkspaceRow)
  | returned (workspace : WorkspaceRow)
  | failed
  deriving DecidableEq

inductive UpdateWorkspacePc
  | update
  | ended (response : Except AppError WorkspaceRow)

/-- `createWorkspace` and `updateWorkspace`; the statements of the second are one move. -/
inductive WorkspaceCall
  | create (orgId name : String) (description : Option String) (ownerUserId : String)
      (pc : CreateWorkspacePc)
  | update (orgId workspaceId : String) (data : UpdateWorkspaceData) (version : ℕ)
      (actorId : String) (pc : UpdateWorkspacePc)

/-- The row `create` inserts. -/
def newWorkspace (now : ℕ) (id orgId name : String) (description : Option String)
    (ownerUserId : String) : WorkspaceRow :=
  ⟨id, orgId, name, description, .active, ownerUserId, none, now, now, 1⟩

def Store.insertWorkspace (s : Store) (r : WorkspaceRow) : Option Store :=
  (s.workspaces.primary.insert r).map fun t =>
    { s with workspaces := { s.workspaces with primary := t } }

/-- The next statement of `createWorkspace`. -/
def createWorkspaceNext (s : Store) (uuid orgId name : String) (description : Option String)
    (ownerUserId : String) : CreateWorkspacePc → Option (Store × CreateWorkspacePc)
  | .insert =>
    let row := newWorkspace s.workspaces.now uuid orgId name description ownerUserId
    match s.insertWorkspace row with
    | some s' => some (s', .outbox row)
    | none => some (s, .failed)
  | .outbox workspace => some
      ({ s with
          workspaces := s.workspaces.writeOutboxEvent
            ⟨orgId, "workspace.created", workspace.id, ownerUserId⟩ },
        .returned workspace)
  | .returned _ | .failed => none

/-- The next statement of a call to the workspaces. -/
def WorkspaceCall.next (s : Store) (uuid : String) :
    WorkspaceCall → Option (Store × WorkspaceCall)
  | .create orgId name description ownerUserId pc =>
    (createWorkspaceNext s uuid orgId name description ownerUserId pc).map fun x =>
      (x.1, .create orgId name description ownerUserId x.2)
  | .update orgId workspaceId data version actorId .update =>
    let x := Workspace.updateWorkspace s.workspaces orgId workspaceId data version actorId
    some ({ s with workspaces := x.1 },
      .update orgId workspaceId data version actorId (.ended x.2))
  | .update _ _ _ _ _ (.ended _) => none

/-- The last UPDATE of a `cascadeSoftDelete` that began at `startedAt`, with the trigger on
`updated_at`. -/
def Store.deleteWorkspaceRow (s : Store) (orgId workspaceId : String) (startedAt : ℕ) : Store :=
  { s with
    workspaces :=
      { s.workspaces with
        primary := s.workspaces.primary.update workspaceId (fun r =>
          if r.orgId = orgId ∧ r.deletedAt = none then
            { r with deletedAt := some startedAt, updatedAt := startedAt }
          else r) fun r => by split <;> rfl } }

/-- Behind a statement of the tasks' services: the COMMIT of a workspace's cascade deletes the row
of the workspace too. -/
def Store.putWork (s : Store) (c : Task.Op) (work : Task.Store) : Store :=
  match c with
  | .deleteWorkspace orgId workspaceId _ (.commit startedAt _) =>
    { s.deleteWorkspaceRow orgId workspaceId startedAt with work := work }
  | _ => { s with work := work }

/-! ## A new organisation -/

/-- What a move draws: the id of a row it makes, the id of a new organisation, whether a slug is
taken, what the middlewares know of the caller. -/
structure Draw where
  uuid : String
  orgId : String
  slugTaken : Bool
  caller : Caller

/-- `createOrg`; of what its transaction inserts, the workspace. -/
inductive CreateOrgPc
  | findSlug
  | transaction
  | outbox
  | returned
  | threw (e : AppError)
  | failed
  deriving DecidableEq

/-- The next statement of `createOrg`. -/
def createOrgNext (s : Store) (d : Draw) (userId : String) :
    CreateOrgPc → Option (Store × CreateOrgPc)
  | .findSlug => some (s,
      if d.slugTaken then .threw (.conflict "SLUG_TAKEN" "Organization slug is already in use")
      else .transaction)
  | .transaction =>
    match s.insertWorkspace
        (newWorkspace s.workspaces.now d.uuid d.orgId "Default Workspace" none userId) with
    | some s' => some (s', .outbox)
    | none => some (s, .failed)
  | .outbox => some (s, .returned)
  | .returned | .threw _ | .failed => none

/-! ## Services -/

structure Config where
  task : Task.Config
  file : File.Config

/-- A call to a service, and where it is. -/
inductive Service
  | task (c : Task.Op)
  | comment (c : Task.CommentCall)
  | chat (c : Chat.Call)
  | file (c : File.Call)
  | workspace (c : WorkspaceCall)
  | createOrg (userId : String) (pc : CreateOrgPc)
  | elsewhere

/-- The next statement of a service. -/
def Service.next (cfg : Config) (s : Store) (d : Draw) : Service → Option (Store × Service)
  | .task c => (c.next cfg.task s.tasks d.uuid).map fun x => (s.putWork c x.1, .task x.2)
  | .comment c =>
    (c.next s.work.tasks s.comments d.uuid).map fun x =>
      ({ s with comments := x.1 }, .comment x.2)
  | .chat c => (c.next s.messages d.uuid).map fun x => ({ s with chat := x.1 }, .chat x.2)
  | .file c =>
    (File.next cfg.file s.files d.uuid c).map fun x => ({ s with files := x.1 }, .file x.2)
  | .workspace c => (c.next s d.uuid).map fun x => (x.1, .workspace x.2)
  | .createOrg userId pc => (createOrgNext s d userId pc).map fun x => (x.1, .createOrg userId x.2)
  | .elsewhere => none

/-! ## Handlers -/

/-- A body that has passed the schema of its handler; `other` is one none of these takes. -/
inductive Body
  | task (input : Task.CreateTaskInput)
  | taskPatch (data : Task.UpdateTaskData) (assigneeIds : Option (List String)) (version : ℕ)
  | bulkStatus (taskIds : List String) (status : Task.TaskStatus)
  | bulkDelete (taskIds : List String)
  | comment (body : Task.CommentBody) (parentCommentId : Option String)
  | direct (otherUserId : String)
  | group (name : String) (memberIds : List String)
  | workspaceChannel (name workspaceId : String)
  | message (body clientMessageId : String) (parentMessageId : Option String)
  | workspace (name : String) (description : Option String)
  | workspacePatch (data : UpdateWorkspaceData) (version : ℕ)
  | upload (filename mimeType : String) (sizeBytes : ℤ)
  | org
  | other

def validationError : AppError := .badRequest "VALIDATION_ERROR" "Input validation failed"

/-- The second parameter of a path: the one behind the organisation. -/
def itemId (params : List String) : String := params.getD 1 ""

/-- The third. -/
def subitemId (params : List String) : String := params.getD 2 ""

/-- The service a handler calls, with the organisation of the context and the user of the token. -/
def Handler.start (orgId userId : String) (params : List String) :
    Handler → Body → Except AppError Service
  | .createTask, .task input =>
    let a : Task.CreateArgs := ⟨orgId, userId, input⟩
    .ok (.task (.createTask a a.entry))
  | .updateTask, .taskPatch data assigneeIds version =>
    .ok (.task (.edit (.updateTask ⟨orgId, itemId params, userId, data, assigneeIds, version⟩ .find)))
  | .deleteTask, _ => .ok (.task (.edit (.deleteTask orgId (itemId params) userId .find)))
  | .bulkUpdateStatus, .bulkStatus taskIds status =>
    .ok (.task (.edit (.bulkUpdateStatus orgId userId taskIds status .membership)))
  | .bulkDelete, .bulkDelete taskIds =>
    .ok (.task (.edit (.bulkDelete orgId userId taskIds .membership)))
  | .createComment, .comment body parentCommentId =>
    let a : Task.CommentArgs := ⟨orgId, userId, itemId params, body, parentCommentId⟩
    .ok (.comment (.createComment a a.entry))
  | .deleteComment, _ => .ok (.comment (.deleteComment orgId (subitemId params) userId .check))
  | .createDirect, .direct otherUserId =>
    let a : Chat.DirectArgs := ⟨orgId, userId, otherUserId⟩
    .ok (.chat (.channel (.createDirect a a.entry)))
  | .createGroup, .group name memberIds =>
    .ok (.chat (.channel (.createGroup ⟨orgId, userId, name, memberIds⟩ .flag)))
  | .createWorkspaceChannel, .workspaceChannel name workspaceId =>
    .ok (.chat (.channel (.createWorkspaceChannel ⟨orgId, userId, name, workspaceId⟩
      (.member userId []))))
  | .sendMessage, .message body clientMessageId parentMessageId =>
    .ok (.chat (.send ⟨orgId, itemId params, userId, body, clientMessageId, parentMessageId⟩
      .member))
  | .deleteMessage, _ =>
    .ok (.chat (.deleteMessage ⟨orgId, subitemId params, itemId params, userId⟩ .update))
  | .requestUploadUrl, .upload filename mimeType sizeBytes =>
    .ok (.file (.requestUploadUrl ⟨orgId, userId, filename, mimeType, sizeBytes, "free"⟩ .generate))
  | .createWorkspace, .workspace name description =>
    .ok (.workspace (.create orgId name description userId .insert))
  | .updateWorkspace, .workspacePatch data version =>
    .ok (.workspace (.update orgId (itemId params) data version userId .update))
  | .deleteWorkspace, _ => .ok (.task (.deleteWorkspace orgId (itemId params) userId .find))
  | .createOrg, .org => .ok (.createOrg userId .findSlug)
  | .createTask, _ | .updateTask, _ | .bulkUpdateStatus, _ | .bulkDelete, _ | .createComment, _
  | .createDirect, _ | .createGroup, _ | .createWorkspaceChannel, _ | .sendMessage, _
  | .requestUploadUrl, _ | .createWorkspace, _ | .updateWorkspace, _ | .createOrg, _ =>
    .error validationError
  | _, _ => .ok .elsewhere

/-! ## Requests -/

/-- A request: it has arrived, is being served, or was refused. -/
inductive Call
  | arrived (req : Request) (body : Body)
  | serving (c : Service)
  | refused (e : Option AppError)

/-- What becomes of a request before its service runs; 404 is `refused none`. -/
def arrive (orgId userId : String) (c : Caller) (req : Request) (body : Body) : Call :=
  match dispatch req with
  | none => .refused none
  | some t =>
    match t.refusal c req.method with
    | some e => .refused (some e)
    | none =>
      match t.route.handler.start orgId userId t.params body with
      | .error e => .refused (some e)
      | .ok service => .serving service

/-- What a request does next. -/
def Call.next (cfg : Config) (orgId userId : String) (s : Store) (d : Draw) :
    Call → Option (Store × Call)
  | .arrived req body => some (s, arrive orgId userId d.caller req body)
  | .serving c => (c.next cfg s d).map fun x => (x.1, .serving x.2)
  | .refused _ => none

/-- What happens around the requests. -/
inductive Env
  | tick (ms : ℕ)
  | replicate

/-- Time and replication, in every service. -/
def env (s : Store) : Env → Store
  | .tick ms =>
    { s with
      work := Task.env s.work (.tick ms)
      comments := { s.comments with now := s.comments.now + ms }
      chat := Chat.env s.chat (.tick ms)
      files := File.env s.files (.tick ms)
      workspaces := { s.workspaces with now := s.workspaces.now + ms } }
  | .replicate =>
    { s with
      work := Task.env s.work .replicate
      comments := { s.comments with replicaComments := s.comments.comments }
      chat := Chat.env s.chat .replicate
      workspaces := { s.workspaces with replica := s.workspaces.primary } }

/-- The requests of one member. -/
def requestMachine (cfg : Config) (orgId userId : String) : Machine Store Call Draw Env :=
  ⟨fun s c d => c.next cfg orgId userId s d, env⟩

abbrev Calls (ι : Type*) := Pool ι Store Call

end WorkPlatform.Http

import WorkPlatform.Task.Edit

/-!
# Task/Comment — comments on a task

    createComment   [parent ▸] insert ▸ outbox ▸ (mention ▸ [mentioned]) …
    deleteComment   check ▸ update

The parent is looked up on the replica, by organisation; the task is looked at by the foreign key
only.  What a mention resolves to is the answer of a query on users and memberships of the replica.
-/

namespace WorkPlatform.Task

open Machinery

/-! ## The body -/

/-- The `ops` of a body where they are an array, each with its `insert` where that is a text. -/
structure CommentBody where
  ops : Option (List (Option String))
  deriving DecidableEq

/-- `[a-zA-Z0-9_.-]`. -/
def handleChar (c : Char) : Bool :=
  c.isAlphanum ∨ c = '_' ∨ c = '.' ∨ c = '-'

/-- The matches of `/@([a-zA-Z0-9_.-]+)/g`; `handle` is what has been read since an `@`, last
character first. -/
def mentionMatches : List Char → Option (List Char) → List String
  | [], handle => (handle.filter (· ≠ [])).toList.map fun h => String.ofList h.reverse
  | c :: rest, handle =>
    if handle.isSome ∧ handleChar c then mentionMatches rest (handle.map (c :: ·))
    else (handle.filter (· ≠ [])).toList.map (fun h => String.ofList h.reverse)
      ++ mentionMatches rest (if c = '@' then some [] else none)

def CommentBody.extractMentionHandles (body : CommentBody) : List String :=
  ((body.ops.getD []).reduceOption.flatMap fun text =>
    (mentionMatches text.toList none).map String.toLower).eraseDups

/-! ## The store -/

/-- A row of `comments`, less the columns nothing here sets or reads. -/
structure CommentRow where
  id : String
  orgId : String
  taskId : String
  authorId : String
  parentCommentId : Option String
  body : CommentBody
  deletedAt : Option ℕ
  deriving DecidableEq

/-- What the service writes to `outbox_events`. -/
inductive CommentEvent
  | commentCreated (orgId commentId authorId taskId : String)
  | mentionCreated (orgId commentId authorId taskId mentionedUserId handle : String)
  deriving DecidableEq

/-- `mentioned orgId handle` is what the replica answers to the query for the handle. -/
structure CommentStore where
  now : ℕ
  comments : Table CommentRow.id
  replicaComments : Table CommentRow.id
  mentioned : String → String → Option String
  outbox : List CommentEvent

/-- The SELECTs of the service, on the replica. -/
def CommentStore.findComment (s : CommentStore) (orgId commentId : String) : Option CommentRow :=
  (s.replicaComments.find commentId).filter fun c => c.orgId = orgId ∧ c.deletedAt = none

/-! ## `createComment` -/

/-- The arguments of `createComment`. -/
structure CommentArgs where
  orgId : String
  authorId : String
  taskId : String
  body : CommentBody
  parentCommentId : Option String
  deriving DecidableEq

/-- The row `createComment` inserts. -/
def CommentArgs.row (a : CommentArgs) (id : String) : CommentRow where
  id := id
  orgId := a.orgId
  taskId := a.taskId
  authorId := a.authorId
  parentCommentId := a.parentCommentId
  body := a.body
  deletedAt := none

/-- Where a call of `createComment` is: its mentions come last, one by one. -/
inductive CommentPc
  | parent (parentCommentId : String)
  | insert
  | outbox (comment : CommentRow)
  | mention (comment : CommentRow) (handle : String) (rest : List String)
  | mentioned (comment : CommentRow) (handle userId : String) (rest : List String)
  | returned (comment : CommentRow)
  | threw (e : AppError)
  | failed
  deriving DecidableEq

def threadingDepthExceeded (message : String) : AppError :=
  .unprocessable "THREADING_DEPTH_EXCEEDED" message

/-- The loop over the handles. -/
def CommentPc.mentioning (comment : CommentRow) : List String → CommentPc
  | [] => .returned comment
  | handle :: rest => .mention comment handle rest

/-- The first statement: a parent id that is given and not empty is looked up. -/
def CommentArgs.entry (a : CommentArgs) : CommentPc :=
  match a.parentCommentId.filter (· ≠ "") with
  | some parentCommentId => .parent parentCommentId
  | none => .insert

/-- The foreign keys of a new comment.  The empty text is no UUID. -/
def CommentStore.accepts (s : CommentStore) (tasks : Table TaskRow.id) (c : CommentRow) : Bool :=
  (tasks.find c.taskId).isSome
    ∧ c.parentCommentId.all fun id => id ≠ "" ∧ (s.comments.find id).isSome

/-- The next statement of `createComment`. -/
def createCommentNext (tasks : Table TaskRow.id) (s : CommentStore) (uuid : String)
    (a : CommentArgs) : CommentPc → Option (CommentStore × CommentPc)
  | .parent parentCommentId => some (s,
      match s.findComment a.orgId parentCommentId with
      | none => .threw (.notFound "ParentComment")
      | some parent =>
        if parent.parentCommentId ≠ none then
          .threw (threadingDepthExceeded "Comments can only be nested one level deep")
        else .insert)
  | .insert =>
    match (s.comments.insert (a.row uuid)).filter fun _ => s.accepts tasks (a.row uuid) with
    | some comments => some ({ s with comments := comments }, .outbox (a.row uuid))
    | none => some (s, .failed)
  | .outbox comment => some
      ({ s with outbox := .commentCreated a.orgId comment.id a.authorId a.taskId :: s.outbox },
        .mentioning comment a.body.extractMentionHandles)
  | .mention comment handle rest => some (s,
      match s.mentioned a.orgId handle with
      | none => .mentioning comment rest
      | some userId => .mentioned comment handle userId rest)
  | .mentioned comment handle userId rest => some
      ({ s with
          outbox := .mentionCreated a.orgId comment.id a.authorId a.taskId userId handle
            :: s.outbox },
        .mentioning comment rest)
  | .returned _ | .threw _ | .failed => none

/-! ## `deleteComment` -/

/-- Where a call of `deleteComment` is. -/
inductive DeleteCommentPc
  | check
  | update
  | returned
  | threw (e : AppError)
  deriving DecidableEq

/-- The UPDATE goes by the id alone. -/
def CommentStore.deleteComment (s : CommentStore) (commentId : String) : CommentStore :=
  { s with
    comments := s.comments.update commentId (fun c => { c with deletedAt := some s.now })
      fun _ => rfl }

/-- The next statement of `deleteComment`. -/
def deleteCommentNext (s : CommentStore) (orgId commentId userId : String) :
    DeleteCommentPc → Option (CommentStore × DeleteCommentPc)
  | .check => some (s,
      match s.findComment orgId commentId with
      | none => .threw (.notFound "Comment")
      | some comment =>
        if comment.authorId ≠ userId then
          .threw (.forbidden "NOT_COMMENT_AUTHOR" "Only the comment author can delete this comment")
        else .update)
  | .update => some (s.deleteComment commentId, .returned)
  | .returned | .threw _ => none

/-! ## Calls -/

/-- A call, and where it is. -/
inductive CommentCall
  | createComment (args : CommentArgs) (pc : CommentPc)
  | deleteComment (orgId commentId userId : String) (pc : DeleteCommentPc)
  deriving DecidableEq

/-- The call has not run a statement yet. -/
def CommentCall.fresh : CommentCall → Bool
  | .createComment a pc => pc = a.entry
  | .deleteComment _ _ _ .check => true
  | _ => false

/-- The next statement of a call. -/
def CommentCall.next (tasks : Table TaskRow.id) (s : CommentStore) (uuid : String) :
    CommentCall → Option (CommentStore × CommentCall)
  | .createComment a pc =>
    (createCommentNext tasks s uuid a pc).map fun x => (x.1, .createComment a x.2)
  | .deleteComment orgId commentId userId pc =>
    (deleteCommentNext s orgId commentId userId pc).map fun x =>
      (x.1, .deleteComment orgId commentId userId x.2)

end WorkPlatform.Task

import Mathlib.Data.List.Sort
import WorkPlatform.Chat.Channel

/-!
# Chat/Message — messages, and how a client catches up

    send            member ▸ existing ▸ parent ▸ nextval ▸ INSERT ▸ outbox
    deleteMessage   UPDATE
    listMessages    member ▸ SELECT
    client:sync     request ▸ SELECT ▸ emit ▸ SELECT ▸ emit ▸ …      one SELECT for each channel

`nextval` and INSERT are two statements, each committed by itself.  The look-ups of members, the
pages and the sync are on the replica, which is the primary of some time ago; everything else is on
the primary.
-/

namespace WorkPlatform.Chat

open Machinery

/-! ## The store -/

/-- A row of `chat_messages`; `body` stands for `body` and `body_parsed`, and nothing sets
`is_edited` or `edit_history`. -/
structure MessageRow where
  id : String
  orgId : String
  channelId : String
  senderId : String
  clientMessageId : String
  sequenceNumber : ℕ
  body : String
  parentMessageId : Option String
  deletedAt : Option ℕ
  createdAt : ℕ
  deriving DecidableEq

/-- The primary key. -/
def MessageRow.key (r : MessageRow) : String × ℕ := (r.id, r.createdAt)

/-- What `client:sync` selects of a row. -/
structure SyncedMessage where
  id : String
  channelId : String
  senderId : String
  body : String
  sequenceNumber : ℕ
  createdAt : ℕ
  deriving DecidableEq

def MessageRow.synced (r : MessageRow) : SyncedMessage :=
  ⟨r.id, r.channelId, r.senderId, r.body, r.sequenceNumber, r.createdAt⟩

/-- `message.created`, as `send` writes it. -/
structure MessageEvent where
  orgId : String
  messageId : String
  channelId : String
  senderId : String
  sequenceNumber : ℕ
  deriving DecidableEq

/-- What `queryReplica` reads. -/
structure Replica where
  members : String → List String
  messages : Table MessageRow.key

/-- `received` is what each client has got by syncs. -/
structure Store where
  now : ℕ
  channels : ChannelStore
  directory : Directory
  messages : Table MessageRow.key
  replica : Replica
  outbox : List MessageEvent
  received : String → List SyncedMessage

namespace Store

def putChannels (s : Store) (channels : ChannelStore) : Store := { s with channels := channels }

/-- On the replica, unlike the other look-ups of `send`. -/
def isMember (s : Store) (channelId userId : String) : Bool :=
  userId ∈ s.replica.members channelId

def findByClientMessageId (s : Store) (channelId clientMessageId : String) : Option MessageRow :=
  s.messages.rows.find? fun r => r.channelId = channelId ∧ r.clientMessageId = clientMessageId

def findById (s : Store) (id channelId : String) : Option MessageRow :=
  s.messages.rows.find? fun r => r.id = id ∧ r.channelId = channelId

/-- `nextSequence`; `none` where the channel has no sequence. -/
def nextSequence (s : Store) (channelId : String) : Option (Store × ℕ) :=
  (s.channels.sequences channelId).map fun n =>
    (s.putChannels { s.channels with
      sequences := Function.update s.channels.sequences channelId (some (n + 1)) }, n + 1)

/-- `messageRepo.create`; `none` where the row is refused. -/
def create (s : Store) (row : MessageRow) : Option Store :=
  if (s.channels.channels.find row.channelId).isSome then
    (s.messages.insert row).map fun messages => { s with messages := messages }
  else none

def writeOutbox (s : Store) (m : MessageRow) : Store :=
  { s with
    outbox := ⟨m.orgId, m.id, m.channelId, m.senderId, m.sequenceNumber⟩ :: s.outbox }

/-- `listByChannel`. -/
def listByChannel (s : Store) (channelId : String) (limit : ℕ) (beforeSequence : Option ℕ) :
    List MessageRow :=
  (((s.replica.messages.rows.filter fun r => r.channelId = channelId
      ∧ (beforeSequence.all fun n => r.sequenceNumber < n) ∧ r.deletedAt = none).insertionSort
    fun a b => b.sequenceNumber ≤ a.sequenceNumber).take limit).reverse

end Store

/-- What `softDelete` makes of a row. -/
def MessageRow.softDelete (orgId messageId senderId : String) (now : ℕ) (r : MessageRow) :
    MessageRow :=
  if r.id = messageId ∧ r.orgId = orgId ∧ r.senderId = senderId ∧ r.deletedAt = none then
    { r with deletedAt := some now }
  else r

theorem MessageRow.softDelete_key (orgId messageId senderId : String) (now : ℕ) (r : MessageRow) :
    (r.softDelete orgId messageId senderId now).key = r.key := by
  unfold MessageRow.softDelete
  split <;> rfl

/-- The UPDATE of `deleteMessage`. -/
def Store.softDelete (s : Store) (orgId messageId senderId : String) : Store :=
  { s with
    messages := s.messages.map (·.softDelete orgId messageId senderId s.now)
      (MessageRow.softDelete_key orgId messageId senderId s.now) }

/-! ## `send` -/

/-- The arguments of `send`. -/
structure SendArgs where
  orgId : String
  channelId : String
  senderId : String
  body : String
  clientMessageId : String
  parentMessageId : Option String
  deriving DecidableEq

def SendArgs.row (a : SendArgs) (id : String) (sequenceNumber now : ℕ) : MessageRow :=
  ⟨id, a.orgId, a.channelId, a.senderId, a.clientMessageId, sequenceNumber, a.body,
    a.parentMessageId, none, now⟩

/-- Where a call of `send` is. -/
inductive SendPc
  | member
  | existing
  | parent (id : String)
  | sequence
  | insert (sequenceNumber : ℕ)
  | outbox (message : MessageRow)
  | returned (message : MessageRow)
  | threw (e : AppError)
  | failed
  deriving DecidableEq

def notChannelMember : AppError :=
  .forbidden "NOT_CHANNEL_MEMBER" "You are not a member of this channel"

def parentDeleted : AppError :=
  .unprocessable "PARENT_DELETED" "Cannot reply to a deleted message"

def threadingDepthExceeded : AppError :=
  .unprocessable "THREADING_DEPTH_EXCEEDED" "Messages can only be nested one level deep"

/-- Once the parent is looked up. -/
def SendPc.checked : Option MessageRow → SendPc
  | none => .threw (.notFound "ParentMessage")
  | some row =>
    if row.deletedAt.isSome then .threw parentDeleted
    else if row.parentMessageId.isSome then .threw threadingDepthExceeded
    else .sequence

/-- The next statement of `send`. -/
def sendNext (s : Store) (uuid : String) (a : SendArgs) : SendPc → Option (Store × SendPc)
  | .member =>
    some (s, if s.isMember a.channelId a.senderId then .existing else .threw notChannelMember)
  | .existing => some (s,
      match s.findByClientMessageId a.channelId a.clientMessageId with
      | some message => .returned message
      | none => a.parentMessageId.elim .sequence .parent)
  | .parent id => some (s, .checked (s.findById id a.channelId))
  | .sequence =>
    match s.nextSequence a.channelId with
    | some (s', n) => some (s', .insert n)
    | none => some (s, .failed)
  | .insert n =>
    match s.create (a.row uuid n s.now) with
    | some s' => some (s', .outbox (a.row uuid n s.now))
    | none => some (s, .failed)
  | .outbox message => some (s.writeOutbox message, .returned message)
  | .returned _ | .threw _ | .failed => none

/-! ## `deleteMessage` and `listMessages` -/

/-- The arguments of `deleteMessage`. -/
structure DeleteArgs where
  orgId : String
  messageId : String
  channelId : String
  userId : String
  deriving DecidableEq

/-- Where a call of `deleteMessage` is. -/
inductive DeletePc
  | update
  | returned
  | threw (e : AppError)
  deriving DecidableEq

/-- The channel plays no part. -/
def deleteNext (s : Store) (a : DeleteArgs) : DeletePc → Option (Store × DeletePc)
  | .update => some (s.softDelete a.orgId a.messageId a.userId,
      if s.messages.rows.any fun r => r.id = a.messageId ∧ r.orgId = a.orgId ∧ r.senderId = a.userId
        ∧ r.deletedAt = none then .returned else .threw (.notFound "Message"))
  | .returned | .threw _ => none

/-- The arguments of `listMessages`. -/
structure ListArgs where
  orgId : String
  channelId : String
  userId : String
  limit : ℕ
  beforeSequence : Option ℕ
  deriving DecidableEq

/-- Where a call of `listMessages` is. -/
inductive ListPc
  | member
  | list
  | returned (messages : List MessageRow)
  | threw (e : AppError)
  deriving DecidableEq

/-- The next statement of `listMessages`. -/
def listNext (s : Store) (a : ListArgs) : ListPc → Option (Store × ListPc)
  | .member => some (s, if s.isMember a.channelId a.userId then .list else .threw notChannelMember)
  | .list => some (s, .returned (s.listByChannel a.channelId a.limit a.beforeSequence))
  | .returned _ | .threw _ => none

/-! ## `client:sync` -/

namespace Store

/-- The SELECT of `client:sync`. -/
def missed (s : Store) (channelId : String) (lastSeq : ℕ) : List MessageRow :=
  ((s.replica.messages.rows.filter fun r => r.channelId = channelId
      ∧ lastSeq < r.sequenceNumber ∧ r.deletedAt = none).insertionSort
    fun a b => a.sequenceNumber ≤ b.sequenceNumber).take 100

/-- The largest sequence number the client has received. -/
def cursor (s : Store) (client channelId : String) : ℕ :=
  (((s.received client).filter (·.channelId = channelId)).map (·.sequenceNumber)).foldr max 0

def receive (s : Store) (client : String) (messages : List SyncedMessage) : Store :=
  { s with
    received := Function.update s.received client (messages ++ s.received client) }

end Store

/-- `request` is the client that sends the numbers it has got to. -/
inductive SyncPc
  | request (channelIds : List String)
  | query (channelId : String) (lastSeq : ℕ) (rest : List (String × ℕ))
  | emit (channelId : String) (messages : List SyncedMessage) (rest : List (String × ℕ))
  | ended
  deriving DecidableEq

/-- The loop over the entries of `lastMessageSequences`. -/
def SyncPc.querying : List (String × ℕ) → SyncPc
  | [] => .ended
  | (channelId, lastSeq) :: rest => .query channelId lastSeq rest

/-- The next statement of `client:sync`: a query for each channel, and an event where something was
missed. -/
def syncNext (s : Store) (client : String) : SyncPc → Option (Store × SyncPc)
  | .request channelIds =>
    some (s, .querying (channelIds.map fun channelId => (channelId, s.cursor client channelId)))
  | .query channelId lastSeq rest => some (s,
      if s.missed channelId lastSeq = [] then .querying rest
      else .emit channelId ((s.missed channelId lastSeq).map (·.synced)) rest)
  | .emit _ messages rest => some (s.receive client messages, .querying rest)
  | .ended => none

/-! ## The machine -/

/-- A call, and where it is. -/
inductive Call
  | send (args : SendArgs) (pc : SendPc)
  | deleteMessage (args : DeleteArgs) (pc : DeletePc)
  | listMessages (args : ListArgs) (pc : ListPc)
  | sync (client : String) (pc : SyncPc)
  | channel (call : ChannelCall)
  deriving DecidableEq

/-- The call has not run a statement yet. -/
def Call.fresh : Call → Bool
  | .send _ .member | .deleteMessage _ .update | .listMessages _ .member | .sync _ (.request _) =>
    true
  | .channel c => c.fresh
  | _ => false

/-- The next statement of a call. -/
def Call.next (s : Store) (uuid : String) : Call → Option (Store × Call)
  | .send a pc => (sendNext s uuid a pc).map fun x => (x.1, .send a x.2)
  | .deleteMessage a pc => (deleteNext s a pc).map fun x => (x.1, .deleteMessage a x.2)
  | .listMessages a pc => (listNext s a pc).map fun x => (x.1, .listMessages a x.2)
  | .sync client pc => (syncNext s client pc).map fun x => (x.1, .sync client x.2)
  | .channel c =>
    (c.next s.directory s.channels uuid).map fun x => (s.putChannels x.1, .channel x.2)

/-- What happens around the calls: time, the replica, and what other services write. -/
inductive Env
  | tick (ms : ℕ)
  | replicate
  | directory (d : Directory)

/-- Time, replication, and changes of the members of organisations. -/
def env (s : Store) : Env → Store
  | .tick ms => { s with now := s.now + ms }
  | .replicate => { s with replica := ⟨s.channels.members, s.messages⟩ }
  | .directory d => { s with directory := d }

def chatMachine : Machine Store Call String Env := ⟨fun s c uuid => c.next s uuid, env⟩

/-- Calls of the chat services over the store. -/
abbrev Calls (ι : Type*) := Pool ι Store Call

end WorkPlatform.Chat

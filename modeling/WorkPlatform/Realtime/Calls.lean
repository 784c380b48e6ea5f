import Mathlib.Data.List.Dedup
import WorkPlatform.Machinery.Run
import WorkPlatform.Machinery.Table
import WorkPlatform.Realtime.Rooms

/-!
# Realtime/Calls — sockets, their rooms, and the calls they are in

    connect          org:o ▸ org:o:user:u ▸ memberships ▸ channel:c …
    handleCallJoin   flag ▸ join call:x ▸ HSET ▸ SADD ▸ EXPIRE ▸ EXPIRE ▸ INSERT 'active' ▸ emit
    handleCallLeave  leave call:x ▸ SREM ▸ SCARD ─┬─ 0 ▸ UPDATE 'ended' ─┬▸ emit
                                                  └──────────────────────┘

Who is in a call is in Redis, what became of it in PostgreSQL.  An event is on its way until the
adapters of all nodes have passed it on to the sockets of its room (`Act.deliver`, `Act.settle`).

The session of a socket does not change.  How PostgreSQL reads the id of a call is a parameter; what
the rate limiter, the feature flag and the foreign keys say is drawn.
-/

namespace WorkPlatform.Realtime

open Machinery

/-! ## The store -/

/-- The session that a socket is bound to; the ids of organisations are UUIDs. -/
structure Session extends SocketData where
  plain : ':' ∉ orgId.toList

/-- An event on `outbox:events`. -/
structure Published extends OutboxEvent where
  plain : ':' ∉ orgId.toList

/-- The hash `call:state:⟨callId⟩`. -/
structure CallState where
  callId : String
  channelId : String
  orgId : String
  deriving DecidableEq

inductive VideoCallState
  | ringing | active | ended
  deriving DecidableEq, Repr

/-- A row of `video_calls`. -/
structure VideoCallRow where
  id : String
  channelId : String
  orgId : String
  initiatorId : String
  state : VideoCallState
  startedAt : Option ℕ
  endedAt : Option ℕ
  deriving DecidableEq

/-- The events that are sent to rooms. -/
inductive RoomEvent
  | task (eventType : EventType)
  | presenceUpdate
  | participantJoined | participantLeft
  | offer | answer | iceCandidate
  deriving DecidableEq, Repr

/-- An event, the organisation it is emitted for, and its room. -/
structure Sent where
  event : RoomEvent
  orgId : String
  room : String
  deriving DecidableEq

/-- `call:participants:⟨callId⟩` is missing where it is empty. -/
structure CallStore (κ : Type*) where
  now : ℕ
  memberships : String → List String
  rooms : κ → List String
  callState : String → Option CallState
  stateExpires : String → Option ℕ
  participants : String → List String
  participantsExpire : String → Option ℕ
  videoCalls : Table VideoCallRow.id
  inFlight : List Sent
  received : κ → List Sent

/-- `CALL_STATE_TTL`. -/
def callStateTtl : ℕ := 4 * 60 * 60

namespace CallStore

variable {κ : Type*} [DecidableEq κ] (s : CallStore κ)

def join (k : κ) (room : String) : CallStore κ :=
  { s with rooms := Function.update s.rooms k ((s.rooms k).insert room) }

def leave (k : κ) (room : String) : CallStore κ :=
  { s with rooms := Function.update s.rooms k ((s.rooms k).filter (· ≠ room)) }

/-- All rooms, at the end of the connection. -/
def leaveAll (k : κ) : CallStore κ := { s with rooms := Function.update s.rooms k [] }

omit [DecidableEq κ]

def hset (callId : String) (state : CallState) : CallStore κ :=
  { s with callState := Function.update s.callState callId (some state) }

/-- `SADD`, of the participants of a call. -/
def sadd (callId userId : String) : CallStore κ :=
  { s with
    participants := Function.update s.participants callId
      ((s.participants callId).insert userId) }

/-- A set without members is no key, and has no time to live. -/
def srem (callId userId : String) : CallStore κ :=
  let rest := (s.participants callId).filter (· ≠ userId)
  { s with
    participants := Function.update s.participants callId rest
    participantsExpire := Function.update s.participantsExpire callId
      (if rest = [] then none else s.participantsExpire callId) }

def scard (callId : String) : ℕ := (s.participants callId).length

/-- `EXPIRE` does nothing where there is no key. -/
def expireState (callId : String) : CallStore κ :=
  { s with
    stateExpires := Function.update s.stateExpires callId
      (if s.callState callId = none then none else some (s.now + callStateTtl)) }

/-- `EXPIRE`, of the participants of a call. -/
def expireParticipants (callId : String) : CallStore κ :=
  { s with
    participantsExpire := Function.update s.participantsExpire callId
      (if s.participants callId = [] then none else some (s.now + callStateTtl)) }

/-- `INSERT … ON CONFLICT (id) DO UPDATE SET state = 'active'`. -/
def upsertCall (id channelId orgId userId : String) : CallStore κ :=
  { s with
    videoCalls :=
      match s.videoCalls.insert ⟨id, channelId, orgId, userId, .active, some s.now, none⟩ with
      | some videoCalls => videoCalls
      | none => s.videoCalls.update id (fun r => { r with state := .active }) fun _ => rfl }

/-- `UPDATE video_calls SET state = 'ended', ended_at = NOW() WHERE id = $1`. -/
def endCall (id : String) : CallStore κ :=
  { s with
    videoCalls := s.videoCalls.update id
      (fun r => { r with state := .ended, endedAt := some s.now }) fun _ => rfl }

def emit (e : Sent) : CallStore κ := { s with inFlight := e :: s.inFlight }

/-- Time passes, and keys expire. -/
def tick (now : ℕ) : CallStore κ :=
  let expired := fun expires : Option ℕ => expires.any (· ≤ now)
  { s with
    now := now
    callState := fun x => if expired (s.stateExpires x) then none else s.callState x
    stateExpires := fun x => if expired (s.stateExpires x) then none else s.stateExpires x
    participants := fun x => if expired (s.participantsExpire x) then [] else s.participants x
    participantsExpire := fun x =>
      if expired (s.participantsExpire x) then none else s.participantsExpire x }

/-- An adapter passes an event on, to those sockets of its node that are in the room. -/
def deliver (e : Sent) (node : κ → Bool) : CallStore κ :=
  { s with
    received := fun k =>
      if e ∈ s.inFlight ∧ node k ∧ e.room ∈ s.rooms k then e :: s.received k else s.received k }

/-- All adapters have passed it on. -/
def settle (e : Sent) : CallStore κ := { s with inFlight := s.inFlight.erase e }

@[simp] theorem participants_sadd (callId userId : String) :
    (s.sadd callId userId).participants callId = (s.participants callId).insert userId :=
  Function.update_self _ _ _

@[simp] theorem participants_srem (callId userId : String) :
    (s.srem callId userId).participants callId
      = (s.participants callId).filter (· ≠ userId) :=
  Function.update_self _ _ _

/-! ## What becomes of a row -/

variable {s} {id id' channelId orgId userId : String} {row : VideoCallRow}

/-- A new row has the organisation it is given, and an old one keeps its own. -/
theorem find_upsertCall
    (h : (s.upsertCall id channelId orgId userId).videoCalls.find id' = some row) :
    (∃ old, s.videoCalls.find id' = some old ∧ old.orgId = row.orgId)
      ∨ id' = id ∧ row.orgId = orgId := by
  unfold upsertCall at h
  dsimp only at h
  split at h
  case h_1 videoCalls hinsert =>
    rw [Table.find_insert hinsert] at h
    split at h
    case isTrue hid =>
      obtain rfl := Option.some.inj h
      exact Or.inr ⟨hid.symm, rfl⟩
    case isFalse => exact Or.inl ⟨row, h, rfl⟩
  case h_2 =>
    rw [Table.find_update] at h
    split at h
    case isTrue =>
      obtain ⟨old, hold, rfl⟩ := Option.map_eq_some_iff.mp h
      exact Or.inl ⟨old, hold, rfl⟩
    case isFalse => exact Or.inl ⟨row, h, rfl⟩

/-- A row after a call was ended was there, in the same organisation. -/
theorem find_endCall (h : (s.endCall id).videoCalls.find id' = some row) :
    ∃ old, s.videoCalls.find id' = some old ∧ old.orgId = row.orgId := by
  unfold endCall at h
  rw [Table.find_update] at h
  split at h
  case isTrue =>
    obtain ⟨old, hold, rfl⟩ := Option.map_eq_some_iff.mp h
    exact ⟨old, hold, rfl⟩
  case isFalse => exact ⟨row, h, rfl⟩

/-- The upsert of another call leaves a row as it was. -/
theorem find_upsertCall_of_ne (hid : id' ≠ id) :
    (s.upsertCall id channelId orgId userId).videoCalls.find id' = s.videoCalls.find id' := by
  unfold upsertCall
  dsimp only
  split
  case h_1 videoCalls hinsert =>
    rw [Table.find_insert hinsert]
    exact if_neg (Ne.symm hid)
  case h_2 => rw [Table.find_update, if_neg hid]

theorem find_endCall_of_ne (hid : id' ≠ id) :
    (s.endCall id).videoCalls.find id' = s.videoCalls.find id' := by
  unfold endCall
  rw [Table.find_update, if_neg hid]

end CallStore

/-! ## The statements -/

/-- The middleware and the handler of `connection`. -/
inductive ConnectPc
  | joinOrg
  | joinUser
  | memberships
  | channels (channelIds : List String)
  deriving DecidableEq

/-- Where `handleCallJoin` is. -/
inductive JoinPc
  | videoEnabled
  | join
  | hset
  | sadd
  | expireState
  | expireParticipants
  | upsert
  | emit
  | returned
  | threw
  deriving DecidableEq

/-- Where `handleCallLeave` is. -/
inductive LeavePc
  | leave
  | srem
  | scard
  | ended
  | emit
  | returned
  | threw
  deriving DecidableEq

/-- What a client sends, other than to join or leave a call. -/
inductive SocketEvent
  | taskSubscribe (taskId : String)
  | taskUnsubscribe (taskId : String)
  | callJoin (callId : String)
  | callLeave (callId : String)
  | offer (targetUserId : String)
  | answer (targetUserId : String)
  | iceCandidate (targetUserId : String)
  | disconnect
  deriving DecidableEq

inductive EventPc
  | pending | handled
  deriving DecidableEq

/-- A handler, and where it is. -/
inductive Call (κ : Type*)
  | connect (socket : κ) (pc : ConnectPc)
  | event (socket : κ) (e : SocketEvent) (pc : EventPc)
  | handleCallJoin (socket : κ) (callId channelId : String) (pc : JoinPc)
  | handleCallLeave (socket : κ) (callId : String) (pc : LeavePc)
  | broadcast (e : Published) (pc : EventPc)

section Statements

variable {κ : Type*} [DecidableEq κ] (uuid : String → Option String) (session : κ → Session)
  (s : CallStore κ)

/-- The next step of the handler of a connection. -/
def connectNext (k : κ) : ConnectPc → Option (CallStore κ × ConnectPc)
  | .joinOrg => some (s.join k (orgRoom (session k).orgId), .joinUser)
  | .joinUser => some (s.join k (userRoom (session k).orgId (session k).userId), .memberships)
  | .memberships => some (s, .channels (s.memberships (session k).userId))
  | .channels (channelId :: rest) => some (s.join k (channelRoom channelId), .channels rest)
  | .channels [] => none

/-- `handleCallOffer`, `handleCallAnswer` and `handleIceCandidate`. -/
def relay (event : RoomEvent) (k : κ) (targetUserId : String) : CallStore κ :=
  s.emit ⟨event, (session k).orgId, userRoom (session k).orgId targetUserId⟩

/-- A handler of `socket-server.ts`; the rate limiter is asked for tasks only. -/
def SocketEvent.handle (k : κ) (allowed : Bool) : SocketEvent → CallStore κ
  | .taskSubscribe taskId => if allowed then s.join k (taskRoom (session k).orgId taskId) else s
  | .taskUnsubscribe taskId =>
    if allowed then s.leave k (taskRoom (session k).orgId taskId) else s
  | .callJoin callId => s.join k (callRoom callId)
  | .callLeave callId => s.leave k (callRoom callId)
  | .offer targetUserId => relay session s .offer k targetUserId
  | .answer targetUserId => relay session s .answer k targetUserId
  | .iceCandidate targetUserId => relay session s .iceCandidate k targetUserId
  | .disconnect =>
    (s.leaveAll k).emit ⟨.presenceUpdate, (session k).orgId, orgRoom (session k).orgId⟩

/-- The next step of the handler of an event. -/
def eventNext (k : κ) (e : SocketEvent) (allowed : Bool) :
    EventPc → Option (CallStore κ × EventPc)
  | .pending => some (e.handle session s k allowed, .handled)
  | .handled => none

/-- The `userId` and `orgId` of a socket are those of its session. -/
def handleCallJoinNext (k : κ) (callId channelId : String) (ok : Bool) :
    JoinPc → Option (CallStore κ × JoinPc)
  | .videoEnabled => some (s, if ok then .join else .returned)
  | .join => some (s.join k (callRoom callId), .hset)
  | .hset => some (s.hset callId ⟨callId, channelId, (session k).orgId⟩, .sadd)
  | .sadd => some (s.sadd callId (session k).userId, .expireState)
  | .expireState => some (s.expireState callId, .expireParticipants)
  | .expireParticipants => some (s.expireParticipants callId, .upsert)
  | .upsert =>
    match uuid callId, ok with
    | some id, true =>
      some (s.upsertCall id channelId (session k).orgId (session k).userId, .emit)
    | _, _ => some (s, .threw)
  | .emit =>
    some (s.emit ⟨.participantJoined, (session k).orgId, callRoom callId⟩, .returned)
  | .returned | .threw => none

/-- The next step of `handleCallLeave`. -/
def handleCallLeaveNext (k : κ) (callId : String) : LeavePc → Option (CallStore κ × LeavePc)
  | .leave => some (s.leave k (callRoom callId), .srem)
  | .srem => some (s.srem callId (session k).userId, .scard)
  | .scard => some (s, if s.scard callId = 0 then .ended else .emit)
  | .ended =>
    match uuid callId with
    | some id => some (s.endCall id, .emit)
    | none => some (s, .threw)
  | .emit => some (s.emit ⟨.participantLeft, (session k).orgId, callRoom callId⟩, .returned)
  | .returned | .threw => none

omit [DecidableEq κ] in
/-- `startTaskBroadcaster`. -/
def broadcastNext (e : Published) : EventPc → Option (CallStore κ × EventPc)
  | .pending => some (
      { s with
        inFlight := (broadcastRooms e.toOutboxEvent).map (⟨.task e.eventType, e.orgId, ·⟩)
          ++ s.inFlight },
      .handled)
  | .handled => none

/-- The statement a call runs next. -/
def Call.next (ok : Bool) : Call κ → Option (CallStore κ × Call κ)
  | .connect k pc => (connectNext session s k pc).map fun x => (x.1, .connect k x.2)
  | .event k e pc => (eventNext session s k e ok pc).map fun x => (x.1, .event k e x.2)
  | .handleCallJoin k callId channelId pc =>
    (handleCallJoinNext uuid session s k callId channelId ok pc).map fun x =>
      (x.1, .handleCallJoin k callId channelId x.2)
  | .handleCallLeave k callId pc =>
    (handleCallLeaveNext uuid session s k callId pc).map fun x =>
      (x.1, .handleCallLeave k callId x.2)
  | .broadcast e pc => (broadcastNext s e pc).map fun x => (x.1, .broadcast e x.2)

end Statements

/-! ## The machine -/

/-- What is done from outside. -/
inductive Act (κ : Type*)
  | tick (now : ℕ)
  | memberships (channelIds : String → List String)
  | deliver (e : Sent) (node : κ → Bool)
  | settle (e : Sent)

/-- What happens around the handlers. -/
def CallStore.act {κ : Type*} (s : CallStore κ) : Act κ → CallStore κ
  | .tick now => s.tick now
  | .memberships channelIds => { s with memberships := channelIds }
  | .deliver e node => s.deliver e node
  | .settle e => s.settle e

/-- The handlers, and what happens around them. -/
def callMachine {κ : Type*} [DecidableEq κ] (uuid : String → Option String)
    (session : κ → Session) : Machine (CallStore κ) (Call κ) Bool (Act κ) where
  next s c ok := c.next uuid session s ok
  env s a := s.act a

/-- Calls of any number of sockets. -/
abbrev Calls (ι κ : Type*) := Pool ι (CallStore κ) (Call κ)

namespace Call

variable {κ : Type*}

/-- The organisation that a call is for. -/
def orgId (session : κ → Session) : Call κ → String
  | connect k _ | event k _ _ | handleCallJoin k _ _ _ | handleCallLeave k _ _ => (session k).orgId
  | broadcast e _ => e.orgId

/-- Before its first statement. -/
def fresh : Call κ → Bool
  | connect _ pc => pc = .joinOrg
  | event _ _ pc | broadcast _ pc => pc = .pending
  | handleCallJoin _ _ _ pc => pc = .videoEnabled
  | handleCallLeave _ _ pc => pc = .leave

theorem orgId_next [DecidableEq κ] {uuid : String → Option String} {session : κ → Session}
    {s s' : CallStore κ} {c c' : Call κ} {ok : Bool}
    (h : c.next uuid session s ok = some (s', c')) : c'.orgId session = c.orgId session := by
  cases c <;>
  · obtain ⟨pc', -, rfl⟩ := pc_of_next h
    rfl

end Call

end WorkPlatform.Realtime

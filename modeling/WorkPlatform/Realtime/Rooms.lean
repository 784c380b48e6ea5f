import WorkPlatform.Machinery.Delimited

/-!
# Realtime/Rooms — the rooms of the sockets, and who emits to them

    org:o                 every socket of the organisation
    org:o:user:u          the sockets of a user
    org:o:task:t          task:subscribe
    call:x   channel:c    without an organisation

The rooms of one organisation are not those of another, whatever users and tasks are called, since
an id of an organisation has no `:` (`InOrg.unique`).  The room of a call is in no organisation.
-/

namespace WorkPlatform.Realtime

open Machinery

/-- `socket.data`. -/
structure SocketData where
  userId : String
  orgId : String

/-! ## Names -/

def orgRoom (orgId : String) : String := "org:" ++ orgId

def userRoom (orgId userId : String) : String := "org:" ++ orgId ++ ":user:" ++ userId

def taskRoom (orgId taskId : String) : String := "org:" ++ orgId ++ ":task:" ++ taskId

def callRoom (callId : String) : String := "call:" ++ callId

def channelRoom (channelId : String) : String := "channel:" ++ channelId

/-- The room has the prefix of the organisation. -/
def InOrg (orgId room : String) : Prop :=
  room = "org:" ++ orgId ∨ ∃ rest, room = "org:" ++ orgId ++ ":" ++ rest

section Rooms

variable {o o' room : String}

theorem inOrg_orgRoom (o : String) : InOrg o (orgRoom o) := Or.inl rfl

theorem inOrg_userRoom (o userId : String) : InOrg o (userRoom o userId) := by
  refine Or.inr ⟨"user:" ++ userId, ?_⟩
  unfold userRoom
  have hsplit : ":user:" = ":" ++ "user:" := rfl
  rw [hsplit]
  simp only [String.append_assoc]

theorem inOrg_taskRoom (o taskId : String) : InOrg o (taskRoom o taskId) := by
  refine Or.inr ⟨"task:" ++ taskId, ?_⟩
  unfold taskRoom
  have hsplit : ":task:" = ":" ++ "task:" := rfl
  rw [hsplit]
  simp only [String.append_assoc]

/-- What follows `org:` is the organisation up to the next `:`. -/
theorem InOrg.toList (h : InOrg o room) :
    ∃ rest, room.toList ++ [':'] = "org:".toList ++ (o.toList ++ ':' :: rest) := by
  rcases h with rfl | ⟨rest, rfl⟩
  · refine ⟨[], ?_⟩
    rw [String.toList_append, List.append_assoc]
  · refine ⟨rest.toList ++ [':'], ?_⟩
    simp [String.toList_append]

/-- **A room is in one organisation only.** -/
theorem InOrg.unique (ho : ':' ∉ o.toList) (ho' : ':' ∉ o'.toList) (h : InOrg o room)
    (h' : InOrg o' room) : o = o' := by
  obtain ⟨rest, hrest⟩ := h.toList
  obtain ⟨rest', hrest'⟩ := h'.toList
  have hjoin := List.append_cancel_left (hrest.symm.trans hrest')
  exact String.toList_inj.mp ((append_sep_inj ho ho').mp hjoin).1

theorem not_inOrg_callRoom (callId : String) : ¬ InOrg o (callRoom callId) := by
  intro h
  obtain ⟨rest, hrest⟩ := h.toList
  unfold callRoom at hrest
  rw [String.toList_append] at hrest
  cases hrest

theorem not_inOrg_channelRoom (channelId : String) : ¬ InOrg o (channelRoom channelId) := by
  intro h
  obtain ⟨rest, hrest⟩ := h.toList
  unfold channelRoom at hrest
  rw [String.toList_append] at hrest
  cases hrest

theorem callRoom_inj {x y : String} : callRoom x = callRoom y ↔ x = y :=
  String.append_right_inj "call:"

theorem taskRoom_inj {taskId taskId' : String} :
    taskRoom o taskId = taskRoom o taskId' ↔ taskId = taskId' :=
  String.append_right_inj _

theorem callRoom_ne_channelRoom (callId channelId : String) :
    callRoom callId ≠ channelRoom channelId := by
  intro h
  have hlist := congrArg String.toList h
  unfold callRoom channelRoom at hlist
  rw [String.toList_append, String.toList_append] at hlist
  cases hlist

end Rooms

/-! ## `startTaskBroadcaster` -/

/-- The types of events the broadcaster tells apart. -/
inductive EventType
  | taskCreated | taskUpdated | taskDeleted | taskStatusChanged | taskAssigned | taskCommented
  | taskMentioned | commentCreated | mentionCreated | other
  deriving DecidableEq, Repr

/-- What the broadcaster reads of an event on `outbox:events`; of the payload, the two users that it
may name. -/
structure OutboxEvent where
  orgId : String
  eventType : EventType
  entityId : String
  assigneeId : Option String
  mentionedUserId : Option String
  deriving DecidableEq

/-- The room of the user that the payload names; an empty id names none. -/
def namedRoom (orgId : String) (userId : Option String) : List String :=
  (userId.filter (· ≠ "")).toList.map (userRoom orgId)

/-- The rooms that an event is emitted to. -/
def broadcastRooms (e : OutboxEvent) : List String :=
  match e.eventType with
  | .taskCreated | .taskUpdated | .taskDeleted | .taskStatusChanged =>
    [taskRoom e.orgId e.entityId, orgRoom e.orgId]
  | .taskAssigned => namedRoom e.orgId e.assigneeId ++ [taskRoom e.orgId e.entityId]
  | .taskCommented | .commentCreated => [taskRoom e.orgId e.entityId]
  | .taskMentioned | .mentionCreated => namedRoom e.orgId e.mentionedUserId
  | .other => []

theorem inOrg_namedRoom {orgId room : String} {userId : Option String}
    (h : room ∈ namedRoom orgId userId) : InOrg orgId room := by
  obtain ⟨named, -, rfl⟩ := List.mem_map.mp h
  exact inOrg_userRoom orgId named

/-- An event is emitted to rooms of its organisation. -/
theorem inOrg_of_broadcastRooms {e : OutboxEvent} {room : String} (h : room ∈ broadcastRooms e) :
    InOrg e.orgId room := by
  unfold broadcastRooms at h
  split at h
  case h_1 | h_2 | h_3 | h_4 =>
    rcases List.mem_pair.mp h with rfl | rfl
    · exact inOrg_taskRoom e.orgId e.entityId
    · exact inOrg_orgRoom e.orgId
  case h_5 =>
    rcases List.mem_append.mp h with hnamed | htask
    · exact inOrg_namedRoom hnamed
    · obtain rfl := List.mem_singleton.mp htask
      exact inOrg_taskRoom e.orgId e.entityId
  case h_6 | h_7 =>
    obtain rfl := List.mem_singleton.mp h
    exact inOrg_taskRoom e.orgId e.entityId
  case h_8 | h_9 => exact inOrg_namedRoom h
  case h_10 => cases h

end WorkPlatform.Realtime

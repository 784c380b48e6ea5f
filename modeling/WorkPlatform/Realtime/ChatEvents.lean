import Mathlib.Data.String.Basic
import Mathlib.Logic.Function.Iterate
import WorkPlatform.Chat.Message
import WorkPlatform.Realtime.Rooms

/-!
# Realtime/ChatEvents — a new message on its way to the client

    send                  message.created  {messageId, channelId, orgId, senderId, sequenceNumber}
    startChatBroadcaster  message.created  the same, to channel:⟨channelId⟩
    subscribeRealtime     chat:message     {id, channel_id, sender_user_id, body, …}
    load                  a row            {id, channel_id, sender_id, body, …}

Neither the name of the event nor a key of it is what the client asks for, so that the list of the
client stays as it is, however often the event comes (`delivered_messages`).  What `load` has put
there is no better: a row has no `sender_user_id`, so that its message has no sender.  No message is
ever listed with its id, its body and its sender (`never_listed`).
-/

namespace WorkPlatform.Realtime

open Machinery
open WorkPlatform.Chat (MessageRow MessageEvent SendArgs SendPc chatMachine)

/-! ## Objects -/

/-- A value of JSON, as far as events and messages hold them. -/
inductive JsValue
  | null
  | string (s : String)
  | strings (values : List String)
  deriving DecidableEq

/-- The keys of an object; one that is not there is `undefined`. -/
abbrev JsObject := List (String × JsValue)

/-- In a condition. -/
def JsValue.truthy : JsValue → Bool
  | .null => false
  | .string s => s ≠ ""
  | .strings _ => true

/-- In a template. -/
def JsValue.text : JsValue → String
  | .null => "null"
  | .string s => s
  | .strings values => ",".intercalate values

/-! ## The server -/

/-- What `startChatBroadcaster` reads of an event on `outbox:events`. -/
structure ChatEvent where
  eventType : String
  payload : JsObject

/-- The event that `send` writes. -/
def messageCreated (e : MessageEvent) : ChatEvent where
  eventType := "message.created"
  payload := [("messageId", .string e.messageId), ("channelId", .string e.channelId),
    ("orgId", .string e.orgId), ("senderId", .string e.senderId),
    ("sequenceNumber", .string (toString e.sequenceNumber))]

/-- What is emitted, and to which room. -/
structure ChatEmission where
  room : String
  event : String
  data : JsObject
  deriving DecidableEq

/-- What the broadcaster emits of an event: the payload, under the event's own name. -/
def startChatBroadcaster (e : ChatEvent) : Option ChatEmission :=
  if e.eventType ≠ "message.created" ∧ e.eventType ≠ "message.received" then none
  else
    ((e.payload.lookup "channelId").filter (·.truthy)).map fun channelId =>
      ⟨channelRoom channelId.text, e.eventType, e.payload⟩

/-- A row as the router answers it, less `body_parsed`, `is_edited` and `edit_history`. -/
def messageJson (r : MessageRow) : JsObject :=
  [("id", .string r.id), ("org_id", .string r.orgId), ("channel_id", .string r.channelId),
    ("sender_id", .string r.senderId), ("client_message_id", .string r.clientMessageId),
    ("sequence_number", .string (toString r.sequenceNumber)), ("body", .string r.body),
    ("parent_message_id", (r.parentMessageId.map JsValue.string).getD .null),
    ("deleted_at", (r.deletedAt.map fun at' => JsValue.string (toString at')).getD .null),
    ("created_at", .string (toString r.createdAt))]

/-- The sockets that are in the room at an attempt, and whether one of them answers in time. -/
structure Attempt (κ : Type*) where
  sockets : List κ
  acked : Bool

/-- `ACK_RETRIES`. -/
def ackRetries : ℕ := 3

section Emissions

variable {κ : Type*}

/-- The sockets that are emitted to, attempt after attempt. -/
def emitAttempts (attempts : ℕ → Attempt κ) : ℕ → List κ
  | 0 => []
  | n + 1 =>
    if (attempts 0).sockets.isEmpty then []
    else if (attempts 0).acked then (attempts 0).sockets
    else (attempts 0).sockets ++ emitAttempts (fun k => attempts (k + 1)) n

/-- The first attempt, and the retries. -/
def emitWithAckRetry (attempts : ℕ → Attempt κ) : List κ :=
  emitAttempts attempts (ackRetries + 1)

end Emissions

/-! ## The client -/

/-- A message of the client; the type of a field says nothing about what it holds. -/
structure Message where
  id : Option JsValue
  channelId : Option JsValue
  senderUserId : Option JsValue
  body : Option JsValue
  clientMessageId : Option JsValue
  createdAt : Option JsValue
  attachments : JsValue
  deriving DecidableEq

/-- The fields are read by their names, and none is checked. -/
def toMessage (dto : JsObject) : Message where
  id := dto.lookup "id"
  channelId := dto.lookup "channel_id"
  senderUserId := dto.lookup "sender_user_id"
  body := dto.lookup "body"
  clientMessageId := dto.lookup "client_message_id"
  createdAt := dto.lookup "created_at"
  attachments := ((dto.lookup "attachments").filter (· ≠ .null)).getD (.strings [])

/-- The message service, and the channels it is subscribed to. -/
structure Client where
  subscriptions : List String
  messages : List Message
  deriving DecidableEq

/-- What a subscription makes of the list. -/
def incoming (channelId : String) (dto : JsObject) (messages : List Message) : List Message :=
  if dto.lookup "channel_id" ≠ some (.string channelId) then messages
  else if messages.any (·.id = (toMessage dto).id) then messages
  else messages ++ [toMessage dto]

namespace Client

/-- One more listener. -/
def subscribeRealtime (c : Client) (channelId : String) : Client :=
  { c with subscriptions := c.subscriptions ++ [channelId] }

/-- An event comes; every subscription listens to `chat:message`. -/
def on (c : Client) (event : String) (data : JsObject) : Client :=
  if event = "chat:message" then
    { c with
      messages := c.subscriptions.foldl (fun messages x => incoming x data messages) c.messages }
  else c

/-- The list is what the router answers. -/
def load (c : Client) (rows : List MessageRow) : Client :=
  { c with messages := rows.map fun r => toMessage (messageJson r) }

/-- An event of the outbox is published any number of times, and each time emitted to the socket
`k` of the client at every attempt it is in the room. -/
def delivered {κ : Type*} [DecidableEq κ] (e : ChatEvent) (k : κ)
    (published : List (ℕ → Attempt κ)) (c : Client) : Client :=
  match startChatBroadcaster e with
  | some sent =>
    (fun c => c.on sent.event sent.data)^[(published.flatMap emitWithAckRetry).count k] c
  | none => c

/-- What changes the client: a channel is loaded or subscribed to, or the socket gets an event of
another message.  To send a message changes no list. -/
inductive Act
  | load (rows : List MessageRow)
  | subscribeRealtime (channelId : String)
  | event (e : MessageEvent)

/-- What the client does, or is sent. -/
def act (c : Client) : Act → Client
  | .load rows => c.load rows
  | .subscribeRealtime channelId => c.subscribeRealtime channelId
  | .event e => c.delivered (messageCreated e) () [fun _ => ⟨[()], true⟩]

/-- A client that was started, and what has happened to it since. -/
def reached (acts : List Act) : Client := acts.foldl act ⟨[], []⟩

end Client

/-- The list has the message, and has it once. -/
def Listed (messages : List Message) (r : MessageRow) : Prop :=
  ∃ m, messages.filter (·.id = some (.string r.id)) = [m]
    ∧ m.body = some (.string r.body) ∧ m.senderUserId = some (.string r.senderId)

/-! ## What becomes of the event -/

section Delivered

variable {κ : Type*} [DecidableEq κ] {e : MessageEvent} {sent : ChatEmission}

/-- The event goes out under its own name, as it is. -/
theorem startChatBroadcaster_messageCreated
    (h : startChatBroadcaster (messageCreated e) = some sent) :
    sent.room = channelRoom e.channelId ∧ sent.event = "message.created"
      ∧ sent.data = (messageCreated e).payload := by
  unfold startChatBroadcaster at h
  rw [if_neg fun hneither => hneither.1 rfl] at h
  obtain ⟨channelId, hchannel, rfl⟩ := Option.map_eq_some_iff.mp h
  obtain ⟨hlookup, -⟩ := Option.filter_eq_some_iff.mp hchannel
  obtain rfl := Option.some.inj hlookup
  exact ⟨rfl, rfl, rfl⟩

theorem Client.on_of_ne {event : String} (h : event ≠ "chat:message") (c : Client)
    (data : JsObject) : c.on event data = c :=
  if_neg h

/-- **The event changes nothing**, however often it comes. -/
theorem delivered_messages (k : κ) (published : List (ℕ → Attempt κ)) (c : Client) :
    c.delivered (messageCreated e) k published = c := by
  unfold Client.delivered
  split
  case h_2 => rfl
  case h_1 sent hsent =>
    obtain ⟨-, hevent, -⟩ := startChatBroadcaster_messageCreated hsent
    have hon : (fun c : Client => c.on sent.event sent.data) = id := by
      funext c
      rw [hevent]
      exact c.on_of_ne (by decide) sent.data
    rw [hon, Function.iterate_id]
    rfl

/-- Nor would it under the name that the client listens to: it has no `channel_id`. -/
theorem incoming_messageCreated (channelId : String) (messages : List Message) :
    incoming channelId (messageCreated e).payload messages = messages :=
  if_pos nofun

end Delivered

section Sent

/-- No message of the list has a sender. -/
def Senderless (c : Client) : Prop := ∀ m ∈ c.messages, m.senderUserId = none

/-- A row has no key that the sender is read from. -/
theorem senderUserId_messageJson (r : MessageRow) :
    (toMessage (messageJson r)).senderUserId = none := by
  rfl

/-- No message of the list gets a sender, whatever the client does. -/
theorem senderless_act {c : Client} (h : Senderless c) (a : Client.Act) : Senderless (c.act a) := by
  cases a with
  | load rows =>
    intro m hm
    obtain ⟨r, -, rfl⟩ := List.mem_map.mp hm
    exact senderUserId_messageJson r
  | subscribeRealtime channelId => exact h
  | event e =>
    rw [Client.act, delivered_messages]
    exact h

/-- **No client ever lists a sender.** -/
theorem senderless_reached (acts : List Client.Act) : Senderless (Client.reached acts) := by
  have hacts : ∀ c, Senderless c → Senderless (acts.foldl Client.act c) := by
    induction acts with
    | nil => exact fun _ h => h
    | cons a acts ih => exact fun c h => ih _ (senderless_act h a)
  exact hacts _ (List.forall_mem_nil _)

variable {ι κ : Type*} [DecidableEq ι] [DecidableEq κ]

/-- **No message is listed by its event, and none before**: whatever a client has loaded, subscribed
to and been sent, the event of a message that `send` stores leaves its list as it is, and the list
does not have the message with its id, its body and its sender. -/
theorem never_listed {q q' : Chat.Calls ι} {i : ι} {uuid : String} {a : SendArgs}
    {message : MessageRow} (hc : q.calls i = .up (.send a (.outbox message)))
    (hstep : Pool.step chatMachine q (.run i uuid) = some q') :
    ∃ e, q'.store.outbox = e :: q.store.outbox
      ∧ ∀ (k : κ) (published : List (ℕ → Attempt κ)) (acts : List Client.Act),
        (((Client.reached acts).subscribeRealtime message.channelId).delivered (messageCreated e) k
            published).messages = (Client.reached acts).messages
          ∧ ¬ Listed (((Client.reached acts).subscribeRealtime message.channelId).delivered
            (messageCreated e) k published).messages message := by
  obtain ⟨c, s', c', hc', hnext, rfl⟩ := Pool.step_run hstep
  obtain rfl := Proc.up.inj (hc.symm.trans hc')
  obtain ⟨rfl, -⟩ := Prod.mk.inj (Option.some.inj hnext)
  refine ⟨_, rfl, fun k published acts => ?_⟩
  rw [delivered_messages]
  refine ⟨rfl, ?_⟩
  rintro ⟨m, hm, -, hsender⟩
  have hmem : m ∈ (Client.reached acts).messages :=
    (List.mem_filter.mp (hm ▸ List.mem_singleton_self m)).1
  cases (senderless_reached acts m hmem).symm.trans hsender

end Sent

/-! ## A message nobody sees -/

def demoArgs : SendArgs := ⟨"o", "c", "u", "hello", "x", none⟩

def demoRow : MessageRow := demoArgs.row "m1" 1 0

def demoEvent : MessageEvent := ⟨"o", "m1", "c", "u", 1⟩

/-- A group with one member, who sends a message. -/
def demoSends : Chat.Calls (Fin 1) where
  store := ⟨0, ⟨⟨[⟨"c", "o", .group, some "general", "u", none, none⟩], List.nodup_singleton _⟩,
      fun _ => ["u"], [], fun _ => some 0, []⟩,
    ⟨fun _ _ => true, fun _ => true, fun _ => true⟩, .empty, ⟨fun _ => ["u"], .empty⟩, [],
    fun _ => []⟩
  calls _ := .up (.send demoArgs .member)

/-- The message is stored, and its event written. -/
theorem demoSends_run : ∃ q q' : Chat.Calls (Fin 1),
    Run (Pool.step chatMachine) anyStep demoSends q
      ∧ Pool.step chatMachine q (.run 0 "") = some q'
      ∧ q.calls 0 = .up (.send demoArgs (.outbox demoRow)) ∧ q.store.messages.rows = [demoRow]
      ∧ q'.store.outbox = [demoEvent] := by
  obtain ⟨q, q', hrun, -, hstep, hq⟩ := exists_step_of_exec (Pool.step chatMachine) anyStep
    demoSends (List.replicate 4 (.run 0 "m1")) (.run 0 "")
    (fun q q' => q.calls 0 = .up (.send demoArgs (.outbox demoRow))
      ∧ q.store.messages.rows = [demoRow] ∧ q'.store.outbox = [demoEvent]) (by decide)
  exact ⟨q, q', hrun, hstep, of_decide_eq_true hq⟩

/-- The client is in the room, and answers the first event. -/
def demoAttempts (_ : ℕ) : Attempt Unit := ⟨[()], true⟩

/-- A client that has loaded the message has it once, without its sender, and the event changes
nothing. -/
theorem never_listed_loaded :
    ((Client.reached [.load [demoRow]]).messages.map fun m => (m.id, m.senderUserId))
        = [(some (.string "m1"), none)]
      ∧ ¬ Listed (((Client.reached [.load [demoRow]]).subscribeRealtime "c").delivered
        (messageCreated demoEvent) () [demoAttempts]).messages demoRow := by
  obtain ⟨q, q', -, hstep, hcall, -, houtbox⟩ := demoSends_run
  obtain ⟨e, he, hnever⟩ := never_listed (κ := Unit) hcall hstep
  obtain rfl : demoEvent = e := List.head_eq_of_cons_eq (houtbox.symm.trans he)
  exact ⟨by decide, (hnever () [demoAttempts] [.load [demoRow]]).2⟩

/-- A client has an empty list, and the event is emitted to it. -/
theorem new_message_not_listed : (∃ q q' : Chat.Calls (Fin 1),
    Run (Pool.step chatMachine) anyStep demoSends q
      ∧ Pool.step chatMachine q (.run 0 "") = some q' ∧ q.store.messages.rows = [demoRow]
      ∧ q'.store.outbox = [demoEvent])
    ∧ startChatBroadcaster (messageCreated demoEvent)
      = some ⟨channelRoom "c", "message.created", (messageCreated demoEvent).payload⟩
    ∧ emitWithAckRetry demoAttempts = [()]
    ∧ ¬ Listed (((⟨[], []⟩ : Client).subscribeRealtime "c").delivered (messageCreated demoEvent)
      () [demoAttempts]).messages demoRow := by
  refine ⟨?_, by decide, by decide, ?_⟩
  · obtain ⟨q, q', hrun, hstep, -, hrows, houtbox⟩ := demoSends_run
    exact ⟨q, q', hrun, hstep, hrows, houtbox⟩
  · rintro ⟨m, hm, -⟩
    rw [delivered_messages] at hm
    cases hm

end WorkPlatform.Realtime

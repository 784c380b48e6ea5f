import WorkPlatform.Realtime.Calls

/-!
# Realtime/Places — what the id of a call names, and what a statement can do

    text x    the room call:x, the hash call:state:x, the set call:participants:x
    row id    the row of video_calls with the UUID that x is read as

A handler is at the places of its call from the statement that comes there on, `join` or `leave`,
until it ends.  A statement does nothing to the store but what `Effect` lists (`effect_next`).
-/

namespace WorkPlatform.Realtime

open Machinery

/-! ## Places -/

/-- What the id of a call names: the room, the hash and the set by its text, the row by its UUID. -/
inductive Place
  | text (callId : String)
  | row (id : String)
  deriving DecidableEq

def JoinPc.begun : JoinPc → Bool
  | .hset | .sadd | .expireState | .expireParticipants | .upsert | .emit => true
  | .videoEnabled | .join | .returned | .threw => false

def LeavePc.begun : LeavePc → Bool
  | .srem | .scard | .ended | .emit => true
  | .leave | .returned | .threw => false

section Places

variable {ι κ : Type*} (uuid : String → Option String) (session : κ → Session)

def places (callId : String) : List Place := .text callId :: ((uuid callId).map .row).toList

/-- The places of a handler under way. -/
def Call.places : Call κ → List Place
  | .handleCallJoin _ callId _ pc => if pc.begun then Realtime.places uuid callId else []
  | .handleCallLeave _ callId pc => if pc.begun then Realtime.places uuid callId else []
  | _ => []

/-- The places that the next statement comes to. -/
def Call.enters : Call κ → List Place
  | .handleCallJoin _ callId _ .join => Realtime.places uuid callId
  | .handleCallLeave _ callId .leave => Realtime.places uuid callId
  | .event _ (.callJoin callId) .pending => [.text callId]
  | _ => []

/-- Everything that is stored or on its way at the place is of the organisation. -/
def CallStore.OnlyOf (s : CallStore κ) (o : String) : Place → Prop
  | .text callId => (∀ k, callRoom callId ∈ s.rooms k → (session k).orgId = o)
      ∧ (∀ e ∈ s.inFlight, e.room = callRoom callId → e.orgId = o)
      ∧ ∀ state ∈ s.callState callId, state.orgId = o
  | .row id => ∀ row ∈ s.videoCalls.find id, row.orgId = o

/-- And so is every handler under way there. -/
def OnlyOf (p : Calls ι κ) (o : String) (place : Place) : Prop :=
  p.store.OnlyOf session o place
    ∧ ∀ i, (p.calls i).Keeps fun c => place ∈ c.places uuid → c.orgId session = o

/-- **A call comes to places of its own organisation only.** -/
def Own (p : Calls ι κ) : Move ι Bool (Act κ) → Prop
  | .run i _ => (p.calls i).Keeps fun c =>
      ∀ place ∈ c.enters uuid, OnlyOf uuid session p (c.orgId session) place
  | _ => True

variable [Fintype κ] {session}

instance (s : CallStore κ) (o : String) : ∀ place, Decidable (s.OnlyOf session o place)
  | .text _ => inferInstanceAs (Decidable (_ ∧ _ ∧ _))
  | .row id => inferInstanceAs (Decidable (∀ row ∈ s.videoCalls.find id, row.orgId = o))

variable [Fintype ι] {uuid}

instance (p : Calls ι κ) (o : String) (place : Place) :
    Decidable (OnlyOf uuid session p o place) :=
  inferInstanceAs (Decidable (_ ∧ _))

instance (p : Calls ι κ) : ∀ m, Decidable (Own uuid session p m)
  | .run i _ => inferInstanceAs (Decidable ((p.calls i).Keeps fun c =>
      ∀ place ∈ c.enters uuid, OnlyOf uuid session p (c.orgId session) place))
  | .crash _ | .env _ => inferInstanceAs (Decidable True)

end Places

/-! ## What a statement can do -/

section Effects

variable {κ : Type*} [DecidableEq κ] (uuid : String → Option String) (session : κ → Session)

/-- What the statements of a call can do to the store. -/
inductive Effect (c : Call κ) : CallStore κ → CallStore κ → Prop
  | refl (s) : Effect c s s
  | trans {s t u} : Effect c s t → Effect c t u → Effect c s u
  | joinOrg {s} (k room) : (session k).orgId = c.orgId session → InOrg (c.orgId session) room →
      Effect c s (s.join k room)
  | joinChannel {s} (k channelId) : Effect c s (s.join k (channelRoom channelId))
  | joinCall {s} (k callId) : (session k).orgId = c.orgId session →
      .text callId ∈ c.enters uuid → Effect c s (s.join k (callRoom callId))
  | leave {s : CallStore κ} (k rooms) : rooms ⊆ s.rooms k →
      Effect c s { s with rooms := Function.update s.rooms k rooms }
  | hset {s} (callId state) : state.orgId = c.orgId session → .text callId ∈ c.places uuid →
      Effect c s (s.hset callId state)
  | members {s : CallStore κ} (callId members expires) : .text callId ∈ c.places uuid →
      Effect c s
        { s with
          participants := Function.update s.participants callId members
          participantsExpire := expires }
  | expire {s : CallStore κ} (stateExpires participantsExpire) : Effect c s
      { s with stateExpires := stateExpires, participantsExpire := participantsExpire }
  | upsert {s} (id channelId userId) : .row id ∈ c.places uuid →
      Effect c s (s.upsertCall id channelId (c.orgId session) userId)
  | endCall {s} (id) : .row id ∈ c.places uuid → Effect c s (s.endCall id)
  | emit {s} (e : Sent) : e.orgId = c.orgId session →
      (InOrg e.orgId e.room ∨ ∃ x, e.room = callRoom x ∧ .text x ∈ c.places uuid) →
      Effect c s (s.emit e)

variable {uuid session} {s s' : CallStore κ} {c c' : Call κ} {ok : Bool} {k : κ}
  {callId : String} {place : Place}

theorem text_mem_places : Place.text callId ∈ places uuid callId := List.mem_cons_self

theorem row_mem_places {id : String} (h : uuid callId = some id) :
    Place.row id ∈ places uuid callId := by
  unfold places
  rw [h]
  exact List.mem_cons_of_mem _ List.mem_cons_self

theorem eq_of_text_mem_places {x : String} (h : Place.text callId ∈ places uuid x) :
    callId = x := by
  unfold places at h
  rcases List.mem_cons.mp h with htext | hrow
  · exact Place.text.inj htext
  · rw [Option.toList_map] at hrow
    obtain ⟨id, -, hid⟩ := List.mem_map.mp hrow
    cases hid

omit [DecidableEq κ] in
/-- Whoever is at the text of an id is at the row too. -/
theorem row_of_text {id : String} (htext : .text callId ∈ c.places uuid)
    (h : uuid callId = some id) : .row id ∈ c.places uuid := by
  cases c with
  | handleCallJoin | handleCallLeave =>
    obtain ⟨hbegun, hmem⟩ := List.mem_ite_nil_right.mp htext
    rw [← eq_of_text_mem_places hmem] at htext
    exact List.mem_ite_nil_right.mpr ⟨hbegun, eq_of_text_mem_places hmem ▸ row_mem_places h⟩
  | connect | event | broadcast => cases htext

theorem effect_emits {es : List Sent} (h : ∀ e ∈ es, e.orgId = c.orgId session
      ∧ InOrg e.orgId e.room) :
    Effect uuid session c s { s with inFlight := es ++ s.inFlight } := by
  induction es with
  | nil => exact .refl s
  | cons e es ih =>
    obtain ⟨horg, hroom⟩ := h e List.mem_cons_self
    exact .trans (ih fun e he => h e (List.mem_cons_of_mem _ he)) (.emit e horg (Or.inl hroom))

/-- A handler's first statement has such an effect. -/
theorem effect_handle {e : SocketEvent} :
    Effect uuid session (.event k e .pending) s (e.handle session s k ok) := by
  cases e with
  | taskSubscribe taskId =>
    cases ok with
    | true => exact .joinOrg k _ rfl (inOrg_taskRoom _ _)
    | false => exact .refl s
  | taskUnsubscribe taskId =>
    cases ok with
    | true => exact .leave k _ (List.filter_subset_self _)
    | false => exact .refl s
  | callJoin callId => exact .joinCall k callId rfl (List.mem_singleton_self _)
  | callLeave callId => exact .leave k _ (List.filter_subset_self _)
  | offer | answer | iceCandidate => exact .emit _ rfl (Or.inl (inOrg_userRoom _ _))
  | disconnect =>
    exact .trans (.leave k [] (List.nil_subset _)) (.emit _ rfl (Or.inl (inOrg_orgRoom _)))

/-- What each step of `handleCallJoin` does, and where. -/
theorem effect_handleCallJoin {channelId : String} {pc pc' : JoinPc}
    (h : handleCallJoinNext uuid session s k callId channelId ok pc = some (s', pc')) :
    Effect uuid session (.handleCallJoin k callId channelId pc) s s' := by
  cases pc with
  | videoEnabled =>
    obtain ⟨rfl, -⟩ := Prod.mk.inj (Option.some.inj h)
    exact .refl s
  | join =>
    obtain ⟨rfl, -⟩ := Prod.mk.inj (Option.some.inj h)
    exact .joinCall k callId rfl text_mem_places
  | hset =>
    obtain ⟨rfl, -⟩ := Prod.mk.inj (Option.some.inj h)
    exact .hset callId _ rfl text_mem_places
  | sadd =>
    obtain ⟨rfl, -⟩ := Prod.mk.inj (Option.some.inj h)
    exact .members callId _ _ text_mem_places
  | expireState =>
    obtain ⟨rfl, -⟩ := Prod.mk.inj (Option.some.inj h)
    exact .expire _ s.participantsExpire
  | expireParticipants =>
    obtain ⟨rfl, -⟩ := Prod.mk.inj (Option.some.inj h)
    exact .expire s.stateExpires _
  | upsert =>
    unfold handleCallJoinNext at h
    dsimp only at h
    split at h
    case h_1 id huuid =>
      obtain ⟨rfl, -⟩ := Prod.mk.inj (Option.some.inj h)
      exact .upsert id channelId _ (row_mem_places huuid)
    case h_2 =>
      obtain ⟨rfl, -⟩ := Prod.mk.inj (Option.some.inj h)
      exact .refl s
  | emit =>
    obtain ⟨rfl, -⟩ := Prod.mk.inj (Option.some.inj h)
    exact .emit _ rfl (Or.inr ⟨callId, rfl, text_mem_places⟩)
  | returned | threw => cases h

/-- What each step of `handleCallLeave` does, and where. -/
theorem effect_handleCallLeave {pc pc' : LeavePc}
    (h : handleCallLeaveNext uuid session s k callId pc = some (s', pc')) :
    Effect uuid session (.handleCallLeave k callId pc) s s' := by
  cases pc with
  | leave =>
    obtain ⟨rfl, -⟩ := Prod.mk.inj (Option.some.inj h)
    exact .leave k _ (List.filter_subset_self _)
  | srem =>
    obtain ⟨rfl, -⟩ := Prod.mk.inj (Option.some.inj h)
    exact .members callId _ _ text_mem_places
  | scard =>
    obtain ⟨rfl, -⟩ := Prod.mk.inj (Option.some.inj h)
    exact .refl s
  | ended =>
    unfold handleCallLeaveNext at h
    dsimp only at h
    split at h
    case h_1 id huuid =>
      obtain ⟨rfl, -⟩ := Prod.mk.inj (Option.some.inj h)
      exact .endCall id (row_mem_places huuid)
    case h_2 =>
      obtain ⟨rfl, -⟩ := Prod.mk.inj (Option.some.inj h)
      exact .refl s
  | emit =>
    obtain ⟨rfl, -⟩ := Prod.mk.inj (Option.some.inj h)
    exact .emit _ rfl (Or.inr ⟨callId, rfl, text_mem_places⟩)
  | returned | threw => cases h

/-- **What a statement can do.** -/
theorem effect_next (h : c.next uuid session s ok = some (s', c')) :
    Effect uuid session c s s' := by
  cases c with
  | connect k pc =>
    obtain ⟨pc', hpc, -⟩ := pc_of_next h
    cases pc with
    | joinOrg =>
      obtain ⟨rfl, -⟩ := Prod.mk.inj (Option.some.inj hpc)
      exact .joinOrg k _ rfl (inOrg_orgRoom _)
    | joinUser =>
      obtain ⟨rfl, -⟩ := Prod.mk.inj (Option.some.inj hpc)
      exact .joinOrg k _ rfl (inOrg_userRoom _ _)
    | memberships =>
      obtain ⟨rfl, -⟩ := Prod.mk.inj (Option.some.inj hpc)
      exact .refl s
    | channels channelIds =>
      cases channelIds with
      | nil => cases hpc
      | cons channelId rest =>
        obtain ⟨rfl, -⟩ := Prod.mk.inj (Option.some.inj hpc)
        exact .joinChannel k channelId
  | event k e pc =>
    obtain ⟨pc', hpc, -⟩ := pc_of_next h
    cases pc with
    | pending =>
      obtain ⟨rfl, -⟩ := Prod.mk.inj (Option.some.inj hpc)
      exact effect_handle
    | handled => cases hpc
  | handleCallJoin k callId channelId pc =>
    obtain ⟨pc', hpc, -⟩ := pc_of_next h
    exact effect_handleCallJoin hpc
  | handleCallLeave k callId pc =>
    obtain ⟨pc', hpc, -⟩ := pc_of_next h
    exact effect_handleCallLeave hpc
  | broadcast e pc =>
    obtain ⟨pc', hpc, -⟩ := pc_of_next h
    cases pc with
    | pending =>
      obtain ⟨rfl, -⟩ := Prod.mk.inj (Option.some.inj hpc)
      refine effect_emits fun sent hsent => ?_
      obtain ⟨room, hroom, rfl⟩ := List.mem_map.mp hsent
      exact ⟨rfl, inOrg_of_broadcastRooms hroom⟩
    | handled => cases hpc

/-! ## What is written, and where -/

/-- Only a step at a call changes its state in Redis. -/
theorem Effect.callState (h : Effect uuid session c s s')
    (hx : s'.callState callId ≠ s.callState callId
      ∨ s'.participants callId ≠ s.participants callId) : .text callId ∈ c.places uuid := by
  induction h with
  | @trans s t u _ _ ih ih' =>
    by_cases ht : t.callState callId ≠ s.callState callId
        ∨ t.participants callId ≠ s.participants callId
    · exact ih ht
    · rw [not_or, not_not, not_not] at ht
      rw [← ht.1, ← ht.2] at hx
      exact ih' hx
  | hset x state _ hmem =>
    rcases hx with hstate | hset
    · by_cases hxc : callId = x
      · exact hxc ▸ hmem
      · exact absurd (Function.update_of_ne hxc _ _) hstate
    · exact absurd rfl hset
  | members x members expires hmem =>
    rcases hx with hstate | hset
    · exact absurd rfl hstate
    · by_cases hxc : callId = x
      · exact hxc ▸ hmem
      · exact absurd (Function.update_of_ne hxc _ _) hset
  | refl | joinOrg | joinChannel | joinCall | leave | expire | upsert | endCall | emit =>
    rcases hx with hstate | hset
    · exact absurd rfl hstate
    · exact absurd rfl hset

/-- Only a step at a call changes its row. -/
theorem Effect.videoCalls {id : String} (h : Effect uuid session c s s')
    (hid : s'.videoCalls.find id ≠ s.videoCalls.find id) : .row id ∈ c.places uuid := by
  induction h with
  | @trans s t u _ _ ih ih' =>
    by_cases ht : t.videoCalls.find id = s.videoCalls.find id
    · rw [← ht] at hid
      exact ih' hid
    · exact ih ht
  | upsert id' channelId userId hmem =>
    by_cases heq : id = id'
    · exact heq ▸ hmem
    · exact absurd (CallStore.find_upsertCall_of_ne heq) hid
  | endCall id' hmem =>
    by_cases heq : id = id'
    · exact heq ▸ hmem
    · exact absurd (CallStore.find_endCall_of_ne heq) hid
  | refl | joinOrg | joinChannel | joinCall | leave | hset | members | expire | emit =>
    exact absurd rfl hid

end Effects

end WorkPlatform.Realtime

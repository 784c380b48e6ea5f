import WorkPlatform.Realtime.Places

/-!
# Realtime/Delivery — who is told, and whose calls are written

    org:o, org:o:user:u, org:o:task:t     only sockets of o come in
    call:x                                any socket that names x comes in

In every run in which a call comes to a place only where everything at that place is of its own
organisation (`Own`), an event reaches sockets of its organisation only, and no call writes what is
another's (`events_in_organisation`).
-/

namespace WorkPlatform.Realtime

open Machinery

section Effects

variable {κ : Type*} [DecidableEq κ] {uuid : String → Option String} {session : κ → Session}
  {s s' : CallStore κ} {c c' : Call κ} {ok : Bool} {k : κ} {callId : String} {place : Place}

omit [DecidableEq κ] in
theorem plain_orgId (c : Call κ) : ':' ∉ (c.orgId session).toList := by
  cases c with
  | connect k | event k | handleCallJoin k | handleCallLeave k => exact (session k).plain
  | broadcast e => exact e.plain

/-! ## What the rooms and the events keep -/

/-- The rooms of an organisation have its sockets only. -/
def CallStore.RoomsOwn (session : κ → Session) (s : CallStore κ) : Prop :=
  ∀ k, ∀ room ∈ s.rooms k, ∀ o : String, ':' ∉ o.toList → InOrg o room → o = (session k).orgId

/-- An event goes to a room of its organisation, or to that of a call. -/
def CallStore.SentOwn (s : CallStore κ) : Prop :=
  ∀ e ∈ s.inFlight, ':' ∉ e.orgId.toList ∧ (InOrg e.orgId e.room ∨ ∃ x, e.room = callRoom x)

theorem mem_rooms_join {j : κ} {r room : String} (h : room ∈ (s.join k r).rooms j) :
    j = k ∧ room = r ∨ room ∈ s.rooms j := by
  rcases update_cases (room ∈ ·) h with ⟨rfl, hself⟩ | ⟨-, hother⟩
  · rcases List.mem_insert_iff.mp hself with rfl | hmem
    · exact Or.inl ⟨rfl, rfl⟩
    · exact Or.inr hmem
  · exact Or.inr hother

theorem mem_rooms_leave {j : κ} {rooms : List String} {room : String} (hsub : rooms ⊆ s.rooms k)
    (h : room ∈ Function.update s.rooms k rooms j) : room ∈ s.rooms j := by
  rcases update_cases (room ∈ ·) h with ⟨rfl, hself⟩ | ⟨-, hother⟩
  · exact hsub hself
  · exact hother

/-- A step leaves each socket in rooms of its own organisation. -/
theorem Effect.roomsOwn (h : Effect uuid session c s s') (hs : s.RoomsOwn session) :
    s'.RoomsOwn session := by
  induction h with
  | trans _ _ ih ih' => exact ih' (ih hs)
  | joinOrg k r hk hr =>
    intro j room hroom o ho hin
    rcases mem_rooms_join hroom with ⟨rfl, rfl⟩ | hmem
    · rw [hk]
      exact hin.unique ho (plain_orgId c) hr
    · exact hs j room hmem o ho hin
  | joinChannel k channelId =>
    intro j room hroom o ho hin
    rcases mem_rooms_join hroom with ⟨rfl, rfl⟩ | hmem
    · exact absurd hin (not_inOrg_channelRoom channelId)
    · exact hs j room hmem o ho hin
  | joinCall k callId =>
    intro j room hroom o ho hin
    rcases mem_rooms_join hroom with ⟨rfl, rfl⟩ | hmem
    · exact absurd hin (not_inOrg_callRoom callId)
    · exact hs j room hmem o ho hin
  | leave k rooms hsub => exact fun j room hroom => hs j room (mem_rooms_leave hsub hroom)
  | refl | hset | members | expire | upsert | endCall | emit => exact hs

/-- What is sent stays within its organisation. -/
theorem Effect.sentOwn (h : Effect uuid session c s s') (hs : s.SentOwn) : s'.SentOwn := by
  induction h with
  | trans _ _ ih ih' => exact ih' (ih hs)
  | emit e ho hroom =>
    refine List.forall_mem_cons.mpr ⟨⟨ho ▸ plain_orgId c, ?_⟩, hs⟩
    rcases hroom with hin | ⟨x, hx, -⟩
    · exact Or.inl hin
    · exact Or.inr ⟨x, hx⟩
  | refl | joinOrg | joinChannel | joinCall | leave | hset | members | expire | upsert | endCall =>
    exact hs

theorem Effect.received (h : Effect uuid session c s s') : s'.received = s.received := by
  induction h with
  | trans _ _ ih ih' => exact ih'.trans ih
  | refl | joinOrg | joinChannel | joinCall | leave | hset | members | expire | upsert | endCall
  | emit => rfl

/-! ## What keeps a place with one organisation -/

section OnlyOf

variable {o : String}

/-- A socket of the organisation may join the place's room. -/
theorem onlyOf_join {r : String} (h : s.OnlyOf session o place)
    (hr : ∀ x, r = callRoom x → place = .text x → (session k).orgId = o) :
    (s.join k r).OnlyOf session o place := by
  cases place with
  | text x =>
    obtain ⟨hrooms, hsent, hstate⟩ := h
    refine ⟨fun j hj => ?_, hsent, hstate⟩
    rcases mem_rooms_join hj with ⟨rfl, hroom⟩ | hmem
    · exact hr x hroom.symm rfl
    · exact hrooms j hmem
  | row id => exact h

omit [DecidableEq κ] in
/-- An HSET with a state of the organisation leaves the place to it. -/
theorem onlyOf_hset {state : CallState} (h : s.OnlyOf session o place)
    (hstate : place = .text callId → state.orgId = o) :
    (s.hset callId state).OnlyOf session o place := by
  cases place with
  | text x =>
    obtain ⟨hrooms, hsent, hstored⟩ := h
    refine ⟨hrooms, hsent, fun stored hmem => ?_⟩
    rcases update_cases (stored ∈ ·) hmem with ⟨rfl, hself⟩ | ⟨-, hother⟩
    · obtain rfl := Option.mem_some_iff.mp hself
      exact hstate rfl
    · exact hstored stored hother
  | row id => exact h

theorem onlyOf_leave {rooms : List String} (h : s.OnlyOf session o place)
    (hsub : rooms ⊆ s.rooms k) :
    CallStore.OnlyOf session { s with rooms := Function.update s.rooms k rooms } o place := by
  cases place with
  | text x =>
    obtain ⟨hrooms, hsent, hstate⟩ := h
    exact ⟨fun j hj => hrooms j (mem_rooms_leave hsub hj), hsent, hstate⟩
  | row id => exact h

omit [DecidableEq κ] in
theorem onlyOf_emit {e : Sent} (h : s.OnlyOf session o place)
    (he : ∀ x, e.room = callRoom x → place = .text x → e.orgId = o) :
    (s.emit e).OnlyOf session o place := by
  cases place with
  | text x =>
    obtain ⟨hrooms, hsent, hstate⟩ := h
    exact ⟨hrooms, List.forall_mem_cons.mpr ⟨fun hx => he x hx rfl, hsent⟩, hstate⟩
  | row id => exact h

omit [DecidableEq κ] in
/-- The upsert of the organisation's call leaves the place to it. -/
theorem onlyOf_upsertCall {id channelId orgId userId : String} (h : s.OnlyOf session o place)
    (horg : place = .row id → orgId = o) :
    (s.upsertCall id channelId orgId userId).OnlyOf session o place := by
  cases place with
  | text x => exact h
  | row id' =>
    intro row hrow
    rcases CallStore.find_upsertCall hrow with ⟨old, hold, hsame⟩ | ⟨rfl, hnew⟩
    · exact hsame ▸ h old hold
    · exact hnew.trans (horg rfl)

omit [DecidableEq κ] in
theorem onlyOf_endCall {id : String} (h : s.OnlyOf session o place) :
    (s.endCall id).OnlyOf session o place := by
  cases place with
  | text x => exact h
  | row id' =>
    intro row hrow
    obtain ⟨old, hold, hsame⟩ := CallStore.find_endCall hrow
    exact hsame ▸ h old hold

/-- A place stays with an organisation, if it is that of the call that is or comes there. -/
theorem Effect.onlyOf (h : Effect uuid session c s s')
    (hc : place ∈ c.places uuid ∨ place ∈ c.enters uuid → c.orgId session = o)
    (hs : s.OnlyOf session o place) : s'.OnlyOf session o place := by
  induction h with
  | trans _ _ ih ih' => exact ih' (ih hs)
  | joinOrg k r hk hr =>
    refine onlyOf_join hs fun x hx _ => ?_
    rw [hx] at hr
    exact absurd hr (not_inOrg_callRoom x)
  | joinChannel k channelId =>
    exact onlyOf_join hs fun x hx _ => absurd hx.symm (callRoom_ne_channelRoom x channelId)
  | joinCall k callId hk hmem =>
    refine onlyOf_join hs fun x hx hplace => ?_
    obtain rfl := callRoom_inj.mp hx
    rw [hk]
    exact hc (Or.inr (hplace ▸ hmem))
  | leave k rooms hsub => exact onlyOf_leave hs hsub
  | hset callId state ho hmem =>
    refine onlyOf_hset hs fun hplace => ?_
    rw [ho]
    exact hc (Or.inl (hplace ▸ hmem))
  | upsert id channelId userId hmem =>
    exact onlyOf_upsertCall hs fun hplace => hc (Or.inl (hplace ▸ hmem))
  | endCall id => exact onlyOf_endCall hs
  | emit e ho hroom =>
    refine onlyOf_emit hs fun x hx hplace => ?_
    rcases hroom with hin | ⟨y, hy, hmem⟩
    · rw [hx] at hin
      exact absurd hin (not_inOrg_callRoom x)
    · obtain rfl := callRoom_inj.mp (hx.symm.trans hy)
      rw [ho]
      exact hc (Or.inl (hplace ▸ hmem))
  | refl | members | expire => cases place <;> exact hs

/-- A handler is where it has come to. -/
theorem places_next (h : c.next uuid session s ok = some (s', c'))
    (hplace : place ∈ c'.places uuid) : place ∈ c.places uuid ∨ place ∈ c.enters uuid := by
  cases c with
  | connect | event | broadcast =>
    obtain ⟨pc', -, rfl⟩ := pc_of_next h
    cases hplace
  | handleCallJoin k callId channelId pc =>
    obtain ⟨pc', hpc, rfl⟩ := pc_of_next h
    obtain ⟨hbegun, hmem⟩ := List.mem_ite_nil_right.mp hplace
    cases pc with
    | videoEnabled =>
      obtain ⟨-, rfl⟩ := Prod.mk.inj (Option.some.inj hpc)
      cases ok <;> cases hbegun
    | join => exact Or.inr hmem
    | hset | sadd | expireState | expireParticipants | upsert | emit => exact Or.inl hmem
    | returned | threw => cases hpc
  | handleCallLeave k callId pc =>
    obtain ⟨pc', hpc, rfl⟩ := pc_of_next h
    obtain ⟨-, hmem⟩ := List.mem_ite_nil_right.mp hplace
    cases pc with
    | leave => exact Or.inr hmem
    | srem | scard | ended | emit => exact Or.inl hmem
    | returned | threw => cases hpc

end OnlyOf

/-! ## What is written -/

/-- The stored call is the organisation's: by the hash, or by the row. -/
def CallStore.Owner (uuid : String → Option String) (s : CallStore κ) (callId o : String) : Prop :=
  (∃ state, s.callState callId = some state ∧ state.orgId = o)
    ∨ ∃ id row, uuid callId = some id ∧ s.videoCalls.find id = some row ∧ row.orgId = o

/-- Whatever is different between two stores is the organisation's. -/
def Respects (uuid : String → Option String) (o : String) (s s' : CallStore κ) : Prop :=
  (∀ callId o', s.Owner uuid callId o' → s'.callState callId ≠ s.callState callId
      ∨ s'.participants callId ≠ s.participants callId → o = o')
    ∧ ∀ id row, s.videoCalls.find id = some row → s'.videoCalls.find id ≠ some row → o = row.orgId

end Effects

/-! ## Runs -/

section Runs

variable {ι κ : Type*} [DecidableEq ι] [DecidableEq κ] {uuid : String → Option String}
  {session : κ → Session} {p q q' : Calls ι κ}

/-- Before the first connection; what is in Redis and in the database may be anything. -/
structure Started (p : Calls ι κ) : Prop where
  fresh : ∀ i, (p.calls i).Live fun c => c.fresh
  rooms : ∀ k, p.store.rooms k = []
  inFlight : p.store.inFlight = []
  received : ∀ k, p.store.received k = []

/-- **What every run keeps.** -/
structure Kept (uuid : String → Option String) (session : κ → Session) (p : Calls ι κ) : Prop where
  rooms : p.store.RoomsOwn session
  sent : p.store.SentOwn
  places : ∀ place, ∃ o, OnlyOf uuid session p o place
  received : ∀ k, ∀ e ∈ p.store.received k, e.orgId = (session k).orgId

omit [DecidableEq κ] in
/-- A call that has not started is at no place. -/
theorem places_of_fresh {c : Call κ} (h : c.fresh) : c.places uuid = [] := by
  cases c with
  | connect | event | broadcast => rfl
  | handleCallJoin k callId channelId pc =>
    obtain rfl : pc = .videoEnabled := of_decide_eq_true h
    rfl
  | handleCallLeave k callId pc =>
    obtain rfl : pc = .leave := of_decide_eq_true h
    rfl

omit [DecidableEq ι] [DecidableEq κ] in
/-- The invariant holds at the start. -/
theorem Started.kept (h : Started p) : Kept uuid session p where
  rooms := by
    intro k room hroom
    rw [h.rooms k] at hroom
    cases hroom
  sent := by
    intro e he
    rw [h.inFlight] at he
    cases he
  places := by
    intro place
    have hcalls : ∀ o i, (p.calls i).Keeps fun c =>
        place ∈ c.places uuid → c.orgId session = o := by
      intro o i
      obtain ⟨c, hc, hfresh⟩ := (h.fresh i).exists
      rw [hc]
      intro hplace
      rw [places_of_fresh hfresh] at hplace
      cases hplace
    cases place with
    | text callId =>
      refine ⟨((p.store.callState callId).map (·.orgId)).getD "", ⟨?_, ?_, ?_⟩, hcalls _⟩
      · intro k hk
        rw [h.rooms k] at hk
        cases hk
      · intro e he
        rw [h.inFlight] at he
        cases he
      · intro state hstate
        rw [Option.mem_def.mp hstate]
        rfl
    | row id =>
      refine ⟨((p.store.videoCalls.find id).map (·.orgId)).getD "", ?_, hcalls _⟩
      intro row hrow
      rw [Option.mem_def.mp hrow]
      rfl
  received := by
    intro k e he
    rw [h.received k] at he
    cases he

section Statements

variable {i : ι} {ok : Bool} {c c' : Call κ} {s' : CallStore κ}

/-- A statement of the organisation's own caller leaves the place to it. -/
theorem onlyOf_next {o : String} {place : Place} (h : OnlyOf uuid session p o place)
    (hc : place ∈ c.places uuid ∨ place ∈ c.enters uuid → c.orgId session = o)
    (hnext : c.next uuid session p.store ok = some (s', c')) :
    OnlyOf uuid session ⟨s', Function.update p.calls i (.up c')⟩ o place := by
  obtain ⟨hstore, hcalls⟩ := h
  refine ⟨(effect_next hnext).onlyOf hc hstore, keeps_update_up ?_ fun j _ => hcalls j⟩
  intro hplace
  rw [Call.orgId_next hnext]
  exact hc (places_next hnext hplace)

/-- A step keeps the invariant, where nobody enters a place of another organisation. -/
theorem kept_next (h : Kept uuid session p)
    (hG : (p.calls i).Keeps fun c =>
      ∀ place ∈ c.enters uuid, OnlyOf uuid session p (c.orgId session) place)
    (hc : p.calls i = .up c) (hnext : c.next uuid session p.store ok = some (s', c')) :
    Kept uuid session ⟨s', Function.update p.calls i (.up c')⟩ where
  rooms := (effect_next hnext).roomsOwn h.rooms
  sent := (effect_next hnext).sentOwn h.sent
  places := by
    intro place
    by_cases henters : place ∈ c.enters uuid
    · exact ⟨_, onlyOf_next (hG.of_up hc place henters) (fun _ => rfl) hnext⟩
    · obtain ⟨o, ho⟩ := h.places place
      refine ⟨o, onlyOf_next ho ?_ hnext⟩
      rintro (hplace | henters')
      · exact (ho.2 i).of_up hc hplace
      · exact absurd henters' henters
  received := by
    show ∀ k, ∀ e ∈ s'.received k, _
    rw [(effect_next hnext).received]
    exact h.received

end Statements

omit [DecidableEq ι] [DecidableEq κ] in
/-- An event of an organisation reaches its sockets only. -/
theorem received_deliver {sent : Sent} {node : κ → Bool} (h : Kept uuid session p) (k : κ) :
    ∀ e ∈ (p.store.deliver sent node).received k, e.orgId = (session k).orgId := by
  intro e he
  unfold CallStore.deliver at he
  dsimp only at he
  split at he
  case isFalse => exact h.received k e he
  case isTrue hsent =>
    obtain ⟨hflight, -, hroom⟩ := hsent
    rcases List.mem_cons.mp he with rfl | hold
    · obtain ⟨hplain, hin | ⟨x, hx⟩⟩ := h.sent e hflight
      · exact h.rooms k e.room hroom e.orgId hplain hin
      · obtain ⟨o, ⟨hrooms, hsent, -⟩, -⟩ := h.places (.text x)
        rw [hsent e hflight hx]
        exact (hrooms k (hx ▸ hroom)).symm
    · exact h.received k e hold

omit [DecidableEq ι] [DecidableEq κ] in
/-- What the surroundings do leaves a place to its organisation. -/
theorem onlyOf_act {o : String} {place : Place} (a : Act κ) (h : OnlyOf uuid session p o place) :
    OnlyOf uuid session ⟨p.store.act a, p.calls⟩ o place := by
  refine ⟨?_, h.2⟩
  cases place with
  | row id => cases a <;> exact h.1
  | text x =>
    obtain ⟨hrooms, hsent, hstate⟩ := h.1
    cases a with
    | tick now =>
      refine ⟨hrooms, hsent, fun state hmem => ?_⟩
      unfold CallStore.act CallStore.tick at hmem
      dsimp only at hmem
      split at hmem
      case isTrue => cases hmem
      case isFalse => exact hstate state hmem
    | memberships | deliver => exact h.1
    | settle e => exact ⟨hrooms, fun e' he' => hsent e' (List.mem_of_mem_erase he'), hstate⟩

omit [DecidableEq ι] [DecidableEq κ] in
/-- What the surroundings do keeps it. -/
theorem kept_act (a : Act κ) (h : Kept uuid session p) :
    Kept uuid session ⟨p.store.act a, p.calls⟩ where
  rooms := by cases a <;> exact h.rooms
  sent := by
    cases a with
    | settle e => exact fun e' he' => h.sent e' (List.mem_of_mem_erase he')
    | tick | memberships | deliver => exact h.sent
  places := fun place => (h.places place).imp fun _ ho => onlyOf_act a ho
  received := by
    cases a with
    | deliver e node => exact received_deliver h
    | tick | memberships | settle => exact h.received

/-- It holds in every state of such a run. -/
theorem kept_run (h : Started p)
    (hrun : Run (Pool.step (callMachine uuid session)) (Own uuid session) p q) :
    Kept uuid session q := by
  refine Pool.invariant (I := Kept uuid session) h.kept ?_ ?_ ?_ hrun
  · intro p i ok c s' c' hkept hG hc hnext
    exact kept_next hkept hG hc hnext
  · intro p i c hkept _ _
    exact ⟨hkept.rooms, hkept.sent,
      fun place => (hkept.places place).imp fun _ ho => ⟨ho.1, keeps_update_down ho.2⟩,
      hkept.received⟩
  · intro p a hkept _
    exact kept_act a hkept

omit [DecidableEq ι] in
/-- What a statement changes is its own organisation's. -/
theorem respects_next {i : ι} {ok : Bool} {c c' : Call κ} {s' : CallStore κ}
    (h : Kept uuid session p) (hc : p.calls i = .up c)
    (hnext : c.next uuid session p.store ok = some (s', c')) :
    Respects uuid (c.orgId session) p.store s' := by
  constructor
  · intro callId o' howner hchanged
    have htext := (effect_next hnext).callState hchanged
    rcases howner with ⟨state, hstate, rfl⟩ | ⟨id, row, hid, hrow, rfl⟩
    · obtain ⟨o, ⟨-, -, hstored⟩, hcalls⟩ := h.places (.text callId)
      rw [(hcalls i).of_up hc htext, hstored state hstate]
    · obtain ⟨o, hstored, hcalls⟩ := h.places (.row id)
      rw [(hcalls i).of_up hc (row_of_text htext hid), hstored row hrow]
  · intro id row hrow hchanged
    rw [← hrow] at hchanged
    obtain ⟨o, hstored, hcalls⟩ := h.places (.row id)
    rw [(hcalls i).of_up hc ((effect_next hnext).videoCalls hchanged), hstored row hrow]

/-- **Events and calls stay in their organisation**, whatever ids the clients choose, in every run
in which a call comes to places of its own organisation only. -/
theorem events_in_organisation (h : Started p)
    (hrun : Run (Pool.step (callMachine uuid session)) (Own uuid session) p q) :
    (∀ k, ∀ e ∈ q.store.received k, e.orgId = (session k).orgId)
      ∧ ∀ i ok q', Pool.step (callMachine uuid session) q (.run i ok) = some q' →
        (q.calls i).Live fun c => Respects uuid (c.orgId session) q.store q'.store := by
  have hkept := kept_run h hrun
  refine ⟨hkept.received, fun i ok q' hstep => ?_⟩
  obtain ⟨c, s', c', hc, hnext, rfl⟩ := Pool.step_run hstep
  rw [hc]
  exact respects_next hkept hc hnext

end Runs

/-! ## Two sockets and a call -/

theorem plain_o1 : ':' ∉ "o1".toList := by decide

/-- A session of `"u1"` in `"o1"`, and one of `"u2"`. -/
def demoSession (orgId : String) (hplain : ':' ∉ orgId.toList) (k : Fin 2) : Session :=
  if k = 0 then ⟨⟨"u1", "o1"⟩, plain_o1⟩ else ⟨⟨"u2", orgId⟩, hplain⟩

/-- The second socket joins the call `"x"` twice, as `call:join` and by the handler; the first by
the handler. -/
def demoCalls : Calls (Fin 3) (Fin 2) where
  store := ⟨0, fun _ => [], fun _ => [], fun _ => none, fun _ => none, fun _ => [], fun _ => none,
    .empty, [], fun _ => []⟩
  calls i := .up (
    if i = 0 then .event 1 (.callJoin "x") .pending
    else if i = 1 then .handleCallJoin 0 "x" "c" .videoEnabled
    else .handleCallJoin 1 "x" "c2" .videoEnabled)

theorem started_demoCalls : Started demoCalls where
  fresh := by decide
  rooms := fun _ => rfl
  inFlight := rfl
  received := fun _ => rfl

/-- What is emitted to the call. -/
def demoJoined : Sent := ⟨.participantJoined, "o1", "call:x"⟩

/-- The second socket listens, the first joins, and the event is passed on. -/
def demoMoves : List (Move (Fin 3) Bool (Act (Fin 2))) :=
  .run 0 true :: (List.replicate 8 (.run 1 true)) ++ [.env (.deliver demoJoined fun _ => true)]

/-- A socket is told of a participant of its own organisation. -/
theorem joined_in_organisation : ∃ q : Calls (Fin 3) (Fin 2),
    q.store.received 1 = [demoJoined]
      ∧ demoJoined.orgId = (demoSession "o1" (by decide) 1).orgId := by
  obtain ⟨q, hrun, hq⟩ := exists_run_of_exec
    (Pool.step (callMachine some (demoSession "o1" (by decide))))
    (Own some (demoSession "o1" (by decide))) demoCalls demoMoves
    (fun q => q.store.received 1 = [demoJoined]) (by decide)
  have hreceived := of_decide_eq_true hq
  refine ⟨q, hreceived, ?_⟩
  have howner := (events_in_organisation started_demoCalls hrun).1 1
  rw [hreceived] at howner
  exact howner demoJoined (List.mem_singleton_self _)

/-- A socket of `"o2"` is told who joins a call of `"o1"`, and then takes the call over. -/
theorem joined_in_other_organisation :
    (∃ q : Calls (Fin 3) (Fin 2),
      Run (Pool.step (callMachine some (demoSession "o2" (by decide)))) anyStep demoCalls q
        ∧ q.store.received 1 = [demoJoined]
        ∧ demoJoined.orgId ≠ (demoSession "o2" (by decide) 1).orgId)
      ∧ ∃ q q' : Calls (Fin 3) (Fin 2),
        Run (Pool.step (callMachine some (demoSession "o2" (by decide)))) anyStep demoCalls q
          ∧ Pool.step (callMachine some (demoSession "o2" (by decide))) q (.run 2 true) = some q'
          ∧ q.store.callState "x" = some ⟨"x", "c", "o1"⟩
          ∧ q'.store.callState "x" = some ⟨"x", "c2", "o2"⟩ := by
  constructor
  · obtain ⟨q, hrun, hq⟩ := exists_run_of_exec
      (Pool.step (callMachine some (demoSession "o2" (by decide)))) anyStep demoCalls demoMoves
      (fun q => q.store.received 1 = [demoJoined]) (by decide)
    exact ⟨q, hrun, of_decide_eq_true hq, by decide⟩
  · obtain ⟨q, q', hrun, -, hstep, hq⟩ := exists_step_of_exec
      (Pool.step (callMachine some (demoSession "o2" (by decide)))) anyStep demoCalls
      (List.flatten [demoMoves, [.run 2 true, .run 2 true]]) (.run 2 true)
      (fun q q' => q.store.callState "x" = some ⟨"x", "c", "o1"⟩
        ∧ q'.store.callState "x" = some ⟨"x", "c2", "o2"⟩) (by decide)
    obtain ⟨hbefore, hafter⟩ := of_decide_eq_true hq
    exact ⟨q, q', hrun, hstep, hbefore, hafter⟩

end WorkPlatform.Realtime

import WorkPlatform.Chat.Thread

/-!
# Chat/Tenant — whose channel it is

    send           member ▸ existing ▸ parent ▸ nextval ▸ INSERT …       org_id from the URL
    listMessages   member ▸ SELECT
    deleteMessage  UPDATE … WHERE id, org_id, sender_id                  the channel plays no part

Being a member of the channel is all that is asked of a request; nobody compares the organisation of
the channel with that of the URL.  A user of two organisations can send to a channel of one in the
context of the other (`message_in_other_tenant`).  Where such requests are not made (`Entitled`) a
message has the organisation of its channel, and a request touches channels of its own organisation
only (`chat_in_tenant`).
-/

namespace WorkPlatform.Chat

open Machinery

/-! ## Channels stay -/

/-- A channel stays found when another is created. -/
theorem find_create {s s' : ChannelStore} {d : Directory} {row : ChannelRow} {users : List String}
    (h : s.create d row users = some s') {id : String} {channel : ChannelRow}
    (hfind : s.channels.find id = some channel) : s'.channels.find id = some channel := by
  unfold ChannelStore.create at h
  split at h
  case isFalse => cases h
  case isTrue =>
    obtain ⟨channels, hinsert, rfl⟩ := Option.map_eq_some_iff.mp h
    dsimp only
    have hfree := (Table.insert_eq_some hinsert).1
    rw [Table.find_insert hinsert]
    split
    case isTrue hid =>
      rw [hid, hfind] at hfree
      cases hfree
    case isFalse => exact hfind

/-- A channel stays found whatever the calls of the channels do. -/
theorem find_channelNext {s s' : ChannelStore} {d : Directory} {uuid : String} {c c' : ChannelCall}
    (h : c.next d s uuid = some (s', c')) {id : String} {channel : ChannelRow}
    (hfind : s.channels.find id = some channel) : s'.channels.find id = some channel := by
  cases channelWrote_next h with
  | same hchannels =>
    rw [hchannels]
    exact hfind
  | made _ hcreate hchannels =>
    rw [hchannels]
    exact find_create hcreate hfind

section Statements

variable {s s' : Store} {uuid : String} {c c' : Call}

/-- A send makes no channel. -/
theorem channels_sendNext {a : SendArgs} {pc pc' : SendPc}
    (h : sendNext s uuid a pc = some (s', pc')) : s'.channels.channels = s.channels.channels := by
  cases pc with
  | member | existing | parent | outbox =>
    obtain ⟨rfl, -⟩ := Prod.mk.inj (Option.some.inj h)
    rfl
  | sequence =>
    rw [sendNext] at h
    split at h
    all_goals obtain ⟨rfl, -⟩ := Prod.mk.inj (Option.some.inj h)
    case h_1 hnext =>
      obtain ⟨n, -, heq⟩ := Option.map_eq_some_iff.mp hnext
      obtain ⟨rfl, -⟩ := Prod.mk.inj heq
      rfl
    case h_2 => rfl
  | insert n =>
    rw [sendNext] at h
    split at h
    all_goals obtain ⟨rfl, -⟩ := Prod.mk.inj (Option.some.inj h)
    case h_1 hcreate =>
      obtain ⟨messages, -, rfl⟩ := create_eq_some hcreate
      rfl
    case h_2 => rfl
  | returned | threw | failed => cases h

/-- Channels stay as they are. -/
theorem channels_next (h : c.next s uuid = some (s', c')) {id : String} {channel : ChannelRow}
    (hfind : s.channels.channels.find id = some channel) :
    s'.channels.channels.find id = some channel := by
  cases c with
  | send a pc =>
    obtain ⟨pc', hpc, -⟩ := pc_of_next h
    rw [channels_sendNext hpc]
    exact hfind
  | deleteMessage a pc =>
    obtain ⟨pc', hpc, -⟩ := pc_of_next h
    cases pc with
    | update =>
      obtain ⟨rfl, -⟩ := Prod.mk.inj (Option.some.inj hpc)
      exact hfind
    | returned | threw => cases hpc
  | listMessages a pc =>
    obtain ⟨pc', hpc, -⟩ := pc_of_next h
    cases pc with
    | member | list =>
      obtain ⟨rfl, -⟩ := Prod.mk.inj (Option.some.inj hpc)
      exact hfind
    | returned | threw => cases hpc
  | sync client pc =>
    obtain ⟨pc', hpc, -⟩ := pc_of_next h
    rw [(sync_keeps hpc).2.1]
    exact hfind
  | channel c =>
    obtain ⟨channels, c', hc, rfl, -⟩ := part_of_next h
    exact find_channelNext hc hfind

end Statements

/-! ## Whose channel a request touches -/

/-- The channel is the organisation's, and not deleted. -/
def Store.OwnChannel (s : Store) (orgId channelId : String) : Prop :=
  ∃ channel ∈ s.channels.channels.find channelId, channel.orgId = orgId ∧ channel.deletedAt = none

/-- The messages that the UPDATE of `deleteMessage` finds. -/
def Store.deletes (s : Store) (a : DeleteArgs) : List MessageRow :=
  s.messages.rows.filter fun r => r.id = a.messageId ∧ r.orgId = a.orgId ∧ r.senderId = a.userId
    ∧ r.deletedAt = none

/-- The organisation in whose context the request is made. -/
def Call.orgId : Call → Option String
  | .send a _ => some a.orgId
  | .deleteMessage a _ => some a.orgId
  | .listMessages a _ => some a.orgId
  | _ => none

/-- The channel of a request that has been let in, where it still has statements to run. -/
def Call.admitted : Call → Option String
  | .send a .existing | .send a (.parent _) | .send a .sequence | .send a (.insert _)
  | .send a (.outbox _) => some a.channelId
  | .listMessages a .list => some a.channelId
  | _ => none

/-- The channels of which the next statement of a request reads messages, writes one or deletes
one. -/
def Call.touches (s : Store) : Call → List String
  | .deleteMessage a .update => (s.deletes a).map (·.channelId)
  | c => c.admitted.toList

/-- A member asks in the context of the organisation the channel belongs to, and a message is
deleted while its channel is not. -/
def Call.Entitled (s : Store) : Call → Prop
  | .send a .member => s.isMember a.channelId a.senderId → s.OwnChannel a.orgId a.channelId
  | .listMessages a .member => s.isMember a.channelId a.userId → s.OwnChannel a.orgId a.channelId
  | .deleteMessage a .update => ∀ r ∈ s.deletes a,
    ∀ channel ∈ s.channels.channels.find r.channelId, channel.deletedAt = none
  | _ => True

section InTenant

variable {s s' : Store} {uuid : String} {c c' : Call}

theorem ownChannel_next (h : c.next s uuid = some (s', c')) {orgId channelId : String}
    (hown : s.OwnChannel orgId channelId) : s'.OwnChannel orgId channelId := by
  obtain ⟨channel, hfind, howned⟩ := hown
  exact ⟨channel, channels_next h hfind, howned⟩

theorem orgId_next (h : c.next s uuid = some (s', c')) : c'.orgId = c.orgId := by
  cases c with
  | send | deleteMessage | listMessages | sync =>
    obtain ⟨pc', -, rfl⟩ := pc_of_next h
    rfl
  | channel =>
    obtain ⟨channels, c', -, -, rfl⟩ := part_of_next h
    rfl

/-- A request is let in where the membership is found. -/
theorem admitted_next (h : c.next s uuid = some (s', c')) {channelId : String}
    (hadmitted : c'.admitted = some channelId) (hentitled : c.Entitled s) :
    c.admitted = some channelId ∨ ∃ orgId ∈ c.orgId, s.OwnChannel orgId channelId := by
  cases c with
  | send a pc =>
    obtain ⟨pc', hpc, rfl⟩ := pc_of_next h
    cases pc with
    | member =>
      obtain ⟨-, rfl⟩ := Prod.mk.inj (Option.some.inj hpc)
      split at hadmitted
      case isTrue hmember =>
        obtain rfl := Option.some.inj hadmitted
        exact Or.inr ⟨a.orgId, rfl, hentitled hmember⟩
      case isFalse => cases hadmitted
    | existing | parent | sequence | insert | outbox =>
      refine Or.inl ?_
      cases pc' with
      | member | returned | threw | failed => cases hadmitted
      | existing | parent | sequence | insert | outbox => exact hadmitted
    | returned | threw | failed => cases hpc
  | listMessages a pc =>
    obtain ⟨pc', hpc, rfl⟩ := pc_of_next h
    cases pc with
    | member =>
      obtain ⟨-, rfl⟩ := Prod.mk.inj (Option.some.inj hpc)
      split at hadmitted
      case isTrue hmember =>
        obtain rfl := Option.some.inj hadmitted
        exact Or.inr ⟨a.orgId, rfl, hentitled hmember⟩
      case isFalse => cases hadmitted
    | list =>
      obtain ⟨-, rfl⟩ := Prod.mk.inj (Option.some.inj hpc)
      cases hadmitted
    | returned | threw => cases hpc
  | deleteMessage | sync =>
    obtain ⟨pc', -, rfl⟩ := pc_of_next h
    cases hadmitted
  | channel =>
    obtain ⟨channels, c', -, -, rfl⟩ := part_of_next h
    cases hadmitted

/-- A request that has been let in is at a channel of its organisation. -/
def Call.AtHome (s : Store) (c : Call) : Prop :=
  ∀ channelId ∈ c.admitted, ∃ orgId ∈ c.orgId, s.OwnChannel orgId channelId

/-- A call that is entitled stays at home. -/
theorem atHome_next (h : c.next s uuid = some (s', c')) (hentitled : c.Entitled s)
    (hc : c.AtHome s) : c'.AtHome s' := by
  intro channelId hadmitted
  rw [orgId_next h]
  have hbefore : ∃ orgId ∈ c.orgId, s.OwnChannel orgId channelId := by
    rcases admitted_next h hadmitted hentitled with hold | hnew
    · exact hc channelId hold
    · exact hnew
  obtain ⟨orgId, horg, hown⟩ := hbefore
  exact ⟨orgId, horg, ownChannel_next h hown⟩

/-- The message has the organisation of its channel. -/
def MessageRow.InTenant (s : Store) (r : MessageRow) : Prop :=
  ∃ channel ∈ s.channels.channels.find r.channelId, channel.orgId = r.orgId

theorem MessageRow.InTenant.became {r r' : MessageRow} (h : r.InTenant s) (hr : r.Became r') :
    r'.InTenant s := by
  unfold MessageRow.Became at hr
  rw [hr]
  exact h

/-- A statement leaves every message in the organisation of its channel. -/
theorem inTenant_next (h : c.next s uuid = some (s', c'))
    (hs : ∀ r ∈ s.messages.rows, r.InTenant s) (hc : c.AtHome s) :
    ∀ r ∈ s'.messages.rows, r.InTenant s' := by
  have hlater : ∀ r : MessageRow, r.InTenant s → r.InTenant s' := by
    rintro r ⟨channel, hfind, horg⟩
    exact ⟨channel, channels_next h hfind, horg⟩
  intro r' hr'
  refine hlater r' ?_
  cases rowsWrote (wrote_next h) with
  | kept hf hrows =>
    rw [hrows] at hr'
    obtain ⟨r, hr, rfl⟩ := List.mem_map.mp hr'
    exact (hs r hr).became (hf r)
  | @added a n _ hrows =>
    rw [hrows] at hr'
    rcases List.mem_cons.mp hr' with rfl | hold
    · obtain ⟨orgId, horg, channel, hfind, howned, -⟩ := hc a.channelId rfl
      obtain rfl := Option.some.inj horg
      exact ⟨channel, hfind, howned⟩
    · exact hs r' hold

/-- What a request touches is its organisation's. -/
theorem touches_own (hs : ∀ r ∈ s.messages.rows, r.InTenant s) (hc : c.AtHome s)
    (hentitled : c.Entitled s) {channelId : String} (htouches : channelId ∈ c.touches s) :
    ∃ orgId ∈ c.orgId, s.OwnChannel orgId channelId := by
  unfold Call.touches at htouches
  split at htouches
  case h_1 a =>
    obtain ⟨r, hr, rfl⟩ := List.mem_map.mp htouches
    obtain ⟨hrow, hselected⟩ := List.mem_filter.mp hr
    obtain ⟨-, horg, -⟩ := of_decide_eq_true hselected
    obtain ⟨channel, hfind, howned⟩ := hs r hrow
    exact ⟨a.orgId, rfl, channel, hfind, howned.trans horg, hentitled r hr channel hfind⟩
  case h_2 => exact hc channelId (Option.mem_toList.mp htouches)

theorem atHome_of_fresh (h : c.fresh = true) : c.AtHome s := by
  match c, h with
  | .send _ .member, _ | .deleteMessage _ _, _ | .listMessages _ .member, _ | .sync _ _, _
  | .channel _, _ => exact nofun

end InTenant

/-! ## Runs -/

section Runs

variable {ι : Type*} {p q : Calls ι}

/-- Requests are made in the context of the channel's organisation; everything else is free. -/
def Entitled (p : Calls ι) : Move ι String Env → Prop
  | .run i _ => (p.calls i).Keeps (·.Entitled p.store)
  | _ => True

/-- Messages and requests are where they belong. -/
structure InTenant (p : Calls ι) : Prop where
  messages : ∀ r ∈ p.store.messages.rows, r.InTenant p.store
  calls : ∀ i, (p.calls i).Keeps (·.AtHome p.store)

theorem inTenant_env (h : InTenant p) (e : Env) : InTenant ⟨env p.store e, p.calls⟩ := by
  cases e <;> exact ⟨h.messages, h.calls⟩

/-- **Requests stay in their organisation** where they are entitled to: every message has the
organisation of its channel, and a statement that is run in the context of an organisation touches
channels of that organisation only, none of them deleted. -/
theorem chat_in_tenant [DecidableEq ι] (hfresh : ∀ i, (p.calls i).Live fun c => c.fresh)
    (hs : ∀ r ∈ p.store.messages.rows, r.InTenant p.store)
    (hrun : Run (Pool.step chatMachine) Entitled p q) :
    (∀ r ∈ q.store.messages.rows,
      ∃ channel ∈ q.store.channels.channels.find r.channelId, channel.orgId = r.orgId)
    ∧ ∀ i uuid, Entitled q (.run i uuid) → (q.calls i).Keeps fun c =>
      ∀ channelId ∈ c.touches q.store, ∃ orgId ∈ c.orgId,
        ∃ channel ∈ q.store.channels.channels.find channelId,
          channel.orgId = orgId ∧ channel.deletedAt = none := by
  have hstart : InTenant p := by
    refine ⟨hs, fun i => ?_⟩
    obtain ⟨c, hc, hstart⟩ := (hfresh i).exists
    rw [hc]
    exact atHome_of_fresh hstart
  have hend : InTenant q := by
    refine Pool.invariant hstart ?_ ?_ ?_ hrun
    · intro p i uuid c s' c' h hG hc hnext
      rw [Entitled, hc] at hG
      have hhome := (h.calls i).of_up hc
      refine ⟨inTenant_next hnext h.messages hhome,
        keeps_update_up (atHome_next hnext hG hhome) fun j _ => (h.calls j).imp ?_⟩
      intro k hk channelId hadmitted
      obtain ⟨orgId, horg, hown⟩ := hk channelId hadmitted
      exact ⟨orgId, horg, ownChannel_next hnext hown⟩
    · intro p i c h _ _
      exact ⟨h.messages, keeps_update_down h.calls⟩
    · intro p e h _
      exact inTenant_env h e
  refine ⟨hend.messages, fun i uuid hG => ?_⟩
  cases hc : q.calls i with
  | up c =>
    rw [Entitled, hc] at hG
    exact fun channelId => touches_own hend.messages ((hend.calls i).of_up hc) hG
  | down c => exact trivial

end Runs

/-! ## A user of two organisations -/

instance (s : Store) (orgId channelId : String) : Decidable (s.OwnChannel orgId channelId) :=
  inferInstanceAs (Decidable (∃ channel ∈ s.channels.channels.find channelId,
    channel.orgId = orgId ∧ channel.deletedAt = none))

instance (s : Store) : DecidablePred (Call.Entitled s)
  | .send a .member =>
    inferInstanceAs
      (Decidable (s.isMember a.channelId a.senderId → s.OwnChannel a.orgId a.channelId))
  | .listMessages a .member =>
    inferInstanceAs (Decidable (s.isMember a.channelId a.userId → s.OwnChannel a.orgId a.channelId))
  | .deleteMessage a .update => inferInstanceAs (Decidable (∀ r ∈ s.deletes a,
      ∀ channel ∈ s.channels.channels.find r.channelId, channel.deletedAt = none))
  | .send _ .existing | .send _ (.parent _) | .send _ .sequence | .send _ (.insert _)
  | .send _ (.outbox _) | .send _ (.returned _) | .send _ (.threw _) | .send _ .failed
  | .listMessages _ .list | .listMessages _ (.returned _) | .listMessages _ (.threw _)
  | .deleteMessage _ .returned | .deleteMessage _ (.threw _) | .sync _ _ | .channel _ =>
    inferInstanceAs (Decidable True)

instance {ι : Type*} (p : Calls ι) : ∀ m : Move ι String Env, Decidable (Entitled p m)
  | .run i _ => inferInstanceAs (Decidable ((p.calls i).Keeps (·.Entitled p.store)))
  | .crash _ | .env _ => inferInstanceAs (Decidable True)

/-- The user sends to the channel in the context of an organisation, lists it and deletes the
message. -/
def demoTenant (orgId : String) : Calls (Fin 3) :=
  ⟨demoChat, fun i => .up (if i = 0 then .send ⟨orgId, "c", "u", "hello", "x", none⟩ .member
    else if i = 1 then .listMessages ⟨orgId, "c", "u", 50, none⟩ .member
    else .deleteMessage ⟨orgId, "m", "c", "u"⟩ .update)⟩

/-- A message that is sent and deleted, and its channel, in one organisation. -/
theorem message_in_own_tenant : ∃ q : Calls (Fin 3),
    Run (Pool.step chatMachine) Entitled (demoTenant "o") q
      ∧ (∃ r ∈ q.store.messages.rows, r.deletedAt ≠ none)
      ∧ (∀ r ∈ q.store.messages.rows,
        ∃ channel ∈ q.store.channels.channels.find r.channelId, channel.orgId = r.orgId)
      ∧ ∀ i uuid, Entitled q (.run i uuid) → (q.calls i).Keeps fun c =>
        ∀ channelId ∈ c.touches q.store, ∃ orgId ∈ c.orgId,
          ∃ channel ∈ q.store.channels.channels.find channelId,
            channel.orgId = orgId ∧ channel.deletedAt = none := by
  obtain ⟨q, hrun, hq⟩ := exists_run_of_exec (Pool.step chatMachine) Entitled (demoTenant "o")
    (List.flatten [List.replicate 5 (.run 0 "m"), List.replicate 2 (.run 1 ""), [.run 2 ""]])
    (fun q => ∃ r ∈ q.store.messages.rows, r.deletedAt ≠ none) (by decide)
  have hnone : ∀ r ∈ (demoTenant "o").store.messages.rows, r.InTenant (demoTenant "o").store :=
    fun r hr => absurd hr List.not_mem_nil
  exact ⟨q, hrun, of_decide_eq_true hq, chat_in_tenant (by decide) hnone hrun⟩

/-- The channel is of `o`; the message has the organisation in whose context it was sent, which
lists the channel too. -/
theorem message_in_other_tenant : ∃ q : Calls (Fin 3),
    Run (Pool.step chatMachine) anyStep (demoTenant "other") q
      ∧ (∃ r ∈ q.store.messages.rows, ∃ channel ∈ q.store.channels.channels.find r.channelId,
        channel.orgId ≠ r.orgId)
      ∧ ∃ messages, (q.calls 1).at' = .listMessages ⟨"other", "c", "u", 50, none⟩
          (.returned messages) ∧ messages ≠ [] := by
  obtain ⟨q, hrun, hq⟩ := exists_run_of_exec (Pool.step chatMachine) anyStep (demoTenant "other")
    (List.flatten [List.replicate 5 (.run 0 "m"), [.env .replicate], List.replicate 2 (.run 1 "")])
    (fun q => (∃ r ∈ q.store.messages.rows,
      ∃ channel ∈ q.store.channels.channels.find r.channelId, channel.orgId ≠ r.orgId)
      ∧ ∃ messages ∈ [q.store.listByChannel "c" 50 none], (q.calls 1).at'
        = .listMessages ⟨"other", "c", "u", 50, none⟩ (.returned messages) ∧ messages ≠ [])
    (by decide)
  obtain ⟨hmessage, messages, -, hlisted⟩ := of_decide_eq_true hq
  exact ⟨q, hrun, hmessage, messages, hlisted⟩

end WorkPlatform.Chat

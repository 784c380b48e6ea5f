import WorkPlatform.Chat.Message

/-!
# Chat/Sequence — the numbers of the messages of a channel

    nextval ▸ INSERT        a send draws its number in one statement and writes it in another

Whatever runs, the numbers of a channel are different and drawn in ascending order: a send that has
drawn a number has it for itself (`Numbers`).  They come to be seen in any order.

`Wrote` says once what a statement of the chat services does to messages, numbers and clients.
-/

namespace WorkPlatform.Chat

open Machinery

/-! ## What a statement writes -/

/-- The number a send has drawn for the channel and not inserted yet. -/
def Call.drawn (channelId : String) : Call → Option ℕ
  | .send a (.insert n) => if a.channelId = channelId then some n else none
  | _ => none

/-- What a sync of the client is about to emit for the channel. -/
def Call.shows (client channelId : String) : Call → List SyncedMessage
  | .sync client' (.emit channelId' messages _) =>
    if client' = client ∧ channelId' = channelId then messages else []
  | _ => []

/-- No sequence is lost or set back. -/
def ChannelStore.Grows (s s' : ChannelStore) : Prop :=
  ∀ channelId n, s.sequences channelId = some n → ∃ m, s'.sequences channelId = some m ∧ n ≤ m

theorem ChannelStore.Grows.refl (s : ChannelStore) : s.Grows s := fun _ n h => ⟨n, h, le_rfl⟩

/-- Creating a channel sets no sequence back. -/
theorem grows_create {s s' : ChannelStore} {d : Directory} {row : ChannelRow} {users : List String}
    (h : s.create d row users = some s') : s.Grows s' := by
  intro channelId n hn
  unfold ChannelStore.create at h
  split at h
  case isFalse => cases h
  case isTrue =>
    obtain ⟨channels, -, rfl⟩ := Option.map_eq_some_iff.mp h
    by_cases hid : channelId = row.id
    · subst hid
      refine ⟨n, ?_, le_rfl⟩
      dsimp only
      rw [Function.update_self, hn, Option.getD_some]
    · refine ⟨n, ?_, le_rfl⟩
      dsimp only
      rw [Function.update_of_ne hid]
      exact hn

/-- No call of the channels sets a sequence back. -/
theorem grows_channelNext {s s' : ChannelStore} {d : Directory} {uuid : String}
    {c c' : ChannelCall} (h : c.next d s uuid = some (s', c')) : s.Grows s' := by
  cases channelWrote_next h with
  | same _ _ hsequences =>
    unfold ChannelStore.Grows
    rw [hsequences]
    exact ChannelStore.Grows.refl s
  | made _ hcreate _ _ hsequences =>
    unfold ChannelStore.Grows
    rw [hsequences]
    exact grows_create hcreate

/-- **What a statement does** to messages, numbers and clients. -/
inductive Wrote (s s' : Store) : Call → Call → Prop
  | same {c c' : Call} (hmessages : s'.messages = s.messages) (hreplica : s'.replica = s.replica)
      (hreceived : s'.received = s.received) (hgrows : s.channels.Grows s'.channels)
      (hdrawn : ∀ channelId, c'.drawn channelId = none)
      (hsync : ∀ client pc, c' ≠ .sync client pc) : Wrote s s' c c'
  | drew {a : SendArgs} {n : ℕ} (hlast : s.channels.sequences a.channelId = some n)
      (h : s' = s.putChannels { s.channels with
        sequences := Function.update s.channels.sequences a.channelId (some (n + 1)) }) :
      Wrote s s' (.send a .sequence) (.send a (.insert (n + 1)))
  | inserted {a : SendArgs} {n : ℕ} {uuid : String} {messages : Table MessageRow.key}
      (hinsert : s.messages.insert (a.row uuid n s.now) = some messages)
      (h : s' = { s with messages := messages }) :
      Wrote s s' (.send a (.insert n)) (.send a (.outbox (a.row uuid n s.now)))
  | deleted {a : DeleteArgs} {pc pc' : DeletePc}
      (h : s' = s.softDelete a.orgId a.messageId a.userId) :
      Wrote s s' (.deleteMessage a pc) (.deleteMessage a pc')
  | synced {client : String} {pc pc' : SyncPc} (h : syncNext s client pc = some (s', pc')) :
      Wrote s s' (.sync client pc) (.sync client pc')

theorem create_eq_some {s s' : Store} {row : MessageRow} (h : s.create row = some s') :
    ∃ messages, s.messages.insert row = some messages ∧ s' = { s with messages := messages } := by
  unfold Store.create at h
  split at h
  · obtain ⟨messages, hinsert, rfl⟩ := Option.map_eq_some_iff.mp h
    exact ⟨messages, hinsert, rfl⟩
  · cases h

/-- What each statement of `send` writes. -/
theorem wrote_sendNext {s s' : Store} {uuid : String} {a : SendArgs} {pc pc' : SendPc}
    (h : sendNext s uuid a pc = some (s', pc')) : Wrote s s' (.send a pc) (.send a pc') := by
  cases pc with
  | member =>
    obtain ⟨rfl, rfl⟩ := Prod.mk.inj (Option.some.inj h)
    refine .same rfl rfl rfl (.refl _) (fun _ => ?_) nofun
    split <;> rfl
  | existing =>
    obtain ⟨rfl, rfl⟩ := Prod.mk.inj (Option.some.inj h)
    refine .same rfl rfl rfl (.refl _) (fun _ => ?_) nofun
    cases s.findByClientMessageId a.channelId a.clientMessageId with
    | some message => rfl
    | none => cases a.parentMessageId <;> rfl
  | parent id =>
    obtain ⟨rfl, rfl⟩ := Prod.mk.inj (Option.some.inj h)
    refine .same rfl rfl rfl (.refl _) (fun _ => ?_) nofun
    unfold SendPc.checked
    split
    · rfl
    · split_ifs <;> rfl
  | sequence =>
    rw [sendNext] at h
    split at h
    all_goals obtain ⟨rfl, rfl⟩ := Prod.mk.inj (Option.some.inj h)
    case h_1 hnext =>
      obtain ⟨n, hlast, heq⟩ := Option.map_eq_some_iff.mp hnext
      obtain ⟨rfl, rfl⟩ := Prod.mk.inj heq
      exact .drew hlast rfl
    case h_2 => exact .same rfl rfl rfl (.refl _) (fun _ => rfl) nofun
  | insert n =>
    rw [sendNext] at h
    split at h
    all_goals obtain ⟨rfl, rfl⟩ := Prod.mk.inj (Option.some.inj h)
    case h_1 hcreate =>
      obtain ⟨messages, hinsert, rfl⟩ := create_eq_some hcreate
      exact .inserted hinsert rfl
    case h_2 => exact .same rfl rfl rfl (.refl _) (fun _ => rfl) nofun
  | outbox message =>
    obtain ⟨rfl, rfl⟩ := Prod.mk.inj (Option.some.inj h)
    exact .same rfl rfl rfl (.refl _) (fun _ => rfl) nofun
  | returned | threw | failed => cases h

/-- What each statement of a call writes. -/
theorem wrote_next {s s' : Store} {uuid : String} {c c' : Call}
    (h : c.next s uuid = some (s', c')) : Wrote s s' c c' := by
  cases c with
  | send a pc =>
    obtain ⟨pc', hpc, rfl⟩ := pc_of_next h
    exact wrote_sendNext hpc
  | deleteMessage a pc =>
    obtain ⟨pc', hpc, rfl⟩ := pc_of_next h
    cases pc with
    | update =>
      obtain ⟨rfl, rfl⟩ := Prod.mk.inj (Option.some.inj hpc)
      exact .deleted rfl
    | returned | threw => cases hpc
  | listMessages a pc =>
    obtain ⟨pc', hpc, rfl⟩ := pc_of_next h
    cases pc with
    | member | list =>
      obtain ⟨rfl, rfl⟩ := Prod.mk.inj (Option.some.inj hpc)
      exact .same rfl rfl rfl (.refl _) (fun _ => rfl) nofun
    | returned | threw => cases hpc
  | sync client pc =>
    obtain ⟨pc', hpc, rfl⟩ := pc_of_next h
    exact .synced hpc
  | channel c =>
    obtain ⟨channels, c', hc, rfl, rfl⟩ := part_of_next h
    exact .same rfl rfl rfl (grows_channelNext hc) (fun _ => rfl) nofun

/-! ## The statements of a sync -/

section SyncNext

variable {s s' : Store} {client client' channelId : String} {pc pc' : SyncPc} {m : SyncedMessage}

theorem mem_missed {lastSeq : ℕ} {r : MessageRow} (h : r ∈ s.missed channelId lastSeq) :
    r ∈ s.replica.messages.rows ∧ r.channelId = channelId := by
  have hmem := (List.mem_insertionSort _).mp (List.mem_of_mem_take h)
  obtain ⟨hrow, hselected⟩ := List.mem_filter.mp hmem
  exact ⟨hrow, (of_decide_eq_true hselected).1⟩

theorem shows_querying (entries : List (String × ℕ)) :
    (Call.sync client' (.querying entries)).shows client channelId = [] := by
  cases entries <;> rfl

theorem shows_of_not_sync {c : Call} (h : ∀ client pc, c ≠ .sync client pc) :
    c.shows client channelId = [] := by
  cases c with
  | sync client pc => exact absurd rfl (h client pc)
  | _ => rfl

theorem sync_keeps (h : syncNext s client' pc = some (s', pc')) :
    s'.messages = s.messages ∧ s'.channels = s.channels ∧ s'.replica = s.replica := by
  cases pc with
  | request | query | emit =>
    obtain ⟨rfl, -⟩ := Prod.mk.inj (Option.some.inj h)
    exact ⟨rfl, rfl, rfl⟩
  | ended => cases h

/-- A sync shows what the replica has. -/
theorem shows_sync (h : syncNext s client' pc = some (s', pc'))
    (hm : m ∈ (Call.sync client' pc').shows client channelId) :
    ∃ r ∈ s.replica.messages.rows, r.synced = m ∧ r.channelId = channelId := by
  cases pc with
  | request channelIds =>
    obtain ⟨-, rfl⟩ := Prod.mk.inj (Option.some.inj h)
    rw [shows_querying] at hm
    cases hm
  | query queried lastSeq rest =>
    obtain ⟨-, rfl⟩ := Prod.mk.inj (Option.some.inj h)
    split at hm
    · rw [shows_querying] at hm
      cases hm
    · rw [Call.shows] at hm
      split at hm
      case isTrue heq =>
        obtain ⟨r, hr, rfl⟩ := List.mem_map.mp hm
        exact ⟨r, (mem_missed hr).1, rfl, (mem_missed hr).2.trans heq.2⟩
      case isFalse => cases hm
  | emit emitted messages rest =>
    obtain ⟨-, rfl⟩ := Prod.mk.inj (Option.some.inj h)
    rw [shows_querying] at hm
    cases hm
  | ended => cases h

/-- A client receives what was shown to it. -/
theorem received_sync (client : String) (h : syncNext s client' pc = some (s', pc')) :
    s'.received client = s.received client
      ∨ ∃ channelId, s'.received client
        = (Call.sync client' pc).shows client channelId ++ s.received client := by
  cases pc with
  | request | query =>
    obtain ⟨rfl, -⟩ := Prod.mk.inj (Option.some.inj h)
    exact Or.inl rfl
  | emit emitted messages rest =>
    obtain ⟨rfl, -⟩ := Prod.mk.inj (Option.some.inj h)
    by_cases hclient : client' = client
    · subst hclient
      refine Or.inr ⟨emitted, ?_⟩
      rw [Call.shows, if_pos ⟨rfl, rfl⟩]
      exact Function.update_self _ _ _
    · exact Or.inl (Function.update_of_ne (Ne.symm hclient) _ _)
  | ended => cases h

end SyncNext

/-! ## The numbers of a channel -/

/-- The number was drawn from the sequence of the channel. -/
def Store.Drawn (s : Store) (channelId : String) (n : ℕ) : Prop :=
  ∃ last, s.channels.sequences channelId = some last ∧ n ≤ last

/-- A channel has no number twice. -/
def DistinctNumbers (rows : List MessageRow) : Prop :=
  ∀ x ∈ rows, ∀ y ∈ rows, x.channelId = y.channelId → x.sequenceNumber = y.sequenceNumber → x = y

/-- All numbers of messages were drawn, and no two messages of a channel share one. -/
structure Store.Numbered (s : Store) (client : String) : Prop where
  drawn : ∀ r ∈ s.messages.rows, s.Drawn r.channelId r.sequenceNumber
  distinct : DistinctNumbers s.messages.rows
  replica_drawn : ∀ r ∈ s.replica.messages.rows, s.Drawn r.channelId r.sequenceNumber
  replica_distinct : DistinctNumbers s.replica.messages.rows
  received : ∀ m ∈ s.received client, s.Drawn m.channelId m.sequenceNumber

section Numbers

variable {ι : Type*} {client : String} {p q : Calls ι}

/-- **The numbers, whatever runs**: a send that has drawn one has it for itself. -/
structure Numbers (client : String) (p : Calls ι) : Prop where
  store : p.store.Numbered client
  own : ∀ i channelId n, (p.calls i).Live (·.drawn channelId = some n) →
    p.store.Drawn channelId n
      ∧ ∀ r ∈ p.store.messages.rows, r.channelId = channelId → r.sequenceNumber ≠ n
  apart : ∀ i j channelId n, i ≠ j → (p.calls i).Live (·.drawn channelId = some n) →
    ¬ (p.calls j).Live (·.drawn channelId = some n)
  shown : ∀ i channelId m, (p.calls i).Live (fun c => m ∈ c.shows client channelId) →
    m.channelId = channelId ∧ p.store.Drawn channelId m.sequenceNumber

theorem Store.Drawn.mono {s s' : Store} {channelId : String} {n : ℕ}
    (hgrows : s.channels.Grows s'.channels) (h : s.Drawn channelId n) : s'.Drawn channelId n := by
  obtain ⟨last, hlast, hle⟩ := h
  obtain ⟨last', hlast', hle'⟩ := hgrows channelId last hlast
  exact ⟨last', hlast', hle.trans hle'⟩

/-- Nor does drawing a number. -/
theorem grows_drew {s : Store} {channelId : String} {n : ℕ}
    (hlast : s.channels.sequences channelId = some n) :
    s.channels.Grows { s.channels with
      sequences := Function.update s.channels.sequences channelId (some (n + 1)) } := by
  intro other k hk
  by_cases hother : other = channelId
  · subst hother
    obtain rfl := Option.some.inj (hlast.symm.trans hk)
    exact ⟨n + 1, Function.update_self _ _ _, Nat.le_succ n⟩
  · exact ⟨k, (Function.update_of_ne hother _ _).trans hk, le_rfl⟩

theorem softDelete_number (orgId messageId senderId : String) (now : ℕ) (r : MessageRow) :
    (r.softDelete orgId messageId senderId now).channelId = r.channelId
      ∧ (r.softDelete orgId messageId senderId now).sequenceNumber = r.sequenceNumber := by
  unfold MessageRow.softDelete
  split <;> exact ⟨rfl, rfl⟩

variable [DecidableEq ι] {s' : Store} {i : ι} {c c' : Call}

/-- A statement that draws no number and gives none to a message. -/
theorem Numbers.carry (h : Numbers client p) (hgrows : p.store.channels.Grows s'.channels)
    (hrows : ∀ r' ∈ s'.messages.rows, ∃ r ∈ p.store.messages.rows,
      r.channelId = r'.channelId ∧ r.sequenceNumber = r'.sequenceNumber)
    (hdistinct : DistinctNumbers s'.messages.rows) (hreplica : s'.replica = p.store.replica)
    (hreceived : ∀ m ∈ s'.received client, p.store.Drawn m.channelId m.sequenceNumber)
    (hdrawn : ∀ channelId, c'.drawn channelId = none)
    (hshows : ∀ channelId, ∀ m ∈ c'.shows client channelId,
      m.channelId = channelId ∧ p.store.Drawn channelId m.sequenceNumber) :
    Numbers client ⟨s', Function.update p.calls i (.up c')⟩ := by
  have hother : ∀ j channelId n,
      (Function.update p.calls i (.up c') j).Live (·.drawn channelId = some n) →
      (p.calls j).Live (·.drawn channelId = some n) := by
    intro j channelId n hj
    rcases live_update_up hj with ⟨-, hown⟩ | ⟨-, hold⟩
    · cases (hdrawn channelId).symm.trans hown
    · exact hold
  refine ⟨⟨fun r' hr' => ?_, hdistinct, ?_, ?_, fun m hm => (hreceived m hm).mono hgrows⟩,
    fun j channelId n hj => ?_, fun j k channelId n hne hj hk => ?_, fun j channelId m hj => ?_⟩
  · obtain ⟨r, hr, hchannel, hnumber⟩ := hrows r' hr'
    rw [← hchannel, ← hnumber]
    exact (h.store.drawn r hr).mono hgrows
  · intro r hr
    rw [hreplica] at hr
    exact (h.store.replica_drawn r hr).mono hgrows
  · rw [hreplica]
    exact h.store.replica_distinct
  · obtain ⟨hdrew, hfree⟩ := h.own j channelId n (hother j channelId n hj)
    refine ⟨hdrew.mono hgrows, fun r' hr' hin heq => ?_⟩
    obtain ⟨r, hr, hchannel, hnumber⟩ := hrows r' hr'
    exact hfree r hr (hchannel.trans hin) (hnumber.trans heq)
  · exact h.apart j k channelId n hne (hother j channelId n hj) (hother k channelId n hk)
  · rcases live_update_up hj with ⟨-, hown⟩ | ⟨-, hold⟩
    · obtain ⟨hchannel, hdrew⟩ := hshows channelId m hown
      exact ⟨hchannel, hdrew.mono hgrows⟩
    · obtain ⟨hchannel, hdrew⟩ := h.shown j channelId m hold
      exact ⟨hchannel, hdrew.mono hgrows⟩

/-- `nextval` draws a number nobody has. -/
theorem numbers_drew {a : SendArgs} {n : ℕ} (h : Numbers client p)
    (hlast : p.store.channels.sequences a.channelId = some n)
    (hs' : s' = p.store.putChannels { p.store.channels with
      sequences := Function.update p.store.channels.sequences a.channelId (some (n + 1)) }) :
    Numbers client ⟨s', Function.update p.calls i (.up (.send a (.insert (n + 1))))⟩ := by
  subst hs'
  have hgrows := grows_drew hlast
  have hbelow : ∀ k, p.store.Drawn a.channelId k → k ≤ n := by
    rintro k ⟨last, hk, hle⟩
    obtain rfl := Option.some.inj (hlast.symm.trans hk)
    exact hle
  have hnew : ∀ {channelId k},
      (Call.send a (.insert (n + 1))).drawn channelId = some k →
      channelId = a.channelId ∧ k = n + 1 := by
    intro channelId k hk
    rw [Call.drawn] at hk
    split at hk
    case isTrue heq => exact ⟨heq.symm, (Option.some.inj hk).symm⟩
    case isFalse => cases hk
  refine ⟨⟨fun r hr => (h.store.drawn r hr).mono hgrows, h.store.distinct,
    fun r hr => (h.store.replica_drawn r hr).mono hgrows, h.store.replica_distinct,
    fun m hm => (h.store.received m hm).mono hgrows⟩, fun j channelId k hj => ?_,
    fun j l channelId k hne hj hl => ?_, fun j channelId m hj => ?_⟩
  · rcases live_update_up hj with ⟨-, hown⟩ | ⟨-, hold⟩
    · obtain ⟨rfl, rfl⟩ := hnew hown
      refine ⟨⟨n + 1, Function.update_self _ _ _, le_rfl⟩, fun r hr hin heq => ?_⟩
      have hle := hbelow r.sequenceNumber (hin ▸ h.store.drawn r hr)
      omega
    · obtain ⟨hdrew, hfree⟩ := h.own j channelId k hold
      exact ⟨hdrew.mono hgrows, hfree⟩
  · have hold_lt : ∀ l, (p.calls l).Live (·.drawn a.channelId = some (n + 1)) → False := by
      intro l hl
      have hle := hbelow _ (h.own l a.channelId (n + 1) hl).1
      omega
    rcases live_update_up hj with ⟨rfl, hown⟩ | ⟨-, hold⟩
    · obtain ⟨rfl, rfl⟩ := hnew hown
      rcases live_update_up hl with ⟨rfl, -⟩ | ⟨-, hold⟩
      · exact hne rfl
      · exact hold_lt l hold
    · rcases live_update_up hl with ⟨-, hown⟩ | ⟨-, hold'⟩
      · obtain ⟨rfl, rfl⟩ := hnew hown
        exact hold_lt j hold
      · exact h.apart j l channelId k hne hold hold'
  · rcases live_update_up hj with ⟨-, hown⟩ | ⟨-, hold⟩
    · cases hown
    · obtain ⟨hchannel, hdrew⟩ := h.shown j channelId m hold
      exact ⟨hchannel, hdrew.mono hgrows⟩

/-- The INSERT uses up the number its call has drawn. -/
theorem numbers_inserted {a : SendArgs} {n : ℕ} {uuid : String} {messages : Table MessageRow.key}
    (h : Numbers client p) (hc : p.calls i = .up (.send a (.insert n)))
    (hinsert : p.store.messages.insert (a.row uuid n p.store.now) = some messages)
    (hs' : s' = { p.store with messages := messages }) :
    Numbers client ⟨s', Function.update p.calls i
      (.up (.send a (.outbox (a.row uuid n p.store.now))))⟩ := by
  subst hs'
  obtain ⟨hdrew, hfree⟩ := h.own i a.channelId n (by rw [hc]; exact if_pos rfl)
  have hmem : ∀ r ∈ messages.rows, r = a.row uuid n p.store.now ∨ r ∈ p.store.messages.rows := by
    intro r hr
    rw [(Table.insert_eq_some hinsert).2] at hr
    exact List.mem_cons.mp hr
  have hother : ∀ j channelId k, (Function.update p.calls i
      (.up (.send a (.outbox (a.row uuid n p.store.now)))) j).Live (·.drawn channelId = some k) →
      j ≠ i ∧ (p.calls j).Live (·.drawn channelId = some k) := by
    intro j channelId k hj
    rcases live_update_up hj with ⟨-, hown⟩ | hold
    · cases hown
    · exact hold
  refine ⟨⟨fun r hr => ?_, fun x hx y hy hchannel hseq => ?_, h.store.replica_drawn,
    h.store.replica_distinct, h.store.received⟩, fun j channelId k hj => ?_,
    fun j l channelId k hne hj hl => ?_, fun j channelId m hj => ?_⟩
  · rcases hmem r hr with rfl | hold
    · exact hdrew
    · exact h.store.drawn r hold
  · rcases hmem x hx with rfl | hxold
    · rcases hmem y hy with rfl | hyold
      · rfl
      · exact absurd hseq.symm (hfree y hyold hchannel.symm)
    · rcases hmem y hy with rfl | hyold
      · exact absurd hseq (hfree x hxold hchannel)
      · exact h.store.distinct x hxold y hyold hchannel hseq
  · obtain ⟨hji, hold⟩ := hother j channelId k hj
    obtain ⟨hdrew', hfree'⟩ := h.own j channelId k hold
    refine ⟨hdrew', fun r hr hin heq => ?_⟩
    rcases hmem r hr with rfl | hrold
    · subst hin heq
      refine h.apart j i a.channelId n hji hold ?_
      rw [hc]
      exact if_pos rfl
    · exact hfree' r hrold hin heq
  · exact h.apart j l channelId k hne (hother j channelId k hj).2 (hother l channelId k hl).2
  · rcases live_update_up hj with ⟨-, hown⟩ | ⟨-, hold⟩
    · cases hown
    · exact h.shown j channelId m hold

/-- A statement keeps the numbers apart. -/
theorem numbers_run (h : Numbers client p) (hc : p.calls i = .up c)
    (hwrote : Wrote p.store s' c c') :
    Numbers client ⟨s', Function.update p.calls i (.up c')⟩ := by
  cases hwrote with
  | same hmessages hreplica hreceived hgrows hdrawn hsync =>
    refine h.carry hgrows ?_ ?_ hreplica ?_ hdrawn ?_
    · rw [hmessages]
      exact fun r hr => ⟨r, hr, rfl, rfl⟩
    · rw [hmessages]
      exact h.store.distinct
    · rw [hreceived]
      exact h.store.received
    · intro channelId m hm
      rw [shows_of_not_sync hsync] at hm
      cases hm
  | drew hlast hs' => exact numbers_drew h hlast hs'
  | inserted hinsert hs' => exact numbers_inserted h hc hinsert hs'
  | @deleted a _ _ hs' =>
    subst hs'
    have hnumber := softDelete_number a.orgId a.messageId a.userId p.store.now
    refine h.carry (.refl _) ?_ ?_ rfl h.store.received (fun _ => rfl) nofun
    · intro r' hr'
      obtain ⟨r, hr, rfl⟩ := List.mem_map.mp hr'
      exact ⟨r, hr, (hnumber r).1.symm, (hnumber r).2.symm⟩
    · intro x' hx' y' hy' hchannel hseq
      obtain ⟨x, hx, rfl⟩ := List.mem_map.mp hx'
      obtain ⟨y, hy, rfl⟩ := List.mem_map.mp hy'
      rw [(hnumber x).1, (hnumber y).1] at hchannel
      rw [(hnumber x).2, (hnumber y).2] at hseq
      rw [h.store.distinct x hx y hy hchannel hseq]
  | @synced client' pc pc' hpc =>
    obtain ⟨hmessages, hchannels, hreplica⟩ := sync_keeps hpc
    refine h.carry ?_ ?_ ?_ hreplica ?_ (fun _ => rfl) ?_
    · rw [hchannels]
      exact .refl _
    · rw [hmessages]
      exact fun r hr => ⟨r, hr, rfl, rfl⟩
    · rw [hmessages]
      exact h.store.distinct
    · intro m hm
      rcases received_sync client hpc with hsame | ⟨channelId, hshown⟩
      · rw [hsame] at hm
        exact h.store.received m hm
      · rw [hshown] at hm
        rcases List.mem_append.mp hm with hnew | hold
        · obtain ⟨hchannel, hdrew⟩ := h.shown i channelId m (by rw [hc]; exact hnew)
          rw [hchannel]
          exact hdrew
        · exact h.store.received m hold
    · intro channelId m hm
      obtain ⟨r, hr, rfl, rfl⟩ := shows_sync hpc hm
      exact ⟨rfl, h.store.replica_drawn r hr⟩

theorem numbers_crash (h : Numbers client p) :
    Numbers client ⟨p.store, Function.update p.calls i (.down c)⟩ := by
  refine ⟨h.store, fun j channelId n hj => h.own j channelId n (live_update_down hj).2,
    fun j k channelId n hne hj hk => ?_, fun j channelId m hj => ?_⟩
  · exact h.apart j k channelId n hne (live_update_down hj).2 (live_update_down hk).2
  · exact h.shown j channelId m (live_update_down hj).2

omit [DecidableEq ι] in
/-- What the surroundings do keeps the invariant. -/
theorem numbers_env (h : Numbers client p) (e : Env) : Numbers client ⟨env p.store e, p.calls⟩ := by
  have hs := h.store
  cases e with
  | tick ms =>
    exact ⟨⟨hs.drawn, hs.distinct, hs.replica_drawn, hs.replica_distinct, hs.received⟩, h.own,
      h.apart, h.shown⟩
  | replicate =>
    exact ⟨⟨hs.drawn, hs.distinct, hs.drawn, hs.distinct, hs.received⟩, h.own, h.apart, h.shown⟩
  | directory d =>
    exact ⟨⟨hs.drawn, hs.distinct, hs.replica_drawn, hs.replica_distinct, hs.received⟩, h.own,
      h.apart, h.shown⟩

/-- A call that has not begun has drawn nothing and shows nothing. -/
theorem idle_of_fresh (client : String) (hfresh : c.fresh = true) :
    (∀ channelId, c.drawn channelId = none) ∧ ∀ channelId, c.shows client channelId = [] := by
  match c, hfresh with
  | .send _ .member, _ | .deleteMessage _ _, _ | .listMessages _ _, _ | .sync _ (.request _), _
  | .channel _, _ => exact ⟨fun _ => rfl, fun _ => rfl⟩

omit [DecidableEq ι] in
/-- Calls that have not started have drawn no number. -/
theorem numbers_fresh (hfresh : ∀ i, (p.calls i).Live fun c => c.fresh)
    (hs : p.store.Numbered client) : Numbers client p := by
  have hdrawn : ∀ i channelId n, ¬ (p.calls i).Live (·.drawn channelId = some n) := by
    intro i channelId n hi
    obtain ⟨c, hc, hstart⟩ := (hfresh i).exists
    rw [hc] at hi
    cases ((idle_of_fresh client hstart).1 channelId).symm.trans hi
  refine ⟨hs, fun i channelId n hi => absurd hi (hdrawn i channelId n),
    fun i j channelId n _ hi => absurd hi (hdrawn i channelId n), fun i channelId m hi => ?_⟩
  obtain ⟨c, hc, hstart⟩ := (hfresh i).exists
  rw [hc] at hi
  have hm : m ∈ c.shows client channelId := hi
  rw [(idle_of_fresh client hstart).2 channelId] at hm
  cases hm

/-- The invariant holds in every state of a run, whatever its steps are. -/
theorem numbers {G : Calls ι → Move ι String Env → Prop} (h₀ : Numbers client p)
    (h : Run (Pool.step chatMachine) G p q) : Numbers client q := by
  refine Pool.invariant h₀ ?_ ?_ ?_ h
  · intro p i uuid c s' c' hp _ hc hnext
    exact numbers_run hp hc (wrote_next hnext)
  · intro p i c hp _ _
    exact numbers_crash hp
  · intro p e hp _
    exact numbers_env hp e

end Numbers

end WorkPlatform.Chat

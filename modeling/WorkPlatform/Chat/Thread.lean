import WorkPlatform.Chat.Dedup

/-!
# Chat/Thread — replies go one level deep

    send        parent ▸ nextval ▸ INSERT
                  └── the parent is a message of the channel and no reply itself

There is no foreign key on `parent_message_id`.  That a reply answers a top-level message of its own
channel rests on what never changes: messages stay, with their id, channel and parent
(`RowsWrote.stays`), so that what a send has checked is still so when it inserts.
-/

namespace WorkPlatform.Chat

open Machinery

/-- A message of the channel that is no reply. -/
def Store.TopLevel (s : Store) (channelId id : String) : Prop :=
  ∃ r ∈ s.messages.rows, r.id = id ∧ r.channelId = channelId ∧ r.parentMessageId = none

section TopLevel

variable {s s' : Store} {uuid : String} {a : SendArgs} {pc pc' : SendPc} {c c' : Call}

/-- A top-level message stays one. -/
theorem topLevel_next (h : c.next s uuid = some (s', c')) {channelId id : String}
    (htop : s.TopLevel channelId id) : s'.TopLevel channelId id := by
  obtain ⟨r, hr, hid, hchannel, hparent⟩ := htop
  obtain ⟨r', hr', hbecame⟩ := (rowsWrote (wrote_next h)).stays hr
  unfold MessageRow.Became at hbecame
  refine ⟨r', hr', ?_, ?_, ?_⟩
  all_goals
    rw [hbecame]
    assumption

theorem topLevel_of_find {id channelId : String} {r : MessageRow}
    (h : s.findById id channelId = some r) (hparent : r.parentMessageId = none) :
    s.TopLevel channelId id := by
  have hselected := List.find?_some h
  obtain ⟨hid, hchannel⟩ := of_decide_eq_true hselected
  exact ⟨r, List.mem_of_find?_eq_some h, hid, hchannel, hparent⟩

/-- What a send has found out about its parent where it has got to. -/
def SendPc.Checked (s : Store) (a : SendArgs) : SendPc → Prop
  | .parent id => a.parentMessageId = some id
  | .sequence | .insert _ => ∀ id, a.parentMessageId = some id → s.TopLevel a.channelId id
  | _ => True

/-- The parent that is taken is a top-level message of the channel. -/
theorem checked_parent {id : String} (hid : a.parentMessageId = some id) :
    (SendPc.checked (s.findById id a.channelId)).Checked s a := by
  unfold SendPc.checked
  split
  case h_1 => exact trivial
  case h_2 r hfound =>
    split_ifs with hdeleted hreply
    · exact trivial
    · exact trivial
    · intro id' hid'
      obtain rfl := Option.some.inj (hid.symm.trans hid')
      exact topLevel_of_find hfound (Option.not_isSome_iff_eq_none.mp hreply)

/-- What a send has checked of the parent message it still knows after its statement. -/
theorem checked_sendNext (h : sendNext s uuid a pc = some (s', pc')) (hpc : pc.Checked s a)
    (hstays : ∀ id, s.TopLevel a.channelId id → s'.TopLevel a.channelId id) :
    pc'.Checked s' a := by
  cases pc with
  | member =>
    obtain ⟨-, rfl⟩ := Prod.mk.inj (Option.some.inj h)
    split <;> exact trivial
  | existing =>
    obtain ⟨-, rfl⟩ := Prod.mk.inj (Option.some.inj h)
    cases s.findByClientMessageId a.channelId a.clientMessageId with
    | some message => exact trivial
    | none =>
      cases hparent : a.parentMessageId with
      | none => exact fun id hid => nomatch hparent.symm.trans hid
      | some id => exact hparent
  | parent id =>
    obtain ⟨rfl, rfl⟩ := Prod.mk.inj (Option.some.inj h)
    exact checked_parent hpc
  | sequence =>
    rw [sendNext] at h
    split at h
    all_goals obtain ⟨rfl, rfl⟩ := Prod.mk.inj (Option.some.inj h)
    case h_1 => exact fun id hid => hstays id (hpc id hid)
    case h_2 => exact trivial
  | insert n =>
    rw [sendNext] at h
    split at h
    all_goals
      obtain ⟨-, rfl⟩ := Prod.mk.inj (Option.some.inj h)
      exact trivial
  | outbox =>
    obtain ⟨-, rfl⟩ := Prod.mk.inj (Option.some.inj h)
    exact trivial
  | returned | threw | failed => cases h

/-- What a call has found out. -/
def Call.Checked (s : Store) : Call → Prop
  | .send a pc => pc.Checked s a
  | _ => True

/-- What a call has checked stays checked. -/
theorem checked_next (h : c.next s uuid = some (s', c')) (hc : c.Checked s) : c'.Checked s' := by
  cases c with
  | send a pc =>
    have hstays : ∀ id, s.TopLevel a.channelId id → s'.TopLevel a.channelId id :=
      fun id => topLevel_next h
    obtain ⟨pc', hpc, rfl⟩ := pc_of_next h
    exact checked_sendNext hpc hc hstays
  | deleteMessage | listMessages | sync =>
    obtain ⟨pc', -, rfl⟩ := pc_of_next h
    exact trivial
  | channel c =>
    obtain ⟨channels, c', -, -, rfl⟩ := part_of_next h
    exact trivial

/-- Another call's statement. -/
theorem Call.Checked.mono {k : Call} (hk : k.Checked s)
    (hstays : ∀ channelId id, s.TopLevel channelId id → s'.TopLevel channelId id) :
    k.Checked s' := by
  match k, hk with
  | .send a (.parent _), hk => exact hk
  | .send a .sequence, hk | .send a (.insert _), hk =>
    exact fun id hid => hstays a.channelId id (hk id hid)
  | .send _ .member, _ | .send _ .existing, _ | .send _ (.outbox _), _ | .send _ (.returned _), _
  | .send _ (.threw _), _ | .send _ .failed, _ | .deleteMessage _ _, _ | .listMessages _ _, _
  | .sync _ _, _ | .channel _, _ => exact trivial

end TopLevel

/-- Every reply answers a top-level message of its channel. -/
def Store.Threaded (s : Store) : Prop :=
  ∀ r ∈ s.messages.rows, ∀ id, r.parentMessageId = some id → s.TopLevel r.channelId id

/-- One statement keeps every reply beside its parent. -/
theorem threaded_next {s s' : Store} {uuid : String} {c c' : Call}
    (h : c.next s uuid = some (s', c')) (hs : s.Threaded) (hc : c.Checked s) : s'.Threaded := by
  intro r' hr' id hid
  refine topLevel_next h ?_
  cases rowsWrote (wrote_next h) with
  | @kept _ _ f hf hrows =>
    rw [hrows] at hr'
    obtain ⟨r, hr, rfl⟩ := List.mem_map.mp hr'
    have hbecame := hf r
    unfold MessageRow.Became at hbecame
    rw [hbecame] at hid ⊢
    exact hs r hr id hid
  | added hrows =>
    rw [hrows] at hr'
    rcases List.mem_cons.mp hr' with rfl | hold
    · exact hc id hid
    · exact hs r' hold id hid

/-! ## Runs -/

section Threads

variable {ι : Type*} [DecidableEq ι] {p q : Calls ι}

theorem checked_of_fresh {s : Store} {c : Call} (h : c.fresh = true) : c.Checked s := by
  match c, h with
  | .send _ .member, _ | .deleteMessage _ _, _ | .listMessages _ _, _ | .sync _ _, _
  | .channel _, _ => exact trivial

/-- **Replies go one level deep and stay in their channel**, whatever runs: every message with a
parent has a parent of the same channel that has none. -/
theorem threads_one_deep (hfresh : ∀ i, (p.calls i).Live fun c => c.fresh)
    (hs : p.store.Threaded) (hrun : Run (Pool.step chatMachine) anyStep p q) :
    ∀ r ∈ q.store.messages.rows, ∀ id, r.parentMessageId = some id →
      ∃ x ∈ q.store.messages.rows, x.id = id ∧ x.channelId = r.channelId
        ∧ x.parentMessageId = none := by
  have hstart : p.store.Threaded ∧ ∀ i, (p.calls i).Keeps (·.Checked p.store) := by
    refine ⟨hs, fun i => ?_⟩
    obtain ⟨c, hc, hstart⟩ := (hfresh i).exists
    rw [hc]
    exact checked_of_fresh hstart
  have hend : q.store.Threaded ∧ ∀ i, (q.calls i).Keeps (·.Checked q.store) := by
    refine Pool.invariant (I := fun q : Calls ι => q.store.Threaded
      ∧ ∀ i, (q.calls i).Keeps (·.Checked q.store)) hstart ?_ ?_ ?_ hrun
    · intro p i uuid c s' c' ⟨hthreaded, hchecked⟩ _ hc hnext
      have hknown := (hchecked i).of_up hc
      refine ⟨threaded_next hnext hthreaded hknown, keeps_update_up (checked_next hnext hknown) ?_⟩
      intro j _
      exact (hchecked j).imp fun k hk => hk.mono fun channelId id => topLevel_next hnext
    · intro p i c ⟨hthreaded, hchecked⟩ _ _
      exact ⟨hthreaded, keeps_update_down hchecked⟩
    · intro p e ⟨hthreaded, hchecked⟩ _
      cases e <;> exact ⟨hthreaded, hchecked⟩
  exact hend.1

end Threads

/-- A message and a reply to it. -/
def demoReply : Calls (Fin 2) :=
  ⟨demoChat, fun i => .up (if i = 0 then demoSend "u" "x"
    else .send ⟨"o", "c", "v", "hi", "y", some "m1"⟩ .member)⟩

/-- A reply, and the message of the same channel that it answers. -/
theorem reply_answers_message : ∃ q : Calls (Fin 2),
    Run (Pool.step chatMachine) anyStep demoReply q
      ∧ (∃ r ∈ q.store.messages.rows, r.parentMessageId = some "m1")
      ∧ ∀ r ∈ q.store.messages.rows, ∀ id, r.parentMessageId = some id →
        ∃ x ∈ q.store.messages.rows, x.id = id ∧ x.channelId = r.channelId
          ∧ x.parentMessageId = none := by
  obtain ⟨q, hrun, hq⟩ := exists_run_of_exec (Pool.step chatMachine) anyStep demoReply
    (List.flatten [List.replicate 5 (.run 0 "m1"), List.replicate 6 (.run 1 "m2")])
    (fun q => ∃ r ∈ q.store.messages.rows, r.parentMessageId = some "m1") (by decide)
  have hnone : demoReply.store.Threaded := fun r hr => absurd hr List.not_mem_nil
  exact ⟨q, hrun, of_decide_eq_true hq, threads_one_deep (by decide) hnone hrun⟩

end WorkPlatform.Chat

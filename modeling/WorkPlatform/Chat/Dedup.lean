import WorkPlatform.Chat.Sync

/-!
# Chat/Dedup — one message for each client_message_id

    send        existing ─────────────────▸ nextval ▸ INSERT
    its retry              existing ─────────────────────────▸ nextval ▸ INSERT

Nothing but the look-up keeps a second message out: the only unique key of `chat_messages` is
`(id, created_at)`.  A send that has found nothing **claims** its pair of channel and
client_message_id until it inserts.  As long as no send finds nothing while another one claims its
pair (`Apart`), a pair has one message and every send of the pair returns it (`send_once`).

A message keeps every column but `deleted_at` (`MessageRow.Became`), which is what `RowsWrote` says
of all statements.
-/

namespace WorkPlatform.Chat

open Machinery

/-! ## What becomes of the rows -/

/-- The same message later: it may have been deleted. -/
def MessageRow.Became (r r' : MessageRow) : Prop := r' = { r with deletedAt := r'.deletedAt }

theorem MessageRow.Became.refl (r : MessageRow) : r.Became r := rfl

theorem MessageRow.Became.trans {r r' r'' : MessageRow} (h : r.Became r') (h' : r'.Became r'') :
    r.Became r'' := by
  unfold MessageRow.Became at h h' ⊢
  rw [h', h]

theorem softDelete_became (orgId messageId senderId : String) (now : ℕ) (r : MessageRow) :
    r.Became (r.softDelete orgId messageId senderId now) := by
  unfold MessageRow.softDelete
  split <;> rfl

/-- **What a statement does to the rows**: it adds one, or deletes some. -/
inductive RowsWrote (s s' : Store) : Call → Call → Prop
  | kept {c c' : Call} {f : MessageRow → MessageRow} (hf : ∀ r : MessageRow, r.Became (f r))
      (hrows : s'.messages.rows = s.messages.rows.map f) : RowsWrote s s' c c'
  | added {a : SendArgs} {n : ℕ} {uuid : String}
      (hrows : s'.messages.rows = a.row uuid n s.now :: s.messages.rows) :
      RowsWrote s s' (.send a (.insert n)) (.send a (.outbox (a.row uuid n s.now)))

section RowsWrote

variable {s s' : Store} {c c' : Call}

theorem rowsWrote_of_same (h : s'.messages = s.messages) : RowsWrote s s' c c' := by
  refine .kept (f := id) MessageRow.Became.refl ?_
  rw [h, List.map_id]

/-- Every statement does one of the two. -/
theorem rowsWrote (h : Wrote s s' c c') : RowsWrote s s' c c' := by
  cases h with
  | same hmessages => exact rowsWrote_of_same hmessages
  | drew _ hs' =>
    subst hs'
    exact rowsWrote_of_same rfl
  | inserted hinsert hs' =>
    subst hs'
    exact .added (Table.insert_eq_some hinsert).2
  | @deleted a _ _ hs' =>
    subst hs'
    exact .kept (softDelete_became a.orgId a.messageId a.userId s.now) rfl
  | synced hpc => exact rowsWrote_of_same (sync_keeps hpc).1

/-- Messages stay. -/
theorem RowsWrote.stays (h : RowsWrote s s' c c') {r : MessageRow} (hr : r ∈ s.messages.rows) :
    ∃ r' ∈ s'.messages.rows, r.Became r' := by
  cases h with
  | @kept _ _ f hf hrows =>
    refine ⟨f r, ?_, hf r⟩
    rw [hrows]
    exact List.mem_map_of_mem hr
  | added hrows =>
    refine ⟨r, ?_, .refl r⟩
    rw [hrows]
    exact List.mem_cons_of_mem _ hr

end RowsWrote

/-! ## Pairs -/

/-- What `findByClientMessageId` looks for. -/
def MessageRow.pair (r : MessageRow) : String × String := (r.channelId, r.clientMessageId)

def SendArgs.pair (a : SendArgs) : String × String := (a.channelId, a.clientMessageId)

theorem MessageRow.Became.pair {r r' : MessageRow} (h : r.Became r') : r'.pair = r.pair := by
  unfold MessageRow.Became at h
  rw [h]
  rfl

section FindByClientMessageId

variable {s : Store} {a : SendArgs} {r : MessageRow}

theorem find_pair (h : s.findByClientMessageId a.channelId a.clientMessageId = some r) :
    r ∈ s.messages.rows ∧ r.pair = a.pair := by
  have hselected := List.find?_some h
  obtain ⟨hchannel, hclient⟩ := of_decide_eq_true hselected
  exact ⟨List.mem_of_find?_eq_some h, Prod.ext hchannel hclient⟩

theorem find_pair_none (h : s.findByClientMessageId a.channelId a.clientMessageId = none)
    (hr : r ∈ s.messages.rows) : r.pair ≠ a.pair := by
  intro hpair
  obtain ⟨hchannel, hclient⟩ := Prod.mk.inj hpair
  exact List.find?_eq_none.mp h r hr (decide_eq_true ⟨hchannel, hclient⟩)

end FindByClientMessageId

/-- The pair of a send that has found nothing and has not inserted yet. -/
def Call.claims : Call → Option (String × String)
  | .send a (.parent _) | .send a .sequence | .send a (.insert _) => some a.pair
  | _ => none

/-- The message a send has found or inserted. -/
def Call.answer : Call → Option (SendArgs × MessageRow)
  | .send a (.outbox message) | .send a (.returned message) => some (a, message)
  | _ => none

/-- The pair of a send whose look-up finds nothing. -/
def Call.opens (s : Store) : Call → Option (String × String)
  | .send a .existing =>
    if s.findByClientMessageId a.channelId a.clientMessageId = none then some a.pair else none
  | _ => none

section Statements

variable {s s' : Store} {uuid : String} {a : SendArgs} {pc pc' : SendPc} {c c' : Call}
  {pair : String × String} {message : MessageRow}

theorem args_of_answer {a' : SendArgs} (h : (Call.send a' pc).answer = some (a, message)) :
    a' = a := by
  cases pc with
  | outbox | returned => exact (Prod.mk.inj (Option.some.inj h)).1
  | _ => cases h

/-- A send claims its pair from the look-up on. -/
theorem claims_sendNext (h : sendNext s uuid a pc = some (s', pc'))
    (hclaims : (Call.send a pc').claims = some pair) :
    (Call.send a pc).claims = some pair ∨ (Call.send a pc).opens s = some pair := by
  cases pc with
  | member =>
    obtain ⟨-, rfl⟩ := Prod.mk.inj (Option.some.inj h)
    split at hclaims <;> cases hclaims
  | existing =>
    obtain ⟨-, rfl⟩ := Prod.mk.inj (Option.some.inj h)
    cases hfound : s.findByClientMessageId a.channelId a.clientMessageId with
    | some message =>
      rw [hfound] at hclaims
      cases hclaims
    | none =>
      rw [hfound] at hclaims
      refine Or.inr ?_
      rw [Call.opens, if_pos hfound]
      cases hparent : a.parentMessageId with
      | none =>
        rw [hparent] at hclaims
        exact hclaims
      | some id =>
        rw [hparent] at hclaims
        exact hclaims
  | parent id =>
    obtain ⟨-, rfl⟩ := Prod.mk.inj (Option.some.inj h)
    refine Or.inl ?_
    unfold SendPc.checked at hclaims
    split at hclaims
    · cases hclaims
    · split_ifs at hclaims <;> first | exact hclaims | cases hclaims
  | sequence =>
    rw [sendNext] at h
    split at h
    all_goals obtain ⟨-, rfl⟩ := Prod.mk.inj (Option.some.inj h)
    case h_1 => exact Or.inl hclaims
    case h_2 => cases hclaims
  | insert n =>
    rw [sendNext] at h
    split at h
    all_goals
      obtain ⟨-, rfl⟩ := Prod.mk.inj (Option.some.inj h)
      cases hclaims
  | outbox =>
    obtain ⟨-, rfl⟩ := Prod.mk.inj (Option.some.inj h)
    cases hclaims
  | returned | threw | failed => cases h

/-- A pair that is claimed was claimed before, or is opened now. -/
theorem claims_next (h : c.next s uuid = some (s', c')) (hclaims : c'.claims = some pair) :
    c.claims = some pair ∨ c.opens s = some pair := by
  cases c with
  | send a pc =>
    obtain ⟨pc', hpc, rfl⟩ := pc_of_next h
    exact claims_sendNext hpc hclaims
  | deleteMessage | listMessages | sync =>
    obtain ⟨pc', -, rfl⟩ := pc_of_next h
    cases hclaims
  | channel c =>
    obtain ⟨channels, c', -, -, rfl⟩ := part_of_next h
    cases hclaims

/-- A send answers with a message of its pair. -/
theorem answer_sendNext (h : sendNext s uuid a pc = some (s', pc'))
    (hanswer : (Call.send a pc').answer = some (a, message)) :
    (Call.send a pc).answer = some (a, message)
      ∨ message ∈ s'.messages.rows ∧ message.pair = a.pair := by
  cases pc with
  | member =>
    obtain ⟨-, rfl⟩ := Prod.mk.inj (Option.some.inj h)
    split at hanswer <;> cases hanswer
  | existing =>
    obtain ⟨rfl, rfl⟩ := Prod.mk.inj (Option.some.inj h)
    cases hfound : s.findByClientMessageId a.channelId a.clientMessageId with
    | some found =>
      rw [hfound] at hanswer
      obtain ⟨-, rfl⟩ := Prod.mk.inj (Option.some.inj hanswer)
      exact Or.inr (find_pair hfound)
    | none =>
      rw [hfound] at hanswer
      cases hparent : a.parentMessageId <;> rw [hparent] at hanswer <;> cases hanswer
  | parent id =>
    obtain ⟨-, rfl⟩ := Prod.mk.inj (Option.some.inj h)
    unfold SendPc.checked at hanswer
    split at hanswer
    · cases hanswer
    · split_ifs at hanswer <;> cases hanswer
  | sequence =>
    rw [sendNext] at h
    split at h
    all_goals
      obtain ⟨-, rfl⟩ := Prod.mk.inj (Option.some.inj h)
      cases hanswer
  | insert n =>
    rw [sendNext] at h
    split at h
    all_goals obtain ⟨rfl, rfl⟩ := Prod.mk.inj (Option.some.inj h)
    case h_1 hcreate =>
      obtain ⟨messages, hinsert, rfl⟩ := create_eq_some hcreate
      obtain ⟨-, rfl⟩ := Prod.mk.inj (Option.some.inj hanswer)
      refine Or.inr ⟨?_, rfl⟩
      rw [(Table.insert_eq_some hinsert).2]
      exact List.mem_cons_self
    case h_2 => cases hanswer
  | outbox =>
    obtain ⟨-, rfl⟩ := Prod.mk.inj (Option.some.inj h)
    exact Or.inl hanswer
  | returned | threw | failed => cases h

/-- The same, of every call. -/
theorem answer_next (h : c.next s uuid = some (s', c')) (hanswer : c'.answer = some (a, message)) :
    c.answer = some (a, message) ∨ message ∈ s'.messages.rows ∧ message.pair = a.pair := by
  cases c with
  | send a' pc =>
    obtain ⟨pc', hpc, rfl⟩ := pc_of_next h
    obtain rfl := args_of_answer hanswer
    exact answer_sendNext hpc hanswer
  | deleteMessage | listMessages | sync =>
    obtain ⟨pc', -, rfl⟩ := pc_of_next h
    cases hanswer
  | channel c =>
    obtain ⟨channels, c', -, -, rfl⟩ := part_of_next h
    cases hanswer

theorem silent_of_fresh (hfresh : c.fresh = true) : c.claims = none ∧ c.answer = none := by
  match c, hfresh with
  | .send _ .member, _ | .deleteMessage _ _, _ | .listMessages _ _, _ | .sync _ _, _
  | .channel _, _ => exact ⟨rfl, rfl⟩

end Statements

/-! ## Sends that do not overlap -/

section Once

variable {ι : Type*} {p q : Calls ι}

/-- A send finds nothing only while no other running send claims its pair. -/
def Apart (p : Calls ι) : Move ι String Env → Prop
  | .run i _ => (p.calls i).Keeps fun c => ∀ pair ∈ c.opens p.store, ∀ j, j ≠ i →
      ¬ (p.calls j).Live (·.claims = some pair)
  | _ => True

/-- A pair has one message. -/
def DistinctPairs (rows : List MessageRow) : Prop :=
  ∀ x ∈ rows, ∀ y ∈ rows, x.pair = y.pair → x = y

theorem distinctPairs_nil : DistinctPairs [] := fun _ hx => absurd hx List.not_mem_nil

/-- **One message for each pair**, and none while a send claims it. -/
structure Once (p : Calls ι) : Prop where
  unique : DistinctPairs p.store.messages.rows
  free : ∀ i pair, (p.calls i).Live (·.claims = some pair) →
    ∀ r ∈ p.store.messages.rows, r.pair ≠ pair
  apart : ∀ i j pair, i ≠ j → (p.calls i).Live (·.claims = some pair) →
    ¬ (p.calls j).Live (·.claims = some pair)
  answered : ∀ i a message, (p.calls i).at'.answer = some (a, message) →
    ∃ r ∈ p.store.messages.rows, r.pair = a.pair ∧ message.Became r

variable [DecidableEq ι] {s' : Store} {uuid : String} {i : ι} {c c' : Call}

/-- A pair that a send opens is that of no message. -/
theorem opens_free {s : Store} {pair : String × String} (h : c.opens s = some pair) :
    ∀ r ∈ s.messages.rows, r.pair ≠ pair := by
  unfold Call.opens at h
  split at h
  case h_1 a =>
    split at h
    case isTrue hnone =>
      obtain rfl := Option.some.inj h
      exact fun r hr => find_pair_none hnone hr
    case isFalse => cases h
  case h_2 => cases h

/-- Answers stay answers. -/
theorem Once.answered_next (h : Once p) (hc : p.calls i = .up c)
    (hnext : c.next p.store uuid = some (s', c')) (j : ι) (a : SendArgs) (message : MessageRow)
    (hj : (Function.update p.calls i (.up c') j).at'.answer = some (a, message)) :
    ∃ r ∈ s'.messages.rows, r.pair = a.pair ∧ message.Became r := by
  have hstays : (p.calls j).at'.answer = some (a, message) →
      ∃ r ∈ s'.messages.rows, r.pair = a.pair ∧ message.Became r := by
    intro hold
    obtain ⟨r, hr, hpair, hbecame⟩ := h.answered j a message hold
    obtain ⟨r', hr', hlater⟩ := (rowsWrote (wrote_next hnext)).stays hr
    exact ⟨r', hr', hlater.pair.trans hpair, hbecame.trans hlater⟩
  rcases update_cases (fun x : Proc Call => x.at'.answer = some (a, message)) hj with
    ⟨rfl, hown⟩ | ⟨-, hold⟩
  · rcases answer_next hnext hown with hbefore | ⟨hmem, hpair⟩
    · rw [hc] at hstays
      exact hstays hbefore
    · exact ⟨message, hmem, hpair, .refl message⟩
  · exact hstays hold

/-- A pair is claimed by one send. -/
theorem Once.apart_next (h : Once p) (hc : p.calls i = .up c)
    (hapart : ∀ pair ∈ c.opens p.store, ∀ j, j ≠ i → ¬ (p.calls j).Live (·.claims = some pair))
    (hnext : c.next p.store uuid = some (s', c')) (j k : ι) (pair : String × String) (hne : j ≠ k)
    (hj : (Function.update p.calls i (.up c') j).Live (·.claims = some pair)) :
    ¬ (Function.update p.calls i (.up c') k).Live (·.claims = some pair) := by
  have hself : c'.claims = some pair → ∀ l, l ≠ i → ¬ (p.calls l).Live (·.claims = some pair) := by
    intro hclaims l hl
    rcases claims_next hnext hclaims with hbefore | hopens
    · refine h.apart i l pair hl.symm ?_
      rw [hc]
      exact hbefore
    · exact hapart pair hopens l hl
  intro hk
  rcases live_update_up hj with ⟨rfl, hown⟩ | ⟨hji, hold⟩
  · rcases live_update_up hk with ⟨rfl, -⟩ | ⟨hki, hold'⟩
    · exact hne rfl
    · exact hself hown k hki hold'
  · rcases live_update_up hk with ⟨-, hown⟩ | ⟨-, hold'⟩
    · exact hself hown j hji hold
    · exact h.apart j k pair hne hold hold'

/-- A statement keeps one message for each pair, where no two sends claim one. -/
theorem once_run (h : Once p) (hc : p.calls i = .up c)
    (hapart : ∀ pair ∈ c.opens p.store, ∀ j, j ≠ i → ¬ (p.calls j).Live (·.claims = some pair))
    (hnext : c.next p.store uuid = some (s', c')) :
    Once ⟨s', Function.update p.calls i (.up c')⟩ := by
  have hfree : ∀ j pair, (Function.update p.calls i (.up c') j).Live (·.claims = some pair) →
      ∀ r ∈ p.store.messages.rows, r.pair ≠ pair := by
    intro j pair hj
    rcases live_update_up hj with ⟨-, hown⟩ | ⟨-, hold⟩
    · rcases claims_next hnext hown with hbefore | hopens
      · exact h.free i pair (hc ▸ hbefore)
      · exact opens_free hopens
    · exact h.free j pair hold
  refine ⟨?_, fun j pair hj r' hr' => ?_, h.apart_next hc hapart hnext, h.answered_next hc hnext⟩
  · cases rowsWrote (wrote_next hnext) with
    | kept hf hrows =>
      rw [hrows]
      intro x' hx' y' hy' hpair
      obtain ⟨x, hx, rfl⟩ := List.mem_map.mp hx'
      obtain ⟨y, hy, rfl⟩ := List.mem_map.mp hy'
      rw [(hf x).pair, (hf y).pair] at hpair
      rw [h.unique x hx y hy hpair]
    | @added a n uuid hrows =>
      have hnew : ∀ r ∈ p.store.messages.rows, r.pair ≠ a.pair := h.free i a.pair (hc ▸ rfl)
      rw [hrows]
      intro x hx y hy hpair
      rcases List.mem_cons.mp hx with rfl | hxold <;> rcases List.mem_cons.mp hy with rfl | hyold
      · rfl
      · exact absurd hpair.symm (hnew y hyold)
      · exact absurd hpair (hnew x hxold)
      · exact h.unique x hxold y hyold hpair
  · cases rowsWrote (wrote_next hnext) with
    | kept hf hrows =>
      rw [hrows] at hr'
      obtain ⟨r, hr, rfl⟩ := List.mem_map.mp hr'
      rw [(hf r).pair]
      exact hfree j pair hj r hr
    | @added a n uuid hrows =>
      rw [hrows] at hr'
      rcases List.mem_cons.mp hr' with rfl | hold
      · rintro rfl
        rcases live_update_up hj with ⟨-, hown⟩ | ⟨hji, hother⟩
        · cases hown
        · refine h.apart i j a.pair hji.symm ?_ hother
          rw [hc]
          exact rfl
      · exact hfree j pair hj r' hold

theorem once_crash (h : Once p) (hc : p.calls i = .up c) :
    Once ⟨p.store, Function.update p.calls i (.down c)⟩ := by
  refine ⟨h.unique, fun j pair hj => h.free j pair (live_update_down hj).2,
    fun j k pair hne hj hk => ?_, fun j a message hj => ?_⟩
  · exact h.apart j k pair hne (live_update_down hj).2 (live_update_down hk).2
  · rw [at'_update_down hc] at hj
    exact h.answered j a message hj

omit [DecidableEq ι] in
theorem once_env (h : Once p) (e : Env) : Once ⟨env p.store e, p.calls⟩ := by
  cases e <;> exact ⟨h.unique, h.free, h.apart, h.answered⟩

omit [DecidableEq ι] in
/-- Calls that have not started claim no pair. -/
theorem once_fresh (hfresh : ∀ i, (p.calls i).Live fun c => c.fresh)
    (hs : DistinctPairs p.store.messages.rows) : Once p := by
  have hsilent : ∀ i, ∃ c, p.calls i = .up c ∧ c.claims = none ∧ c.answer = none := by
    intro i
    obtain ⟨c, hc, hstart⟩ := (hfresh i).exists
    exact ⟨c, hc, silent_of_fresh hstart⟩
  have hclaims : ∀ i pair, ¬ (p.calls i).Live (·.claims = some pair) := by
    intro i pair hi
    obtain ⟨c, hc, hnone, -⟩ := hsilent i
    rw [hc] at hi
    cases hnone.symm.trans hi
  refine ⟨hs, fun i pair hi => absurd hi (hclaims i pair),
    fun i j pair _ hi => absurd hi (hclaims i pair), fun i a message hi => ?_⟩
  obtain ⟨c, hc, -, hnone⟩ := hsilent i
  rw [hc] at hi
  cases hnone.symm.trans hi

/-- **One message for each client_message_id** where sends of a pair do not overlap: a pair never
has a second message, and every send of it that returns has returned that one. -/
theorem send_once (hfresh : ∀ i, (p.calls i).Live fun c => c.fresh)
    (hs : DistinctPairs p.store.messages.rows) (hrun : Run (Pool.step chatMachine) Apart p q) :
    (∀ x ∈ q.store.messages.rows, ∀ y ∈ q.store.messages.rows, x.channelId = y.channelId →
      x.clientMessageId = y.clientMessageId → x = y)
    ∧ ∀ i a message, (q.calls i).at' = .send a (.returned message) →
      ∃ r ∈ q.store.messages.rows, r.channelId = a.channelId
        ∧ r.clientMessageId = a.clientMessageId ∧ message.Became r := by
  have honce : Once q := by
    refine Pool.invariant (once_fresh hfresh hs) ?_ ?_ ?_ hrun
    · intro p i uuid c s' c' h hG hc hnext
      rw [Apart, hc] at hG
      exact once_run h hc hG hnext
    · intro p i c h _ hc
      exact once_crash h hc
    · intro p e h _
      exact once_env h e
  refine ⟨fun x hx y hy hchannel hclient => ?_, fun i a message hi => ?_⟩
  · exact honce.unique x hx y hy (Prod.ext hchannel hclient)
  · obtain ⟨r, hr, hpair, hbecame⟩ := honce.answered i a message (congrArg Call.answer hi)
    obtain ⟨hchannel, hclient⟩ := Prod.mk.inj hpair
    exact ⟨r, hr, hchannel, hclient, hbecame⟩

end Once

/-! ## A send and its retry -/

instance {ι : Type*} [Fintype ι] [DecidableEq ι] (p : Calls ι) :
    ∀ m : Move ι String Env, Decidable (Apart p m)
  | .run i _ => inferInstanceAs (Decidable ((p.calls i).Keeps fun c =>
      ∀ pair ∈ c.opens p.store, ∀ j, j ≠ i → ¬ (p.calls j).Live (·.claims = some pair)))
  | .crash _ | .env _ => inferInstanceAs (Decidable True)

/-- A send, and a retry of it. -/
def demoRetry : Calls (Fin 2) := ⟨demoChat, fun _ => .up (demoSend "u" "x")⟩

/-- The retry starts once the message is inserted. -/
theorem retry_returns_first : ∃ q : Calls (Fin 2),
    Run (Pool.step chatMachine) Apart demoRetry q ∧ (q.calls 0).at' = (q.calls 1).at'
      ∧ (q.calls 1).at'.answer.isSome
      ∧ (∀ x ∈ q.store.messages.rows, ∀ y ∈ q.store.messages.rows, x.channelId = y.channelId →
        x.clientMessageId = y.clientMessageId → x = y)
      ∧ ∀ i a message, (q.calls i).at' = .send a (.returned message) →
        ∃ r ∈ q.store.messages.rows, r.channelId = a.channelId
          ∧ r.clientMessageId = a.clientMessageId ∧ message.Became r := by
  obtain ⟨q, hrun, hq⟩ := exists_run_of_exec (Pool.step chatMachine) Apart demoRetry
    (List.flatten [List.replicate 4 (.run 0 "m1"), List.replicate 2 (.run 1 "m2"), [.run 0 "m3"]])
    (fun q => (q.calls 0).at' = (q.calls 1).at' ∧ (q.calls 1).at'.answer.isSome) (by decide)
  obtain ⟨hsame, hanswer⟩ := of_decide_eq_true hq
  exact ⟨q, hrun, hsame, hanswer, send_once (by decide) distinctPairs_nil hrun⟩

/-- The retry starts before: both are inserted, and each request returns its own. -/
theorem retry_inserts_second : ∃ (q : Calls (Fin 2)) (x y : MessageRow),
    Run (Pool.step chatMachine) anyStep demoRetry q ∧ x ∈ q.store.messages.rows
      ∧ y ∈ q.store.messages.rows ∧ x.channelId = y.channelId
      ∧ x.clientMessageId = y.clientMessageId ∧ x.id ≠ y.id
      ∧ (q.calls 0).at'.answer.map (·.2) = some x ∧ (q.calls 1).at'.answer.map (·.2) = some y := by
  obtain ⟨q, hrun, hq⟩ := exists_run_of_exec (Pool.step chatMachine) anyStep demoRetry
    (List.flatten [List.replicate 2 (.run 0 "m1"), List.replicate 5 (.run 1 "m2"),
      List.replicate 3 (.run 0 "m1")])
    (fun q => ∃ x ∈ q.store.messages.rows, ∃ y ∈ q.store.messages.rows, x.channelId = y.channelId
      ∧ x.clientMessageId = y.clientMessageId ∧ x.id ≠ y.id
      ∧ (q.calls 0).at'.answer.map (·.2) = some x ∧ (q.calls 1).at'.answer.map (·.2) = some y)
    (by decide)
  obtain ⟨x, hx, y, hy, hpair⟩ := of_decide_eq_true hq
  exact ⟨q, x, y, hrun, hx, hy, hpair⟩

end WorkPlatform.Chat

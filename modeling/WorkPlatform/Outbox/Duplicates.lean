import Mathlib.Data.Finset.Card
import WorkPlatform.Machinery.Noninterference
import WorkPlatform.Outbox.Delivery

/-!
# Outbox/Duplicates — no event is sent more often than something has failed

    open transaction, event unsent ──PUBLISH──▸ open, event sent ──COMMIT──▸ row published
             │ abort                                  │ anything that fails
             ▾                                        ▾
    sends it once more, in vain                  the row is pending again

A statement that is not answered, a crash, and a transaction that the server ends are failures.
Each leaves at most one sending to be repeated: of the cycle that is cut short, or of the one that
comes after it.  So an event is sent once, and once more for every failure at most
(`repeats_le_failures`); where nothing fails, exactly once.

A cycle whose transaction has ended does not notice before its UPDATE, and goes on sending.
-/

namespace WorkPlatform.Outbox

open Machinery

/-! ## Where a cycle stands with an event -/

/-- How often the event was sent. -/
def Store.sends (s : Store) (id : String) : ℕ := s.channel.countP (·.id = id)

/-- No row of the event is pending. -/
def Store.RowSettled (s : Store) (id : String) : Prop :=
  ∀ r ∈ s.rows.rows, r.id = id → r.status ≠ .pending

namespace Call

def batch : Call → List OutboxRow
  | .pollCycle pc => pc.batch
  | .cleanup _ => []

def unsent : Call → List OutboxRow
  | .pollCycle pc => pc.unsent
  | .cleanup _ => []

/-- The cycle has still to send the event. -/
def Owes (id : String) (c : Call) : Prop := id ∈ c.unsent.map (·.id)

/-- The cycle has sent the event. -/
def Sent (id : String) (c : Call) : Prop := id ∈ c.batch.map (·.id) ∧ ¬ c.Owes id

/-- The cycle is about to send the event. -/
def Sending (id : String) : Call → Prop
  | .pollCycle (.publish _ _ event _) => event.id = id
  | _ => False

/-- The transaction of the cycle is open. -/
def Open (s : Store) (c : Call) : Prop := ∃ n ∈ s.openTxs, c.txId = some n

/-- The batch has every event once, and what is unsent is the rest of it. -/
def Ordered (c : Call) : Prop := (c.batch.map (·.id)).Nodup ∧ c.unsent <:+ c.batch

end Call

/-- A statement without an answer, a crash, or a transaction that the server ends. -/
def fails {ι : Type*} : Move ι Draw Env → Bool
  | .run _ d => d.reply ≠ .ok
  | .crash _ => true
  | .env (.abort _) => true
  | .env _ => false

section Statements

variable {batchSize : ℕ} {s s' : Store} {d : Draw} {c c' : Call} {id : String}

theorem Call.Sending.owes (h : c.Sending id) : c.Owes id := by
  match c, h with
  | .pollCycle (.publish tx events event rest), h => exact List.mem_cons.mpr (Or.inl h.symm)

theorem not_owes_of_unsent_nil (h : c.unsent = []) : ¬ c.Owes id := by
  unfold Call.Owes
  rw [h]
  exact List.not_mem_nil

theorem not_sent_of_batch_nil (h : c.batch = []) : ¬ c.Sent id := by
  rintro ⟨hmem, -⟩
  rw [h] at hmem
  exact List.not_mem_nil hmem

theorem ordered_of_batch_nil (h : c.batch = []) (hu : c.unsent = []) : c.Ordered := by
  refine ⟨?_, ?_⟩
  · rw [h]
    exact List.nodup_nil
  · rw [hu]
    exact List.nil_suffix

@[simp] theorem batch_publishing (tx : Tx) (events rest : List OutboxRow) :
    (PollPc.publishing tx events rest).batch = events := by
  cases rest <;> rfl

@[simp] theorem unsent_publishing (tx : Tx) (events rest : List OutboxRow) :
    (PollPc.publishing tx events rest).unsent = rest := by
  cases rest <;> rfl

@[simp] theorem batch_selected (tx : Tx) (events : List OutboxRow) :
    (PollPc.selected tx events).batch = events := by
  cases events <;> rfl

@[simp] theorem unsent_selected (tx : Tx) (events : List OutboxRow) :
    (PollPc.selected tx events).unsent = events := by
  cases events <;> rfl

/-- A batch has every event once. -/
theorem select_ids_nodup (s : Store) (batchSize : ℕ) (tx : Tx) :
    ((s.select batchSize tx).map (·.id)).Nodup := by
  have hrows : ((s.rows.rows.filter (s.eligible tx)).map (·.id)).Nodup :=
    (List.filter_sublist.map _).nodup s.rows.keys_nodup
  have hsorted := ((List.perm_insertionSort (fun a b : OutboxRow => a.createdAt ≤ b.createdAt)
    (s.rows.rows.filter (s.eligible tx))).map (·.id)).nodup_iff.mpr hrows
  exact ((List.take_sublist _ _).map _).nodup hsorted

/-- A cycle publishes its batch in order. -/
theorem ordered_next (hc : c.Ordered) (h : c.next batchSize s d = some (s', c')) : c'.Ordered := by
  cases c with
  | cleanup pc =>
    obtain ⟨pc', -, rfl⟩ := pc_of_next h
    exact ordered_of_batch_nil rfl rfl
  | pollCycle pc =>
    obtain ⟨pc', hpc, rfl⟩ := pc_of_next h
    have hidle : ∀ {pc' : PollPc}, pc'.txId = none → (Call.pollCycle pc').Ordered := by
      intro pc' htx
      cases pc' with
      | publish | update | commit => cases htx
      | _ => exact ordered_of_batch_nil rfl rfl
    have hrollback : ∀ tx, (Call.pollCycle (.rollback tx)).Ordered := fun tx =>
      ordered_of_batch_nil rfl rfl
    cases polled_next hpc with
    | idle htx | acquired htx | ended htx => exact hidle htx
    | began => exact ordered_of_batch_nil rfl rfl
    | @selected tx =>
      refine ⟨?_, ?_⟩
      · rw [Call.batch, batch_selected]
        exact select_ids_nodup s batchSize tx
      · rw [Call.unsent, Call.batch, unsent_selected, batch_selected]
    | @sent tx events rest event =>
      refine ⟨?_, ?_⟩
      · rw [Call.batch, batch_publishing]
        exact hc.1
      · rw [Call.unsent, Call.batch, unsent_publishing, batch_publishing]
        exact (List.suffix_cons event rest).trans hc.2
    | updated => exact ⟨hc.1, List.nil_suffix⟩
    | committed _ hend =>
      rcases hend with htx | rfl
      · exact hidle htx
      · exact hrollback _
    | gaveUp _ _ => exact hrollback _

/-- Only the PUBLISH of the event sends it. -/
theorem sends_next (h : c.next batchSize s d = some (s', c')) :
    s'.sends id ≤ s.sends id + 1 ∧ (¬ c.Sending id → s'.sends id = s.sends id) := by
  have hsame : s'.channel = s.channel →
      s'.sends id ≤ s.sends id + 1 ∧ (¬ c.Sending id → s'.sends id = s.sends id) := by
    intro hchannel
    unfold Store.sends
    rw [hchannel]
    exact ⟨Nat.le_succ _, fun _ => rfl⟩
  cases c with
  | cleanup pc =>
    obtain ⟨pc', hpc, rfl⟩ := pc_of_next h
    cases pc with
    | returned => cases hpc
    | _ =>
      obtain ⟨rfl, -⟩ := Prod.mk.inj (Option.some.inj hpc)
      refine hsame ?_
      split <;> rfl
  | pollCycle pc =>
    obtain ⟨pc', hpc, rfl⟩ := pc_of_next h
    cases pc with
    | publish tx events event rest =>
      obtain ⟨hs', -⟩ := Prod.mk.inj (Option.some.inj hpc)
      by_cases hdone : d.reply.done = true
      · rw [if_pos hdone] at hs'
        rw [← hs', Store.sends, Store.publish, List.countP_cons]
        refine ⟨?_, fun hnot => ?_⟩
        · rw [Store.sends]
          split <;> omega
        · have hne : event.id ≠ id := hnot
          rw [if_neg (by simpa using hne)]
          rfl
      · rw [if_neg hdone] at hs'
        exact hsame (congrArg Store.channel hs').symm
    | returned _ | threw => cases hpc
    | lock =>
      obtain ⟨rfl, -⟩ := Prod.mk.inj (Option.some.inj hpc)
      refine hsame ?_
      split <;> rfl
    | begin | select _ | commit _ _ =>
      rw [pollNext] at hpc
      split at hpc
      all_goals
        obtain ⟨rfl, -⟩ := Prod.mk.inj (Option.some.inj hpc)
        exact hsame rfl
    | rollback tx =>
      obtain ⟨rfl, -⟩ := Prod.mk.inj (Option.some.inj hpc)
      refine hsame ?_
      split <;> rfl
    | connect | update _ _ =>
      obtain ⟨rfl, -⟩ := Prod.mk.inj (Option.some.inj hpc)
      exact hsame rfl

/-- What is settled stays so: rows are marked or deleted. -/
theorem rowSettled_next (h : c.next batchSize s d = some (s', c')) (hs : s.RowSettled id) :
    s'.RowSettled id := by
  have hsame : s'.rows = s.rows → s'.RowSettled id := by
    intro hrows r hr
    rw [hrows] at hr
    exact hs r hr
  cases c with
  | cleanup pc =>
    obtain ⟨pc', hpc, rfl⟩ := pc_of_next h
    cases pc with
    | returned => cases hpc
    | _ =>
      obtain ⟨rfl, -⟩ := Prod.mk.inj (Option.some.inj hpc)
      split
      · exact fun r hr => hs r (List.mem_of_mem_filter hr)
      · exact hs
  | pollCycle pc =>
    obtain ⟨pc', hpc, rfl⟩ := pc_of_next h
    cases polled_next hpc with
    | committed _ _ =>
      intro r' hr' hid
      obtain ⟨r, hr, rfl⟩ := List.mem_map.mp hr'
      rw [OutboxRow.mark_id] at hid
      unfold OutboxRow.mark
      split
      · exact nofun
      · exact hs r hr hid
    | gaveUp _ hs' =>
      rcases hs' with rfl | rfl | ⟨event, rfl⟩ <;> exact hs
    | _ => exact hs

/-- The transactions of others are as open as before. -/
theorem openTxs_next (h : c.next batchSize s d = some (s', c')) {n : ℕ} (hmine : c.txId ≠ some n)
    (hbegun : n < s.nextTx) : n ∈ s'.openTxs ↔ n ∈ s.openTxs := by
  have hend : ∀ {m : ℕ}, c.txId = some m → (n ∈ (s.endTx m).openTxs ↔ n ∈ s.openTxs) := by
    intro m hm
    rw [mem_openTxs_endTx]
    refine and_iff_left ?_
    rintro rfl
    exact hmine hm
  cases c with
  | cleanup pc =>
    obtain ⟨pc', hpc, rfl⟩ := pc_of_next h
    cases pc with
    | returned => cases hpc
    | _ =>
      obtain ⟨rfl, -⟩ := Prod.mk.inj (Option.some.inj hpc)
      split <;> exact Iff.rfl
  | pollCycle pc =>
    obtain ⟨pc', hpc, rfl⟩ := pc_of_next h
    cases polled_next hpc with
    | began =>
      refine List.mem_cons.trans (or_iff_right ?_)
      rintro rfl
      exact lt_irrefl _ hbegun
    | committed _ _ => exact hend rfl
    | ended _ => exact hend rfl
    | gaveUp _ hs' =>
      rcases hs' with rfl | rfl | ⟨event, rfl⟩ <;> exact Iff.rfl
    | _ => exact Iff.rfl

/-- **A statement that is answered**, on the event of a cycle whose transaction is open: what was
sent stays sent or is committed, and what is being sent is sent. -/
theorem sent_of_answered {pc pc' : PollPc} (hc : (Call.pollCycle pc).Ordered) (hok : d.reply = .ok)
    (hopen : (Call.pollCycle pc).Open s)
    (hsent : (Call.pollCycle pc).Sent id ∨ (Call.pollCycle pc).Sending id)
    (h : pollNext batchSize s d pc = some (s', pc')) :
    s'.RowSettled id ∨ (Call.pollCycle pc').Sent id ∧ (Call.pollCycle pc').Open s' := by
  have hdone : d.reply.done = true := by
    rw [hok]
    rfl
  obtain ⟨n, hn, htx⟩ := hopen
  cases pc with
  | publish tx events event rest =>
    obtain ⟨rfl, rfl⟩ := Prod.mk.inj (Option.some.inj h)
    rw [if_pos hok, if_pos hdone]
    refine Or.inr ⟨⟨?_, ?_⟩, n, hn, (PollPc.txId_publishing tx events rest).trans htx⟩
    · rw [Call.batch, batch_publishing]
      rcases hsent with hsent | hsending
      · exact hsent.1
      · exact List.map_subset _ hc.2.subset hsending.owes
    · -- the rest of the batch does not have the event again
      rw [Call.Owes, Call.unsent, unsent_publishing]
      rcases hsent with hsent | hsending
      · exact fun hrest => hsent.2 (List.mem_cons_of_mem _ hrest)
      · obtain rfl : event.id = id := hsending
        have hnodup := (hc.2.sublist.map (·.id)).nodup hc.1
        exact (List.nodup_cons.mp hnodup).1
  | update tx events =>
    obtain ⟨rfl, rfl⟩ := Prod.mk.inj (Option.some.inj h)
    obtain rfl := Option.some.inj htx
    rw [if_pos ⟨hn, hok⟩]
    exact Or.inr ⟨hsent.resolve_right not_false, tx.id, hn, rfl⟩
  | commit tx events =>
    obtain rfl := Option.some.inj htx
    rw [pollNext, if_pos ⟨hn, hdone⟩] at h
    obtain ⟨rfl, -⟩ := Prod.mk.inj (Option.some.inj h)
    refine Or.inl fun r' hr' hid => ?_
    obtain ⟨r, -, rfl⟩ := List.mem_map.mp hr'
    rw [OutboxRow.mark_id] at hid
    have hmem : r.id ∈ events.map (·.id) := by
      rw [hid]
      exact (hsent.resolve_right not_false).1
    unfold OutboxRow.mark
    rw [if_pos hmem]
    intro hpending
    cases hpending
  | _ =>
    rcases hsent with hsent | hsending
    · exact absurd hsent (not_sent_of_batch_nil rfl)
    · exact hsending.elim

/-- **A cycle that goes on in vain** has lost its transaction before, and has not just sent the
event. -/
theorem doomed_source {pc pc' : PollPc} (hc : (Call.pollCycle pc).Ordered)
    (howes : (Call.pollCycle pc').Owes id) (hclosed : ¬ (Call.pollCycle pc').Open s')
    (h : pollNext batchSize s d pc = some (s', pc')) :
    (Call.pollCycle pc).Owes id ∧ ¬ (Call.pollCycle pc).Open s
      ∧ ¬ (Call.pollCycle pc).Sending id := by
  have hnot : pc'.unsent ≠ [] := fun hnil =>
    not_owes_of_unsent_nil (c := .pollCycle pc') hnil howes
  cases pc with
  | select tx =>
    rw [pollNext] at h
    split at h
    · rename_i hopen
      obtain ⟨rfl, rfl⟩ := Prod.mk.inj (Option.some.inj h)
      split at hclosed
      · exact absurd ⟨tx.id, hopen.1, PollPc.txId_selected tx _⟩ hclosed
      · exact absurd ⟨tx.id, hopen.1, rfl⟩ hclosed
    · obtain ⟨rfl, rfl⟩ := Prod.mk.inj (Option.some.inj h)
      exact absurd rfl hnot
  | publish tx events event rest =>
    obtain ⟨rfl, rfl⟩ := Prod.mk.inj (Option.some.inj h)
    split at howes
    · rename_i hok
      rw [Call.Owes, Call.unsent, unsent_publishing] at howes
      rw [if_pos hok] at hclosed
      refine ⟨List.mem_cons_of_mem _ howes, fun hopen => hclosed ?_, fun hsending => ?_⟩
      · obtain ⟨n, hn, htx⟩ := hopen
        refine ⟨n, ?_, (PollPc.txId_publishing tx events rest).trans htx⟩
        split <;> exact hn
      · obtain rfl : event.id = id := hsending
        have hnodup := (hc.2.sublist.map (·.id)).nodup hc.1
        exact (List.nodup_cons.mp hnodup).1 howes
    · exact absurd howes (not_owes_of_unsent_nil rfl)
  | lock =>
    obtain ⟨rfl, rfl⟩ := Prod.mk.inj (Option.some.inj h)
    refine absurd ?_ hnot
    split_ifs <;> rfl
  | begin | commit _ _ =>
    rw [pollNext] at h
    split at h
    all_goals
      obtain ⟨rfl, rfl⟩ := Prod.mk.inj (Option.some.inj h)
      refine absurd ?_ hnot
      first | rfl | (split <;> rfl)
  | connect | update _ _ =>
    obtain ⟨rfl, rfl⟩ := Prod.mk.inj (Option.some.inj h)
    refine absurd ?_ hnot
    split <;> rfl
  | rollback tx =>
    obtain ⟨rfl, rfl⟩ := Prod.mk.inj (Option.some.inj h)
    exact absurd rfl hnot
  | returned _ | threw => cases h

/-- The same two, for any call. -/
theorem settled_of_answered (hc : c.Ordered) (hok : d.reply = .ok) (hopen : c.Open s)
    (hsent : c.Sent id ∨ c.Sending id) (h : c.next batchSize s d = some (s', c')) :
    s'.RowSettled id ∨ c'.Sent id ∧ c'.Open s' := by
  cases c with
  | pollCycle pc =>
    obtain ⟨pc', hpc, rfl⟩ := pc_of_next h
    exact sent_of_answered hc hok hopen hsent hpc
  | cleanup pc =>
    obtain ⟨n, -, htx⟩ := hopen
    cases htx

/-- A cycle that owes an event without its transaction did so before, and was not sending it. -/
theorem doomed_of_next (hc : c.Ordered) (howes : c'.Owes id) (hclosed : ¬ c'.Open s')
    (h : c.next batchSize s d = some (s', c')) : c.Owes id ∧ ¬ c.Open s ∧ ¬ c.Sending id := by
  cases c with
  | pollCycle pc =>
    obtain ⟨pc', hpc, rfl⟩ := pc_of_next h
    exact doomed_source hc howes hclosed hpc
  | cleanup pc =>
    obtain ⟨pc', -, rfl⟩ := pc_of_next h
    exact absurd howes List.not_mem_nil

end Statements

/-! ## The budget -/

section Budget

variable {ι : Type*} {batchSize : ℕ} {p q : Calls ι} {id : String} {base n : ℕ}

/-- A running cycle has still to send the event, and has lost its transaction. -/
def Doomed (q : Calls ι) (id : String) (i : ι) : Prop :=
  (q.calls i).Live fun c => c.Owes id ∧ ¬ c.Open q.store

/-- No row of the event is pending, or a running cycle has sent it and can still commit. -/
def Settled (q : Calls ι) (id : String) : Prop :=
  q.store.RowSettled id ∨ ∃ i, (q.calls i).Live fun c => c.Sent id ∧ c.Open q.store

/-- **The account of an event**: what was sent and what is still sent in vain, against the failures
and the one sending that settles it. -/
def Budget (base n : ℕ) (id : String) (q : Calls ι) : Prop :=
  ∃ D : Finset ι, (∀ i, Doomed q id i → i ∈ D) ∧ q.store.sends id + D.card ≤ base + n + 1
    ∧ (¬ Settled q id → q.store.sends id + D.card ≤ base + n)

/-- What every move keeps, beside the account. -/
structure Batches (q : Calls ι) : Prop where
  delivers : Delivers q
  ordered : ∀ i, (q.calls i).Keeps Call.Ordered

/-- A failure pays for what it undoes. -/
theorem Budget.fail {q' : Calls ι} (h : Budget base n id q)
    (hdoomed : ∀ i, Doomed q' id i → Doomed q id i) (hsends : q'.store.sends id = q.store.sends id) :
    Budget base (n + 1) id q' := by
  obtain ⟨D, hD, hle, -⟩ := h
  refine ⟨D, fun i hi => hD i (hdoomed i hi), ?_, fun _ => ?_⟩ <;> (rw [hsends]; omega)

/-- What changes nothing to the event. -/
theorem Budget.keep {q' : Calls ι} (h : Budget base n id q)
    (hdoomed : ∀ i, Doomed q' id i → Doomed q id i) (hsends : q'.store.sends id = q.store.sends id)
    (hsettled : Settled q id → Settled q' id) : Budget base n id q' := by
  obtain ⟨D, hD, hle, hless⟩ := h
  refine ⟨D, fun i hi => hD i (hdoomed i hi), ?_, fun hnot => ?_⟩
  · rw [hsends]
    exact hle
  · rw [hsends]
    exact hless fun hs => hnot (hsettled hs)

/-- **The row lock**: while a cycle has the event before it and can still commit, the row is pending
and no other cycle has sent it. -/
theorem not_settled_of_owes (h : Batches q) {i : ι} {c : Call} (hi : q.calls i = .up c)
    (howes : c.Owes id) (hopen : c.Open q.store) : ¬ Settled q id := by
  have hheld : ∀ {j : ι} {c : Call} {m : ℕ}, q.calls j = .up c → m ∈ q.store.openTxs →
      c.txId = some m → id ∈ c.batch.map (·.id) →
      ∃ e, e.id = id ∧ q.store.Held m e := by
    intro j c m hj hm htx hmem
    obtain ⟨e, he, hid⟩ := List.mem_map.mp hmem
    have hbacks := (h.delivers.backs j).of_up hj
    cases c with
    | pollCycle pc => exact ⟨e, hid, hbacks.held m htx hm e he⟩
    | cleanup pc => cases htx
  obtain ⟨m, hm, htx⟩ := hopen
  have hord := (h.ordered i).of_up hi
  obtain ⟨e, rfl, hrow, horiginal, hlock⟩ :=
    hheld hi hm htx (List.map_subset _ hord.2.subset howes)
  rintro (hsettled | ⟨j, hj⟩)
  · obtain ⟨hmem, -⟩ := Table.find_eq_some.mp hrow
    exact hsettled e hmem rfl (OutboxRow.pending_of_original horiginal)
  · obtain ⟨c', hj, hsent, m', hm', htx'⟩ := hj.exists
    obtain ⟨e', he', -, -, hlock'⟩ := hheld hj hm' htx' hsent.1
    rw [he', hlock] at hlock'
    obtain rfl := Option.some.inj hlock'
    by_cases hij : i = j
    · subst hij
      obtain rfl := Proc.up.inj (hi.symm.trans hj)
      exact hsent.2 howes
    · refine h.delivers.apart i j m hij ?_ ?_
      · rw [hi]
        exact htx
      · rw [hj]
        exact htx'

variable [DecidableEq ι]

omit [DecidableEq ι] in
/-- The transaction of another cycle. -/
theorem open_other (h : Delivers q) {i j : ι} {c c' cj : Call} {d : Draw} {s' : Store}
    (hi : q.calls i = .up c) (hnext : c.next batchSize q.store d = some (s', c')) (hij : j ≠ i)
    (hj : q.calls j = .up cj) : cj.Open s' ↔ cj.Open q.store := by
  unfold Call.Open
  refine exists_congr fun m => and_congr_left fun htx => ?_
  refine openTxs_next hnext (fun hmine => ?_) (begun_of_backs ((h.backs j).of_up hj) htx)
  refine h.apart j i m hij ?_ ?_
  · rw [hj]
    exact htx
  · rw [hi]
    exact hmine

/-- A statement publishes an event again only at the cost of a failure. -/
theorem budget_run (h : Batches q) (hb : Budget base n id q) {i : ι} {c c' : Call} {d : Draw}
    {s' : Store} (hi : q.calls i = .up c) (hnext : c.next batchSize q.store d = some (s', c')) :
    Budget base (n + if d.reply = .ok then 0 else 1) id
      ⟨s', Function.update q.calls i (.up c')⟩ := by
  have hord := (h.ordered i).of_up hi
  -- nobody is doomed who was not before, and the call that sends the event is not any more
  have hdoomed : ∀ j, Doomed ⟨s', Function.update q.calls i (.up c')⟩ id j →
      Doomed q id j ∧ (c.Sending id → j ≠ i) := by
    intro j hj
    rcases live_update_up hj with ⟨rfl, howes, hclosed⟩ | ⟨hij, hlive⟩
    · obtain ⟨howes', hclosed', hnot⟩ := doomed_of_next hord howes hclosed hnext
      refine ⟨?_, fun hsending => absurd hsending hnot⟩
      rw [Doomed, hi]
      exact ⟨howes', hclosed'⟩
    · obtain ⟨cj, hcj, howes, hclosed⟩ := hlive.exists
      refine ⟨?_, fun _ => hij⟩
      rw [Doomed, hcj]
      exact ⟨howes, fun hopen => hclosed ((open_other h.delivers hi hnext hij hcj).mpr hopen)⟩
  have hself : s'.RowSettled id ∨ c'.Sent id ∧ c'.Open s' →
      Settled (⟨s', Function.update q.calls i (.up c')⟩ : Calls ι) id := fun hsettled =>
    hsettled.imp_right fun hc' => exists_live_self hc'
  have hsettled : d.reply = .ok → Settled q id →
      Settled (⟨s', Function.update q.calls i (.up c')⟩ : Calls ι) id := by
    intro hok hs
    rcases hs with hrow | ⟨j, hj⟩
    · exact Or.inl (rowSettled_next hnext hrow)
    · obtain ⟨cj, hcj, hsent, hopen⟩ := hj.exists
      by_cases hij : j = i
      · subst hij
        obtain rfl := Proc.up.inj (hi.symm.trans hcj)
        exact hself (settled_of_answered hord hok hopen (Or.inl hsent) hnext)
      · refine Or.inr (exists_live_of_ne ⟨j, hij, ?_⟩ _)
        rw [hcj]
        exact ⟨hsent, (open_other h.delivers hi hnext hij hcj).mpr hopen⟩
  have hmoved : s'.sends id ≤ q.store.sends id + 1
      ∧ (¬ c.Sending id → s'.sends id = q.store.sends id) := sends_next hnext
  obtain ⟨hsends, hsame⟩ := hmoved
  by_cases hsending : c.Sending id
  case neg =>
    by_cases hok : d.reply = .ok
    · rw [if_pos hok]
      exact hb.keep (fun j hj => (hdoomed j hj).1) (hsame hsending) (hsettled hok)
    · rw [if_neg hok]
      exact hb.fail (fun j hj => (hdoomed j hj).1) (hsame hsending)
  obtain ⟨D, hD, hle, hless⟩ := hb
  by_cases hopen : c.Open q.store
  · -- the sending that settles the event, or that fails
    have hbefore := hless (not_settled_of_owes h hi hsending.owes hopen)
    refine ⟨D, fun j hj => hD j (hdoomed j hj).1, ?_, fun hnot => ?_⟩
    · dsimp only
      omega
    by_cases hok : d.reply = .ok
    · exact absurd (hself (settled_of_answered hord hok hopen (Or.inr hsending) hnext)) hnot
    · rw [if_neg hok]
      dsimp only
      omega
  · -- the sending of a cycle that has lost its transaction
    have hmem : i ∈ D := by
      refine hD i ?_
      rw [Doomed, hi]
      exact ⟨hsending.owes, hopen⟩
    have hcard := Finset.card_erase_add_one hmem
    refine ⟨D.erase i, fun j hj => ?_, ?_, fun hnot => ?_⟩
    · obtain ⟨hj, hij⟩ := hdoomed j hj
      exact Finset.mem_erase.mpr ⟨hij hsending, hD j hj⟩
    · dsimp only
      omega
    · by_cases hok : d.reply = .ok
      · have hbefore := hless fun hs => hnot (hsettled hok hs)
        dsimp only
        omega
      · rw [if_neg hok]
        dsimp only
        omega

theorem budget_crash (hb : Budget base n id q) {i : ι} {c : Call} :
    Budget base (n + 1) id ⟨q.store, Function.update q.calls i (.down c)⟩ :=
  hb.fail (fun _ hj => (live_update_down hj).2) rfl

omit [DecidableEq ι] in
/-- Time, and other events. -/
theorem budget_env {e : Env} (hb : Budget base n id q)
    (hrows : ∀ r ∈ (env q.store e).rows.rows, r.id = id → r ∈ q.store.rows.rows)
    (hopen : (env q.store e).openTxs = q.store.openTxs)
    (hchannel : (env q.store e).channel = q.store.channel) :
    Budget base n id ⟨env q.store e, q.calls⟩ := by
  have hsame : ∀ {c : Call}, c.Open (env q.store e) ↔ c.Open q.store := by
    intro c
    unfold Call.Open
    rw [hopen]
  refine hb.keep (fun j hj => hj.imp fun c hc => ⟨hc.1, fun h => hc.2 (hsame.mpr h)⟩) ?_ ?_
  · exact congrArg (List.countP _) hchannel
  · rintro (hrow | ⟨j, hj⟩)
    · exact Or.inl fun r hr hid => hrow r (hrows r hr hid) hid
    · exact Or.inr ⟨j, hj.imp fun c hc => ⟨hc.1, hsame.mpr hc.2⟩⟩

/-- A transaction that the server ends: one cycle at most goes on in vain. -/
theorem budget_abort (h : Batches q) (hb : Budget base n id q) (txId : ℕ) :
    Budget base (n + 1) id ⟨q.store.endTx txId, q.calls⟩ := by
  have hclosed : ∀ {c : Call}, c.Open q.store → c.txId ≠ some txId →
      c.Open (q.store.endTx txId) := by
    rintro c ⟨m, hm, htx⟩ hne
    refine ⟨m, mem_openTxs_endTx.mpr ⟨hm, ?_⟩, htx⟩
    rintro rfl
    exact hne htx
  by_cases hcut : ∃ i, (q.calls i).Live fun c =>
      c.txId = some txId ∧ c.Owes id ∧ c.Open q.store
  · obtain ⟨i, hi⟩ := hcut
    obtain ⟨c, hc, htx, howes, hopen⟩ := hi.exists
    obtain ⟨D, hD, -, hless⟩ := hb
    have hbefore := hless (not_settled_of_owes h hc howes hopen)
    have hcard := Finset.card_insert_le i D
    refine ⟨insert i D, fun j hj => ?_, ?_, fun _ => ?_⟩
    · obtain ⟨cj, hcj, howes', hclosed'⟩ := hj.exists
      by_cases hij : j = i
      · exact Finset.mem_insert.mpr (Or.inl hij)
      · refine Finset.mem_insert_of_mem (hD j ?_)
        rw [Doomed, hcj]
        refine ⟨howes', fun hopen' => hclosed' (hclosed hopen' fun htx' => ?_)⟩
        refine h.delivers.apart j i txId hij ?_ ?_
        · rw [hcj]
          exact htx'
        · rw [hc]
          exact htx
    all_goals
      have hsends : (q.store.endTx txId).sends id = q.store.sends id := rfl
      dsimp only
      omega
  · refine hb.fail (fun j hj => ?_) rfl
    obtain ⟨cj, hcj, howes, hclosed'⟩ := hj.exists
    rw [Doomed, hcj]
    refine ⟨howes, fun hopen => hclosed' (hclosed hopen fun htx => hcut ⟨j, ?_⟩)⟩
    rw [hcj]
    exact ⟨htx, howes, hopen⟩

/-- No event is inserted under the id. -/
def NotInserted (id : String) (_ : Calls ι) : Move ι Draw Env → Prop
  | .env (.event id' _ _) => id' ≠ id
  | _ => True

instance (q : Calls ι) : ∀ m : Move ι Draw Env, Decidable (NotInserted id q m)
  | .env (.event id' _ _) => inferInstanceAs (Decidable (id' ≠ id))
  | .env (.tick _) | .env (.abort _) | .run _ _ | .crash _ => inferInstanceAs (Decidable True)

/-- Every step keeps it. -/
theorem batches_step {m : Move ι Draw Env} {q' : Calls ι} (h : Batches q)
    (hs : q.step (outboxMachine batchSize) m = some q') : Batches q' := by
  refine ⟨(delivers_step h.delivers hs).1, ?_⟩
  cases m with
  | run i d =>
    obtain ⟨c, s', c', hc, hnext, rfl⟩ := Pool.step_run hs
    exact keeps_update_up (ordered_next ((h.ordered i).of_up hc) hnext) fun j _ => h.ordered j
  | crash i =>
    obtain ⟨c, -, rfl⟩ := Pool.step_crash hs
    exact keeps_update_down h.ordered
  | env e =>
    obtain rfl : (⟨env q.store e, q.calls⟩ : Calls ι) = q' := Option.some.inj hs
    exact h.ordered

/-- **One move.** -/
theorem budget_step {m : Move ι Draw Env} {q' : Calls ι} (h : Batches q) (hb : Budget base n id q)
    (hG : NotInserted id q m) (hs : q.step (outboxMachine batchSize) m = some q') :
    Budget base (n + if fails m then 1 else 0) id q' := by
  cases m with
  | run i d =>
    obtain ⟨c, s', c', hc, hnext, rfl⟩ := Pool.step_run hs
    have hrun := budget_run h hb hc hnext
    by_cases hok : d.reply = .ok
    · rw [if_pos hok] at hrun
      rwa [if_neg (by simpa [fails] using hok)]
    · rw [if_neg hok] at hrun
      rwa [if_pos (by simpa [fails] using hok)]
  | crash i =>
    obtain ⟨c, -, rfl⟩ := Pool.step_crash hs
    exact budget_crash hb
  | env e =>
    obtain rfl : (⟨env q.store e, q.calls⟩ : Calls ι) = q' := Option.some.inj hs
    cases e with
    | tick ms => exact budget_env hb (fun r hr _ => hr) rfl rfl
    | abort txId => exact budget_abort h hb txId
    | event id' event occurredAt =>
      refine budget_env hb (fun r hr hid => ?_) rfl rfl
      rw [env] at hr
      dsimp only at hr
      cases hins : q.store.rows.insert ⟨id', event, .pending, occurredAt, q.store.now, none⟩ with
      | none =>
        rw [hins] at hr
        exact hr
      | some rows =>
        rw [hins] at hr
        obtain ⟨-, hrows⟩ := Table.insert_eq_some hins
        rw [Option.getD_some, hrows] at hr
        rcases List.mem_cons.mp hr with rfl | hold
        · exact absurd hid hG
        · exact hold

/-- Along a run the budget grows by the failures of it. -/
theorem budget_steps {ms : List (Move ι Draw Env)} (h : Batches p) (hb : Budget base n id p)
    (hsteps : Steps (Pool.step (outboxMachine batchSize)) (NotInserted id) p ms q) :
    Budget base (n + ms.countP fails) id q := by
  induction hsteps generalizing n with
  | nil _ => exact hb
  | cons hG hs _ ih =>
    have hrest := ih (batches_step h hs) (budget_step h hb hG hs)
    rw [List.countP_cons]
    rwa [Nat.add_assoc, Nat.add_comm (ite _ _ _)] at hrest

/-- **No more repeats than failures.**  Whatever pollers and clean-ups do in any order: of an event
there are at most as many sendings as there were, and one, and one for every statement that was not
answered, every crash and every transaction that the server has ended. -/
theorem repeats_le_failures {ms : List (Move ι Draw Env)}
    (hfresh : ∀ i, (p.calls i).Live fun c => c.fresh) (hsound : p.store.Sound)
    (hsteps : Steps (Pool.step (outboxMachine batchSize)) (NotInserted id) p ms q) :
    q.store.sends id ≤ p.store.sends id + 1 + ms.countP fails := by
  have hidle : ∀ i, ∃ c, p.calls i = .up c ∧ c.batch = [] ∧ c.unsent = [] := by
    intro i
    obtain ⟨c, hc, hstart⟩ := (hfresh i).exists
    match c, hstart with
    | .pollCycle .lock, _ => exact ⟨_, hc, rfl, rfl⟩
    | .cleanup .purgePublished, _ => exact ⟨_, hc, rfl, rfl⟩
  have hstart : Batches p := by
    refine ⟨delivers_fresh hsound hfresh, fun i => ?_⟩
    obtain ⟨c, hc, hbatch, hunsent⟩ := hidle i
    rw [hc]
    exact ordered_of_batch_nil hbatch hunsent
  have hbudget : Budget (p.store.sends id) 0 id p := by
    refine ⟨∅, fun i hi => ?_, ?_, fun _ => ?_⟩
    · obtain ⟨c, hc, -, hunsent⟩ := hidle i
      rw [Doomed, hc] at hi
      exact absurd hi.1 (not_owes_of_unsent_nil hunsent)
    · rw [Finset.card_empty]
      omega
    · rw [Finset.card_empty]
  obtain ⟨D, -, hle, -⟩ := budget_steps hstart hbudget hsteps
  omega

end Budget

/-- The PUBLISH of the first poller is done and not answered, and the second sends the event
again. -/
def unansweredMoves : List (Move (Fin 3) Draw Env) :=
  List.replicate 4 (.run 0 ⟨"a1", .ok⟩) ++ [.run 0 ⟨"a1", .lost⟩, .run 0 ⟨"a1", .ok⟩,
    .env (.tick 10000)] ++ List.replicate 7 (.run 1 ⟨"b2", .ok⟩)

theorem demoOutbox_sound : demoOutbox.Sound := by
  intro r hr
  obtain rfl := List.mem_singleton.mp hr
  exact Or.inl rfl

/-- One failure, one repeat. -/
theorem repeats_le_failures_unanswered :
    ∃ q, Steps (Pool.step (outboxMachine 100)) (NotInserted "e1") demoCalls unansweredMoves q
      ∧ q.store.sends "e1" = 2 ∧ unansweredMoves.countP fails = 1
      ∧ q.store.sends "e1" ≤ demoCalls.store.sends "e1" + 1 + unansweredMoves.countP fails := by
  have hsteps := steps_getD (Pool.step (outboxMachine 100)) (NotInserted "e1") demoCalls
    unansweredMoves (by decide)
  exact ⟨_, hsteps, by decide, by decide, repeats_le_failures (by decide) demoOutbox_sound hsteps⟩

end WorkPlatform.Outbox

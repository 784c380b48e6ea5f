import WorkPlatform.Outbox.Poller

/-!
# Outbox/Delivery — at least once

    pending ──▶ PUBLISH ──▶ marked published, by the transaction that has the row locked ──▶ purged

Two inputs:

* a row in the batch of an open transaction is locked by it, so that nobody else has changed the row
  since it was selected (`Store.Backs`);
* the batch is marked once all of it was sent.

The lock in Redis plays no part: any number of pollers may be past it.
-/

namespace WorkPlatform.Outbox

open Machinery

/-! ## What a batch stands on -/

/-- As it was inserted, or published and marked so. -/
def OutboxRow.Sound (channel : List OutboxRow) (r : OutboxRow) : Prop :=
  r.original = r ∨ r.status = .published ∧ r.original ∈ channel

theorem OutboxRow.pending_of_original {r : OutboxRow} (h : r.original = r) :
    r.status = .pending :=
  (congrArg OutboxRow.status h).symm

theorem OutboxRow.Sound.original_of_pending {channel : List OutboxRow} {r : OutboxRow}
    (h : r.Sound channel) (hpending : r.status = .pending) : r.original = r := by
  rcases h with horiginal | ⟨hpublished, -⟩
  · exact horiginal
  · rw [hpending] at hpublished
    cases hpublished

def Store.Sound (s : Store) : Prop := ∀ r ∈ s.rows.rows, r.Sound s.channel

/-- The transaction has the row locked, and the row is as it was inserted. -/
def Store.Held (s : Store) (txId : ℕ) (e : OutboxRow) : Prop :=
  s.rows.find e.id = some e ∧ e.original = e ∧ s.rowLocks e.id = some txId

namespace PollPc

/-- The transaction of the cycle. -/
def txId : PollPc → Option ℕ
  | .select tx | .publish tx _ _ _ | .update tx _ | .commit tx _ | .rollback tx => some tx.id
  | _ => none

/-- What the cycle has selected. -/
def batch : PollPc → List OutboxRow
  | .publish _ events _ _ | .update _ events | .commit _ events => events
  | _ => []

/-- What it has still to send. -/
def unsent : PollPc → List OutboxRow
  | .publish _ _ event rest => event :: rest
  | _ => []

end PollPc

@[simp] theorem PollPc.txId_selected (tx : Tx) (events : List OutboxRow) :
    (PollPc.selected tx events).txId = some tx.id := by
  cases events <;> rfl

@[simp] theorem PollPc.txId_publishing (tx : Tx) (events rest : List OutboxRow) :
    (PollPc.publishing tx events rest).txId = some tx.id := by
  cases rest <;> rfl

def Call.txId : Call → Option ℕ
  | .pollCycle pc => pc.txId
  | .cleanup _ => none

/-- **What a cycle goes by**: while its transaction is open it has the batch locked, and what is not
still to be sent was sent. -/
structure Store.Backs (s : Store) (pc : PollPc) : Prop where
  begun : ∀ n, pc.txId = some n → n < s.nextTx
  held : ∀ n, pc.txId = some n → n ∈ s.openTxs → ∀ e ∈ pc.batch, s.Held n e
  sent : ∀ e ∈ pc.batch, e ∈ pc.unsent ∨ e ∈ s.channel

/-- What a statement leaves as it was, that is not of the transaction `mine`: what others have
locked, and the rows that were not sent. -/
structure Store.Spares (s s' : Store) (mine : Option ℕ) : Prop where
  nextTx : s.nextTx ≤ s'.nextTx
  channel : s.channel ⊆ s'.channel
  opened : ∀ n ∈ s'.openTxs, n < s.nextTx → n ∈ s.openTxs
  held : ∀ n ∈ s'.openTxs, some n ≠ mine → ∀ e, s.Held n e → s'.Held n e
  arose : ∀ r ∈ s'.rows.rows, r ∈ s.rows.rows ∨ r.Sound s'.channel
  kept : ∀ r ∈ s.rows.rows, r ∈ s'.rows.rows ∨ r.original ∈ s.channel
  purged : ∀ r ∈ s.rows.rows, s'.rows.find r.id = none → r.status = .published

section Spares

variable {s s' : Store} {mine : Option ℕ} {pc : PollPc}

theorem OutboxRow.Sound.mono {channel channel' : List OutboxRow} {r : OutboxRow}
    (h : r.Sound channel) (hsub : channel ⊆ channel') : r.Sound channel' := by
  rcases h with horiginal | ⟨hpublished, hsent⟩
  · exact Or.inl horiginal
  · exact Or.inr ⟨hpublished, hsub hsent⟩

theorem Store.Spares.sound (h : s.Spares s' mine) (hs : s.Sound) : s'.Sound := by
  intro r hr
  rcases h.arose r hr with hold | hsound
  · exact (hs r hold).mono h.channel
  · exact hsound

/-- The other cycles go on by what they went by. -/
theorem Store.Spares.backs (h : s.Spares s' mine) (hb : s.Backs pc)
    (hother : ∀ n, pc.txId = some n → some n ≠ mine) : s'.Backs pc := by
  refine ⟨fun n hn => (hb.begun n hn).trans_le h.nextTx, fun n hn hopen e he => ?_, fun e he => ?_⟩
  · exact h.held n hopen (hother n hn) e (hb.held n hn (h.opened n hopen (hb.begun n hn)) e he)
  · exact (hb.sent e he).imp id fun hsent => h.channel hsent

/-- A statement that changes no row, and takes no lock from an open transaction. -/
theorem Store.Spares.same (hrows : s'.rows = s.rows) (hchannel : s.channel ⊆ s'.channel)
    (hnext : s.nextTx ≤ s'.nextTx) (hopened : ∀ n ∈ s'.openTxs, n < s.nextTx → n ∈ s.openTxs)
    (hlocks : ∀ n ∈ s'.openTxs, ∀ id, s.rowLocks id = some n → s'.rowLocks id = some n) :
    s.Spares s' mine where
  nextTx := hnext
  channel := hchannel
  opened := hopened
  held := by
    rintro n hopen - e ⟨hfind, horiginal, hlock⟩
    refine ⟨?_, horiginal, hlocks n hopen e.id hlock⟩
    rw [hrows]
    exact hfind
  arose := fun r hr => Or.inl (hrows ▸ hr)
  kept := fun r hr => Or.inl (hrows ▸ hr)
  purged := by
    intro r hr hnone
    rw [hrows, Table.find_key hr] at hnone
    cases hnone

theorem Store.Spares.refl (s : Store) : s.Spares s mine :=
  .same rfl (List.Subset.refl _) le_rfl (fun _ h _ => h) fun _ _ _ h => h

theorem spares_acquire (instanceId : String) : s.Spares (s.acquire instanceId) mine :=
  .same rfl (List.Subset.refl _) le_rfl (fun _ h _ => h) fun _ _ _ h => h

theorem spares_publish (event : OutboxRow) : s.Spares (s.publish event) mine :=
  .same rfl (List.subset_cons_self _ _) le_rfl (fun _ h _ => h) fun _ _ _ h => h

theorem spares_begin : s.Spares s.begin mine := by
  refine .same rfl (List.Subset.refl _) (Nat.le_succ _) (fun n hn hlt => ?_) fun _ _ _ h => h
  rcases List.mem_cons.mp hn with rfl | hold
  · exact absurd hlt (lt_irrefl _)
  · exact hold

/-- Locking rows that nobody has locked spares everything. -/
theorem spares_lockRows {tx : Tx} {events : List OutboxRow}
    (hfree : ∀ e ∈ events, s.rowLocks e.id = none) : s.Spares (s.lockRows tx events) mine := by
  refine .same rfl (List.Subset.refl _) le_rfl (fun _ h _ => h) fun n _ id hlock => ?_
  have hnot : id ∉ events.map (·.id) := by
    intro hmem
    obtain ⟨e, he, rfl⟩ := List.mem_map.mp hmem
    have hnone := hfree e he
    rw [hlock] at hnone
    cases hnone
  exact (if_neg hnot).trans hlock

theorem mem_openTxs_endTx {txId n : ℕ} :
    n ∈ (s.endTx txId).openTxs ↔ n ∈ s.openTxs ∧ n ≠ txId := by
  unfold Store.endTx
  simp

theorem spares_endTx (txId : ℕ) : s.Spares (s.endTx txId) mine := by
  refine .same rfl (List.Subset.refl _) le_rfl (fun _ h _ => (mem_openTxs_endTx.mp h).1) ?_
  intro n hopen id hlock
  have hne : s.rowLocks id ≠ some txId := by
    rw [hlock]
    exact fun h => (mem_openTxs_endTx.mp hopen).2 (Option.some.inj h)
  exact (if_neg hne).trans hlock

/-- A row that a batch names is of the batch. -/
theorem mem_of_held {txId : ℕ} {events : List OutboxRow} (hheld : ∀ e ∈ events, s.Held txId e)
    {r : OutboxRow} (hr : r ∈ s.rows.rows) (hid : r.id ∈ events.map (·.id)) : r ∈ events := by
  obtain ⟨e, he, heq⟩ := List.mem_map.mp hid
  have hfind := (hheld e he).1
  rw [heq, Table.find_key hr] at hfind
  rw [Option.some.inj hfind]
  exact he

/-- The COMMIT: the rows it marks are its own, and were sent. -/
theorem spares_commit {tx : Tx} {events : List OutboxRow}
    (hheld : ∀ e ∈ events, s.Held tx.id e) (hsent : ∀ e ∈ events, e ∈ s.channel) :
    s.Spares (s.commit tx events) (some tx.id) where
  nextTx := le_rfl
  channel := List.Subset.refl _
  opened := fun _ h _ => (mem_openTxs_endTx.mp h).1
  held := by
    rintro n hn hother e ⟨hfind, horiginal, hlock⟩
    have hne : n ≠ tx.id := fun h => hother (congrArg some h)
    have hnot : e.id ∉ events.map (·.id) := by
      intro hid
      have he := mem_of_held hheld (Table.find_eq_some.mp hfind).1 hid
      have hown := (hheld e he).2.2
      rw [hlock] at hown
      exact hne (Option.some.inj hown)
    have hsame : e.mark tx events = e := if_neg hnot
    refine ⟨?_, horiginal, (if_neg fun h => ?_).trans hlock⟩
    · refine (Table.find_map (OutboxRow.mark_id tx events) e.id).trans ?_
      rw [hfind, Option.map_some, hsame]
    · exact hne (Option.some.inj (hlock.symm.trans h))
  arose := by
    intro r' hr'
    obtain ⟨r, hr, rfl⟩ := List.mem_map.mp hr'
    by_cases hid : r.id ∈ events.map (·.id)
    · have he := mem_of_held hheld hr hid
      have hmark : (r.mark tx events).status = .published
          ∧ (r.mark tx events).original = r.original := by
        rw [OutboxRow.mark, if_pos hid]
        exact ⟨rfl, rfl⟩
      refine Or.inr (Or.inr ⟨hmark.1, ?_⟩)
      rw [hmark.2, (hheld r he).2.1]
      exact hsent r he
    · have hsame : r.mark tx events = r := if_neg hid
      rw [hsame]
      exact Or.inl hr
  kept := by
    intro r hr
    by_cases hid : r.id ∈ events.map (·.id)
    · have he := mem_of_held hheld hr hid
      rw [(hheld r he).2.1]
      exact Or.inr (hsent r he)
    · have hsame : r.mark tx events = r := if_neg hid
      exact Or.inl (List.mem_map.mpr ⟨r, hr, hsame⟩)
  purged := by
    intro r hr hnone
    have hsome := Table.find_map (t := s.rows) (OutboxRow.mark_id tx events) r.id
    rw [Table.find_key hr] at hsome
    cases hsome.symm.trans hnone

/-- A DELETE of rows that were published. -/
theorem spares_filter {p : OutboxRow → Bool} (hs : s.Sound) (hrows : s'.rows = s.rows.filter p)
    (hp : ∀ r, p r = false → r.status ≠ .pending) (hchannel : s'.channel = s.channel)
    (hnext : s'.nextTx = s.nextTx) (hopen : s'.openTxs = s.openTxs)
    (hlocks : s'.rowLocks = s.rowLocks) : s.Spares s' mine := by
  have hgone : ∀ r ∈ s.rows.rows, r ∉ s'.rows.rows → r.status = .published
      ∧ r.original ∈ s.channel := by
    intro r hr hnot
    have hfalse : p r = false := by
      refine eq_false_of_ne_true fun htrue => hnot ?_
      rw [hrows]
      exact List.mem_filter.mpr ⟨hr, htrue⟩
    rcases hs r hr with horiginal | hpublished
    · exact absurd (OutboxRow.pending_of_original horiginal) (hp r hfalse)
    · exact hpublished
  refine ⟨hnext.ge, ?_, ?_, ?_, ?_, ?_, ?_⟩
  · rw [hchannel]
    exact List.Subset.refl _
  · rw [hopen]
    exact fun _ h _ => h
  · rintro n - - e ⟨hfind, horiginal, hlock⟩
    refine ⟨?_, horiginal, by rw [hlocks]; exact hlock⟩
    obtain ⟨hmem, -⟩ := Table.find_eq_some.mp hfind
    refine Table.find_key (by_contra fun hnot => ?_)
    have hpublished := (hgone e hmem hnot).1
    rw [OutboxRow.pending_of_original horiginal] at hpublished
    cases hpublished
  · intro r hr
    rw [hrows] at hr
    exact Or.inl (List.mem_filter.mp hr).1
  · intro r hr
    by_cases hmem : r ∈ s'.rows.rows
    · exact Or.inl hmem
    · exact Or.inr (hgone r hr hmem).2
  · intro r hr hnone
    refine (hgone r hr fun hmem => ?_).1
    cases (Table.find_key hmem).symm.trans hnone

theorem spares_purgePublished (hs : s.Sound) : s.Spares s.purgePublished mine := by
  refine spares_filter hs rfl (fun r hr => ?_) rfl rfl rfl rfl
  have hdeleted := of_not_not (of_decide_eq_false hr)
  rw [hdeleted.1]
  nofun

theorem spares_purgeFailed (hs : s.Sound) : s.Spares s.purgeFailed mine := by
  refine spares_filter hs rfl (fun r hr => ?_) rfl rfl rfl rfl
  have hdeleted := of_not_not (of_decide_eq_false hr)
  rw [hdeleted.1]
  nofun

/-- A new event touches no other. -/
theorem spares_event {r : OutboxRow} (horiginal : r.original = r) {rows : Table OutboxRow.id}
    (h : s.rows.insert r = some rows) : s.Spares { s with rows := rows } mine where
  nextTx := le_rfl
  channel := List.Subset.refl _
  opened := fun _ h _ => h
  held := by
    rintro n - - e ⟨hfind, he, hlock⟩
    refine ⟨(Table.find_insert h e.id).trans ?_, he, hlock⟩
    have hne : r.id ≠ e.id := by
      intro hid
      have hnone := (Table.insert_eq_some h).1
      rw [hid, hfind] at hnone
      cases hnone
    rw [if_neg hne]
    exact hfind
  arose := by
    intro x hx
    rw [(Table.insert_eq_some h).2] at hx
    rcases List.mem_cons.mp hx with rfl | hold
    · exact Or.inr (Or.inl horiginal)
    · exact Or.inl hold
  kept := by
    intro x hx
    rw [(Table.insert_eq_some h).2]
    exact Or.inl (List.mem_cons_of_mem _ hx)
  purged := by
    intro x hx hnone
    have hsome : rows.find x.id = some x := by
      refine Table.find_key ?_
      rw [(Table.insert_eq_some h).2]
      exact List.mem_cons_of_mem _ hx
    cases hsome.symm.trans hnone

/-- So do the surroundings. -/
theorem spares_env (e : Env) : s.Spares (env s e) mine := by
  cases e with
  | tick ms => exact .same rfl (List.Subset.refl _) le_rfl (fun _ h _ => h) fun _ _ _ h => h
  | event id event occurredAt =>
    unfold env
    dsimp only
    cases hinsert : s.rows.insert ⟨id, event, .pending, occurredAt, s.now, none⟩ with
    | none => exact .refl s
    | some rows => exact spares_event rfl hinsert
  | abort txId => exact spares_endTx txId

end Spares

/-! ## One statement -/

section Next

variable {batchSize : ℕ} {s s' : Store} {d : Draw} {pc pc' : PollPc}

theorem mem_select {tx : Tx} {e : OutboxRow} (h : e ∈ s.select batchSize tx) :
    e ∈ s.rows.rows ∧ e.status = .pending ∧ s.rowLocks e.id = none := by
  have hmem := List.mem_of_mem_take h
  rw [List.mem_insertionSort] at hmem
  obtain ⟨hrow, heligible⟩ := List.mem_filter.mp hmem
  obtain ⟨hpending, -, hfree⟩ := of_decide_eq_true heligible
  exact ⟨hrow, hpending, Option.isNone_iff_eq_none.mp hfree⟩

/-- A cycle with no batch. -/
theorem backs_of_batch_nil (hbegun : ∀ n, pc.txId = some n → n < s.nextTx)
    (hbatch : pc.batch = []) : s.Backs pc := by
  refine ⟨hbegun, fun n _ _ e he => ?_, fun e he => ?_⟩
  all_goals
    rw [hbatch] at he
    cases he

theorem backs_rollback {tx : Tx} (hbegun : tx.id < s.nextTx) : s.Backs (.rollback tx) := by
  refine backs_of_batch_nil (fun n hn => ?_) rfl
  obtain rfl := Option.some.inj hn
  exact hbegun

/-- A cycle that has selected its batch. -/
theorem backs_selected {tx : Tx} {events : List OutboxRow} (hbegun : tx.id < s.nextTx)
    (hevents : ∀ e ∈ events, s.rows.find e.id = some e ∧ e.original = e) :
    (s.lockRows tx events).Backs (.selected tx events) := by
  have hheld : ∀ e ∈ events, (s.lockRows tx events).Held tx.id e := fun e he =>
    ⟨(hevents e he).1, (hevents e he).2, if_pos (List.mem_map_of_mem he)⟩
  cases events with
  | nil => exact backs_rollback hbegun
  | cons event rest =>
    refine ⟨fun n hn => ?_, fun n hn _ => ?_, fun e he => Or.inl he⟩
    all_goals obtain rfl := Option.some.inj hn
    · exact hbegun
    · exact hheld

/-- A cycle that has sent one more event. -/
theorem backs_publishing {tx : Tx} {events rest : List OutboxRow} {event : OutboxRow}
    (hb : s.Backs (.publish tx events event rest)) :
    (s.publish event).Backs (.publishing tx events rest) := by
  have hheld := hb.held tx.id rfl
  have hbegun := hb.begun tx.id rfl
  have hsent : ∀ e ∈ events, e ∈ rest ∨ e ∈ (s.publish event).channel := by
    intro e he
    rcases hb.sent e he with hunsent | hdone
    · rcases List.mem_cons.mp hunsent with rfl | hrest
      · exact Or.inr List.mem_cons_self
      · exact Or.inl hrest
    · exact Or.inr (List.mem_cons_of_mem _ hdone)
  cases rest with
  | nil =>
    refine ⟨fun n hn => ?_, fun n hn hopen => ?_, hsent⟩
    all_goals obtain rfl := Option.some.inj hn
    · exact hbegun
    · exact hheld hopen
  | cons event' rest =>
    refine ⟨fun n hn => ?_, fun n hn hopen => ?_, hsent⟩
    all_goals obtain rfl := Option.some.inj hn
    · exact hbegun
    · exact hheld hopen

theorem batch_of_idle (h : pc.txId = none) : pc.batch = [] := by
  cases pc with
  | publish | update | commit => cases h
  | _ => rfl

theorem backs_idle (h : pc.txId = none) : s.Backs pc :=
  backs_of_batch_nil (fun _ hn => by cases h.symm.trans hn) (batch_of_idle h)

/-- **What a statement of a cycle does.** -/
inductive Polled (batchSize : ℕ) (s : Store) : PollPc → Store → PollPc → Prop
  | idle {pc pc' : PollPc} (h : pc'.txId = none) : Polled batchSize s pc s pc'
  | acquired {instanceId : String} {pc' : PollPc} (h : pc'.txId = none) :
      Polled batchSize s .lock (s.acquire instanceId) pc'
  | began : Polled batchSize s .begin s.begin (.select ⟨s.nextTx, s.now⟩)
  | selected {tx : Tx} : Polled batchSize s (.select tx) (s.lockRows tx (s.select batchSize tx))
      (.selected tx (s.select batchSize tx))
  | sent {tx : Tx} {events rest : List OutboxRow} {event : OutboxRow} :
      Polled batchSize s (.publish tx events event rest) (s.publish event)
        (.publishing tx events rest)
  | updated {tx : Tx} {events : List OutboxRow} :
      Polled batchSize s (.update tx events) s (.commit tx events)
  | committed {tx : Tx} {events : List OutboxRow} {pc' : PollPc} (hopen : tx.id ∈ s.openTxs)
      (h : pc'.txId = none ∨ pc' = .rollback tx) :
      Polled batchSize s (.commit tx events) (s.commit tx events) pc'
  | ended {tx : Tx} {pc' : PollPc} (h : pc'.txId = none) :
      Polled batchSize s (.rollback tx) (s.endTx tx.id) pc'
  | gaveUp {pc : PollPc} {tx : Tx} {s' : Store} (htx : pc.txId = some tx.id)
      (h : s' = s ∨ s' = s.lockRows tx (s.select batchSize tx) ∨ ∃ event, s' = s.publish event) :
      Polled batchSize s pc s' (.rollback tx)

/-- What each statement of a cycle does. -/
theorem polled_next (h : pollNext batchSize s d pc = some (s', pc')) :
    Polled batchSize s pc s' pc' := by
  cases pc with
  | lock =>
    obtain ⟨rfl, rfl⟩ := Prod.mk.inj (Option.some.inj h)
    have hidle : (if d.reply ≠ .ok then PollPc.threw
        else if s.lockFree then .connect else .returned false).txId = none := by
      split_ifs <;> rfl
    split
    · exact .acquired hidle
    · exact .idle hidle
  | connect =>
    obtain ⟨rfl, rfl⟩ := Prod.mk.inj (Option.some.inj h)
    split <;> exact .idle rfl
  | begin =>
    rw [pollNext] at h
    split at h
    all_goals obtain ⟨rfl, rfl⟩ := Prod.mk.inj (Option.some.inj h)
    · exact .began
    · exact .idle rfl
  | select tx =>
    rw [pollNext] at h
    split at h
    all_goals obtain ⟨rfl, rfl⟩ := Prod.mk.inj (Option.some.inj h)
    · split
      · exact .selected
      · exact .gaveUp rfl (Or.inr (Or.inl rfl))
    · exact .gaveUp rfl (Or.inl rfl)
  | publish tx events event rest =>
    obtain ⟨rfl, rfl⟩ := Prod.mk.inj (Option.some.inj h)
    split_ifs with hdone hok hok
    · exact .sent
    · exact .gaveUp rfl (Or.inr (Or.inr ⟨event, rfl⟩))
    · rw [hok] at hdone
      exact absurd rfl hdone
    · exact .gaveUp rfl (Or.inl rfl)
  | update tx events =>
    obtain ⟨rfl, rfl⟩ := Prod.mk.inj (Option.some.inj h)
    split
    · exact .updated
    · exact .gaveUp rfl (Or.inl rfl)
  | commit tx events =>
    rw [pollNext] at h
    split at h
    case isTrue hopen =>
      obtain ⟨rfl, rfl⟩ := Prod.mk.inj (Option.some.inj h)
      split
      · exact .committed hopen.1 (Or.inl rfl)
      · exact .committed hopen.1 (Or.inr rfl)
    case isFalse =>
      obtain ⟨rfl, rfl⟩ := Prod.mk.inj (Option.some.inj h)
      exact .gaveUp rfl (Or.inl rfl)
  | rollback tx =>
    obtain ⟨rfl, rfl⟩ := Prod.mk.inj (Option.some.inj h)
    split
    · exact .ended rfl
    · exact .idle rfl
  | returned | threw => cases h

/-- A statement of a poll spares what is not of its own transaction. -/
theorem spares_polled (hb : s.Backs pc) (h : Polled batchSize s pc s' pc') :
    s.Spares s' pc.txId := by
  cases h with
  | idle | updated => exact .refl s
  | acquired => exact spares_acquire _
  | began => exact spares_begin
  | selected => exact spares_lockRows fun e he => (mem_select he).2.2
  | sent => exact spares_publish _
  | @committed tx _ _ hopen _ =>
    refine spares_commit (hb.held tx.id rfl hopen) fun e he => ?_
    exact (hb.sent e he).resolve_left List.not_mem_nil
  | ended => exact spares_endTx _
  | gaveUp _ hs' =>
    rcases hs' with rfl | rfl | ⟨event, rfl⟩
    · exact .refl s'
    · exact spares_lockRows fun e he => (mem_select he).2.2
    · exact spares_publish event

/-- A cycle goes by what its own transaction has seen. -/
theorem backs_polled (hs : s.Sound) (hb : s.Backs pc) (h : Polled batchSize s pc s' pc') :
    s'.Backs pc' := by
  cases h with
  | idle htx | acquired htx | ended htx => exact backs_idle htx
  | began =>
    refine backs_of_batch_nil (fun n hn => ?_) rfl
    obtain rfl := Option.some.inj hn
    exact Nat.lt_succ_self _
  | @selected tx =>
    refine backs_selected (hb.begun tx.id rfl) fun e he => ?_
    obtain ⟨hrow, hpending, -⟩ := mem_select he
    exact ⟨Table.find_key hrow, (hs e hrow).original_of_pending hpending⟩
  | sent => exact backs_publishing hb
  | updated => exact ⟨hb.begun, hb.held, hb.sent⟩
  | @committed tx _ _ _ hend =>
    rcases hend with htx | rfl
    · exact backs_idle htx
    · exact backs_rollback (hb.begun tx.id rfl)
  | @gaveUp _ tx _ htx hs' =>
    have hbegun := hb.begun tx.id htx
    rcases hs' with rfl | rfl | ⟨event, rfl⟩ <;> exact backs_rollback hbegun

/-- A cycle has one transaction. -/
theorem txId_polled (h : Polled batchSize s pc s' pc') :
    pc'.txId = none ∨ pc'.txId = pc.txId ∨ pc'.txId = some s.nextTx := by
  cases h with
  | idle htx | acquired htx | ended htx => exact Or.inl htx
  | began => exact Or.inr (Or.inr rfl)
  | selected => exact Or.inr (Or.inl (PollPc.txId_selected _ _))
  | sent => exact Or.inr (Or.inl (PollPc.txId_publishing _ _ _))
  | updated => exact Or.inr (Or.inl rfl)
  | committed _ hend =>
    rcases hend with htx | rfl
    · exact Or.inl htx
    · exact Or.inr (Or.inl rfl)
  | gaveUp htx => exact Or.inr (Or.inl htx.symm)

/-- A statement of the clean-up spares everything. -/
theorem spares_cleanupNext {pc pc' : CleanupPc} (hs : s.Sound)
    (h : cleanupNext s d pc = some (s', pc')) : s.Spares s' none := by
  cases pc with
  | purgePublished =>
    obtain ⟨rfl, -⟩ := Prod.mk.inj (Option.some.inj h)
    split
    · exact spares_purgePublished hs
    · exact .refl s
  | purgeFailed =>
    obtain ⟨rfl, -⟩ := Prod.mk.inj (Option.some.inj h)
    split
    · exact spares_purgeFailed hs
    · exact .refl s
  | returned => cases h

/-- What a call goes by. -/
def Store.BacksCall (s : Store) : Call → Prop
  | .pollCycle pc => s.Backs pc
  | .cleanup _ => True

/-- **One statement**, of any call. -/
theorem spares_next {c c' : Call} (hs : s.Sound) (hb : s.BacksCall c)
    (h : c.next batchSize s d = some (s', c')) : s.Spares s' c.txId ∧ s'.BacksCall c'
      ∧ (c'.txId = none ∨ c'.txId = c.txId ∨ c'.txId = some s.nextTx) := by
  cases c with
  | pollCycle pc =>
    obtain ⟨pc', hpc, rfl⟩ := pc_of_next h
    have hpolled := polled_next hpc
    exact ⟨spares_polled hb hpolled, backs_polled hs hb hpolled, txId_polled hpolled⟩
  | cleanup pc =>
    obtain ⟨pc', hpc, rfl⟩ := pc_of_next h
    exact ⟨spares_cleanupNext hs hpc, trivial, Or.inl rfl⟩

theorem Store.Spares.backsCall {mine : Option ℕ} {c : Call} (h : s.Spares s' mine)
    (hb : s.BacksCall c) (hother : ∀ n, c.txId = some n → some n ≠ mine) : s'.BacksCall c := by
  cases c with
  | pollCycle pc => exact h.backs hb hother
  | cleanup pc => exact trivial

theorem begun_of_backs {c : Call} (hb : s.BacksCall c) {n : ℕ} (hn : c.txId = some n) :
    n < s.nextTx := by
  cases c with
  | pollCycle pc => exact hb.begun n hn
  | cleanup pc => cases hn

end Next

/-! ## Every run -/

section Runs

variable {ι : Type*} [DecidableEq ι] {batchSize : ℕ} {p q : Calls ι}

/-- Running calls have transactions of their own. -/
def Apart (p : Calls ι) : Prop :=
  ∀ i j n, i ≠ j → (p.calls i).Live (·.txId = some n) → ¬ (p.calls j).Live (·.txId = some n)

/-- **The invariant.** -/
structure Delivers (p : Calls ι) : Prop where
  sound : p.store.Sound
  backs : ∀ i, (p.calls i).Keeps p.store.BacksCall
  apart : Apart p

omit [DecidableEq ι] in
/-- Before the first statement the invariant holds. -/
theorem delivers_fresh (hs : p.store.Sound) (hfresh : ∀ i, (p.calls i).Live fun c => c.fresh) :
    Delivers p := by
  have hidle : ∀ i, ∃ c, p.calls i = .up c ∧ c.txId = none ∧ p.store.BacksCall c := by
    intro i
    obtain ⟨c, hc, hstart⟩ := (hfresh i).exists
    match c, hstart with
    | .pollCycle .lock, _ => exact ⟨_, hc, rfl, backs_of_batch_nil nofun rfl⟩
    | .cleanup .purgePublished, _ => exact ⟨_, hc, rfl, trivial⟩
  refine ⟨hs, fun i => ?_, fun i j n _ hi _ => ?_⟩
  · obtain ⟨c, hc, -, hb⟩ := hidle i
    rw [hc]
    exact hb
  · obtain ⟨c, hc, hnone, -⟩ := hidle i
    rw [hc] at hi
    cases hnone.symm.trans hi

/-- A statement loses no event. -/
theorem delivers_run {i : ι} {d : Draw} {c c' : Call} {s' : Store} (h : Delivers p)
    (hc : p.calls i = .up c) (hnext : c.next batchSize p.store d = some (s', c')) :
    Delivers ⟨s', Function.update p.calls i (.up c')⟩ := by
  obtain ⟨hspares, hbacks, htx⟩ := spares_next h.sound ((h.backs i).of_up hc) hnext
  have hmine : ∀ j n, j ≠ i → (p.calls j).Live (·.txId = some n) → c.txId ≠ some n := by
    intro j n hj hn hown
    refine h.apart j i n hj hn ?_
    rw [hc]
    exact hown
  have hmine' : ∀ j n, j ≠ i → (p.calls j).Live (·.txId = some n) → c'.txId ≠ some n := by
    intro j n hj hn hown
    rcases htx with hnone | hsame | hnew
    · cases hnone.symm.trans hown
    · exact hmine j n hj hn (hsame.symm.trans hown)
    · obtain ⟨cj, hcj, hn⟩ := hn.exists
      have hbegun := begun_of_backs ((h.backs j).of_up hcj) hn
      obtain rfl := Option.some.inj (hnew.symm.trans hown)
      exact lt_irrefl _ hbegun
  refine ⟨hspares.sound h.sound, keeps_update_up hbacks fun j hj => ?_, fun j k n hne hn hn' => ?_⟩
  · cases hcj : p.calls j with
    | up cj =>
      refine hspares.backsCall ((h.backs j).of_up hcj) fun n hn heq => ?_
      refine hmine j n hj ?_ heq.symm
      rw [hcj]
      exact hn
    | down cj => exact trivial
  · rcases live_update_up hn with ⟨rfl, hown⟩ | ⟨hj, hother⟩
    · rcases live_update_up hn' with ⟨rfl, -⟩ | ⟨hk, hother⟩
      · exact hne rfl
      · exact hmine' k n hk hother hown
    · rcases live_update_up hn' with ⟨-, hown⟩ | ⟨-, hother'⟩
      · exact hmine' j n hj hother hown
      · exact h.apart j k n hne hother hother'

theorem delivers_crash {i : ι} {c : Call} (h : Delivers p) :
    Delivers ⟨p.store, Function.update p.calls i (.down c)⟩ := by
  refine ⟨h.sound, keeps_update_down h.backs, fun j k n hne hn hn' => ?_⟩
  exact h.apart j k n hne (live_update_down hn).2 (live_update_down hn').2

omit [DecidableEq ι] in
theorem delivers_env (e : Env) (h : Delivers p) : Delivers ⟨env p.store e, p.calls⟩ := by
  have hspares : p.store.Spares (env p.store e) none := spares_env e
  refine ⟨hspares.sound h.sound, fun i => ?_, h.apart⟩
  exact (h.backs i).imp fun c hb => hspares.backsCall hb nofun

/-- A step keeps the invariant, and spares what is not of its own transaction. -/
theorem delivers_step {m : Move ι Draw Env} (h : Delivers p)
    (hstep : p.step (outboxMachine batchSize) m = some q) :
    Delivers q ∧ ∃ mine, p.store.Spares q.store mine := by
  cases m with
  | run i d =>
    obtain ⟨c, s', c', hc, hnext, rfl⟩ := Pool.step_run hstep
    obtain ⟨hspares, -, -⟩ := spares_next h.sound ((h.backs i).of_up hc) hnext
    exact ⟨delivers_run h hc hnext, c.txId, hspares⟩
  | crash i =>
    obtain ⟨c, hc, rfl⟩ := Pool.step_crash hstep
    exact ⟨delivers_crash h, none, .refl _⟩
  | env e =>
    obtain rfl : (⟨env p.store e, p.calls⟩ : Calls ι) = q := Option.some.inj hstep
    exact ⟨delivers_env e h, none, spares_env e⟩

theorem delivers (h₀ : Delivers p) (h : Run (Pool.step (outboxMachine batchSize)) anyStep p q) :
    Delivers q :=
  h.invariant h₀ fun _ _ _ hI _ hs => (delivers_step hI hs).1

/-- What was not sent stays. -/
theorem kept_run (h₀ : Delivers p) (h : Run (Pool.step (outboxMachine batchSize)) anyStep p q) :
    p.store.channel ⊆ q.store.channel
      ∧ ∀ r ∈ p.store.rows.rows, r ∈ q.store.rows.rows ∨ r.original ∈ q.store.channel := by
  induction h with
  | refl => exact ⟨List.Subset.refl _, fun r hr => Or.inl hr⟩
  | @tail q q' m hq _ hs ih =>
    obtain ⟨-, mine, hspares⟩ := delivers_step (delivers h₀ hq) hs
    refine ⟨List.Subset.trans ih.1 hspares.channel, fun r hr => ?_⟩
    rcases ih.2 r hr with hrow | hsent
    · exact (hspares.kept r hrow).imp_right fun hsent => hspares.channel hsent
    · exact Or.inr (hspares.channel hsent)

/-- **At least once.**  Whatever pollers and clean-ups do in any order, and wherever they crash: a
row that is marked published was sent, in full; a row that was not sent stays, pending; and what a
step deletes was sent and marked. -/
theorem at_least_once (hfresh : ∀ i, (p.calls i).Live fun c => c.fresh) (hsound : p.store.Sound)
    (hrun : Run (Pool.step (outboxMachine batchSize)) anyStep p q) :
    (∀ r ∈ q.store.rows.rows, r.status ≠ .failed
      ∧ (r.status = .published → r.original ∈ q.store.channel))
    ∧ (∀ q', Run (Pool.step (outboxMachine batchSize)) anyStep q q' → ∀ r ∈ q.store.rows.rows,
      r.original ∉ q'.store.channel → r ∈ q'.store.rows.rows ∧ r.status = .pending)
    ∧ ∀ m q', q.step (outboxMachine batchSize) m = some q' → ∀ r ∈ q.store.rows.rows,
      q'.store.rows.find r.id = none → r.status = .published ∧ r.original ∈ q.store.channel := by
  have hq := delivers (delivers_fresh hsound hfresh) hrun
  refine ⟨fun r hr => ?_, fun q' hrest r hr hunsent => ?_, fun m q' hstep r hr hnone => ?_⟩
  · rcases hq.sound r hr with horiginal | ⟨hpublished, hsent⟩
    · rw [OutboxRow.pending_of_original horiginal]
      exact ⟨nofun, nofun⟩
    · rw [hpublished]
      exact ⟨nofun, fun _ => hsent⟩
  · have hrow := ((kept_run hq hrest).2 r hr).resolve_right hunsent
    rcases (delivers hq hrest).sound r hrow with horiginal | ⟨-, hsent⟩
    · exact ⟨hrow, OutboxRow.pending_of_original horiginal⟩
    · exact absurd hsent hunsent
  · obtain ⟨-, mine, hspares⟩ := delivers_step hq hstep
    refine ⟨hspares.purged r hr hnone, (hspares.kept r hr).resolve_left fun hrow => ?_⟩
    cases (Table.find_key hrow).symm.trans hnone

end Runs

/-! ## A poller that crashes -/

def demoRow : OutboxRow := ⟨"e1", "task.created", .pending, 0, 0, none⟩

def demoOutbox : Store := ⟨1000, ⟨[demoRow], by decide⟩, none, 0, [], fun _ => none, []⟩

/-- Two pollers and a clean-up. -/
def demoCalls : Calls (Fin 3) :=
  ⟨demoOutbox, fun i => .up (if i = 2 then .cleanup .purgePublished else .pollCycle .lock)⟩

/-- The first poller crashes before its UPDATE, the second sends the event again. -/
def demoMoves : List (Move (Fin 3) Draw Env) :=
  List.replicate 5 (.run 0 ⟨"a1", .ok⟩) ++ [.crash 0, .env (.abort 0), .env (.tick 10000)]
    ++ List.replicate 7 (.run 1 ⟨"b2", .ok⟩) ++ [.env (.tick (8 * day))]

/-- The event is sent twice, marked, and deleted a week later. -/
theorem event_purged_after_delivery : ∃ (r : OutboxRow) (q q' : Calls (Fin 3)),
    Run (Pool.step (outboxMachine 100)) anyStep demoCalls q ∧ r ∈ q.store.rows.rows
      ∧ q.step (outboxMachine 100) (.run 2 ⟨"c3", .ok⟩) = some q'
      ∧ q'.store.rows.find r.id = none ∧ q.store.channel.length = 2
      ∧ r.status = .published ∧ r.original ∈ q.store.channel := by
  obtain ⟨q, q', hrun, -, hstep, hq⟩ := exists_step_of_exec (Pool.step (outboxMachine 100)) anyStep
    demoCalls demoMoves (.run 2 ⟨"c3", .ok⟩)
    (fun q q' =>
      { demoRow with status := .published, publishedAt := some 11000 } ∈ q.store.rows.rows
      ∧ q'.store.rows.find "e1" = none ∧ q.store.channel.length = 2) (by decide)
  obtain ⟨hrow, hnone, htwice⟩ := of_decide_eq_true hq
  have hsound : demoOutbox.Sound := by
    intro r hr
    obtain rfl := List.mem_singleton.mp hr
    exact Or.inl rfl
  have hdone := (at_least_once (by decide) hsound hrun).2.2 _ q' hstep _ hrow hnone
  exact ⟨_, q, q', hrun, hrow, hstep, hnone, htwice, hdone⟩

end WorkPlatform.Outbox

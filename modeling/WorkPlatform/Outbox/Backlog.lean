import WorkPlatform.Outbox.Poller

/-!
# Outbox/Backlog — how long one poller takes for a backlog

    SET NX ▸ batch ▸ COMMIT ▸ 10 ms ▸ SET NX ▸ batch ▸ COMMIT ▸ 10 ms ▸ …

A full batch is followed by the next cycle 10 ms later.  The lock of the cycle before is not handed
back, and it lasts ten seconds: the next cycle has a token of its own, is refused, and waits as it
does after a partial batch.  A backlog of `n` events takes `⌈n / batchSize⌉` cycles just where
every full cycle takes nearly as long as its lock lasts (`drains_iff`).
-/

namespace WorkPlatform.Outbox

open Machinery

/-! ## The loop -/

def fullBatchDelay : ℕ := 10

def partialBatchDelay : ℕ := 5000

def maxBackoff : ℕ := 60000

def Store.elapse (s : Store) (ms : ℕ) : Store := { s with now := s.now + ms }

/-- What a cycle draws: its token, the time that passes before each of its statements and before it
returns, and what becomes of each. -/
structure Cycle where
  instanceId : String
  lag : ℕ → ℕ
  reply : ℕ → Reply

/-- The statements of a cycle from the `i`-th on. -/
def pollStatements (batchSize : ℕ) (c : Cycle) : ℕ → ℕ → Store × PollPc → Store × PollPc
  | 0, _, x => x
  | fuel + 1, i, x =>
    match pollNext batchSize (x.1.elapse (c.lag i)) ⟨c.instanceId, c.reply i⟩ x.2 with
    | some y => pollStatements batchSize c fuel (i + 1) y
    | none => (x.1.elapse (c.lag i), x.2)

/-- Seven statements around the batch, and the return. -/
def pollCycle (batchSize : ℕ) (c : Cycle) (s : Store) : Store × PollPc :=
  pollStatements batchSize c (batchSize + 8) 0 (s, .lock)

structure Loop where
  store : Store
  consecutiveErrors : ℕ

/-- The delay until the next cycle. -/
def delay (isFull : Bool) (consecutiveErrors : ℕ) : ℕ :=
  if isFull then fullBatchDelay
  else if 0 < consecutiveErrors then
    min (partialBatchDelay * 2 ^ (consecutiveErrors - 1)) maxBackoff
  else partialBatchDelay

/-- A cycle, and the time until the next. -/
def loop (batchSize : ℕ) (c : Cycle) (l : Loop) : Loop :=
  match pollCycle batchSize c l.store with
  | (s, .returned isFull) => ⟨s.elapse (delay isFull 0), 0⟩
  | (s, _) => ⟨s.elapse (delay false (l.consecutiveErrors + 1)), l.consecutiveErrors + 1⟩

/-- After `k` cycles. -/
def loops (batchSize : ℕ) (cycles : ℕ → Cycle) (l : Loop) : ℕ → Loop
  | 0 => l
  | k + 1 => loop batchSize (cycles k) (loops batchSize cycles l k)

/-! ## One cycle -/

/-- From the SET of a cycle to its `i`-th statement. -/
def Cycle.since (c : Cycle) : ℕ → ℕ
  | 0 => 0
  | i + 1 => c.since i + c.lag (i + 1)

def Cycle.Answered (c : Cycle) : Prop := ∀ i, c.reply i = .ok

namespace Store

def pending (s : Store) : List OutboxRow := s.rows.rows.filter (·.status = .pending)

/-- The oldest events of the backlog. -/
def batch (s : Store) (batchSize : ℕ) : List OutboxRow :=
  (s.pending.insertionSort fun a b => a.createdAt ≤ b.createdAt).take batchSize

/-- No row is locked, and what is pending is more than 100 ms old. -/
structure Ready (s : Store) : Prop where
  unlocked : ∀ id, s.rowLocks id = none
  old : ∀ r ∈ s.rows.rows, r.status = .pending → r.occurredAt + 100 < s.now

def clock (s : Store) (now : ℕ) : Store := { s with now := now }

end Store

section Cycle

variable {batchSize fuel i t : ℕ} {c : Cycle} {s s' : Store} {pc : PollPc}

/-- A poll of a store that is ready selects its batch. -/
theorem select_of_ready (h : s.Ready) {s' : Store} {tx : Tx} (hrows : s'.rows = s.rows)
    (hlocks : s'.rowLocks = s.rowLocks) (htx : s.now ≤ tx.startedAt) :
    s'.select batchSize tx = s.batch batchSize := by
  have hfilter : s'.rows.rows.filter (s'.eligible tx) = s.pending := by
    rw [hrows]
    refine List.filter_congr fun r hr => ?_
    refine decide_eq_decide.mpr ⟨fun hel => hel.1, fun hpending => ⟨hpending, ?_, ?_⟩⟩
    · exact (h.old r hr hpending).trans_le htx
    · rw [hlocks, h.unlocked r.id, Option.isNone_none]
  unfold Store.select Store.batch
  rw [hfilter]

theorem clock_elapse :
    (s.clock (t + c.since i)).elapse (c.lag (i + 1)) = s.clock (t + c.since (i + 1)) :=
  congrArg s.clock (Nat.add_assoc _ _ _)

theorem statements_at (hok : c.Answered) {x : Store × PollPc}
    (h : pollNext batchSize (s.clock (t + c.since (i + 1))) ⟨c.instanceId, .ok⟩ pc = some x) :
    pollStatements batchSize c (fuel + 1) (i + 1) (s.clock (t + c.since i), pc)
      = pollStatements batchSize c fuel (i + 2) x := by
  rw [pollStatements, hok (i + 1), clock_elapse]
  simp only [h]

theorem statements_returned {isFull : Bool} :
    pollStatements batchSize c (fuel + 1) (i + 1) (s.clock (t + c.since i), .returned isFull)
      = (s.clock (t + c.since (i + 1)), .returned isFull) := by
  rw [pollStatements, clock_elapse]
  simp only [pollNext]

/-- The loop over the batch. -/
theorem statements_publish (hok : c.Answered) {tx : Tx} {events : List OutboxRow} :
    ∀ (rest : List OutboxRow) (event : OutboxRow) (s : Store) (i : ℕ),
    pollStatements batchSize c (fuel + (rest.length + 1)) (i + 1)
        (s.clock (t + c.since i), .publish tx events event rest)
      = pollStatements batchSize c fuel (i + (rest.length + 1) + 1)
        (({ s with channel := (event :: rest).reverse ++ s.channel } : Store).clock
          (t + c.since (i + (rest.length + 1))), .update tx events)
  | [], event, s, i => statements_at hok rfl
  | event' :: rest, event, s, i => by
      refine Eq.trans (statements_at hok rfl :
        pollStatements batchSize c (fuel + (rest.length + 1) + 1) (i + 1) _ = _) ?_
      refine (statements_publish hok rest event' (s.publish event) (i + 1)).trans ?_
      have hindex : i + 1 + (rest.length + 1) = i + ((event' :: rest).length + 1) := by
        rw [List.length_cons]
        omega
      have hchannel : (event' :: rest).reverse ++ event :: s.channel
          = (event :: event' :: rest).reverse ++ s.channel := by
        simp
      rw [hindex]
      unfold Store.publish
      dsimp only
      rw [hchannel]

theorem batch_length_le : (s.batch batchSize).length ≤ batchSize := List.length_take_le _ _

theorem batch_length : (s.batch batchSize).length = min batchSize s.pending.length := by
  unfold Store.batch
  rw [List.length_take, List.length_insertionSort]

/-- **A cycle that has published a batch.** -/
structure Worked (batchSize : ℕ) (c : Cycle) (s s' : Store) : Prop where
  time : s'.now = s.now + c.lag 0 + c.since ((s.batch batchSize).length + 6)
  rows : ∃ tx, s'.rows =
    s.rows.map (·.mark tx (s.batch batchSize)) (OutboxRow.mark_id tx (s.batch batchSize))
  lock : s'.lock = some ⟨c.instanceId, s.now + c.lag 0 + lockTtl⟩
  unlocked : ∀ id, s'.rowLocks id = none
  sent : ∀ r, r ∈ s.batch batchSize ∨ r ∈ s.channel → r ∈ s'.channel

/-- The COMMIT frees what the transaction has locked. -/
theorem unlocked_commit {tx : Tx} {events : List OutboxRow} (h : ∀ id, s.rowLocks id = none)
    (id : String) : ((s.lockRows tx events).commit tx events).rowLocks id = none := by
  by_cases hid : id ∈ events.map (·.id)
  · exact if_pos (if_pos hid)
  · have hsame : (s.lockRows tx events).rowLocks id = none := (if_neg hid).trans (h id)
    refine (if_neg fun hmine => ?_).trans hsame
    cases hsame.symm.trans hmine

/-- A cycle that gets the lock, with a backlog before it. -/
theorem pollCycle_worked (hok : c.Answered) (hready : s.Ready)
    (hfree : (s.elapse (c.lag 0)).lockFree = true) (hpending : s.batch batchSize ≠ []) :
    ∃ s', pollCycle batchSize c s = (s', .returned (batchSize ≤ (s.batch batchSize).length))
      ∧ Worked batchSize c s s' := by
  obtain ⟨event, rest, hevents⟩ := List.exists_cons_of_ne_nil hpending
  let t := s.now + c.lag 0
  let tx : Tx := ⟨s.nextTx, t + c.since 2⟩
  let events := s.batch batchSize
  let s₁ : Store := { s with lock := some ⟨c.instanceId, t + lockTtl⟩ }
  let s₂ : Store := s₁.begin.lockRows tx events
  let s₃ : Store := { s₂ with channel := events.reverse ++ s.channel }
  have hselect : (s₁.begin.clock (t + c.since 3)).select batchSize tx = events :=
    select_of_ready hready rfl rfl ((Nat.le_add_right _ _).trans (Nat.le_add_right _ _))
  have hlength : events.length = rest.length + 1 := congrArg List.length hevents
  have hle : events.length ≤ batchSize := batch_length_le
  obtain ⟨fuel, hfuel⟩ := Nat.exists_eq_add_of_le hle
  have hrun : pollCycle batchSize c s
      = ((s₃.commit tx events).clock (t + c.since (events.length + 6)),
        .returned (batchSize ≤ events.length)) :=
    calc pollCycle batchSize c s
      _ = pollStatements batchSize c (batchSize + 7) 1 (s₁.clock (t + c.since 0), .connect) := by
          have hset : pollNext batchSize (s.elapse (c.lag 0)) ⟨c.instanceId, .ok⟩ .lock
              = some (s₁.clock (t + c.since 0), .connect) := by
            have hacquire : (s.elapse (c.lag 0)).acquire c.instanceId = s₁.clock (t + c.since 0) :=
              rfl
            rw [pollNext, if_pos ⟨rfl, hfree⟩, if_neg fun h => h rfl, if_pos hfree, hacquire]
          rw [pollCycle, pollStatements, hok 0]
          simp only [hset]
      _ = pollStatements batchSize c (batchSize + 6) 2 (s₁.clock (t + c.since 1), .begin) :=
          statements_at hok rfl
      _ = pollStatements batchSize c (batchSize + 5) 3
            (s₁.begin.clock (t + c.since 2), .select tx) := statements_at hok rfl
      _ = pollStatements batchSize c (batchSize + 4) 4
            (s₂.clock (t + c.since 3), .selected tx events) := by
          refine statements_at hok ?_
          rw [pollNext, hselect]
          exact if_pos ⟨List.mem_cons_self, rfl⟩
      _ = pollStatements batchSize c (fuel + 4) (3 + (rest.length + 1) + 1)
            (s₃.clock (t + c.since (3 + (rest.length + 1))), .update tx events) := by
          have hstart : PollPc.selected tx events = .publish tx events event rest :=
            (congrArg (PollPc.selected tx) hevents).trans
              (congrArg (fun l => PollPc.publish tx l event rest) hevents.symm)
          have hsent : events.reverse ++ s.channel = (event :: rest).reverse ++ s₂.channel :=
            congrArg (fun l : List OutboxRow => l.reverse ++ s.channel) hevents
          rw [hstart, show batchSize + 4 = fuel + 4 + (rest.length + 1) by omega]
          refine (statements_publish hok rest event s₂ 3).trans ?_
          rw [← hsent]
      _ = pollStatements batchSize c (fuel + 3) (3 + (rest.length + 1) + 2)
            (s₃.clock (t + c.since (3 + (rest.length + 1) + 1)), .commit tx events) := by
          refine statements_at hok ?_
          exact congrArg (fun pc => some (_, pc)) (if_pos ⟨List.mem_cons_self, rfl⟩)
      _ = pollStatements batchSize c (fuel + 2) (3 + (rest.length + 1) + 3)
            ((s₃.commit tx events).clock (t + c.since (3 + (rest.length + 1) + 2)),
              .returned (batchSize ≤ events.length)) := by
          refine statements_at hok ?_
          exact if_pos ⟨List.mem_cons_self, rfl⟩
      _ = ((s₃.commit tx events).clock (t + c.since (events.length + 6)),
            .returned (batchSize ≤ events.length)) := by
          rw [show events.length + 6 = 3 + (rest.length + 1) + 3 by omega]
          exact statements_returned
  refine ⟨_, hrun, ⟨rfl, ⟨tx, rfl⟩, rfl, ?_, ?_⟩⟩
  · exact unlocked_commit hready.unlocked
  · intro r hr
    refine List.mem_append.mpr (hr.imp_left fun hbatch => ?_)
    exact List.mem_reverse.mpr hbatch

/-- A cycle that does not get the lock. -/
theorem pollCycle_refused (hok : c.Answered) (h : (s.elapse (c.lag 0)).lockFree = false) :
    pollCycle batchSize c s = ((s.elapse (c.lag 0)).elapse (c.lag 1), .returned false) := by
  have hset : pollNext batchSize (s.elapse (c.lag 0)) ⟨c.instanceId, .ok⟩ .lock
      = some (s.elapse (c.lag 0), .returned false) := by
    rw [pollNext, if_neg fun hset => ne_true_of_eq_false h hset.2, if_neg fun hne => hne rfl,
      if_neg (ne_true_of_eq_false h)]
  rw [pollCycle, pollStatements, hok 0]
  simp only [hset]
  rw [pollStatements]
  simp only [pollNext]

end Cycle

/-! ## What is left of a backlog -/

section Left

variable {batchSize : ℕ} {c : Cycle} {s₀ s s' : Store} {r : OutboxRow}

theorem mem_pending : r ∈ s.pending ↔ r ∈ s.rows.rows ∧ r.status = .pending := by
  unfold Store.pending
  rw [List.mem_filter, decide_eq_true_iff]

theorem pending_of_mem_batch (h : r ∈ s.batch batchSize) : r ∈ s.pending :=
  (List.mem_insertionSort _).mp (List.mem_of_mem_take h)

theorem mark_eq_of_pending {tx : Tx} {events : List OutboxRow}
    (h : (r.mark tx events).status = .pending) :
    r.mark tx events = r ∧ r.id ∉ events.map (·.id) := by
  unfold OutboxRow.mark at h ⊢
  split at h
  · cases h
  · rename_i hnot
    exact ⟨if_neg hnot, hnot⟩

/-- What is pending after an UPDATE. -/
theorem filter_mark (tx : Tx) (events rows : List OutboxRow) :
    (rows.map (·.mark tx events)).filter (·.status = .pending)
      = (rows.filter (·.status = .pending)).filter (fun r => r.id ∉ events.map (·.id)) := by
  have hmark : ∀ r ∈ rows, decide ((r.mark tx events).status = .pending)
      = (decide (r.id ∉ events.map (·.id)) && decide (r.status = .pending)) := by
    intro r _
    by_cases hid : r.id ∈ events.map (·.id)
    · rw [OutboxRow.mark, if_pos hid, decide_eq_false (not_not.mpr hid), Bool.false_and]
      exact decide_eq_false nofun
    · rw [OutboxRow.mark, if_neg hid, decide_eq_true hid, Bool.true_and]
  have hsame : ∀ r ∈ rows.filter fun r => decide (r.id ∉ events.map (·.id))
      && decide (r.status = .pending), r.mark tx events = r := by
    intro r hr
    obtain ⟨hid, -⟩ := Bool.and_eq_true_iff.mp (List.mem_filter.mp hr).2
    exact if_neg (of_decide_eq_true hid)
  rw [List.filter_map, List.filter_filter]
  refine (congrArg _ (List.filter_congr hmark)).trans ?_
  exact (List.map_congr_left hsame).trans (List.map_id' _)

/-- The rows of a list with keys of their own that are not of its first `n`. -/
theorem filter_not_mem_take {α κ : Type*} [DecidableEq κ] {key : α → κ} {l : List α}
    (h : (l.map key).Nodup) (n : ℕ) :
    l.filter (fun a => key a ∉ (l.take n).map key) = l.drop n := by
  have hsplit : (l.take n).map key ++ (l.drop n).map key = l.map key := by
    rw [← List.map_append, List.take_append_drop]
  rw [← hsplit, List.nodup_append] at h
  conv_lhs => rw [← List.take_append_drop n l, List.filter_append, List.take_append_drop]
  have hfirst : (l.take n).filter (fun a => key a ∉ (l.take n).map key) = [] :=
    List.filter_eq_nil_iff.mpr fun a ha hkept =>
      of_decide_eq_true hkept (List.mem_map_of_mem ha)
  have hrest : (l.drop n).filter (fun a => key a ∉ (l.take n).map key) = l.drop n :=
    List.filter_eq_self.mpr fun a ha =>
      decide_eq_true fun hmem => h.2.2 _ hmem _ (List.mem_map_of_mem ha) rfl
  rw [hfirst, hrest, List.nil_append]

/-- Such a cycle takes a batch off the backlog. -/
theorem pending_worked (h : Worked batchSize c s s') :
    s'.pending.length = s.pending.length - batchSize := by
  obtain ⟨tx, hrows⟩ := h.rows
  let sorted := s.pending.insertionSort fun a b => a.createdAt ≤ b.createdAt
  have hperm : sorted.Perm s.pending := List.perm_insertionSort _ _
  have hkeys : (sorted.map (·.id)).Nodup := by
    refine (hperm.map _).nodup_iff.mpr ?_
    exact (List.filter_sublist.map _).nodup s.rows.keys_nodup
  have hleft :
      s'.pending = s.pending.filter fun r => r.id ∉ (sorted.take batchSize).map (·.id) := by
    unfold Store.pending
    rw [hrows]
    exact filter_mark tx (s.batch batchSize) s.rows.rows
  rw [hleft, ← (hperm.filter _).length_eq, filter_not_mem_take hkeys, List.length_drop,
    hperm.length_eq]

/-- The events of the backlog `s₀` are still there, or published. -/
structure Follows (s₀ s : Store) : Prop where
  kept : ∀ r ∈ s₀.pending, r ∈ s.rows.rows
    ∨ r ∈ s.channel ∧ ∃ r' ∈ s.rows.rows, r'.id = r.id ∧ r'.status = .published
  left : ∀ r ∈ s.pending, r ∈ s₀.pending

/-- A cycle takes its batch off the front of the backlog. -/
theorem Follows.worked (hf : Follows s₀ s) (h : Worked batchSize c s s') : Follows s₀ s' := by
  obtain ⟨tx, hrows⟩ := h.rows
  refine ⟨fun r hr => ?_, fun r hr => ?_⟩
  · rcases hf.kept r hr with hrow | ⟨hsent, r', hr', hid, hpublished⟩
    · by_cases hbatch : r.id ∈ (s.batch batchSize).map (·.id)
      · obtain ⟨e, he, hid⟩ := List.mem_map.mp hbatch
        have hmem := (mem_pending.mp (pending_of_mem_batch he)).1
        have hsame : e = r := List.inj_on_of_nodup_map s.rows.keys_nodup hmem hrow hid
        refine Or.inr ⟨h.sent r (Or.inl (hsame ▸ he)), r.mark tx (s.batch batchSize), ?_, ?_, ?_⟩
        · rw [hrows]
          exact List.mem_map_of_mem hrow
        · exact OutboxRow.mark_id _ _ r
        · rw [OutboxRow.mark, if_pos hbatch]
      · refine Or.inl ?_
        rw [hrows]
        exact List.mem_map.mpr ⟨r, hrow, if_neg hbatch⟩
    · refine Or.inr ⟨h.sent r (Or.inr hsent), r'.mark tx (s.batch batchSize), ?_, ?_, ?_⟩
      · rw [hrows]
        exact List.mem_map_of_mem hr'
      · rw [OutboxRow.mark_id, hid]
      · unfold OutboxRow.mark
        split
        · rfl
        · exact hpublished
  · obtain ⟨hmem, hpending⟩ := mem_pending.mp hr
    rw [hrows] at hmem
    obtain ⟨x, hx, rfl⟩ := List.mem_map.mp hmem
    obtain ⟨hsame, -⟩ := mark_eq_of_pending hpending
    rw [hsame] at hpending ⊢
    exact hf.left x (mem_pending.mpr ⟨hx, hpending⟩)

/-- Such a cycle leaves the store ready. -/
theorem Store.Ready.worked (hready : s.Ready) (h : Worked batchSize c s s') : s'.Ready := by
  obtain ⟨tx, hrows⟩ := h.rows
  refine ⟨h.unlocked, fun r hr hpending => ?_⟩
  rw [hrows] at hr
  obtain ⟨x, hx, rfl⟩ := List.mem_map.mp hr
  obtain ⟨hsame, -⟩ := mark_eq_of_pending hpending
  have hlate := h.time
  rw [hsame] at hpending ⊢
  have hold := hready.old x hx hpending
  omega

theorem Store.Ready.elapse (h : s.Ready) (ms : ℕ) : (s.elapse ms).Ready :=
  ⟨h.unlocked, fun r hr hpending => (h.old r hr hpending).trans_le (Nat.le_add_right _ _)⟩

end Left

/-! ## The cycles of a backlog -/

/-- `⌈n / batchSize⌉`. -/
def cycleCount (n batchSize : ℕ) : ℕ := (n + batchSize - 1) / batchSize

theorem lt_cycleCount {k n batchSize : ℕ} (hb : 0 < batchSize) :
    k < cycleCount n batchSize ↔ k * batchSize < n := by
  unfold cycleCount
  rw [← Nat.succ_le_iff, Nat.le_div_iff_mul_le hb, Nat.succ_mul]
  omega

/-- **The backlog is published in `⌈n / batchSize⌉` cycles**, each but the last with a full batch
and so 10 ms before the next. -/
structure Drains (batchSize : ℕ) (cycles : ℕ → Cycle) (l : Loop) : Prop where
  full : ∀ k, k + 1 < cycleCount l.store.pending.length batchSize →
    (pollCycle batchSize (cycles k) (loops batchSize cycles l k).store).2 = .returned true
  published : ∀ r ∈ l.store.pending,
    let s := (loops batchSize cycles l (cycleCount l.store.pending.length batchSize)).store
    r ∈ s.channel ∧ ∃ r' ∈ s.rows.rows, r'.id = r.id ∧ r'.status = .published

/-- From one SET to the next the lock of a full cycle expires. -/
def Outlasts (batchSize : ℕ) (c next : Cycle) : Prop :=
  lockTtl ≤ c.since (batchSize + 6) + fullBatchDelay + next.lag 0

section Cycles

variable {batchSize k : ℕ} {cycles : ℕ → Cycle} {l : Loop}

/-- The SET of cycle `k` is not refused. -/
def Free (batchSize : ℕ) (cycles : ℕ → Cycle) (l : Loop) (k : ℕ) : Prop :=
  ((loops batchSize cycles l k).store.elapse ((cycles k).lag 0)).lockFree = true

/-- **The invariant**: after `k` full batches. -/
structure InTime (batchSize : ℕ) (cycles : ℕ → Cycle) (l : Loop) (k : ℕ) : Prop where
  ready : (loops batchSize cycles l k).store.Ready
  follows : Follows l.store (loops batchSize cycles l k).store
  count : (loops batchSize cycles l k).store.pending.length
    = l.store.pending.length - k * batchSize

/-- A cycle that gets the lock. -/
theorem loops_worked (hok : (cycles k).Answered) (hb : 0 < batchSize)
    (h : InTime batchSize cycles l k) (hfree : Free batchSize cycles l k)
    (hleft : k * batchSize < l.store.pending.length) :
    ∃ s', Worked batchSize (cycles k) (loops batchSize cycles l k).store s'
      ∧ (pollCycle batchSize (cycles k) (loops batchSize cycles l k).store).2
        = .returned (batchSize ≤ (l.store.pending.length - k * batchSize))
      ∧ (loops batchSize cycles l (k + 1)).store
        = s'.elapse (delay (batchSize ≤ l.store.pending.length - k * batchSize) 0) := by
  have hlength : ((loops batchSize cycles l k).store.batch batchSize).length
      = min batchSize (l.store.pending.length - k * batchSize) := by
    rw [batch_length, h.count]
  have hbatch : (loops batchSize cycles l k).store.batch batchSize ≠ [] := by
    intro hnil
    rw [hnil, List.length_nil] at hlength
    omega
  obtain ⟨s', hrun, hworked⟩ := pollCycle_worked hok h.ready hfree hbatch
  have hfull : decide (batchSize ≤ ((loops batchSize cycles l k).store.batch batchSize).length)
      = decide (batchSize ≤ l.store.pending.length - k * batchSize) := by
    rw [hlength]
    exact decide_eq_decide.mpr (by omega)
  rw [hfull] at hrun
  refine ⟨s', hworked, congrArg Prod.snd hrun, ?_⟩
  simp only [loops, loop, hrun]

/-- A cycle that does not. -/
theorem loops_refused (hok : (cycles k).Answered) (hfree : ¬ Free batchSize cycles l k) :
    (pollCycle batchSize (cycles k) (loops batchSize cycles l k).store).2 = .returned false
      ∧ (loops batchSize cycles l (k + 1)).store.rows
        = (loops batchSize cycles l k).store.rows := by
  have hrun : pollCycle batchSize (cycles k) (loops batchSize cycles l k).store = _ :=
    pollCycle_refused hok (eq_false_of_ne_true hfree)
  refine ⟨congrArg Prod.snd hrun, ?_⟩
  simp only [loops, loop, hrun, Store.elapse]

/-- A cycle that finds the lock free takes one more full batch. -/
theorem inTime_succ (hok : (cycles k).Answered) (hb : 0 < batchSize)
    (h : InTime batchSize cycles l k) (hfree : Free batchSize cycles l k)
    (hleft : k * batchSize < l.store.pending.length) : InTime batchSize cycles l (k + 1) := by
  obtain ⟨s', hworked, -, hstore⟩ := loops_worked hok hb h hfree hleft
  refine ⟨?_, ?_, ?_⟩
  all_goals rw [hstore]
  · exact (h.ready.worked hworked).elapse _
  · have hfollows := h.follows.worked hworked
    exact ⟨hfollows.kept, hfollows.left⟩
  · have hcount := pending_worked hworked
    rw [h.count, Nat.sub_sub, ← Nat.succ_mul] at hcount
    exact hcount

/-- The SET of the next cycle is not refused exactly where the lock has expired by then. -/
theorem free_succ (hok : (cycles k).Answered) (hb : 0 < batchSize)
    (h : InTime batchSize cycles l k) (hfree : Free batchSize cycles l k)
    (hleft : (k + 1) * batchSize < l.store.pending.length) :
    Free batchSize cycles l (k + 1) ↔ Outlasts batchSize (cycles k) (cycles (k + 1)) := by
  have hsucc := Nat.add_one_mul k batchSize
  have hfull : batchSize ≤ l.store.pending.length - k * batchSize := by omega
  obtain ⟨s', hworked, -, hstore⟩ := loops_worked hok hb h hfree (by omega)
  have hlength : ((loops batchSize cycles l k).store.batch batchSize).length = batchSize := by
    rw [batch_length, h.count]
    omega
  have htime := hworked.time
  rw [hlength] at htime
  have hdelay : delay (batchSize ≤ l.store.pending.length - k * batchSize) 0 = fullBatchDelay :=
    if_pos (decide_eq_true hfull)
  unfold Free Outlasts
  rw [hstore, hdelay, Store.lockFree]
  have hlock : ((s'.elapse fullBatchDelay).elapse ((cycles (k + 1)).lag 0)).lock = s'.lock := rfl
  rw [hlock, hworked.lock, Option.all_some, decide_eq_true_iff]
  unfold Store.elapse
  dsimp only
  omega

/-- Where every lock has expired by the next SET, each cycle takes its batch. -/
theorem inTime_of_outlasts (hok : ∀ k, (cycles k).Answered) (hb : 0 < batchSize)
    (hready : l.store.Ready) (hfree : Free batchSize cycles l 0) :
    ∀ k, k * batchSize < l.store.pending.length →
      (∀ j < k, Outlasts batchSize (cycles j) (cycles (j + 1))) →
      InTime batchSize cycles l k ∧ Free batchSize cycles l k
  | 0, _, _ => by
      have hcount : l.store.pending.length - 0 * batchSize = l.store.pending.length := by
        rw [Nat.zero_mul, Nat.sub_zero]
      have hfollows : Follows l.store l.store :=
        ⟨fun r hr => Or.inl (mem_pending.mp hr).1, fun r hr => hr⟩
      exact ⟨⟨hready, hfollows, hcount.symm⟩, hfree⟩
  | k + 1, hleft, hlong => by
      have hsucc := Nat.add_one_mul k batchSize
      have hk : k * batchSize < l.store.pending.length := by omega
      obtain ⟨hintime, hset⟩ := inTime_of_outlasts hok hb hready hfree k hk
        fun j hj => hlong j (Nat.lt_succ_of_lt hj)
      refine ⟨inTime_succ (hok k) hb hintime hset hk, ?_⟩
      exact (free_succ (hok k) hb hintime hset hleft).mpr (hlong k (Nat.lt_succ_self k))

theorem lockFree_elapse {s : Store} {ms : ℕ} (h : s.lockFree = true) :
    (s.elapse ms).lockFree = true := by
  unfold Store.lockFree Store.elapse at *
  cases hlock : s.lock with
  | none => rfl
  | some lock =>
    rw [hlock] at h
    exact decide_eq_true ((of_decide_eq_true h).trans (Nat.le_add_right _ _))

/-- A row with the id of a pending one. -/
theorem not_published_of_pending {s : Store} {r r' : OutboxRow} (hr : r ∈ s.pending)
    (hr' : r' ∈ s.rows.rows) (hid : r'.id = r.id) : r'.status ≠ .published := by
  obtain ⟨hmem, hpending⟩ := mem_pending.mp hr
  obtain rfl := List.inj_on_of_nodup_map s.rows.keys_nodup hr' hmem hid
  rw [hpending]
  nofun

/-- So the backlog drains. -/
theorem drains_of_outlasts (hok : ∀ k, (cycles k).Answered) (hb : 0 < batchSize)
    (hready : l.store.Ready) (hfree : Free batchSize cycles l 0)
    (hlong : ∀ k, k + 1 < cycleCount l.store.pending.length batchSize →
      Outlasts batchSize (cycles k) (cycles (k + 1))) : Drains batchSize cycles l := by
  have hreach := inTime_of_outlasts hok hb hready hfree
  refine ⟨fun k hk => ?_, fun r hr => ?_⟩
  · have hleft : (k + 1) * batchSize < l.store.pending.length := (lt_cycleCount hb).mp hk
    have hsucc := Nat.add_one_mul k batchSize
    obtain ⟨hintime, hset⟩ := hreach k (by omega) fun j hj => hlong j (by omega)
    obtain ⟨-, -, hreturned, -⟩ := loops_worked (hok k) hb hintime hset (by omega)
    rw [hreturned, decide_eq_true (by omega)]
  · have hpos : 0 * batchSize < l.store.pending.length := by
      rw [Nat.zero_mul]
      exact List.length_pos_of_mem hr
    obtain ⟨k, hcycles⟩ := Nat.exists_eq_succ_of_ne_zero ((lt_cycleCount hb).mpr hpos).ne'
    have hleft : k * batchSize < l.store.pending.length := (lt_cycleCount hb).mp (by omega)
    have hlast : ¬ (k + 1) * batchSize < l.store.pending.length := by
      rw [← lt_cycleCount hb]
      omega
    obtain ⟨hintime, hset⟩ := hreach k hleft fun j hj => hlong j (by omega)
    have hend := inTime_succ (hok k) hb hintime hset hleft
    rw [hcycles]
    refine (hend.follows.kept r hr).resolve_left fun hrow => ?_
    have hstill := List.length_pos_of_mem (mem_pending.mpr ⟨hrow, (mem_pending.mp hr).2⟩)
    rw [hend.count] at hstill
    omega

/-- And it drains in no other way. -/
theorem outlasts_of_drains (hok : ∀ k, (cycles k).Answered) (hb : 0 < batchSize)
    (hready : l.store.Ready) (hfree : Free batchSize cycles l 0) (h : Drains batchSize cycles l)
    (k : ℕ) (hk : k + 1 < cycleCount l.store.pending.length batchSize) :
    Outlasts batchSize (cycles k) (cycles (k + 1)) := by
  induction k using Nat.strong_induction_on with
  | _ k ih =>
    have hleft : (k + 1) * batchSize < l.store.pending.length := (lt_cycleCount hb).mp hk
    have hsucc := Nat.add_one_mul k batchSize
    obtain ⟨hintime, hset⟩ := inTime_of_outlasts hok hb hready hfree k (by omega)
      fun j hj => ih j hj (by omega)
    rw [← free_succ (hok k) hb hintime hset hleft]
    by_contra hrefused
    obtain ⟨hreturned, hrows⟩ := loops_refused (hok (k + 1)) hrefused
    by_cases hlast : k + 1 + 1 < cycleCount l.store.pending.length batchSize
    · cases hreturned.symm.trans (h.full (k + 1) hlast)
    -- The last cycle is refused: what it should have published is still pending.
    · have hcycles : cycleCount l.store.pending.length batchSize = k + 1 + 1 := by omega
      have hnext := inTime_succ (hok k) hb hintime hset (by omega)
      have hsome : (loops batchSize cycles l (k + 1)).store.pending ≠ [] := by
        intro hnil
        have hcount := hnext.count
        rw [hnil, List.length_nil] at hcount
        omega
      obtain ⟨r, hr⟩ := List.exists_mem_of_ne_nil _ hsome
      obtain ⟨-, r', hr', hid, hpublished⟩ := h.published r (hnext.follows.left r hr)
      rw [hcycles, hrows] at hr'
      exact not_published_of_pending hr hr' hid hpublished

/-- **How long a backlog takes**: it is published in `⌈n / batchSize⌉` cycles just if each full
cycle with more to come lasts until its lock has expired. -/
theorem drains_iff (hok : ∀ k, (cycles k).Answered) (hb : 0 < batchSize) (hready : l.store.Ready)
    (hlock : l.store.lockFree = true) : Drains batchSize cycles l
      ↔ ∀ k, k + 1 < cycleCount l.store.pending.length batchSize →
        Outlasts batchSize (cycles k) (cycles (k + 1)) := by
  have hfree : Free batchSize cycles l 0 := lockFree_elapse hlock
  exact ⟨outlasts_of_drains hok hb hready hfree, drains_of_outlasts hok hb hready hfree⟩

end Cycles

/-! ## Three events, two at a time -/

/-- Three events that nobody has published. -/
def demoBacklog : Loop :=
  ⟨⟨5000, ⟨[⟨"e1", "task.created", .pending, 0, 0, none⟩,
    ⟨"e2", "task.updated", .pending, 10, 10, none⟩,
    ⟨"e3", "task.deleted", .pending, 20, 20, none⟩], by decide⟩, none, 0, [], fun _ => none, []⟩, 0⟩

/-- Cycles whose statements take `ms` each. -/
def demoCycles (ms k : ℕ) : Cycle := ⟨toString k, fun _ => ms, fun _ => .ok⟩

theorem demoBacklog_ready : demoBacklog.store.Ready := ⟨fun _ => rfl, by decide⟩

/-- At two seconds a statement, two cycles publish the three events. -/
theorem slow_cycles_drain : Drains 2 (demoCycles 2000) demoBacklog := by
  refine (drains_iff (fun k i => rfl) (by decide) demoBacklog_ready rfl).mpr fun k _ => ?_
  simp [Outlasts, lockTtl, fullBatchDelay, Cycle.since, demoCycles]

/-- At one millisecond a statement the second cycle is refused, and the third event is pending. -/
theorem quick_cycle_refused : ¬ Drains 2 (demoCycles 1) demoBacklog := by
  intro h
  have hpublished := h.published ⟨"e3", "task.deleted", .pending, 20, 20, none⟩ (by decide)
  revert hpublished
  decide

end WorkPlatform.Outbox

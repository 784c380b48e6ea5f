import WorkPlatform.Realtime.ChatEvents

/-!
# Realtime/AckRetry — to whom a message is sent again

    fetchSockets ──▸ emit to each ──▸ all called back, or 5 s ──▸ one has? ──yes──▸ done
         ▴                                                            │ no
         └──────────────── 5 s later, at most three times ────────────┘

One flag stands for all the sockets of the room, and it is read before the late callbacks come.  So
a socket that stays silent is given up as soon as another one answers, and one that answers late is
sent the message again.  The loop does as it should exactly where neither happens
(`ack_retry_iff`).
-/

namespace WorkPlatform.Realtime

/-- `ACK_RETRY_MS`. -/
def ackRetryMs : ℕ := 5000

/-- What a run meets: the sockets of the room at each attempt and the time it takes to fetch them,
and how long after an emission the socket calls back. -/
structure Network (σ : Type*) where
  fetchSockets : ℕ → List σ
  fetched : ℕ → ℕ
  ack : ℕ → σ → Option ℕ

/-- One `socket.emit`. -/
structure SocketEmit (σ : Type*) where
  attempt : ℕ
  socket : σ
  sentAt : ℕ

namespace Network

variable {σ : Type*} (net : Network σ)

/-- The callback of an attempt comes before its timer. -/
def acksInTime (attempt : ℕ) (s : σ) : Bool := (net.ack attempt s).any (· < ackRetryMs)

/-- The loop from an attempt on, with what it emits. -/
def emitAttempts (attempt now : ℕ) : ℕ → List (SocketEmit σ)
  | 0 => []
  | n + 1 =>
    let sockets := net.fetchSockets attempt
    let sentAt := now + net.fetched attempt
    if sockets.isEmpty then []
    else
      let sent := sockets.map fun s => ⟨attempt, s, sentAt⟩
      -- the wait ends with the last callback or with the timer; `acked` is whether there was one
      if sockets.any (net.acksInTime attempt) then sent
      else sent ++ emitAttempts (attempt + 1) (sentAt + ackRetryMs + ackRetryMs) n

def emitWithAckRetry : List (SocketEmit σ) := net.emitAttempts 0 0 (ackRetries + 1)

/-- An attempt, without its times. -/
def attempt (k : ℕ) : Attempt σ where
  sockets := net.fetchSockets k
  acked := (net.fetchSockets k).any (net.acksInTime k)

/-! ## What it is to do -/

/-- The time of an attempt, if the loop comes to it. -/
def attemptAt : ℕ → ℕ
  | 0 => net.fetched 0
  | k + 1 => attemptAt k + ackRetryMs + ackRetryMs + net.fetched (k + 1)

/-- The message is sent to the socket on the attempt. -/
def Sends (k : ℕ) (s : σ) : Prop := ∃ e ∈ net.emitWithAckRetry, e.attempt = k ∧ e.socket = s

/-- The socket has called back by the time of the attempt. -/
def Acknowledged (k : ℕ) (s : σ) : Prop :=
  ∃ e ∈ net.emitWithAckRetry, e.socket = s ∧
    ∃ d, net.ack e.attempt s = some d ∧ e.sentAt + d < net.attemptAt k

/-- **A socket of the room is sent the message on each attempt until it has acknowledged it**, and
not afterwards. -/
structure ResendsUntilAcked : Prop where
  again : ∀ k < ackRetries, ∀ s, net.Sends k s → s ∈ net.fetchSockets (k + 1) →
    ¬ net.Acknowledged (k + 1) s → net.Sends (k + 1) s
  bounded : ∀ k s, net.Sends k s → k ≤ ackRetries
  noMore : ∀ k s, net.Sends k s → ¬ net.Acknowledged k s

/-! ## The loop -/

/-- The room is not empty, and nobody in it calls back in time. -/
def Unanswered (k : ℕ) : Prop :=
  net.fetchSockets k ≠ [] ∧ ∀ s ∈ net.fetchSockets k, ¬ net.acksInTime k s

/-- The loop comes to the attempt. -/
def Reached (k : ℕ) : Prop := ∀ j < k, net.Unanswered j

/-- An emission of an earlier attempt is called back by the time of this one. -/
def AckedBefore (k : ℕ) (s : σ) : Prop :=
  ∃ j < k, s ∈ net.fetchSockets j ∧ ∃ d, net.ack j s = some d ∧ net.attemptAt j + d < net.attemptAt k

variable {net} {k : ℕ} {s : σ}

theorem attemptAt_mono {j : ℕ} (h : j ≤ k) : net.attemptAt j ≤ net.attemptAt k := by
  induction h with
  | refl => exact Nat.le_refl _
  | step _ ih =>
    rw [attemptAt]
    omega

/-- From whichever attempt, the two loops emit the same. -/
theorem map_socket_emitAttempts (n : ℕ) : ∀ k now : ℕ,
    (net.emitAttempts k now n).map SocketEmit.socket =
      Realtime.emitAttempts (fun i => net.attempt (k + i)) n := by
  induction n with
  | zero => exact fun _ _ => rfl
  | succ n ih =>
    intro k now
    have hnext : (fun i => net.attempt (k + (i + 1))) = fun i => net.attempt (k + 1 + i) :=
      funext fun i => congrArg net.attempt (by omega)
    have hrest := ih (k + 1) (now + net.fetched k + ackRetryMs + ackRetryMs)
    rw [← hnext] at hrest
    rw [emitAttempts, Realtime.emitAttempts, ← hrest]
    simp only [attempt, Nat.add_zero]
    by_cases hempty : (net.fetchSockets k).isEmpty
    · simp only [hempty, if_true, List.map_nil]
    · by_cases hacked : (net.fetchSockets k).any (net.acksInTime k)
      · simp [hempty, hacked, Function.comp_def]
      · simp [hempty, hacked, Function.comp_def]

/-- The loop that is told of each attempt whether it is answered emits the same. -/
theorem map_socket_emitWithAckRetry : net.emitWithAckRetry.map SocketEmit.socket =
    Realtime.emitWithAckRetry net.attempt := by
  have hloop := @map_socket_emitAttempts σ net (ackRetries + 1) 0 0
  simp only [Nat.zero_add] at hloop
  exact hloop

/-- The emissions of one attempt. -/
theorem mem_socketEmits {attempt : ℕ} {e : SocketEmit σ} :
    e ∈ (net.fetchSockets attempt).map
        (fun s => (⟨attempt, s, net.attemptAt attempt⟩ : SocketEmit σ)) ↔
      e.attempt = attempt ∧ e.socket ∈ net.fetchSockets e.attempt ∧
        e.sentAt = net.attemptAt e.attempt := by
  constructor
  · intro h
    obtain ⟨s, hs, rfl⟩ := List.mem_map.mp h
    exact ⟨rfl, hs, rfl⟩
  · rintro ⟨rfl, hs, hsent⟩
    refine List.mem_map.mpr ⟨e.socket, hs, ?_⟩
    rw [← hsent]

theorem unanswered_iff : net.Unanswered k ↔
    ¬ (net.fetchSockets k).isEmpty ∧ ¬ (net.fetchSockets k).any (net.acksInTime k) := by
  simp [Unanswered]

/-- An emission of the attempt or of a later one, to which the loop comes from there. -/
structure Due (net : Network σ) (attempt : ℕ) (e : SocketEmit σ) : Prop where
  le : attempt ≤ e.attempt
  before : ∀ j, attempt ≤ j → j < e.attempt → net.Unanswered j
  socket : e.socket ∈ net.fetchSockets e.attempt
  sentAt : e.sentAt = net.attemptAt e.attempt

theorem due_of_attempt {attempt : ℕ} {e : SocketEmit σ} (h : e.attempt = attempt)
    (hs : e.socket ∈ net.fetchSockets e.attempt) (hsent : e.sentAt = net.attemptAt e.attempt) :
    net.Due attempt e := by
  refine ⟨Nat.le_of_eq h.symm, fun j hj hlt => ?_, hs, hsent⟩
  omega

/-- An attempt that goes unanswered is followed by the next. -/
theorem due_iff_of_unanswered {attempt : ℕ} {e : SocketEmit σ} (h : net.Unanswered attempt) :
    net.Due attempt e ↔ (e.attempt = attempt ∧ e.socket ∈ net.fetchSockets e.attempt ∧
      e.sentAt = net.attemptAt e.attempt) ∨ net.Due (attempt + 1) e := by
  constructor
  · intro hdue
    rcases Nat.eq_or_lt_of_le hdue.le with heq | hlt
    · exact Or.inl ⟨heq.symm, hdue.socket, hdue.sentAt⟩
    · exact Or.inr ⟨hlt, fun j hj => hdue.before j (Nat.le_of_lt hj), hdue.socket, hdue.sentAt⟩
  · rintro (⟨heq, hs, hsent⟩ | hdue)
    · exact due_of_attempt heq hs hsent
    · refine ⟨Nat.le_of_lt hdue.le, fun j hj hlt => ?_, hdue.socket, hdue.sentAt⟩
      rcases Nat.eq_or_lt_of_le hj with rfl | hj
      · exact h
      · exact hdue.before j hj hlt

/-- Any other attempt is the last. -/
theorem due_iff_of_not_unanswered {attempt : ℕ} {e : SocketEmit σ} (h : ¬ net.Unanswered attempt) :
    net.Due attempt e ↔ e.attempt = attempt ∧ e.socket ∈ net.fetchSockets e.attempt ∧
      e.sentAt = net.attemptAt e.attempt := by
  refine ⟨fun hdue => ⟨?_, hdue.socket, hdue.sentAt⟩, fun ⟨heq, hs, hsent⟩ =>
    due_of_attempt heq hs hsent⟩
  by_contra hne
  exact h (hdue.before attempt (Nat.le_refl _) (Nat.lt_of_le_of_ne hdue.le fun heq => hne heq.symm))

/-- **What the loop emits**: all of an attempt, where each attempt before it went unanswered. -/
theorem mem_emitAttempts {n attempt now : ℕ} {e : SocketEmit σ}
    (hnow : now + net.fetched attempt = net.attemptAt attempt) :
    e ∈ net.emitAttempts attempt now n ↔ e.attempt < attempt + n ∧ net.Due attempt e := by
  induction n generalizing attempt now with
  | zero =>
    refine iff_of_false List.not_mem_nil fun ⟨hlt, hdue⟩ => ?_
    exact Nat.not_lt.mpr hdue.le hlt
  | succ n ih =>
    have hrest := @ih (attempt + 1) (net.attemptAt attempt + ackRetryMs + ackRetryMs) rfl
    rw [emitAttempts, hnow]
    by_cases hunanswered : net.Unanswered attempt
    · obtain ⟨hsome, hnone⟩ := unanswered_iff.mp hunanswered
      rw [if_neg hsome, if_neg hnone, List.mem_append, mem_socketEmits, hrest,
        due_iff_of_unanswered hunanswered]
      constructor
      · rintro (hfirst | ⟨hlt, hdue⟩)
        · exact ⟨by omega, Or.inl hfirst⟩
        · exact ⟨by omega, Or.inr hdue⟩
      · rintro ⟨hlt, hfirst | hdue⟩
        · exact Or.inl hfirst
        · exact Or.inr ⟨by omega, hdue⟩
    · rw [due_iff_of_not_unanswered hunanswered]
      by_cases hempty : (net.fetchSockets attempt).isEmpty
      · rw [if_pos hempty]
        refine iff_of_false List.not_mem_nil ?_
        rintro ⟨-, rfl, hs, -⟩
        rw [List.isEmpty_iff.mp hempty] at hs
        cases hs
      · have hany : (net.fetchSockets attempt).any (net.acksInTime attempt) :=
          of_not_not fun hnone => hunanswered (unanswered_iff.mpr ⟨hempty, hnone⟩)
        rw [if_neg hempty, if_pos hany, mem_socketEmits]
        exact ⟨fun h => ⟨by omega, h⟩, fun h => h.2⟩

/-- A socket gets an attempt exactly where it is in the room and the retries reach so far. -/
theorem mem_emitWithAckRetry {e : SocketEmit σ} : e ∈ net.emitWithAckRetry ↔
    e.attempt ≤ ackRetries ∧ net.Reached e.attempt ∧ e.socket ∈ net.fetchSockets e.attempt ∧
      e.sentAt = net.attemptAt e.attempt := by
  rw [emitWithAckRetry, mem_emitAttempts (Nat.zero_add _), Nat.zero_add, Nat.lt_succ_iff]
  constructor
  · rintro ⟨hle, hdue⟩
    exact ⟨hle, fun j => hdue.before j (Nat.zero_le j), hdue.socket, hdue.sentAt⟩
  · rintro ⟨hle, hreached, hs, hsent⟩
    exact ⟨hle, Nat.zero_le _, fun j _ => hreached j, hs, hsent⟩

/-- **Whom an attempt reaches.** -/
theorem sends_iff : net.Sends k s ↔ k ≤ ackRetries ∧ net.Reached k ∧ s ∈ net.fetchSockets k := by
  constructor
  · rintro ⟨e, he, rfl, rfl⟩
    obtain ⟨hk, hreached, hs, -⟩ := mem_emitWithAckRetry.mp he
    exact ⟨hk, hreached, hs⟩
  · rintro ⟨hk, hreached, hs⟩
    exact ⟨⟨k, s, net.attemptAt k⟩, mem_emitWithAckRetry.mpr ⟨hk, hreached, hs, rfl⟩, rfl, rfl⟩

theorem Reached.of_le {j : ℕ} (h : net.Reached k) (hj : j ≤ k) : net.Reached j :=
  fun i hi => h i (by omega)

/-- On the attempts that are reached, all the room is asked. -/
theorem acknowledged_iff (hk : k ≤ ackRetries) (h : ∀ j < k, net.Reached j) :
    net.Acknowledged k s ↔ net.AckedBefore k s := by
  constructor
  · rintro ⟨e, he, rfl, d, hd, hbefore⟩
    obtain ⟨-, -, hs, hsent⟩ := mem_emitWithAckRetry.mp he
    rw [hsent] at hbefore
    refine ⟨e.attempt, ?_, hs, d, hd, hbefore⟩
    by_contra hle
    have hmono := net.attemptAt_mono (Nat.le_of_not_lt hle)
    omega
  · rintro ⟨j, hj, hs, d, hd, hbefore⟩
    have hsent : (⟨j, s, net.attemptAt j⟩ : SocketEmit σ) ∈ net.emitWithAckRetry :=
      mem_emitWithAckRetry.mpr ⟨Nat.le_trans (Nat.le_of_lt hj) hk, h j hj, hs, rfl⟩
    exact ⟨_, hsent, rfl, d, hd, hbefore⟩

end Network

/-- **The message is sent again as it should be exactly where on no attempt a socket of the room
has called back late, and nobody ends the attempts by calling back before the others.** -/
theorem ack_retry_iff {σ : Type*} (net : Network σ) :
    net.ResendsUntilAcked ↔ ∀ k ≤ ackRetries, net.Reached k →
      (∀ s ∈ net.fetchSockets k, ¬ net.AckedBefore k s) ∧
        ((∃ s ∈ net.fetchSockets k, net.acksInTime k s) → k < ackRetries →
          ∀ s ∈ net.fetchSockets k, s ∈ net.fetchSockets (k + 1) → net.AckedBefore (k + 1) s) := by
  constructor
  · intro hlaw k hk hreached
    have hbefore : ∀ j < k + 1, net.Reached j := fun j hj => hreached.of_le (by omega)
    refine ⟨fun s hs hacked => ?_, fun ⟨s', hs', hintime⟩ hlt s hs hstays => ?_⟩
    · have hsends := Network.sends_iff.mpr ⟨hk, hreached, hs⟩
      exact hlaw.noMore k s hsends
        ((Network.acknowledged_iff hk fun j hj => hreached.of_le (Nat.le_of_lt hj)).mpr hacked)
    · by_contra hnot
      have hsends := Network.sends_iff.mpr ⟨hk, hreached, hs⟩
      have hagain := hlaw.again k hlt s hsends hstays fun hacked =>
        hnot ((Network.acknowledged_iff hlt hbefore).mp hacked)
      obtain ⟨-, hnext, -⟩ := Network.sends_iff.mp hagain
      exact (hnext k (Nat.lt_succ_self k)).2 s' hs' hintime
  · intro hall
    refine ⟨fun k hk s hsends hstays hnot => ?_, fun k s hsends => (Network.sends_iff.mp hsends).1,
      fun k s hsends hacked => ?_⟩
    · obtain ⟨hle, hreached, hs⟩ := Network.sends_iff.mp hsends
      have hbefore : ∀ j < k + 1, net.Reached j := fun j hj => hreached.of_le (by omega)
      by_cases hsome : ∃ s ∈ net.fetchSockets k, net.acksInTime k s
      · exact absurd ((Network.acknowledged_iff hk hbefore).mpr
          ((hall k hle hreached).2 hsome hk s hs hstays)) hnot
      · have hunanswered : net.Unanswered k :=
          ⟨List.ne_nil_of_mem hs, fun s' hs' hintime => hsome ⟨s', hs', hintime⟩⟩
        refine Network.sends_iff.mpr ⟨hk, fun j hj => ?_, hstays⟩
        rcases Nat.eq_or_lt_of_le (Nat.le_of_lt_succ hj) with rfl | hj
        · exact hunanswered
        · exact hreached j hj
    · obtain ⟨hle, hreached, hs⟩ := Network.sends_iff.mp hsends
      exact (hall k hle hreached).1 s hs
        ((Network.acknowledged_iff hle fun j hj => hreached.of_le (Nat.le_of_lt hj)).mp hacked)

/-- Two sockets in the room: one calls back after 100 ms, the other never does. -/
def demoNetwork : Network Bool where
  fetchSockets := fun _ => [true, false]
  fetched := fun _ => 1
  ack := fun _ s => if s then some 100 else none

/-- **The silent socket is not sent the message again.** -/
theorem ack_retry_given_up : ¬ demoNetwork.ResendsUntilAcked := by
  intro hlaw
  have hfirst : demoNetwork.Sends 0 false :=
    Network.sends_iff.mpr ⟨Nat.zero_le _, fun j hj => absurd hj (Nat.not_lt_zero j), by decide⟩
  have hsilent : ¬ demoNetwork.Acknowledged 1 false := by
    rintro ⟨e, -, -, d, hd, -⟩
    cases hd
  have hagain := hlaw.again 0 (by decide) false hfirst (by decide) hsilent
  have hunanswered := (Network.sends_iff.mp hagain).2.1 0 Nat.zero_lt_one
  exact hunanswered.2 true (by decide) (by decide)

end WorkPlatform.Realtime

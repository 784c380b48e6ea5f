import WorkPlatform.RateLimit.Window

/-!
# RateLimit/CheckLimit — the limiter of the HTTP routes, where it holds its limit

    checkLimit    ZREMRANGEBYSCORE ▸ ZCARD ▸ ZADD ▸ PEXPIRE,  allowed where ZCARD < limit

The count is taken before the call's own entry is added, so that two calls may both count
`limit - 1` entries (`checkLimit_lets_two_in`).  Where nobody counts between another call's `ZCARD`
and `ZADD`, and no entry goes away while it is in the window of a call that is still to count, no
window lets more than `limit` requests through (`checkLimit_keeps_limit`).
-/

namespace WorkPlatform.RateLimit

open Machinery Machinery.Window

variable {ι : Type*}

/-! ## The limiter -/

/-- What `checkLimit` resolves with. -/
structure Decision where
  allowed : Bool
  remaining : ℕ
  retryAfter : ℕ
  deriving DecidableEq, Repr

/-- The decision on a request that found `count` requests in its window; subtraction stops at 0. -/
def Rate.decision (rate : Rate) (count : ℕ) : Decision where
  allowed := count < rate.limit
  remaining := rate.limit - count - 1
  retryAfter := if count < rate.limit then 0 else (rate.windowMs + 999) / 1000

/-- `pipeline.exec()` of `checkLimit`, and what it makes of the results. -/
def checkLimit : Limiter Decision where
  commands := [.zremrangebyscore, .zcard, .zadd, .expire]
  ttl := fun windowMs => windowMs
  answer := fun rate count => rate.decision (count.getD 0)

/-! ## Commands of different pipelines -/

/-- The call has counted, and its entry is not in the set yet. -/
def Pc.Between (key : String) (pc : Pc Decision) : Prop :=
  pc.key = key ∧ pc.Counted ∧ ¬ pc.Added

instance (key : String) : DecidablePred (Pc.Between key) := fun pc =>
  inferInstanceAs (Decidable (pc.key = key ∧ pc.Counted ∧ ¬ pc.Added))

/-- The call runs, and is still to count. -/
def reading (p : Calls ι Decision) (i : ι) : Prop := (p.calls i).Live Pc.Reads

/-- No other call of the key is between its `ZCARD` and its `ZADD`. -/
def CountsAlone (p : Calls ι Decision) (i : ι) : Prop :=
  (p.calls i).at'.Runs .zcard →
    ∀ j, j ≠ i → ¬ (p.calls j).Live (Pc.Between (p.calls i).at'.key)

/-- A `ZREMRANGEBYSCORE` takes no entry that is in the window of a call still to count. -/
def SparesReaders (rate : String → Rate) (p : Calls ι Decision) (i : ι) : Prop :=
  (p.calls i).at'.Runs .zremrangebyscore → ∀ j k, (p.calls j).at'.Added →
    (p.calls j).at'.key = (p.calls i).at'.key → reading p k →
    (p.calls k).at'.key = (p.calls i).at'.key →
    timestamp p j + (rate (p.calls i).at'.key).windowMs ≤ timestamp p i →
    timestamp p j + (rate (p.calls i).at'.key).windowMs ≤ timestamp p k

/-- Nobody counts between another call's `ZCARD` and `ZADD`, and no entry goes away while a call
that is still to count has it in its window. -/
def Apart (rate : String → Rate) (p : Calls ι Decision) : Move ι ℕ ℕ → Prop
  | .run i random => Fresh p i random ∧ CountsAlone p i ∧ SparesReaders rate p i
  | .crash _ => True
  | .env ms => MayLapse rate (reading p) p ms

instance (p : Calls ι Decision) : DecidablePred (reading p) := fun i =>
  inferInstanceAs (Decidable ((p.calls i).Live Pc.Reads))

instance [Fintype ι] [DecidableEq ι] (p : Calls ι Decision) (i : ι) : Decidable (CountsAlone p i) :=
  inferInstanceAs (Decidable ((p.calls i).at'.Runs .zcard →
    ∀ j, j ≠ i → ¬ (p.calls j).Live (Pc.Between (p.calls i).at'.key)))

instance [Fintype ι] (rate : String → Rate) (p : Calls ι Decision) (i : ι) :
    Decidable (SparesReaders rate p i) :=
  inferInstanceAs (Decidable ((p.calls i).at'.Runs .zremrangebyscore →
    ∀ j k, (p.calls j).at'.Added → (p.calls j).at'.key = (p.calls i).at'.key → reading p k →
      (p.calls k).at'.key = (p.calls i).at'.key →
      timestamp p j + (rate (p.calls i).at'.key).windowMs ≤ timestamp p i →
      timestamp p j + (rate (p.calls i).at'.key).windowMs ≤ timestamp p k))

instance [Fintype ι] [DecidableEq ι] (rate : String → Rate) (p : Calls ι Decision) :
    ∀ m : Move ι ℕ ℕ, Decidable (Apart rate p m)
  | .run i random =>
    inferInstanceAs (Decidable (Fresh p i random ∧ CountsAlone p i ∧ SparesReaders rate p i))
  | .crash _ => inferInstanceAs (Decidable True)
  | .env ms => inferInstanceAs (Decidable (MayLapse rate (reading p) p ms))

variable [DecidableEq ι] {rate : String → Rate} {p : Calls ι Decision}

/-- Whoever is let through has added its entry, or is about to. -/
theorem added_of_admitted {allows : Decision → Prop} {key : String} : ∀ {c : Proc (Pc Decision)},
    Admitted checkLimit rate allows key c → c.at'.Added ∨ c.Live (Pc.Between key)
  | .up (.start _), ⟨_, _, hr, _⟩ => by cases hr
  | .up (.exec k e todo count), ⟨hkey, _, hr, _⟩ => by
    have hcounted : .zcard ∉ todo := by
      intro hmem
      rw [Limiter.verdict, if_pos hmem] at hr
      cases hr
    by_cases hadd : .zadd ∈ todo
    · exact Or.inr ⟨hkey, ⟨trivial, hcounted⟩, fun hadded => hadded.2 hadd⟩
    · exact Or.inl ⟨trivial, hadd⟩
  | .up (.returned ..), _ => Or.inl ⟨trivial, List.not_mem_nil⟩
  | .down _, ⟨_, _, _, hpc, _⟩ => by
    rw [hpc]
    exact Or.inl ⟨trivial, List.not_mem_nil⟩

omit [DecidableEq ι] in
/-- Whoever is let through is one of at most `limit`. -/
theorem count_lt (h : Sound rate reading p) {i : ι} {pc : Pc Decision} (hpc : p.calls i = .up pc)
    (halone : CountsAlone p i) (hruns : pc.Runs .zcard)
    (hallowed : ((rate pc.key).decision (p.store.keys pc.key).zcard).allowed = true)
    (S : Finset ι) (hS : ∀ y ∈ S,
      Admitted checkLimit rate (·.allowed = true) pc.key (p.calls y) ∧ y ≠ i ∧
        Near (rate pc.key).windowMs (timestamp p y) (timestamp p i)) :
    S.card + 1 ≤ (rate pc.key).limit := by
  obtain rfl : (p.calls i).at' = pc := by rw [hpc]; rfl
  have hreads : reading p i := by
    rw [reading, hpc, Proc.live_up]
    exact List.mem_of_mem_head? hruns
  have hlt : (p.store.keys (p.calls i).at'.key).zcard < (rate (p.calls i).at'.key).limit :=
    of_decide_eq_true hallowed
  refine lt_of_le_of_lt (h.card_le_zcard hreads fun y hy => ?_) hlt
  obtain ⟨hadmitted, hne, hnear⟩ := hS y hy
  have hadded := (added_of_admitted hadmitted).resolve_right (halone hruns y hne)
  exact ⟨hadded, hadmitted.key_eq, hnear.2⟩

/-- **No window lets more than `limit` requests through.** -/
theorem checkLimit_keeps_limit {now : ℕ} {keys : ι → String}
    (h : Run (Pool.step (checkLimit.machine rate)) (Apart rate) (idle now keys) p) (key : String) :
    Bounded (rate key).windowMs (rate key).limit (timestamp p)
      fun i => Allowed (·.allowed = true) key (p.calls i) := by
  suffices hinv : Sound rate reading p ∧
      Bounded (rate key).windowMs (rate key).limit (timestamp p)
        fun i => Admitted checkLimit rate (·.allowed = true) key (p.calls i) from
    hinv.2.mono fun i hi => hi.admitted
  refine Pool.invariant (I := fun p => Sound rate reading p ∧
    Bounded (rate key).windowMs (rate key).limit (timestamp p)
      fun i => Admitted checkLimit rate (·.allowed = true) key (p.calls i)) ?_ ?_ ?_ ?_ h
  · exact ⟨sound_idle now keys, bounded_idle _ _ now keys⟩
  · rintro p i random pc s pc' ⟨hsound, hbound⟩ ⟨hfresh, halone, hspares⟩ hpc hn
    have hreads := fun j => reads_next hpc hn (j := j)
    refine ⟨hsound.next (by decide) hpc hfresh hn hreads ?_,
      bounded_next (by decide) hpc hn hbound ?_⟩
    · intro hruns j k hadded hkeyj hk hkeyk hout
      obtain ⟨-, ⟨rfl, hnot⟩ | hold⟩ := hreads k hk
      · exact absurd (Pc.Runs.started hruns) hnot
      · obtain rfl : (p.calls i).at' = pc := by rw [hpc]; rfl
        exact hspares hruns j k hadded hkeyj hold hkeyk hout
    · rintro hruns rfl hallowed S hS
      exact count_lt hsound hpc halone hruns hallowed S hS
  · rintro p i pc ⟨hsound, hbound⟩ - hpc
    exact ⟨hsound.crash hpc fun j hj => (live_update_down hj).2, bounded_crash hpc hbound⟩
  · rintro p ms ⟨hsound, hbound⟩ hlapse
    exact ⟨hsound.tick hlapse fun j hj => hj, hbound⟩

/-- All the statements of a call. -/
def callMoves (i : ι) (random : ℕ) : List (Move ι ℕ ℕ) := List.replicate 6 (.run i random)

/-- One request in a second is let through, and one in the next. -/
theorem checkLimit_one_a_second :
    ∃ p, Run (Pool.step (checkLimit.machine fun _ => ⟨1, 1000⟩)) (Apart fun _ => ⟨1, 1000⟩)
        (idle 0 fun _ : Fin 3 => "rl:auth:::1") p
      ∧ Bounded 1000 1 (timestamp p) fun i =>
          Allowed (·.allowed = true) "rl:auth:::1" (p.calls i) := by
  obtain ⟨p, hrun, -⟩ := exists_run_of_exec
    (Pool.step (checkLimit.machine fun _ => ⟨1, 1000⟩)) (Apart fun _ => ⟨1, 1000⟩)
    (idle 0 fun _ : Fin 3 => "rl:auth:::1")
    (List.flatten [callMoves 0 7, callMoves 1 8, [.env 1000], callMoves 2 9])
    (fun p => p.calls 0 = .up (.returned "rl:auth:::1" ⟨0, 7⟩ ⟨true, 0, 0⟩)
      ∧ p.calls 1 = .up (.returned "rl:auth:::1" ⟨0, 8⟩ ⟨false, 0, 1⟩)
      ∧ p.calls 2 = .up (.returned "rl:auth:::1" ⟨1000, 9⟩ ⟨true, 0, 0⟩)) (by decide)
  exact ⟨p, hrun, checkLimit_keeps_limit hrun _⟩

/-- Four calls that go on in step, so that all of them count before any adds its entry. -/
def fourAtOnce : List (Move (Fin 4) ℕ ℕ) :=
  (List.replicate 6 ((List.finRange 4).map fun i => .run i i)).flatten

/-- **Four requests of three are let through**: with `verifyEmailResendRateLimit`, four requests
for one address at the same time all count an empty set. -/
theorem checkLimit_lets_four_in :
    ∃ p, Run (Pool.step (checkLimit.machine fun _ => ⟨3, 60 * 60000⟩)) anyStep
        (idle 0 fun _ : Fin 4 => "rl:verifyresend:a@b.c") p
      ∧ ¬ Bounded (60 * 60000) 3 (timestamp p) fun i =>
          Allowed (·.allowed = true) "rl:verifyresend:a@b.c" (p.calls i) := by
  obtain ⟨p, hrun, hp⟩ := exists_run_of_exec
    (Pool.step (checkLimit.machine fun _ => ⟨3, 60 * 60000⟩)) anyStep
    (idle 0 fun _ : Fin 4 => "rl:verifyresend:a@b.c") fourAtOnce
    (fun p => ∀ i, (p.calls i).at' =
        .returned "rl:verifyresend:a@b.c" (p.calls i).at'.entry ⟨true, 2, 0⟩
      ∧ timestamp p i < 0 + 60 * 60000) (by decide)
  have hcalls := of_decide_eq_true hp
  exact ⟨p, hrun, not_bounded (a := 0) (S := Finset.univ)
    (fun i _ => ⟨⟨_, _, (hcalls i).1, rfl⟩, Nat.zero_le _, (hcalls i).2⟩) (by decide)⟩

end WorkPlatform.RateLimit

import WorkPlatform.RateLimit.Window

/-!
# RateLimit/CheckRateLimit — the limiter of the socket events

    checkRateLimit    ZREMRANGEBYSCORE ▸ ZADD ▸ ZCARD ▸ EXPIRE windowSeconds + 1,
                      allowed where ZCARD ≤ limit

The call adds its own entry before it counts, so of the calls near each other the one that counts
last counts all of them, as long as nothing has removed their entries.  Timestamps that do not go
back keep a `ZREMRANGEBYSCORE` from removing them.  The key outlives the window by a second, which
keeps the expiry from removing them, but only from calls that take no longer than that second
(`checkRateLimit_keeps_limit`, `checkRateLimit_lets_two_in`).
-/

namespace WorkPlatform.RateLimit

open Machinery Machinery.Window

variable {ι : Type*}

/-! ## The limiter -/

/-- `pipeline.exec()` of `checkRateLimit`, and what it makes of the results; without a count, the
call is not allowed. -/
def checkRateLimit : Limiter Bool where
  commands := [.zremrangebyscore, .zadd, .zcard, .expire]
  ttl := fun windowMs => windowMs + 1000
  answer := fun rate count => count.any (· ≤ rate.limit)

/-- The rate with which `checkRateLimit(key, limit, windowSeconds)` is called. -/
def perSeconds (limit windowSeconds : ℕ) : Rate := ⟨limit, windowSeconds * 1000⟩

/-! ## Timestamps in order, and calls that take no longer than a second -/

namespace Pc

/-- The call has run its first command. -/
def Begun (pc : Pc Bool) : Prop := pc.Started ∧ .zremrangebyscore ∉ pc.todo

/-- The call has removed what is out of its window, and is still to add its entry. -/
def Cleared (pc : Pc Bool) : Prop := pc.Begun ∧ .zadd ∈ pc.todo

/-- The call has added its entry, and is still to put off the expiry. -/
def Renewing (pc : Pc Bool) : Prop := pc.Added ∧ .expire ∈ pc.todo

/-- The next command is one that reads or writes the set. -/
def Uses (pc : Pc Bool) : Prop :=
  pc.Runs .zremrangebyscore ∨ pc.Runs .zadd ∨ pc.Runs .zcard

instance : DecidablePred Begun := fun pc =>
  inferInstanceAs (Decidable (pc.Started ∧ .zremrangebyscore ∉ pc.todo))

instance : DecidablePred Uses := fun pc =>
  inferInstanceAs (Decidable (pc.Runs .zremrangebyscore ∨ pc.Runs .zadd ∨ pc.Runs .zcard))

end Pc

/-- No call of the key has run a command with a later timestamp. -/
def NotOvertaken (p : Calls ι Bool) (i : ι) : Prop :=
  ∀ j, (p.calls j).at'.Begun → (p.calls j).at'.key = (p.calls i).at'.key →
    timestamp p j ≤ timestamp p i

/-- **Timestamps in order**: they do not decrease in the order in which the commands run, and no two
calls of a key have the same member. -/
def InOrder (p : Calls ι Bool) : Move ι ℕ ℕ → Prop
  | .run i random => Fresh p i random ∧ ((p.calls i).at'.Uses → NotOvertaken p i)
  | _ => True

/-- **Within a second**: a call that has read the clock has all its commands run before the clock is
more than a second further. -/
def Prompt (p : Calls ι Bool) : Move ι ℕ ℕ → Prop
  | .run .. => True
  | .crash i => (p.calls i).at'.todo = []
  | .env ms => ∀ i, (p.calls i).Live (fun pc => pc.todo ≠ []) →
      p.store.now + ms ≤ timestamp p i + 1000

/-- The call is still to count, and can do so. -/
def counting (p : Calls ι Bool) (i : ι) : Prop :=
  (p.calls i).Live Pc.Reads ∧ NotOvertaken p i

variable {rate : String → Rate} {p : Calls ι Bool}

/-! ## What expires -/

/-- What the pipelines of the socket events keep besides, while time goes on. -/
structure Renewed (rate : String → Rate) (p : Calls ι Bool) : Prop where
  todo : ∀ i, (p.calls i).at'.todo ∈ checkRateLimit.commands.tails
  past : ∀ key, ∀ e ∈ (p.store.keys key).members, e.now ≤ p.store.now
  /-- What a call is about to join is in its window. -/
  cleared : ∀ i, (p.calls i).at'.Cleared → 0 < (rate (p.calls i).at'.key).windowMs →
    ∀ e ∈ (p.store.keys (p.calls i).at'.key).members,
      timestamp p i < e.now + (rate (p.calls i).at'.key).windowMs
  /-- The expiry is about to be put off, or has been for every entry. -/
  renewed : ∀ key x, 0 < (rate key).windowMs → (p.store.keys key).expiresAt = some x →
    (∃ i, (p.calls i).Live Pc.Renewing ∧ (p.calls i).at'.key = key ∧ timestamp p i + 1000 < x) ∨
      ∀ e ∈ (p.store.keys key).members, e.now + (rate key).windowMs + 1000 ≤ x

theorem renewed_idle (now : ℕ) (keys : ι → String) : Renewed rate (idle now keys) where
  todo _ := show [] ∈ checkRateLimit.commands.tails by decide
  past _ _ h := absurd h (Finset.notMem_empty _)
  cleared _ h := h.1.1.elim
  renewed _ _ _ h := by cases h

/-! ### Where in the pipeline a call is -/

namespace Pc

variable {pc : Pc Bool}

theorem todo_cases (h : pc.todo ∈ checkRateLimit.commands.tails) :
    pc.todo = [.zremrangebyscore, .zadd, .zcard, .expire] ∨ pc.todo = [.zadd, .zcard, .expire] ∨
      pc.todo = [.zcard, .expire] ∨ pc.todo = [.expire] ∨ pc.todo = [] := by
  simpa [checkRateLimit] using h

theorem Added.begun (htodo : pc.todo ∈ checkRateLimit.commands.tails) (h : pc.Added) :
    pc.Begun := by
  obtain ⟨hstarted, hzadd⟩ := h
  refine ⟨hstarted, fun hmem => hzadd ?_⟩
  rcases todo_cases htodo with h | h | h | h | h <;> rw [h] at hmem ⊢ <;> revert hmem <;> decide

theorem todo_of_zadd (htodo : pc.todo ∈ checkRateLimit.commands.tails) (hruns : pc.Runs .zadd) :
    pc.todo = [.zadd, .zcard, .expire] := by
  unfold Runs at hruns
  rcases todo_cases htodo with h | h | h | h | h <;> rw [h] at hruns ⊢ <;> cases hruns

theorem todo_of_zcard (htodo : pc.todo ∈ checkRateLimit.commands.tails) (hruns : pc.Runs .zcard) :
    pc.todo = [.zcard, .expire] := by
  unfold Runs at hruns
  rcases todo_cases htodo with h | h | h | h | h <;> rw [h] at hruns ⊢ <;> cases hruns

end Pc

/-- **What expires is out of every window.** -/
theorem Renewed.mayLapse (h : Renewed rate p) (hsound : Sound rate counting p) {ms : ℕ}
    (hprompt : Prompt p (.env ms : Move ι ℕ ℕ)) : MayLapse rate (counting p) p ms := by
  intro j hadded hexpired
  rcases Nat.eq_zero_or_pos (rate (p.calls j).at'.key).windowMs with hzero | hpos
  · have hpast := hsound.past j hadded.1
    refine ⟨by omega, fun i hi hkey => ?_⟩
    have hle := hi.2 j (hadded.begun (h.todo j)) hkey.symm
    unfold timestamp at hle
    omega
  have hnow : p.store.now ≤ p.store.now + ms := Nat.le_add_right _ _
  obtain ⟨x, hx, hlate⟩ := (Option.any_eq_true _ _).mp hexpired
  have hlate := of_decide_eq_true hlate
  rcases hsound.kept j hadded with hmem | ⟨hpast, hout⟩
  · rcases h.renewed _ x hpos hx with ⟨k, hlive, -, hk⟩ | hall
    · have hsecond := hprompt k (hlive.imp fun pc hpc hnil => by
        have hexpire := hpc.2
        rw [hnil] at hexpire
        cases hexpire)
      omega
    · have hj := hall _ hmem
      refine ⟨by omega, fun i hi hkey => ?_⟩
      have hsecond := hprompt i (hi.1.imp fun pc hpc hnil => by
        have hzcard : Command.zcard ∈ pc.todo := hpc
        rw [hnil] at hzcard
        cases hzcard)
      rw [timestamp] at hsecond
      omega
  · exact ⟨hpast.trans hnow, hout⟩

/-! ## One statement -/

section Statement

variable [DecidableEq ι] {i : ι} {random : ℕ} {pc pc' : Pc Bool} {s : Store}

omit [DecidableEq ι] in
theorem todo_of_command (hn : checkRateLimit.next rate p.store random pc = some (s, pc'))
    {c : Command} (hruns : pc.Runs c) : pc'.todo = pc.todo.tail := by
  obtain ⟨_, rfl, rfl, rfl⟩ | ⟨_, _, _, _, _, rfl, rfl, rfl⟩ | ⟨_, _, _, rfl, rfl, rfl⟩ :=
    Limiter.next_cases hn
  · exact absurd hruns.started id
  · rfl
  · rfl

omit [DecidableEq ι] in
/-- A call has run its first command if it had, or if that was its statement. -/
theorem begun_of_next (hn : checkRateLimit.next rate p.store random pc = some (s, pc'))
    (htodo : pc.todo ∈ checkRateLimit.commands.tails) :
    pc'.Begun ↔ pc.Begun ∨ pc.Runs .zremrangebyscore := by
  obtain ⟨_, rfl, rfl, rfl⟩ | ⟨_, _, c, todo, _, rfl, rfl, rfl⟩ | ⟨_, _, _, rfl, rfl, rfl⟩ :=
    Limiter.next_cases hn
  · refine iff_of_false (fun h => h.2 List.mem_cons_self) ?_
    rintro (h | h)
    · exact h.1
    · exact h.started
  · have hrest : .zremrangebyscore ∉ todo := by
      rcases Pc.todo_cases htodo with h | h | h | h | h <;> cases h <;> decide
    refine iff_of_true ⟨trivial, hrest⟩ ?_
    by_cases hc : c = .zremrangebyscore
    · subst hc
      exact Or.inr rfl
    · exact Or.inl ⟨trivial, fun hmem => (List.mem_cons.mp hmem).elim (fun h => hc h.symm) hrest⟩
  · exact iff_of_true ⟨trivial, List.not_mem_nil⟩ (Or.inl ⟨trivial, List.not_mem_nil⟩)

omit [DecidableEq ι] in
/-- Only the first command clears. -/
theorem runs_of_cleared (hn : checkRateLimit.next rate p.store random pc = some (s, pc'))
    (htodo : pc.todo ∈ checkRateLimit.commands.tails) (h : pc'.Cleared) :
    pc.Runs .zremrangebyscore := by
  refine ((begun_of_next hn htodo).mp h.1).resolve_left fun hbegun => ?_
  obtain ⟨_, rfl, rfl, rfl⟩ | ⟨_, _, c, todo, _, rfl, rfl, rfl⟩ | ⟨_, _, _, rfl, rfl, rfl⟩ :=
    Limiter.next_cases hn
  · exact hbegun.1
  · have hzadd : .zadd ∈ todo := h.2
    have hzrem : .zremrangebyscore ∉ c :: todo := hbegun.2
    rcases Pc.todo_cases htodo with h | h | h | h | h <;> cases h <;> revert hzrem hzadd <;> decide
  · cases h.2

/-- Whoever is about to put off the expiry still is, until it does. -/
theorem renewing_next (hpc : p.calls i = .up pc)
    (hn : checkRateLimit.next rate p.store random pc = some (s, pc'))
    (htodo : pc.todo ∈ checkRateLimit.commands.tails) {j : ι} (hnot : j = i → ¬ pc.Runs .expire)
    (hj : (p.calls j).Live Pc.Renewing) :
    (Function.update p.calls i (.up pc') j).Live Pc.Renewing := by
  by_cases hji : j = i
  · subst hji
    rw [hpc] at hj
    obtain ⟨⟨hstarted, hzadd⟩, hexpire⟩ := hj
    have hnext := hnot rfl
    have hlist : pc.todo = [.zcard, .expire] := by
      unfold Pc.Runs at hnext
      rcases Pc.todo_cases htodo with h | h | h | h | h <;> rw [h] at hzadd hexpire hnext ⊢ <;>
        revert hzadd hexpire hnext <;> decide
    have hrest := todo_of_command hn (c := .zcard) (by rw [Pc.Runs, hlist]; rfl)
    rw [Function.update_self]
    refine ⟨⟨Limiter.started_of_next hn, ?_⟩, ?_⟩ <;> rw [hrest, hlist] <;> decide
  · rwa [Function.update_of_ne hji]

omit [DecidableEq ι] in
/-- Whoever adds an entry to a key that expires comes before it does. -/
theorem Renewed.expiry_after (h : Renewed rate p) {key : String} {x : ℕ}
    (hx : (p.store.keys key).expiresAt = some x) (hpos : 0 < (rate key).windowMs)
    (hkey : (p.calls i).at'.key = key) (hruns : (p.calls i).at'.Runs .zadd)
    (hall : ∀ e ∈ (p.store.keys key).members, e.now + (rate key).windowMs + 1000 ≤ x) :
    timestamp p i + 1000 < x := by
  have htodo := Pc.todo_of_zadd (h.todo i) hruns
  have hcleared : (p.calls i).at'.Cleared := by
    refine ⟨⟨hruns.started, ?_⟩, ?_⟩ <;> rw [htodo] <;> decide
  obtain ⟨e, he⟩ := Volatile.nonempty_of_expiresAt hx
  subst hkey
  have hin := h.cleared i hcleared hpos e he
  have hlate := hall e he
  omega

/-- **The expiry stays put off.** -/
theorem Renewed.renewed_next (h : Renewed rate p) (hpc : p.calls i = .up pc)
    (hn : checkRateLimit.next rate p.store random pc = some (s, pc')) (key : String) (x : ℕ)
    (hpos : 0 < (rate key).windowMs) (hx : (s.keys key).expiresAt = some x) :
    (∃ j, (Function.update p.calls i (.up pc') j).Live Pc.Renewing ∧
        (Function.update p.calls i (.up pc') j).at'.key = key ∧
        timestamp ⟨s, Function.update p.calls i (.up pc')⟩ j + 1000 < x) ∨
      ∀ e ∈ (s.keys key).members, e.now + (rate key).windowMs + 1000 ≤ x := by
  obtain rfl : (p.calls i).at' = pc := by rw [hpc]; rfl
  rcases Limiter.expiresAt_of_next hn hx with ⟨hold, hnot⟩ | ⟨hexpire, -, rfl⟩
  · rcases h.renewed key x hpos hold with ⟨j, hlive, hkeyj, hj⟩ | hall
    · left
      obtain ⟨k, hk, hrenewing⟩ := hlive.exists
      have hstarted : (p.calls j).at'.Started := by
        rw [hk]
        exact hrenewing.1.1
      refine ⟨j, renewing_next hpc hn (h.todo i) ?_ hlive, (key_next hpc hn j).trans hkeyj, ?_⟩
      · rintro rfl hruns
        exact hnot ⟨hruns, hkeyj⟩
      · rwa [timestamp_next hpc hn hstarted]
    · by_cases hadd : (p.calls i).at'.Runs .zadd ∧ (p.calls i).at'.key = key
      · obtain ⟨hruns, hkeyi⟩ := hadd
        have hx := h.expiry_after hold hpos hkeyi hruns hall
        refine Or.inl ⟨i, ?_, (key_next hpc hn i).trans hkeyi, ?_⟩
        · have hrest := todo_of_command hn hruns
          rw [Function.update_self]
          refine ⟨⟨Limiter.started_of_next hn, ?_⟩, ?_⟩ <;>
            rw [hrest, Pc.todo_of_zadd (h.todo i) hruns] <;> decide
        · rwa [timestamp_next hpc hn hruns.started]
      · refine Or.inr fun e he => ?_
        rcases Limiter.mem_of_next hn he with ⟨hmem, -⟩ | ⟨hruns, hkeyi, -⟩
        · exact hall e hmem
        · exact absurd ⟨hruns, hkeyi⟩ hadd
  · refine Or.inr fun e he => ?_
    rcases Limiter.mem_of_next hn he with ⟨hmem, -⟩ | ⟨hruns, -, -⟩
    · have hpast := h.past key e hmem
      show e.now + _ + 1000 ≤ p.store.now + (_ + 1000)
      omega
    · cases hexpire.symm.trans hruns

/-- **A statement keeps what does not expire.** -/
theorem Renewed.next (h : Renewed rate p) (hsound : Sound rate counting p)
    (hpc : p.calls i = .up pc)
    (hn : checkRateLimit.next rate p.store random pc = some (s, pc'))
    (horder : pc.Uses → NotOvertaken p i) :
    Renewed rate ⟨s, Function.update p.calls i (.up pc')⟩ := by
  obtain rfl : (p.calls i).at' = pc := by rw [hpc]; rfl
  have hnow := Limiter.now_of_next hn
  have hkey := key_next hpc hn
  have htodo := h.todo i
  have hself : (Function.update p.calls i (.up pc') i).at' = pc' := by
    rw [Function.update_self]
    rfl
  have hother : ∀ j, j ≠ i → Function.update p.calls i (.up pc') j = p.calls j :=
    fun j hj => Function.update_of_ne hj _ _
  refine ⟨fun j => ?_, fun key e he => ?_, fun j hj hpos e he => ?_, fun key x hpos hx => ?_⟩
  · by_cases hji : j = i
    · subst hji
      dsimp only
      rw [hself]
      exact Limiter.todo_of_next hn htodo
    · dsimp only
      rw [hother j hji]
      exact h.todo j
  · dsimp only at he ⊢
    rw [hnow]
    rcases Limiter.mem_of_next hn he with ⟨hold, -⟩ | ⟨hruns, -, rfl⟩
    · exact h.past key e hold
    · exact hsound.past i hruns.started
  · dsimp only at hj he hpos ⊢
    rw [hkey] at he hpos ⊢
    by_cases hji : j = i
    · subst hji
      rw [hself] at hj
      have hruns := runs_of_cleared hn htodo hj
      rw [timestamp_next hpc hn hruns.started]
      rcases Limiter.mem_of_next hn he with ⟨-, hin⟩ | ⟨hzadd, -, -⟩
      · exact hin hruns rfl
      · cases hruns.symm.trans hzadd
    · rw [hother j hji] at hj
      rw [timestamp_next hpc hn hj.1.1]
      rcases Limiter.mem_of_next hn he with ⟨hold, -⟩ | ⟨hzadd, hkeyi, rfl⟩
      · exact h.cleared j hj hpos e hold
      · have hle := horder (Or.inr (Or.inl hzadd)) j hj.1 hkeyi.symm
        exact lt_of_le_of_lt hle (Nat.lt_add_of_pos_right hpos)
  · exact h.renewed_next hpc hn key x hpos hx

/-- Nobody can count who could not, but for a call that starts. -/
theorem counting_next (h : Renewed rate p) (hpc : p.calls i = .up pc)
    (hn : checkRateLimit.next rate p.store random pc = some (s, pc')) (j : ι)
    (hj : counting ⟨s, Function.update p.calls i (.up pc')⟩ j) :
    (Function.update p.calls i (.up pc') j).at'.Started ∧
      (j = i ∧ ¬ pc.Started ∨ counting p j) := by
  obtain ⟨hlive, hlast⟩ := hj
  obtain ⟨hstarted, hold⟩ := reads_next hpc hn hlive
  refine ⟨hstarted, hold.imp_right fun hreads => ⟨hreads, fun k hk hkey => ?_⟩⟩
  have hj : (p.calls j).at'.Started := by
    obtain ⟨x, hx, hread⟩ := hreads.exists
    rw [hx]
    exact hread.started
  have hbegun : (Function.update p.calls i (.up pc') k).at'.Begun := by
    by_cases hki : k = i
    · subst hki
      have htodo := h.todo k
      rw [hpc] at hk htodo
      rw [Function.update_self]
      exact (begun_of_next hn htodo).mpr (Or.inl hk)
    · rwa [Function.update_of_ne hki]
  have hle := hlast k hbegun (by
    dsimp only
    rwa [key_next hpc hn, key_next hpc hn])
  rwa [timestamp_next hpc hn hj, timestamp_next hpc hn hk.1] at hle

/-- What a `ZREMRANGEBYSCORE` takes is out of the window of everybody who can still count. -/
theorem le_timestamp_of_counting (h : Renewed rate p) (hpc : p.calls i = .up pc)
    (hn : checkRateLimit.next rate p.store random pc = some (s, pc'))
    (hruns : pc.Runs .zremrangebyscore) {k : ι}
    (hk : counting ⟨s, Function.update p.calls i (.up pc')⟩ k)
    (hkey : (p.calls k).at'.key = pc.key) :
    timestamp p i ≤ timestamp p k := by
  obtain rfl : (p.calls i).at' = pc := by rw [hpc]; rfl
  have hbegun : (Function.update p.calls i (.up pc') i).at'.Begun := by
    rw [Function.update_self]
    exact (begun_of_next hn (h.todo i)).mpr (Or.inr hruns)
  have hle := hk.2 i hbegun (by
    dsimp only
    rw [key_next hpc hn, key_next hpc hn]
    exact hkey.symm)
  obtain ⟨-, ⟨rfl, -⟩ | hold⟩ := counting_next h hpc hn k hk
  · exact le_rfl
  · obtain ⟨x, hx, hread⟩ := hold.1.exists
    rwa [timestamp_next hpc hn hruns.started,
      timestamp_next hpc hn (by rw [hx]; exact hread.started)] at hle

omit [DecidableEq ι] in
/-- Whoever is let through has added its entry. -/
theorem added_of_let_through (h : Renewed rate p) {key : String} {j : ι}
    (hj : Admitted checkRateLimit rate (· = true) key (p.calls j)) : (p.calls j).at'.Added := by
  have htodo := h.todo j
  cases hc : p.calls j with
  | up pc =>
    rw [hc] at hj htodo
    obtain ⟨-, r, hr, -⟩ := hj
    cases pc with
    | start => cases hr
    | exec key e todo count =>
      have hzcard : .zcard ∉ todo := by
        intro hmem
        rw [Limiter.verdict, if_pos hmem] at hr
        cases hr
      refine ⟨trivial, fun hzadd => hzcard ?_⟩
      have hzadd' : .zadd ∈ todo := hzadd
      rcases Pc.todo_cases htodo with h | h | h | h | h <;> cases h <;> revert hzadd' <;> decide
    | returned => exact ⟨trivial, List.not_mem_nil⟩
  | down pc =>
    rw [hc] at hj
    obtain ⟨-, e, r, rfl, -⟩ := hj
    exact ⟨trivial, List.not_mem_nil⟩

omit [DecidableEq ι] in
/-- Whoever counts last counts all of them. -/
theorem card_lt (h : Renewed rate p) (hsound : Sound rate counting p) (hpc : p.calls i = .up pc)
    (hlast : NotOvertaken p i) (hruns : pc.Runs .zcard) (hpos : 0 < (rate pc.key).windowMs)
    (hallowed : (some (p.store.keys pc.key).zcard).any (· ≤ (rate pc.key).limit) = true)
    (S : Finset ι) (hS : ∀ y ∈ S,
      Admitted checkRateLimit rate (· = true) pc.key (p.calls y) ∧ y ≠ i ∧
        Near (rate pc.key).windowMs (timestamp p y) (timestamp p i)) :
    S.card + 1 ≤ (rate pc.key).limit := by
  classical
  obtain rfl : (p.calls i).at' = pc := by rw [hpc]; rfl
  have hle : (p.store.keys (p.calls i).at'.key).zcard ≤ (rate (p.calls i).at'.key).limit :=
    of_decide_eq_true hallowed
  have hreads : counting p i := by
    refine ⟨?_, hlast⟩
    rw [hpc, Proc.live_up]
    exact List.mem_of_mem_head? hruns
  have hself : (p.calls i).at'.Added := by
    refine ⟨hruns.started, ?_⟩
    rw [Pc.todo_of_zcard (h.todo i) hruns]
    decide
  have hmem : i ∉ S := fun hi => (hS i hi).2.1 rfl
  rw [← Finset.card_insert_of_notMem hmem]
  refine (hsound.card_le_zcard hreads fun y hy => ?_).trans hle
  rcases Finset.mem_insert.mp hy with rfl | hyS
  · exact ⟨hself, rfl, Nat.lt_add_of_pos_right hpos⟩
  · obtain ⟨hadmitted, -, hnear⟩ := hS y hyS
    exact ⟨added_of_let_through h hadmitted, hadmitted.key_eq, hnear.2⟩

/-- **A crash** of a call that has run all its commands, or none. -/
theorem Renewed.crash (h : Renewed rate p) (hpc : p.calls i = .up pc)
    (hdone : (p.calls i).at'.todo = []) :
    Renewed rate ⟨p.store, Function.update p.calls i (.down pc)⟩ := by
  have hat := at'_update_down hpc
  have hstamp : timestamp ⟨p.store, Function.update p.calls i (.down pc)⟩ = timestamp p :=
    funext fun j => congrArg (fun pc : Pc Bool => pc.entry.now) (hat j)
  refine ⟨fun j => ?_, h.past, fun j => ?_, fun key x hpos hx => ?_⟩
  · dsimp only
    rw [hat]
    exact h.todo j
  · rw [hstamp]
    dsimp only
    rw [hat]
    exact h.cleared j
  · rw [hstamp]
    refine (h.renewed key x hpos hx).imp_left ?_
    rintro ⟨k, hlive, hkey, hk⟩
    refine ⟨k, ?_, (congrArg Pc.key (hat k)).trans hkey, hk⟩
    have hne : k ≠ i := by
      rintro rfl
      rw [hpc] at hlive hdone
      have hexpire : Command.expire ∈ pc.todo := hlive.2
      rw [show pc.todo = [] from hdone] at hexpire
      cases hexpire
    dsimp only
    rwa [Function.update_of_ne hne]

omit [DecidableEq ι] in
/-- **Time.** -/
theorem Renewed.tick (h : Renewed rate p) (ms : ℕ) :
    Renewed rate ⟨p.store.tick ms, p.calls⟩ := by
  have hold : ∀ key, ∀ e ∈ ((p.store.tick ms).keys key).members,
      e ∈ (p.store.keys key).members := by
    intro key e he
    have hexpire : e ∈ ((p.store.keys key).expire (p.store.now + ms)).members := he
    rw [Volatile.members_expire] at hexpire
    split at hexpire
    case isTrue => exact absurd hexpire (Finset.notMem_empty e)
    case isFalse => exact hexpire
  refine ⟨h.todo, fun key e he => ?_, fun j hj hpos e he => h.cleared j hj hpos e (hold _ e he),
    fun key x hpos hx => ?_⟩
  · exact (h.past key e (hold key e he)).trans (Nat.le_add_right _ _)
  · have hkept : (p.store.tick ms).keys key = p.store.keys key := Volatile.expire_of_expiresAt hx
    dsimp only at hx ⊢
    rw [hkept] at hx ⊢
    exact h.renewed key x hpos hx

end Statement

/-! ## The limit -/

instance [Fintype ι] (p : Calls ι Bool) (i : ι) : Decidable (NotOvertaken p i) :=
  inferInstanceAs (Decidable (∀ j, (p.calls j).at'.Begun →
    (p.calls j).at'.key = (p.calls i).at'.key → timestamp p j ≤ timestamp p i))

instance [Fintype ι] (p : Calls ι Bool) : ∀ m : Move ι ℕ ℕ, Decidable (InOrder p m)
  | .run i random =>
    inferInstanceAs (Decidable (Fresh p i random ∧ ((p.calls i).at'.Uses → NotOvertaken p i)))
  | .crash _ => inferInstanceAs (Decidable True)
  | .env _ => inferInstanceAs (Decidable True)

instance [Fintype ι] (p : Calls ι Bool) : ∀ m : Move ι ℕ ℕ, Decidable (Prompt p m)
  | .run .. => inferInstanceAs (Decidable True)
  | .crash i => inferInstanceAs (Decidable ((p.calls i).at'.todo = []))
  | .env ms => inferInstanceAs (Decidable (∀ i, (p.calls i).Live (fun pc => pc.todo ≠ []) →
      p.store.now + ms ≤ timestamp p i + 1000))

variable [DecidableEq ι]

/-- What the pipelines of the socket events keep. -/
theorem renewed_run {now : ℕ} {keys : ι → String} (key : String) (hpos : 0 < (rate key).windowMs)
    (h : Run (Pool.step (checkRateLimit.machine rate)) (fun p m => InOrder p m ∧ Prompt p m)
      (idle now keys) p) :
    (Renewed rate p ∧ Sound rate counting p) ∧
      Bounded (rate key).windowMs (rate key).limit (timestamp p)
        fun i => Admitted checkRateLimit rate (· = true) key (p.calls i) := by
  refine Pool.invariant (I := fun p => (Renewed rate p ∧ Sound rate counting p) ∧
    Bounded (rate key).windowMs (rate key).limit (timestamp p)
      fun i => Admitted checkRateLimit rate (· = true) key (p.calls i)) ?_ ?_ ?_ ?_ h
  · exact ⟨⟨renewed_idle now keys, sound_idle now keys⟩, bounded_idle _ _ now keys⟩
  · rintro p i random pc s pc' ⟨⟨hrenewed, hsound⟩, hbound⟩ ⟨⟨hfresh, horder⟩, -⟩ hpc hn
    have horder' : pc.Uses → NotOvertaken p i := by rwa [hpc] at horder
    refine ⟨⟨hrenewed.next hsound hpc hn horder', hsound.next (by decide) hpc hfresh hn
      (counting_next hrenewed hpc hn) ?_⟩, bounded_next (by decide) hpc hn hbound ?_⟩
    · intro hruns j k _ _ hk hkeyk hout
      refine hout.trans ?_
      have hle := le_timestamp_of_counting hrenewed hpc hn hruns hk hkeyk
      unfold timestamp at hle
      rwa [hpc] at hle
    · rintro hruns rfl hallowed S hS
      exact card_lt hrenewed hsound hpc (horder' (Or.inr (Or.inr hruns))) hruns hpos hallowed S hS
  · rintro p i pc ⟨⟨hrenewed, hsound⟩, hbound⟩ ⟨-, hdone⟩ hpc
    refine ⟨⟨hrenewed.crash hpc hdone, hsound.crash hpc fun j hj => ?_⟩, bounded_crash hpc hbound⟩
    obtain ⟨hlive, hlast⟩ := hj
    refine ⟨(live_update_down hlive).2, fun k hk hkey => ?_⟩
    have hat := at'_update_down hpc
    have hle := hlast k (by dsimp only; rwa [hat]) (by dsimp only; rwa [hat, hat])
    unfold timestamp at hle
    dsimp only at hle
    rwa [hat, hat] at hle
  · rintro p ms ⟨⟨hrenewed, hsound⟩, hbound⟩ ⟨-, hprompt⟩
    have hlapse := hrenewed.mayLapse hsound hprompt
    exact ⟨⟨hrenewed.tick ms, hsound.tick hlapse fun j hj => hj⟩, hbound⟩

/-- **No window lets more than `limit` calls through**, where timestamps come in order and calls
take no longer than a second. -/
theorem checkRateLimit_keeps_limit {limit windowSeconds : String → ℕ} {now : ℕ}
    {keys : ι → String}
    (h : Run (Pool.step (checkRateLimit.machine fun key =>
        perSeconds (limit key) (windowSeconds key)))
      (fun p m => InOrder p m ∧ Prompt p m) (idle now keys) p) (key : String) :
    Bounded (windowSeconds key * 1000) (limit key) (timestamp p)
      fun i => Allowed (· = true) key (p.calls i) := by
  rcases Nat.eq_zero_or_pos (windowSeconds key * 1000) with hzero | hpos
  · rw [hzero]
    exact bounded_zero
  · obtain ⟨-, hbound⟩ := renewed_run key hpos h
    exact hbound.mono fun i hi => hi.admitted

/-- Of three events in a second two are let through, and one more when the second is over. -/
theorem checkRateLimit_two_a_second :
    ∃ p, Run (Pool.step (checkRateLimit.machine fun _ => perSeconds 2 1))
        (fun p m => InOrder p m ∧ Prompt p m) (idle 0 fun _ : Fin 4 => "rate:task_subscribe:s") p
      ∧ Bounded (1 * 1000) 2 (timestamp p) fun i =>
          Allowed (· = true) "rate:task_subscribe:s" (p.calls i) := by
  obtain ⟨p, hrun, -⟩ := exists_run_of_exec
    (Pool.step (checkRateLimit.machine fun _ => perSeconds 2 1))
    (fun p m => InOrder p m ∧ Prompt p m) (idle 0 fun _ : Fin 4 => "rate:task_subscribe:s")
    (List.flatten [List.replicate 6 (.run 0 0), List.replicate 6 (.run 1 1),
      List.replicate 6 (.run 2 2), [.env 1000], List.replicate 6 (.run 3 3)])
    (fun p => ∀ i : Fin 4, (p.calls i).at' =
      .returned "rate:task_subscribe:s" (p.calls i).at'.entry (i ≠ 2)) (by decide)
  exact ⟨p, hrun, checkRateLimit_keeps_limit hrun _⟩

/-- **Two heartbeats in less than the ten seconds for one**: the second call reads its clock, and
runs its commands 1001 ms later, when the key of the first one has expired. -/
theorem checkRateLimit_lets_two_in :
    ∃ p, Run (Pool.step (checkRateLimit.machine fun _ => perSeconds 1 10)) InOrder
        (idle 0 fun _ : Fin 2 => "rate:presence_heartbeat:s") p
      ∧ ¬ Bounded (10 * 1000) 1 (timestamp p) fun i =>
          Allowed (· = true) "rate:presence_heartbeat:s" (p.calls i) := by
  obtain ⟨p, hrun, hp⟩ := exists_run_of_exec
    (Pool.step (checkRateLimit.machine fun _ => perSeconds 1 10)) InOrder
    (idle 0 fun _ : Fin 2 => "rate:presence_heartbeat:s")
    (List.flatten [List.replicate 6 (.run 0 0), [.env 9999, .run 1 1, .env 1001],
      List.replicate 5 (.run 1 1)])
    (fun p => ∀ i, (p.calls i).at' =
        .returned "rate:presence_heartbeat:s" (p.calls i).at'.entry true
      ∧ timestamp p i < 0 + 10 * 1000) (by decide)
  have hcalls := of_decide_eq_true hp
  exact ⟨p, hrun, not_bounded (a := 0) (S := Finset.univ)
    (fun i _ => ⟨⟨_, true, (hcalls i).1, rfl⟩, Nat.zero_le _, (hcalls i).2⟩) (by decide)⟩

end WorkPlatform.RateLimit

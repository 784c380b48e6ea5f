import Mathlib.Data.Finset.Card
import WorkPlatform.Machinery.Run
import WorkPlatform.Machinery.Volatile

/-!
# RateLimit/Pipeline — the pipelines of the rate limiters, and the sorted sets they run on

    checkLimit       Date.now() ▸ ZREMRANGEBYSCORE ▸ ZCARD ▸ ZADD ▸ PEXPIRE ▸ decide
    checkRateLimit   Date.now() ▸ ZREMRANGEBYSCORE ▸ ZADD ▸ ZCARD ▸ EXPIRE  ▸ decide

A pipeline is a list of commands that are sent together; the server runs those of one pipeline in
order, with commands of other pipelines, and time, in between.  A call that gets no answer stops
where it is.  All clocks agree, that of the server among them, and times are in milliseconds.

A key is the name in Redis.  `ZREMRANGEBYSCORE` removes from the least score there can be, which
the one source writes `-inf` and the other `0`.
-/

namespace WorkPlatform.RateLimit

open Machinery

/-! ## Sorted sets -/

/-- The member `${now}-${Math.random()}`, whose score is `now`. -/
structure Entry where
  now : ℕ
  random : ℕ
  deriving DecidableEq

/-- A sorted set and the time at which it is gone. -/
abbrev SortedSet := Volatile Entry

namespace SortedSet

/-- `ZREMRANGEBYSCORE key 0 windowStart`, where `windowStart = now - windowMs`. -/
def zremrangebyscore (z : SortedSet) (now windowMs : ℕ) : SortedSet :=
  z.filter fun e => now < e.now + windowMs

def zadd (z : SortedSet) (e : Entry) : SortedSet := z.add e

def zcard (z : SortedSet) : ℕ := z.members.card

/-- `EXPIRE` and `PEXPIRE`. -/
def pexpire (z : SortedSet) (time : ℕ) : SortedSet := z.expireAt time

end SortedSet

/-! ## Commands -/

inductive Command
  | zremrangebyscore | zadd | zcard | expire
  deriving DecidableEq, Repr

/-- What a key is limited to: `limit` in `windowMs`. -/
structure Rate where
  limit : ℕ
  windowMs : ℕ
  deriving DecidableEq, Repr

/-- A rate limiter: the commands of its pipeline, how long it lets a key live, and what it answers,
given the result of `ZCARD`. -/
structure Limiter (ρ : Type) where
  commands : List Command
  ttl : ℕ → ℕ
  answer : Rate → Option ℕ → ρ

/-- The server; the sorted sets are those of the rate limiters only. -/
structure Store where
  now : ℕ
  keys : String → SortedSet

variable {ρ : Type}

/-- A command of a call that has read the clock at `e.now`, at the time `now`. -/
def Limiter.apply (L : Limiter ρ) (rate : Rate) (e : Entry) (now : ℕ) (z : SortedSet) :
    Command → SortedSet
  | .zremrangebyscore => z.zremrangebyscore e.now rate.windowMs
  | .zadd => z.zadd e
  | .zcard => z
  | .expire => z.pexpire (now + L.ttl rate.windowMs)

/-- The result of `ZCARD`, once it has run. -/
def Command.result (z : SortedSet) (count : Option ℕ) : Command → Option ℕ
  | .zcard => some z.zcard
  | _ => count

/-! ## Calls -/

/-- Where a call stands: `todo` are the commands still to run. -/
inductive Pc (ρ : Type)
  | start (key : String)
  | exec (key : String) (e : Entry) (todo : List Command) (count : Option ℕ)
  | returned (key : String) (e : Entry) (result : ρ)
  deriving DecidableEq

def Store.set (s : Store) (key : String) (z : SortedSet) : Store :=
  { s with keys := Function.update s.keys key z }

/-- The next statement of a call; `random` is what `Math.random()` gives. -/
def Limiter.next (L : Limiter ρ) (rate : String → Rate) (s : Store) (random : ℕ) :
    Pc ρ → Option (Store × Pc ρ)
  | .start key => some (s, .exec key ⟨s.now, random⟩ L.commands none)
  | .exec key e (c :: todo) count =>
    some (s.set key (L.apply (rate key) e s.now (s.keys key) c),
      .exec key e todo (c.result (s.keys key) count))
  | .exec key e [] count => some (s, .returned key e (L.answer (rate key) count))
  | .returned .. => none

/-- The clock goes on, and keys expire. -/
def Store.tick (s : Store) (ms : ℕ) : Store where
  now := s.now + ms
  keys := fun key => (s.keys key).expire (s.now + ms)

def Limiter.machine (L : Limiter ρ) (rate : String → Rate) : Machine Store (Pc ρ) ℕ ℕ :=
  ⟨fun s pc random => L.next rate s random pc, Store.tick⟩

/-- Calls of a rate limiter, in any number of processes, over the server. -/
abbrev Calls (ι : Type*) (ρ : Type) := Pool ι Store (Pc ρ)

/-- Nothing has been called yet. -/
def idle {ι : Type*} (now : ℕ) (key : ι → String) : Calls ι ρ :=
  ⟨⟨now, fun _ => .empty⟩, fun i => .up (.start (key i))⟩

/-! ## Where a call stands -/

namespace Pc

/-- The key a call is about. -/
def key : Pc ρ → String
  | start key => key
  | exec key .. => key
  | returned key .. => key

/-- The member of the call; a call that has not read the clock has none. -/
def entry : Pc ρ → Entry
  | start _ => ⟨0, 0⟩
  | exec _ e .. => e
  | returned _ e _ => e

/-- The commands that a call is still to run. -/
def todo : Pc ρ → List Command
  | exec _ _ todo _ => todo
  | _ => []

/-- The next command is `c`. -/
def Runs (c : Command) (pc : Pc ρ) : Prop := pc.todo.head? = some c

/-- The call has read the clock. -/
def Started : Pc ρ → Prop
  | start _ => False
  | exec .. => True
  | returned .. => True

/-- The call is still to count. -/
def Reads (pc : Pc ρ) : Prop := .zcard ∈ pc.todo

/-- The call has added its entry. -/
def Added (pc : Pc ρ) : Prop := pc.Started ∧ .zadd ∉ pc.todo

/-- The call has counted. -/
def Counted (pc : Pc ρ) : Prop := pc.Started ∧ .zcard ∉ pc.todo

instance : DecidablePred (Started : Pc ρ → Prop)
  | start _ => inferInstanceAs (Decidable False)
  | exec .. => inferInstanceAs (Decidable True)
  | returned .. => inferInstanceAs (Decidable True)

instance (c : Command) : DecidablePred (Runs c : Pc ρ → Prop) := fun pc =>
  inferInstanceAs (Decidable (pc.todo.head? = some c))

instance : DecidablePred (Reads : Pc ρ → Prop) := fun pc =>
  inferInstanceAs (Decidable (.zcard ∈ pc.todo))

instance : DecidablePred (Added : Pc ρ → Prop) := fun pc =>
  inferInstanceAs (Decidable (pc.Started ∧ .zadd ∉ pc.todo))

instance : DecidablePred (Counted : Pc ρ → Prop) := fun pc =>
  inferInstanceAs (Decidable (pc.Started ∧ .zcard ∉ pc.todo))

theorem started_of_mem_todo {c : Command} : ∀ {pc : Pc ρ}, c ∈ pc.todo → pc.Started
  | exec .., _ => trivial

theorem Reads.started {pc : Pc ρ} (h : pc.Reads) : pc.Started := started_of_mem_todo h

theorem Runs.started {c : Command} {pc : Pc ρ} (h : pc.Runs c) : pc.Started :=
  started_of_mem_todo (List.mem_of_mem_head? h)

end Pc

/-! ## What a statement does -/

namespace Limiter

variable {L : Limiter ρ} {rate : String → Rate} {s s' : Store} {random : ℕ} {pc pc' : Pc ρ}

/-- It reads the clock, runs a command, or answers. -/
theorem next_cases (h : L.next rate s random pc = some (s', pc')) :
    (∃ key, pc = .start key ∧ s' = s ∧ pc' = .exec key ⟨s.now, random⟩ L.commands none) ∨
    (∃ key e c todo count, pc = .exec key e (c :: todo) count ∧
      s' = s.set key (L.apply (rate key) e s.now (s.keys key) c) ∧
      pc' = .exec key e todo (c.result (s.keys key) count)) ∨
    ∃ key e count, pc = .exec key e [] count ∧ s' = s ∧
      pc' = .returned key e (L.answer (rate key) count) := by
  unfold Limiter.next at h
  split at h
  case h_1 key =>
    obtain ⟨rfl, rfl⟩ := Prod.mk.inj (Option.some.inj h)
    exact Or.inl ⟨key, rfl, rfl, rfl⟩
  case h_2 key e c todo count =>
    obtain ⟨rfl, rfl⟩ := Prod.mk.inj (Option.some.inj h)
    exact Or.inr (Or.inl ⟨key, e, c, todo, count, rfl, rfl, rfl⟩)
  case h_3 key e count =>
    obtain ⟨rfl, rfl⟩ := Prod.mk.inj (Option.some.inj h)
    exact Or.inr (Or.inr ⟨key, e, count, rfl, rfl, rfl⟩)
  case h_4 => cases h

theorem key_of_next (h : L.next rate s random pc = some (s', pc')) : pc'.key = pc.key := by
  obtain ⟨_, rfl, rfl, rfl⟩ | ⟨_, _, _, _, _, rfl, rfl, rfl⟩ | ⟨_, _, _, rfl, rfl, rfl⟩ :=
    next_cases h <;> rfl

theorem started_of_next (h : L.next rate s random pc = some (s', pc')) : pc'.Started := by
  obtain ⟨_, rfl, rfl, rfl⟩ | ⟨_, _, _, _, _, rfl, rfl, rfl⟩ | ⟨_, _, _, rfl, rfl, rfl⟩ :=
    next_cases h <;> trivial

theorem now_of_next (h : L.next rate s random pc = some (s', pc')) : s'.now = s.now := by
  obtain ⟨_, rfl, rfl, rfl⟩ | ⟨_, _, _, _, _, rfl, rfl, rfl⟩ | ⟨_, _, _, rfl, rfl, rfl⟩ :=
    next_cases h <;> rfl

/-- The member is drawn when the clock is read. -/
theorem entry_of_next (h : L.next rate s random pc = some (s', pc')) :
    pc.Started ∧ pc'.entry = pc.entry ∨ ¬ pc.Started ∧ pc'.entry = ⟨s.now, random⟩ := by
  obtain ⟨_, rfl, rfl, rfl⟩ | ⟨_, _, _, _, _, rfl, rfl, rfl⟩ | ⟨_, _, _, rfl, rfl, rfl⟩ :=
    next_cases h
  · exact Or.inr ⟨id, rfl⟩
  · exact Or.inl ⟨trivial, rfl⟩
  · exact Or.inl ⟨trivial, rfl⟩

/-- Nobody is still to count who was not. -/
theorem reads_of_next (h : L.next rate s random pc = some (s', pc')) (hreads : pc'.Reads) :
    ¬ pc.Started ∨ pc.Reads := by
  obtain ⟨_, rfl, rfl, rfl⟩ | ⟨_, _, _, _, _, rfl, rfl, rfl⟩ | ⟨_, _, _, rfl, rfl, rfl⟩ :=
    next_cases h
  · exact Or.inl id
  · exact Or.inr (List.mem_cons_of_mem _ hreads)
  · exact absurd hreads List.not_mem_nil

/-- Whoever adds its entry adds it to the set. -/
theorem added_of_next (hL : .zadd ∈ L.commands) (h : L.next rate s random pc = some (s', pc'))
    (hadded : pc'.Added) :
    pc'.entry ∈ (s'.keys pc'.key).members ∨ pc.Added ∧ pc'.entry = pc.entry := by
  obtain ⟨_, rfl, rfl, rfl⟩ | ⟨key, e, c, todo, _, rfl, rfl, rfl⟩ | ⟨_, _, _, rfl, rfl, rfl⟩ :=
    next_cases h
  · exact absurd hL hadded.2
  · by_cases hc : c = .zadd
    · subst hc
      refine Or.inl ?_
      show e ∈ (Function.update s.keys key _ key).members
      rw [Function.update_self]
      exact Finset.mem_insert_self e _
    · refine Or.inr ⟨⟨trivial, fun hmem => ?_⟩, rfl⟩
      rcases List.mem_cons.mp hmem with heq | htodo
      · exact hc heq.symm
      · exact hadded.2 htodo
  · exact Or.inr ⟨⟨trivial, List.not_mem_nil⟩, rfl⟩

/-- A command takes away what is out of its window, if it is a `ZREMRANGEBYSCORE`. -/
theorem left_of_apply {z : SortedSet} {r : Rate} {e e' : Entry} {now : ℕ} {c : Command}
    (hmem : e ∈ z.members) (hleft : e ∉ (L.apply r e' now z c).members) :
    c = .zremrangebyscore ∧ e.now + r.windowMs ≤ e'.now := by
  cases c with
  | zremrangebyscore =>
    refine ⟨rfl, Nat.not_lt.mp fun hlt => hleft ?_⟩
    show e ∈ (z.zremrangebyscore e'.now r.windowMs).members
    rw [SortedSet.zremrangebyscore, Volatile.members_filter]
    exact Finset.mem_filter.mpr ⟨hmem, hlt⟩
  | zadd => exact absurd (Finset.mem_insert_of_mem hmem) hleft
  | zcard => exact absurd hmem hleft
  | expire =>
    refine absurd ?_ hleft
    show e ∈ (z.pexpire _).members
    rwa [SortedSet.pexpire, Volatile.members_expireAt]

/-- An entry leaves its set only by the first statement of a request, after its window. -/
theorem left_of_next (h : L.next rate s random pc = some (s', pc')) {key : String} {e : Entry}
    (hmem : e ∈ (s.keys key).members) (hleft : e ∉ (s'.keys key).members) :
    pc.Runs .zremrangebyscore ∧ pc.key = key ∧ pc.Started ∧
      e.now + (rate key).windowMs ≤ pc.entry.now := by
  obtain ⟨_, rfl, rfl, rfl⟩ | ⟨key', e', c, todo, _, rfl, rfl, rfl⟩ | ⟨_, _, _, rfl, rfl, rfl⟩ :=
    next_cases h
  · exact absurd hmem hleft
  · have hset : e ∉ (Function.update s.keys key' _ key).members := hleft
    by_cases hkey : key = key'
    · subst hkey
      rw [Function.update_self] at hset
      obtain ⟨rfl, hout⟩ := left_of_apply hmem hset
      exact ⟨rfl, rfl, trivial, hout⟩
    · rw [Function.update_of_ne hkey] at hset
      exact absurd hmem hset
  · exact absurd hmem hleft

/-- Entries come with a `ZADD`; those that a `ZREMRANGEBYSCORE` leaves are in its window. -/
theorem mem_of_next (h : L.next rate s random pc = some (s', pc')) {key : String} {e : Entry}
    (hmem : e ∈ (s'.keys key).members) :
    e ∈ (s.keys key).members ∧ (pc.Runs .zremrangebyscore → pc.key = key →
        pc.entry.now < e.now + (rate key).windowMs) ∨
      pc.Runs .zadd ∧ pc.key = key ∧ e = pc.entry := by
  obtain ⟨_, rfl, rfl, rfl⟩ | ⟨key', e', c, todo, _, rfl, rfl, rfl⟩ | ⟨_, _, _, rfl, rfl, rfl⟩ :=
    next_cases h
  · exact Or.inl ⟨hmem, fun hruns => absurd hruns.started id⟩
  · have hset : e ∈ (Function.update s.keys key' _ key).members := hmem
    by_cases hkey : key = key'
    · subst hkey
      rw [Function.update_self] at hset
      cases c with
      | zremrangebyscore =>
        have hfilter : e ∈ (Volatile.filter (s.keys key) _).members := hset
        rw [Volatile.members_filter] at hfilter
        obtain ⟨hold, hin⟩ := Finset.mem_filter.mp hfilter
        exact Or.inl ⟨hold, fun _ _ => hin⟩
      | zadd =>
        rcases Finset.mem_insert.mp hset with rfl | hold
        · exact Or.inr ⟨rfl, rfl, rfl⟩
        · exact Or.inl ⟨hold, fun hruns => by cases hruns⟩
      | zcard => exact Or.inl ⟨hset, fun hruns => by cases hruns⟩
      | expire =>
        have hold : e ∈ ((s.keys key).pexpire _).members := hset
        rw [SortedSet.pexpire, Volatile.members_expireAt] at hold
        exact Or.inl ⟨hold, fun hruns => by cases hruns⟩
    · rw [Function.update_of_ne hkey] at hset
      exact Or.inl ⟨hset, fun _ heq => absurd heq.symm hkey⟩
  · exact Or.inl ⟨hmem, fun hruns => by cases hruns⟩

/-- When a key expires is set by an `EXPIRE` only. -/
theorem expiresAt_of_next (h : L.next rate s random pc = some (s', pc')) {key : String} {x : ℕ}
    (hx : (s'.keys key).expiresAt = some x) :
    (s.keys key).expiresAt = some x ∧ ¬ (pc.Runs .expire ∧ pc.key = key) ∨
      pc.Runs .expire ∧ pc.key = key ∧ x = s.now + L.ttl (rate key).windowMs := by
  obtain ⟨_, rfl, rfl, rfl⟩ | ⟨key', e', c, todo, _, rfl, rfl, rfl⟩ | ⟨_, _, _, rfl, rfl, rfl⟩ :=
    next_cases h
  · exact Or.inl ⟨hx, fun hruns => absurd hruns.1.started id⟩
  · have hset : (Function.update s.keys key' _ key).expiresAt = some x := hx
    by_cases hkey : key = key'
    · subst hkey
      rw [Function.update_self] at hset
      cases c with
      | zremrangebyscore =>
        exact Or.inl ⟨Volatile.expiresAt_filter hset, fun hruns => by cases hruns.1⟩
      | zadd => exact Or.inl ⟨hset, fun hruns => by cases hruns.1⟩
      | zcard => exact Or.inl ⟨hset, fun hruns => by cases hruns.1⟩
      | expire => exact Or.inr ⟨rfl, rfl, Volatile.expiresAt_expireAt hset⟩
    · rw [Function.update_of_ne hkey] at hset
      exact Or.inl ⟨hset, fun hruns => hkey hruns.2.symm⟩
  · exact Or.inl ⟨hx, fun hruns => by cases hruns.1⟩

/-- What is still to be run is the end of the pipeline. -/
theorem todo_of_next (h : L.next rate s random pc = some (s', pc'))
    (htodo : pc.todo ∈ L.commands.tails) : pc'.todo ∈ L.commands.tails := by
  rw [List.mem_tails] at htodo ⊢
  obtain ⟨_, rfl, rfl, rfl⟩ | ⟨_, _, c, todo, _, rfl, rfl, rfl⟩ | ⟨_, _, _, rfl, rfl, rfl⟩ :=
    next_cases h
  · exact List.suffix_rfl
  · exact (List.suffix_cons c todo).trans htodo
  · exact htodo

/-- The answer is settled by the `ZCARD`. -/
def verdict (L : Limiter ρ) (rate : String → Rate) : Pc ρ → Option ρ
  | .start _ => none
  | .exec key _ todo count => if .zcard ∈ todo then none else some (L.answer (rate key) count)
  | .returned _ _ result => some result

/-- A verdict is given when the ZCARD is run, on what it has counted. -/
theorem verdict_of_next (hL : .zcard ∈ L.commands) (h : L.next rate s random pc = some (s', pc'))
    {r : ρ} (hr : L.verdict rate pc' = some r) :
    L.verdict rate pc = some r ∨
      pc.Runs .zcard ∧ r = L.answer (rate pc.key) (some (s.keys pc.key).zcard) := by
  obtain ⟨_, rfl, rfl, rfl⟩ | ⟨key, e, c, todo, count, rfl, rfl, rfl⟩ | ⟨_, _, _, rfl, rfl, rfl⟩ :=
    next_cases h
  · rw [verdict, if_pos hL] at hr
    cases hr
  · rw [verdict] at hr
    split at hr
    case isTrue => cases hr
    case isFalse hnot =>
      obtain rfl := Option.some.inj hr
      by_cases hc : c = .zcard
      · subst hc
        exact Or.inr ⟨rfl, rfl⟩
      · have hnot' : .zcard ∉ c :: todo := fun hmem =>
          (List.mem_cons.mp hmem).elim (fun heq => hc heq.symm) hnot
        left
        rw [verdict, if_neg hnot']
        cases c <;> first | rfl | exact absurd rfl hc
  · left
    rw [verdict, if_neg List.not_mem_nil]
    exact hr

end Limiter

end WorkPlatform.RateLimit

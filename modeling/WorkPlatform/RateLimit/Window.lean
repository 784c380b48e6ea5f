import WorkPlatform.Machinery.Window
import WorkPlatform.RateLimit.Pipeline

/-!
# RateLimit/Window — an entry is there as long as somebody may have to count it

    Added ▸ in the set, or out of the window of everybody who is still to count

A call **reads** while its `ZCARD` is still to run; which of those are to be answered for is up to
the limiter.  What takes entries out of a sorted set is a `ZREMRANGEBYSCORE` and the expiry of the
key; where they take only entries that are out of every reader's window, whoever counts finds the
entry of each call near it that has added one (`Sound.card_le_zcard`).
-/

namespace WorkPlatform.RateLimit

open Machinery Machinery.Window

variable {ι : Type*} {ρ : Type}

/-! ## What is kept -/

/-- Out of the window of everybody who reads the key, and of everybody who comes. -/
def Out (rate : String → Rate) (reads : ι → Prop) (p : Calls ι ρ) (key : String) (e : Entry) :
    Prop :=
  e.now + (rate key).windowMs ≤ p.store.now ∧
    ∀ i, reads i → (p.calls i).at'.key = key →
      e.now + (rate key).windowMs ≤ (p.calls i).at'.entry.now

/-- What a pool of calls keeps, where `reads` are those to be answered for. -/
structure Sound (rate : String → Rate) (reads : Calls ι ρ → ι → Prop) (p : Calls ι ρ) : Prop where
  /-- Nobody has read a time that is still to come. -/
  past : ∀ i, (p.calls i).at'.Started → (p.calls i).at'.entry.now ≤ p.store.now
  /-- The members of a key are distinct. -/
  distinct : ∀ i j, (p.calls i).at'.Started → (p.calls j).at'.Started →
    (p.calls i).at'.key = (p.calls j).at'.key → (p.calls i).at'.entry = (p.calls j).at'.entry →
    i = j
  /-- What was added is there, or out of the window. -/
  kept : ∀ j, (p.calls j).at'.Added →
    (p.calls j).at'.entry ∈ (p.store.keys (p.calls j).at'.key).members ∨
      Out rate (reads p) p (p.calls j).at'.key (p.calls j).at'.entry

variable {rate : String → Rate} {reads : Calls ι ρ → ι → Prop} {p q : Calls ι ρ}

/-- **Whoever counts finds the entries near it.** -/
theorem Sound.card_le_zcard (h : Sound rate reads p) {i : ι} (hi : reads p i) {S : Finset ι}
    (hS : ∀ y ∈ S, (p.calls y).at'.Added ∧ (p.calls y).at'.key = (p.calls i).at'.key ∧
      (p.calls i).at'.entry.now <
        (p.calls y).at'.entry.now + (rate (p.calls i).at'.key).windowMs) :
    S.card ≤ (p.store.keys (p.calls i).at'.key).zcard := by
  refine Finset.card_le_card_of_injOn (fun y => (p.calls y).at'.entry) ?_ ?_
  · intro y hy
    obtain ⟨hadded, hkey, hnear⟩ := hS y hy
    rcases h.kept y hadded with hmem | ⟨-, hout⟩
    · rwa [hkey] at hmem
    · have hlate := hout i hi hkey.symm
      rw [hkey] at hlate
      exact absurd hnear (Nat.not_lt.mpr hlate)
  · intro y hy y' hy' heq
    obtain ⟨hadded, hkey, -⟩ := hS y hy
    obtain ⟨hadded', hkey', -⟩ := hS y' hy'
    exact h.distinct y y' hadded.1 hadded'.1 (hkey.trans hkey'.symm) heq

/-- **A step keeps what was added** where it takes away only what is out of the window. -/
theorem Sound.kept_step (h : Sound rate reads p) (hnow : p.store.now ≤ q.store.now)
    (hadded : ∀ j, (q.calls j).at'.Added →
      (q.calls j).at'.entry ∈ (q.store.keys (q.calls j).at'.key).members ∨
        (p.calls j).at'.Added ∧ (q.calls j).at'.key = (p.calls j).at'.key ∧
          (q.calls j).at'.entry = (p.calls j).at'.entry)
    (hreads : ∀ i, reads q i → (q.calls i).at'.entry.now = q.store.now ∨
      reads p i ∧ (q.calls i).at'.key = (p.calls i).at'.key ∧
        (q.calls i).at'.entry = (p.calls i).at'.entry)
    (hleft : ∀ j, (p.calls j).at'.Added →
      (p.calls j).at'.entry ∈ (p.store.keys (p.calls j).at'.key).members →
      (p.calls j).at'.entry ∉ (q.store.keys (p.calls j).at'.key).members →
      Out rate (reads q) q (p.calls j).at'.key (p.calls j).at'.entry)
    (j : ι) (hj : (q.calls j).at'.Added) :
    (q.calls j).at'.entry ∈ (q.store.keys (q.calls j).at'.key).members ∨
      Out rate (reads q) q (q.calls j).at'.key (q.calls j).at'.entry := by
  rcases hadded j hj with hmem | ⟨hp, hkey, hentry⟩
  · exact Or.inl hmem
  rw [hkey, hentry]
  by_cases hq : (p.calls j).at'.entry ∈ (q.store.keys (p.calls j).at'.key).members
  · exact Or.inl hq
  rcases h.kept j hp with hmem | ⟨hpast, hout⟩
  · exact Or.inr (hleft j hp hmem hq)
  · refine Or.inr ⟨hpast.trans hnow, fun i hi hik => ?_⟩
    rcases hreads i hi with hnew | ⟨hold, hkey', hentry'⟩
    · rw [hnew]
      exact hpast.trans hnow
    · rw [hentry']
      exact hout i hold (hkey'.symm.trans hik)

/-! ## Statements, crashes and time -/

/-- No other call of the key has drawn the member of this one. -/
def Fresh (p : Calls ι ρ) (i : ι) (random : ℕ) : Prop :=
  ¬ (p.calls i).at'.Started → ∀ j, (p.calls j).at'.Started →
    (p.calls j).at'.key = (p.calls i).at'.key → (p.calls j).at'.entry ≠ ⟨p.store.now, random⟩

/-- The keys that expire hold nothing that is still in the window of somebody. -/
def MayLapse (rate : String → Rate) (reads : ι → Prop) (p : Calls ι ρ) (ms : ℕ) : Prop :=
  ∀ j, (p.calls j).at'.Added →
    (p.store.keys (p.calls j).at'.key).expired (p.store.now + ms) = true →
    (p.calls j).at'.entry.now + (rate (p.calls j).at'.key).windowMs ≤ p.store.now + ms ∧
      ∀ i, reads i → (p.calls i).at'.key = (p.calls j).at'.key →
        (p.calls j).at'.entry.now + (rate (p.calls j).at'.key).windowMs ≤ (p.calls i).at'.entry.now

/-- **Time.** -/
theorem Sound.tick {ms : ℕ} (h : Sound rate reads p) (hlapse : MayLapse rate (reads p) p ms)
    (hreads : ∀ j, reads ⟨p.store.tick ms, p.calls⟩ j → reads p j) :
    Sound rate reads ⟨p.store.tick ms, p.calls⟩ := by
  have hnow : p.store.now ≤ (p.store.tick ms).now := Nat.le_add_right _ _
  refine ⟨fun j hj => (h.past j hj).trans hnow, h.distinct, ?_⟩
  refine h.kept_step hnow (fun j hj => Or.inr ⟨hj, rfl, rfl⟩)
    (fun j hj => Or.inr ⟨hreads j hj, rfl, rfl⟩) fun j hj hmem hleft => ?_
  have hexpired : (p.store.keys (p.calls j).at'.key).expired (p.store.now + ms) = true := by
    by_contra hnot
    refine hleft ?_
    show _ ∈ ((p.store.keys (p.calls j).at'.key).expire (p.store.now + ms)).members
    rw [Volatile.members_expire, if_neg hnot]
    exact hmem
  obtain ⟨hpast, hout⟩ := hlapse j hj hexpired
  exact ⟨hpast, fun k hk => hout k (hreads k hk)⟩

/-- Nothing has been called. -/
theorem sound_idle (now : ℕ) (keys : ι → String) : Sound rate reads (idle now keys) where
  past _ h := h.elim
  distinct _ _ h := h.elim
  kept _ h := h.1.elim

instance [Fintype ι] (p : Calls ι ρ) (i : ι) (random : ℕ) : Decidable (Fresh p i random) :=
  inferInstanceAs (Decidable (¬ (p.calls i).at'.Started → ∀ j, (p.calls j).at'.Started →
    (p.calls j).at'.key = (p.calls i).at'.key →
    (p.calls j).at'.entry ≠ ⟨p.store.now, random⟩))

instance [Fintype ι] (rate : String → Rate) (reads : ι → Prop) [DecidablePred reads]
    (p : Calls ι ρ) (ms : ℕ) : Decidable (MayLapse rate reads p ms) :=
  inferInstanceAs (Decidable (∀ j, (p.calls j).at'.Added →
    (p.store.keys (p.calls j).at'.key).expired (p.store.now + ms) = true →
    (p.calls j).at'.entry.now + (rate (p.calls j).at'.key).windowMs ≤ p.store.now + ms ∧
      ∀ i, reads i → (p.calls i).at'.key = (p.calls j).at'.key →
        (p.calls j).at'.entry.now + (rate (p.calls j).at'.key).windowMs ≤
          (p.calls i).at'.entry.now))

variable [DecidableEq ι] {L : Limiter ρ} {s : Store} {i : ι} {pc pc' : Pc ρ} {random : ℕ}

/-- A call keeps its key. -/
theorem key_next (hpc : p.calls i = .up pc) (hn : L.next rate p.store random pc = some (s, pc'))
    (j : ι) : (Function.update p.calls i (.up pc') j).at'.key = (p.calls j).at'.key := by
  by_cases hj : j = i
  · subst hj
    rw [Function.update_self, hpc]
    exact L.key_of_next hn
  · rw [Function.update_of_ne hj]

/-- A call keeps its member, or has just drawn it. -/
theorem member_next (hpc : p.calls i = .up pc) (hn : L.next rate p.store random pc = some (s, pc'))
    (j : ι) (hj : (Function.update p.calls i (.up pc') j).at'.Started) :
    (p.calls j).at'.Started ∧
        (Function.update p.calls i (.up pc') j).at'.entry = (p.calls j).at'.entry ∨
      j = i ∧ ¬ pc.Started ∧
        (Function.update p.calls i (.up pc') j).at'.entry = ⟨p.store.now, random⟩ := by
  by_cases hji : j = i
  · subst hji
    rw [Function.update_self, hpc]
    rcases L.entry_of_next hn with hold | hnew
    · exact Or.inl hold
    · exact Or.inr ⟨rfl, hnew⟩
  · rw [Function.update_of_ne hji] at hj ⊢
    exact Or.inl ⟨hj, rfl⟩

/-- What a call has added is in the set, or was so before. -/
theorem added_next (hL : .zadd ∈ L.commands) (hpc : p.calls i = .up pc)
    (hn : L.next rate p.store random pc = some (s, pc')) (j : ι)
    (hj : (Function.update p.calls i (.up pc') j).at'.Added) :
    (Function.update p.calls i (.up pc') j).at'.entry ∈
        (s.keys (Function.update p.calls i (.up pc') j).at'.key).members ∨
      (p.calls j).at'.Added ∧
        (Function.update p.calls i (.up pc') j).at'.key = (p.calls j).at'.key ∧
        (Function.update p.calls i (.up pc') j).at'.entry = (p.calls j).at'.entry := by
  have hkey := key_next hpc hn j
  by_cases hji : j = i
  · subst hji
    rw [Function.update_self] at hj hkey ⊢
    rcases L.added_of_next hL hn hj with hmem | ⟨hadded, hentry⟩
    · exact Or.inl hmem
    · rw [hpc] at hkey ⊢
      exact Or.inr ⟨hadded, hkey, hentry⟩
  · rw [Function.update_of_ne hji] at hj ⊢
    exact Or.inr ⟨hj, rfl, rfl⟩

/-- **A statement.**  What a `ZREMRANGEBYSCORE` takes is out of the window of those who read. -/
theorem Sound.next (h : Sound rate reads p) (hL : .zadd ∈ L.commands) (hpc : p.calls i = .up pc)
    (hfresh : Fresh p i random) (hn : L.next rate p.store random pc = some (s, pc'))
    (hreads : ∀ j, reads ⟨s, Function.update p.calls i (.up pc')⟩ j →
      (Function.update p.calls i (.up pc') j).at'.Started ∧ (j = i ∧ ¬ pc.Started ∨ reads p j))
    (htake : pc.Runs .zremrangebyscore → ∀ j k, (p.calls j).at'.Added →
      (p.calls j).at'.key = pc.key → reads ⟨s, Function.update p.calls i (.up pc')⟩ k →
      (p.calls k).at'.key = pc.key →
      (p.calls j).at'.entry.now + (rate pc.key).windowMs ≤ pc.entry.now →
      (p.calls j).at'.entry.now + (rate pc.key).windowMs ≤ (p.calls k).at'.entry.now) :
    Sound rate reads ⟨s, Function.update p.calls i (.up pc')⟩ := by
  have hat : (p.calls i).at' = pc := by rw [hpc]; rfl
  have hkey := key_next hpc hn
  have hnow := L.now_of_next hn
  have hmember := member_next hpc hn
  refine ⟨fun j hj => ?_, fun j k hj hk hjk heq => ?_, ?_⟩
  · rcases hmember j hj with ⟨hold, hentry⟩ | ⟨-, -, hentry⟩
    · dsimp only
      rw [hentry, hnow]
      exact h.past j hold
    · dsimp only
      rw [hentry, hnow]
  · dsimp only at hjk heq
    rw [hkey, hkey] at hjk
    -- a member that was just drawn is nobody else's
    rcases hmember j hj with ⟨hoj, hej⟩ | ⟨rfl, hnj, hej⟩ <;>
      rcases hmember k hk with ⟨hok, hek⟩ | ⟨rfl, hnk, hek⟩
    · rw [hej, hek] at heq
      exact h.distinct j k hoj hok hjk heq
    · rw [hej, hek] at heq
      exact absurd heq (hfresh (by rwa [hat]) j hoj hjk)
    · rw [hej, hek] at heq
      exact absurd heq.symm (hfresh (by rwa [hat]) k hok hjk.symm)
    · rfl
  · refine h.kept_step hnow.ge (added_next hL hpc hn) (fun j hj => ?_)
      (fun j hj hmem hleft => ?_)
    · obtain ⟨hstarted, hcase⟩ := hreads j hj
      rcases hmember j hstarted with ⟨hold, hentry⟩ | ⟨-, -, hentry⟩
      · refine Or.inr ⟨hcase.resolve_left ?_, hkey j, hentry⟩
        rintro ⟨rfl, hnot⟩
        rw [hat] at hold
        exact hnot hold
      · left
        dsimp only
        rw [hentry, hnow]
    · obtain ⟨hruns, hkeyj, hstarted, hout⟩ := L.left_of_next hn hmem hleft
      rw [← hkeyj] at hout ⊢
      refine ⟨?_, fun k hk hkk => ?_⟩
      · have hpast := h.past i (by rwa [hat])
        rw [hat] at hpast
        dsimp only
        rw [hnow]
        exact hout.trans hpast
      · dsimp only at hkk ⊢
        rw [hkey] at hkk
        rcases hmember k (hreads k hk).1 with ⟨-, hentry⟩ | ⟨rfl, hnot, -⟩
        · rw [hentry]
          exact htake hruns j k hj hkeyj.symm hk hkk hout
        · exact absurd hstarted hnot

/-- **A crash.** -/
theorem Sound.crash (h : Sound rate reads p) (hpc : p.calls i = .up pc)
    (hreads : ∀ j, reads ⟨p.store, Function.update p.calls i (.down pc)⟩ j → reads p j) :
    Sound rate reads ⟨p.store, Function.update p.calls i (.down pc)⟩ := by
  have hat := at'_update_down hpc
  refine ⟨fun j => ?_, fun j k => ?_, ?_⟩
  · dsimp only
    rw [hat]
    exact h.past j
  · dsimp only
    rw [hat, hat]
    exact h.distinct j k
  · refine h.kept_step le_rfl (fun j hj => ?_) (fun j hj => ?_) fun j _ hmem hleft =>
      absurd hmem hleft
    · dsimp only at hj ⊢
      rw [hat] at hj ⊢
      exact Or.inr ⟨hj, rfl, rfl⟩
    · dsimp only
      rw [hat]
      exact Or.inr ⟨hreads j hj, rfl, rfl⟩

/-- Nobody is to count who was not, but for a call that starts. -/
theorem reads_next (hpc : p.calls i = .up pc) (hn : L.next rate p.store random pc = some (s, pc'))
    {j : ι} (hj : (Function.update p.calls i (.up pc') j).Live Pc.Reads) :
    (Function.update p.calls i (.up pc') j).at'.Started ∧
      (j = i ∧ ¬ pc.Started ∨ (p.calls j).Live Pc.Reads) := by
  rcases live_update_up hj with ⟨rfl, hreads⟩ | ⟨hne, hlive⟩
  · rw [Function.update_self]
    refine ⟨hreads.started, (Limiter.reads_of_next hn hreads).imp (⟨rfl, ·⟩) fun hold => ?_⟩
    rw [hpc]
    exact hold
  · rw [Function.update_of_ne hne]
    obtain ⟨k, hk, hreads⟩ := hlive.exists
    refine ⟨?_, Or.inr hlive⟩
    rw [hk]
    exact hreads.started

/-! ## Who is let through -/

/-- The call is let through, or will be if it gets its answer. -/
def Admitted (L : Limiter ρ) (rate : String → Rate) (allows : ρ → Prop) (key : String) :
    Proc (Pc ρ) → Prop
  | .up pc => pc.key = key ∧ ∃ r, L.verdict rate pc = some r ∧ allows r
  | .down pc => pc.key = key ∧ ∃ e r, pc = .returned key e r ∧ allows r

/-- The call was let through. -/
def Allowed (allows : ρ → Prop) (key : String) (c : Proc (Pc ρ)) : Prop :=
  ∃ e r, c.at' = .returned key e r ∧ allows r

/-- The timestamp of a call. -/
def timestamp (p : Calls ι ρ) (i : ι) : ℕ := (p.calls i).at'.entry.now

/-- The timestamp of a call that has read the clock stays. -/
theorem timestamp_next (hpc : p.calls i = .up pc)
    (hn : L.next rate p.store random pc = some (s, pc')) {j : ι} (hj : (p.calls j).at'.Started) :
    timestamp ⟨s, Function.update p.calls i (.up pc')⟩ j = timestamp p j := by
  have hstarted : (Function.update p.calls i (.up pc') j).at'.Started := by
    by_cases hji : j = i
    · subst hji
      rw [Function.update_self]
      exact L.started_of_next hn
    · rwa [Function.update_of_ne hji]
  rcases member_next hpc hn j hstarted with ⟨-, hentry⟩ | ⟨rfl, hnot, -⟩
  · exact congrArg Entry.now hentry
  · rw [hpc] at hj
    exact absurd hj hnot

variable {allows : ρ → Prop} {key : String}

omit [DecidableEq ι] in
theorem Allowed.admitted : ∀ {c : Proc (Pc ρ)}, Allowed allows key c → Admitted L rate allows key c
  | .up pc, ⟨e, r, hpc, hr⟩ => by
    obtain rfl : pc = .returned key e r := hpc
    exact ⟨rfl, r, rfl, hr⟩
  | .down pc, ⟨e, r, hpc, hr⟩ => by
    obtain rfl : pc = .returned key e r := hpc
    exact ⟨rfl, e, r, rfl, hr⟩

omit [DecidableEq ι] in
theorem Admitted.key_eq : ∀ {c : Proc (Pc ρ)}, Admitted L rate allows key c → c.at'.key = key
  | .up _, h => h.1
  | .down _, h => h.1

omit [DecidableEq ι] in
theorem Admitted.started : ∀ {c : Proc (Pc ρ)}, Admitted L rate allows key c → c.at'.Started
  | .up (.start _), ⟨_, _, hr, _⟩ => by cases hr
  | .up (.exec ..), _ => trivial
  | .up (.returned ..), _ => trivial
  | .down _, ⟨_, _, _, hpc, _⟩ => by
    rw [hpc]
    trivial

/-- Only the `ZCARD` of a call has it let through. -/
theorem admitted_next (hL : .zcard ∈ L.commands) (hpc : p.calls i = .up pc)
    (hn : L.next rate p.store random pc = some (s, pc')) {j : ι}
    (hj : Admitted L rate allows key (Function.update p.calls i (.up pc') j)) :
    Admitted L rate allows key (p.calls j) ∨
      j = i ∧ pc.Runs .zcard ∧ pc.key = key ∧
        allows (L.answer (rate key) (some (p.store.keys key).zcard)) := by
  by_cases hji : j = i
  · subst hji
    rw [Function.update_self] at hj
    obtain ⟨hkey, r, hr, hallows⟩ := hj
    rw [L.key_of_next hn] at hkey
    rcases L.verdict_of_next hL hn hr with hold | ⟨hruns, rfl⟩
    · rw [hpc]
      exact Or.inl ⟨hkey, r, hold, hallows⟩
    · rw [hkey] at hallows
      exact Or.inr ⟨rfl, hruns, hkey, hallows⟩
  · rw [Function.update_of_ne hji] at hj
    exact Or.inl hj

omit [DecidableEq ι] in
theorem bounded_idle (width limit now : ℕ) (keys : ι → String) :
    Bounded width limit (timestamp (idle now keys : Calls ι ρ))
      fun j => Admitted L rate allows key ((idle now keys : Calls ι ρ).calls j) :=
  bounded_of_forall_not fun _ h => h.started

/-- **A statement keeps the bound** where whoever is let through has counted those near it. -/
theorem bounded_next (hL : .zcard ∈ L.commands) (hpc : p.calls i = .up pc)
    (hn : L.next rate p.store random pc = some (s, pc')) {width limit : ℕ}
    (h : Bounded width limit (timestamp p) fun j => Admitted L rate allows key (p.calls j))
    (hcount : pc.Runs .zcard → pc.key = key →
      allows (L.answer (rate key) (some (p.store.keys key).zcard)) →
      ∀ S : Finset ι, (∀ y ∈ S, Admitted L rate allows key (p.calls y) ∧ y ≠ i ∧
        Near width (timestamp p y) (timestamp p i)) → S.card + 1 ≤ limit) :
    Bounded width limit (timestamp ⟨s, Function.update p.calls i (.up pc')⟩)
      fun j => Admitted L rate allows key (Function.update p.calls i (.up pc') j) := by
  have hsame : ∀ j, (p.calls j).at'.Started →
      timestamp ⟨s, Function.update p.calls i (.up pc')⟩ j = timestamp p j :=
    fun j hj => timestamp_next hpc hn hj
  have hold := h.congr fun j hj => hsame j (Admitted.started hj)
  by_cases hnew : pc.Runs .zcard ∧ pc.key = key ∧
      allows (L.answer (rate key) (some (p.store.keys key).zcard))
  · obtain ⟨hruns, hkey, hallows⟩ := hnew
    have hstarted : (p.calls i).at'.Started := by
      rw [hpc]
      exact Pc.Reads.started (List.mem_of_mem_head? hruns)
    refine hold.insert (x := i) (fun S hS => hcount hruns hkey hallows S fun y hy => ?_) fun y hy =>
      (admitted_next hL hpc hn hy).imp_right And.left
    obtain ⟨hadmitted, hne, hnear⟩ := hS y hy
    rw [hsame y (Admitted.started hadmitted), hsame i hstarted] at hnear
    exact ⟨hadmitted, hne, hnear⟩
  · refine hold.mono fun y hy => (admitted_next hL hpc hn hy).resolve_right ?_
    rintro ⟨rfl, hyes⟩
    exact hnew hyes

/-- A call that crashes is let through only if it was. -/
theorem bounded_crash (hpc : p.calls i = .up pc) {width limit : ℕ}
    (h : Bounded width limit (timestamp p) fun j => Admitted L rate allows key (p.calls j)) :
    Bounded width limit (timestamp ⟨p.store, Function.update p.calls i (.down pc)⟩)
      fun j => Admitted L rate allows key (Function.update p.calls i (.down pc) j) := by
  refine (h.congr fun j _ => ?_).mono fun j hj => ?_
  · exact congrArg (fun pc : Pc ρ => pc.entry.now) (at'_update_down hpc j)
  · by_cases hji : j = i
    · subst hji
      rw [Function.update_self] at hj
      rw [hpc]
      obtain ⟨-, e, r, rfl, hallows⟩ := hj
      exact ⟨rfl, r, rfl, hallows⟩
    · rwa [Function.update_of_ne hji] at hj

end WorkPlatform.RateLimit

import Mathlib.Data.Option.Defs
import WorkPlatform.Machinery.Run
import WorkPlatform.Machinery.Volatile

/-!
# Realtime/Presence — who is online, with one expiry for the whole organisation

    setOnline    HSET presence:org user ▸ EXPIRE presence:org 90
    heartbeat    HSET presence:org user ▸ EXPIRE presence:org 90
    setOffline   HDEL presence:org user
    getStatus    HGET presence:org user

The users of an organisation are the fields of one hash, and expire together, 90 seconds after the
last `EXPIRE` of any of them.  A user whose own 90 seconds are over stays online as long as somebody
else is (`silent_user_online`); where they run out with everybody's, the status is right in every
state (`status_iff_active`).

A call is two statements, and time goes by between them: a user is active while a call of his is
between its `HSET` and its `EXPIRE`, and for 90 seconds from then.
-/

namespace WorkPlatform.Presence

open Machinery

/-! ## The store -/

/-- A statement of `setOnline` or `heartbeat` (`hset`, `expire`), or of `setOffline` (`hdel`). -/
inductive Statement
  | hset | expire | hdel
  deriving DecidableEq

/-- A statement that was run. -/
structure Event where
  orgId : String
  userId : String
  time : ℕ
  statement : Statement
  deriving DecidableEq

/-- The hashes `presence:<org>`, every field of which has the value `online`.  The log is what was
run, the last first; Redis has no part in it. -/
structure Store where
  now : ℕ
  hashes : String → Volatile String
  log : List Event

/-- `PRESENCE_TTL`. -/
def presenceTtl : ℕ := 90 * 1000

inductive Status
  | online | offline
  deriving DecidableEq, Repr

/-- When the user last ran a statement of `setOnline` or `heartbeat`, unless `setOffline` came
after the last `HSET`. -/
def lastSeen (orgId userId : String) : List Event → Option ℕ
  | [] => none
  | e :: log =>
    if e.orgId = orgId ∧ e.userId = userId then
      match e.statement with
      | .hset => some e.time
      | .expire => (lastSeen orgId userId log).map fun _ => e.time
      | .hdel => none
    else lastSeen orgId userId log

/-- When anybody of the organisation last ran an `EXPIRE`. -/
def lastBeat (orgId : String) : List Event → Option ℕ
  | [] => none
  | e :: log =>
    if e.orgId = orgId ∧ e.statement = .expire then some e.time else lastBeat orgId log

namespace Store

def set (s : Store) (orgId : String) (h : Volatile String) : Store :=
  { s with hashes := Function.update s.hashes orgId h }

def ran (s : Store) (orgId userId : String) (statement : Statement) : Store :=
  { s with log := ⟨orgId, userId, s.now, statement⟩ :: s.log }

def hset (s : Store) (orgId userId : String) : Store :=
  (s.set orgId ((s.hashes orgId).add userId)).ran orgId userId .hset

/-- `EXPIRE presence:<org>`, in a call of `userId`. -/
def expire (s : Store) (orgId userId : String) : Store :=
  (s.set orgId ((s.hashes orgId).expireAt (s.now + presenceTtl))).ran orgId userId .expire

def hdel (s : Store) (orgId userId : String) : Store :=
  (s.set orgId ((s.hashes orgId).filter (· ≠ userId))).ran orgId userId .hdel

def getStatus (s : Store) (userId orgId : String) : Status :=
  if userId ∈ (s.hashes orgId).members then .online else .offline

/-- The clock goes on, and hashes expire. -/
def tick (s : Store) (ms : ℕ) : Store :=
  { s with
    now := s.now + ms
    hashes := fun orgId => (s.hashes orgId).expire (s.now + ms) }

end Store

/-! ## The calls -/

/-- Where a call of `setOnline`, `heartbeat` or `setOffline` is. -/
inductive Pc
  | hset (orgId userId : String)
  | expire (orgId userId : String)
  | hdel (orgId userId : String)
  | returned
  deriving DecidableEq

def setOnline (userId orgId : String) : Pc := .hset orgId userId

def heartbeat (userId orgId : String) : Pc := .hset orgId userId

def setOffline (userId orgId : String) : Pc := .hdel orgId userId

/-- The next statement of `setOnline`, `heartbeat` or `setOffline`. -/
def next (s : Store) : Pc → Option (Store × Pc)
  | .hset orgId userId => some (s.hset orgId userId, .expire orgId userId)
  | .expire orgId userId => some (s.expire orgId userId, .returned)
  | .hdel orgId userId => some (s.hdel orgId userId, .returned)
  | .returned => none

/-- The call is between its `HSET` and its `EXPIRE`. -/
def Pc.Renewing : Pc → Prop
  | .expire .. => True
  | _ => False

instance : DecidablePred Pc.Renewing
  | .expire .. => isTrue trivial
  | .hset .. | .hdel .. | .returned => isFalse id

def presenceMachine : Machine Store Pc Unit ℕ := ⟨fun s pc _ => next s pc, Store.tick⟩

abbrev Calls (ι : Type*) := Pool ι Store Pc

variable {ι : Type*}

/-- Nothing has been called yet. -/
def idle (now : ℕ) (calls : ι → Pc) : Calls ι :=
  ⟨⟨now, fun _ => .empty, []⟩, fun i => .up (calls i)⟩

/-! ## The law, and where it holds -/

/-- A call of the user is between its `HSET` and its `EXPIRE`. -/
def Calling (p : Calls ι) (orgId userId : String) : Prop :=
  ∃ i, (p.calls i).Live (· = .expire orgId userId)

/-- The user is in a call of `setOnline` or `heartbeat`, or was within the last 90 seconds, and has
not called `setOffline` since. -/
def Active (p : Calls ι) (orgId userId : String) : Prop :=
  ∃ time, lastSeen orgId userId p.store.log = some time ∧
    (p.store.now < time + presenceTtl ∨ Calling p orgId userId)

/-- A user is online if and only if he is active. -/
def Lawful (p : Calls ι) : Prop :=
  ∀ userId orgId, p.store.getStatus userId orgId = .online ↔ Active p orgId userId

/-- No hash expires before the `EXPIRE` of a call that has added its user. -/
def Outlives (p : Calls ι) (ms : ℕ) : Prop :=
  ∀ e ∈ p.store.log, ∀ _time ∈ lastSeen e.orgId e.userId p.store.log,
    Calling p e.orgId e.userId → ¬ (p.store.hashes e.orgId).expired (p.store.now + ms) = true

/-- When the 90 seconds of a user run out, so do those from the last `EXPIRE` of anybody. -/
def Together (p : Calls ι) (ms : ℕ) : Prop :=
  ∀ e ∈ p.store.log, ∀ time ∈ lastSeen e.orgId e.userId p.store.log,
    ¬ Calling p e.orgId e.userId → p.store.now < time + presenceTtl →
    time + presenceTtl ≤ p.store.now + ms →
      ∀ last ∈ lastBeat e.orgId p.store.log, last + presenceTtl ≤ p.store.now + ms

/-- The users of an organisation fall silent together, and no call is stopped, or comes too late,
between its `HSET` and its `EXPIRE`. -/
def Silence (p : Calls ι) : Move ι Unit ℕ → Prop
  | .run .. => True
  | .crash i => ¬ (p.calls i).Live Pc.Renewing
  | .env ms => Outlives p ms ∧ Together p ms

section Deciding

variable [Fintype ι]

instance (p : Calls ι) (orgId userId : String) : Decidable (Calling p orgId userId) :=
  inferInstanceAs (Decidable (∃ i, (p.calls i).Live (· = .expire orgId userId)))

instance (p : Calls ι) (ms : ℕ) : Decidable (Outlives p ms) :=
  inferInstanceAs (Decidable (∀ e ∈ p.store.log, ∀ _time ∈ lastSeen e.orgId e.userId p.store.log,
    Calling p e.orgId e.userId → ¬ (p.store.hashes e.orgId).expired (p.store.now + ms) = true))

instance (p : Calls ι) (ms : ℕ) : Decidable (Together p ms) :=
  inferInstanceAs (Decidable (∀ e ∈ p.store.log,
    ∀ time ∈ lastSeen e.orgId e.userId p.store.log, ¬ Calling p e.orgId e.userId →
      p.store.now < time + presenceTtl → time + presenceTtl ≤ p.store.now + ms →
        ∀ last ∈ lastBeat e.orgId p.store.log, last + presenceTtl ≤ p.store.now + ms))

instance (p : Calls ι) : ∀ m : Move ι Unit ℕ, Decidable (Silence p m)
  | .run .. => inferInstanceAs (Decidable True)
  | .crash i => inferInstanceAs (Decidable (¬ (p.calls i).Live Pc.Renewing))
  | .env ms => inferInstanceAs (Decidable (Outlives p ms ∧ Together p ms))

end Deciding

/-! ## What was run -/

section Logs

variable {s : Store} {orgId userId orgId' userId' : String} {time : ℕ}

theorem lastSeen_hset : lastSeen orgId' userId' (s.hset orgId userId).log =
    if orgId = orgId' ∧ userId = userId' then some s.now else lastSeen orgId' userId' s.log := rfl

theorem lastSeen_expire : lastSeen orgId' userId' (s.expire orgId userId).log =
    if orgId = orgId' ∧ userId = userId' then (lastSeen orgId' userId' s.log).map fun _ => s.now
    else lastSeen orgId' userId' s.log := rfl

theorem lastSeen_hdel : lastSeen orgId' userId' (s.hdel orgId userId).log =
    if orgId = orgId' ∧ userId = userId' then none else lastSeen orgId' userId' s.log := rfl

theorem lastBeat_hset : lastBeat orgId' (s.hset orgId userId).log = lastBeat orgId' s.log :=
  if_neg (by rintro ⟨-, ⟨⟩⟩)

theorem lastBeat_expire : lastBeat orgId' (s.expire orgId userId).log =
    if orgId = orgId' then some s.now else lastBeat orgId' s.log := by
  by_cases h : orgId = orgId'
  · rw [if_pos h]
    exact if_pos ⟨h, rfl⟩
  · rw [if_neg h]
    exact if_neg fun hboth => h hboth.1

theorem lastBeat_hdel : lastBeat orgId' (s.hdel orgId userId).log = lastBeat orgId' s.log :=
  if_neg (by rintro ⟨-, ⟨⟩⟩)

/-- Who was seen is on record. -/
theorem mem_log_of_lastSeen : ∀ {log : List Event}, lastSeen orgId userId log = some time →
    ∃ e ∈ log, e.orgId = orgId ∧ e.userId = userId
  | e :: log, h => by
      rw [lastSeen] at h
      split at h
      case isTrue heq => exact ⟨e, List.mem_cons_self, heq⟩
      case isFalse =>
        obtain ⟨e', he', heq⟩ := mem_log_of_lastSeen h
        exact ⟨e', List.mem_cons_of_mem e he', heq⟩

end Logs

namespace Store

variable {s : Store} {orgId userId orgId' : String}

/-- The members of a hash after an HSET. -/
theorem members_hset : ((s.hset orgId userId).hashes orgId').members =
    if orgId = orgId' then insert userId (s.hashes orgId').members
    else (s.hashes orgId').members := by
  show (Function.update s.hashes orgId _ orgId').members = _
  by_cases h : orgId = orgId'
  · subst h
    rw [Function.update_self, if_pos rfl]
    rfl
  · rw [Function.update_of_ne (Ne.symm h), if_neg h]

theorem members_expire :
    ((s.expire orgId userId).hashes orgId').members = (s.hashes orgId').members := by
  show (Function.update s.hashes orgId _ orgId').members = _
  by_cases h : orgId = orgId'
  · subst h
    rw [Function.update_self, Volatile.members_expireAt]
  · rw [Function.update_of_ne (Ne.symm h)]

theorem members_hdel : ((s.hdel orgId userId).hashes orgId').members =
    if orgId = orgId' then (s.hashes orgId').members.filter (· ≠ userId)
    else (s.hashes orgId').members := by
  show (Function.update s.hashes orgId _ orgId').members = _
  by_cases h : orgId = orgId'
  · subst h
    rw [Function.update_self, if_pos rfl, Volatile.members_filter]
  · rw [Function.update_of_ne (Ne.symm h), if_neg h]

end Store

section Callers

variable [DecidableEq ι] {p : Calls ι} {i : ι} {s : Store} {orgId userId org user : String}

/-- A call that has run its `HSET` is calling, and nobody else's call has moved. -/
theorem calling_hset (hpc : p.calls i = .up (.hset orgId userId)) :
    Calling ⟨s, Function.update p.calls i (.up (.expire orgId userId))⟩ org user ↔
      orgId = org ∧ userId = user ∨ Calling p org user := by
  constructor
  · rintro ⟨j, hj⟩
    rcases live_update_up hj with ⟨-, heq⟩ | ⟨-, hlive⟩
    · exact Or.inl (Pc.expire.inj heq)
    · exact Or.inr ⟨j, hlive⟩
  · rintro (⟨rfl, rfl⟩ | hlive)
    · exact exists_live_self rfl
    · exact exists_live_of_ne (exists_live_ne hpc (by rintro ⟨⟩) hlive) _

/-- A call that goes on with no `EXPIRE` before or after it. -/
theorem calling_of_not_renewing {pc : Pc} {c : Proc Pc} (hpc : p.calls i = .up pc)
    (hnot : ¬ pc.Renewing) (hc : ¬ c.Live (· = .expire org user)) :
    Calling ⟨s, Function.update p.calls i c⟩ org user ↔ Calling p org user := by
  constructor
  · rintro ⟨j, hj⟩
    rcases update_cases (Proc.Live (· = Pc.expire org user)) hj with ⟨-, hself⟩ | ⟨-, hlive⟩
    · exact absurd hself hc
    · exact ⟨j, hlive⟩
  · refine fun hlive => exists_live_of_ne (exists_live_ne hpc ?_ hlive) _
    rintro rfl
    exact hnot trivial

/-- A call that has run its `EXPIRE` leaves another user's calls as they were. -/
theorem calling_expire (hpc : p.calls i = .up (.expire orgId userId))
    (hne : ¬ (orgId = org ∧ userId = user)) :
    Calling ⟨s, Function.update p.calls i (.up .returned)⟩ org user ↔ Calling p org user := by
  constructor
  · rintro ⟨j, hj⟩
    rcases live_update_up hj with ⟨-, ⟨⟩⟩ | ⟨-, hlive⟩
    exact ⟨j, hlive⟩
  · exact fun hlive =>
      exists_live_of_ne (exists_live_ne hpc (fun heq => hne (Pc.expire.inj heq)) hlive) _

end Callers

/-! ## What is kept -/

/-- What every state keeps: who is listed, and until when. -/
structure Kept (p : Calls ι) : Prop where
  past : ∀ orgId userId time, lastSeen orgId userId p.store.log = some time → time ≤ p.store.now
  listed : ∀ orgId userId, userId ∈ (p.store.hashes orgId).members ↔ Active p orgId userId
  /-- The call of a user who is not calling has run its `EXPIRE`, and the hash was there. -/
  renewed : ∀ orgId userId, userId ∈ (p.store.hashes orgId).members → ¬ Calling p orgId userId →
    ∃ last, lastBeat orgId p.store.log = some last ∧
      (p.store.hashes orgId).expiresAt = some (last + presenceTtl) ∧
      ∀ time, lastSeen orgId userId p.store.log = some time → time ≤ last

theorem Kept.lawful {p : Calls ι} (h : Kept p) : Lawful p := by
  intro userId orgId
  rw [← h.listed, Store.getStatus]
  split
  case isTrue hmem => exact iff_of_true rfl hmem
  case isFalse hmem => exact iff_of_false (by rintro ⟨⟩) hmem

theorem kept_idle (now : ℕ) (calls : ι → Pc) : Kept (idle now calls) where
  past _ _ _ h := by cases h
  listed _ _ := iff_of_false (Finset.notMem_empty _) (by rintro ⟨_, ⟨⟩, -⟩)
  renewed _ _ h := absurd h (Finset.notMem_empty _)

variable [DecidableEq ι] {p : Calls ι} {i : ι}

/-- The HSET makes its user active. -/
theorem Kept.hset {orgId userId : String} (h : Kept p)
    (hpc : p.calls i = .up (.hset orgId userId)) :
    Kept ⟨p.store.hset orgId userId, Function.update p.calls i (.up (.expire orgId userId))⟩ := by
  refine ⟨fun org user time htime => ?_, fun org user => ?_, fun org user hmem hnot => ?_⟩
  · dsimp only at htime
    rw [lastSeen_hset] at htime
    split at htime
    · exact (Option.some.inj htime).ge
    · exact h.past org user time htime
  · dsimp only [Active]
    rw [Store.members_hset, lastSeen_hset, calling_hset hpc]
    by_cases hself : orgId = org ∧ userId = user
    · rw [if_pos hself, if_pos hself.1, Finset.mem_insert]
      exact iff_of_true (Or.inl hself.2.symm) ⟨_, rfl, Or.inr (Or.inl hself)⟩
    · rw [if_neg hself, or_iff_right hself]
      by_cases horg : orgId = org
      · rw [if_pos horg, Finset.mem_insert, or_iff_right fun heq => hself ⟨horg, heq.symm⟩]
        exact h.listed org user
      · rw [if_neg horg]
        exact h.listed org user
  · dsimp only at hmem ⊢
    rw [calling_hset hpc, not_or] at hnot
    rw [Store.members_hset] at hmem
    rw [lastBeat_hset, lastSeen_hset, if_neg hnot.1]
    by_cases horg : orgId = org
    · subst horg
      rw [if_pos rfl, Finset.mem_insert, or_iff_right fun heq => hnot.1 ⟨rfl, heq.symm⟩] at hmem
      show ∃ last, _ ∧ (Function.update p.store.hashes orgId _ orgId).expiresAt = _ ∧ _
      rw [Function.update_self]
      exact h.renewed orgId user hmem hnot.2
    · rw [if_neg horg] at hmem
      have hhash : (p.store.hset orgId userId).hashes org = p.store.hashes org :=
        Function.update_of_ne (Ne.symm horg) _ _
      rw [hhash]
      exact h.renewed org user hmem hnot.2

/-- The EXPIRE gives everybody in the hash another 90 seconds. -/
theorem Kept.expire {orgId userId : String} (h : Kept p)
    (hpc : p.calls i = .up (.expire orgId userId)) :
    Kept ⟨p.store.expire orgId userId, Function.update p.calls i (.up .returned)⟩ := by
  have hseen : ∀ org user time,
      lastSeen org user (p.store.expire orgId userId).log = some time → time ≤ p.store.now := by
    intro org user time htime
    rw [lastSeen_expire] at htime
    split at htime
    · obtain ⟨_, -, rfl⟩ := Option.map_eq_some_iff.mp htime
      exact le_rfl
    · exact h.past org user time htime
  refine ⟨hseen, fun org user => ?_, fun org user hmem hnot => ?_⟩
  · dsimp only [Active]
    rw [Store.members_expire, h.listed, lastSeen_expire]
    by_cases hself : orgId = org ∧ userId = user
    · -- the user is active from now on where he was so, and gone where he has called `setOffline`
      obtain ⟨rfl, rfl⟩ := hself
      have hcalling : Calling p orgId userId := ⟨i, by rw [hpc]; rfl⟩
      rw [if_pos ⟨rfl, rfl⟩]
      constructor
      · rintro ⟨time, htime, -⟩
        exact ⟨p.store.now, by rw [htime]; rfl, Or.inl (Nat.lt_add_of_pos_right (by decide))⟩
      · rintro ⟨_, htime, -⟩
        obtain ⟨time, htime, -⟩ := Option.map_eq_some_iff.mp htime
        exact ⟨time, htime, Or.inr hcalling⟩
    · rw [if_neg hself, calling_expire hpc hself]
      rfl
  · dsimp only at hmem ⊢
    rw [Store.members_expire] at hmem
    rw [lastBeat_expire]
    by_cases horg : orgId = org
    · subst horg
      refine ⟨p.store.now, if_pos rfl, ?_, hseen orgId user⟩
      show (Function.update p.store.hashes orgId _ orgId).expiresAt = _
      rw [Function.update_self]
      exact Volatile.expiresAt_expireAt_of_mem hmem
    · have hhash : (p.store.expire orgId userId).hashes org = p.store.hashes org :=
        Function.update_of_ne (Ne.symm horg) _ _
      have hself : ¬ (orgId = org ∧ userId = user) := fun heq => horg heq.1
      rw [calling_expire hpc hself] at hnot
      rw [if_neg horg, hhash, lastSeen_expire, if_neg hself]
      exact h.renewed org user hmem hnot

/-- The HDEL makes its user inactive. -/
theorem Kept.hdel {orgId userId : String} (h : Kept p)
    (hpc : p.calls i = .up (.hdel orgId userId)) :
    Kept ⟨p.store.hdel orgId userId, Function.update p.calls i (.up .returned)⟩ := by
  have hcalling : ∀ org user, Calling ⟨p.store.hdel orgId userId,
      Function.update p.calls i (.up .returned)⟩ org user ↔ Calling p org user := fun org user =>
    calling_of_not_renewing hpc id (by rintro ⟨⟩)
  refine ⟨fun org user time htime => ?_, fun org user => ?_, fun org user hmem hnot => ?_⟩
  · dsimp only at htime
    rw [lastSeen_hdel] at htime
    split at htime
    · cases htime
    · exact h.past org user time htime
  · dsimp only [Active]
    rw [Store.members_hdel, lastSeen_hdel, hcalling]
    by_cases horg : orgId = org
    · rw [if_pos horg, Finset.mem_filter]
      by_cases huser : userId = user
      · rw [if_pos ⟨horg, huser⟩]
        exact iff_of_false (fun hmem => hmem.2 huser.symm) (by rintro ⟨_, ⟨⟩, -⟩)
      · rw [if_neg fun heq => huser heq.2, and_iff_left (Ne.symm huser)]
        exact h.listed org user
    · rw [if_neg horg, if_neg fun heq => horg heq.1]
      exact h.listed org user
  · dsimp only at hmem ⊢
    rw [hcalling] at hnot
    rw [Store.members_hdel] at hmem
    rw [lastBeat_hdel, lastSeen_hdel]
    by_cases horg : orgId = org
    · subst horg
      rw [if_pos rfl] at hmem
      obtain ⟨hold, hne⟩ := Finset.mem_filter.mp hmem
      rw [if_neg fun heq => hne heq.2.symm]
      show ∃ last, _ ∧ (Function.update p.store.hashes orgId _ orgId).expiresAt = _ ∧ _
      rw [Function.update_self, Volatile.expiresAt_filter_of_nonempty ⟨user, hmem⟩]
      exact h.renewed orgId user hold hnot
    · rw [if_neg horg] at hmem
      have hhash : (p.store.hdel orgId userId).hashes org = p.store.hashes org :=
        Function.update_of_ne (Ne.symm horg) _ _
      rw [if_neg fun heq => horg heq.1, hhash]
      exact h.renewed org user hmem hnot

/-- A call that stops outside the two statements keeps the invariant. -/
theorem Kept.crash {pc : Pc} (h : Kept p) (hpc : p.calls i = .up pc) (hnot : ¬ pc.Renewing) :
    Kept ⟨p.store, Function.update p.calls i (.down pc)⟩ := by
  have hcalling : ∀ org user,
      Calling ⟨p.store, Function.update p.calls i (.down pc)⟩ org user ↔ Calling p org user :=
    fun org user => calling_of_not_renewing hpc hnot id
  refine ⟨h.past, fun org user => ?_, fun org user hmem hstill => ?_⟩
  · dsimp only [Active]
    rw [hcalling]
    exact h.listed org user
  · rw [hcalling] at hstill
    exact h.renewed org user hmem hstill

omit [DecidableEq ι] in
/-- **Time** keeps the status right where the users fall silent together. -/
theorem Kept.tick {ms : ℕ} (h : Kept p) (houtlives : Outlives p ms)
    (htogether : Together p ms) : Kept ⟨p.store.tick ms, p.calls⟩ := by
  have hnow : p.store.now ≤ p.store.now + ms := Nat.le_add_right _ _
  -- A member whose hash expires is not calling, and his 90 seconds are over.
  have hgone : ∀ org user, user ∈ (p.store.hashes org).members →
      (p.store.hashes org).expired (p.store.now + ms) = true →
      ¬ Active ⟨p.store.tick ms, p.calls⟩ org user := by
    rintro org user hmem hexpired ⟨time, htime, hactive⟩
    obtain ⟨e, he, rfl, rfl⟩ := mem_log_of_lastSeen htime
    have hnot : ¬ Calling p e.orgId e.userId := fun hcalling =>
      houtlives e he time htime hcalling hexpired
    obtain ⟨last, -, hexpires, hle⟩ := h.renewed e.orgId e.userId hmem hnot
    rw [Volatile.expired_of_expiresAt hexpires] at hexpired
    have hin : p.store.now + ms < time + presenceTtl := hactive.resolve_right hnot
    have := hle time htime
    omega
  -- A member whose hash goes on is calling, or his 90 seconds go on.
  have hstays : ∀ org user, user ∈ (p.store.hashes org).members →
      ¬ (p.store.hashes org).expired (p.store.now + ms) = true →
      Active ⟨p.store.tick ms, p.calls⟩ org user := by
    intro org user hmem hlive
    obtain ⟨time, htime, hactive⟩ := (h.listed org user).mp hmem
    refine ⟨time, htime, or_iff_not_imp_right.mpr fun hnot => Nat.lt_of_not_le fun hover => ?_⟩
    have hnot : ¬ Calling p org user := hnot
    obtain ⟨last, hlast, hexpires, -⟩ := h.renewed org user hmem hnot
    obtain ⟨e, he, rfl, rfl⟩ := mem_log_of_lastSeen htime
    rw [Volatile.expired_of_expiresAt hexpires] at hlive
    exact hlive (htogether e he time htime hnot (hactive.resolve_right hnot) hover last hlast)
  refine ⟨fun org user time htime => (h.past org user time htime).trans hnow, fun org user => ?_,
    fun org user hmem hnot => ?_⟩
  · show user ∈ ((p.store.hashes org).expire (p.store.now + ms)).members ↔ _
    rw [Volatile.members_expire]
    constructor
    · intro hmem
      split at hmem
      case isTrue => exact absurd hmem (Finset.notMem_empty _)
      case isFalse hlive => exact hstays org user hmem hlive
    · rintro ⟨time, htime, hactive⟩
      have hmem : user ∈ (p.store.hashes org).members :=
        (h.listed org user).mpr ⟨time, htime, hactive.imp_left (lt_of_le_of_lt hnow)⟩
      rw [if_neg fun hexpired => hgone org user hmem hexpired ⟨time, htime, hactive⟩]
      exact hmem
  · have hold : user ∈ ((p.store.hashes org).expire (p.store.now + ms)).members := hmem
    rw [Volatile.members_expire] at hold
    split at hold
    case isTrue => exact absurd hold (Finset.notMem_empty _)
    case isFalse hlive =>
      have hhash : (p.store.tick ms).hashes org = p.store.hashes org := if_neg hlive
      dsimp only
      rw [hhash]
      exact h.renewed org user hold hnot

omit [DecidableEq ι] in
/-- **The condition on time is exact**: a hash that expires under a call, or time that leaves
somebody's 90 seconds behind and not everybody's, makes a status wrong. -/
theorem lawful_tick_iff {ms : ℕ} (h : Kept p) :
    Lawful ⟨p.store.tick ms, p.calls⟩ ↔ Outlives p ms ∧ Together p ms := by
  refine ⟨fun hlaw => ⟨fun e he time htime hcalling hexpired => ?_,
    fun e he time htime hnot hin hover last hlast => ?_⟩,
    fun hcond => (h.tick hcond.1 hcond.2).lawful⟩
  · have honline := (hlaw e.userId e.orgId).mpr ⟨time, htime, Or.inr hcalling⟩
    have hoffline : (p.store.tick ms).getStatus e.userId e.orgId = .offline := by
      refine if_neg ?_
      show e.userId ∉ ((p.store.hashes e.orgId).expire (p.store.now + ms)).members
      rw [Volatile.members_expire, if_pos hexpired]
      exact Finset.notMem_empty _
    rw [hoffline] at honline
    cases honline
  · by_contra hlate
    have hmem := (h.listed e.orgId e.userId).mpr ⟨time, htime, Or.inl hin⟩
    obtain ⟨last', hlast', hexpires, -⟩ := h.renewed e.orgId e.userId hmem hnot
    obtain rfl := Option.some.inj (hlast'.symm.trans hlast)
    have hlive : ¬ (p.store.hashes e.orgId).expired (p.store.now + ms) = true := by
      rw [Volatile.expired_of_expiresAt hexpires]
      exact hlate
    have honline : (p.store.tick ms).getStatus e.userId e.orgId = .online := by
      refine if_pos ?_
      show e.userId ∈ ((p.store.hashes e.orgId).expire (p.store.now + ms)).members
      rw [Volatile.members_expire, if_neg hlive]
      exact hmem
    obtain ⟨time', htime', hactive⟩ := (hlaw e.userId e.orgId).mp honline
    obtain rfl := Option.some.inj (htime.symm.trans htime')
    exact absurd (hactive.resolve_right hnot) (Nat.not_lt.mpr hover)

/-- **The status is right in every state.** -/
theorem status_iff_active {now : ℕ} {calls : ι → Pc}
    (h : Run (Pool.step presenceMachine) Silence (idle now calls) p) : Lawful p := by
  refine Kept.lawful (Pool.invariant (I := Kept) (kept_idle now calls) ?_ ?_ ?_ h)
  · rintro p i d pc s pc' hkept - hpc hn
    have hn : next p.store pc = some (s, pc') := hn
    cases pc with
    | hset orgId userId =>
      obtain ⟨rfl, rfl⟩ := Prod.mk.inj (Option.some.inj hn)
      exact hkept.hset hpc
    | expire orgId userId =>
      obtain ⟨rfl, rfl⟩ := Prod.mk.inj (Option.some.inj hn)
      exact hkept.expire hpc
    | hdel orgId userId =>
      obtain ⟨rfl, rfl⟩ := Prod.mk.inj (Option.some.inj hn)
      exact hkept.hdel hpc
    | returned => cases hn
  · intro p i pc hkept hnot hpc
    have hnot : ¬ (p.calls i).Live Pc.Renewing := hnot
    rw [hpc] at hnot
    exact hkept.crash hpc hnot
  · rintro p ms hkept ⟨houtlives, htogether⟩
    exact hkept.tick houtlives htogether

/-- Two users come online, with time between any two statements, and fall silent together. -/
theorem status_of_two :
    ∃ p, Run (Pool.step presenceMachine) Silence
        (idle 0 fun i : Fin 2 => setOnline (if i = 0 then "ann" else "bob") "org") p
      ∧ Lawful p := by
  obtain ⟨p, hrun, -⟩ := exists_run_of_exec (Pool.step presenceMachine) Silence
    (idle 0 fun i : Fin 2 => setOnline (if i = 0 then "ann" else "bob") "org")
    [.run 0 (), .env 3, .run 1 (), .env 2, .run 0 (), .run 1 (), .env 89999, .env 1]
    (fun p => p.store.getStatus "ann" "org" = .offline) (by decide)
  exact ⟨p, hrun, status_iff_active hrun⟩

/-- **A silent user stays online**: Ann called 100 seconds ago, Bob 50 seconds ago. -/
theorem silent_user_online :
    ∃ p, Run (Pool.step presenceMachine) anyStep
        (idle 0 fun i : Fin 2 => if i = 0 then setOnline "ann" "org" else heartbeat "bob" "org") p
      ∧ ¬ Lawful p := by
  obtain ⟨p, hrun, hp⟩ := exists_run_of_exec (Pool.step presenceMachine) anyStep
    (idle 0 fun i : Fin 2 => if i = 0 then setOnline "ann" "org" else heartbeat "bob" "org")
    [.run 0 (), .run 0 (), .env 50000, .run 1 (), .run 1 (), .env 50000]
    (fun p => p.store.getStatus "ann" "org" = .online
      ∧ lastSeen "org" "ann" p.store.log = some 0 ∧ p.store.now = 100000
      ∧ ¬ Calling p "org" "ann") (by decide)
  obtain ⟨honline, hseen, hnow, hnot⟩ := of_decide_eq_true hp
  refine ⟨p, hrun, fun hlaw => ?_⟩
  obtain ⟨time, htime, hactive⟩ := (hlaw "ann" "org").mp honline
  obtain rfl := Option.some.inj (hseen.symm.trans htime)
  have hin : p.store.now < 0 + presenceTtl := hactive.resolve_right hnot
  rw [hnow] at hin
  exact absurd hin (by decide)

end WorkPlatform.Presence

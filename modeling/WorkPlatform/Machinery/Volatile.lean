import Mathlib.Data.Finset.Filter
import Mathlib.Data.Finset.Insert

/-!
# Machinery/Volatile — a set that is kept under a key until it expires

    add a        a member more; an expiry that is set stays
    filter p     those with `p`; a key with no members is no key, and loses its expiry
    expireAt t   the key is gone at the time `t`, if it is there at all
    expire now   what is there at the time `now`

That a key with no members has no expiry is part of the structure.
-/

namespace Machinery

/-- A set under a key of a store, and the time at which the key is gone. -/
structure Volatile (α : Type*) where
  members : Finset α
  expiresAt : Option ℕ
  absent : members = ∅ → expiresAt = none

namespace Volatile

variable {α : Type*} {v : Volatile α} {a : α} {now time x : ℕ}

def empty : Volatile α := ⟨∅, none, fun _ => rfl⟩

def expired (v : Volatile α) (now : ℕ) : Bool := v.expiresAt.any (· ≤ now)

theorem expired_of_expiresAt (h : v.expiresAt = some time) : v.expired now = true ↔ time ≤ now := by
  rw [expired, h, Option.any_some, decide_eq_true_iff]

def expire (v : Volatile α) (now : ℕ) : Volatile α := if v.expired now then empty else v

theorem members_expire : (v.expire now).members = if v.expired now then ∅ else v.members := by
  unfold expire
  split <;> rfl

/-- A key that still is to expire has not expired. -/
theorem expire_of_expiresAt (h : (v.expire now).expiresAt = some x) : v.expire now = v := by
  unfold expire at h ⊢
  split at h
  case isTrue => cases h
  case isFalse hnot => rw [if_neg hnot]

/-- A key that is to expire is there. -/
theorem nonempty_of_expiresAt (h : v.expiresAt = some x) : v.members.Nonempty := by
  refine Finset.nonempty_iff_ne_empty.mpr fun hnone => ?_
  rw [v.absent hnone] at h
  cases h

variable [DecidableEq α]

/-- `SADD` or `HSET`. -/
def add (v : Volatile α) (a : α) : Volatile α where
  members := insert a v.members
  expiresAt := v.expiresAt
  absent := fun h => absurd h (Finset.insert_ne_empty a v.members)

def filter (v : Volatile α) (p : α → Prop) [DecidablePred p] : Volatile α :=
  if h : v.members.filter p = ∅ then empty
  else ⟨v.members.filter p, v.expiresAt, fun hnone => absurd hnone h⟩

def expireAt (v : Volatile α) (time : ℕ) : Volatile α :=
  if h : v.members = ∅ then v else ⟨v.members, some time, fun hnone => absurd hnone h⟩

@[simp] theorem members_add : (v.add a).members = insert a v.members := rfl

@[simp] theorem members_filter (p : α → Prop) [DecidablePred p] :
    (v.filter p).members = v.members.filter p := by
  unfold filter
  split
  case isTrue h => exact h.symm
  case isFalse => rfl

@[simp] theorem members_expireAt : (v.expireAt time).members = v.members := by
  unfold expireAt
  split <;> rfl

theorem expiresAt_filter {p : α → Prop} [DecidablePred p]
    (h : (v.filter p).expiresAt = some x) : v.expiresAt = some x := by
  unfold filter at h
  split at h
  case isTrue => cases h
  case isFalse => exact h

/-- As long as there are members, the expiry stays. -/
theorem expiresAt_filter_of_nonempty {p : α → Prop} [DecidablePred p]
    (h : (v.members.filter p).Nonempty) : (v.filter p).expiresAt = v.expiresAt := by
  rw [filter, dif_neg (Finset.nonempty_iff_ne_empty.mp h)]

theorem expiresAt_expireAt (h : (v.expireAt time).expiresAt = some x) : x = time := by
  unfold expireAt at h
  split at h
  case isTrue hnone =>
    rw [v.absent hnone] at h
    cases h
  case isFalse => exact (Option.some.inj h).symm

theorem expiresAt_expireAt_of_mem (h : a ∈ v.members) :
    (v.expireAt time).expiresAt = some time := by
  rw [expireAt, dif_neg (Finset.ne_empty_of_mem h)]

end Volatile

end Machinery

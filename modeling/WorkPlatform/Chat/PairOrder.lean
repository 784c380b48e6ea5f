import WorkPlatform.Chat.Channel
import WorkPlatform.Machinery.Uuid

/-!
# Chat/PairOrder — which of two users comes first

    createDirect            creatorId < otherUserId                 two texts
    direct_channel_pairs    CHECK (user_a_id < user_b_id)           two ids

The router takes an id in upper and in lower case, and hands it on as it is.  The texts of two users
are ordered as their ids, and the texts of one user are recognised as one, exactly where they are
aligned (`canonical_iff`): on the usual spelling they always are, and another one is refused by the
CHECK or not, as the letters fall.
-/

namespace WorkPlatform.Chat

open Machinery

/-- What `z.string().uuid()` takes. -/
def DirectArgs.Accepted (a : DirectArgs) : Prop :=
  Uuid.isUuid a.creatorId ∧ Uuid.isUuid a.otherUserId

/-- The other user creates the channel. -/
def DirectArgs.swap (a : DirectArgs) : DirectArgs := ⟨a.orgId, a.otherUserId, a.creatorId⟩

/-- The order in which `findDirectChannel` looks for a pair. -/
def findOrder (userAId userBId : String) : String × String :=
  (if userAId < userBId then userAId else userBId, if userAId < userBId then userBId else userAId)

/-- `CHECK (user_a_id < user_b_id)`, of the ids the texts stand for. -/
def CheckPair (userAId userBId : String) : Prop := Uuid.value userAId < Uuid.value userBId

/-- The call is for two users. -/
def DirectArgs.Distinct (a : DirectArgs) : Prop :=
  Uuid.value a.creatorId ≠ Uuid.value a.otherUserId

instance (userAId userBId : String) : Decidable (CheckPair userAId userBId) :=
  inferInstanceAs (Decidable (_ < _))

instance (a : DirectArgs) : Decidable a.Distinct := inferInstanceAs (Decidable (_ ≠ _))

/-- **The order of the texts is that of the ids**: the pair meets the CHECK, whoever asks for it, is
found as it was inserted, and a user who asks for themselves is told so. -/
structure DirectArgs.Canonical (a : DirectArgs) : Prop where
  order : a.Distinct →
    (a.creatorId < a.otherUserId ↔ Uuid.value a.creatorId < Uuid.value a.otherUserId)
  check : a.Distinct → CheckPair a.userAId a.userBId
  find : a.Distinct → findOrder a.userAId a.userBId = (a.userAId, a.userBId)
  swap : a.Distinct → a.swap.userAId = a.userAId ∧ a.swap.userBId = a.userBId
  self : ¬ a.Distinct → a.entry = .threw cannotDmSelf

section

variable {a : DirectArgs}

/-- The two texts, the smaller one first. -/
theorem ordered_cases (hne : a.creatorId ≠ a.otherUserId) :
    (a.creatorId < a.otherUserId ∧ a.userAId = a.creatorId ∧ a.userBId = a.otherUserId) ∨
      (a.otherUserId < a.creatorId ∧ a.userAId = a.otherUserId ∧ a.userBId = a.creatorId) := by
  rcases lt_or_gt_of_ne hne with hlt | hgt
  · exact Or.inl ⟨hlt, if_pos hlt, if_pos hlt⟩
  · have hnot : ¬ a.creatorId < a.otherUserId := lt_asymm hgt
    exact Or.inr ⟨hgt, if_neg hnot, if_neg hnot⟩

theorem findOrder_ordered (hne : a.creatorId ≠ a.otherUserId) :
    findOrder a.userAId a.userBId = (a.userAId, a.userBId) := by
  have hlt : a.userAId < a.userBId := by
    rcases ordered_cases hne with ⟨hlt, hA, hB⟩ | ⟨hlt, hA, hB⟩ <;> rwa [hA, hB]
  rw [findOrder, if_pos hlt, if_pos hlt]

theorem swap_ordered (hne : a.creatorId ≠ a.otherUserId) :
    a.swap.userAId = a.userAId ∧ a.swap.userBId = a.userBId := by
  rcases ordered_cases hne with ⟨hlt, hA, hB⟩ | ⟨hlt, hA, hB⟩
  · have hnot : ¬ a.otherUserId < a.creatorId := lt_asymm hlt
    rw [hA, hB]
    exact ⟨if_neg hnot, if_neg hnot⟩
  · rw [hA, hB]
    exact ⟨if_pos hlt, if_pos hlt⟩

/-- The CHECK is met where the texts are in the order of the ids. -/
theorem checkPair_ordered (hdistinct : a.Distinct) (horder : a.creatorId < a.otherUserId ↔
    Uuid.value a.creatorId < Uuid.value a.otherUserId) : CheckPair a.userAId a.userBId := by
  have hne : a.creatorId ≠ a.otherUserId := fun heq => hdistinct (congrArg Uuid.value heq)
  rcases ordered_cases hne with ⟨hlt, hA, hB⟩ | ⟨hgt, hA, hB⟩
  · rw [hA, hB]
    exact horder.mp hlt
  · rw [hA, hB]
    have hnot : ¬ Uuid.value a.creatorId < Uuid.value a.otherUserId :=
      fun hlt => lt_asymm hgt (horder.mpr hlt)
    exact Nat.lt_of_le_of_ne (Nat.le_of_not_lt hnot) hdistinct.symm

end

/-- **The order of the texts is that of the ids exactly where the texts are aligned.** -/
theorem canonical_iff (a : DirectArgs) (h : a.Accepted) :
    a.Canonical ↔ Uuid.Aligned a.creatorId.toList a.otherUserId.toList := by
  rw [Uuid.aligned_iff_value h.1 h.2]
  constructor
  · intro hcanonical
    refine ⟨fun hsame => ?_, hcanonical.order⟩
    have hself := hcanonical.self (not_not.mpr hsame)
    by_contra hne
    rw [DirectArgs.entry, if_neg hne] at hself
    cases hself
  · rintro ⟨hself, horder⟩
    have hne : a.Distinct → a.creatorId ≠ a.otherUserId :=
      fun hdistinct heq => hdistinct (congrArg Uuid.value heq)
    refine ⟨horder, fun hd => checkPair_ordered hd (horder hd), fun hd => findOrder_ordered (hne hd),
      fun hd => swap_ordered (hne hd), fun hsame => ?_⟩
    exact if_pos (hself (not_not.mp hsame))

/-- A user whose id begins with `a`, and one whose id begins with `b`. -/
def demoDirect : DirectArgs :=
  ⟨"o", "a0000000-0000-4000-8000-000000000000", "b0000000-0000-4000-8000-000000000000"⟩

/-- On the usual spelling. -/
theorem canonical_lowercase : demoDirect.Canonical :=
  (canonical_iff demoDirect ⟨by decide, by decide⟩).mpr
    (Uuid.aligned_of_lowercase (p := Uuid.shape) (by decide) (by decide) (by decide) (by decide))

/-- **Where the second id is spelled `B…`, the pair is refused**: `B` comes before `a`, and the id
after. -/
theorem canonical_uppercase :
    let a : DirectArgs := { demoDirect with otherUserId := "B0000000-0000-4000-8000-000000000000" }
    a.Accepted ∧ a.Distinct ∧ ¬ CheckPair a.userAId a.userBId ∧ ¬ a.Canonical := by
  intro a
  have hdistinct : a.Distinct := by decide
  have hcheck : ¬ CheckPair a.userAId a.userBId := by decide
  exact ⟨⟨by decide, by decide⟩, hdistinct, hcheck, fun h => hcheck (h.check hdistinct)⟩

end WorkPlatform.Chat

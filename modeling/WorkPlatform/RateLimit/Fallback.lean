import Mathlib.Data.Finset.Max
import Mathlib.Order.Interval.Finset.Nat
import WorkPlatform.RateLimit.CheckLimit

/-!
# RateLimit/Fallback — the in-process fallback against the Redis path, for one process

    Redis      every request enters the set, let through or not
    fallback   a request is remembered where it is let through

The requests of one process come one after another, the `i`-th at the time `(e i).now`.  Both paths
count those in the window: all of them (`crowd`), or those let through (`admitted`).  They part at
the first request that has a rejected one in its window and fewer than `limit` others
(`fallback_agrees_iff`).
-/

namespace WorkPlatform.RateLimit

open Machinery

/-! ## The two paths -/

/-- `checkLimitFallback` on the timestamps that are stored for the key. -/
def checkLimitFallback (rate : Rate) (stored : List ℕ) (now : ℕ) : Decision × List ℕ :=
  let timestamps := stored.filter fun ts => now < ts + rate.windowMs
  let decision := rate.decision timestamps.length
  (decision, if decision.allowed then timestamps ++ [now] else stored)

/-- The fallback store before the `i`-th request. -/
def fallbackBefore (rate : Rate) (e : ℕ → Entry) : ℕ → List ℕ
  | 0 => []
  | i + 1 => (checkLimitFallback rate (fallbackBefore rate e i) (e i).now).2

def fallbackDecision (rate : Rate) (e : ℕ → Entry) (i : ℕ) : Decision :=
  (checkLimitFallback rate (fallbackBefore rate e i) (e i).now).1

/-- The six statements of a call with nobody else there, at the time of the request. -/
def redisRequest (rate : String → Rate) (key : String) (s : Store) (e : Entry) :
    Store × Pc Decision :=
  (checkLimit.machine rate).proceed e.random 6 (s.tick (e.now - s.now), .start key)

/-- The server before the `i`-th request. -/
def redisBefore (rate : String → Rate) (key : String) (e : ℕ → Entry) : ℕ → Store
  | 0 => ⟨0, fun _ => .empty⟩
  | i + 1 => (redisRequest rate key (redisBefore rate key e i) (e i)).1

def Pc.result : Pc Decision → Option Decision
  | .returned _ _ decision => some decision
  | _ => none

def redisDecision (rate : String → Rate) (key : String) (e : ℕ → Entry) (i : ℕ) :
    Option Decision :=
  (redisRequest rate key (redisBefore rate key e i) (e i)).2.result

/-- Both paths let the `i`-th request through, or neither does, and they say that as many remain. -/
def Agree (rate : String → Rate) (key : String) (e : ℕ → Entry) (i : ℕ) : Prop :=
  ∃ decision, redisDecision rate key e i = some decision ∧
    decision.allowed = (fallbackDecision (rate key) e i).allowed ∧
    decision.remaining = (fallbackDecision (rate key) e i).remaining

/-! ## What they count -/

section Count

variable (windowMs : ℕ) (t : ℕ → ℕ)

/-- The requests before the `i`-th that are in the window at the time `now`. -/
def within (i now : ℕ) : Finset ℕ := (Finset.range i).filter fun j => now < t j + windowMs

variable {windowMs t}

theorem mem_within {i now j : ℕ} : j ∈ within windowMs t i now ↔ j < i ∧ now < t j + windowMs := by
  rw [within, Finset.mem_filter, Finset.mem_range]

end Count

/-- The requests that the fallback has let through, of those in the window. -/
def admitted (rate : Rate) (e : ℕ → Entry) (i now : ℕ) : Finset ℕ :=
  (within rate.windowMs (fun j => (e j).now) i now).filter fun j =>
    (fallbackDecision rate e j).allowed = true

/-- The requests in the window of the `i`-th. -/
def crowd (rate : Rate) (e : ℕ → Entry) (i : ℕ) : Finset ℕ :=
  within rate.windowMs (fun j => (e j).now) i (e i).now

section Paths

variable {rate : Rate} {e : ℕ → Entry} {n : ℕ}

theorem mem_admitted {i now j : ℕ} : j ∈ admitted rate e i now ↔
    (j < i ∧ now < (e j).now + rate.windowMs) ∧ (fallbackDecision rate e j).allowed = true := by
  rw [admitted, Finset.mem_filter, mem_within]

theorem mem_crowd {i j : ℕ} : j ∈ crowd rate e i ↔ j < i ∧ (e i).now < (e j).now + rate.windowMs :=
  mem_within

/-- What one more request adds to those that are admitted. -/
theorem admitted_succ (i now : ℕ) : admitted rate e (i + 1) now =
    if now < (e i).now + rate.windowMs ∧ (fallbackDecision rate e i).allowed = true then
      insert i (admitted rate e i now)
    else admitted rate e i now := by
  ext j
  split
  case isTrue h =>
    rw [Finset.mem_insert, mem_admitted, mem_admitted, Nat.lt_succ_iff_lt_or_eq]
    constructor
    · rintro ⟨⟨hlt | rfl, hwin⟩, hallowed⟩
      · exact Or.inr ⟨⟨hlt, hwin⟩, hallowed⟩
      · exact Or.inl rfl
    · rintro (rfl | ⟨⟨hlt, hwin⟩, hallowed⟩)
      · exact ⟨⟨Or.inr rfl, h.1⟩, h.2⟩
      · exact ⟨⟨Or.inl hlt, hwin⟩, hallowed⟩
  case isFalse h =>
    rw [mem_admitted, mem_admitted, Nat.lt_succ_iff_lt_or_eq]
    constructor
    · rintro ⟨⟨hlt | rfl, hwin⟩, hallowed⟩
      · exact ⟨⟨hlt, hwin⟩, hallowed⟩
      · exact absurd ⟨hwin, hallowed⟩ h
    · rintro ⟨⟨hlt, hwin⟩, hallowed⟩
      exact ⟨⟨Or.inl hlt, hwin⟩, hallowed⟩

theorem fallbackBefore_succ (i : ℕ) : fallbackBefore rate e (i + 1) =
    if (fallbackDecision rate e i).allowed then
      ((fallbackBefore rate e i).filter fun ts => (e i).now < ts + rate.windowMs) ++ [(e i).now]
    else fallbackBefore rate e i := rfl

/-- What was out of the window is out of a later one. -/
theorem filter_later {stored : List ℕ} {width now later : ℕ} (h : now ≤ later) :
    ((stored.filter fun ts => now < ts + width).filter fun ts => later < ts + width) =
      stored.filter fun ts => later < ts + width := by
  rw [List.filter_filter]
  refine List.filter_congr fun ts _ => ?_
  rw [Bool.and_eq_left_iff_imp, decide_eq_true_iff, decide_eq_true_iff]
  omega

/-- **The fallback counts whom it has let through.** -/
theorem length_fallback : ∀ i now, (∀ j < i, (e j).now ≤ now) →
    ((fallbackBefore rate e i).filter fun ts => now < ts + rate.windowMs).length =
      (admitted rate e i now).card
  | 0, now, _ => by
    have hnone : admitted rate e 0 now = ∅ :=
      Finset.eq_empty_of_forall_notMem fun j hj => by
        have hlt := (mem_admitted.mp hj).1.1
        omega
    rw [hnone]
    rfl
  | i + 1, now, hnow => by
    have ih := length_fallback i now fun j hj => hnow j (Nat.lt_succ_of_lt hj)
    have hlater := hnow i (Nat.lt_succ_self i)
    have hnew : i ∉ admitted rate e i now := fun hmem =>
      absurd (mem_admitted.mp hmem).1.1 (Nat.lt_irrefl i)
    rw [admitted_succ, fallbackBefore_succ]
    by_cases hallowed : (fallbackDecision rate e i).allowed = true
    · rw [if_pos hallowed, List.filter_append, filter_later hlater, List.length_append, ih]
      by_cases hwin : now < (e i).now + rate.windowMs
      · rw [if_pos ⟨hwin, hallowed⟩, Finset.card_insert_of_notMem hnew,
          List.filter_singleton, decide_eq_true hwin]
        rfl
      · rw [if_neg (fun h => hwin h.1), List.filter_singleton,
          decide_eq_false hwin]
        rfl
    · rw [if_neg hallowed, if_neg (fun h => hallowed h.2), ih]

/-- The entries of a key in the window at the time `now`. -/
def visible (windowMs : ℕ) (z : SortedSet) (now : ℕ) : Finset Entry :=
  (z.expire now).members.filter fun x => now < x.now + windowMs

/-- What the count and the entry of a request find. -/
def cleared (windowMs : ℕ) (z : SortedSet) (now : ℕ) : SortedSet :=
  SortedSet.zremrangebyscore (z.expire now) now windowMs

/-- The commands of a request, one after another. -/
theorem redisRequest_run (rate : String → Rate) (key : String) {s : Store} {x : Entry}
    (hs : s.now ≤ x.now) :
    (redisRequest rate key s x).2 = .returned key x
        ((rate key).decision (cleared (rate key).windowMs (s.keys key) x.now).zcard) ∧
      (redisRequest rate key s x).1.now = x.now ∧
      (redisRequest rate key s x).1.keys key =
        ((cleared (rate key).windowMs (s.keys key) x.now).zadd x).pexpire
          (x.now + (rate key).windowMs) := by
  have htick : s.tick (x.now - s.now) = ⟨x.now, fun k => (s.keys k).expire x.now⟩ := by
    rw [Store.tick, Nat.add_sub_of_le hs]
  rw [redisRequest, htick]
  simp [Machine.proceed, Limiter.machine, Limiter.next, checkLimit, Limiter.apply, Store.set,
    Command.result, cleared]

/-- **A request**: it counts what is visible, and joins it. -/
theorem redisRequest_eq (rate : String → Rate) (key : String) {s : Store} {x : Entry}
    (hs : s.now ≤ x.now) :
    (redisRequest rate key s x).2 = .returned key x
        ((rate key).decision (visible (rate key).windowMs (s.keys key) x.now).card) ∧
      (redisRequest rate key s x).1.now = x.now ∧
      ((redisRequest rate key s x).1.keys key).members =
        insert x (visible (rate key).windowMs (s.keys key) x.now) ∧
      ((redisRequest rate key s x).1.keys key).expiresAt = some (x.now + (rate key).windowMs) := by
  obtain ⟨hpc, hnow, hkeys⟩ := redisRequest_run rate key hs
  have hcleared : (cleared (rate key).windowMs (s.keys key) x.now).members =
      visible (rate key).windowMs (s.keys key) x.now := Volatile.members_filter _
  rw [SortedSet.zcard, hcleared] at hpc
  refine ⟨hpc, hnow, ?_, ?_⟩
  · rw [hkeys, SortedSet.pexpire, Volatile.members_expireAt, SortedSet.zadd, Volatile.members_add,
      hcleared]
  · rw [hkeys]
    exact Volatile.expiresAt_expireAt_of_mem (Finset.mem_insert_self x _)

/-- The requests come in the order of their times, and no two of a time draw the same number. -/
structure Sequenced (e : ℕ → Entry) (n : ℕ) : Prop where
  mono : ∀ i j, i ≤ j → j < n → (e i).now ≤ (e j).now
  distinct : ∀ i j, i < n → j < n → e i = e j → i = j

/-- The expiry of a key hides only what is out of the window. -/
theorem visible_of_expiresAt {windowMs last now : ℕ} {z : SortedSet}
    (hexpires : z.expiresAt = some (last + windowMs)) (hlast : ∀ x ∈ z.members, x.now ≤ last) :
    visible windowMs z now = z.members.filter fun x => now < x.now + windowMs := by
  rw [visible, Volatile.members_expire, Volatile.expired, hexpires]
  split
  case isTrue h =>
    have hlate : last + windowMs ≤ now := of_decide_eq_true h
    rw [Finset.filter_empty]
    refine (Finset.filter_eq_empty_iff.mpr fun x hx => ?_).symm
    have hold := hlast x hx
    omega
  case isFalse => rfl

/-- **The server shows whom the window holds**, before every request. -/
theorem visible_redisBefore (rate : String → Rate) (key : String) (h : Sequenced e n) :
    ∀ i, i ≤ n →
    (∀ j < n, i ≤ j → (redisBefore rate key e i).now ≤ (e j).now) ∧
    ∀ now, (redisBefore rate key e i).now ≤ now →
      visible (rate key).windowMs ((redisBefore rate key e i).keys key) now =
        (within (rate key).windowMs (fun j => (e j).now) i now).image e
  | 0, _ => ⟨fun j _ _ => Nat.zero_le _, fun now _ => rfl⟩
  | i + 1, hi => by
    obtain ⟨hbefore, ih⟩ := visible_redisBefore rate key h i
      (Nat.le_of_succ_le hi)
    obtain ⟨-, hnow, hentries, hexpires⟩ :=
      redisRequest_eq rate key (hbefore i hi le_rfl)
    rw [ih _ (hbefore i hi le_rfl)] at hentries
    refine ⟨fun j hj hij => ?_, fun now hlater => ?_⟩
    · rw [redisBefore, hnow]
      exact h.mono i j (Nat.le_of_succ_le hij) hj
    · rw [redisBefore] at hlater ⊢
      rw [hnow] at hlater
      rw [visible_of_expiresAt hexpires, hentries]
      · ext x
        rw [Finset.mem_filter, Finset.mem_insert, Finset.mem_image, Finset.mem_image]
        constructor
        · rintro ⟨rfl | ⟨j, hj, rfl⟩, hwin⟩
          · exact ⟨i, mem_within.mpr ⟨Nat.lt_succ_self i, hwin⟩, rfl⟩
          · exact ⟨j, mem_within.mpr ⟨Nat.lt_succ_of_lt (mem_within.mp hj).1, hwin⟩, rfl⟩
        · rintro ⟨j, hj, rfl⟩
          obtain ⟨hlt, hwin⟩ := mem_within.mp hj
          refine ⟨(Nat.lt_succ_iff_lt_or_eq.mp hlt).elim (fun hlt => ?_) (fun heq => ?_), hwin⟩
          · exact Or.inr ⟨j, mem_within.mpr ⟨hlt, lt_of_le_of_lt hlater hwin⟩, rfl⟩
          · exact Or.inl (congrArg e heq)
      · intro x hx
        rw [hentries, Finset.mem_insert, Finset.mem_image] at hx
        rcases hx with rfl | ⟨j, hj, rfl⟩
        · exact le_rfl
        · exact h.mono j i (mem_within.mp hj).1.le hi

/-! ## Where they agree -/

/-- What Redis decides goes by the requests in the window. -/
theorem redisDecision_eq {rate : String → Rate} {key : String} (h : Sequenced e n) {i : ℕ}
    (hi : i < n) : redisDecision rate key e i =
      some ((rate key).decision (crowd (rate key) e i).card) := by
  obtain ⟨hbefore, hvisible⟩ := visible_redisBefore rate key h i hi.le
  have hnow := hbefore i hi le_rfl
  obtain ⟨hpc, -⟩ := redisRequest_eq rate key hnow
  have hcard : ((crowd (rate key) e i).image e).card = (crowd (rate key) e i).card :=
    Finset.card_image_of_injOn fun j hj k hk heq =>
      h.distinct j k ((mem_crowd.mp hj).1.trans hi) ((mem_crowd.mp hk).1.trans hi) heq
  rw [redisDecision, hpc, hvisible _ hnow, ← crowd, hcard]
  rfl

theorem fallbackDecision_eq (h : Sequenced e n) {i : ℕ} (hi : i < n) :
    fallbackDecision rate e i = rate.decision (admitted rate e i (e i).now).card := by
  rw [← length_fallback i _ fun j hj => h.mono j i hj.le hi]
  rfl

theorem allowed_iff (h : Sequenced e n) {i : ℕ} (hi : i < n) :
    (fallbackDecision rate e i).allowed = true ↔
      (admitted rate e i (e i).now).card < rate.limit := by
  rw [fallbackDecision_eq h hi]
  exact decide_eq_true_iff

/-- The fallback counts some of those that are there. -/
theorem admitted_subset (i : ℕ) : admitted rate e i (e i).now ⊆ crowd rate e i :=
  Finset.filter_subset _ _

/-- **They agree** on a request where both count the same, or both reject it. -/
theorem agree_iff {rate : String → Rate} {key : String} (h : Sequenced e n) {i : ℕ} (hi : i < n) :
    Agree rate key e i ↔
      (crowd (rate key) e i).card = (admitted (rate key) e i (e i).now).card ∨
        (rate key).limit ≤ (admitted (rate key) e i (e i).now).card := by
  have hsub : admitted (rate key) e i (e i).now ⊆ crowd (rate key) e i := admitted_subset i
  have hle := Finset.card_le_card hsub
  rw [Agree, redisDecision_eq h hi, fallbackDecision_eq h hi]
  constructor
  · rintro ⟨decision, hdecision, hallowed, hremaining⟩
    obtain rfl := Option.some.inj hdecision
    have hallowed' : (crowd (rate key) e i).card < (rate key).limit ↔
        (admitted (rate key) e i (e i).now).card < (rate key).limit :=
      decide_eq_decide.mp hallowed
    have hremaining' : (rate key).limit - (crowd (rate key) e i).card - 1 =
        (rate key).limit - (admitted (rate key) e i (e i).now).card - 1 := hremaining
    omega
  · intro hcase
    refine ⟨_, rfl, decide_eq_decide.mpr ?_, ?_⟩
    · omega
    · show (rate key).limit - (crowd (rate key) e i).card - 1 =
        (rate key).limit - (admitted (rate key) e i (e i).now).card - 1
      omega

/-- A rejected request counts on the one path only. -/
theorem rejected_of_rejected {rate : String → Rate} {key : String} (h : Sequenced e n) {i j : ℕ}
    (hi : i < n) (hagree : Agree rate key e i) (hj : j ∈ crowd (rate key) e i)
    (hrejected : ¬ (fallbackDecision (rate key) e j).allowed = true) :
    (rate key).limit ≤ (admitted (rate key) e i (e i).now).card := by
  refine ((agree_iff h hi).mp hagree).resolve_left (ne_of_gt (Finset.card_lt_card ?_))
  refine (Finset.ssubset_iff_of_subset (admitted_subset i)).mpr ⟨j, hj, fun hmem => ?_⟩
  exact hrejected (mem_admitted.mp hmem).2

/-- A request comes when `limit` others are in its window. -/
theorem limit_le_crowd (h : Sequenced e n) {a j : ℕ} (hj : j < n) (haj : a + rate.limit ≤ j)
    (hwin : (e j).now < (e a).now + rate.windowMs) : rate.limit ≤ (crowd rate e j).card := by
  have hsub : Finset.Ico a j ⊆ crowd rate e j := by
    intro b hb
    obtain ⟨hab, hbj⟩ := Finset.mem_Ico.mp hb
    have hle := h.mono a b hab (hbj.trans hj)
    exact mem_crowd.mpr ⟨hbj, by omega⟩
  have hcard := Finset.card_le_card hsub
  rw [Nat.card_Ico] at hcard
  omega

/-- **Where they part**: a request is at most `limit` places behind another in whose window it is,
and one comes that has the later of them in its window and not the earlier. -/
def Lingers (rate : Rate) (e : ℕ → Entry) (n : ℕ) : Prop :=
  ∃ a j i, a + rate.limit ≤ j ∧ j < i ∧ i < n ∧ (e j).now < (e a).now + rate.windowMs ∧
    (e a).now + rate.windowMs ≤ (e i).now ∧ (e i).now < (e j).now + rate.windowMs

/-- Where no entry lingers, the fallback decides as Redis does. -/
theorem agree_of_not_lingers {rate : String → Rate} {key : String} (h : Sequenced e n)
    (hnot : ¬ Lingers (rate key) e n) {i : ℕ} (hi : i < n) : Agree rate key e i := by
  by_contra hpart
  rw [agree_iff h hi, not_or, Nat.not_le] at hpart
  obtain ⟨hne, hroom⟩ := hpart
  -- a rejected request is in the window
  obtain ⟨j, hj, hjnot⟩ := Finset.not_subset.mp fun hall =>
    hne (congrArg Finset.card ((admitted_subset i).antisymm' hall))
  obtain ⟨hji, hin⟩ := mem_crowd.mp hj
  have hjn := hji.trans hi
  have hrejected : ¬ (fallbackDecision (rate key) e j).allowed = true :=
    fun hallowed => hjnot (mem_admitted.mpr ⟨⟨hji, hin⟩, hallowed⟩)
  have hfull : (rate key).limit ≤ (admitted (rate key) e j (e j).now).card := by
    rwa [allowed_iff h hjn, Nat.not_lt] at hrejected
  -- one of those that had it rejected is not in the window any more
  obtain ⟨b, hb, hbnot⟩ := Finset.not_subset.mp fun hall =>
    absurd (hfull.trans (Finset.card_le_card hall)) (Nat.not_le.mpr hroom)
  obtain ⟨⟨hbj, -⟩, hballowed⟩ := mem_admitted.mp hb
  have hbout : (e b).now + (rate key).windowMs ≤ (e i).now := Nat.not_lt.mp fun hwin =>
    hbnot (mem_admitted.mpr ⟨⟨hbj.trans hji, hwin⟩, hballowed⟩)
  -- nor is the first of them
  obtain ⟨a, ha⟩ : ∃ a, a = (admitted (rate key) e j (e j).now).min' ⟨b, hb⟩ := ⟨_, rfl⟩
  have hfirst : ∀ x ∈ admitted (rate key) e j (e j).now, a ≤ x := fun x hx =>
    ha ▸ Finset.min'_le _ x hx
  obtain ⟨⟨haj, hawin⟩, -⟩ := mem_admitted.mp (ha ▸ Finset.min'_mem _ ⟨b, hb⟩)
  have hab := h.mono a b (hfirst b hb) (hbj.trans hjn)
  have hmany : a + (rate key).limit ≤ j := by
    have hsub : admitted (rate key) e j (e j).now ⊆ Finset.Ico a j := fun x hx =>
      Finset.mem_Ico.mpr ⟨hfirst x hx, (mem_admitted.mp hx).1.1⟩
    have hcard := hfull.trans (Finset.card_le_card hsub)
    rw [Nat.card_Ico] at hcard
    omega
  exact hnot ⟨a, j, i, hmany, hji, hi, hawin, by omega, hin⟩

/-- And only there. -/
theorem not_lingers_of_agree {rate : String → Rate} {key : String} (h : Sequenced e n)
    (hpos : 0 < (rate key).limit) (hagree : ∀ i < n, Agree rate key e i) :
    ¬ Lingers (rate key) e n := by
  rintro ⟨a, j, i, haj, hji, hi, hwin, hout, hin⟩
  have hj := hji.trans hi
  -- from the later one on, everybody is rejected
  have hrejected : ∀ x, j ≤ x → x ≤ i → ¬ (fallbackDecision (rate key) e x).allowed = true := by
    have hself : ¬ (fallbackDecision (rate key) e j).allowed = true := by
      rw [allowed_iff h hj, Nat.not_lt]
      rcases (agree_iff h hj).mp (hagree j hj) with heq | hle
      · exact heq ▸ limit_le_crowd h hj haj hwin
      · exact hle
    intro x hjx hxi
    rcases Nat.eq_or_lt_of_le hjx with rfl | hlt
    · exact hself
    · have hx := lt_of_le_of_lt hxi hi
      rw [allowed_iff h hx, Nat.not_lt]
      refine rejected_of_rejected h hx (hagree x hx) (mem_crowd.mpr ⟨hlt, ?_⟩) hself
      exact lt_of_le_of_lt (h.mono x i hxi hi) hin
  have hfull : (rate key).limit ≤ (admitted (rate key) e i (e i).now).card := by
    rw [← Nat.not_lt, ← allowed_iff h hi]
    exact hrejected i hji.le le_rfl
  -- the last of those let through has the others, and the earlier one, in its window
  have hsome := Finset.card_pos.mp (hpos.trans_le hfull)
  obtain ⟨b, hb⟩ : ∃ b, b = (admitted (rate key) e i (e i).now).max' hsome := ⟨_, rfl⟩
  have hlast : ∀ x ∈ admitted (rate key) e i (e i).now, x ≤ b := fun x hx =>
    hb ▸ Finset.le_max' _ x hx
  have hbmem : b ∈ admitted (rate key) e i (e i).now := hb ▸ Finset.max'_mem _ hsome
  obtain ⟨⟨hbi, hbwin⟩, hballowed⟩ := mem_admitted.mp hbmem
  have hbj : b < j := Nat.lt_of_not_le fun hjb => hrejected b hjb hbi.le hballowed
  have hbn := hbi.trans hi
  have hbtime := h.mono b j hbj.le hj
  have hab : a < b := Nat.lt_of_not_le fun hba => by
    have hle := h.mono b a hba (lt_of_le_of_lt (Nat.le_of_add_right_le haj) hj)
    omega
  have hanot : a ∉ (admitted (rate key) e i (e i).now).erase b := fun hmem => by
    have hawin := (mem_admitted.mp (Finset.mem_of_mem_erase hmem)).1.2
    omega
  have hsub : insert a ((admitted (rate key) e i (e i).now).erase b) ⊆ crowd (rate key) e b := by
    intro x hx
    rcases Finset.mem_insert.mp hx with rfl | hx
    · exact mem_crowd.mpr ⟨hab, by omega⟩
    · obtain ⟨hne, hmem⟩ := Finset.mem_erase.mp hx
      have hxwin := (mem_admitted.mp hmem).1.2
      have hbi' := h.mono b i hbi.le hi
      exact mem_crowd.mpr ⟨lt_of_le_of_ne (hlast x hmem) hne, by omega⟩
  have hcrowd := Finset.card_le_card hsub
  rw [Finset.card_insert_of_notMem hanot, Finset.card_erase_add_one hbmem] at hcrowd
  rw [allowed_iff h hbn] at hballowed
  have hagreeb := (agree_iff h hbn).mp (hagree b hbn)
  omega

/-- **The paths agree on every request** just where no request lingers on one of them. -/
theorem fallback_agrees_iff {rate : String → Rate} {key : String} (h : Sequenced e n) :
    (∀ i < n, Agree rate key e i) ↔ (rate key).limit = 0 ∨ ¬ Lingers (rate key) e n := by
  constructor
  · intro hagree
    rcases Nat.eq_zero_or_pos (rate key).limit with hzero | hpos
    · exact Or.inl hzero
    · exact Or.inr (not_lingers_of_agree h hpos hagree)
  · rintro (hzero | hnot) i hi
    · refine (agree_iff h hi).mpr (Or.inr ?_)
      rw [hzero]
      exact Nat.zero_le _
    · exact agree_of_not_lingers h hnot hi

end Paths

/-- Requests at the given times. -/
def requestsAt (times : List ℕ) (i : ℕ) : Entry := ⟨times.getD i 0, i⟩

theorem sequenced_requestsAt (times : List ℕ)
    (h : ∀ j < times.length, ∀ i ≤ j, times.getD i 0 ≤ times.getD j 0) :
    Sequenced (requestsAt times) times.length where
  mono i j hij hj := h j hj i hij
  distinct _ _ _ _ heq := congrArg Entry.random heq

/-- Three requests of an hour and one too many, and another when the last one is an hour old: on the
last two the paths agree. -/
theorem fallback_agrees_on_bursts :
    Agree (fun _ => ⟨3, 60 * 60000⟩) "rl:verifyresend:a@b.c"
        (requestsAt [0, 0, 0, 1, 60 * 60000 + 1]) 3
      ∧ Agree (fun _ => ⟨3, 60 * 60000⟩) "rl:verifyresend:a@b.c"
        (requestsAt [0, 0, 0, 1, 60 * 60000 + 1]) 4 := by
  have hnot : ¬ Lingers ⟨3, 60 * 60000⟩ (requestsAt [0, 0, 0, 1, 60 * 60000 + 1]) 5 := by
    rintro ⟨a, j, i, hmany, hji, hi, hwin, hout, hin⟩
    dsimp only at hmany
    obtain ⟨rfl, rfl, rfl⟩ : a = 0 ∧ j = 3 ∧ i = 4 := by omega
    exact absurd hin (by decide)
  have hagree : ∀ i < 5, Agree (fun _ => ⟨3, 60 * 60000⟩) "rl:verifyresend:a@b.c"
      (requestsAt [0, 0, 0, 1, 60 * 60000 + 1]) i :=
    (fallback_agrees_iff (sequenced_requestsAt [0, 0, 0, 1, 60 * 60000 + 1] (by decide))).mpr
      (Or.inr hnot)
  exact ⟨hagree 3 (by decide), hagree 4 (by decide)⟩

/-- **The paths part**: an hour after three requests were let through, and 59 minutes after three
more were not, the fallback lets one through and Redis does not. -/
theorem fallback_lets_more_in :
    Sequenced (requestsAt [0, 0, 0, 60000, 60000, 60000, 60 * 60000]) 7 ∧
      ¬ ∀ i < 7, Agree (fun _ => ⟨3, 60 * 60000⟩) "rl:verifyresend:a@b.c"
        (requestsAt [0, 0, 0, 60000, 60000, 60000, 60 * 60000]) i := by
  have hseq := sequenced_requestsAt [0, 0, 0, 60000, 60000, 60000, 60 * 60000] (by decide)
  refine ⟨hseq, fun hagree => ?_⟩
  obtain ⟨decision, hredis, hallowed, -⟩ := hagree 6 (by decide)
  rw [redisDecision_eq hseq (by decide)] at hredis
  obtain rfl := Option.some.inj hredis
  exact absurd hallowed (by decide)

end WorkPlatform.RateLimit

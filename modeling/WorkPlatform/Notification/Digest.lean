import WorkPlatform.Notification.Store

/-!
# Notification/Digest — the daily digest of a user

    GET key ▸ SELECT pending ▸ [none: SET key] ▸ enqueue email ▸ UPDATE digest_sent_at ▸ SET key

The key says that the digest of the date was sent; it is read first and written last.  Between the
two a second job of the user reads no key either, and a job that fails after the enqueue leaves its
rows unmarked.  The SELECT is cut at 24 hours and 50 rows, so that what is pending can be left out,
and the next one is too late for it.

`digest_once` is for jobs of a user that keep out of each other's way (`Apart`) and for SELECTs that
give all that is pending (`Covers`).
-/

namespace WorkPlatform.Notification

open Machinery

/-! ## The worker -/

namespace Store

/-- `WHERE user_id = $1 AND created_at > NOW() - INTERVAL '24 hours' AND digest_sent_at IS NULL
ORDER BY created_at DESC LIMIT 50`. -/
def pendingDigest (s : Store) (userId : String) : List NotificationRow :=
  ((s.notifications.rows.filter fun row =>
    row.userId = userId ∧ s.now < row.createdAt + 86400 ∧ row.digestSentAt = none).insertionSort
      fun a b => b.createdAt ≤ a.createdAt).take 50

/-- `UPDATE notifications SET digest_sent_at = NOW() WHERE id = ANY($1)`. -/
def markSent (s : Store) (ids : List ℕ) : Store :=
  { s with
    notifications := s.notifications.map
      (fun row => if row.id ∈ ids then { row with digestSentAt := some s.now } else row)
      fun row => by split <;> rfl }

end Store

/-- The digest of a user, with the rows it was rendered from. -/
def digestEmail (data : SendUserDigestJobData) (today : ℕ) (rows : List NotificationRow) :
    SendDailyDigestJobData where
  toEmail := data.email
  subject := "Your daily digest — " ++ toString today
  html := .dailyDigest data.name rows today
  userId := data.userId

def Store.sendDigest (s : Store) (data : SendUserDigestJobData) (today : ℕ)
    (rows : List NotificationRow) : Store :=
  s.enqueue (.sendDailyDigest (digestEmail data today rows))

/-- Where `runSendUserDigestJob` is. -/
inductive DigestPc
  | begin (data : SendUserDigestJobData)
  | get (data : SendUserDigestJobData) (today : ℕ)
  | select (data : SendUserDigestJobData) (today : ℕ)
  | setEmpty (data : SendUserDigestJobData) (today : ℕ)
  | enqueue (data : SendUserDigestJobData) (today : ℕ) (rows : List NotificationRow)
  | update (data : SendUserDigestJobData) (today : ℕ) (rows : List NotificationRow)
  | setKey (data : SendUserDigestJobData) (today : ℕ)
  | done (data : SendUserDigestJobData) (today : ℕ)
  deriving DecidableEq

namespace DigestPc

/-- `runSendUserDigestJob`.  A statement that fails stops the job: it is a crash before the
statement, or after it where the statement took effect. -/
def next (s : Store) (pc : DigestPc) (_ : Unit) : Option (Store × DigestPc) :=
  match pc with
  | .begin data => some (s, .get data (dateOf s.now))
  | .get data today =>
    some (s, if s.hasKey (.digest data.userId today) then .done data today
      else .select data today)
  | .select data today =>
    some (s, match s.pendingDigest data.userId with
      | [] => .setEmpty data today
      | row :: rows => .enqueue data today (row :: rows))
  | .setEmpty data today => some (s.setKey (.digest data.userId today), .done data today)
  | .enqueue data today rows =>
    some (s.sendDigest data today rows, .update data today rows)
  | .update data today rows => some (s.markSent (rows.map (·.id)), .setKey data today)
  | .setKey data today => some (s.setKey (.digest data.userId today), .done data today)
  | .done _ _ => none

def data : DigestPc → SendUserDigestJobData
  | .begin data | .get data _ | .select data _ | .setEmpty data _ | .enqueue data _ _
  | .update data _ _ | .setKey data _ | .done data _ => data

/-- The user of the job. -/
def userId (pc : DigestPc) : String := pc.data.userId

end DigestPc

def digestMachine : Machine Store DigestPc Unit Env := ⟨DigestPc.next, env⟩

/-- Jobs, over the store they share. -/
abbrev DigestJobs (ι : Type*) := Pool ι Store DigestPc

/-! ## The digests that were queued -/

/-- Whose it is, the day it was queued, and the notifications in it. -/
structure Digest where
  userId : String
  day : ℕ
  ids : List ℕ
  deriving DecidableEq

/-- The digest that a job of the queue `emails` sends. -/
def Job.digest (job : Job) : Option Digest :=
  match job.data with
  | .sendDailyDigest data =>
    match data.html with
    | .dailyDigest _ rows _ => some ⟨data.userId, dateOf job.timestamp, rows.map (·.id)⟩
    | .event _ _ => none
  | _ => none

namespace Store

def digests (s : Store) : List Digest := s.queued.filterMap Job.digest

/-- How many digests the user got on a day. -/
def perDay (s : Store) (userId : String) (day : ℕ) : ℕ :=
  s.digests.countP fun d => d.userId = userId ∧ d.day = day

/-- How many digests the notification is in. -/
def containing (s : Store) (id : ℕ) : ℕ := s.digests.countP fun d => id ∈ d.ids

end Store

/-- **Each notification is digested once**: a user gets one digest a day at most; no notification is
in two; and it is in one, once a job of a day after its own has ended. -/
structure DigestedOnce {ι : Type*} (p : DigestJobs ι) : Prop where
  daily : ∀ userId day, p.store.perDay userId day ≤ 1
  once : ∀ row ∈ p.store.notifications.rows, p.store.containing row.id ≤ 1
  contained : ∀ i data today, p.calls i = .up (.done data today) →
    ∀ row ∈ p.store.notifications.rows, row.userId = data.userId →
      dateOf row.createdAt < today → p.store.containing row.id = 1

/-- No digest was queued yet, and no row marked. -/
structure NoDigest (s : Store) : Prop where
  digests : s.digests = []
  keys : ∀ userId day, s.redis (.digest userId day) = none
  unmarked : ∀ row ∈ s.notifications.rows, row.digestSentAt = none
  created : ∀ row ∈ s.notifications.rows, row.createdAt ≤ s.now

/-! ## Which steps are taken -/

namespace DigestPc

/-- A running job of the user that has read no key, and has not queued its digest. -/
def Sending (userId : String) : DigestPc → Prop
  | .select data _ | .enqueue data _ _ => data.userId = userId
  | _ => False

/-- A job, running or not, that has queued the digest of the user, and not marked its rows, or not
set the key of the date. -/
def Unsettled (userId : String) (today : ℕ) : DigestPc → Prop
  | .update data _ _ => data.userId = userId
  | .setKey data date => data.userId = userId ∧ date = today
  | _ => False

instance (userId : String) : DecidablePred (Sending userId)
  | .select data _ | .enqueue data _ _ => inferInstanceAs (Decidable (data.userId = userId))
  | .begin _ | .get _ _ | .setEmpty _ _ | .update _ _ _ | .setKey _ _ | .done _ _ =>
    inferInstanceAs (Decidable False)

instance (userId : String) (today : ℕ) : DecidablePred (Unsettled userId today)
  | .update data _ _ => inferInstanceAs (Decidable (data.userId = userId))
  | .setKey data date => inferInstanceAs (Decidable (data.userId = userId ∧ date = today))
  | .begin _ | .get _ _ | .select _ _ | .setEmpty _ _ | .enqueue _ _ _ | .done _ _ =>
    inferInstanceAs (Decidable False)

end DigestPc

/-- The SELECT gives all of the user that is pending: none is a day old, and they are no more than
50. -/
def Covers (s : Store) (userId : String) : Prop :=
  (∀ row ∈ s.notifications.rows, row.userId = userId → row.digestSentAt = none →
      s.now < row.createdAt + 86400)
    ∧ (s.notifications.rows.countP fun row =>
        row.userId = userId ∧ row.digestSentAt = none) ≤ 50

instance (s : Store) (userId : String) : Decidable (Covers s userId) :=
  inferInstanceAs (Decidable (_ ∧ _))

/-- No other job of the user is between its GET and its enqueue, and none has left a digest
unmarked, or the key of the date unset. -/
def Apart {ι : Type*} (p : DigestJobs ι) (i : ι) (userId : String) (today : ℕ) : Prop :=
  ∀ j, j ≠ i → ¬ (p.calls j).Live (DigestPc.Sending userId)
    ∧ ¬ (p.calls j).at'.Unsettled userId today

instance {ι : Type*} [Fintype ι] [DecidableEq ι] (p : DigestJobs ι) (i : ι) (userId : String)
    (today : ℕ) : Decidable (Apart p i userId today) :=
  inferInstanceAs (Decidable (∀ j, j ≠ i → ¬ (p.calls j).Live (DigestPc.Sending userId)
    ∧ ¬ (p.calls j).at'.Unsettled userId today))

/-- Jobs of a user keep apart, a SELECT covers what is pending, and a digest is queued on the day
its job has read. -/
def OrderAt {ι : Type*} (p : DigestJobs ι) (i : ι) : DigestPc → Prop
  | .get data today => Apart p i data.userId today
  | .select data _ => Covers p.store data.userId
  | .enqueue _ today _ => dateOf p.store.now = today
  | _ => True

instance {ι : Type*} [Fintype ι] [DecidableEq ι] (p : DigestJobs ι) (i : ι) :
    DecidablePred (OrderAt p i)
  | .get data today => inferInstanceAs (Decidable (Apart p i data.userId today))
  | .select data _ => inferInstanceAs (Decidable (Covers p.store data.userId))
  | .enqueue _ today _ => inferInstanceAs (Decidable (dateOf p.store.now = today))
  | .begin _ | .setEmpty _ _ | .update _ _ _ | .setKey _ _ | .done _ _ =>
    inferInstanceAs (Decidable True)

def DigestOrder {ι : Type*} (p : DigestJobs ι) : Move ι Unit Env → Prop
  | .run i _ => OrderAt p i (p.calls i).at'
  | _ => True

instance {ι : Type*} [Fintype ι] [DecidableEq ι] (p : DigestJobs ι) :
    ∀ m : Move ι Unit Env, Decidable (DigestOrder p m)
  | .run i _ => inferInstanceAs (Decidable (OrderAt p i (p.calls i).at'))
  | .crash _ | .env _ => inferInstanceAs (Decidable True)

/-! ## What the jobs of a user go by -/

namespace Store

/-- The notification is the user's. -/
def Owns (s : Store) (userId : String) (id : ℕ) : Prop :=
  ∃ row ∈ s.notifications.rows, row.id = id ∧ row.userId = userId

/-- What is unmarked is in no digest. -/
def Unsent (s : Store) (userId : String) : Prop :=
  ∀ row ∈ s.notifications.rows, row.userId = userId → row.digestSentAt = none →
    s.containing row.id = 0

/-- The date has come, and what is from before it is in a digest. -/
def Swept (s : Store) (userId : String) (date : ℕ) : Prop :=
  date ≤ dateOf s.now ∧ ∀ row ∈ s.notifications.rows, row.userId = userId →
    dateOf row.createdAt < date → 0 < s.containing row.id

/-- No digest yet, on the date, if it is still that date. -/
def NoneToday (s : Store) (userId : String) (date : ℕ) : Prop :=
  dateOf s.now = date → s.perDay userId date = 0

end Store

/-- What is so of the store. -/
structure Ledger (s : Store) : Prop where
  created : ∀ row ∈ s.notifications.rows, row.createdAt ≤ s.now
  owned : ∀ d ∈ s.digests, ∀ id ∈ d.ids, s.Owns d.userId id
  daily : ∀ userId day, s.perDay userId day ≤ 1
  once : ∀ id, s.containing id ≤ 1
  marked : ∀ row ∈ s.notifications.rows, row.digestSentAt ≠ none → 0 < s.containing row.id
  keys : ∀ userId date, s.redis (.digest userId date) ≠ none → s.Swept userId date

namespace DigestPc

/-- What is so at a control point. -/
def Holds (s : Store) : DigestPc → Prop
  | .begin _ => True
  | .get _ today => today ≤ dateOf s.now
  | .select data today =>
    today ≤ dateOf s.now ∧ s.Unsent data.userId ∧ s.NoneToday data.userId today
  | .enqueue data today rows =>
    s.Unsent data.userId ∧ s.NoneToday data.userId today
      ∧ (∀ row ∈ rows, row ∈ s.notifications.rows ∧ row.userId = data.userId
          ∧ row.digestSentAt = none)
      ∧ today ≤ dateOf s.now ∧ ∀ row ∈ s.notifications.rows, row.userId = data.userId →
        dateOf row.createdAt < today → 0 < s.containing row.id ∨ row ∈ rows
  | .update data today rows =>
    s.Swept data.userId today ∧ (∀ row ∈ rows, 0 < s.containing row.id)
      ∧ (∀ row ∈ s.notifications.rows, row.userId = data.userId → row.digestSentAt = none →
        s.containing row.id = 0 ∨ row.id ∈ rows.map (·.id))
      ∧ ∀ row ∈ rows, s.Owns data.userId row.id
  | .setEmpty data today | .setKey data today | .done data today => s.Swept data.userId today

/-- A job of the user that has read no key, and has not marked its rows. -/
def Busy (userId : String) : DigestPc → Prop
  | .select data _ | .enqueue data _ _ | .update data _ _ => data.userId = userId
  | _ => False

/-- It has queued the digest of the user, and not marked the rows. -/
def Marking (userId : String) : DigestPc → Prop
  | .update data _ _ => data.userId = userId
  | _ => False

/-- It has queued the digest of the user on the date, and not set the key. -/
def Keyless (userId : String) (day : ℕ) : DigestPc → Prop
  | .update data today _ | .setKey data today => data.userId = userId ∧ today = day
  | _ => False

end DigestPc

/-- The key of the date is set until the date is over. -/
def Store.KeyLasts (s : Store) (userId : String) (day : ℕ) : Prop :=
  ∃ e, s.redis (.digest userId day) = some e ∧ (day + 1) * 86400 ≤ e

section Store

variable {s s' : Store} {u v : String} {id day date : ℕ} {data : SendUserDigestJobData}
  {rows : List NotificationRow} {row : NotificationRow}

/-- The digest of a job that has been queued. -/
def newDigest (s : Store) (data : SendUserDigestJobData) (rows : List NotificationRow) : Digest :=
  ⟨data.userId, dateOf s.now, rows.map (·.id)⟩

@[simp] theorem digests_sendDigest :
    (s.sendDigest data date rows).digests = newDigest s data rows :: s.digests := rfl

theorem containing_sendDigest : (s.sendDigest data date rows).containing id
    = s.containing id + if id ∈ rows.map (·.id) then 1 else 0 := by
  unfold Store.containing
  rw [digests_sendDigest, List.countP_cons]
  exact congrArg _ (if_congr decide_eq_true_iff rfl rfl)

theorem perDay_sendDigest : (s.sendDigest data date rows).perDay v day
    = s.perDay v day + if data.userId = v ∧ dateOf s.now = day then 1 else 0 := by
  unfold Store.perDay
  rw [digests_sendDigest, List.countP_cons]
  exact congrArg _ (if_congr decide_eq_true_iff rfl rfl)

/-- A row after the UPDATE is the old one, and marked if its id is named. -/
theorem mem_markSent {ids : List ℕ} (h : row ∈ (s.markSent ids).notifications.rows) :
    ∃ old ∈ s.notifications.rows, old.id = row.id ∧ old.userId = row.userId
      ∧ old.createdAt = row.createdAt
      ∧ (row.digestSentAt = none → old.digestSentAt = none ∧ old.id ∉ ids)
      ∧ (row.digestSentAt ≠ none → old.digestSentAt ≠ none ∨ old.id ∈ ids) := by
  obtain ⟨old, hold, rfl⟩ := List.mem_map.mp h
  refine ⟨old, hold, ?_⟩
  split
  case isTrue hid =>
    exact ⟨rfl, rfl, rfl, fun hnone => absurd hnone (Option.some_ne_none _), fun _ => Or.inr hid⟩
  case isFalse hid => exact ⟨rfl, rfl, rfl, fun hnone => ⟨hnone, hid⟩, Or.inl⟩

theorem owns_of_mem (h : row ∈ s.notifications.rows) : s.Owns row.userId row.id :=
  ⟨row, h, rfl, rfl⟩

/-- A notification is one user's. -/
theorem Store.Owns.unique (h : s.Owns u id) (h' : s.Owns v id) : u = v := by
  obtain ⟨a, ha, hid, rfl⟩ := h
  obtain ⟨b, hb, hid', rfl⟩ := h'
  rw [List.inj_on_of_nodup_map s.notifications.keys_nodup ha hb (hid.trans hid'.symm)]

theorem owns_markSent {ids : List ℕ} (h : s.Owns u id) : (s.markSent ids).Owns u id := by
  obtain ⟨row, hrow, rfl, rfl⟩ := h
  exact ⟨_, List.mem_map_of_mem hrow, by split <;> rfl, by split <;> rfl⟩

/-- What is in a digest is owned by the user of the digest. -/
theorem containing_of_not_owned (hl : Ledger s) (h : ∀ v, ¬ s.Owns v id) :
    s.containing id = 0 :=
  List.countP_eq_zero.mpr fun d hd hid => h d.userId (hl.owned d hd id (of_decide_eq_true hid))

theorem dateOf_mono {m n : ℕ} (h : m ≤ n) : dateOf m ≤ dateOf n := Nat.div_le_div_right h

theorem containing_mono : s.containing id ≤ (s.sendDigest data date rows).containing id := by
  rw [containing_sendDigest]
  exact Nat.le_add_right _ _

/-- A digest has none of another user's notifications. -/
theorem containing_sendDigest_other (hrows : ∀ row ∈ rows, s.Owns data.userId row.id)
    (hv : v ≠ data.userId) (h : s.Owns v id) :
    (s.sendDigest data date rows).containing id = s.containing id := by
  rw [containing_sendDigest, if_neg, Nat.add_zero]
  intro hmem
  obtain ⟨row, hrow, rfl⟩ := List.mem_map.mp hmem
  exact hv (h.unique (hrows row hrow))

theorem perDay_sendDigest_other (hv : v ≠ data.userId) :
    (s.sendDigest data date rows).perDay v day = s.perDay v day := by
  rw [perDay_sendDigest, if_neg fun h => hv h.1.symm, Nat.add_zero]

theorem Store.Swept.sendDigest (h : s.Swept v day) :
    (s.sendDigest data date rows).Swept v day :=
  ⟨h.1, fun row hrow huser hold => (h.2 row hrow huser hold).trans_le containing_mono⟩

theorem Store.Swept.markSent {ids : List ℕ} (h : s.Swept v day) : (s.markSent ids).Swept v day := by
  refine ⟨h.1, fun row hrow huser hold => ?_⟩
  obtain ⟨old, hmem, hid, huser', hcreated, -, -⟩ := mem_markSent hrow
  rw [← hid]
  exact h.2 old hmem (huser'.trans huser) (hcreated ▸ hold)

/-! ### A statement of another job -/

namespace DigestPc

variable {k : DigestPc}

theorem Holds.setKey {key : RedisKey} (h : k.Holds s) : k.Holds (s.setKey key) := by
  cases k <;> exact h

/-- A job that is not busy goes on by what is swept. -/
theorem Holds.sendDigest (hrows : ∀ row ∈ rows, s.Owns data.userId row.id)
    (hother : ¬ k.Busy data.userId) (h : k.Holds s) :
    k.Holds (s.sendDigest data date rows) := by
  cases k with
  | begin d => trivial
  | get d t => exact h
  | select d t =>
    obtain ⟨hdate, hunsent, hnone⟩ := h
    refine ⟨hdate, fun row hrow huser hunmarked => ?_, fun hnow => ?_⟩
    · rw [containing_sendDigest_other hrows hother ⟨row, hrow, rfl, huser⟩]
      exact hunsent row hrow huser hunmarked
    · exact (perDay_sendDigest_other hother).trans (hnone hnow)
  | enqueue d t rs =>
    obtain ⟨hunsent, hnone, hselected, hdate, hcovered⟩ := h
    refine ⟨fun row hrow huser hunmarked => ?_, fun hnow => ?_, hselected, hdate,
      fun row hrow huser hold => ?_⟩
    · rw [containing_sendDigest_other hrows hother ⟨row, hrow, rfl, huser⟩]
      exact hunsent row hrow huser hunmarked
    · exact (perDay_sendDigest_other hother).trans (hnone hnow)
    · exact (hcovered row hrow huser hold).imp (fun hpos => hpos.trans_le containing_mono) id
  | update d t rs =>
    obtain ⟨hswept, hsent, hunsent, howns⟩ := h
    refine ⟨hswept.sendDigest, fun row hrow => (hsent row hrow).trans_le containing_mono,
      fun row hrow huser hunmarked => ?_, howns⟩
    rw [containing_sendDigest_other hrows hother ⟨row, hrow, rfl, huser⟩]
    exact hunsent row hrow huser hunmarked
  | setEmpty d t => exact Store.Swept.sendDigest h
  | setKey d t => exact Store.Swept.sendDigest h
  | done d t => exact Store.Swept.sendDigest h

/-- The rows of one user that are marked are none of another's. -/
theorem Holds.markSent {ids : List ℕ} (hids : ∀ id ∈ ids, s.Owns u id) (hother : ¬ k.Busy u)
    (h : k.Holds s) : k.Holds (s.markSent ids) := by
  have hunmarked : ∀ {P : ℕ → Prop} {v : String},
      (∀ row ∈ s.notifications.rows, row.userId = v → row.digestSentAt = none → P row.id) →
      ∀ row ∈ (s.markSent ids).notifications.rows, row.userId = v → row.digestSentAt = none →
        P row.id := by
    intro P v hP row hrow huser hnone
    obtain ⟨old, hmem, hid, huser', -, hold, -⟩ := mem_markSent hrow
    exact hid ▸ hP old hmem (huser'.trans huser) (hold hnone).1
  cases k with
  | begin d => trivial
  | get d t => exact h
  | select d t => exact ⟨h.1, hunmarked (P := fun id => s.containing id = 0) h.2.1, h.2.2⟩
  | enqueue d t rs =>
    obtain ⟨hunsent, hnone, hselected, hdate, hcovered⟩ := h
    have hkept : ∀ row ∈ s.notifications.rows, row.userId = d.userId →
        row ∈ (s.markSent ids).notifications.rows := by
      intro row hrow huser
      refine List.mem_map.mpr ⟨row, hrow, if_neg fun hid => ?_⟩
      exact hother ((owns_of_mem hrow).unique (hids _ hid) ▸ huser.symm)
    refine ⟨hunmarked (P := fun id => s.containing id = 0) hunsent, hnone, fun row hrow => ?_,
      hdate, fun row hrow huser hold => ?_⟩
    · obtain ⟨hmem, huser, hnone'⟩ := hselected row hrow
      exact ⟨hkept row hmem huser, huser, hnone'⟩
    · obtain ⟨old, hmem, rfl⟩ := List.mem_map.mp hrow
      have hnot : old.id ∉ ids := by
        intro hid
        rw [if_pos hid] at huser
        exact hother ((owns_of_mem hmem).unique (hids _ hid) ▸ huser.symm)
      rw [if_neg hnot] at huser hold ⊢
      exact hcovered old hmem huser hold
  | update d t rs =>
    obtain ⟨hswept, hsent, hunsent, howns⟩ := h
    refine ⟨hswept.markSent, hsent, ?_, fun row hrow => owns_markSent (howns row hrow)⟩
    exact hunmarked (P := fun id => s.containing id = 0 ∨ id ∈ rs.map (·.id)) hunsent
  | setEmpty d t => exact Store.Swept.markSent h
  | setKey d t => exact Store.Swept.markSent h
  | done d t => exact Store.Swept.markSent h

end DigestPc

/-! ### The environment -/

theorem dateOf_env (e : Env) : dateOf s.now ≤ dateOf (env s e).now := by
  cases e with
  | tick n => exact dateOf_mono (Nat.le_add_right _ _)
  | setPreferences _ => exact le_rfl
  | notify _ _ => exact le_rfl

theorem digests_env (e : Env) : (env s e).digests = s.digests := by
  cases e <;> rfl

theorem containing_env (e : Env) : (env s e).containing id = s.containing id :=
  congrArg (List.countP _) (digests_env e)

theorem perDay_env (e : Env) : (env s e).perDay u day = s.perDay u day :=
  congrArg (List.countP _) (digests_env e)

theorem redis_env (e : Env) : (env s e).redis = s.redis := by
  cases e <;> rfl

/-- A row that was not there is of today, unmarked and in no digest. -/
theorem mem_env (hl : Ledger s) {e : Env} (h : row ∈ (env s e).notifications.rows) :
    row ∈ s.notifications.rows
      ∨ row.createdAt = s.now ∧ row.digestSentAt = none ∧ s.containing row.id = 0 := by
  cases e with
  | tick n => exact Or.inl h
  | setPreferences rows => exact Or.inl h
  | notify data u =>
    rcases List.mem_cons.mp h with rfl | h
    · refine Or.inr ⟨rfl, rfl, containing_of_not_owned hl fun v hv => ?_⟩
      obtain ⟨old, hold, hid, -⟩ := hv
      exact freshId_notMem s.notifications (List.mem_map.mpr ⟨old, hold, hid⟩)
    · exact Or.inl h

theorem mem_env_of_mem {e : Env} (h : row ∈ s.notifications.rows) :
    row ∈ (env s e).notifications.rows := by
  cases e with
  | tick n => exact h
  | setPreferences rows => exact h
  | notify data u => exact List.mem_cons_of_mem _ h

theorem Store.Swept.env (hl : Ledger s) {e : Env} (h : s.Swept u date) :
    (env s e).Swept u date := by
  refine ⟨h.1.trans (dateOf_env e), fun row hrow huser hold => ?_⟩
  rw [containing_env]
  rcases mem_env hl hrow with hmem | ⟨hnow, -, -⟩
  · exact h.2 row hmem huser hold
  · rw [hnow] at hold
    exact absurd h.1 (Nat.not_le_of_lt hold)

theorem unsent_env (hl : Ledger s) {e : Env} {P : ℕ → Prop}
    (h : ∀ row ∈ s.notifications.rows, row.userId = u → row.digestSentAt = none →
      s.containing row.id = 0 ∨ P row.id) :
    ∀ row ∈ (env s e).notifications.rows, row.userId = u → row.digestSentAt = none →
      (env s e).containing row.id = 0 ∨ P row.id := by
  intro row hrow huser hnone
  rw [containing_env]
  rcases mem_env hl hrow with hmem | ⟨-, -, hzero⟩
  · exact h row hmem huser hnone
  · exact Or.inl hzero

theorem Store.Unsent.env (hl : Ledger s) {e : Env} (h : s.Unsent u) : (env s e).Unsent u := by
  intro row hrow huser hnone
  have hor := unsent_env (P := fun _ => False) hl
    (fun row hrow huser hnone => Or.inl (h row hrow huser hnone)) row hrow huser hnone
  exact hor.resolve_right id

theorem Store.NoneToday.env {e : Env} (hdate : date ≤ dateOf s.now) (h : s.NoneToday u date) :
    (env s e).NoneToday u date := by
  intro hnow
  rw [perDay_env]
  exact h (le_antisymm (hnow ▸ dateOf_env e) hdate)

/-- What happens around the jobs changes nothing of what they go by. -/
theorem DigestPc.Holds.env {k : DigestPc} (hl : Ledger s) {e : Env} (h : k.Holds s) :
    k.Holds (env s e) := by
  cases k with
  | begin d => trivial
  | get d t => exact le_trans h (dateOf_env e)
  | select d t =>
    obtain ⟨hdate, hunsent, hnone⟩ := h
    exact ⟨hdate.trans (dateOf_env e), hunsent.env hl, hnone.env hdate⟩
  | enqueue d t rs =>
    obtain ⟨hunsent, hnone, hselected, hdate, hcovered⟩ := h
    refine ⟨hunsent.env hl, hnone.env hdate, fun row hrow => ?_, hdate.trans (dateOf_env e),
      fun row hrow huser hold => ?_⟩
    · obtain ⟨hmem, hrest⟩ := hselected row hrow
      exact ⟨mem_env_of_mem hmem, hrest⟩
    · rw [containing_env]
      rcases mem_env hl hrow with hmem | ⟨hnow, -, -⟩
      · exact hcovered row hmem huser hold
      · rw [hnow] at hold
        exact absurd hdate (Nat.not_le_of_lt hold)
  | update d t rs =>
    obtain ⟨hswept, hsent, hunsent, howns⟩ := h
    refine ⟨hswept.env hl, fun row hrow => ?_, unsent_env hl hunsent, fun row hrow => ?_⟩
    · rw [containing_env]
      exact hsent row hrow
    · obtain ⟨r, hr, hrest⟩ := howns row hrow
      exact ⟨r, mem_env_of_mem hr, hrest⟩
  | setEmpty d t => exact Store.Swept.env hl h
  | setKey d t => exact Store.Swept.env hl h
  | done d t => exact Store.Swept.env hl h

/-! ### The store -/

/-- Time takes no notification out of a digest. -/
theorem Ledger.env (hl : Ledger s) (e : Env) : Ledger (env s e) where
  created row hrow := by
    rcases mem_env hl hrow with hmem | ⟨hnow, -, -⟩
    · cases e with
      | tick n => exact (hl.created row hmem).trans (Nat.le_add_right _ _)
      | setPreferences _ => exact hl.created row hmem
      | notify _ _ => exact hl.created row hmem
    · rw [hnow]
      cases e with
      | tick n => exact Nat.le_add_right _ _
      | setPreferences _ => exact le_rfl
      | notify _ _ => exact le_rfl
  owned d hd id hid := by
    rw [digests_env] at hd
    obtain ⟨row, hrow, hrest⟩ := hl.owned d hd id hid
    exact ⟨row, mem_env_of_mem hrow, hrest⟩
  daily u day := by
    rw [perDay_env]
    exact hl.daily u day
  once id := by
    rw [containing_env]
    exact hl.once id
  marked row hrow hsome := by
    rw [containing_env]
    rcases mem_env hl hrow with hmem | ⟨-, hnone, -⟩
    · exact hl.marked row hmem hsome
    · exact absurd hnone hsome
  keys u day hset := by
    rw [redis_env] at hset
    exact (hl.keys u day hset).env hl

/-- Setting the key of a user who was swept keeps the ledger. -/
theorem Ledger.setKey (hl : Ledger s) (h : s.Swept u date) :
    Ledger (s.setKey (.digest u date)) where
  created := hl.created
  owned := hl.owned
  daily := hl.daily
  once := hl.once
  marked := hl.marked
  keys v day hset := by
    by_cases heq : RedisKey.digest v day = .digest u date
    · obtain ⟨rfl, rfl⟩ := RedisKey.digest.inj heq
      exact h
    · refine hl.keys v day ?_
      unfold Store.setKey at hset
      dsimp only at hset
      rwa [Function.update_of_ne heq] at hset

/-- A digest of rows that were in none keeps each row to one. -/
theorem Ledger.sendDigest (hl : Ledger s) (hrows : ∀ row ∈ rows, s.Owns data.userId row.id)
    (hfresh : ∀ row ∈ rows, s.containing row.id = 0)
    (hnone : s.perDay data.userId (dateOf s.now) = 0) : Ledger (s.sendDigest data date rows) where
  created := hl.created
  owned d hd id hid := by
    rcases List.mem_cons.mp hd with rfl | hd
    · obtain ⟨row, hrow, rfl⟩ := List.mem_map.mp hid
      exact hrows row hrow
    · exact hl.owned d hd id hid
  daily u day := by
    rw [perDay_sendDigest]
    split
    case isTrue h =>
      obtain ⟨rfl, rfl⟩ := h
      rw [hnone]
    case isFalse => exact hl.daily u day
  once id := by
    rw [containing_sendDigest]
    split
    case isTrue h =>
      obtain ⟨row, hrow, rfl⟩ := List.mem_map.mp h
      rw [hfresh row hrow]
    case isFalse => exact hl.once id
  marked row hrow hsome := (hl.marked row hrow hsome).trans_le containing_mono
  keys u day hset := (hl.keys u day hset).sendDigest

/-- So does marking what a digest contained. -/
theorem Ledger.markSent {ids : List ℕ} (hl : Ledger s) (hids : ∀ id ∈ ids, 0 < s.containing id) :
    Ledger (s.markSent ids) where
  created row hrow := by
    obtain ⟨old, hmem, -, -, hcreated, -, -⟩ := mem_markSent hrow
    exact hcreated ▸ hl.created old hmem
  owned d hd id hid := owns_markSent (hl.owned d hd id hid)
  daily := hl.daily
  once := hl.once
  marked row hrow hsome := by
    obtain ⟨old, hmem, hid, -, -, -, hold⟩ := mem_markSent hrow
    rw [← hid]
    rcases hold hsome with hold | hold
    · exact hl.marked old hmem hold
    · exact hids old.id hold
  keys u day hset := (hl.keys u day hset).markSent

end Store

/-! ## A statement of a job -/

section Next

variable {s s' : Store} {u : String} {day date : ℕ} {k k' : DigestPc} {row : NotificationRow}

theorem mem_pendingDigest (h : row ∈ s.pendingDigest u) :
    row ∈ s.notifications.rows ∧ row.userId = u ∧ row.digestSentAt = none := by
  have hmem := List.mem_of_mem_take h
  rw [List.mem_insertionSort, List.mem_filter, decide_eq_true_iff] at hmem
  exact ⟨hmem.1, hmem.2.1, hmem.2.2.2⟩

/-- What covers all that is pending leaves nothing out. -/
theorem mem_pendingDigest_of_covers (h : Covers s u) (hrow : row ∈ s.notifications.rows)
    (huser : row.userId = u) (hnone : row.digestSentAt = none) : row ∈ s.pendingDigest u := by
  unfold Store.pendingDigest
  rw [List.take_of_length_le]
  · rw [List.mem_insertionSort, List.mem_filter, decide_eq_true_iff]
    exact ⟨hrow, huser, h.1 row hrow huser hnone, hnone⟩
  · rw [List.length_insertionSort, ← List.countP_eq_length_filter]
    refine le_trans (List.countP_mono_left fun r _ hr => ?_) h.2
    rw [decide_eq_true_iff] at hr ⊢
    exact ⟨hr.1, hr.2.2⟩

/-- What is from before the date is in a digest, or pending. -/
theorem sent_or_pending (hl : Ledger s) (h : Covers s u) (hrow : row ∈ s.notifications.rows)
    (huser : row.userId = u) : 0 < s.containing row.id ∨ row ∈ s.pendingDigest u := by
  by_cases hnone : row.digestSentAt = none
  · exact Or.inr (mem_pendingDigest_of_covers h hrow huser hnone)
  · exact Or.inl (hl.marked row hrow hnone)

theorem swept_of_hasKey (hl : Ledger s) (h : s.hasKey (.digest u date) = true) :
    s.Swept u date := by
  refine hl.keys u date fun hnone => ?_
  unfold Store.hasKey at h
  rw [hnone] at h
  cases h

theorem owns_of_selected {data : SendUserDigestJobData} {rows : List NotificationRow}
    (h : ∀ row ∈ rows, row ∈ s.notifications.rows ∧ row.userId = data.userId
      ∧ row.digestSentAt = none) : ∀ row ∈ rows, s.Owns data.userId row.id :=
  fun row hrow => ⟨row, (h row hrow).1, rfl, (h row hrow).2.1⟩

/-- **What a statement leaves**: of the store, and of where its job has got. -/
theorem holds_digest_next (hl : Ledger s) (hk : k.Holds s)
    (hget : ∀ data today, k = .get data today → s.hasKey (.digest data.userId today) = false →
      s.Unsent data.userId ∧ s.NoneToday data.userId today)
    (hselect : ∀ data today, k = .select data today → Covers s data.userId)
    (henqueue : ∀ data today rows, k = .enqueue data today rows → dateOf s.now = today)
    (h : k.next s () = some (s', k')) : Ledger s' ∧ k'.Holds s' := by
  unfold DigestPc.next at h
  cases k with
  | begin data =>
    obtain ⟨rfl, rfl⟩ := Prod.mk.inj (Option.some.inj h)
    exact ⟨hl, le_rfl⟩
  | get data today =>
    obtain ⟨rfl, rfl⟩ := Prod.mk.inj (Option.some.inj h)
    refine ⟨hl, ?_⟩
    split
    case isTrue hkey => exact swept_of_hasKey hl hkey
    case isFalse hkey =>
      exact ⟨hk, hget data today rfl ((Bool.not_eq_true _).mp hkey)⟩
  | select data today =>
    obtain ⟨hdate, hunsent, hnone⟩ := hk
    obtain ⟨rfl, rfl⟩ := Prod.mk.inj (Option.some.inj h)
    have hcovered : ∀ row ∈ s.notifications.rows, row.userId = data.userId →
        0 < s.containing row.id ∨ row ∈ s.pendingDigest data.userId :=
      fun row hrow huser => sent_or_pending hl (hselect data today rfl) hrow huser
    refine ⟨hl, ?_⟩
    split
    case h_1 hempty =>
      refine ⟨hdate, fun row hrow huser _ => (hcovered row hrow huser).resolve_right ?_⟩
      rw [hempty]
      exact List.not_mem_nil
    case h_2 row rows hrows =>
      refine ⟨hunsent, hnone, fun r hr => ?_, hdate, fun r hr huser _ => ?_⟩
      · exact mem_pendingDigest (hrows ▸ hr)
      · exact hrows ▸ hcovered r hr huser
  | setEmpty data today =>
    obtain ⟨rfl, rfl⟩ := Prod.mk.inj (Option.some.inj h)
    exact ⟨hl.setKey hk, hk⟩
  | enqueue data today rows =>
    obtain ⟨hunsent, hnone, hselected, hdate, hcovered⟩ := hk
    obtain ⟨rfl, rfl⟩ := Prod.mk.inj (Option.some.inj h)
    have hnow := henqueue data today rows rfl
    refine ⟨hl.sendDigest (owns_of_selected hselected) (fun row hrow => ?_) ?_,
      ⟨hdate, fun row hrow huser hold => ?_⟩, fun row hrow => ?_, fun row hrow huser hnone' => ?_,
      owns_of_selected hselected⟩
    · obtain ⟨hmem, huser, hnone'⟩ := hselected row hrow
      exact hunsent row hmem huser hnone'
    · rw [hnow]
      exact hnone hnow
    · rw [containing_sendDigest]
      rcases hcovered row hrow huser hold with hpos | hmem
      · exact Nat.lt_of_lt_of_le hpos (Nat.le_add_right _ _)
      · rw [if_pos (List.mem_map_of_mem hmem)]
        exact Nat.succ_pos _
    · rw [containing_sendDigest, if_pos (List.mem_map_of_mem hrow)]
      exact Nat.succ_pos _
    · rw [containing_sendDigest]
      by_cases hid : row.id ∈ rows.map (·.id)
      · exact Or.inr hid
      · rw [if_neg hid, Nat.add_zero]
        exact Or.inl (hunsent row hrow huser hnone')
  | update data today rows =>
    obtain ⟨hswept, hsent, -⟩ := hk
    obtain ⟨rfl, rfl⟩ := Prod.mk.inj (Option.some.inj h)
    refine ⟨hl.markSent fun id hid => ?_, hswept.markSent⟩
    obtain ⟨row, hrow, rfl⟩ := List.mem_map.mp hid
    exact hsent row hrow
  | setKey data today =>
    obtain ⟨rfl, rfl⟩ := Prod.mk.inj (Option.some.inj h)
    exact ⟨hl.setKey hk, hk⟩
  | done data today => cases h

/-- **What a statement leaves of another job**, which is not busy with the same user. -/
theorem holds_other {k₁ : DigestPc} (hk : k.Holds s) (hother : k.Busy k.userId → ¬ k₁.Busy k.userId)
    (h : k.next s () = some (s', k')) (h₁ : k₁.Holds s) : k₁.Holds s' := by
  unfold DigestPc.next at h
  cases k with
  | begin data | get data today | select data today =>
    obtain ⟨rfl, -⟩ := Prod.mk.inj (Option.some.inj h)
    exact h₁
  | setEmpty data today | setKey data today =>
    obtain ⟨rfl, -⟩ := Prod.mk.inj (Option.some.inj h)
    exact h₁.setKey
  | enqueue data today rows =>
    obtain ⟨-, -, hselected, -⟩ := hk
    obtain ⟨rfl, -⟩ := Prod.mk.inj (Option.some.inj h)
    exact h₁.sendDigest (owns_of_selected hselected) (hother rfl)
  | update data today rows =>
    obtain ⟨-, -, -, howns⟩ := hk
    obtain ⟨rfl, -⟩ := Prod.mk.inj (Option.some.inj h)
    refine h₁.markSent (fun id hid => ?_) (hother rfl)
    obtain ⟨row, hrow, rfl⟩ := List.mem_map.mp hid
    exact howns row hrow
  | done data today => cases h

/-- What is unmarked is in no digest, but for the job that is about to mark it. -/
theorem unsent_next (hk : k.Holds s) (h : k.next s () = some (s', k')) (hu : s.Unsent u) :
    s'.Unsent u ∨ k'.Marking u := by
  unfold DigestPc.next at h
  cases k with
  | begin data | get data today | select data today | setEmpty data today | setKey data today =>
    obtain ⟨rfl, -⟩ := Prod.mk.inj (Option.some.inj h)
    exact Or.inl hu
  | enqueue data today rows =>
    obtain ⟨-, -, hselected, -⟩ := hk
    obtain ⟨rfl, rfl⟩ := Prod.mk.inj (Option.some.inj h)
    by_cases hself : u = data.userId
    · exact Or.inr hself.symm
    · refine Or.inl fun row hrow huser hnone => ?_
      rw [containing_sendDigest_other (owns_of_selected hselected) hself ⟨row, hrow, rfl, huser⟩]
      exact hu row hrow huser hnone
  | update data today rows =>
    obtain ⟨rfl, -⟩ := Prod.mk.inj (Option.some.inj h)
    refine Or.inl fun row hrow huser hnone => ?_
    obtain ⟨old, hmem, hid, huser', -, hold, -⟩ := mem_markSent hrow
    exact hid ▸ hu old hmem (huser'.trans huser) (hold hnone).1
  | done data today => cases h

/-- The job that marks the rows leaves none. -/
theorem unsent_of_marking (hk : k.Holds s) (h : k.next s () = some (s', k')) (hu : k.Marking u) :
    s'.Unsent u := by
  unfold DigestPc.next at h
  cases k with
  | update data today rows =>
    obtain rfl : data.userId = u := hu
    obtain ⟨-, -, hunsent, -⟩ := hk
    obtain ⟨rfl, -⟩ := Prod.mk.inj (Option.some.inj h)
    intro row hrow huser hnone
    obtain ⟨old, hmem, hid, huser', -, hold, -⟩ := mem_markSent hrow
    obtain ⟨hnone', hnot⟩ := hold hnone
    exact hid ▸ (hunsent old hmem (huser'.trans huser) hnone').resolve_right hnot
  | _ => exact absurd hu id

theorem keyLasts_setKey (hdate : date ≤ dateOf s.now) :
    (s.setKey (.digest u date)).KeyLasts u date := by
  refine ⟨s.now + 86400, Function.update_self _ _ _, ?_⟩
  have hle : date * 86400 ≤ s.now := (Nat.le_div_iff_mul_le (by decide)).mp hdate
  rw [Nat.succ_mul]
  exact Nat.add_le_add_right hle _

/-- A key lasts as long when another is set. -/
theorem KeyLasts.setKey {v : String} (hdate : date ≤ dateOf s.now) (h : s.KeyLasts u day) :
    (s.setKey (.digest v date)).KeyLasts u day := by
  by_cases heq : RedisKey.digest u day = .digest v date
  · obtain ⟨rfl, rfl⟩ := RedisKey.digest.inj heq
    exact keyLasts_setKey hdate
  · obtain ⟨e, he, hlast⟩ := h
    refine ⟨e, ?_, hlast⟩
    unfold Store.setKey
    dsimp only
    rw [Function.update_of_ne heq]
    exact he

variable (u day) in
/-- A day with a digest has its key, or a job that is about to set it. -/
theorem keyed_next (hk : k.Holds s)
    (henqueue : ∀ data today rows, k = .enqueue data today rows → dateOf s.now = today)
    (h : k.next s () = some (s', k')) :
    (s.perDay u day = 0 → s'.perDay u day = 0 ∨ k'.Keyless u day)
      ∧ (s.KeyLasts u day → s'.KeyLasts u day)
      ∧ (k.Keyless u day → s'.KeyLasts u day ∨ k'.Keyless u day) := by
  unfold DigestPc.next at h
  cases k with
  | begin data | get data today | select data today =>
    obtain ⟨rfl, -⟩ := Prod.mk.inj (Option.some.inj h)
    exact ⟨Or.inl, id, fun hno => absurd hno id⟩
  | setEmpty data today =>
    obtain ⟨rfl, -⟩ := Prod.mk.inj (Option.some.inj h)
    exact ⟨Or.inl, KeyLasts.setKey hk.1, fun hno => absurd hno id⟩
  | setKey data today =>
    obtain ⟨rfl, -⟩ := Prod.mk.inj (Option.some.inj h)
    refine ⟨Or.inl, KeyLasts.setKey hk.1, ?_⟩
    rintro ⟨rfl, rfl⟩
    exact Or.inl (keyLasts_setKey hk.1)
  | enqueue data today rows =>
    obtain ⟨rfl, rfl⟩ := Prod.mk.inj (Option.some.inj h)
    refine ⟨fun hzero => ?_, id, fun hno => absurd hno id⟩
    rw [perDay_sendDigest, henqueue data today rows rfl]
    by_cases hself : data.userId = u ∧ today = day
    · exact Or.inr hself
    · rw [if_neg hself]
      exact Or.inl hzero
  | update data today rows =>
    obtain ⟨rfl, rfl⟩ := Prod.mk.inj (Option.some.inj h)
    exact ⟨Or.inl, id, Or.inr⟩
  | done data today => cases h

/-- Where a job is busy after a statement, it was before, or it has just read no key. -/
theorem busy_next (h : k.next s () = some (s', k')) (hk' : k'.Busy u) :
    k.Busy u ∨ ∃ data today, k = .get data today ∧ data.userId = u := by
  unfold DigestPc.next at h
  cases k with
  | get data today =>
    obtain ⟨-, rfl⟩ := Prod.mk.inj (Option.some.inj h)
    split at hk'
    case isTrue => exact absurd hk' id
    case isFalse => exact Or.inr ⟨data, today, rfl, hk'⟩
  | select data today =>
    obtain ⟨-, rfl⟩ := Prod.mk.inj (Option.some.inj h)
    split at hk'
    case h_1 => exact absurd hk' id
    case h_2 => exact Or.inl hk'
  | enqueue data today rows =>
    obtain ⟨-, rfl⟩ := Prod.mk.inj (Option.some.inj h)
    exact Or.inl hk'
  | begin data | setEmpty data today | setKey data today | update data today rows =>
    obtain ⟨-, rfl⟩ := Prod.mk.inj (Option.some.inj h)
    exact absurd hk' id
  | done data today => cases h

end Next

/-! ## Runs -/

section Runs

variable {ι : Type*} {p : DigestJobs ι}

/-- The store and every job are as they should be; one job of a user at most is busy; what is in a
digest and unmarked is about to be marked; and a day with a digest has its key or a job that is
about to set it. -/
structure DigestInv (p : DigestJobs ι) : Prop where
  ledger : Ledger p.store
  holds : ∀ i, (p.calls i).Keeps (·.Holds p.store)
  apart : ∀ u i j, i ≠ j → (p.calls i).Live (DigestPc.Busy u) → ¬ (p.calls j).Live (DigestPc.Busy u)
  settled : ∀ u, p.store.Unsent u ∨ ∃ i, (p.calls i).at'.Marking u
  keyed : ∀ u day, p.store.perDay u day = 0 ∨ p.store.KeyLasts u day
    ∨ ∃ i, (p.calls i).at'.Keyless u day

theorem DigestPc.Keyless.unsettled {k : DigestPc} {u : String} {day : ℕ} (h : k.Keyless u day) :
    k.Unsettled u day := by
  cases k with
  | update data today rows => exact h.1
  | setKey data today => exact h
  | _ => exact absurd h id

theorem DigestPc.Marking.unsettled {k : DigestPc} {u : String} {day : ℕ} (h : k.Marking u) :
    k.Unsettled u day := by
  cases k with
  | update data today rows => exact h
  | _ => exact absurd h id

/-- Nobody else is busy with the user and the day. -/
theorem not_busy_of_apart {i j : ι} {u : String} {today : ℕ} (h : Apart p i u today) (hj : j ≠ i) :
    ¬ (p.calls j).Live (DigestPc.Busy u) := by
  obtain ⟨hsending, hunsettled⟩ := h j hj
  intro hbusy
  obtain ⟨k, hk, hkbusy⟩ := hbusy.exists
  rw [hk] at hsending hunsettled
  cases k with
  | select data today => exact hsending hkbusy
  | enqueue data today rows => exact hsending hkbusy
  | update data today rows => exact hunsettled hkbusy
  | _ => exact hkbusy

/-- **What a job finds that reads no key**: nothing unmarked in a digest, and no digest of its date,
if that is still the date. -/
theorem DigestInv.get (hinv : DigestInv p) {i : ι} {data : SendUserDigestJobData} {today : ℕ}
    (hi : p.calls i = .up (.get data today)) (hapart : Apart p i data.userId today)
    (hkey : p.store.hasKey (.digest data.userId today) = false) :
    p.store.Unsent data.userId ∧ p.store.NoneToday data.userId today := by
  have hnone : ∀ j, ¬ (p.calls j).at'.Unsettled data.userId today := by
    intro j hj
    by_cases hji : j = i
    · subst hji
      rw [hi] at hj
      exact hj
    · exact (hapart j hji).2 hj
  constructor
  · refine (hinv.settled data.userId).resolve_right ?_
    rintro ⟨j, hj⟩
    exact hnone j hj.unsettled
  · intro hnow
    rcases hinv.keyed data.userId today with hzero | ⟨e, he, hlast⟩ | ⟨j, hj⟩
    · exact hzero
    · exfalso
      unfold Store.hasKey at hkey
      rw [he] at hkey
      have hlt : p.store.now < (today + 1) * 86400 := by
        rw [← Nat.div_lt_iff_lt_mul (by decide)]
        exact Nat.lt_succ_of_le (le_of_eq hnow)
      exact of_decide_eq_false hkey (hlt.trans_le hlast)
    · exact absurd hj.unsettled (hnone j)

variable [DecidableEq ι]

/-- A statement keeps each row to one digest, and each day to one. -/
theorem digestInv_run {i : ι} {k k' : DigestPc} {s' : Store} (hinv : DigestInv p)
    (hG : DigestOrder p (.run i ())) (hk : p.calls i = .up k)
    (hn : k.next p.store () = some (s', k')) :
    DigestInv ⟨s', Function.update p.calls i (.up k')⟩ := by
  have hat : (p.calls i).at' = k := congrArg Proc.at' hk
  change OrderAt p i (p.calls i).at' at hG
  rw [hat] at hG
  have hkholds : k.Holds p.store := (hinv.holds i).of_up hk
  have henqueue : ∀ data today rows, k = .enqueue data today rows → dateOf p.store.now = today := by
    rintro data today rows rfl
    exact hG
  have hother : ∀ j, j ≠ i → k.Busy k.userId → ¬ (p.calls j).Live (DigestPc.Busy k.userId) :=
    fun j hj hbusy => hinv.apart _ i j (Ne.symm hj) (by rw [hk]; exact hbusy)
  obtain ⟨hledger, hk'holds⟩ := holds_digest_next hinv.ledger hkholds
    (by rintro data today rfl hkey; exact hinv.get hk hG hkey)
    (by rintro data today rfl; exact hG) henqueue hn
  refine ⟨hledger, keeps_update_up hk'holds fun j hj => ?_, fun u a b hab ha hb => ?_, fun u => ?_,
    fun u day => ?_⟩
  · have hidle := hother j hj
    have hjholds := hinv.holds j
    cases hc : p.calls j with
    | down k₁ => trivial
    | up k₁ =>
      rw [hc] at hidle hjholds
      exact holds_other hkholds hidle hn hjholds
  · have hnew : k'.Busy u → ∀ j, j ≠ i → ¬ (p.calls j).Live (DigestPc.Busy u) := by
      intro hbusy j hj
      rcases busy_next hn hbusy with hold | ⟨data, today, rfl, rfl⟩
      · exact hinv.apart u i j (Ne.symm hj) (by rw [hk]; exact hold)
      · exact not_busy_of_apart hG hj
    rcases live_update_up ha with ⟨rfl, hbusy⟩ | ⟨hai, haold⟩
    · rcases live_update_up hb with ⟨rfl, -⟩ | ⟨hba, hbold⟩
      · exact hab rfl
      · exact hnew hbusy b hba hbold
    · rcases live_update_up hb with ⟨rfl, hbusy⟩ | ⟨-, hbold⟩
      · exact hnew hbusy a hai haold
      · exact hinv.apart u a b hab haold hbold
  · have hself : ∀ {P : DigestPc → Prop}, P k' →
        ∃ j, P (Function.update p.calls i (.up k') j).at' := fun hP => ⟨i, by
      rw [at'_update_self]
      exact hP⟩
    rcases hinv.settled u with hunsent | ⟨j, hj⟩
    · exact (unsent_next hkholds hn hunsent).imp id hself
    · by_cases hji : j = i
      · subst hji
        rw [hat] at hj
        exact Or.inl (unsent_of_marking hkholds hn hj)
      · refine Or.inr ⟨j, ?_⟩
        rw [at'_update_of_ne hji]
        exact hj
  · have hself : ∀ {P : DigestPc → Prop}, P k' →
        ∃ j, P (Function.update p.calls i (.up k') j).at' := fun hP => ⟨i, by
      rw [at'_update_self]
      exact hP⟩
    obtain ⟨hzero, hlasts, hkeyless⟩ := keyed_next u day hkholds henqueue hn
    rcases hinv.keyed u day with hnone | hlast | ⟨j, hj⟩
    · exact (hzero hnone).imp id fun hnew => Or.inr (hself hnew)
    · exact Or.inr (Or.inl (hlasts hlast))
    · by_cases hji : j = i
      · subst hji
        rw [hat] at hj
        exact Or.inr ((hkeyless hj).imp id hself)
      · refine Or.inr (Or.inr ⟨j, ?_⟩)
        rw [at'_update_of_ne hji]
        exact hj

/-- Each row is in one digest in every state of such a run. -/
theorem digestInv {s₀ : Store} (hs₀ : NoDigest s₀) {jobs : ι → SendUserDigestJobData}
    (h : Run (Pool.step digestMachine) DigestOrder ⟨s₀, fun i => .up (.begin (jobs i))⟩ p) :
    DigestInv p := by
  refine Pool.invariant ?_ ?_ ?_ ?_ h
  · have hzero : ∀ id, s₀.containing id = 0 := fun id => by
      unfold Store.containing
      rw [hs₀.digests]
      rfl
    have hday : ∀ u day, s₀.perDay u day = 0 := fun u day => by
      unfold Store.perDay
      rw [hs₀.digests]
      rfl
    refine ⟨⟨hs₀.created, fun d hd => ?_, fun u day => ?_, fun id => ?_, fun row hrow hsome => ?_,
      fun u day hset => ?_⟩, fun i => trivial, fun u i j _ hi => absurd hi id,
      fun u => Or.inl fun row _ _ _ => hzero row.id, fun u day => Or.inl (hday u day)⟩
    · rw [hs₀.digests] at hd
      exact absurd hd List.not_mem_nil
    · rw [hday]
      exact Nat.zero_le _
    · rw [hzero]
      exact Nat.zero_le _
    · exact absurd (hs₀.unmarked row hrow) hsome
    · exact absurd (hs₀.keys u day) hset
  · rintro p i d k s' k' hinv hG hk hn
    exact digestInv_run hinv hG hk hn
  · rintro p i k hinv - hk
    refine ⟨hinv.ledger, keeps_update_down hinv.holds, fun u a b hab ha hb => ?_, fun u => ?_,
      fun u day => ?_⟩
    · exact hinv.apart u a b hab (live_update_down ha).2 (live_update_down hb).2
    · simp only [at'_update_down hk]
      exact hinv.settled u
    · simp only [at'_update_down hk]
      exact hinv.keyed u day
  · rintro p e hinv -
    refine ⟨hinv.ledger.env e, fun i => (hinv.holds i).imp fun k => .env hinv.ledger, hinv.apart,
      fun u => (hinv.settled u).imp (fun hu => hu.env hinv.ledger) id, fun u day => ?_⟩
    have hkeyed := hinv.keyed u day
    rw [← perDay_env e] at hkeyed
    refine hkeyed.imp id (Or.imp ?_ id)
    rintro ⟨e', he', hlast⟩
    exact ⟨e', (congrFun (redis_env e) _).trans he', hlast⟩

/-- **One digest a day, and each notification in one**, where the jobs of a user keep apart and
each SELECT covers what is pending. -/
theorem digest_once {s₀ : Store} (hs₀ : NoDigest s₀) {jobs : ι → SendUserDigestJobData}
    (h : Run (Pool.step digestMachine) DigestOrder ⟨s₀, fun i => .up (.begin (jobs i))⟩ p) :
    DigestedOnce p := by
  have hinv := digestInv hs₀ h
  refine ⟨hinv.ledger.daily, fun row _ => hinv.ledger.once row.id, ?_⟩
  intro i data today hi row hrow huser hold
  have hswept : p.store.Swept data.userId today := (hinv.holds i).of_up hi
  exact le_antisymm (hinv.ledger.once row.id) (hswept.2 row hrow huser hold)

end Runs

/-! ## Two jobs of one user -/

theorem noDigest_emptyStore : NoDigest emptyStore where
  digests := rfl
  keys _ _ := rfl
  unmarked _ h := absurd h List.not_mem_nil
  created _ h := absurd h List.not_mem_nil

def bobsDigest : SendUserDigestJobData := ⟨"bob", "bob@acme.test", "Bob"⟩

/-- Bob is mentioned at 1000 s; a day later there are two jobs for him. -/
def nextDay : List (Move (Fin 2) Unit Env) :=
  [.env (.tick 1000), .env (.notify mention "bob"), .env (.tick 85400)]

/-- One job after the other. -/
theorem digest_once_bob : ∃ p : DigestJobs (Fin 2),
    p.calls 0 = .up (.done bobsDigest 1) ∧ p.calls 1 = .up (.done bobsDigest 1)
      ∧ p.store.containing 1 = 1 ∧ DigestedOnce p := by
  obtain ⟨p, hrun, hp⟩ := exists_run_of_exec (Pool.step digestMachine) DigestOrder
    ⟨emptyStore, fun _ => .up (.begin bobsDigest)⟩
    (List.flatten [nextDay, List.replicate 6 (.run 0 ()), List.replicate 2 (.run 1 ())])
    (fun p => decide (p.calls 0 = .up (.done bobsDigest 1) ∧ p.calls 1 = .up (.done bobsDigest 1)
      ∧ p.store.containing 1 = 1)) (by decide)
  obtain ⟨hfirst, hsecond, hone⟩ := of_decide_eq_true hp
  exact ⟨p, hfirst, hsecond, hone, digest_once noDigest_emptyStore hrun⟩

/-- **Two jobs that both read no key send two digests.** -/
theorem not_digestedOnce : ¬ ∀ (s₀ : Store), NoDigest s₀ →
    ∀ (jobs : Fin 2 → SendUserDigestJobData) (p : DigestJobs (Fin 2)),
      Run (Pool.step digestMachine) anyStep ⟨s₀, fun i => .up (.begin (jobs i))⟩ p →
        DigestedOnce p := by
  intro hclaim
  obtain ⟨p, hrun, hp⟩ := exists_run_of_exec (Pool.step digestMachine) anyStep
    ⟨emptyStore, fun _ => .up (.begin bobsDigest)⟩
    (List.flatten [nextDay, [.run 0 (), .run 1 (), .run 0 (), .run 1 ()],
      List.replicate 2 (.run 0 ()), List.replicate 2 (.run 1 ())])
    (fun p => decide (p.store.perDay "bob" 1 = 2)) (by decide)
  have hle := (hclaim emptyStore noDigest_emptyStore (fun _ => bobsDigest) p hrun).daily "bob" 1
  rw [of_decide_eq_true hp] at hle
  exact absurd hle (by decide)

end WorkPlatform.Notification

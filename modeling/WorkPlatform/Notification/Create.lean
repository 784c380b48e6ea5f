import WorkPlatform.Notification.Store

/-!
# Notification/Create — one create-notification job, over its attempts

    for each target but the actor:
      SELECT preference ▸ [quiet hours] ▸ INSERT ▸ PUBLISH ▸ enqueue email ▸ next target

A failure of the INSERT or of the PUBLISH is caught and logged; any other failure ends the attempt,
and BullMQ starts the next one from the first target.  So a target is served twice by an attempt
that fails after it, and not at all by an INSERT that fails: `create_once` is for attempts that
write nothing before they fail, and INSERTs that do not fail.
-/

namespace WorkPlatform.Notification

open Machinery

/-! ## The worker -/

/-- `SUBSCRIBED_EVENT_TYPES`. -/
def subscribedEventTypes : List String :=
  ["task.assigned", "task.updated", "task.status_changed", "task.commented", "task.mentioned",
    "comment.created", "mention.created", "message.received", "message.created"]

namespace CreateNotificationJobData

/-- `actorUserId && userId === actorUserId`. -/
def IsActor (data : CreateNotificationJobData) (userId : String) : Prop :=
  data.actorUserId = some userId ∧ userId ≠ ""

instance (data : CreateNotificationJobData) : DecidablePred data.IsActor := fun userId =>
  inferInstanceAs (Decidable (data.actorUserId = some userId ∧ userId ≠ ""))

/-- The targets that are not the actor. -/
def others (data : CreateNotificationJobData) (l : List String) : List String :=
  l.filter fun userId => ¬ data.IsActor userId

/-- The data of the email job of a target. -/
def email (data : CreateNotificationJobData) (userId : String) : SendNotificationEmailJobData where
  orgId := data.orgId
  userId := userId
  eventType := data.eventType
  entityType := data.entityType
  entityId := data.entityId
  actorUserId := data.actorUserId
  payload := data.payload

end CreateNotificationJobData

/-- The email of a target is queued. -/
def Store.enqueueEmail (s : Store) (data : CreateNotificationJobData) (userId : String) : Store :=
  s.enqueue (.sendNotificationEmail (data.email userId))

/-- An attempt: the job, the time it started, and the targets it has come to, each with the
preference it was given. -/
structure Attempt where
  data : CreateNotificationJobData
  now : ℕ
  visited : List (String × Preference)
  deriving DecidableEq

/-- Where `notificationWorkerJob` is: the user it is at, and those who are left. -/
inductive CreatePc
  | begin (data : CreateNotificationJobData)
  | preference (a : Attempt) (userId : String) (rest : List String)
  | insert (a : Attempt) (userId : String) (pref : Preference) (rest : List String)
  | publish (a : Attempt) (row : NotificationRow) (pref : Preference) (rest : List String)
  | email (a : Attempt) (userId : String) (rest : List String)
  | skipped
  | done (a : Attempt)
  | threw
  deriving DecidableEq

namespace Attempt

/-- `for (const userId of targetUserIds)`, from one target on. -/
def loop (a : Attempt) : List String → CreatePc
  | [] => .done a
  | userId :: rest => if a.data.IsActor userId then a.loop rest else .preference a userId rest

/-- The email comes after the notification, where the user wants each at once. -/
def afterInapp (a : Attempt) (userId : String) (pref : Preference) (rest : List String) :
    CreatePc :=
  if pref.channelEmail = true ∧ pref.digestMode = .realtime then .email a userId rest
  else a.loop rest

def visit (a : Attempt) (userId : String) (pref : Preference) : Attempt :=
  { a with visited := (userId, pref) :: a.visited }

/-- What follows when the preference of a user is read. -/
def afterPreference (a : Attempt) (userId : String) (pref : Preference) (rest : List String) :
    CreatePc :=
  if pref.quiet a.now then (a.visit userId pref).loop rest
  else if pref.channelInapp then .insert (a.visit userId pref) userId pref rest
  else (a.visit userId pref).afterInapp userId pref rest

end Attempt

namespace CreatePc

/-- The next statement of the job. -/
def next (s : Store) (pc : CreatePc) (o : Outcome) : Option (Store × CreatePc) :=
  match pc with
  | .begin data =>
    if data.eventType ∈ subscribedEventTypes then
      some (s, Attempt.loop ⟨data, s.now, []⟩ data.targetUserIds)
    else some (s, .skipped)
  | .preference a userId rest =>
    if o.answered then
      some (s, a.afterPreference userId (s.getOrDefault a.data.orgId userId a.data.eventType) rest)
    else some (s, .threw)
  -- the error is logged, and the loop goes on
  | .insert a userId pref rest =>
    some (if o.took then s.insert a.data userId else s,
      if o.answered then .publish a (s.newRow a.data userId) pref rest
      else a.afterInapp userId pref rest)
  | .publish a row pref rest =>
    some (if o.took then s.publish row else s, a.afterInapp row.userId pref rest)
  | .email a userId rest =>
    some (if o.took then s.enqueueEmail a.data userId else s,
      if o.answered then a.loop rest else .threw)
  | .skipped | .done _ | .threw => none

/-- The attempt has begun, and has not failed. -/
def Going : CreatePc → Prop
  | .begin _ | .threw => False
  | _ => True

instance : DecidablePred Going
  | .begin _ | .threw => inferInstanceAs (Decidable False)
  | .preference _ _ _ | .insert _ _ _ _ | .publish _ _ _ _ | .email _ _ _ | .skipped
  | .done _ => inferInstanceAs (Decidable True)

end CreatePc

def createMachine : Machine Store CreatePc Outcome Env := ⟨CreatePc.next, env⟩

/-- The attempts at one job, over the store they share with the rest. -/
abbrev Attempts (ι : Type*) := Pool ι Store CreatePc

/-! ## What was written for a target -/

/-- The row is the event's, for the target. -/
def NotificationRow.Of (data : CreateNotificationJobData) (userId : String)
    (row : NotificationRow) : Prop :=
  row.orgId = data.orgId ∧ row.userId = userId ∧ row.type = data.eventType
    ∧ row.entityType = data.entityType ∧ row.entityId = data.entityId
    ∧ row.actorId = data.actorUserId ∧ row.payload = data.payload

instance (data : CreateNotificationJobData) (userId : String) :
    DecidablePred (NotificationRow.Of data userId) := fun row =>
  inferInstanceAs (Decidable (row.orgId = data.orgId ∧ row.userId = userId
    ∧ row.type = data.eventType ∧ row.entityType = data.entityType
    ∧ row.entityId = data.entityId ∧ row.actorId = data.actorUserId
    ∧ row.payload = data.payload))

/-- Two jobs of one event: they differ in their targets at most. -/
def CreateNotificationJobData.SameEvent (data data' : CreateNotificationJobData) : Prop :=
  data.orgId = data'.orgId ∧ data.eventType = data'.eventType
    ∧ data.entityType = data'.entityType ∧ data.entityId = data'.entityId
    ∧ data.actorUserId = data'.actorUserId ∧ data.payload = data'.payload

instance (data data' : CreateNotificationJobData) : Decidable (data.SameEvent data') :=
  inferInstanceAs (Decidable (_ ∧ _ ∧ _ ∧ _ ∧ _ ∧ _))

namespace Store

/-- The in-app notifications of the event that the target has. -/
def inapp (s : Store) (data : CreateNotificationJobData) (userId : String) : ℕ :=
  s.notifications.rows.countP fun row => decide (row.Of data userId)

/-- The emails of the event that were queued for the target. -/
def emails (s : Store) (data : CreateNotificationJobData) (userId : String) : ℕ :=
  (s.queued.map Job.data).count (.sendNotificationEmail (data.email userId))

end Store

variable {s s₀ : Store} {data data' : CreateNotificationJobData} {u v : String} {a : Attempt}

theorem newRow_of : (s.newRow data u).Of data v ↔ u = v := by
  unfold NotificationRow.Of Store.newRow
  simp

theorem newRow_of_other (h : ¬ data.SameEvent data') : ¬ (s.newRow data' u).Of data v := by
  rintro ⟨horg, -, htype, hentity, hid, hactor, hpayload⟩
  exact h ⟨horg.symm, htype.symm, hentity.symm, hid.symm, hactor.symm, hpayload.symm⟩

theorem email_inj : data.email u = data.email v ↔ u = v := by
  unfold CreateNotificationJobData.email
  simp

theorem inapp_insert_self : (s.insert data u).inapp data u = s.inapp data u + 1 := by
  unfold Store.inapp
  rw [Store.rows_insert, List.countP_cons_of_pos]
  simpa only [decide_eq_true_iff] using newRow_of.mpr rfl

theorem inapp_insert_of_ne (h : v ≠ u) : (s.insert data u).inapp data v = s.inapp data v := by
  unfold Store.inapp
  rw [Store.rows_insert, List.countP_cons_of_neg]
  simpa only [decide_eq_true_iff] using fun hof => h (newRow_of.mp hof).symm

theorem inapp_insert_other (h : ¬ data.SameEvent data') :
    (s.insert data' u).inapp data v = s.inapp data v := by
  unfold Store.inapp
  rw [Store.rows_insert, List.countP_cons_of_neg]
  simpa only [decide_eq_true_iff] using newRow_of_other h

theorem emails_enqueue_self : (s.enqueueEmail data u).emails data u = s.emails data u + 1 := by
  unfold Store.emails Store.enqueueEmail Store.enqueue
  rw [List.map_cons]
  exact List.count_cons_self

theorem emails_enqueue_of_ne (h : v ≠ u) :
    (s.enqueueEmail data u).emails data v = s.emails data v := by
  unfold Store.emails Store.enqueueEmail Store.enqueue
  rw [List.map_cons]
  exact List.count_cons_of_ne fun heq =>
    h (email_inj.mp (JobData.sendNotificationEmail.inj heq)).symm

/-! ## Once, and no less -/

/-- Nobody but the actor was given more than one of each. -/
def AtMostOnce (s₀ s : Store) (data : CreateNotificationJobData) : Prop :=
  ∀ u, ¬ data.IsActor u →
    s.inapp data u ≤ s₀.inapp data u + 1 ∧ s.emails data u ≤ s₀.emails data u + 1

/-- The target was come to, and was given what it asks for. -/
def Served (s₀ s : Store) (a : Attempt) (u : String) : Prop :=
  ∃ pref, (u, pref) ∈ a.visited
    ∧ (pref.AsksInapp a.now → s₀.inapp a.data u + 1 ≤ s.inapp a.data u)
    ∧ (pref.AsksEmail a.now → s₀.emails a.data u + 1 ≤ s.emails a.data u)

/-- **The attempts at a job add up to one**: nobody is given anything twice, and what was asked for
is there once an attempt has ended well. -/
def CreatedOnce {ι : Type*} (s₀ : Store) (data : CreateNotificationJobData) (p : Attempts ι) :
    Prop :=
  AtMostOnce s₀ p.store data ∧
    ∀ i a, p.calls i = .up (.done a) → ∀ u ∈ data.others data.targetUserIds, Served s₀ p.store a u

/-! ## Which steps are taken -/

/-- BullMQ starts an attempt when the ones before it have failed; the event is not notified of by
another job. -/
def Retries {ι : Type*} (data : CreateNotificationJobData) (p : Attempts ι) :
    Move ι Outcome Env → Prop
  | .run i _ => ¬ (p.calls i).at'.Going → ∀ j, j ≠ i → ¬ (p.calls j).Live CreatePc.Going
  | .env (.notify data' _) => ¬ data.SameEvent data'
  | _ => True

instance {ι : Type*} [Fintype ι] [DecidableEq ι] (data : CreateNotificationJobData)
    (p : Attempts ι) : ∀ m : Move ι Outcome Env, Decidable (Retries data p m)
  | .run i _ => inferInstanceAs (Decidable (¬ (p.calls i).at'.Going → ∀ j, j ≠ i →
      ¬ (p.calls j).Live CreatePc.Going))
  | .env (.notify data' _) => inferInstanceAs (Decidable (¬ data.SameEvent data'))
  | .crash _ | .env (.tick _) | .env (.setPreferences _) => inferInstanceAs (Decidable True)

/-- Nothing of the event was written yet, for any target. -/
def Unwritten (s₀ s : Store) (data : CreateNotificationJobData) : Prop :=
  ∀ u ∈ data.targetUserIds,
    s.inapp data u = s₀.inapp data u ∧ s.emails data u = s₀.emails data u

instance (s₀ s : Store) (data : CreateNotificationJobData) : Decidable (Unwritten s₀ s data) :=
  inferInstanceAs (Decidable (∀ u ∈ data.targetUserIds,
    s.inapp data u = s₀.inapp data u ∧ s.emails data u = s₀.emails data u))

/-- An attempt begins while nothing of the event is written, and no INSERT fails. -/
def CreatePc.CleanAt (s₀ s : Store) (data : CreateNotificationJobData) (o : Outcome) :
    CreatePc → Prop
  | .begin _ => Unwritten s₀ s data
  | .insert _ _ _ _ => o.took = true
  | _ => True

/-- Every attempt begins while nothing of the event is written, and its INSERTs go through. -/
def Clean {ι : Type*} (s₀ : Store) (data : CreateNotificationJobData) (p : Attempts ι) :
    Move ι Outcome Env → Prop
  | .run i o => (p.calls i).at'.CleanAt s₀ p.store data o
  | _ => True

instance (s₀ s : Store) (data : CreateNotificationJobData) (o : Outcome) :
    ∀ k : CreatePc, Decidable (k.CleanAt s₀ s data o)
  | .begin _ => inferInstanceAs (Decidable (Unwritten s₀ s data))
  | .insert _ _ _ _ => inferInstanceAs (Decidable (o.took = true))
  | .preference _ _ _ | .publish _ _ _ _ | .email _ _ _ | .skipped | .done _ | .threw =>
    inferInstanceAs (Decidable True)

instance {ι : Type*} (s₀ : Store) (data : CreateNotificationJobData) (p : Attempts ι) :
    ∀ m : Move ι Outcome Env, Decidable (Clean s₀ data p m)
  | .run i o => inferInstanceAs (Decidable ((p.calls i).at'.CleanAt s₀ p.store data o))
  | .crash _ | .env _ => inferInstanceAs (Decidable True)

/-! ## What an attempt goes by -/

/-- Who is still to be given an in-app notification, and who an email: they have not got it; and
who is left out of both was served. -/
structure Base (s₀ s : Store) (a : Attempt) (inapp left : List String) : Prop where
  nodup : (a.data.others left).Nodup
  inapp : ∀ u ∈ a.data.others inapp, s.inapp a.data u = s₀.inapp a.data u
  emails : ∀ u ∈ a.data.others left, s.emails a.data u = s₀.emails a.data u
  served : ∀ u ∈ a.data.others a.data.targetUserIds,
    u ∈ a.data.others left ∨ Served s₀ s a u

namespace CreatePc

/-- What is so at a control point. -/
def Holds (s₀ s : Store) (data : CreateNotificationJobData) : CreatePc → Prop
  | .preference a u rest =>
    a.data = data ∧ Base s₀ s a (u :: rest) (u :: rest) ∧ ¬ a.data.IsActor u
  | .insert a u pref rest =>
    a.data = data ∧ Base s₀ s a (u :: rest) (u :: rest) ∧ ¬ a.data.IsActor u
      ∧ (u, pref) ∈ a.visited ∧ pref.quiet a.now = false
  | .publish a row pref rest =>
    a.data = data ∧ Base s₀ s a rest (row.userId :: rest) ∧ ¬ a.data.IsActor row.userId
      ∧ (row.userId, pref) ∈ a.visited ∧ pref.quiet a.now = false
      ∧ s₀.inapp a.data row.userId + 1 ≤ s.inapp a.data row.userId
  | .email a u rest =>
    a.data = data ∧ Base s₀ s a rest (u :: rest) ∧ ¬ a.data.IsActor u
      ∧ ∃ pref, (u, pref) ∈ a.visited
        ∧ (pref.AsksInapp a.now → s₀.inapp a.data u + 1 ≤ s.inapp a.data u)
  | .done a => a.data = data ∧ Base s₀ s a [] []
  | .begin d => d = data
  | .skipped | .threw => True

end CreatePc

section Base

variable {inapp left rest : List String} {pref : Preference}

theorem others_cons (h : ¬ data.IsActor u) : data.others (u :: rest) = u :: data.others rest :=
  List.filter_cons_of_pos (by simpa using h)

theorem others_cons_actor (h : data.IsActor u) : data.others (u :: rest) = data.others rest :=
  List.filter_cons_of_neg (by simpa using h)

/-- From a target that is through, the loop goes on. -/
theorem Base.loop (h : Base s₀ s a rest rest) : (a.loop rest).Holds s₀ s a.data := by
  induction rest with
  | nil => exact ⟨rfl, h⟩
  | cons u rest ih =>
    unfold Attempt.loop
    split
    case isTrue hactor =>
      have heq : a.data.others (u :: rest) = a.data.others rest := others_cons_actor hactor
      refine ih ⟨?_, ?_, ?_, ?_⟩
      · exact heq ▸ h.nodup
      · exact heq ▸ h.inapp
      · exact heq ▸ h.emails
      · exact heq ▸ h.served
    case isFalse hactor => exact ⟨rfl, h, hactor⟩

/-- A target that was served is through. -/
theorem Base.through (h : Base s₀ s a inapp (u :: rest)) (hu : ¬ a.data.IsActor u)
    (hinapp : ∀ v ∈ a.data.others rest, v ∈ a.data.others inapp) (hserved : Served s₀ s a u) :
    Base s₀ s a rest rest := by
  have hcons : a.data.others (u :: rest) = u :: a.data.others rest := others_cons hu
  refine ⟨?_, fun v hv => h.inapp v (hinapp v hv), fun v hv => ?_, fun v hv => ?_⟩
  · exact (List.nodup_cons.mp (hcons ▸ h.nodup)).2
  · exact h.emails v (by rw [hcons]; exact List.mem_cons_of_mem _ hv)
  · rcases h.served v hv with hleft | hdone
    · rw [hcons] at hleft
      rcases List.mem_cons.mp hleft with rfl | hleft
      · exact Or.inr hserved
      · exact Or.inl hleft
    · exact Or.inr hdone

/-- The preference of a target is known. -/
theorem Base.visit (h : Base s₀ s a inapp left) : Base s₀ s (a.visit u pref) inapp left where
  nodup := h.nodup
  inapp := h.inapp
  emails := h.emails
  served v hv := (h.served v hv).imp id fun ⟨p, hp, hask⟩ => ⟨p, List.mem_cons_of_mem _ hp, hask⟩

/-- What comes after the in-app notification, for a target that got it or did not ask for it. -/
theorem Base.afterInapp (h : Base s₀ s a inapp (u :: rest)) (hu : ¬ a.data.IsActor u)
    (hinapp : ∀ v ∈ a.data.others rest, v ∈ a.data.others inapp) (hvisited : (u, pref) ∈ a.visited)
    (hgot : pref.AsksInapp a.now → s₀.inapp a.data u + 1 ≤ s.inapp a.data u) :
    (a.afterInapp u pref rest).Holds s₀ s a.data := by
  unfold Attempt.afterInapp
  split
  case isTrue =>
    refine ⟨rfl, ⟨h.nodup, fun v hv => h.inapp v (hinapp v hv), h.emails, h.served⟩, hu, ?_⟩
    exact ⟨pref, hvisited, hgot⟩
  case isFalse hno =>
    refine (h.through hu hinapp ⟨pref, hvisited, hgot, fun hask => ?_⟩).loop
    exact absurd hask.2 hno

/-- What comes after the preference of a target was read. -/
theorem Base.afterPreference (h : Base s₀ s a (u :: rest) (u :: rest))
    (hu : ¬ a.data.IsActor u) : (a.afterPreference u pref rest).Holds s₀ s a.data := by
  have hvisited : (u, pref) ∈ (a.visit u pref).visited := List.mem_cons_self
  have hinapp : ∀ v ∈ a.data.others rest, v ∈ a.data.others (u :: rest) := by
    intro v hv
    rw [others_cons hu]
    exact List.mem_cons_of_mem _ hv
  have hvisit : Base s₀ s (a.visit u pref) (u :: rest) (u :: rest) := h.visit
  unfold Attempt.afterPreference
  split
  case isTrue hquiet =>
    refine (hvisit.through hu hinapp ⟨pref, hvisited, fun hask => ?_, fun hask => ?_⟩).loop
    · exact absurd (hquiet.symm.trans hask.1) Bool.noConfusion
    · exact absurd (hquiet.symm.trans hask.1) Bool.noConfusion
  case isFalse hquiet =>
    split
    case isTrue => exact ⟨rfl, hvisit, hu, hvisited, (Bool.not_eq_true _).mp hquiet⟩
    case isFalse hno => exact hvisit.afterInapp hu hinapp hvisited fun hask => absurd hask.2 hno

/-! ### Statements -/

variable {s' : Store}

/-- Nothing of the event was written meanwhile. -/
def SameCounts (s s' : Store) (data : CreateNotificationJobData) : Prop :=
  ∀ u, s'.inapp data u = s.inapp data u ∧ s'.emails data u = s.emails data u

theorem Served.congr (hsame : SameCounts s s' a.data) (h : Served s₀ s a u) :
    Served s₀ s' a u := by
  obtain ⟨pref, hvisited, hinapp, hemail⟩ := h
  refine ⟨pref, hvisited, fun hask => ?_, fun hask => ?_⟩
  · rw [(hsame u).1]
    exact hinapp hask
  · rw [(hsame u).2]
    exact hemail hask

theorem Base.congr (hsame : SameCounts s s' a.data) (h : Base s₀ s a inapp left) :
    Base s₀ s' a inapp left where
  nodup := h.nodup
  inapp v hv := (hsame v).1.trans (h.inapp v hv)
  emails v hv := (hsame v).2.trans (h.emails v hv)
  served v hv := (h.served v hv).imp id (Served.congr hsame)

/-- Only the counts of the event matter to an attempt. -/
theorem CreatePc.Holds.congr {k : CreatePc} (hsame : SameCounts s s' data)
    (h : k.Holds s₀ s data) : k.Holds s₀ s' data := by
  cases k with
  | preference a u rest =>
    obtain ⟨rfl, hbase, hu⟩ := h
    exact ⟨rfl, hbase.congr hsame, hu⟩
  | insert a u pref rest =>
    obtain ⟨rfl, hbase, hu⟩ := h
    exact ⟨rfl, hbase.congr hsame, hu⟩
  | publish a row pref rest =>
    obtain ⟨rfl, hbase, hu, hvisited, hquiet, hgot⟩ := h
    exact ⟨rfl, hbase.congr hsame, hu, hvisited, hquiet, by rw [(hsame row.userId).1]; exact hgot⟩
  | email a u rest =>
    obtain ⟨rfl, hbase, hu, pref, hvisited, hgot⟩ := h
    exact ⟨rfl, hbase.congr hsame, hu, pref, hvisited, fun hask => by
      rw [(hsame u).1]
      exact hgot hask⟩
  | done a =>
    obtain ⟨rfl, hbase⟩ := h
    exact ⟨rfl, hbase.congr hsame⟩
  | begin d => exact h
  | skipped => trivial
  | threw => trivial

theorem notMem_others_of_nodup (hu : ¬ data.IsActor u)
    (h : (data.others (u :: rest)).Nodup) (hv : v ∈ data.others rest) : v ≠ u := by
  rw [others_cons hu] at h
  rintro rfl
  exact (List.nodup_cons.mp h).1 hv

theorem Served.insert (h : Served s₀ s a v) : Served s₀ (s.insert a.data u) a v := by
  obtain ⟨pref, hvisited, hinapp, hemail⟩ := h
  refine ⟨pref, hvisited, fun hask => (hinapp hask).trans ?_, hemail⟩
  by_cases hv : v = u
  · subst hv
    rw [inapp_insert_self]
    exact Nat.le_succ _
  · rw [inapp_insert_of_ne hv]

/-- Who is served is so after one more email too. -/
theorem Served.enqueue (h : Served s₀ s a v) :
    Served s₀ (s.enqueueEmail a.data u) a v := by
  obtain ⟨pref, hvisited, hinapp, hemail⟩ := h
  refine ⟨pref, hvisited, hinapp, fun hask => (hemail hask).trans ?_⟩
  by_cases hv : v = u
  · subst hv
    rw [emails_enqueue_self]
    exact Nat.le_succ _
  · rw [emails_enqueue_of_ne hv]

/-- The INSERT for a target. -/
theorem Base.insert (h : Base s₀ s a (u :: rest) (u :: rest)) (hu : ¬ a.data.IsActor u) :
    Base s₀ (s.insert a.data u) a rest (u :: rest) where
  nodup := h.nodup
  inapp v hv := by
    rw [inapp_insert_of_ne (notMem_others_of_nodup hu h.nodup hv)]
    exact h.inapp v (by rw [others_cons hu]; exact List.mem_cons_of_mem _ hv)
  emails := h.emails
  served v hv := (h.served v hv).imp id Served.insert

/-- The email of a target is queued, and the target is through. -/
theorem Base.enqueue (h : Base s₀ s a rest (u :: rest)) (hu : ¬ a.data.IsActor u)
    (hvisited : (u, pref) ∈ a.visited)
    (hgot : pref.AsksInapp a.now → s₀.inapp a.data u + 1 ≤ s.inapp a.data u) :
    Base s₀ (s.enqueueEmail a.data u) a rest rest := by
  have hmem : u ∈ a.data.others (u :: rest) := by
    rw [others_cons hu]
    exact List.mem_cons_self
  have hserved : Served s₀ (s.enqueueEmail a.data u) a u := by
    refine ⟨pref, hvisited, hgot, fun _ => ?_⟩
    rw [emails_enqueue_self, h.emails u hmem]
  have hcons : a.data.others (u :: rest) = u :: a.data.others rest := others_cons hu
  refine ⟨(List.nodup_cons.mp (hcons ▸ h.nodup)).2, h.inapp, fun v hv => ?_, fun v hv => ?_⟩
  · rw [emails_enqueue_of_ne (notMem_others_of_nodup hu h.nodup hv)]
    exact h.emails v (by rw [hcons]; exact List.mem_cons_of_mem _ hv)
  · rcases h.served v hv with hleft | hdone
    · rw [hcons] at hleft
      rcases List.mem_cons.mp hleft with rfl | hleft
      · exact Or.inr hserved
      · exact Or.inl hleft
    · exact Or.inr hdone.enqueue

/-- A fresh attempt. -/
theorem base_begin (hnodup : (data.others data.targetUserIds).Nodup)
    (h : Unwritten s₀ s data) (now : ℕ) :
    Base s₀ s ⟨data, now, []⟩ data.targetUserIds data.targetUserIds where
  nodup := hnodup
  inapp v hv := (h v (List.mem_of_mem_filter hv)).1
  emails v hv := (h v (List.mem_of_mem_filter hv)).2
  served _ hv := Or.inl hv

end Base

/-! ## A statement -/

section Next

variable {s' : Store} {k k' : CreatePc} {o : Outcome}

/-- **What a statement leaves**: the next control point holds. -/
theorem holds_next (hnodup : (data.others data.targetUserIds).Nodup) (hk : k.Holds s₀ s data)
    (hclean : k.CleanAt s₀ s data o) (h : k.next s o = some (s', k')) :
    k'.Holds s₀ s' data := by
  unfold CreatePc.next at h
  cases k with
  | begin d =>
    obtain rfl : d = data := hk
    dsimp only at h
    split at h
    · obtain ⟨rfl, rfl⟩ := Prod.mk.inj (Option.some.inj h)
      exact (base_begin hnodup hclean s.now).loop
    · obtain ⟨rfl, rfl⟩ := Prod.mk.inj (Option.some.inj h)
      trivial
  | preference a u rest =>
    obtain ⟨rfl, hbase, hu⟩ := hk
    dsimp only at h
    split at h
    · obtain ⟨rfl, rfl⟩ := Prod.mk.inj (Option.some.inj h)
      exact hbase.afterPreference hu
    · obtain ⟨rfl, rfl⟩ := Prod.mk.inj (Option.some.inj h)
      trivial
  | insert a u pref rest =>
    obtain ⟨rfl, hbase, hu, hvisited, hquiet⟩ := hk
    have htook : o.took = true := hclean
    have hgot : s₀.inapp a.data u + 1 ≤ (s.insert a.data u).inapp a.data u := by
      rw [inapp_insert_self, hbase.inapp u (by rw [others_cons hu]; exact List.mem_cons_self)]
    dsimp only at h
    rw [if_pos htook] at h
    obtain ⟨rfl, rfl⟩ := Prod.mk.inj (Option.some.inj h)
    split
    · exact ⟨rfl, hbase.insert hu, hu, hvisited, hquiet, hgot⟩
    · exact (hbase.insert hu).afterInapp hu (fun _ hv => hv) hvisited fun _ => hgot
  | publish a row pref rest =>
    obtain ⟨rfl, hbase, hu, hvisited, hquiet, hgot⟩ := hk
    dsimp only at h
    obtain ⟨rfl, rfl⟩ := Prod.mk.inj (Option.some.inj h)
    have hsame : SameCounts s (if o.took then s.publish row else s) a.data := by
      intro v
      split <;> exact ⟨rfl, rfl⟩
    have hafter := hbase.afterInapp hu (fun _ hv => hv) hvisited fun _ => hgot
    exact hafter.congr hsame
  | email a u rest =>
    obtain ⟨rfl, hbase, hu, pref, hvisited, hgot⟩ := hk
    dsimp only at h
    obtain ⟨rfl, rfl⟩ := Prod.mk.inj (Option.some.inj h)
    cases o with
    | ok => exact (hbase.enqueue hu hvisited hgot).loop
    | lost => trivial
    | failed => trivial
  | skipped => cases h
  | done a => cases h
  | threw => cases h

/-- …and nobody was given anything twice. -/
theorem atMostOnce_next (hk : k.Holds s₀ s data) (honce : AtMostOnce s₀ s data)
    (h : k.next s o = some (s', k')) : AtMostOnce s₀ s' data := by
  unfold CreatePc.next at h
  cases k with
  | begin d =>
    dsimp only at h
    split at h <;> exact (Prod.mk.inj (Option.some.inj h)).1 ▸ honce
  | preference a u rest =>
    dsimp only at h
    split at h <;> exact (Prod.mk.inj (Option.some.inj h)).1 ▸ honce
  | insert a u pref rest =>
    obtain ⟨rfl, hbase, hu, -⟩ := hk
    obtain ⟨rfl, -⟩ := Prod.mk.inj (Option.some.inj h)
    split
    case isTrue =>
      intro v hv
      refine ⟨?_, (honce v hv).2⟩
      by_cases hvu : v = u
      · subst hvu
        have hmem : v ∈ a.data.others (v :: rest) := by
          rw [others_cons hu]
          exact List.mem_cons_self
        rw [inapp_insert_self, hbase.inapp v hmem]
      · rw [inapp_insert_of_ne hvu]
        exact (honce v hv).1
    case isFalse => exact honce
  | publish a row pref rest =>
    obtain ⟨rfl, -⟩ := Prod.mk.inj (Option.some.inj h)
    split
    case isTrue => exact honce
    case isFalse => exact honce
  | email a u rest =>
    obtain ⟨rfl, hbase, hu, -⟩ := hk
    obtain ⟨rfl, -⟩ := Prod.mk.inj (Option.some.inj h)
    split
    case isTrue =>
      intro v hv
      refine ⟨(honce v hv).1, ?_⟩
      by_cases hvu : v = u
      · subst hvu
        have hmem : v ∈ a.data.others (v :: rest) := by
          rw [others_cons hu]
          exact List.mem_cons_self
        rw [emails_enqueue_self, hbase.emails v hmem]
      · rw [emails_enqueue_of_ne hvu]
        exact (honce v hv).2
    case isFalse => exact honce
  | skipped => cases h
  | done a => cases h
  | threw => cases h

theorem not_going_of_holds (hk : ¬ k.Going) (h : k.Holds s₀ s data) : k.Holds s₀ s' data := by
  cases k with
  | begin d => exact h
  | threw => trivial
  | _ => exact absurd trivial hk

end Next

/-! ## Runs -/

section Runs

variable {ι : Type*} [DecidableEq ι]

/-- Nobody was given anything twice, each attempt is where it should be, and one at most is
going. -/
structure CreateInv (s₀ : Store) (data : CreateNotificationJobData) (p : Attempts ι) : Prop where
  once : AtMostOnce s₀ p.store data
  holds : ∀ i, (p.calls i).Keeps (·.Holds s₀ p.store data)
  alone : ∀ i, (p.calls i).Live CreatePc.Going → ∀ j, j ≠ i → ¬ (p.calls j).Live CreatePc.Going

omit [DecidableEq ι] in
theorem keeps_of_not_going {s s' : Store} {c : Proc CreatePc} (hc : ¬ c.Live CreatePc.Going)
    (h : c.Keeps (·.Holds s₀ s data)) : c.Keeps (·.Holds s₀ s' data) := by
  cases c with
  | up k => exact not_going_of_holds hc h
  | down k => trivial

omit [DecidableEq ι] in
theorem sameCounts_env {s : Store} {e : Env} {p : Attempts ι} (h : Retries data p (.env e)) :
    SameCounts s (env s e) data := by
  intro v
  cases e with
  | tick n => exact ⟨rfl, rfl⟩
  | setPreferences rows => exact ⟨rfl, rfl⟩
  | notify data' u => exact ⟨inapp_insert_other h, rfl⟩

/-- The counts are right in every state of such a run. -/
theorem createInv (hnodup : (data.others data.targetUserIds).Nodup) {p : Attempts ι}
    (h : Run (Pool.step createMachine) (fun q m => Retries data q m ∧ Clean s₀ data q m)
      ⟨s₀, fun _ => .up (.begin data)⟩ p) : CreateInv s₀ data p := by
  refine Pool.invariant ?_ ?_ ?_ ?_ h
  · exact ⟨fun u _ => ⟨Nat.le_succ _, Nat.le_succ _⟩, fun i => rfl, fun i hi => absurd hi id⟩
  · rintro p i o k s k' ⟨honce, hholds, halone⟩ ⟨hretry, hclean⟩ hk hn
    have hat : (p.calls i).at' = k := congrArg Proc.at' hk
    have hkholds : k.Holds s₀ p.store data := (hholds i).of_up hk
    have hcleanAt : k.CleanAt s₀ p.store data o := hat ▸ hclean
    have hother : ∀ j, j ≠ i → ¬ (p.calls j).Live CreatePc.Going := by
      by_cases hgoing : k.Going
      · exact halone i (by rw [hk]; exact hgoing)
      · exact hretry (by rw [hat]; exact hgoing)
    refine ⟨atMostOnce_next hkholds honce hn, ?_, fun j hj l hl hlive => ?_⟩
    · exact keeps_update_up (holds_next hnodup hkholds hcleanAt hn)
        fun j hj => keeps_of_not_going (hother j hj) (hholds j)
    · rcases live_update_up hj with ⟨rfl, -⟩ | ⟨hji, hjlive⟩
      · rcases live_update_up hlive with ⟨rfl, -⟩ | ⟨hlj, hllive⟩
        · exact hl rfl
        · exact hother l hlj hllive
      · exact hother j hji hjlive
  · rintro p i k ⟨honce, hholds, halone⟩ - hk
    refine ⟨honce, keeps_update_down hholds, fun j hj l hl hlive => ?_⟩
    exact halone j (live_update_down hj).2 l hl (live_update_down hlive).2
  · rintro p e ⟨honce, hholds, halone⟩ ⟨hretry, -⟩
    have hsame : SameCounts p.store (env p.store e) data := sameCounts_env hretry
    refine ⟨fun u hu => ?_, fun i => (hholds i).imp fun k => .congr hsame, halone⟩
    show (env p.store e).inapp data u ≤ _ ∧ (env p.store e).emails data u ≤ _
    rw [(hsame u).1, (hsame u).2]
    exact honce u hu

/-- **Once each, and all that was asked for**, where the targets are distinct, no INSERT fails, and
an attempt that fails does so before it has written anything. -/
theorem create_once (hnodup : (data.others data.targetUserIds).Nodup) {p : Attempts ι}
    (h : Run (Pool.step createMachine) (fun q m => Retries data q m ∧ Clean s₀ data q m)
      ⟨s₀, fun _ => .up (.begin data)⟩ p) : CreatedOnce s₀ data p := by
  have hinv := createInv hnodup h
  refine ⟨hinv.once, fun i a hi u hu => ?_⟩
  obtain ⟨rfl, hbase⟩ : a.data = data ∧ Base s₀ p.store a [] [] := (hinv.holds i).of_up hi
  exact (hbase.served u hu).resolve_left List.not_mem_nil

end Runs

/-! ## A job of three attempts -/

/-- The attempts before the first. -/
def mentioned : Attempts (Fin 3) := ⟨emptyStore, fun _ => .up (.begin mention)⟩

/-- The statements of an attempt that serves both targets. -/
def serveBoth (i : Fin 3) : List (Move (Fin 3) Outcome Env) := List.replicate 9 (.run i .ok)

/-- The first attempt fails as it reads the preference of Bob; the second serves both. -/
theorem create_once_mention : ∃ p : Attempts (Fin 3),
    p.store.inapp mention "bob" = 1 ∧ p.store.emails mention "cy" = 1
      ∧ CreatedOnce emptyStore mention p := by
  obtain ⟨p, hrun, hp⟩ := exists_run_of_exec (Pool.step createMachine)
    (fun q m => Retries mention q m ∧ Clean emptyStore mention q m) mentioned
    (List.flatten [[.run 0 .ok, .run 0 .failed], serveBoth 1])
    (fun p => decide (p.store.inapp mention "bob" = 1 ∧ p.store.emails mention "cy" = 1))
    (by decide)
  obtain ⟨hbob, hcy⟩ := of_decide_eq_true hp
  exact ⟨p, hbob, hcy, create_once (by decide) hrun⟩

/-- **A retry serves the targets before the failure again.** -/
theorem not_createdOnce : ¬ ∀ (data : CreateNotificationJobData) (s₀ : Store)
    (p : Attempts (Fin 3)),
    Run (Pool.step createMachine) (Retries data) ⟨s₀, fun _ => .up (.begin data)⟩ p →
      CreatedOnce s₀ data p := by
  intro hclaim
  obtain ⟨p, hrun, hp⟩ := exists_run_of_exec (Pool.step createMachine) (Retries mention) mentioned
    (List.flatten [List.replicate 5 (.run 0 .ok), [.run 0 .failed], serveBoth 1])
    (fun p => decide (p.store.inapp mention "bob" = 2)) (by decide)
  have hle := ((hclaim mention emptyStore p hrun).1 "bob" (by decide)).1
  rw [of_decide_eq_true hp] at hle
  exact absurd hle (by decide)

end WorkPlatform.Notification

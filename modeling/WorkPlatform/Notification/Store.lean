import Mathlib.Data.List.Sort
import WorkPlatform.Machinery.Run
import WorkPlatform.Machinery.Table

/-!
# Notification/Store — notifications, preferences, and the jobs of two queues

    'notifications'   digest-coordinator, send-user-digest, create-notification
    'emails'          send-notification-email, send-daily-digest

A job is a name and the data its producer gave it; what a handler reads of other data is
`undefined` (`JobData.eventType`).  A rendered template is kept as what it was rendered from
(`Html`), so that one can say which notifications are in it.
-/

namespace WorkPlatform.Notification

open Machinery

/-! ## Rows -/

/-- A `JSONB` object, by its fields. -/
abbrev Payload := List (String × String)

/-- The columns of `notifications` that the workers read or write. -/
structure NotificationRow where
  id : ℕ
  orgId : String
  userId : String
  type : String
  entityType : String
  entityId : String
  actorId : Option String
  payload : Payload
  createdAt : ℕ
  digestSentAt : Option ℕ
  deriving DecidableEq

/-- A `TIME`. -/
structure TimeOfDay where
  hour : ℕ
  minute : ℕ
  deriving DecidableEq

def TimeOfDay.minutes (t : TimeOfDay) : ℕ := t.hour * 60 + t.minute

/-- `digest_mode`. -/
inductive DigestMode
  | realtime
  | dailyDigest
  deriving DecidableEq

/-- The columns of a preference that can be set. -/
structure Preference where
  channelInapp : Bool
  channelEmail : Bool
  channelPush : Bool
  digestMode : DigestMode
  quietHoursStart : Option TimeOfDay
  quietHoursEnd : Option TimeOfDay
  deriving DecidableEq

/-- `DEFAULT_PREFERENCE`. -/
def defaultPreference : Preference where
  channelInapp := true
  channelEmail := true
  channelPush := false
  digestMode := .realtime
  quietHoursStart := none
  quietHoursEnd := none

/-- A row of `notification_preferences`. -/
structure PreferenceRow where
  orgId : String
  userId : String
  eventType : String
  preference : Preference
  deriving DecidableEq

/-- The minutes since midnight; the servers run on UTC. -/
def minuteOfDay (now : ℕ) : ℕ := now / 60 % 1440

/-- `isInQuietHours`, by the minutes of the UTC day. -/
def isInQuietHours (start stop : Option TimeOfDay) (now : ℕ) : Bool :=
  match start, stop with
  | some start, some stop =>
    if start.minutes ≤ stop.minutes then
      start.minutes ≤ minuteOfDay now ∧ minuteOfDay now < stop.minutes
    -- wraps midnight
    else start.minutes ≤ minuteOfDay now ∨ minuteOfDay now < stop.minutes
  | _, _ => false

namespace Preference

def quiet (pref : Preference) (now : ℕ) : Bool :=
  isInQuietHours pref.quietHoursStart pref.quietHoursEnd now

/-- An in-app notification is asked for. -/
def AsksInapp (pref : Preference) (now : ℕ) : Prop :=
  pref.quiet now = false ∧ pref.channelInapp = true

/-- An email at once is asked for. -/
def AsksEmail (pref : Preference) (now : ℕ) : Prop :=
  pref.quiet now = false ∧ pref.channelEmail = true ∧ pref.digestMode = .realtime

instance (pref : Preference) (now : ℕ) : Decidable (pref.AsksInapp now) :=
  inferInstanceAs (Decidable (_ ∧ _))

instance (pref : Preference) (now : ℕ) : Decidable (pref.AsksEmail now) :=
  inferInstanceAs (Decidable (_ ∧ _ ∧ _))

end Preference

/-! ## Jobs -/

/-- The queues. -/
inductive QueueName
  | notifications
  | emails
  deriving DecidableEq

/-- The UTC date of a time, by its number: `toISOString().slice(0, 10)`. -/
def dateOf (now : ℕ) : ℕ := now / 86400

/-- A rendered template, by what it was rendered from. -/
inductive Html
  | dailyDigest (name : String) (notifications : List NotificationRow) (date : ℕ)
  | event (template : String) (data : Payload)
  deriving DecidableEq

/-- `CreateNotificationJobData`. -/
structure CreateNotificationJobData where
  eventType : String
  orgId : String
  entityType : String
  entityId : String
  actorUserId : Option String
  targetUserIds : List String
  payload : Payload
  deriving DecidableEq

/-- `SendUserDigestJobData`. -/
structure SendUserDigestJobData where
  userId : String
  email : String
  name : String
  deriving DecidableEq

/-- The data of the email about one notification. -/
structure SendNotificationEmailJobData where
  orgId : String
  userId : String
  eventType : String
  entityType : String
  entityId : String
  actorUserId : Option String
  payload : Payload
  deriving DecidableEq

/-- The data of the email of a digest. -/
structure SendDailyDigestJobData where
  toEmail : String
  subject : String
  html : Html
  userId : String
  deriving DecidableEq

/-- `job.data`, as the producers write it. -/
inductive JobData
  | digestCoordinator
  | sendUserDigest (data : SendUserDigestJobData)
  | createNotification (data : CreateNotificationJobData)
  | sendNotificationEmail (data : SendNotificationEmailJobData)
  | sendDailyDigest (data : SendDailyDigestJobData)
  deriving DecidableEq

namespace JobData

/-- `job.data.eventType`. -/
def eventType : JobData → Option String
  | createNotification data => some data.eventType
  | sendNotificationEmail data => some data.eventType
  | _ => none

/-- `job.data.entityId`. -/
def entityId : JobData → Option String
  | createNotification data => some data.entityId
  | sendNotificationEmail data => some data.entityId
  | _ => none

/-- `job.data.userId`. -/
def userId : JobData → Option String
  | sendUserDigest data => some data.userId
  | sendNotificationEmail data => some data.userId
  | sendDailyDigest data => some data.userId
  | _ => none

/-- `job.data.payload`. -/
def payload : JobData → Option Payload
  | createNotification data => some data.payload
  | sendNotificationEmail data => some data.payload
  | _ => none

end JobData

/-- A job, and when it was added. -/
structure Job where
  queue : QueueName
  name : String
  data : JobData
  timestamp : ℕ
  deriving DecidableEq

namespace Job

/-- The repeatable job that `startDigestWorker` adds. -/
def digestCoordinator (now : ℕ) : Job :=
  ⟨.notifications, "digest-coordinator", .digestCoordinator, now⟩

def sendUserDigest (data : SendUserDigestJobData) (now : ℕ) : Job :=
  ⟨.notifications, "send-user-digest", .sendUserDigest data, now⟩

def createNotification (data : CreateNotificationJobData) (now : ℕ) : Job :=
  ⟨.notifications, "create-notification", .createNotification data, now⟩

def sendNotificationEmail (data : SendNotificationEmailJobData) (now : ℕ) : Job :=
  ⟨.emails, "send-notification-email", .sendNotificationEmail data, now⟩

def sendDailyDigest (data : SendDailyDigestJobData) (now : ℕ) : Job :=
  ⟨.emails, "send-daily-digest", .sendDailyDigest data, now⟩

end Job

/-! ## The store -/

/-- `digest:<userId>:<date>`, and `email:sent:<userId>:<eventType>:<entityId>`, where what is
`undefined` prints as such. -/
inductive RedisKey
  | digest (userId : String) (date : ℕ)
  | emailSent (userId eventType entityId : Option String)
  deriving DecidableEq

/-- What is handed to the mail server. -/
structure Mail where
  toEmail : String
  subject : String
  html : Html
  deriving DecidableEq

/-- The clock, in seconds; the two tables; when each key of Redis expires; the jobs that were
enqueued, the rows that were published, and the mails the provider took, newest first. -/
structure Store where
  now : ℕ
  notifications : Table NotificationRow.id
  preferences : List PreferenceRow
  redis : RedisKey → Option ℕ
  queued : List Job
  published : List NotificationRow
  mails : List Mail

/-- An id that no row has. -/
def freshId (t : Table NotificationRow.id) : ℕ := (t.rows.map (·.id)).foldr max 0 + 1

theorem le_foldr_max {n : ℕ} : ∀ {l : List ℕ}, n ∈ l → n ≤ l.foldr max 0
  | m :: l, h => by
      rw [List.foldr_cons]
      rcases List.mem_cons.mp h with rfl | h
      · exact le_max_left _ _
      · exact (le_foldr_max h).trans (le_max_right _ _)

theorem freshId_notMem (t : Table NotificationRow.id) : freshId t ∉ t.rows.map (·.id) := by
  intro h
  have hle := le_foldr_max h
  unfold freshId at hle
  omega

namespace Store

/-- `getOrDefault`. -/
def getOrDefault (s : Store) (orgId userId eventType : String) : Preference :=
  match s.preferences.find? fun r =>
      r.orgId = orgId ∧ r.userId = userId ∧ r.eventType = eventType with
  | some r => r.preference
  | none => defaultPreference

/-- The key is there and has not expired. -/
def hasKey (s : Store) (key : RedisKey) : Bool := (s.redis key).any (s.now < ·)

/-- `SET key '1' 'EX' 86400`. -/
def setKey (s : Store) (key : RedisKey) : Store :=
  { s with redis := Function.update s.redis key (some (s.now + 86400)) }

def enqueue (s : Store) (job : ℕ → Job) : Store := { s with queued := job s.now :: s.queued }

/-- The row that an INSERT makes of the event, for a target. -/
def newRow (s : Store) (data : CreateNotificationJobData) (userId : String) : NotificationRow where
  id := freshId s.notifications
  orgId := data.orgId
  userId := userId
  type := data.eventType
  entityType := data.entityType
  entityId := data.entityId
  actorId := data.actorUserId
  payload := data.payload
  createdAt := s.now
  digestSentAt := none

/-- The INSERT of a notification. -/
def insert (s : Store) (data : CreateNotificationJobData) (userId : String) : Store :=
  { s with
    notifications :=
      ⟨s.newRow data userId :: s.notifications.rows,
        List.nodup_cons.mpr ⟨freshId_notMem s.notifications, s.notifications.keys_nodup⟩⟩ }

def publish (s : Store) (row : NotificationRow) : Store :=
  { s with published := row :: s.published }

def send (s : Store) (mail : Mail) : Store := { s with mails := mail :: s.mails }

def tick (s : Store) (seconds : ℕ) : Store := { s with now := s.now + seconds }

@[simp] theorem redis_insert (s : Store) (data : CreateNotificationJobData) (userId : String) :
    (s.insert data userId).redis = s.redis := rfl

@[simp] theorem queued_insert (s : Store) (data : CreateNotificationJobData) (userId : String) :
    (s.insert data userId).queued = s.queued := rfl

@[simp] theorem rows_insert (s : Store) (data : CreateNotificationJobData) (userId : String) :
    (s.insert data userId).notifications.rows = s.newRow data userId :: s.notifications.rows := rfl

end Store

/-- What goes on besides: time, members that change their preferences, and notifications of other
events. -/
inductive Env
  | tick (seconds : ℕ)
  | setPreferences (rows : List PreferenceRow)
  | notify (data : CreateNotificationJobData) (userId : String)

/-- Time, and what others write. -/
def env (s : Store) : Env → Store
  | .tick seconds => s.tick seconds
  | .setPreferences rows => { s with preferences := rows }
  | .notify data userId => s.insert data userId

/-! ## A store to start from -/

/-- No notification, no preference and no job. -/
def emptyStore : Store where
  now := 0
  notifications := .empty
  preferences := []
  redis := fun _ => none
  queued := []
  published := []
  mails := []

/-- Ada mentions Bob and Cy. -/
def mention : CreateNotificationJobData where
  eventType := "mention.created"
  orgId := "acme"
  entityType := "comment"
  entityId := "c1"
  actorUserId := some "ada"
  targetUserIds := ["ada", "bob", "cy"]
  payload := [("recipientEmail", "bob@acme.test")]

end WorkPlatform.Notification

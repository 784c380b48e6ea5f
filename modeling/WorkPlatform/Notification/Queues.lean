import WorkPlatform.Notification.Create
import WorkPlatform.Notification.Digest

/-!
# Notification/Queues — which handler a job gets

    'notifications'   notification worker   notificationWorkerJob, whatever the name
                      digest worker         by the name: digest-coordinator, send-user-digest
    'emails'          email worker          emailWorkerJob, whatever the name

BullMQ gives a job to any worker of its queue.  A handler that finds other data than its own, or a
name it does not know, returns, and the job counts as completed (`handled_iff`).
-/

namespace WorkPlatform.Notification

open Machinery

/-! ## The email worker -/

/-- `EVENT_TEMPLATE_MAP`: the template and the subject. -/
def eventTemplateMap : String → Option (String × String)
  | "task.assigned" => some ("task-assigned", "A task has been assigned to you")
  | "mention.created" => some ("mention", "You were mentioned")
  | "invitation.created" => some ("invitation", "You've been invited")
  | "org.suspended" => some ("org-suspended", "Your organization has been suspended")
  | _ => none

/-- `payload['recipientEmail']`, where it is not empty. -/
def recipientEmail (payload : Payload) : Option String :=
  (payload.lookup "recipientEmail").filter (· ≠ "")

/-- The mail of an event, where it has a template and somebody to go to. -/
def eventMail (eventType : String) (payload : Payload) : Option Mail :=
  (eventTemplateMap eventType).bind fun mapping => (recipientEmail payload).map fun toEmail =>
    { toEmail := toEmail, subject := mapping.2, html := .event mapping.1 payload }

/-- `email:sent:<userId>:<eventType>:<entityId>`. -/
def JobData.sentKey (data : JobData) : RedisKey :=
  .emailSent data.userId data.eventType data.entityId

/-- The mail `emailWorkerJob` makes of the data. -/
def JobData.mail (data : JobData) : Option Mail :=
  data.eventType.bind fun eventType => data.payload.bind (eventMail eventType)

/-- Where `emailWorkerJob` is. -/
inductive EmailPc
  | get (data : JobData)
  | send (data : JobData) (mail : Mail)
  | setKey (data : JobData)
  | done
  deriving DecidableEq

namespace EmailPc

/-- `emailWorkerJob`. -/
def next (s : Store) : EmailPc → Option (Store × EmailPc)
  | .get data =>
    some (s, if s.hasKey data.sentKey then .done
      else match data.mail with
        | some mail => .send data mail
        | none => .done)
  | .send data mail => some (s.send mail, .setKey data)
  | .setKey data => some (s.setKey data.sentKey, .done)
  | .done => none

end EmailPc

/-! ## The coordinator -/

/-- The columns of `users`. -/
def usersColumns : List String :=
  ["id", "email", "email_verified", "email_verified_at", "password_hash", "name", "avatar_url",
    "phone", "totp_secret", "totp_enabled", "mfa_backup_codes", "mfa_backup_codes_generated_at",
    "is_platform_admin", "status", "failed_login_attempts", "locked_until", "last_login_at",
    "password_changed_at", "consent_tos_version", "consent_tos_at", "privacy_policy_version",
    "deleted_at", "created_at", "updated_at", "last_seen_at"]

/-- The columns of `users` that the SELECT of the coordinator names. -/
def coordinatorColumns : List String :=
  ["id", "email", "name", "timezone", "status", "deleted_at"]

/-- Where `runDigestCoordinatorJob` is. -/
inductive CoordinatorPc
  | select
  | enqueue (users : List SendUserDigestJobData)
  | done
  | threw
  deriving DecidableEq

namespace CoordinatorPc

/-- `runDigestCoordinatorJob`; the draw is the users that are due. -/
def next (s : Store) (due : List SendUserDigestJobData) :
    CoordinatorPc → Option (Store × CoordinatorPc)
  | .select =>
    some (s, if coordinatorColumns ⊆ usersColumns then .enqueue due else .threw)
  | .enqueue [] => some (s, .done)
  | .enqueue (user :: users) => some (s.enqueue (.sendUserDigest user), .enqueue users)
  | .done | .threw => none

end CoordinatorPc

/-! ## Workers -/

/-- The workers, each of one queue. -/
inductive Worker
  | notification
  | digest
  | email
  deriving DecidableEq

def Worker.queue : Worker → QueueName
  | notification | digest => .notifications
  | email => .emails

/-- What a worker runs for a job. -/
inductive Handler
  | notificationWorkerJob
  | runDigestCoordinatorJob
  | runSendUserDigestJob
  | emailWorkerJob
  deriving DecidableEq

/-- Where a handler is. -/
inductive HandlerPc
  | create (pc : CreatePc)
  | digest (pc : DigestPc)
  | coordinator (pc : CoordinatorPc)
  | email (pc : EmailPc)
  | ignored

/-- Where `notificationWorkerJob` gets with the data. -/
def notificationWorkerJob (data : JobData) : CreatePc :=
  match data.eventType with
  -- `SUBSCRIBED_EVENT_TYPES` has no `undefined`
  | none => .skipped
  | some eventType =>
    match data with
    | .createNotification d => .begin d
    -- `targetUserIds` is undefined, and the loop over it throws
    | _ => if eventType ∈ subscribedEventTypes then .threw else .skipped

/-- The callback of the digest worker. -/
def digestWorkerJob (name : String) (data : JobData) : HandlerPc :=
  if name = "digest-coordinator" then .coordinator .select
  else if name = "send-user-digest" then
    match data with
    | .sendUserDigest d => .digest (.begin d)
    -- no producer gives this name other data
    | _ => .ignored
  else .ignored

/-- What a worker starts on a job. -/
def Worker.take (w : Worker) (job : Job) : HandlerPc :=
  match w with
  | .notification => .create (notificationWorkerJob job.data)
  | .digest => digestWorkerJob job.name job.data
  | .email => .email (.get job.data)

/-- The handler that runs, if any. -/
def HandlerPc.handler : HandlerPc → Option Handler
  | .create _ => some .notificationWorkerJob
  | .digest _ => some .runSendUserDigestJob
  | .coordinator _ => some .runDigestCoordinatorJob
  | .email _ => some .emailWorkerJob
  | .ignored => none

/-- The next statement of a handler. -/
def HandlerPc.next (s : Store) (pc : HandlerPc) (due : List SendUserDigestJobData) :
    Option (Store × HandlerPc) :=
  match pc with
  | .create pc => (pc.next s .ok).map fun x => (x.1, .create x.2)
  | .digest pc => (pc.next s ()).map fun x => (x.1, .digest x.2)
  | .coordinator pc => (pc.next s due).map fun x => (x.1, .coordinator x.2)
  | .email pc => (pc.next s).map fun x => (x.1, .email x.2)
  | .ignored => none

/-- A handler by itself, where no statement fails. -/
def handlerMachine : Machine Store HandlerPc (List SendUserDigestJobData) Env :=
  ⟨HandlerPc.next, env⟩

/-! ## Jobs and handlers -/

/-- The jobs that are enqueued. -/
inductive Produced : Job → Prop
  | digestCoordinator (now : ℕ) : Produced (.digestCoordinator now)
  | sendUserDigest (data : SendUserDigestJobData) (now : ℕ) : Produced (.sendUserDigest data now)
  | createNotification (data : CreateNotificationJobData) (now : ℕ) :
      Produced (.createNotification data now)
  | sendNotificationEmail (data : SendNotificationEmailJobData) (now : ℕ) :
      Produced (.sendNotificationEmail data now)
  | sendDailyDigest (data : SendDailyDigestJobData) (now : ℕ) : Produced (.sendDailyDigest data now)

/-- The handler for a job's name; there is none that sends a digest. -/
def handlerFor : String → Option Handler
  | "create-notification" => some .notificationWorkerJob
  | "digest-coordinator" => some .runDigestCoordinatorJob
  | "send-user-digest" => some .runSendUserDigestJob
  | "send-notification-email" => some .emailWorkerJob
  | _ => none

/-- Each target but the actor has what it asks for. -/
def AllServed (s s' : Store) (data : CreateNotificationJobData) : Prop :=
  ∀ u ∈ data.others data.targetUserIds,
    ((s.getOrDefault data.orgId u data.eventType).AsksInapp s.now →
        s.inapp data u + 1 ≤ s'.inapp data u)
      ∧ ((s.getOrDefault data.orgId u data.eventType).AsksEmail s.now →
        s.emails data u + 1 ≤ s'.emails data u)

/-- **The action of a job**, from the store before it to the store after it. -/
def Performed (due : List SendUserDigestJobData) (s s' : Store) (pc : HandlerPc) : JobData → Prop
  | .digestCoordinator =>
    pc = .coordinator .done ∧ ∀ user ∈ due, Job.sendUserDigest user s.now ∈ s'.queued
  | .sendUserDigest data =>
    s.hasKey (.digest data.userId (dateOf s.now)) = false → s.pendingDigest data.userId ≠ [] →
      s'.queued = .sendDailyDigest
        (digestEmail data (dateOf s.now) (s.pendingDigest data.userId)) s.now :: s.queued
  | .createNotification data => AllServed s s' data
  | .sendNotificationEmail data =>
    s.hasKey (JobData.sendNotificationEmail data).sentKey = true
      ∨ ∃ mail, s'.mails = mail :: s.mails
        ∧ data.payload.lookup "recipientEmail" = some mail.toEmail
  | .sendDailyDigest data => s'.mails = ⟨data.toEmail, data.subject, data.html⟩ :: s.mails

/-- **The worker handles the job**: the handler for its name runs, to its end, and has done what the
job is for. -/
def Handled (s : Store) (due : List SendUserDigestJobData) (w : Worker) (job : Job) : Prop :=
  (∃ h, handlerFor job.name = some h ∧ (w.take job).handler = some h)
    ∧ ∃ s' pc', handlerMachine.Ends due (s, w.take job) (s', pc')
      ∧ Performed due s s' pc' job.data

/-- **When it holds**: the worker is the one for the job, and knows its event. -/
def Fitting (s : Store) : Worker → JobData → Prop
  | .notification, .createNotification data =>
    data.eventType ∈ subscribedEventTypes ∨ ∀ u ∈ data.others data.targetUserIds,
      ¬ (s.getOrDefault data.orgId u data.eventType).AsksInapp s.now
        ∧ ¬ (s.getOrDefault data.orgId u data.eventType).AsksEmail s.now
  | .digest, .sendUserDigest _ => True
  | .email, .sendNotificationEmail data =>
    s.hasKey (JobData.sendNotificationEmail data).sentKey = true
      ∨ (eventMail data.eventType data.payload).isSome
  | _, _ => False

/-! ## A handler by itself -/

section Ends

variable {due : List SendUserDigestJobData} {s s' : Store} {y : Store × HandlerPc}
  {data : CreateNotificationJobData} {now : ℕ} {u : String} {rest : List String}

theorem ends_create {pc pc' : CreatePc} (h : pc.next s .ok = some (s', pc'))
    (hend : handlerMachine.Ends due (s', .create pc') y) :
    handlerMachine.Ends due (s, .create pc) y :=
  .of_next (congrArg (Option.map _) h) hend

theorem ends_digest {pc pc' : DigestPc} (h : pc.next s () = some (s', pc'))
    (hend : handlerMachine.Ends due (s', .digest pc') y) :
    handlerMachine.Ends due (s, .digest pc) y :=
  .of_next (congrArg (Option.map _) h) hend

theorem ends_email {pc pc' : EmailPc} (h : pc.next s = some (s', pc'))
    (hend : handlerMachine.Ends due (s', .email pc') y) :
    handlerMachine.Ends due (s, .email pc) y :=
  .of_next (congrArg (Option.map _) h) hend

/-- What the targets have gained: nothing was taken from anybody, and who asks was given. -/
structure Gains (s s' : Store) (data : CreateNotificationJobData) (now : ℕ) (l : List String) :
    Prop where
  inapp : ∀ u, s.inapp data u ≤ s'.inapp data u
  emails : ∀ u, s.emails data u ≤ s'.emails data u
  served : ∀ u ∈ data.others l,
    ((s.getOrDefault data.orgId u data.eventType).AsksInapp now →
        s.inapp data u + 1 ≤ s'.inapp data u)
      ∧ ((s.getOrDefault data.orgId u data.eventType).AsksEmail now →
        s.emails data u + 1 ≤ s'.emails data u)

theorem Gains.nil : Gains s s data now [] :=
  ⟨fun _ => le_rfl, fun _ => le_rfl, fun _ h => absurd h List.not_mem_nil⟩

/-- One target more. -/
theorem Gains.cons (hu : ¬ data.IsActor u) (h : Gains s s' data now rest)
    (hinapp : (s.getOrDefault data.orgId u data.eventType).AsksInapp now →
      s.inapp data u + 1 ≤ s'.inapp data u)
    (hemail : (s.getOrDefault data.orgId u data.eventType).AsksEmail now →
      s.emails data u + 1 ≤ s'.emails data u) : Gains s s' data now (u :: rest) where
  inapp := h.inapp
  emails := h.emails
  served v hv := by
    rw [others_cons hu] at hv
    rcases List.mem_cons.mp hv with rfl | hv
    · exact ⟨hinapp, hemail⟩
    · exact h.served v hv

/-- What was gained later is gained from before. -/
theorem Gains.mono {s₀ : Store} (hprefs : s₀.preferences = s.preferences)
    (hinapp : ∀ u, s₀.inapp data u ≤ s.inapp data u)
    (hemails : ∀ u, s₀.emails data u ≤ s.emails data u) (h : Gains s s' data now rest) :
    Gains s₀ s' data now rest where
  inapp v := (hinapp v).trans (h.inapp v)
  emails v := (hemails v).trans (h.emails v)
  served v hv := by
    have hpref : ∀ org typ, s₀.getOrDefault org v typ = s.getOrDefault org v typ := fun org typ => by
      unfold Store.getOrDefault
      rw [hprefs]
    rw [hpref]
    obtain ⟨hgot, hmail⟩ := h.served v hv
    exact ⟨fun hask => (Nat.succ_le_succ (hinapp v)).trans (hgot hask),
      fun hask => (Nat.succ_le_succ (hemails v)).trans (hmail hask)⟩

theorem inapp_le_insert (v : String) : s.inapp data v ≤ (s.insert data u).inapp data v := by
  by_cases hv : v = u
  · subst hv
    rw [inapp_insert_self]
    exact Nat.le_succ _
  · rw [inapp_insert_of_ne hv]

theorem emails_le_enqueue (v : String) : s.emails data v ≤ (s.enqueueEmail data u).emails data v := by
  by_cases hv : v = u
  · subst hv
    rw [emails_enqueue_self]
    exact Nat.le_succ _
  · rw [emails_enqueue_of_ne hv]

/-- The loop is through with the targets. -/
def LoopEnds (due : List SendUserDigestJobData) (rest : List String) : Prop :=
  ∀ (a : Attempt) (s : Store), ∃ s' a',
    handlerMachine.Ends due (s, .create (a.loop rest)) (s', .create (.done a'))
      ∧ Gains s s' a.data a.now rest

/-- The handler ends, and the user it is at has the email that was asked for. -/
theorem afterInapp_ends (ih : LoopEnds due rest) (a : Attempt) (s : Store) (u : String)
    (pref : Preference) : ∃ s' a',
      handlerMachine.Ends due (s, .create (a.afterInapp u pref rest)) (s', .create (.done a'))
        ∧ Gains s s' a.data a.now rest
        ∧ (pref.AsksEmail a.now → s.emails a.data u + 1 ≤ s'.emails a.data u) := by
  unfold Attempt.afterInapp
  split
  case isTrue =>
    obtain ⟨s', a', hend, hgains⟩ := ih a (s.enqueueEmail a.data u)
    have hprefs : s.preferences = (s.enqueueEmail a.data u).preferences := rfl
    refine ⟨s', a', ends_create rfl hend, ?_, fun _ => ?_⟩
    · exact hgains.mono hprefs (fun _ => le_rfl) emails_le_enqueue
    · have hmail := hgains.emails u
      rwa [emails_enqueue_self] at hmail
  case isFalse hno =>
    obtain ⟨s', a', hend, hgains⟩ := ih a s
    exact ⟨s', a', hend, hgains, fun hask => absurd hask.2 hno⟩

/-- The loop of `notificationWorkerJob` comes to its end, whatever users are left. -/
theorem loop_ends : LoopEnds due rest := by
  induction rest with
  | nil => exact fun a s => ⟨s, a, .of_none rfl, .nil⟩
  | cons u rest ih =>
    intro a s
    unfold Attempt.loop
    split
    case isTrue hactor =>
      obtain ⟨s', a', hend, hgains⟩ := ih a s
      refine ⟨s', a', hend, hgains.inapp, hgains.emails, fun v hv => hgains.served v ?_⟩
      rwa [others_cons_actor hactor] at hv
    case isFalse hactor =>
      let pref := s.getOrDefault a.data.orgId u a.data.eventType
      suffices h : ∃ s' a', handlerMachine.Ends due (s, .create (a.afterPreference u pref rest))
          (s', .create (.done a')) ∧ Gains s s' a.data a.now (u :: rest) by
        obtain ⟨s', a', hend, hgains⟩ := h
        exact ⟨s', a', ends_create rfl hend, hgains⟩
      unfold Attempt.afterPreference
      split
      case isTrue hquiet =>
        obtain ⟨s', a', hend, hgains⟩ := ih (a.visit u pref) s
        refine ⟨s', a', hend, Gains.cons hactor hgains ?_ ?_⟩
        · exact fun hask => absurd (hquiet.symm.trans hask.1) Bool.noConfusion
        · exact fun hask => absurd (hquiet.symm.trans hask.1) Bool.noConfusion
      case isFalse hquiet =>
        split
        case isTrue =>
          let s₁ := (s.insert a.data u).publish (s.newRow a.data u)
          have hprefs : s.preferences = s₁.preferences := rfl
          obtain ⟨s', a', hend, hgains, hmail⟩ := afterInapp_ends ih (a.visit u pref) s₁ u pref
          refine ⟨s', a', ends_create rfl (ends_create rfl hend), Gains.cons hactor ?_ ?_ hmail⟩
          · exact hgains.mono hprefs (fun v => inapp_le_insert v) fun _ => le_rfl
          · intro _
            have hgot : (s.insert a.data u).inapp a.data u ≤ s'.inapp a.data u := hgains.inapp u
            rwa [inapp_insert_self] at hgot
        case isFalse hno =>
          obtain ⟨s', a', hend, hgains, hmail⟩ := afterInapp_ends ih (a.visit u pref) s u pref
          exact ⟨s', a', hend, Gains.cons hactor hgains (fun hask => absurd hask.2 hno) hmail⟩

/-- A job of an event that is subscribed to serves everybody. -/
theorem create_ends (hsub : data.eventType ∈ subscribedEventTypes) : ∃ s' pc',
    handlerMachine.Ends due (s, .create (.begin data)) (s', pc') ∧ AllServed s s' data := by
  have hloop : LoopEnds due data.targetUserIds := loop_ends
  obtain ⟨s', a', hend, hgains⟩ := hloop ⟨data, s.now, []⟩ s
  refine ⟨s', _, ends_create ?_ hend, hgains.served⟩
  exact if_pos hsub

/-- A digest job builds the digest. -/
theorem digest_ends (data : SendUserDigestJobData) : ∃ s' pc',
    handlerMachine.Ends due (s, .digest (.begin data)) (s', pc')
      ∧ Performed due s s' pc' (.sendUserDigest data) := by
  let today := dateOf s.now
  by_cases hkey : s.hasKey (.digest data.userId today) = true
  · have hget : DigestPc.next s (.get data today) () = some (s, .done data today) :=
      congrArg some (Prod.ext rfl (if_pos hkey))
    refine ⟨s, _, ends_digest rfl (ends_digest hget (.of_none rfl)), fun hno => ?_⟩
    exact absurd (hkey.symm.trans hno) Bool.noConfusion
  · have hget : DigestPc.next s (.get data today) () = some (s, .select data today) :=
      congrArg some (Prod.ext rfl (if_neg hkey))
    cases hrows : s.pendingDigest data.userId with
    | nil =>
      have hselect : DigestPc.next s (.select data today) () = some (s, .setEmpty data today) := by
        unfold DigestPc.next
        dsimp only
        rw [hrows]
      refine ⟨s.setKey (.digest data.userId today), _, ends_digest rfl (ends_digest hget
        (ends_digest hselect (ends_digest rfl (.of_none rfl)))), fun _ hne => ?_⟩
      exact absurd hrows hne
    | cons row rows =>
      have hselect : DigestPc.next s (.select data today) ()
          = some (s, .enqueue data today (row :: rows)) := by
        unfold DigestPc.next
        dsimp only
        rw [hrows]
      refine ⟨_, _, ends_digest rfl (ends_digest hget (ends_digest hselect (ends_digest rfl
        (ends_digest rfl (ends_digest rfl (.of_none rfl)))))), fun _ _ => ?_⟩
      rw [hrows]
      rfl

variable (due s) in
/-- Where the email worker ends: with the mail of the data, if it was not sent and there is one. -/
theorem email_ends (data : JobData) : ∃ s',
    handlerMachine.Ends due (s, .email (.get data)) (s', .email .done)
      ∧ s'.mails = if s.hasKey data.sentKey then s.mails
        else data.mail.elim s.mails fun mail => mail :: s.mails := by
  by_cases hkey : s.hasKey data.sentKey = true
  · have hget : EmailPc.next s (.get data) = some (s, .done) :=
      congrArg some (Prod.ext rfl (if_pos hkey))
    exact ⟨s, ends_email hget (.of_none rfl), (if_pos hkey).symm⟩
  · cases hmail : data.mail with
    | none =>
      have hget : EmailPc.next s (.get data) = some (s, .done) := by
        unfold EmailPc.next
        dsimp only
        rw [if_neg hkey, hmail]
      exact ⟨s, ends_email hget (.of_none rfl), (if_neg hkey).symm⟩
    | some mail =>
      have hget : EmailPc.next s (.get data) = some (s, .send data mail) := by
        unfold EmailPc.next
        dsimp only
        rw [if_neg hkey, hmail]
      exact ⟨(s.send mail).setKey data.sentKey, ends_email hget (ends_email rfl (ends_email rfl
        (.of_none rfl))), (if_neg hkey).symm⟩

/-- The SELECT of the coordinator names a column that is not there. -/
theorem coordinator_ends :
    handlerMachine.Ends due (s, .coordinator .select) (s, .coordinator .threw) :=
  .of_next rfl (.of_none rfl)

end Ends

/-! ## Whichever worker takes it -/

section Handled

variable {s : Store} {due : List SendUserDigestJobData} {w : Worker} {job : Job}

variable (w job) in
/-- What was done is what is done at the end. -/
theorem performed_of_ends {s' : Store} {pc' : HandlerPc} {data : JobData}
    (hend : handlerMachine.Ends due (s, w.take job) (s', pc'))
    (h : ∃ s₁ pc₁, handlerMachine.Ends due (s, w.take job) (s₁, pc₁)
      ∧ Performed due s s₁ pc₁ data) : Performed due s s' pc' data := by
  obtain ⟨s₁, pc₁, hend₁, hperformed⟩ := h
  obtain ⟨rfl, rfl⟩ := Prod.mk.inj (hend.unique hend₁)
  exact hperformed

theorem mem_payload_of_eventMail {eventType : String} {payload : Payload} {mail : Mail}
    (h : eventMail eventType payload = some mail) :
    payload.lookup "recipientEmail" = some mail.toEmail := by
  obtain ⟨mapping, -, hmap⟩ := Option.bind_eq_some_iff.mp h
  obtain ⟨toEmail, hto, rfl⟩ := Option.map_eq_some_iff.mp hmap
  exact (Option.filter_eq_some_iff.mp hto).1

/-- A job to create notifications is handled exactly where it fits. -/
theorem createNotification_handled (data : CreateNotificationJobData) (now : ℕ) :
    Handled s due .notification (.createNotification data now)
      ↔ Fitting s .notification (.createNotification data) := by
  constructor
  · rintro ⟨-, hdone⟩
    by_cases hsub : data.eventType ∈ subscribedEventTypes
    · exact Or.inl hsub
    · have hnext : CreatePc.next s (.begin data) .ok = some (s, .skipped) := if_neg hsub
      have hend : handlerMachine.Ends due (s, .create (.begin data)) (s, .create .skipped) :=
        ends_create hnext (.of_none rfl)
      have hserved : AllServed s s data := performed_of_ends _ _ hend hdone
      refine Or.inr fun u hu => ⟨fun hask => ?_, fun hask => ?_⟩
      · exact absurd ((hserved u hu).1 hask) (Nat.not_succ_le_self _)
      · exact absurd ((hserved u hu).2 hask) (Nat.not_succ_le_self _)
  · intro hfit
    refine ⟨⟨.notificationWorkerJob, rfl, rfl⟩, ?_⟩
    by_cases hsub : data.eventType ∈ subscribedEventTypes
    · exact create_ends hsub
    · have hnext : CreatePc.next s (.begin data) .ok = some (s, .skipped) := if_neg hsub
      refine ⟨s, _, ends_create hnext (.of_none rfl), fun u hu => ?_⟩
      obtain ⟨hinapp, hemail⟩ := hfit.resolve_left hsub u hu
      exact ⟨fun hask => absurd hask hinapp, fun hask => absurd hask hemail⟩

/-- So is a job to send an email. -/
theorem sendNotificationEmail_handled (data : SendNotificationEmailJobData) (now : ℕ) :
    Handled s due .email (.sendNotificationEmail data now)
      ↔ Fitting s .email (.sendNotificationEmail data) := by
  obtain ⟨s', hend, hmails⟩ := email_ends due s (.sendNotificationEmail data)
  have hmail : (JobData.sendNotificationEmail data).mail
      = eventMail data.eventType data.payload := rfl
  rw [hmail] at hmails
  constructor
  · rintro ⟨-, hdone⟩
    have hperformed := performed_of_ends _ _ hend hdone
    refine (em _).imp id fun hkey => ?_
    obtain ⟨mail, hsent, -⟩ := hperformed.resolve_left hkey
    rw [if_neg hkey] at hmails
    cases hevent : eventMail data.eventType data.payload with
    | none =>
      rw [hevent] at hmails
      exact absurd (hsent.symm.trans hmails) (List.cons_ne_self _ _)
    | some mail => rfl
  · intro hfit
    refine ⟨⟨.emailWorkerJob, rfl, rfl⟩, s', _, hend, (em _).imp id fun hkey => ?_⟩
    obtain ⟨mail, hevent⟩ := Option.isSome_iff_exists.mp (hfit.resolve_left hkey)
    rw [if_neg hkey, hevent] at hmails
    exact ⟨mail, hmails, mem_payload_of_eventMail hevent⟩

/-- The digest of a user is not sent. -/
theorem sendDailyDigest_not_handled (data : SendDailyDigestJobData) (now : ℕ) :
    ¬ Handled s due .email (.sendDailyDigest data now) := by
  rintro ⟨-, hdone⟩
  obtain ⟨s', hend, hmails⟩ := email_ends due s (.sendDailyDigest data)
  have hsame : s'.mails = s.mails := hmails.trans (ite_self _)
  have hperformed : Performed due s s' (.email .done) (.sendDailyDigest data) :=
    performed_of_ends .email (.sendDailyDigest data now) hend hdone
  exact List.cons_ne_self _ _ (hperformed.symm.trans hsame)

theorem digestCoordinator_not_handled (now : ℕ) :
    ¬ Handled s due .digest (.digestCoordinator now) := by
  rintro ⟨-, hdone⟩
  have hperformed : Performed due s s (.coordinator .threw) .digestCoordinator :=
    performed_of_ends .digest (.digestCoordinator now) coordinator_ends hdone
  exact absurd (HandlerPc.coordinator.inj hperformed.1) (by decide)

/-- The notification worker takes every job for a notification to be created. -/
theorem notification_not_handled
    (hname : handlerFor job.name ≠ some .notificationWorkerJob) :
    ¬ Handled s due .notification job := by
  rintro ⟨⟨h, hh, htaken⟩, -⟩
  obtain rfl := Option.some.inj htaken
  exact hname hh

/-- **A job is handled exactly by the worker that fits it.** -/
theorem handled_iff (hjob : Produced job) (hqueue : w.queue = job.queue) :
    Handled s due w job ↔ Fitting s w job.data := by
  cases hjob with
  | digestCoordinator now =>
    cases w with
    | notification =>
      have hname : handlerFor "digest-coordinator" ≠ some .notificationWorkerJob := by decide
      exact iff_of_false (notification_not_handled hname) id
    | digest => exact iff_of_false (digestCoordinator_not_handled now) id
    | email => cases hqueue
  | sendUserDigest data now =>
    cases w with
    | notification =>
      have hname : handlerFor "send-user-digest" ≠ some .notificationWorkerJob := by decide
      exact iff_of_false (notification_not_handled hname) id
    | digest => exact iff_of_true ⟨⟨.runSendUserDigestJob, rfl, rfl⟩, digest_ends data⟩ trivial
    | email => cases hqueue
  | createNotification data now =>
    cases w with
    | notification => exact createNotification_handled data now
    | digest =>
      refine iff_of_false ?_ id
      rintro ⟨⟨h, hname, htaken⟩, -⟩
      cases htaken
    | email => cases hqueue
  | sendNotificationEmail data now =>
    cases w with
    | notification => cases hqueue
    | digest => cases hqueue
    | email => exact sendNotificationEmail_handled data now
  | sendDailyDigest data now =>
    cases w with
    | notification => cases hqueue
    | digest => cases hqueue
    | email => exact iff_of_false (sendDailyDigest_not_handled data now) id

/-- The digest worker gets the digest of Bob. -/
theorem bobs_digest_handled :
    Handled emptyStore [] .digest (.sendUserDigest bobsDigest 0) :=
  (handled_iff (.sendUserDigest bobsDigest 0) rfl).mpr trivial

/-- **The notification worker takes the digest of Bob, and does nothing.** -/
theorem not_handled : ¬ ∀ (s : Store) (due : List SendUserDigestJobData) (w : Worker) (job : Job),
    Produced job → w.queue = job.queue → Handled s due w job := by
  intro hclaim
  obtain ⟨⟨h, hname, htaken⟩, -⟩ :=
    hclaim emptyStore [] .notification _ (.sendUserDigest bobsDigest 0) rfl
  obtain rfl := Option.some.inj hname
  cases htaken

end Handled

end WorkPlatform.Notification

import WorkPlatform.Auth.PasswordReset
import WorkPlatform.Payment.OrgStatus
import WorkPlatform.Gdpr.Store

/-!
# Gdpr/Jobs — offboarding and erasure, statement by statement

    suspendOrg, reactivateOrg, startOffboarding   find ▸ update ▸ outbox ▸ audit
    POST /admin/orgs/:orgId/offboard              select ▸ update ▸ enqueue
    runOffboardingJob   select ▸ members ▸ enqueue* ▸ softDelete⁵ ▸ delete ▸ audit
    erasureWorkerJob    anonymise ▸ revoke ▸ delCache ▸ auditLogs ▸ authProviders ▸ audit

A worker takes a job that was enqueued, and is idle again when the job is over or a statement has
failed.  BullMQ hands a job out again after a failure or a crash, so that a worker may take a job at
any time and any number of times.
-/

namespace WorkPlatform.Gdpr

open Machinery

/-- `mayUpdateAuditLogs`: the role of the worker has the privilege on `audit_logs`. -/
structure Config where
  auth : Auth.Config
  mayUpdateAuditLogs : Bool

/-- What a move draws: what the authentication services draw, the job a worker is given, and how the
statement goes. -/
structure Draw where
  auth : Auth.Draw
  orgId : String
  job : EraseJob
  outcome : Outcome

/-- A statement of a job: the store after it, and where the worker gets. -/
def statement {κ : Type} (o : Outcome) (s s' : Store) (idle pc : κ) : Option (Store × κ) :=
  some (if o.took then s' else s, if o.answered then pc else idle)

/-- The last statement of a job. -/
def conclude {κ : Type} (o : Outcome) (s s' : Store) (complete : Store → Store) (idle : κ) :
    Option (Store × κ) :=
  statement o s (if o.answered then complete s' else s') idle idle

/-! ## `suspendOrg`, `reactivateOrg`, `startOffboarding` -/

inductive Service
  | suspendOrg | reactivateOrg | startOffboarding
  deriving DecidableEq

/-- The change of status a service makes. -/
def Service.transition : Service → Payment.Transition
  | suspendOrg => Payment.suspendOrg
  | reactivateOrg => Payment.reactivateOrg
  | startOffboarding => Payment.startOffboarding

/-- `now` is the time `startOffboarding` has taken. -/
inductive TransitionPc
  | find
  | update (now : ℕ)
  | outbox
  | audit
  | returned
  | threw (e : AppError)
  deriving DecidableEq

/-- The check on the organisation that was found. -/
def TransitionPc.found (t : Payment.Transition) (now : ℕ) (org : Option OrgRow) : TransitionPc :=
  match Payment.TransitionPc.found t (org.map (·.toOrgRow)) with
  | .update _ => .update now
  | .threw e => .threw e
  | _ => .returned

/-- `updateStatus`, with `offboarding_started_at` where the offboarding starts, for one row. -/
def OrgRow.transition (t : Payment.Transition) (now : ℕ) (org : OrgRow) : OrgRow :=
  if org.deleted then org
  else { org with
    status := t.target
    offboardingStartedAt :=
      if t.target = .offboarding then some now else org.offboardingStartedAt }

/-- The rows the services append to the outbox and to the audit log are left out. -/
def transitionNext (s : Store) (service : Service) (orgId : String) :
    TransitionPc → Option (Store × TransitionPc)
  | .find => some (s, .found service.transition s.now (s.findOrgById orgId))
  | .update now => some (s.updateOrg orgId (.transition service.transition now), .outbox)
  | .outbox => some (s, .audit)
  | .audit => some (s, .returned)
  | .returned | .threw _ => none

/-! ## The route -/

/-- `SET status = 'offboarding', offboarding_started_at = NOW()`, for one row. -/
def OrgRow.offboard (now : ℕ) (org : OrgRow) : OrgRow :=
  { org with status := .offboarding, offboardingStartedAt := some now }

/-- `POST /admin/orgs/:orgId/offboard`. -/
def routeNext (s : Store) (orgId : String) : Payment.GdprPc → Option (Store × Payment.GdprPc)
  | .select => some (s,
      match (s.organizations orgId).filter fun org => ¬ org.deleted with
      | none => .threw (.notFound "Organization")
      | some org =>
        if org.status = .deleted then
          .threw (.forbidden "ORG_ALREADY_DELETED" "Organization is already deleted.")
        else .update org.status)
  | .update _ => some (s.updateOrg orgId (.offboard s.now), .enqueue)
  | .enqueue => some (s.enqueueOffboarding orgId, .accepted)
  | .accepted | .threw _ => none

/-! ## `runOffboardingJob` -/

/-- The UPDATEs of the organisation's data, in their order. -/
def contentTables : List ContentTable :=
  [.workspaces, .tasks, .channels, .files, .webhookSubscriptions]

/-- `rest` are the members whose erasure is still to be enqueued, `tables` the tables still to be
updated, and `now` is the time the job has taken. -/
inductive OffboardPc
  | idle
  | select (orgId : String)
  | members (orgId : String)
  | enqueue (orgId : String) (rest : List String)
  | softDelete (orgId : String) (tables : List ContentTable) (now : ℕ)
  | delete (orgId : String) (now : ℕ)
  | audit (orgId : String)
  deriving DecidableEq

/-- `SET status = 'deleted', deleted_at = $2`, for one row. -/
def OrgRow.delete (org : OrgRow) : OrgRow := { org with status := .deleted, deleted := true }

/-- The check on the status: whatever else it is, the job returns with a warning. -/
def checkStatus (s : Store) (orgId : String) : Store × OffboardPc :=
  if (s.organizations orgId).any (·.status = .offboarding) then (s, .members orgId)
  else (s.completeOffboarding orgId, .idle)

def deletedEvent (orgId : String) : AuditLogRow := ⟨some orgId, none, "org.deleted", orgId⟩

/-- The next statement of `runOffboardingJob`. -/
def offboardNext (s : Store) (d : Draw) : OffboardPc → Option (Store × OffboardPc)
  | .idle => if d.orgId ∈ s.offboardJobs then some (s, .select d.orgId) else none
  | .select orgId => some (if d.outcome.answered then checkStatus s orgId else (s, .idle))
  | .members orgId => statement d.outcome s s .idle (.enqueue orgId (s.activeMembers orgId))
  | .enqueue orgId [] => some (s, .softDelete orgId contentTables s.now)
  | .enqueue orgId (userId :: rest) =>
    statement d.outcome s (s.enqueueErasure ⟨userId, orgId⟩) .idle (.enqueue orgId rest)
  | .softDelete orgId [] now => some (s, .delete orgId now)
  | .softDelete orgId (table :: tables) now =>
    statement d.outcome s (s.softDelete table orgId now) .idle (.softDelete orgId tables now)
  | .delete orgId _ => statement d.outcome s (s.updateOrg orgId .delete) .idle (.audit orgId)
  | .audit orgId => conclude d.outcome s (s.persistAuditLog (deletedEvent orgId))
      (·.completeOffboarding orgId) .idle

/-! ## `erasureWorkerJob` -/

/-- Where `erasureWorkerJob` is. -/
inductive ErasePc
  | idle
  | anonymise (job : EraseJob)
  | revoke (job : EraseJob)
  | delCache (job : EraseJob)
  | auditLogs (job : EraseJob)
  | authProviders (job : EraseJob)
  | audit (job : EraseJob)
  deriving DecidableEq

/-- The job a worker is at. -/
def ErasePc.job : ErasePc → Option EraseJob
  | .idle => none
  | .anonymise job | .revoke job | .delCache job | .auditLogs job | .authProviders job
  | .audit job => some job

def erasedEvent (userId : String) : AuditLogRow := ⟨none, none, "user.erased", userId⟩

/-- The next statement of `erasureWorkerJob`. -/
def eraseNext (cfg : Config) (s : Store) (d : Draw) : ErasePc → Option (Store × ErasePc)
  | .idle => if d.job ∈ s.eraseJobs then some (s, .anonymise d.job) else none
  | .anonymise job => statement d.outcome s (s.anonymise job.userId) .idle (.revoke job)
  | .revoke job => statement d.outcome s (s.revokeAllUserTokens job.userId) .idle (.delCache job)
  | .delCache job => statement d.outcome s (s.delUserCache job.userId) .idle (.auditLogs job)
  -- an error of this UPDATE is caught
  | .auditLogs job =>
    some (if cfg.mayUpdateAuditLogs ∧ d.outcome.took then s.anonymiseAuditLogs job.userId else s,
      .authProviders job)
  | .authProviders job =>
    statement d.outcome s (s.deleteAuthProviders job.userId) .idle (.audit job)
  | .audit job => conclude d.outcome s (s.persistAuditLog (erasedEvent job.userId))
      (·.completeErasure job) .idle

/-! ## What a statement of a job can do -/

/-- The steps of `runOffboardingJob`. -/
inductive OffboardStep (s : Store) : OffboardPc → Store → OffboardPc → Prop
  | take {o : String} : o ∈ s.offboardJobs → OffboardStep s .idle s (.select o)
  | refuse {o : String} : OffboardStep s (.select o) (s.completeOffboarding o) .idle
  | check {o : String} {org : OrgRow} : s.organizations o = some org → org.status = .offboarding →
      OffboardStep s (.select o) s (.members o)
  | members {o : String} : OffboardStep s (.members o) s (.enqueue o (s.activeMembers o))
  | enqueue {o u : String} {rest : List String} {pc' : OffboardPc} :
      pc' = .enqueue o rest ∨ pc' = .idle →
      OffboardStep s (.enqueue o (u :: rest)) (s.enqueueErasure ⟨u, o⟩) pc'
  | enqueued {o : String} :
      OffboardStep s (.enqueue o []) s (.softDelete o contentTables s.now)
  | softDelete {o : String} {table : ContentTable} {tables : List ContentTable} {now : ℕ}
      {pc' : OffboardPc} : pc' = .softDelete o tables now ∨ pc' = .idle →
      OffboardStep s (.softDelete o (table :: tables) now) (s.softDelete table o now) pc'
  | softDeleted {o : String} {now : ℕ} : OffboardStep s (.softDelete o [] now) s (.delete o now)
  | delete {o : String} {now : ℕ} {pc' : OffboardPc} : pc' = .audit o ∨ pc' = .idle →
      OffboardStep s (.delete o now) (s.updateOrg o .delete) pc'
  | audit {o : String} : OffboardStep s (.audit o) (s.persistAuditLog (deletedEvent o)) .idle
  | complete {o : String} : OffboardStep s (.audit o)
      ((s.persistAuditLog (deletedEvent o)).completeOffboarding o) .idle
  | fail {pc : OffboardPc} : OffboardStep s pc s .idle

/-- The steps of `erasureWorkerJob`. -/
inductive EraseStep (cfg : Config) (s : Store) : ErasePc → Store → ErasePc → Prop
  | take {job : EraseJob} : job ∈ s.eraseJobs → EraseStep cfg s .idle s (.anonymise job)
  | anonymise {job : EraseJob} {pc' : ErasePc} : pc' = .revoke job ∨ pc' = .idle →
      EraseStep cfg s (.anonymise job) (s.anonymise job.userId) pc'
  | revoke {job : EraseJob} {pc' : ErasePc} : pc' = .delCache job ∨ pc' = .idle →
      EraseStep cfg s (.revoke job) (s.revokeAllUserTokens job.userId) pc'
  | delCache {job : EraseJob} {pc' : ErasePc} : pc' = .auditLogs job ∨ pc' = .idle →
      EraseStep cfg s (.delCache job) (s.delUserCache job.userId) pc'
  | auditLogs {job : EraseJob} : cfg.mayUpdateAuditLogs = true →
      EraseStep cfg s (.auditLogs job) (s.anonymiseAuditLogs job.userId) (.authProviders job)
  | caught {job : EraseJob} : EraseStep cfg s (.auditLogs job) s (.authProviders job)
  | authProviders {job : EraseJob} {pc' : ErasePc} : pc' = .audit job ∨ pc' = .idle →
      EraseStep cfg s (.authProviders job) (s.deleteAuthProviders job.userId) pc'
  | audit {job : EraseJob} :
      EraseStep cfg s (.audit job) (s.persistAuditLog (erasedEvent job.userId)) .idle
  | complete {job : EraseJob} : EraseStep cfg s (.audit job)
      ((s.persistAuditLog (erasedEvent job.userId)).completeErasure job) .idle
  | fail {pc : ErasePc} : EraseStep cfg s pc s .idle

section Steps

variable {cfg : Config} {s s' s₁ : Store} {d : Draw} {o : Outcome}

/-- A statement is done, with or without an answer, or not done. -/
theorem statement_cases {κ : Type} {idle pc pc' : κ}
    (h : statement o s s₁ idle pc = some (s', pc')) :
    s' = s₁ ∧ (pc' = pc ∨ pc' = idle) ∨ s' = s ∧ pc' = idle := by
  obtain ⟨rfl, rfl⟩ := Prod.mk.inj (Option.some.inj h)
  cases o with
  | ok => exact Or.inl ⟨rfl, Or.inl rfl⟩
  | lost => exact Or.inl ⟨rfl, Or.inr rfl⟩
  | failed => exact Or.inr ⟨rfl, rfl⟩

theorem conclude_cases {κ : Type} {complete : Store → Store} {idle pc' : κ}
    (h : conclude o s s₁ complete idle = some (s', pc')) :
    pc' = idle ∧ (s' = complete s₁ ∨ s' = s₁ ∨ s' = s) := by
  obtain ⟨rfl, rfl⟩ := Prod.mk.inj (Option.some.inj h)
  cases o with
  | ok => exact ⟨rfl, Or.inl rfl⟩
  | lost => exact ⟨rfl, Or.inr (Or.inl rfl)⟩
  | failed => exact ⟨rfl, Or.inr (Or.inr rfl)⟩

/-- Each statement of `runOffboardingJob` is one of its steps. -/
theorem offboardStep_of_next {pc pc' : OffboardPc} (h : offboardNext s d pc = some (s', pc')) :
    OffboardStep s pc s' pc' := by
  cases pc with
  | idle =>
    rw [offboardNext] at h
    split at h
    · rename_i hjob
      obtain ⟨rfl, rfl⟩ := Prod.mk.inj (Option.some.inj h)
      exact .take hjob
    · cases h
  | select orgId =>
    rw [offboardNext] at h
    split at h
    · rw [checkStatus] at h
      split at h
      · rename_i hany
        obtain ⟨rfl, rfl⟩ := Prod.mk.inj (Option.some.inj h)
        obtain ⟨org, horg, hstatus⟩ := (Option.any_eq_true _ _).mp hany
        exact .check horg (of_decide_eq_true hstatus)
      · obtain ⟨rfl, rfl⟩ := Prod.mk.inj (Option.some.inj h)
        exact .refuse
    · obtain ⟨rfl, rfl⟩ := Prod.mk.inj (Option.some.inj h)
      exact .fail
  | members orgId =>
    rcases statement_cases h with ⟨rfl, rfl | rfl⟩ | ⟨rfl, rfl⟩
    · exact .members
    · exact .fail
    · exact .fail
  | enqueue orgId rest =>
    cases rest with
    | nil =>
      obtain ⟨rfl, rfl⟩ := Prod.mk.inj (Option.some.inj h)
      exact .enqueued
    | cons userId rest =>
      rcases statement_cases h with ⟨rfl, hpc⟩ | ⟨rfl, rfl⟩
      · exact .enqueue hpc
      · exact .fail
  | softDelete orgId tables now =>
    cases tables with
    | nil =>
      obtain ⟨rfl, rfl⟩ := Prod.mk.inj (Option.some.inj h)
      exact .softDeleted
    | cons table tables =>
      rcases statement_cases h with ⟨rfl, hpc⟩ | ⟨rfl, rfl⟩
      · exact .softDelete hpc
      · exact .fail
  | delete orgId now =>
    rcases statement_cases h with ⟨rfl, hpc⟩ | ⟨rfl, rfl⟩
    · exact .delete hpc
    · exact .fail
  | audit orgId =>
    rw [offboardNext] at h
    obtain ⟨rfl, rfl | rfl | rfl⟩ := conclude_cases h
    · exact .complete
    · exact .audit
    · exact .fail

/-- Each statement of `erasureWorkerJob` is one of its steps. -/
theorem eraseStep_of_next {pc pc' : ErasePc} (h : eraseNext cfg s d pc = some (s', pc')) :
    EraseStep cfg s pc s' pc' := by
  cases pc with
  | idle =>
    rw [eraseNext] at h
    split at h
    · rename_i hjob
      obtain ⟨rfl, rfl⟩ := Prod.mk.inj (Option.some.inj h)
      exact .take hjob
    · cases h
  | anonymise job =>
    rcases statement_cases h with ⟨rfl, hpc⟩ | ⟨rfl, rfl⟩
    · exact .anonymise hpc
    · exact .fail
  | revoke job =>
    rcases statement_cases h with ⟨rfl, hpc⟩ | ⟨rfl, rfl⟩
    · exact .revoke hpc
    · exact .fail
  | delCache job =>
    rcases statement_cases h with ⟨rfl, hpc⟩ | ⟨rfl, rfl⟩
    · exact .delCache hpc
    · exact .fail
  | auditLogs job =>
    obtain ⟨rfl, rfl⟩ := Prod.mk.inj (Option.some.inj h)
    split
    · rename_i hmay
      exact .auditLogs hmay.1
    · exact .caught
  | authProviders job =>
    rcases statement_cases h with ⟨rfl, hpc⟩ | ⟨rfl, rfl⟩
    · exact .authProviders hpc
    · exact .fail
  | audit job =>
    rw [eraseNext] at h
    obtain ⟨rfl, rfl | rfl | rfl⟩ := conclude_cases h
    · exact .complete
    · exact .audit
    · exact .fail

end Steps

/-! ## The machine -/

/-- A call or a worker, and where it is. -/
inductive Call
  | transition (service : Service) (orgId : String) (pc : TransitionPc)
  | offboard (orgId : String) (pc : Payment.GdprPc)
  | offboardingWorker (pc : OffboardPc)
  | erasureWorker (pc : ErasePc)
  | auth (c : Auth.Call)

/-- What happens around the calls: the time and the rest of what the authentication services see,
the replication of organisations, and the UPDATE of the payment webhook. -/
inductive Env
  | auth (e : Auth.Env)
  | replicate
  | reactivateSuspended (orgId : String)

/-- What others do. -/
def env (s : Store) : Env → Store
  | .auth e => { s with auth := Auth.env s.auth e }
  | .replicate => { s with replica := s.organizations }
  | .reactivateSuspended orgId =>
    s.updateOrg orgId fun org => { org with toOrgRow := org.toOrgRow.reactivate }

/-- The next statement of a call. -/
def next (cfg : Config) (s : Store) (c : Call) (d : Draw) : Option (Store × Call) :=
  match c with
  | .transition service orgId pc =>
    (transitionNext s service orgId pc).map fun x => (x.1, .transition service orgId x.2)
  | .offboard orgId pc => (routeNext s orgId pc).map fun x => (x.1, .offboard orgId x.2)
  | .offboardingWorker pc => (offboardNext s d pc).map fun x => (x.1, .offboardingWorker x.2)
  | .erasureWorker pc => (eraseNext cfg s d pc).map fun x => (x.1, .erasureWorker x.2)
  | .auth c => (Auth.next cfg.auth s.auth c d.auth).map fun x => ({ s with auth := x.1 }, .auth x.2)

/-- A statement of an authentication service. -/
theorem auth_of_next {cfg : Config} {s s' : Store} {c : Auth.Call} {c' : Call} {d : Draw}
    (h : next cfg s (.auth c) d = some (s', c')) :
    ∃ a c₁, Auth.next cfg.auth s.auth c d.auth = some (a, c₁) ∧ s' = { s with auth := a }
      ∧ c' = .auth c₁ :=
  part_of_next (g := fun a : Auth.Store => ({ s with auth := a } : Store)) (f := Call.auth) h

def gdprMachine (cfg : Config) : Machine Store Call Draw Env := ⟨next cfg, env⟩

/-- Calls over the stores. -/
abbrev Calls (ι : Type*) := Pool ι Store Call

/-! ## A small database -/

def demoConfig : Config := ⟨Auth.demoConfig, true⟩

def demoProfile : Profile := ⟨"u@x", "Una", none, none, none, false, [], none⟩

def demoOrg : OrgRow := ⟨⟨⟨.active, false⟩, none, .free⟩, none⟩

/-- The user `u` with a session, a member of the organisation `A`; a task of `A`. -/
def demoStore : Store where
  auth := Auth.demoSession
  profiles := fun _ => demoProfile
  authProviders := [⟨"p", "u", "email", "u@x", none, []⟩]
  auditLogs := []
  invitations := []
  organizations := fun orgId => if orgId = "A" then some demoOrg else none
  replica := fun orgId => if orgId = "A" then some demoOrg else none
  memberships := [⟨⟨"u", "A", .member, .active⟩, false⟩]
  content := [⟨.tasks, "t", "A", some "todo", none⟩]
  offboardJobs := []
  offboarded := []
  eraseJobs := []
  erased := []

/-- Draws of a worker whose statements all succeed. -/
def demoDraw : Draw := ⟨Auth.drawn "" "" "", "A", ⟨"u", "A"⟩, .ok⟩

end WorkPlatform.Gdpr

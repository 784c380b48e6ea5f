import WorkPlatform.Gdpr.WaitingPeriod

/-!
# Gdpr/Isolation — whose rows the offboarding of an organisation changes

    offboard A ──▸ erase-user {u, A} ──▸ users, refresh_tokens, auth_providers of u
      for every active member u          audit_logs with u as actor

The erasure does not look at the organisation it is for.  What it changes of other organisations is
what they share with `A` through its members: the account of a member who is active elsewhere, and
the tokens, identities and audit rows a member has in another organisation.  Where there are none,
everything stays in `A` (`contained_iff`).
-/

namespace WorkPlatform.Gdpr

open Machinery
open Auth (RefreshTokenRow)

/-- A database whose memberships are of users that exist. -/
structure Database extends Store where
  members_user : ∀ m ∈ memberships, (auth.primary.users m.userId).isSome

/-! ## What stays inside -/

/-- An active member of another organisation that is not being offboarded. -/
def Elsewhere (s : Store) (A u : String) : Prop :=
  ∃ B, B ≠ A ∧ u ∈ s.activeMembers B ∧ s.status B ≠ some .offboarding

/-- The row belongs to another organisation. -/
def Foreign (A : String) (orgId : Option String) : Prop := ∃ B, B ≠ A ∧ orgId = some B

/-- **Nothing is changed outside**: no row of the account of a user who is active elsewhere, and no
row of another organisation. -/
structure Contained (A : String) (s s' : Store) : Prop where
  users : ∀ u, Elsewhere s A u → s'.user u = s.user u
  refreshTokens : ∀ r ∈ s.auth.refreshTokens.rows, Elsewhere s A r.userId ∨ Foreign A r.orgId →
    r ∈ s'.auth.refreshTokens.rows
  authProviders : ∀ r ∈ s.authProviders, Elsewhere s A r.userId ∨ Foreign A r.orgId →
    r ∈ s'.authProviders
  auditLogs : ∀ r ∈ s.auditLogs, Foreign A r.orgId → r ∈ s'.auditLogs
  organizations : ∀ B, B ≠ A → s'.organizations B = s.organizations B
  memberships : s'.memberships = s.memberships
  invitations : s'.invitations = s.invitations
  content : ∀ r ∈ s.content, r.orgId ≠ A → r ∈ s'.content

/-- The job of `A` is in the queue, and any number of workers are idle. -/
def launch (s : Store) (A : String) : Calls (ℕ ⊕ ℕ) where
  store := { s with offboardJobs := [A], offboarded := [], eraseJobs := [], erased := [] }
  calls := Sum.elim (fun _ => .up (.offboardingWorker .idle)) fun _ => .up (.erasureWorker .idle)

/-- Nothing happens but the jobs, the time and crashes. -/
def OnlyTime {ι : Type} (_ : Calls ι) : Move ι Draw Env → Prop
  | .env e => ∃ ms, e = .auth (.tick ms)
  | _ => True

/-- The job of `A` is over, and so are the erasures. -/
def Completed (A : String) (s : Store) : Prop :=
  A ∈ s.offboarded ∧ ∀ job ∈ s.eraseJobs, job ∈ s.erased

def ContainedRuns (cfg : Config) (s : Store) (A : String) : Prop :=
  ∀ q, Run (Pool.step (gdprMachine cfg)) OnlyTime (launch s A) q → Completed A q.store →
    Contained A s q.store

/-- **When it holds** of a member: it is active nowhere else, and has nothing in another
organisation that an erasure would change. -/
structure Separate (cfg : Config) (s : Store) (A u : String) : Prop where
  user : ¬ Elsewhere s A u
  tokens : ∀ r ∈ s.auth.refreshTokens.rows, r.userId = u → r.isRevoked = false →
    ¬ Foreign A r.orgId
  providers : ∀ r ∈ s.authProviders, r.userId = u → ¬ Foreign A r.orgId
  auditLogs : cfg.mayUpdateAuditLogs = true → ∀ r ∈ s.auditLogs, r.actorId = some u →
    ¬ Foreign A r.orgId

/-! ## Statements -/

section Statements

variable {cfg : Config} {s s' : Store} {A u : String}

theorem Contained.refl (A : String) (s : Store) : Contained A s s :=
  ⟨fun _ _ => rfl, fun _ h _ => h, fun _ h _ => h, fun _ h _ => h, fun _ _ => rfl, rfl, rfl,
    fun _ h _ => h⟩

/-- The queues are in Redis. -/
theorem Contained.queues (h : Contained A s s') (offboardJobs offboarded : List String)
    (eraseJobs erased : List EraseJob) : Contained A s { s' with
      offboardJobs := offboardJobs
      offboarded := offboarded
      eraseJobs := eraseJobs
      erased := erased } :=
  { h with }

theorem user_anonymise_of_ne {v : String} (h : v ≠ u) : (s.anonymise u).user v = s.user v := by
  unfold Store.user Store.anonymise
  dsimp only
  rw [Function.update_of_ne h, Function.update_of_ne h]

/-- Anonymising a user who is active nowhere else stays contained. -/
theorem Contained.anonymise (h : Contained A s s') (hu : ¬ Elsewhere s A u) :
    Contained A s (s'.anonymise u) :=
  { h with
    users := by
      intro v hv
      have hne : v ≠ u := by
        rintro rfl
        exact hu hv
      rw [user_anonymise_of_ne hne]
      exact h.users v hv }

/-- Revoking the tokens of a separate member stays contained. -/
theorem Contained.revoke (h : Contained A s s') (hu : Separate cfg s A u) :
    Contained A s (s'.revokeAllUserTokens u) :=
  { h with
    refreshTokens := by
      intro r hr hspared
      refine List.mem_map.mpr ⟨r, h.refreshTokens r hr hspared, ?_⟩
      have hnot : ¬ (r.userId = u ∧ r.isRevoked = false) := by
        rintro ⟨rfl, hlive⟩
        rcases hspared with helsewhere | hforeign
        · exact hu.user helsewhere
        · exact hu.tokens r hr rfl hlive hforeign
      unfold RefreshTokenRow.revokeIf
      dsimp only
      rw [decide_eq_false hnot, Bool.or_false] }

/-- So does deleting the providers of a separate member. -/
theorem Contained.deleteAuthProviders (h : Contained A s s') (hu : Separate cfg s A u) :
    Contained A s (s'.deleteAuthProviders u) :=
  { h with
    authProviders := by
      intro r hr hspared
      refine List.mem_filter.mpr ⟨h.authProviders r hr hspared, decide_eq_true ?_⟩
      rintro rfl
      rcases hspared with helsewhere | hforeign
      · exact hu.user helsewhere
      · exact hu.providers r hr rfl hforeign }

theorem Contained.anonymiseAuditLogs (h : Contained A s s') (hu : Separate cfg s A u)
    (hmay : cfg.mayUpdateAuditLogs = true) : Contained A s (s'.anonymiseAuditLogs u) :=
  { h with
    auditLogs := by
      intro r hr hforeign
      refine List.mem_map.mpr ⟨r, h.auditLogs r hr hforeign, ?_⟩
      exact if_neg fun hactor => hu.auditLogs hmay r hr hactor hforeign }

theorem Contained.persistAuditLog (h : Contained A s s') (row : AuditLogRow) :
    Contained A s (s'.persistAuditLog row) :=
  { h with
    auditLogs := fun r hr hforeign => List.mem_cons_of_mem _ (h.auditLogs r hr hforeign) }

theorem Contained.softDelete (h : Contained A s s') (table : ContentTable) (now : ℕ) :
    Contained A s (s'.softDelete table A now) :=
  { h with
    content := by
      intro r hr hne
      refine List.mem_map.mpr ⟨r, h.content r hr hne, ?_⟩
      exact if_neg fun hwhere => hne hwhere.2.1 }

theorem Contained.delete (h : Contained A s s') : Contained A s (s'.updateOrg A .delete) :=
  { h with
    organizations := fun B hB => (updateOrg_of_ne hB).trans (h.organizations B hB) }

end Statements

/-! ## Runs -/

section Runs

variable {cfg : Config} {s : Store} {A : String}

/-- The call works for the offboarding of `A`. -/
def OffboardPc.WorksFor (s : Store) (A : String) : OffboardPc → Prop
  | .idle => True
  | .select o | .audit o => o = A
  | .members o | .softDelete o _ _ | .delete o _ => o = A ∧ s.status A = some .offboarding
  | .enqueue o rest =>
    o = A ∧ s.status A = some .offboarding ∧ ∀ u ∈ rest, u ∈ s.activeMembers A

/-- The user of an erasure is a member of an organisation that is offboarded. -/
def EraseJob.WorksFor (s : Store) (A : String) (job : EraseJob) : Prop :=
  s.status A = some .offboarding ∧ job.userId ∈ s.activeMembers A

/-- A worker is at a job of the organisation. -/
def Call.WorksFor (s : Store) (A : String) : Call → Prop
  | .offboardingWorker pc => pc.WorksFor s A
  | .erasureWorker pc => ∀ job ∈ pc.job, job.WorksFor s A
  | _ => False

/-- What a run of the jobs keeps; the status is looked at until the job deletes. -/
structure Confined (s : Store) (A : String) (s' : Store) : Prop where
  contained : Contained A s s'
  status : s'.status A = some .offboarding → s.status A = some .offboarding
  offboardJobs : s'.offboardJobs = [A]
  eraseJobs : ∀ job ∈ s'.eraseJobs, job.WorksFor s A

theorem activeMembers_of_contained {s' : Store} (h : Contained A s s') (o : String) :
    s'.activeMembers o = s.activeMembers o := by
  unfold Store.activeMembers
  rw [h.memberships]

/-- **One statement of the offboarding.** -/
theorem Confined.offboard {s' s'' : Store} {pc pc' : OffboardPc} (h : Confined s A s')
    (hpc : pc.WorksFor s A) (hn : OffboardStep s' pc s'' pc') :
    Confined s A s'' ∧ pc'.WorksFor s A := by
  cases hn with
  | take hjob =>
    rw [h.offboardJobs] at hjob
    exact ⟨h, List.mem_singleton.mp hjob⟩
  | refuse => exact ⟨{ h with contained := h.contained.queues _ _ _ _ }, trivial⟩
  | @check o org horg hstatus =>
    obtain rfl : o = A := hpc
    refine ⟨h, rfl, h.status ?_⟩
    unfold Store.status
    rw [horg, Option.map_some, hstatus]
  | @members o =>
    obtain ⟨rfl, hstatus⟩ := hpc
    refine ⟨h, rfl, hstatus, fun u hu => ?_⟩
    rwa [activeMembers_of_contained h.contained] at hu
  | @enqueue o u rest pc' hpc' =>
    obtain ⟨rfl, hstatus, hmem⟩ := hpc
    refine ⟨{ h with contained := h.contained.queues _ _ _ _, eraseJobs := ?_ }, ?_⟩
    · intro job hjob
      rcases List.mem_cons.mp hjob with rfl | hjob
      · exact ⟨hstatus, hmem u List.mem_cons_self⟩
      · exact h.eraseJobs job hjob
    · rcases hpc' with rfl | rfl
      · exact ⟨rfl, hstatus, fun v hv => hmem v (List.mem_cons_of_mem _ hv)⟩
      · trivial
  | enqueued =>
    obtain ⟨rfl, hstatus, -⟩ := hpc
    exact ⟨h, rfl, hstatus⟩
  | softDelete hpc' =>
    obtain ⟨rfl, hstatus⟩ := hpc
    refine ⟨{ h with contained := h.contained.softDelete _ _ }, ?_⟩
    rcases hpc' with rfl | rfl
    · exact ⟨rfl, hstatus⟩
    · trivial
  | softDeleted => exact ⟨h, hpc⟩
  | delete hpc' =>
    obtain ⟨rfl, hstatus⟩ := hpc
    refine ⟨{ h with contained := h.contained.delete, status := fun _ => hstatus }, ?_⟩
    rcases hpc' with rfl | rfl
    · exact rfl
    · trivial
  | audit => exact ⟨{ h with contained := h.contained.persistAuditLog _ }, trivial⟩
  | complete =>
    have haudit := h.contained.persistAuditLog (deletedEvent A)
    obtain rfl : _ = A := hpc
    exact ⟨{ h with contained := haudit.queues _ _ _ _ }, trivial⟩
  | fail => exact ⟨h, trivial⟩

/-- **One statement of an erasure**, of a user who is separate. -/
theorem Confined.erase {s' s'' : Store} {pc pc' : ErasePc} (h : Confined s A s')
    (hsep : s.status A = some .offboarding → ∀ u ∈ s.activeMembers A, Separate cfg s A u)
    (hpc : ∀ job ∈ pc.job, job.WorksFor s A) (hn : EraseStep cfg s' pc s'' pc') :
    Confined s A s'' ∧ ∀ job ∈ pc'.job, job.WorksFor s A := by
  have hjob : ∀ {job : EraseJob}, job.WorksFor s A → Separate cfg s A job.userId :=
    fun hw => hsep hw.1 _ hw.2
  have hgoes : ∀ {job : EraseJob} {pc₁ pc₂ : ErasePc}, job.WorksFor s A →
      pc₂ = pc₁ ∨ pc₂ = .idle → pc₁.job = some job → ∀ j ∈ pc₂.job, j.WorksFor s A := by
    rintro job pc₁ pc₂ hw (rfl | rfl) heq j hj
    · rw [heq] at hj
      obtain rfl := Option.some.inj hj
      exact hw
    · cases hj
  cases hn with
  | take hmem => exact ⟨h, hgoes (h.eraseJobs _ hmem) (Or.inl rfl) rfl⟩
  | anonymise hpc' =>
    have hw := hpc _ rfl
    exact ⟨{ h with contained := h.contained.anonymise (hjob hw).user }, hgoes hw hpc' rfl⟩
  | revoke hpc' =>
    have hw := hpc _ rfl
    exact ⟨{ h with contained := h.contained.revoke (hjob hw) }, hgoes hw hpc' rfl⟩
  | delCache hpc' =>
    have hw := hpc _ rfl
    have hsame := h.contained
    exact ⟨{ h with contained := { hsame with } }, hgoes hw hpc' rfl⟩
  | auditLogs hmay =>
    have hw := hpc _ rfl
    exact ⟨{ h with contained := h.contained.anonymiseAuditLogs (hjob hw) hmay },
      hgoes hw (Or.inl rfl) rfl⟩
  | caught => exact ⟨h, hgoes (hpc _ rfl) (Or.inl rfl) rfl⟩
  | authProviders hpc' =>
    have hw := hpc _ rfl
    exact ⟨{ h with contained := h.contained.deleteAuthProviders (hjob hw) }, hgoes hw hpc' rfl⟩
  | audit => exact ⟨{ h with contained := h.contained.persistAuditLog _ }, nofun⟩
  | @complete job =>
    have haudit := h.contained.persistAuditLog (erasedEvent job.userId)
    exact ⟨{ h with contained := haudit.queues _ _ _ _ }, nofun⟩
  | fail => exact ⟨h, nofun⟩

/-- A statement of the organisation's job stays confined. -/
theorem Confined.next {s' s'' : Store} {c c' : Call} {d : Draw} (h : Confined s A s')
    (hsep : s.status A = some .offboarding → ∀ u ∈ s.activeMembers A, Separate cfg s A u)
    (hc : c.WorksFor s A) (hn : next cfg s' c d = some (s'', c')) :
    Confined s A s'' ∧ c'.WorksFor s A := by
  cases c with
  | offboardingWorker pc =>
    obtain ⟨pc', hpc, rfl⟩ := pc_of_next hn
    exact h.offboard hc (offboardStep_of_next hpc)
  | erasureWorker pc =>
    obtain ⟨pc', hpc, rfl⟩ := pc_of_next hn
    exact h.erase hsep hc (eraseStep_of_next hpc)
  | transition service o pc => cases hc
  | offboard o pc => cases hc
  | auth c => cases hc

theorem Confined.tick {s' : Store} (h : Confined s A s') (ms : ℕ) :
    Confined s A (env s' (.auth (.tick ms))) := by
  have hsame := h.contained
  exact { h with contained := { hsame with } }

structure ConfinedRun (s : Store) (A : String) (p : Calls (ℕ ⊕ ℕ)) : Prop where
  store : Confined s A p.store
  calls : ∀ i, (p.calls i).Keeps (Call.WorksFor s A)

/-- **Everything stays in the organisation**, in every run of its jobs. -/
theorem confined_run {q : Calls (ℕ ⊕ ℕ)}
    (hsep : s.status A = some .offboarding → ∀ u ∈ s.activeMembers A, Separate cfg s A u)
    (hrun : Run (Pool.step (gdprMachine cfg)) OnlyTime (launch s A) q) : ConfinedRun s A q := by
  refine Pool.invariant ?_ ?_ ?_ ?_ hrun
  · refine ⟨⟨(Contained.refl A s).queues _ _ _ _, fun h => h, rfl, nofun⟩, ?_⟩
    rintro (n | n)
    · trivial
    · exact nofun
  · rintro p i d c s' c' ⟨hstore, hcalls⟩ - hc hn
    obtain ⟨hstore', hc'⟩ := hstore.next hsep ((hcalls i).of_up hc) hn
    exact ⟨hstore', keeps_update_up hc' fun j _ => hcalls j⟩
  · rintro p i c ⟨hstore, hcalls⟩ - hc
    exact ⟨hstore, keeps_update_down hcalls⟩
  · rintro p e ⟨hstore, hcalls⟩ ⟨ms, rfl⟩
    exact ⟨hstore.tick ms, hcalls⟩

end Runs

/-! ## A run in which nothing fails -/

section Complete

variable {cfg : Config} {s : Store} {A u : String}

/-- The draws of a worker whose statements all succeed. -/
def given (A : String) (job : EraseJob) : Draw := ⟨Auth.drawn "" "" "", A, job, .ok⟩

/-- What `erasureWorkerJob` comes to. -/
def Store.erase (cfg : Config) (s : Store) (job : EraseJob) : Store :=
  let u := job.userId
  let s₁ := ((s.anonymise u).revokeAllUserTokens u).delUserCache u
  let s₂ := if cfg.mayUpdateAuditLogs then s₁.anonymiseAuditLogs u else s₁
  ((s₂.deleteAuthProviders u).persistAuditLog (erasedEvent u)).completeErasure job

/-- What `runOffboardingJob` comes to: the erasures it enqueues for `us`. -/
def Store.enqueueAll (s : Store) (A : String) (us : List String) : Store :=
  us.foldl (fun s u => s.enqueueErasure ⟨u, A⟩) s

def Store.softDeleteAll (s : Store) (A : String) (now : ℕ) (tables : List ContentTable) : Store :=
  tables.foldl (fun s table => s.softDelete table A now) s

def Store.offboard (s : Store) (A : String) : Store :=
  ((((s.enqueueAll A (s.activeMembers A)).softDeleteAll A s.now contentTables).updateOrg A
    .delete).persistAuditLog (deletedEvent A)).completeOffboarding A

theorem enqueueAll_auth (A : String) : ∀ (us : List String) (s : Store),
    (s.enqueueAll A us).auth = s.auth
  | [], _ => rfl
  | u :: us, s => enqueueAll_auth A us (s.enqueueErasure ⟨u, A⟩)

/-- Every user of the list has an erasure enqueued. -/
theorem enqueueAll_mem : ∀ (us : List String) {s : Store},
    (u ∈ us ∨ (⟨u, A⟩ : EraseJob) ∈ s.eraseJobs) → ⟨u, A⟩ ∈ (s.enqueueAll A us).eraseJobs
  | [], _, h => h.resolve_left List.not_mem_nil
  | v :: us, s, h => by
      refine enqueueAll_mem us (s := s.enqueueErasure ⟨v, A⟩) ?_
      rcases h with hmem | hjob
      · rcases List.mem_cons.mp hmem with rfl | hmem
        · exact Or.inr List.mem_cons_self
        · exact Or.inl hmem
      · exact Or.inr (List.mem_cons_of_mem _ hjob)

theorem erase_eraseJobs (job : EraseJob) : (s.erase cfg job).eraseJobs = s.eraseJobs := by
  unfold Store.erase
  cases cfg.mayUpdateAuditLogs <;> rfl

theorem erase_offboarded (job : EraseJob) : (s.erase cfg job).offboarded = s.offboarded := by
  unfold Store.erase
  cases cfg.mayUpdateAuditLogs <;> rfl

theorem erase_now (job : EraseJob) : (s.erase cfg job).now = s.now := by
  unfold Store.erase
  cases cfg.mayUpdateAuditLogs <;> rfl

theorem erase_erased (job : EraseJob) : (s.erase cfg job).erased = job :: s.erased := by
  unfold Store.erase
  cases cfg.mayUpdateAuditLogs <;> rfl

theorem erase_profiles (job : EraseJob) : (s.erase cfg job).profiles
    = Function.update s.profiles job.userId ((s.profiles job.userId).erase job.userId s.now) := by
  unfold Store.erase
  cases cfg.mayUpdateAuditLogs <;> rfl

theorem erase_tokens (job : EraseJob) : (s.erase cfg job).auth.refreshTokens
    = (s.auth.revokeAllUserTokens job.userId).refreshTokens := by
  unfold Store.erase
  cases cfg.mayUpdateAuditLogs <;> rfl

theorem erase_authProviders (job : EraseJob) : (s.erase cfg job).authProviders
    = s.authProviders.filter (·.userId ≠ job.userId) := by
  unfold Store.erase
  cases cfg.mayUpdateAuditLogs <;> rfl

theorem erase_auditLogs (hmay : cfg.mayUpdateAuditLogs = true) (job : EraseJob) :
    (s.erase cfg job).auditLogs
      = erasedEvent job.userId :: s.auditLogs.map (.anonymise job.userId) := by
  unfold Store.erase
  rw [hmay]
  rfl

/-- What an erasure has done to its user, at `t` or later. -/
structure Wiped (cfg : Config) (u : String) (t : ℕ) (s : Store) : Prop where
  now : t ≤ s.now
  profile : ∃ at', (s.profiles u).deletedAt = some at' ∧ t ≤ at'
  tokens : ∀ r ∈ s.auth.refreshTokens.rows, r.userId = u → r.isRevoked = true
  providers : ∀ r ∈ s.authProviders, r.userId ≠ u
  auditLogs : cfg.mayUpdateAuditLogs = true → ∀ r ∈ s.auditLogs, r.actorId ≠ some u

/-- The erasure leaves nothing of the account. -/
theorem wiped_erase {t : ℕ} (ht : t ≤ s.now) (o : String) : Wiped cfg u t (s.erase cfg ⟨u, o⟩) where
  now := (erase_now (s := s) ⟨u, o⟩).symm ▸ ht
  profile := by
    refine ⟨s.now, ?_, ht⟩
    rw [erase_profiles, Function.update_self]
    rfl
  tokens := by
    intro r hr huser
    rw [erase_tokens] at hr
    obtain ⟨r₀, -, rfl⟩ := List.mem_map.mp hr
    obtain rfl : r₀.userId = u := huser
    show (r₀.isRevoked || decide (r₀.userId = r₀.userId ∧ r₀.isRevoked = false)) = true
    cases r₀.isRevoked with
    | false => exact decide_eq_true ⟨rfl, rfl⟩
    | true => rfl
  providers := by
    intro r hr
    rw [erase_authProviders] at hr
    exact of_decide_eq_true (List.mem_filter.mp hr).2
  auditLogs := by
    intro hmay r hr hactor
    rw [erase_auditLogs hmay] at hr
    rcases List.mem_cons.mp hr with rfl | hr
    · cases hactor
    · obtain ⟨r₀, -, rfl⟩ := List.mem_map.mp hr
      unfold AuditLogRow.anonymise at hactor
      split at hactor
      · cases hactor
      · rename_i hne
        exact hne hactor

/-- Later erasures leave it so. -/
theorem Wiped.erase {t : ℕ} (h : Wiped cfg u t s) (job : EraseJob) :
    Wiped cfg u t (s.erase cfg job) where
  now := (erase_now (s := s) job).symm ▸ h.now
  profile := by
    rw [erase_profiles]
    by_cases hu : u = job.userId
    · subst hu
      rw [Function.update_self]
      exact ⟨s.now, rfl, h.now⟩
    · rw [Function.update_of_ne hu]
      exact h.profile
  tokens := by
    intro r hr huser
    rw [erase_tokens] at hr
    obtain ⟨r₀, hr₀, rfl⟩ := List.mem_map.mp hr
    have hrevoked := h.tokens r₀ hr₀ huser
    unfold RefreshTokenRow.revokeIf
    rw [hrevoked]
    rfl
  providers := by
    intro r hr
    rw [erase_authProviders] at hr
    exact h.providers r (List.mem_filter.mp hr).1
  auditLogs := by
    intro hmay r hr hactor
    rw [erase_auditLogs hmay] at hr
    rcases List.mem_cons.mp hr with rfl | hr
    · cases hactor
    · obtain ⟨r₀, hr₀, rfl⟩ := List.mem_map.mp hr
      unfold AuditLogRow.anonymise at hactor
      split at hactor
      · cases hactor
      · exact h.auditLogs hmay r₀ hr₀ hactor

/-- All the listed jobs are over, and their users wiped. -/
theorem wiped_foldl {t : ℕ} {o : String} : ∀ (l : List EraseJob) {s : Store}, t ≤ s.now →
    (⟨u, o⟩ ∈ l ∨ Wiped cfg u t s) → Wiped cfg u t (l.foldl (Store.erase cfg) s)
  | [], _, _, h => h.resolve_left List.not_mem_nil
  | job :: l, s, ht, h => by
      refine wiped_foldl (o := o) l ((erase_now job).symm ▸ ht) ?_
      rcases h with hmem | hwiped
      · rcases List.mem_cons.mp hmem with rfl | hmem
        · exact Or.inr (wiped_erase ht o)
        · exact Or.inl hmem
      · exact Or.inr (hwiped.erase job)

/-- Every job of the list is done. -/
theorem erased_foldl {job : EraseJob} : ∀ (l : List EraseJob) {s : Store},
    (job ∈ l ∨ job ∈ s.erased) → job ∈ (l.foldl (Store.erase cfg) s).erased
  | [], _, h => h.resolve_left List.not_mem_nil
  | job' :: l, s, h => by
      refine erased_foldl l ?_
      rw [erase_erased]
      rcases h with hmem | hdone
      · rcases List.mem_cons.mp hmem with rfl | hmem
        · exact Or.inr List.mem_cons_self
        · exact Or.inl hmem
      · exact Or.inr (List.mem_cons_of_mem _ hdone)

variable (cfg) in
theorem queues_foldl : ∀ (l : List EraseJob) {s : Store},
    (l.foldl (Store.erase cfg) s).eraseJobs = s.eraseJobs
      ∧ (l.foldl (Store.erase cfg) s).offboarded = s.offboarded
  | [], _ => ⟨rfl, rfl⟩
  | job :: l, s => by
      obtain ⟨hjobs, hdone⟩ := queues_foldl l (s := s.erase cfg job)
      exact ⟨hjobs.trans (erase_eraseJobs job), hdone.trans (erase_offboarded job)⟩

variable (cfg) in
/-- A worker by itself. -/
theorem erase_alone {job : EraseJob} (hjob : job ∈ s.eraseJobs) :
    (gdprMachine cfg).Alone (s, .erasureWorker .idle) (s.erase cfg job, .erasureWorker .idle) := by
  have hnext : ∀ {s s' : Store} (pc : ErasePc) {pc' : ErasePc} {x : Store × Call},
      eraseNext cfg s (given "" job) pc = some (s', pc') →
      (gdprMachine cfg).Alone x (s, .erasureWorker pc) →
      (gdprMachine cfg).Alone x (s', .erasureWorker pc') :=
    fun _ _ _ h halone => halone.next (congrArg (Option.map _) h)
  have htake : eraseNext cfg s (given "" job) .idle = some (s, .anonymise job) := if_pos hjob
  refine hnext (.audit job) rfl (hnext (.authProviders job) rfl
    (hnext (.auditLogs job) ?_ (hnext (.delCache job) rfl
    (hnext (.revoke job) rfl (hnext (.anonymise job) rfl (hnext _ htake (.refl _)))))))
  unfold eraseNext
  cases cfg.mayUpdateAuditLogs <;> rfl

variable (cfg) in
/-- The job of an offboarding, run by itself. -/
theorem offboard_alone (hjob : A ∈ s.offboardJobs) (hstatus : s.status A = some .offboarding) :
    (gdprMachine cfg).Alone (s, .offboardingWorker .idle)
      (s.offboard A, .offboardingWorker .idle) := by
  have hnext : ∀ {s s' : Store} (pc : OffboardPc) {pc' : OffboardPc} {x : Store × Call},
      offboardNext s (given A ⟨"", ""⟩) pc = some (s', pc') →
      (gdprMachine cfg).Alone x (s, .offboardingWorker pc) →
      (gdprMachine cfg).Alone x (s', .offboardingWorker pc') :=
    fun _ _ _ h halone => halone.next (congrArg (Option.map _) h)
  have henqueue : ∀ (us : List String) {s : Store} {x : Store × Call},
      (gdprMachine cfg).Alone x (s, .offboardingWorker (.enqueue A us)) →
      (gdprMachine cfg).Alone x (s.enqueueAll A us, .offboardingWorker (.enqueue A [])) := by
    intro us
    induction us with
    | nil => exact fun h => h
    | cons u us ih => exact fun h => ih (hnext (.enqueue A (u :: us)) rfl h)
  have hdelete : ∀ (tables : List ContentTable) {now : ℕ} {s : Store} {x : Store × Call},
      (gdprMachine cfg).Alone x (s, .offboardingWorker (.softDelete A tables now)) →
      (gdprMachine cfg).Alone x
        (s.softDeleteAll A now tables, .offboardingWorker (.softDelete A [] now)) := by
    intro tables now
    induction tables with
    | nil => exact fun h => h
    | cons table tables ih =>
      exact fun h => ih (hnext (.softDelete A (table :: tables) now) rfl h)
  have htake : offboardNext s (given A ⟨"", ""⟩) .idle = some (s, .select A) := if_pos hjob
  have hcheck : offboardNext s (given A ⟨"", ""⟩) (.select A) = some (s, .members A) := by
    obtain ⟨org, horg, hoff⟩ := Option.map_eq_some_iff.mp hstatus
    have hany : (s.organizations A).any (·.status = .offboarding) = true := by
      rw [horg, Option.any_some, hoff]
      rfl
    exact congrArg some (if_pos hany)
  have hmembers : offboardNext s (given A ⟨"", ""⟩) (.members A)
      = some (s, .enqueue A (s.activeMembers A)) := rfl
  have hjobs := henqueue (s.activeMembers A) (hnext _ hmembers (hnext _ hcheck (hnext _ htake (.refl _))))
  have hcontent := hdelete contentTables (hnext (.enqueue A []) rfl hjobs)
  have hnow : (s.enqueueAll A (s.activeMembers A)).now = s.now :=
    congrArg (·.now) (enqueueAll_auth A _ s)
  rw [hnow] at hcontent
  exact hnext (.audit A) rfl (hnext (.delete A s.now) rfl
    (hnext (.softDelete A [] s.now) rfl hcontent))

/-- The erasures of the listed jobs, one after the other, in a pool with an idle worker. -/
theorem eraseAll_run : ∀ (l : List EraseJob) {p : Calls (ℕ ⊕ ℕ)},
    p.calls (.inr 0) = .up (.erasureWorker .idle) → (∀ job ∈ l, job ∈ p.store.eraseJobs) →
    Run (Pool.step (gdprMachine cfg)) OnlyTime p ⟨l.foldl (Store.erase cfg) p.store, p.calls⟩
  | [], _, _, _ => .refl
  | job :: l, p, hidle, hl => by
      have hfirst := (erase_alone cfg (hl job List.mem_cons_self)).run (G := OnlyTime)
        hidle fun _ _ => trivial
      rw [← hidle, Function.update_eq_self] at hfirst
      refine hfirst.trans (eraseAll_run l hidle fun job' hjob' => ?_)
      rw [erase_eraseJobs]
      exact hl job' (List.mem_cons_of_mem _ hjob')

theorem softDeleteAll_eraseJobs (A : String) (now : ℕ) : ∀ (tables : List ContentTable) (s : Store),
    (s.softDeleteAll A now tables).eraseJobs = s.eraseJobs
  | [], _ => rfl
  | table :: tables, s => softDeleteAll_eraseJobs A now tables (s.softDelete table A now)

theorem softDeleteAll_auth (A : String) (now : ℕ) : ∀ (tables : List ContentTable) (s : Store),
    (s.softDeleteAll A now tables).auth = s.auth
  | [], _ => rfl
  | table :: tables, s => softDeleteAll_auth A now tables (s.softDelete table A now)

theorem offboard_now : (s.offboard A).now = s.now := by
  have hauth : (s.offboard A).auth
      = ((s.enqueueAll A (s.activeMembers A)).softDeleteAll A s.now contentTables).auth := rfl
  unfold Store.now
  rw [hauth, softDeleteAll_auth, enqueueAll_auth]

theorem offboard_offboarded : A ∈ (s.offboard A).offboarded := List.mem_cons_self

theorem offboard_eraseJobs (hu : u ∈ s.activeMembers A) : ⟨u, A⟩ ∈ (s.offboard A).eraseJobs := by
  have hjobs : (s.offboard A).eraseJobs
      = ((s.enqueueAll A (s.activeMembers A)).softDeleteAll A s.now contentTables).eraseJobs := rfl
  rw [hjobs, softDeleteAll_eraseJobs]
  exact enqueueAll_mem (s.activeMembers A) (Or.inl hu)

theorem offboard_run {p : Calls (ℕ ⊕ ℕ)} (hidle : p.calls (.inl 0) = .up (.offboardingWorker .idle))
    (hjob : A ∈ p.store.offboardJobs) (hstatus : p.store.status A = some .offboarding) :
    Run (Pool.step (gdprMachine cfg)) OnlyTime p ⟨p.store.offboard A, p.calls⟩ := by
  have halone := (offboard_alone cfg hjob hstatus).run (G := OnlyTime) hidle
    fun _ _ => trivial
  rwa [← hidle, Function.update_eq_self] at halone

variable (cfg) in
/-- Where the job is over, the erasures it has enqueued can be brought to their end. -/
theorem complete_offboard {p : Calls (ℕ ⊕ ℕ)} {t : ℕ}
    (hidle : p.calls (.inr 0) = .up (.erasureWorker .idle)) (hdone : A ∈ p.store.offboarded)
    (hjob : ⟨u, A⟩ ∈ p.store.eraseJobs) (ht : t ≤ p.store.now) :
    ∃ q, Run (Pool.step (gdprMachine cfg)) OnlyTime p q ∧ Completed A q.store
      ∧ Wiped cfg u t q.store := by
  obtain ⟨hjobs, hoffboarded⟩ := queues_foldl cfg p.store.eraseJobs (s := p.store)
  refine ⟨_, eraseAll_run p.store.eraseJobs hidle fun _ h => h, ⟨?_, ?_⟩,
    wiped_foldl _ ht (Or.inl hjob)⟩
  · rw [hoffboarded]
    exact hdone
  · rw [hjobs]
    exact fun job hmem => erased_foldl _ (Or.inl hmem)

variable (cfg) in
/-- **A run to completion** that wipes every member after `t`, where the organisation is
offboarding. -/
theorem complete_run (s : Store) (hstatus : s.status A = some .offboarding) (t : ℕ)
    (hu : u ∈ s.activeMembers A) :
    ∃ q, Run (Pool.step (gdprMachine cfg)) OnlyTime (launch s A) q ∧ Completed A q.store
      ∧ Wiped cfg u t q.store := by
  have htick : Run (Pool.step (gdprMachine cfg)) OnlyTime (launch s A)
      ⟨env (launch s A).store (.auth (.tick t)), (launch s A).calls⟩ :=
    .tail .refl (show OnlyTime _ (.env (.auth (.tick t))) from ⟨t, rfl⟩) rfl
  have hoff := htick.trans (offboard_run rfl (A := A) List.mem_cons_self hstatus)
  obtain ⟨q, hq, hdone, hwiped⟩ := complete_offboard cfg (A := A) (u := u) (t := t)
    (p := ⟨(env (launch s A).store (.auth (.tick t))).offboard A, (launch s A).calls⟩) rfl
    offboard_offboarded (offboard_eraseJobs hu)
    (offboard_now.symm ▸ Nat.le_add_left t (launch s A).store.now)
  exact ⟨q, hoff.trans hq, hdone, hwiped⟩

end Complete

/-! ## The result -/

/-- **The offboarding stays in the organisation** exactly where its members are separate. -/
theorem contained_iff (cfg : Config) (db : Database) (A : String) :
    ContainedRuns cfg db.toStore A ↔
      (db.status A = some .offboarding →
        ∀ u ∈ db.activeMembers A, Separate cfg db.toStore A u) := by
  constructor
  · intro hclaim hstatus u hu
    -- a run that starts after the user was deleted, if ever
    have hrun : ∃ s' t, (∀ t₀ ∈ (db.profiles u).deletedAt, t₀ < t) ∧ Contained A db.toStore s'
        ∧ Wiped cfg u t s' := by
      obtain ⟨q, hq, hdone, hwiped⟩ := complete_run cfg db.toStore hstatus
        ((db.profiles u).deletedAt.getD 0 + 1) hu
      refine ⟨q.store, _, fun t₀ ht₀ => ?_, hclaim q hq hdone, hwiped⟩
      rw [Option.mem_def.mp ht₀]
      exact Nat.lt_succ_self _
    obtain ⟨s', t, ht, hcontained, hwiped⟩ := hrun
    refine ⟨fun helsewhere => ?_, fun r hr huser hlive hforeign => ?_,
      fun r hr huser hforeign => ?_, fun hmay r hr hactor hforeign => ?_⟩
    · have hsame := hcontained.users u helsewhere
      obtain ⟨m, hm, rfl⟩ := List.mem_map.mp hu
      obtain ⟨row, hrow⟩ := Option.isSome_iff_exists.mp
        (db.members_user m (List.mem_filter.mp hm).1)
      unfold Store.user at hsame
      rw [hrow, Option.map_some] at hsame
      obtain ⟨row', -, heq⟩ := Option.map_eq_some_iff.mp hsame
      obtain ⟨at', hat, hle⟩ := hwiped.profile
      rw [(Prod.mk.inj heq).2] at hat
      exact absurd (ht at' hat) (Nat.not_lt.mpr hle)
    · have hrevoked := hwiped.tokens r (hcontained.refreshTokens r hr (Or.inr hforeign)) huser
      rw [hlive] at hrevoked
      cases hrevoked
    · exact hwiped.providers r (hcontained.authProviders r hr (Or.inr hforeign)) huser
    · exact hwiped.auditLogs hmay r (hcontained.auditLogs r hr hforeign) hactor
  · intro hsep q hrun _
    exact (confined_run hsep hrun).store.contained

/-! ## A member of two organisations -/

/-- `A` is offboarding, and `u` is an active member of `B` too. -/
def twoOrganisations : Database where
  toStore := { demoStore with
    organizations := fun orgId =>
      if orgId = "A" then some (demoOrg.offboard 0) else if orgId = "B" then some demoOrg else none
    memberships := [⟨⟨"u", "A", .member, .active⟩, false⟩, ⟨⟨"u", "B", .member, .active⟩, false⟩] }
  members_user := by decide

/-- **The account of a member of `B` is erased.** -/
theorem not_contained : ¬ ContainedRuns demoConfig twoOrganisations.toStore "A" := by
  intro hclaim
  obtain ⟨q, hq, hdone, hwiped⟩ := complete_run demoConfig (A := "A") (u := "u")
    twoOrganisations.toStore rfl 0 (by decide)
  have hsame : q.store.user "u" = some (Auth.demoUser, demoProfile) :=
    (hclaim q hq hdone).users "u" ⟨"B", by decide, by decide, by decide⟩
  obtain ⟨row, -, heq⟩ := Option.map_eq_some_iff.mp hsame
  obtain ⟨t, ht, -⟩ := hwiped.profile
  rw [(Prod.mk.inj heq).2] at ht
  cases ht

end WorkPlatform.Gdpr

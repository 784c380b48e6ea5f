import WorkPlatform.Gdpr.Jobs

/-!
# Gdpr/WaitingPeriod — how long an organisation is offboarding before it is deleted

    startOffboarding   active, suspended ▸ offboarding,  nothing enqueued
    the route          any status        ▸ offboarding,  the job enqueued without a delay
    the job            status = 'offboarding'?           the time is not looked at

So an organisation is deleted as soon as a worker is free (`deleted_at_once`).  The thirty days are
kept where no job finds an organisation in its first thirty days, and no request moves its status
while a job is on its way (`deleted_after_period`).
-/

namespace WorkPlatform.Gdpr

open Machinery

/-! ## What is lost for good -/

/-- 30 days. -/
def offboardingPeriod : ℕ := 30 * 24 * 60 * 60 * 1000

def Store.status (s : Store) (o : String) : Option Payment.OrgStatus :=
  (s.organizations o).map (·.status)

/-- What offboarding does to an organisation for good, from one state to the next: it is deleted,
rows of it are soft-deleted, or an erasure is enqueued for it. -/
inductive Lost (o : String) (s s' : Store) : Prop
  | deleted : s.status o ≠ some .deleted → s'.status o = some .deleted → Lost o s s'
  | content (r : ContentRow) : r.orgId = o → r ∉ s.content → r ∈ s'.content → Lost o s s'
  | erasure (job : EraseJob) : job.orgId = o → s'.eraseJobs = job :: s.eraseJobs → Lost o s s'

/-- The organisation is offboarding, or has been deleted after it, and thirty days have passed since
the start. -/
def Waited (s : Store) (o : String) : Prop :=
  ∃ org ∈ s.organizations o, (org.status = .offboarding ∨ org.status = .deleted)
    ∧ ∃ t ∈ org.offboardingStartedAt, t + offboardingPeriod ≤ s.now

/-! ## Calls -/

/-- The organisation on which the job goes on to its writes. -/
def OffboardPc.pastCheck : OffboardPc → Option String
  | .members o | .enqueue o _ | .softDelete o _ _ | .delete o _ => some o
  | _ => none

def Call.pastCheck : Call → Option String
  | .offboardingWorker pc => pc.pastCheck
  | _ => none

/-- The organisation whose status a job is about to check. -/
def Call.checks : Call → Option String
  | .offboardingWorker (.select o) => some o
  | _ => none

/-- The organisation whose status a request is about to write. -/
def Call.moves : Call → Option String
  | .transition _ o (.update _) | .offboard o (.update _) => some o
  | _ => none

/-- A request that has not run a statement yet, or a worker of one of the jobs. -/
def Call.opens : Call → Bool
  | .transition _ _ .find | .offboard _ .select | .offboardingWorker .idle
  | .erasureWorker .idle => true
  | _ => false

def Call.isAuth : Call → Bool
  | .auth _ => true
  | _ => false

/-! ## Statements -/

section Steps

variable {cfg : Config} {s s' : Store} {c c' : Call} {d : Draw} {o : String}

theorem updateOrg_of_ne {o' : String} {f : OrgRow → OrgRow} (h : o ≠ o') :
    (s.updateOrg o' f).organizations o = s.organizations o := Function.update_of_ne h ..

theorem updateOrg_self {f : OrgRow → OrgRow} :
    (s.updateOrg o f).organizations o = (s.organizations o).map f := Function.update_self ..

theorem Waited.congr (h : Waited s o) (horg : s'.organizations o = s.organizations o)
    (hnow : s.now ≤ s'.now) : Waited s' o := by
  obtain ⟨org, hsome, hstatus, t, hstart, hle⟩ := h
  exact ⟨org, horg.trans hsome, hstatus, t, hstart, hle.trans hnow⟩

theorem Waited.delete (h : Waited s o) (o' : String) : Waited (s.updateOrg o' .delete) o := by
  by_cases ho : o = o'
  · subst ho
    obtain ⟨org, hsome, -, hstart⟩ := h
    refine ⟨org.delete, ?_, Or.inr rfl, hstart⟩
    rw [updateOrg_self, hsome]
    rfl
  · exact h.congr (updateOrg_of_ne ho) le_rfl

/-- The UPDATE of the payment webhook is for suspended organisations. -/
theorem Waited.reactivate (h : Waited s o) (o' : String) :
    Waited (env s (.reactivateSuspended o')) o := by
  by_cases ho : o = o'
  · subst ho
    obtain ⟨org, hsome, hstatus, hstart⟩ := h
    have hsusp : org.status ≠ .suspended := by
      rcases hstatus with hst | hst
      · rw [hst]
        exact nofun
      · rw [hst]
        exact nofun
    refine ⟨org, ?_, hstatus, hstart⟩
    show (s.updateOrg o _).organizations o = _
    rw [updateOrg_self, hsome, Option.map_some, Payment.OrgRow.reactivate, if_neg hsusp]
  · exact h.congr (updateOrg_of_ne ho) le_rfl

/-- **Waiting is kept** by every statement but the requests that move the status. -/
theorem Waited.next (h : Waited s o) (hn : next cfg s c d = some (s', c'))
    (hauth : c.isAuth = false) (hmoves : c.moves ≠ some o) : Waited s' o := by
  cases c with
  | transition service o' pc =>
    obtain ⟨pc', hpc, -⟩ := pc_of_next hn
    cases pc with
    | update now =>
      obtain ⟨rfl, -⟩ := Prod.mk.inj (Option.some.inj hpc)
      exact h.congr (updateOrg_of_ne fun ho => hmoves (congrArg some ho.symm)) le_rfl
    | returned | threw e => cases hpc
    | _ =>
      obtain ⟨rfl, -⟩ := Prod.mk.inj (Option.some.inj hpc)
      exact h
  | offboard o' pc =>
    obtain ⟨pc', hpc, -⟩ := pc_of_next hn
    cases pc with
    | update v =>
      obtain ⟨rfl, -⟩ := Prod.mk.inj (Option.some.inj hpc)
      exact h.congr (updateOrg_of_ne fun ho => hmoves (congrArg some ho.symm)) le_rfl
    | accepted | threw e => cases hpc
    | _ =>
      obtain ⟨rfl, -⟩ := Prod.mk.inj (Option.some.inj hpc)
      exact h
  | offboardingWorker pc =>
    obtain ⟨pc', hpc, -⟩ := pc_of_next hn
    cases offboardStep_of_next hpc with
    | delete _ => exact h.delete _
    | _ => exact h
  | erasureWorker pc =>
    obtain ⟨pc', hpc, -⟩ := pc_of_next hn
    cases eraseStep_of_next hpc <;> exact h
  | auth c => cases hauth

/-- Only the check leads to the writes. -/
theorem pastCheck_next (hn : next cfg s c d = some (s', c')) (hpast : c'.pastCheck = some o) :
    c.pastCheck = some o
      ∨ c.checks = some o ∧ s.status o = some .offboarding := by
  cases c with
  | offboardingWorker pc =>
    obtain ⟨pc', hpc, rfl⟩ := pc_of_next hn
    cases offboardStep_of_next hpc with
    | check horg hstatus =>
      cases hpast
      refine Or.inr ⟨rfl, ?_⟩
      unfold Store.status
      rw [horg, Option.map_some, hstatus]
    | take _ | refuse | audit | complete | fail => cases hpast
    | members | enqueued | softDeleted => exact Or.inl hpast
    | enqueue hpc' | softDelete hpc' | delete hpc' =>
      rcases hpc' with rfl | rfl
      · first | exact Or.inl hpast | cases hpast
      · cases hpast
  | auth c =>
    obtain ⟨a, c', -, -, rfl⟩ := auth_of_next hn
    cases hpast
  | _ =>
    obtain ⟨pc', -, rfl⟩ := pc_of_next hn
    cases hpast

theorem isAuth_next (hn : next cfg s c d = some (s', c')) (h : c.isAuth = false) :
    c'.isAuth = false := by
  cases c with
  | auth c => cases h
  | _ =>
    obtain ⟨pc', -, rfl⟩ := pc_of_next hn
    rfl

/-- A row that is new in the content is of the organisation that was soft-deleted. -/
theorem softDelete_mem {table : ContentTable} {o' : String} {now : ℕ} {r : ContentRow}
    (hnew : r ∉ s.content) (hr : r ∈ (s.softDelete table o' now).content) : r.orgId = o' := by
  obtain ⟨r₀, hr₀, rfl⟩ := List.mem_map.mp hr
  unfold ContentRow.softDelete at hnew ⊢
  split
  · rename_i hwhere
    exact hwhere.2.1
  · rename_i hwhere
    rw [if_neg hwhere] at hnew
    exact absurd hr₀ hnew

/-- No service deletes. -/
theorem transition_status {service : Service} {now : ℕ} {org : OrgRow}
    (h : (org.transition service.transition now).status = .deleted) : org.status = .deleted := by
  unfold OrgRow.transition at h
  split at h
  · exact h
  · cases service <;> cases h

/-- What leaves the three as they were loses no organisation. -/
theorem not_lost_of_same (horg : s'.organizations = s.organizations)
    (hcontent : s'.content = s.content) (hjobs : s'.eraseJobs = s.eraseJobs) : ¬ Lost o s s' := by
  rintro (⟨hne, heq⟩ | ⟨r, -, hnew, hr⟩ | ⟨job, -, hcons⟩)
  · unfold Store.status at hne heq
    rw [horg] at heq
    exact hne heq
  · rw [hcontent] at hr
    exact hnew hr
  · rw [hjobs] at hcons
    exact List.cons_ne_self _ _ hcons.symm

/-- An update that newly deletes no organisation loses none. -/
theorem not_lost_of_updateOrg {o' : String} {f : OrgRow → OrgRow}
    (hf : ∀ org, (f org).status = .deleted → org.status = .deleted) :
    ¬ Lost o s (s.updateOrg o' f) := by
  rintro (⟨hne, heq⟩ | ⟨r, -, hnew, hr⟩ | ⟨job, -, hcons⟩)
  · unfold Store.status at hne heq
    by_cases ho : o = o'
    · subst ho
      rw [updateOrg_self, Option.map_map] at heq
      obtain ⟨org, horg, hstatus⟩ := Option.map_eq_some_iff.mp heq
      refine hne ?_
      rw [horg, Option.map_some, hf org hstatus]
    · rw [updateOrg_of_ne ho] at heq
      exact hne heq
  · exact hnew hr
  · exact List.cons_ne_self _ _ hcons.symm

/-- **What is lost is lost by a job past its check.** -/
theorem lost_next (hn : next cfg s c d = some (s', c')) (hauth : c.isAuth = false)
    (h : Lost o s s') : c.pastCheck = some o := by
  cases c with
  | auth c => cases hauth
  | transition service o' pc =>
    obtain ⟨pc', hpc, -⟩ := pc_of_next hn
    cases pc with
    | update now =>
      obtain ⟨rfl, -⟩ := Prod.mk.inj (Option.some.inj hpc)
      exact absurd h (not_lost_of_updateOrg fun _ => transition_status)
    | returned | threw e => cases hpc
    | _ =>
      obtain ⟨rfl, -⟩ := Prod.mk.inj (Option.some.inj hpc)
      exact absurd h (not_lost_of_same rfl rfl rfl)
  | offboard o' pc =>
    obtain ⟨pc', hpc, -⟩ := pc_of_next hn
    cases pc with
    | update v =>
      obtain ⟨rfl, -⟩ := Prod.mk.inj (Option.some.inj hpc)
      exact absurd h (not_lost_of_updateOrg fun _ => nofun)
    | accepted | threw e => cases hpc
    | _ =>
      obtain ⟨rfl, -⟩ := Prod.mk.inj (Option.some.inj hpc)
      exact absurd h (not_lost_of_same rfl rfl rfl)
  | offboardingWorker pc =>
    obtain ⟨pc', hpc, -⟩ := pc_of_next hn
    cases offboardStep_of_next hpc with
    | @delete o' now pc' _ =>
      rcases h with ⟨hne, heq⟩ | ⟨r, -, hnew, hr⟩ | ⟨job, -, hjobs⟩
      · by_cases ho : o = o'
        · exact congrArg some ho.symm
        · unfold Store.status at hne heq
          rw [updateOrg_of_ne ho] at heq
          exact absurd heq hne
      · exact absurd hr hnew
      · exact absurd hjobs (List.cons_ne_self _ _).symm
    | softDelete _ =>
      rcases h with ⟨hne, heq⟩ | ⟨r, ho, hnew, hr⟩ | ⟨job, -, hjobs⟩
      · exact absurd heq hne
      · exact congrArg some ((softDelete_mem hnew hr).symm.trans ho)
      · exact absurd hjobs (List.cons_ne_self _ _).symm
    | enqueue _ =>
      rcases h with ⟨hne, heq⟩ | ⟨r, -, hnew, hr⟩ | ⟨job, ho, hjobs⟩
      · exact absurd heq hne
      · exact absurd hr hnew
      · rw [← (List.cons.inj hjobs).1] at ho
        exact congrArg some ho
    | _ => exact absurd h (not_lost_of_same rfl rfl rfl)
  | erasureWorker pc =>
    obtain ⟨pc', hpc, -⟩ := pc_of_next hn
    cases eraseStep_of_next hpc <;> exact absurd h (not_lost_of_same rfl rfl rfl)

/-- Who has waited has waited later too. -/
theorem Waited.env (h : Waited s o) (e : Env) : Waited (env s e) o := by
  cases e with
  | auth e =>
    refine h.congr rfl ?_
    cases e with
    | tick ms => exact Nat.le_add_right _ _
    | _ => exact le_rfl
  | replicate => exact h
  | reactivateSuspended o' => exact h.reactivate o'

/-- The surroundings lose no organisation. -/
theorem not_lost_env (e : Env) : ¬ Lost o s (env s e) := by
  cases e with
  | reactivateSuspended o' =>
    refine not_lost_of_updateOrg fun org hdeleted => ?_
    dsimp only at hdeleted
    unfold Payment.OrgRow.reactivate at hdeleted
    split at hdeleted
    · cases hdeleted
    · exact hdeleted
  | _ => exact not_lost_of_same rfl rfl rfl

end Steps

/-! ## Runs -/

section Runs

variable {ι : Type*} {cfg : Config}

/-- **No job comes early, and no request comes in between**: a job that checks an organisation which
is offboarding finds it thirty days into it, and no request writes the status of an organisation
while a job is on its way past the check. -/
def Patient (p : Calls ι) : Move ι Draw Env → Prop
  | .run i _ => (p.calls i).Keeps fun c =>
      (∀ o ∈ c.checks, p.store.status o = some .offboarding → Waited p.store o)
        ∧ ∀ o ∈ c.moves, ∀ j, ¬ (p.calls j).Live fun c' => c'.pastCheck = some o
  | _ => True

/-- The organisation a job is working on has waited. -/
structure Call.Timely (s : Store) (c : Call) : Prop where
  request : c.isAuth = false
  waited : ∀ o, c.pastCheck = some o → Waited s o

theorem timely_of_opens {s : Store} {c : Call} (h : c.opens = true) : c.Timely s := by
  unfold Call.opens at h
  split at h
  · exact ⟨rfl, nofun⟩
  · exact ⟨rfl, nofun⟩
  · exact ⟨rfl, nofun⟩
  · exact ⟨rfl, nofun⟩
  · cases h

variable [DecidableEq ι]

/-- A worker is at work only for who has waited, in every state of such a run. -/
theorem timely_run {p q : Calls ι} (hstart : ∀ i, (p.calls i).Live fun c => c.opens = true)
    (hrun : Run (Pool.step (gdprMachine cfg)) Patient p q) :
    ∀ i, (q.calls i).Keeps (Call.Timely q.store) := by
  refine Pool.invariant (I := fun p : Calls ι => ∀ i, (p.calls i).Keeps (Call.Timely p.store))
    ?_ ?_ ?_ ?_ hrun
  · intro i
    obtain ⟨c, hc, hopens⟩ := (hstart i).exists
    rw [hc]
    exact timely_of_opens hopens
  · intro p i d c s' c' hI hG hc hn
    have hself := (hI i).of_up hc
    obtain ⟨hchecks, hmoves⟩ := Proc.Keeps.of_up hG hc
    refine keeps_update_up ⟨isAuth_next hn hself.request, fun o ho => ?_⟩ fun j hj => ?_
    · rcases pastCheck_next hn ho with hpast | ⟨hcheck, hstatus⟩
      · refine (hself.waited o hpast).next hn hself.request ?_
        rintro hmove
        refine hmoves o hmove i ?_
        rw [hc]
        exact hpast
      · refine (hchecks o hcheck hstatus).next hn hself.request ?_
        intro hmove
        cases c with
        | offboardingWorker pc => cases hmove
        | _ => cases hcheck
    · cases hcj : p.calls j with
      | down k => trivial
      | up k =>
        have hother := (hI j).of_up hcj
        refine ⟨hother.request, fun o ho => ?_⟩
        refine (hother.waited o ho).next hn hself.request fun hmove => ?_
        refine hmoves o hmove j ?_
        rw [hcj]
        exact ho
  · intro p i c hI _ hc
    exact keeps_update_down hI
  · intro p e hI _ i
    exact (hI i).imp fun c hc => ⟨hc.request, fun o ho => (hc.waited o ho).env e⟩

/-- **An organisation is lost after thirty days**, in every run in which no job comes early and no
request comes in between. -/
theorem deleted_after_period {p q q' : Calls ι} {m : Move ι Draw Env}
    (hstart : ∀ i, (p.calls i).Live fun c => c.opens = true)
    (hrun : Run (Pool.step (gdprMachine cfg)) Patient p q)
    (hstep : q.step (gdprMachine cfg) m = some q') {o : String} (hlost : Lost o q.store q'.store) :
    Waited q.store o := by
  have htimely := timely_run hstart hrun
  cases m with
  | run i d =>
    obtain ⟨c, s', c', hc, hn, rfl⟩ := Pool.step_run hstep
    have hself := (htimely i).of_up hc
    exact hself.waited o (lost_next hn hself.request hlost)
  | crash i =>
    obtain ⟨c, -, rfl⟩ := Pool.step_crash hstep
    exact absurd hlost (not_lost_of_same rfl rfl rfl)
  | env e =>
    obtain rfl : (⟨(gdprMachine cfg).env q.store e, q.calls⟩ : Calls ι) = q' :=
      Option.some.inj hstep
    exact absurd hlost (not_lost_env e)

end Runs

/-! ## The route and a worker -/

instance (s : Store) (o : String) : Decidable (Waited s o) :=
  inferInstanceAs (Decidable (∃ org ∈ s.organizations o, _ ∧ ∃ t ∈ org.offboardingStartedAt, _))

instance (p : Calls (Fin 2)) : ∀ m, Decidable (Patient p m)
  | .run i _ => inferInstanceAs (Decidable ((p.calls i).Keeps fun c =>
      (∀ o ∈ c.checks, p.store.status o = some .offboarding → Waited p.store o)
        ∧ ∀ o ∈ c.moves, ∀ j, ¬ (p.calls j).Live fun c' => c'.pastCheck = some o))
  | .crash _ => inferInstanceAs (Decidable True)
  | .env _ => inferInstanceAs (Decidable True)

/-- The administrator offboards `A`, and a worker is idle. -/
def offboarding : Calls (Fin 2) :=
  ⟨demoStore, ![.up (.offboard "A" .select), .up (.offboardingWorker .idle)]⟩

/-- A statement of either. -/
def proceed (i : Fin 2) : Move (Fin 2) Draw Env := .run i demoDraw

/-- **The organisation is deleted at once**: the worker takes the job that the route has enqueued,
and finds the status it looks for. -/
theorem deleted_at_once :
    ¬ ∀ (q q' : Calls (Fin 2)) (m : Move (Fin 2) Draw Env) (o : String),
      Run (Pool.step (gdprMachine demoConfig)) anyStep offboarding q →
      q.step (gdprMachine demoConfig) m = some q' → Lost o q.store q'.store →
      Waited q.store o := by
  intro hclaim
  obtain ⟨q, q', hrun, -, hstep, hend⟩ := exists_step_of_exec
    (Pool.step (gdprMachine demoConfig)) anyStep offboarding
    (List.replicate 3 (proceed 0) ++ List.replicate 11 (proceed 1)) (proceed 1)
    (fun q q' : Calls (Fin 2) => q.store.status "A" = some .offboarding
      ∧ q'.store.status "A" = some .deleted ∧ ¬ Waited q.store "A") (by decide)
  obtain ⟨hbefore, hafter, hnot⟩ := of_decide_eq_true hend
  refine hnot (hclaim q q' _ "A" hrun hstep (.deleted ?_ hafter))
  rw [hbefore]
  exact nofun

/-- Thirty days lie between the request and the job. -/
theorem deleted_after_thirty_days :
    ∃ q q' : Calls (Fin 2), Run (Pool.step (gdprMachine demoConfig)) Patient offboarding q
      ∧ Lost "A" q.store q'.store ∧ Waited q.store "A" := by
  obtain ⟨q, q', hrun, -, hstep, hend⟩ := exists_step_of_exec
    (Pool.step (gdprMachine demoConfig)) Patient offboarding
    (List.replicate 3 (proceed 0) ++ [.env (.auth (.tick offboardingPeriod))]
      ++ List.replicate 11 (proceed 1)) (proceed 1)
    (fun q q' : Calls (Fin 2) => q.store.status "A" = some .offboarding
      ∧ q'.store.status "A" = some .deleted) (by decide)
  obtain ⟨hbefore, hafter⟩ := of_decide_eq_true hend
  have hlost : Lost "A" q.store q'.store := .deleted (by rw [hbefore]; exact nofun) hafter
  refine ⟨q, q', hrun, hlost, deleted_after_period ?_ hrun hstep hlost⟩
  intro i
  fin_cases i <;> rfl

end WorkPlatform.Gdpr

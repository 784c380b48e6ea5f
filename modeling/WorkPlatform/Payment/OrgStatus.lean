import WorkPlatform.Payment.Calls

/-!
# Payment/OrgStatus — the lifecycle of an organisation

    active ⇄ suspended ▸ offboarding ▸ deleted
    active ▸ offboarding

Every service reads the status, checks it, and writes in a later statement that does not look at it
again; the read of `findById` is from the replica on top.  So a status that has changed in between
is overwritten, a deleted organisation's included (`deleted_organisation_offboards_again`).

As long as every such UPDATE meets the status its call has validated (`Unmoved`), every change of
the column is an arrow of the diagram, and nothing leaves `deleted` (`status_change_legal`).
-/

namespace WorkPlatform.Payment

open Machinery

/-! ## What a statement writes in `organizations` -/

/-- `SET status = $1 … AND deleted_at IS NULL`, for one row. -/
def OrgRow.setStatus (status : OrgStatus) (org : OrgRow) : OrgRow :=
  if org.deleted then org else { org with status := status }

/-- `SET status = 'active', grace_period_ends_at = NULL … AND status = 'suspended'`, for one row. -/
def OrgRow.reactivate (org : OrgRow) : OrgRow :=
  if org.status = .suspended then { org with status := .active, gracePeriodEndsAt := none } else org

/-- `SET grace_period_ends_at = $1 … AND status = 'active'`, for one row. -/
def OrgRow.startGrace (endsAt : ℕ) (org : OrgRow) : OrgRow :=
  if org.status = .active then { org with gracePeriodEndsAt := some endsAt } else org

/-- An UPDATE of `organizations`: on which row, and to what. -/
abbrev OrgWrite := Option (String × (OrgRow → OrgRow))

/-- The UPDATE the three services are about to run. -/
def TransitionPc.write (t : Transition) (orgId : String) : TransitionPc → OrgWrite
  | .update _ => some (orgId, .setStatus t.target)
  | _ => none

/-- The UPDATE a call is about to run. -/
def Call.orgWrite (now : ℕ) : Call → OrgWrite
  | .verifyPayment orgId _ _ _ (.plan payment _) =>
    some (orgId, fun org => { org with planTier := payment.purchasedTier })
  | .webhook _ (.reactivate e) => some (e.orgId, OrgRow.reactivate)
  | .suspendOrg orgId pc => pc.write Payment.suspendOrg orgId
  | .reactivateOrg orgId pc => pc.write Payment.reactivateOrg orgId
  | .startOffboarding orgId pc => pc.write Payment.startOffboarding orgId
  | .handlePaymentFailure orgId .update => some (orgId, .startGrace (now + Store.gracePeriod))
  | .checkGracePeriod orgId (.suspend pc) => pc.write Payment.suspendOrg orgId
  | .offboard orgId (.update _) => some (orgId, fun org => { org with status := .offboarding })
  | .runOffboardingJob orgId .delete =>
    some (orgId, fun org => { org with status := .deleted, deleted := true })
  | _ => none

/-- The organisations after an UPDATE. -/
def written (orgs : String → Option OrgRow) : OrgWrite → String → Option OrgRow
  | none => orgs
  | some (orgId, f) => Function.update orgs orgId ((orgs orgId).map f)

theorem updateOrg_primary (s : Store) (orgId : String) (p : OrgRow → Bool) (f g : OrgRow → OrgRow)
    (h : ∀ org, (if p org then f org else org) = g org) :
    (s.updateOrg orgId p f).primary = written s.primary (some (orgId, g)) := by
  unfold Store.updateOrg written
  simp only [h]

theorem updateStatus_primary (s : Store) (orgId : String) (status : OrgStatus) :
    (s.updateStatus orgId status).primary
      = written s.primary (some (orgId, .setStatus status)) := by
  refine updateOrg_primary s orgId _ _ _ fun org => ?_
  unfold OrgRow.setStatus
  cases org.deleted <;> rfl

section Steps

variable {cfg : Config} {s s' : Store} {c c' : Call}

/-- What each statement of a transition writes to the organisation. -/
theorem transition_primary {t : Transition} {orgId : String} {pc pc' : TransitionPc}
    (h : transitionNext t s orgId pc = some (s', pc')) :
    s'.primary = written s.primary (pc.write t orgId) := by
  cases pc with
  | update v =>
    obtain ⟨rfl, -⟩ := Prod.mk.inj (Option.some.inj h)
    rw [TransitionPc.write, ← updateStatus_primary]
    split <;> rfl
  | returned | threw e => cases h
  | _ =>
    obtain ⟨rfl, -⟩ := Prod.mk.inj (Option.some.inj h)
    rfl

/-- What each statement of `verifyPayment` writes to an organisation. -/
theorem verify_primary {orgId orderId paymentId signature : String} {pc pc' : VerifyPc}
    (h : verifyNext cfg s orgId orderId paymentId signature pc = some (s', pc')) :
    s'.primary = written s.primary
      (Call.orgWrite s.now (.verifyPayment orgId orderId paymentId signature pc)) := by
  cases pc with
  | capture payment =>
    rw [verifyNext] at h
    split at h
    · obtain ⟨rfl, -⟩ := Prod.mk.inj (Option.some.inj h)
      rfl
    · split at h <;> (obtain ⟨rfl, -⟩ := Prod.mk.inj (Option.some.inj h); rfl)
  | subscribe payment updated =>
    obtain ⟨rfl, -⟩ := Prod.mk.inj (Option.some.inj h)
    unfold Store.upsertSubscription
    split <;> rfl
  | plan payment updated =>
    obtain ⟨rfl, -⟩ := Prod.mk.inj (Option.some.inj h)
    exact updateOrg_primary s orgId _ _ _ fun _ => rfl
  | returned _ | threw _ | failed => cases h
  | _ =>
    obtain ⟨rfl, -⟩ := Prod.mk.inj (Option.some.inj h)
    rfl

/-- What each statement of a webhook writes to an organisation. -/
theorem webhook_primary {event : WebhookEvent} {pc pc' : WebhookPc}
    (h : webhookNext cfg s event pc = some (s', pc')) :
    s'.primary = written s.primary (Call.orgWrite s.now (.webhook event pc)) := by
  cases pc with
  | capture id orderId payment =>
    rw [webhookNext] at h
    split at h <;> (obtain ⟨rfl, -⟩ := Prod.mk.inj (Option.some.inj h); rfl)
  | fail orderId payment =>
    rw [webhookNext] at h
    split at h <;> (obtain ⟨rfl, -⟩ := Prod.mk.inj (Option.some.inj h); rfl)
  | outbox e =>
    rw [webhookNext] at h
    split at h <;> (obtain ⟨rfl, -⟩ := Prod.mk.inj (Option.some.inj h); rfl)
  | reactivate e =>
    obtain ⟨rfl, -⟩ := Prod.mk.inj (Option.some.inj h)
    have hrow : (s.reactivateSuspended e.orgId).primary
        = written s.primary (some (e.orgId, OrgRow.reactivate)) :=
      updateOrg_primary s e.orgId _ _ _ fun org => by simp [OrgRow.reactivate]
    rw [Call.orgWrite, ← hrow]
    split <;> rfl
  | received | failed => cases h
  | _ =>
    obtain ⟨rfl, -⟩ := Prod.mk.inj (Option.some.inj h)
    rfl

/-- **One statement, seen from `organizations`.** -/
theorem primary_next (h : next cfg s c = some (s', c')) :
    s'.primary = written s.primary (c.orgWrite s.now) := by
  cases c with
  | verifyPayment orgId orderId paymentId signature pc =>
    obtain ⟨pc', hpc, -⟩ := pc_of_next h
    exact verify_primary hpc
  | webhook event pc =>
    obtain ⟨pc', hpc, -⟩ := pc_of_next h
    exact webhook_primary hpc
  | suspendOrg orgId pc | reactivateOrg orgId pc | startOffboarding orgId pc =>
    obtain ⟨pc', hpc, -⟩ := pc_of_next h
    exact transition_primary hpc
  | handlePaymentFailure orgId pc =>
    obtain ⟨pc', hpc, -⟩ := pc_of_next h
    cases pc with
    | update =>
      obtain ⟨rfl, -⟩ := Prod.mk.inj (Option.some.inj hpc)
      exact updateOrg_primary s orgId _ _ _ fun org => by simp [OrgRow.startGrace]
    | returned => cases hpc
    | _ =>
      obtain ⟨rfl, -⟩ := Prod.mk.inj (Option.some.inj hpc)
      rfl
  | checkGracePeriod orgId pc =>
    obtain ⟨pc', hpc, -⟩ := pc_of_next h
    cases pc with
    | find =>
      obtain ⟨rfl, -⟩ := Prod.mk.inj (Option.some.inj hpc)
      rfl
    | suspend pc =>
      obtain ⟨pc'', hsuspend, -⟩ := pc_of_next hpc
      exact transition_primary hsuspend
    | returned => cases hpc
  | offboard orgId pc =>
    obtain ⟨pc', hpc, -⟩ := pc_of_next h
    cases pc with
    | update v =>
      obtain ⟨rfl, -⟩ := Prod.mk.inj (Option.some.inj hpc)
      exact updateOrg_primary s orgId _ _ _ fun _ => rfl
    | accepted | threw _ => cases hpc
    | _ =>
      obtain ⟨rfl, -⟩ := Prod.mk.inj (Option.some.inj hpc)
      rfl
  | runOffboardingJob orgId pc =>
    obtain ⟨pc', hpc, -⟩ := pc_of_next h
    cases pc with
    | delete =>
      obtain ⟨rfl, -⟩ := Prod.mk.inj (Option.some.inj hpc)
      exact updateOrg_primary s orgId _ _ _ fun _ => rfl
    | returned => cases hpc
    | _ =>
      obtain ⟨rfl, -⟩ := Prod.mk.inj (Option.some.inj hpc)
      rfl

end Steps

/-! ## The lifecycle -/

/-- The arrows of the diagram. -/
def OrgStatus.leadsTo : OrgStatus → OrgStatus → Bool
  | .active, .suspended | .suspended, .active | .active, .offboarding | .suspended, .offboarding
  | .offboarding, .deleted => true
  | _, _ => false

def Store.status (s : Store) (orgId : String) : Option OrgStatus :=
  (s.primary orgId).map (·.status)

/-- The status a call holds on its way to an UPDATE is one its own check allows. -/
def Call.Validated : Call → Prop
  | .suspendOrg _ (.update v) | .checkGracePeriod _ (.suspend (.update v)) =>
    Payment.suspendOrg.allows v = true
  | .reactivateOrg _ (.update v) => Payment.reactivateOrg.allows v = true
  | .startOffboarding _ (.update v) => Payment.startOffboarding.allows v = true
  | .offboard _ (.update v) => v ≠ .deleted
  | _ => True

/-- The row the UPDATE of a call meets has the status the call has validated. -/
def Call.meets (orgs : String → Option OrgRow) : Call → Bool
  | .suspendOrg orgId (.update v) | .reactivateOrg orgId (.update v)
  | .startOffboarding orgId (.update v) | .checkGracePeriod orgId (.suspend (.update v)) =>
    (orgs orgId).all fun org => org.deleted || org.status = v
  | .offboard orgId (.update v) => (orgs orgId).all (·.status = v)
  | .runOffboardingJob orgId .delete => (orgs orgId).all (·.status = .offboarding)
  | _ => true

section Lifecycle

variable {cfg : Config} {s s' : Store} {c c' : Call}

/-- A transition goes on to its UPDATE only from a status that allows it. -/
theorem validated_found {t : Transition} {o : Option OrgRow} {v : OrgStatus}
    (h : TransitionPc.found t o = .update v) : t.allows v = true := by
  cases o with
  | none => cases h
  | some org =>
    rw [TransitionPc.found] at h
    split at h
    · rename_i hallows
      rw [← TransitionPc.update.inj h]
      exact hallows
    · split at h <;> cases h

/-- Only the check leads to the UPDATE. -/
theorem validated_transition {t : Transition} {orgId : String} {pc : TransitionPc} {v : OrgStatus}
    (h : transitionNext t s orgId pc = some (s', .update v)) : t.allows v = true := by
  cases pc with
  | find => exact validated_found (Prod.mk.inj (Option.some.inj h)).2
  | returned | threw _ => cases h
  | _ => cases (Prod.mk.inj (Option.some.inj h)).2

/-- A call goes on with a status that allows what it is about to write. -/
theorem validated_next (h : next cfg s c = some (s', c')) : c'.Validated := by
  cases c with
  | suspendOrg orgId pc | reactivateOrg orgId pc | startOffboarding orgId pc =>
    obtain ⟨pc', hpc, rfl⟩ := pc_of_next h
    cases pc' with
    | update v => exact validated_transition hpc
    | _ => trivial
  | checkGracePeriod orgId pc =>
    obtain ⟨pc', hpc, rfl⟩ := pc_of_next h
    cases pc with
    | find =>
      obtain ⟨-, rfl⟩ := Prod.mk.inj (Option.some.inj hpc)
      split <;> trivial
    | suspend pc =>
      obtain ⟨pc'', hsuspend, rfl⟩ := pc_of_next hpc
      cases pc'' with
      | update v => exact validated_transition hsuspend
      | _ => trivial
    | returned => cases hpc
  | offboard orgId pc =>
    obtain ⟨pc', hpc, rfl⟩ := pc_of_next h
    cases pc with
    | select =>
      obtain ⟨-, rfl⟩ := Prod.mk.inj (Option.some.inj hpc)
      split
      · trivial
      · split
        · trivial
        · rename_i hstatus
          exact hstatus
    | update v | enqueue =>
      obtain ⟨-, rfl⟩ := Prod.mk.inj (Option.some.inj hpc)
      trivial
    | accepted | threw _ => cases hpc
  | _ =>
    obtain ⟨pc', -, rfl⟩ := pc_of_next h
    trivial

theorem validated_of_fresh (h : c.fresh = true) : c.Validated := by
  unfold Call.fresh at h
  split at h <;> trivial

/-- The transitions of the three services. -/
theorem leadsTo_setStatus {org : OrgRow} {v target : OrgStatus}
    (hmeets : (org.deleted || org.status = v) = true) (hleads : v.leadsTo target = true) :
    (org.setStatus target).status = org.status
      ∨ org.status.leadsTo (org.setStatus target).status = true := by
  unfold OrgRow.setStatus
  split
  · exact Or.inl rfl
  · rename_i hdeleted
    rw [Bool.eq_false_of_not_eq_true hdeleted, Bool.false_or] at hmeets
    rw [of_decide_eq_true hmeets]
    exact Or.inr hleads

/-- **A write that meets what was validated** leaves the status, or follows an arrow. -/
theorem leadsTo_of_meets {now : ℕ} {orgs : String → Option OrgRow} {o : String}
    {f : OrgRow → OrgRow} {org : OrgRow} (hv : c.Validated) (hm : c.meets orgs = true)
    (hw : c.orgWrite now = some (o, f)) (horg : orgs o = some org) :
    (f org).status = org.status ∨ org.status.leadsTo (f org).status = true := by
  cases c with
  | verifyPayment orgId orderId paymentId signature pc =>
    cases pc with
    | plan payment updated =>
      cases hw
      exact Or.inl rfl
    | _ => cases hw
  | webhook event pc =>
    cases pc with
    | reactivate e =>
      cases hw
      unfold OrgRow.reactivate
      split
      · rename_i hs
        rw [hs]
        exact Or.inr rfl
      · exact Or.inl rfl
    | _ => cases hw
  | suspendOrg orgId pc | reactivateOrg orgId pc | startOffboarding orgId pc =>
    cases pc with
    | update v =>
      cases hw
      rw [Call.meets, horg] at hm
      refine leadsTo_setStatus hm ?_
      cases v <;> first | rfl | cases hv
    | _ => cases hw
  | handlePaymentFailure orgId pc =>
    cases pc with
    | update =>
      cases hw
      unfold OrgRow.startGrace
      split <;> exact Or.inl rfl
    | _ => cases hw
  | checkGracePeriod orgId pc =>
    cases pc with
    | suspend pc =>
      cases pc with
      | update v =>
        cases hw
        rw [Call.meets, horg] at hm
        refine leadsTo_setStatus hm ?_
        cases v <;> first | rfl | cases hv
      | _ => cases hw
    | _ => cases hw
  | offboard orgId pc =>
    cases pc with
    | update v =>
      cases hw
      rw [Call.meets, horg] at hm
      dsimp only
      rw [of_decide_eq_true hm]
      cases v with
      | deleted => exact absurd rfl hv
      | offboarding => exact Or.inl rfl
      | active | suspended => exact Or.inr rfl
    | _ => cases hw
  | runOffboardingJob orgId pc =>
    cases pc with
    | delete =>
      cases hw
      rw [Call.meets, horg] at hm
      dsimp only
      rw [of_decide_eq_true hm]
      exact Or.inr rfl
    | _ => cases hw

end Lifecycle

/-! ## Runs -/

section Runs

variable {ι : Type*} {cfg : Config}

/-- **No status has moved under a call**: an UPDATE of the status meets the status its call has
validated. -/
def Unmoved (p : Calls ι) : Move ι Unit Env → Prop
  | .run i _ => (p.calls i).Keeps fun c => c.meets p.store.primary
  | _ => True

/-- A change of the column `status`, from one state to the next. -/
def LegalChange (s s' : Store) : Prop :=
  ∀ orgId a b, s.status orgId = some a → s'.status orgId = some b → a ≠ b →
    a.leadsTo b = true ∧ a ≠ .deleted

theorem legalChange_of_primary_eq {s s' : Store} (h : s'.primary = s.primary) :
    LegalChange s s' := by
  intro orgId a b ha hb hne
  unfold Store.status at ha hb
  rw [h, ha] at hb
  exact absurd (Option.some.inj hb) hne

theorem ne_deleted_of_leadsTo {a b : OrgStatus} (h : a.leadsTo b = true) : a ≠ .deleted := by
  rintro rfl
  cases b <;> cases h

variable [DecidableEq ι]

/-- Every transition is validated in every state of such a run. -/
theorem validated_run {p q : Calls ι} (hstart : ∀ i, (p.calls i).Live fun c => c.fresh)
    (hrun : Run (Pool.step (paymentMachine cfg)) Unmoved p q) :
    ∀ i, (q.calls i).Keeps Call.Validated := by
  refine Pool.invariant (I := fun p : Calls ι => ∀ i, (p.calls i).Keeps Call.Validated)
    (fun i => ?_) (fun p i d c s' c' h _ hi hn => ?_) (fun p i c h _ hi => ?_)
    (fun p e h _ => h) hrun
  · obtain ⟨c, hc, hfresh⟩ := (hstart i).exists
    rw [hc]
    exact validated_of_fresh hfresh
  · exact keeps_update_up (validated_next hn) fun j _ => h j
  · exact keeps_update_down h

/-- **Every change is an arrow**, in every run in which no status moves under a call. -/
theorem status_change_legal {p q r : Calls ι} {m : Move ι Unit Env}
    (hstart : ∀ i, (p.calls i).Live fun c => c.fresh)
    (hrun : Run (Pool.step (paymentMachine cfg)) Unmoved p q) (hm : Unmoved q m)
    (hstep : q.step (paymentMachine cfg) m = some r) : LegalChange q.store r.store := by
  cases m with
  | run i d =>
    obtain ⟨c, s', c', hi, hn, rfl⟩ := Pool.step_run hstep
    have hv := validated_run hstart hrun i
    simp only [Unmoved] at hm
    rw [hi] at hv hm
    intro orgId a b ha hb hne
    obtain ⟨org, horg, rfl⟩ := Option.map_eq_some_iff.mp ha
    unfold Store.status at hb
    rw [primary_next hn] at hb
    cases hw : c.orgWrite q.store.now with
    | none =>
      rw [hw, written, horg] at hb
      exact absurd (Option.some.inj hb) hne
    | some w =>
      obtain ⟨o, f⟩ := w
      rw [hw, written] at hb
      by_cases ho : orgId = o
      · subst ho
        rw [Function.update_self, horg] at hb
        obtain rfl := Option.some.inj hb
        rcases leadsTo_of_meets hv hm hw horg with hsame | hleads
        · exact absurd hsame.symm hne
        · exact ⟨hleads, ne_deleted_of_leadsTo hleads⟩
      · rw [Function.update_of_ne ho, horg] at hb
        exact absurd (Option.some.inj hb) hne
  | crash i =>
    obtain ⟨c, -, rfl⟩ := Pool.step_crash hstep
    exact legalChange_of_primary_eq rfl
  | env e =>
    obtain rfl := Option.some.inj hstep
    cases e <;> exact legalChange_of_primary_eq rfl

end Runs

instance {ι : Type*} (p : Calls ι) : ∀ m : Move ι Unit Env, Decidable (Unmoved p m)
  | .run i _ => inferInstanceAs (Decidable ((p.calls i).Keeps fun c => c.meets p.store.primary))
  | .crash _ => inferInstanceAs (Decidable True)
  | .env _ => inferInstanceAs (Decidable True)

/-! ## Two requests and a job -/

/-- Any signature is valid, and any text but the empty one is an id. -/
def demoConfig : Config := ⟨fun _ _ _ => true, (· ≠ "")⟩

/-- One organisation, `o`, on the primary and the replica. -/
def demoStore (org : OrgRow) : Store where
  now := 0
  primary orgId := if orgId = "o" then some org else none
  replica orgId := if orgId = "o" then some org else none
  payments := ⟨[], by decide, by decide⟩
  subscriptions := []
  outbox := []
  processed _ := none
  milestones := []
  jobs := []

/-- The organisation is being offboarded: a second request, and the job of the first. -/
def offboardedTwice : Calls (Fin 2) :=
  ⟨demoStore ⟨⟨.offboarding, false⟩, none, .free⟩, fun i =>
    .up (if i = 0 then .offboard "o" .select else .runOffboardingJob "o" .select)⟩

theorem offboardedTwice_fresh (i : Fin 2) : (offboardedTwice.calls i).Live fun c => c.fresh := by
  revert i
  decide

/-- **The request reads the status, the job deletes, the request writes**: the organisation leaves
`deleted`. -/
theorem deleted_organisation_offboards_again :
    (∀ i, (offboardedTwice.calls i).Live fun c => c.fresh)
      ∧ ∃ q r, Run (Pool.step (paymentMachine demoConfig)) anyStep offboardedTwice q
        ∧ q.step (paymentMachine demoConfig) (.run 0 () : Move (Fin 2) Unit Env) = some r
        ∧ q.store.status "o" = some .deleted ∧ r.store.status "o" = some .offboarding
        ∧ ¬ LegalChange q.store r.store := by
  refine ⟨offboardedTwice_fresh, ?_⟩
  obtain ⟨q, r, hq, -, hr, h⟩ := exists_step_of_exec (Pool.step (paymentMachine demoConfig)) anyStep
    offboardedTwice [.run 0 (), .run 1 (), .run 1 (), .run 1 (), .run 1 ()] (.run 0 ())
    (fun q r => q.store.status "o" = some .deleted ∧ r.store.status "o" = some .offboarding)
    (by decide)
  obtain ⟨hdeleted, hoff⟩ := of_decide_eq_true h
  exact ⟨q, r, hq, hr, hdeleted, hoff, fun h => (h "o" _ _ hdeleted hoff nofun).2 rfl⟩

/-- The job after the request. -/
theorem status_change_legal_in_turn :
    ∃ q r, Run (Pool.step (paymentMachine demoConfig)) Unmoved offboardedTwice q
      ∧ q.step (paymentMachine demoConfig) (.run 1 () : Move (Fin 2) Unit Env) = some r
      ∧ q.store.status "o" = some .offboarding ∧ r.store.status "o" = some .deleted
      ∧ LegalChange q.store r.store := by
  obtain ⟨q, r, hq, hm, hr, h⟩ := exists_step_of_exec (Pool.step (paymentMachine demoConfig))
    Unmoved offboardedTwice [.run 0 (), .run 0 (), .run 0 (), .run 1 (), .run 1 (), .run 1 ()]
    (.run 1 ())
    (fun q r => q.store.status "o" = some .offboarding ∧ r.store.status "o" = some .deleted)
    (by decide)
  obtain ⟨hoff, hdeleted⟩ := of_decide_eq_true h
  exact ⟨q, r, hq, hr, hoff, hdeleted, status_change_legal offboardedTwice_fresh hq hm hr⟩

end WorkPlatform.Payment

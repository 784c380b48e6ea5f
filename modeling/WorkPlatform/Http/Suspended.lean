import WorkPlatform.Http.Routes
import WorkPlatform.Machinery.Run
import WorkPlatform.Payment.Calls

/-!
# Http/Suspended — what a suspended organisation lets through

    read                 ▸ handler
    write                ▸ jwt ▸ orgContext ▸ orgStatus ▸ 403
    push subscription    ▸ jwt ▸ orgContext ▸ handler

The bypass of `orgStatusMiddleware` is for paths under `/api/v1/auth`.  No route there has an
organisation, and the middleware never sees the mount: it refuses every write that comes to it, the
payments and the reactivation of an owner with the rest.  The routes of push subscriptions leave it
out (`suspended_chain`).

So an owner comes back only where some copy of the organisation still says `active`: the replica,
or a session of the last 30 s (`way_back_iff`).
-/

namespace WorkPlatform.Http

open Machinery
open Auth (Role Expiring)
open Organization (OrgContext)
open Payment (OrgStatus)

/-! ## The chains -/

/-- Creating and verifying a payment, and the reactivation. -/
def Handler.recovers : Handler → Bool
  | .createOrder | .verifyPayment | .reactivateOrg => true
  | _ => false

def isOwnerOrAdmin (role : Role) : Bool := role = .orgOwner ∨ role = .orgAdmin

/-- **What a suspended organisation is to let through**: reads, and the recovery of an owner or an
admin. -/
def promised (m : Method) (h : Handler) (role : Role) : Bool :=
  ¬ m.writes ∨ h.recovers ∧ isOwnerOrAdmin role

/-- The first literal of a pattern, where it begins with one of an organisation's chain. -/
def ofOrg : List Seg → Bool
  | .lit text :: _ => text = "orgs" ∨ text = "push"
  | _ => false

/-- The three chains behind an organisation's context. -/
def chained (r : Route) : Bool :=
  .orgContext ∈ r.guards → ofOrg r.pattern ∧
    (r.guards = orgMiddleware ∧ r.handler ≠ .pushSubscription
      ∨ r.guards = webhookAdmin ∧ r.method.writes ∧ r.handler = .webhooks
      ∨ r.guards = [.jwt, .orgContext] ∧ r.handler = .pushSubscription)

/-- What recovers an organisation, subscribes or changes a status is a write; a change of the status
has an organisation's chain. -/
def settled (r : Route) : Bool :=
  (r.handler.recovers ∨ r.handler = .pushSubscription → r.method.writes) ∧
    (r.handler = .suspendOrg ∨ r.handler = .reactivateOrg →
      r.method.writes ∧ r.guards = orgMiddleware)

theorem routes_chained : ∀ r ∈ routes, chained r = true :=
  List.all_eq_true.mp (by decide)

theorem routes_settled : ∀ r ∈ routes, settled r = true :=
  List.all_eq_true.mp (by decide)

theorem writes_of_takes {r : Route} {m : Method} (h : r.takes m = true) :
    r.method.writes = m.writes := by
  rcases of_decide_eq_true h with rfl | ⟨hget, rfl⟩
  · rfl
  · rw [hget]
    rfl

/-- A path of an organisation's chain does not begin with a bypass. -/
theorem not_bypass {pattern : List Seg} {path : List Char} {params : List String}
    (hpattern : ofOrg pattern = true) (h : matchPath pattern path = some params) :
    (suspendedBypassPrefixes.any fun start => start.toList.isPrefixOf path) = false := by
  unfold ofOrg at hpattern
  split at hpattern
  case h_2 => cases hpattern
  case h_1 text pattern' =>
    obtain ⟨rest, rfl, htext⟩ := head_of_matchPath h
    have hhead : ∃ c ∈ rest.head?, c.toLower = 'o' ∨ c.toLower = 'p' := by
      cases rest with
      | nil => rcases of_decide_eq_true hpattern with rfl | rfl <;> cases htext
      | cons c rest =>
        refine ⟨c, rfl, ?_⟩
        rw [List.takeWhile_cons] at htext
        split at htext
        · rcases of_decide_eq_true hpattern with rfl | rfl
          · exact .inl (List.cons.inj htext).1
          · exact .inr (List.cons.inj htext).1
        · rcases of_decide_eq_true hpattern with rfl | rfl <;> cases htext
    obtain ⟨c, hc, hlower⟩ := hhead
    cases rest with
    | nil => cases hc
    | cons d rest =>
      obtain rfl := Option.some.inj hc
      have hne : d ≠ 'a' := by
        rintro rfl
        revert hlower
        decide
      have hprefix : (['a', 'p', 'i', '/', 'v', '1', '/', 'a', 'u', 't', 'h'].isPrefixOf
          (d :: rest)) = false := by
        rw [List.isPrefixOf_cons_cons, beq_false_of_ne hne.symm, Bool.false_and]
      simpa [suspendedBypassPrefixes] using hprefix

theorem refusal_orgMiddleware {t : Target} {c : Caller} {ctx : OrgContext} {m : Method}
    (hguards : t.route.guards = orgMiddleware) (hctx : c.context = .ok ctx) :
    t.refusal c m = orgStatusMiddleware m t.path ctx.orgStatus := by
  unfold Target.refusal
  rw [hguards]
  simp [orgMiddleware, Guard.answer, hctx]

/-- What refuses a request at the routes of the webhooks. -/
theorem refusal_webhookAdmin {t : Target} {c : Caller} {ctx : OrgContext} {m : Method}
    (hguards : t.route.guards = webhookAdmin) (hctx : c.context = .ok ctx) :
    t.refusal c m = (orgStatusMiddleware m t.path ctx.orgStatus).or
      (requireRole [.orgOwner, .orgAdmin] ctx.memberRole) := by
  unfold Target.refusal
  rw [hguards]
  simp only [webhookAdmin, orgMiddleware, List.cons_append, List.nil_append, List.findSome?_cons,
    List.findSome?_nil, Guard.answer, hctx]
  cases orgStatusMiddleware m t.path ctx.orgStatus with
  | some e => rfl
  | none => cases requireRole [.orgOwner, .orgAdmin] ctx.memberRole <;> rfl

theorem refusal_push {t : Target} {c : Caller} {ctx : OrgContext} {m : Method}
    (hguards : t.route.guards = [.jwt, .orgContext]) (hctx : c.context = .ok ctx) :
    t.refusal c m = none := by
  unfold Target.refusal
  rw [hguards]
  simp [Guard.answer, hctx]

/-- **The guard of a suspended organisation**, on the path of one of its routes, refuses exactly the
writes. -/
theorem suspended_eq_none_iff {pattern : List Seg} {path : List Char} {params : List String}
    {m : Method} (hpattern : ofOrg pattern = true)
    (hmatch : matchPath pattern path = some params) :
    orgStatusMiddleware m path .suspended = none ↔ m.writes = false := by
  have hbypass : isSuspendedBypass m path = !m.writes := by
    unfold isSuspendedBypass
    cases hm : m.writes with
    | true => simpa using not_bypass hpattern hmatch
    | false => rfl
  unfold orgStatusMiddleware
  rw [hbypass]
  cases m.writes <;> simp

/-- **The chain of a suspended organisation.**  A request gets to its handler exactly where it is a
read or one for a push subscription. -/
theorem refusal_suspended {req : Request} {t : Target} {role : Role} {admin : Option AppError}
    (h : dispatch req = some t) (horg : .orgContext ∈ t.route.guards) :
    t.refusal ⟨admin, .ok ⟨.suspended, role⟩⟩ req.method = none
      ↔ req.method.writes = false ∨ t.route.handler = .pushSubscription := by
  obtain ⟨hroute, htakes, hmatch⟩ := serves_of_dispatch h
  obtain ⟨hpattern, hchain⟩ := of_decide_eq_true (routes_chained _ hroute) horg
  have hstatus := suspended_eq_none_iff (m := req.method) hpattern hmatch
  rcases hchain with ⟨hguards, hpush⟩ | ⟨hguards, hwrites, hwebhooks⟩ | ⟨hguards, hpush⟩
  · rw [refusal_orgMiddleware hguards rfl, hstatus]
    simp [hpush]
  · rw [writes_of_takes htakes] at hwrites
    rw [refusal_webhookAdmin hguards rfl, Option.or_eq_none_iff, hstatus]
    simp [hwrites, hwebhooks]
  · rw [refusal_push hguards rfl]
    simp [hpush]

/-! ## An owner and the organisation -/

/-- An organisation as its owner meets it: its status on the primary and on the replica, and the
owner's session in Redis.  `status` and `deleted_at` are set to deleted together. -/
structure State where
  now : ℕ
  status : OrgStatus
  replica : OrgStatus
  session : Option (Expiring OrgContext)
  deriving DecidableEq

namespace State

/-- The session, where it has not expired. -/
def live (s : State) : Option OrgContext :=
  (s.session.filter fun x => s.now < x.expiresAt).map (·.value)

/-- `resolveOrgContext`, for the owner; `redis` is whether Redis answers. -/
def resolve (s : State) (redis : Bool) : State × Except AppError OrgContext :=
  match if redis then s.live else none with
  | some ctx => (s, .ok ctx)
  | none =>
    if s.replica = .deleted then
      (s, .error (.forbidden "ORG_DELETED" "Organization has been deleted"))
    else
      let ctx : OrgContext := ⟨s.replica, .orgOwner⟩
      let session :=
        if redis then some ⟨ctx, s.now + Organization.Store.sessionCacheTtl⟩ else s.session
      ({ s with session := session }, .ok ctx)

/-- `updateStatus`. -/
def updateStatus (s : State) (status : OrgStatus) : State :=
  if s.status = .deleted then s else { s with status := status }

/-- The services that change the status: `findById` on the replica, the check, the UPDATE. -/
def transition (s : State) (t : Payment.Transition) : State :=
  if s.replica = .deleted then s
  else if t.allows s.replica then s.updateStatus t.target else s

end State

/-- What a handler does to the organisation's status for a caller who is no platform admin. -/
def Handler.run (role : Role) (s : State) : Handler → State
  | .suspendOrg => if role = .orgOwner then s.transition Payment.suspendOrg else s
  | .reactivateOrg => if role = .orgOwner then s.transition Payment.reactivateOrg else s
  | _ => s

def platformAdminRequired : AppError :=
  .forbidden "PLATFORM_ADMIN_REQUIRED" "Platform admin access required"

/-- A request of the owner.  The routes without an organisation leave its status as it is. -/
def State.request (s : State) (req : Request) (redis : Bool) : State :=
  match dispatch req with
  | none => s
  | some t =>
    if .orgContext ∈ t.route.guards then
      match s.resolve redis with
      | (s', .ok ctx) =>
        if t.refusal ⟨some platformAdminRequired, .ok ctx⟩ req.method = none then
          t.route.handler.run ctx.memberRole s'
        else s'
      | (s', .error _) => s'
    else s

/-- The owner sends a request, the replica catches up, time passes. -/
inductive Event
  | request (req : Request) (redis : Bool)
  | replicate
  | tick (ms : ℕ)
  deriving DecidableEq

/-- A request, replication, or time. -/
def step (s : State) : Event → Option State
  | .request req redis => some (s.request req redis)
  | .replicate => some { s with replica := s.status }
  | .tick ms => some { s with now := s.now + ms }

/-! ## The way back -/

namespace State

/-- A copy says that the organisation is active and the caller its owner. -/
def SeesActive (s : State) : Prop := s.replica = .active ∨ s.live = some ⟨.active, .orgOwner⟩

instance (s : State) : Decidable s.SeesActive := inferInstanceAs (Decidable (_ ∨ _))

/-- Suspended, and no copy says otherwise. -/
def Shut (s : State) : Prop := s.status = .suspended ∧ ¬ s.SeesActive

variable {s s' : State}

theorem live_of_tick {ms : ℕ} {ctx : OrgContext}
    (h : ({ s with now := s.now + ms } : State).live = some ctx) : s.live = some ctx := by
  obtain ⟨x, hx, rfl⟩ := Option.map_eq_some_iff.mp h
  obtain ⟨hsession, hlive⟩ := Option.filter_eq_some_iff.mp hx
  have hnow : s.now < x.expiresAt := lt_of_le_of_lt (Nat.le_add_right _ _) (of_decide_eq_true hlive)
  exact Option.map_eq_some_iff.mpr
    ⟨x, Option.filter_eq_some_iff.mpr ⟨hsession, decide_eq_true hnow⟩, rfl⟩

/-- What a context resolves to is a session's, or the replica's. -/
theorem resolve_ok {redis : Bool} {ctx : OrgContext} (h : s.resolve redis = (s', .ok ctx)) :
    (s' = s ∧ s.live = some ctx) ∨
      ctx = ⟨s.replica, .orgOwner⟩ ∧ s'.status = s.status ∧ s'.replica = s.replica
        ∧ (s'.live = s.live ∨ s'.live = some ctx) := by
  unfold resolve at h
  split at h
  case h_1 ctx' hctx =>
    obtain ⟨rfl, hok⟩ := Prod.mk.inj h
    obtain rfl := Except.ok.inj hok
    exact .inl ⟨rfl, (Option.ite_none_right_eq_some.mp hctx).2⟩
  case h_2 =>
    split at h
    · cases (Prod.mk.inj h).2
    · obtain ⟨rfl, hok⟩ := Prod.mk.inj h
      obtain rfl := Except.ok.inj hok
      refine .inr ⟨rfl, rfl, rfl, ?_⟩
      cases redis with
      | true =>
        right
        simp [live, Organization.Store.sessionCacheTtl]
      | false => exact .inl rfl

theorem resolve_error {redis : Bool} {e : AppError} (h : s.resolve redis = (s', .error e)) :
    s' = s := by
  unfold resolve at h
  split at h
  · cases (Prod.mk.inj h).2
  · split at h
    · exact (Prod.mk.inj h).1.symm
    · cases (Prod.mk.inj h).2

/-- What a handler does to the status, behind a context that is not an active owner's. -/
theorem run_of_inactive {req : Request} {t : Target} {ctx : OrgContext}
    (hdispatch : dispatch req = some t) (hctx : ctx ≠ ⟨.active, .orgOwner⟩)
    (hpass : t.refusal ⟨some platformAdminRequired, .ok ctx⟩ req.method = none) :
    t.route.handler.run ctx.memberRole s = s := by
  obtain ⟨hroute, htakes, hmatch⟩ := serves_of_dispatch hdispatch
  by_cases hhandler : t.route.handler = .suspendOrg ∨ t.route.handler = .reactivateOrg
  · obtain ⟨hwrites, hguards⟩ := (of_decide_eq_true (routes_settled _ hroute)).2 hhandler
    rw [writes_of_takes htakes] at hwrites
    have horg : .orgContext ∈ t.route.guards := by
      rw [hguards]
      decide
    obtain ⟨hpattern, -⟩ := of_decide_eq_true (routes_chained _ hroute) horg
    rw [refusal_orgMiddleware hguards rfl] at hpass
    have hrole : ctx.memberRole ≠ .orgOwner := by
      obtain ⟨status, role⟩ := ctx
      cases status with
      | active => exact fun hrole => hctx (congrArg (OrgContext.mk .active) hrole)
      | suspended =>
        rw [suspended_eq_none_iff hpattern hmatch, hwrites] at hpass
        cases hpass
      | offboarding =>
        rw [orgStatusMiddleware, if_pos hwrites] at hpass
        cases hpass
      | deleted => cases hpass
    rcases hhandler with hhandler | hhandler <;> rw [hhandler, Handler.run, if_neg hrole]
  · rw [not_or] at hhandler
    unfold Handler.run
    split <;> simp_all

/-- A request leaves an organisation shut that is so. -/
theorem shut_request {req : Request} {redis : Bool} (h : s.Shut) : (s.request req redis).Shut := by
  unfold request
  split
  case h_1 => exact h
  case h_2 t hdispatch =>
    split
    case isFalse => exact h
    case isTrue =>
      split
      case h_2 heq => exact resolve_error heq ▸ h
      case h_1 s' ctx heq =>
        obtain ⟨hstatus, hsees⟩ := h
        obtain ⟨hreplica, hlive⟩ := not_or.mp hsees
        have hshut : s'.Shut ∧ ctx ≠ ⟨.active, .orgOwner⟩ := by
          rcases resolve_ok heq with ⟨rfl, hctx⟩ | ⟨rfl, hs, hr, hl⟩
          · exact ⟨⟨hstatus, hsees⟩, fun hne => hlive (hctx.trans (congrArg some hne))⟩
          · have hctx : (⟨s.replica, .orgOwner⟩ : OrgContext) ≠ ⟨.active, .orgOwner⟩ :=
              fun heq => hreplica (OrgContext.mk.inj heq).1
            refine ⟨⟨hs.trans hstatus, not_or.mpr ⟨hr ▸ hreplica, fun hactive => ?_⟩⟩, hctx⟩
            rcases hl with hl | hl
            · exact hlive (hl.symm.trans hactive)
            · exact hctx (Option.some.inj (hl.symm.trans hactive))
        split
        case isTrue hpass =>
          rw [run_of_inactive hdispatch hshut.2 hpass]
          exact hshut.1
        case isFalse => exact hshut.1

/-- No event opens what is shut. -/
theorem shut_step {e : Event} (h : s.Shut) (hstep : step s e = some s') : s'.Shut := by
  cases e with
  | request req redis =>
    obtain rfl := Option.some.inj hstep
    exact shut_request h
  | replicate =>
    obtain rfl := Option.some.inj hstep
    obtain ⟨hstatus, hsees⟩ := h
    refine ⟨hstatus, not_or.mpr ⟨fun hactive => ?_, (not_or.mp hsees).2⟩⟩
    exact absurd (hstatus.symm.trans hactive) (by decide)
  | tick ms =>
    obtain rfl := Option.some.inj hstep
    obtain ⟨hstatus, hsees⟩ := h
    obtain ⟨hreplica, hlive⟩ := not_or.mp hsees
    exact ⟨hstatus, not_or.mpr ⟨hreplica, fun hactive => hlive (live_of_tick hactive)⟩⟩

/-- A request that passes its middlewares gets to its handler. -/
theorem request_of_pass {req : Request} {t : Target} {redis : Bool} {ctx : OrgContext}
    (hdispatch : dispatch req = some t) (horg : .orgContext ∈ t.route.guards)
    (hresolve : s.resolve redis = (s', .ok ctx))
    (hpass : t.refusal ⟨some platformAdminRequired, .ok ctx⟩ req.method = none) :
    s.request req redis = t.route.handler.run ctx.memberRole s' := by
  rw [request, hdispatch]
  simp only [horg, hresolve, hpass, if_true]

end State

/-- `GET /api/v1/orgs/o`. -/
def getOrg : Request := ⟨.get, "/api/v1/orgs/o".toList⟩

/-- `POST /api/v1/orgs/o/reactivate`. -/
def postReactivate : Request := ⟨.post, "/api/v1/orgs/o/reactivate".toList⟩

theorem dispatch_getOrg :
    dispatch getOrg = some ⟨⟨.get, org [], orgMiddleware, .read⟩, "/orgs/o".toList, ["o"]⟩ := rfl

theorem dispatch_postReactivate : dispatch postReactivate =
    some ⟨⟨.post, org [.lit "reactivate"], orgMiddleware, .reactivateOrg⟩,
      "/orgs/o/reactivate".toList, ["o"]⟩ := rfl

section Back

variable {s : State}

/-- With a session from before the suspension, once the replica has caught up. -/
theorem back_of_live (hstatus : s.status = .suspended)
    (hlive : s.live = some ⟨.active, .orgOwner⟩) :
    ∃ s', Run step anyStep s s' ∧ s'.status = .active := by
  let s₁ : State := { s with replica := s.status }
  have hresolve : s₁.resolve true = (s₁, .ok ⟨.active, .orgOwner⟩) := by
    have hlive₁ : s₁.live = some ⟨.active, .orgOwner⟩ := hlive
    rw [State.resolve, if_pos rfl, hlive₁]
  have hreactivate : s₁.request postReactivate true = s₁.transition Payment.reactivateOrg :=
    State.request_of_pass dispatch_postReactivate (by decide) hresolve rfl
  have hactive : (s₁.transition Payment.reactivateOrg).status = .active := by
    simp [s₁, State.transition, State.updateStatus, Payment.reactivateOrg, hstatus]
  have hrun : Run step anyStep s s₁ := Run.refl.tail (a := .replicate) trivial rfl
  exact ⟨_, hrun.tail (a := .request postReactivate true) trivial (congrArg some hreactivate),
    hactive⟩

/-- With a replica that has not heard of the suspension: the owner's next session is made of it. -/
theorem back_of_replica (hstatus : s.status = .suspended) (hreplica : s.replica = .active) :
    ∃ s', Run step anyStep s s' ∧ s'.status = .active := by
  let s₁ : State := { s with now := s.now + (s.session.map (·.expiresAt)).getD 0 }
  let ctx : OrgContext := ⟨.active, .orgOwner⟩
  let s₂ : State :=
    { s₁ with session := some ⟨ctx, s₁.now + Organization.Store.sessionCacheTtl⟩ }
  have hlive₁ : s₁.live = none := by
    cases hsession : s.session with
    | none => simp [s₁, State.live, hsession]
    | some x => simp [s₁, State.live, hsession]
  have hresolve : s₁.resolve true = (s₂, .ok ctx) := by
    rw [State.resolve, if_pos rfl, hlive₁]
    simp [s₁, s₂, ctx, hreplica]
  have hget : s₁.request getOrg true = s₂ :=
    State.request_of_pass dispatch_getOrg (by decide) hresolve rfl
  have hlive₂ : s₂.live = some ctx := by
    simp [s₂, State.live, Organization.Store.sessionCacheTtl]
  have hrun₁ : Run step anyStep s s₁ := Run.refl.tail (a := .tick _) trivial rfl
  have hrun₂ : Run step anyStep s s₂ :=
    hrun₁.tail (a := .request getOrg true) trivial (congrArg some hget)
  obtain ⟨s', hrun, hactive⟩ := back_of_live (s := s₂) hstatus hlive₂
  exact ⟨s', hrun₂.trans hrun, hactive⟩

end Back

/-- **The way back.**  From a suspended organisation its owner gets to an active one exactly where a
copy says that it still is one. -/
theorem way_back_iff {s : State} (hstatus : s.status = .suspended) :
    (∃ s', Run step anyStep s s' ∧ s'.status = .active) ↔ s.SeesActive := by
  constructor
  · rintro ⟨s', hrun, hactive⟩
    by_contra hsees
    have hshut : s'.Shut :=
      hrun.invariant ⟨hstatus, hsees⟩ fun _ _ _ ht _ hs => State.shut_step ht hs
    exact absurd (hshut.1.symm.trans hactive) (by decide)
  · rintro (hreplica | hlive)
    · exact back_of_replica hstatus hreplica
    · exact back_of_live hstatus hlive

/-! ## The promise -/

/-- **What a suspended organisation lets through, and how it comes back.**  The chain keeps the
promise for a request exactly where that is no recovery of an owner or an admin and not for a push
subscription; there is a way back exactly where a copy is behind. -/
theorem suspended_chain {req : Request} {t : Target} (hdispatch : dispatch req = some t)
    (horg : .orgContext ∈ t.route.guards) (role : Role) (admin : Option AppError) {s : State}
    (hstatus : s.status = .suspended) :
    ((t.refusal ⟨admin, .ok ⟨.suspended, role⟩⟩ req.method = none
          ↔ promised req.method t.route.handler role = true)
        ↔ ¬ (t.route.handler.recovers ∧ isOwnerOrAdmin role)
          ∧ t.route.handler ≠ .pushSubscription)
      ∧ ((∃ s', Run step anyStep s s' ∧ s'.status = .active) ↔ s.SeesActive) := by
  refine ⟨?_, way_back_iff hstatus⟩
  obtain ⟨hroute, htakes, -⟩ := serves_of_dispatch hdispatch
  have hwrites := (of_decide_eq_true (routes_settled _ hroute)).1
  rw [writes_of_takes htakes] at hwrites
  rw [refusal_suspended hdispatch horg, promised, decide_eq_true_iff]
  by_cases hpush : t.route.handler = .pushSubscription
  · simp [hpush, hwrites (.inr hpush), Handler.recovers]
  · by_cases hrecovers : t.route.handler.recovers = true
    · simp [hpush, hrecovers, hwrites (.inl hrecovers)]
    · simp [hpush, hrecovers]

/-- An organisation that was suspended a while ago. -/
def shut : State := ⟨0, .suspended, .suspended, none⟩

theorem suspended_chain_shut :
    ((Target.refusal ⟨⟨.post, org [.lit "reactivate"], orgMiddleware, .reactivateOrg⟩,
            "/orgs/o/reactivate".toList, ["o"]⟩
          ⟨none, .ok ⟨.suspended, .orgOwner⟩⟩ .post = none
        ↔ promised .post .reactivateOrg .orgOwner = true)
      ↔ ¬ (Handler.reactivateOrg.recovers = true ∧ isOwnerOrAdmin .orgOwner = true)
        ∧ Handler.reactivateOrg ≠ .pushSubscription)
      ∧ ((∃ s', Run step anyStep shut s' ∧ s'.status = .active) ↔ shut.SeesActive) :=
  suspended_chain dispatch_postReactivate (by decide) .orgOwner none rfl

/-- The owner's reactivation is refused, and no requests of the owner's bring the organisation
back. -/
theorem reactivation_refused :
    (∃ t, dispatch postReactivate = some t ∧ .orgContext ∈ t.route.guards
        ∧ ¬ (t.refusal ⟨none, .ok ⟨.suspended, .orgOwner⟩⟩ postReactivate.method = none
          ↔ promised postReactivate.method t.route.handler .orgOwner = true))
      ∧ shut.status = .suspended
      ∧ ¬ ∃ s', Run step anyStep shut s' ∧ s'.status = .active := by
  refine ⟨⟨_, dispatch_postReactivate, by decide, fun h => ?_⟩, rfl, fun h => ?_⟩
  · exact absurd (h.mpr rfl) (by decide)
  · exact absurd ((way_back_iff rfl).mp h) (by decide)

end WorkPlatform.Http

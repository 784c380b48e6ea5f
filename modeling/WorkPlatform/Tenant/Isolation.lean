import WorkPlatform.Task.ActivityLog
import WorkPlatform.Task.Template
import WorkPlatform.Webhook.Registration

/-!
# Tenant/Isolation — an organisation does not notice the others

    templates ┐
    activity  ├ side by side ──▸ leave out what concerns others ──▸ the same answers
    webhooks  ┘

Statements of any organisations interleave, over tables they share.  What the calls of one
organisation are answered, and how far they have got, is what it would be had the calls of the
others never run and their memberships never changed (`others_unnoticed`).  New rows have new ids.
-/

namespace WorkPlatform.Tenant

open Machinery

section Isolation

variable {α : Type} (cfg : Webhook.Registration.Config α)

abbrev Services := Template.Store × ActivityLog.Store × Webhook.Registration.Store

abbrev ServiceCall := Template.Call ⊕ ActivityLog.Call ⊕ Webhook.Registration.Call

abbrev ServiceDraw (α : Type) := Template.Draw × ActivityLog.Draw × Webhook.Registration.Draw α

abbrev ServiceEnv := Template.Env ⊕ ActivityLog.Env ⊕ Webhook.Registration.Env

/-- The templates, the activity log and the webhooks, side by side. -/
def serviceMachine : Machine Services ServiceCall (ServiceDraw α) ServiceEnv :=
  Template.templateMachine.beside
    (ActivityLog.activityMachine.beside (Webhook.Registration.registrationMachine cfg))

def serviceTenancy : Tenancy Services ServiceCall ServiceEnv String :=
  Template.templateTenancy.beside
    (ActivityLog.activityTenancy.beside Webhook.Registration.registrationTenancy)

/-- The ids of new rows are new. -/
def Unused : Services → ServiceCall → ServiceDraw α → Prop :=
  besideGuard Template.Unused (besideGuard ActivityLog.Unused Webhook.Registration.Unused)

instance (s : Services) (c : ServiceCall) (d : ServiceDraw α) : Decidable (Unused s c d) :=
  inferInstanceAs (Decidable (besideGuard _ _ s c d))

/-- The organisation a call works for. -/
def orgIdOf : ServiceCall → String := serviceTenancy.owner

theorem services_apart : serviceTenancy.Apart (serviceMachine cfg) Unused :=
  Template.template_apart.beside
    (ActivityLog.activity_apart.beside (Webhook.Registration.registration_apart cfg))

theorem sees_refl (orgId : String) (s : Services) : serviceTenancy.Sees orgId s s :=
  ⟨.refl _ _, .refl _ _, .refl _ _⟩

/-- **The others are not noticed**: every run can be made with the moves of one organisation alone,
and leaves its calls where they were, with the answers they had. -/
theorem others_unnoticed {ι : Type*} [DecidableEq ι] {p q : Pool ι Services ServiceCall}
    {ms : List (Move ι (ServiceDraw α) ServiceEnv)} (orgId : String)
    (h : Steps (Pool.step (serviceMachine cfg)) (Allowed Unused) p ms q) :
    ∃ q', Steps (Pool.step (serviceMachine cfg)) (Allowed Unused) p
        (ms.filter (serviceTenancy.concerns (fun i => orgIdOf (p.calls i).at') orgId)) q'
      ∧ ∀ i, orgIdOf (p.calls i).at' = orgId → q'.calls i = q.calls i := by
  obtain ⟨q', hsteps, hshares⟩ := (services_apart cfg).purge h (fun _ => rfl)
    ⟨sees_refl orgId p.store, fun _ _ => rfl⟩
  exact ⟨q', hsteps, hshares.calls⟩

end Isolation

/-! ### A template of one organisation, a listing of another -/

/-- Texts encrypt to themselves, and every address is unknown. -/
def demoConfig : Webhook.Registration.Config Unit where
  lib := ⟨fun _ => none, fun _ => none, fun _ => none, fun _ => false, 0⟩
  crypto := ⟨fun _ _ text => (text, []), fun _ _ text _ => some text, fun _ => [], fun _ => ""⟩
  encryptionKey := Shared.zeros 32
  hash := fun secret _ => secret

def demoStore : Services :=
  (⟨0, [⟨⟨"user-1", "org-1", .orgAdmin, .active⟩, false⟩], .empty, .empty⟩, ⟨.empty, .empty⟩,
    ⟨0, .empty, .empty⟩)

def demoInput : Template.CreateTemplateInput := ⟨"Bug", none, none, none, none⟩

/-- Two organisations use the templates at a time. -/
def twoOrgs : Pool (Fin 2) Services ServiceCall :=
  ⟨demoStore, fun i => .up (.inl (if i = 0 then
    .createTemplate "org-1" "user-1" demoInput .assertAdminOrOwner
  else .listTemplates "org-2" .select))⟩

def demoDraw : ServiceDraw Unit :=
  (⟨"template-1", String.length⟩, ⟨"log-1", 0, String.length⟩,
    ⟨"wh-1", true, none, "secret", "salt", Shared.zeros 16, .ok, String.length⟩)

def demoMoves : List (Move (Fin 2) (ServiceDraw Unit) ServiceEnv) :=
  [.run 0 demoDraw, .run 0 demoDraw, .env (.inl .replicate), .run 1 demoDraw]

/-- The second organisation sees no template, and had seen none without the first. -/
theorem others_unnoticed_twoOrgs : ∃ q q' : Pool (Fin 2) Services ServiceCall,
    Steps (Pool.step (serviceMachine demoConfig)) (Allowed Unused) twoOrgs demoMoves q
      ∧ Steps (Pool.step (serviceMachine demoConfig)) (Allowed Unused) twoOrgs
        [.env (.inl .replicate), .run 1 demoDraw] q' ∧ q'.calls 1 = q.calls 1 := by
  have hsteps := steps_getD (Pool.step (serviceMachine demoConfig)) (Allowed Unused) twoOrgs
    demoMoves (by decide)
  obtain ⟨q', hsteps', hcalls⟩ := others_unnoticed demoConfig "org-2" hsteps
  exact ⟨_, q', hsteps, hsteps', hcalls 1 rfl⟩

end WorkPlatform.Tenant

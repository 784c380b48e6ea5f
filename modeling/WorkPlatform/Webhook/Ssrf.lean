import WorkPlatform.Webhook.Delivery

/-!
# Webhook/Ssrf — which addresses a delivery sends requests to

    DNS ▸ address ──unicast──▸ POST to the address ──3xx──▸ DNS ▸ address ▸ request ──3xx──▸ …

The first request goes to the address that was checked, whatever DNS has answered before or answers
after.  axios follows a redirect by itself, and what it connects to then nobody checks.
-/

namespace WorkPlatform.Webhook

open Machinery

section Ssrf

variable {ι : Type*} {α : Type} (lib : Lib α)

/-- The address is neither loopback nor private nor link-local, nor of any other range. -/
def Unicast (address : α) : Prop := lib.range address = some "unicast"

/-- **Requests were sent to unicast addresses only.** -/
def OnlyUnicast (p : Deliveries ι α) : Prop := ∀ address ∈ p.store.contacted, Unicast lib address

/-- A redirect leads to a host whose address, when axios connects to it, is a unicast one. -/
def DeliveryPc.RedirectsOut (d : Draw α) : DeliveryPc α → Prop
  | .redirected _ url _ => ∀ address ∈ Webhook.lookup url.host d.address, Unicast lib address
  | _ => True

instance (address : α) : Decidable (Unicast lib address) :=
  inferInstanceAs (Decidable (lib.range address = some "unicast"))

instance (d : Draw α) : DecidablePred (DeliveryPc.RedirectsOut lib d)
  | .redirected _ url _ =>
    inferInstanceAs (Decidable (∀ address ∈ Webhook.lookup url.host d.address, Unicast lib address))
  | .findDeliveryLog _ | .createDeliveryLog _ | .findById _ | .prepare _ _ | .lookup _ _
  | .post _ _ _ | .update _ _ | .caught _ _ | .returned | .threw =>
    inferInstanceAs (Decidable True)

def RedirectsOut (p : Deliveries ι α) : Move ι (Draw α) (Env α) → Prop
  | .run i d => (p.calls i).at'.RedirectsOut lib d
  | _ => True

instance (p : Deliveries ι α) : ∀ m : Move ι (Draw α) (Env α), Decidable (RedirectsOut lib p m)
  | .run i d => inferInstanceAs (Decidable ((p.calls i).at'.RedirectsOut lib d))
  | .crash _ | .env _ => inferInstanceAs (Decidable True)

/-- What the delivery is about to POST to was checked. -/
def DeliveryPc.Checked : DeliveryPc α → Prop
  | .post _ _ address => Unicast lib address
  | _ => True

variable {lib} {s s' : Store α} {k k' : DeliveryPc α} {d : Draw α}

theorem isPrivateIp_eq_false {ip : α} : isPrivateIp lib ip = false ↔ Unicast lib ip := by
  unfold isPrivateIp Unicast
  cases lib.range ip with
  | none => simp
  | some range => simp

theorem checked_respond (job : WebhookDeliveryJobData) (left : ℕ) (r : Response α) :
    (DeliveryPc.respond job left r).Checked lib := by
  cases r with
  | error => trivial
  | status code => trivial
  | redirect location => cases left <;> trivial

theorem contacted_createDeliveryLog {job : WebhookDeliveryJobData}
    (h : s.createDeliveryLog job = some s') : s'.contacted = s.contacted := by
  obtain ⟨log, -, rfl⟩ := Option.map_eq_some_iff.mp h
  rfl

variable (lib) in
/-- What a statement is to the addresses: it contacts none, or one that is unicast, and what is
POSTed to next was checked. -/
def Contacts (s s' : Store α) (k' : DeliveryPc α) : Prop :=
  (s'.contacted = s.contacted
      ∨ ∃ address, Unicast lib address ∧ s'.contacted = address :: s.contacted)
    ∧ k'.Checked lib

theorem contacts_self (hk : k'.Checked lib) : Contacts lib s s k' := ⟨Or.inl rfl, hk⟩

section Statements

variable {job : WebhookDeliveryJobData}

theorem contacts_findDeliveryLog
    (h : (DeliveryPc.findDeliveryLog job).next lib s d = some (s', k')) : Contacts lib s s' k' := by
  unfold DeliveryPc.next at h
  dsimp only at h
  split at h
  · split at h <;> obtain ⟨rfl, rfl⟩ := Prod.mk.inj (Option.some.inj h)
    · split <;> exact contacts_self trivial
    · exact contacts_self trivial
  · obtain ⟨rfl, rfl⟩ := Prod.mk.inj (Option.some.inj h)
    exact contacts_self trivial

theorem contacts_createDeliveryLog
    (h : (DeliveryPc.createDeliveryLog job).next lib s d = some (s', k')) :
    Contacts lib s s' k' := by
  unfold DeliveryPc.next at h
  dsimp only at h
  split at h <;> obtain ⟨rfl, rfl⟩ := Prod.mk.inj (Option.some.inj h)
  case h_1 hs₁ =>
    split at hs₁
    · refine ⟨Or.inl (contacted_createDeliveryLog hs₁), ?_⟩
      split <;> trivial
    · cases hs₁
  case h_2 => exact contacts_self trivial

theorem contacts_findById (h : (DeliveryPc.findById job).next lib s d = some (s', k')) :
    Contacts lib s s' k' := by
  unfold DeliveryPc.next at h
  dsimp only at h
  split at h
  · split at h <;> obtain ⟨rfl, rfl⟩ := Prod.mk.inj (Option.some.inj h)
    · split <;> exact contacts_self trivial
    · exact contacts_self trivial
  · obtain ⟨rfl, rfl⟩ := Prod.mk.inj (Option.some.inj h)
    exact contacts_self trivial

theorem contacts_prepare {webhook : WebhookRow}
    (h : (DeliveryPc.prepare job webhook).next lib s d = some (s', k')) :
    Contacts lib s s' k' := by
  unfold DeliveryPc.next at h
  dsimp only at h
  split at h <;> obtain ⟨rfl, rfl⟩ := Prod.mk.inj (Option.some.inj h) <;>
    exact contacts_self trivial

/-- The address that goes on to the POST is not a private one. -/
theorem contacts_lookup {url : Url α}
    (h : (DeliveryPc.lookup job url).next lib s d = some (s', k')) : Contacts lib s s' k' := by
  unfold DeliveryPc.next at h
  dsimp only at h
  split at h <;> obtain ⟨rfl, rfl⟩ := Prod.mk.inj (Option.some.inj h)
  case h_1 =>
    refine contacts_self ?_
    split
    case isTrue => trivial
    case isFalse hpublic => exact isPrivateIp_eq_false.mp ((Bool.not_eq_true _).mp hpublic)
  case h_2 => exact contacts_self trivial

/-- The POST goes to the address that was checked. -/
theorem contacts_post {url : Url α} {address : α} (hk : Unicast lib address)
    (h : (DeliveryPc.post job url address).next lib s d = some (s', k')) :
    Contacts lib s s' k' := by
  unfold DeliveryPc.next at h
  dsimp only at h
  split at h <;> obtain ⟨rfl, rfl⟩ := Prod.mk.inj (Option.some.inj h)
  case isTrue => exact contacts_self trivial
  case isFalse => exact ⟨Or.inr ⟨address, hk, rfl⟩, checked_respond _ _ _⟩

/-- What follows a redirect goes where that leads. -/
theorem contacts_redirected {url : Url α} {left : ℕ}
    (hout : (DeliveryPc.redirected job url left).RedirectsOut lib d)
    (h : (DeliveryPc.redirected job url left).next lib s d = some (s', k')) :
    Contacts lib s s' k' := by
  unfold DeliveryPc.next at h
  dsimp only at h
  split at h <;> obtain ⟨rfl, rfl⟩ := Prod.mk.inj (Option.some.inj h)
  case h_1 address haddress =>
    exact ⟨Or.inr ⟨address, hout address haddress, rfl⟩, checked_respond _ _ _⟩
  case h_2 => exact contacts_self trivial

end Statements

/-- **A statement contacts the address that was checked, or one that a redirect leads to.** -/
theorem unicast_next (hk : k.Checked lib) (hout : k.RedirectsOut lib d)
    (h : k.next lib s d = some (s', k')) : Contacts lib s s' k' := by
  cases k with
  | findDeliveryLog job => exact contacts_findDeliveryLog h
  | createDeliveryLog job => exact contacts_createDeliveryLog h
  | findById job => exact contacts_findById h
  | prepare job webhook => exact contacts_prepare h
  | lookup job url => exact contacts_lookup h
  | post job url address => exact contacts_post hk h
  | redirected job url left => exact contacts_redirected hout h
  | update job responseStatus =>
    obtain ⟨rfl, rfl⟩ := Prod.mk.inj (Option.some.inj ((next_update responseStatus).symm.trans h))
    exact contacts_self trivial
  | caught job responseStatus =>
    obtain ⟨rfl, rfl⟩ := Prod.mk.inj (Option.some.inj ((next_caught responseStatus).symm.trans h))
    exact contacts_self trivial
  | returned => cases h
  | threw => cases h

theorem contacted_env (s : Store α) (e : Env α) : (env lib s e).contacted = s.contacted := by
  cases e with
  | create row answer =>
    unfold env
    dsimp only
    split <;> rfl
  | _ => rfl

/-- Requests went to unicast addresses, and the next POST of each delivery will. -/
structure SsrfInv (lib : Lib α) (p : Deliveries ι α) : Prop where
  only : OnlyUnicast lib p
  checked : ∀ i, (p.calls i).Keeps (DeliveryPc.Checked lib)

/-- **No request leaves for a non-unicast address**, whatever webhooks are registered and whatever
DNS answers, where no redirect leads to one. -/
theorem only_unicast [DecidableEq ι] {s₀ : Store α}
    (hs₀ : ∀ address ∈ s₀.contacted, Unicast lib address) {jobs : ι → WebhookDeliveryJobData}
    {p : Deliveries ι α} (h : Run (Pool.step (deliveryMachine lib)) (RedirectsOut lib)
      ⟨s₀, fun i => .up (.findDeliveryLog (jobs i))⟩ p) : OnlyUnicast lib p := by
  have hinv : SsrfInv lib p := by
    refine Pool.invariant ?_ ?_ ?_ ?_ h
    · exact ⟨hs₀, fun i => trivial⟩
    · rintro p i d k s' k' ⟨honly, hchecked⟩ hG hk hn
      have hat : (p.calls i).at' = k := congrArg Proc.at' hk
      obtain ⟨hcontacted, hk'⟩ := unicast_next ((hchecked i).of_up hk) (hat ▸ hG) hn
      refine ⟨?_, keeps_update_up hk' fun j _ => hchecked j⟩
      rcases hcontacted with hsame | ⟨address, hunicast, hmore⟩
      · exact fun a ha => honly a (hsame ▸ ha)
      · intro a ha
        rcases List.mem_cons.mp (hmore ▸ ha) with rfl | hold
        · exact hunicast
        · exact honly a hold
    · rintro p i k ⟨honly, hchecked⟩ - -
      exact ⟨honly, keeps_update_down hchecked⟩
    · rintro p e ⟨honly, hchecked⟩ -
      exact ⟨fun a ha => honly a (contacted_env p.store e ▸ ha), hchecked⟩
  exact hinv.only

end Ssrf

/-! ## A webhook that redirects -/

def elsewhere : Url String := ⟨"https:", .name "other.partner.com", "", "/hook", ""⟩

/-- A redirect to another public host is followed. -/
theorem only_unicast_elsewhere : ∃ p : Deliveries (Fin 2) String,
    p.store.contacted = ["93.184.216.34", "93.184.216.34"] ∧ OnlyUnicast demoLib p := by
  obtain ⟨p, hrun, hp⟩ := exists_run_of_exec (Pool.step (deliveryMachine demoLib))
    (RedirectsOut demoLib) twoJobs
    (deliver 0 6 (.redirect elsewhere) ++ deliver 0 1 (.status 200))
    (fun p => decide (p.store.contacted = ["93.184.216.34", "93.184.216.34"])) (by decide)
  exact ⟨p, of_decide_eq_true hp, only_unicast (fun _ h => absurd h List.not_mem_nil) hrun⟩

/-- **A redirect to the loopback address is followed.** -/
theorem loopback_contacted : ¬ ∀ (lib : Lib String) (s₀ : Store String)
    (jobs : Fin 2 → WebhookDeliveryJobData) (p : Deliveries (Fin 2) String),
    (∀ address ∈ s₀.contacted, Unicast lib address) →
    Run (Pool.step (deliveryMachine lib)) anyStep ⟨s₀, fun i => .up (.findDeliveryLog (jobs i))⟩ p →
    OnlyUnicast lib p := by
  intro hclaim
  obtain ⟨p, hrun, hp⟩ := exists_run_of_exec (Pool.step (deliveryMachine demoLib)) anyStep twoJobs
    (deliver 0 6 (.redirect { elsewhere with host := .ip "127.0.0.1" })
      ++ deliver 0 1 (.status 200))
    (fun p => decide ("127.0.0.1" ∈ p.store.contacted)) (by decide)
  have hunicast := hclaim demoLib demoStore (fun _ => demoJob) p
    (fun _ h => absurd h List.not_mem_nil) hrun "127.0.0.1" (of_decide_eq_true hp)
  exact absurd hunicast (by decide)

end WorkPlatform.Webhook

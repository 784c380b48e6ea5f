import WorkPlatform.Webhook.Registration

/-!
# Webhook/Secrets — what is stored of a secret is what one call has drawn, and tells

    drawn ──▸ (hash, ciphertext, preview) ──one statement──▸ the row
      └───────────────────────────────────────────return──▸ the caller

Rotations of one webhook may overlap, a webhook may be removed or its organisation offboarded
between the SELECT and the UPDATE of one, a call may crash anywhere, and the answer to its statement
may be lost.  A call that has stored its secret has told it, is about to, or never will
(`stored_was_drawn`).
-/

namespace WorkPlatform.Webhook.Registration

open Machinery

variable {ι : Type*} {α : Type} {cfg : Config α}

/-! ## What a call has drawn, stored and told -/

/-- The secret of a call that has not stored it yet, with what it is going to store. -/
def Call.drawn : Call → Option (String × SecretColumns)
  | .create _ _ _ (.insert secret kept) => some (secret, kept)
  | .rotateSecret _ _ _ (.update secret kept _) => some (secret, kept)
  | _ => none

/-- The secret a call has returned, with its organisation. -/
def Call.told : Call → Option (String × String)
  | .create orgId _ _ (.returned _ secret) => some (orgId, secret)
  | .rotateSecret orgId _ _ (.returned secret) => some (orgId, secret)
  | _ => none

/-- The call has not run a statement yet. -/
def Call.fresh : Call → Bool
  | .create _ _ _ .isEnabled | .rotateSecret _ _ _ .find | .listByOrg _ .select
  | .remove _ _ .find => true
  | _ => false

/-- The call was stopped between its statement and its return, or the answer to that was lost. -/
def Silent : Proc Call → Prop
  | .up (.create _ _ _ (.unanswered _)) | .up (.rotateSecret _ _ _ (.unanswered _)) => True
  | .down (.create _ _ _ (.inserted _ _)) | .down (.rotateSecret _ _ _ (.updated _)) => True
  | .down (.create _ _ _ (.unanswered _)) | .down (.rotateSecret _ _ _ (.unanswered _)) => True
  | _ => False

/-- The call is about to return its secret. -/
def Returning : Call → Prop
  | .create _ _ _ (.inserted _ _) | .rotateSecret _ _ _ (.updated _) => True
  | _ => False

/-- **A secret that is stored** is told, or about to be, or was stored by a call that fell
silent. -/
theorem told_of_stored {x : Proc Call} {y : String × String} (h : x.at'.stored = some y) :
    x.at'.told = some y ∨ x.Live Returning ∨ Silent x := by
  cases x with
  | up c =>
    cases c with
    | create orgId userId input pc =>
      cases pc with
      | inserted _ _ => exact Or.inr (Or.inl trivial)
      | unanswered _ => exact Or.inr (Or.inr trivial)
      | returned _ _ => exact Or.inl h
      | _ => cases h
    | rotateSecret orgId webhookId userId pc =>
      cases pc with
      | updated _ => exact Or.inr (Or.inl trivial)
      | unanswered _ => exact Or.inr (Or.inr trivial)
      | returned _ => exact Or.inl h
      | _ => cases h
    | listByOrg orgId pc => cases h
    | remove orgId webhookId pc => cases h
  | down c =>
    cases c with
    | create orgId userId input pc =>
      cases pc with
      | inserted _ _ | unanswered _ => exact Or.inr (Or.inr trivial)
      | returned _ _ => exact Or.inl h
      | _ => cases h
    | rotateSecret orgId webhookId userId pc =>
      cases pc with
      | updated _ | unanswered _ => exact Or.inr (Or.inr trivial)
      | returned _ => exact Or.inl h
      | _ => cases h
    | listByOrg orgId pc => cases h
    | remove orgId webhookId pc => cases h

/-- The columns were there before, in a row of that id, or are those of a secret that a call of the
organisation has stored; the caller was told it, unless the call is still to return or fell silent.
-/
def Accounted (cfg : Config α) (p q : Calls ι) (r : SubscriptionRow) : Prop :=
  (∃ r₀, (r₀ ∈ p.store.primary.rows ∨ r₀ ∈ p.store.replica.rows) ∧ r₀.id = r.id ∧ r₀.kept = r.kept)
    ∨ ∃ i secret, (q.calls i).at'.stored = some (r.orgId, secret) ∧ r.kept.Of cfg secret
      ∧ ((q.calls i).at'.told = some (r.orgId, secret) ∨ (q.calls i).Live Returning
        ∨ Silent (q.calls i))

/-- What every move keeps. -/
structure SecretsInv (cfg : Config α) (p q : Calls ι) : Prop where
  primary : ∀ r ∈ q.store.primary.rows, Accounted cfg p q r
  replica : ∀ r ∈ q.store.replica.rows, Accounted cfg p q r
  drawn : ∀ i, (q.calls i).Keeps fun c => ∀ secret kept, c.drawn = some (secret, kept) →
    kept.Of cfg secret

section Steps

variable {s s' : Store} {d : Draw α} {c c' : Call} {p q : Calls ι} {r r' : SubscriptionRow}

theorem drawn_of_fresh (h : c.fresh = true) : c.drawn = none := by
  cases c with
  | create orgId userId input pc => cases pc <;> first | rfl | cases h
  | rotateSecret orgId webhookId userId pc => cases pc <;> first | rfl | cases h
  | listByOrg orgId pc => rfl
  | remove orgId webhookId pc => rfl

/-- What a call has drawn, it has made the columns of. -/
theorem drawn_next (hopens : cfg.crypto.Opens) (h : c.next cfg s d = some (s', c')) {secret : String}
    {kept : SecretColumns} (hdrawn : c'.drawn = some (secret, kept)) : kept.Of cfg secret := by
  cases c with
  | create orgId userId input pc =>
    obtain ⟨pc', hpc, rfl⟩ := pc_of_next h
    cases pc with
    | isEnabled =>
      obtain ⟨-, rfl⟩ := Prod.mk.inj (Option.some.inj hpc)
      split at hdrawn <;> cases hdrawn
    | lookup =>
      obtain ⟨-, rfl⟩ := Prod.mk.inj (Option.some.inj hpc)
      split at hdrawn
      · cases hdrawn
      · obtain ⟨rfl, rfl⟩ := Prod.mk.inj (Option.some.inj hdrawn)
        exact columns_of cfg hopens d
    | insert secret' kept' =>
      rw [createNext] at hpc
      split at hpc
      · obtain ⟨-, rfl⟩ := Prod.mk.inj (Option.some.inj hpc)
        split at hdrawn <;> cases hdrawn
      · obtain ⟨-, rfl⟩ := Prod.mk.inj (Option.some.inj hpc)
        cases hdrawn
    | inserted webhook secret' =>
      obtain ⟨-, rfl⟩ := Prod.mk.inj (Option.some.inj hpc)
      cases hdrawn
    | unanswered _ | returned _ _ | threw _ | failed => cases hpc
  | rotateSecret orgId webhookId userId pc =>
    obtain ⟨pc', hpc, rfl⟩ := pc_of_next h
    cases pc with
    | find =>
      obtain ⟨-, rfl⟩ := Prod.mk.inj (Option.some.inj hpc)
      split at hdrawn
      · cases hdrawn
      · obtain ⟨rfl, rfl⟩ := Prod.mk.inj (Option.some.inj hdrawn)
        exact columns_of cfg hopens d
    | update secret' kept' version =>
      obtain ⟨-, rfl⟩ := Prod.mk.inj (Option.some.inj hpc)
      split at hdrawn <;> cases hdrawn
    | updated secret' =>
      obtain ⟨-, rfl⟩ := Prod.mk.inj (Option.some.inj hpc)
      cases hdrawn
    | unanswered _ | returned _ | threw _ | failed => cases hpc
  | listByOrg orgId pc =>
    obtain ⟨pc', -, rfl⟩ := pc_of_next h
    cases hdrawn
  | remove orgId webhookId pc =>
    obtain ⟨pc', -, rfl⟩ := pc_of_next h
    cases hdrawn

/-- A secret that was stored is accounted for. -/
theorem accounted_of_stored (i : ι) (secret : String)
    (hstored : (q.calls i).at'.stored = some (r.orgId, secret)) (hof : r.kept.Of cfg secret) :
    Accounted cfg p q r :=
  Or.inr ⟨i, secret, hstored, hof, told_of_stored hstored⟩

/-- A row that keeps its id, its organisation and its secret is still accounted for. -/
theorem Accounted.of_kept (h : Accounted cfg p q r) (hid : r'.id = r.id) (horg : r'.orgId = r.orgId)
    (hkept : r'.kept = r.kept) : Accounted cfg p q r' := by
  rcases h with ⟨r₀, hr₀, hid₀, hkept₀⟩ | ⟨i, secret, hstored, hof, -⟩
  · exact Or.inl ⟨r₀, hr₀, hid₀.trans hid.symm, hkept₀.trans hkept.symm⟩
  · refine accounted_of_stored i secret ?_ ?_
    · rw [horg]
      exact hstored
    · rw [hkept]
      exact hof

/-- What has stored its secret has stored it for good. -/
theorem Accounted.mono {q' : Calls ι}
    (hq : ∀ i x, (q.calls i).at'.stored = some x → (q'.calls i).at'.stored = some x)
    (h : Accounted cfg p q r) : Accounted cfg p q' r := by
  rcases h with hold | ⟨i, secret, hstored, hof, -⟩
  · exact Or.inl hold
  · exact accounted_of_stored i secret (hq i _ hstored) hof

variable [DecidableEq ι] {i : ι}

/-- What a call has stored, it has stored whatever it does next. -/
theorem stored_update (hn : c.next cfg q.store d = some (s', c')) (hi : q.calls i = .up c) :
    ∀ j y, (q.calls j).at'.stored = some y →
      ((⟨s', Function.update q.calls i (.up c')⟩ : Calls ι).calls j).at'.stored = some y := by
  intro j y hj
  by_cases hji : j = i
  · subst hji
    rw [hi] at hj
    have hj' : c.stored = some y := hj
    rw [at'_update_self, Proc.at'_up]
    cases stepped_next hn with
    | same _ hkept => exact hkept y hj'
    | created hcall =>
      rw [hcall] at hj'
      cases hj'
    | rotated hcall =>
      rw [hcall] at hj'
      cases hj'
    | removed hcall =>
      rw [hcall] at hj'
      cases hj'
  · rw [at'_update_of_ne hji]
    exact hj

/-- One statement of one call. -/
theorem secretsInv_run (hopens : cfg.crypto.Opens) (h : SecretsInv cfg p q) (hc : q.calls i = .up c)
    (hn : c.next cfg q.store d = some (s', c')) :
    SecretsInv cfg p ⟨s', Function.update q.calls i (.up c')⟩ := by
  have hmono : ∀ {r}, Accounted cfg p q r →
      Accounted cfg p ⟨s', Function.update q.calls i (.up c')⟩ r :=
    Accounted.mono (stored_update hn hc)
  have hdrawn : ∀ j, (Function.update q.calls i (.up c') j).Keeps fun c =>
      ∀ secret kept, c.drawn = some (secret, kept) → kept.Of cfg secret :=
    keeps_update_up (fun _ _ => drawn_next hopens hn) fun j _ => h.drawn j
  have hself : ∀ {x}, c'.stored = some x →
      ((⟨s', Function.update q.calls i (.up c')⟩ : Calls ι).calls i).at'.stored = some x := by
    intro x hx
    rw [at'_update_self]
    exact hx
  cases stepped_next hn with
  | same hs _ => exact ⟨fun r hr => hmono (h.primary r (hs ▸ hr)),
      fun r hr => hmono (h.replica r (hs ▸ hr)), hdrawn⟩
  | @created orgId userId secret input kept rows hcall hins hs hcall' =>
    have hof : kept.Of cfg secret := (h.drawn i).of_up hc secret kept (by rw [hcall]; rfl)
    subst hs
    refine ⟨fun r hr => ?_, fun r hr => hmono (h.replica r hr), hdrawn⟩
    have hmem : r ∈ rows.rows := hr
    rw [(Table.insert_eq_some hins).2] at hmem
    rcases List.mem_cons.mp hmem with rfl | hold
    · exact accounted_of_stored i secret (hself hcall') hof
    · exact hmono (h.primary r hold)
  | @rotated orgId webhookId userId secret kept version hcall hs hcall' =>
    have hof : kept.Of cfg secret := (h.drawn i).of_up hc secret kept (by rw [hcall]; rfl)
    subst hs
    refine ⟨fun r hr => ?_, fun r hr => hmono (h.replica r hr), hdrawn⟩
    obtain ⟨r₀, hr₀, rfl⟩ := List.mem_map.mp hr
    by_cases hlive : r₀.isLive webhookId orgId = true
    · refine accounted_of_stored i secret ?_ ?_
      · rw [SubscriptionRow.updateSecret_orgId, SubscriptionRow.orgId_of_isLive hlive]
        exact hself hcall'
      · rw [SubscriptionRow.updateSecret, if_pos hlive]
        exact hof
    · rw [SubscriptionRow.updateSecret, if_neg hlive]
      exact hmono (h.primary r₀ hr₀)
  | removed hcall hs =>
    subst hs
    refine ⟨fun r hr => ?_, fun r hr => hmono (h.replica r hr), hdrawn⟩
    obtain ⟨r₀, hr₀, rfl⟩ := List.mem_map.mp hr
    exact (hmono (h.primary r₀ hr₀)).of_kept (SubscriptionRow.softDelete_id _ _ _ _)
      (SubscriptionRow.softDelete_orgId _) (SubscriptionRow.softDelete_kept _)

omit [DecidableEq ι] in
/-- What the surroundings do keeps the invariant. -/
theorem secretsInv_env (h : SecretsInv cfg p q) (e : Env) :
    SecretsInv cfg p ⟨env q.store e, q.calls⟩ := by
  cases e with
  | tick ms => exact ⟨h.primary, h.replica, h.drawn⟩
  | replicate => exact ⟨h.primary, h.primary, h.drawn⟩
  | offboard orgId =>
    refine ⟨fun r hr => ?_, h.replica, h.drawn⟩
    obtain ⟨r₀, hr₀, rfl⟩ := List.mem_map.mp hr
    exact (h.primary r₀ hr₀).of_kept (SubscriptionRow.offboard_id _ _ _)
      (SubscriptionRow.offboard_orgId _) (SubscriptionRow.offboard_kept _)

/-- A call that has crashed has stored what it had stored. -/
theorem secretsInv_crash (h : SecretsInv cfg p q) (hc : q.calls i = .up c) :
    SecretsInv cfg p ⟨q.store, Function.update q.calls i (.down c)⟩ := by
  have hmono : ∀ {r}, Accounted cfg p q r →
      Accounted cfg p ⟨q.store, Function.update q.calls i (.down c)⟩ r := by
    refine Accounted.mono fun j x hj => ?_
    rw [at'_update_down hc]
    exact hj
  exact ⟨fun r hr => hmono (h.primary r hr), fun r hr => hmono (h.replica r hr),
    keeps_update_down h.drawn⟩

/-- **What is stored is what one call has drawn**: in every state that is reached, the three columns
of every webhook are those of one secret, which decrypts from the row and was stored by a call of
the webhook's own organisation; the caller was told it, unless the call is still to return, was
stopped between its statement and its return, or never got the answer to that; or the columns were
there from the beginning. -/
theorem stored_was_drawn (hopens : cfg.crypto.Opens)
    (hfresh : ∀ i, (p.calls i).Keeps fun c => c.fresh = true)
    (h : Run (Pool.step (registrationMachine cfg)) anyStep p q) :
    ∀ r ∈ q.store.primary.rows, Accounted cfg p q r := by
  have hinv : SecretsInv cfg p p := by
    refine ⟨fun r hr => Or.inl ⟨r, Or.inl hr, rfl, rfl⟩, fun r hr => Or.inl ⟨r, Or.inr hr, rfl, rfl⟩,
      fun i => (hfresh i).imp fun c hc secret kept hdrawn => ?_⟩
    rw [drawn_of_fresh hc] at hdrawn
    cases hdrawn
  exact (Pool.invariant (I := SecretsInv cfg p) hinv
    (fun q i d c s' c' hI _ hc hn => secretsInv_run hopens hI hc hn)
    (fun q i c hI _ hc => secretsInv_crash hI hc) (fun q e hI _ => secretsInv_env hI e) h).primary

end Steps

/-! ### Two rotations of one webhook -/

/-- Hashes show their secret and their salt. -/
def demoConfig : Config String where
  lib := Webhook.demoLib
  crypto := Shared.demoCrypto
  encryptionKey := Shared.zeros 32
  hash := fun secret salt => salt ++ secret

def demoDraw (secret : String) (outcome : Outcome) : Draw String :=
  ⟨"wh-2", true, some "93.184.216.34", secret, "salt:", Shared.zeros 16, outcome, String.length⟩

/-- A subscription that was created with a secret. -/
def demoRow : SubscriptionRow where
  id := "wh-1"
  orgId := "org-1"
  url := "https://partner.com/hook"
  kept := (demoDraw "s3cret00" .ok).columns demoConfig
  secretKeyVersion := 1
  eventTypes := ["task.created"]
  isActive := true
  createdBy := "user-1"
  deletedAt := none
  createdAt := 0

def demoTable : Table SubscriptionRow.id := ⟨[demoRow], List.nodup_singleton _⟩

def twoRotations : Calls (Fin 2) :=
  ⟨⟨0, demoTable, demoTable⟩, fun _ => .up (.rotateSecret "org-1" "wh-1" "user-1" .find)⟩

/-- The second rotation has returned; the first stores its secret after it, and its answer is
lost. -/
def demoMoves : List (Move (Fin 2) (Draw String) Env) :=
  [.run 0 (demoDraw "first" .ok), .run 1 (demoDraw "second" .ok), .run 1 (demoDraw "" .ok),
    .run 1 (demoDraw "" .ok), .run 0 (demoDraw "" .lost)]

/-- One caller is told a secret, and the one of the other, whose answer is lost, is stored. -/
theorem stored_was_drawn_rotations : ∃ q : Calls (Fin 2),
    Run (Pool.step (registrationMachine demoConfig)) anyStep twoRotations q
      ∧ (q.store.primary.rows.map (·.kept)) = [(demoDraw "first" .ok).columns demoConfig]
      ∧ (q.calls 1).at'.told = some ("org-1", "second")
      ∧ ∀ r ∈ q.store.primary.rows, Accounted demoConfig twoRotations q r := by
  obtain ⟨q, hq, hend⟩ := exists_run_of_exec (Pool.step (registrationMachine demoConfig)) anyStep
    twoRotations demoMoves
    (fun q => decide (q.store.primary.rows.map (·.kept) = [(demoDraw "first" .ok).columns demoConfig]
      ∧ (q.calls 1).at'.told = some ("org-1", "second")))
    (by decide +kernel)
  obtain ⟨hkept, htold⟩ := of_decide_eq_true hend
  exact ⟨q, hq, hkept, htold,
    stored_was_drawn Shared.demoCrypto_opens (fun _ => rfl) hq⟩

end WorkPlatform.Webhook.Registration

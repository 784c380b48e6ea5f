import WorkPlatform.Machinery.Noninterference
import WorkPlatform.Shared.AppError
import WorkPlatform.Shared.Crypto
import WorkPlatform.Webhook.Delivery

/-!
# Webhook/Registration — the webhooks of an organisation and their secrets

    create         isEnabled ▸ lookup ▸ insert ▸ return
    rotateSecret   find ▸ update ▸ return
    listByOrg      select
    remove         find ▸ softDelete

A secret is drawn once, kept as a hash, encrypted and with its last four characters, and told to
the caller; the three are written by one statement, so whatever rotations meet on a webhook, what is
stored is one secret (`stored_was_drawn`).  It is told after the statement: where the answer to that
is lost, or the call stops, it is stored and nobody knows it.
-/

namespace WorkPlatform.Webhook.Registration

open Machinery
open Shared (Bytes CryptoLib encrypt decrypt)

/-! ## Rows -/

/-- What is kept of a secret. -/
structure SecretColumns where
  secretHash : String
  secretEncrypted : String
  secretPreview : String
  deriving DecidableEq

/-- A row of `webhook_subscriptions`, less `updated_at`. -/
structure SubscriptionRow where
  id : String
  orgId : String
  url : String
  kept : SecretColumns
  secretKeyVersion : ℕ
  eventTypes : List String
  isActive : Bool
  createdBy : String
  deletedAt : Option ℕ
  createdAt : ℕ
  deriving DecidableEq

/-- What a caller asks for. -/
structure CreateWebhookInput where
  url : String
  events : List String
  deriving DecidableEq

/-- The addresses of `Webhook.Lib`, the ciphers with their key, and bcrypt, by secret and salt. -/
structure Config (α : Type) where
  lib : Lib α
  crypto : CryptoLib
  encryptionKey : Bytes 32
  hash : String → String → String

/-- What a move draws: the id of a new row, what `isEnabled` and DNS answer, the secret with its
salt and its initialisation vector, how the statement that stores it goes, and the order PostgreSQL
gives to rows of one time. -/
structure Draw (α : Type) where
  id : String
  enabled : Bool
  address : Option α
  secret : String
  salt : String
  iv : Bytes 16
  outcome : Outcome
  rank : String → ℕ

/-- `secret.slice(-4)`. -/
def secretPreview (secret : String) : String :=
  String.ofList (secret.toList.drop (secret.toList.length - 4))

section Secrets

variable {α : Type} (cfg : Config α)

/-- What is kept of the secret a call has drawn. -/
def Draw.columns (d : Draw α) : SecretColumns where
  secretHash := cfg.hash d.secret d.salt
  secretEncrypted := encrypt cfg.crypto cfg.encryptionKey d.iv d.secret
  secretPreview := secretPreview d.secret

/-- The columns are those of one secret. -/
def SecretColumns.Of (c : SecretColumns) (secret : String) : Prop :=
  (∃ salt, c.secretHash = cfg.hash secret salt)
    ∧ decrypt cfg.crypto cfg.encryptionKey c.secretEncrypted = .ok secret
    ∧ c.secretPreview = Registration.secretPreview secret

theorem columns_of (hopens : cfg.crypto.Opens) (d : Draw α) : (d.columns cfg).Of cfg d.secret :=
  ⟨⟨d.salt, rfl⟩, Shared.decrypt_encrypt hopens d.iv d.secret, rfl⟩

end Secrets

namespace SubscriptionRow

/-- `WHERE org_id = $1 AND deleted_at IS NULL`. -/
def liveIn (orgId : String) (r : SubscriptionRow) : Bool := r.orgId = orgId ∧ r.deletedAt = none

/-- `WHERE id = $1 AND org_id = $2 AND deleted_at IS NULL`. -/
def isLive (id orgId : String) (r : SubscriptionRow) : Bool := r.id = id ∧ r.liveIn orgId

/-- `updateSecret`, for one row. -/
def updateSecret (id orgId : String) (kept : SecretColumns) (version : ℕ) (r : SubscriptionRow) :
    SubscriptionRow :=
  if r.isLive id orgId then { r with kept := kept, secretKeyVersion := version } else r

/-- `SET deleted_at = NOW(), is_active = false WHERE id = $1 AND org_id = $2`, for one row. -/
def softDelete (id orgId : String) (now : ℕ) (r : SubscriptionRow) : SubscriptionRow :=
  if r.id = id ∧ r.orgId = orgId then { r with deletedAt := some now, isActive := false } else r

/-- The UPDATE of the offboarding job, for one row. -/
def offboard (orgId : String) (now : ℕ) (r : SubscriptionRow) : SubscriptionRow :=
  if r.liveIn orgId then { r with deletedAt := some now } else r

section

variable {id orgId : String} {kept : SecretColumns} {version now : ℕ} {r : SubscriptionRow}

theorem updateSecret_id (id orgId : String) (kept : SecretColumns) (version : ℕ)
    (r : SubscriptionRow) : (r.updateSecret id orgId kept version).id = r.id := by
  unfold updateSecret
  split <;> rfl

theorem updateSecret_orgId (r : SubscriptionRow) :
    (r.updateSecret id orgId kept version).orgId = r.orgId := by
  unfold updateSecret
  split <;> rfl

theorem softDelete_id (id orgId : String) (now : ℕ) (r : SubscriptionRow) :
    (r.softDelete id orgId now).id = r.id := by
  unfold softDelete
  split <;> rfl

theorem softDelete_orgId (r : SubscriptionRow) : (r.softDelete id orgId now).orgId = r.orgId := by
  unfold softDelete
  split <;> rfl

theorem softDelete_kept (r : SubscriptionRow) : (r.softDelete id orgId now).kept = r.kept := by
  unfold softDelete
  split <;> rfl

theorem offboard_id (orgId : String) (now : ℕ) (r : SubscriptionRow) :
    (r.offboard orgId now).id = r.id := by
  unfold offboard
  split <;> rfl

theorem offboard_orgId (r : SubscriptionRow) : (r.offboard orgId now).orgId = r.orgId := by
  unfold offboard
  split <;> rfl

theorem offboard_kept (r : SubscriptionRow) : (r.offboard orgId now).kept = r.kept := by
  unfold offboard
  split <;> rfl

theorem orgId_of_liveIn (h : r.liveIn orgId = true) : r.orgId = orgId := (of_decide_eq_true h).1

theorem orgId_of_isLive (h : r.isLive id orgId = true) : r.orgId = orgId :=
  orgId_of_liveIn (of_decide_eq_true h).2

end

end SubscriptionRow

/-! ## The store -/

/-- The table, and the copy that lists are read from. -/
structure Store where
  now : ℕ
  primary : Table SubscriptionRow.id
  replica : Table SubscriptionRow.id

namespace Store

/-- `findById`, on the primary. -/
def findById (s : Store) (id orgId : String) : Option SubscriptionRow :=
  s.primary.rows.find? (·.isLive id orgId)

/-- `ORDER BY created_at DESC`. -/
def newer (rank : String → ℕ) (r r' : SubscriptionRow) : Prop :=
  r'.createdAt < r.createdAt ∨ r.createdAt = r'.createdAt ∧ rank r.id ≤ rank r'.id

instance (rank : String → ℕ) : DecidableRel (newer rank) :=
  fun _ _ => inferInstanceAs (Decidable (_ ∨ _))

/-- `findByOrg`, on the replica. -/
def findByOrg (s : Store) (rank : String → ℕ) (orgId : String) : List SubscriptionRow :=
  (s.replica.rows.filter (·.liveIn orgId)).insertionSort (newer rank)

/-- The INSERT; an id that is there makes it throw. -/
def create (s : Store) (r : SubscriptionRow) : Option Store :=
  (s.primary.insert r).map fun t => { s with primary := t }

/-- The UPDATE of a rotation. -/
def updateSecret (s : Store) (id orgId : String) (kept : SecretColumns) (version : ℕ) : Store :=
  { s with
    primary := s.primary.map (.updateSecret id orgId kept version)
      (SubscriptionRow.updateSecret_id id orgId kept version) }

/-- The UPDATE of a removal. -/
def softDelete (s : Store) (id orgId : String) : Store :=
  { s with
    primary := s.primary.map (.softDelete id orgId s.now)
      (SubscriptionRow.softDelete_id id orgId s.now) }

/-- The UPDATE of the offboarding job. -/
def offboard (s : Store) (orgId : String) : Store :=
  { s with
    primary := s.primary.map (.offboard orgId s.now) (SubscriptionRow.offboard_id orgId s.now) }

end Store

/-! ## The service -/

/-- Where `create` stands: `inserted` has its statement behind it and the secret still to return,
and `unanswered` has thrown although the statement took effect. -/
inductive CreatePc
  | isEnabled
  | lookup
  | insert (secret : String) (kept : SecretColumns)
  | inserted (webhook : SubscriptionRow) (secret : String)
  | unanswered (secret : String)
  | returned (webhook : SubscriptionRow) (secret : String)
  | threw (e : AppError)
  | failed
  deriving DecidableEq

/-- Where `rotateSecret` stands; `updated` and `unanswered` are as with `create`.  The UPDATE says
so if it finds no row, and nobody looks. -/
inductive RotatePc
  | find
  | update (secret : String) (kept : SecretColumns) (newVersion : ℕ)
  | updated (secret : String)
  | unanswered (secret : String)
  | returned (secret : String)
  | threw (e : AppError)
  | failed
  deriving DecidableEq

/-- Where `listByOrg` stands. -/
inductive ListPc
  | select
  | returned (webhooks : List SubscriptionRow)
  deriving DecidableEq

/-- Where `remove` stands. -/
inductive RemovePc
  | find
  | softDelete
  | returned
  | threw (e : AppError)
  deriving DecidableEq

def featureNotEnabled : AppError :=
  .forbidden "FEATURE_NOT_ENABLED"
    "Webhooks are not enabled for this organization. Upgrade to business plan."

def invalidWebhookUrl : AppError :=
  .unprocessable "INVALID_WEBHOOK_URL" "URL must be HTTPS and resolve to a public IP"

section Service

variable {α : Type} (cfg : Config α)

/-- The row of the INSERT; what the table defaults to is written out. -/
def CreateWebhookInput.row (input : CreateWebhookInput) (id orgId userId : String)
    (kept : SecretColumns) (now : ℕ) : SubscriptionRow where
  id := id
  orgId := orgId
  url := input.url
  kept := kept
  secretKeyVersion := 1
  eventTypes := input.events
  isActive := true
  createdBy := userId
  deletedAt := none
  createdAt := now

/-- The next statement of `create`, or its return.  What is returned of the row is without hash and
ciphertext; the model keeps the row. -/
def createNext (s : Store) (d : Draw α) (orgId userId : String) (input : CreateWebhookInput) :
    CreatePc → Option (Store × CreatePc)
  | .isEnabled => some (s, if d.enabled then .lookup else .threw featureNotEnabled)
  | .lookup => some (s,
      if isPrivateOrBlockedUrl cfg.lib input.url d.address then .threw invalidWebhookUrl
      else .insert d.secret (d.columns cfg))
  | .insert secret kept =>
    match if d.outcome.took then s.create (input.row d.id orgId userId kept s.now) else none with
    | some s' => some (s',
        if d.outcome.answered then .inserted (input.row d.id orgId userId kept s.now) secret
        else .unanswered secret)
    | none => some (s, .failed)
  | .inserted webhook secret => some (s, .returned webhook secret)
  | .unanswered _ | .returned _ _ | .threw _ | .failed => none

/-- The next statement of `rotateSecret`, or its return. -/
def rotateNext (s : Store) (d : Draw α) (orgId webhookId : String) :
    RotatePc → Option (Store × RotatePc)
  | .find => some (s,
      match s.findById webhookId orgId with
      | none => .threw (.notFound "Webhook")
      | some existing => .update d.secret (d.columns cfg) (existing.secretKeyVersion + 1))
  | .update secret kept newVersion =>
    some (if d.outcome.took then s.updateSecret webhookId orgId kept newVersion else s,
      match d.outcome with
      | .ok => .updated secret
      | .lost => .unanswered secret
      | .failed => .failed)
  | .updated secret => some (s, .returned secret)
  | .unanswered _ | .returned _ | .threw _ | .failed => none

/-- The one statement of `listByOrg`. -/
def listNext (s : Store) (d : Draw α) (orgId : String) : ListPc → Option (Store × ListPc)
  | .select => some (s, .returned (s.findByOrg d.rank orgId))
  | .returned _ => none

/-- The next statement of `remove`. -/
def removeNext (s : Store) (orgId webhookId : String) : RemovePc → Option (Store × RemovePc)
  | .find => some (s,
      match s.findById webhookId orgId with
      | none => .threw (.notFound "Webhook")
      | some _ => .softDelete)
  | .softDelete => some (s.softDelete webhookId orgId, .returned)
  | .returned | .threw _ => none

end Service

/-! ## The machine -/

/-- A call of the service. -/
inductive Call
  | create (orgId userId : String) (input : CreateWebhookInput) (pc : CreatePc)
  | rotateSecret (orgId webhookId userId : String) (pc : RotatePc)
  | listByOrg (orgId : String) (pc : ListPc)
  | remove (orgId webhookId : String) (pc : RemovePc)
  deriving DecidableEq

/-- The organisation of the route. -/
def Call.orgId : Call → String
  | .create orgId _ _ _ | .rotateSecret orgId _ _ _ | .listByOrg orgId _ | .remove orgId _ _ => orgId

/-- Time, replication, and the offboarding of an organisation. -/
inductive Env
  | tick (ms : ℕ)
  | replicate
  | offboard (orgId : String)

/-- The organisation that is acted on. -/
def Env.author : Env → Option String
  | .tick _ | .replicate => none
  | .offboard orgId => some orgId

/-- What happens beside the calls. -/
def env (s : Store) : Env → Store
  | .tick ms => { s with now := s.now + ms }
  | .replicate => { s with replica := s.primary }
  | .offboard orgId => s.offboard orgId

section Machine

variable {α : Type} (cfg : Config α)

/-- The next statement of a call. -/
def Call.next (s : Store) (d : Draw α) : Call → Option (Store × Call)
  | .create orgId userId input pc =>
    (createNext cfg s d orgId userId input pc).map fun x => (x.1, .create orgId userId input x.2)
  | .rotateSecret orgId webhookId userId pc =>
    (rotateNext cfg s d orgId webhookId pc).map fun x =>
      (x.1, .rotateSecret orgId webhookId userId x.2)
  | .listByOrg orgId pc => (listNext s d orgId pc).map fun x => (x.1, .listByOrg orgId x.2)
  | .remove orgId webhookId pc =>
    (removeNext s orgId webhookId pc).map fun x => (x.1, .remove orgId webhookId x.2)

/-- The service, and what happens beside it. -/
def registrationMachine : Machine Store Call (Draw α) Env := ⟨fun s c d => c.next cfg s d, env⟩

end Machine

/-- Calls over the webhooks. -/
abbrev Calls (ι : Type*) := Pool ι Store Call

/-! ## Organisations apart -/

/-- What an organisation sees. -/
structure Sees (orgId : String) (s t : Store) : Prop where
  now : t.now = s.now
  primary : SeesRows SubscriptionRow.orgId orgId s.primary t.primary
  replica : SeesRows SubscriptionRow.orgId orgId s.replica t.replica

/-- Whose a call is, what acts on whom, and what an organisation sees. -/
def registrationTenancy : Tenancy Store Call Env String := ⟨Call.orgId, Env.author, Sees⟩

/-- The next statement of the call is an INSERT. -/
def Call.inserts : Call → Bool
  | .create _ _ _ (.insert _ _) => true
  | _ => false

/-- The id of a new row is a new one. -/
def Unused {α : Type} (s : Store) (c : Call) (d : Draw α) : Prop :=
  c.inserts = true → s.primary.find d.id = none

instance {α : Type} (s : Store) (c : Call) (d : Draw α) : Decidable (Unused s c d) :=
  inferInstanceAs (Decidable (_ → _))

theorem Sees.refl (orgId : String) (s : Store) : Sees orgId s s := ⟨rfl, .refl _, .refl _⟩

section Apart

variable {α : Type} {cfg : Config α} {s s' t : Store} {d : Draw α} {u orgId : String}

theorem Sees.findById (h : Sees u s t) (id : String) : t.findById id u = s.findById id u :=
  h.primary.find?_eq fun _ => SubscriptionRow.orgId_of_isLive

theorem Sees.findByOrg (h : Sees u s t) (rank : String → ℕ) :
    t.findByOrg rank u = s.findByOrg rank u := by
  unfold Store.findByOrg
  rw [h.replica.filter_eq fun _ => SubscriptionRow.orgId_of_liveIn]

theorem Sees.updateSecret (h : Sees u s t) (id : String) (kept : SecretColumns) (version : ℕ) :
    Sees u (s.updateSecret id u kept version) (t.updateSecret id u kept version) :=
  ⟨h.now, h.primary.map_own (SubscriptionRow.updateSecret_id id u kept version)
    SubscriptionRow.updateSecret_orgId, h.replica⟩

theorem Sees.updateSecret_other (h : Sees u s t) (hne : orgId ≠ u) (id : String)
    (kept : SecretColumns) (version : ℕ) : Sees u (s.updateSecret id orgId kept version) t := by
  refine ⟨h.now, h.primary.map_other (SubscriptionRow.updateSecret_id id orgId kept version)
    SubscriptionRow.updateSecret_orgId fun r hr => ?_, h.replica⟩
  exact if_neg fun hlive => hne ((SubscriptionRow.orgId_of_isLive hlive).symm.trans hr)

theorem Sees.softDelete (h : Sees u s t) (id : String) :
    Sees u (s.softDelete id u) (t.softDelete id u) := by
  have hmap := h.primary.map_own (SubscriptionRow.softDelete_id id u s.now)
    SubscriptionRow.softDelete_orgId
  refine ⟨h.now, ?_, h.replica⟩
  simp only [Store.softDelete, h.now]
  exact hmap

theorem Sees.softDelete_other (h : Sees u s t) (hne : orgId ≠ u) (id : String) :
    Sees u (s.softDelete id orgId) t := by
  refine ⟨h.now, h.primary.map_other (SubscriptionRow.softDelete_id id orgId s.now)
    SubscriptionRow.softDelete_orgId fun r hr => ?_, h.replica⟩
  exact if_neg fun hrow => hne (hrow.2.symm.trans hr)

theorem Sees.offboard (h : Sees u s t) : Sees u (s.offboard u) (t.offboard u) := by
  have hmap := h.primary.map_own (SubscriptionRow.offboard_id u s.now)
    SubscriptionRow.offboard_orgId
  refine ⟨h.now, ?_, h.replica⟩
  simp only [Store.offboard, h.now]
  exact hmap

theorem Sees.offboard_other (h : Sees u s t) (hne : orgId ≠ u) : Sees u (s.offboard orgId) t := by
  refine ⟨h.now, h.primary.map_other (SubscriptionRow.offboard_id orgId s.now)
    SubscriptionRow.offboard_orgId fun r hr => ?_, h.replica⟩
  exact if_neg fun hlive => hne ((SubscriptionRow.orgId_of_liveIn hlive).symm.trans hr)

/-! A statement of the tenant's own does the same in two stores the tenant cannot tell apart. -/

section Own

variable {userId webhookId : String} {input : CreateWebhookInput} {secret : String}
  {kept : SecretColumns}

/-- The INSERT, of an id that is new in both. -/
theorem Sees.next_insert {pc' : CreatePc} (h : Sees u s t) (hfree : s.primary.find d.id = none)
    (hpc : createNext cfg s d u userId input (.insert secret kept) = some (s', pc')) :
    ∃ t', createNext cfg t d u userId input (.insert secret kept) = some (t', pc')
      ∧ Sees u s' t' := by
  have hrow : input.row d.id u userId kept t.now = input.row d.id u userId kept s.now :=
    congrArg _ h.now
  rw [createNext] at hpc
  rw [createNext, hrow]
  by_cases htook : d.outcome.took = true
  · rw [if_pos htook] at hpc ⊢
    cases hins : s.primary.insert (input.row d.id u userId kept s.now) with
    | none =>
      obtain ⟨r, hr⟩ := Table.find_of_insert_none hins
      exact absurd (hfree.symm.trans hr) nofun
    | some rows =>
      rw [Store.create, hins] at hpc
      obtain ⟨rfl, rfl⟩ := Prod.mk.inj (Option.some.inj hpc)
      obtain ⟨rows', hins', hsees⟩ := h.primary.insert_own hins
      refine ⟨{ t with primary := rows' }, ?_, h.now, hsees, h.replica⟩
      rw [Store.create, hins']
      rfl
  · rw [if_neg htook] at hpc ⊢
    obtain ⟨rfl, rfl⟩ := Prod.mk.inj (Option.some.inj hpc)
    exact ⟨t, rfl, h⟩

theorem Sees.next_create {pc pc' : CreatePc} (h : Sees u s t)
    (hG : Unused s (.create u userId input pc) d)
    (hpc : createNext cfg s d u userId input pc = some (s', pc')) :
    ∃ t', createNext cfg t d u userId input pc = some (t', pc') ∧ Sees u s' t' := by
  cases pc with
  | insert secret kept => exact h.next_insert (hG rfl) hpc
  | isEnabled | lookup | inserted webhook secret =>
    obtain ⟨rfl, rfl⟩ := Prod.mk.inj (Option.some.inj hpc)
    exact ⟨t, rfl, h⟩
  | unanswered _ | returned _ _ | threw _ | failed => cases hpc

theorem Sees.next_rotate {pc pc' : RotatePc} (h : Sees u s t)
    (hpc : rotateNext cfg s d u webhookId pc = some (s', pc')) :
    ∃ t', rotateNext cfg t d u webhookId pc = some (t', pc') ∧ Sees u s' t' := by
  cases pc with
  | find =>
    obtain ⟨rfl, rfl⟩ := Prod.mk.inj (Option.some.inj hpc)
    refine ⟨t, ?_, h⟩
    rw [rotateNext, h.findById]
  | update secret kept newVersion =>
    obtain ⟨rfl, rfl⟩ := Prod.mk.inj (Option.some.inj hpc)
    refine ⟨_, rfl, ?_⟩
    split
    · exact h.updateSecret webhookId kept newVersion
    · exact h
  | updated secret =>
    obtain ⟨rfl, rfl⟩ := Prod.mk.inj (Option.some.inj hpc)
    exact ⟨t, rfl, h⟩
  | unanswered _ | returned _ | threw _ | failed => cases hpc

theorem Sees.next_list {pc pc' : ListPc} (h : Sees u s t)
    (hpc : listNext s d u pc = some (s', pc')) :
    ∃ t', listNext t d u pc = some (t', pc') ∧ Sees u s' t' := by
  cases pc with
  | select =>
    obtain ⟨rfl, rfl⟩ := Prod.mk.inj (Option.some.inj hpc)
    refine ⟨t, ?_, h⟩
    rw [listNext, h.findByOrg]
  | returned _ => cases hpc

theorem Sees.next_remove {pc pc' : RemovePc} (h : Sees u s t)
    (hpc : removeNext s u webhookId pc = some (s', pc')) :
    ∃ t', removeNext t u webhookId pc = some (t', pc') ∧ Sees u s' t' := by
  cases pc with
  | find =>
    obtain ⟨rfl, rfl⟩ := Prod.mk.inj (Option.some.inj hpc)
    refine ⟨t, ?_, h⟩
    rw [removeNext, h.findById]
  | softDelete =>
    obtain ⟨rfl, rfl⟩ := Prod.mk.inj (Option.some.inj hpc)
    exact ⟨_, rfl, h.softDelete webhookId⟩
  | returned | threw _ => cases hpc

end Own

/-- **A tenant's own statement** does the same in two stores the tenant cannot tell apart. -/
theorem registration_own {c c' : Call} (h : Sees u s t) (hc : c.orgId = u) (hG : Unused s c d)
    (hn : c.next cfg s d = some (s', c')) :
    Unused t c d ∧ ∃ t', c.next cfg t d = some (t', c') ∧ Sees u s' t' := by
  refine ⟨fun hins => h.primary.find_none (hG hins), ?_⟩
  cases c with
  | create orgId userId input pc =>
    obtain rfl : orgId = u := hc
    obtain ⟨pc', hpc, rfl⟩ := pc_of_next hn
    obtain ⟨t', ht', hsees⟩ := h.next_create hG hpc
    exact ⟨t', by rw [Call.next, ht']; rfl, hsees⟩
  | rotateSecret orgId webhookId userId pc =>
    obtain rfl : orgId = u := hc
    obtain ⟨pc', hpc, rfl⟩ := pc_of_next hn
    obtain ⟨t', ht', hsees⟩ := h.next_rotate hpc
    exact ⟨t', by rw [Call.next, ht']; rfl, hsees⟩
  | listByOrg orgId pc =>
    obtain rfl : orgId = u := hc
    obtain ⟨pc', hpc, rfl⟩ := pc_of_next hn
    obtain ⟨t', ht', hsees⟩ := h.next_list hpc
    exact ⟨t', by rw [Call.next, ht']; rfl, hsees⟩
  | remove orgId webhookId pc =>
    obtain rfl : orgId = u := hc
    obtain ⟨pc', hpc, rfl⟩ := pc_of_next hn
    obtain ⟨t', ht', hsees⟩ := h.next_remove hpc
    exact ⟨t', by rw [Call.next, ht']; rfl, hsees⟩

/-- The secret that a call has stored, with its organisation: it is still to be returned, or it
was. -/
def Call.stored : Call → Option (String × String)
  | .create orgId _ _ (.inserted _ secret) | .create orgId _ _ (.unanswered secret)
  | .create orgId _ _ (.returned _ secret) => some (orgId, secret)
  | .rotateSecret orgId _ _ (.updated secret) | .rotateSecret orgId _ _ (.unanswered secret)
  | .rotateSecret orgId _ _ (.returned secret) => some (orgId, secret)
  | _ => none

/-- What a statement does to the webhooks: a row of a new secret, a new secret in a row that is
there, or nothing to the secrets. -/
inductive Stepped (s s' : Store) (c c' : Call) (d : Draw α) : Prop
  | same (h : s' = s) (hkept : ∀ x, c.stored = some x → c'.stored = some x)
  | created {orgId userId secret : String} {input : CreateWebhookInput} {kept : SecretColumns}
      {rows : Table SubscriptionRow.id} (hc : c = .create orgId userId input (.insert secret kept))
      (hins : s.primary.insert (input.row d.id orgId userId kept s.now) = some rows)
      (hs : s' = { s with primary := rows }) (hc' : c'.stored = some (orgId, secret))
  | rotated {orgId webhookId userId secret : String} {kept : SecretColumns} {version : ℕ}
      (hc : c = .rotateSecret orgId webhookId userId (.update secret kept version))
      (hs : s' = s.updateSecret webhookId orgId kept version)
      (hc' : c'.stored = some (orgId, secret))
  | removed {orgId webhookId : String} (hc : c = .remove orgId webhookId .softDelete)
      (hs : s' = s.softDelete webhookId orgId)

/-- What each statement of `create` does. -/
theorem stepped_create {c' : Call} {orgId userId : String} {input : CreateWebhookInput}
    {pc : CreatePc} (hn : (Call.create orgId userId input pc).next cfg s d = some (s', c')) :
    Stepped s s' (.create orgId userId input pc) c' d := by
  obtain ⟨pc', hpc, rfl⟩ := pc_of_next hn
  cases pc with
  | isEnabled | lookup =>
    obtain ⟨rfl, -⟩ := Prod.mk.inj (Option.some.inj hpc)
    exact .same rfl nofun
  | insert secret kept =>
    rw [createNext] at hpc
    split at hpc
    case h_1 s₁ hins =>
      obtain ⟨rfl, rfl⟩ := Prod.mk.inj (Option.some.inj hpc)
      split at hins
      case isFalse => cases hins
      case isTrue =>
        obtain ⟨rows, hrows, rfl⟩ := Option.map_eq_some_iff.mp hins
        refine .created rfl hrows rfl ?_
        split <;> rfl
    case h_2 =>
      obtain ⟨rfl, -⟩ := Prod.mk.inj (Option.some.inj hpc)
      exact .same rfl nofun
  | inserted webhook secret =>
    obtain ⟨rfl, rfl⟩ := Prod.mk.inj (Option.some.inj hpc)
    exact .same rfl fun _ hx => hx
  | unanswered _ | returned _ _ | threw _ | failed => cases hpc

/-- A statement of a rotation takes one of these steps. -/
theorem stepped_rotate {c' : Call} {orgId webhookId userId : String} {pc : RotatePc}
    (hn : (Call.rotateSecret orgId webhookId userId pc).next cfg s d = some (s', c')) :
    Stepped s s' (.rotateSecret orgId webhookId userId pc) c' d := by
  obtain ⟨pc', hpc, rfl⟩ := pc_of_next hn
  cases pc with
  | find =>
    obtain ⟨rfl, -⟩ := Prod.mk.inj (Option.some.inj hpc)
    exact .same rfl nofun
  | update secret kept newVersion =>
    obtain ⟨rfl, rfl⟩ := Prod.mk.inj (Option.some.inj hpc)
    cases d.outcome with
    | ok | lost => exact .rotated rfl rfl rfl
    | failed => exact .same rfl nofun
  | updated secret =>
    obtain ⟨rfl, rfl⟩ := Prod.mk.inj (Option.some.inj hpc)
    exact .same rfl fun _ hx => hx
  | unanswered _ | returned _ | threw _ | failed => cases hpc

/-- **What a statement does**, of whatever call. -/
theorem stepped_next {c c' : Call} (hn : c.next cfg s d = some (s', c')) :
    Stepped s s' c c' d := by
  cases c with
  | create orgId userId input pc => exact stepped_create hn
  | rotateSecret orgId webhookId userId pc => exact stepped_rotate hn
  | listByOrg orgId pc =>
    obtain ⟨pc', hpc, rfl⟩ := pc_of_next hn
    cases pc with
    | select =>
      obtain ⟨rfl, -⟩ := Prod.mk.inj (Option.some.inj hpc)
      exact .same rfl nofun
    | returned _ => cases hpc
  | remove orgId webhookId pc =>
    obtain ⟨pc', hpc, rfl⟩ := pc_of_next hn
    cases pc with
    | find =>
      obtain ⟨rfl, -⟩ := Prod.mk.inj (Option.some.inj hpc)
      exact .same rfl nofun
    | softDelete =>
      obtain ⟨rfl, -⟩ := Prod.mk.inj (Option.some.inj hpc)
      exact .removed rfl rfl
    | returned | threw _ => cases hpc

/-- What another organisation's call does is not seen. -/
theorem registration_other {c c' : Call} (h : Sees u s t) (hc : c.orgId ≠ u)
    (hn : c.next cfg s d = some (s', c')) : Sees u s' t := by
  cases stepped_next hn with
  | same hs _ => exact hs ▸ h
  | created hcall hins hs _ =>
    subst hcall
    subst hs
    exact ⟨h.now, h.primary.insert_other hc hins, h.replica⟩
  | rotated hcall hs _ =>
    subst hcall
    subst hs
    exact h.updateSecret_other hc _ _ _
  | removed hcall hs =>
    subst hcall
    subst hs
    exact h.softDelete_other hc _

/-- **Organisations are kept apart** by the registration of webhooks. -/
theorem registration_apart (cfg : Config α) :
    registrationTenancy.Apart (registrationMachine cfg) fun s c d => Unused s c d where
  owner_next := by
    intro s c d s' c' hn
    cases c <;>
      (obtain ⟨pc', -, rfl⟩ := pc_of_next hn
       rfl)
  own := fun u s t c d s' c' h hc hG hn => registration_own h hc hG hn
  other := fun u s t c d s' c' h hc _ hn => registration_other h hc hn
  env_own := by
    intro u s t e h hv
    cases e with
    | tick ms => exact ⟨congrArg (· + ms) h.now, h.primary, h.replica⟩
    | replicate => exact ⟨h.now, h.primary, h.primary⟩
    | offboard orgId =>
      obtain rfl : orgId = u := hv orgId rfl
      exact h.offboard
  env_other := by
    intro u s t e v h hv hne
    cases e with
    | tick ms => cases hv
    | replicate => cases hv
    | offboard orgId =>
      obtain rfl : orgId = v := Option.some.inj hv
      exact h.offboard_other hne

end Apart

end WorkPlatform.Webhook.Registration

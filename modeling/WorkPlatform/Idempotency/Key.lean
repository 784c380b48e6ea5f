import Mathlib.Data.String.Basic
import WorkPlatform.Machinery.Delimited
import WorkPlatform.Shared.AppError

/-!
# Idempotency/Key — which requests share an idempotency record

`idempotencyMiddleware` decides whether a request is checked at all and, if so, under which
record: the SHA-256 of `org:user:path:key`.  The method is not part of it, and the four fields are
joined with an unescaped colon.  Organisation and user ids are UUIDs, without a colon; the path
and the key are the client's.

`separated_iff` says exactly which pairs of requests the record keeps apart.
-/

namespace WorkPlatform.Idempotency

open Machinery

/-! ## Requests -/

/-- HTTP methods. -/
inductive Method
  | get | head | post | put | patch | delete | options
  deriving DecidableEq, Repr

/-- `IDEMPOTENCY_METHODS`. -/
def idempotencyMethods : List Method := [.post, .put, .patch]

/-- An id as the server carries it: the text of a UUID, or the empty text of a token without
organisation.  No form PostgreSQL accepts as a UUID holds a colon. -/
structure IdText where
  text : String
  noColon : ':' ∉ text.toList
  deriving DecidableEq

/-- The fields of `req.user` the middleware reads. -/
structure User where
  userId : IdText
  orgId : IdText

/-- What the middleware reads of a request; `orgContext` is the organisation id the
organisation middleware has put there. -/
structure Request where
  method : Method
  path : String
  idempotencyKey : Option String
  user : Option User
  orgContext : Option IdText

/-- The arguments of `checkAndStore`. -/
structure CheckArgs where
  clientKey : String
  orgId : IdText
  userId : IdText
  endpoint : String
  deriving DecidableEq

/-- What the middleware does with a request before any statement. -/
inductive Admission
  | next
  | error (e : AppError)
  | checkAndStore (args : CheckArgs)

/-- `a || b` on texts: the empty one is falsy. -/
def orText (a b : IdText) : IdText := if a.text = "" then b else a

/-- `req.orgContext?.orgId || req.user?.orgId || userId`. -/
def orgScope (req : Request) (user : User) : IdText :=
  match req.orgContext with
  | some orgId => orText orgId (orText user.orgId user.userId)
  | none => orText user.orgId user.userId

/-- `idempotencyMiddleware` up to `checkAndStore`. -/
def idempotencyMiddleware (req : Request) : Admission :=
  if req.method ∉ idempotencyMethods then .next
  else
    let missing : AppError := .badRequest "MISSING_IDEMPOTENCY_KEY"
      "Idempotency-Key header is required for mutating requests"
    match req.idempotencyKey with
    | none => .error missing
    | some clientKey =>
      if clientKey = "" then .error missing
      else match req.user with
        | none => .next
        | some user =>
          if user.userId.text = "" ∨ (orgScope req user).text = "" then .next
          else .checkAndStore ⟨clientKey, orgScope req user, user.userId, req.path⟩

/-- The text `computeKeyHash` hashes. -/
def keyText (args : CheckArgs) : String :=
  args.orgId.text ++ ":" ++ args.userId.text ++ ":" ++ args.endpoint ++ ":" ++ args.clientKey

/-- `IdempotencyService.computeKeyHash`. -/
def computeKeyHash (hashToken : String → String) (args : CheckArgs) : String :=
  hashToken (keyText args)

/-! ## When two records coincide -/

/-- `path:key` reads the same for both: equal fields, or the boundary shifted over `w`. -/
def Overlap (path key path' key' : String) : Prop :=
  (path = path' ∧ key = key')
    ∨ (∃ w, path' = path ++ ":" ++ w ∧ key = w ++ ":" ++ key')
    ∨ ∃ w, path = path' ++ ":" ++ w ∧ key' = w ++ ":" ++ key

theorem toList_keyText (a : CheckArgs) :
    (keyText a).toList = a.orgId.text.toList
      ++ ':' :: (a.userId.text.toList
        ++ ':' :: (a.endpoint.toList ++ ':' :: a.clientKey.toList)) := by
  simp [keyText]

/-- Two keys overlap exactly where their texts are the same. -/
theorem overlap_iff {path key path' key' : String} :
    Overlap path key path' key' ↔
      path.toList ++ ':' :: key.toList = path'.toList ++ ':' :: key'.toList := by
  have hlist : ∀ {x y z : String}, x = y ++ ":" ++ z ↔ x.toList = y.toList ++ ':' :: z.toList := by
    intro x y z
    rw [← String.toList_inj]
    simp
  have hex : ∀ {P : List Char → Prop}, (∃ w : String, P w.toList) ↔ ∃ w, P w :=
    ⟨fun ⟨w, hw⟩ => ⟨_, hw⟩, fun ⟨w, hw⟩ => ⟨String.ofList w, by simpa using hw⟩⟩
  rw [append_sep_eq_iff, Overlap]
  simp only [hlist, String.toList_inj]
  rw [← hex, ← hex]

/-- **Two records coincide** exactly when organisation and user agree and `path:key` reads the
same. -/
theorem keyText_eq_iff {a b : CheckArgs} :
    keyText a = keyText b ↔ a.orgId = b.orgId ∧ a.userId = b.userId
      ∧ Overlap a.endpoint a.clientKey b.endpoint b.clientKey := by
  have hid : ∀ {x y : IdText}, x.text.toList = y.text.toList ↔ x = y := by
    intro x y
    rw [String.toList_inj]
    cases x
    cases y
    simp
  rw [← String.toList_inj, toList_keyText, toList_keyText,
    append_sep_inj a.orgId.noColon b.orgId.noColon,
    append_sep_inj a.userId.noColon b.userId.noColon, hid, hid, ← overlap_iff]

/-! ## What the record keeps apart -/

/-- The components by which requests should be told apart. -/
def scopeOf (req : Request) (a : CheckArgs) : IdText × IdText × Method × String × String :=
  (a.orgId, a.userId, req.method, req.path, a.clientKey)

/-- Two requests that differ in any component use different records. -/
def Separated (hashToken : String → String) (req req' : Request) (a a' : CheckArgs) : Prop :=
  scopeOf req a ≠ scopeOf req' a' → computeKeyHash hashToken a ≠ computeKeyHash hashToken a'

theorem endpoint_of_checkAndStore {req : Request} {a : CheckArgs}
    (h : idempotencyMiddleware req = .checkAndStore a) : a.endpoint = req.path := by
  unfold idempotencyMiddleware at h
  repeat' split at h
  all_goals cases h
  rfl

/-- **The record separates two requests exactly when** they differ in organisation or user, or
`path:key` does not read the same for both: the method never counts, and the boundary between path
and key is lost. -/
theorem separated_iff {hashToken : String → String} (hhash : Function.Injective hashToken)
    {req req' : Request} {a a' : CheckArgs}
    (h : idempotencyMiddleware req = .checkAndStore a)
    (h' : idempotencyMiddleware req' = .checkAndStore a') :
    Separated hashToken req req' a a' ↔ scopeOf req a = scopeOf req' a'
      ∨ a.orgId ≠ a'.orgId ∨ a.userId ≠ a'.userId
      ∨ ¬ Overlap req.path a.clientKey req'.path a'.clientKey := by
  have hkey : computeKeyHash hashToken a = computeKeyHash hashToken a'
      ↔ a.orgId = a'.orgId ∧ a.userId = a'.userId
        ∧ Overlap req.path a.clientKey req'.path a'.clientKey := by
    rw [computeKeyHash, computeKeyHash, hhash.eq_iff, keyText_eq_iff,
      endpoint_of_checkAndStore h, endpoint_of_checkAndStore h']
  rw [Separated, Ne, Ne, hkey]
  tauto

/-! ## Two requests under one record -/

/-- A PATCH of `user` in `org`. -/
def patchOf (path key : String) : Request :=
  ⟨.patch, path, some key, some ⟨⟨"user", by decide⟩, ⟨"org", by decide⟩⟩, none⟩

/-- The arguments it is checked under. -/
def patchArgs (path key : String) : CheckArgs :=
  ⟨key, ⟨"org", by decide⟩, ⟨"user", by decide⟩, path⟩

/-- **The boundary between path and key is lost**: `/tasks/t` with key `k:1` and `/tasks/t:k` with
key `1` share a record. -/
theorem separation_fails :
    ¬ ∀ hashToken : String → String, Function.Injective hashToken →
      ∀ (req req' : Request) (a a' : CheckArgs), idempotencyMiddleware req = .checkAndStore a →
        idempotencyMiddleware req' = .checkAndStore a' → Separated hashToken req req' a a' := by
  intro h
  have hsep := h id Function.injective_id (patchOf "/tasks/t" "k:1") (patchOf "/tasks/t:k" "1")
    (patchArgs "/tasks/t" "k:1") (patchArgs "/tasks/t:k" "1") rfl rfl
  exact hsep (by decide) (by decide)

/-- One path under two keys: the records differ. -/
theorem separated_by_key :
    Separated id (patchOf "/tasks/t" "k1") (patchOf "/tasks/t" "k2")
      (patchArgs "/tasks/t" "k1") (patchArgs "/tasks/t" "k2") := by
  refine (separated_iff Function.injective_id rfl rfl).mpr (Or.inr (Or.inr (Or.inr ?_)))
  rw [overlap_iff]
  decide

end WorkPlatform.Idempotency

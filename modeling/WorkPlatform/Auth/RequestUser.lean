import Mathlib.Data.Fin.VecNotation
import WorkPlatform.Auth.Rotation

/-!
# Auth/RequestUser — what the request context says of its token

    generateAccessToken   sub, orgId, role, isPlatformAdmin, mfaVerifiedAt, auth_time, jti
    authenticate          sub, orgId, role, isPlatformAdmin, mfaVerifiedAt, authTime,  jti, exp

Writer and reader name one claim differently, so that no request knows when its user authenticated
(`requestUser_payload`).  Along a chain of refreshes the user, the organisation and the jti of the
row come through, the time of the authentication never does (`chain_context`).
-/

namespace WorkPlatform.Auth

open Machinery

variable {ι : Type*}

/-! ## The claims -/

/-- A value of a claim. -/
inductive ClaimValue
  | text (s : String)
  | number (n : ℕ)
  | flag (b : Bool)
  deriving DecidableEq

/-- The claims of a token; one that is not there is `undefined`. -/
abbrev JwtPayload := List (String × ClaimValue)

namespace JwtPayload

/-- A claim that is a text. -/
def text (payload : JwtPayload) (key : String) : Option String :=
  (payload.lookup key).bind fun
    | .text s => some s
    | _ => none

/-- A claim that is a number. -/
def number (payload : JwtPayload) (key : String) : Option ℕ :=
  (payload.lookup key).bind fun
    | .number n => some n
    | _ => none

/-- A claim that is a flag. -/
def flag (payload : JwtPayload) (key : String) : Option Bool :=
  (payload.lookup key).bind fun
    | .flag b => some b
    | _ => none

end JwtPayload

/-- The role as it is signed. -/
def Role.text : Role → String
  | .orgOwner => "org_owner"
  | .orgAdmin => "org_admin"
  | .member => "member"
  | .guest => "guest"

/-- The object `generateAccessToken` signs, with what `jwt.sign` adds; JSON has no `undefined`. -/
def AccessToken.payload (t : AccessToken) : JwtPayload :=
  [("sub", .text t.sub), ("orgId", .text t.orgId), ("role", .text t.role.text),
    ("isPlatformAdmin", .flag t.isPlatformAdmin)]
  ++ (t.mfaVerifiedAt.map fun m => ("mfaVerifiedAt", ClaimValue.number m)).toList
  ++ [("auth_time", .number t.authTime), ("jti", .text t.jti), ("iat", .number t.iat),
    ("exp", .number t.exp)]

/-- `req.user`. -/
structure RequestUser where
  userId : Option String
  orgId : Option String
  role : Option String
  isPlatformAdmin : Bool
  jti : Option String
  exp : Option ℕ
  authTime : Option ℕ
  mfaVerifiedAt : Option ℕ
  deriving DecidableEq

/-- What `authenticate` makes of the payload. -/
def requestUser (payload : JwtPayload) : RequestUser where
  userId := payload.text "sub"
  orgId := payload.text "orgId"
  role := payload.text "role"
  isPlatformAdmin := (payload.flag "isPlatformAdmin").getD false
  jti := payload.text "jti"
  exp := payload.number "exp"
  authTime := payload.number "authTime"
  mfaVerifiedAt := payload.number "mfaVerifiedAt"

/-- **Writer and reader** agree on every claim but one. -/
@[simp] theorem requestUser_payload (t : AccessToken) :
    requestUser t.payload = ⟨some t.sub, some t.orgId, some t.role.text, t.isPlatformAdmin,
      some t.jti, some t.exp, none, t.mfaVerifiedAt⟩ := by
  obtain ⟨sub, orgId, role, isPlatformAdmin, mfaVerifiedAt, authTime, jti, iat, exp⟩ := t
  cases mfaVerifiedAt <;> rfl

/-! ## Chains -/

/-- A pair comes from a login, an OAuth or SAML callback, or a magic link. -/
def Authenticated (p : Calls ι) (first : TokenPair) : Prop :=
  ∃ i, (∃ args, (p.calls i).at' = .issue args (.returned first))
    ∨ ∃ token, (p.calls i).at' = .link token (.returned first)

/-- The pairs of one authentication: its own, and those that refreshes have made of them. -/
inductive Chain (p : Calls ι) (first : TokenPair) : TokenPair → Prop
  | authenticated : Authenticated p first → Chain p first first
  | refreshed {i : ι} {prev pair : TokenPair} {row : RefreshTokenRow} : Chain p first prev →
      (p.calls i).at' = .refresh prev.refreshToken (.returned row pair) → Chain p first pair

/-- The row of a pair, and the jti it names. -/
def NamesJti (cfg : Config) (s : Store) (pair : TokenPair) (jti : Option String) : Prop :=
  ∃ row ∈ s.refreshTokens.rows, row.tokenHash = cfg.hashToken pair.refreshToken
    ∧ row.lastAccessTokenJti = jti

/-- **The context is carried**: what was put in at the authentication, the jti of the refresh row,
and the time of the authentication. -/
structure CarriesContext (cfg : Config) (s : Store) (first pair : TokenPair)
    (user : RequestUser) : Prop where
  userId : user.userId = some first.accessToken.sub
  orgId : user.orgId = some first.accessToken.orgId
  role : user.role = some first.accessToken.role.text
  isPlatformAdmin : user.isPlatformAdmin = first.accessToken.isPlatformAdmin
  jti : NamesJti cfg s pair user.jti
  authTime : user.authTime = some first.accessToken.authTime

/-! ## What the table records of a pair -/

/-- The table has the row, revoked or not. -/
def RefreshTokens.Records (t : RefreshTokens) (row : RefreshTokenRow) : Prop :=
  ∃ b, { row with isRevoked := b } ∈ t.rows

section Records

variable {t t' : RefreshTokens} {row row' : RefreshTokenRow}

theorem records_of_mem (h : row ∈ t.rows) : t.Records row := ⟨row.isRevoked, h⟩

theorem RefreshTokens.Records.revokeWhere (h : t.Records row) (p : RefreshTokenRow → Bool) :
    (t.revokeWhere p).Records row := by
  obtain ⟨b, hmem⟩ := h
  exact ⟨_, List.mem_map.mpr ⟨_, hmem, rfl⟩⟩

theorem RefreshTokens.Records.insert (h : t.Records row) (hins : t.insert row' = some t') :
    t'.Records row := by
  obtain ⟨b, hmem⟩ := h
  rw [RefreshTokens.Records, RefreshTokens.insert_rows hins]
  exact ⟨b, List.mem_cons_of_mem _ hmem⟩

theorem records_insert (hins : t.insert row = some t') : t'.Records row := by
  refine records_of_mem ?_
  rw [RefreshTokens.insert_rows hins]
  exact List.mem_cons_self

/-- The explicit UPDATE of the jti writes what the row has. -/
theorem RefreshTokens.Records.setJti (h : t.Records row) {jti : String} (hrow' : t.Records row')
    (hjti : row'.lastAccessTokenJti = some jti) : (t.setJti row'.id jti).Records row := by
  obtain ⟨b, hmem⟩ := h
  obtain ⟨b', hmem'⟩ := hrow'
  refine ⟨b, List.mem_map.mpr ⟨_, hmem, ?_⟩⟩
  by_cases hid : row.id = row'.id
  · have heq := congrArg RefreshTokenRow.lastAccessTokenJti
      (RefreshTokens.eq_of_id_eq hmem hmem' hid)
    have hsame : row.lastAccessTokenJti = some jti := heq.trans hjti
    simp [RefreshTokenRow.setJti, hid, hsame]
  · simp [RefreshTokenRow.setJti, hid]

/-- Rows of one hash agree on all the rest. -/
theorem RefreshTokens.Records.eq_of_hash (h : t.Records row) (h' : t.Records row')
    (hhash : row.tokenHash = row'.tokenHash) :
    row.userId = row'.userId ∧ row.orgId = row'.orgId := by
  obtain ⟨b, hmem⟩ := h
  obtain ⟨b', hmem'⟩ := h'
  obtain ⟨-, huser, horg, -⟩ :=
    RefreshTokenRow.mk.inj (RefreshTokens.eq_of_hash_eq hmem hmem' hhash)
  exact ⟨huser, horg⟩

end Records

/-- The row to be says of the token whose it is. -/
structure Minted.Faithful (m : Minted) : Prop where
  sub : m.userId = m.accessToken.sub
  orgId : m.orgId.getD "" = m.accessToken.orgId

/-- A pair whose row is in the table. -/
def Filed (cfg : Config) (t : RefreshTokens) (pair : TokenPair) : Prop :=
  ∃ (m : Minted) (id : String), pair = m.pair cfg ∧ m.Faithful ∧ t.Records (m.row cfg id)

/-- A pair that replaces the row; no refresh passes `mfaVerifiedAt` on. -/
structure Replaces (row : RefreshTokenRow) (m : Minted) : Prop where
  faithful : m.Faithful
  userId : m.userId = row.userId
  orgId : m.orgId = row.orgId
  mfaVerifiedAt : m.accessToken.mfaVerifiedAt = none

/-- A row that was found under the token. -/
def Found (cfg : Config) (t : RefreshTokens) (raw : String) (row : RefreshTokenRow) : Prop :=
  t.Records row ∧ row.tokenHash = cfg.hashToken raw

/-- What an issue has to show for its pair. -/
def IssuePc.Traced (cfg : Config) (t : RefreshTokens) : IssuePc → Prop
  | .insert m => m.Faithful
  | .returned pair => Filed cfg t pair
  | .generate | .failed => True

/-- What a magic link has to show for its pair. -/
def LinkPc.Traced (cfg : Config) (t : RefreshTokens) : LinkPc → Prop
  | .insert m => m.Faithful
  | .returned pair => Filed cfg t pair
  | _ => True

/-- What a refresh has to show: the row it found, and of its pair the row it replaced. -/
def RefreshPc.Traced (cfg : Config) (t : RefreshTokens) (raw : String) : RefreshPc → Prop
  | .lookupUser row | .lookupRole row _ _ | .revoke row _ _ => Found cfg t raw row
  | .insert row m => Found cfg t raw row ∧ Replaces row m
  | .updateJti row m newId => Found cfg t raw row ∧ Replaces row m ∧ t.Records (m.row cfg newId)
  | .returned row pair => Found cfg t raw row
      ∧ ∃ (m : Minted) (id : String), pair = m.pair cfg ∧ Replaces row m ∧ t.Records (m.row cfg id)
  | _ => True

/-- **What a call knows of the table.** -/
def Call.Traced (cfg : Config) (t : RefreshTokens) : Call → Prop
  | .issue _ pc => pc.Traced cfg t
  | .refresh raw pc => pc.Traced cfg t raw
  | .link _ pc => pc.Traced cfg t
  | _ => True

/-- The table forgets nothing. -/
def Lasting (t t' : RefreshTokens) : Prop := ∀ row, t.Records row → t'.Records row

section Traces

variable {cfg : Config} {t t' : RefreshTokens} {s s' : Store} {d : Draw} {c c' : Call}

theorem Filed.mono (h : Lasting t t') {pair : TokenPair} : Filed cfg t pair → Filed cfg t' pair
  | ⟨m, id, hpair, hm, hrow⟩ => ⟨m, id, hpair, hm, h _ hrow⟩

theorem Found.mono (h : Lasting t t') {raw : String} {row : RefreshTokenRow} :
    Found cfg t raw row → Found cfg t' raw row
  | ⟨hrow, hhash⟩ => ⟨h _ hrow, hhash⟩

theorem IssuePc.Traced.mono (h : Lasting t t') {pc : IssuePc} (hpc : pc.Traced cfg t) :
    pc.Traced cfg t' := by
  cases pc with
  | returned pair => exact Filed.mono h hpc
  | _ => exact hpc

theorem LinkPc.Traced.mono (h : Lasting t t') {pc : LinkPc} (hpc : pc.Traced cfg t) :
    pc.Traced cfg t' := by
  cases pc with
  | returned pair => exact Filed.mono h hpc
  | _ => exact hpc

/-- What was traced to a row stays traced to it. -/
theorem RefreshPc.Traced.mono (h : Lasting t t') {raw : String} {pc : RefreshPc}
    (hpc : pc.Traced cfg t raw) : pc.Traced cfg t' raw := by
  cases pc with
  | lookupUser row => exact Found.mono h hpc
  | lookupRole row orgId isPlatformAdmin => exact Found.mono h hpc
  | revoke row isPlatformAdmin role => exact Found.mono h hpc
  | insert row m => exact ⟨hpc.1.mono h, hpc.2⟩
  | updateJti row m newId => exact ⟨hpc.1.mono h, hpc.2.1, h _ hpc.2.2⟩
  | returned row pair =>
    obtain ⟨hfound, m, id, hpair, hm, hrow⟩ := hpc
    exact ⟨hfound.mono h, m, id, hpair, hm, h _ hrow⟩
  | _ => trivial

theorem Call.Traced.mono (h : Lasting t t') (hc : c.Traced cfg t) : c.Traced cfg t' := by
  cases c with
  | issue args pc => exact IssuePc.Traced.mono h hc
  | refresh raw pc => exact RefreshPc.Traced.mono h hc
  | link token pc => exact LinkPc.Traced.mono h hc
  | _ => trivial

theorem Lasting.refl (t : RefreshTokens) : Lasting t t := fun _ => id

theorem Lasting.revokeWhere (t : RefreshTokens) (p : RefreshTokenRow → Bool) :
    Lasting t (t.revokeWhere p) := fun _ h => h.revokeWhere p

theorem Lasting.insert {row : RefreshTokenRow} (h : t.insert row = some t') : Lasting t t' :=
  fun _ hrow => hrow.insert h

/-! ## One statement -/

/-- A pair of `issueTokenPair`. -/
theorem issueTokenPair_faithful (a : IssueArgs) : (issueTokenPair cfg s d a).2.Faithful := by
  refine ⟨rfl, ?_⟩
  show (if a.orgId = "" then none else some a.orgId).getD "" = a.orgId
  split
  · rename_i hempty
    exact hempty.symm
  · rfl

/-- An issue files its pair, and takes nothing back. -/
theorem traced_issue {a : IssueArgs} {pc pc' : IssuePc} (hpc : pc.Traced cfg s.refreshTokens)
    (h : issueNext cfg s d a pc = some (s', pc')) :
    Lasting s.refreshTokens s'.refreshTokens ∧ pc'.Traced cfg s'.refreshTokens := by
  cases pc with
  | generate =>
    obtain ⟨rfl, rfl⟩ := Prod.mk.inj (Option.some.inj h)
    exact ⟨.refl _, issueTokenPair_faithful a⟩
  | insert m =>
    unfold issueNext at h
    dsimp only at h
    split at h
    · rename_i s₁ hins
      obtain ⟨rfl, rfl⟩ := Prod.mk.inj (Option.some.inj h)
      obtain ⟨t, ht, rfl⟩ := Store.createRefreshToken_eq hins
      exact ⟨.insert ht, m, _, rfl, hpc, records_insert ht⟩
    · obtain ⟨rfl, rfl⟩ := Prod.mk.inj (Option.some.inj h)
      exact ⟨.refl _, trivial⟩
  | returned pair => cases h
  | failed => cases h

theorem traced_linkIssue (v : OneTimeValue) (isPlatformAdmin : Bool) :
    (linkIssue cfg s d v isPlatformAdmin).2.Traced cfg
      (linkIssue cfg s d v isPlatformAdmin).1.refreshTokens :=
  issueTokenPair_faithful _

/-- A magic link files its pair, and takes nothing back. -/
theorem traced_link {token : String} {pc pc' : LinkPc} (hpc : pc.Traced cfg s.refreshTokens)
    (h : linkNext cfg s d token pc = some (s', pc')) :
    Lasting s.refreshTokens s'.refreshTokens ∧ pc'.Traced cfg s'.refreshTokens := by
  cases pc with
  | get =>
    obtain ⟨rfl, rfl⟩ := Prod.mk.inj (Option.some.inj h)
    refine ⟨.refl _, ?_⟩
    split <;> trivial
  | del v =>
    obtain ⟨rfl, rfl⟩ := Prod.mk.inj (Option.some.inj h)
    exact ⟨.refl _, trivial⟩
  | findUser v =>
    unfold linkNext at h
    dsimp only at h
    split at h
    · obtain ⟨rfl, rfl⟩ := Prod.mk.inj (Option.some.inj h)
      exact ⟨.refl _, trivial⟩
    · split at h
      · obtain ⟨rfl, rfl⟩ := Prod.mk.inj (Option.some.inj h)
        exact ⟨.refl _, traced_linkIssue v _⟩
      · obtain ⟨rfl, rfl⟩ := Prod.mk.inj (Option.some.inj h)
        exact ⟨.refl _, trivial⟩
  | verify v isPlatformAdmin =>
    obtain ⟨rfl, rfl⟩ := Prod.mk.inj (Option.some.inj h)
    refine ⟨?_, traced_linkIssue v _⟩
    show Lasting s.refreshTokens (s.updateUser v.userId .verifyEmail).refreshTokens
    rw [updateUser_refreshTokens]
    exact .refl _
  | insert m =>
    unfold linkNext at h
    dsimp only at h
    split at h
    · rename_i s₁ hins
      obtain ⟨rfl, rfl⟩ := Prod.mk.inj (Option.some.inj h)
      obtain ⟨t, ht, rfl⟩ := Store.createRefreshToken_eq hins
      exact ⟨.insert ht, m, _, rfl, hpc, records_insert ht⟩
    · obtain ⟨rfl, rfl⟩ := Prod.mk.inj (Option.some.inj h)
      exact ⟨.refl _, trivial⟩
  | returned pair => cases h
  | threw e => cases h
  | failed => cases h

/-- The row that the SELECT returns has the hash of the token presented. -/
theorem traced_found (now : ℕ) {raw : String} :
    (RefreshPc.found now (s.findRefreshToken (cfg.hashToken raw))).Traced cfg s.refreshTokens
      raw := by
  cases hfind : s.findRefreshToken (cfg.hashToken raw) with
  | none => trivial
  | some row =>
    obtain ⟨hmem, hhash⟩ := findRefreshToken_mem hfind
    unfold RefreshPc.found
    dsimp only
    split
    · trivial
    · split
      · trivial
      · exact ⟨records_of_mem hmem, hhash⟩

/-- A refresh traces its pair to the row it has found, and takes nothing back. -/
theorem traced_refresh {raw : String} {pc pc' : RefreshPc}
    (hpc : pc.Traced cfg s.refreshTokens raw) (h : refreshNext cfg s d raw pc = some (s', pc')) :
    Lasting s.refreshTokens s'.refreshTokens ∧ pc'.Traced cfg s'.refreshTokens raw := by
  cases pc with
  | find =>
    obtain ⟨rfl, rfl⟩ := Prod.mk.inj (Option.some.inj h)
    exact ⟨.refl _, traced_found _⟩
  | revokeFamily row =>
    obtain ⟨rfl, rfl⟩ := Prod.mk.inj (Option.some.inj h)
    refine ⟨.revokeWhere _ _, ?_⟩
    unfold RefreshPc.reused
    split <;> trivial
  | blacklist row jti =>
    unfold refreshNext at h
    dsimp only at h
    split at h
    · rename_i s₁ hs₁
      obtain ⟨rfl, rfl⟩ := Prod.mk.inj (Option.some.inj h)
      obtain rfl := Store.blacklistToken_eq hs₁
      exact ⟨.refl _, trivial⟩
    · obtain ⟨rfl, rfl⟩ := Prod.mk.inj (Option.some.inj h)
      exact ⟨.refl _, trivial⟩
  | lookupUser row =>
    obtain ⟨rfl, rfl⟩ := Prod.mk.inj (Option.some.inj h)
    refine ⟨.refl _, ?_⟩
    cases s.findUserById row.userId with
    | none => trivial
    | some user =>
      unfold RefreshPc.lookedUp
      dsimp only
      split <;> exact hpc
  | lookupRole row orgId isPlatformAdmin =>
    obtain ⟨rfl, rfl⟩ := Prod.mk.inj (Option.some.inj h)
    exact ⟨.refl _, hpc⟩
  | revoke row isPlatformAdmin role =>
    obtain ⟨rfl, rfl⟩ := Prod.mk.inj (Option.some.inj h)
    have hlasting : Lasting s.refreshTokens (s.revokeRefreshToken row.id).refreshTokens :=
      .revokeWhere _ _
    exact ⟨hlasting, Found.mono hlasting hpc, ⟨rfl, rfl⟩, rfl, rfl, rfl⟩
  | insert row m =>
    obtain ⟨hfound, hm⟩ := hpc
    unfold refreshNext at h
    dsimp only at h
    split at h
    · rename_i s₁ hins
      obtain ⟨rfl, rfl⟩ := Prod.mk.inj (Option.some.inj h)
      obtain ⟨t, ht, rfl⟩ := Store.createRefreshToken_eq hins
      exact ⟨.insert ht, hfound.mono (.insert ht), hm, records_insert ht⟩
    · obtain ⟨rfl, rfl⟩ := Prod.mk.inj (Option.some.inj h)
      exact ⟨.refl _, trivial⟩
  | updateJti row m newId =>
    obtain ⟨rfl, rfl⟩ := Prod.mk.inj (Option.some.inj h)
    obtain ⟨hfound, hm, hrow⟩ := hpc
    -- the UPDATE is of the row that the call has just inserted
    have hlasting : Lasting s.refreshTokens (s.refreshTokens.setJti newId m.accessToken.jti) :=
      fun _ hold => hold.setJti hrow rfl
    exact ⟨hlasting, hfound.mono hlasting, m, newId, rfl, hm, hlasting _ hrow⟩
  | _ => cases h

/-- A logout takes no row back. -/
theorem lasting_revoke {raw jti : String} {ttl : ℕ} {pc pc' : RevokePc}
    (h : revokeNext cfg s raw jti ttl pc = some (s', pc')) :
    Lasting s.refreshTokens s'.refreshTokens := by
  cases pc with
  | find =>
    obtain ⟨rfl, -⟩ := Prod.mk.inj (Option.some.inj h)
    exact .refl _
  | revoke id =>
    obtain ⟨rfl, -⟩ := Prod.mk.inj (Option.some.inj h)
    exact .revokeWhere _ _
  | blacklist =>
    unfold revokeNext at h
    dsimp only at h
    split at h
    · rename_i s₁ hs₁
      obtain ⟨rfl, -⟩ := Prod.mk.inj (Option.some.inj h)
      obtain rfl := Store.blacklistToken_eq hs₁
      exact .refl _
    · obtain ⟨rfl, -⟩ := Prod.mk.inj (Option.some.inj h)
      exact .refl _
  | _ => cases h

/-- A password reset forgets no row. -/
theorem lasting_reset {token password : String} {pc pc' : ResetPc}
    (h : resetNext cfg s d token password pc = some (s', pc')) :
    Lasting s.refreshTokens s'.refreshTokens := by
  cases pc with
  | update userId passwordHash changedAt =>
    obtain ⟨rfl, -⟩ := Prod.mk.inj (Option.some.inj h)
    rw [updateUser_refreshTokens]
    exact .refl _
  | revokeAll userId =>
    obtain ⟨rfl, -⟩ := Prod.mk.inj (Option.some.inj h)
    exact .revokeWhere _ _
  | returned _ => cases h
  | threw _ => cases h
  | _ =>
    obtain ⟨rfl, -⟩ := Prod.mk.inj (Option.some.inj h)
    exact .refl _

/-- Nor does an email verification. -/
theorem lasting_email {token : String} {pc pc' : EmailPc}
    (h : emailNext cfg s token pc = some (s', pc')) :
    Lasting s.refreshTokens s'.refreshTokens := by
  cases pc with
  | update userId =>
    obtain ⟨rfl, -⟩ := Prod.mk.inj (Option.some.inj h)
    rw [updateUser_refreshTokens]
    exact .refl _
  | returned => cases h
  | threw _ => cases h
  | _ =>
    obtain ⟨rfl, -⟩ := Prod.mk.inj (Option.some.inj h)
    exact .refl _

/-- Nor does the authentication of a request. -/
theorem lasting_authenticate {token : AccessToken} {pc pc' : AuthPc}
    (h : authNext s d token pc = some (s', pc')) :
    Lasting s.refreshTokens s'.refreshTokens := by
  cases pc with
  | setex user =>
    obtain ⟨rfl, -⟩ := Prod.mk.inj (Option.some.inj h)
    split <;> exact .refl _
  | accepted => cases h
  | threw _ => cases h
  | _ =>
    obtain ⟨rfl, -⟩ := Prod.mk.inj (Option.some.inj h)
    exact .refl _

/-- **One statement** forgets nothing, and its call knows what it did. -/
theorem traced_next (hc : c.Traced cfg s.refreshTokens) (h : next cfg s c d = some (s', c')) :
    Lasting s.refreshTokens s'.refreshTokens ∧ c'.Traced cfg s'.refreshTokens := by
  cases c with
  | issue a pc =>
    obtain ⟨pc', hpc, rfl⟩ := pc_of_next h
    exact traced_issue hc hpc
  | refresh raw pc =>
    obtain ⟨pc', hpc, rfl⟩ := pc_of_next h
    exact traced_refresh hc hpc
  | link token pc =>
    obtain ⟨pc', hpc, rfl⟩ := pc_of_next h
    exact traced_link hc hpc
  | revokeTokens raw jti ttl pc =>
    obtain ⟨pc', hpc, rfl⟩ := pc_of_next h
    exact ⟨lasting_revoke hpc, trivial⟩
  | reset token password pc =>
    obtain ⟨pc', hpc, rfl⟩ := pc_of_next h
    exact ⟨lasting_reset hpc, trivial⟩
  | verifyEmail token pc =>
    obtain ⟨pc', hpc, rfl⟩ := pc_of_next h
    exact ⟨lasting_email hpc, trivial⟩
  | authenticate token pc =>
    obtain ⟨pc', hpc, rfl⟩ := pc_of_next h
    exact ⟨lasting_authenticate hpc, trivial⟩

theorem traced_of_fresh (hc : c.fresh = true) : c.Traced cfg t := by
  cases c with
  | issue a pc => cases pc <;> trivial
  | refresh raw pc => cases pc <;> trivial
  | link token pc => cases pc <;> trivial
  | _ => trivial

end Traces

/-! ## Every run -/

section Runs

variable {cfg : Config} {p q : Calls ι}

/-- **Every run** of calls that start afresh. -/
theorem traced_run [DecidableEq ι] {G : Calls ι → Move ι Draw Env → Prop}
    (hstart : ∀ i, (p.calls i).at'.fresh = true) (h : Run (Pool.step (authMachine cfg)) G p q) :
    ∀ i, (q.calls i).at'.Traced cfg q.store.refreshTokens := by
  refine Pool.invariant
    (I := fun q : Calls ι => ∀ i, (q.calls i).at'.Traced cfg q.store.refreshTokens)
    (fun i => traced_of_fresh (hstart i)) ?_ ?_ ?_ h
  · intro p i d c s c' hI _ hc hn j
    have hcall := hI i
    rw [hc] at hcall
    obtain ⟨hlasting, hself⟩ := traced_next hcall hn
    by_cases hj : j = i
    · subst hj
      dsimp only
      rw [Function.update_self]
      exact hself
    · dsimp only
      rw [Function.update_of_ne hj]
      exact (hI j).mono hlasting
  · intro p i c hI _ hc j
    dsimp only
    rw [at'_update_down hc]
    exact hI j
  · intro p e hI _ j
    show (p.calls j).at'.Traced cfg (env p.store e).refreshTokens
    rw [env_refreshTokens]
    exact hI j

variable {first pair : TokenPair}

/-- The pair of an authentication has its row on file. -/
theorem authenticated_filed (hq : ∀ i, (q.calls i).at'.Traced cfg q.store.refreshTokens)
    (h : Authenticated q first) : Filed cfg q.store.refreshTokens first := by
  obtain ⟨i, ⟨args, hi⟩ | ⟨token, hi⟩⟩ := h
  · have hcall := hq i
    rw [hi] at hcall
    exact hcall
  · have hcall := hq i
    rw [hi] at hcall
    exact hcall

/-- Every pair of a chain is on file, for the user and the organisation of the first. -/
theorem chain_filed (hq : ∀ i, (q.calls i).at'.Traced cfg q.store.refreshTokens)
    (h : Chain q first pair) :
    Filed cfg q.store.refreshTokens pair ∧ pair.accessToken.sub = first.accessToken.sub
      ∧ pair.accessToken.orgId = first.accessToken.orgId := by
  induction h with
  | authenticated hauth => exact ⟨authenticated_filed hq hauth, rfl, rfl⟩
  | @refreshed i prev pair row hprev hi ih =>
    obtain ⟨⟨m, id, rfl, hm, hrow⟩, hsub, horg⟩ := ih
    have hcall := hq i
    rw [hi] at hcall
    obtain ⟨⟨hfound, hhash⟩, m', id', rfl, hm', hrow'⟩ := hcall
    -- the row that was found under the token is the one that was filed with it
    obtain ⟨huser, horgRow⟩ := hfound.eq_of_hash hrow hhash
    refine ⟨⟨m', id', rfl, hm'.faithful, hrow'⟩, ?_, ?_⟩
    · calc m'.accessToken.sub = m'.userId := hm'.faithful.sub.symm
        _ = row.userId := hm'.userId
        _ = m.userId := huser
        _ = m.accessToken.sub := hm.sub
        _ = first.accessToken.sub := hsub
    · calc m'.accessToken.orgId = m'.orgId.getD "" := hm'.faithful.orgId.symm
        _ = row.orgId.getD "" := by rw [hm'.orgId]
        _ = m.orgId.getD "" := by rw [horgRow]; rfl
        _ = m.accessToken.orgId := hm.orgId
        _ = first.accessToken.orgId := horg

/-- A pair on file names its jti. -/
theorem Filed.namesJti (h : Filed cfg q.store.refreshTokens pair) :
    NamesJti cfg q.store pair (some pair.accessToken.jti) := by
  obtain ⟨m, id, rfl, -, b, hmem⟩ := h
  exact ⟨_, hmem, rfl, rfl⟩

/-- **What becomes of the context along a chain**: the user, the organisation and the jti of the
row are those of the token, and the time of the authentication is lost at once. -/
theorem chain_context [DecidableEq ι] {G : Calls ι → Move ι Draw Env → Prop}
    (hstart : ∀ i, (p.calls i).at'.fresh = true) (h : Run (Pool.step (authMachine cfg)) G p q)
    (hchain : Chain q first pair) :
    ¬ CarriesContext cfg q.store first pair (requestUser pair.accessToken.payload)
      ∧ (requestUser pair.accessToken.payload).userId = some first.accessToken.sub
      ∧ (requestUser pair.accessToken.payload).orgId = some first.accessToken.orgId
      ∧ NamesJti cfg q.store pair (requestUser pair.accessToken.payload).jti := by
  obtain ⟨hfiled, hsub, horg⟩ := chain_filed (traced_run hstart h) hchain
  rw [requestUser_payload]
  refine ⟨fun hcarries => ?_, congrArg some hsub, congrArg some horg, hfiled.namesJti⟩
  cases hcarries.authTime

end Runs

/-! ## A login and a refresh -/

/-- A user logs in, and refreshes a minute later. -/
def loginThenRefresh : Calls (Fin 2) :=
  ⟨demoSession, ![.up (.issue ⟨"u", "", .member, false, none⟩ .generate),
    .up (.refresh "t1" .find)]⟩

def loginThenRefreshMoves : List (Move (Fin 2) Draw Env) :=
  List.replicate 2 (.run 0 (drawn "a1" "t1" "r1")) ++ .env (.tick 60000)
    :: List.replicate 5 (.run 1 (drawn "a2" "t2" "r2"))

/-- The pair of the login, and the one of the refresh. -/
def loginPair : TokenPair :=
  ⟨generateAccessToken demoConfig 0 "a1" ⟨"u", "", .member, false, none⟩, "t1", 900⟩

def refreshedPair : TokenPair :=
  ⟨generateAccessToken demoConfig 60000 "a2" ⟨"u", "", .member, false, none⟩, "t2", 900⟩

theorem loginThenRefresh_fresh : ∀ i, (loginThenRefresh.calls i).at'.fresh = true := by decide

/-- The two calls have returned their pairs. -/
def PairsReturned (q : Calls (Fin 2)) : Prop :=
  q.calls 0 = .up (.issue ⟨"u", "", .member, false, none⟩ (.returned loginPair))
    ∧ q.calls 1 = .up (.refresh "t1" (.returned
      ⟨"r1", "u", none, "t1", "fa1", some "a1", false, refreshTokenTtl⟩ refreshedPair))

instance : DecidablePred PairsReturned := fun _ => inferInstanceAs (Decidable (_ ∧ _))

theorem PairsReturned.chain {q : Calls (Fin 2)} (h : PairsReturned q) :
    Chain q loginPair refreshedPair := by
  have hfirst : Authenticated q loginPair := ⟨0, Or.inl ⟨_, by rw [h.1, Proc.at'_up]⟩⟩
  exact .refreshed (i := 1) (.authenticated hfirst) (by rw [h.2, Proc.at'_up]; rfl)

theorem exists_pairsReturned :
    ∃ q, Run (Pool.step (authMachine demoConfig)) anyStep loginThenRefresh q
      ∧ PairsReturned q := by
  obtain ⟨q, hq, hpairs⟩ := exists_run_of_exec (Pool.step (authMachine demoConfig)) anyStep
    loginThenRefresh loginThenRefreshMoves (fun q => PairsReturned q) (by decide)
  exact ⟨q, hq, of_decide_eq_true hpairs⟩

/-- **Nobody knows when the user logged in**, before the refresh or after it. -/
theorem login_time_undefined :
    (∀ i, (loginThenRefresh.calls i).at'.fresh = true)
      ∧ ∃ q, Run (Pool.step (authMachine demoConfig)) anyStep loginThenRefresh q
        ∧ Chain q loginPair refreshedPair
        ∧ (requestUser loginPair.accessToken.payload).authTime = none
        ∧ (requestUser refreshedPair.accessToken.payload).authTime = none
        ∧ ¬ CarriesContext demoConfig q.store loginPair refreshedPair
          (requestUser refreshedPair.accessToken.payload) := by
  obtain ⟨q, hq, hpairs⟩ := exists_pairsReturned
  refine ⟨loginThenRefresh_fresh, q, hq, hpairs.chain, by decide, by decide, fun hcarries => ?_⟩
  have hnone : (requestUser refreshedPair.accessToken.payload).authTime = none := by decide
  exact absurd (hnone.symm.trans hcarries.authTime) (by simp)

theorem chain_context_of_login :
    ∃ q, Run (Pool.step (authMachine demoConfig)) anyStep loginThenRefresh q
      ∧ (requestUser refreshedPair.accessToken.payload).userId
        = some loginPair.accessToken.sub := by
  obtain ⟨q, hq, hpairs⟩ := exists_pairsReturned
  exact ⟨q, hq, (chain_context loginThenRefresh_fresh hq hpairs.chain).2.1⟩

end WorkPlatform.Auth

import WorkPlatform.Auth.Reuse

/-!
# Auth/Blacklist — the access tokens of a family whose refresh token was reused

A refresh row remembers the jti of one access token, the one it was issued with.  Reuse of a row
that was rotated blacklists this jti, so the access tokens issued since are still accepted: the
newest one always outlives the one that is blacklisted (`Outlived`).  Hence every access token of
the family that has not expired is on the blacklist exactly when all of them have expired
(`family_blacklisted_iff`).
-/

namespace WorkPlatform.Auth

open Machinery

variable {ι : Type*}

/-! ## The property -/

/-- Every access token of the family that has not expired is on the blacklist. -/
def FamilyBlacklisted (s : Store) (familyId : String) : Prop :=
  ∀ x ∈ s.issued, x.familyId = familyId → s.now / 1000 < x.token.exp →
    s.isBlacklisted x.token.jti = true

/-- Every access token of the family has expired. -/
def FamilyExpired (s : Store) (familyId : String) : Prop :=
  ∀ x ∈ s.issued, x.familyId = familyId → x.token.exp ≤ s.now / 1000

/-- A token of the row's family that the row does not name expires last. -/
def Outlived (is : List Issued) (r : RefreshTokenRow) : Prop :=
  ∃ x ∈ is, x.familyId = r.familyId ∧ r.lastAccessTokenJti ≠ some x.token.jti
    ∧ ∀ y ∈ is, y.familyId = r.familyId → y.token.exp ≤ x.token.exp

/-- Where only the token the row names is blacklisted, the family is covered exactly when it has
expired. -/
theorem familyBlacklisted_iff {s : Store} {r : RefreshTokenRow} (hout : Outlived s.issued r)
    (honly : ∀ jti, s.isBlacklisted jti = true → r.lastAccessTokenJti = some jti) :
    FamilyBlacklisted s r.familyId ↔ FamilyExpired s r.familyId := by
  constructor
  · intro h y hy hfam
    by_contra hlive
    obtain ⟨x, hx, hxfam, hne, hlast⟩ := hout
    have hunexpired : s.now / 1000 < x.token.exp :=
      lt_of_lt_of_le (not_le.mp hlive) (hlast y hy hfam)
    exact hne (honly _ (h x hx hxfam hunexpired))
  · intro h x hx hfam hlive
    exact absurd (h x hx hfam) (not_le.mpr hlive)

/-! ## What the stores keep before a reuse -/

/-- The rows name tokens that were signed, and no token outlasts one signed now. -/
structure Ledger (cfg : Config) (s : Store) : Prop where
  signed : ∀ x ∈ s.issued, x.token.exp ≤ s.now / 1000 + cfg.jwtAccessTokenTtl
  named : ∀ r ∈ s.refreshTokens.rows, ∃ x ∈ s.issued, r.lastAccessTokenJti = some x.token.jti

/-- Nothing is on the blacklist. -/
def Unlisted (s : Store) : Prop := ∀ jti, s.blacklist jti = none

/-- Nothing is on the blacklist, and every revoked row was rotated. -/
structure Plain (s : Store) : Prop where
  unlisted : Unlisted s
  outlived : ∀ r ∈ s.refreshTokens.rows, r.isRevoked = true → Outlived s.issued r

variable {cfg : Config} {d : Draw} {s s' : Store}

/-- The drawn jti is new. -/
def FreshJti (is : List Issued) (d : Draw) : Prop := ∀ x ∈ is, x.token.jti ≠ d.jti

/-- A token signed now outlives what every row of its family names, and leaves the other families
as they were. -/
theorem Ledger.outlived_mint (h : Ledger cfg s) (hfresh : FreshJti s.issued d)
    {payload : AccessTokenPayload} {familyId : String} {r : RefreshTokenRow}
    (hr : ∃ x ∈ s.issued, r.lastAccessTokenJti = some x.token.jti)
    (hold : r.familyId ≠ familyId → Outlived s.issued r) :
    Outlived (⟨familyId, generateAccessToken cfg s.now d.jti payload⟩ :: s.issued) r := by
  by_cases hfam : r.familyId = familyId
  · refine ⟨_, List.mem_cons_self, hfam.symm, ?_, ?_⟩
    · obtain ⟨x, hx, hjti⟩ := hr
      rw [hjti]
      exact fun heq => hfresh x hx (Option.some.inj heq)
    · intro y hy _
      rcases List.mem_cons.mp hy with rfl | hy
      · exact le_rfl
      · exact h.signed y hy
  · obtain ⟨x, hx, hxfam, hne, hlast⟩ := hold hfam
    refine ⟨x, List.mem_cons_of_mem _ hx, hxfam, hne, fun y hy hyfam => ?_⟩
    rcases List.mem_cons.mp hy with rfl | hy
    · exact absurd hyfam.symm hfam
    · exact hlast y hy hyfam

/-- Signing a token. -/
theorem Ledger.sign (h : Ledger cfg s) (payload : AccessTokenPayload) (orgId : Option String)
    (familyId : String) : Ledger cfg (mint cfg s d payload orgId familyId).1 where
  signed x hx := by
    rcases List.mem_cons.mp hx with rfl | hx
    · exact le_rfl
    · exact h.signed x hx
  named r hr := by
    obtain ⟨x, hx, hjti⟩ := h.named r hr
    exact ⟨x, List.mem_cons_of_mem _ hx, hjti⟩

theorem Plain.sign (h : Plain s) (hL : Ledger cfg s) (hfresh : FreshJti s.issued d)
    (payload : AccessTokenPayload) (orgId : Option String) (familyId : String) :
    Plain (mint cfg s d payload orgId familyId).1 where
  unlisted := h.unlisted
  outlived r hr hrev :=
    hL.outlived_mint hfresh (hL.named r hr) fun _ => h.outlived r hr hrev

/-- Rotation: revoking a row and signing a token of its family. -/
theorem Ledger.revoke (h : Ledger cfg s) (id : String) : Ledger cfg (s.revokeRefreshToken id) where
  signed := h.signed
  named r hr := by
    obtain ⟨r₀, hr₀, rfl⟩ := List.mem_map.mp hr
    exact h.named r₀ hr₀

/-- A rotation keeps the store plain. -/
theorem Plain.rotate (h : Plain s) (hL : Ledger cfg s) (hfresh : FreshJti s.issued d)
    {row : RefreshTokenRow} (hrow : ∀ r ∈ s.refreshTokens.rows, r.id = row.id →
      r.familyId = row.familyId) (payload : AccessTokenPayload) (orgId : Option String) :
    Plain (mint cfg (s.revokeRefreshToken row.id) d payload orgId row.familyId).1 where
  unlisted := h.unlisted
  outlived r hr hrev := by
    have hL' := hL.revoke row.id
    refine hL'.outlived_mint hfresh (hL'.named r hr) fun hfam => ?_
    obtain ⟨r₀, hr₀, rfl⟩ := List.mem_map.mp hr
    have hid : r₀.id ≠ row.id := fun hid => hfam (hrow r₀ hr₀ hid)
    have hrev₀ : r₀.isRevoked = true := by
      simpa [RefreshTokenRow.revokeIf, hid] using hrev
    exact h.outlived r₀ hr₀ hrev₀

/-- The token of a pair is signed. -/
def Minted.Known (is : List Issued) (m : Minted) : Prop := ∃ x ∈ is, m.accessToken = x.token

/-- The INSERT of a token that is known keeps the ledger. -/
theorem Ledger.insert (h : Ledger cfg s) {m : Minted} (hm : m.Known s.issued)
    (hins : s.createRefreshToken (m.row cfg d.rowId) = some s') : Ledger cfg s' := by
  obtain ⟨t, ht, rfl⟩ := Option.map_eq_some_iff.mp hins
  refine ⟨h.signed, fun r hr => ?_⟩
  dsimp only at hr
  rw [RefreshTokens.insert_rows ht] at hr
  rcases List.mem_cons.mp hr with rfl | hr
  · obtain ⟨x, hx, heq⟩ := hm
    exact ⟨x, hx, congrArg some (congrArg AccessToken.jti heq)⟩
  · exact h.named r hr

/-- It keeps a plain store plain. -/
theorem Plain.insert (h : Plain s) {m : Minted}
    (hins : s.createRefreshToken (m.row cfg d.rowId) = some s') : Plain s' := by
  obtain ⟨t, ht, rfl⟩ := Option.map_eq_some_iff.mp hins
  refine ⟨h.unlisted, fun r hr hrev => ?_⟩
  dsimp only at hr
  rw [RefreshTokens.insert_rows ht] at hr
  rcases List.mem_cons.mp hr with rfl | hr
  · cases hrev
  · exact h.outlived r hr hrev

/-- The explicit update of the jti changes nothing: the row names that token already. -/
theorem updateRefreshTokenJti_eq {id jti : String}
    (h : ∀ r ∈ s.refreshTokens.rows, r.id = id → r.lastAccessTokenJti = some jti) :
    (s.updateRefreshTokenJti id jti).refreshTokens.rows = s.refreshTokens.rows := by
  refine (List.map_congr_left fun r hr => ?_).trans (List.map_id _)
  have hjti : (if r.id = id then some jti else r.lastAccessTokenJti) = r.lastAccessTokenJti := by
    split
    · rename_i hid
      exact (h r hr hid).symm
    · rfl
  rw [RefreshTokenRow.setJti, hjti]
  rfl

/-! ## What the calls keep -/

/-- The revoked row a call has found. -/
def Call.reused : Call → Option RefreshTokenRow
  | .refresh _ (.revokeFamily row) | .refresh _ (.blacklist row _) | .refresh _ (.revoked row) =>
    some row
  | _ => none

/-- The call has presented a token that was revoked. -/
def Call.reusing (c : Call) : Prop := c.reused.isSome

/-- The row a call is about to read. -/
def Call.presented (cfg : Config) (s : Store) : Call → Option RefreshTokenRow
  | .refresh raw .find => s.findRefreshToken (cfg.hashToken raw)
  | _ => none

/-- The call is about to present a token that was revoked. -/
def Call.reuses (cfg : Config) (s : Store) (c : Call) : Prop :=
  ∃ row ∈ c.presented cfg s, row.isRevoked = true

/-- Logins and refreshes only, each with what it relies on while it runs alone. -/
def Call.Sound (s : Store) : Call → Prop
  | .issue _ (.insert m) | .refresh _ (.insert _ m) => m.Known s.issued
  | .refresh _ (.lookupUser row) | .refresh _ (.lookupRole row _ _)
  | .refresh _ (.revoke row _ _) =>
    ∀ r ∈ s.refreshTokens.rows, r.id = row.id → r.familyId = row.familyId
  | .refresh _ (.updateJti _ m newId) =>
    ∀ r ∈ s.refreshTokens.rows, r.id = newId → r.lastAccessTokenJti = some m.accessToken.jti
  | .refresh _ (.revokeFamily row) => Outlived s.issued row ∧ Unlisted s
  | .refresh _ (.blacklist row jti) =>
    Outlived s.issued row ∧ Unlisted s ∧ row.lastAccessTokenJti = some jti
  | .issue _ _ | .refresh _ _ => True
  | _ => False

/-- A login or a refresh that has not started. -/
def Call.opens : Call → Prop
  | .issue _ .generate | .refresh _ .find => True
  | _ => False

theorem sound_of_opens {c : Call} (h : c.opens) : c.Sound s := by
  unfold Call.opens at h
  split at h
  · trivial
  · trivial
  · cases h

/-- A call that is not under way relies on nothing. -/
theorem sound_of_not_busy {c : Call} (hb : ¬ c.busy) (h : c.Sound s) : c.Sound s' := by
  cases c with
  | issue a pc =>
    cases pc with
    | insert m => exact absurd ⟨rfl, rfl⟩ hb
    | _ => trivial
  | refresh raw pc =>
    cases pc with
    | find => trivial
    | returned _ _ => trivial
    | revoked _ => trivial
    | threw _ => trivial
    | failed _ => trivial
    | _ => exact absurd ⟨rfl, rfl⟩ hb
  | _ => exact h.elim

theorem truthy_eq_some {o : Option String} {x : String} (h : truthy o = some x) : o = some x := by
  cases o with
  | none => cases h
  | some y =>
    unfold truthy at h
    dsimp only at h
    split at h
    · cases h
    · exact h

theorem sound_reused {raw : String} {row : RefreshTokenRow} (h : Outlived s.issued row)
    (hu : Unlisted s) : Call.Sound s (.refresh raw (.reused row)) := by
  unfold RefreshPc.reused
  split
  · rename_i jti hjti
    exact ⟨h, hu, truthy_eq_some hjti⟩
  · trivial

/-- What a refresh relies on after it has looked the user up. -/
theorem sound_lookedUp {raw : String} {row : RefreshTokenRow} {o : Option UserRow}
    (h : ∀ r ∈ s.refreshTokens.rows, r.id = row.id → r.familyId = row.familyId) :
    Call.Sound s (.refresh raw (.lookedUp row o)) := by
  cases o with
  | none => trivial
  | some user =>
    unfold RefreshPc.lookedUp
    dsimp only
    split
    · exact h
    · exact h

/-- What a refresh relies on after its SELECT is so. -/
theorem sound_found {raw : String} {now : ℕ} {o : Option RefreshTokenRow}
    (hmem : ∀ row, o = some row → row ∈ s.refreshTokens.rows)
    (hreuse : ∀ row, o = some row → row.isRevoked = true → Outlived s.issued row ∧ Unlisted s) :
    Call.Sound s (.refresh raw (.found now o)) := by
  cases o with
  | none => trivial
  | some row =>
    unfold RefreshPc.found
    dsimp only
    split
    · rename_i hrev
      exact hreuse row rfl hrev
    · split
      · trivial
      · intro r hr hid
        rw [RefreshTokens.eq_of_id_eq hr (hmem row rfl) hid]

/-- The configured lifetime is positive, so Redis accepts it. -/
theorem blacklistToken_ttl (cfg : Config) (s : Store) (jti : String) :
    s.blacklistToken jti cfg.jwtAccessTokenTtl
      = some (s.list jti (s.now + cfg.jwtAccessTokenTtl * 1000)) := by
  unfold Store.blacklistToken
  rw [if_neg cfg.ttl_pos.ne']

/-- Of a store without listed tokens only the one just listed is listed. -/
theorem isBlacklisted_list {jti jti' : String} {expiresAt : ℕ} (hu : Unlisted s)
    (h : (s.list jti expiresAt).isBlacklisted jti' = true) : jti' = jti := by
  by_contra hne
  have hnone : (s.list jti expiresAt).blacklist jti' = none := by
    rw [Store.list]
    dsimp only
    rw [Function.update_of_ne hne]
    exact hu jti'
  rw [Store.isBlacklisted, hnone] at h
  cases h

theorem Unlisted.not_isBlacklisted (hu : Unlisted s) (jti : String) :
    s.isBlacklisted jti = false := by
  rw [Store.isBlacklisted, hu jti]
  rfl

/-- A call that has presented a revoked token stays one. -/
theorem reusing_next {c c' : Call} (h : next cfg s c d = some (s', c')) (hc : c.reusing) :
    c'.reusing := by
  cases c with
  | refresh raw pc =>
    obtain ⟨pc', hpc, rfl⟩ := pc_of_next h
    cases pc with
    | revokeFamily row =>
      obtain ⟨rfl, rfl⟩ := Prod.mk.inj (Option.some.inj hpc)
      unfold RefreshPc.reused
      split <;> trivial
    | blacklist row jti =>
      rw [refreshNext, blacklistToken_ttl] at hpc
      obtain ⟨rfl, rfl⟩ := Prod.mk.inj (Option.some.inj hpc)
      trivial
    | revoked row => cases hpc
    | _ => cases hc
  | _ => cases hc

theorem Call.Sound.congr {c : Call} (hi : s'.issued = s.issued)
    (hr : s'.refreshTokens = s.refreshTokens) (hb : s'.blacklist = s.blacklist) (h : c.Sound s) :
    c.Sound s' := by
  unfold Call.Sound Unlisted at h ⊢
  rwa [hi, hr, hb]

/-- Right after its SELECT a refresh has revoked no family. -/
theorem found_ne_revoked (now : ℕ) (o : Option RefreshTokenRow) (r : RefreshTokenRow) :
    RefreshPc.found now o ≠ .revoked r := by
  cases o with
  | none => exact nofun
  | some row =>
    unfold RefreshPc.found
    dsimp only
    split
    · exact nofun
    · split <;> exact nofun

theorem lookedUp_ne_revoked (row : RefreshTokenRow) (o : Option UserRow) (r : RefreshTokenRow) :
    RefreshPc.lookedUp row o ≠ .revoked r := by
  cases o with
  | none => exact nofun
  | some user =>
    unfold RefreshPc.lookedUp
    dsimp only
    split <;> exact nofun

theorem reused_eq_revoked {row r : RefreshTokenRow} (h : RefreshPc.reused row = .revoked r) :
    row = r := by
  unfold RefreshPc.reused at h
  split at h
  · cases h
  · exact RefreshPc.revoked.inj h

/-- **A login** keeps the ledger and keeps the stores plain. -/
theorem sound_issue {a : IssueArgs} {pc pc' : IssuePc} (h : issueNext cfg s d a pc = some (s', pc'))
    (hc : Call.Sound s (.issue a pc)) (hL : Ledger cfg s) (hfresh : FreshJti s.issued d) :
    Ledger cfg s' ∧ Call.Sound s' (.issue a pc') ∧ (Plain s → Plain s') := by
  cases pc with
  | generate =>
    obtain ⟨rfl, rfl⟩ := Prod.mk.inj (Option.some.inj h)
    exact ⟨hL.sign _ none _, ⟨_, List.mem_cons_self, rfl⟩, fun hP => hP.sign hL hfresh _ none _⟩
  | insert m =>
    rw [issueNext] at h
    split at h
    · rename_i s₂ hs₂
      obtain ⟨rfl, rfl⟩ := Prod.mk.inj (Option.some.inj h)
      exact ⟨hL.insert hc hs₂, trivial, fun hP => hP.insert hs₂⟩
    · obtain ⟨rfl, rfl⟩ := Prod.mk.inj (Option.some.inj h)
      exact ⟨hL, trivial, id⟩
  | _ => cases h

/-- **A refresh** keeps the ledger, and keeps the stores plain unless the token was revoked. -/
theorem sound_refresh {raw : String} {pc pc' : RefreshPc}
    (h : refreshNext cfg s d raw pc = some (s', pc')) (hc : Call.Sound s (.refresh raw pc))
    (hL : Ledger cfg s) (hfresh : FreshJti s.issued d)
    (hreuse : Call.reuses cfg s (.refresh raw pc) → Plain s) :
    Ledger cfg s' ∧ Call.Sound s' (.refresh raw pc')
      ∧ (Plain s → ¬ Call.reusing (.refresh raw pc') → Plain s') := by
  cases pc with
  | find =>
    obtain ⟨rfl, rfl⟩ := Prod.mk.inj (Option.some.inj h)
    refine ⟨hL, sound_found (fun row hrow => (findRefreshToken_mem hrow).1) fun row hrow hrev => ?_,
      fun hP _ => hP⟩
    have hP := hreuse ⟨row, hrow, hrev⟩
    exact ⟨hP.outlived row (findRefreshToken_mem hrow).1 hrev, hP.unlisted⟩
  | revokeFamily row =>
    obtain ⟨rfl, rfl⟩ := Prod.mk.inj (Option.some.inj h)
    refine ⟨⟨hL.signed, fun r hr => ?_⟩, sound_reused hc.1 hc.2, fun _ hno => absurd ?_ hno⟩
    · obtain ⟨r₀, hr₀, rfl⟩ := List.mem_map.mp hr
      exact hL.named r₀ hr₀
    · unfold RefreshPc.reused
      split <;> trivial
  | blacklist row jti =>
    rw [refreshNext, blacklistToken_ttl] at h
    obtain ⟨rfl, rfl⟩ := Prod.mk.inj (Option.some.inj h)
    exact ⟨⟨hL.signed, hL.named⟩, trivial, fun _ hno => absurd rfl hno⟩
  | lookupUser row =>
    obtain ⟨rfl, rfl⟩ := Prod.mk.inj (Option.some.inj h)
    exact ⟨hL, sound_lookedUp hc, fun hP _ => hP⟩
  | lookupRole row orgId isPlatformAdmin =>
    obtain ⟨rfl, rfl⟩ := Prod.mk.inj (Option.some.inj h)
    exact ⟨hL, hc, fun hP _ => hP⟩
  | revoke row isPlatformAdmin role =>
    obtain ⟨rfl, rfl⟩ := Prod.mk.inj (Option.some.inj h)
    exact ⟨(hL.revoke row.id).sign _ none _, ⟨_, List.mem_cons_self, rfl⟩,
      fun hP _ => hP.rotate hL hfresh hc _ none⟩
  | insert row m =>
    rw [refreshNext] at h
    split at h
    · rename_i s₂ hs₂
      obtain ⟨rfl, rfl⟩ := Prod.mk.inj (Option.some.inj h)
      refine ⟨hL.insert hc hs₂, fun r hr hid => ?_, fun hP _ => hP.insert hs₂⟩
      obtain ⟨t, ht, rfl⟩ := Option.map_eq_some_iff.mp hs₂
      dsimp only at hr
      rw [RefreshTokens.insert_rows ht] at hr
      rcases List.mem_cons.mp hr with rfl | hr
      · rfl
      · exact absurd hid (RefreshTokens.insert_id_notMem ht r hr)
    · obtain ⟨rfl, rfl⟩ := Prod.mk.inj (Option.some.inj h)
      exact ⟨hL, trivial, fun hP _ => hP⟩
  | updateJti row m newId =>
    obtain ⟨rfl, rfl⟩ := Prod.mk.inj (Option.some.inj h)
    have hrows := updateRefreshTokenJti_eq hc
    refine ⟨⟨hL.signed, fun r hr => ?_⟩, trivial, fun hP _ => ⟨hP.unlisted, fun r hr => ?_⟩⟩
    · rw [hrows] at hr
      exact hL.named r hr
    · rw [hrows] at hr
      exact hP.outlived r hr
  | _ => cases h

/-- One statement keeps the ledger and what its call relies on, and a plain store until a reuse. -/
theorem sound_next {c c' : Call} (h : next cfg s c d = some (s', c')) (hc : c.Sound s)
    (hL : Ledger cfg s) (hfresh : FreshJti s.issued d) (hreuse : c.reuses cfg s → Plain s) :
    Ledger cfg s' ∧ c'.Sound s' ∧ (Plain s → ¬ c'.reusing → Plain s') := by
  cases c with
  | issue a pc =>
    obtain ⟨pc', hpc, rfl⟩ := pc_of_next h
    obtain ⟨hL', hc', hP'⟩ := sound_issue hpc hc hL hfresh
    exact ⟨hL', hc', fun hP _ => hP' hP⟩
  | refresh raw pc =>
    obtain ⟨pc', hpc, rfl⟩ := pc_of_next h
    exact sound_refresh hpc hc hL hfresh hreuse
  | _ => exact hc.elim

/-! ## Every run -/

/-- Drawn jtis never repeat. -/
def FreshJtis (p : Calls ι) : Move ι Draw Env → Prop
  | .run _ d => FreshJti p.store.issued d
  | _ => True

/-- **One re-presentation**: a revoked token is presented only while no call has done so. -/
def SingleReuse (cfg : Config) (p : Calls ι) : Move ι Draw Env → Prop
  | .run i _ => (p.calls i).at'.reuses cfg p.store → ∀ j, ¬ (p.calls j).at'.reusing
  | _ => True

/-- What runs of logins and refreshes with one re-presentation keep. -/
structure ReuseInv (cfg : Config) (p : Calls ι) : Prop where
  ledger : Ledger cfg p.store
  calls : ∀ i, (p.calls i).Keeps (Call.Sound p.store)
  plain : (∀ i, ¬ (p.calls i).at'.reusing) → Plain p.store

/-- Time, replication and other services revoke nothing and list nothing. -/
theorem ReuseInv.env {p : Calls ι} (h : ReuseInv cfg p) (e : Env) :
    ReuseInv cfg ⟨Auth.env p.store e, p.calls⟩ := by
  have hissued := env_issued p.store e
  have hrows := env_refreshTokens p.store e
  have hlist : (Auth.env p.store e).blacklist = p.store.blacklist := by
    cases e <;> rfl
  have hnow : p.store.now ≤ (Auth.env p.store e).now := by
    cases e with
    | tick ms => exact Nat.le_add_right _ _
    | _ => exact le_rfl
  refine ⟨⟨fun x hx => ?_, ?_⟩,
    fun i => (h.calls i).imp fun c => Call.Sound.congr hissued hrows hlist,
    fun hnone => ?_⟩
  · rw [hissued] at hx
    exact (h.ledger.signed x hx).trans (Nat.add_le_add_right (Nat.div_le_div_right hnow) _)
  · rw [hrows, hissued]
    exact h.ledger.named
  · have hP := h.plain hnone
    refine ⟨?_, ?_⟩
    · rw [Unlisted, hlist]
      exact hP.unlisted
    · rw [hrows, hissued]
      exact hP.outlived

variable [DecidableEq ι]

/-- The runs the property is about. -/
def Represented (cfg : Config) (p : Calls ι) (m : Move ι Draw Env) : Prop :=
  OneByOne p m ∧ FreshJtis p m ∧ SingleReuse cfg p m

/-- A statement keeps the accounts of reused families. -/
theorem ReuseInv.run {p : Calls ι} {i : ι} {c c' : Call} (h : ReuseInv cfg p)
    (hG : Represented cfg p (.run i d)) (hi : p.calls i = .up c)
    (hn : (authMachine cfg).next p.store c d = some (s', c')) :
    ReuseInv cfg ⟨s', Function.update p.calls i (.up c')⟩ := by
  obtain ⟨⟨halone, -⟩, hfresh, hsingle⟩ := hG
  have hc : c.Sound p.store := by simpa [hi] using h.calls i
  have hreuse : c.reuses cfg p.store → Plain p.store := by
    intro hr
    refine h.plain (hsingle ?_)
    rw [hi]
    exact hr
  obtain ⟨hL, hc', hP⟩ := sound_next hn hc h.ledger hfresh hreuse
  refine ⟨hL, ?_, fun hnone => ?_⟩
  · refine keeps_update_up hc' fun j hj => ?_
    have hidle := halone j hj
    have hj' := h.calls j
    cases hcj : p.calls j with
    | down _ => trivial
    | up cj =>
      rw [hcj] at hidle hj'
      exact sound_of_not_busy hidle hj'
  · have hself : ¬ c'.reusing := by
      have := hnone i
      dsimp only at this
      rwa [Function.update_self] at this
    refine hP (h.plain fun j hj => ?_) hself
    by_cases hji : j = i
    · subst hji
      rw [hi] at hj
      exact hself (reusing_next hn hj)
    · have := hnone j
      dsimp only at this
      rw [Function.update_of_ne hji] at this
      exact this hj

/-- The accounts hold in every state of such a run. -/
theorem reuseInv_of_represented {p q : Calls ι}
    (hempty : p.store.refreshTokens.rows = [] ∧ p.store.issued = [] ∧ Unlisted p.store)
    (hstart : ∀ i, (p.calls i).Live Call.opens)
    (hrun : Run (Pool.step (authMachine cfg)) (Represented cfg) p q) : ReuseInv cfg q := by
  obtain ⟨hrows, hissued, hlist⟩ := hempty
  refine Pool.invariant (I := ReuseInv cfg) ⟨⟨?_, ?_⟩, fun i => ?_, fun _ => ⟨hlist, ?_⟩⟩
    (fun p i d c s' c' h hG hi hn => h.run hG hi hn) ?_ ?_ hrun
  · rw [hissued]
    exact nofun
  · rw [hrows]
    exact nofun
  · have hi := hstart i
    cases hc : p.calls i with
    | down _ => trivial
    | up c =>
      rw [hc] at hi
      exact sound_of_opens hi
  · rw [hrows]
    exact nofun
  · intro p i c h _ hi
    refine ⟨h.ledger, keeps_update_down h.calls, fun hnone => h.plain fun j => ?_⟩
    have := hnone j
    dsimp only at this
    rwa [at'_update_down hi] at this
  · intro p e h _
    exact h.env e

/-- What the answer `TOKEN_FAMILY_REVOKED` does: it lists the jti of the row, if there is one. -/
theorem revoked_of_next {c : Call} {raw : String} {r : RefreshTokenRow} (hc : c.Sound s)
    (h : next cfg s c d = some (s', .refresh raw (.revoked r))) :
    Outlived s.issued r ∧ (∀ jti, s'.isBlacklisted jti = true → r.lastAccessTokenJti = some jti)
      ∧ s'.issued = s.issued ∧ s'.now = s.now := by
  cases c with
  | refresh raw' pc =>
    obtain ⟨⟨s₁, pc'⟩, hpc, heq⟩ := Option.map_eq_some_iff.mp h
    obtain ⟨rfl, hcall⟩ := Prod.mk.inj heq
    obtain ⟨rfl, hrev⟩ := Call.refresh.inj hcall
    cases pc with
    | find =>
      obtain ⟨rfl, rfl⟩ := Prod.mk.inj (Option.some.inj hpc)
      exact absurd hrev (found_ne_revoked _ _ _)
    | revokeFamily row =>
      obtain ⟨rfl, rfl⟩ := Prod.mk.inj (Option.some.inj hpc)
      obtain rfl := reused_eq_revoked hrev
      obtain ⟨hout, hu⟩ := hc
      refine ⟨hout, fun jti hjti => ?_, rfl, rfl⟩
      have hnot := Unlisted.not_isBlacklisted (s := s.revokeTokenFamily row.familyId) hu jti
      dsimp only at hjti
      rw [hnot] at hjti
      cases hjti
    | blacklist row jti =>
      rw [refreshNext, blacklistToken_ttl] at hpc
      obtain ⟨rfl, rfl⟩ := Prod.mk.inj (Option.some.inj hpc)
      obtain rfl := RefreshPc.revoked.inj hrev
      obtain ⟨hout, hu, hjti⟩ := hc
      refine ⟨hout, fun jti' hjti' => ?_, rfl, rfl⟩
      rw [hjti, isBlacklisted_list hu hjti']
    | lookupUser row =>
      obtain ⟨rfl, rfl⟩ := Prod.mk.inj (Option.some.inj hpc)
      exact absurd hrev (lookedUp_ne_revoked _ _ _)
    | insert row m =>
      rw [refreshNext] at hpc
      split at hpc
      all_goals
        obtain ⟨rfl, rfl⟩ := Prod.mk.inj (Option.some.inj hpc)
        cases hrev
    | lookupRole _ _ _ | revoke _ _ _ | updateJti _ _ _ =>
      obtain ⟨rfl, rfl⟩ := Prod.mk.inj (Option.some.inj hpc)
      cases hrev
    | _ => cases hpc
  | _ =>
    obtain ⟨⟨s₁, pc'⟩, -, heq⟩ := Option.map_eq_some_iff.mp h
    cases (Prod.mk.inj heq).2

/-- **The family is blacklisted exactly when it has expired**: in every run of logins and refreshes
one after another, with one re-presentation, at the moment of `TOKEN_FAMILY_REVOKED`. -/
theorem family_blacklisted_iff {p q q' : Calls ι} {i : ι} {raw : String} {r : RefreshTokenRow}
    (hempty : p.store.refreshTokens.rows = [] ∧ p.store.issued = [] ∧ Unlisted p.store)
    (hstart : ∀ i, (p.calls i).Live Call.opens)
    (hrun : Run (Pool.step (authMachine cfg)) (Represented cfg) p q)
    (hstep : q.step (authMachine cfg) (.run i d) = some q')
    (hans : q'.calls i = .up (.refresh raw (.revoked r))) :
    FamilyBlacklisted q'.store r.familyId ↔ FamilyExpired q.store r.familyId := by
  have hinv := reuseInv_of_represented hempty hstart hrun
  obtain ⟨c, s', c', hi, hn, rfl⟩ := Pool.step_run hstep
  have hc : c.Sound q.store := by simpa [hi] using hinv.calls i
  have hc' : c' = .refresh raw (.revoked r) := by simpa using hans
  rw [hc'] at hn
  obtain ⟨hout, honly, hissued, hnow⟩ := revoked_of_next hc hn
  have hexp : FamilyExpired s' r.familyId ↔ FamilyExpired q.store r.familyId := by
    rw [FamilyExpired, FamilyExpired, hissued, hnow]
  rw [← hissued] at hout
  exact (familyBlacklisted_iff hout honly).trans hexp

/-! ## A login, a refresh, a reuse -/

section Guard

instance : DecidablePred Call.reusing :=
  fun c => inferInstanceAs (Decidable (c.reused.isSome = true))

instance (cfg : Config) (s : Store) : DecidablePred (Call.reuses cfg s) :=
  fun c => inferInstanceAs (Decidable (∃ row ∈ c.presented cfg s, row.isRevoked = true))

instance (p : Calls ι) : ∀ m : Move ι Draw Env, Decidable (FreshJtis p m)
  | .run _ d => inferInstanceAs (Decidable (∀ x ∈ p.store.issued, x.token.jti ≠ d.jti))
  | .crash _ => inferInstanceAs (Decidable True)
  | .env _ => inferInstanceAs (Decidable True)

variable [Fintype ι]

instance (cfg : Config) (p : Calls ι) : ∀ m : Move ι Draw Env, Decidable (SingleReuse cfg p m)
  | .run i _ => inferInstanceAs (Decidable ((p.calls i).at'.reuses cfg p.store →
      ∀ j, ¬ (p.calls j).at'.reusing))
  | .crash _ => inferInstanceAs (Decidable True)
  | .env _ => inferInstanceAs (Decidable True)

instance (cfg : Config) (p : Calls ι) (m : Move ι Draw Env) : Decidable (Represented cfg p m) :=
  inferInstanceAs (Decidable (_ ∧ _ ∧ _))

end Guard

instance (s : Store) (familyId : String) : Decidable (FamilyBlacklisted s familyId) :=
  inferInstanceAs (Decidable (∀ x ∈ s.issued, x.familyId = familyId → s.now / 1000 < x.token.exp →
    s.isBlacklisted x.token.jti = true))

instance (s : Store) (familyId : String) : Decidable (FamilyExpired s familyId) :=
  inferInstanceAs (Decidable (∀ x ∈ s.issued, x.familyId = familyId → x.token.exp ≤ s.now / 1000))

/-- A login of `u`, then its refresh token `t0` presented twice. -/
def loginAndReuse : Calls (Fin 3) where
  store := { demoSession with refreshTokens := ⟨[], .nil, .nil⟩, issued := [] }
  calls := ![.up (.issue ⟨"u", "", .member, false, none⟩ .generate), .up (.refresh "t0" .find),
    .up (.refresh "t0" .find)]

theorem loginAndReuse_opens (i : Fin 3) : (loginAndReuse.calls i).Live Call.opens := by
  fin_cases i <;> trivial

/-- The login, the refresh, a pause, and the reuse up to its last statement. -/
def reuseMoves (pause : ℕ) : List (Move (Fin 3) Draw Env) :=
  [.run 0 (drawn "a0" "t0" ""), .run 0 (drawn "b0" "" "r0"), .run 1 (drawn "b1" "" ""),
    .run 1 (drawn "b2" "" ""), .run 1 (drawn "a1" "t1" ""), .run 1 (drawn "b3" "" "r1"),
    .run 1 (drawn "b4" "" ""), .env (.tick pause), .run 2 (drawn "b5" "" ""),
    .run 2 (drawn "b6" "" "")]

/-- The row of the token that is reused. -/
def reusedRow : RefreshTokenRow :=
  ⟨"r0", "u", none, "t0", "fa0", some "a0", true, refreshTokenTtl⟩

/-- The reuse is answered, in a state as described. -/
def Answers (P : Store → Bool) (q : Calls (Fin 3)) : Bool :=
  (q.step (authMachine demoConfig) (.run 2 (drawn "b7" "" ""))).any fun q' =>
    q'.calls 2 = .up (.refresh "t0" (.revoked reusedRow)) ∧ P q'.store

/-- **The newest access token is still accepted**: the reuse blacklists the token of the login, not
the one of the refresh. -/
theorem reuse_leaves_newest_token :
    (loginAndReuse.store.refreshTokens.rows = [] ∧ loginAndReuse.store.issued = []
        ∧ Unlisted loginAndReuse.store)
      ∧ (∀ i, (loginAndReuse.calls i).Live Call.opens)
      ∧ ∃ q q' d, Run (Pool.step (authMachine demoConfig)) (Represented demoConfig) loginAndReuse q
        ∧ q.step (authMachine demoConfig) (.run 2 d) = some q'
        ∧ q'.calls 2 = .up (.refresh "t0" (.revoked reusedRow))
        ∧ ¬ FamilyBlacklisted q'.store reusedRow.familyId := by
  refine ⟨⟨rfl, rfl, fun _ => rfl⟩, loginAndReuse_opens, ?_⟩
  obtain ⟨q, hq, hans⟩ := exists_run_of_exec (Pool.step (authMachine demoConfig))
    (Represented demoConfig) loginAndReuse (reuseMoves 0)
    (Answers fun s => ¬ FamilyBlacklisted s reusedRow.familyId) (by decide)
  obtain ⟨q', hstep, hq'⟩ := (Option.any_eq_true _ _).mp hans
  obtain ⟨hrev, hnot⟩ := of_decide_eq_true hq'
  exact ⟨q, q', _, hq, hstep, hrev, of_decide_eq_true hnot⟩

/-- Fifteen minutes after the refresh nothing is left to blacklist. -/
theorem family_blacklisted_after_pause :
    ∃ q q' d, Run (Pool.step (authMachine demoConfig)) (Represented demoConfig) loginAndReuse q
      ∧ q.step (authMachine demoConfig) (.run 2 d) = some q'
      ∧ FamilyExpired q.store reusedRow.familyId
      ∧ FamilyBlacklisted q'.store reusedRow.familyId := by
  obtain ⟨q, hq, hans⟩ := exists_run_of_exec (Pool.step (authMachine demoConfig))
    (Represented demoConfig) loginAndReuse (reuseMoves 900000)
    (fun q => Answers (fun _ => true) q ∧ FamilyExpired q.store reusedRow.familyId) (by decide)
  obtain ⟨hans, hexp⟩ := of_decide_eq_true hans
  obtain ⟨q', hstep, hq'⟩ := (Option.any_eq_true _ _).mp hans
  have hrev := (of_decide_eq_true hq').1
  exact ⟨q, q', _, hq, hstep, hexp, (family_blacklisted_iff ⟨rfl, rfl, fun _ => rfl⟩
    loginAndReuse_opens hq hstep hrev).mpr hexp⟩

end WorkPlatform.Auth

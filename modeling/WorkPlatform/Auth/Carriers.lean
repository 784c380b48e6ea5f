import WorkPlatform.Auth.Calls

/-!
# Auth/Carriers — what the calls mean to the table of refresh tokens

For `refresh_tokens` a call is no more than what it **holds**: a row it has found and will revoke, a
row it has revoked and will replace, or a pair that opens a new family.

    idle ──claim──▸ claimed ──rotate──▸ rotating ──insert──▸ inserted ──finish──▸ exchanged
      └──open──▸ opening ──create──▸ idle

Every statement of every service is one of these steps, or a plain UPDATE (`tokenStep_of_next`).
A family is **carried** by its unrevoked rows and by the calls that can still insert one; where
nothing carries it any more, nothing ever will (`Barren.step`).
-/

namespace WorkPlatform.Auth

open Machinery

/-! ## Holding -/

/-- What a call holds of the table. -/
inductive Hold
  | idle
  | claimed (row : RefreshTokenRow)
  | rotating (row : RefreshTokenRow) (m : Minted)
  | inserted (row : RefreshTokenRow)
  | exchanged (row : RefreshTokenRow)
  | opening (m : Minted)

/-- What a refresh holds of the family. -/
def RefreshPc.hold : RefreshPc → Hold
  | .lookupUser row | .lookupRole row _ _ | .revoke row _ _ => .claimed row
  | .insert row m => .rotating row m
  | .updateJti row _ _ => .inserted row
  | .returned row _ => .exchanged row
  | _ => .idle

/-- What a call holds of the family. -/
def Call.hold : Call → Hold
  | .refresh _ pc => pc.hold
  | .issue _ (.insert m) | .link _ (.insert m) => .opening m
  | _ => .idle

/-- A crash gives everything up, but for an exchange that is over. -/
def Hold.dropped : Hold → Hold
  | .exchanged row => .exchanged row
  | _ => .idle

/-- What a call holds, running or not. -/
def held : Proc Call → Hold
  | .up c => c.hold
  | .down c => c.hold.dropped

/-- An UPDATE that revokes rows or sets the jti of some. -/
def Updates (t t' : RefreshTokens) : Prop :=
  ∃ f : RefreshTokenRow → RefreshTokenRow, t'.rows = t.rows.map f ∧ ∀ r, (f r).id = r.id
    ∧ (f r).userId = r.userId ∧ (f r).familyId = r.familyId ∧ (f r).tokenHash = r.tokenHash
    ∧ (r.isRevoked → (f r).isRevoked)

/-- The token of a pair is the one signed at the time of the move. -/
def Minted.SignedAt (cfg : Config) (now : ℕ) (d : Draw) (m : Minted) : Prop :=
  ∃ payload, m.accessToken = generateAccessToken cfg now d.jti payload ∧ m.userId = payload.sub

/-- The steps of a call on the table and on the record of signed tokens. -/
inductive TokenStep (cfg : Config) (now : ℕ) (d : Draw) :
    RefreshTokens → List Issued → Hold → RefreshTokens → List Issued → Hold → Prop
  | update {t t' : RefreshTokens} {is : List Issued} {h : Hold} :
      Updates t t' → TokenStep cfg now d t is h t' is h
  | release {t : RefreshTokens} {is : List Issued} {h : Hold} :
      TokenStep cfg now d t is h t is .idle
  | claim {t : RefreshTokens} {is : List Issued} {row : RefreshTokenRow} :
      row ∈ t.rows → row.isRevoked = false → TokenStep cfg now d t is .idle t is (.claimed row)
  | rotate {t : RefreshTokens} {is : List Issued} {row : RefreshTokenRow} {m : Minted} :
      m.SignedAt cfg now d → m.userId = row.userId → m.familyId = row.familyId →
      TokenStep cfg now d t is (.claimed row) (t.revokeWhere (·.id = row.id))
        (⟨m.familyId, m.accessToken⟩ :: is) (.rotating row m)
  | insert {t t' : RefreshTokens} {is : List Issued} {row : RefreshTokenRow} {m : Minted} :
      t.insert (m.row cfg d.rowId) = some t' →
      TokenStep cfg now d t is (.rotating row m) t' is (.inserted row)
  | finish {t t' : RefreshTokens} {is : List Issued} {row : RefreshTokenRow} :
      Updates t t' → TokenStep cfg now d t is (.inserted row) t' is (.exchanged row)
  | «open» {t : RefreshTokens} {is : List Issued} {m : Minted} :
      m.SignedAt cfg now d → m.familyId = d.familyId →
      TokenStep cfg now d t is .idle t (⟨m.familyId, m.accessToken⟩ :: is) (.opening m)
  | create {t t' : RefreshTokens} {is : List Issued} {m : Minted} :
      t.insert (m.row cfg d.rowId) = some t' →
      TokenStep cfg now d t is (.opening m) t' is .idle

/-! ## Every statement is a step -/

section Refinement

variable {cfg : Config} {now : ℕ} {s s' : Store} {d : Draw} {t t' : RefreshTokens}
  {is is' : List Issued} {h h' : Hold}

theorem Updates.refl (t : RefreshTokens) : Updates t t :=
  ⟨id, by simp, fun _ => ⟨rfl, rfl, rfl, rfl, id⟩⟩

theorem Updates.revokeWhere (t : RefreshTokens) (p : RefreshTokenRow → Bool) :
    Updates t (t.revokeWhere p) :=
  ⟨.revokeIf p, rfl, fun r => ⟨rfl, rfl, rfl, rfl, fun h => by simp [RefreshTokenRow.revokeIf, h]⟩⟩

theorem Updates.setJti (t : RefreshTokens) (id jti : String) : Updates t (t.setJti id jti) :=
  ⟨.setJti id jti, rfl, fun _ => ⟨rfl, rfl, rfl, rfl, fun h => h⟩⟩

/-- A statement that leaves the table, the record and what the call holds alone. -/
theorem TokenStep.same : TokenStep cfg now d t is h t is h := .update (.refl t)

/-- A step updates the table or inserts one row. -/
theorem TokenStep.table (hs : TokenStep cfg now d t is h t' is' h') :
    Updates t t' ∨ ∃ m : Minted, t.insert (m.row cfg d.rowId) = some t' := by
  cases hs with
  | update hu => exact Or.inl hu
  | release => exact Or.inl (.refl t)
  | claim _ _ => exact Or.inl (.refl t)
  | rotate _ _ _ => exact Or.inl (.revokeWhere t _)
  | insert hins => exact Or.inr ⟨_, hins⟩
  | finish hu => exact Or.inl hu
  | «open» _ _ => exact Or.inl (.refl t)
  | create hins => exact Or.inr ⟨_, hins⟩

/-- No step forgets a signed token. -/
theorem TokenStep.issued (hs : TokenStep cfg now d t is h t' is' h') : is ⊆ is' := by
  cases hs with
  | rotate _ _ _ => exact List.subset_cons_self _ _
  | «open» _ _ => exact List.subset_cons_self _ _
  | _ => exact fun _ => id

@[simp] theorem updateUser_refreshTokens (s : Store) (id : String) (f : UserRow → UserRow) :
    (s.updateUser id f).refreshTokens = s.refreshTokens := by
  unfold Store.updateUser
  repeat' split
  all_goals rfl

@[simp] theorem updateUser_issued (s : Store) (id : String) (f : UserRow → UserRow) :
    (s.updateUser id f).issued = s.issued := by
  unfold Store.updateUser
  repeat' split
  all_goals rfl

@[simp] theorem updateUser_now (s : Store) (id : String) (f : UserRow → UserRow) :
    (s.updateUser id f).now = s.now := by
  unfold Store.updateUser
  repeat' split
  all_goals rfl

theorem findRefreshToken_mem {hash : String} {row : RefreshTokenRow}
    (h : s.findRefreshToken hash = some row) :
    row ∈ s.refreshTokens.rows ∧ row.tokenHash = hash := by
  refine ⟨List.mem_of_find?_eq_some h, ?_⟩
  simpa using List.find?_some h

/-- After its SELECT a refresh holds nothing, or the row it found unrevoked. -/
theorem found_hold (now : ℕ) (o : Option RefreshTokenRow) :
    (RefreshPc.found now o).hold = .idle
      ∨ ∃ row, o = some row ∧ row.isRevoked = false
        ∧ (RefreshPc.found now o).hold = .claimed row := by
  cases o with
  | none => exact Or.inl rfl
  | some row =>
    unfold RefreshPc.found
    dsimp only
    split
    · exact Or.inl rfl
    · split
      · exact Or.inl rfl
      · rename_i hrev _
        exact Or.inr ⟨row, rfl, by simpa using hrev, rfl⟩

@[simp] theorem reused_hold (row : RefreshTokenRow) : (RefreshPc.reused row).hold = .idle := by
  unfold RefreshPc.reused
  split <;> rfl

theorem lookedUp_hold (row : RefreshTokenRow) (o : Option UserRow) :
    (RefreshPc.lookedUp row o).hold = .idle ∨ (RefreshPc.lookedUp row o).hold = .claimed row := by
  cases o with
  | none => exact Or.inl rfl
  | some user =>
    unfold RefreshPc.lookedUp
    dsimp only
    split <;> exact Or.inr rfl

/-- Each statement of a refresh, as a step of its family. -/
theorem tokenStep_refresh {raw : String} {pc pc' : RefreshPc}
    (h : refreshNext cfg s d raw pc = some (s', pc')) :
    TokenStep cfg s.now d s.refreshTokens s.issued pc.hold s'.refreshTokens s'.issued pc'.hold := by
  cases pc with
  | find =>
    obtain ⟨rfl, rfl⟩ := Prod.mk.inj (Option.some.inj h)
    rcases found_hold s.now (s.findRefreshToken (cfg.hashToken raw)) with
      hidle | ⟨row, hfind, hlive, hhold⟩
    · rw [hidle]
      exact .same
    · rw [hhold]
      exact .claim (findRefreshToken_mem hfind).1 hlive
  | revokeFamily row =>
    obtain ⟨rfl, rfl⟩ := Prod.mk.inj (Option.some.inj h)
    rw [reused_hold]
    exact .update (.revokeWhere _ _)
  | blacklist row jti =>
    rw [refreshNext] at h
    split at h
    · rename_i s₁ hs₁
      obtain ⟨rfl, rfl⟩ := Prod.mk.inj (Option.some.inj h)
      obtain rfl := Store.blacklistToken_eq hs₁
      exact .same
    · obtain ⟨rfl, rfl⟩ := Prod.mk.inj (Option.some.inj h)
      exact .same
  | lookupUser row =>
    obtain ⟨rfl, rfl⟩ := Prod.mk.inj (Option.some.inj h)
    rcases lookedUp_hold row (s.findUserById row.userId) with hidle | hsame
    · rw [hidle]
      exact .release
    · rw [hsame]
      exact .same
  | lookupRole row orgId isPlatformAdmin =>
    obtain ⟨rfl, rfl⟩ := Prod.mk.inj (Option.some.inj h)
    exact .same
  | revoke row isPlatformAdmin role =>
    obtain ⟨rfl, rfl⟩ := Prod.mk.inj (Option.some.inj h)
    exact .rotate (m := (mint cfg _ d ⟨_, _, _, _, _⟩ row.orgId row.familyId).2) ⟨_, rfl, rfl⟩ rfl
      rfl
  | insert row m =>
    rw [refreshNext] at h
    split at h
    · rename_i s₁ hs₁
      obtain ⟨rfl, rfl⟩ := Prod.mk.inj (Option.some.inj h)
      obtain ⟨t, ht, rfl⟩ := Store.createRefreshToken_eq hs₁
      exact .insert ht
    · obtain ⟨rfl, rfl⟩ := Prod.mk.inj (Option.some.inj h)
      exact .release
  | updateJti row m newId =>
    obtain ⟨rfl, rfl⟩ := Prod.mk.inj (Option.some.inj h)
    exact .finish (.setJti _ _ _)
  | _ => cases h

/-- The generated pair of a login or a magic link. -/
theorem tokenStep_issue {a : IssueArgs} (hnow : s.now = now)
    (ht : s.refreshTokens = t) :
    TokenStep cfg now d t s.issued .idle (issueTokenPair cfg s d a).1.refreshTokens
      (issueTokenPair cfg s d a).1.issued (.opening (issueTokenPair cfg s d a).2) := by
  subst hnow ht
  exact .open (m := (issueTokenPair cfg s d a).2) ⟨_, rfl, rfl⟩ rfl

/-- Each statement of an issue, as the opening of a family. -/
theorem tokenStep_issueNext {a : IssueArgs} {pc pc' : IssuePc}
    (h : issueNext cfg s d a pc = some (s', pc')) :
    TokenStep cfg s.now d s.refreshTokens s.issued (Call.issue a pc).hold s'.refreshTokens s'.issued
      (Call.issue a pc').hold := by
  cases pc with
  | generate =>
    obtain ⟨rfl, rfl⟩ := Prod.mk.inj (Option.some.inj h)
    exact tokenStep_issue rfl rfl
  | insert m =>
    rw [issueNext] at h
    split at h
    · rename_i s₁ hs₁
      obtain ⟨rfl, rfl⟩ := Prod.mk.inj (Option.some.inj h)
      obtain ⟨t, ht, rfl⟩ := Store.createRefreshToken_eq hs₁
      exact .create ht
    · obtain ⟨rfl, rfl⟩ := Prod.mk.inj (Option.some.inj h)
      exact .release
  | _ => cases h

/-- Each statement of a magic link, as the opening of a family. -/
theorem tokenStep_link {token : String} {pc pc' : LinkPc}
    (h : linkNext cfg s d token pc = some (s', pc')) :
    TokenStep cfg s.now d s.refreshTokens s.issued (Call.link token pc).hold s'.refreshTokens
      s'.issued (Call.link token pc').hold := by
  cases pc with
  | get =>
    obtain ⟨rfl, rfl⟩ := Prod.mk.inj (Option.some.inj h)
    split
    · exact .same
    · exact .same
  | del v =>
    obtain ⟨rfl, rfl⟩ := Prod.mk.inj (Option.some.inj h)
    exact .same
  | findUser v =>
    rw [linkNext] at h
    split at h
    · obtain ⟨rfl, rfl⟩ := Prod.mk.inj (Option.some.inj h)
      exact .same
    · split at h
      · obtain ⟨rfl, rfl⟩ := Prod.mk.inj (Option.some.inj h)
        exact tokenStep_issue rfl rfl
      · obtain ⟨rfl, rfl⟩ := Prod.mk.inj (Option.some.inj h)
        exact .same
  | verify v isPlatformAdmin =>
    obtain ⟨rfl, rfl⟩ := Prod.mk.inj (Option.some.inj h)
    rw [← updateUser_issued s v.userId .verifyEmail]
    exact tokenStep_issue (updateUser_now _ _ _) (updateUser_refreshTokens _ _ _)
  | insert m =>
    rw [linkNext] at h
    split at h
    · rename_i s₁ hs₁
      obtain ⟨rfl, rfl⟩ := Prod.mk.inj (Option.some.inj h)
      obtain ⟨t, ht, rfl⟩ := Store.createRefreshToken_eq hs₁
      exact .create ht
    · obtain ⟨rfl, rfl⟩ := Prod.mk.inj (Option.some.inj h)
      exact .release
  | _ => cases h

/-- The services that hold nothing of the table update it at most. -/
theorem updates_revoke {raw jti : String} {ttl : ℕ} {pc pc' : RevokePc}
    (h : revokeNext cfg s raw jti ttl pc = some (s', pc')) :
    Updates s.refreshTokens s'.refreshTokens ∧ s'.issued = s.issued := by
  cases pc with
  | find =>
    obtain ⟨rfl, -⟩ := Prod.mk.inj (Option.some.inj h)
    exact ⟨.refl _, rfl⟩
  | revoke id =>
    obtain ⟨rfl, -⟩ := Prod.mk.inj (Option.some.inj h)
    exact ⟨.revokeWhere _ _, rfl⟩
  | blacklist =>
    rw [revokeNext] at h
    split at h
    · rename_i s₁ hs₁
      obtain ⟨rfl, -⟩ := Prod.mk.inj (Option.some.inj h)
      obtain rfl := Store.blacklistToken_eq hs₁
      exact ⟨.refl _, rfl⟩
    · obtain ⟨rfl, -⟩ := Prod.mk.inj (Option.some.inj h)
      exact ⟨.refl _, rfl⟩
  | _ => cases h

/-- A password reset only updates rows, and signs no token. -/
theorem updates_reset {token password : String} {pc pc' : ResetPc}
    (h : resetNext cfg s d token password pc = some (s', pc')) :
    Updates s.refreshTokens s'.refreshTokens ∧ s'.issued = s.issued := by
  cases pc with
  | update userId passwordHash changedAt =>
    obtain ⟨rfl, -⟩ := Prod.mk.inj (Option.some.inj h)
    rw [updateUser_refreshTokens, updateUser_issued]
    exact ⟨.refl _, rfl⟩
  | revokeAll userId =>
    obtain ⟨rfl, -⟩ := Prod.mk.inj (Option.some.inj h)
    exact ⟨.revokeWhere _ _, rfl⟩
  | returned _ => cases h
  | threw _ => cases h
  | _ =>
    obtain ⟨rfl, -⟩ := Prod.mk.inj (Option.some.inj h)
    exact ⟨.refl _, rfl⟩

/-- So does an email verification. -/
theorem updates_email {token : String} {pc pc' : EmailPc}
    (h : emailNext cfg s token pc = some (s', pc')) :
    Updates s.refreshTokens s'.refreshTokens ∧ s'.issued = s.issued := by
  cases pc with
  | update userId =>
    obtain ⟨rfl, -⟩ := Prod.mk.inj (Option.some.inj h)
    rw [updateUser_refreshTokens, updateUser_issued]
    exact ⟨.refl _, rfl⟩
  | returned => cases h
  | threw _ => cases h
  | _ =>
    obtain ⟨rfl, -⟩ := Prod.mk.inj (Option.some.inj h)
    exact ⟨.refl _, rfl⟩

/-- So does the authentication of a request. -/
theorem updates_authenticate {token : AccessToken} {pc pc' : AuthPc}
    (h : authNext s d token pc = some (s', pc')) :
    Updates s.refreshTokens s'.refreshTokens ∧ s'.issued = s.issued := by
  cases pc with
  | setex user =>
    obtain ⟨rfl, -⟩ := Prod.mk.inj (Option.some.inj h)
    split
    · exact ⟨.refl _, rfl⟩
    · exact ⟨.refl _, rfl⟩
  | accepted => cases h
  | threw _ => cases h
  | _ =>
    obtain ⟨rfl, -⟩ := Prod.mk.inj (Option.some.inj h)
    exact ⟨.refl _, rfl⟩

/-- **The statements refine the steps on the table.** -/
theorem tokenStep_of_next {c c' : Call} (h : next cfg s c d = some (s', c')) :
    TokenStep cfg s.now d s.refreshTokens s.issued c.hold s'.refreshTokens s'.issued c'.hold := by
  have hidle : Updates s.refreshTokens s'.refreshTokens ∧ s'.issued = s.issued →
      TokenStep cfg s.now d s.refreshTokens s.issued .idle s'.refreshTokens s'.issued .idle := by
    rintro ⟨hu, hissued⟩
    rw [hissued]
    exact .update hu
  cases c with
  | refresh raw pc =>
    obtain ⟨pc', hpc, rfl⟩ := pc_of_next h
    exact tokenStep_refresh hpc
  | issue a pc =>
    obtain ⟨pc', hpc, rfl⟩ := pc_of_next h
    exact tokenStep_issueNext hpc
  | link token pc =>
    obtain ⟨pc', hpc, rfl⟩ := pc_of_next h
    exact tokenStep_link hpc
  | revokeTokens raw jti ttl pc =>
    obtain ⟨pc', hpc, rfl⟩ := pc_of_next h
    exact hidle (updates_revoke hpc)
  | reset token password pc =>
    obtain ⟨pc', hpc, rfl⟩ := pc_of_next h
    exact hidle (updates_reset hpc)
  | verifyEmail token pc =>
    obtain ⟨pc', hpc, rfl⟩ := pc_of_next h
    exact hidle (updates_email hpc)
  | authenticate token pc =>
    obtain ⟨pc', hpc, rfl⟩ := pc_of_next h
    exact hidle (updates_authenticate hpc)

end Refinement

/-! ## Carriers -/

/-- Whose row it is, and of which family; rotation keeps both. -/
structure Lineage where
  userId : String
  familyId : String

def RefreshTokenRow.lineage (r : RefreshTokenRow) : Lineage := ⟨r.userId, r.familyId⟩

def Minted.lineage (m : Minted) : Lineage := ⟨m.userId, m.familyId⟩

/-- An unrevoked row of the lineage. -/
def RowCarries (t : RefreshTokens) (l : Lineage) (id : String) : Prop :=
  ∃ r ∈ t.rows, r.isRevoked = false ∧ r.lineage = l ∧ r.id = id

section Carriers

variable {ι : Type*}

/-- A call that can still insert a row of the lineage; it sits on the row it replaces, or on itself
where it opens the family. -/
def Hold.Carries (i : ι) (l : Lineage) : Hold → String ⊕ ι → Prop
  | .claimed row, x => row.lineage = l ∧ x = .inl row.id
  | .rotating row m, x => m.lineage = l ∧ x = .inl row.id
  | .opening m, x => m.lineage = l ∧ x = .inr i
  | _, _ => False

/-- The lineage a call can still insert a row of. -/
def Hold.lineage : Hold → Option Lineage
  | .claimed row => some row.lineage
  | .rotating _ m | .opening m => some m.lineage
  | .idle | .inserted _ | .exchanged _ => none

theorem Hold.Carries.lineage {i : ι} {l : Lineage} {h : Hold} {x : String ⊕ ι}
    (hc : h.Carries i l x) : h.lineage = some l := by
  cases h with
  | claimed row => exact congrArg some hc.1
  | rotating row m => exact congrArg some hc.1
  | opening m => exact congrArg some hc.1
  | _ => exact hc.elim

theorem Hold.carries_of_lineage (i : ι) {l : Lineage} {h : Hold} (hl : h.lineage = some l) :
    ∃ x, h.Carries i l x := by
  cases h with
  | claimed row => exact ⟨_, Option.some.inj hl, rfl⟩
  | rotating row m => exact ⟨_, Option.some.inj hl, rfl⟩
  | opening m => exact ⟨_, Option.some.inj hl, rfl⟩
  | _ => cases hl

/-- **What carries a lineage**: its unrevoked rows, and the calls that can still insert one. -/
def Carries (t : RefreshTokens) (f : ι → Hold) (l : Lineage) (x : String ⊕ ι) : Prop :=
  (∃ id, RowCarries t l id ∧ x = .inl id) ∨ ∃ i, (f i).Carries i l x

/-- The family occurs in the table or in a signed token. -/
def Used (t : RefreshTokens) (is : List Issued) (familyId : String) : Prop :=
  (∃ r ∈ t.rows, r.familyId = familyId) ∨ ∃ x ∈ is, x.familyId = familyId

variable {cfg : Config} {now : ℕ} {d : Draw} {t t' : RefreshTokens} {is is' : List Issued}
  {h h' : Hold} {l : Lineage}

/-- What a row carries after such an UPDATE it carried before. -/
theorem Updates.rowCarries (hu : Updates t t') {id : String} (hr : RowCarries t' l id) :
    RowCarries t l id := by
  obtain ⟨f, hrows, hf⟩ := hu
  obtain ⟨r, hmem, hlive, rfl, rfl⟩ := hr
  rw [hrows] at hmem
  obtain ⟨r₀, hr₀, rfl⟩ := List.mem_map.mp hmem
  obtain ⟨hid, huser, hfam, -, hrev⟩ := hf r₀
  refine ⟨r₀, hr₀, ?_, ?_, hid.symm⟩
  · by_contra hne
    have hrevoked := hrev (by simpa using hne)
    rw [hlive] at hrevoked
    cases hrevoked
  · rw [RefreshTokenRow.lineage, RefreshTokenRow.lineage, huser, hfam]

theorem insert_rowCarries {r : RefreshTokenRow} (hins : t.insert r = some t') {id : String}
    (hr : RowCarries t' l id) : RowCarries t l id ∨ r.lineage = l ∧ r.id = id := by
  obtain ⟨x, hmem, hlive, hl, hid⟩ := hr
  rw [RefreshTokens.insert_rows hins] at hmem
  rcases List.mem_cons.mp hmem with rfl | hmem
  · exact Or.inr ⟨hl, hid⟩
  · exact Or.inl ⟨x, hmem, hlive, hl, hid⟩

/-- Rows keep their id, their lineage and their hash. -/
theorem mem_step (hs : TokenStep cfg now d t is h t' is' h') {r : RefreshTokenRow}
    (hr : r ∈ t.rows) :
    ∃ r' ∈ t'.rows, r'.id = r.id ∧ r'.familyId = r.familyId ∧ r'.tokenHash = r.tokenHash := by
  rcases hs.table with ⟨g, hrows, hg⟩ | ⟨m, hins⟩
  · refine ⟨g r, ?_, (hg r).1, (hg r).2.2.1, (hg r).2.2.2.1⟩
    rw [hrows]
    exact List.mem_map_of_mem hr
  · refine ⟨r, ?_, rfl, rfl, rfl⟩
    rw [RefreshTokens.insert_rows hins]
    exact List.mem_cons_of_mem _ hr

/-- A family that is in use stays in use. -/
theorem Used.step (hs : TokenStep cfg now d t is h t' is' h') {familyId : String}
    (hused : Used t is familyId) : Used t' is' familyId := by
  rcases hused with ⟨r, hr, hfam⟩ | ⟨x, hx, hfam⟩
  · obtain ⟨r', hr', -, hfam', -⟩ := mem_step hs hr
    exact Or.inl ⟨r', hr', hfam'.trans hfam⟩
  · exact Or.inr ⟨x, hs.issued hx, hfam⟩

variable [DecidableEq ι] {f : ι → Hold} {i : ι}

/-- What carries a lineage after a step of call `i`. -/
theorem carries_update {x : String ⊕ ι} (hc : Carries t' (Function.update f i h') l x) :
    (∃ id, RowCarries t' l id ∧ x = .inl id) ∨ h'.Carries i l x
      ∨ ∃ j, j ≠ i ∧ (f j).Carries j l x := by
  rcases hc with hrow | ⟨j, hj⟩
  · exact Or.inl hrow
  · rcases update_cases (Hold.Carries j l · x) hj with ⟨rfl, hcall⟩ | ⟨hji, hj⟩
    · exact Or.inr (Or.inl hcall)
    · exact Or.inr (Or.inr ⟨j, hji, hj⟩)

/-- **Where carriers come from**: a lineage that is carried after a step was carried before it, or
its family is the one just drawn. -/
theorem Carries.source (hs : TokenStep cfg now d t is (f i) t' is' h') {x : String ⊕ ι}
    (hc : Carries t' (Function.update f i h') l x) :
    (∃ y, Carries t f l y) ∨ l.familyId = d.familyId ∧ Used t' is' l.familyId := by
  have hother : ∀ {j y}, (f j).Carries j l y → ∃ y, Carries t f l y := fun hj => ⟨_, Or.inr ⟨_, hj⟩⟩
  generalize hfi : f i = h at hs
  have hself : ∀ {y}, h.Carries i l y → ∃ y, Carries t f l y := fun hy => hother (hfi ▸ hy)
  rcases carries_update hc with ⟨id, hrow, rfl⟩ | hcall | ⟨j, -, hj⟩
  · -- an unrevoked row: it was there, or a call that carried the lineage has inserted it
    have hold : RowCarries t l id → ∃ y, Carries t f l y := fun hr => ⟨_, Or.inl ⟨id, hr, rfl⟩⟩
    refine Or.inl ?_
    cases hs with
    | update hu => exact hold (hu.rowCarries hrow)
    | release => exact hold hrow
    | claim _ _ => exact hold hrow
    | rotate _ _ _ => exact hold ((Updates.revokeWhere t _).rowCarries hrow)
    | insert hins =>
      rcases insert_rowCarries hins hrow with hrow | ⟨hl, -⟩
      · exact hold hrow
      · exact hself ⟨hl, rfl⟩
    | finish hu => exact hold (hu.rowCarries hrow)
    | «open» _ _ => exact hold hrow
    | create hins =>
      rcases insert_rowCarries hins hrow with hrow | ⟨hl, -⟩
      · exact hold hrow
      · exact hself ⟨hl, rfl⟩
  · cases hs with
    | update _ => exact Or.inl (hself hcall)
    | release => exact hcall.elim
    | claim hmem hlive =>
      obtain ⟨hl, -⟩ := hcall
      exact Or.inl ⟨_, Or.inl ⟨_, ⟨_, hmem, hlive, hl, rfl⟩, rfl⟩⟩
    | rotate _ huser hfam =>
      obtain ⟨hl, -⟩ := hcall
      refine Or.inl (hself ⟨?_, rfl⟩)
      rw [← hl, RefreshTokenRow.lineage, Minted.lineage, huser, hfam]
    | insert _ => exact hcall.elim
    | finish _ => exact hcall.elim
    | «open» _ hfam =>
      obtain ⟨rfl, -⟩ := hcall
      exact Or.inr ⟨hfam, Or.inr ⟨_, List.mem_cons_self, rfl⟩⟩
    | create _ => exact hcall.elim
  · exact Or.inl (hother hj)

/-! ## Lineages that nothing carries -/

/-- The drawn family is new. -/
def FreshFamily (t : RefreshTokens) (is : List Issued) (d : Draw) : Prop := ¬ Used t is d.familyId

/-- Nothing carries a lineage in `P`, and all their families are in use. -/
structure Barren (P : Lineage → Prop) (t : RefreshTokens) (is : List Issued) (f : ι → Hold) :
    Prop where
  used : ∀ l, P l → Used t is l.familyId
  empty : ∀ l x, P l → ¬ Carries t f l x

variable {P : Lineage → Prop}

/-- **What nothing carries, nothing ever will**, as long as drawn families are new. -/
theorem Barren.step (hb : Barren P t is f) (hfresh : FreshFamily t is d)
    (hs : TokenStep cfg now d t is (f i) t' is' h') : Barren P t' is' (Function.update f i h') where
  used l hl := (hb.used l hl).step hs
  empty l x hl hc := by
    rcases Carries.source hs hc with ⟨y, hy⟩ | ⟨hfam, -⟩
    · exact hb.empty l y hl hy
    · refine hfresh ?_
      rw [← hfam]
      exact hb.used l hl

/-- A call that stops carries nothing new. -/
theorem Barren.drop (hb : Barren P t is f) :
    Barren P t is (Function.update f i (f i).dropped) where
  used := hb.used
  empty l x hl hc := by
    rcases carries_update hc with hrow | hcall | ⟨j, -, hj⟩
    · exact hb.empty l x hl (Or.inl hrow)
    · cases hfi : f i with
      | exchanged row =>
        rw [hfi] at hcall
        exact hcall
      | _ =>
        rw [hfi] at hcall
        exact hcall
    · exact hb.empty l x hl (Or.inr ⟨j, hj⟩)

end Carriers

/-! ## Pools of calls -/

section Pools

variable {ι : Type*}

/-- A call that holds nothing it could still use. -/
def Hold.Quiet : Hold → Prop
  | .idle | .exchanged _ => True
  | _ => False

theorem dropped_quiet (h : Hold) : h.dropped.Quiet := by
  cases h <;> trivial

/-- A call that has not started, or is over, holds nothing. -/
theorem quiet_of_not_busy {c : Call} (h : ¬ c.busy) : c.hold.Quiet := by
  cases c with
  | refresh raw pc =>
    cases pc with
    | lookupUser _ => exact absurd ⟨rfl, rfl⟩ h
    | lookupRole _ _ _ => exact absurd ⟨rfl, rfl⟩ h
    | revoke _ _ _ => exact absurd ⟨rfl, rfl⟩ h
    | insert _ _ => exact absurd ⟨rfl, rfl⟩ h
    | updateJti _ _ _ => exact absurd ⟨rfl, rfl⟩ h
    | _ => trivial
  | issue a pc =>
    cases pc with
    | insert _ => exact absurd ⟨rfl, rfl⟩ h
    | _ => trivial
  | link token pc =>
    cases pc with
    | insert _ => exact absurd ⟨rfl, rfl⟩ h
    | _ => trivial
  | _ => trivial

theorem hold_of_fresh {c : Call} (h : c.fresh = true) : c.hold = .idle := by
  cases c with
  | refresh raw pc => cases pc <;> first | rfl | cases h
  | issue a pc => cases pc <;> first | rfl | cases h
  | link token pc => cases pc <;> first | rfl | cases h
  | _ => rfl

/-- Where calls run alone, the others hold nothing. -/
theorem quiet_of_alone [DecidableEq ι] {p : Calls ι} {i j : ι} {d : Draw}
    (h : Pool.Alone Call.busy p (.run i d : Move ι Draw Env)) (hj : j ≠ i) :
    (held (p.calls j)).Quiet := by
  have hidle := h j hj
  cases hc : p.calls j with
  | up c =>
    rw [hc] at hidle
    exact quiet_of_not_busy hidle
  | down c => exact dropped_quiet _

@[simp] theorem env_refreshTokens (s : Store) (e : Env) :
    (env s e).refreshTokens = s.refreshTokens := by
  cases e <;> rfl

@[simp] theorem env_issued (s : Store) (e : Env) : (env s e).issued = s.issued := by
  cases e <;> rfl

/-- A statement of call `i`, as a step on the table. -/
theorem tokenStep_run {cfg : Config} {p : Calls ι} {i : ι} {d : Draw} {c c' : Call} {s' : Store}
    (hi : p.calls i = .up c) (hn : (authMachine cfg).next p.store c d = some (s', c')) :
    TokenStep cfg p.store.now d p.store.refreshTokens p.store.issued ((held ∘ p.calls) i)
      s'.refreshTokens s'.issued (held (.up c')) := by
  rw [Function.comp_apply, hi]
  exact tokenStep_of_next hn

/-- A crash of call `i`, as a step on what the calls hold. -/
theorem held_crash [DecidableEq ι] {p : Calls ι} {i : ι} {c : Call} (hi : p.calls i = .up c) :
    held ∘ Function.update p.calls i (.down c)
      = Function.update (held ∘ p.calls) i ((held ∘ p.calls) i).dropped := by
  rw [Function.comp_update, Function.comp_apply, hi]
  rfl

/-- `uuidv4` never repeats: the families drawn are new (a move that uses none may be given any). -/
def FreshFamilies (p : Calls ι) : Move ι Draw Env → Prop
  | .run _ d => FreshFamily p.store.refreshTokens p.store.issued d
  | _ => True

instance (t : RefreshTokens) (is : List Issued) (familyId : String) :
    Decidable (Used t is familyId) :=
  inferInstanceAs (Decidable (_ ∨ _))

instance (p : Calls ι) : ∀ m : Move ι Draw Env, Decidable (FreshFamilies p m)
  | .run _ d => inferInstanceAs (Decidable (¬ Used p.store.refreshTokens p.store.issued d.familyId))
  | .crash _ => inferInstanceAs (Decidable True)
  | .env _ => inferInstanceAs (Decidable True)

end Pools

end WorkPlatform.Auth

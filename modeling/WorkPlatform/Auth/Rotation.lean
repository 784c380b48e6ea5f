import Mathlib.Data.Fin.VecNotation
import Mathlib.Tactic.FinCases
import WorkPlatform.Auth.Carriers

/-!
# Auth/Rotation — one unrevoked row for each family, under interleaved refreshes

Rotation reads a row, revokes it and inserts its successor, in statements of their own.  Two
presentations of one token that both read the row before either revokes it both succeed, and leave
two unrevoked rows (`two_presentations_both_succeed`).

As long as no call reads a usable row while another one holds it (`Unshared`), every family is
carried from one place only: by one unrevoked row, by the one call that replaces it, or by the one
call that opens the family (`Tidy`).
-/

namespace WorkPlatform.Auth

open Machinery

variable {ι : Type*}

/-! ## The invariant -/

/-- The row a call has found usable. -/
def Hold.taken : Hold → Option RefreshTokenRow
  | .claimed row | .rotating row _ | .inserted row | .exchanged row => some row
  | .idle | .opening _ => none

/-- The row a call has revoked. -/
def Hold.spent : Hold → Option RefreshTokenRow
  | .rotating row _ | .inserted row | .exchanged row => some row
  | .idle | .claimed _ | .opening _ => none

/-- What is kept as long as no row is shared. -/
structure Tidy (t : RefreshTokens) (is : List Issued) (f : ι → Hold) : Prop where
  single : ∀ l l' x y, Carries t f l x → Carries t f l' y → l.familyId = l'.familyId → x = y
  known : ∀ l x, Carries t f l x → Used t is l.familyId
  engaged : ∀ i j row row', (f i).taken = some row → (f j).taken = some row' →
    row.id = row'.id → i = j
  spent : ∀ i row, (f i).spent = some row → ∀ r ∈ t.rows, r.id = row.id → r.isRevoked = true
  traced : ∀ i row, (f i).taken = some row →
    ∃ r ∈ t.rows, r.id = row.id ∧ r.tokenHash = row.tokenHash

section Steps

variable {cfg : Config} {now : ℕ} {d : Draw} {t t' : RefreshTokens} {is is' : List Issued}
  {f : ι → Hold} {i : ι} {h h' : Hold}

theorem taken_of_spent {row : RefreshTokenRow} (hs : h.spent = some row) : h.taken = some row := by
  cases h <;> first | exact hs | cases hs

/-- **One unrevoked row for each family.** -/
theorem Tidy.unrevoked_unique (hT : Tidy t is f) {r r' : RefreshTokenRow} (hr : r ∈ t.rows)
    (hr' : r' ∈ t.rows) (hlive : r.isRevoked = false) (hlive' : r'.isRevoked = false)
    (hfam : r.familyId = r'.familyId) : r = r' := by
  have hseat := hT.single r.lineage r'.lineage (.inl r.id) (.inl r'.id)
    (Or.inl ⟨_, ⟨r, hr, hlive, rfl, rfl⟩, rfl⟩) (Or.inl ⟨_, ⟨r', hr', hlive', rfl, rfl⟩, rfl⟩) hfam
  exact RefreshTokens.eq_of_id_eq hr hr' (Sum.inl.inj hseat)

/-- A call that sits on a row has taken it. -/
theorem Hold.taken_of_carries {l : Lineage} {id : String} (hc : h.Carries i l (.inl id)) :
    ∃ row, h.taken = some row ∧ row.id = id := by
  cases h with
  | claimed row => exact ⟨row, rfl, (Sum.inl.inj hc.2).symm⟩
  | rotating row _ => exact ⟨row, rfl, (Sum.inl.inj hc.2).symm⟩
  | opening _ => cases hc.2
  | _ => exact hc.elim

/-- A call that opens a family sits on itself. -/
theorem Hold.eq_of_carries {j : ι} {l : Lineage} (hc : h.Carries i l (.inr j)) : j = i := by
  cases h with
  | claimed _ => cases hc.2
  | rotating _ _ => cases hc.2
  | opening _ => exact Sum.inr.inj hc.2
  | _ => exact hc.elim

/-- A step takes no row but by claiming it. -/
theorem taken_step (hs : TokenStep cfg now d t is h t' is' h') {row : RefreshTokenRow}
    (htaken : h'.taken = some row) :
    h.taken = some row ∨ h = .idle ∧ h' = .claimed row ∧ row ∈ t.rows ∧ row.isRevoked = false := by
  cases hs with
  | update _ => exact Or.inl htaken
  | release => cases htaken
  | claim hmem hlive =>
    obtain rfl := Option.some.inj htaken
    exact Or.inr ⟨rfl, rfl, hmem, hlive⟩
  | rotate _ _ _ => exact Or.inl htaken
  | insert _ => exact Or.inl htaken
  | finish _ => exact Or.inl htaken
  | «open» _ _ => cases htaken
  | create _ => cases htaken

/-- A row whose id is revoked throughout the table stays so. -/
theorem revoked_step (hs : TokenStep cfg now d t is h t' is' h') {id : String}
    (hid : ∃ r ∈ t.rows, r.id = id) (hrev : ∀ r ∈ t.rows, r.id = id → r.isRevoked = true) :
    ∀ r ∈ t'.rows, r.id = id → r.isRevoked = true := by
  intro r hr hrid
  rcases hs.table with ⟨g, hrows, hg⟩ | ⟨m, hins⟩
  · rw [hrows] at hr
    obtain ⟨r₀, hr₀, rfl⟩ := List.mem_map.mp hr
    exact (hg r₀).2.2.2.2 (hrev r₀ hr₀ ((hg r₀).1.symm.trans hrid))
  · rw [RefreshTokens.insert_rows hins] at hr
    rcases List.mem_cons.mp hr with rfl | hr
    · obtain ⟨r₀, hr₀, hr₀id⟩ := hid
      exact absurd (hr₀id.trans hrid.symm) (RefreshTokens.insert_id_notMem hins r₀ hr₀)
    · exact hrev r hr hrid

variable [DecidableEq ι]

/-- A step that lets nothing new carry a lineage. -/
theorem carries_of_update {l : Lineage} {x : String ⊕ ι}
    (hrow : ∀ id, RowCarries t' l id → RowCarries t l id)
    (hself : h'.Carries i l x → Carries t f l x)
    (hc : Carries t' (Function.update f i h') l x) : Carries t f l x := by
  rcases carries_update hc with ⟨id, hr, rfl⟩ | hcall | ⟨j, -, hj⟩
  · exact Or.inl ⟨id, hrow id hr, rfl⟩
  · exact hself hcall
  · exact Or.inr ⟨j, hj⟩

/-- An INSERT of call `i` moves the lineage from the seat of the call to the new row: nothing else
sat there. -/
theorem carries_of_insert {m : Minted} {seat : String ⊕ ι}
    (hins : t.insert (m.row cfg d.rowId) = some t')
    (hh' : ∀ l x, ¬ h'.Carries i l x) (hrows : ∀ l id, RowCarries t l id → Sum.inl id ≠ seat)
    (hcalls : ∀ j l x, j ≠ i → (f j).Carries j l x → x ≠ seat) (l : Lineage) (x : String ⊕ ι)
    (hc : Carries t' (Function.update f i h') l x) :
    (Carries t f l x ∧ x ≠ seat) ∨ l = m.lineage ∧ x = .inl d.rowId := by
  rcases carries_update hc with ⟨id, hr, rfl⟩ | hcall | ⟨j, hj, hcj⟩
  · rcases insert_rowCarries hins hr with hr | ⟨hl, hid⟩
    · exact Or.inl ⟨Or.inl ⟨id, hr, rfl⟩, hrows l id hr⟩
    · refine Or.inr ⟨hl.symm, ?_⟩
      rw [← hid]
      rfl
  · exact absurd hcall (hh' l x)
  · exact Or.inl ⟨Or.inr ⟨j, hcj⟩, hcalls j l x hj hcj⟩

/-- **What a step does to the carriers**: nothing new, one more for a family just drawn, or one that
moves into a new row. -/
theorem Tidy.carriers_step (hT : Tidy t is f) (hs : TokenStep cfg now d t is (f i) t' is' h') :
    (∀ l x, Carries t' (Function.update f i h') l x → Carries t f l x)
      ∨ (∀ l x, Carries t' (Function.update f i h') l x →
        Carries t f l x ∨ l.familyId = d.familyId ∧ x = .inr i)
      ∨ ∃ (m : Minted) (seat : String ⊕ ι), Carries t f m.lineage seat
        ∧ ∀ l x, Carries t' (Function.update f i h') l x →
          (Carries t f l x ∧ x ≠ seat) ∨ l = m.lineage ∧ x = .inl d.rowId := by
  generalize hfi : f i = h at hs
  have hself : ∀ {l x}, h.Carries i l x → Carries t f l x := fun hc => Or.inr ⟨i, hfi ▸ hc⟩
  cases hs with
  | update hu => exact Or.inl fun l x => carries_of_update (fun _ => hu.rowCarries) hself
  | release => exact Or.inl fun l x => carries_of_update (fun _ => id) fun hc => hc.elim
  | claim hmem hlive =>
    refine Or.inl fun l x => carries_of_update (fun _ => id) ?_
    rintro ⟨hl, rfl⟩
    exact Or.inl ⟨_, ⟨_, hmem, hlive, hl, rfl⟩, rfl⟩
  | rotate _ huser hfam =>
    refine Or.inl fun l x => carries_of_update (fun _ => (Updates.revokeWhere t _).rowCarries) ?_
    rintro ⟨hl, rfl⟩
    refine hself ⟨?_, rfl⟩
    rw [← hl, RefreshTokenRow.lineage, Minted.lineage, huser, hfam]
  | @insert _ _ row m hins =>
    refine Or.inr (Or.inr ⟨m, .inl row.id, hself ⟨rfl, rfl⟩, carries_of_insert hins (fun _ _ => id)
      ?_ ?_⟩)
    · rintro l id ⟨r, hr, hlive, -, rfl⟩ hid
      have hrevoked := hT.spent i row (by rw [hfi]; rfl) r hr (Sum.inl.inj hid)
      rw [hlive] at hrevoked
      cases hrevoked
    · rintro j l x hj hcj rfl
      obtain ⟨row', htaken, hid⟩ := Hold.taken_of_carries hcj
      exact hj (hT.engaged j i row' row htaken (by rw [hfi]; rfl) hid)
  | finish hu =>
    exact Or.inl fun l x => carries_of_update (fun _ => hu.rowCarries) fun hc => hc.elim
  | «open» _ hfam =>
    refine Or.inr (Or.inl fun l x hc => ?_)
    rcases carries_update hc with hrow | ⟨rfl, rfl⟩ | ⟨j, -, hj⟩
    · exact Or.inl (Or.inl hrow)
    · exact Or.inr ⟨hfam, rfl⟩
    · exact Or.inl (Or.inr ⟨j, hj⟩)
  | @create _ _ m hins =>
    refine Or.inr (Or.inr ⟨m, .inr i, hself ⟨rfl, rfl⟩, carries_of_insert hins (fun _ _ => id)
      (fun _ _ _ => Sum.inl_ne_inr) ?_⟩)
    rintro j l x hj hcj rfl
    exact hj (Hold.eq_of_carries hcj).symm

/-- A family has one carrier after a step, where it had one before. -/
theorem Tidy.single_step (hT : Tidy t is f) (hfresh : FreshFamily t is d)
    (hs : TokenStep cfg now d t is (f i) t' is' h') (l l' : Lineage) (x y : String ⊕ ι)
    (hx : Carries t' (Function.update f i h') l x) (hy : Carries t' (Function.update f i h') l' y)
    (hfam : l.familyId = l'.familyId) : x = y := by
  have hnew : ∀ {l z}, Carries t f l z → l.familyId ≠ d.familyId := by
    intro l z hz heq
    refine hfresh ?_
    rw [← heq]
    exact hT.known l z hz
  rcases hT.carriers_step hs with hquiet | hopen | ⟨m, seat, hseat, hmoved⟩
  · exact hT.single l l' x y (hquiet l x hx) (hquiet l' y hy) hfam
  · rcases hopen l x hx with hx | ⟨hl, rfl⟩
    · rcases hopen l' y hy with hy | ⟨hl', rfl⟩
      · exact hT.single l l' x y hx hy hfam
      · exact absurd (hfam.trans hl') (hnew hx)
    · rcases hopen l' y hy with hy | ⟨-, rfl⟩
      · exact absurd (hfam.symm.trans hl) (hnew hy)
      · rfl
  · rcases hmoved l x hx with ⟨hx, hxs⟩ | ⟨rfl, rfl⟩
    · rcases hmoved l' y hy with ⟨hy, -⟩ | ⟨rfl, rfl⟩
      · exact hT.single l l' x y hx hy hfam
      · exact absurd (hT.single l _ x seat hx hseat hfam) hxs
    · rcases hmoved l' y hy with ⟨hy, hys⟩ | ⟨-, rfl⟩
      · exact absurd (hT.single l' _ y seat hy hseat hfam.symm) hys
      · rfl

/-- A call has revoked the row it holds, or the step that does so revokes it. -/
theorem spent_step (hs : TokenStep cfg now d t is h t' is' h') {row : RefreshTokenRow}
    (hspent : h'.spent = some row) :
    h.spent = some row ∨ ∀ r ∈ t'.rows, r.id = row.id → r.isRevoked = true := by
  cases hs with
  | update _ => exact Or.inl hspent
  | rotate _ _ _ =>
    obtain rfl := Option.some.inj hspent
    refine Or.inr fun r hr hid => ?_
    rw [RefreshTokens.revokeWhere_rows] at hr
    obtain ⟨r₀, -, rfl⟩ := List.mem_map.mp hr
    have hid₀ : r₀.id = _ := hid
    simp [RefreshTokenRow.revokeIf, hid₀]
  | insert _ => exact Or.inl hspent
  | finish _ => exact Or.inl hspent
  | _ => cases hspent

/-- A row a call has taken is one it claims or has spent. -/
theorem claimed_or_spent {row : RefreshTokenRow} (ht : h.taken = some row) :
    h = .claimed row ∨ h.spent = some row := by
  cases h with
  | claimed _ =>
    obtain rfl := Option.some.inj ht
    exact Or.inl rfl
  | idle => cases ht
  | opening _ => cases ht
  | _ => exact Or.inr ht

/-- **One step**, with a new family and no shared row. -/
theorem Tidy.step (hT : Tidy t is f) (hfresh : FreshFamily t is d)
    (hclaim : ∀ row, f i = .idle → h' = .claimed row → ∀ j row', j ≠ i → f j = .claimed row' →
      row'.id ≠ row.id)
    (hs : TokenStep cfg now d t is (f i) t' is' h') : Tidy t' is' (Function.update f i h') := by
  -- a row taken after the step was taken before it, or is the usable row that call `i` has read
  have htaken : ∀ a row, (Function.update f i h' a).taken = some row → (f a).taken = some row
      ∨ a = i ∧ f i = .idle ∧ h' = .claimed row ∧ row ∈ t.rows ∧ row.isRevoked = false := by
    intro a row ha
    rcases update_cases (fun x : Hold => x.taken = some row) ha with ⟨rfl, hself⟩ | ⟨-, ha⟩
    · rcases taken_step hs hself with hold | hnew
      · exact Or.inl hold
      · exact Or.inr ⟨rfl, hnew⟩
    · exact Or.inl ha
  have hexcl : ∀ row b row', f i = .idle → h' = .claimed row → row ∈ t.rows →
      row.isRevoked = false → (f b).taken = some row' → row'.id ≠ row.id := by
    intro row b row' hidle hh' hmem hlive hb hid
    rcases claimed_or_spent hb with hcl | hsp
    · have hbi : b ≠ i := by
        rintro rfl
        rw [hidle] at hb
        cases hb
      exact hclaim row hidle hh' b row' hbi hcl hid
    · have hrev := hT.spent b row' hsp row hmem hid.symm
      rw [hlive] at hrev
      cases hrev
  refine ⟨hT.single_step hfresh hs, fun l x hc => ?_, fun a b row row' ha hb hid => ?_,
    fun a row ha => ?_, fun a row ha => ?_⟩
  · rcases Carries.source hs hc with ⟨y, hy⟩ | ⟨-, hused⟩
    · exact (hT.known l y hy).step hs
    · exact hused
  · rcases htaken a row ha with hfa | ⟨hai, hidle, hh', hmem, hlive⟩
    · rcases htaken b row' hb with hfb | ⟨-, hidle, hh', hmem, hlive⟩
      · exact hT.engaged a b row row' hfa hfb hid
      · exact absurd hid (hexcl row' a row hidle hh' hmem hlive hfa)
    · rcases htaken b row' hb with hfb | ⟨hbi, -⟩
      · exact absurd hid.symm (hexcl row b row' hidle hh' hmem hlive hfb)
      · exact hai.trans hbi.symm
  · have hkeep : (f a).spent = some row → ∀ r ∈ t'.rows, r.id = row.id → r.isRevoked = true := by
      intro hsp
      obtain ⟨r₀, hr₀, hid₀, -⟩ := hT.traced a row (taken_of_spent hsp)
      exact revoked_step hs ⟨r₀, hr₀, hid₀⟩ (hT.spent a row hsp)
    rcases update_cases (fun x : Hold => x.spent = some row) ha with ⟨rfl, hself⟩ | ⟨-, ha⟩
    · rcases spent_step hs hself with hold | hnew
      · exact hkeep hold
      · exact hnew
    · exact hkeep ha
  · have hfrom : ∃ r ∈ t.rows, r.id = row.id ∧ r.tokenHash = row.tokenHash := by
      rcases htaken a row ha with ha | ⟨rfl, -, -, hmem, -⟩
      · exact hT.traced a row ha
      · exact ⟨row, hmem, rfl, rfl⟩
    obtain ⟨r, hr, hid, hhash⟩ := hfrom
    obtain ⟨r', hr', hid', -, hhash'⟩ := mem_step hs hr
    exact ⟨r', hr', hid'.trans hid, hhash'.trans hhash⟩

/-- A crash takes nothing and spends nothing. -/
theorem Tidy.drop (hT : Tidy t is f) (i : ι) :
    Tidy t is (Function.update f i (f i).dropped) := by
  have hnone : ∀ l x, ¬ (f i).dropped.Carries i l x := by
    intro l x
    cases f i <;> exact id
  have hcarry : ∀ l x, Carries t (Function.update f i (f i).dropped) l x → Carries t f l x :=
    fun l x => carries_of_update (fun _ => id) fun hc => absurd hc (hnone l x)
  have hkept : (f i).dropped = .idle ∨ (f i).dropped = f i := by
    cases f i with
    | exchanged row => exact Or.inr rfl
    | _ => exact Or.inl rfl
  have htaken : ∀ a row, (Function.update f i (f i).dropped a).taken = some row →
      Function.update f i (f i).dropped a = f a := by
    intro a row ha
    by_cases hai : a = i
    · subst hai
      rw [Function.update_self] at ha ⊢
      rcases hkept with hidle | hsame
      · rw [hidle] at ha
        cases ha
      · exact hsame
    · exact Function.update_of_ne hai _ _
  refine ⟨fun l l' x y hx hy => hT.single l l' x y (hcarry l x hx) (hcarry l' y hy),
    fun l x hx => hT.known l x (hcarry l x hx), fun a b row row' ha hb => ?_,
    fun a row ha => ?_, fun a row ha => ?_⟩
  · rw [htaken a row ha] at ha
    rw [htaken b row' hb] at hb
    exact hT.engaged a b row row' ha hb
  · rw [htaken a row (taken_of_spent ha)] at ha
    exact hT.spent a row ha
  · rw [htaken a row ha] at ha
    exact hT.traced a row ha

end Steps

/-! ## The property and the condition -/

/-- **Rotation**: one unrevoked row for each family, and each raw token exchanged once. -/
structure Rotates (p : Calls ι) : Prop where
  unrevoked : ∀ r ∈ p.store.refreshTokens.rows, ∀ r' ∈ p.store.refreshTokens.rows,
    r.isRevoked = false → r'.isRevoked = false → r.familyId = r'.familyId → r = r'
  exchanged : ∀ i j raw row row' pair pair', (p.calls i).at' = .refresh raw (.returned row pair) →
    (p.calls j).at' = .refresh raw (.returned row' pair') → i = j

/-- The usable row a call is about to read. -/
def reading (cfg : Config) (s : Store) : Call → Option RefreshTokenRow
  | .refresh raw .find =>
    match RefreshPc.found s.now (s.findRefreshToken (cfg.hashToken raw)) with
    | .lookupUser row => some row
    | _ => none
  | _ => none

/-- A call that has found the row usable and not revoked it yet. -/
def Claims (id : String) (c : Call) : Prop := ∃ row, c.hold = .claimed row ∧ row.id = id

/-- **No row is shared**: a call reads a usable row only while no other call is between its own
reading of that row and its revocation. -/
def Unshared (cfg : Config) (p : Calls ι) : Move ι Draw Env → Prop
  | .run i _ => ∀ row ∈ reading cfg p.store (p.calls i).at', ∀ j, j ≠ i →
      ¬ (p.calls j).Live (Claims row.id)
  | _ => True

/-! ## Every run -/

section Runs

variable {cfg : Config} {d : Draw} {s s' : Store} {c c' : Call}

/-- A refresh goes on with the row it found. -/
theorem found_lookupUser {now : ℕ} {o : Option RefreshTokenRow} {row : RefreshTokenRow}
    (h : RefreshPc.found now o = .lookupUser row) : o = some row := by
  cases o with
  | none => cases h
  | some x =>
    unfold RefreshPc.found at h
    dsimp only at h
    split at h
    · cases h
    · split at h
      · cases h
      · rw [RefreshPc.lookupUser.inj h]

/-- It claims the row to look its user up. -/
theorem found_of_claimed {now : ℕ} {o : Option RefreshTokenRow} {row : RefreshTokenRow}
    (h : (RefreshPc.found now o).hold = .claimed row) :
    RefreshPc.found now o = .lookupUser row := by
  cases o with
  | none => cases h
  | some x =>
    unfold RefreshPc.found at h ⊢
    dsimp only at h ⊢
    split at h
    · cases h
    · split at h
      · cases h
      · rename_i hrev hexp
        rw [if_neg hrev, if_neg hexp, Hold.claimed.inj h]

/-- Only the reading of a usable row claims it. -/
theorem reading_of_claim (h : next cfg s c d = some (s', c')) (hidle : c.hold = .idle)
    {row : RefreshTokenRow} (hclaim : c'.hold = .claimed row) : reading cfg s c = some row := by
  cases c with
  | refresh raw pc =>
    obtain ⟨pc', hpc, rfl⟩ := pc_of_next h
    cases pc with
    | find =>
      obtain ⟨rfl, rfl⟩ := Prod.mk.inj (Option.some.inj hpc)
      rw [reading, found_of_claimed hclaim]
    | revokeFamily x =>
      obtain ⟨rfl, rfl⟩ := Prod.mk.inj (Option.some.inj hpc)
      rw [Call.hold, reused_hold] at hclaim
      cases hclaim
    | blacklist x jti =>
      rw [refreshNext] at hpc
      split at hpc
      all_goals
        obtain ⟨rfl, rfl⟩ := Prod.mk.inj (Option.some.inj hpc)
        cases hclaim
    | returned _ _ => cases hpc
    | revoked _ => cases hpc
    | threw _ => cases hpc
    | failed _ => cases hpc
    | _ => cases hidle
  | issue a pc =>
    obtain ⟨pc', -, rfl⟩ := pc_of_next h
    cases pc' <;> cases hclaim
  | link token pc =>
    obtain ⟨pc', -, rfl⟩ := pc_of_next h
    cases pc' <;> cases hclaim
  | _ =>
    obtain ⟨pc', -, rfl⟩ := pc_of_next h
    cases hclaim

/-- The row that is read is the row of the token that is presented. -/
theorem reading_hash {raw : String} {pc : RefreshPc} {row : RefreshTokenRow}
    (h : reading cfg s (.refresh raw pc) = some row) : row.tokenHash = cfg.hashToken raw := by
  cases pc with
  | find =>
    rw [reading] at h
    split at h
    · rename_i x hx
      obtain rfl := Option.some.inj h
      exact (findRefreshToken_mem (found_lookupUser hx)).2
    · cases h
  | _ => cases h

/-- A call holds the row of the token it was given. -/
def Call.Presents (cfg : Config) : Call → Prop
  | .refresh raw pc => ∀ row, pc.hold.taken = some row → row.tokenHash = cfg.hashToken raw
  | _ => True

/-- A call presents the same token from its first statement to its last. -/
theorem presents_next (h : next cfg s c d = some (s', c')) (hp : c.Presents cfg) :
    c'.Presents cfg := by
  cases c with
  | refresh raw pc =>
    have hs := tokenStep_of_next h
    obtain ⟨pc', -, rfl⟩ := pc_of_next h
    intro row hrow
    rcases taken_step hs hrow with hold | ⟨hidle, hclaim, -⟩
    · exact hp row hold
    · exact reading_hash (reading_of_claim h hidle hclaim)
  | _ =>
    obtain ⟨pc', -, rfl⟩ := pc_of_next h
    trivial

/-- What runs without shared rows keep. -/
structure RotationInv (cfg : Config) (p : Calls ι) : Prop where
  tidy : Tidy p.store.refreshTokens p.store.issued (held ∘ p.calls)
  presents : ∀ i, (p.calls i).at'.Presents cfg

/-- What the invariant says of the rows: a rotation leaves one that is live. -/
theorem RotationInv.rotates {p : Calls ι} (h : RotationInv cfg p) : Rotates p where
  unrevoked r hr r' hr' hlive hlive' hfam := h.tidy.unrevoked_unique hr hr' hlive hlive' hfam
  exchanged i j raw row row' pair pair' hi hj := by
    have htaken : ∀ {k row pair}, (p.calls k).at' = .refresh raw (.returned row pair) →
        ((held ∘ p.calls) k).taken = some row ∧ row.tokenHash = cfg.hashToken raw := by
      intro k row pair hk
      have hp := h.presents k
      rw [hk] at hp
      refine ⟨?_, hp row rfl⟩
      rw [Function.comp_apply]
      cases hc : p.calls k with
      | up c => rw [hc] at hk; cases hk; rfl
      | down c => rw [hc] at hk; cases hk; rfl
    obtain ⟨hti, hhi⟩ := htaken hi
    obtain ⟨htj, hhj⟩ := htaken hj
    obtain ⟨r, hr, hid, hhash⟩ := h.tidy.traced i row hti
    obtain ⟨r', hr', hid', hhash'⟩ := h.tidy.traced j row' htj
    obtain rfl := RefreshTokens.eq_of_hash_eq hr hr'
      ((hhash.trans hhi).trans (hhash'.trans hhj).symm)
    exact h.tidy.engaged i j row row' hti htj (hid.symm.trans hid')

/-- The invariant holds where no family has two live rows and no call has begun. -/
theorem rotationInv_of_fresh {p : Calls ι} (hstart : ∀ i, (p.calls i).Live fun c => c.fresh)
    (h₀ : ∀ r ∈ p.store.refreshTokens.rows, ∀ r' ∈ p.store.refreshTokens.rows,
      r.isRevoked = false → r'.isRevoked = false → r.familyId = r'.familyId → r = r') :
    RotationInv cfg p := by
  have hidle : ∀ i, (held ∘ p.calls) i = .idle := by
    intro i
    obtain ⟨c, hc, hfresh⟩ := (hstart i).exists
    rw [Function.comp_apply, hc]
    exact hold_of_fresh hfresh
  have hrows : ∀ {l x}, Carries p.store.refreshTokens (held ∘ p.calls) l x →
      ∃ id, RowCarries p.store.refreshTokens l id ∧ x = .inl id := by
    rintro l x (hrow | ⟨i, hi⟩)
    · exact hrow
    · rw [hidle] at hi
      exact hi.elim
  have hnone : ∀ i row, ((held ∘ p.calls) i).taken ≠ some row := by
    intro i row h
    rw [hidle] at h
    cases h
  refine ⟨⟨fun l l' x y hx hy hfam => ?_, fun l x hx => ?_, fun i _ row _ hi => ?_,
    fun i row hi => ?_, fun i row hi => ?_⟩, fun i => ?_⟩
  · obtain ⟨id, ⟨r, hr, hlive, rfl, rfl⟩, rfl⟩ := hrows hx
    obtain ⟨id', ⟨r', hr', hlive', rfl, rfl⟩, rfl⟩ := hrows hy
    rw [h₀ r hr r' hr' hlive hlive' hfam]
  · obtain ⟨id, ⟨r, hr, -, rfl, -⟩, -⟩ := hrows hx
    exact Or.inl ⟨r, hr, rfl⟩
  · exact absurd hi (hnone i row)
  · exact absurd (taken_of_spent hi) (hnone i row)
  · exact absurd hi (hnone i row)
  · obtain ⟨c, hc, hfresh⟩ := (hstart i).exists
    rw [hc]
    cases c with
    | refresh raw pc =>
      intro row hrow
      rw [show pc.hold = .idle from hold_of_fresh hfresh] at hrow
      cases hrow
    | _ => trivial

variable [DecidableEq ι]

/-- A statement that claims no row another call has claimed. -/
theorem RotationInv.run {p : Calls ι} {i : ι} (h : RotationInv cfg p)
    (hfresh : FreshFamilies p (.run i d : Move ι Draw Env)) (hunshared : Unshared cfg p (.run i d))
    (hi : p.calls i = .up c) (hn : next cfg p.store c d = some (s', c')) :
    RotationInv cfg ⟨s', Function.update p.calls i (.up c')⟩ := by
  have hfi : (held ∘ p.calls) i = c.hold := by
    rw [Function.comp_apply, hi]
    rfl
  refine ⟨?_, fun j => ?_⟩
  · dsimp only
    rw [Function.comp_update]
    refine h.tidy.step hfresh (fun row hidle hclaim j row' hj hcl hid => ?_) (tokenStep_run hi hn)
    rw [hfi] at hidle
    have hread : row ∈ reading cfg p.store (p.calls i).at' := by
      rw [hi]
      exact reading_of_claim hn hidle hclaim
    refine hunshared row hread j hj ?_
    rw [Function.comp_apply] at hcl
    cases hc : p.calls j with
    | up c => rw [hc] at hcl; exact ⟨row', hcl, hid⟩
    | down c =>
      rw [hc] at hcl
      have hq := dropped_quiet c.hold
      rw [show c.hold.dropped = .claimed row' from hcl] at hq
      exact hq.elim
  · have hpi := h.presents i
    rw [hi] at hpi
    dsimp only
    by_cases hj : j = i
    · subst hj
      rw [Function.update_self]
      exact presents_next hn hpi
    · rw [Function.update_of_ne hj]
      exact h.presents j

/-- A call that stops keeps the invariant. -/
theorem RotationInv.crash {p : Calls ι} {i : ι} (h : RotationInv cfg p) (hi : p.calls i = .up c) :
    RotationInv cfg ⟨p.store, Function.update p.calls i (.down c)⟩ := by
  refine ⟨?_, fun j => ?_⟩
  · dsimp only
    rw [held_crash hi]
    exact h.tidy.drop i
  · dsimp only
    rw [at'_update_down hi]
    exact h.presents j

omit [DecidableEq ι] in
theorem RotationInv.env {p : Calls ι} (h : RotationInv cfg p) (e : Env) :
    RotationInv cfg ⟨env p.store e, p.calls⟩ := by
  refine ⟨?_, h.presents⟩
  dsimp only
  rw [env_refreshTokens, env_issued]
  exact h.tidy

/-- **Rotation under interleaving**: in every run in which no row is shared, starting from a table
with at most one unrevoked row for each family. -/
theorem rotates_of_unshared {p q : Calls ι} (hstart : ∀ i, (p.calls i).Live fun c => c.fresh)
    (h₀ : ∀ r ∈ p.store.refreshTokens.rows, ∀ r' ∈ p.store.refreshTokens.rows,
      r.isRevoked = false → r'.isRevoked = false → r.familyId = r'.familyId → r = r')
    (hrun : Run (Pool.step (authMachine cfg)) (fun p m => FreshFamilies p m ∧ Unshared cfg p m)
      p q) : Rotates q := by
  have hinv : RotationInv cfg q :=
    Pool.invariant (I := RotationInv cfg) (rotationInv_of_fresh hstart h₀)
      (fun p i d c s' c' h hG hi hn => h.run hG.1 hG.2 hi hn) (fun p i c h _ hi => h.crash hi)
      (fun p e h _ => h.env e) hrun
  exact hinv.rotates

end Runs

/-! ## One token presented twice -/

section Guard

variable [Fintype ι] [DecidableEq ι] (p : Calls ι)

instance (id : String) : DecidablePred (Claims id) := fun c =>
  match h : c.hold with
  | .claimed row => decidable_of_iff (row.id = id) (by simp [Claims, h])
  | .idle | .rotating _ _ | .inserted _ | .exchanged _ | .opening _ =>
    .isFalse (by simp [Claims, h])

instance (cfg : Config) : ∀ m : Move ι Draw Env, Decidable (Unshared cfg p m)
  | .run i _ =>
    inferInstanceAs (Decidable (∀ row ∈ reading cfg p.store (p.calls i).at', ∀ j, j ≠ i →
      ¬ (p.calls j).Live (Claims row.id)))
  | .crash _ => inferInstanceAs (Decidable True)
  | .env _ => inferInstanceAs (Decidable True)

end Guard

/-- Access tokens live 15 minutes; hashes are the texts themselves. -/
def demoConfig : Config := ⟨900, by decide, id, fun password salt => password ++ salt⟩

/-- A user without organisation. -/
def demoUser : UserRow := ⟨false, .active, false, true, some "old", none⟩

/-- One user, `u`, on the primary and the replica. -/
def demoTables : Replicated := ⟨fun id => if id = "u" then some demoUser else none, []⟩

/-- The user's session: a refresh token `t0` in the family `f0`, with access token `a0`. -/
def demoSession : Store where
  now := 0
  primary := demoTables
  replica := demoTables
  refreshTokens := ⟨[⟨"r0", "u", none, "t0", "f0", some "a0", false, refreshTokenTtl⟩],
    by decide, by decide⟩
  blacklist := fun _ => none
  userCache := fun _ => none
  oneTime := fun _ => none
  issued := [⟨"f0", ⟨"u", "", .member, false, none, 0, "a0", 0, 900⟩⟩]

/-- Draws named after their move. -/
def drawn (jti token row : String) : Draw := ⟨jti, "f" ++ jti, token, row, "salt", true⟩

/-- The token `t0` is presented twice. -/
def presentedTwice : Calls (Fin 2) := ⟨demoSession, fun _ => .up (.refresh "t0" .find)⟩

theorem presentedTwice_fresh (i : Fin 2) : (presentedTwice.calls i).Live fun c => c.fresh := rfl

theorem presentedTwice_unrevoked : ∀ r ∈ presentedTwice.store.refreshTokens.rows,
    ∀ r' ∈ presentedTwice.store.refreshTokens.rows, r.isRevoked = false → r'.isRevoked = false →
      r.familyId = r'.familyId → r = r' := by
  decide

/-- **Both presentations read the row before either revokes it**: both succeed, and two rows of the
family are left unrevoked. -/
theorem two_presentations_both_succeed :
    (∀ i, (presentedTwice.calls i).Live fun c => c.fresh)
      ∧ (∀ r ∈ presentedTwice.store.refreshTokens.rows,
        ∀ r' ∈ presentedTwice.store.refreshTokens.rows, r.isRevoked = false → r'.isRevoked = false →
          r.familyId = r'.familyId → r = r')
      ∧ ∃ q, Run (Pool.step (authMachine demoConfig)) FreshFamilies presentedTwice q
        ∧ (∃ r ∈ q.store.refreshTokens.rows, ∃ r' ∈ q.store.refreshTokens.rows, r ≠ r'
          ∧ r.isRevoked = false ∧ r'.isRevoked = false ∧ r.familyId = r'.familyId)
        ∧ ¬ Rotates q := by
  refine ⟨presentedTwice_fresh, presentedTwice_unrevoked, ?_⟩
  obtain ⟨q, hq, hrows⟩ := exists_run_of_exec (Pool.step (authMachine demoConfig)) FreshFamilies
    presentedTwice ((List.replicate 5 [.run 0 (drawn "a1" "t1" "r1"),
      .run 1 (drawn "a2" "t2" "r2")]).flatten)
    (fun q => ∃ r ∈ q.store.refreshTokens.rows, ∃ r' ∈ q.store.refreshTokens.rows, r ≠ r'
      ∧ r.isRevoked = false ∧ r'.isRevoked = false ∧ r.familyId = r'.familyId) (by decide)
  have htwo := of_decide_eq_true hrows
  refine ⟨q, hq, htwo, fun h => ?_⟩
  obtain ⟨r, hr, r', hr', hne, hlive, hlive', hfam⟩ := htwo
  exact hne (h.unrevoked r hr r' hr' hlive hlive' hfam)

/-- One presentation after the other: the second one is a reuse. -/
theorem rotates_presented_in_turn :
    ∃ q, Run (Pool.step (authMachine demoConfig))
        (fun p m => FreshFamilies p m ∧ Unshared demoConfig p m) presentedTwice q
      ∧ (∃ row, q.calls 1 = .up (.refresh "t0" (.revoked row))) ∧ Rotates q := by
  obtain ⟨q, hq, hrow⟩ := exists_run_of_exec (Pool.step (authMachine demoConfig))
    (fun p m => FreshFamilies p m ∧ Unshared demoConfig p m) presentedTwice
    (List.flatten [List.replicate 5 (.run 0 (drawn "a1" "t1" "r1")),
      List.replicate 3 (.run 1 (drawn "a2" "t2" "r2"))])
    (fun q => q.calls 1 = .up (.refresh "t0" (.revoked
      ⟨"r0", "u", none, "t0", "f0", some "a0", true, refreshTokenTtl⟩))) (by decide)
  exact ⟨q, hq, ⟨_, of_decide_eq_true hrow⟩,
    rotates_of_unshared presentedTwice_fresh presentedTwice_unrevoked hq⟩

end WorkPlatform.Auth

import WorkPlatform.Auth.Rotation

/-!
# Auth/Family — a token family is the session of one user

    open ──▸ a family, drawn new, of the user who logs in
    rotate ──▸ the same family, the same user

Families are what `revokeTokenFamily` closes, users what `revokeAllUserTokens` closes.  No column
says whose a family is: it is what the rows and the signed access tokens agree on, across any
interleaving and any crash (`family_of_one_user`).  So a family with one token of a user is closed
as a whole with the tokens of this user.
-/

namespace WorkPlatform.Auth

open Machinery

variable {ι : Type*}

/-! ## Whose a family is -/

/-- A row or a signed token says that the family is the user's. -/
def Names (t : RefreshTokens) (is : List Issued) (l : Lineage) : Prop :=
  (∃ r ∈ t.rows, r.lineage = l) ∨ ∃ x ∈ is, x.token.sub = l.userId ∧ x.familyId = l.familyId

/-- **One family, one user.** -/
def OneUser (t : RefreshTokens) (is : List Issued) : Prop :=
  ∀ l l', Names t is l → Names t is l' → l.familyId = l'.familyId → l = l'

/-- What every move keeps. -/
structure FamilyInv (t : RefreshTokens) (is : List Issued) (f : ι → Hold) : Prop where
  one : OneUser t is
  held : ∀ i l, (f i).lineage = some l → Names t is l

section Steps

variable {cfg : Config} {now : ℕ} {d : Draw} {t t' : RefreshTokens} {is is' : List Issued}
  {h h' : Hold} {l : Lineage}

theorem Names.used (hl : Names t is l) : Used t is l.familyId := by
  rcases hl with ⟨r, hr, rfl⟩ | ⟨x, hx, -, hfam⟩
  · exact Or.inl ⟨r, hr, rfl⟩
  · exact Or.inr ⟨x, hx, hfam⟩

/-- An UPDATE keeps the lineage of every row. -/
theorem lineage_of_updates {g : RefreshTokenRow → RefreshTokenRow} {r : RefreshTokenRow}
    (huser : (g r).userId = r.userId) (hfam : (g r).familyId = r.familyId) :
    (g r).lineage = r.lineage := by
  rw [RefreshTokenRow.lineage, RefreshTokenRow.lineage, huser, hfam]

/-- An UPDATE leaves the lineages that are named. -/
theorem Updates.names_iff (hu : Updates t t') : Names t' is l ↔ Names t is l := by
  obtain ⟨g, hrows, hg⟩ := hu
  have hrow : (∃ r ∈ t'.rows, r.lineage = l) ↔ ∃ r ∈ t.rows, r.lineage = l := by
    rw [hrows]
    constructor
    · rintro ⟨r', hr', hl⟩
      obtain ⟨r, hr, rfl⟩ := List.mem_map.mp hr'
      exact ⟨r, hr, (lineage_of_updates (hg r).2.1 (hg r).2.2.1).symm.trans hl⟩
    · rintro ⟨r, hr, hl⟩
      exact ⟨g r, List.mem_map_of_mem hr, (lineage_of_updates (hg r).2.1 (hg r).2.2.1).trans hl⟩
  exact or_congr_left hrow

/-- A row that is inserted names the lineage its pair was minted for. -/
theorem names_insert_iff {m : Minted} (hins : t.insert (m.row cfg d.rowId) = some t') :
    Names t' is l ↔ m.lineage = l ∨ Names t is l := by
  unfold Names
  rw [RefreshTokens.insert_rows hins, List.exists_mem_cons_iff, or_assoc]
  exact Iff.rfl

/-- So does a token that is signed. -/
theorem names_cons_iff {m : Minted} (hm : m.SignedAt cfg now d) :
    Names t (⟨m.familyId, m.accessToken⟩ :: is) l ↔ m.lineage = l ∨ Names t is l := by
  obtain ⟨payload, htoken, huser⟩ := hm
  have hsub : m.accessToken.sub = m.userId := by
    rw [htoken, huser]
    rfl
  unfold Names
  rw [List.exists_mem_cons_iff, or_left_comm]
  refine or_congr_left ?_
  dsimp only
  rw [hsub]
  exact ⟨fun ⟨hu, hf⟩ => congrArg₂ Lineage.mk hu hf, fun hl => hl ▸ ⟨rfl, rfl⟩⟩

/-- **What a step adds to the names**: nothing, or a user for the family it has drawn. -/
theorem names_step (hheld : ∀ l, h.lineage = some l → Names t is l)
    (hs : TokenStep cfg now d t is h t' is' h') :
    ∃ l₀ : Lineage, l₀.familyId = d.familyId
      ∧ ∀ l, Names t' is' l → Names t is l ∨ l = l₀ := by
  have hold : (∀ l, Names t' is' l → Names t is l) → ∃ l₀ : Lineage, l₀.familyId = d.familyId
      ∧ ∀ l, Names t' is' l → Names t is l ∨ l = l₀ := fun himp =>
    ⟨⟨"", d.familyId⟩, rfl, fun l hl => Or.inl (himp l hl)⟩
  cases hs with
  | update hu => exact hold fun l hl => hu.names_iff.mp hl
  | release => exact hold fun l hl => hl
  | claim _ _ => exact hold fun l hl => hl
  | rotate hm huser hfam =>
    refine hold fun l hl => ?_
    rcases (names_cons_iff hm).mp hl with rfl | hl
    · refine hheld _ (congrArg some ?_)
      rw [RefreshTokenRow.lineage, Minted.lineage, huser, hfam]
    · exact (Updates.revokeWhere t _).names_iff.mp hl
  | insert hins =>
    refine hold fun l hl => ?_
    rcases (names_insert_iff hins).mp hl with rfl | hl
    · exact hheld _ rfl
    · exact hl
  | finish hu => exact hold fun l hl => hu.names_iff.mp hl
  | @«open» _ m hm hfam =>
    exact ⟨m.lineage, hfam, fun l hl => ((names_cons_iff hm).mp hl).symm.imp_right Eq.symm⟩
  | create hins =>
    refine hold fun l hl => ?_
    rcases (names_insert_iff hins).mp hl with rfl | hl
    · exact hheld _ rfl
    · exact hl

/-- What is named stays named. -/
theorem Names.step (hs : TokenStep cfg now d t is h t' is' h') (hl : Names t is l) :
    Names t' is' l := by
  cases hs with
  | update hu => exact hu.names_iff.mpr hl
  | release => exact hl
  | claim _ _ => exact hl
  | rotate hm _ _ =>
    exact (names_cons_iff hm).mpr (Or.inr ((Updates.revokeWhere t _).names_iff.mpr hl))
  | insert hins => exact (names_insert_iff hins).mpr (Or.inr hl)
  | finish hu => exact hu.names_iff.mpr hl
  | «open» hm _ => exact (names_cons_iff hm).mpr (Or.inr hl)
  | create hins => exact (names_insert_iff hins).mpr (Or.inr hl)

/-- What a call holds after a step is named after it. -/
theorem names_of_held (hheld : ∀ l, h.lineage = some l → Names t is l)
    (hs : TokenStep cfg now d t is h t' is' h') (hl : h'.lineage = some l) : Names t' is' l := by
  have hkeep := Names.step (l := l) hs
  cases hs with
  | update _ => exact hkeep (hheld l hl)
  | release => cases hl
  | claim hmem _ => exact Or.inl ⟨_, hmem, Option.some.inj hl⟩
  | rotate hm _ _ => exact (names_cons_iff hm).mpr (Or.inl (Option.some.inj hl))
  | insert _ => cases hl
  | finish _ => cases hl
  | «open» hm _ => exact (names_cons_iff hm).mpr (Or.inl (Option.some.inj hl))
  | create _ => cases hl

variable [DecidableEq ι] {f : ι → Hold} {i : ι}

/-- A step of a family carries its user on. -/
theorem FamilyInv.step (hf : FamilyInv t is f) (hfresh : FreshFamily t is d)
    (hs : TokenStep cfg now d t is (f i) t' is' h') :
    FamilyInv t' is' (Function.update f i h') where
  one := by
    obtain ⟨l₀, hl₀, hnew⟩ := names_step (hf.held i) hs
    -- the family just drawn was named by nothing
    have hdrawn : ∀ l, Names t is l → l.familyId ≠ l₀.familyId := by
      intro l hl heq
      refine hfresh ?_
      rw [← hl₀, ← heq]
      exact hl.used
    intro l l' hl hl' hfam
    rcases hnew l hl with hold | rfl
    · rcases hnew l' hl' with hold' | rfl
      · exact hf.one l l' hold hold' hfam
      · exact absurd hfam (hdrawn l hold)
    · rcases hnew l' hl' with hold' | rfl
      · exact absurd hfam.symm (hdrawn l' hold')
      · rfl
  held := by
    intro j l hl
    rcases update_cases (fun k : Hold => k.lineage = some l) hl with ⟨rfl, hself⟩ | ⟨-, hother⟩
    · exact names_of_held (hf.held j) hs hself
    · exact (hf.held j l hother).step hs

/-- A call that stops keeps the invariant. -/
theorem FamilyInv.drop (hf : FamilyInv t is f) (i : ι) :
    FamilyInv t is (Function.update f i (f i).dropped) where
  one := hf.one
  held := by
    intro j l hl
    rcases update_cases (fun k : Hold => k.lineage = some l) hl with ⟨rfl, hself⟩ | ⟨-, hother⟩
    · cases hfi : f j with
      | exchanged row =>
        rw [hfi] at hself
        cases hself
      | _ =>
        rw [hfi] at hself
        cases hself
    · exact hf.held j l hother

end Steps

/-! ## Runs -/

section Runs

variable [DecidableEq ι] {cfg : Config} {p q : Calls ι}

/-- A family has one user in every state of such a run. -/
theorem familyInv_of_run (hstart : ∀ i, (p.calls i).Live fun c => c.fresh)
    (h₀ : OneUser p.store.refreshTokens p.store.issued)
    (hrun : Run (Pool.step (authMachine cfg)) FreshFamilies p q) :
    FamilyInv q.store.refreshTokens q.store.issued (held ∘ q.calls) := by
  refine Pool.invariant
    (I := fun q : Calls ι => FamilyInv q.store.refreshTokens q.store.issued (held ∘ q.calls))
    ⟨h₀, fun i l hl => ?_⟩ ?_ ?_ ?_ hrun
  · obtain ⟨c, hc, hfresh⟩ := (hstart i).exists
    rw [Function.comp_apply, hc, show held (.up c) = .idle from hold_of_fresh hfresh] at hl
    cases hl
  · intro q i d c s' c' h hfresh hi hn
    dsimp only
    rw [Function.comp_update]
    exact h.step hfresh (tokenStep_run hi hn)
  · intro q i c h _ hi
    dsimp only
    rw [held_crash hi]
    exact h.drop i
  · intro q e h _
    dsimp only [authMachine]
    rw [env_refreshTokens, env_issued]
    exact h

/-- **A family is the session of one user.**  In every run with new families, whatever interleaves
and crashes, all rows and all signed tokens of a family are of one user; and where a family has a
token of a user, `revokeAllUserTokens` of this user leaves no row of the family unrevoked. -/
theorem family_of_one_user (hstart : ∀ i, (p.calls i).Live fun c => c.fresh)
    (h₀ : OneUser p.store.refreshTokens p.store.issued)
    (hrun : Run (Pool.step (authMachine cfg)) FreshFamilies p q) :
    OneUser q.store.refreshTokens q.store.issued
      ∧ ∀ l, Names q.store.refreshTokens q.store.issued l →
        ∀ r ∈ (q.store.revokeAllUserTokens l.userId).refreshTokens.rows,
          r.familyId = l.familyId → r.isRevoked = true := by
  have hinv := familyInv_of_run hstart h₀ hrun
  refine ⟨hinv.one, fun l hl r hr hfam => ?_⟩
  obtain ⟨r₀, hr₀, rfl⟩ := List.mem_map.mp hr
  have hsame : r₀.lineage = l := hinv.one _ l (Or.inl ⟨r₀, hr₀, rfl⟩) hl hfam
  have huser : r₀.userId = l.userId := congrArg Lineage.userId hsame
  show (r₀.isRevoked || decide (r₀.userId = l.userId ∧ r₀.isRevoked = false)) = true
  cases hrev : r₀.isRevoked with
  | true => rfl
  | false => simpa using huser

end Runs

/-- In that store each family has one user. -/
theorem presentedTwice_oneUser :
    OneUser presentedTwice.store.refreshTokens presentedTwice.store.issued := by
  have hnames : ∀ l, Names presentedTwice.store.refreshTokens presentedTwice.store.issued l →
      l = ⟨"u", "f0"⟩ := by
    rintro ⟨userId, familyId⟩ (⟨r, hr, hl⟩ | ⟨x, hx, huser, hfam⟩)
    · obtain rfl := List.mem_singleton.mp hr
      exact hl.symm
    · obtain rfl := List.mem_singleton.mp hx
      exact congrArg₂ Lineage.mk huser.symm hfam.symm
  exact fun l l' hl hl' _ => (hnames l hl).trans (hnames l' hl').symm

/-- The two unrevoked rows of `two_presentations_both_succeed` are of one user, and go with the
tokens of this user. -/
theorem family_of_one_user_twice :
    ∃ q, Run (Pool.step (authMachine demoConfig)) FreshFamilies presentedTwice q
      ∧ (∃ r ∈ q.store.refreshTokens.rows, ∃ r' ∈ q.store.refreshTokens.rows, r ≠ r'
        ∧ r.isRevoked = false ∧ r'.isRevoked = false ∧ r.familyId = r'.familyId)
      ∧ ∀ r ∈ (q.store.revokeAllUserTokens "u").refreshTokens.rows,
        r.familyId = "f0" → r.isRevoked = true := by
  obtain ⟨q, hq, hrows⟩ := exists_run_of_exec (Pool.step (authMachine demoConfig)) FreshFamilies
    presentedTwice ((List.replicate 5 [.run 0 (drawn "a1" "t1" "r1"),
      .run 1 (drawn "a2" "t2" "r2")]).flatten)
    (fun q => (∃ r ∈ q.store.refreshTokens.rows, ∃ r' ∈ q.store.refreshTokens.rows, r ≠ r'
        ∧ r.isRevoked = false ∧ r'.isRevoked = false ∧ r.familyId = r'.familyId)
      ∧ ∃ r ∈ q.store.refreshTokens.rows, r.userId = "u" ∧ r.familyId = "f0") (by decide)
  obtain ⟨htwo, r, hr, huser, hfam⟩ := of_decide_eq_true hrows
  have hnames : Names q.store.refreshTokens q.store.issued ⟨"u", "f0"⟩ :=
    Or.inl ⟨r, hr, congrArg₂ Lineage.mk huser hfam⟩
  exact ⟨q, hq, htwo,
    (family_of_one_user presentedTwice_fresh presentedTwice_oneUser hq).2 _ hnames⟩

end WorkPlatform.Auth

import WorkPlatform.Auth.Rotation

/-!
# Auth/Reuse — a family that was revoked stays revoked

`refreshTokenPair` answers `TOKEN_FAMILY_REVOKED` after it has revoked every row of the family.
Calls one after another, with crashes anywhere: at that moment no call is left that could insert a
row of the family, so the family is **shut**, and a shut family stays shut (`Shut.step`).
-/

namespace WorkPlatform.Auth

open Machinery

variable {ι : Type*}

/-! ## Shut families -/

/-- A call that is not about to answer an exchange in the family; one that is inserting stays in
the family of its row. -/
def Hold.Outside (familyId : String) : Hold → Prop
  | .rotating row m => m.familyId = row.familyId
  | .inserted row => row.familyId ≠ familyId
  | _ => True

/-- Nothing carries the family, and no exchange of one of its tokens is about to be answered. -/
structure Shut (familyId : String) (t : RefreshTokens) (is : List Issued) (f : ι → Hold) : Prop
    extends Barren (fun l => l.familyId = familyId) t is f where
  outside : ∀ i, (f i).Outside familyId

variable {φ : String} {t t' : RefreshTokens} {is is' : List Issued} {f : ι → Hold}

theorem Shut.revoked (h : Shut φ t is f) {r : RefreshTokenRow} (hr : r ∈ t.rows)
    (hfam : r.familyId = φ) : r.isRevoked = true := by
  by_contra hlive
  exact h.empty r.lineage _ hfam (Or.inl ⟨r.id, ⟨r, hr, by simpa using hlive, rfl, rfl⟩, rfl⟩)

/-- Nobody rotates a row of a family that is shut. -/
theorem Shut.not_rotating (h : Shut φ t is f) {i : ι} {row : RefreshTokenRow} {m : Minted}
    (hi : f i = .rotating row m) : row.familyId ≠ φ := by
  intro hfam
  refine h.empty m.lineage (.inl row.id) ?_ (Or.inr ⟨i, ?_⟩)
  · have hm := h.outside i
    rw [hi] at hm
    exact Eq.trans hm hfam
  · rw [hi]
    exact ⟨rfl, rfl⟩

variable [DecidableEq ι] {cfg : Config} {now : ℕ} {d : Draw} {i : ι} {h' : Hold}

/-- **A shut family stays shut**, and no exchange of one of its tokens comes to an end. -/
theorem Shut.step (h : Shut φ t is f) (hfresh : FreshFamily t is d)
    (hs : TokenStep cfg now d t is (f i) t' is' h') :
    Shut φ t' is' (Function.update f i h')
      ∧ ∀ row, h' = .exchanged row → row.familyId = φ → f i = .exchanged row := by
  have hb := h.toBarren.step hfresh hs
  have hself : h'.Outside φ
      ∧ ∀ row, h' = .exchanged row → row.familyId = φ → f i = .exchanged row := by
    have hout := h.outside i
    generalize hfi : f i = x at hs hout
    cases hs with
    | update _ => exact ⟨hout, fun _ he _ => he⟩
    | rotate _ _ hfam => exact ⟨hfam, nofun⟩
    | insert _ => exact ⟨h.not_rotating hfi, nofun⟩
    | finish _ =>
      refine ⟨trivial, ?_⟩
      rintro row ⟨⟩ hfam
      exact absurd hfam hout
    | _ => exact ⟨trivial, nofun⟩
  exact ⟨⟨hb, (Function.forall_update_iff f fun _ h => h.Outside φ).mpr
    ⟨hself.1, fun j _ => h.outside j⟩⟩, hself.2⟩

theorem Shut.drop (h : Shut φ t is f) (i : ι) :
    Shut φ t is (Function.update f i (f i).dropped) := by
  have hdropped : (f i).dropped.Outside φ := by
    cases f i <;> trivial
  exact ⟨h.toBarren.drop, (Function.forall_update_iff f fun _ h => h.Outside φ).mpr
    ⟨hdropped, fun j _ => h.outside j⟩⟩

omit [DecidableEq ι] in
/-- `revokeTokenFamily` shuts a family that no call holds anything of. -/
theorem shut_revokeTokenFamily (hquiet : ∀ j, (f j).Quiet) (hused : Used t is φ) :
    Shut φ (t.revokeWhere (·.familyId = φ)) is f := by
  refine ⟨⟨?_, ?_⟩, ?_⟩
  · rintro l rfl
    rcases hused with ⟨r, hr, hfam⟩ | hissued
    · exact Or.inl ⟨r.revokeIf _, List.mem_map_of_mem hr, hfam⟩
    · exact Or.inr hissued
  · rintro l x rfl (⟨id, ⟨r, hr, hlive, hl, -⟩, -⟩ | ⟨j, hj⟩)
    · rw [RefreshTokens.revokeWhere_rows] at hr
      obtain ⟨r₀, -, rfl⟩ := List.mem_map.mp hr
      have hfam : r₀.familyId = l.familyId := congrArg Lineage.familyId hl
      simp [RefreshTokenRow.revokeIf, hfam] at hlive
    · have hq := hquiet j
      cases hfj : f j with
      | idle => rw [hfj] at hj; exact hj
      | exchanged row => rw [hfj] at hj; exact hj
      | _ => rw [hfj] at hq; exact hq
  · intro j
    have hq := hquiet j
    cases hfj : f j with
    | idle => trivial
    | exchanged row => trivial
    | _ => rw [hfj] at hq; exact hq.elim

/-! ## The calls that revoke families -/

/-- The family a call is about to revoke is in use, the family it has revoked is shut. -/
def Call.Accounted (t : RefreshTokens) (is : List Issued) (f : ι → Hold) : Call → Prop
  | .refresh _ (.revokeFamily r) => Used t is r.familyId
  | .refresh _ (.blacklist r _) | .refresh _ (.revoked r) => Shut r.familyId t is f
  | _ => True

/-- A call stays accounted for, whatever step is taken. -/
theorem Call.Accounted.step {c : Call} (h : c.Accounted t is f) (hfresh : FreshFamily t is d)
    (hs : TokenStep cfg now d t is (f i) t' is' h') :
    c.Accounted t' is' (Function.update f i h') := by
  unfold Call.Accounted at h ⊢
  split at h
  · exact Used.step hs h
  · exact (h.step hfresh hs).1
  · exact (h.step hfresh hs).1
  · trivial

theorem Call.Accounted.drop {c : Call} (h : c.Accounted t is f) (i : ι) :
    c.Accounted t is (Function.update f i (f i).dropped) := by
  unfold Call.Accounted at h ⊢
  split at h
  · exact h
  · exact h.drop i
  · exact h.drop i
  · trivial

omit [DecidableEq ι] in
theorem accounted_reused {raw : String} {row : RefreshTokenRow} (h : Shut row.familyId t is f) :
    Call.Accounted t is f (.refresh raw (.reused row)) := by
  unfold RefreshPc.reused
  split <;> exact h

omit [DecidableEq ι] in
/-- After its SELECT a refresh is accounted for, where the row's family is in use. -/
theorem accounted_found {raw : String} {o : Option RefreshTokenRow}
    (h : ∀ row, o = some row → Used t is row.familyId) :
    Call.Accounted t is f (.refresh raw (.found now o)) := by
  cases o with
  | none => trivial
  | some row =>
    unfold RefreshPc.found
    dsimp only
    split
    · exact h row rfl
    · split <;> trivial

omit [DecidableEq ι] in
theorem accounted_lookedUp {raw : String} {row : RefreshTokenRow} {o : Option UserRow} :
    Call.Accounted t is f (.refresh raw (.lookedUp row o)) := by
  cases o with
  | none => trivial
  | some user =>
    unfold RefreshPc.lookedUp
    dsimp only
    split <;> trivial

/-- The call whose turn it is accounts for the family it revokes. -/
theorem accounted_next {s s' : Store} {c c' : Call} (h : next cfg s c d = some (s', c'))
    (hfi : f i = c.hold) (hacc : c.Accounted s.refreshTokens s.issued f)
    (hfresh : FreshFamily s.refreshTokens s.issued d) (hquiet : ∀ j, j ≠ i → (f j).Quiet) :
    c'.Accounted s'.refreshTokens s'.issued (Function.update f i c'.hold) := by
  have hs := tokenStep_of_next h
  rw [← hfi] at hs
  cases c with
  | refresh raw pc =>
    obtain ⟨pc', hpc, rfl⟩ := pc_of_next h
    cases pc with
    | find =>
      obtain ⟨rfl, rfl⟩ := Prod.mk.inj (Option.some.inj hpc)
      exact accounted_found fun row hrow => Or.inl ⟨row, (findRefreshToken_mem hrow).1, rfl⟩
    | revokeFamily row =>
      obtain ⟨rfl, rfl⟩ := Prod.mk.inj (Option.some.inj hpc)
      refine accounted_reused (shut_revokeTokenFamily ?_ hacc)
      refine (Function.forall_update_iff f fun _ h => h.Quiet).mpr ⟨?_, hquiet⟩
      rw [Call.hold, reused_hold]
      trivial
    | blacklist row jti =>
      have hshut : Shut row.familyId s.refreshTokens s.issued f := hacc
      rw [refreshNext] at hpc
      split at hpc
      · obtain ⟨rfl, rfl⟩ := Prod.mk.inj (Option.some.inj hpc)
        exact (hshut.step hfresh hs).1
      · obtain ⟨rfl, rfl⟩ := Prod.mk.inj (Option.some.inj hpc)
        trivial
    | lookupUser row =>
      obtain ⟨rfl, rfl⟩ := Prod.mk.inj (Option.some.inj hpc)
      exact accounted_lookedUp
    | lookupRole row orgId isPlatformAdmin =>
      obtain ⟨rfl, rfl⟩ := Prod.mk.inj (Option.some.inj hpc)
      trivial
    | revoke row isPlatformAdmin role =>
      obtain ⟨rfl, rfl⟩ := Prod.mk.inj (Option.some.inj hpc)
      trivial
    | insert row m =>
      rw [refreshNext] at hpc
      split at hpc
      all_goals
        obtain ⟨rfl, rfl⟩ := Prod.mk.inj (Option.some.inj hpc)
        trivial
    | updateJti row m newId =>
      obtain ⟨rfl, rfl⟩ := Prod.mk.inj (Option.some.inj hpc)
      trivial
    | _ => cases hpc
  | _ =>
    obtain ⟨pc', -, rfl⟩ := pc_of_next h
    trivial

/-! ## Every run -/

/-- **Calls one after another**, and families that never repeat. -/
def OneByOne (p : Calls ι) (m : Move ι Draw Env) : Prop :=
  Pool.Alone Call.busy p m ∧ FreshFamilies p m

/-- The exchange of the token with this row has returned a pair. -/
def Call.succeeded (row : RefreshTokenRow) : Call → Prop
  | .refresh _ (.returned row' _) => row' = row
  | _ => False

theorem succeeded_hold {c : Call} {row : RefreshTokenRow} (h : c.succeeded row) :
    c.hold = .exchanged row := by
  unfold Call.succeeded at h
  split at h
  · rw [← h]
    rfl
  · cases h

/-- A call that has exchanged its token is over. -/
theorem next_exchanged {s : Store} {c : Call} {row : RefreshTokenRow}
    (h : c.hold = .exchanged row) : next cfg s c d = none := by
  cases c with
  | refresh raw pc =>
    cases pc with
    | returned row' pair => rfl
    | _ => cases h
  | issue a pc => cases pc <;> cases h
  | link token pc => cases pc <;> cases h
  | _ => cases h

/-- What one-by-one runs keep. -/
def AllAccounted (p : Calls ι) : Prop :=
  ∀ j, (p.calls j).at'.Accounted p.store.refreshTokens p.store.issued (held ∘ p.calls)

omit [DecidableEq ι] in
theorem accounted_of_fresh {c : Call} (h : c.fresh = true) : c.Accounted t is f := by
  cases c with
  | refresh raw pc =>
    cases pc with
    | find => trivial
    | _ => cases h
  | _ => trivial

/-- Where reuses are one by one, every revoked family is accounted for. -/
theorem allAccounted_of_oneByOne {p q : Calls ι} (hstart : ∀ i, (p.calls i).Live fun c => c.fresh)
    (hrun : Run (Pool.step (authMachine cfg)) OneByOne p q) : AllAccounted q := by
  refine Pool.invariant (I := AllAccounted) ?_ ?_ ?_ ?_ hrun
  · intro j
    obtain ⟨c, hc, hfresh⟩ := (hstart j).exists
    rw [hc]
    exact accounted_of_fresh hfresh
  · intro p i d c s' c' hacc ⟨halone, hfresh⟩ hi hn j
    have hs := tokenStep_run hi hn
    dsimp only
    rw [Function.comp_update]
    by_cases hj : j = i
    · subst hj
      have hown := hacc j
      rw [hi] at hown
      rw [Function.update_self]
      exact accounted_next hn (by rw [Function.comp_apply, hi]; rfl) hown hfresh
        fun k hk => quiet_of_alone halone hk
    · rw [Function.update_of_ne hj]
      exact (hacc j).step hfresh hs
  · intro p i c hacc _ hi j
    dsimp only
    rw [held_crash hi, at'_update_down hi]
    exact (hacc j).drop i
  · intro p e hacc _ j
    have hj := hacc j
    dsimp only [authMachine]
    rwa [env_refreshTokens, env_issued]

/-- **After `TOKEN_FAMILY_REVOKED`** every row of the family is revoked for good, and no exchange of
one of its tokens succeeds any more. -/
theorem family_stays_revoked {p q q' : Calls ι} {i : ι} {raw : String} {r : RefreshTokenRow}
    (hstart : ∀ i, (p.calls i).Live fun c => c.fresh)
    (hrun : Run (Pool.step (authMachine cfg)) OneByOne p q)
    (hrev : (q.calls i).at' = .refresh raw (.revoked r))
    (hrun' : Run (Pool.step (authMachine cfg)) OneByOne q q') :
    (∀ x ∈ q'.store.refreshTokens.rows, x.familyId = r.familyId → x.isRevoked = true)
      ∧ ∀ j row, (q'.calls j).at'.succeeded row → row.familyId = r.familyId →
        (q'.calls j).at' = (q.calls j).at' := by
  have hshut : Shut r.familyId q.store.refreshTokens q.store.issued (held ∘ q.calls) := by
    have hacc := allAccounted_of_oneByOne hstart hrun i
    rw [hrev] at hacc
    exact hacc
  have hinv : Shut r.familyId q'.store.refreshTokens q'.store.issued (held ∘ q'.calls)
      ∧ ∀ j row, (q'.calls j).at'.succeeded row → row.familyId = r.familyId →
        (q'.calls j).at' = (q.calls j).at' := by
    refine Pool.invariant (I := fun p : Calls ι =>
      Shut r.familyId p.store.refreshTokens p.store.issued (held ∘ p.calls)
        ∧ ∀ j row, (p.calls j).at'.succeeded row → row.familyId = r.familyId →
          (p.calls j).at' = (q.calls j).at') ⟨hshut, fun _ _ _ _ => rfl⟩ ?_ ?_ ?_ hrun'
    · intro p i d c s' c' ⟨hshut, hold⟩ hG hi hn
      obtain ⟨hshut', hnone⟩ := hshut.step hG.2 (tokenStep_run hi hn)
      dsimp only
      rw [Function.comp_update]
      refine ⟨hshut', fun j row hsucc hfam => ?_⟩
      by_cases hj : j = i
      · subst hj
        rw [Function.update_self] at hsucc
        have hheld := hnone row (succeeded_hold hsucc) hfam
        rw [Function.comp_apply, hi] at hheld
        have hstuck : (authMachine cfg).next p.store c d = none := next_exchanged hheld
        rw [hstuck] at hn
        cases hn
      · rw [Function.update_of_ne hj] at hsucc ⊢
        exact hold j row hsucc hfam
    · intro p i c ⟨hshut, hold⟩ _ hi
      dsimp only
      rw [held_crash hi]
      refine ⟨hshut.drop i, fun j row hsucc hfam => ?_⟩
      rw [at'_update_down hi] at hsucc ⊢
      exact hold j row hsucc hfam
    · intro p e ⟨hshut, hold⟩ _
      dsimp only [authMachine]
      rw [env_refreshTokens, env_issued]
      exact ⟨hshut, hold⟩
  exact ⟨fun x hx hfam => hinv.1.revoked hx hfam, hinv.2⟩

/-! ## A reused token and its successor -/

instance [Fintype ι] (p : Calls ι) (m : Move ι Draw Env) : Decidable (OneByOne p m) :=
  inferInstanceAs (Decidable (_ ∧ _))

/-- The token `t0` is presented twice, then the token `t1` it was exchanged for. -/
def presentedAfterReuse : Calls (Fin 3) :=
  ⟨demoSession, ![.up (.refresh "t0" .find), .up (.refresh "t0" .find), .up (.refresh "t1" .find)]⟩

/-- The successor of a reused token is revoked with it, and presenting it changes nothing. -/
theorem family_stays_revoked_for_successor :
    ∃ q q' row, Run (Pool.step (authMachine demoConfig)) OneByOne presentedAfterReuse q
      ∧ Run (Pool.step (authMachine demoConfig)) OneByOne q q'
      ∧ (q.calls 1).at' = .refresh "t0" (.revoked row) ∧ row.familyId = "f0"
      ∧ (q'.calls 2).at'.over = true
      ∧ (∀ x ∈ q'.store.refreshTokens.rows, x.familyId = row.familyId → x.isRevoked = true)
      ∧ ∀ j x, (q'.calls j).at'.succeeded x → x.familyId = row.familyId →
        (q'.calls j).at' = (q.calls j).at' := by
  have hstart : ∀ i, (presentedAfterReuse.calls i).Live fun c => c.fresh := by
    intro i
    fin_cases i <;> rfl
  obtain ⟨q, hq, hrow⟩ := exists_run_of_exec (Pool.step (authMachine demoConfig)) OneByOne
    presentedAfterReuse (List.flatten [List.replicate 5 (.run 0 (drawn "a1" "t1" "r1")),
      List.replicate 3 (.run 1 (drawn "a2" "t2" "r2"))])
    (fun q => (q.calls 1).at' = .refresh "t0" (.revoked
        ⟨"r0", "u", none, "t0", "f0", some "a0", true, refreshTokenTtl⟩)
      ∧ (exec (Pool.step (authMachine demoConfig)) OneByOne q
        (List.replicate 3 (.run 2 (drawn "a3" "t3" "r3")))).any fun q' => (q'.calls 2).at'.over)
    (by decide)
  obtain ⟨hrev, hlater⟩ := of_decide_eq_true hrow
  obtain ⟨q', hq', hover⟩ := exists_run_of_exec (Pool.step (authMachine demoConfig)) OneByOne q
    (List.replicate 3 (.run 2 (drawn "a3" "t3" "r3"))) (fun q' => (q'.calls 2).at'.over) hlater
  exact ⟨q, q', _, hq, hq', hrev, rfl, hover, family_stays_revoked hstart hq hrev hq'⟩

end WorkPlatform.Auth

import WorkPlatform.Idempotency.Once
import WorkPlatform.Machinery.Provenance

/-!
# Idempotency/Replayed — what is replayed was answered by a handler

    j :  select ── insert ── running ──handler──▸ save ──saveResponse──▸ replied
                                                             │
    i :                                           select ◂── row ──▸ cached

Two requests of one key may both execute the handler, a row may be purged between the INSERT and the
save, and a save may meet a row that it has not inserted.  Whatever of this happens, a request that
is answered from the table is answered with the last response that was saved under its record, less
than 24 h ago, by a request of the same record that had executed its handler
(`replayed_was_handled`).
-/

namespace WorkPlatform.Idempotency

open Machinery

variable {ι β : Type*} [DecidableEq ι]

/-! ## Responses of handlers -/

section Evidence

variable (hashToken : String → String) (p q : Requests ι β)

/-- The handler of a request was executed and answered. -/
def Executed (args : CheckArgs) (insertedAt status : ℕ) (body : β) : Prop :=
  ∃ s, Made (idempotencyMachine hashToken) p q s ⟨args, .running insertedAt⟩ s
    ⟨args, .save insertedAt status body⟩

/-- **A handler's response**, saved by its request under the record. -/
def Handled (keyHash : String) (x : Saved β) : Prop :=
  ∃ args, computeKeyHash hashToken args = keyHash
    ∧ Executed hashToken p q args x.insertedAt x.status x.body
    ∧ ∃ s s', s.now = x.savedAt
      ∧ Made (idempotencyMachine hashToken) p q s ⟨args, .save x.insertedAt x.status x.body⟩ s'
          ⟨args, .replied (.handled x.status x.body)⟩

end Evidence

/-- The row has no response, or the last one that was saved, and is dead 24 h after the save. -/
def IdempotencyRecord.Holds (r : IdempotencyRecord β) (saved : List (Saved β)) : Prop :=
  r.responseStatus = none ∨ ∃ x, saved.head? = some x ∧ r.responseStatus = some x.status
    ∧ r.responseBody = some x.body ∧ r.expiresAt ≤ x.savedAt + ttl

/-- What holds of the table in every run. -/
structure Replays (hashToken : String → String) (p q : Requests ι β) (db : Db β) : Prop where
  saved : ∀ k, ∀ x ∈ db.saved k, Handled hashToken p q k x
  rows : ∀ k r, db.rows k = some r → r.expiresAt ≤ db.now + ttl ∧ r.Holds (db.saved k)

/-- A request that is about to save has executed its handler. -/
def Req.Backed (hashToken : String → String) (p q : Requests ι β) (r : Req β) : Prop :=
  ∀ insertedAt status body, r.pc = .save insertedAt status body →
    Executed hashToken p q r.args insertedAt status body

section Steps

variable {hashToken : String → String} {p q q' : Requests ι β} {db db' : Db β} {r r' : Req β}
  {d : Draw β} {k : String} {args : CheckArgs} {insertedAt status : ℕ} {body : β} {x : Saved β}

/-! ## What was handled stays handled -/

theorem Executed.later (h : Executed hashToken p q args insertedAt status body)
    (hrun : Run (Pool.step (idempotencyMachine hashToken)) anyStep q q') :
    Executed hashToken p q' args insertedAt status body := by
  obtain ⟨s, hmade⟩ := h
  exact ⟨s, hmade.later hrun⟩

theorem Handled.later (h : Handled hashToken p q k x)
    (hrun : Run (Pool.step (idempotencyMachine hashToken)) anyStep q q') :
    Handled hashToken p q' k x := by
  obtain ⟨args, hargs, hexecuted, s, s', hnow, hmade⟩ := h
  exact ⟨args, hargs, hexecuted.later hrun, s, s', hnow, hmade.later hrun⟩

theorem Replays.later (h : Replays hashToken p q db)
    (hrun : Run (Pool.step (idempotencyMachine hashToken)) anyStep q q') :
    Replays hashToken p q' db :=
  ⟨fun k x hx => (h.saved k x hx).later hrun, h.rows⟩

theorem Req.Backed.later (h : r.Backed hashToken p q)
    (hrun : Run (Pool.step (idempotencyMachine hashToken)) anyStep q q') :
    r.Backed hashToken p q' :=
  fun insertedAt status body hpc => (h insertedAt status body hpc).later hrun

/-! ## What one statement does -/

/-- The statements that lead to a save are the handlers. -/
theorem nextPc_save (h : nextPc db k d r.pc = some (db', .save insertedAt status body)) :
    r.pc = .running insertedAt ∧ db' = db := by
  cases hpc : r.pc with
  | running τ =>
    rw [hpc] at h
    obtain ⟨rfl, heq⟩ := Prod.mk.inj (Option.some.inj h)
    cases heq
    exact ⟨rfl, rfl⟩
  | select =>
    rw [hpc] at h
    have hanswer := (Prod.mk.inj (Option.some.inj h)).2
    unfold answer at hanswer
    split at hanswer
    · cases hanswer
    · split at hanswer <;> cases hanswer
  | _ =>
    rw [hpc] at h
    cases h

/-- Only a SELECT leads to a replay, where it finds the response. -/
theorem nextPc_cached (h : nextPc db k d r.pc = some (db', .replied (.cached status body))) :
    ∃ row, selectLive db k = some row ∧ row.responseStatus = some status
      ∧ row.responseBody = some body := by
  cases hpc : r.pc with
  | select =>
    rw [hpc] at h
    have hanswer := (Prod.mk.inj (Option.some.inj h)).2
    unfold answer at hanswer
    split at hanswer
    case h_1 => cases hanswer
    case h_2 row hlive =>
      split at hanswer
      case h_1 status' body' hstatus hbody =>
        cases hanswer
        exact ⟨row, hlive, hstatus, hbody⟩
      case h_2 => cases hanswer
  | _ =>
    rw [hpc] at h
    cases h

/-- A request that replays has something behind it, statement by statement. -/
theorem backed_next (hn : (idempotencyMachine hashToken).next db r d = some (db', r'))
    (hmade : Made (idempotencyMachine hashToken) p q db r db' r') : r'.Backed hashToken p q := by
  obtain ⟨hpc, hr'⟩ := next_inv hn
  intro insertedAt status body hsave
  rw [hsave] at hpc hr'
  obtain ⟨hrunning, rfl⟩ := nextPc_save hpc
  rw [hr'] at hmade ⊢
  refine ⟨db', ?_⟩
  rwa [← hrunning]

/-- A table with a new row, or the rows of before. -/
theorem Replays.insert (h : Replays hashToken p q db) (k : String) :
    Replays hashToken p q (insertKey db k) where
  saved := by
    rw [insertKey_saved]
    exact h.saved
  rows k' r hr := by
    rw [insertKey_now, insertKey_saved]
    cases hrow : db.rows k with
    | some _ =>
      rw [insertKey_rows_of_some hrow] at hr
      exact h.rows k' r hr
    | none =>
      by_cases hk : k' = k
      · subst hk
        rw [insertKey_rows_of_none hrow] at hr
        obtain rfl := Option.some.inj hr
        exact ⟨le_rfl, Or.inl rfl⟩
      · unfold insertKey at hr
        rw [hrow] at hr
        exact h.rows k' r ((Function.update_of_ne hk _ _).symm.trans hr)

/-- A saved response is the last one of its record, and its row was inserted before. -/
theorem Replays.save (h : Replays hashToken p q db)
    (hx : Handled hashToken p q k ⟨insertedAt, db.now, status, body⟩) :
    Replays hashToken p q (saveResponse db k insertedAt status body) := by
  unfold saveResponse
  split
  case h_1 => exact h
  case h_2 row hrow =>
    constructor
    · intro k' x hmem
      by_cases hk : k' = k
      · subst hk
        dsimp only at hmem
        rw [Function.update_self] at hmem
        rcases List.mem_cons.mp hmem with rfl | hmem
        · exact hx
        · exact h.saved k' x hmem
      · dsimp only at hmem
        rw [Function.update_of_ne hk] at hmem
        exact h.saved k' x hmem
    · intro k' r hr
      by_cases hk : k' = k
      · subst hk
        dsimp only at hr ⊢
        rw [Function.update_self] at hr ⊢
        obtain rfl := Option.some.inj hr
        have hexpires := (h.rows k' row hrow).1
        exact ⟨hexpires, Or.inr ⟨_, rfl, rfl, rfl, hexpires⟩⟩
      · dsimp only at hr ⊢
        rw [Function.update_of_ne hk] at hr ⊢
        exact h.rows k' r hr

/-- A statement saves no reply but the one its request was handled with. -/
theorem Replays.next (h : Replays hashToken p q db) (hr : r.Backed hashToken p q)
    (hn : (idempotencyMachine hashToken).next db r d = some (db', r'))
    (hmade : Made (idempotencyMachine hashToken) p q db r db' r') :
    Replays hashToken p q db' := by
  obtain ⟨hpc, hr'⟩ := next_inv hn
  obtain ⟨args, pc⟩ := r
  cases pc with
  | select | running _ =>
    obtain ⟨rfl, -⟩ := Prod.mk.inj (Option.some.inj hpc)
    exact h
  | insert =>
    obtain ⟨rfl, -⟩ := Prod.mk.inj (Option.some.inj hpc)
    exact h.insert _
  | save insertedAt status body =>
    obtain ⟨rfl, hreplied⟩ := Prod.mk.inj (Option.some.inj hpc)
    by_cases hsaves : d.saves = true
    · rw [if_pos hsaves] at hmade ⊢
      rw [hr', ← hreplied] at hmade
      exact h.save ⟨args, rfl, hr _ _ _ rfl, db, _, rfl, hmade⟩
    · rw [if_neg hsaves]
      exact h
  | replied _ => cases hpc

theorem Replays.env (h : Replays hashToken p q db) (e : Env) :
    Replays hashToken p q (env db e) := by
  cases e with
  | tick ms =>
    exact ⟨h.saved, fun k r hr =>
      ⟨(h.rows k r hr).1.trans (Nat.add_le_add_right (Nat.le_add_right _ ms) _), (h.rows k r hr).2⟩⟩
  | cleanup => exact ⟨h.saved, fun k r hr => h.rows k r (Option.filter_eq_some_iff.mp hr).1⟩

/-! ## Runs -/

/-- Every reply that is saved was a request's own, in every state of a run. -/
theorem replays_run (hrows : ∀ k, p.store.rows k = none) (hsaved : ∀ k, p.store.saved k = [])
    (hselect : ∀ i, (p.calls i).Live fun r => r.pc = .select)
    (hrun : Run (Pool.step (idempotencyMachine hashToken)) anyStep p q) :
    Replays hashToken p q q.store := by
  have hstart : Replays hashToken p p p.store := by
    refine ⟨fun k x hx => ?_, fun k r hr => ?_⟩
    · rw [hsaved k] at hx
      cases hx
    · rw [hrows k] at hr
      cases hr
  have hcalls : ∀ i, (p.calls i).Keeps (Req.Backed hashToken p p) := by
    intro i
    obtain ⟨r, hi, hpc⟩ := (hselect i).exists
    rw [hi]
    intro insertedAt status body hsave
    rw [hpc] at hsave
    cases hsave
  refine (invariant_made
    (I := fun u v => Replays hashToken p v u.store ∧ ∀ i, (u.calls i).Keeps (Req.Backed hashToken p v))
    ⟨hstart, hcalls⟩ ?_ ?_ ?_ ?_ hrun).1
  · exact fun u v w ⟨hI, hbacked⟩ hvw => ⟨hI.later hvw, fun i =>
      (hbacked i).imp fun _ hb => hb.later hvw⟩
  · intro u v i d r db' r' hu _ ⟨hI, hbacked⟩ hc hn hmade
    have hmade' := hmade.earlier hu
    exact ⟨hI.next ((hbacked i).of_up hc) hn hmade',
      keeps_update_up (backed_next hn hmade') fun j _ => hbacked j⟩
  · exact fun u v i r ⟨hI, hbacked⟩ _ => ⟨hI, keeps_update_down hbacked⟩
  · exact fun u v e ⟨hI, hbacked⟩ => ⟨hI.env e, hbacked⟩

/-- **What is replayed was answered by a handler.**  From an empty table, in every run of any
requests, with crashes, failed saves and purges: a request that is answered from the table is
answered with the response that had been saved last under its record, less than 24 h before, by a
request of the same record that had executed its handler. -/
theorem replayed_was_handled (hrows : ∀ k, p.store.rows k = none)
    (hsaved : ∀ k, p.store.saved k = [])
    (hselect : ∀ i, (p.calls i).Live fun r => r.pc = .select)
    (hrun : Run (Pool.step (idempotencyMachine hashToken)) anyStep p q)
    (hn : (idempotencyMachine hashToken).next q.store r d = some (db', r'))
    (hcached : r'.pc = .replied (.cached status body)) :
    ∃ x, (q.store.saved (r.keyHash hashToken)).head? = some x ∧ x.status = status ∧ x.body = body
      ∧ q.store.now < x.savedAt + ttl ∧ Handled hashToken p q (r.keyHash hashToken) x := by
  have hI := replays_run hrows hsaved hselect hrun
  obtain ⟨hpc, -⟩ := next_inv hn
  rw [hcached] at hpc
  obtain ⟨row, hlive, hstatus, hbody⟩ := nextPc_cached hpc
  obtain ⟨hrow, hdead⟩ := selectLive_eq_some.mp hlive
  rcases (hI.rows _ row hrow).2 with hnone | ⟨x, hhead, hxstatus, hxbody, hexpires⟩
  · rw [hstatus] at hnone
    cases hnone
  · refine ⟨x, hhead, ?_, ?_, hdead.trans_le hexpires, hI.saved _ x (List.mem_of_head? hhead)⟩
    · exact Option.some.inj (hxstatus.symm.trans hstatus)
    · exact Option.some.inj (hxbody.symm.trans hbody)

end Steps

/-- The response to the first of two requests is saved, and the second one asks. -/
theorem replayed_was_handled_in_turn :
    ∃ q r, Run (Pool.step (idempotencyMachine id)) anyStep sentTwice q
      ∧ q.calls 1 = .up ⟨patchArgs "/tasks/t" "k", .select⟩
      ∧ (idempotencyMachine id).next q.store ⟨patchArgs "/tasks/t" "k", .select⟩ (responds 200 "a")
          = some (q.store, r)
      ∧ r.pc = .replied (.cached 200 "a")
      ∧ ∃ x, (q.store.saved sentKey).head? = some x ∧ x.status = 200 ∧ x.body = "a"
        ∧ q.store.now < x.savedAt + ttl ∧ Handled id sentTwice q sentKey x := by
  obtain ⟨q, hq, h⟩ := exists_run_of_exec (Pool.step (idempotencyMachine id)) anyStep sentTwice
    [.run 0 (responds 200 "a"), .run 0 (responds 200 "a"), .run 0 (responds 200 "a"),
      .run 0 (responds 200 "a")]
    (fun q => q.calls 1 = .up ⟨patchArgs "/tasks/t" "k", .select⟩
      ∧ answer (selectLive q.store sentKey) = .replied (.cached 200 "a")) (by decide)
  obtain ⟨hcall, hanswer⟩ := of_decide_eq_true h
  have hn : (idempotencyMachine id).next q.store ⟨patchArgs "/tasks/t" "k", .select⟩
      (responds 200 "a")
      = some (q.store, ⟨patchArgs "/tasks/t" "k", answer (selectLive q.store sentKey)⟩) := rfl
  obtain ⟨x, hx⟩ := replayed_was_handled (fun _ => rfl) (fun _ => rfl) (by decide) hq hn hanswer
  exact ⟨q, _, hq, hcall, hn, hanswer, x, hx⟩

end WorkPlatform.Idempotency

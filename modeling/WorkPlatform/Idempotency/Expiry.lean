import WorkPlatform.Idempotency.Once

/-!
# Idempotency/Expiry — a saved response is replayed for a day, one request after another

Requests of one key come in turn; time passes, handlers crash and the purge runs in between.
Two things can still take a saved response away before its day is over.

* A request that comes after the row has expired, and before the purge has run, finds no live row,
  and its INSERT does nothing: the response goes into the expired row, and the next request
  executes the handler again (`leftover_row_executes_again`).
* The day of the row begins at the INSERT, the day of the response at the save.

Where neither happens (`CleanInsert`, `InItsDay`), every request within a day of a save is answered
with the saved response (`replays_saved_response`).
-/

namespace WorkPlatform.Idempotency

open Machinery

variable {ι β : Type*}

/-! ## The conditions -/

section Conditions

variable (hashToken : String → String) (k : String)

/-- A request of the key between its SELECT and its answer. -/
def Busy (r : Req β) : Prop := r.keyHash hashToken = k ∧ r.pc.busy

/-- **One request after another**: a request of the key runs while no other one is in progress. -/
def InTurn (p : Requests ι β) : Move ι (Draw β) Env → Prop
  | .run i _ => Uses hashToken k (p.calls i) → ∀ j, j ≠ i → ¬ (p.calls j).Live (Busy hashToken k)
  | _ => True

/-- No INSERT meets a row of the key. -/
def CleanInsert (p : Requests ι β) : Move ι (Draw β) Env → Prop
  | .run i _ => (p.calls i).Live (Inserting hashToken k) → p.store.rows k = none
  | _ => True

/-- A request that comes within a day of a save comes within a day of the INSERT before it. -/
def InItsDay (p : Requests ι β) : Move ι (Draw β) Env → Prop
  | .run i _ => (p.calls i).Live (Selecting hashToken k) → ∀ sv ∈ p.store.saved k,
      p.store.now < sv.savedAt + ttl → p.store.now < sv.insertedAt + ttl
  | _ => True

/-- The runs in which saved responses are replayed. -/
def Orderly (p : Requests ι β) (m : Move ι (Draw β) Env) : Prop :=
  InTurn hashToken k p m ∧ CleanInsert hashToken k p m ∧ InItsDay hashToken k p m

end Conditions

/-! ## The invariant -/

/-- The row that replays a saved response. -/
def Saved.row (sv : Saved β) : IdempotencyRecord β :=
  ⟨some sv.status, some sv.body, sv.insertedAt + ttl⟩

/-- Every response saved so far is past the day of its INSERT. -/
def Spent (k : String) (db : Db β) : Prop := ∀ sv ∈ db.saved k, sv.insertedAt + ttl ≤ db.now

/-- What a request of the key in progress relies on: nothing saved is still to be replayed, and
the row, if it is still there, is its own. -/
def Pending (k : String) (db : Db β) : Pc β → Prop
  | .insert => Spent k db
  | .running τ | .save τ _ _ => Spent k db ∧ ∀ r ∈ db.rows k, r.expiresAt = τ + ttl
  | _ => True

/-- What orderly runs keep. -/
structure ReplayInv (hashToken : String → String) (k : String) (p : Requests ι β) : Prop where
  kept : ∀ sv ∈ p.store.saved k, p.store.now < sv.insertedAt + ttl →
    p.store.rows k = some sv.row
  pending : ∀ i, (p.calls i).Keeps fun r => r.keyHash hashToken = k → Pending k p.store r.pc

section Steps

variable {hashToken : String → String} {k : String} {db db' : Db β}

theorem pending_of_not_busy {pc : Pc β} (h : ¬ pc.busy) : Pending k db pc := by
  cases pc with
  | select => trivial
  | replied r => trivial
  | _ => exact absurd trivial h

/-- Time only passes, and rows of the key only disappear: what was relied on still holds. -/
theorem Pending.mono {pc : Pc β} (h : Pending k db pc) (hnow : db.now ≤ db'.now)
    (hsaved : db'.saved k = db.saved k) (hrows : ∀ r ∈ db'.rows k, r ∈ db.rows k) :
    Pending k db' pc := by
  have hspent : Spent k db → Spent k db' := by
    intro hs sv hsv
    rw [hsaved] at hsv
    exact (hs sv hsv).trans hnow
  cases pc with
  | insert => exact hspent h
  | running τ => exact ⟨hspent h.1, fun r hr => h.2 r (hrows r hr)⟩
  | save τ status body => exact ⟨hspent h.1, fun r hr => h.2 r (hrows r hr)⟩
  | _ => trivial

/-- A SELECT that finds nothing: every saved response is past its day. -/
theorem spent_of_selectLive_eq_none
    (hkept : ∀ sv ∈ db.saved k, db.now < sv.insertedAt + ttl → db.rows k = some sv.row)
    (hsel : selectLive db k = none) : Spent k db := by
  intro sv hsv
  by_contra hlt
  have hrow := hkept sv hsv (not_le.mp hlt)
  exact hlt (selectLive_eq_none.mp hsel _ hrow)

/-- **A statement of the request whose turn it is**: it keeps what is to be replayed, and what it
relies on itself. -/
theorem replay_nextPc {d : Draw β} {pc pc' : Pc β} (h : nextPc db k d pc = some (db', pc'))
    (hclean : pc = .insert → db.rows k = none) (hpend : Pending k db pc)
    (hkept : ∀ sv ∈ db.saved k, db.now < sv.insertedAt + ttl → db.rows k = some sv.row) :
    (∀ sv ∈ db'.saved k, db'.now < sv.insertedAt + ttl → db'.rows k = some sv.row)
      ∧ Pending k db' pc' := by
  cases pc with
  | select =>
    obtain ⟨rfl, rfl⟩ := Prod.mk.inj (Option.some.inj h)
    refine ⟨hkept, ?_⟩
    cases hsel : selectLive db k with
    | none => exact spent_of_selectLive_eq_none hkept hsel
    | some r =>
      rcases r with ⟨_ | status, _ | body, e⟩
      all_goals trivial
  | insert =>
    obtain ⟨rfl, rfl⟩ := Prod.mk.inj (Option.some.inj h)
    have hrow := insertKey_rows_of_none (hclean rfl)
    have hspent : Spent k (insertKey db k) := by
      have hspent' : Spent k db := hpend
      simpa [Spent] using hspent'
    refine ⟨fun sv hsv hlt => absurd (hspent sv hsv) (not_le.mpr hlt), hspent, fun r hr => ?_⟩
    rw [hrow] at hr
    obtain rfl := Option.some.inj hr
    rfl
  | running τ =>
    obtain ⟨rfl, rfl⟩ := Prod.mk.inj (Option.some.inj h)
    exact ⟨hkept, hpend⟩
  | save τ status body =>
    obtain ⟨rfl, rfl⟩ := Prod.mk.inj (Option.some.inj h)
    refine ⟨?_, trivial⟩
    split
    case isFalse => exact hkept
    case isTrue =>
      cases hrow : db.rows k with
      | none =>
        rw [saveResponse, hrow]
        exact hkept
      | some r =>
        -- what was saved before is past its day, so only the new response is to be replayed
        have hexp : r.expiresAt = τ + ttl := hpend.2 r hrow
        simp only [saveResponse, hrow, Function.update_self, List.mem_cons]
        rintro sv (rfl | hsv) hlt
        · simp [Saved.row, hexp]
        · exact absurd (hpend.1 sv hsv) (not_le.mpr hlt)
  | replied r => cases h

end Steps

/-! ## Every run -/

section Runs

variable {hashToken : String → String} {k : String}

theorem ReplayInv.pending_mono {p : Requests ι β} {db : Db β} (h : ReplayInv hashToken k p)
    (hnow : p.store.now ≤ db.now) (hsaved : db.saved k = p.store.saved k)
    (hrows : ∀ r ∈ db.rows k, r ∈ p.store.rows k) (i : ι) :
    (p.calls i).Keeps fun r => r.keyHash hashToken = k → Pending k db r.pc :=
  Proc.Keeps.imp (fun _ hr hk => (hr hk).mono hnow hsaved hrows) (h.pending i)

/-- What the surroundings do keeps the invariant. -/
theorem ReplayInv.env {p : Requests ι β} (h : ReplayInv hashToken k p) (e : Env) :
    ReplayInv hashToken k ⟨Idempotency.env p.store e, p.calls⟩ := by
  cases e with
  | tick ms =>
    have hnow : p.store.now ≤ p.store.now + ms := Nat.le_add_right _ _
    exact ⟨fun sv hsv hlt => h.kept sv hsv (lt_of_le_of_lt hnow hlt),
      h.pending_mono hnow rfl fun _ => id⟩
  | cleanup =>
    have hrows : ∀ r ∈ (purgeExpired p.store).rows k, r ∈ p.store.rows k := by
      intro r hr
      exact (Option.filter_eq_some_iff.mp hr).1
    refine ⟨fun sv hsv hlt => ?_, h.pending_mono le_rfl rfl hrows⟩
    refine Option.filter_eq_some_iff.mpr ⟨h.kept sv hsv hlt, ?_⟩
    have hlt' : p.store.now < sv.insertedAt + ttl := hlt
    simp [Saved.row, hlt'.le]

variable [DecidableEq ι]

/-- A statement keeps the replays of a key apart. -/
theorem ReplayInv.run {p : Requests ι β} {i : ι} {d : Draw β} {r r' : Req β} {db : Db β}
    (h : ReplayInv hashToken k p) (hG : Orderly hashToken k p (.run i d)) (hi : p.calls i = .up r)
    (hn : (idempotencyMachine hashToken).next p.store r d = some (db, r')) :
    ReplayInv hashToken k ⟨db, Function.update p.calls i (.up r')⟩ := by
  obtain ⟨hturn, hclean, -⟩ := hG
  obtain ⟨hpc, hr'⟩ := next_inv hn
  have hkey : r'.keyHash hashToken = r.keyHash hashToken := by
    rw [hr']
    rfl
  have hpend : r.keyHash hashToken = k → Pending k p.store r.pc := by
    simpa [hi] using h.pending i
  by_cases hk : r.keyHash hashToken = k
  case neg =>
    obtain ⟨hrows, hsaved⟩ := rows_of_ne hpc (Ne.symm hk)
    have hnow := now_nextPc hpc
    refine ⟨fun sv hsv hlt => ?_, (Function.forall_update_iff p.calls _).mpr
      ⟨fun hk' => absurd (hkey.symm.trans hk') hk, fun j _ =>
        h.pending_mono hnow.ge hsaved (fun y hy => hrows ▸ hy) j⟩⟩
    · rw [hsaved] at hsv
      rw [hnow] at hlt
      rw [hrows]
      exact h.kept sv hsv hlt
  case pos =>
    rw [hk] at hpc
    have huses : Uses hashToken k (p.calls i) := by
      rw [hi]
      exact hk
    have hins : r.pc = .insert → p.store.rows k = none := by
      intro hrpc
      refine hclean ?_
      rw [hi]
      exact ⟨hk, hrpc⟩
    obtain ⟨hkept, hself⟩ := replay_nextPc hpc hins (hpend hk) h.kept
    refine ⟨hkept, (Function.forall_update_iff p.calls _).mpr ⟨fun _ => hself, fun j hj => ?_⟩⟩
    have hidle := hturn huses j hj
    cases hcj : p.calls j with
    | down _ => trivial
    | up x =>
      rw [hcj] at hidle
      exact fun hxk => pending_of_not_busy fun hb => hidle ⟨hxk, hb⟩

theorem ReplayInv.crash {p : Requests ι β} {i : ι} {r : Req β} (h : ReplayInv hashToken k p) :
    ReplayInv hashToken k ⟨p.store, Function.update p.calls i (.down r)⟩ :=
  ⟨h.kept, (Function.forall_update_iff p.calls _).mpr ⟨trivial, fun j _ => h.pending j⟩⟩

/-- The replays of a key are apart in every state of such a run. -/
theorem replayInv_of_orderly {p q : Requests ι β} (hsaved : p.store.saved k = [])
    (hstart : ∀ i, Uses hashToken k (p.calls i) → (p.calls i).at'.pc = .select)
    (hrun : Run (Pool.step (idempotencyMachine hashToken)) (Orderly hashToken k) p q) :
    ReplayInv hashToken k q := by
  refine Pool.invariant (I := ReplayInv hashToken k) ⟨?_, fun i => ?_⟩
    (fun p i d r db r' h hG hi hn => h.run hG hi hn) (fun p i r h _ _ => h.crash)
    (fun p e h _ => h.env e) hrun
  · rw [hsaved]
    exact nofun
  · have hi := hstart i
    cases hc : p.calls i with
    | down _ => trivial
    | up r =>
      rw [hc] at hi
      intro hk
      have hpc : r.pc = .select := hi hk
      rw [hpc]
      trivial

/-- **A saved response is replayed**: in every orderly run, a request of the key that runs its
SELECT within a day of a save is answered with the response saved there. -/
theorem replays_saved_response {p q q' : Requests ι β} {i : ι} {d : Draw β} {sv : Saved β}
    (hsaved : p.store.saved k = [])
    (hstart : ∀ i, Uses hashToken k (p.calls i) → (p.calls i).at'.pc = .select)
    (hrun : Run (Pool.step (idempotencyMachine hashToken)) (Orderly hashToken k) p q)
    (hG : Orderly hashToken k q (.run i d)) (hsel : (q.calls i).Live (Selecting hashToken k))
    (hstep : q.step (idempotencyMachine hashToken) (.run i d) = some q')
    (hsv : sv ∈ q.store.saved k) (hday : q.store.now < sv.savedAt + ttl) :
    Answered hashToken k (.cached sv.status sv.body) (q'.calls i) := by
  have hinv := replayInv_of_orderly hsaved hstart hrun
  have hlt := hG.2.2 hsel sv hsv hday
  have hlive : selectLive q.store k = some sv.row :=
    selectLive_eq_some.mpr ⟨hinv.kept sv hsv hlt, hlt⟩
  obtain ⟨r, db, r', hi, hn, rfl⟩ := Pool.step_run hstep
  obtain ⟨hpc, hr'⟩ := next_inv hn
  rw [hi] at hsel
  obtain ⟨hk, hrpc⟩ := hsel
  rw [hk, hrpc, nextPc, hlive] at hpc
  change Answered hashToken k _ (Function.update q.calls i (.up r') i)
  rw [Function.update_self]
  refine ⟨?_, ((Prod.mk.inj (Option.some.inj hpc)).2).symm⟩
  rw [← hk, Uses, Proc.at'_up, hr']
  rfl

end Runs

/-! ## A row that has expired and was not purged -/

section Guard

variable [Fintype ι] [DecidableEq ι] [DecidableEq β] (hashToken : String → String) (k : String)
  (p : Requests ι β)

instance : DecidablePred (Busy (β := β) hashToken k) :=
  fun r => inferInstanceAs (Decidable (r.keyHash hashToken = k ∧ r.pc.busy))

instance : ∀ m : Move ι (Draw β) Env, Decidable (InTurn hashToken k p m)
  | .run i _ => inferInstanceAs (Decidable ((p.calls i).at'.keyHash hashToken = k →
      ∀ j, j ≠ i → ¬ (p.calls j).Live (Busy hashToken k)))
  | .crash _ => inferInstanceAs (Decidable True)
  | .env _ => inferInstanceAs (Decidable True)

instance : ∀ m : Move ι (Draw β) Env, Decidable (CleanInsert hashToken k p m)
  | .run i _ => inferInstanceAs (Decidable ((p.calls i).Live (Inserting hashToken k) →
      p.store.rows k = none))
  | .crash _ => inferInstanceAs (Decidable True)
  | .env _ => inferInstanceAs (Decidable True)

instance : ∀ m : Move ι (Draw β) Env, Decidable (InItsDay hashToken k p m)
  | .run i _ => inferInstanceAs (Decidable ((p.calls i).Live (Selecting hashToken k) →
      ∀ sv ∈ p.store.saved k, p.store.now < sv.savedAt + ttl → p.store.now < sv.insertedAt + ttl))
  | .crash _ => inferInstanceAs (Decidable True)
  | .env _ => inferInstanceAs (Decidable True)

instance (m : Move ι (Draw β) Env) : Decidable (Orderly hashToken k p m) :=
  inferInstanceAs (Decidable (_ ∧ _ ∧ _))

end Guard

/-- One PATCH, sent three times. -/
def sentThrice : Requests (Fin 3) String where
  store := ⟨0, fun _ => none, fun _ => []⟩
  calls := fun _ => .up ⟨patchArgs "/tasks/t" "k", .select⟩

/-- A request that finds nothing: SELECT, INSERT, handler and save. -/
def handledMoves (i : Fin 3) (body : String) : List (Move (Fin 3) (Draw String) Env) :=
  List.replicate 4 (.run i (responds 200 body))

/-- The response `body`, inserted and saved at one time. -/
def savedAtOnce (time : ℕ) (body : String) : Saved String := ⟨time, time, 200, body⟩

/-- The pool before a SELECT of the third request, with a response saved less than a day ago. -/
def Awaiting (sv : Saved String) (after : Pc String) (q : Requests (Fin 3) String) : Prop :=
  q.calls 2 = .up ⟨patchArgs "/tasks/t" "k", .select⟩ ∧ sv ∈ q.store.saved sentKey
    ∧ q.store.now < sv.savedAt + ttl
    ∧ (q.step (idempotencyMachine id) (.run 2 (responds 200 "c"))).any
      fun q' => q'.calls 2 = .up ⟨patchArgs "/tasks/t" "k", after⟩

instance (sv : Saved String) (after : Pc String) (q : Requests (Fin 3) String) :
    Decidable (Awaiting sv after q) :=
  inferInstanceAs (Decidable (_ ∧ _ ∧ _ ∧ _))

/-- **The response goes into an expired row**: a day after the first request, the second one
executes the handler and saves its response; the third one comes at that very moment and goes on to
execute the handler again. -/
theorem leftover_row_executes_again :
    sentThrice.store.saved sentKey = []
      ∧ (∀ i, Uses id sentKey (sentThrice.calls i) → (sentThrice.calls i).at'.pc = .select)
      ∧ ∃ q q' sv, Run (Pool.step (idempotencyMachine id)) (InTurn id sentKey) sentThrice q
        ∧ InTurn id sentKey q (.run 2 (responds 200 "c"))
        ∧ (q.calls 2).Live (Selecting id sentKey)
        ∧ q.step (idempotencyMachine id) (.run 2 (responds 200 "c")) = some q'
        ∧ sv ∈ q.store.saved sentKey ∧ q.store.now < sv.savedAt + ttl
        ∧ (q'.calls 2).at'.pc = .insert
        ∧ ¬ Answered id sentKey (.cached sv.status sv.body) (q'.calls 2) := by
  refine ⟨rfl, fun _ _ => rfl, ?_⟩
  obtain ⟨q, hq, hst⟩ := exists_run_of_exec (Pool.step (idempotencyMachine id))
    (InTurn id sentKey) sentThrice
    (handledMoves 0 "a" ++ [.env (.tick ttl)] ++ handledMoves 1 "b")
    (fun q => Awaiting (savedAtOnce ttl "b") .insert q
      ∧ InTurn id sentKey q (.run 2 (responds 200 "c"))) (by decide)
  obtain ⟨⟨hsel, hsv, hday, hany⟩, hturn⟩ := of_decide_eq_true hst
  obtain ⟨q', hstep, hpc⟩ := (Option.any_eq_true _ _).mp hany
  have hpc' : q'.calls 2 = .up ⟨patchArgs "/tasks/t" "k", .insert⟩ := of_decide_eq_true hpc
  refine ⟨q, q', _, hq, hturn, ?_, hstep, hsv, hday, ?_, ?_⟩
  · rw [hsel]
    exact ⟨rfl, rfl⟩
  · rw [hpc']
    rfl
  · rw [hpc']
    rintro ⟨-, ⟨⟩⟩

/-- With the purge before the second request, the third one is answered with what it saved. -/
theorem replays_after_purge :
    ∃ q q', Run (Pool.step (idempotencyMachine id)) (Orderly id sentKey) sentThrice q
      ∧ q.step (idempotencyMachine id) (.run 2 (responds 200 "c")) = some q'
      ∧ Answered id sentKey (.cached 200 "b") (q'.calls 2) := by
  obtain ⟨q, hq, hst⟩ := exists_run_of_exec (Pool.step (idempotencyMachine id))
    (Orderly id sentKey) sentThrice
    (handledMoves 0 "a" ++ [.env (.tick (ttl + 1)), .env .cleanup] ++ handledMoves 1 "b")
    (fun q => Awaiting (savedAtOnce (ttl + 1) "b") (.replied (.cached 200 "b")) q
      ∧ Orderly id sentKey q (.run 2 (responds 200 "c"))) (by decide)
  obtain ⟨⟨hsel, hsv, hday, hany⟩, hG⟩ := of_decide_eq_true hst
  obtain ⟨q', hstep, -⟩ := (Option.any_eq_true _ _).mp hany
  refine ⟨q, q', hq, hstep, replays_saved_response rfl (fun _ _ => rfl) hq hG ?_ hstep hsv hday⟩
  rw [hsel]
  exact ⟨rfl, rfl⟩

end WorkPlatform.Idempotency

import Mathlib.Data.Fin.VecNotation
import Mathlib.Tactic.FinCases
import WorkPlatform.Idempotency.Store

/-!
# Idempotency/Once — one execution for each key, under interleaved requests

The outcome of the INSERT is not inspected, so the SELECT alone decides who executes the handler.
Two requests that both run their SELECT before either INSERT both execute it
(`two_selects_both_execute`).  As long as no request finds nothing while another one of its key is
between its own SELECT and its INSERT (`Unopposed`), the handler is executed by at most one request
and every other one is answered with what that execution saved, or told that it is in progress
(`atMostOnce_of_unopposed`).

For one key, a request is no more than a **phase**, and the row no more than what it answers:

    outside ──claim──▸ inserting ──insert──▸ executing ──reply──▸ replied
       └───────────────────── refuse / cached ──────────────────────▴

The invariant lives on phases; `Phase.step_of_nextPc` says that the statements refine the picture.
-/

namespace WorkPlatform.Idempotency

open Machinery

variable {ι β : Type*}

/-! ## Phases -/

/-- A request as the protocol of one key sees it. -/
inductive Phase (β : Type*)
  | outside
  | inserting
  | executing
  | replied (r : Reply β)

/-- The handler has been started. -/
def Phase.executed : Phase β → Prop
  | .executing | .replied (.handled _ _) => True
  | _ => False

/-- The handler has been started, or will be. -/
def Phase.engaged (f : Phase β) : Prop := f = .inserting ∨ f.executed

/-- What the row of the key has to answer: nothing to say without a row, nothing saved yet, or a
response. -/
abbrev Record (β : Type*) := Option (Option (ℕ × β))

/-- The steps of a request of the key, with the record before and after. -/
inductive Phase.Step : Record β → Phase β → Record β → Phase β → Prop
  | claim : Step none .outside none .inserting
  | refuse : Step (some none) .outside (some none) (.replied (.conflict inProgress))
  | cached (status : ℕ) (body : β) :
      Step (some (some (status, body))) .outside (some (some (status, body)))
        (.replied (.cached status body))
  | insert (row : Record β) : Step row .inserting (some (row.getD none)) .executing
  | reply (row : Record β) (status : ℕ) (body : β) :
      Step row .executing row (.replied (.handled status body))
  | save (row : Record β) (status : ℕ) (body : β) :
      Step row .executing (row.map fun _ => some (status, body)) (.replied (.handled status body))
  | abandon (row : Record β) : Step row .inserting row .outside

/-- What is kept as long as nobody claims against another claim. -/
structure KeyInv (row : Record β) (f : ι → Phase β) : Prop where
  engaged : ∀ i j, (f i).engaged → (f j).engaged → i = j
  present : ∀ i, (f i).executed → row ≠ none
  response : ∀ status body, row = some (some (status, body)) →
    ∃ i, f i = .replied (.handled status body)
  answers : ∀ i r, f i = .replied r → r = .conflict inProgress ∨ (∃ status body,
    r = .handled status body) ∨ ∃ j status body, f j = .replied (.handled status body)
      ∧ r = .cached status body

namespace KeyInv

variable [DecidableEq ι] {row row' : Record β} {f : ι → Phase β} {i : ι} {x : Phase β}

/-- The answers given stay, whatever a request that has none does next. -/
theorem replied_update (hi : ∀ r, f i ≠ .replied r) {j : ι} {r : Reply β}
    (hj : f j = .replied r) : Function.update f i x j = .replied r := by
  have hne : j ≠ i := by
    rintro rfl
    exact hi r hj
  rwa [Function.update_of_ne hne]

/-- The answer a record holds was given by a request, and still is. -/
theorem response_update (h : KeyInv row f) (hi : ∀ r, f i ≠ .replied r) (status : ℕ) (body : β)
    (hr : row = some (some (status, body))) :
    ∃ j, Function.update f i x j = .replied (.handled status body) := by
  obtain ⟨m, hm⟩ := h.response status body hr
  exact ⟨m, replied_update hi hm⟩

/-- An answer that was possible before the step is possible after it. -/
theorem answers_update (h : KeyInv row f) (hi : ∀ r, f i ≠ .replied r)
    (hx : ∀ r, x = .replied r → r = .conflict inProgress ∨ (∃ status body,
      r = .handled status body) ∨ ∃ j status body, f j = .replied (.handled status body)
        ∧ r = .cached status body) (j : ι) (r : Reply β)
    (hj : Function.update f i x j = .replied r) :
    r = .conflict inProgress ∨ (∃ status body, r = .handled status body) ∨ ∃ j status body,
      Function.update f i x j = .replied (.handled status body) ∧ r = .cached status body := by
  have hold : r = .conflict inProgress ∨ (∃ status body, r = .handled status body) ∨
      ∃ j status body, f j = .replied (.handled status body) ∧ r = .cached status body := by
    rcases update_cases (· = Phase.replied r) hj with ⟨-, hj⟩ | ⟨-, hj⟩
    · exact hx r hj
    · exact h.answers j r hj
  rcases hold with hc | hh | ⟨m, status, body, hm, hr⟩
  · exact Or.inl hc
  · exact Or.inr (Or.inl hh)
  · exact Or.inr (Or.inr ⟨m, status, body, replied_update hi hm, hr⟩)

/-- A request that was engaged already, or is not after the step, leaves the engaged one alone. -/
theorem engaged_update (h : KeyInv row f) (hx : x.engaged → (f i).engaged) (a b : ι)
    (ha : (Function.update f i x a).engaged) (hb : (Function.update f i x b).engaged) :
    a = b := by
  have hback : ∀ j, (Function.update f i x j).engaged → (f j).engaged := by
    intro j hj
    rcases update_cases Phase.engaged hj with ⟨rfl, hself⟩ | ⟨-, hj⟩
    · exact hx hself
    · exact hj
  exact h.engaged a b (hback a ha) (hback b hb)

/-- **One step of the protocol.** -/
theorem step (h : KeyInv row f) (hs : Phase.Step row (f i) row' x)
    (hclaim : x = .inserting → ∀ j, j ≠ i → f j ≠ .inserting) :
    KeyInv row' (Function.update f i x) := by
  generalize hfi : f i = y at hs
  have hkept : (∀ r, y ≠ .replied r) → ∀ r, f i ≠ .replied r := fun hy => by rwa [hfi]
  cases hs with
  | claim =>
    have hother : ∀ j, j ≠ i → ¬ (f j).engaged := by
      rintro j hj (hins | hexe)
      · exact hclaim rfl j hj hins
      · exact h.present j hexe rfl
    have honly : ∀ j, (Function.update f i .inserting j).engaged → j = i := by
      intro j hj
      by_contra hne
      rw [Function.update_of_ne hne] at hj
      exact hother j hne hj
    refine ⟨fun a b ha hb => (honly a ha).trans (honly b hb).symm, fun j hj => ?_, ?_, ?_⟩
    · obtain rfl := honly j (Or.inr hj)
      rw [Function.update_self] at hj
      exact hj.elim
    · rintro status body ⟨⟩
    · exact h.answers_update (hkept nofun) nofun
  | refuse =>
    refine ⟨h.engaged_update ?_, fun _ _ => nofun, nofun, h.answers_update (hkept nofun) ?_⟩
    · rintro (⟨⟨⟩⟩ | ⟨⟨⟩⟩)
    · rintro r ⟨⟩
      exact Or.inl rfl
  | cached status body =>
    refine ⟨h.engaged_update ?_, fun _ _ => nofun, h.response_update (hkept nofun),
      h.answers_update (hkept nofun) ?_⟩
    · rintro (⟨⟨⟩⟩ | ⟨⟨⟩⟩)
    · rintro r ⟨⟩
      obtain ⟨m, hm⟩ := h.response status body rfl
      exact Or.inr (Or.inr ⟨m, status, body, hm, rfl⟩)
  | insert =>
    refine ⟨h.engaged_update fun _ => ?_, fun _ _ => nofun, fun s b hr => ?_,
      h.answers_update (hkept nofun) nofun⟩
    · exact Or.inl hfi
    · cases row with
      | none => cases hr
      | some r => exact h.response_update (hkept nofun) s b hr
  | reply _ status body =>
    have hexe : (f i).executed := by
      rw [hfi]
      trivial
    refine ⟨h.engaged_update fun _ => Or.inr hexe, fun _ _ => h.present i hexe,
      h.response_update (hkept nofun), h.answers_update (hkept nofun) ?_⟩
    rintro r ⟨⟩
    exact Or.inr (Or.inl ⟨status, body, rfl⟩)
  | save _ status body =>
    have hexe : (f i).executed := by
      rw [hfi]
      trivial
    refine ⟨h.engaged_update fun _ => Or.inr hexe, fun _ _ => ?_, fun s b hr => ?_,
      h.answers_update (hkept nofun) ?_⟩
    · simpa using h.present i hexe
    · obtain ⟨_, _, hsb⟩ := Option.map_eq_some_iff.mp hr
      obtain ⟨rfl, rfl⟩ := Prod.mk.inj (Option.some.inj hsb)
      exact ⟨i, Function.update_self ..⟩
    · rintro r ⟨⟩
      exact Or.inr (Or.inl ⟨status, body, rfl⟩)
  | abandon =>
    refine ⟨h.engaged_update fun _ => Or.inl hfi, fun j hj => ?_, h.response_update (hkept nofun),
      h.answers_update (hkept nofun) nofun⟩
    rcases update_cases Phase.executed hj with ⟨-, hnone⟩ | ⟨-, hj⟩
    · exact hnone.elim
    · exact h.present j hj

end KeyInv

/-! ## Requests refine phases -/

/-- What a row answers. -/
def record (row : Option (IdempotencyRecord β)) : Record β :=
  row.map fun r => match r.responseStatus, r.responseBody with
    | some status, some body => some (status, body)
    | _, _ => none

/-- The phase of a request that uses the key; a crash before the INSERT gives the claim up. -/
def Pc.phase (running : Bool) : Pc β → Phase β
  | .select => .outside
  | .insert => if running then .inserting else .outside
  | .running _ | .save _ _ _ => .executing
  | .replied r => .replied r

section Refinement

variable (hashToken : String → String) (k : String)

/-- The phase of a call in the protocol of the key. -/
def phase : Proc (Req β) → Phase β
  | .up r => if r.keyHash hashToken = k then r.pc.phase true else .outside
  | .down r => if r.keyHash hashToken = k then r.pc.phase false else .outside

/-- The call uses the record of the key. -/
def Uses (c : Proc (Req β)) : Prop := c.at'.keyHash hashToken = k

/-- The call uses the record of the key and has started its handler. -/
def Executes (c : Proc (Req β)) : Prop := Uses hashToken k c ∧ c.at'.pc.executed

/-- The call uses the record of the key and was answered `r`. -/
def Answered (r : Reply β) (c : Proc (Req β)) : Prop :=
  Uses hashToken k c ∧ c.at'.pc = .replied r

variable {hashToken k}

theorem Pc.phase_executed {b : Bool} {pc : Pc β} : (pc.phase b).executed ↔ pc.executed := by
  cases pc with
  | insert => cases b <;> exact Iff.rfl
  | replied r => cases r <;> exact Iff.rfl
  | _ => exact Iff.rfl

theorem Pc.phase_replied {b : Bool} {pc : Pc β} {r : Reply β} :
    pc.phase b = .replied r ↔ pc = .replied r := by
  cases pc with
  | insert => cases b <;> simp [Pc.phase]
  | _ => simp [Pc.phase]

theorem Pc.phase_inserting {pc : Pc β} : pc.phase true = .inserting ↔ pc = .insert := by
  cases pc <;> simp [Pc.phase]

/-- A request is in that phase exactly where it has executed. -/
theorem executed_phase {c : Proc (Req β)} :
    (phase hashToken k c).executed ↔ Executes hashToken k c := by
  cases c with
  | up r =>
    by_cases hk : r.keyHash hashToken = k
    · simp [phase, Executes, Uses, hk, Pc.phase_executed]
    · simp [phase, Executes, Uses, hk, Phase.executed]
  | down r =>
    by_cases hk : r.keyHash hashToken = k
    · simp [phase, Executes, Uses, hk, Pc.phase_executed]
    · simp [phase, Executes, Uses, hk, Phase.executed]

theorem replied_phase {c : Proc (Req β)} {x : Reply β} :
    phase hashToken k c = .replied x ↔ Answered hashToken k x c := by
  cases c with
  | up r => by_cases hk : r.keyHash hashToken = k <;>
      simp [phase, Answered, Uses, hk, Pc.phase_replied]
  | down r => by_cases hk : r.keyHash hashToken = k <;>
      simp [phase, Answered, Uses, hk, Pc.phase_replied]

/-- The SELECT, where the row has not expired. -/
theorem Phase.step_select {db : Db β} (hlife : ∀ r ∈ db.rows k, db.now < r.expiresAt) :
    Phase.Step (record (db.rows k)) .outside (record (db.rows k))
      ((answer (selectLive db k)).phase true) := by
  cases hrow : db.rows k with
  | none =>
    have hsel : selectLive db k = none := selectLive_eq_none.mpr fun r hr => by simp [hrow] at hr
    rw [hsel]
    exact .claim
  | some r =>
    have hsel : selectLive db k = some r := selectLive_eq_some.mpr ⟨hrow, hlife r hrow⟩
    rw [hsel]
    rcases r with ⟨_ | status, _ | body, e⟩
    · exact .refuse
    · exact .refuse
    · exact .refuse
    · exact .cached status body

theorem record_insertKey (db : Db β) :
    record ((insertKey db k).rows k) = some ((record (db.rows k)).getD none) := by
  cases hrow : db.rows k with
  | none => rw [insertKey_rows_of_none hrow]; rfl
  | some r => rw [insertKey_rows_of_some hrow, hrow]; rfl

theorem record_saveResponse (db : Db β) (τ status : ℕ) (body : β) :
    record ((saveResponse db k τ status body).rows k)
      = (record (db.rows k)).map fun _ => some (status, body) := by
  cases hrow : db.rows k with
  | none => simp [saveResponse, hrow, record]
  | some r => simp [saveResponse, hrow, record]

/-- **The statements refine the phases**: while the row has not expired, a statement of a request of
the key is a step of the protocol, or is not seen by it. -/
theorem Phase.step_of_nextPc {db db' : Db β} {d : Draw β} {pc pc' : Pc β}
    (h : nextPc db k d pc = some (db', pc')) (hlife : ∀ r ∈ db.rows k, db.now < r.expiresAt) :
    Phase.Step (record (db.rows k)) (pc.phase true) (record (db'.rows k)) (pc'.phase true)
      ∨ record (db'.rows k) = record (db.rows k) ∧ pc'.phase true = pc.phase true := by
  cases pc with
  | select =>
    obtain ⟨rfl, rfl⟩ := Prod.mk.inj (Option.some.inj h)
    exact Or.inl (step_select hlife)
  | insert =>
    obtain ⟨rfl, rfl⟩ := Prod.mk.inj (Option.some.inj h)
    rw [record_insertKey]
    exact Or.inl (.insert _)
  | running τ =>
    obtain ⟨rfl, rfl⟩ := Prod.mk.inj (Option.some.inj h)
    exact Or.inr ⟨rfl, rfl⟩
  | save τ status body =>
    obtain ⟨rfl, rfl⟩ := Prod.mk.inj (Option.some.inj h)
    split
    · rw [record_saveResponse]
      exact Or.inl (.save _ _ _)
    · exact Or.inl (.reply _ _ _)
  | replied r => cases h

end Refinement

/-! ## The property and the condition -/

section Property

variable (hashToken : String → String) (k : String)

/-- **At most one execution**, and every request without one is answered from it or refused as in
progress. -/
structure AtMostOnce (p : Requests ι β) : Prop where
  executes : ∀ i j, Executes hashToken k (p.calls i) → Executes hashToken k (p.calls j) → i = j
  answers : ∀ i r, Answered hashToken k r (p.calls i) → ¬ Executes hashToken k (p.calls i) →
    r = .conflict inProgress ∨ ∃ j status body,
      Answered hashToken k (.handled status body) (p.calls j) ∧ r = .cached status body

/-- The record has not expired. -/
def WithinLifetime (p : Requests ι β) : Prop :=
  ∀ r ∈ p.store.rows k, p.store.now < r.expiresAt

/-- A request of the key that is about to run its SELECT. -/
def Selecting (r : Req β) : Prop := r.keyHash hashToken = k ∧ r.pc = .select

/-- A request of the key that has found nothing and not inserted yet. -/
def Inserting (r : Req β) : Prop := r.keyHash hashToken = k ∧ r.pc = .insert

/-- **No SELECT into the window**: a request runs its SELECT where there is a live row, or where no
other request of its key is about to INSERT. -/
def Unopposed (p : Requests ι β) : Move ι (Draw β) Env → Prop
  | .run i _ => (p.calls i).Live (Selecting hashToken k) → selectLive p.store k = none →
      ∀ j, j ≠ i → ¬ (p.calls j).Live (Inserting hashToken k)
  | _ => True

variable {hashToken k}

/-- The invariant gives that the key is executed at most once. -/
theorem KeyInv.atMostOnce {p : Requests ι β} {row : Record β}
    (h : KeyInv row (phase hashToken k ∘ p.calls)) : AtMostOnce hashToken k p where
  executes i j hi hj :=
    h.engaged i j (Or.inr (executed_phase.mpr hi)) (Or.inr (executed_phase.mpr hj))
  answers i r hr hne := by
    rcases h.answers i r (replied_phase.mpr hr) with hc | ⟨status, body, rfl⟩ | hcached
    · exact Or.inl hc
    · refine absurd ⟨hr.1, ?_⟩ hne
      rw [hr.2]
      trivial
    · obtain ⟨j, status, body, hj, rfl⟩ := hcached
      exact Or.inr ⟨j, status, body, replied_phase.mp hj, rfl⟩

/-- A request is inserting exactly when it runs and has only the INSERT before it. -/
theorem inserting_phase {c : Proc (Req β)} :
    phase hashToken k c = .inserting ↔ c.Live (Inserting hashToken k) := by
  cases c with
  | up r =>
    by_cases hk : r.keyHash hashToken = k
    · cases hpc : r.pc <;> simp [phase, Inserting, hk, hpc, Pc.phase]
    · simp [phase, Inserting, hk]
  | down r =>
    by_cases hk : r.keyHash hashToken = k
    · cases hpc : r.pc <;> simp [phase, hk, hpc, Pc.phase]
    · simp [phase, hk]

end Property

/-! ## Every run -/

section Runs

variable {hashToken : String → String} {k : String}

/-- The invariant of the key, in a pool of requests. -/
def Once (hashToken : String → String) (k : String) (p : Requests ι β) : Prop :=
  KeyInv (record (p.store.rows k)) (phase hashToken k ∘ p.calls)

/-- The surroundings keep it, as long as the record lives. -/
theorem Once.env {p : Requests ι β} (h : Once hashToken k p) (hlife : WithinLifetime k p)
    (e : Env) : Once hashToken k ⟨Idempotency.env p.store e, p.calls⟩ := by
  cases e with
  | tick ms => exact h
  | cleanup =>
    have hrow : (purgeExpired p.store).rows k = p.store.rows k := by
      cases hr : p.store.rows k with
      | none => simp [purgeExpired, hr]
      | some r =>
        have hlive := hlife r hr
        simp only [purgeExpired, hr, Option.filter_some]
        simp [Nat.le_of_lt hlive]
    rw [Once, Idempotency.env, hrow]
    exact h

variable [DecidableEq ι]

/-- A statement keeps the key to one request. -/
theorem Once.run {p : Requests ι β} {i : ι} {d : Draw β} {r r' : Req β} {db : Db β}
    (h : Once hashToken k p) (hlife : WithinLifetime k p)
    (hopp : Unopposed hashToken k p (.run i d)) (hi : p.calls i = .up r)
    (hn : (idempotencyMachine hashToken).next p.store r d = some (db, r')) :
    Once hashToken k ⟨db, Function.update p.calls i (.up r')⟩ := by
  obtain ⟨hpc, hr'⟩ := next_inv hn
  have hkey : r'.keyHash hashToken = r.keyHash hashToken := by
    rw [hr']
    rfl
  rw [Once, Function.comp_update]
  by_cases hk : r.keyHash hashToken = k
  case neg =>
    have hout : phase hashToken k (.up r') = (phase hashToken k ∘ p.calls) i := by
      simp [phase, hi, hk, hkey]
    rw [hout, Function.update_eq_self, (rows_of_ne hpc (Ne.symm hk)).1]
    exact h
  case pos =>
    have hfi : (phase hashToken k ∘ p.calls) i = r.pc.phase true := by simp [phase, hi, hk]
    have hfi' : phase hashToken k (.up r') = r'.pc.phase true := by simp [phase, hk, hkey]
    rw [hk] at hpc
    rw [hfi']
    rcases Phase.step_of_nextPc hpc hlife with hstep | ⟨hrow, hsame⟩
    · rw [← hfi] at hstep
      refine KeyInv.step h hstep fun hins j hj hjins => ?_
      rw [Pc.phase_inserting.mp hins] at hpc
      obtain ⟨hs, hsel⟩ := nextPc_insert hpc
      refine hopp ?_ hsel j hj (inserting_phase.mp hjins)
      rw [hi]
      exact ⟨hk, hs⟩
    · rw [hrow, hsame, ← hfi, Function.update_eq_self]
      exact h

/-- So does a crash, which gives the key up before the INSERT. -/
theorem Once.crash {p : Requests ι β} {i : ι} {r : Req β} (h : Once hashToken k p)
    (hi : p.calls i = .up r) :
    Once hashToken k ⟨p.store, Function.update p.calls i (.down r)⟩ := by
  rw [Once, Function.comp_update]
  by_cases hins : (phase hashToken k ∘ p.calls) i = .inserting
  · have hdown : phase hashToken k (.down r) = .outside := by
      rw [Function.comp_apply, hi] at hins
      obtain ⟨hk, hpc⟩ := inserting_phase.mp hins
      simp [phase, hk, hpc, Pc.phase]
    rw [hdown]
    refine KeyInv.step h ?_ nofun
    rw [hins]
    exact .abandon _
  · have hsame : phase hashToken k (.down r) = (phase hashToken k ∘ p.calls) i := by
      rw [Function.comp_apply, hi] at hins ⊢
      by_cases hk : r.keyHash hashToken = k
      · simp only [phase, hk, if_true] at hins ⊢
        cases hpc : r.pc with
        | insert =>
          rw [hpc] at hins
          exact absurd rfl hins
        | _ => rfl
      · simp [phase, hk]
    rw [hsame, Function.update_eq_self]
    exact h

/-- **At most one execution for each key**: from a table without the key's row and requests that
have not started, in every run within the lifetime of the row in which no request runs its SELECT,
and finds nothing, while another one of its key is about to INSERT. -/
theorem atMostOnce_of_unopposed {p q : Requests ι β} (hrow : p.store.rows k = none)
    (hstart : ∀ i, Uses hashToken k (p.calls i) → (p.calls i).at'.pc = .select)
    (hrun : Run (Pool.step (idempotencyMachine hashToken))
      (fun p m => WithinLifetime k p ∧ Unopposed hashToken k p m) p q) :
    AtMostOnce hashToken k q := by
  have hout : phase hashToken k ∘ p.calls = fun _ => .outside := by
    funext i
    have hi := hstart i
    rw [Function.comp_apply]
    cases hc : p.calls i with
    | up r =>
      rw [hc] at hi
      by_cases hk : r.keyHash hashToken = k
      · have hpc : r.pc = .select := hi hk
        simp [phase, hk, hpc, Pc.phase]
      · simp [phase, hk]
    | down r =>
      rw [hc] at hi
      by_cases hk : r.keyHash hashToken = k
      · have hpc : r.pc = .select := hi hk
        simp [phase, hk, hpc, Pc.phase]
      · simp [phase, hk]
  have h₀ : Once hashToken k p := by
    rw [Once, hout, hrow]
    refine ⟨?_, fun _ hexe => hexe.elim, nofun, fun _ _ => nofun⟩
    rintro i j (⟨⟨⟩⟩ | ⟨⟨⟩⟩)
  have hinv : Once hashToken k q :=
    Pool.invariant (I := Once hashToken k) h₀
      (fun p i d r db r' h hG hi hn => h.run hG.1 hG.2 hi hn)
      (fun p i r h _ hi => h.crash hi) (fun p e h hG => h.env hG.1 e) hrun
  exact hinv.atMostOnce

end Runs

/-! ## Two requests with one key -/

section Guard

variable [DecidableEq β] (hashToken : String → String) (k : String)

instance : DecidablePred (Selecting (β := β) hashToken k) :=
  fun r => inferInstanceAs (Decidable (r.keyHash hashToken = k ∧ r.pc = .select))

instance : DecidablePred (Inserting (β := β) hashToken k) :=
  fun r => inferInstanceAs (Decidable (r.keyHash hashToken = k ∧ r.pc = .insert))

instance (p : Requests ι β) : Decidable (WithinLifetime k p) :=
  match h : p.store.rows k with
  | none => .isTrue fun r hr => by simp [h] at hr
  | some r => decidable_of_iff (p.store.now < r.expiresAt) (by simp [WithinLifetime, h])

instance [Fintype ι] [DecidableEq ι] (p : Requests ι β) :
    ∀ m : Move ι (Draw β) Env, Decidable (Unopposed hashToken k p m)
  | .run i _ => inferInstanceAs (Decidable ((p.calls i).Live (Selecting hashToken k) →
      selectLive p.store k = none → ∀ j, j ≠ i → ¬ (p.calls j).Live (Inserting hashToken k)))
  | .crash _ => inferInstanceAs (Decidable True)
  | .env _ => inferInstanceAs (Decidable True)

end Guard

/-- One PATCH, sent twice. -/
def sentTwice : Requests (Fin 2) String where
  store := ⟨0, fun _ => none, fun _ => []⟩
  calls := fun _ => .up ⟨patchArgs "/tasks/t" "k", .select⟩

/-- The record of the two. -/
def sentKey : String := computeKeyHash id (patchArgs "/tasks/t" "k")

theorem sentTwice_start (i : Fin 2) :
    Uses id sentKey (sentTwice.calls i) → (sentTwice.calls i).at'.pc = .select :=
  fun _ => rfl

/-- The handler answers `status` and `body`, and the save goes through. -/
def responds (status : ℕ) (body : String) : Draw String := ⟨status, body, true⟩

/-- **Both SELECTs before either INSERT**: both requests execute the handler. -/
theorem two_selects_both_execute :
    sentTwice.store.rows sentKey = none
      ∧ (∀ i, Uses id sentKey (sentTwice.calls i) → (sentTwice.calls i).at'.pc = .select)
      ∧ ∃ q, Run (Pool.step (idempotencyMachine id)) (fun p _ => WithinLifetime sentKey p)
        sentTwice q ∧ ¬ AtMostOnce id sentKey q := by
  refine ⟨rfl, sentTwice_start, ?_⟩
  obtain ⟨q, hq, hpc⟩ := exists_run_of_exec (Pool.step (idempotencyMachine id))
    (fun p _ => WithinLifetime sentKey p) sentTwice
    [.run 0 (responds 200 "a"), .run 1 (responds 200 "b"),
      .run 0 (responds 200 "a"), .run 1 (responds 200 "b")]
    (fun q => ∀ i, q.calls i = .up ⟨patchArgs "/tasks/t" "k", .running 0⟩) (by decide)
  have hpc' : ∀ i, q.calls i = .up ⟨patchArgs "/tasks/t" "k", .running 0⟩ := by simpa using hpc
  refine ⟨q, hq, fun h => absurd (h.executes 0 1 ?_ ?_) (by decide)⟩
  · rw [hpc']
    exact ⟨rfl, trivial⟩
  · rw [hpc']
    exact ⟨rfl, trivial⟩

/-- The second SELECT after the first response is saved: it is answered from it. -/
theorem atMostOnce_sent_in_turn :
    ∃ q, Run (Pool.step (idempotencyMachine id))
        (fun p m => WithinLifetime sentKey p ∧ Unopposed id sentKey p m) sentTwice q
      ∧ q.calls 1 = .up ⟨patchArgs "/tasks/t" "k", .replied (.cached 200 "a")⟩
      ∧ AtMostOnce id sentKey q := by
  obtain ⟨q, hq, hpc⟩ := exists_run_of_exec (Pool.step (idempotencyMachine id))
    (fun p m => WithinLifetime sentKey p ∧ Unopposed id sentKey p m) sentTwice
    [.run 0 (responds 200 "a"), .run 0 (responds 200 "a"), .run 0 (responds 200 "a"),
      .run 0 (responds 200 "a"), .run 1 (responds 200 "b")]
    (fun q => q.calls 1 = .up ⟨patchArgs "/tasks/t" "k", .replied (.cached 200 "a")⟩) (by decide)
  exact ⟨q, hq, by simpa using hpc, atMostOnce_of_unopposed rfl sentTwice_start hq⟩

end WorkPlatform.Idempotency

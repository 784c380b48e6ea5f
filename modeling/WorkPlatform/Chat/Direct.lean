import Mathlib.Data.Fintype.EquivFin
import Mathlib.Data.Set.Finite.Lattice
import WorkPlatform.Chat.Transaction

/-!
# Chat/Direct — one direct channel for each pair of users

    call 1   … pair ▸ sequence ▸ COMMIT ▸ outbox                 created = true
    call 2   …         waits          pair: 23505 ▸ existing     created = false

Whatever transactions of `createDirect` run, a pair of users has one direct channel, and every call
that finds the two memberships returns it (`createDirect_once`): the pair is committed together with
its channel, so that a call that loses finds both.  No call waits for good, since a transaction that
others wait for waits for nobody (`can_return`).
-/

namespace WorkPlatform.Chat

open Machinery

namespace Direct

variable {ι : Type*}

/-! ## Every run -/

section Sound

variable {p q : Calls ι}

/-- **The transactions, whatever runs**: what they have written is not in the tables, and no two
have written the same. -/
structure Sound (p : Calls ι) : Prop where
  paired : Paired p.store.channels
  knows : ∀ i, (p.calls i).at'.Knows p.store.channels
  free : ∀ i id, (p.calls i).Live (·.pendingId = some id) →
    p.store.channels.channels.find id = none
  ids : ∀ i j id, i ≠ j → (p.calls i).Live (·.pendingId = some id) →
    ¬ (p.calls j).Live (·.pendingId = some id)
  untaken : ∀ i k, (p.calls i).Live (·.holds = some k) →
    ∀ x ∈ p.store.channels.pairs, key x ≠ k
  apart : ∀ i j k, i ≠ j → (p.calls i).Live (·.holds = some k) →
    ¬ (p.calls j).Live (·.holds = some k)

/-- **Each channel that is made is made by one call.** -/
structure Made (before : List DirectPair) (p : Calls ι) : Prop where
  kept : ∀ x ∈ before, x ∈ p.store.channels.pairs
  maker : ∀ x ∈ p.store.channels.pairs, x ∈ before ∨ ∃ i, (p.calls i).at'.made = some (key x)
  pair : ∀ i k, (p.calls i).at'.made = some k →
    ∃ x ∈ p.store.channels.pairs, key x = k ∧ x ∉ before
  one : ∀ i j k, (p.calls i).at'.made = some k → (p.calls j).at'.made = some k → i = j

variable [DecidableEq ι] {w' : World} {uuid : String} {i : ι} {a : DirectArgs} {pc pc' : Pc}
  {before : List DirectPair}

omit [DecidableEq ι] in
theorem Sound.ready (h : Sound p) (hc : p.calls i = .up ⟨a, pc⟩)
    (hnew : pc = .insertChannel → New p uuid) : Ready p.store.channels uuid ⟨a, pc⟩ where
  new hpc := (hnew hpc).1
  id id hid := h.free i id (hc ▸ hid)
  key k hk := h.untaken i k (hc ▸ hk)

omit [DecidableEq ι] in
theorem Sound.knows_up (h : Sound p) (hc : p.calls i = .up ⟨a, pc⟩) :
    Call.Knows p.store.channels ⟨a, pc⟩ := by
  have hi := h.knows i
  rw [hc] at hi
  exact hi

omit [DecidableEq ι] in
/-- What a call has written after a statement, no other call has. -/
theorem Sound.id_next (h : Sound p) (hc : p.calls i = .up ⟨a, pc⟩)
    (hnew : pc = .insertChannel → New p uuid) (hnext : next p.store uuid a pc = some (w', pc'))
    {id : String} (hid : Call.pendingId ⟨a, pc'⟩ = some id) :
    p.store.channels.channels.find id = none
      ∧ ∀ j, j ≠ i → ¬ (p.calls j).Live (·.pendingId = some id) := by
  rcases pendingId_next hnext hid with hold | ⟨hpc, rfl⟩
  · exact ⟨h.free i id (hc ▸ hold), fun j hj => h.ids i j id hj.symm (hc ▸ hold)⟩
  · obtain ⟨hfind, hothers⟩ := hnew hpc
    exact ⟨hfind, fun j _ => hothers j⟩

omit [DecidableEq ι] in
/-- A key that a call comes to hold is free. -/
theorem Sound.key_next (h : Sound p) (hc : p.calls i = .up ⟨a, pc⟩)
    (hwait : ∀ k ∈ Call.inserts ⟨a, pc⟩, ∀ j, j ≠ i → ¬ (p.calls j).Live (·.holds = some k))
    (hnext : next p.store uuid a pc = some (w', pc')) {k : Key}
    (hk : Call.holds ⟨a, pc'⟩ = some k) :
    (∀ x ∈ p.store.channels.pairs, key x ≠ k)
      ∧ ∀ j, j ≠ i → ¬ (p.calls j).Live (·.holds = some k) := by
  rcases holds_next hnext hk with hold | ⟨hinserts, hfree⟩
  · exact ⟨h.untaken i k (hc ▸ hold), fun j hj => h.apart i j k hj.symm (hc ▸ hold)⟩
  · exact ⟨hfree, hwait k hinserts⟩

/-- A statement keeps the transactions apart. -/
theorem sound_run (h : Sound p) (hc : p.calls i = .up ⟨a, pc⟩)
    (hwait : ∀ k ∈ Call.inserts ⟨a, pc⟩, ∀ j, j ≠ i → ¬ (p.calls j).Live (·.holds = some k))
    (hnew : pc = .insertChannel → New p uuid)
    (hnext : next p.store uuid a pc = some (w', pc')) :
    Sound ⟨w', Function.update p.calls i (.up ⟨a, pc'⟩)⟩ := by
  have hknows := h.knows_up hc
  obtain ⟨hextends, hpaired, hknows'⟩ := extends_next hnext h.paired (h.ready hc hnew) hknows
  refine ⟨hpaired, ?_, fun j id hj => ?_, fun j l id hne hj hl => ?_, fun j k hj x hx => ?_,
    fun j l k hne hj hl => ?_⟩
  · refine (Function.forall_update_iff p.calls fun _ c => c.at'.Knows w'.channels).mpr ⟨hknows', ?_⟩
    exact fun j _ => (h.knows j).mono hextends
  · rcases live_update_up hj with ⟨-, hown⟩ | ⟨hji, hold⟩
    · exact find_next hnext (h.id_next hc hnew hnext hown).1 fun _ => hown
    · exact find_next hnext (h.free j id hold) fun hown =>
        absurd (hc ▸ hown) (h.ids j i id hji hold)
  · rcases live_update_up hj with ⟨rfl, hown⟩ | ⟨hji, hold⟩
    · rcases live_update_up hl with ⟨rfl, -⟩ | ⟨hlj, hold⟩
      · exact hne rfl
      · exact (h.id_next hc hnew hnext hown).2 l hlj hold
    · rcases live_update_up hl with ⟨rfl, hown⟩ | ⟨-, hold'⟩
      · exact (h.id_next hc hnew hnext hown).2 j hji hold
      · exact h.ids j l id hne hold hold'
  · rcases live_update_up hj with ⟨-, hown⟩ | ⟨hji, hold⟩
    · rcases pairs_next hnext hknows hx with hbefore | ⟨-, hmade⟩
      · exact (h.key_next hc hwait hnext hown).1 x hbefore
      · cases (holds_of_made hmade).symm.trans hown
    · rcases pairs_next hnext hknows hx with hbefore | ⟨hholds, -⟩
      · exact h.untaken j k hold x hbefore
      · rintro rfl
        exact absurd (hc ▸ hholds) (h.apart j i _ hji hold)
  · rcases live_update_up hj with ⟨rfl, hown⟩ | ⟨hji, hold⟩
    · rcases live_update_up hl with ⟨rfl, -⟩ | ⟨hlj, hold⟩
      · exact hne rfl
      · exact (h.key_next hc hwait hnext hown).2 l hlj hold
    · rcases live_update_up hl with ⟨rfl, hown⟩ | ⟨-, hold'⟩
      · exact (h.key_next hc hwait hnext hown).2 j hji hold
      · exact h.apart j l k hne hold hold'

/-- A call that stops keeps the invariant. -/
theorem sound_crash {c : Call} (h : Sound p) (hc : p.calls i = .up c) :
    Sound ⟨p.store, Function.update p.calls i (.down c)⟩ := by
  refine ⟨h.paired, fun j => ?_, fun j id hj => h.free j id (live_update_down hj).2,
    fun j l id hne hj hl => ?_, fun j k hj => h.untaken j k (live_update_down hj).2,
    fun j l k hne hj hl => ?_⟩
  · rw [at'_update_down hc]
    exact h.knows j
  · exact h.ids j l id hne (live_update_down hj).2 (live_update_down hl).2
  · exact h.apart j l k hne (live_update_down hj).2 (live_update_down hl).2

omit [DecidableEq ι] in
/-- **The transaction as one step**: where it commits, the tables become what
`DirectArgs.transaction` makes of them. -/
theorem transaction_of_commit (h : Sound p) (d : Directory) {tx : Pending}
    (hc : p.calls i = .up ⟨a, .commit tx⟩) :
    tx.commit p.store.channels = a.transaction p.store.channels d tx.channel.id := by
  obtain ⟨hne, id, rfl⟩ := h.knows_up hc
  exact commit_eq_transaction d hne (h.untaken i (keyOf a) (hc ▸ rfl))

/-- Where it fails on the pair, so does `DirectArgs.transaction`. -/
theorem transaction_of_conflict {w : World} {tx : Pending} (d : Directory) (id : String)
    (hnext : next w uuid a (.insertDirectPair tx) = some (w', .existing)) :
    a.transaction w.channels d id = none := by
  obtain ⟨-, hpc⟩ := Prod.mk.inj (Option.some.inj hnext)
  split at hpc
  · cases hpc
  · split at hpc
    case isTrue htaken => exact if_pos htaken
    case isFalse => cases hpc

/-- A statement keeps the record of who made a channel. -/
theorem made_run (h : Made before p) (hs : Sound p) (hc : p.calls i = .up ⟨a, pc⟩)
    (hnew : pc = .insertChannel → New p uuid)
    (hnext : next p.store uuid a pc = some (w', pc')) :
    Made before ⟨w', Function.update p.calls i (.up ⟨a, pc'⟩)⟩ := by
  have hknows := hs.knows_up hc
  obtain ⟨hextends, -⟩ := extends_next hnext hs.paired (hs.ready hc hnew) hknows
  have hstays : ∀ j k, (p.calls j).at'.made = some k →
      (Function.update p.calls i (.up ⟨a, pc'⟩) j).at'.made = some k := by
    intro j k hj
    by_cases hji : j = i
    · subst hji
      rw [hc] at hj
      rw [Function.update_self]
      exact made_stays hnext hj
    · rw [Function.update_of_ne hji]
      exact hj
  -- a call that makes a channel finds no pair, so that nobody has made one
  have hfresh : ∀ k, Call.holds ⟨a, pc⟩ = some k → (∀ x ∈ p.store.channels.pairs, key x ≠ k)
      ∧ ∀ j, (p.calls j).at'.made ≠ some k := by
    intro k hk
    have huntaken := hs.untaken i k (hc ▸ hk)
    refine ⟨huntaken, fun j hj => ?_⟩
    obtain ⟨x, hx, hkey, -⟩ := h.pair j k hj
    exact huntaken x hx hkey
  have hback : ∀ j k, (Function.update p.calls i (.up ⟨a, pc'⟩) j).at'.made = some k →
      (p.calls j).at'.made = some k ∨ j = i ∧ Call.holds ⟨a, pc⟩ = some k
        ∧ ∃ x ∈ w'.channels.pairs, key x = k := by
    intro j k hj
    rcases update_cases (fun x : Proc Call => x.at'.made = some k) hj with ⟨rfl, hown⟩ | ⟨-, hold⟩
    · rcases made_next hnext hknows hown with hbefore | hmakes
      · rw [hc]
        exact Or.inl hbefore
      · exact Or.inr ⟨rfl, hmakes⟩
    · exact Or.inl hold
  refine ⟨fun x hx => hextends.pairs x (h.kept x hx), fun x hx => ?_, fun j k hj => ?_,
    fun j l k hj hl => ?_⟩
  · rcases pairs_next hnext hknows hx with hold | ⟨-, hmade⟩
    · rcases h.maker x hold with hbefore | ⟨j, hj⟩
      · exact Or.inl hbefore
      · exact Or.inr ⟨j, hstays j _ hj⟩
    · refine Or.inr ⟨i, ?_⟩
      dsimp only
      rw [Function.update_self]
      exact hmade
  · rcases hback j k hj with hold | ⟨-, hholds, x, hx, hkey⟩
    · obtain ⟨x, hx, hkey, hnot⟩ := h.pair j k hold
      exact ⟨x, hextends.pairs x hx, hkey, hnot⟩
    · refine ⟨x, hx, hkey, fun hbefore => ?_⟩
      exact (hfresh k hholds).1 x (h.kept x hbefore) hkey
  · rcases hback j k hj with hjold | ⟨rfl, hholds, -⟩
    · rcases hback l k hl with hlold | ⟨-, hholds, -⟩
      · exact h.one j l k hjold hlold
      · exact absurd hjold ((hfresh k hholds).2 j)
    · rcases hback l k hl with hlold | ⟨rfl, -⟩
      · exact absurd hlold ((hfresh k hholds).2 l)
      · rfl

/-- A call that stops leaves every channel its maker. -/
theorem made_crash {c : Call} (h : Made before p) (hc : p.calls i = .up c) :
    Made before ⟨p.store, Function.update p.calls i (.down c)⟩ := by
  have hsame : ∀ j, (Function.update p.calls i (.down c) j).at' = (p.calls j).at' :=
    at'_update_down hc
  refine ⟨h.kept, fun x hx => ?_, fun j k hj => ?_, fun j l k hj hl => ?_⟩
  · dsimp only
    simp only [hsame]
    exact h.maker x hx
  · rw [hsame] at hj
    exact h.pair j k hj
  · rw [hsame] at hj hl
    exact h.one j l k hj hl

/-- A call that has not begun. -/
def Call.fresh (c : Call) : Bool := c.pc = entry c.args

omit [DecidableEq ι] in
/-- Nothing is open at the start. -/
theorem sound_fresh (hfresh : ∀ i, (p.calls i).Live fun c => c.fresh)
    (hs : Paired p.store.channels) : Sound p := by
  have hat : ∀ i, ∃ a, p.calls i = .up ⟨a, entry a⟩ := by
    intro i
    obtain ⟨⟨a, pc⟩, hc, hstart⟩ := (hfresh i).exists
    obtain rfl : pc = entry a := of_decide_eq_true hstart
    exact ⟨a, hc⟩
  have hidle : ∀ a, Call.pendingId ⟨a, entry a⟩ = none ∧ Call.holds ⟨a, entry a⟩ = none := by
    intro a
    unfold entry
    split <;> exact ⟨rfl, rfl⟩
  have hids : ∀ i id, ¬ (p.calls i).Live (·.pendingId = some id) := by
    intro i id hi
    obtain ⟨a, hc⟩ := hat i
    rw [hc] at hi
    cases (hidle a).1.symm.trans hi
  have hkeys : ∀ i k, ¬ (p.calls i).Live (·.holds = some k) := by
    intro i k hi
    obtain ⟨a, hc⟩ := hat i
    rw [hc] at hi
    cases (hidle a).2.symm.trans hi
  refine ⟨hs, fun i => ?_, fun i id hi => absurd hi (hids i id),
    fun i j id _ hi => absurd hi (hids i id), fun i k hi => absurd hi (hkeys i k),
    fun i j k _ hi => absurd hi (hkeys i k)⟩
  obtain ⟨a, hc⟩ := hat i
  rw [hc, Proc.at'_up, entry]
  split
  case isTrue => exact List.mem_cons_self
  case isFalse hne => exact hne

omit [DecidableEq ι] in
/-- Before the first statement no channel has been made. -/
theorem made_fresh (hfresh : ∀ i, (p.calls i).Live fun c => c.fresh) :
    Made p.store.channels.pairs p := by
  have hnone : ∀ i k, (p.calls i).at'.made ≠ some k := by
    intro i k hi
    obtain ⟨⟨a, pc⟩, hc, hstart⟩ := (hfresh i).exists
    obtain rfl : pc = entry a := of_decide_eq_true hstart
    rw [hc, Proc.at'_up, entry] at hi
    split at hi <;> cases hi
  exact ⟨fun _ hx => hx, fun _ hx => Or.inl hx, fun i k hi => absurd hi (hnone i k),
    fun i j k hi => absurd hi (hnone i k)⟩

/-- The invariant holds in every state of such a run. -/
theorem sound_along (h₀ : Sound p) (h : Run (Pool.step machine) Blocking p q) : Sound q := by
  refine Pool.invariant h₀ ?_ ?_ ?_ h
  · intro p i uuid c w' c' hp hG hc hnext
    obtain ⟨pc', hpc, rfl⟩ := pc_of_next (f := Call.mk c.args) hnext
    rw [Blocking, hc] at hG
    exact sound_run hp hc hG.1 hG.2 hpc
  · intro p i c hp _ hc
    exact sound_crash hp hc
  · intro p d hp _
    exact ⟨hp.paired, hp.knows, hp.free, hp.ids, hp.untaken, hp.apart⟩

/-- Each channel that is made is made by one call, in every state of such a run. -/
theorem made_along (hs : Sound p) (h₀ : Made before p) (h : Run (Pool.step machine) Blocking p q) :
    Made before q := by
  refine Pool.invariant_along (fun q hq => sound_along hs hq) h₀ ?_ ?_ ?_ h
  · intro p i uuid c w' c' hsound hp hG hc hnext
    obtain ⟨pc', hpc, rfl⟩ := pc_of_next (f := Call.mk c.args) hnext
    rw [Blocking, hc] at hG
    exact made_run hp hsound hc hG.2 hpc
  · intro p i c hp _ hc
    exact made_crash hp hc
  · intro p d hp _
    exact ⟨hp.kept, hp.maker, hp.pair, hp.one⟩

/-! ## A call that has found the memberships returns -/

/-- The memberships are found, and the call goes on. -/
def Pc.found : Pc → Bool
  | .insertChannel | .addMember _ _ _ | .insertDirectPair _ | .createSequence _ | .commit _
  | .outbox _ | .existing => true
  | _ => false

/-- A bound on the statements a call has still to run. -/
def Pc.remaining : Pc → ℕ
  | .creator => 9
  | .other _ => 8
  | .insertChannel => 7
  | .addMember _ _ rest => 5 + rest.length
  | .insertDirectPair _ => 4
  | .createSequence _ => 3
  | .commit _ => 2
  | .outbox _ | .existing => 1
  | .returned _ _ | .threw _ | .failed => 0

omit [DecidableEq ι] in
/-- A call that has found the memberships gets on, and ends with a channel. -/
theorem found_next {s : ChannelStore} (h : next p.store uuid a pc = some (w', pc'))
    (hfound : pc.found = true) (hknows : Call.Knows s ⟨a, pc'⟩) :
    pc'.remaining < pc.remaining ∧ (pc'.found = true ∨ ∃ channel created,
      pc' = .returned channel created) := by
  cases pc with
  | insertChannel =>
    obtain ⟨-, rfl⟩ := Prod.mk.inj (Option.some.inj h)
    split
    · exact ⟨show 1 < 7 by decide, Or.inl rfl⟩
    · exact ⟨show 6 < 7 by decide, Or.inl rfl⟩
  | addMember tx userId rest =>
    obtain ⟨-, rfl⟩ := Prod.mk.inj (Option.some.inj h)
    cases rest with
    | nil => exact ⟨show 4 < 5 by decide, Or.inl rfl⟩
    | cons next rest =>
      refine ⟨?_, Or.inl rfl⟩
      simp only [Pc.adding, Pc.remaining, List.length_cons]
      omega
  | insertDirectPair tx =>
    obtain ⟨-, rfl⟩ := Prod.mk.inj (Option.some.inj h)
    split at hknows
    case isTrue => exact hknows.elim
    case isFalse hcheck =>
      rw [if_neg hcheck]
      split
      · exact ⟨show 1 < 4 by decide, Or.inl rfl⟩
      · exact ⟨show 3 < 4 by decide, Or.inl rfl⟩
  | createSequence tx =>
    obtain ⟨-, rfl⟩ := Prod.mk.inj (Option.some.inj h)
    exact ⟨show 2 < 3 by decide, Or.inl rfl⟩
  | commit tx =>
    rw [next] at h
    split at h
    all_goals obtain ⟨-, rfl⟩ := Prod.mk.inj (Option.some.inj h)
    case h_1 => exact ⟨show 1 < 2 by decide, Or.inl rfl⟩
    case h_2 => exact hknows.elim
  | outbox channel =>
    obtain ⟨-, rfl⟩ := Prod.mk.inj (Option.some.inj h)
    exact ⟨show 0 < 1 by decide, Or.inr ⟨channel, true, rfl⟩⟩
  | existing =>
    obtain ⟨-, rfl⟩ := Prod.mk.inj (Option.some.inj h)
    cases hfind : p.store.channels.findDirectChannel a.orgId a.userAId a.userBId with
    | some channel => exact ⟨show 0 < 1 by decide, Or.inr ⟨channel, false, rfl⟩⟩
    | none =>
      rw [hfind] at hknows
      exact hknows.elim
  | creator | other | returned | threw | failed => cases hfound

/-- A call that has looked for its channel can always go on. -/
theorem exists_next {w : World} (uuid : String) (a : DirectArgs) (hfound : pc.found = true) :
    ∃ w' pc', next w uuid a pc = some (w', pc') := by
  cases pc with
  | commit tx =>
    rw [next]
    split <;> exact ⟨_, _, rfl⟩
  | insertChannel | addMember | insertDirectPair | createSequence | outbox | existing =>
    exact ⟨_, _, rfl⟩
  | creator | other | returned | threw | failed => cases hfound

/-- The ids that are written and not committed are finitely many. -/
def Spare (p : Calls ι) : Prop := {id | ∃ i, (p.calls i).Live (·.pendingId = some id)}.Finite

omit [DecidableEq ι] in
theorem exists_new (h : Spare p) : ∃ uuid, New p uuid := by
  have hrows := List.finite_toSet (p.store.channels.channels.rows.map ChannelRow.id)
  obtain ⟨uuid, -, huuid⟩ := Set.infinite_univ.exists_notMem_finite (hrows.union h)
  refine ⟨uuid, Table.find_eq_none.mpr fun channel hrow hid => huuid (Or.inl ?_), fun j hj => ?_⟩
  · exact List.mem_map.mpr ⟨channel, hrow, hid⟩
  · exact huuid (Or.inr ⟨j, hj⟩)

/-- A statement keeps them so. -/
theorem spare_run (h : Spare p) (hc : p.calls i = .up ⟨a, pc⟩)
    (hnext : next p.store uuid a pc = some (w', pc')) :
    Spare ⟨w', Function.update p.calls i (.up ⟨a, pc'⟩)⟩ := by
  refine (h.insert uuid).subset ?_
  rintro id ⟨j, hj⟩
  rcases live_update_up hj with ⟨-, hown⟩ | ⟨-, hold⟩
  · rcases pendingId_next hnext hown with hbefore | ⟨-, rfl⟩
    · exact Or.inr ⟨i, hc ▸ hbefore⟩
    · exact Or.inl rfl
  · exact Or.inr ⟨j, hold⟩

/-- They are finitely many in every state of such a run. -/
theorem spare_along (h₀ : Spare p) (h : Run (Pool.step machine) Blocking p q) : Spare q := by
  refine Pool.invariant h₀ ?_ ?_ ?_ h
  · intro p i uuid c w' c' hp _ hc hnext
    obtain ⟨pc', hpc, rfl⟩ := pc_of_next (f := Call.mk c.args) hnext
    exact spare_run hp hc hpc
  · intro p i c hp _ _
    refine hp.subset ?_
    rintro id ⟨j, hj⟩
    exact ⟨j, (live_update_down hj).2⟩
  · intro p d hp _
    exact hp

omit [DecidableEq ι] in
theorem spare_fresh (hfresh : ∀ i, (p.calls i).Live fun c => c.fresh) : Spare p := by
  refine Set.finite_empty.subset ?_
  rintro id ⟨i, hi⟩
  obtain ⟨⟨a, pc⟩, hc, hstart⟩ := (hfresh i).exists
  obtain rfl : pc = entry a := of_decide_eq_true hstart
  rw [hc, Proc.live_up, entry] at hi
  split at hi <;> cases hi

/-- A call whose pair no other transaction has inserted runs to its end by itself. -/
theorem return_alone (hs : Sound p) (hspare : Spare p) (hc : p.calls i = .up ⟨a, pc⟩)
    (hfound : pc.found = true)
    (hfree : ∀ j, j ≠ i → ¬ (p.calls j).Live (·.holds = some (keyOf a))) :
    ∃ q channel created, Run (Pool.step machine) Blocking p q
      ∧ q.calls i = .up ⟨a, .returned channel created⟩ ∧ ∀ j, j ≠ i → q.calls j = p.calls j := by
  induction hn : pc.remaining using Nat.strong_induction_on generalizing p pc with
  | _ n ih =>
    subst hn
    obtain ⟨uuid, hnew⟩ := exists_new hspare
    obtain ⟨w', pc', hnext⟩ := exists_next (w := p.store) uuid a hfound
    have hwait : ∀ k ∈ Call.inserts ⟨a, pc⟩, ∀ j, j ≠ i →
        ¬ (p.calls j).Live (·.holds = some k) := by
      intro k hk
      cases pc with
      | insertDirectPair =>
        obtain rfl := Option.some.inj hk
        exact hfree
      | _ => cases hk
    have hsound := sound_run hs hc hwait (fun _ => hnew) hnext
    have hknows := hsound.knows_up (i := i) (Function.update_self _ _ _)
    have hsame : ∀ j, j ≠ i → Function.update p.calls i (.up ⟨a, pc'⟩) j = p.calls j :=
      fun j hj => Function.update_of_ne hj _ _
    have hfree' : ∀ j, j ≠ i → ¬ (Function.update p.calls i (.up ⟨a, pc'⟩) j).Live
        (·.holds = some (keyOf a)) := by
      intro j hj
      rw [hsame j hj]
      exact hfree j hj
    have hG : Blocking p (.run i uuid) := by
      rw [Blocking, hc]
      exact ⟨hwait, fun _ => hnew⟩
    have hstep : Pool.step machine p (.run i uuid)
        = some ⟨w', Function.update p.calls i (.up ⟨a, pc'⟩)⟩ := by
      refine Pool.step_of_next hc ?_
      show (next p.store uuid a pc).map (fun x => (x.1, (⟨a, x.2⟩ : Call))) = some (w', ⟨a, pc'⟩)
      rw [hnext]
      rfl
    obtain ⟨hlt, hmore | ⟨channel, created, rfl⟩⟩ := found_next hnext hfound hknows
    · obtain ⟨q, channel, created, hrun, hq, hothers⟩ := ih pc'.remaining hlt hsound
        (spare_run hspare hc hnext) (Function.update_self _ _ _) hmore
        hfree' rfl
      exact ⟨q, channel, created, (Run.tail .refl hG hstep).trans hrun, hq,
        fun j hj => (hothers j hj).trans (hsame j hj)⟩
    · exact ⟨_, channel, created, .tail .refl hG hstep, Function.update_self _ _ _, hsame⟩

/-- **No call waits for good**: the transaction that has inserted the pair can end, and then the
call can. -/
theorem can_return (hs : Sound p) (hspare : Spare p) (hc : p.calls i = .up ⟨a, pc⟩)
    (hfound : pc.found = true) : ∃ q channel created, Run (Pool.step machine) Blocking p q
      ∧ q.calls i = .up ⟨a, .returned channel created⟩ := by
  by_cases hfree : ∀ j, j ≠ i → ¬ (p.calls j).Live (·.holds = some (keyOf a))
  · obtain ⟨q, channel, created, hrun, hq, -⟩ := return_alone hs hspare hc hfound hfree
    exact ⟨q, channel, created, hrun, hq⟩
  · obtain ⟨j, hj⟩ := not_forall.mp hfree
    obtain ⟨hji, hholds⟩ := Classical.not_imp.mp hj
    have hj := not_not.mp hholds
    obtain ⟨⟨b, pcj⟩, hcj, hkey⟩ := hj.exists
    have hkeys : keyOf b = keyOf a ∧ pcj.found = true := by
      cases pcj with
      | createSequence | commit => exact ⟨Option.some.inj hkey, rfl⟩
      | _ => cases hkey
    have hothers : ∀ l, l ≠ j → ¬ (p.calls l).Live (·.holds = some (keyOf a)) :=
      fun l hl => hs.apart j l (keyOf a) hl.symm hj
    obtain ⟨q, _, _, hrun, hq, hsame⟩ :=
      return_alone hs hspare hcj hkeys.2 fun l hl => hkeys.1.symm ▸ hothers l hl
    have hqi : q.calls i = .up ⟨a, pc⟩ := (hsame i (Ne.symm hji)).trans hc
    have hqfree : ∀ l, l ≠ i → ¬ (q.calls l).Live (·.holds = some (keyOf a)) := by
      intro l _ hl
      by_cases hlj : l = j
      · subst hlj
        rw [hq] at hl
        cases hl
      · rw [hsame l hlj] at hl
        exact hothers l hlj hl
    obtain ⟨r, channel, created, hrun', hr, -⟩ :=
      return_alone (sound_along hs hrun) (spare_along hspare hrun) hqi hfound hqfree
    exact ⟨r, channel, created, hrun.trans hrun', hr⟩

/-! ## One channel for each pair -/

omit [DecidableEq ι] in
/-- Two ordered pairs with the same members are one. -/
theorem eq_of_same_users {u v u' v' : String} (huv : u < v) (huv' : u' < v')
    (h : ∀ x, x = u ∨ x = v ↔ x = u' ∨ x = v') : u = u' ∧ v = v' := by
  rcases (h u).mp (Or.inl rfl) with rfl | rfl
  · rcases (h v).mp (Or.inr rfl) with rfl | rfl
    · exact absurd huv (lt_irrefl v)
    · exact ⟨rfl, rfl⟩
  · rcases (h v).mp (Or.inr rfl) with rfl | rfl
    · exact absurd huv (lt_asymm huv')
    · exact absurd huv (lt_irrefl v)

omit [DecidableEq ι] in
/-- A direct channel is that of two users. -/
theorem direct_of_paired {s : ChannelStore} (hs : Paired s) {channel : ChannelRow}
    (hrow : channel ∈ s.channels.rows) (htype : channel.type = .direct) :
    ∃ u v, u < v ∧ IsDirect s channel.orgId u v channel := by
  obtain ⟨x, hx, hchannel⟩ := hs.paired channel hrow htype
  obtain ⟨hlt, channel', hchannel', hdirect⟩ := hs.direct x hx
  have hsame : s.channels.find channel'.id = some channel := by
    rw [hchannel', hchannel]
    exact Table.find_key hrow
  obtain rfl := Option.some.inj (hdirect.row.symm.trans hsame)
  refine ⟨x.userAId, x.userBId, hlt, ?_⟩
  rw [hdirect.org]
  exact hdirect

omit [DecidableEq ι] in
/-- Two direct channels of one organisation with the same members are one. -/
theorem eq_of_members {s : ChannelStore} (hs : Paired s) {x y : ChannelRow}
    (hx : x ∈ s.channels.rows) (hy : y ∈ s.channels.rows) (hxtype : x.type = .direct)
    (hytype : y.type = .direct) (horg : x.orgId = y.orgId)
    (hmembers : ∀ u, u ∈ s.members x.id ↔ u ∈ s.members y.id) : x = y := by
  obtain ⟨u, v, huv, hxdirect⟩ := direct_of_paired hs hx hxtype
  obtain ⟨u', v', huv', hydirect⟩ := direct_of_paired hs hy hytype
  obtain ⟨rfl, rfl⟩ := eq_of_same_users huv huv' fun w =>
    (hxdirect.members w).symm.trans ((hmembers w).trans (hydirect.members w))
  have hpair := hs.unique _ hxdirect.pair _ hydirect.pair (by rw [key, key, horg])
  have hid : x.id = y.id := congrArg DirectPair.channelId hpair
  have hrow := hxdirect.row
  rw [hid, hydirect.row] at hrow
  exact (Option.some.inj hrow).symm

/-- **One direct channel for each pair of users**: whatever transactions of `createDirect` run,

* a direct channel has two users as its members, a pair and a sequence, and two direct channels of
  an organisation do not have the same members;
* a call returns the channel of its pair, and throws for a missing membership only; one that has
  found the memberships can always go on to return, whatever it waits for;
* a channel that was not there before is made by exactly one call, which is the one that returns
  `created = true`. -/
theorem createDirect_once (hfresh : ∀ i, (p.calls i).Live fun c => c.fresh)
    (hs : Paired p.store.channels) (hrun : Run (Pool.step machine) Blocking p q) :
    (∀ channel ∈ q.store.channels.channels.rows, channel.type = .direct →
      ∃ u v, u < v ∧ IsDirect q.store.channels channel.orgId u v channel)
    ∧ (∀ x ∈ q.store.channels.channels.rows, ∀ y ∈ q.store.channels.channels.rows,
      x.type = .direct → y.type = .direct → x.orgId = y.orgId →
      (∀ u, u ∈ q.store.channels.members x.id ↔ u ∈ q.store.channels.members y.id) → x = y)
    ∧ (∀ i a channel created, (q.calls i).at' = ⟨a, .returned channel created⟩ →
      IsDirect q.store.channels a.orgId a.userAId a.userBId channel)
    ∧ (∀ i a, (q.calls i).at' ≠ ⟨a, .failed⟩ ∧ ∀ e, (q.calls i).at' = ⟨a, .threw e⟩ →
      e ∈ [cannotDmSelf, notOrgMember, .notFound "OtherUser"])
    ∧ (∀ i a pc, q.calls i = .up ⟨a, pc⟩ → pc.found = true → ∃ r channel created,
      Run (Pool.step machine) Blocking q r ∧ r.calls i = .up ⟨a, .returned channel created⟩)
    ∧ (∀ x ∈ q.store.channels.pairs, x ∉ p.store.channels.pairs →
      ∃! i, (q.calls i).at'.made = some (key x))
    ∧ ∀ i k, (q.calls i).at'.made = some k →
      ∃ x ∈ q.store.channels.pairs, key x = k ∧ x ∉ p.store.channels.pairs := by
  have hstart := sound_fresh hfresh hs
  have hend := sound_along hstart hrun
  have hmade := made_along hstart (made_fresh hfresh) hrun
  have hknows : ∀ i c, (q.calls i).at' = c → c.Knows q.store.channels := fun i c hi =>
    hi ▸ hend.knows i
  refine ⟨fun channel => direct_of_paired hend.paired,
    fun x hx y hy => eq_of_members hend.paired hx hy,
    fun i a channel created => hknows i _, fun i a => ⟨hknows i _, fun e => hknows i _⟩,
    fun i a pc => can_return hend (spare_along (spare_fresh hfresh) hrun),
    fun x hx hnot => ?_, hmade.pair⟩
  obtain ⟨i, hi⟩ := (hmade.maker x hx).resolve_left hnot
  exact ⟨i, hi, fun j hj => hmade.one j i (key x) hj hi⟩

end Sound

/-! ## Two users who write to each other -/

instance [Fintype ι] [DecidableEq ι] (p : Calls ι) (id : String) : Decidable (New p id) :=
  inferInstanceAs (Decidable (p.store.channels.channels.find id = none
    ∧ ∀ j, ¬ (p.calls j).Live (·.pendingId = some id)))

instance [Fintype ι] [DecidableEq ι] (p : Calls ι) :
    ∀ m : Move ι String Directory, Decidable (Blocking p m)
  | .run i uuid => inferInstanceAs (Decidable ((p.calls i).Keeps fun c =>
      (∀ k ∈ c.inserts, ∀ j, j ≠ i → ¬ (p.calls j).Live (·.holds = some k))
      ∧ (c.pc = .insertChannel → New p uuid)))
  | .crash _ | .env _ => inferInstanceAs (Decidable True)

/-- Each of two users creates a channel with the other. -/
def demoDirect : Calls (Fin 2) where
  store := ⟨⟨.empty, fun _ => [], [], fun _ => none, []⟩,
    ⟨fun _ _ => true, fun _ => true, fun _ => true⟩⟩
  calls i := .up (if i = 0 then ⟨⟨"o", "u", "v"⟩, .creator⟩ else ⟨⟨"o", "v", "u"⟩, .creator⟩)

/-- The second transaction waits for the first at the pair, and then finds its channel. -/
theorem both_get_one_channel : ∃ (q : Calls (Fin 2)) (channel : ChannelRow),
    Run (Pool.step machine) Blocking demoDirect q
      ∧ (q.calls 0).at' = ⟨⟨"o", "u", "v"⟩, .returned channel true⟩
      ∧ (q.calls 1).at' = ⟨⟨"o", "v", "u"⟩, .returned channel false⟩
      ∧ IsDirect q.store.channels "o" "u" "v" channel
      ∧ ∃! i, (q.calls i).at'.made = some ⟨"o", "u", "v"⟩ := by
  obtain ⟨q, hrun, hq⟩ := exists_run_of_exec (Pool.step machine) Blocking demoDirect
    (List.flatten [List.replicate 6 (.run 0 "c"), List.replicate 5 (.run 1 "c'"),
      List.replicate 2 (.run 0 ""), List.replicate 2 (.run 1 ""), [.run 0 ""]])
    (fun q => (q.calls 0).at'
        = ⟨⟨"o", "u", "v"⟩, .returned ⟨"c", "o", .direct, none, "u", none, none⟩ true⟩
      ∧ (q.calls 1).at'
        = ⟨⟨"o", "v", "u"⟩, .returned ⟨"c", "o", .direct, none, "u", none, none⟩ false⟩
      ∧ ⟨"o", "u", "v", "c"⟩ ∈ q.store.channels.pairs) (by decide)
  obtain ⟨hfirst, hsecond, hpair⟩ := of_decide_eq_true hq
  have hempty : Paired demoDirect.store.channels :=
    ⟨fun x hx => absurd hx List.not_mem_nil, fun x hx => absurd hx List.not_mem_nil,
      fun x hx => absurd hx List.not_mem_nil⟩
  obtain ⟨-, -, hreturned, -, -, hmade, -⟩ := createDirect_once (by decide) hempty hrun
  exact ⟨q, _, hrun, hfirst, hsecond, hreturned 0 _ _ _ hfirst, hmade _ hpair List.not_mem_nil⟩

end Direct

end WorkPlatform.Chat

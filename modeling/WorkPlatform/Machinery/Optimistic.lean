import WorkPlatform.Machinery.Run

/-!
# Machinery/Optimistic — changes shown before they are made

    value ──began i──▸ act value ──confirmed i / settled i──▸ kept
              │
              └──failed i──▸ the value as it was when `i` began

An operation shows its change at once, and puts back the whole value it began with when it fails.
A **history** keeps what every operation did and drops one operation's change when that operation
fails: its value is what a client shows that undoes exactly what failed.  The two agree as long as
nothing else happens to the value between the beginning of an operation and its failure
(`Watched.Exact.next`).
-/

namespace Machinery.Optimistic

variable {ι α σ ε : Type*}

/-! ## Effects -/

/-- What a step does to the value. -/
inductive Effect (ι α : Type*)
  | began (i : ι) (act : α → α)
  | confirmed (i : ι) (act : α → α)
  | settled (i : ι)
  | failed (i : ι)
  | changed (act : α → α)
  | same

/-! ## Histories -/

/-- What was done to the value, and the operation it is undone with. -/
structure Change (ι α : Type*) where
  owner : Option ι
  act : α → α

/-- Everything that was done to a value and has not been undone. -/
structure History (ι α : Type*) where
  origin : α
  log : List (Change ι α)

namespace History

/-- **What a client shows that undoes exactly what failed.** -/
def value (h : History ι α) : α := h.log.foldl (fun a c => c.act a) h.origin

def push (h : History ι α) (owner : Option ι) (act : α → α) : History ι α :=
  { h with log := h.log ++ [⟨owner, act⟩] }

@[simp] theorem value_push (h : History ι α) (owner : Option ι) (act : α → α) :
    (h.push owner act).value = act h.value := by
  rw [value, push, List.foldl_append]
  rfl

variable [DecidableEq ι]

/-- The history in which operation `i` was never begun. -/
def without (h : History ι α) (i : ι) : History ι α :=
  { h with log := h.log.filter (·.owner ≠ some i) }

/-- What an effect does to the history. -/
def next (h : History ι α) : Effect ι α → History ι α
  | .began i act => h.push (some i) act
  | .confirmed _ act => h.push none act
  | .settled _ => h
  | .failed i => h.without i
  | .changed act => h.push none act
  | .same => h

theorem without_push_self (h : History ι α) (i : ι) (act : α → α) :
    (h.push (some i) act).without i = h.without i := by
  rw [without, push, List.filter_append]
  simp [without]

theorem without_eq_self {h : History ι α} {i : ι} (hi : ∀ c ∈ h.log, c.owner ≠ some i) :
    h.without i = h := by
  rw [without, List.filter_eq_self.mpr fun c hc => decide_eq_true (hi c hc)]

/-- No change is added that `i` owns, other than by its beginning. -/
theorem notMem_next {h : History ι α} {i : ι} {e : Effect ι α} (hi : ∀ c ∈ h.log, c.owner ≠ some i)
    (he : ∀ act, e ≠ .began i act) : ∀ c ∈ (h.next e).log, c.owner ≠ some i := by
  have hpush (owner : Option ι) (act : α → α) (howner : owner ≠ some i) :
      ∀ c ∈ (h.push owner act).log, c.owner ≠ some i := by
    intro c hc
    rcases List.mem_append.mp hc with hc | hc
    · exact hi c hc
    · rw [List.mem_singleton.mp hc]
      exact howner
  cases e with
  | began j act =>
    refine hpush _ act fun hj => he act ?_
    rw [Option.some.inj hj]
  | confirmed j act => exact hpush none act (by simp)
  | settled j => exact hi
  | failed j => exact fun c hc => hi c (List.mem_of_mem_filter hc)
  | changed act => exact hpush none act (by simp)
  | same => exact hi

end History

/-! ## Clients -/

/-- An operation, as the client sees it. -/
inductive Op (α : Type*)
  | unborn
  | inFlight (snapshot : α)
  | over

/-- A client that puts back the value an operation began with when it fails. -/
structure Client (ι α : Type*) where
  value : α
  ops : ι → Op α

variable [DecidableEq ι]

namespace Client

/-- The end of operation `i`, with what it leaves of the value and of the one it began with. -/
def finish (c : Client ι α) (i : ι) (act : α → α → α) : Option (Client ι α) :=
  match c.ops i with
  | .inFlight snapshot => some ⟨act snapshot c.value, Function.update c.ops i .over⟩
  | _ => none

/-- What an effect does to the client. -/
def next (c : Client ι α) : Effect ι α → Option (Client ι α)
  | .began i act =>
    match c.ops i with
    | .unborn => some ⟨act c.value, Function.update c.ops i (.inFlight c.value)⟩
    | _ => none
  | .confirmed i act => c.finish i fun _ v => act v
  | .settled i => c.finish i fun _ v => v
  | .failed i => c.finish i fun snapshot _ => snapshot
  | .changed act => some ⟨act c.value, c.ops⟩
  | .same => some c

end Client

/-! ## Disturbance -/

/-- Which operations have seen another step change the value since they began. -/
def Effect.disturb (e : Effect ι α) (disturbed : ι → Bool) : ι → Bool :=
  match e with
  | .began i _ => fun j => j ≠ i
  | .settled _ | .same => disturbed
  | .confirmed _ _ | .failed _ | .changed _ => fun _ => true

/-- A client, its history and what disturbed its operations. -/
structure Watched (ι α : Type*) where
  client : Client ι α
  history : History ι α
  disturbed : ι → Bool

namespace Watched

def next (w : Watched ι α) (e : Effect ι α) : Option (Watched ι α) :=
  (w.client.next e).map fun c => ⟨c, w.history.next e, e.disturb w.disturbed⟩

/-- No operation fails after another step changed the value. -/
def Undisturbed (w : Watched ι α) : Effect ι α → Prop
  | .failed i => w.disturbed i = false
  | _ => True

instance (w : Watched ι α) : ∀ e, Decidable (w.Undisturbed e)
  | .failed i => inferInstanceAs (Decidable (w.disturbed i = false))
  | .began _ _ | .confirmed _ _ | .settled _ | .changed _ | .same => .isTrue trivial

/-- A client that has begun nothing, at the origin of its history. -/
structure Fresh (w : Watched ι α) : Prop where
  unborn : ∀ i, w.client.ops i = .unborn
  origin : w.history.origin = w.client.value
  log : w.history.log = []

/-- **The client shows what its history says**, and an operation in flight that nothing disturbed
holds what is left without it. -/
structure Exact (w : Watched ι α) : Prop where
  value : w.client.value = w.history.value
  unborn : ∀ i, w.client.ops i = .unborn → ∀ c ∈ w.history.log, c.owner ≠ some i
  snapshot : ∀ i v, w.client.ops i = .inFlight v → w.disturbed i = false →
    (w.history.without i).value = v

variable {w w' : Watched ι α} {i : ι} {act : α → α}

theorem Fresh.exact (h : w.Fresh) : w.Exact where
  value := by rw [History.value, h.log, h.origin, List.foldl_nil]
  unborn i _ c hc := by
    rw [h.log] at hc
    cases hc
  snapshot i v hi := by
    rw [h.unborn i] at hi
    cases hi

/-- An operation that has not begun after a step had not begun before it. -/
theorem unborn_of_update {ops : ι → Op α} {i j : ι} {o : Op α} (ho : o ≠ .unborn)
    (hj : Function.update ops i o j = .unborn) : j ≠ i ∧ ops j = .unborn := by
  by_cases hji : j = i
  · subst hji
    rw [Function.update_self] at hj
    exact absurd hj ho
  · rw [Function.update_of_ne hji] at hj
    exact ⟨hji, hj⟩

theorem inFlight_of_update_over {ops : ι → Op α} {i j : ι} {v : α}
    (hj : Function.update ops i .over j = .inFlight v) : j ≠ i ∧ ops j = .inFlight v := by
  by_cases hji : j = i
  · subst hji
    rw [Function.update_self] at hj
    cases hj
  · rw [Function.update_of_ne hji] at hj
    exact ⟨hji, hj⟩

/-- The end of an operation, as the client it ends in. -/
theorem finish_eq {c c' : Client ι α} {act : α → α → α} (h : c.finish i act = some c') :
    ∃ v, c.ops i = .inFlight v ∧ c' = ⟨act v c.value, Function.update c.ops i .over⟩ := by
  rw [Client.finish] at h
  split at h
  case h_1 v hv => exact ⟨v, hv, (Option.some.inj h).symm⟩
  case h_2 => cases h

/-- An operation that begins keeps the value exact for what has begun. -/
theorem Exact.began (h : w.Exact) (hi : w.client.ops i = .unborn) :
    (⟨⟨act w.client.value, Function.update w.client.ops i (.inFlight w.client.value)⟩,
      w.history.push (some i) act, fun j => j ≠ i⟩ : Watched ι α).Exact where
  value := by
    rw [History.value_push, h.value]
  unborn j hj := by
    obtain ⟨hji, hj⟩ := unborn_of_update (by simp) hj
    exact History.notMem_next (e := .began i act) (h.unborn j hj) fun act' he =>
      hji (Effect.began.inj he).1.symm
  snapshot j v hj hquiet := by
    obtain rfl : j = i := of_not_not (of_decide_eq_false hquiet)
    have hj : Function.update w.client.ops j (.inFlight w.client.value) j = .inFlight v := hj
    rw [Function.update_self] at hj
    rw [History.without_push_self, History.without_eq_self (h.unborn j hi), ← h.value]
    exact Op.inFlight.inj hj

/-- Operation `i` ends, or something else happens: nothing that was in flight is left
undisturbed. -/
theorem Exact.of_disturbed {c : Client ι α} {e : Effect ι α} (h : w.Exact)
    (hvalue : c.value = (w.history.next e).value)
    (hops : ∀ j, c.ops j = .unborn → w.client.ops j = .unborn)
    (he : ∀ i act, e ≠ .began i act) :
    (⟨c, w.history.next e, fun _ => true⟩ : Watched ι α).Exact where
  value := hvalue
  unborn j hj := History.notMem_next (h.unborn j (hops j hj)) (he j)
  snapshot j v _ hquiet := absurd hquiet (by simp)

/-- **What one step does.** -/
theorem Exact.next {e : Effect ι α} (h : w.Exact) (hG : w.Undisturbed e)
    (hw : w.next e = some w') : w'.Exact := by
  obtain ⟨c, hc, rfl⟩ := Option.map_eq_some_iff.mp hw
  have hover (i : ι) (j : ι) (hj : Function.update w.client.ops i .over j = .unborn) :
      w.client.ops j = .unborn := (unborn_of_update (by simp) hj).2
  cases e with
  | began i act =>
    rw [Client.next] at hc
    split at hc
    case h_1 hi =>
      obtain rfl := Option.some.inj hc
      exact h.began hi
    case h_2 => cases hc
  | confirmed i act =>
    rw [Client.next] at hc
    obtain ⟨v, -, rfl⟩ := finish_eq hc
    refine h.of_disturbed ?_ (hover i) (by simp)
    rw [History.next, History.value_push, h.value]
  | settled i =>
    rw [Client.next] at hc
    obtain ⟨v, -, rfl⟩ := finish_eq hc
    exact ⟨h.value, fun j hj => h.unborn j (hover i j hj), fun j v hj hquiet =>
      h.snapshot j v (inFlight_of_update_over hj).2 hquiet⟩
  | failed i =>
    -- The operation was not disturbed, so its snapshot is what its history says without it.
    rw [Client.next] at hc
    obtain ⟨v, hv, rfl⟩ := finish_eq hc
    exact h.of_disturbed (h.snapshot i v hv hG).symm (hover i) (by simp)
  | changed act =>
    obtain rfl := Option.some.inj hc
    refine h.of_disturbed ?_ (fun j hj => hj) (by simp)
    rw [History.next, History.value_push, h.value]
  | same =>
    obtain rfl := Option.some.inj hc
    exact ⟨h.value, h.unborn, h.snapshot⟩

end Watched

/-! ## Services -/

/-- A service that shows changes at once: its own steps, and what each is for the client it
implements. -/
structure Service (σ ε ι α : Type*) [DecidableEq ι] where
  step : σ → ε → Option σ
  effect : σ → ε → Effect ι α
  view : σ → Client ι α
  step_view : ∀ s e s', step s e = some s' → (view s).next (effect s e) = some (view s')

/-- A service with the history of its value. -/
structure Observed (σ ι α : Type*) where
  state : σ
  history : History ι α
  disturbed : ι → Bool

namespace Service

variable (S : Service σ ε ι α)

def watched (o : Observed σ ι α) : Watched ι α := ⟨S.view o.state, o.history, o.disturbed⟩

def next (o : Observed σ ι α) (e : ε) : Option (Observed σ ι α) :=
  (S.step o.state e).map fun s =>
    ⟨s, o.history.next (S.effect o.state e), (S.effect o.state e).disturb o.disturbed⟩

/-- `Watched.Undisturbed`, for a step of the service. -/
def Undisturbed (o : Observed σ ι α) (e : ε) : Prop :=
  (S.watched o).Undisturbed (S.effect o.state e)

instance (o : Observed σ ι α) (e : ε) : Decidable (S.Undisturbed o e) :=
  inferInstanceAs (Decidable ((S.watched o).Undisturbed (S.effect o.state e)))

/-- **A service keeps to its history** as long as nothing disturbs an operation that fails. -/
theorem exact_next {o o' : Observed σ ι α} {e : ε} (h : (S.watched o).Exact)
    (hG : S.Undisturbed o e) (ho : S.next o e = some o') : (S.watched o').Exact := by
  obtain ⟨s, hs, rfl⟩ := Option.map_eq_some_iff.mp ho
  refine h.next hG ?_
  rw [Watched.next, watched, S.step_view _ _ _ hs]
  rfl

end Service

end Machinery.Optimistic

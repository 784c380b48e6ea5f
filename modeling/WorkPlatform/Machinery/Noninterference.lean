import WorkPlatform.Machinery.Run
import WorkPlatform.Machinery.Table

/-!
# Machinery/Noninterference — tenants that do not notice each other

    p ──▸ q      every move
    p ──▸ q'     those that concern `u`      what `u` has got is the same in `q` and `q'`

A **tenancy** says for whom a call works, and which acts of the environment are whose.  The tenants
are `Apart` where a statement of one is answered by what that one sees, and changes nothing that
another one sees.  Two machines side by side keep apart the tenants that each of them keeps apart.

Of a table a tenant sees the rows that carry its name (`SeesRows`).
-/

namespace Machinery

/-! ## Listed steps -/

section Steps

variable {σ α : Type*} {step : σ → α → Option σ} {G : σ → α → Prop} {s t u : σ}

/-- `t` is reached from `s` by the listed steps, each allowed by `G` where it was taken. -/
inductive Steps (step : σ → α → Option σ) (G : σ → α → Prop) : σ → List α → σ → Prop
  | nil (s : σ) : Steps step G s [] s
  | cons {s t u : σ} {a : α} {as : List α} :
      G s a → step s a = some t → Steps step G t as u → Steps step G s (a :: as) u

theorem Steps.run {as : List α} (h : Steps step G s as t) : Run step G s t := by
  induction h with
  | nil => exact .refl
  | cons hG hs _ ih => exact (Run.tail .refl hG hs).trans ih

/-- A computed run is a run. -/
theorem steps_of_exec [∀ s a, Decidable (G s a)] :
    ∀ {s t : σ} {as : List α}, exec step G s as = some t → Steps step G s as t
  | s, t, [], h => by
      obtain rfl : s = t := Option.some.inj h
      exact .nil s
  | s, t, a :: as, h => by
      rw [exec] at h
      split at h
      case isFalse => cases h
      case isTrue hG =>
        obtain ⟨u, hu, hrest⟩ := Option.bind_eq_some_iff.mp h
        exact .cons hG hu (steps_of_exec hrest)

/-- A listed run that can be made, to where it leads. -/
theorem steps_getD (step : σ → α → Option σ) (G : σ → α → Prop) [∀ s a, Decidable (G s a)] (s : σ)
    (as : List α) (h : (exec step G s as).isSome = true) :
    Steps step G s as ((exec step G s as).getD s) := by
  obtain ⟨t, ht⟩ := Option.isSome_iff_exists.mp h
  rw [ht]
  exact steps_of_exec ht

end Steps

/-! ## Tenants -/

variable {ι σ κ δ ε τ : Type*}

/-- For whom a call works, whose act an act of the environment is (nobody's, or one tenant's), and
when a tenant sees no difference between two stores, the second of which may hold less of the other
tenants. -/
structure Tenancy (σ κ ε τ : Type*) where
  owner : κ → τ
  author : ε → Option τ
  Sees : τ → σ → σ → Prop

namespace Tenancy

variable (T : Tenancy σ κ ε τ)

/-- The move is one of the tenant's calls, or an act that is not another tenant's. -/
def concerns [DecidableEq τ] (owners : ι → τ) (u : τ) : Move ι δ ε → Bool
  | .run i _ | .crash i => owners i = u
  | .env e => (T.author e).all (· = u)

/-- **The tenants are kept apart**, by the statements that `G` allows. -/
structure Apart (M : Machine σ κ δ ε) (G : σ → κ → δ → Prop) : Prop where
  owner_next : ∀ s k d s' k', M.next s k d = some (s', k') → T.owner k' = T.owner k
  own : ∀ u s t k d s' k', T.Sees u s t → T.owner k = u → G s k d →
    M.next s k d = some (s', k') → G t k d ∧ ∃ t', M.next t k d = some (t', k') ∧ T.Sees u s' t'
  other : ∀ u s t k d s' k', T.Sees u s t → T.owner k ≠ u → G s k d →
    M.next s k d = some (s', k') → T.Sees u s' t
  env_own : ∀ u s t e, T.Sees u s t → (∀ v, T.author e = some v → v = u) →
    T.Sees u (M.env s e) (M.env t e)
  env_other : ∀ u s t e v, T.Sees u s t → T.author e = some v → v ≠ u → T.Sees u (M.env s e) t

end Tenancy

/-- The guard of a pool that allows the statements `G` allows. -/
def Allowed (G : σ → κ → δ → Prop) (p : Pool ι σ κ) : Move ι δ ε → Prop
  | .run i d => (p.calls i).Keeps fun k => G p.store k d
  | _ => True

instance {G : σ → κ → δ → Prop} [∀ s k d, Decidable (G s k d)] (p : Pool ι σ κ) :
    ∀ m : Move ι δ ε, Decidable (Allowed G p m)
  | .run i d => inferInstanceAs (Decidable ((p.calls i).Keeps fun k => G p.store k d))
  | .crash _ | .env _ => inferInstanceAs (Decidable True)

/-! ## Leaving the others out -/

section Purge

variable [DecidableEq ι] {T : Tenancy σ κ ε τ} {M : Machine σ κ δ ε} {G : σ → κ → δ → Prop}
  {p q p' : Pool ι σ κ} {owners : ι → τ} {u : τ} {m : Move ι δ ε}

/-- No move changes for whom a call works. -/
theorem owner_step (h : T.Apart M G) (ho : ∀ i, T.owner (p.calls i).at' = owners i)
    (hs : p.step M m = some q) : ∀ i, T.owner (q.calls i).at' = owners i := by
  intro j
  cases m with
  | run i d =>
    obtain ⟨k, s, k', hk, hn, rfl⟩ := Pool.step_run hs
    by_cases hj : j = i
    · subst hj
      rw [at'_update_self, Proc.at'_up, h.owner_next _ _ _ _ _ hn, ← ho j, hk, Proc.at'_up]
    · rw [at'_update_of_ne hj]
      exact ho j
  | crash i =>
    obtain ⟨k, hk, rfl⟩ := Pool.step_crash hs
    rw [at'_update_down hk]
    exact ho j
  | env e =>
    obtain rfl := Option.some.inj hs
    exact ho j

/-- What a pool has in common with one without the others: the tenant's calls, and what it sees. -/
structure Shares (T : Tenancy σ κ ε τ) (owners : ι → τ) (u : τ) (p p' : Pool ι σ κ) : Prop where
  sees : T.Sees u p.store p'.store
  calls : ∀ i, owners i = u → p'.calls i = p.calls i

theorem Shares.update (hp : Shares T owners u p p') (i : ι) (x : Proc κ) : ∀ j, owners j = u →
    Function.update p'.calls i x j = Function.update p.calls i x j := by
  intro j hj
  by_cases hji : j = i
  · subst hji
    rw [Function.update_self, Function.update_self]
  · rw [Function.update_of_ne hji, Function.update_of_ne hji]
    exact hp.calls j hj

theorem Shares.update_other (hp : Shares T owners u p p') {i : ι} (hi : owners i ≠ u)
    (x : Proc κ) : ∀ j, owners j = u → p'.calls j = Function.update p.calls i x j := by
  intro j hj
  have hji : j ≠ i := fun heq => hi (heq ▸ hj)
  rw [Function.update_of_ne hji]
  exact hp.calls j hj

variable [DecidableEq τ]

/-- A move that concerns the tenant is made on both sides. -/
theorem shares_own (h : T.Apart M G) (ho : ∀ i, T.owner (p.calls i).at' = owners i)
    (hp : Shares T owners u p p') (hm : T.concerns owners u m = true) (hG : Allowed G p m)
    (hs : p.step M m = some q) :
    ∃ q', Allowed G p' m ∧ p'.step M m = some q' ∧ Shares T owners u q q' := by
  cases m with
  | run i d =>
    obtain ⟨k, s, k', hk, hn, rfl⟩ := Pool.step_run hs
    have hi : owners i = u := of_decide_eq_true hm
    have hk' : p'.calls i = .up k := (hp.calls i hi).trans hk
    have hown : T.owner k = u := by rw [← hi, ← ho i, hk, Proc.at'_up]
    obtain ⟨hG', t', hn', hsees⟩ := h.own u _ _ k d s k' hp.sees hown (hG.of_up hk) hn
    refine ⟨_, ?_, Pool.step_of_next hk' hn', hsees, hp.update i (.up k')⟩
    show (p'.calls i).Keeps fun k => G p'.store k d
    rw [hk']
    exact hG'
  | crash i =>
    obtain ⟨k, hk, rfl⟩ := Pool.step_crash hs
    have hi : owners i = u := of_decide_eq_true hm
    have hk' : p'.calls i = .up k := (hp.calls i hi).trans hk
    refine ⟨⟨p'.store, Function.update p'.calls i (.down k)⟩, trivial, ?_, hp.sees,
      hp.update i (.down k)⟩
    rw [Pool.step, hk']
  | env e =>
    obtain rfl := Option.some.inj hs
    refine ⟨⟨M.env p'.store e, p'.calls⟩, trivial, rfl, ?_, hp.calls⟩
    refine h.env_own u _ _ e hp.sees fun v hv => ?_
    have hall : (T.author e).all (· = u) = true := hm
    rw [hv] at hall
    exact of_decide_eq_true hall

/-- A move of another tenant is none on the side that leaves it out. -/
theorem shares_other (h : T.Apart M G) (ho : ∀ i, T.owner (p.calls i).at' = owners i)
    (hp : Shares T owners u p p') (hm : T.concerns owners u m = false) (hG : Allowed G p m)
    (hs : p.step M m = some q) : Shares T owners u q p' := by
  cases m with
  | run i d =>
    obtain ⟨k, s, k', hk, hn, rfl⟩ := Pool.step_run hs
    have hi : owners i ≠ u := of_decide_eq_false hm
    have hother : T.owner k ≠ u := by
      rw [← ho i, hk] at hi
      exact hi
    exact ⟨h.other u _ _ k d s k' hp.sees hother (hG.of_up hk) hn, hp.update_other hi _⟩
  | crash i =>
    obtain ⟨k, hk, rfl⟩ := Pool.step_crash hs
    exact ⟨hp.sees, hp.update_other (of_decide_eq_false hm) _⟩
  | env e =>
    obtain rfl := Option.some.inj hs
    have hall : (T.author e).all (· = u) = false := hm
    cases hv : T.author e with
    | none =>
      rw [hv] at hall
      cases hall
    | some v =>
      rw [hv] at hall
      exact ⟨h.env_other u _ _ e v hp.sees hv (of_decide_eq_false hall), hp.calls⟩

/-- **The others can be left out**: the moves that concern a tenant can be made without the rest,
and lead its calls to where they were. -/
theorem Tenancy.Apart.purge {ms : List (Move ι δ ε)} (h : T.Apart M G)
    (hs : Steps (Pool.step M) (Allowed G) p ms q) (ho : ∀ i, T.owner (p.calls i).at' = owners i)
    (hp : Shares T owners u p p') :
    ∃ q', Steps (Pool.step M) (Allowed G) p' (ms.filter (T.concerns owners u)) q'
      ∧ Shares T owners u q q' := by
  induction hs generalizing p' with
  | nil p => exact ⟨p', .nil p', hp⟩
  | @cons p q r m ms hG hstep _ ih =>
    have ho' := owner_step h ho hstep
    cases hm : T.concerns owners u m with
    | true =>
      obtain ⟨q', hG', hstep', hq⟩ := shares_own h ho hp hm hG hstep
      obtain ⟨r', hsteps, hr⟩ := ih ho' hq
      refine ⟨r', ?_, hr⟩
      rw [List.filter_cons_of_pos hm]
      exact .cons hG' hstep' hsteps
    | false =>
      obtain ⟨r', hsteps, hr⟩ := ih ho' (shares_other h ho hp hm hG hstep)
      refine ⟨r', ?_, hr⟩
      rw [List.filter_cons_of_neg (Bool.eq_false_iff.mp hm)]
      exact hsteps

end Purge

/-! ## Side by side -/

section Beside

variable {σ₁ σ₂ κ₁ κ₂ δ₁ δ₂ ε₁ ε₂ : Type*}

/-- Two machines, each with a store of its own. -/
def Machine.beside (M₁ : Machine σ₁ κ₁ δ₁ ε₁) (M₂ : Machine σ₂ κ₂ δ₂ ε₂) :
    Machine (σ₁ × σ₂) (κ₁ ⊕ κ₂) (δ₁ × δ₂) (ε₁ ⊕ ε₂) where
  next s k d :=
    match k with
    | .inl k => (M₁.next s.1 k d.1).map fun x => ((x.1, s.2), .inl x.2)
    | .inr k => (M₂.next s.2 k d.2).map fun x => ((s.1, x.1), .inr x.2)
  env s
    | .inl e => (M₁.env s.1 e, s.2)
    | .inr e => (s.1, M₂.env s.2 e)

def besideGuard (G₁ : σ₁ → κ₁ → δ₁ → Prop) (G₂ : σ₂ → κ₂ → δ₂ → Prop) (s : σ₁ × σ₂) (k : κ₁ ⊕ κ₂)
    (d : δ₁ × δ₂) : Prop :=
  Sum.elim (fun k => G₁ s.1 k d.1) (fun k => G₂ s.2 k d.2) k

instance {G₁ : σ₁ → κ₁ → δ₁ → Prop} {G₂ : σ₂ → κ₂ → δ₂ → Prop} [∀ s k d, Decidable (G₁ s k d)]
    [∀ s k d, Decidable (G₂ s k d)] (s : σ₁ × σ₂) (k : κ₁ ⊕ κ₂) (d : δ₁ × δ₂) :
    Decidable (besideGuard G₁ G₂ s k d) :=
  match k with
  | .inl k => inferInstanceAs (Decidable (G₁ s.1 k d.1))
  | .inr k => inferInstanceAs (Decidable (G₂ s.2 k d.2))

namespace Tenancy

/-- Two systems with the same tenants, side by side. -/
def beside (T₁ : Tenancy σ₁ κ₁ ε₁ τ) (T₂ : Tenancy σ₂ κ₂ ε₂ τ) :
    Tenancy (σ₁ × σ₂) (κ₁ ⊕ κ₂) (ε₁ ⊕ ε₂) τ where
  owner := Sum.elim T₁.owner T₂.owner
  author := Sum.elim T₁.author T₂.author
  Sees u s t := T₁.Sees u s.1 t.1 ∧ T₂.Sees u s.2 t.2

variable {T₁ : Tenancy σ₁ κ₁ ε₁ τ} {T₂ : Tenancy σ₂ κ₂ ε₂ τ} {M₁ : Machine σ₁ κ₁ δ₁ ε₁}
  {M₂ : Machine σ₂ κ₂ δ₂ ε₂} {G₁ : σ₁ → κ₁ → δ₁ → Prop} {G₂ : σ₂ → κ₂ → δ₂ → Prop}

/-- **Tenants that both machines keep apart** are kept apart by the two. -/
theorem Apart.beside (h₁ : T₁.Apart M₁ G₁) (h₂ : T₂.Apart M₂ G₂) :
    (T₁.beside T₂).Apart (M₁.beside M₂) (besideGuard G₁ G₂) where
  owner_next := by
    intro s k d s' k' h
    cases k with
    | inl k =>
      obtain ⟨x, hx, heq⟩ := Option.map_eq_some_iff.mp h
      obtain ⟨-, rfl⟩ := Prod.mk.inj heq
      exact h₁.owner_next _ _ _ _ _ hx
    | inr k =>
      obtain ⟨x, hx, heq⟩ := Option.map_eq_some_iff.mp h
      obtain ⟨-, rfl⟩ := Prod.mk.inj heq
      exact h₂.owner_next _ _ _ _ _ hx
  own := by
    rintro u s t k d s' k' ⟨hs₁, hs₂⟩ ho hG h
    cases k with
    | inl k =>
      obtain ⟨x, hx, heq⟩ := Option.map_eq_some_iff.mp h
      obtain ⟨rfl, rfl⟩ := Prod.mk.inj heq
      obtain ⟨hG', t', ht', hsees⟩ := h₁.own u _ _ k d.1 _ _ hs₁ ho hG hx
      refine ⟨hG', (t', t.2), ?_, hsees, hs₂⟩
      exact Option.map_eq_some_iff.mpr ⟨(t', x.2), ht', rfl⟩
    | inr k =>
      obtain ⟨x, hx, heq⟩ := Option.map_eq_some_iff.mp h
      obtain ⟨rfl, rfl⟩ := Prod.mk.inj heq
      obtain ⟨hG', t', ht', hsees⟩ := h₂.own u _ _ k d.2 _ _ hs₂ ho hG hx
      refine ⟨hG', (t.1, t'), ?_, hs₁, hsees⟩
      exact Option.map_eq_some_iff.mpr ⟨(t', x.2), ht', rfl⟩
  other := by
    rintro u s t k d s' k' ⟨hs₁, hs₂⟩ ho hG h
    cases k with
    | inl k =>
      obtain ⟨x, hx, heq⟩ := Option.map_eq_some_iff.mp h
      obtain ⟨rfl, rfl⟩ := Prod.mk.inj heq
      exact ⟨h₁.other u _ _ k d.1 _ _ hs₁ ho hG hx, hs₂⟩
    | inr k =>
      obtain ⟨x, hx, heq⟩ := Option.map_eq_some_iff.mp h
      obtain ⟨rfl, rfl⟩ := Prod.mk.inj heq
      exact ⟨hs₁, h₂.other u _ _ k d.2 _ _ hs₂ ho hG hx⟩
  env_own := by
    rintro u s t (e | e) ⟨hs₁, hs₂⟩ hv
    · exact ⟨h₁.env_own u _ _ e hs₁ hv, hs₂⟩
    · exact ⟨hs₁, h₂.env_own u _ _ e hs₂ hv⟩
  env_other := by
    rintro u s t (e | e) v ⟨hs₁, hs₂⟩ hv hne
    · exact ⟨h₁.env_other u _ _ e v hs₁ hv hne, hs₂⟩
    · exact ⟨hs₁, h₂.env_other u _ _ e v hs₂ hv hne⟩

end Tenancy

end Beside

/-! ## Rows that carry the name of a tenant -/

section Part

variable {α : Type*} {l l' : List α} {p q : α → Bool}

/-- Two lists with one part in common answer alike where the question keeps to the part. -/
theorem filter_of_part (h : l'.filter p = l.filter p) (hq : ∀ a, q a = true → p a = true) :
    l'.filter q = l.filter q := by
  have hpart : ∀ l : List α, (l.filter p).filter q = l.filter q := by
    intro l
    rw [List.filter_filter]
    refine List.filter_congr fun a _ => ?_
    cases hqa : q a with
    | false => rfl
    | true => rw [hq a hqa, Bool.and_self]
  rw [← hpart, h, hpart]

theorem find?_of_part (h : l'.filter p = l.filter p) (hq : ∀ a, q a = true → p a = true) :
    l'.find? q = l.find? q := by
  rw [← List.head?_filter, ← List.head?_filter, filter_of_part h hq]

end Part

/-- What a tenant sees of a table, it sees of the other, which has no further keys. -/
structure SeesRows {α κ τ : Type*} {key : α → κ} [DecidableEq τ] (tenant : α → τ) (u : τ)
    (t t' : Table key) : Prop where
  rows : t'.rows.filter (tenant · = u) = t.rows.filter (tenant · = u)
  keys : t'.rows.map key ⊆ t.rows.map key

namespace SeesRows

variable {α κ τ : Type*} {key : α → κ} [DecidableEq τ] {tenant : α → τ} {u : τ}
  {t t' s : Table key} {p : α → Bool} {f : α → α} {a : α}

theorem refl (t : Table key) : SeesRows tenant u t t := ⟨rfl, List.Subset.refl _⟩

/-- A SELECT that names the tenant. -/
theorem filter_eq (h : SeesRows tenant u t t') (hp : ∀ a, p a = true → tenant a = u) :
    t'.rows.filter p = t.rows.filter p :=
  filter_of_part h.rows fun a ha => decide_eq_true (hp a ha)

theorem find?_eq (h : SeesRows tenant u t t') (hp : ∀ a, p a = true → tenant a = u) :
    t'.rows.find? p = t.rows.find? p :=
  find?_of_part h.rows fun a ha => decide_eq_true (hp a ha)

theorem any_eq (h : SeesRows tenant u t t') (hp : ∀ a, p a = true → tenant a = u) :
    t'.rows.any p = t.rows.any p := by
  rw [Bool.eq_iff_iff, List.any_eq_true, List.any_eq_true, ← List.find?_isSome, ← List.find?_isSome,
    h.find?_eq hp]

/-- An UPDATE of the tenant's own. -/
theorem map_own (h : SeesRows tenant u t t') (hkey : ∀ a, key (f a) = key a)
    (htenant : ∀ a, tenant (f a) = tenant a) : SeesRows tenant u (t.map f hkey) (t'.map f hkey) where
  rows := by
    have hcomp : (fun a => decide (tenant a = u)) ∘ f = fun a => decide (tenant a = u) := by
      funext a
      simp only [Function.comp_apply, htenant]
    unfold Table.map
    rw [List.filter_map, List.filter_map, hcomp, h.rows]
  keys := by
    have hcomp : key ∘ f = key := funext hkey
    unfold Table.map
    rw [List.map_map, List.map_map, hcomp]
    exact h.keys

/-- An UPDATE of another tenant's. -/
theorem map_other (h : SeesRows tenant u t t') (hkey : ∀ a, key (f a) = key a)
    (htenant : ∀ a, tenant (f a) = tenant a) (hsame : ∀ a, tenant a = u → f a = a) :
    SeesRows tenant u (t.map f hkey) t' where
  rows := by
    have hcomp : (fun a => decide (tenant a = u)) ∘ f = fun a => decide (tenant a = u) := by
      funext a
      simp only [Function.comp_apply, htenant]
    have hid : ∀ a ∈ t.rows.filter (tenant · = u), f a = a := by
      intro a ha
      exact hsame a (of_decide_eq_true (List.mem_filter.mp ha).2)
    unfold Table.map
    rw [List.filter_map, hcomp, List.map_congr_left hid, List.map_id', h.rows]
  keys := by
    have hcomp : key ∘ f = key := funext hkey
    unfold Table.map
    rw [List.map_map, hcomp]
    exact h.keys

/-- An INSERT of another tenant's. -/
theorem insert_other [DecidableEq κ] (h : SeesRows tenant u t t') (ha : tenant a ≠ u)
    (hs : t.insert a = some s) : SeesRows tenant u s t' where
  rows := by
    rw [(Table.insert_eq_some hs).2, List.filter_cons_of_neg (by simpa using ha), h.rows]
  keys := by
    rw [(Table.insert_eq_some hs).2, List.map_cons]
    exact fun k hk => List.mem_cons_of_mem _ (h.keys hk)

/-- An INSERT of the tenant's own, under a key that is new. -/
theorem insert_own [DecidableEq κ] (h : SeesRows tenant u t t') (hs : t.insert a = some s) :
    ∃ s', t'.insert a = some s' ∧ SeesRows tenant u s s' := by
  cases hs' : t'.insert a with
  | none =>
    obtain ⟨b, hb⟩ := Table.find_of_insert_none hs'
    obtain ⟨hmem, hkey⟩ := Table.find_eq_some.mp hb
    obtain ⟨c, hc, hck⟩ := List.mem_map.mp (h.keys (List.mem_map_of_mem hmem))
    exact absurd (hck.trans hkey) (Table.find_eq_none.mp (Table.insert_eq_some hs).1 c hc)
  | some s' =>
    have hrows := (Table.insert_eq_some hs).2
    have hrows' := (Table.insert_eq_some hs').2
    refine ⟨s', rfl, ?_, ?_⟩
    · rw [hrows, hrows', List.filter_cons, List.filter_cons, h.rows]
    · rw [hrows, hrows', List.map_cons, List.map_cons]
      exact List.cons_subset_cons _ h.keys

/-- A key that is new to the first table is new to the second. -/
theorem find_none [DecidableEq κ] (h : SeesRows tenant u t t') {k : κ} (hk : t.find k = none) :
    t'.find k = none := by
  refine Table.find_eq_none.mpr fun a ha heq => ?_
  obtain ⟨b, hb, hkey⟩ := List.mem_map.mp (h.keys (List.mem_map_of_mem ha))
  exact Table.find_eq_none.mp hk b hb (hkey.trans heq)

end SeesRows

end Machinery

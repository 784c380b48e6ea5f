import WorkPlatform.FeatureFlag.Calls

/-!
# FeatureFlag/Settled — what `isEnabled` says once everybody has caught up

    HDEL ▸ mutated          nothing in L2, and no statement on the flag from here on
      ▸ reads over          what a call has of the database is the current row   (`Current`)
      ▸ a reload            what L2 has is the current row                       (`L2Right`)
      ▸ reads over          what a call has of L2 is the current row             (`Pc.Seen`)
      ▸ 5 seconds           what L1 has is the current row                       (`L1Right`)
      ▸ isEnabled           is the current row

A reload only adds entries.  A read that began before the flag was deleted writes it back to L2
after the invalidation, and there it stays (`deleted_flag_enabled`); where nobody writes a flag to
L2 that has no row, every instance catches up (`isEnabled_of_settled`).
-/

namespace WorkPlatform.FeatureFlag

open Machinery

variable {ι : Type*}

/-! ## The schedule -/

/-- The statement writes the flag to L2. -/
def Pc.Writes (key : String) (pc : Pc) : Prop := pc.writes.map Prod.fst = some key

/-- The statement reads the flag in the database. -/
def Pc.Loads (key : String) : Pc → Prop
  | .select r => r.flagKey = key
  | .loadFlagsIntoRedis => True
  | _ => False

/-- The call has begun to read the flag, and has not ended. -/
def Pc.Reads (key : String) : Pc → Prop
  | .hget r | .cached r _ | .select r | .loaded r _ | .hset r _ => r.flagKey = key
  | .pipeline _ => True
  | _ => False

instance (key : String) : DecidablePred (Pc.Writes key) := fun pc =>
  inferInstanceAs (Decidable (pc.writes.map Prod.fst = some key))

instance (s : Store) (key : String) : DecidablePred (Pc.Touches s key)
  | .createFlag _ data => inferInstanceAs (Decidable (data.key = key))
  | .updateFlag _ id _ | .deleteFlag _ id =>
    inferInstanceAs (Decidable ((s.primary.table.find id).map FlagRow.key = some key))
  | .isEnabled _ | .hget _ | .cached .. | .select _ | .loaded .. | .hset .. | .returned _
  | .loadFlagsIntoRedis | .pipeline _ | .reloaded | .invalidate .. | .hdel .. | .publish ..
  | .mutated _ | .threw => isFalse nofun

instance (key : String) : DecidablePred (Pc.Loads key)
  | .select r => inferInstanceAs (Decidable (r.flagKey = key))
  | .loadFlagsIntoRedis => isTrue trivial
  | .isEnabled _ | .hget _ | .cached .. | .loaded .. | .hset .. | .returned _ | .pipeline _
  | .reloaded | .createFlag .. | .updateFlag .. | .deleteFlag .. | .invalidate .. | .hdel ..
  | .publish .. | .mutated _ | .threw => isFalse nofun

instance (key : String) : DecidablePred (Pc.Reads key)
  | .hget r | .cached r _ | .select r | .loaded r _ | .hset r _ =>
    inferInstanceAs (Decidable (r.flagKey = key))
  | .pipeline _ => isTrue trivial
  | .isEnabled _ | .returned _ | .loadFlagsIntoRedis | .reloaded | .createFlag ..
  | .updateFlag .. | .deleteFlag .. | .invalidate .. | .hdel .. | .publish .. | .mutated _
  | .threw => isFalse nofun

/-- The statement is not on the flag, and does not write it to L2 while it has no row. -/
def Pc.Rests (s : Store) (key : String) (pc : Pc) : Prop :=
  ¬ pc.Touches s key ∧ (pc.Writes key → s.flag key ≠ none)

/-- Besides, it reads the flag as it is, and does not fail to read or write it. -/
def Pc.Answered (s : Store) (key : String) (d : Draw) (pc : Pc) : Prop :=
  pc.Rests s key ∧ (pc.Writes key ∨ pc.Loads key → d.failed = false)
    ∧ (pc.Loads key → s.replica.value key = s.flag key)

instance (s : Store) (key : String) : DecidablePred (Pc.Rests s key) := fun pc =>
  inferInstanceAs (Decidable (¬ pc.Touches s key ∧ (pc.Writes key → s.flag key ≠ none)))

instance (s : Store) (key : String) (d : Draw) : DecidablePred (Pc.Answered s key d) := fun pc =>
  inferInstanceAs (Decidable (pc.Rests s key ∧ (pc.Writes key ∨ pc.Loads key → d.failed = false)
    ∧ (pc.Loads key → s.replica.value key = s.flag key)))

/-- No statement is on the flag. -/
def Untouched (key : String) (p : Calls ι) : Move ι Draw Env → Prop
  | .run i _ => (p.calls i).Keeps fun pc => ¬ pc.Touches p.store key
  | _ => True

/-- Besides, nobody writes it to L2 while it has no row. -/
def Rests (key : String) (p : Calls ι) : Move ι Draw Env → Prop
  | .run i _ => (p.calls i).Keeps (Pc.Rests p.store key)
  | _ => True

/-- Besides, it is read as it is, and what reads and writes it does not fail. -/
def Answered (key : String) (p : Calls ι) : Move ι Draw Env → Prop
  | .run i d => (p.calls i).Keeps (Pc.Answered p.store key d)
  | _ => True

instance (key : String) (p : Calls ι) : ∀ m : Move ι Draw Env, Decidable (Untouched key p m)
  | .run i _ => inferInstanceAs (Decidable ((p.calls i).Keeps fun pc => ¬ pc.Touches p.store key))
  | .crash _ | .env _ => inferInstanceAs (Decidable True)

instance (key : String) (p : Calls ι) : ∀ m : Move ι Draw Env, Decidable (Rests key p m)
  | .run i _ => inferInstanceAs (Decidable ((p.calls i).Keeps (Pc.Rests p.store key)))
  | .crash _ | .env _ => inferInstanceAs (Decidable True)

instance (key : String) (p : Calls ι) : ∀ m : Move ι Draw Env, Decidable (Answered key p m)
  | .run i d => inferInstanceAs (Decidable ((p.calls i).Keeps (Pc.Answered p.store key d)))
  | .crash _ | .env _ => inferInstanceAs (Decidable True)

theorem Answered.rests {key : String} {p : Calls ι} :
    ∀ {m : Move ι Draw Env}, Answered key p m → Rests key p m
  | .run _ _, h => h.imp fun _ => And.left
  | .crash _, _ | .env _, _ => trivial

/-- The reads of the flag that were on their way have ended. -/
def Over (key : String) (p q : Calls ι) : Prop :=
  ∀ j, (p.calls j).Live (Pc.Reads key) → ¬ (q.calls j).Live (Pc.Reads key)

/-- A reload has begun, and has ended. -/
def Reloaded (p q : Calls ι) : Prop :=
  ∃ k, (p.calls k).at' = .loadFlagsIntoRedis ∧ (q.calls k).at' = .reloaded

variable [DecidableEq ι]

/-- A mutation of the flag has returned.  Before it took the flag out of L2 anything may have
happened; since, the schedule was one of `G`. -/
inductive Mutated (G : String → Calls ι → Move ι Draw Env → Prop) (key : String) (p : Calls ι) :
    Prop
  | intro {start a b : Calls ι} {i : ι} {d : Draw} {row : Option FlagRow}
      (hstart : ∀ inst k, start.store.l1 inst k = none)
      (hrun : Run (Pool.step flagMachine) anyStep start a)
      (hpc : a.calls i = .up (.hdel key row)) (hanswer : d.failed = false)
      (hdel : a.step flagMachine (.run i d) = some b)
      (hrest : Run (Pool.step flagMachine) (G key) b p)
      (hreturned : (p.calls i).at' = .mutated row)

/-- A mutation of the flag has returned, the reads that had begun before have ended, a reload has
come and gone, the reads from before its end have ended, and the entries they made in L1 have
expired. -/
inductive Settled (G G' : String → Calls ι → Move ι Draw Env → Prop) (key : String) (p : Calls ι) :
    Prop
  | intro {r p₀ p₁ p₂ : Calls ι} (hmutated : Mutated G key r)
      (h₀ : Run (Pool.step flagMachine) (G' key) r p₀) (hover₀ : Over key r p₀)
      (h₁ : Run (Pool.step flagMachine) (G' key) p₀ p₁) (hreloaded : Reloaded p₀ p₁)
      (h₂ : Run (Pool.step flagMachine) (G' key) p₁ p₂) (hover₁ : Over key p₁ p₂)
      (h₃ : Run (Pool.step flagMachine) (G' key) p₂ p)
      (hexpired : p₂.store.now + l1TtlMs ≤ p.store.now)

/-! ## What a call holds -/

variable {key : String} {f : Option FlagValue} {s s' : Store} {pc pc' : Pc} {d : Draw}

/-- What the call has of the database is the row `f`. -/
def Pc.Current (key : String) (f : Option FlagValue) : Pc → Prop
  | .loaded r flag => r.flagKey = key → flag = f
  | .hset r flag => r.flagKey = key → some flag = f
  | .pipeline rows => ∀ flag, (key, flag) ∈ rows → some flag = f
  | _ => True

/-- What the call has of L2 is the row `f`. -/
def Pc.Seen (key : String) (f : Option FlagValue) : Pc → Prop
  | .cached r flag => r.flagKey = key → some flag = f
  | _ => True

/-- What L2 has is the row `f`. -/
def L2Right (key : String) (f : Option FlagValue) (s : Store) : Prop :=
  ∀ flag, s.l2 key = some flag → some flag = f

/-- What L1 has after the time `t` is the row `f`. -/
def L1Right (key : String) (f : Option FlagValue) (t : ℕ) (s : Store) : Prop :=
  ∀ inst orgId e, s.l1 inst (orgId, key) = some e → e.expiresAt ≤ t ∨ e.value = resolved f orgId

theorem current_of_not_reads : ∀ {pc : Pc}, ¬ pc.Reads key → pc.Current key f
  | .loaded _ _, h | .hset _ _, h => fun hkey => absurd hkey h
  | .pipeline _, h => absurd trivial h
  | .isEnabled _, _ | .hget _, _ | .cached _ _, _ | .select _, _ | .returned _, _
  | .loadFlagsIntoRedis, _ | .reloaded, _ | .createFlag _ _, _ | .updateFlag _ _ _, _
  | .deleteFlag _ _, _ | .invalidate _ _ _, _ | .hdel _ _, _ | .publish _ _, _ | .mutated _, _
  | .threw, _ => trivial

theorem seen_of_not_reads : ∀ {pc : Pc}, ¬ pc.Reads key → pc.Seen key f
  | .cached _ _, h => fun hkey => absurd hkey h
  | .isEnabled _, _ | .hget _, _ | .loaded _ _, _ | .select _, _ | .hset _ _, _ | .returned _, _
  | .loadFlagsIntoRedis, _ | .pipeline _, _ | .reloaded, _ | .createFlag _ _, _
  | .updateFlag _ _ _, _ | .deleteFlag _ _, _ | .invalidate _ _ _, _ | .hdel _ _, _
  | .publish _ _, _ | .mutated _, _ | .threw, _ => trivial

/-- What a call that is current writes is the flag. -/
theorem Pc.Current.writes {flag : FlagValue} (h : pc.Current key f)
    (hw : pc.writes = some (key, flag)) : some flag = f := by
  unfold Pc.writes at hw
  split at hw
  case h_1 r flag' =>
    obtain ⟨rfl, rfl⟩ := Prod.mk.inj (Option.some.inj hw)
    exact h rfl
  case h_2 row rows =>
    obtain rfl := Option.some.inj hw
    exact h flag List.mem_cons_self
  case h_3 => cases hw

/-- What it fills a cache with is the flag resolved. -/
theorem Pc.Current.fills {r : Read} {value : Bool} (h : pc.Current key f) (hs : pc.Seen key f)
    (hfill : pc.fills = some (r, value)) (hkey : r.flagKey = key) :
    value = resolved f r.orgId := by
  unfold Pc.fills at hfill
  split at hfill
  case h_1 r' flag =>
    obtain ⟨rfl, rfl⟩ := Prod.mk.inj (Option.some.inj hfill)
    rw [← hs hkey]
    rfl
  case h_2 r' flag =>
    obtain ⟨rfl, rfl⟩ := Prod.mk.inj (Option.some.inj hfill)
    rw [← h hkey]
  case h_3 => cases hfill

theorem Pc.writes_of {flag : FlagValue} (h : pc.writes = some (key, flag)) : pc.Writes key :=
  congrArg (Option.map Prod.fst) h

/-- **A statement keeps what is current**, where the flag is read as it is. -/
theorem Pc.Current.next (h : pc.Current key f) (hf : s.flag key = f)
    (hloads : pc.Loads key → s.replica.value key = s.flag key)
    (hn : next s pc d = some (s', pc')) : pc'.Current key f := by
  have hfrom := from_of_next hn
  unfold Pc.Current
  split
  case h_1 r flag =>
    obtain ⟨rfl, rfl⟩ := hfrom
    intro hkey
    rw [hkey, hloads hkey, hf]
  case h_2 r flag =>
    obtain rfl : pc = .loaded r (some flag) := hfrom
    exact h
  case h_3 rows =>
    rcases hfrom with ⟨rfl, rfl⟩ | ⟨row, rfl⟩
    · intro flag hflag
      rw [← hf, ← hloads trivial]
      exact (Flags.mem_entries.mp hflag).symm
    · exact fun flag hflag => h flag (List.mem_cons_of_mem row hflag)
  case h_4 => trivial

/-- What a call has seen of the flag is right, statement by statement. -/
theorem Pc.Seen.next (hl2 : L2Right key f s) (hn : next s pc d = some (s', pc')) :
    pc'.Seen key f := by
  have hfrom := from_of_next hn
  unfold Pc.Seen
  split
  case h_1 r flag =>
    intro hkey
    exact hl2 flag (hkey ▸ hfrom.2)
  case h_2 => trivial

/-! ## What the store has -/

/-- The flag has the row `f`, L1 no entry for longer than its time, and L2 none without a row. -/
structure Resting (key : String) (f : Option FlagValue) (s : Store) : Prop where
  flag : s.flag key = f
  l1 : ∀ inst k e, s.l1 inst k = some e → e.expiresAt ≤ s.now + l1TtlMs
  l2 : f = none → s.l2 key = none

theorem l1_bounded_effect (h : ∀ inst k e, s.l1 inst k = some e → e.expiresAt ≤ s.now + l1TtlMs)
    (heffect : Effect s pc s') (inst : String) (k : String × String) (e : L1Entry)
    (he : s'.l1 inst k = some e) : e.expiresAt ≤ s'.now + l1TtlMs := by
  rw [now_of_effect heffect]
  rcases l1_of_effect heffect he with hold | ⟨r, -, -, -, hexpires⟩
  · exact h inst k e hold
  · exact hexpires.le

theorem l1_bounded_env (h : ∀ inst k e, s.l1 inst k = some e → e.expiresAt ≤ s.now + l1TtlMs)
    (e : Env) (inst : String) (k : String × String) (entry : L1Entry)
    (he : (env s e).l1 inst k = some entry) : entry.expiresAt ≤ (env s e).now + l1TtlMs :=
  (h inst k entry (env_l1 e he)).trans (Nat.add_le_add_right (now_le_env e) _)

/-- A flag at rest stays so, unless a statement writes it. -/
theorem Resting.effect (h : Resting key f s) (hrests : pc.Rests s key) (heffect : Effect s pc s') :
    Resting key f s' where
  flag := (flag_of_effect heffect hrests.1).trans h.flag
  l1 := l1_bounded_effect h.l1 heffect
  l2 := by
    intro hnone
    rw [Option.eq_none_iff_forall_ne_some]
    intro flag hflag
    rcases l2_of_effect heffect hflag with hold | hw
    · rw [h.l2 hnone] at hold
      cases hold
    · exact hrests.2 (Pc.writes_of hw) (h.flag.trans hnone)

theorem Resting.env (h : Resting key f s) (e : Env) : Resting key f (env s e) where
  flag := (env_flag e key).trans h.flag
  l1 := l1_bounded_env h.l1 e
  l2 := fun hnone => by rw [env_l2, h.l2 hnone]

theorem L2Right.effect (h : L2Right key f s) (hcurrent : pc.Current key f)
    (heffect : Effect s pc s') : L2Right key f s' := by
  intro flag hflag
  rcases l2_of_effect heffect hflag with hold | hw
  · exact h flag hold
  · exact hcurrent.writes hw

theorem L2Right.env (h : L2Right key f s) (e : Env) : L2Right key f (env s e) := by
  unfold L2Right
  rw [env_l2]
  exact h

theorem L1Right.effect {t : ℕ} (h : L1Right key f t s) (hcurrent : pc.Current key f)
    (hseen : pc.Seen key f) (heffect : Effect s pc s') : L1Right key f t s' := by
  intro inst orgId e he
  rcases l1_of_effect heffect he with hold | ⟨r, -, hk, hfill, -⟩
  · exact h inst orgId e hold
  · obtain ⟨rfl, hkey⟩ := Prod.mk.inj hk
    exact Or.inr (hcurrent.fills hseen hfill hkey)

theorem L1Right.env {t : ℕ} (h : L1Right key f t s) (e : Env) : L1Right key f t (env s e) :=
  fun inst orgId entry he => h inst orgId entry (env_l1 e he)

/-! ## Run by run -/

variable {p q r : Calls ι} {i : ι}

theorem resting_of_run (h : Run (Pool.step flagMachine) (Rests key) p q)
    (hp : Resting key f p.store) : Resting key f q.store := by
  refine Pool.invariant (I := fun p => Resting key f p.store) hp ?_ ?_ ?_ h
  · intro p i d pc s pc' hI hG hpc hn
    exact hI.effect (Proc.Keeps.of_up hG hpc) (effect_of_next hn)
  · exact fun p i pc hI _ _ => hI
  · exact fun p e hI _ => hI.env e

/-- **Once the old reads are over**, what a call has of the database is the current row. -/
theorem current_of_over (hr : Resting key f r.store)
    (h : Run (Pool.step flagMachine) (Answered key) r p) (hover : Over key r p) :
    ∀ j, (p.calls j).Keeps (Pc.Current key f) := by
  refine Pool.keeps_of_over (fun pc => current_of_not_reads) ?_ h hover
  intro t i d pc s pc' hrun hG hpc hcurrent hn
  have ht := resting_of_run (hrun.mono fun _ _ => Answered.rests) hr
  exact hcurrent.next ht.flag (Proc.Keeps.of_up hG hpc).2.2 hn

/-- What every state keeps once the old reads are over. -/
structure Caught (key : String) (f : Option FlagValue) (p : Calls ι) : Prop where
  resting : Resting key f p.store
  current : ∀ j, (p.calls j).Keeps (Pc.Current key f)

theorem Caught.run {pc pc' : Pc} (h : Caught key f p) (hG : pc.Answered p.store key d)
    (hpc : p.calls i = .up pc) (hn : next p.store pc d = some (s, pc')) :
    Caught key f ⟨s, Function.update p.calls i (.up pc')⟩ :=
  ⟨h.resting.effect hG.1 (effect_of_next hn),
    keeps_update_up (((h.current i).of_up hpc).next h.resting.flag hG.2.2 hn)
      fun j _ => h.current j⟩

theorem Caught.crash {pc : Pc} (h : Caught key f p) :
    Caught key f ⟨p.store, Function.update p.calls i (.down pc)⟩ :=
  ⟨h.resting, keeps_update_down h.current⟩

omit [DecidableEq ι] in
theorem Caught.env (h : Caught key f p) (e : Env) : Caught key f ⟨env p.store e, p.calls⟩ :=
  ⟨h.resting.env e, h.current⟩

/-! ### The reload -/

/-- How far the reload has got. -/
def Pc.Reloads (key : String) (f : Option FlagValue) (s : Store) : Pc → Prop
  | .pipeline rows => L2Right key f s ∨ ∃ flag, (key, flag) ∈ rows
  | .reloaded => L2Right key f s
  | _ => True

theorem Pc.Reloads.effect {other : Pc} (h : other.Reloads key f s) (hcurrent : pc.Current key f)
    (heffect : Effect s pc s') : other.Reloads key f s' := by
  cases other with
  | pipeline rows => exact h.imp_left fun hl2 => hl2.effect hcurrent heffect
  | reloaded => exact L2Right.effect h hcurrent heffect
  | _ => trivial

theorem Pc.Reloads.env {other : Pc} (h : other.Reloads key f s) (e : Env) :
    other.Reloads key f (env s e) := by
  cases other with
  | pipeline rows => exact h.imp_left fun hl2 => hl2.env e
  | reloaded => exact L2Right.env h e
  | _ => trivial

/-- **A reload puts the row into L2**, if there is one. -/
theorem Pc.Reloads.next (h : pc.Reloads key f s) (hresting : Resting key f s)
    (hcurrent : pc.Current key f) (hG : pc.Answered s key d)
    (hn : next s pc d = some (s', pc')) : pc'.Reloads key f s' := by
  have hfrom := from_of_next hn
  have heffect := effect_of_next hn
  unfold Pc.Reloads
  split
  case h_1 rows =>
    rcases hfrom with ⟨rfl, rfl⟩ | ⟨⟨key', flag⟩, rfl⟩
    · cases f with
      | none =>
        have hl2 : L2Right key none s := fun flag hflag => by
          rw [hresting.l2 rfl] at hflag
          cases hflag
        exact Or.inl (hl2.effect hcurrent heffect)
      | some flag =>
        refine Or.inr ⟨flag, Flags.mem_entries.mpr ?_⟩
        rw [hG.2.2 trivial]
        exact hresting.flag
    · rcases h with hl2 | ⟨flag', hin⟩
      · exact Or.inl (hl2.effect hcurrent heffect)
      · rcases List.mem_cons.mp hin with heq | hin
        · obtain ⟨rfl, rfl⟩ := Prod.mk.inj heq
          have hanswer : d.failed = false := hG.2.1 (Or.inl rfl)
          obtain ⟨rfl, -⟩ := Prod.mk.inj (Option.some.inj hn)
          rw [hanswer]
          refine Or.inl fun flag hflag => ?_
          have hset : (s.hset key flag').l2 key = some flag' := Function.update_self _ _ _
          rw [if_neg Bool.false_ne_true, hset] at hflag
          rw [← Option.some.inj hflag]
          exact hcurrent flag' List.mem_cons_self
        · exact Or.inr ⟨flag', hin⟩
  case h_2 =>
    obtain rfl : pc = .pipeline [] := hfrom
    have hl2 : L2Right key f s := h.resolve_right (by rintro ⟨_, ⟨⟩⟩)
    exact hl2.effect hcurrent heffect
  case h_3 => trivial

/-- **Once a reload has come and gone**, what L2 has is the current row. -/
theorem l2Right_of_reloaded (hp : Caught key f p)
    (h : Run (Pool.step flagMachine) (Answered key) p q) (hreloaded : Reloaded p q) :
    Caught key f q ∧ L2Right key f q.store := by
  obtain ⟨k, hbegun, hended⟩ := hreloaded
  have hend : Caught key f q ∧ (q.calls k).at'.Reloads key f q.store := by
    refine Pool.invariant (I := fun p => Caught key f p ∧ (p.calls k).at'.Reloads key f p.store)
      ⟨hp, by rw [hbegun]; trivial⟩ ?_ ?_ ?_ h
    · rintro p i d pc s pc' ⟨hcaught, hreloads⟩ hG hpc hn
      have hG : pc.Answered p.store key d := Proc.Keeps.of_up hG hpc
      have hcurrent := (hcaught.current i).of_up hpc
      refine ⟨hcaught.run hG hpc hn, ?_⟩
      dsimp only
      by_cases hk : k = i
      · rw [hk, hpc] at hreloads
        rw [hk, at'_update_self]
        exact hreloads.next hcaught.resting hcurrent hG hn
      · rw [at'_update_of_ne hk]
        exact hreloads.effect hcurrent (effect_of_next hn)
    · rintro p i pc ⟨hcaught, hreloads⟩ - hpc
      refine ⟨hcaught.crash, ?_⟩
      rw [at'_update_down hpc]
      exact hreloads
    · rintro p e ⟨hcaught, hreloads⟩ -
      exact ⟨hcaught.env e, hreloads.env e⟩
  refine ⟨hend.1, ?_⟩
  have hreloads := hend.2
  rw [hended] at hreloads
  exact hreloads

/-! ### Reads of L2 -/

/-- Once L2 is refilled, it stays right in such a run. -/
theorem refilled_of_run (hp : Caught key f p ∧ L2Right key f p.store)
    (h : Run (Pool.step flagMachine) (Answered key) p q) :
    Caught key f q ∧ L2Right key f q.store := by
  refine Pool.invariant (I := fun p => Caught key f p ∧ L2Right key f p.store) hp ?_ ?_ ?_ h
  · rintro p i d pc s pc' ⟨hcaught, hl2⟩ hG hpc hn
    exact ⟨hcaught.run (Proc.Keeps.of_up hG hpc) hpc hn,
      hl2.effect ((hcaught.current i).of_up hpc) (effect_of_next hn)⟩
  · rintro p i pc ⟨hcaught, hl2⟩ - -
    exact ⟨hcaught.crash, hl2⟩
  · rintro p e ⟨hcaught, hl2⟩ -
    exact ⟨hcaught.env e, hl2.env e⟩

/-- **Once the reads from before are over**, what a call has of L2 is the current row. -/
theorem seen_of_over (hr : Caught key f r ∧ L2Right key f r.store)
    (h : Run (Pool.step flagMachine) (Answered key) r p) (hover : Over key r p) :
    ∀ j, (p.calls j).Keeps (Pc.Seen key f) := by
  refine Pool.keeps_of_over (fun pc => seen_of_not_reads) ?_ h hover
  intro t i d pc s pc' hrun hG hpc hseen hn
  exact Pc.Seen.next (refilled_of_run hr hrun).2 hn

/-! ### Reads of L1 -/

/-- What every state keeps once the reload and the reads from before are over: whoever fills a
cache fills it with the current row. -/
structure Filling (key : String) (f : Option FlagValue) (t : ℕ) (p : Calls ι) : Prop
    extends Caught key f p where
  l2 : L2Right key f p.store
  seen : ∀ j, (p.calls j).Keeps (Pc.Seen key f)
  l1 : L1Right key f t p.store

/-- Whoever fills a cache goes on filling it with the current row. -/
theorem filling_of_run {t : ℕ} (hp : Filling key f t p)
    (h : Run (Pool.step flagMachine) (Answered key) p q) : Filling key f t q := by
  refine Pool.invariant (I := Filling key f t) hp ?_ ?_ ?_ h
  · intro p i d pc s pc' hI hG hpc hn
    have hcurrent := (hI.current i).of_up hpc
    have heffect := effect_of_next hn
    exact ⟨hI.toCaught.run (Proc.Keeps.of_up hG hpc) hpc hn, hI.l2.effect hcurrent heffect,
      keeps_update_up (Pc.Seen.next hI.l2 hn) fun j _ => hI.seen j,
      hI.l1.effect hcurrent ((hI.seen i).of_up hpc) heffect⟩
  · intro p i pc hI _ _
    exact ⟨hI.toCaught.crash, hI.l2, keeps_update_down hI.seen, hI.l1⟩
  · intro p e hI _
    exact ⟨hI.toCaught.env e, hI.l2.env e, hI.seen, hI.l1.env e⟩

/-! ### The read -/

/-- How far the read has got. -/
def Pc.Answers (r : Read) (f : Option FlagValue) : Pc → Prop
  | .isEnabled r' | .hget r' | .cached r' _ | .select r' | .loaded r' _ | .hset r' _ => r' = r
  | .returned value => value = resolved f r.orgId
  | _ => False

theorem liveL1_eq_some {read : Read} {value : Bool} (h : s.liveL1 read = some value) :
    ∃ e, s.l1 read.inst (read.orgId, read.flagKey) = some e ∧ s.now < e.expiresAt
      ∧ e.value = value := by
  obtain ⟨e, he, hlive⟩ := Option.bind_eq_some_iff.mp h
  obtain ⟨hnow, heq⟩ := Option.ite_none_right_eq_some.mp hlive
  exact ⟨e, he, hnow, Option.some.inj heq⟩

/-- **A statement of the read** goes on with it, or returns what the row says. -/
theorem Pc.Answers.next {read : Read} {t : ℕ} (h : pc.Answers read f)
    (hl1 : L1Right read.flagKey f t s) (ht : t ≤ s.now) (hcurrent : pc.Current read.flagKey f)
    (hseen : pc.Seen read.flagKey f) (hG : pc.Answered s read.flagKey d)
    (hn : next s pc d = some (s', pc')) : pc'.Answers read f := by
  cases pc with
  | isEnabled r =>
    obtain rfl : r = read := h
    unfold FeatureFlag.next at hn
    dsimp only at hn
    split at hn <;> obtain ⟨-, rfl⟩ := Prod.mk.inj (Option.some.inj hn)
    case h_1 value hlive =>
      obtain ⟨e, he, hnow, rfl⟩ := liveL1_eq_some hlive
      exact (hl1 r.inst r.orgId e he).resolve_left fun hexpired =>
        absurd (hexpired.trans ht) (Nat.not_le.mpr hnow)
    case h_2 => exact rfl
  | hget r =>
    obtain rfl : r = read := h
    unfold FeatureFlag.next at hn
    dsimp only at hn
    split at hn <;> obtain ⟨-, rfl⟩ := Prod.mk.inj (Option.some.inj hn) <;> exact rfl
  | cached r flag =>
    obtain rfl : r = read := h
    obtain ⟨-, rfl⟩ := Prod.mk.inj (Option.some.inj hn)
    rw [← hseen rfl]
    exact rfl
  | select r =>
    obtain rfl : r = read := h
    have hanswer : d.failed = false := hG.2.1 (Or.inr rfl)
    unfold FeatureFlag.next at hn
    dsimp only at hn
    rw [hanswer] at hn
    obtain ⟨-, rfl⟩ := Prod.mk.inj (Option.some.inj hn)
    exact rfl
  | loaded r flag =>
    obtain rfl : r = read := h
    obtain rfl : flag = f := hcurrent rfl
    cases flag <;> obtain ⟨-, rfl⟩ := Prod.mk.inj (Option.some.inj hn) <;> exact rfl
  | hset r flag =>
    obtain rfl : r = read := h
    have hanswer : d.failed = false := hG.2.1 (Or.inl rfl)
    unfold FeatureFlag.next at hn
    dsimp only at hn
    rw [hanswer] at hn
    obtain ⟨-, rfl⟩ := Prod.mk.inj (Option.some.inj hn)
    rw [← hcurrent rfl]
    exact rfl
  | returned => cases hn
  | _ => exact h.elim

/-! ## Everybody catches up -/

/-- Where the last mutation of a flag is over, everything shows its value. -/
theorem resting_of_mutated (h : Mutated Rests key p) : ∃ f, Resting key f p.store := by
  obtain @⟨start, a, b, i, d, row, hstart, hrun, hpc, hanswer, hdel, hrest, -⟩ := h
  have hbounded : ∀ inst k e, a.store.l1 inst k = some e → e.expiresAt ≤ a.store.now + l1TtlMs := by
    refine Pool.invariant (I := fun p : Calls ι => ∀ inst k e, p.store.l1 inst k = some e →
      e.expiresAt ≤ p.store.now + l1TtlMs) ?_ ?_ ?_ ?_ hrun
    · intro inst k e he
      rw [hstart] at he
      cases he
    · intro p i d pc s pc' hI _ _ hn
      exact l1_bounded_effect hI (effect_of_next hn)
    · exact fun p i pc hI _ _ => hI
    · exact fun p e hI _ => l1_bounded_env hI e
  obtain ⟨pc, s, pc', hpc', hn, rfl⟩ := Pool.step_run hdel
  obtain rfl := Proc.up.inj (hpc.symm.trans hpc')
  have hn : next a.store (.hdel key row) d = some (s, pc') := hn
  unfold next at hn
  dsimp only at hn
  rw [hanswer] at hn
  obtain ⟨rfl, rfl⟩ := Prod.mk.inj (Option.some.inj hn)
  refine ⟨_, resting_of_run hrest ⟨rfl, hbounded, fun _ => ?_⟩⟩
  exact Function.update_self _ _ _

/-- Where a mutation has settled, whoever fills a cache fills it with the current row. -/
theorem filling_of_settled (h : Settled Rests Answered key p) :
    ∃ f t, Filling key f t p ∧ t ≤ p.store.now := by
  obtain @⟨r, p₀, p₁, p₂, hmutated, h₀, hover₀, h₁, hreloaded, h₂, hover₁, h₃, hexpired⟩ := h
  obtain ⟨f, hr⟩ := resting_of_mutated hmutated
  have hcaught : Caught key f p₀ :=
    ⟨resting_of_run (h₀.mono fun _ _ => Answered.rests) hr, current_of_over hr h₀ hover₀⟩
  have hp₁ := l2Right_of_reloaded hcaught h₁ hreloaded
  obtain ⟨hcaught₂, hl2⟩ := refilled_of_run hp₁ h₂
  have hfilling : Filling key f (p₂.store.now + l1TtlMs) p₂ :=
    ⟨hcaught₂, hl2, seen_of_over hp₁ h₂ hover₁, fun inst orgId e he =>
      Or.inl (hcaught₂.resting.l1 inst (orgId, key) e he)⟩
  exact ⟨f, _, filling_of_run hfilling h₃, hexpired⟩

/-- **Everybody catches up**: once a mutation of the flag has settled, `isEnabled` says on every
instance and for every organisation what the current row says. -/
theorem isEnabled_of_settled {j : ι} {read : Read} {value : Bool}
    (hsettled : Settled Rests Answered read.flagKey p)
    (h : Run (Pool.step flagMachine) (Answered read.flagKey) p q)
    (hcall : (p.calls j).at' = .isEnabled read) (hreturned : (q.calls j).at' = .returned value) :
    value = resolved (q.store.flag read.flagKey) read.orgId := by
  obtain ⟨f, t, hfilling, ht⟩ := filling_of_settled hsettled
  have hend : Filling read.flagKey f t q ∧ t ≤ q.store.now ∧ (q.calls j).at'.Answers read f := by
    refine Pool.invariant (I := fun p => Filling read.flagKey f t p ∧ t ≤ p.store.now
      ∧ (p.calls j).at'.Answers read f) ⟨hfilling, ht, by rw [hcall]; exact rfl⟩ ?_ ?_ ?_ h
    · rintro p i d pc s pc' ⟨hI, ht, hanswers⟩ hG hpc hn
      have hrun : Run (Pool.step flagMachine) (Answered read.flagKey) p
          ⟨s, Function.update p.calls i (.up pc')⟩ := .tail .refl hG (Pool.step_of_next hpc hn)
      refine ⟨filling_of_run hI hrun, ht.trans_eq (now_of_effect (effect_of_next hn)).symm, ?_⟩
      dsimp only
      by_cases hj : j = i
      · rw [hj, hpc] at hanswers
        rw [hj, at'_update_self]
        exact hanswers.next hI.l1 ht ((hI.current i).of_up hpc) ((hI.seen i).of_up hpc)
          (Proc.Keeps.of_up hG hpc) hn
      · rw [at'_update_of_ne hj]
        exact hanswers
    · rintro p i pc ⟨hI, ht, hanswers⟩ hG hpc
      have hcrash : p.step flagMachine (.crash i)
          = some ⟨p.store, Function.update p.calls i (.down pc)⟩ := by
        rw [Pool.step, hpc]
      refine ⟨filling_of_run hI (.tail .refl hG hcrash), ht, ?_⟩
      rw [at'_update_down hpc]
      exact hanswers
    · rintro p e ⟨hI, ht, hanswers⟩ hG
      exact ⟨filling_of_run hI (.tail .refl hG rfl), ht.trans (now_le_env e), hanswers⟩
  obtain ⟨hI, -, hanswers⟩ := hend
  rw [hreturned] at hanswers
  rw [hI.resting.flag]
  exact hanswers

/-! ## Schedules -/

instance [Fintype ι] (key : String) (p q : Calls ι) : Decidable (Over key p q) :=
  inferInstanceAs (Decidable (∀ j, (p.calls j).Live (Pc.Reads key) →
    ¬ (q.calls j).Live (Pc.Reads key)))

instance [Fintype ι] (p q : Calls ι) : Decidable (Reloaded p q) :=
  inferInstanceAs (Decidable (∃ k, (p.calls k).at' = .loadFlagsIntoRedis
    ∧ (q.calls k).at' = .reloaded))

/-- A schedule, listed part by part. -/
theorem exists_settled [Fintype ι] (G G' : String → Calls ι → Move ι Draw Env → Prop)
    [∀ key p m, Decidable (G key p m)] [∀ key p m, Decidable (G' key p m)] (key : String)
    (start : Calls ι) (i : ι) (d : Draw) (row : Option FlagRow) (check : Calls ι → Bool)
    (m₀ m₁ m₂ m₃ m₄ m₅ : List (Move ι Draw Env))
    (hstart : ∀ inst k, start.store.l1 inst k = none) (hanswer : d.failed = false)
    (h : ((exec (Pool.step flagMachine) anyStep start m₀).any fun a =>
      a.calls i = .up (.hdel key row) ∧ (a.step flagMachine (.run i d)).any fun b =>
      (exec (Pool.step flagMachine) (G key) b m₁).any fun r => (r.calls i).at' = .mutated row ∧
      (exec (Pool.step flagMachine) (G' key) r m₂).any fun p₀ => Over key r p₀ ∧
      (exec (Pool.step flagMachine) (G' key) p₀ m₃).any fun p₁ => Reloaded p₀ p₁ ∧
      (exec (Pool.step flagMachine) (G' key) p₁ m₄).any fun p₂ => Over key p₁ p₂ ∧
      (exec (Pool.step flagMachine) (G' key) p₂ m₅).any fun p =>
        p₂.store.now + l1TtlMs ≤ p.store.now ∧ check p) = true) :
    ∃ p, Settled G G' key p ∧ check p = true := by
  obtain ⟨a, ha, h⟩ := exists_run_of_exec _ _ _ _ _ h
  obtain ⟨hpc, h⟩ := of_decide_eq_true h
  obtain ⟨b, hdel, h⟩ := (Option.any_eq_true _ _).mp h
  obtain ⟨r, hrest, h⟩ := exists_run_of_exec _ _ _ _ _ h
  obtain ⟨hreturned, h⟩ := of_decide_eq_true h
  obtain ⟨p₀, h₀, h⟩ := exists_run_of_exec _ _ _ _ _ h
  obtain ⟨hover₀, h⟩ := of_decide_eq_true h
  obtain ⟨p₁, h₁, h⟩ := exists_run_of_exec _ _ _ _ _ h
  obtain ⟨hreloaded, h⟩ := of_decide_eq_true h
  obtain ⟨p₂, h₂, h⟩ := exists_run_of_exec _ _ _ _ _ h
  obtain ⟨hover₁, h⟩ := of_decide_eq_true h
  obtain ⟨p, h₃, h⟩ := exists_run_of_exec _ _ _ _ _ h
  obtain ⟨hexpired, hcheck⟩ := of_decide_eq_true h
  exact ⟨p, ⟨⟨hstart, ha, hpc, hanswer, hdel, hrest, hreturned⟩, h₀, hover₀, h₁, hreloaded, h₂,
    hover₁, h₃, hexpired⟩, hcheck⟩

/-- One flag, that is on for everybody. -/
def demoFlags : Flags where
  table := ⟨[⟨"1", "beta", ⟨true, [], []⟩⟩], by decide⟩
  keys_nodup := by decide
  fits := by decide

/-- Nothing is cached, and the replica has caught up. -/
def demoStore : Store where
  now := 0
  primary := demoFlags
  replica := demoFlags
  behind := []
  l2 := fun _ => none
  l1 := fun _ _ => none
  published := []

/-- A read on one instance, a mutation on another, the reload, and a read on the other one. -/
def demoCalls (mutation : Pc) : Calls (Fin 4) where
  store := demoStore
  calls := fun i => .up <|
    if i = 0 then .isEnabled ⟨"a", "org", "beta"⟩
    else if i = 1 then mutation
    else if i = 2 then .loadFlagsIntoRedis
    else .isEnabled ⟨"b", "org", "beta"⟩

def drawn : Draw := ⟨"2", false⟩

/-- The flag is turned off while a call has read that it is on, and writes that to L2 afterwards. -/
theorem updated_flag_settles :
    ∃ p q value, Settled Rests Answered "beta" p
      ∧ Run (Pool.step flagMachine) (Answered "beta") p q
      ∧ (p.calls (3 : Fin 4)).at' = .isEnabled ⟨"b", "org", "beta"⟩
      ∧ (q.calls (3 : Fin 4)).at' = .returned value
      ∧ value = resolved (q.store.flag "beta") "org" := by
  obtain ⟨p, hsettled, hp⟩ := exists_settled Rests Answered "beta"
    (demoCalls (.updateFlag "b" "1" ⟨some false, none, none⟩)) 1 drawn
    (some ⟨"1", "beta", ⟨false, [], []⟩⟩)
    (fun p => (p.calls 3).at' = .isEnabled ⟨"b", "org", "beta"⟩
      ∧ (exec (Pool.step flagMachine) (Answered "beta") p
          [.run 3 drawn, .run 3 drawn, .run 3 drawn]).any
        fun q => (q.calls 3).at' = .returned false)
    [.run 0 drawn, .run 0 drawn, .run 0 drawn, .run 1 drawn, .run 1 drawn]
    [.run 1 drawn, .env .replicate, .env (.deliver "a" "beta")]
    [.run 0 drawn, .run 0 drawn]
    [.env (.tick 60000), .run 2 drawn, .run 2 drawn, .run 2 drawn]
    []
    [.env (.tick 5000)] (fun _ _ => rfl) rfl (by decide)
  obtain ⟨hcall, hq⟩ := of_decide_eq_true hp
  obtain ⟨q, hrun, hq⟩ := exists_run_of_exec _ _ _ _ _ hq
  have hreturned := of_decide_eq_true hq
  exact ⟨p, q, false, hsettled, hrun, hcall, hreturned,
    isEnabled_of_settled hsettled hrun hcall hreturned⟩

/-- **A deleted flag stays enabled**: a read that began before the flag was deleted writes it back
to L2, where no reload and no expiry takes it out. -/
theorem deleted_flag_enabled :
    ∃ p q, Settled Untouched Untouched "beta" p
      ∧ Run (Pool.step flagMachine) (Untouched "beta") p q
      ∧ (p.calls (3 : Fin 4)).at' = .isEnabled ⟨"b", "org", "beta"⟩
      ∧ (q.calls (3 : Fin 4)).at' = .returned true
      ∧ resolved (q.store.flag "beta") "org" = false := by
  obtain ⟨p, hsettled, hp⟩ := exists_settled Untouched Untouched "beta"
    (demoCalls (.deleteFlag "b" "1")) 1 drawn none
    (fun p => (p.calls 3).at' = .isEnabled ⟨"b", "org", "beta"⟩
      ∧ (exec (Pool.step flagMachine) (Untouched "beta") p
          [.run 3 drawn, .run 3 drawn, .run 3 drawn]).any
        fun q => (q.calls 3).at' = .returned true ∧ resolved (q.store.flag "beta") "org" = false)
    [.run 0 drawn, .run 0 drawn, .run 0 drawn, .run 1 drawn, .run 1 drawn]
    [.run 1 drawn, .env .replicate, .env (.deliver "a" "beta")]
    [.run 0 drawn, .run 0 drawn]
    [.env (.tick 60000), .run 2 drawn, .run 2 drawn]
    []
    [.env (.tick 5000)] (fun _ _ => rfl) rfl (by decide)
  obtain ⟨hcall, hq⟩ := of_decide_eq_true hp
  obtain ⟨q, hrun, hq⟩ := exists_run_of_exec _ _ _ _ _ hq
  obtain ⟨hreturned, hoff⟩ := of_decide_eq_true hq
  exact ⟨p, q, hsettled, hrun, hcall, hreturned, hoff⟩

end WorkPlatform.FeatureFlag

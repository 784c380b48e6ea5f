import Mathlib.Data.List.Nodup
import WorkPlatform.Machinery.Table

/-!
# Machinery/Forest — rows that name their parents

    a ──parent──▸ b ──parent──▸ c                 depth  2 ▸ 1 ▸ 0

Rows of a table, each with the key of its parent or none, a group it belongs to and a depth on
record.  Where every row is one deeper than its parent, in its parent's group (`Rooted`), the chain
of parents of a row ends, stays in the group and is as long as the row is deep (`Rooted.chain`); no
row is deeper than there are rows below it (`Rooted.depth_lt`).
-/

namespace Machinery

namespace Table

variable {α κ γ : Type*} {key : α → κ} [DecidableEq κ]

/-- The chain of parents from the row is `n` long, and stays in the row's group. -/
inductive Chain (t : Table key) (parent : α → Option κ) (group : α → γ) : α → ℕ → Prop
  | root {a : α} (h : parent a = none) : Chain t parent group a 0
  | child {a b : α} {k : κ} {n : ℕ} (h : parent a = some k) (hb : t.find k = some b)
      (hg : group b = group a) (hc : Chain t parent group b n) : Chain t parent group a (n + 1)

/-- The row is one deeper than its parent, and in its group. -/
def Below (t : Table key) (parent : α → Option κ) (group : α → γ) (depth : α → ℕ) (a : α) : Prop :=
  match parent a with
  | none => depth a = 0
  | some k => ∃ b, t.find k = some b ∧ group b = group a ∧ depth a = depth b + 1

/-- Every row is one deeper than its parent, and in its group. -/
def Rooted (t : Table key) (parent : α → Option κ) (group : α → γ) (depth : α → ℕ) : Prop :=
  ∀ a ∈ t.rows, t.Below parent group depth a

variable {t t' : Table key} {parent : α → Option κ} {group : α → γ} {depth : α → ℕ} {a b : α} {k : κ}
  {f : α → α}

theorem Below.of_parent (h : t.Below parent group depth a) (hk : parent a = some k) :
    ∃ b, t.find k = some b ∧ group b = group a ∧ depth a = depth b + 1 := by
  unfold Below at h
  rw [hk] at h
  exact h

theorem below_of_none (hk : parent a = none) (hd : depth a = 0) :
    t.Below parent group depth a := by
  unfold Below
  rw [hk]
  exact hd

theorem below_of_some (hk : parent a = some k) (hb : t.find k = some b) (hg : group b = group a)
    (hd : depth a = depth b + 1) : t.Below parent group depth a := by
  unfold Below
  rw [hk]
  exact ⟨b, hb, hg, hd⟩

/-! ## Chains -/

/-- From every node the parents lead to a root, in as many steps as its depth. -/
theorem Rooted.chain (h : t.Rooted parent group depth) (ha : a ∈ t.rows) :
    t.Chain parent group a (depth a) := by
  generalize hn : depth a = n
  induction n generalizing a with
  | zero =>
    cases hk : parent a with
    | none => exact .root hk
    | some k =>
      obtain ⟨b, -, -, hd⟩ := (h a ha).of_parent hk
      omega
  | succ n ih =>
    cases hk : parent a with
    | none =>
      have hzero := h a ha
      unfold Below at hzero
      rw [hk] at hzero
      omega
    | some k =>
      obtain ⟨b, hb, hg, hd⟩ := (h a ha).of_parent hk
      exact .child hk hb hg (ih (find_eq_some.mp hb).1 (by omega))

/-- The chain from a node to its root has one length. -/
theorem Chain.length_eq {m n : ℕ} (h : t.Chain parent group a n)
    (h' : t.Chain parent group a m) : n = m := by
  induction h generalizing m with
  | root hk =>
    cases h' with
    | root _ => rfl
    | child hk' _ _ _ => rw [hk] at hk'; cases hk'
  | child hk hb _ _ ih =>
    cases h' with
    | root hk' => rw [hk] at hk'; cases hk'
    | child hk' hb' _ hc' =>
      obtain rfl := Option.some.inj (hk.symm.trans hk')
      obtain rfl := Option.some.inj (hb.symm.trans hb')
      rw [ih hc']

/-- Where from every row the parents lead to a root in as many steps as its depth, the rows are
rooted. -/
theorem rooted_of_chain (h : ∀ a ∈ t.rows, t.Chain parent group a (depth a)) :
    t.Rooted parent group depth := by
  intro a ha
  have hchain := h a ha
  generalize hd : depth a = n at hchain
  cases hchain with
  | root hk => exact below_of_none hk hd
  | child hk hb hg hc =>
    refine below_of_some hk hb hg ?_
    rw [hd, hc.length_eq (h _ (find_eq_some.mp hb).1)]

/-- Every lesser depth is that of some row. -/
theorem Rooted.exists_depth (h : t.Rooted parent group depth) {n : ℕ} (ha : a ∈ t.rows)
    (hn : n ≤ depth a) : ∃ b ∈ t.rows, depth b = n := by
  have hchain := h.chain ha
  generalize hm : depth a = m at hchain
  induction hchain with
  | root _ => exact ⟨_, ha, by omega⟩
  | @child a b k m hk hb _ _ ih =>
    by_cases heq : n = depth a
    · exact ⟨a, ha, heq.symm⟩
    · obtain ⟨b', hb', -, hd⟩ := (h a ha).of_parent hk
      obtain rfl := Option.some.inj (hb.symm.trans hb')
      exact ih (find_eq_some.mp hb).1 (by omega) (by omega)

/-- No row is as deep as there are rows. -/
theorem Rooted.depth_lt (h : t.Rooted parent group depth) (ha : a ∈ t.rows) :
    depth a < t.rows.length := by
  have hsub : List.range (depth a + 1) ⊆ t.rows.map depth := by
    intro n hn
    obtain ⟨b, hb, rfl⟩ := h.exists_depth ha (Nat.le_of_lt_succ (List.mem_range.mp hn))
    exact List.mem_map_of_mem hb
  have hlength := (List.subperm_of_subset List.nodup_range hsub).length_le
  rw [List.length_range, List.length_map] at hlength
  exact hlength

/-! ## Writes -/

theorem find_of_insert (h : t.insert a = some t') (hb : t.find k = some b) :
    t'.find k = some b := by
  rw [find_insert h, if_neg]
  · exact hb
  · rintro rfl
    rw [(insert_eq_some h).1] at hb
    cases hb

/-- A row stays below its parent, as long as the parent is found. -/
theorem Below.mono (hfind : ∀ k b, t.find k = some b → t'.find k = some b)
    (h : t.Below parent group depth a) : t'.Below parent group depth a := by
  unfold Below at h ⊢
  split
  · rename_i hk
    rw [hk] at h
    exact h
  · rename_i k hk
    rw [hk] at h
    obtain ⟨b, hb, hg, hd⟩ := h
    exact ⟨b, hfind k b hb, hg, hd⟩

theorem Rooted.insert (h : t.Rooted parent group depth) (hins : t.insert a = some t')
    (ha : t.Below parent group depth a) : t'.Rooted parent group depth := by
  intro b hb
  have hmono : ∀ k b, t.find k = some b → t'.find k = some b := fun k b => find_of_insert hins
  rw [(insert_eq_some hins).2] at hb
  rcases List.mem_cons.mp hb with rfl | hb
  · exact ha.mono hmono
  · exact (h b hb).mono hmono

/-- A change that keeps a row's place keeps it below its parent. -/
theorem Below.map (hf : ∀ a, key (f a) = key a) (hparent : ∀ a, parent (f a) = parent a)
    (hgroup : ∀ a, group (f a) = group a) (hdepth : ∀ a, depth (f a) = depth a)
    (h : t.Below parent group depth a) : (t.map f hf).Below parent group depth (f a) := by
  cases hk : parent a with
  | none =>
    unfold Below at h
    rw [hk] at h
    exact below_of_none ((hparent a).trans hk) ((hdepth a).trans h)
  | some k =>
    obtain ⟨b, hb, hg, hd⟩ := h.of_parent hk
    have hfind : (t.map f hf).find k = some (f b) := by rw [find_map, hb, Option.map_some]
    refine below_of_some ((hparent a).trans hk) hfind ?_ ?_
    · rw [hgroup, hgroup, hg]
    · rw [hdepth, hdepth, hd]

theorem Rooted.map (hf : ∀ a, key (f a) = key a) (hparent : ∀ a, parent (f a) = parent a)
    (hgroup : ∀ a, group (f a) = group a) (hdepth : ∀ a, depth (f a) = depth a)
    (h : t.Rooted parent group depth) : (t.map f hf).Rooted parent group depth := by
  intro b hb
  obtain ⟨a, ha, rfl⟩ := List.mem_map.mp hb
  exact (h a ha).map hf hparent hgroup hdepth

end Table

end Machinery

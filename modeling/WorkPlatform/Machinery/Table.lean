import Mathlib.Algebra.BigOperators.Group.List.Basic
import Mathlib.Algebra.Order.BigOperators.Group.List
import Mathlib.Algebra.Order.Group.Int
import Mathlib.Algebra.Ring.Int.Defs
import Mathlib.Data.List.Nodup

/-!
# Machinery/Table — rows with a primary key, and totals over them

    find k        SELECT … WHERE key = k
    map f         UPDATE … SET f
    update k f    UPDATE … SET f WHERE key = k
    insert a      INSERT, refused where the key is taken
    filter p      DELETE … WHERE NOT p

`total w` adds up the weights of the rows.  Where two weights differ on one row only, so do the
totals (`total_of_find`).
-/

namespace Machinery

/-- Rows with a primary key. -/
structure Table {α κ : Type*} (key : α → κ) where
  rows : List α
  keys_nodup : (rows.map key).Nodup

namespace Table

variable {α κ : Type*} {key : α → κ} {a b : α} {k : κ} {f : α → α}

def empty : Table key := ⟨[], List.nodup_nil⟩

variable [DecidableEq κ]

def find (t : Table key) (k : κ) : Option α := t.rows.find? (key · = k)

/-- Every row becomes what `f` makes of it; the new rows keep their keys. -/
def map (t : Table key) (f : α → α) (hf : ∀ a, key (f a) = key a) : Table key where
  rows := t.rows.map f
  keys_nodup := by
    have hkey : key ∘ f = key := funext hf
    rw [List.map_map, hkey]
    exact t.keys_nodup

theorem key_ite (hf : ∀ a, key (f a) = key a) (k : κ) (a : α) :
    key (if key a = k then f a else a) = key a := by
  split
  · exact hf a
  · rfl

def update (t : Table key) (k : κ) (f : α → α) (hf : ∀ a, key (f a) = key a) : Table key :=
  t.map (fun a => if key a = k then f a else a) (key_ite hf k)

def filter (t : Table key) (p : α → Bool) : Table key where
  rows := t.rows.filter p
  keys_nodup := (List.filter_sublist.map key).nodup t.keys_nodup

def insert (t : Table key) (a : α) : Option (Table key) :=
  if h : key a ∈ t.rows.map key then none
  else some ⟨a :: t.rows, List.nodup_cons.mpr ⟨h, t.keys_nodup⟩⟩

variable {t t' : Table key}

/-! ## Finding a row -/

theorem find_eq_none : t.find k = none ↔ ∀ a ∈ t.rows, key a ≠ k := by
  unfold find
  rw [List.find?_eq_none]
  exact forall₂_congr fun a _ => by rw [decide_eq_true_iff]

/-- A row is found under its key. -/
theorem find_eq_some : t.find k = some a ↔ a ∈ t.rows ∧ key a = k := by
  constructor
  · intro h
    exact ⟨List.mem_of_find?_eq_some h, by simpa using List.find?_some h⟩
  · rintro ⟨ha, rfl⟩
    cases hb : t.find (key a) with
    | none => exact absurd rfl (find_eq_none.mp hb a ha)
    | some b =>
      have hkey : key b = key a := by simpa using List.find?_some hb
      rw [List.inj_on_of_nodup_map t.keys_nodup (List.mem_of_find?_eq_some hb) ha hkey]

theorem find_key (ha : a ∈ t.rows) : t.find (key a) = some a := find_eq_some.mpr ⟨ha, rfl⟩

/-- The row with a key, and the rows with other keys. -/
theorem perm_of_find (h : t.find k = some a) :
    ∃ l, t.rows.Perm (a :: l) ∧ ∀ b ∈ l, b ∈ t.rows ∧ key b ≠ k := by
  obtain ⟨hmem, rfl⟩ := find_eq_some.mp h
  obtain ⟨l, r, hrows⟩ := List.append_of_mem hmem
  have hperm : t.rows.Perm (a :: (l ++ r)) := by
    rw [hrows]
    exact List.perm_middle
  have hnodup := (hperm.map key).nodup_iff.mp t.keys_nodup
  rw [List.map_cons, List.nodup_cons] at hnodup
  refine ⟨l ++ r, hperm, fun b hb => ⟨?_, fun hkey => ?_⟩⟩
  · exact hperm.mem_iff.mpr (List.mem_cons_of_mem _ hb)
  · rw [← hkey] at hnodup
    exact hnodup.1 (List.mem_map_of_mem hb)

/-- A key is one row's. -/
theorem filter_of_find (h : t.find k = some a) : t.rows.filter (key · = k) = [a] := by
  obtain ⟨-, hkey⟩ := find_eq_some.mp h
  obtain ⟨l, hperm, hl⟩ := perm_of_find h
  have hnone : l.filter (key · = k) = [] :=
    List.filter_eq_nil_iff.mpr fun b hb => by simpa using (hl b hb).2
  have hfilter := hperm.filter (key · = k)
  rw [List.filter_cons_of_pos (by simpa using hkey), hnone] at hfilter
  exact List.perm_singleton.mp hfilter

theorem find_map (hf : ∀ a, key (f a) = key a) (k : κ) :
    (t.map f hf).find k = (t.find k).map f := by
  have hpred : (fun a => decide (key a = k)) ∘ f = fun a => decide (key a = k) := by
    funext a
    simp [hf]
  unfold find map
  rw [List.find?_map, hpred]

theorem find_update (hf : ∀ a, key (f a) = key a) (k' : κ) :
    (t.update k f hf).find k' = if k' = k then (t.find k').map f else t.find k' := by
  rw [update, find_map]
  cases ha : t.find k' with
  | none => simp
  | some a =>
    obtain ⟨-, rfl⟩ := find_eq_some.mp ha
    by_cases hk : key a = k <;> simp [hk]

omit [DecidableEq κ] in
theorem map_id : t.map id (fun _ => rfl) = t := by
  cases t
  simp only [map, List.map_id]

theorem update_of_find_none (hf : ∀ a, key (f a) = key a) (h : t.find k = none) :
    (t.update k f hf).rows = t.rows := by
  have hsame : ∀ a ∈ t.rows, (if key a = k then f a else a) = a := by
    intro a ha
    exact if_neg (find_eq_none.mp h a ha)
  unfold update map
  dsimp only
  rw [List.map_congr_left hsame, List.map_id']

/-- An INSERT that goes through adds its row under a new key. -/
theorem insert_eq_some (h : t.insert a = some t') :
    t.find (key a) = none ∧ t'.rows = a :: t.rows := by
  unfold insert at h
  split at h
  · cases h
  · rename_i hfresh
    obtain rfl := Option.some.inj h
    refine ⟨find_eq_none.mpr fun b hb hkey => hfresh ?_, rfl⟩
    rw [← hkey]
    exact List.mem_map_of_mem hb

/-- An INSERT is refused by the row that has the key. -/
theorem find_of_insert_none (h : t.insert a = none) : ∃ b, t.find (key a) = some b := by
  unfold insert at h
  split at h
  case isTrue hmem =>
    obtain ⟨b, hb, hkey⟩ := List.mem_map.mp hmem
    exact ⟨b, find_eq_some.mpr ⟨hb, hkey⟩⟩
  case isFalse => cases h

theorem find_insert (h : t.insert a = some t') (k : κ) :
    t'.find k = if key a = k then some a else t.find k := by
  unfold find
  rw [(insert_eq_some h).2, List.find?_cons]
  by_cases hk : key a = k <;> simp [hk]

omit [DecidableEq κ] in
theorem eq_of_key (ha : a ∈ t.rows) (hb : b ∈ t.rows) (h : key a = key b) : a = b :=
  List.inj_on_of_nodup_map t.keys_nodup ha hb h

omit [DecidableEq κ] in
/-- The same rows, selected from two tables. -/
theorem filter_perm {p q : α → Bool} (h : ∀ a, a ∈ t.rows ∧ p a ↔ a ∈ t'.rows ∧ q a) :
    (t.rows.filter p).Perm (t'.rows.filter q) := by
  refine (List.perm_ext_iff_of_nodup (t.keys_nodup.of_map.filter p)
    (t'.keys_nodup.of_map.filter q)).mpr fun a => ?_
  rw [List.mem_filter, List.mem_filter]
  exact h a

/-! ## Totals -/

omit [DecidableEq κ] in
/-- What the rows weigh together. -/
def total (t : Table key) (w : α → ℤ) : ℤ := (t.rows.map w).sum

variable {w w' : α → ℤ}

omit [DecidableEq κ] in
theorem total_congr (h : ∀ a ∈ t.rows, w a = w' a) : t.total w = t.total w' := by
  unfold total
  rw [List.map_congr_left h]

theorem total_update (hf : ∀ a, key (f a) = key a) :
    (t.update k f hf).total w = t.total fun a => w (if key a = k then f a else a) := by
  unfold total update map
  rw [List.map_map]
  rfl

theorem total_insert (h : t.insert a = some t') : t'.total w = w a + t.total w := by
  unfold total
  rw [(insert_eq_some h).2, List.map_cons, List.sum_cons]

/-- **Weights that differ on one row only.** -/
theorem total_of_find (ha : t.find k = some a) (h : ∀ b ∈ t.rows, key b ≠ k → w' b = w b) :
    t.total w' = t.total w - w a + w' a := by
  obtain ⟨l, hperm, hl⟩ := perm_of_find ha
  have hsum : ∀ v : α → ℤ, t.total v = v a + (l.map v).sum := by
    intro v
    unfold total
    rw [(hperm.map v).sum_eq, List.map_cons, List.sum_cons]
  have hpart : ∀ b ∈ l, w' b = w b := fun b hb => h b (hl b hb).1 (hl b hb).2
  rw [hsum, hsum, List.map_congr_left hpart]
  omega

theorem le_total (hw : ∀ b ∈ t.rows, 0 ≤ w b) (ha : t.find k = some a) : w a ≤ t.total w := by
  have hnonneg : ∀ x ∈ t.rows.map w, 0 ≤ x := by
    intro x hx
    obtain ⟨b, hb, rfl⟩ := List.mem_map.mp hx
    exact hw b hb
  exact List.single_le_sum hnonneg _ (List.mem_map_of_mem (find_eq_some.mp ha).1)

end Table

end Machinery

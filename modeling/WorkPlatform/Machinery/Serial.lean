import Mathlib.Logic.Function.Basic
import WorkPlatform.Machinery.Table

/-!
# Machinery/Serial — operations that take effect one after the other

    a ──act i──▸ b ──quiet──▸ c ──act j──▸ d        Serial act quiet a [i, j] d

The rows of a table are `Serialised` where one order of the operations explains them: every row is
what the operations on its key made of the row it was born as, in that order and all of them, and
every row that was shown is what some first of them made of it.  One operation on one row
(`Serialised.acted`), a quiet change of any rows (`Serialised.changed`) and a new row
(`Serialised.insert`) keep this.
-/

namespace Machinery

variable {ι α κ : Type*}

/-! ## One row -/

/-- `b` is what the listed operations made of `a`, with quiet changes between them. -/
inductive Serial (act : ι → α → α → Prop) (quiet : α → α → Prop) (a : α) : List ι → α → Prop
  | refl : Serial act quiet a [] a
  | act {is : List ι} {i : ι} {b c : α} :
      Serial act quiet a is b → act i b c → Serial act quiet a (is ++ [i]) c
  | quiet {is : List ι} {b c : α} :
      Serial act quiet a is b → quiet b c → Serial act quiet a is c

section Serial

variable {act act' : ι → α → α → Prop} {quiet : α → α → Prop} {is : List ι} {a b : α}

theorem Serial.mono (hact : ∀ i b c, act i b c → act' i b c) (h : Serial act quiet a is b) :
    Serial act' quiet a is b := by
  induction h with
  | refl => exact .refl
  | act _ hi ih => exact ih.act (hact _ _ _ hi)
  | quiet _ hq ih => exact ih.quiet hq

/-- What every operation and every quiet change keeps. -/
theorem Serial.keeps {β : Type*} {f : α → β} (hact : ∀ i b c, act i b c → f c = f b)
    (hquiet : ∀ b c, quiet b c → f c = f b) (h : Serial act quiet a is b) : f b = f a := by
  induction h with
  | refl => rfl
  | act _ hi ih => exact (hact _ _ _ hi).trans ih
  | quiet _ hq ih => exact (hquiet _ _ hq).trans ih

/-- A count that every operation raises counts them. -/
theorem Serial.count {f : α → ℕ} (hact : ∀ i b c, act i b c → f c = f b + 1)
    (hquiet : ∀ b c, quiet b c → f c = f b) (h : Serial act quiet a is b) :
    f b = f a + is.length := by
  induction h with
  | refl => rfl
  | act _ hi ih => rw [hact _ _ _ hi, ih, List.length_append, List.length_singleton, Nat.add_assoc]
  | quiet _ hq ih => exact (hquiet _ _ hq).trans ih

end Serial

/-! ## A table -/

variable [DecidableEq κ] {key : α → κ}

/-- **One order of the operations explains the table**, and all that was shown of it.  `done i k`
says that operation `i` took effect on the row of `k`. -/
structure Serialised (act : ι → α → α → Prop) (quiet : α → α → Prop) (born shown : α → Prop)
    (done : ι → κ → Prop) (t : Table key) (order : κ → List ι) : Prop where
  nodup : ∀ k, (order k).Nodup
  mem : ∀ k i, i ∈ order k ↔ done i k
  untouched : ∀ k, t.find k = none → order k = []
  current : ∀ a ∈ t.rows, ∃ a₀, born a₀ ∧ Serial act quiet a₀ (order (key a)) a
  shown : ∀ a, shown a → ∃ a₀ n, born a₀ ∧ Serial act quiet a₀ ((order (key a)).take n) a

namespace Serialised

variable {act act' : ι → α → α → Prop} {quiet : α → α → Prop} {born shown shown' : α → Prop}
  {done done' : ι → κ → Prop} {t t' : Table key} {order : κ → List ι} {i : ι} {k : κ} {a : α}

theorem mono (h : Serialised act quiet born shown done t order)
    (hact : ∀ i b c, act i b c → act' i b c) (hdone : ∀ i k, done' i k ↔ done i k) :
    Serialised act' quiet born shown done' t order where
  nodup := h.nodup
  mem k i := (h.mem k i).trans (hdone i k).symm
  untouched := h.untouched
  current a ha := (h.current a ha).imp fun _ h => ⟨h.1, h.2.mono hact⟩
  shown a ha := (h.shown a ha).imp fun _ h => h.imp fun _ h => ⟨h.1, h.2.mono hact⟩

/-- Rows are shown as they are. -/
theorem look (h : Serialised act quiet born shown done t order)
    (hshown : ∀ a, shown' a → shown a ∨ a ∈ t.rows ∨ born a) :
    Serialised act quiet born shown' done t order := by
  refine ⟨h.nodup, h.mem, h.untouched, h.current, fun a ha => ?_⟩
  rcases hshown a ha with hold | hrow | hborn
  · exact h.shown a hold
  · obtain ⟨a₀, hborn, hserial⟩ := h.current a hrow
    refine ⟨a₀, (order (key a)).length, hborn, ?_⟩
    rw [List.take_length]
    exact hserial
  · refine ⟨a, 0, hborn, ?_⟩
    rw [List.take_zero]
    exact .refl

/-- A row that is born with nothing done to it keeps the order. -/
theorem insert (h : Serialised act quiet born shown done t order) (hborn : born a)
    (hins : t.insert a = some t') : Serialised act quiet born shown done t' order := by
  obtain ⟨hnew, hrows⟩ := Table.insert_eq_some hins
  refine ⟨h.nodup, h.mem, fun k hk => h.untouched k ?_, fun b hb => ?_, h.shown⟩
  · rw [Table.find_eq_none] at hk ⊢
    exact fun b hb => hk b (hrows ▸ List.mem_cons_of_mem a hb)
  · rcases List.mem_cons.mp (hrows ▸ hb) with rfl | hold
    · refine ⟨b, hborn, ?_⟩
      rw [h.untouched (key b) hnew]
      exact .refl
    · exact h.current b hold

/-- A row that is missing was missing. -/
theorem untouched_map {f : α → α} {hf : ∀ a, key (f a) = key a}
    (hk : (t.map f hf).find k = none) : t.find k = none := by
  rw [Table.find_map] at hk
  exact Option.map_eq_none_iff.mp hk

/-- A change that is quiet keeps the order. -/
theorem changed {f : α → α} (h : Serialised act quiet born shown done t order)
    (hf : ∀ a, key (f a) = key a)
    (hquiet : ∀ a ∈ t.rows, f a = a ∨ quiet a (f a)) :
    Serialised act quiet born shown done (t.map f hf) order := by
  refine ⟨h.nodup, h.mem, fun k hk => h.untouched k (untouched_map hk), fun b hb => ?_, h.shown⟩
  obtain ⟨a, ha, rfl⟩ := List.mem_map.mp hb
  obtain ⟨a₀, hborn, hserial⟩ := h.current a ha
  refine ⟨a₀, hborn, ?_⟩
  rw [hf]
  rcases hquiet a ha with hsame | hchange
  · rw [hsame]
    exact hserial
  · exact hserial.quiet hchange

/-- **One more operation, on one row.** -/
theorem acted {f : α → α} {hf : ∀ a, key (f a) = key a}
    (h : Serialised act quiet born shown done t order) (ha : t.find k = some a)
    (hact : act i a (f a)) (hnew : ∀ k, ¬ done i k)
    (hdone : ∀ j k', done' j k' ↔ done j k' ∨ j = i ∧ k' = k) :
    Serialised act quiet born shown done' (t.update k f hf)
      (Function.update order k (order k ++ [i])) := by
  have horder (k' : κ) :
      Function.update order k (order k ++ [i]) k' = order k' ++ if k' = k then [i] else [] := by
    by_cases hk : k' = k
    · subst hk
      rw [Function.update_self, if_pos rfl]
    · rw [Function.update_of_ne hk, if_neg hk, List.append_nil]
  refine ⟨fun k' => ?_, fun k' j => ?_, fun k' hk' => ?_, fun b hb => ?_, fun b hb => ?_⟩
  · rw [horder]
    split
    · exact List.nodup_append.mpr ⟨h.nodup k', List.nodup_singleton i, by
        rintro j hj _ hi rfl
        rw [List.mem_singleton.mp hi] at hj
        exact hnew k' ((h.mem k' i).mp hj)⟩
    · rw [List.append_nil]
      exact h.nodup k'
  · rw [horder, List.mem_append, h.mem, hdone]
    split
    case isTrue hk => simp [hk]
    case isFalse hk => simp [hk]
  · have hnone := untouched_map hk'
    have hne : k' ≠ k := by
      rintro rfl
      rw [ha] at hnone
      cases hnone
    rw [horder, if_neg hne, List.append_nil]
    exact h.untouched k' hnone
  · obtain ⟨b₀, hb₀, rfl⟩ := List.mem_map.mp hb
    obtain ⟨a₀, hborn, hserial⟩ := h.current b₀ hb₀
    refine ⟨a₀, hborn, ?_⟩
    rw [Table.key_ite hf, horder]
    by_cases hk : key b₀ = k
    · obtain rfl := Option.some.inj (ha.symm.trans (Table.find_eq_some.mpr ⟨hb₀, hk⟩))
      rw [if_pos hk, if_pos hk]
      exact hserial.act hact
    · rw [if_neg hk, if_neg hk, List.append_nil]
      exact hserial
  · obtain ⟨a₀, n, hborn, hserial⟩ := h.shown b hb
    refine ⟨a₀, min n (order (key b)).length, hborn, ?_⟩
    rw [horder, List.take_append_of_le_length (Nat.min_le_right _ _), ← List.take_eq_take_min]
    exact hserial

end Serialised

end Machinery

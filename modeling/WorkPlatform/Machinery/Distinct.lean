import Mathlib.Data.List.Basic
import Mathlib.Data.List.Induction
import Mathlib.Data.List.Nodup
import Mathlib.Data.List.Perm.Subperm
import Mathlib.Data.Nat.Notation

/-!
# Machinery/Distinct — what is left of a list when it goes through a set

    [...new Set(xs)]        b a b c a  ──▸  b a c

A set keeps what is put into it in the order in which it came first (`firstOccurrences_eraseDups`).
-/

namespace Machinery

variable {α : Type*} [DecidableEq α]

/-- **Without repetition, in the order of the first occurrence.** -/
structure FirstOccurrences (found res : List α) : Prop where
  nodup : res.Nodup
  mem_iff : ∀ a, a ∈ res ↔ a ∈ found
  order : res.Pairwise fun a b => found.idxOf a < found.idxOf b

variable {found res xs : List α} {a x : α}

theorem eraseDups_concat :
    (xs ++ [x]).eraseDups = if x ∈ xs then xs.eraseDups else xs.eraseDups ++ [x] := by
  rw [List.eraseDups_append]
  split_ifs with hx <;> simp [List.removeAll, List.eraseDups_cons, hx]

/-- What is known of a list stays known of a longer one. -/
theorem FirstOccurrences.order_append (h : FirstOccurrences found res) (more : List α) :
    res.Pairwise fun a b => (found ++ more).idxOf a < (found ++ more).idxOf b := by
  refine h.order.imp_of_mem fun ha hb hlt => ?_
  rwa [List.idxOf_append_of_mem ((h.mem_iff _).mp ha), List.idxOf_append_of_mem ((h.mem_iff _).mp hb)]

theorem FirstOccurrences.concat_of_mem (h : FirstOccurrences xs res) (hx : x ∈ xs) :
    FirstOccurrences (xs ++ [x]) res := by
  refine ⟨h.nodup, fun a => ?_, h.order_append [x]⟩
  rw [h.mem_iff, List.mem_append, List.mem_singleton]
  exact ⟨Or.inl, fun ha => ha.elim id fun heq => heq ▸ hx⟩

/-- A new element comes last. -/
theorem FirstOccurrences.concat_of_notMem (h : FirstOccurrences xs res) (hx : x ∉ xs) :
    FirstOccurrences (xs ++ [x]) (res ++ [x]) := by
  have hnew : ∀ a ∈ res, a ≠ x := fun a ha heq => hx (heq ▸ (h.mem_iff a).mp ha)
  refine ⟨?_, fun a => ?_, ?_⟩
  · exact List.nodup_append.mpr ⟨h.nodup, List.nodup_singleton x, fun a ha b hb =>
      List.mem_singleton.mp hb ▸ hnew a ha⟩
  · rw [List.mem_append, List.mem_append, h.mem_iff]
  · refine List.pairwise_append.mpr
      ⟨h.order_append [x], List.pairwise_singleton _ _, fun a ha b hb => ?_⟩
    obtain rfl := List.mem_singleton.mp hb
    have hmem := (h.mem_iff a).mp ha
    rw [List.idxOf_append_of_mem hmem, List.idxOf_append_of_notMem hx]
    exact Nat.lt_add_right _ (List.idxOf_lt_length_iff.mpr hmem)

/-- **The set keeps first occurrences.** -/
theorem firstOccurrences_eraseDups (found : List α) : FirstOccurrences found found.eraseDups := by
  induction found using List.reverseRecOn with
  | nil => exact ⟨List.nodup_nil, fun a => Iff.rfl, List.Pairwise.nil⟩
  | append_singleton xs x ih =>
    rw [eraseDups_concat]
    split_ifs with hx
    · exact ih.concat_of_mem hx
    · exact ih.concat_of_notMem hx

/-- In a list without repetition at most one has a property exactly where no two have it. -/
theorem countP_le_one_iff {p : α → Bool} (hnodup : xs.Nodup) :
    xs.countP p ≤ 1 ↔ ∀ a ∈ xs, ∀ b ∈ xs, p a = true → p b = true → a = b := by
  have hmem : ∀ a, a ∈ xs.filter p ↔ a ∈ xs ∧ p a = true := fun a => List.mem_filter
  have hfilter : (xs.filter p).Nodup := hnodup.filter p
  rw [List.countP_eq_length_filter]
  constructor
  · intro hle a ha b hb hpa hpb
    by_contra hne
    have hpair : [a, b].Nodup := by simpa using hne
    have hsub : [a, b] ⊆ xs.filter p := by
      simp [List.cons_subset, hmem, ha, hb, hpa, hpb]
    have htwo : 2 ≤ (xs.filter p).length := (List.subperm_of_subset hpair hsub).length_le
    omega
  · intro hall
    cases h : xs.filter p with
    | nil => exact Nat.zero_le 1
    | cons a rest =>
      cases rest with
      | nil => exact Nat.le_refl 1
      | cons b rest =>
        rw [h] at hfilter
        have ha := (hmem a).mp (h ▸ List.mem_cons_self)
        have hb := (hmem b).mp (h ▸ List.mem_cons_of_mem a List.mem_cons_self)
        have hne : a ≠ b := by
          rintro rfl
          exact (List.nodup_cons.mp hfilter).1 List.mem_cons_self
        exact absurd (hall a ha.1 b hb.1 ha.2 hb.2) hne

end Machinery

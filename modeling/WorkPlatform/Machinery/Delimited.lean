import Mathlib.Data.List.Basic

/-!
# Machinery/Delimited — fields joined by a separator

Joining fields with an unescaped separator loses their boundaries: `a·s·b = c·s·d` without
`a = c` and `b = d` means that one left field swallowed a whole `s·w` of the other join
(`append_sep_eq_iff`).  A left field free of the separator cannot (`append_sep_inj`).
-/

namespace Machinery

variable {α : Type*} {s : α} {a b c d : List α}

/-- **When two joins agree**: field by field, or up to a shift of the boundary over `w`. -/
theorem append_sep_eq_iff :
    a ++ s :: b = c ++ s :: d ↔ (a = c ∧ b = d)
      ∨ (∃ w, c = a ++ s :: w ∧ b = w ++ s :: d) ∨ ∃ w, a = c ++ s :: w ∧ d = w ++ s :: b := by
  constructor
  · intro h
    rcases List.append_eq_append_iff.mp h with ⟨w, rfl, hw⟩ | ⟨w, rfl, hw⟩
    · cases w with
      | nil => exact Or.inl ⟨by simp, by simpa using hw⟩
      | cons x w =>
        obtain ⟨rfl, rfl⟩ := List.cons.inj hw
        exact Or.inr (Or.inl ⟨w, rfl, rfl⟩)
    · cases w with
      | nil => exact Or.inl ⟨by simp, by simpa using hw.symm⟩
      | cons x w =>
        obtain ⟨rfl, rfl⟩ := List.cons.inj hw
        exact Or.inr (Or.inr ⟨w, rfl, rfl⟩)
  · rintro (⟨rfl, rfl⟩ | ⟨w, rfl, rfl⟩ | ⟨w, rfl, rfl⟩)
    · rfl
    · simp
    · simp

/-- A left field without the separator is recovered from the join. -/
theorem append_sep_inj (ha : s ∉ a) (hc : s ∉ c) : a ++ s :: b = c ++ s :: d ↔ a = c ∧ b = d := by
  rw [append_sep_eq_iff]
  refine ⟨?_, Or.inl⟩
  rintro (h | ⟨w, rfl, -⟩ | ⟨w, rfl, -⟩)
  · exact h
  · exact absurd (by simp) hc
  · exact absurd (by simp) ha

end Machinery

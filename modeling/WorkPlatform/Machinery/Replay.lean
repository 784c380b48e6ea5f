import Mathlib.Data.List.Infix

/-!
# Machinery/Replay — what holds after every part of a sequence of steps

    s ──a₁──▸ t₁ ──a₂──▸ t₂ ──a₃──▸ …        `P [a₁, a₂] t₂` after two of them

Where one step keeps `P` exactly if it meets `C`, `P` holds after every prefix exactly if every
step meets `C` (`prefixes_iff`).
-/

namespace Machinery

variable {σ α : Type*} {step : σ → α → Option σ} {P : List α → σ → Prop}
  {C : List α → σ → α → Prop} {s : σ}

theorem foldlM_concat (done : List α) (a : α) :
    (done ++ [a]).foldlM step s = (done.foldlM step s).bind fun t => step t a := by
  rw [List.foldlM_append]
  simp

/-- **The rule of the prefixes.** -/
theorem prefixes_iff (htotal : ∀ t a, ∃ u, step t a = some u) (h₀ : P [] s)
    (hstep : ∀ done t a u, P done t → step t a = some u → (P (done ++ [a]) u ↔ C done t a))
    (as : List α) :
    (∀ done, done <+: as → ∃ t, done.foldlM step s = some t ∧ P done t) ↔
      ∀ done a t, done ++ [a] <+: as → done.foldlM step s = some t → C done t a := by
  induction as using List.reverseRecOn with
  | nil =>
    refine iff_of_true (fun done hdone => ?_) fun done a t hdone => ?_
    · rw [List.prefix_nil.mp hdone]
      exact ⟨s, rfl, h₀⟩
    · exact absurd (List.prefix_nil.mp hdone) (by simp)
  | append_singleton as a ih =>
    constructor
    · intro hall done b t hdone ht
      obtain ⟨t', ht', hP⟩ := hall done ((List.prefix_append done [b]).trans hdone)
      obtain ⟨u, hu, hP'⟩ := hall (done ++ [b]) hdone
      obtain rfl : t' = t := Option.some.inj (ht'.symm.trans ht)
      rw [foldlM_concat, ht, Option.bind_some] at hu
      exact (hstep done t' b u hP hu).mp hP'
    · intro hall done hdone
      have hbefore := ih.mpr fun done b t h => hall done b t (h.trans (List.prefix_append as [a]))
      rcases List.prefix_concat_iff.mp hdone with rfl | hdone
      · obtain ⟨t, ht, hP⟩ := hbefore as List.prefix_rfl
        obtain ⟨u, hu⟩ := htotal t a
        refine ⟨u, by rw [foldlM_concat, ht, Option.bind_some, hu], ?_⟩
        exact (hstep as t a u hP hu).mpr (hall as a t List.prefix_rfl ht)
      · exact hbefore done hdone

end Machinery

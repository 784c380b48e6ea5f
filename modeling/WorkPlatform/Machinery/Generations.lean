import WorkPlatform.Machinery.Run

/-!
# Machinery/Generations — codes that are stored in generations and used once

    … ── used c ── stored g ── used c' ── …      newest first

A history is **lawful** where every code used is an unused one of the generation stored last, and
no code is in two generations.  Then no code of an older generation is used once a newer one is
stored (`Lawful.superseded`).

Codes are **drawn** before they are stored; `Drawn` keeps the drawn codes of concurrent calls apart
from each other and from the stored ones.
-/

namespace Machinery

variable {α ι : Type*}

/-! ## Histories -/

/-- A generation was stored, or a code was used. -/
inductive Event (α : Type*)
  | stored (g : List α)
  | used (c : α)
  deriving DecidableEq

namespace History

/-- The codes used. -/
def used : List (Event α) → List α
  | [] => []
  | .stored _ :: l => used l
  | .used c :: l => c :: used l

/-- The codes of all generations. -/
def stored : List (Event α) → List α
  | [] => []
  | .stored g :: l => g ++ stored l
  | .used _ :: l => stored l

/-- The generation stored last. -/
def latest : List (Event α) → List α
  | [] => []
  | .stored g :: _ => g
  | .used _ :: l => latest l

/-- Every use is of an unused code of the latest generation, and generations are disjoint. -/
def Lawful : List (Event α) → Prop
  | [] => True
  | .stored g :: l => (∀ c ∈ g, c ∉ stored l) ∧ Lawful l
  | .used c :: l => c ∈ latest l ∧ c ∉ used l ∧ Lawful l

theorem latest_subset_stored : ∀ (l : List (Event α)), latest l ⊆ stored l
  | [] => List.Subset.refl _
  | .stored g :: _ => List.subset_append_left g _
  | .used _ :: l => latest_subset_stored l

theorem mem_stored_append {c : α} {l : List (Event α)} (h : c ∈ stored l) :
    ∀ l', c ∈ stored (l' ++ l)
  | [] => h
  | .stored _ :: l' => List.mem_append_right _ (mem_stored_append h l')
  | .used _ :: l' => mem_stored_append h l'

namespace Lawful

theorem of_append {l : List (Event α)} : ∀ {l' : List (Event α)}, Lawful (l' ++ l) → Lawful l
  | [], h => h
  | .stored _ :: _, h => of_append h.2
  | .used _ :: _, h => of_append h.2.2

/-- A used code was stored. -/
theorem used_subset_stored : ∀ {l : List (Event α)}, Lawful l → used l ⊆ stored l
  | [], _ => List.Subset.refl _
  | .stored g :: _, h => fun _ hc => List.mem_append_right g (used_subset_stored h.2 hc)
  | .used _ :: l, h => by
      intro c hc
      rcases List.mem_cons.mp hc with rfl | hc
      · exact latest_subset_stored l h.1
      · exact used_subset_stored h.2.2 hc

/-- The latest generation shares no code with one stored before another. -/
theorem latest_superseded {g : List α} {l : List (Event α)} {c : α} :
    ∀ {l' : List (Event α)}, Lawful (l' ++ .stored g :: l) → c ∈ latest (l' ++ .stored g :: l) →
      c ∉ stored l
  | [], h, hc => h.1 c hc
  | .used _ :: _, h, hc => latest_superseded h.2.2 hc
  | .stored _ :: l', h, hc => fun hl =>
      h.1 c hc (mem_stored_append (List.mem_append_right g hl) l')

/-- **No code of an older generation is used** once a newer one is stored. -/
theorem superseded {l l₁ l₂ l₃ : List (Event α)} {g : List α} {c : α} (h : Lawful l)
    (hl : l = l₁ ++ .used c :: (l₂ ++ .stored g :: l₃)) : c ∉ stored l₃ := by
  subst hl
  have hused : Lawful (.used c :: (l₂ ++ .stored g :: l₃)) := of_append h
  exact latest_superseded hused.2.2 hused.1

end Lawful

end History

/-! ## Codes that are drawn and not stored yet -/

/-- The codes `f i` that call `i` has drawn and not stored: new ones, each drawn by one call. -/
structure Drawn (generated stored : List α) (f : ι → List α) : Prop where
  known : ∀ c ∈ stored, c ∈ generated
  fresh : ∀ i, ∀ c ∈ f i, c ∈ generated ∧ c ∉ stored
  apart : ∀ i j c, c ∈ f i → c ∈ f j → i = j

namespace Drawn

variable [DecidableEq ι] {generated stored g : List α} {f : ι → List α} {i : ι}

/-- Call `i` draws codes that were never generated. -/
theorem draw (h : Drawn generated stored f) (hnew : ∀ c ∈ g, c ∉ generated) :
    Drawn (g ++ generated) stored (Function.update f i g) where
  known c hc := List.mem_append_right g (h.known c hc)
  fresh j c hc := by
    rcases update_cases (c ∈ ·) hc with ⟨-, hg⟩ | ⟨-, hf⟩
    · exact ⟨List.mem_append_left _ hg, fun hs => hnew c hg (h.known c hs)⟩
    · exact ⟨List.mem_append_right g (h.fresh j c hf).1, (h.fresh j c hf).2⟩
  apart j k c hj hk := by
    rcases update_cases (c ∈ ·) hj with ⟨rfl, hg⟩ | ⟨-, hf⟩
    · rcases update_cases (c ∈ ·) hk with ⟨rfl, -⟩ | ⟨-, hf'⟩
      · rfl
      · exact absurd (h.fresh k c hf').1 (hnew c hg)
    · rcases update_cases (c ∈ ·) hk with ⟨rfl, hg'⟩ | ⟨-, hf'⟩
      · exact absurd (h.fresh j c hf).1 (hnew c hg')
      · exact h.apart j k c hf hf'

/-- Call `i` gives its codes up. -/
theorem drop (h : Drawn generated stored f) (i : ι) :
    Drawn generated stored (Function.update f i []) where
  known := h.known
  fresh j c hc := by
    rcases update_cases (c ∈ ·) hc with ⟨-, hnil⟩ | ⟨-, hf⟩
    · cases hnil
    · exact h.fresh j c hf
  apart j k c hj hk := by
    rcases update_cases (c ∈ ·) hj with ⟨-, hnil⟩ | ⟨-, hf⟩
    · cases hnil
    · rcases update_cases (c ∈ ·) hk with ⟨-, hnil⟩ | ⟨-, hf'⟩
      · cases hnil
      · exact h.apart j k c hf hf'

/-- Call `i` stores its codes. -/
theorem store (h : Drawn generated stored f) (i : ι) :
    Drawn generated (f i ++ stored) (Function.update f i []) := by
  refine ⟨fun c hc => ?_, fun j c hc => ?_, (h.drop i).apart⟩
  · rcases List.mem_append.mp hc with hc | hc
    · exact (h.fresh i c hc).1
    · exact h.known c hc
  · rcases update_cases (c ∈ ·) hc with ⟨-, hnil⟩ | ⟨hj, hf⟩
    · cases hnil
    · refine ⟨(h.fresh j c hf).1, fun hs => ?_⟩
      rcases List.mem_append.mp hs with hs | hs
      · exact hj (h.apart j i c hf hs)
      · exact (h.fresh j c hf).2 hs

end Drawn

end Machinery

import Mathlib.Data.Nat.Notation
import Mathlib.Logic.Relation

/-!
# Machinery/Acyclic — when one more edge closes a cycle

A relation is **acyclic** when no point reaches itself by one or more edges.  Adding `a → b` to an
acyclic relation closes a cycle exactly when `b` already reaches `a` (`acyclic_addEdge_iff`), and a
set that contains `b`, not `a`, and is closed under the edges shows that it does not
(`not_reaches_of_closed`): this is what a finished graph search leaves behind.
-/

namespace Machinery

open Relation

variable {α : Type*} {r : α → α → Prop} {a b : α}

/-- No point reaches itself by one or more edges. -/
def Acyclic (r : α → α → Prop) : Prop := ∀ x, ¬ TransGen r x x

/-- The relation with the edge `a → b` added. -/
def AddEdge (r : α → α → Prop) (a b x y : α) : Prop := r x y ∨ (x = a ∧ y = b)

theorem Acyclic.mono {s : α → α → Prop} (h : ∀ x y, s x y → r x y) (hr : Acyclic r) :
    Acyclic s :=
  fun x hx => hr x (TransGen.mono h x x hx)

/-- What gets less along every edge goes round no circle. -/
theorem acyclic_of_rank (S : α → Prop) (rank : α → ℕ) (hS : ∀ x y, r x y → S y)
    (hrank : ∀ x y, S x → r x y → rank y < rank x) : Acyclic r := by
  intro x hx
  obtain ⟨z, -, hzx⟩ := TransGen.tail'_iff.mp hx
  have hless : ∀ y, TransGen r x y → rank y < rank x := by
    intro y hy
    induction hy with
    | single hxy => exact hrank x _ (hS z x hzx) hxy
    | @tail b c hxb hbc ih =>
      obtain ⟨w, -, hwb⟩ := TransGen.tail'_iff.mp hxb
      exact Nat.lt_trans (hrank b c (hS w b hwb) hbc) ih
  exact Nat.lt_irrefl _ (hless x hx)

/-- A path over the new edge: it was there before, or it passes `a → b`. -/
theorem transGen_addEdge {x y : α} (h : TransGen (AddEdge r a b) x y) :
    TransGen r x y ∨ (ReflTransGen r x a ∧ ReflTransGen r b y) := by
  induction h with
  | single hxy =>
    rcases hxy with hxy | ⟨rfl, rfl⟩
    · exact Or.inl (.single hxy)
    · exact Or.inr ⟨.refl, .refl⟩
  | tail _ hyz ih =>
    rcases hyz with hyz | ⟨rfl, rfl⟩
    · rcases ih with hxy | ⟨hxa, hby⟩
      · exact Or.inl (hxy.tail hyz)
      · exact Or.inr ⟨hxa, hby.tail hyz⟩
    · rcases ih with hxy | ⟨hxa, -⟩
      · exact Or.inr ⟨hxy.to_reflTransGen, .refl⟩
      · exact Or.inr ⟨hxa, .refl⟩

/-- **One more edge keeps a relation acyclic exactly when it does not answer a path back.** -/
theorem acyclic_addEdge_iff (hr : Acyclic r) :
    Acyclic (AddEdge r a b) ↔ ¬ ReflTransGen r b a := by
  constructor
  · intro h hba
    have hold : ReflTransGen (AddEdge r a b) b a :=
      ReflTransGen.mono (fun _ _ hxy => Or.inl hxy) b a hba
    exact h b (TransGen.tail' hold (Or.inr ⟨rfl, rfl⟩))
  · intro hba x hx
    rcases transGen_addEdge hx with hx | ⟨hxa, hbx⟩
    · exact hr x hx
    · exact hba (hbx.trans hxa)

/-- **A closed set separates**: from inside it no edge leads out. -/
theorem not_reaches_of_closed {S : α → Prop} (hS : ∀ x y, S x → r x y → S y) (hb : S b)
    (ha : ¬ S a) : ¬ ReflTransGen r b a := by
  intro h
  have hin : ∀ x, ReflTransGen r b x → S x := by
    intro x hx
    induction hx with
    | refl => exact hb
    | tail _ hxy ih => exact hS _ _ ih hxy
  exact ha (hin a h)

end Machinery

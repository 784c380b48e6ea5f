import Mathlib.Data.Nat.Notation
import Mathlib.Logic.Relation
import Mathlib.Tactic.Tauto

/-!
# Machinery/Search — a search of a graph with a stack

    stack ──pop x──▸ x visited: skip
                     x new: visit x, push its successors

What such a search knows (`Searched`) is kept by both turns, and when the stack is empty the points
it has visited are those its start reaches (`Searched.reaches_iff`).  The stack may hold a point
many times and the graph may have cycles: each turn takes one off `remaining`, the stack together
with the edges out of the points not yet visited.
-/

namespace Machinery

open Relation

variable {α : Type*} {r : α → α → Prop} {a b : α} {visited stack rest : List α}

/-! ## What a search knows -/

/-- The search from `b` has met only points `b` reaches, and every point one edge away from a
visited one. -/
structure Searched (r : α → α → Prop) (b : α) (visited stack : List α) : Prop where
  start : b ∈ visited ∨ b ∈ stack
  sound : ∀ x, x ∈ visited ∨ x ∈ stack → ReflTransGen r b x
  closed : ∀ x ∈ visited, ∀ y, r x y → y ∈ visited ∨ y ∈ stack

namespace Searched

theorem init (r : α → α → Prop) (b : α) : Searched r b [] [b] where
  start := Or.inr (List.mem_singleton_self b)
  sound x hx := by
    obtain rfl : x = b := by simpa using hx
    exact .refl
  closed x hx := absurd hx List.not_mem_nil

/-- A point on the stack that was visited before says nothing new. -/
theorem skip (h : Searched r b visited (a :: stack)) (ha : a ∈ visited) :
    Searched r b visited stack := by
  have hin : ∀ y, y ∈ visited ∨ y ∈ a :: stack → y ∈ visited ∨ y ∈ stack := by
    rintro y (hy | hy)
    · exact Or.inl hy
    · rcases List.mem_cons.mp hy with rfl | hy
      · exact Or.inl ha
      · exact Or.inr hy
  refine ⟨hin b h.start, ?_, ?_⟩
  · rintro x (hx | hx)
    · exact h.sound x (Or.inl hx)
    · exact h.sound x (Or.inr (List.mem_cons_of_mem a hx))
  · intro x hx y hxy
    exact hin y (h.closed x hx y hxy)

/-- A point that is visited leaves its successors on the stack. -/
theorem visit (h : Searched r b visited (a :: stack))
    (hrest : ∀ y, y ∈ rest ↔ r a y ∨ y ∈ stack) : Searched r b (a :: visited) rest := by
  have hin : ∀ y, y ∈ visited ∨ y ∈ a :: stack → y ∈ a :: visited ∨ y ∈ rest := by
    intro y hy
    simp only [List.mem_cons, hrest] at hy ⊢
    tauto
  have ha : ReflTransGen r b a := h.sound a (Or.inr List.mem_cons_self)
  refine ⟨hin b h.start, ?_, ?_⟩
  · rintro x (hx | hx)
    · rcases List.mem_cons.mp hx with rfl | hx
      · exact ha
      · exact h.sound x (Or.inl hx)
    · rcases (hrest x).mp hx with hax | hx
      · exact ha.tail hax
      · exact h.sound x (Or.inr (List.mem_cons_of_mem a hx))
  · intro x hx y hxy
    rcases List.mem_cons.mp hx with rfl | hx
    · exact Or.inr ((hrest y).mpr (Or.inl hxy))
    · exact hin y (h.closed x hx y hxy)

/-- **A finished search has visited what its start reaches.** -/
theorem reaches_iff (h : Searched r b visited []) {x : α} :
    ReflTransGen r b x ↔ x ∈ visited := by
  constructor
  · intro hx
    induction hx with
    | refl => simpa using h.start
    | tail _ hyz ih => simpa using h.closed _ ih _ hyz
  · intro hx
    exact h.sound x (Or.inl hx)

end Searched

/-! ## How long it takes -/

variable [DecidableEq α]

/-- The points on the stack and the edges that may still be put there. -/
def remaining (edges : List (α × α)) (visited stack : List α) : ℕ :=
  stack.length + edges.countP fun e => e.1 ∉ visited

@[simp] theorem remaining_nil (edges : List (α × α)) (visited : List α) :
    remaining edges visited [] = edges.countP fun e => e.1 ∉ visited :=
  Nat.zero_add _

theorem remaining_cons (edges : List (α × α)) (visited stack : List α) (a : α) :
    remaining edges visited (a :: stack) = remaining edges visited stack + 1 := by
  simp only [remaining, List.length_cons]
  omega

/-- The edges out of a point that is visited now are no longer out of one that is not. -/
theorem countP_visit (ha : a ∉ visited) (edges : List (α × α)) :
    edges.countP (fun e => e.1 ∉ visited) =
      edges.countP (fun e => e.1 ∉ a :: visited) + edges.countP (fun e => e.1 = a) := by
  induction edges with
  | nil => rfl
  | cons e edges ih =>
    simp only [List.countP_cons, ih]
    by_cases he : e.1 = a
    · simp only [he, ha, List.mem_cons, true_or, not_true_eq_false, not_false_eq_true,
        decide_true, decide_false, if_true, Bool.false_eq_true, if_false]
      omega
    · simp only [he, List.mem_cons, false_or, decide_false, Bool.false_eq_true, if_false]
      omega

/-- **A visit takes one off what remains**, however many successors it pushes. -/
theorem remaining_visit (ha : a ∉ visited) {edges : List (α × α)}
    (hrest : rest.length = edges.countP (fun e => e.1 = a) + stack.length) :
    remaining edges visited (a :: stack) = remaining edges (a :: visited) rest + 1 := by
  rw [remaining_cons]
  simp only [remaining, hrest, countP_visit ha]
  omega

end Machinery

import Mathlib.Data.List.Basic

/-!
# Machinery/Gather — a loop that goes on past the calls that fail

    gather      what the answered calls gave      a₁ ++ ∅  ++ a₃
    gatherAll   what all calls give, or nothing   a₁ ++ a₂ ++ a₃

A loop that drops an error and goes on gives all there is exactly where each call that went
unanswered had nothing to give (`gather_eq_iff`).
-/

namespace Machinery

variable {α β : Type*}

/-- The loop: a call that fails adds nothing. -/
def gather (answer : α → Option (List β)) (xs : List α) : List β :=
  xs.flatMap fun x => (answer x).getD []

/-- The results of all the calls. -/
def gatherAll (call : α → Option (List β)) : List α → Option (List β)
  | [] => some []
  | x :: xs => (call x).bind fun l => (gatherAll call xs).map (l ++ ·)

/-- What comes back from `call` is its result, or an error. -/
def AnswersOf (call answer : α → Option (List β)) : Prop :=
  ∀ x, answer x = none ∨ answer x = call x

variable {call answer : α → Option (List β)} {xs : List α} {all : List β}

@[simp] theorem gather_cons (x : α) :
    gather answer (x :: xs) = (answer x).getD [] ++ gather answer xs := List.flatMap_cons

theorem gatherAll_map {γ : Type*} (f : γ → α) (ys : List γ) :
    gatherAll call (ys.map f) = gatherAll (fun y => call (f y)) ys := by
  induction ys with
  | nil => rfl
  | cons y ys ih => rw [List.map_cons, gatherAll, gatherAll, ih]

/-- The loop gives no more than there is. -/
theorem length_gather_le (hanswer : AnswersOf call answer) (h : gatherAll call xs = some all) :
    (gather answer xs).length ≤ all.length := by
  induction xs generalizing all with
  | nil => simp [gather]
  | cons x xs ih =>
    obtain ⟨l, hl, hrest⟩ := Option.bind_eq_some_iff.mp h
    obtain ⟨rest, hread, rfl⟩ := Option.map_eq_some_iff.mp hrest
    have hle := ih hread
    rcases hanswer x with hx | hx
    · simp [hx]
      omega
    · simp [hx, hl]
      omega

/-- **The loop gives all there is exactly where a call that failed would have given nothing.** -/
theorem gather_eq_iff (hanswer : AnswersOf call answer) :
    gatherAll call xs = some (gather answer xs) ↔
      ∀ x ∈ xs, ∃ l, call x = some l ∧ (answer x = none → l = []) := by
  induction xs with
  | nil => simp [gatherAll, gather]
  | cons x xs ih =>
    rw [List.forall_mem_cons, ← ih, gatherAll, Option.bind_eq_some_iff, gather_cons]
    constructor
    · rintro ⟨l, hl, hrest⟩
      obtain ⟨rest, hrest, heq⟩ := Option.map_eq_some_iff.mp hrest
      rcases hanswer x with hx | hx
      · have hle := length_gather_le hanswer hrest
        have hlen := congrArg List.length heq
        rw [hx, Option.getD_none, List.nil_append] at hlen heq
        rw [List.length_append] at hlen
        have hnil : l = [] := List.length_eq_zero_iff.mp (by omega)
        rw [hnil, List.nil_append] at heq
        exact ⟨⟨l, hl, fun _ => hnil⟩, hrest.trans (congrArg some heq)⟩
      · rw [hx, hl] at heq
        refine ⟨⟨l, hl, fun hnone => ?_⟩, hrest.trans (congrArg some (List.append_cancel_left heq))⟩
        rw [hx, hl] at hnone
        cases hnone
    · rintro ⟨⟨l, hl, hnil⟩, hrest⟩
      refine ⟨l, hl, Option.map_eq_some_iff.mpr ⟨_, hrest, ?_⟩⟩
      rcases hanswer x with hx | hx
      · simp [hx, hnil hx]
      · simp [hx, hl]

end Machinery

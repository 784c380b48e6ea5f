import Mathlib.Data.List.Basic
import Mathlib.Logic.Function.Basic

/-!
# Machinery/Patch — a record, and what is given for some of its fields

    r      a₁  a₂  a₃  a₄
    p      ·   b₂  ·   b₄
    p r    a₁  b₂  a₃  b₄        `p.onto r`

A record is a type whose fields are read and set one by one (`Record`).  Setting the fields of a
patch in any order gives the patch put onto the record (`get_assign`); patches that share no field
commute (`onto_comm`).
-/

namespace Machinery

variable {ι : Type*} {V : ι → Type*}

/-! ## Patches -/

/-- The fields that are given, each with its value. -/
abbrev Patch (V : ι → Type*) := ∀ i, Option (V i)

namespace Patch

def empty : Patch V := fun _ => none

def onto (p : Patch V) (r : ∀ i, V i) : ∀ i, V i := fun i => (p i).getD (r i)

/-- No field is given in both. -/
def Apart (p q : Patch V) : Prop := ∀ i, p i = none ∨ q i = none

variable {p q : Patch V} {r : ∀ i, V i}

theorem Apart.symm (h : Apart p q) : Apart q p := fun i => (h i).symm

theorem onto_comm (h : Apart p q) : p.onto (q.onto r) = q.onto (p.onto r) := by
  funext i
  rcases h i with hp | hq
  · simp [onto, hp]
  · simp [onto, hq]

/-- A patch changes nothing exactly where all it sets is so already. -/
theorem onto_eq_self_iff : p.onto r = r ↔ ∀ i v, p i = some v → v = r i := by
  constructor
  · intro h i v hv
    have hi := congrFun h i
    rwa [onto, hv, Option.getD_some] at hi
  · intro h
    funext i
    cases hv : p i with
    | none => rw [onto, hv, Option.getD_none]
    | some v => rw [onto, hv, Option.getD_some, h i v hv]

/-- Patches without a common field give the same only where neither changes anything. -/
theorem onto_eq_onto_iff (h : Apart p q) : p.onto r = q.onto r ↔ p.onto r = r ∧ q.onto r = r := by
  refine ⟨fun heq => ?_, fun ⟨hp, hq⟩ => hp.trans hq.symm⟩
  have hself : p.onto r = r := by
    funext i
    rcases h i with hp | hq
    · rw [onto, hp, Option.getD_none]
    · have hi := congrFun heq i
      rwa [onto, onto, hq, Option.getD_none] at hi
  exact ⟨hself, heq.symm.trans hself⟩

/-! ## Records -/

/-- The fields that are given, in the order of a list. -/
def clauses (p : Patch V) (fields : List ι) : List (Σ i, V i) :=
  fields.filterMap fun i => (p i).map (Sigma.mk i)

theorem clauses_eq_nil_iff {fields : List ι} :
    p.clauses fields = [] ↔ ∀ i ∈ fields, p i = none := by
  simp [clauses]

end Patch

/-- A type with fields. -/
structure Record (R : Type*) (V : ι → Type*) [DecidableEq ι] where
  get : R → ∀ i, V i
  set : R → ∀ i, V i → R
  get_set : ∀ r i v, get (set r i v) = Function.update (get r) i v

namespace Record

variable [DecidableEq ι] {R : Type*} (record : Record R V)

/-- The clauses one after another. -/
def assign (r : R) (cs : List (Σ i, V i)) : R := cs.foldl (fun r c => record.set r c.1 c.2) r

/-- **Setting the fields that are given.** -/
theorem get_assign (p : Patch V) (fields : List ι) (r : R) (i : ι) :
    record.get (record.assign r (p.clauses fields)) i =
      if i ∈ fields then p.onto (record.get r) i else record.get r i := by
  induction fields generalizing r with
  | nil => simp [Patch.clauses, assign]
  | cons j fields ih =>
    cases hj : p j with
    | none =>
      have hclauses : p.clauses (j :: fields) = p.clauses fields := by simp [Patch.clauses, hj]
      rw [hclauses, ih]
      by_cases hi : i = j
      · subst hi
        simp [Patch.onto, hj]
      · simp [hi]
    | some v =>
      have hclauses : p.clauses (j :: fields) = ⟨j, v⟩ :: p.clauses fields := by
        simp [Patch.clauses, hj]
      have hassign : record.assign r (⟨j, v⟩ :: p.clauses fields) =
          record.assign (record.set r j v) (p.clauses fields) := rfl
      rw [hclauses, hassign, ih, record.get_set]
      by_cases hi : i = j
      · subst hi
        simp [Patch.onto, hj]
      · simp [Patch.onto, hi]

end Record

end Machinery

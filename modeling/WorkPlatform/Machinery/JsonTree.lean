import Mathlib.Data.List.Nodup
import WorkPlatform.Machinery.Json

/-!
# Machinery/JsonTree — a JSON value as a tree

    { "a": [1, "x"], "b": null }      children  [1, "x"], null

`Json` is nested, and an argument about it goes by its children (`Json.induction`).
-/

namespace Machinery.Json

/-- What an array or an object holds. -/
def children : Json → List Json
  | .arr values => values
  | .obj fields => fields.map Prod.snd
  | _ => []

/-- **The induction rule**: what an array has if its values have it, and an object if what its
fields hold has it, every value has, if the others do. -/
@[elab_as_elim]
theorem induction {motive : Json → Prop} (null : motive .null) (bool : ∀ b, motive (.bool b))
    (num : ∀ n, motive (.num n)) (str : ∀ s, motive (.str s))
    (arr : ∀ values, (∀ v ∈ values, motive v) → motive (.arr values))
    (obj : ∀ fields, (∀ f ∈ fields, motive f.2) → motive (.obj fields)) (v : Json) : motive v := by
  refine @Json.rec motive (fun values => ∀ v ∈ values, motive v)
    (fun fields => ∀ f ∈ fields, motive f.2) (fun f => motive f.2) null bool num str arr obj
    ?_ ?_ ?_ ?_ (fun _ _ h => h) v
  · exact List.forall_mem_nil _
  · exact fun v values hv hvalues => List.forall_mem_cons.mpr ⟨hv, hvalues⟩
  · exact List.forall_mem_nil _
  · exact fun f fields hf hfields => List.forall_mem_cons.mpr ⟨hf, hfields⟩

/-- The keys of every object are distinct, as those of a JavaScript object are. -/
inductive Proper : Json → Prop
  | null : Proper .null
  | bool (b : Bool) : Proper (.bool b)
  | num (n : Number) : Proper (.num n)
  | str (s : String) : Proper (.str s)
  | arr {values : List Json} (h : ∀ v ∈ values, Proper v) : Proper (.arr values)
  | obj {fields : List (String × Json)} (hkeys : (fields.map Prod.fst).Nodup)
      (h : ∀ f ∈ fields, Proper f.2) : Proper (.obj fields)

theorem Proper.values {values : List Json} (h : Proper (.arr values)) : ∀ v ∈ values, Proper v := by
  cases h with
  | arr h => exact h

theorem Proper.keys {fields : List (String × Json)} (h : Proper (.obj fields)) :
    (fields.map Prod.fst).Nodup := by
  cases h with
  | obj hkeys h => exact hkeys

theorem Proper.fields {fields : List (String × Json)} (h : Proper (.obj fields)) :
    ∀ f ∈ fields, Proper f.2 := by
  cases h with
  | obj hkeys h => exact h

end Machinery.Json

import Mathlib.Data.List.Perm.Basic
import WorkPlatform.Machinery.JsonTree
import WorkPlatform.Machinery.Recursive

/-!
# Search/SearchText — the text of a document

    (j, 0) ──children──▸ (·, 1) ──children──▸ … ──▸ (·, 20)          UNION ALL
                                  strings ──string_agg ' '──▸ text

A node of depth 20 has no successors, so there are 21 generations at most, and a node is in the
answer once for each way down to it.  The text is that of the strings at most 20 steps below the
root, in an order of the database's choosing (`searchText_exact`).
-/

namespace WorkPlatform.Search

open Machinery

/-! ## `jsonb_to_search_text` -/

/-- The recursive term: `jsonb_array_elements` of an array, `jsonb_each` of an object. -/
def searchStep (nodes : List (Json × ℕ)) : List (Json × ℕ) :=
  nodes.flatMap fun node =>
    if node.2 < 20 then node.1.children.map fun val => (val, node.2 + 1) else []

/-- `node #>> '{}'` where `jsonb_typeof(node) = 'string'`. -/
def stringOf : Json → Option String
  | .str s => some s
  | _ => none

/-- `coalesce(string_agg(…), '')`, over rows as they come. -/
def stringAgg (nodes : List (Json × ℕ)) : String :=
  " ".intercalate (nodes.filterMap fun node => stringOf node.1)

/-- **What the function may return**: the query ends, and the rows are aggregated in some order. -/
def SearchText (j : Json) (text : String) : Prop :=
  ∃ n rows, unionAll searchStep n [(j, 0)] = some rows ∧
    ∃ order : List (Json × ℕ), order.Perm rows ∧ text = stringAgg order

/-! ## What it is for -/

/-- The strings at most so many steps below a value, each as often as it occurs. -/
def leaves : ℕ → Json → List String
  | _, .str s => [s]
  | 0, _ => []
  | d + 1, v => v.children.flatMap (leaves d)

/-- The way down from a value: which of the children, at each step. -/
def descend : Json → List ℕ → Option Json
  | v, [] => some v
  | v, i :: path => v.children[i]?.bind fun c => descend c path

/-- A value is a string, or has its strings below it. -/
theorem leaves_eq (d : ℕ) (v : Json) : leaves d v =
    (stringOf v).toList ++ if 0 < d then v.children.flatMap (leaves (d - 1)) else [] := by
  cases d <;> cases v <;> simp [leaves, stringOf, Json.children]

theorem stringOf_eq_some {v : Json} {s : String} : stringOf v = some s ↔ v = .str s := by
  cases v <;> simp [stringOf]

/-- A string is one of them where a way of so many steps leads to it. -/
theorem mem_leaves_iff {d : ℕ} {v : Json} {s : String} :
    s ∈ leaves d v ↔ ∃ path, path.length ≤ d ∧ descend v path = some (.str s) := by
  induction d generalizing v with
  | zero =>
    rw [leaves_eq, if_neg (Nat.lt_irrefl 0), List.append_nil, Option.mem_toList,
      stringOf_eq_some]
    constructor
    · rintro rfl
      exact ⟨[], Nat.le_refl 0, rfl⟩
    · rintro ⟨path, hpath, hs⟩
      obtain rfl := List.length_eq_zero_iff.mp (Nat.le_zero.mp hpath)
      exact Option.some.inj hs
  | succ d ih =>
    rw [leaves_eq, if_pos (Nat.succ_pos d), Nat.add_sub_cancel, List.mem_append, Option.mem_toList,
      stringOf_eq_some, List.mem_flatMap]
    constructor
    · rintro (rfl | ⟨c, hc, hs⟩)
      · exact ⟨[], Nat.zero_le _, rfl⟩
      · obtain ⟨path, hpath, hs⟩ := ih.mp hs
        obtain ⟨i, hi⟩ := List.mem_iff_getElem?.mp hc
        exact ⟨i :: path, Nat.succ_le_succ hpath, by rw [descend, hi, Option.bind_some, hs]⟩
    · rintro ⟨path, hpath, hs⟩
      cases path with
      | nil => exact Or.inl (Option.some.inj hs)
      | cons i path =>
        obtain ⟨c, hi, hs⟩ := Option.bind_eq_some_iff.mp hs
        have hc : c ∈ v.children := List.mem_iff_getElem?.mpr ⟨i, hi⟩
        exact Or.inr ⟨c, hc, ih.mpr ⟨path, Nat.le_of_succ_le_succ hpath, hs⟩⟩

/-! ## The query -/

theorem mem_searchStep {xs : List (Json × ℕ)} {x : Json × ℕ} (h : x ∈ searchStep xs) :
    ∃ node ∈ xs, node.2 < 20 ∧ x.2 = node.2 + 1 := by
  obtain ⟨node, hnode, hx⟩ := List.mem_flatMap.mp h
  split_ifs at hx with hlt
  · obtain ⟨val, -, rfl⟩ := List.mem_map.mp hx
    exact ⟨node, hnode, hlt, rfl⟩
  · cases hx

/-- **The query ends**: a node of depth 20 is the last of its line. -/
theorem exists_searchRows (j : Json) : ∃ rows, unionAll searchStep 21 [(j, 0)] = some rows := by
  refine exists_unionAll_of_rank (fun node => 20 - node.2) (fun xs y hy => ?_) fun x _ => ?_
  · obtain ⟨node, hnode, hlt, hy⟩ := mem_searchStep hy
    exact ⟨node, hnode, by omega⟩
  · exact Nat.lt_succ_of_le (Nat.sub_le 20 x.2)

/-- The strings below a generation: its own, and those below the next one. -/
theorem leaves_generation (xs : List (Json × ℕ)) :
    (xs.flatMap (fun node => (stringOf node.1).toList) ++
      (searchStep xs).flatMap fun node => leaves (20 - node.2) node.1).Perm
        (xs.flatMap fun node => leaves (20 - node.2) node.1) := by
  have hbelow : ((searchStep xs).flatMap fun node => leaves (20 - node.2) node.1) =
      xs.flatMap fun node =>
        if 0 < 20 - node.2 then node.1.children.flatMap (leaves (20 - node.2 - 1)) else [] := by
    rw [searchStep, List.flatMap_assoc]
    congr 1
    funext node
    by_cases hlt : node.2 < 20
    · have hpos : 0 < 20 - node.2 := by omega
      rw [if_pos hlt, if_pos hpos, List.flatMap_map]
      rfl
    · have hpos : ¬ 0 < 20 - node.2 := by omega
      rw [if_neg hlt, if_neg hpos, List.flatMap_nil]
  rw [hbelow]
  refine (List.flatMap_append_perm xs _ _).trans (.of_eq ?_)
  congr 1
  funext node
  exact (leaves_eq _ _).symm

/-! ## The text -/

/-- Every order of the strings is that of the rows in some order. -/
theorem exists_order {α β : Type*} {f : α → Option β} {l l' : List β} (h : l.Perm l')
    {rows : List α} (hrows : rows.filterMap f = l') :
    ∃ order : List α, order.Perm rows ∧ order.filterMap f = l := by
  induction h generalizing rows with
  | nil => exact ⟨rows, .refl rows, hrows⟩
  | cons x _ ih =>
    obtain ⟨before, a, rest, rfl, hbefore, hx, hrest⟩ := List.filterMap_eq_cons_iff.mp hrows
    obtain ⟨order, horder, rfl⟩ := ih hrest
    refine ⟨before ++ a :: order, (horder.cons a).append_left before, ?_⟩
    rw [List.filterMap_append, List.filterMap_eq_nil_iff.mpr hbefore, List.nil_append,
      List.filterMap_cons_some hx]
  | swap x y l =>
    obtain ⟨before, a, rest, rfl, hbefore, hx, hrest⟩ := List.filterMap_eq_cons_iff.mp hrows
    obtain ⟨between, b, rest, rfl, hbetween, hy, rfl⟩ := List.filterMap_eq_cons_iff.mp hrest
    refine ⟨before ++ b :: a :: (between ++ rest), ?_, ?_⟩
    · refine List.Perm.append_left before ?_
      exact (List.Perm.swap a b _).trans (List.perm_middle.symm.cons a)
    · rw [List.filterMap_append, List.filterMap_eq_nil_iff.mpr hbefore, List.nil_append,
        List.filterMap_cons_some hy, List.filterMap_cons_some hx, List.filterMap_append,
        List.filterMap_eq_nil_iff.mpr hbetween, List.nil_append]
  | trans _ _ ih₁ ih₂ =>
    obtain ⟨mid, hmid, heq⟩ := ih₂ hrows
    obtain ⟨order, horder, rfl⟩ := ih₁ heq
    exact ⟨order, horder.trans hmid, rfl⟩

/-- **The query ends, and a text is one the function may return exactly when it is that of the
strings at most 20 steps below the root**, each as often as it occurs and nothing else, in some
order: there is always one, and it is empty where there are none. -/
theorem searchText_exact (j : Json) :
    (∃ rows, ∀ n, 21 ≤ n → unionAll searchStep n [(j, 0)] = some rows) ∧
      (∃ text, SearchText j text) ∧
      (∀ text, SearchText j text ↔
        ∃ order : List String, order.Perm (leaves 20 j) ∧ text = " ".intercalate order) ∧
      (leaves 20 j = [] → ∀ text, SearchText j text ↔ text = "") := by
  obtain ⟨rows, hrows⟩ := exists_searchRows j
  have hstrings : ∀ {n rows}, unionAll searchStep n [(j, 0)] = some rows →
      (rows.filterMap fun node => stringOf node.1).Perm (leaves 20 j) := by
    intro n rows hrows
    have hall := flatMap_unionAll leaves_generation hrows
    rwa [List.flatMap_singleton, ← List.filterMap_eq_flatMap_toList] at hall
  have hexact : ∀ text, SearchText j text ↔
      ∃ order : List String, order.Perm (leaves 20 j) ∧ text = " ".intercalate order := by
    intro text
    constructor
    · rintro ⟨n, rows, hrows, order, horder, rfl⟩
      exact ⟨_, (horder.filterMap _).trans (hstrings hrows), rfl⟩
    · rintro ⟨order, horder, rfl⟩
      obtain ⟨arranged, harranged, rfl⟩ := exists_order (horder.trans (hstrings hrows).symm) rfl
      exact ⟨21, rows, hrows, arranged, harranged, rfl⟩
  refine ⟨⟨rows, fun n hn => unionAll_mono hrows hn⟩, ⟨_, (hexact _).mpr ⟨_, .refl _, rfl⟩⟩, hexact,
    fun hnone text => ?_⟩
  rw [hexact, hnone]
  constructor
  · rintro ⟨order, horder, rfl⟩
    rw [horder.eq_nil]
    rfl
  · rintro rfl
    exact ⟨[], .refl [], rfl⟩

/-- A paragraph with an attribute, a text and a flag. -/
def paragraph : Json :=
  .obj [("type", .str "paragraph"), ("attrs", .obj [("align", .null)]),
    ("content", .arr [.obj [("type", .str "text"), ("text", .str "Hello")], .bool true])]

/-- The keys, the null and the flag are no part of its text, whatever order its strings are in. -/
theorem searchText_exact_paragraph : SearchText paragraph "Hello paragraph text" :=
  ((searchText_exact paragraph).2.2.1 _).mpr
    ⟨["Hello", "paragraph", "text"], by decide, by decide⟩

end WorkPlatform.Search

import WorkPlatform.Machinery.Acyclic
import WorkPlatform.Machinery.Search
import WorkPlatform.Task.Dependency

/-!
# Task/Cycle — what `wouldCreateCycle` finds

    [blocked] ──▸ pop ──▸ the blocking task: true
                   │
                   └────▸ ask for its edges, push what they lead to ──▸ … ──▸ empty: false

The loop as a function of the answers to its queries, for a table that does not change.  It comes to
an end for every table, cycles and duplicate rows included, and says whether the blocked task's text
is the blocking one's or leads to it (`reaches_text`).  The texts it meets on the way are those that
ids are printed as, so that a blocking task in another spelling is never met: the answer is right
for the spellings of `Recognised` and for no others (`wouldCreateCycle_iff`).

The same loop, statement by statement among other calls, is the `search` of `addNext`: a call by
itself gets from its first query to the INSERT or to the error by what the function says
(`alone_search`).
-/

namespace WorkPlatform.Dependency

open Machinery Relation

/-! ## The loop -/

/-- The answers to the edge queries: SQL gives the rows in any order. -/
def Answers (db : Db) (orgId : String) (answer : String → Option (List String)) : Prop :=
  ∀ current, Option.Rel List.Perm (answer current) (blockedTaskIds db orgId current)

/-- The `while` loop of `wouldCreateCycle`, for so many turns; `none` when they do not suffice, and
`some none` when a query throws. -/
def cycleLoop (answer : String → Option (List String)) (blockingTaskId : String) :
    ℕ → List String → List String → Option (Option Bool)
  | _, _, [] => some (some false)
  | 0, _, _ :: _ => none
  | n + 1, visited, current :: stack =>
    if current = blockingTaskId then some (some true)
    else if current ∈ visited then cycleLoop answer blockingTaskId n visited stack
    else
      match answer current with
      | some rows => cycleLoop answer blockingTaskId n (current :: visited) (pushAll rows stack)
      | none => some none

/-- `wouldCreateCycle`: the loop from the blocked task. -/
def wouldCreateCycle (answer : String → Option (List String))
    (blockingTaskId blockedTaskId : String) (turns : ℕ) : Option (Option Bool) :=
  cycleLoop answer blockingTaskId turns [] [blockedTaskId]

theorem length_pushAll (rows stack : List String) :
    (pushAll rows stack).length = rows.length + stack.length := by
  induction rows generalizing stack with
  | nil => simp [pushAll]
  | cons r rows ih =>
    have htail : (pushAll rows (r :: stack)).length = rows.length + (r :: stack).length := ih _
    simp only [pushAll, List.foldl_cons, List.length_cons] at htail ⊢
    omega

/-! ## The graph of texts -/

/-- What the loop sees of the graph: from a text of a task to the text that another is printed
as. -/
def TextEdge (db : Db) (o : Uuid.Id) (text text' : String) : Prop :=
  ∃ x y, Uuid.read text = some x ∧ Edge db o x y ∧ y.text = text'

section

variable {db : Db} {o x y : Uuid.Id} {a b text : String}

/-- Edges lead to texts that ids are printed as. -/
theorem transGen_textEdge (hx : Uuid.read b = some x) :
    TransGen (TextEdge db o) b a ↔ ∃ y, TransGen (Edge db o) x y ∧ y.text = a := by
  constructor
  · intro h
    induction h with
    | single hedge =>
      obtain ⟨x', y, hx', hedge, rfl⟩ := hedge
      obtain rfl := Option.some.inj (hx.symm.trans hx')
      exact ⟨y, .single hedge, rfl⟩
    | tail _ hedge ih =>
      obtain ⟨y, hreach, rfl⟩ := ih
      obtain ⟨x', z, hx', hedge, rfl⟩ := hedge
      obtain rfl := Option.some.inj ((Uuid.read_text y).symm.trans hx')
      exact ⟨z, hreach.tail hedge, rfl⟩
  · rintro ⟨y, h, rfl⟩
    induction h with
    | single hedge => exact .single ⟨_, _, hx, hedge, rfl⟩
    | tail _ hedge ih => exact ih.tail ⟨_, _, Uuid.read_text _, hedge, rfl⟩

/-- **What the loop can meet**: the blocked task's own text, and the texts that the tasks it leads
to are printed as. -/
theorem reaches_text (hx : Uuid.read b = some x) :
    ReflTransGen (TextEdge db o) b a ↔ a = b ∨ ∃ y, TransGen (Edge db o) x y ∧ y.text = a := by
  rw [reflTransGen_iff_eq_or_transGen, transGen_textEdge hx]

/-- The edges of one organisation as the loop sees them, as often as they are stored: the start may
have a text of its own. -/
def edges (db : Db) (o x : Uuid.Id) (b : String) : List (String × String) :=
  ((db.taskDependencies.filter fun r => r.orgId = o).map fun r =>
    (r.blockingTaskId.text, r.blockedTaskId.text))
    ++ if x.text = b then [] else (blockedBy db o x).map fun y => (b, y.text)

/-- The stored edges out of a task. -/
theorem countP_text (db : Db) (o x : Uuid.Id) :
    ((db.taskDependencies.filter fun r => r.orgId = o).map fun r =>
      (r.blockingTaskId.text, r.blockedTaskId.text)).countP (fun e => e.1 = x.text)
      = (blockedBy db o x).length := by
  simp [blockedBy, List.countP_eq_length_filter, List.filter_map, List.filter_filter,
    Function.comp_def, Bool.and_comm, Uuid.text_injective.eq_iff]

/-- **A query has as many rows as there are edges out of its text**, for the start and for the texts
that ids are printed as. -/
theorem length_blockedBy (hb : Uuid.read b = some x) (hy : Uuid.read text = some y)
    (htext : text = b ∨ text = y.text) :
    (blockedBy db o y).length = (edges db o x b).countP fun e => e.1 = text := by
  rw [edges, List.countP_append]
  by_cases hprinted : text = y.text
  · have hnone : (if x.text = b then [] else (blockedBy db o x).map fun y => (b, y.text)).countP
        (fun e => e.1 = text) = 0 := by
      split
      case isTrue => rfl
      case isFalse hne =>
        refine List.countP_eq_zero.mpr fun e he => ?_
        obtain ⟨z, -, rfl⟩ := List.mem_map.mp he
        rw [decide_eq_true_eq]
        rintro rfl
        obtain rfl := Option.some.inj (hb.symm.trans hy)
        exact hne hprinted.symm
    rw [hnone, hprinted, countP_text, Nat.add_zero]
  · obtain rfl : text = b := htext.resolve_right hprinted
    obtain rfl := Option.some.inj (hb.symm.trans hy)
    have hnone : ((db.taskDependencies.filter fun r => r.orgId = o).map fun r =>
        (r.blockingTaskId.text, r.blockedTaskId.text)).countP (fun e => e.1 = text) = 0 := by
      refine List.countP_eq_zero.mpr fun e he => ?_
      obtain ⟨r, -, rfl⟩ := List.mem_map.mp he
      rw [decide_eq_true_eq]
      rintro rfl
      rw [Uuid.read_text] at hb
      exact hprinted (congrArg Uuid.Id.text (Option.some.inj hb))
    rw [hnone, if_neg fun h => hprinted h.symm, Nat.zero_add, List.countP_map]
    exact (List.countP_eq_length.mpr fun z _ => decide_eq_true rfl).symm

end

/-! ## From any frontier -/

section

variable {db : Db} {orgId a b current : String} {o x : Uuid.Id}
  {answer : String → Option (List String)} {visited stack : List String}

/-- The answer for a text that the loop meets: its edges, as many as are stored. -/
theorem Answers.rows (stack : List String) (h : Answers db orgId answer)
    (ho : Uuid.read orgId = some o) (hb : Uuid.read b = some x)
    (hcurrent : ReflTransGen (TextEdge db o) b current) :
    ∃ rows, answer current = some rows
      ∧ (∀ text, text ∈ pushAll rows stack ↔ TextEdge db o current text ∨ text ∈ stack)
      ∧ (pushAll rows stack).length
        = (edges db o x b).countP (fun e => e.1 = current) + stack.length := by
  obtain ⟨y, hy, htext⟩ : ∃ y, Uuid.read current = some y ∧ (current = b ∨ current = y.text) := by
    rcases (reaches_text hb).mp hcurrent with rfl | ⟨y, -, rfl⟩
    · exact ⟨x, hb, Or.inl rfl⟩
    · exact ⟨y, Uuid.read_text y, Or.inr rfl⟩
  have hrows : blockedTaskIds db orgId current = some ((blockedBy db o y).map (·.text)) := by
    rw [blockedTaskIds, ho, hy]
  have hrel := h current
  rw [hrows] at hrel
  cases hanswer : answer current with
  | none =>
    rw [hanswer] at hrel
    cases hrel
  | some rows =>
    rw [hanswer] at hrel
    cases hrel with
    | some hperm =>
      refine ⟨rows, rfl, fun text => ?_, ?_⟩
      · rw [mem_pushAll, hperm.mem_iff, mem_blockedTaskIds ho hy hrows]
        refine or_congr_left ⟨?_, ?_⟩
        · rintro ⟨z, hz, heq⟩
          exact ⟨y, z, hy, hz, heq⟩
        · rintro ⟨y', z, hy', hz, heq⟩
          obtain rfl := Option.some.inj (hy.symm.trans hy')
          exact ⟨z, hz, heq⟩
      · rw [length_pushAll, hperm.length_eq, List.length_map, length_blockedBy hb hy htext]

/-- **The loop from any frontier**: the turns that remain suffice, no query throws, and it finds the
blocking task's text where it can be met. -/
theorem cycleLoop_spec (hans : Answers db orgId answer) (ho : Uuid.read orgId = some o)
    (hb : Uuid.read b = some x) {n : ℕ} (h : Searched (TextEdge db o) b visited stack)
    (ha : a ∉ visited) (hn : remaining (edges db o x b) visited stack ≤ n) :
    ∃ found, cycleLoop answer a n visited stack = some (some found) ∧
      (found = true ↔ ReflTransGen (TextEdge db o) b a) := by
  induction n generalizing visited stack with
  | zero =>
    cases stack with
    | nil => exact ⟨false, by rw [cycleLoop], by simp [h.reaches_iff, ha]⟩
    | cons current stack => rw [remaining_cons] at hn; omega
  | succ n ih =>
    cases stack with
    | nil => exact ⟨false, by rw [cycleLoop], by simp [h.reaches_iff, ha]⟩
    | cons current stack =>
      have hreached : ReflTransGen (TextEdge db o) b current :=
        h.sound current (Or.inr List.mem_cons_self)
      rw [cycleLoop]
      split_ifs with hfound hvisited
      · subst hfound
        exact ⟨true, rfl, by simp [hreached]⟩
      · rw [remaining_cons] at hn
        exact ih (h.skip hvisited) ha (by omega)
      · obtain ⟨rows, hanswer, hmem, hlen⟩ := hans.rows stack ho hb hreached
        rw [remaining_visit hvisited hlen] at hn
        have hnew : a ∉ current :: visited := by
          rw [List.mem_cons, not_or]
          exact ⟨fun heq => hfound heq.symm, ha⟩
        rw [hanswer]
        exact ih (h.visit hmem) hnew (by omega)

/-- The graph with the row an INSERT adds. -/
theorem edge_eq_addEdge {db' : Db} {row : TaskDependencyRow} (h : insertRow db row = some db') :
    Edge db' row.orgId = AddEdge (Edge db row.orgId) row.blockingTaskId row.blockedTaskId := by
  ext x y
  simp [edge_insertRow h, AddEdge, eq_comm]

end

/-! ## Spellings -/

/-- The answer `found` for tasks `x` and `y` is right: it says whether `y` reaches `x`, and so
whether the edge `x → y` would close a cycle. -/
structure Right (db : Db) (o x y : Uuid.Id) (found : Bool) : Prop where
  reaches : found = true ↔ ReflTransGen (Edge db o) y x
  edge : Acyclic (Edge db o) → (Acyclic (AddEdge (Edge db o) x y) ↔ found = false)
  insert : Acyclic (Edge db o) → ∀ id createdBy db',
    insertRow db ⟨id, o, x, y, createdBy⟩ = some db' → (Acyclic (Edge db' o) ↔ found = false)

/-- The blocking task `x` is met where it is reached: its text is the blocked task's own; or it is
the one that ids are printed as, and the blocked task is another or on a cycle; or it is not
reached. -/
def Recognised (db : Db) (o x y : Uuid.Id) (a b : String) : Prop :=
  a = b ∨ (a = x.text ∧ (x = y → TransGen (Edge db o) x x))
    ∨ (a ≠ x.text ∧ ¬ ReflTransGen (Edge db o) y x)

section

variable {db : Db} {o x y : Uuid.Id} {a b : String}

/-- An answer is right where it is true exactly of what can be reached. -/
theorem right_iff {found : Bool} :
    Right db o x y found ↔ (found = true ↔ ReflTransGen (Edge db o) y x) := by
  refine ⟨Right.reaches, fun h => ?_⟩
  have hadd : Acyclic (Edge db o) → (Acyclic (AddEdge (Edge db o) x y) ↔ found = false) := by
    intro hacyclic
    rw [acyclic_addEdge_iff hacyclic, ← h, Bool.not_eq_true]
  refine ⟨h, hadd, fun hacyclic id createdBy db' hins => ?_⟩
  have hedge : Edge db' o = AddEdge (Edge db o) x y := edge_eq_addEdge hins
  rw [hedge]
  exact hadd hacyclic

/-- The texts lead from one to the other as the tasks do, for the spellings that are met. -/
theorem reaches_text_iff (ha : Uuid.read a = some x) (hb : Uuid.read b = some y) :
    (ReflTransGen (TextEdge db o) b a ↔ ReflTransGen (Edge db o) y x)
      ↔ Recognised db o x y a b := by
  rw [reaches_text hb]
  by_cases hsame : a = b
  · subst hsame
    obtain rfl := Option.some.inj (ha.symm.trans hb)
    exact iff_of_true (iff_of_true (Or.inl rfl) .refl) (Or.inl rfl)
  · by_cases hprinted : a = x.text
    · have hmet : (∃ z, TransGen (Edge db o) y z ∧ z.text = a) ↔ TransGen (Edge db o) y x := by
        rw [hprinted]
        exact ⟨fun ⟨z, hz, heq⟩ => Uuid.text_injective heq ▸ hz, fun hx => ⟨x, hx, rfl⟩⟩
      rw [hmet, or_iff_right hsame, Recognised, or_iff_right hsame,
        or_iff_left fun h => h.1 hprinted, and_iff_right hprinted, reflTransGen_iff_eq_or_transGen]
      constructor
      · rintro h rfl
        exact h.mpr (Or.inl rfl)
      · refine fun h => ⟨Or.inr, fun hreach => ?_⟩
        rcases hreach with rfl | hreach
        · exact h rfl
        · exact hreach
    · have hmissed : ¬ (a = b ∨ ∃ z, TransGen (Edge db o) y z ∧ z.text = a) := by
        rintro (heq | ⟨z, -, rfl⟩)
        · exact hsame heq
        · exact hprinted (congrArg Uuid.Id.text
            (Option.some.inj ((Uuid.read_text z).symm.trans ha)))
      rw [iff_false_left hmissed, Recognised, or_iff_right hsame,
        or_iff_right fun h => hprinted h.1, and_iff_right hprinted]

end

/-- **`wouldCreateCycle` comes to an end for every table, and its answer is right exactly for the
spellings in which the blocking task is recognised.** -/
theorem wouldCreateCycle_iff {db : Db} {orgId a b : String} {o x y : Uuid.Id}
    {answer : String → Option (List String)} (hans : Answers db orgId answer)
    (ho : Uuid.read orgId = some o) (ha : Uuid.read a = some x) (hb : Uuid.read b = some y) :
    ∃ turns, ∀ n ≥ turns, ∃ found, wouldCreateCycle answer a b n = some (some found) ∧
      (Right db o x y found ↔ Recognised db o x y a b) := by
  refine ⟨remaining (edges db o y b) [] [b], fun n hn => ?_⟩
  obtain ⟨found, hloop, hfound⟩ :=
    cycleLoop_spec (a := a) hans ho hb (Searched.init _ b) List.not_mem_nil hn
  exact ⟨found, hloop, by rw [right_iff, hfound, reaches_text_iff ha hb]⟩

/-- Three tasks in a circle, one of its edges stored twice, and a fourth task beside it. -/
def circle : Db where
  tasks := []
  taskDependencies :=
    [⟨.replicate 1, .replicate 0, .replicate 10, .replicate 11, "u"⟩,
      ⟨.replicate 2, .replicate 0, .replicate 11, .replicate 12, "u"⟩,
      ⟨.replicate 3, .replicate 0, .replicate 12, .replicate 10, "u"⟩,
      ⟨.replicate 4, .replicate 0, .replicate 10, .replicate 11, "u"⟩,
      ⟨.replicate 5, .replicate 15, .replicate 12, .replicate 13, "u"⟩]

/-- The text that the id with one digit is printed as. -/
def demoText (digit : ℕ) : String := (Uuid.Id.replicate digit).text

theorem answers_blockedTaskIds (db : Db) (orgId : String) :
    Answers db orgId (blockedTaskIds db orgId) := by
  intro current
  cases blockedTaskIds db orgId current with
  | none => exact .none
  | some rows => exact .some (.refl rows)

/-- Turns that suffice, and more. -/
theorem cycleLoop_add {answer : String → Option (List String)} {a : String} {n : ℕ}
    {visited stack : List String} {found : Option Bool} (m : ℕ)
    (h : cycleLoop answer a n visited stack = some found) :
    cycleLoop answer a (n + m) visited stack = some found := by
  induction n generalizing visited stack with
  | zero =>
    cases stack with
    | nil => rwa [cycleLoop] at h ⊢
    | cons current stack => cases h
  | succ n ih =>
    cases stack with
    | nil => rwa [cycleLoop] at h ⊢
    | cons current stack =>
      rw [Nat.succ_add]
      rw [cycleLoop] at h ⊢
      split_ifs at h ⊢ with hfound hvisited
      · exact h
      · exact ih h
      · cases hanswer : answer current with
        | none =>
          rw [hanswer] at h
          exact h
        | some rows =>
          rw [hanswer] at h
          exact ih h

/-- The loop comes out of the circle: it ends with `false`, so nothing leads to the fourth task. -/
theorem wouldCreateCycle_iff_circle :
    (∃ n, wouldCreateCycle (blockedTaskIds circle (demoText 0)) (demoText 13)
        (demoText 10) n = some (some false)) ∧
      ¬ ReflTransGen (Edge circle (.replicate 0)) (.replicate 10) (.replicate 13) := by
  obtain ⟨turns, h⟩ := wouldCreateCycle_iff (answers_blockedTaskIds circle (demoText 0))
    (Uuid.read_text (.replicate 0)) (Uuid.read_text (.replicate 13)) (Uuid.read_text (.replicate 10))
  obtain ⟨found, hn, hright⟩ := h (5 + turns) (Nat.le_add_left turns 5)
  have hfive : wouldCreateCycle (blockedTaskIds circle (demoText 0)) (demoText 13)
      (demoText 10) 5 = some (some false) := by decide +kernel
  obtain rfl : found = false :=
    Option.some.inj (Option.some.inj (hn.symm.trans (cycleLoop_add turns hfive)))
  have hrecognised : Recognised circle (.replicate 0) (.replicate 13) (.replicate 10) (demoText 13)
      (demoText 10) := Or.inr (Or.inl ⟨rfl, fun heq => absurd heq (by decide)⟩)
  exact ⟨⟨5, hfive⟩, fun hreach => Bool.false_ne_true ((hright.mpr hrecognised).reaches.mpr hreach)⟩

/-- The first task of the circle, in upper case. -/
def upperCase : String := "AAAAAAAA-AAAA-AAAA-AAAA-AAAAAAAAAAAA"

/-- **In upper case a task of the circle is not found**, though every other leads to it. -/
theorem upperCase_not_found : ¬ ∀ (db : Db) (orgId a b : String) (o x y : Uuid.Id)
    (answer : String → Option (List String)), Answers db orgId answer →
    Uuid.read orgId = some o → Uuid.read a = some x → Uuid.read b = some y →
    ∃ turns, ∀ n ≥ turns, ∃ found, wouldCreateCycle answer a b n = some (some found) ∧
      Right db o x y found := by
  intro hclaim
  obtain ⟨turns, h⟩ := hclaim circle (demoText 0) upperCase (demoText 11) _ (.replicate 10) _ _
    (answers_blockedTaskIds circle (demoText 0)) (Uuid.read_text _) (by decide +kernel)
    (Uuid.read_text _)
  obtain ⟨found, hn, hright⟩ := h (5 + turns) (Nat.le_add_left turns 5)
  have hfive : wouldCreateCycle (blockedTaskIds circle (demoText 0)) upperCase
      (demoText 11) 5 = some (some false) := by decide +kernel
  obtain rfl : found = false :=
    Option.some.inj (Option.some.inj (hn.symm.trans (cycleLoop_add turns hfive)))
  have hedge : ∀ x y, y ∈ blockedBy circle (.replicate 0) x → Edge circle (.replicate 0) x y :=
    fun _ _ => mem_blockedBy.mp
  have hreach : ReflTransGen (Edge circle (.replicate 0)) (.replicate 11) (.replicate 10) :=
    (ReflTransGen.single (hedge _ (.replicate 12) (by decide))).tail (hedge _ _ (by decide))
  exact Bool.false_ne_true (hright.reaches.mpr hreach)

/-! ## The loop among other calls -/

/-- Where a call stands that has found a path, or none. -/
def afterLoop (visited : List String) : Option Bool → AddPc
  | some true => .threw (.unprocessable "DEPENDENCY_CYCLE"
      "Adding this dependency would create a cycle")
  | some false => .insert visited
  | none => .dbError

/-- **A call by itself goes where the loop says**: from its frontier to the INSERT, or to an
error. -/
theorem alone_search {db : Db} {args : AddArgs} {visited stack : List String} {n : ℕ}
    {found : Option Bool}
    (h : cycleLoop (blockedTaskIds db args.orgId) args.blockingTaskId n visited stack
      = some found) :
    ∃ visited', dependencyMachine.Alone (db, .add args (search args visited stack))
      (db, .add args (afterLoop visited' found)) := by
  induction n generalizing visited stack with
  | zero =>
    cases stack with
    | nil =>
      obtain rfl : some false = found := Option.some.inj (by rwa [cycleLoop] at h)
      exact ⟨visited, .refl _⟩
    | cons current stack => cases h
  | succ n ih =>
    cases stack with
    | nil =>
      obtain rfl : some false = found := Option.some.inj (by rwa [cycleLoop] at h)
      exact ⟨visited, .refl _⟩
    | cons current stack =>
      rw [cycleLoop] at h
      split_ifs at h with hfound hvisited
      · obtain rfl := Option.some.inj h
        refine ⟨[], ?_⟩
        rw [search, nextQuery, if_pos hfound]
        exact .refl _
      · have hskip : search args visited (current :: stack) = search args visited stack := by
          rw [search, nextQuery, if_neg hfound, if_pos hvisited, search]
        rw [hskip]
        exact ih h
      · have hquery : search args visited (current :: stack)
            = .query (current :: visited) stack current := by
          rw [search, nextQuery, if_neg hfound, if_neg hvisited]
        rw [hquery]
        cases hanswer : blockedTaskIds db args.orgId current with
        | none =>
          rw [hanswer] at h
          obtain rfl := Option.some.inj h
          refine ⟨[], Run.tail (a := ⟨true, .replicate 0⟩) .refl trivial ?_⟩
          simp only [dependencyMachine, next, addNext, hanswer, Option.map_some, afterLoop]
        | some rows =>
          rw [hanswer] at h
          obtain ⟨visited', hrest⟩ := ih h
          refine ⟨visited', Run.trans (Run.tail (a := ⟨true, .replicate 0⟩) .refl trivial ?_) hrest⟩
          simp only [dependencyMachine, next, addNext, hanswer, Option.map_some]

/-- **By itself, a call inserts its edge exactly when its search does not meet the blocking task**:
otherwise it ends in the error. -/
theorem alone_add (db : Db) (args : AddArgs) {o y : Uuid.Id} (ho : Uuid.read args.orgId = some o)
    (hy : Uuid.read args.blockedTaskId = some y) :
    ∃ found visited, dependencyMachine.Alone
        (db, .add args (search args [] [args.blockedTaskId]))
        (db, .add args (afterLoop visited (some found))) ∧
      (found = true ↔
        ReflTransGen (TextEdge db o) args.blockedTaskId args.blockingTaskId) := by
  obtain ⟨found, hloop, hfound⟩ := cycleLoop_spec (a := args.blockingTaskId)
    (answers_blockedTaskIds db args.orgId) ho hy (Searched.init _ args.blockedTaskId)
    List.not_mem_nil le_rfl
  obtain ⟨visited, halone⟩ := alone_search hloop
  exact ⟨found, visited, halone, hfound⟩

end WorkPlatform.Dependency

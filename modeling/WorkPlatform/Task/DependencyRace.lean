import Mathlib.Data.Fin.VecNotation
import Mathlib.Tactic.FinCases
import WorkPlatform.Machinery.Acyclic
import WorkPlatform.Task.Dependency

/-!
# Task/DependencyRace — the dependency graph under interleaved calls

`wouldCreateCycle` reads the graph one task at a time and the INSERT is a statement of its own, so
a call acts on answers that may be out of date: two calls that add `x → y` and `y → x` both find
nothing and both insert (`crossing_adds_close_cycle`).

Two things go wrong.  A row `x → y` is inserted while another call of the organisation, not yet past
its own INSERT, has already run its query for `x` and does not know `y`; or the blocking task is
given in a text that no id is printed as, and no search meets it.  A run in which neither happens
(`Unmissed`) keeps the graph acyclic (`acyclic_of_unmissed`).
-/

namespace WorkPlatform.Dependency

open Machinery Relation

variable {ι : Type*} [DecidableEq ι]

/-! ## The condition on the schedule -/

/-- The call has run its edge query for the blocking task of `row` and has the blocked one in no
spelling on its lists: it would miss `row` inserted now. -/
def Misses (row : AddArgs) : Call → Prop
  | .add args (.query visited stack current) =>
    Uuid.read args.orgId = Uuid.read row.orgId
      ∧ (∃ text ∈ visited, text ≠ current ∧ Uuid.read text = Uuid.read row.blockingTaskId)
      ∧ ∀ text ∈ visited ++ stack, Uuid.read text ≠ Uuid.read row.blockedTaskId
  | .add args (.insert visited) =>
    Uuid.read args.orgId = Uuid.read row.orgId
      ∧ (∃ text ∈ visited, Uuid.read text = Uuid.read row.blockingTaskId)
      ∧ ∀ text ∈ visited, Uuid.read text ≠ Uuid.read row.blockedTaskId
  | _ => False

instance (row : AddArgs) : DecidablePred (Misses row)
  | .add _ (.query _ _ _) => inferInstanceAs (Decidable (_ ∧ _ ∧ _))
  | .add _ (.insert _) => inferInstanceAs (Decidable (_ ∧ _ ∧ _))
  | .add _ (.find _ _) => inferInstanceAs (Decidable False)
  | .add _ (.threw _) => inferInstanceAs (Decidable False)
  | .add _ .dbError => inferInstanceAs (Decidable False)
  | .add _ (.returned _) => inferInstanceAs (Decidable False)
  | .remove _ _ _ => inferInstanceAs (Decidable False)

/-- The text is the one that its id is printed as. -/
def Printed (text : String) : Prop := (Uuid.read text).map (·.text) = some text

instance (text : String) : Decidable (Printed text) :=
  inferInstanceAs (Decidable (_ = _))

/-- The arguments of a call that is about to INSERT. -/
def inserting : Proc Call → Option AddArgs
  | .up (.add args (.insert _)) => some args
  | _ => none

/-- **No INSERT is missed**: when a call inserts its edge, it has the blocking task as ids are
printed, and no other call still searching or about to insert in that organisation would miss the
edge. -/
def Unmissed (p : Calls ι) : Move ι Draw Empty → Prop
  | .run i _ => ∀ args ∈ inserting (p.calls i), Printed args.blockingTaskId
      ∧ ∀ j, j ≠ i → ¬ (p.calls j).Live (Misses args)
  | _ => True

instance [Fintype ι] (p : Calls ι) : ∀ m : Move ι Draw Empty, Decidable (Unmissed p m)
  | .run i _ => inferInstanceAs (Decidable (∀ args ∈ inserting (p.calls i),
      Printed args.blockingTaskId ∧ ∀ j, j ≠ i → ¬ (p.calls j).Live (Misses args)))
  | .crash _ => inferInstanceAs (Decidable True)
  | .env e => e.elim

/-! ## What a search knows -/

/-- The edges out of the texts that `read` says were queried lead to texts the search has on its
lists; the blocked task's text is on them, beside it only texts that ids are printed as, and the
blocking task's text was never visited. -/
structure Frontier (db : Db) (args : AddArgs) (visited stack : List String)
    (read : String → Prop) : Prop where
  blocked_mem : args.blockedTaskId ∈ visited ∨ args.blockedTaskId ∈ stack
  blocking_notMem : args.blockingTaskId ∉ visited
  printed : ∀ v, v ∈ visited ∨ v ∈ stack → v = args.blockedTaskId ∨ ∃ x : Uuid.Id, x.text = v
  edges : ∀ v ∈ visited, read v → ∀ o x y, Uuid.read args.orgId = some o →
    Uuid.read v = some x → Edge db o x y → ∃ w, (w ∈ visited ∨ w ∈ stack) ∧ Uuid.read w = some y

/-- What a running call knows of the graph. -/
def Knows (db : Db) : Call → Prop
  | .add args (.query visited stack current) => Frontier db args visited stack (· ≠ current)
  | .add args (.insert visited) => Frontier db args visited [] fun _ => True
  | _ => True

/-- **The loop keeps its frontier** up to its next query. -/
theorem knows_search {db : Db} {args : AddArgs} {visited : List String} : ∀ {stack : List String},
    Frontier db args visited stack (fun _ => True) →
      Knows db (.add args (search args visited stack))
  | [], h => h
  | current :: stack, h => by
      by_cases hfound : current = args.blockingTaskId
      · simp [search, nextQuery, hfound, Knows]
      · by_cases hmem : current ∈ visited
        · have hskip : search args visited (current :: stack) = search args visited stack := by
            simp [search, nextQuery, hfound, hmem]
          have hin : ∀ w, w ∈ visited ∨ w ∈ current :: stack → w ∈ visited ∨ w ∈ stack := by
            intro w hw
            rcases hw with hw | hw
            · exact Or.inl hw
            · rcases List.mem_cons.mp hw with rfl | hw
              · exact Or.inl hmem
              · exact Or.inr hw
          rw [hskip]
          refine knows_search ⟨hin _ h.blocked_mem, h.blocking_notMem, fun v hv => ?_,
            fun v hv hr o x y ho hx hxy => ?_⟩
          · exact h.printed v (hv.imp_right (List.mem_cons_of_mem current))
          · obtain ⟨w, hw, hy⟩ := h.edges v hv hr o x y ho hx hxy
            exact ⟨w, hin w hw, hy⟩
        · have hquery : search args visited (current :: stack)
              = .query (current :: visited) stack current := by
            simp [search, nextQuery, hfound, hmem]
          have hin : ∀ w, w ∈ current :: visited ∨ w ∈ stack ↔ w ∈ visited ∨ w ∈ current :: stack := by
            intro w
            simp only [List.mem_cons]
            tauto
          rw [hquery]
          refine ⟨(hin _).mpr h.blocked_mem, ?_, fun v hv => h.printed v ((hin v).mp hv),
            fun v hv hr o x y ho hx hxy => ?_⟩
          · rw [List.mem_cons, not_or]
            exact ⟨fun he => hfound he.symm, h.blocking_notMem⟩
          · have hv' : v ∈ visited := (List.mem_cons.mp hv).resolve_left hr
            obtain ⟨w, hw, hy⟩ := h.edges v hv' trivial o x y ho hx hxy
            exact ⟨w, (hin w).mpr hw, hy⟩

/-- The search starts from the blocked task with nothing visited. -/
theorem knows_join {db : Db} {args : AddArgs} (b b' : Option (Option TaskRow)) :
    Knows db (.add args (join args b b')) := by
  have hstart : Knows db (.add args (search args [] [args.blockedTaskId])) :=
    knows_search ⟨Or.inr (by simp), by simp, by simp, by simp⟩
  unfold join
  split
  case h_2 => trivial
  case h_1 =>
    unfold validate
    repeat' split
    all_goals first
      | exact hstart
      | trivial

/-- The answer to the query of `current` puts its edges on the stack. -/
theorem knows_answer {db : Db} {args : AddArgs} {visited stack rows : List String}
    {current : String} (h : Frontier db args visited stack (· ≠ current))
    (hrows : blockedTaskIds db args.orgId current = some rows) :
    Knows db (.add args (search args visited (pushAll rows stack))) := by
  obtain ⟨o, x, ho, hx⟩ := read_of_blockedTaskIds hrows
  have hmem : ∀ {w}, w ∈ visited ∨ w ∈ stack → w ∈ visited ∨ w ∈ pushAll rows stack :=
    fun hw => hw.imp_right fun hw => mem_pushAll.mpr (Or.inr hw)
  refine knows_search ⟨hmem h.blocked_mem, h.blocking_notMem, fun v hv => ?_,
    fun v hv _ o' x' y ho' hx' hxy => ?_⟩
  · rcases hv with hv | hv
    · exact h.printed v (Or.inl hv)
    · rcases mem_pushAll.mp hv with hv | hv
      · obtain ⟨y, -, heq⟩ := (mem_blockedTaskIds ho hx hrows).mp hv
        exact Or.inr ⟨y, heq⟩
      · exact h.printed v (Or.inr hv)
  · by_cases hcur : v = current
    · subst hcur
      obtain rfl := Option.some.inj (ho.symm.trans ho')
      obtain rfl := Option.some.inj (hx.symm.trans hx')
      have hy : y.text ∈ rows := (mem_blockedTaskIds ho hx hrows).mpr ⟨y, hxy, rfl⟩
      exact ⟨y.text, Or.inr (mem_pushAll.mpr (Or.inl hy)), Uuid.read_text y⟩
    · obtain ⟨w, hw, hy⟩ := h.edges v hv hcur o' x' y ho' hx' hxy
      exact ⟨w, hmem hw, hy⟩

/-- **A statement leaves the call that ran it knowing the graph it read.** -/
theorem knows_next {db db' : Db} {c c' : Call} {d : Draw} (hc : Knows db c)
    (h : next db c d = some (db', c')) : Knows db' c' := by
  rcases next_db h with rfl | ⟨args, visited, row, rfl, rfl, -⟩ | ⟨_, _, rfl, rfl⟩
  · cases c with
    | remove orgId dependencyId deleted =>
      cases deleted with
      | true => cases h
      | false =>
        obtain ⟨-, rfl⟩ := Prod.mk.inj (Option.some.inj h)
        trivial
    | add args pc =>
      obtain ⟨⟨db₁, pc'⟩, hpc, heq⟩ := Option.map_eq_some_iff.mp h
      obtain ⟨-, rfl⟩ := Prod.mk.inj heq
      cases pc with
      | find b b' =>
        rcases (addNext_find hpc).2 with rfl | ⟨_, _, rfl⟩
        · trivial
        · exact knows_join _ _
      | query visited stack current =>
        simp only [addNext] at hpc
        split at hpc
        case h_1 rows hrows =>
          obtain ⟨-, rfl⟩ := Prod.mk.inj (Option.some.inj hpc)
          exact knows_answer hc hrows
        case h_2 =>
          obtain ⟨-, rfl⟩ := Prod.mk.inj (Option.some.inj hpc)
          trivial
      | insert visited =>
        simp only [addNext] at hpc
        split at hpc
        all_goals
          obtain ⟨-, rfl⟩ := Prod.mk.inj (Option.some.inj hpc)
          trivial
      | threw e => cases hpc
      | dbError => cases hpc
      | returned row => cases hpc
  · trivial
  · trivial

/-- What a call knows survives a DELETE. -/
theorem knows_delete {db : Db} {orgId dependencyId : String} {c : Call} (hc : Knows db c) :
    Knows (deleteDependency db orgId dependencyId) c := by
  have hfr : ∀ {args visited stack read}, Frontier db args visited stack read →
      Frontier (deleteDependency db orgId dependencyId) args visited stack read :=
    fun h => ⟨h.blocked_mem, h.blocking_notMem, h.printed,
      fun v hv hr o x y ho hx hxy => h.edges v hv hr o x y ho hx (edge_of_deleteDependency hxy)⟩
  cases c with
  | remove _ _ _ => trivial
  | add args pc =>
    cases pc with
    | query visited stack current => exact hfr hc
    | insert visited => exact hfr hc
    | _ => trivial

/-- …and an INSERT it does not miss. -/
theorem knows_insert {db db' : Db} {args : AddArgs} {row : TaskDependencyRow} {c : Call}
    (hc : Knows db c) (ho : Uuid.read args.orgId = some row.orgId)
    (hx : Uuid.read args.blockingTaskId = some row.blockingTaskId)
    (hy : Uuid.read args.blockedTaskId = some row.blockedTaskId)
    (hins : insertRow db row = some db') (hmiss : ¬ Misses args c) : Knows db' c := by
  have hkeep : ∀ {a visited stack read}, Frontier db a visited stack read →
      (∀ v ∈ visited, read v → Uuid.read a.orgId = Uuid.read args.orgId →
        Uuid.read v = Uuid.read args.blockingTaskId →
        ∃ w, (w ∈ visited ∨ w ∈ stack) ∧ Uuid.read w = Uuid.read args.blockedTaskId) →
      Frontier db' a visited stack read := by
    intro a visited stack read hfr hknown
    refine ⟨hfr.blocked_mem, hfr.blocking_notMem, hfr.printed,
      fun v hv hr o x y ho' hx' hxy => ?_⟩
    rcases (edge_insertRow hins).mp hxy with hxy | ⟨rfl, rfl, rfl⟩
    · exact hfr.edges v hv hr o x y ho' hx' hxy
    · rw [← hy]
      exact hknown v hv hr (ho'.trans ho.symm) (hx'.trans hx.symm)
  cases c with
  | remove _ _ _ => trivial
  | add a pc =>
    cases pc with
    | query visited stack current =>
      refine hkeep hc fun v hv hr ho' hx' => ?_
      by_contra hno
      refine hmiss ⟨ho', ⟨v, hv, hr, hx'⟩, fun w hw heq => hno ⟨w, List.mem_append.mp hw, heq⟩⟩
    | insert visited =>
      refine hkeep hc fun v hv _ ho' hx' => ?_
      by_contra hno
      exact hmiss ⟨ho', ⟨v, hv, hx'⟩, fun w hw heq => hno ⟨w, Or.inl hw, heq⟩⟩
    | _ => trivial

/-- **The INSERT of a finished search closes no cycle**: what it visited is closed under the edges,
holds the blocked task and, since that is another than the blocking one, not the blocking one. -/
theorem acyclic_insert {db db' : Db} {args : AddArgs} {visited : List String}
    {row : TaskDependencyRow} (hac : ∀ o, Acyclic (Edge db o))
    (hfr : Frontier db args visited [] fun _ => True) (ho : Uuid.read args.orgId = some row.orgId)
    (hx : Uuid.read args.blockingTaskId = some row.blockingTaskId)
    (hy : Uuid.read args.blockedTaskId = some row.blockedTaskId)
    (hprinted : Printed args.blockingTaskId) (hins : insertRow db row = some db') (o : Uuid.Id) :
    Acyclic (Edge db' o) := by
  by_cases horg : row.orgId = o
  · subst horg
    have htext : row.blockingTaskId.text = args.blockingTaskId := by
      have hmap := hprinted
      rw [Printed, hx] at hmap
      exact Option.some.inj hmap
    have hback : ¬ ReflTransGen (Edge db row.orgId) row.blockedTaskId row.blockingTaskId := by
      refine not_reaches_of_closed (S := fun x => ∃ v ∈ visited, Uuid.read v = some x) ?_ ?_ ?_
      · rintro x y ⟨v, hv, hxv⟩ hxy
        obtain ⟨w, hw, hyw⟩ := hfr.edges v hv trivial _ x y ho hxv hxy
        exact ⟨w, by simpa using hw, hyw⟩
      · exact ⟨_, by simpa using hfr.blocked_mem, hy⟩
      · rintro ⟨v, hv, hxv⟩
        rcases hfr.printed v (Or.inl hv) with rfl | ⟨x, rfl⟩
        · exact ne_of_insertRow hins (Option.some.inj (hxv.symm.trans hy))
        · obtain rfl := Option.some.inj ((Uuid.read_text x).symm.trans hxv)
          exact hfr.blocking_notMem (htext ▸ hv)
    refine ((acyclic_addEdge_iff (hac _)).mpr hback).mono fun x y hxy => ?_
    rcases (edge_insertRow hins).mp hxy with hxy | ⟨-, rfl, rfl⟩
    · exact Or.inl hxy
    · exact Or.inr ⟨rfl, rfl⟩
  · refine (hac o).mono fun x y hxy => ?_
    rcases (edge_insertRow hins).mp hxy with hxy | ⟨hrow, -⟩
    · exact hxy
    · exact absurd hrow horg

/-- What runs in which no INSERT is missed keep. -/
structure GraphInv (p : Calls ι) : Prop where
  acyclic : ∀ o, Acyclic (Edge p.store o)
  knows : ∀ i, (p.calls i).Keeps (Knows p.store)

omit [DecidableEq ι] in
/-- Before the first statement the invariant holds. -/
theorem graphInv_of_fresh {p : Calls ι} (h₀ : ∀ o, Acyclic (Edge p.store o))
    (hfresh : ∀ i, (p.calls i).Live Fresh) : GraphInv p := by
  refine ⟨h₀, fun i => ?_⟩
  obtain ⟨c, hc, hi⟩ := (hfresh i).exists
  rw [hc]
  cases hi with
  | remove _ _ => trivial
  | add args =>
    rw [Proc.keeps_up, addDependency]
    split
    · trivial
    · trivial

/-- A statement keeps the graph acyclic, where no search misses a path. -/
theorem GraphInv.run {p : Calls ι} {i : ι} {c c' : Call} {db' : Db} {d : Draw} (h : GraphInv p)
    (hG : Unmissed p (.run i d)) (hc : p.calls i = .up c) (hn : next p.store c d = some (db', c')) :
    GraphInv ⟨db', Function.update p.calls i (.up c')⟩ := by
  have hci : Knows p.store c := by simpa [hc] using h.knows i
  have hself : Knows db' c' := knows_next hci hn
  rcases next_db hn with rfl | ⟨args, visited, row, rfl, rfl, ho, hx, hy, hins⟩ | ⟨_, _, rfl, -⟩
  · exact ⟨h.acyclic, keeps_update_up hself fun j _ => h.knows j⟩
  · obtain ⟨hprinted, hmiss⟩ := hG args (by simp [inserting, hc])
    refine ⟨acyclic_insert h.acyclic hci ho hx hy hprinted hins,
      keeps_update_up hself fun j hj => ?_⟩
    have hG' := hmiss j hj
    cases hcj : p.calls j with
    | down _ => trivial
    | up cj =>
      rw [hcj] at hG'
      have hkj : Knows p.store cj := by simpa [hcj] using h.knows j
      exact knows_insert hkj ho hx hy hins hG'
  · exact ⟨fun o => (h.acyclic o).mono fun _ _ => edge_of_deleteDependency,
      keeps_update_up hself fun j _ => (h.knows j).imp fun _ => knows_delete⟩

theorem GraphInv.crash {p : Calls ι} {i : ι} {c : Call} (h : GraphInv p) :
    GraphInv ⟨p.store, Function.update p.calls i (.down c)⟩ :=
  ⟨h.acyclic, keeps_update_down h.knows⟩

/-- **The dependency graph stays acyclic** in every run in which no INSERT is missed: from tables
whose graph is acyclic in every organisation and any calls that have not started. -/
theorem acyclic_of_unmissed {p q : Calls ι} (h₀ : ∀ o, Acyclic (Edge p.store o))
    (hfresh : ∀ i, (p.calls i).Live Fresh)
    (hrun : Run (Pool.step dependencyMachine) Unmissed p q) (o : Uuid.Id) :
    Acyclic (Edge q.store o) := by
  have hinv : GraphInv q :=
    Pool.invariant (M := dependencyMachine) (I := GraphInv) (graphInv_of_fresh h₀ hfresh)
      (fun p i d c s' c' h hG hi hn => h.run hG hi hn) (fun p i c h _ _ => h.crash)
      (fun _ e => e.elim) hrun
  exact hinv.acyclic o

/-! ## Two calls crossing -/

/-- A task of the one workspace. -/
def exampleTask (digit : ℕ) : TaskRow :=
  ⟨.replicate digit, .replicate 0, .replicate 1, false⟩

/-- The task `a` blocks the task `b`. -/
def adds (a b : ℕ) : AddArgs :=
  ⟨(Uuid.Id.replicate 0).text, (Uuid.Id.replicate a).text, (Uuid.Id.replicate b).text, "user"⟩

/-- Two tasks of one workspace, no dependency, and two calls: each task is to block the other. -/
def crossing : Calls (Fin 2) where
  store := ⟨[exampleTask 2, exampleTask 3], []⟩
  calls := ![.up (addDependency (adds 2 3)), .up (addDependency (adds 3 2))]

theorem fresh_crossing (i : Fin 2) : (crossing.calls i).Live Fresh := by
  fin_cases i
  · exact Fresh.add (adds 2 3)
  · exact Fresh.add (adds 3 2)

theorem acyclic_crossing (o : Uuid.Id) : Acyclic (Edge crossing.store o) := by
  intro x hx
  obtain ⟨y, ⟨r, hr, -⟩, -⟩ := TransGen.head'_iff.mp hx
  cases hr

/-- The lookups and the one edge query of call `i`. -/
def searchMoves (i : Fin 2) : List (Move (Fin 2) Draw Empty) :=
  [.run i ⟨true, .replicate 0⟩, .run i ⟨false, .replicate 0⟩, .run i ⟨true, .replicate 0⟩]

/-- **Both searches before either INSERT**: each call finds nothing, both insert, and the two rows
are a cycle. -/
theorem crossing_adds_close_cycle :
    (∀ i, (crossing.calls i).Live Fresh) ∧ (∀ o, Acyclic (Edge crossing.store o))
      ∧ ∃ q, Run (Pool.step dependencyMachine) anyStep crossing q
        ∧ ¬ Acyclic (Edge q.store (Uuid.Id.replicate 0)) := by
  refine ⟨fresh_crossing, acyclic_crossing, ?_⟩
  obtain ⟨q, hq, hrows⟩ := exists_run_of_exec (Pool.step dependencyMachine) anyStep crossing
    (searchMoves 0 ++ searchMoves 1 ++ [.run 0 ⟨true, .replicate 4⟩, .run 1 ⟨true, .replicate 5⟩])
    (fun q => (blockedBy q.store (.replicate 0) (.replicate 2)).contains (.replicate 3)
      && (blockedBy q.store (.replicate 0) (.replicate 3)).contains (.replicate 2))
    (by decide +kernel)
  simp only [Bool.and_eq_true, List.contains_iff_mem, mem_blockedBy] at hrows
  exact ⟨q, hq, fun hac => hac _ ((TransGen.single hrows.1).tail hrows.2)⟩

/-- The same two calls one after the other: the second search meets the first row. -/
theorem acyclic_crossing_in_turn :
    ∃ q, Run (Pool.step dependencyMachine) Unmissed crossing q
      ∧ (q.store.taskDependencies.map (·.id) = [.replicate 4]
        ∧ q.calls 1 = .up (.add (adds 3 2) (.threw
          (.unprocessable "DEPENDENCY_CYCLE" "Adding this dependency would create a cycle"))))
      ∧ ∀ o, Acyclic (Edge q.store o) := by
  obtain ⟨q, hq, hrows⟩ := exists_run_of_exec (Pool.step dependencyMachine) Unmissed crossing
    (searchMoves 0 ++ [.run 0 ⟨true, .replicate 4⟩] ++ searchMoves 1)
    (fun q => q.store.taskDependencies.map (·.id) = [.replicate 4]
        ∧ q.calls 1 = .up (.add (adds 3 2) (.threw
          (.unprocessable "DEPENDENCY_CYCLE" "Adding this dependency would create a cycle"))))
    (by decide +kernel)
  exact ⟨q, hq, by simpa using hrows, acyclic_of_unmissed acyclic_crossing fresh_crossing hq⟩

end WorkPlatform.Dependency

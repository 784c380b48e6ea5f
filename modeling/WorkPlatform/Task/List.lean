import WorkPlatform.Machinery.Json
import WorkPlatform.Machinery.Uuid
import WorkPlatform.Task.Edit

/-!
# Task/List — the tasks of an organisation, as they are asked for

    ?workspace_id=…&board_id=…&status=… ──listTasksQuerySchema──▸ req.query
                                                                     │ as { workspaceId, boardId, status }
    SELECT … WHERE org_id = $1 AND …  ◂──────── findByOrg ◂──────────┘

Each side names the parameters for itself, and the cast between them looks at none.  What is listed
is what was asked for exactly where the two names that differ make no difference (`listed_iff`).
-/

namespace WorkPlatform.Task

open Machinery

/-! ## The request -/

/-- `req.query`. -/
abbrev Query := List (String × Json)

/-- A parameter that is a text. -/
def Query.text (q : Query) (name : String) : Option String :=
  match q.lookup name with
  | some (.str s) => some s
  | _ => none

/-- `z.string()` with a test of its own, and `.optional()`. -/
def optionalString (accepts : String → Bool) : Option Json → Option (Option String)
  | none => some none
  | some (.str s) => if accepts s then some (some s) else none
  | some _ => none

def taskStatusEnum (s : String) : Bool :=
  s ∈ ["todo", "in_progress", "in_review", "done", "cancelled"]

/-- The object a schema returns: of its own keys, those that were given. -/
def strip (fields : List (String × Option String)) : Query :=
  fields.filterMap fun field => field.2.map fun s => (field.1, .str s)

/-- `listTasksQuerySchema.safeParse`. -/
def listTasksQuerySchema (q : Query) : Option Query := do
  let workspaceId ← optionalString Uuid.isUuid (q.lookup "workspace_id")
  let boardId ← optionalString Uuid.isUuid (q.lookup "board_id")
  let status ← optionalString taskStatusEnum (q.lookup "status")
  return strip [("workspace_id", workspaceId), ("board_id", boardId), ("status", status)]

/-- The filters of `listTasks`. -/
structure Filters where
  workspaceId : Option String
  boardId : Option String
  status : Option String

/-- `req.query as { workspaceId?: string; boardId?: string; status?: string }`. -/
def Query.asFilters (q : Query) : Filters :=
  ⟨q.text "workspaceId", q.text "boardId", q.text "status"⟩

/-! ## The statement -/

/-- A row of `tasks`, with the time it was made. -/
structure ListedTask extends TaskRow where
  createdAt : ℕ
  deriving DecidableEq

inductive Column
  | orgId | workspaceId | boardId | status

/-- `column = param`; two ids are one where they have one value. -/
def Column.equals (r : ListedTask) (param : String) : Column → Bool
  | .orgId => r.orgId = param
  | .workspaceId => Uuid.value r.workspaceId = Uuid.value param
  | .boardId => r.boardId.any fun boardId => Uuid.value boardId = Uuid.value param
  | .status => r.status.text = param

/-- The WHERE of `findByOrg`, less `deleted_at IS NULL`: its conditions, each with the number of its
parameter, and the parameters. -/
structure Where where
  conditions : List (Column × ℕ)
  params : List String
  idx : ℕ
  numbered : idx = params.length + 1
  bound : ∀ c ∈ conditions, c.2 - 1 < params.length

namespace Where

/-- `org_id = $1`. -/
def start (orgId : String) : Where :=
  ⟨[(.orgId, 1)], [orgId], 2, rfl, List.forall_mem_singleton.mpr Nat.zero_lt_one⟩

/-- The placeholders of a longer condition have their parameters. -/
theorem bound_push (w : Where) (column : Column) (param : String) :
    ∀ c ∈ w.conditions ++ [(column, w.idx)], c.2 - 1 < (w.params ++ [param]).length := by
  intro c hc
  rw [List.length_append, List.length_singleton]
  rcases List.mem_append.mp hc with hc | hc
  · exact Nat.lt_succ_of_lt (w.bound c hc)
  · obtain rfl := List.mem_singleton.mp hc
    rw [w.numbered, Nat.add_sub_cancel]
    exact Nat.lt_succ_self _

theorem numbered_push (w : Where) (param : String) :
    w.idx + 1 = (w.params ++ [param]).length + 1 := by
  rw [w.numbered, List.length_append, List.length_singleton]

/-- `conditions.push(…$${idx++}); params.push(param);` -/
def push (w : Where) (column : Column) (param : String) : Where :=
  ⟨w.conditions ++ [(column, w.idx)], w.params ++ [param], w.idx + 1, w.numbered_push param,
    w.bound_push column param⟩

/-- `if (filter) { … }` -/
def pushIf (w : Where) (column : Column) : Option String → Where
  | none => w
  | some filter => if filter = "" then w else w.push column filter

/-- The row meets a condition, as its number is read. -/
def meets (params : List String) (r : ListedTask) (c : Column × ℕ) : Bool :=
  params[c.2 - 1]?.any (c.1.equals r)

def holds (w : Where) (r : ListedTask) : Bool :=
  r.deletedAt = none ∧ w.conditions.all (meets w.params r)

end Where

def findByOrg (orgId : String) (f : Filters) : Where :=
  (((Where.start orgId).pushIf .workspaceId f.workspaceId).pushIf .boardId f.boardId).pushIf .status
    f.status

/-- An answer to the SELECT; rows of one time come in any order. -/
structure IsAnswer (tasks : List ListedTask) (p : ListedTask → Bool) (rows : List ListedTask) :
    Prop where
  perm : rows.Perm (tasks.filter p)
  sorted : rows.Pairwise fun r r' => r.createdAt ≤ r'.createdAt

/-- `GET /orgs/:orgId/tasks`, of a query that is accepted. -/
def Lists (tasks : List ListedTask) (orgId : String) (q : Query) (rows : List ListedTask) : Prop :=
  ∃ data, listTasksQuerySchema q = some data ∧
    IsAnswer tasks (findByOrg orgId data.asFilters).holds rows

/-- What a query asks for: the parameters by the names the schema has for them. -/
def Query.asks (q : Query) (orgId : String) (r : ListedTask) : Bool :=
  r.orgId = orgId ∧ r.deletedAt = none ∧ (q.text "workspace_id").all (Column.workspaceId.equals r)
    ∧ (q.text "board_id").all (Column.boardId.equals r) ∧ (q.text "status").all (Column.status.equals r)

/-- **The tasks that match, in the order they were made.** -/
def Listed (tasks : List ListedTask) (orgId : String) (q : Query) : Prop :=
  ∀ rows, Lists tasks orgId q rows → IsAnswer tasks (q.asks orgId) rows

/-! ## The numbers of the parameters -/

namespace Where

variable {w : Where} {r : ListedTask}

/-- Parameters that come later are read by no condition that is there. -/
theorem all_meets_append (w : Where) (param : String) :
    w.conditions.all (meets (w.params ++ [param]) r) = w.conditions.all (meets w.params r) := by
  rw [Bool.eq_iff_iff, List.all_eq_true, List.all_eq_true]
  refine forall₂_congr fun c hc => ?_
  rw [meets, meets, List.getElem?_append_left (w.bound c hc)]

/-- **The condition a parameter comes with is the one that reads it.** -/
theorem holds_push (column : Column) (param : String) :
    (w.push column param).holds r = true ↔ w.holds r = true ∧ column.equals r param = true := by
  have hread : meets (w.params ++ [param]) r (column, w.idx) = column.equals r param := by
    simp [meets, w.numbered]
  simp only [holds, push, List.all_append, all_meets_append, List.all_cons, List.all_nil, hread,
    decide_eq_true_eq, Bool.and_true, Bool.and_eq_true, and_assoc]

/-- A filter that is given is one more condition. -/
theorem holds_pushIf (column : Column) (filter : Option String) :
    (w.pushIf column filter).holds r = true ↔
      w.holds r = true ∧ ∀ param ∈ filter, param ≠ "" → column.equals r param = true := by
  cases filter with
  | none => simp [pushIf]
  | some param =>
    by_cases hempty : param = ""
    · simp [pushIf, hempty]
    · simp [pushIf, hempty, holds_push]

theorem holds_start (orgId : String) :
    (start orgId).holds r = true ↔ r.orgId = orgId ∧ r.deletedAt = none := by
  simp [start, holds, meets, Column.equals, and_comm]

end Where

/-- What the statement finds, by its filters. -/
theorem holds_findByOrg {orgId : String} {f : Filters} {r : ListedTask} :
    (findByOrg orgId f).holds r = true ↔
      (((r.orgId = orgId ∧ r.deletedAt = none)
        ∧ ∀ param ∈ f.workspaceId, param ≠ "" → Column.workspaceId.equals r param = true)
        ∧ ∀ param ∈ f.boardId, param ≠ "" → Column.boardId.equals r param = true)
        ∧ ∀ param ∈ f.status, param ≠ "" → Column.status.equals r param = true := by
  rw [findByOrg, Where.holds_pushIf, Where.holds_pushIf, Where.holds_pushIf, Where.holds_start]

/-! ## The names of the parameters -/

section

variable {q data : Query} {tasks : List ListedTask} {orgId : String}

/-- The parameter that was read is the one that was sent. -/
theorem text_of_optionalString {accepts : String → Bool} {name : String} {value : Option String}
    (h : optionalString accepts (q.lookup name) = some value) :
    q.text name = value ∧ ∀ s ∈ value, accepts s = true := by
  unfold Query.text
  cases hfind : q.lookup name with
  | none =>
    rw [hfind] at h
    obtain rfl := Option.some.inj h
    simp
  | some v =>
    rw [hfind] at h
    cases v with
    | str s =>
      rw [optionalString] at h
      split_ifs at h with haccepts
      obtain rfl := Option.some.inj h
      simp [haccepts]
    | null | bool | num | arr | obj => cases h

/-- What an accepted query holds, and what the schema makes of it. -/
theorem listTasksQuerySchema_eq (h : listTasksQuerySchema q = some data) :
    data = strip [("workspace_id", q.text "workspace_id"), ("board_id", q.text "board_id"),
        ("status", q.text "status")]
      ∧ ∀ s ∈ q.text "status", taskStatusEnum s = true := by
  obtain ⟨workspaceId, hworkspace, h⟩ := Option.bind_eq_some_iff.mp h
  obtain ⟨boardId, hboard, h⟩ := Option.bind_eq_some_iff.mp h
  obtain ⟨status, hstatus, h⟩ := Option.bind_eq_some_iff.mp h
  rw [(text_of_optionalString hworkspace).1, (text_of_optionalString hboard).1,
    (text_of_optionalString hstatus).1]
  exact ⟨(Option.some.inj h).symm, (text_of_optionalString hstatus).2⟩

/-- **Of the three filters, the cast finds the status alone.** -/
theorem asFilters_strip (workspaceId boardId status : Option String) :
    (strip [("workspace_id", workspaceId), ("board_id", boardId), ("status", status)]).asFilters =
      ⟨none, none, status⟩ := by
  cases workspaceId <;> cases boardId <;> cases status <;> rfl

/-- **A row is found by its organisation and its status.** -/
theorem holds_listTasks (h : listTasksQuerySchema q = some data) (r : ListedTask) :
    (findByOrg orgId data.asFilters).holds r = true ↔
      (r.orgId = orgId ∧ r.deletedAt = none)
        ∧ (q.text "status").all (Column.status.equals r) = true := by
  obtain ⟨rfl, hstatus⟩ := listTasksQuerySchema_eq h
  have hgiven : ∀ s ∈ q.text "status", s ≠ "" := by
    rintro s hs rfl
    exact Bool.false_ne_true (hstatus "" hs)
  rw [holds_findByOrg, asFilters_strip, Option.all_eq_true]
  constructor
  · rintro ⟨⟨⟨hrow, -⟩, -⟩, hs⟩
    exact ⟨hrow, fun s h => hs s h (hgiven s h)⟩
  · rintro ⟨hrow, hs⟩
    have hnone : ∀ (column : Column) (s : String), s ∈ (none : Option String) → s ≠ "" →
        column.equals r s = true := fun _ s h => absurd h (Option.not_mem_none s)
    exact ⟨⟨⟨hrow, hnone _⟩, hnone _⟩, fun s h _ => hs s h⟩

theorem asks_iff (r : ListedTask) :
    q.asks orgId r = true ↔
      ((r.orgId = orgId ∧ r.deletedAt = none)
        ∧ (q.text "status").all (Column.status.equals r) = true)
      ∧ (q.text "workspace_id").all (Column.workspaceId.equals r) = true
      ∧ (q.text "board_id").all (Column.boardId.equals r) = true := by
  rw [Query.asks, decide_eq_true_iff]
  tauto

/-- Some order of the rows is an answer. -/
theorem exists_isAnswer (tasks : List ListedTask) (p : ListedTask → Bool) :
    ∃ rows, IsAnswer tasks p rows := by
  let le : ListedTask → ListedTask → Bool := fun r r' => r.createdAt ≤ r'.createdAt
  have htrans : ∀ a b c, le a b → le b c → le a c := fun a b c hab hbc =>
    decide_eq_true (Nat.le_trans (of_decide_eq_true hab) (of_decide_eq_true hbc))
  have htotal : ∀ a b, le a b || le b a := fun a b => by
    rcases Nat.le_total a.createdAt b.createdAt with h | h <;> simp [le, h]
  refine ⟨(tasks.filter p).mergeSort le, List.mergeSort_perm _ _, ?_⟩
  exact (List.pairwise_mergeSort htrans htotal _).imp of_decide_eq_true

end

/-! ## What is listed -/

/-- **The list is what was asked for** exactly where every live task of the organisation and the
status asked for is of the workspace and the board asked for: neither filter is applied. -/
theorem listed_iff (tasks : List ListedTask) (orgId : String) (q : Query)
    (h : (listTasksQuerySchema q).isSome) :
    Listed tasks orgId q ↔
      ∀ r ∈ tasks, r.orgId = orgId → r.deletedAt = none →
        (q.text "status").all (Column.status.equals r) →
          (q.text "workspace_id").all (Column.workspaceId.equals r) ∧
            (q.text "board_id").all (Column.boardId.equals r) := by
  obtain ⟨data, hdata⟩ := Option.isSome_iff_exists.mp h
  constructor
  · intro hlisted r hr horg hlive hstatus
    obtain ⟨rows, hrows⟩ := exists_isAnswer tasks (findByOrg orgId data.asFilters).holds
    have hfound : (findByOrg orgId data.asFilters).holds r = true :=
      (holds_listTasks hdata r).mpr ⟨⟨horg, hlive⟩, hstatus⟩
    have hmem : r ∈ rows := hrows.perm.mem_iff.mpr (List.mem_filter.mpr ⟨hr, hfound⟩)
    have hasked := (hlisted rows ⟨data, hdata, hrows⟩).perm.mem_iff.mp hmem
    exact ((asks_iff r).mp (List.mem_filter.mp hasked).2).2
  · rintro hall rows ⟨data', hdata', hrows⟩
    obtain rfl := Option.some.inj (hdata.symm.trans hdata')
    refine ⟨?_, hrows.sorted⟩
    have hfilter : tasks.filter (findByOrg orgId data.asFilters).holds =
        tasks.filter (q.asks orgId) := by
      refine List.filter_congr fun r hr => ?_
      rw [Bool.eq_iff_iff, holds_listTasks hdata, asks_iff]
      exact ⟨fun hrow => ⟨hrow, hall r hr hrow.1.1 hrow.1.2 hrow.2⟩, fun hrow => hrow.1⟩
    exact hfilter ▸ hrows.perm

/-- A task of a workspace. -/
def demoListed (workspaceId : String) (createdAt : ℕ) : ListedTask where
  id := workspaceId
  orgId := "o"
  workspaceId := workspaceId
  boardId := none
  parentTaskId := none
  depth := 0
  title := ""
  description := none
  status := .todo
  priority := .medium
  creatorId := "u"
  dueDate := none
  completedAt := none
  isRecurring := false
  recurrenceRule := none
  recurrenceParentId := none
  labels := []
  deletedAt := none
  version := 1
  createdAt := createdAt

def demoWorkspaces : String × String :=
  ("3f2504e0-4f89-41d3-9a0c-0305e82c3301", "3f2504e0-4f89-41d3-9a0c-0305e82c3302")

/-- A workspace is asked for, and there is no other. -/
theorem listed_one : Listed [demoListed demoWorkspaces.1 1] "o"
    [("workspace_id", .str demoWorkspaces.1), ("status", .str "todo")] := by
  refine (listed_iff _ _ _ (by decide)).mpr ?_
  intro r hr _ _ _
  obtain rfl := List.mem_singleton.mp hr
  exact ⟨by decide, by decide⟩

/-- **The first of two workspaces is asked for, and the tasks of both are listed.** -/
theorem not_listed_two : ¬ Listed [demoListed demoWorkspaces.1 1, demoListed demoWorkspaces.2 2] "o"
    [("workspace_id", .str demoWorkspaces.1)] := by
  intro hlisted
  have hlists : Lists [demoListed demoWorkspaces.1 1, demoListed demoWorkspaces.2 2] "o"
      [("workspace_id", .str demoWorkspaces.1)]
      [demoListed demoWorkspaces.1 1, demoListed demoWorkspaces.2 2] :=
    ⟨_, rfl, List.Perm.refl _, by simp [demoListed]⟩
  have hperm := (hlisted _ hlists).perm.length_eq
  exact absurd hperm (by decide)

end WorkPlatform.Task

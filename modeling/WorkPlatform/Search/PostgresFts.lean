import Mathlib.Algebra.Order.Ring.Unbundled.Rat
import Mathlib.Data.List.Perm.Basic
import WorkPlatform.Machinery.Merge

/-!
# Search/PostgresFts — what the pages of a search add up to

    tasks      ORDER BY rank   LIMIT n OFFSET o ──┐
    messages   ORDER BY rank   LIMIT n OFFSET o ──┼──▸ sort by score ──slice(0, n)──▸ page
    files                      LIMIT n OFFSET o ──┤
    users                      LIMIT n OFFSET o ──┘

Each query goes on from the offset, whatever `slice` has cut from the page before.  So the pages
show every match only where nothing is cut (`search_pages_iff`): one type alone has matches, or all
of them fit on a page.

The full-text functions of PostgreSQL and `ILIKE` are parameters; the order of the rows in the
tables is the one in which a query without `ORDER BY` gives them, and in which rows of one rank
come.
-/

namespace WorkPlatform.Search

open Machinery

/-! ## `search.interface` -/

inductive EntityType
  | task | message | file | user
  deriving DecidableEq, Repr

/-- What a result shows of its entity. -/
inductive Metadata
  | title (title : String)
  | filename (filename : String)
  | person (name email : String)
  deriving DecidableEq

/-- `SearchResult`. -/
structure SearchResult where
  id : String
  entityType : EntityType
  score : ℚ
  metadata : Option Metadata
  deriving DecidableEq

/-- `SearchOptions`. -/
structure SearchOptions where
  query : String
  orgId : String
  entityTypes : Option (List EntityType)
  limit : Option ℕ
  offset : Option ℕ

/-- `SearchResponse`. -/
structure SearchResponse where
  results : List SearchResult
  total : ℕ
  degraded : Bool
  deriving DecidableEq

/-- `['task', 'message', 'file', 'user']`. -/
def allTypes : List EntityType := [.task, .message, .file, .user]

/-! ## The tables -/

/-- `search_vector @@ plainto_tsquery('english', q)`, `ts_rank(search_vector, …)` and `ILIKE`. -/
structure TextSearch (V : Type*) where
  matched : V → String → Bool
  rank : V → String → ℚ
  ilike : String → String → Bool

/-- A row of `tasks`, as far as it is searched. -/
structure TaskRow (V : Type*) where
  id : String
  orgId : String
  title : String
  searchVector : V
  deleted : Bool

/-- A row of `chat_messages`, as far as it is searched. -/
structure MessageRow (V : Type*) where
  id : String
  orgId : String
  body : String
  searchVector : V
  deleted : Bool

/-- A row of `files`, as far as it is searched. -/
structure FileRow where
  id : String
  orgId : String
  filename : String
  deleted : Bool

/-- A row of `users`, as far as it is searched. -/
structure UserRow where
  id : String
  name : String
  email : String
  deriving DecidableEq

/-- `active` is `status = 'active'`. -/
structure MembershipRow where
  userId : String
  orgId : String
  active : Bool
  deleted : Bool

def MembershipRow.key (m : MembershipRow) : String × String := (m.orgId, m.userId)

/-- The tables, with `idx_memberships_org_user_active`. -/
structure Database (V : Type*) where
  tasks : List (TaskRow V)
  messages : List (MessageRow V)
  files : List FileRow
  users : List UserRow
  memberships : List MembershipRow
  active_nodup : ((memberships.filter fun m => ¬ m.deleted).map MembershipRow.key).Nodup

/-! ## The queries -/

section

variable {V : Type*} (pg : TextSearch V) (db : Database V) (query orgId : String)

/-- `LIMIT limit OFFSET offset`. -/
def page {α : Type*} (limit offset : ℕ) (rows : List α) : List α := (rows.drop offset).take limit

/-- The pattern of the `ILIKE`s. -/
def pattern : String := "%" ++ query ++ "%"

def TaskRow.result (r : TaskRow V) : SearchResult :=
  ⟨r.id, .task, pg.rank r.searchVector query, some (.title r.title)⟩

def MessageRow.result (r : MessageRow V) : SearchResult :=
  ⟨r.id, .message, pg.rank r.searchVector query, none⟩

def FileRow.result (r : FileRow) : SearchResult := ⟨r.id, .file, 1, some (.filename r.filename)⟩

def UserRow.result (r : UserRow) : SearchResult := ⟨r.id, .user, 1, some (.person r.name r.email)⟩

namespace Database

/-- The query of the tasks. -/
def findTasks (limit offset : ℕ) : List (TaskRow V) :=
  page limit offset <| (db.tasks.filter fun r =>
    r.orgId = orgId ∧ ¬ r.deleted ∧ pg.matched r.searchVector query).insertionSort
      fun a b => pg.rank b.searchVector query ≤ pg.rank a.searchVector query

/-- The query of the messages. -/
def findMessages (limit offset : ℕ) : List (MessageRow V) :=
  page limit offset <| (db.messages.filter fun r =>
    r.orgId = orgId ∧ ¬ r.deleted ∧ pg.matched r.searchVector query).insertionSort
      fun a b => pg.rank b.searchVector query ≤ pg.rank a.searchVector query

def findFiles (limit offset : ℕ) : List FileRow :=
  page limit offset <| db.files.filter fun r =>
    r.orgId = orgId ∧ ¬ r.deleted ∧ pg.ilike r.filename (pattern query)

/-- The condition of the JOIN. -/
def joins (orgId : String) (u : UserRow) (m : MembershipRow) : Bool :=
  m.userId = u.id ∧ m.orgId = orgId ∧ m.active ∧ ¬ m.deleted

/-- The query of the users: a user is found once for each membership. -/
def findUsers (limit offset : ℕ) : List UserRow :=
  page limit offset <| (db.users.flatMap fun u =>
    (db.memberships.filter (joins orgId u)).map fun _ => u).filter fun u =>
      pg.ilike u.name (pattern query) ∨ pg.ilike u.email (pattern query)

end Database

/-- `PostgresFtsProvider.search`. -/
def postgresSearch (o : SearchOptions) : SearchResponse :=
  let limit := o.limit.getD 20
  let offset := o.offset.getD 0
  let types := o.entityTypes.getD allTypes
  let results :=
    (if .task ∈ types then
      (db.findTasks pg o.query o.orgId limit offset).map (·.result pg o.query) else []) ++
    (if .message ∈ types then
      (db.findMessages pg o.query o.orgId limit offset).map (·.result pg o.query) else []) ++
    (if .file ∈ types then
      (db.findFiles pg o.query o.orgId limit offset).map (·.result) else []) ++
    (if .user ∈ types then
      (db.findUsers pg o.query o.orgId limit offset).map (·.result) else [])
  ⟨(results.insertionSort fun a b => b.score ≤ a.score).take limit, results.length, false⟩

/-- The results at offsets `0`, `n`, `2n`, … until there are none. -/
def searchPages (types : Option (List EntityType)) (n requests : ℕ) :
    Option (List (List SearchResult)) :=
  follow (fun offset => (postgresSearch pg db ⟨query, orgId, types, some n, some offset⟩).results)
    (fun offset _ => offset + n) requests 0

/-! ## What matches -/

/-- Everything of one type that matches. -/
def Database.matching : EntityType → List SearchResult
  | .task => (db.tasks.filter fun r =>
      r.orgId = orgId ∧ ¬ r.deleted ∧ pg.matched r.searchVector query).map (·.result pg query)
  | .message => (db.messages.filter fun r =>
      r.orgId = orgId ∧ ¬ r.deleted ∧ pg.matched r.searchVector query).map (·.result pg query)
  | .file => (db.files.filter fun r =>
      r.orgId = orgId ∧ ¬ r.deleted ∧ pg.ilike r.filename (pattern query)).map (·.result)
  | .user => (db.users.filter fun u => (db.memberships.any (Database.joins orgId u)) ∧
      (pg.ilike u.name (pattern query) ∨ pg.ilike u.email (pattern query))).map (·.result)

/-- What the query for one type finds, in its order. -/
def Database.found : EntityType → List SearchResult
  | .task => (db.matching pg query orgId .task).insertionSort fun a b => b.score ≤ a.score
  | .message => (db.matching pg query orgId .message).insertionSort fun a b => b.score ≤ a.score
  | .file => db.matching pg query orgId .file
  | .user => db.matching pg query orgId .user

/-- The types that are searched. -/
def searched (types : Option (List EntityType)) : List EntityType :=
  allTypes.filter (· ∈ types.getD allTypes)

end

/-! ## Pages of matches -/

section

variable {V : Type*} {pg : TextSearch V} {db : Database V} {query orgId : String}

/-- A user joins one membership at most. -/
theorem joined_eq (u : UserRow) : ((db.memberships.filter (Database.joins orgId u)).map fun _ => u) =
    if db.memberships.any (Database.joins orgId u) then [u] else [] := by
  have hkey : ∀ m ∈ db.memberships.filter (Database.joins orgId u), m.key = (orgId, u.id) := by
    intro m hm
    obtain ⟨huser, horg, -⟩ := of_decide_eq_true (List.mem_filter.mp hm).2
    rw [MembershipRow.key, huser, horg]
  have hlive : (db.memberships.filter (Database.joins orgId u)).Sublist
      (db.memberships.filter fun m => ¬ m.deleted) := by
    refine List.monotone_filter_right db.memberships fun m hm => ?_
    exact decide_eq_true (of_decide_eq_true hm).2.2.2
  have hnodup := (hlive.map MembershipRow.key).nodup db.active_nodup
  cases hfilter : db.memberships.filter (Database.joins orgId u) with
  | nil =>
    have hany : db.memberships.any (Database.joins orgId u) = false :=
      List.any_eq_false.mpr (List.filter_eq_nil_iff.mp hfilter)
    rw [hany]
    rfl
  | cons m rest =>
    have hmem : m ∈ db.memberships.filter (Database.joins orgId u) := by simp [hfilter]
    have hany : db.memberships.any (Database.joins orgId u) = true :=
      List.any_eq_true.mpr ⟨m, List.mem_filter.mp hmem⟩
    cases rest with
    | nil =>
      rw [hany]
      rfl
    | cons m' rest =>
      have hmem' : m' ∈ db.memberships.filter (Database.joins orgId u) := by simp [hfilter]
      rw [hfilter] at hnodup
      simp [hkey m hmem, hkey m' hmem'] at hnodup

/-- The query of the users is a page of all that are found. -/
theorem findUsers_eq (limit offset : ℕ) :
    (db.findUsers pg query orgId limit offset).map (·.result) =
      page limit offset (db.found pg query orgId .user) := by
  have hjoin : ∀ users : List UserRow, (users.flatMap fun u =>
      (db.memberships.filter (Database.joins orgId u)).map fun _ => u) =
      users.filter fun u => db.memberships.any (Database.joins orgId u) := by
    intro users
    induction users with
    | nil => rfl
    | cons u users ih =>
      rw [List.flatMap_cons, joined_eq, ih, List.filter_cons]
      split_ifs <;> rfl
  rw [Database.findUsers, hjoin, List.filter_filter, page, List.map_take, List.map_drop]
  simp only [page, Database.found, Database.matching]
  congr 4
  funext u
  rw [Bool.eq_iff_iff]
  simp only [Bool.and_eq_true, decide_eq_true_eq]
  tauto

/-- The order of the rows is the order of the results. -/
theorem map_byRank {α : Type*} (rows : List α) (rank : α → ℚ) (result : α → SearchResult)
    (h : ∀ r, (result r).score = rank r) :
    (rows.insertionSort fun a b => rank b ≤ rank a).map result =
      (rows.map result).insertionSort fun a b => b.score ≤ a.score :=
  List.map_insertionSort _ _ _ _ fun a _ b _ => by rw [h, h]

theorem findTasks_eq (limit offset : ℕ) :
    (db.findTasks pg query orgId limit offset).map (·.result pg query) =
      page limit offset (db.found pg query orgId .task) := by
  have hsort := fun rows => map_byRank rows (fun r => pg.rank r.searchVector query)
    (fun r : TaskRow V => r.result pg query) fun _ => rfl
  rw [Database.findTasks, page, List.map_take, List.map_drop, hsort]
  rfl

theorem findMessages_eq (limit offset : ℕ) :
    (db.findMessages pg query orgId limit offset).map (·.result pg query) =
      page limit offset (db.found pg query orgId .message) := by
  have hsort := fun rows => map_byRank rows (fun r => pg.rank r.searchVector query)
    (fun r : MessageRow V => r.result pg query) fun _ => rfl
  rw [Database.findMessages, page, List.map_take, List.map_drop, hsort]
  rfl

theorem findFiles_eq (limit offset : ℕ) :
    (db.findFiles pg query orgId limit offset).map (·.result) =
      page limit offset (db.found pg query orgId .file) := by
  rw [Database.findFiles, page, List.map_take, List.map_drop]
  rfl

/-- To go through the types that are searched is to go through all, and leave some out. -/
theorem flatMap_searched {α : Type*} (types : Option (List EntityType)) (f : EntityType → List α) :
    (searched types).flatMap f =
      allTypes.flatMap fun t => if t ∈ types.getD allTypes then f t else [] := by
  rw [searched]
  generalize types.getD allTypes = ts
  induction allTypes with
  | nil => rfl
  | cons t rest ih =>
    rw [List.filter_cons, List.flatMap_cons, ← ih]
    by_cases ht : t ∈ ts <;> simp [ht]

/-- **A page of the search is a page of the four lists.** -/
theorem postgresSearch_results (types : Option (List EntityType)) (n o : ℕ) :
    (postgresSearch pg db ⟨query, orgId, types, some n, some o⟩).results =
      mergedPage SearchResult.score ((searched types).map (db.found pg query orgId)) n o := by
  simp only [postgresSearch, Option.getD_some, findTasks_eq, findMessages_eq, findFiles_eq,
    findUsers_eq, mergedPage, List.flatMap_map, flatMap_searched]
  simp [allTypes, page]

theorem found_perm (t : EntityType) :
    (db.found pg query orgId t).Perm (db.matching pg query orgId t) := by
  cases t with
  | task | message => exact List.perm_insertionSort _ _
  | file | user => exact .refl _

/-- Files and users all have the score `1`. -/
theorem found_descending (t : EntityType) :
    Descending SearchResult.score (db.found pg query orgId t) := by
  cases t with
  | task | message => exact descending_insertionSort _
  | file | user => exact List.pairwise_map.mpr (List.pairwise_of_forall fun _ _ => le_rfl)

theorem filled_found (ts : List EntityType) : filled (ts.map (db.found pg query orgId)) =
    filled (ts.map (db.matching pg query orgId)) := by
  rw [filled, filled, List.countP_map, List.countP_map]
  refine List.countP_congr fun t _ => ?_
  simp only [Function.comp_apply, (found_perm t).isEmpty_eq]

end

/-- **The pages show all that matches, each once and by score, exactly where one of the types alone
has matches or all of them fit on a page.** -/
theorem search_pages_iff {V : Type*} (pg : TextSearch V) (db : Database V) (query orgId : String)
    (types : Option (List EntityType)) {n : ℕ} (hn : 1 ≤ n) :
    ∃ requests pages, (∀ m ≥ requests, searchPages pg db query orgId types n m = some pages) ∧
      (pages.flatten.Perm ((searched types).flatMap (db.matching pg query orgId)) ∧
          Descending SearchResult.score pages.flatten ↔
        filled ((searched types).map (db.matching pg query orgId)) ≤ 1 ∨
          ((searched types).flatMap (db.matching pg query orgId)).length ≤ n) := by
  have hpages : ∀ m, searchPages pg db query orgId types n m =
      mergedPages SearchResult.score ((searched types).map (db.found pg query orgId)) n m 0 := by
    intro m
    simp only [searchPages, mergedPages, postgresSearch_results]
  have hall : ((searched types).map (db.found pg query orgId)).flatten.Perm
      ((searched types).flatMap (db.matching pg query orgId)) := by
    rw [← List.flatMap_def]
    exact List.Perm.flatMap_left _ fun t _ => found_perm t
  have hsorted : ∀ l ∈ (searched types).map (db.found pg query orgId),
      Descending SearchResult.score l := by
    intro l hl
    obtain ⟨t, -, rfl⟩ := List.mem_map.mp hl
    exact found_descending t
  obtain ⟨requests, pages, hread, hiff⟩ := merged_iff hn hsorted
  refine ⟨requests, pages, fun m hm => (hpages m).trans (hread m hm), ?_⟩
  rw [← filled_found, ← hall.length_eq, ← hiff, hall.congr_right]

/-- A task of rank one half and a file. -/
def demoSearch : Database String where
  tasks := [⟨"t1", "o", "report", "report", false⟩]
  messages := []
  files := [⟨"f1", "o", "report.pdf", false⟩]
  users := []
  memberships := []
  active_nodup := List.nodup_nil

def half : ℚ := ⟨1, 2, Nat.succ_ne_zero 1, rfl⟩

/-- Texts that are the query match it. -/
def demoText : TextSearch String := ⟨fun v q => v = q, fun _ _ => half, fun _ _ => true⟩

/-- Both fit on a page of two. -/
theorem search_pages_two : ∃ requests pages,
    (∀ m ≥ requests, searchPages demoText demoSearch "report" "o" none 2 m = some pages) ∧
      pages.flatten.Perm (allTypes.flatMap (demoSearch.matching demoText "report" "o")) := by
  obtain ⟨requests, pages, hread, hiff⟩ :=
    search_pages_iff demoText demoSearch "report" "o" none (n := 2) (by decide)
  exact ⟨requests, pages, hread, (hiff.mpr (Or.inr (by decide))).1⟩

/-- **A page of one shows the file and no page the task.** -/
theorem search_pages_lost : ∃ pages,
    (∀ m ≥ 2, searchPages demoText demoSearch "report" "o" none 1 m = some pages) ∧
      ¬ pages.flatten.Perm (allTypes.flatMap (demoSearch.matching demoText "report" "o")) := by
  refine ⟨[[⟨"f1", .file, 1, some (.filename "report.pdf")⟩]], fun m hm => ?_, ?_⟩
  · have htwo : searchPages demoText demoSearch "report" "o" none 1 2 =
        some [[⟨"f1", .file, 1, some (.filename "report.pdf")⟩]] := by decide
    exact follow_mono htwo hm
  · intro hperm
    exact absurd hperm.length_eq (by decide)

end WorkPlatform.Search

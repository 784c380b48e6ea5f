import Mathlib.Data.PNat.Defs
import WorkPlatform.Auth.RequestUser
import WorkPlatform.Chat.Message
import WorkPlatform.File.Store
import WorkPlatform.Gdpr.Store
import WorkPlatform.Machinery.Json
import WorkPlatform.Machinery.Paging
import WorkPlatform.Task.Edit

/-!
# Gdpr/Export — a table, page by page, as a JSON array

    SELECT … LIMIT 100 OFFSET 0    ──▸  "["  row  ",row"  ",row" …
    SELECT … LIMIT 100 OFFSET 100  ──▸       ",row"  ",row" …
    …                              ──▸  "]"

The pages and the commas are right: what a stream pushes is the text of the array of the rows its
queries gave (`stream_scan`).  No query has an ORDER BY, and so the rows are those of the
table exactly where one query gives them all (`exported_iff`).
-/

namespace WorkPlatform.Gdpr

open Machinery
open Chat (MessageRow)
open File (FileRow)
open Organization (MembershipRow)

/-! ## The tables -/

/-- `toString().padStart(width, '0')`. -/
def padStart (width n : ℕ) : String :=
  String.ofList (.replicate (width - (toString n).length) '0') ++ toString n

/-- The year, the month and the day of a day since the epoch; years begin in March here. -/
def civil (day : ℕ) : ℕ × ℕ × ℕ :=
  let z := day + 719468
  let dayOfEra := z % 146097
  let yearOfEra := (dayOfEra - dayOfEra / 1460 + dayOfEra / 36524 - dayOfEra / 146096) / 365
  let dayOfYear := dayOfEra - (365 * yearOfEra + yearOfEra / 4 - yearOfEra / 100)
  let month := (5 * dayOfYear + 2) / 153
  let year := yearOfEra + 400 * (z / 146097)
  if month < 10 then (year, month + 3, dayOfYear - (153 * month + 2) / 5 + 1)
  else (year + 1, month - 9, dayOfYear - (153 * month + 2) / 5 + 1)

/-- `Date.prototype.toISOString`, of a time in milliseconds. -/
def toISOString (ms : ℕ) : String :=
  let (year, month, day) := civil (ms / 86400000)
  let date := if year < 10000 then padStart 4 year else "+" ++ padStart 6 year
  date ++ "-" ++ padStart 2 month ++ "-" ++ padStart 2 day
    ++ "T" ++ padStart 2 (ms / 3600000 % 24) ++ ":" ++ padStart 2 (ms / 60000 % 60)
    ++ ":" ++ padStart 2 (ms / 1000 % 60) ++ "." ++ padStart 3 (ms % 1000) ++ "Z"

example : toISOString 951782399999 = "2000-02-28T23:59:59.999Z" := by decide

/-- A row of `tasks`, of the columns the exports read; a description is the value of its JSONB. -/
structure TaskRow where
  id : String
  orgId : String
  title : String
  description : Option Json
  status : Task.TaskStatus
  createdAt : ℕ
  deletedAt : Option ℕ

/-- A row of `comments`, of the columns the exports read. -/
structure CommentRow where
  id : String
  orgId : String
  authorId : String
  body : Json
  createdAt : ℕ
  deletedAt : Option ℕ

/-- A row of `workspaces`, of the columns the exports read. -/
structure WorkspaceRow where
  id : String
  orgId : String
  name : String
  createdAt : ℕ
  deletedAt : Option ℕ

/-- A row of `org_memberships`, with `joined_at`. -/
structure MemberRow where
  membership : MembershipRow
  joinedAt : Option ℕ

/-- The tables the exports read; the author of a comment is a user. -/
structure Tables where
  users : String → Option Profile
  tasks : Table TaskRow.id
  taskAssignees : List (String × String)
  comments : Table CommentRow.id
  messages : Table MessageRow.key
  files : Table FileRow.id
  workspaces : Table WorkspaceRow.id
  memberships : List MemberRow
  comments_author : ∀ c ∈ comments.rows, (users c.authorId).isSome

/-! ## What a query gives of a row

`pg` makes a string of a BIGINT, and a `Date` of a time. -/

def date (ms : ℕ) : Json := .str (toISOString ms)

def TaskRow.select (t : TaskRow) : Json := .obj
  [("id", .str t.id), ("title", .str t.title), ("description", t.description.getD .null),
    ("status", .str t.status.text), ("created_at", date t.createdAt)]

/-- `CASE WHEN tc.author_id = $2 THEN u.name ELSE 'Org Member' END`. -/
def CommentRow.authorName (c : CommentRow) (userId : String) (u : Profile) : String :=
  if c.authorId = userId then u.name else "Org Member"

def CommentRow.select (userId : String) (c : CommentRow) (u : Profile) : Json := .obj
  [("id", .str c.id), ("body", c.body), ("created_at", date c.createdAt),
    ("author_name", .str (c.authorName userId u))]

def selectMessage (m : MessageRow) : Json := .obj
  [("id", .str m.id), ("body", .str m.body), ("created_at", date m.createdAt),
    ("channel_id", .str m.channelId)]

def selectFile (f : FileRow) : Json := .obj
  [("id", .str f.id), ("filename", .str f.filename), ("mime_type", .str f.mimeType),
    ("size_bytes", .str (toString f.sizeBytes)), ("created_at", date f.createdAt)]

def WorkspaceRow.select (w : WorkspaceRow) : Json := .obj
  [("id", .str w.id), ("name", .str w.name), ("created_at", date w.createdAt)]

/-- The org export selects no description. -/
def TaskRow.selectForOrg (t : TaskRow) : Json := .obj
  [("id", .str t.id), ("title", .str t.title), ("status", .str t.status.text),
    ("created_at", date t.createdAt)]

def MemberRow.select (m : MemberRow) : Json := .obj
  [("user_id", .str m.membership.userId), ("role", .str m.membership.role.text),
    ("joined_at", (m.joinedAt.map date).getD .null)]

/-! ## The queries, less their LIMIT and OFFSET -/

namespace Tables

variable (s : Tables) (orgId userId : String)

def assignedTasks : List TaskRow :=
  s.tasks.rows.filter fun t =>
    t.orgId = orgId ∧ t.deletedAt = none ∧ s.taskAssignees.contains (t.id, userId)

def liveComments : List CommentRow :=
  s.comments.rows.filter fun c => c.orgId = orgId ∧ c.deletedAt = none

def sentMessages : List MessageRow :=
  s.messages.rows.filter fun m =>
    m.orgId = orgId ∧ m.senderId = userId ∧ m.deletedAt = none

def uploadedFiles : List FileRow :=
  s.files.rows.filter fun f =>
    f.orgId = orgId ∧ f.uploaderId = userId ∧ f.deletedAt = none

/-- The query of `createEntityStream` for the entity type; the comments are joined with their
authors. -/
def userQuery (entityType : String) : Option (List Json) :=
  if entityType = "tasks" then some ((s.assignedTasks orgId userId).map TaskRow.select)
  else if entityType = "comments" then
    some ((s.liveComments orgId).filterMap fun c => (s.users c.authorId).map (c.select userId))
  else if entityType = "messages" then some ((s.sentMessages orgId userId).map selectMessage)
  else if entityType = "files" then some ((s.uploadedFiles orgId userId).map selectFile)
  else none

/-- `queryMap` of `createOrgEntityStream`. -/
def orgQuery (entityType : String) : Option (List Json) :=
  if entityType = "workspaces" then
    some ((s.workspaces.rows.filter fun w => w.orgId = orgId ∧ w.deletedAt = none).map
      WorkspaceRow.select)
  else if entityType = "tasks" then
    some ((s.tasks.rows.filter fun t => t.orgId = orgId ∧ t.deletedAt = none).map
      TaskRow.selectForOrg)
  else if entityType = "members" then
    some ((s.memberships.filter (·.membership.activeIn orgId)).map MemberRow.select)
  else none

end Tables

/-! ## The stream -/

/-- A query with its LIMIT and its OFFSET, or none where it fails. -/
abbrev Query (α : Type) := ℕ → ℕ → Option (List α)

/-- The pages that are yielded, and whether a query has thrown. -/
def cursorPaginate {α : Type} (query : Query α) (pageSize : ℕ) :
    ℕ → ℕ → Option (List (List α) × Bool)
  | 0, _ => none
  | fuel + 1, offset =>
    match query pageSize offset with
    | none => some ([], true)
    | some [] => some ([], false)
    | some rows =>
      if rows.length < pageSize then some ([rows], false)
      else (cursorPaginate query pageSize fuel (offset + pageSize)).map fun x => (rows :: x.1, x.2)

/-- What was pushed, and whether the stream was destroyed. -/
structure Readable where
  pushed : List String
  destroyed : Bool

def Readable.text (r : Readable) : String := String.join r.pushed

/-- The pushes of the rows, with `first` as it stands before them. -/
def pushRows : Bool → List Json → List String
  | _, [] => []
  | first, row :: rows => ((if first then "" else ",") ++ row.stringify) :: pushRows false rows

/-- The body the two functions share; without a query the array is closed at once. -/
def entityStream (query : Option (Query Json)) (pageSize fuel : ℕ) : Option Readable :=
  match query with
  | none => some ⟨["[", "]"], false⟩
  | some query => (cursorPaginate query pageSize fuel 0).map fun x =>
    ⟨"[" :: pushRows true x.1.flatten ++ if x.2 then [] else ["]"], x.2⟩

/-- What PostgreSQL answers to the queries of a stream; `fails` says which of them throw. -/
def ask {α : Type} {rows : List α} (scan : Scan rows) (fails : ℕ → Bool) : Query α :=
  fun limit offset => if fails offset then none else some (scan.page limit offset)

/-- The default of `cursorPaginate`; neither stream gives another. -/
def defaultPageSize : ℕ := 100

/-- `createEntityStream`. -/
def createEntityStream (s : Tables) (entityType userId orgId : String)
    (scan : Scan ((s.userQuery orgId userId entityType).getD [])) (fails : ℕ → Bool)
    (pageSize fuel : ℕ) : Option Readable :=
  entityStream ((s.userQuery orgId userId entityType).map fun _ => ask scan fails) pageSize fuel

/-- `createOrgEntityStream`. -/
def createOrgEntityStream (s : Tables) (entityType orgId : String)
    (scan : Scan ((s.orgQuery orgId entityType).getD [])) (fails : ℕ → Bool)
    (pageSize fuel : ℕ) : Option Readable :=
  entityStream ((s.orgQuery orgId entityType).map fun _ => ask scan fails) pageSize fuel

/-- The entities of the two exports. -/
inductive Entity
  | user (entityType userId orgId : String)
  | org (entityType orgId : String)

/-- The rows that match. -/
def Entity.matching (s : Tables) : Entity → List Json
  | .user entityType userId orgId => (s.userQuery orgId userId entityType).getD []
  | .org entityType orgId => (s.orgQuery orgId entityType).getD []

/-- The stream of an export of one kind of data. -/
def Entity.stream (s : Tables) : (e : Entity) → Scan (e.matching s) → (ℕ → Bool) → ℕ → ℕ →
    Option Readable
  | .user entityType userId orgId => createEntityStream s entityType userId orgId
  | .org entityType orgId => createOrgEntityStream s entityType orgId

/-! ## The loop -/

section Loop

variable {α : Type} {rows : List α} {n : ℕ}

/-- A longer bound on the pages reads the same. -/
theorem cursorPaginate_mono {query : Query α} {x : List (List α) × Bool} :
    ∀ {fuel fuel' o : ℕ}, fuel ≤ fuel' → cursorPaginate query n fuel o = some x →
      cursorPaginate query n fuel' o = some x
  | 0, _, _, _, h => by cases h
  | _ + 1, 0, _, hle, _ => absurd hle (Nat.not_succ_le_zero _)
  | fuel + 1, fuel' + 1, o, hle, h => by
    rw [cursorPaginate] at h ⊢
    split at h
    · exact h
    · exact h
    · split at h
      · rwa [if_pos ‹_›]
      · rw [if_neg ‹_›]
        obtain ⟨y, hy, rfl⟩ := Option.map_eq_some_iff.mp h
        rw [cursorPaginate_mono (Nat.le_of_succ_le_succ hle) hy]
        rfl

/-- **The loop ends**, with the pages of the scan unless a query throws. -/
theorem cursorPaginate_scan (scan : Scan rows) (fails : ℕ → Bool) (hn : 0 < n) :
    ∀ m o, o ≤ rows.length → rows.length < o + m * n →
      ∃ x, cursorPaginate (ask scan fails) n m o = some x
        ∧ ((∀ k, fails k = false) → x.2 = false)
        ∧ (x.2 = false → x.1.flatten = scan.pages n m o)
  | 0, o, hle, hlt => by omega
  | m + 1, o, hle, hlt => by
    rw [cursorPaginate, ask]
    by_cases hfails : fails o = true
    · rw [if_pos hfails]
      refine ⟨_, rfl, fun h => ?_, nofun⟩
      rw [h o] at hfails
      cases hfails
    have hlength := scan.length_page n o
    rw [if_neg hfails]
    match hpage : scan.page n o with
    | [] =>
      rw [hpage, List.length_nil] at hlength
      refine ⟨_, rfl, fun _ => rfl, fun _ => ?_⟩
      exact (Scan.pages_of_le (by omega)).symm
    | a :: l =>
      rw [hpage] at hlength
      change ∃ x, (if (a :: l).length < n then _ else _) = some x ∧ _
      by_cases hlast : (a :: l).length < n
      · rw [if_pos hlast]
        refine ⟨_, rfl, fun _ => rfl, fun _ => ?_⟩
        rw [Scan.pages, hpage, Scan.pages_of_le (by omega), List.append_nil]
        exact List.append_nil _
      · rw [if_neg hlast]
        obtain ⟨x, hx, hthrew, hpages⟩ :=
          cursorPaginate_scan scan fails hn m (o + n) (by omega) (by rw [Nat.succ_mul] at hlt; omega)
        refine ⟨_, congrArg (Option.map _) hx, hthrew, fun h => ?_⟩
        rw [List.flatten_cons, hpages h, Scan.pages, hpage]

end Loop

/-! ## The text -/

theorem flatMap_pushRows (rows : List Json) :
    (pushRows false rows).flatMap String.toList ++ [']'] = Json.textMore rows := by
  induction rows with
  | nil => rfl
  | cons row rows ih =>
    rw [pushRows, List.flatMap_cons, String.toList_append, List.append_assoc, List.append_assoc,
      ih, Json.toList_stringify]
    rfl

/-- The brackets and the commas are those of an array. -/
theorem join_pushRows (rows : List Json) :
    String.join ("[" :: pushRows true rows) ++ "]" = (Json.arr rows).stringify := by
  refine String.toList_injective ?_
  rw [String.toList_append, String.toList_join, Json.toList_stringify]
  cases rows with
  | nil => rfl
  | cons row rows =>
    rw [pushRows, List.flatMap_cons, List.flatMap_cons, String.toList_append, List.append_assoc,
      List.append_assoc, List.append_assoc]
    change ['['] ++ ([] ++ (row.stringify.toList ++ ((pushRows false rows).flatMap _ ++ [']']))) = _
    rw [flatMap_pushRows, Json.toList_stringify]
    rfl

section Streams

variable {s : Tables} {e : Entity} {n fuel fuel' : ℕ} {r r' : Readable}

/-- The pages of a scan, in the text of an array. -/
def Pages {rows : List Json} (scan : Scan rows) (n : ℕ) (r : Readable) : Prop :=
  r.text = (Json.arr (scan.pages n (rows.length + 1) 0)).stringify

/-- A stream whose queries do not fail is the pages of the scan. -/
theorem entityStream_scan {rows : List Json} (scan : Scan rows) (fails : ℕ → Bool) (hn : 0 < n) :
    ∃ r, entityStream (some (ask scan fails)) n (rows.length + 1) = some r
      ∧ ((∀ k, fails k = false) → r.destroyed = false) ∧ (r.destroyed = false → Pages scan n r) := by
  have hlt : rows.length < 0 + (rows.length + 1) * n := by
    have := Nat.le_mul_of_pos_right (rows.length + 1) hn
    omega
  obtain ⟨x, hx, hthrew, hpages⟩ := cursorPaginate_scan scan fails hn _ 0 (Nat.zero_le _) hlt
  refine ⟨_, congrArg (Option.map _) hx, hthrew, fun h => ?_⟩
  change x.2 = false at h
  rw [Pages, ← hpages h, ← join_pushRows]
  change String.join ("[" :: pushRows true x.1.flatten ++ if x.2 then [] else ["]"]) = _
  rw [h, String.join_append]
  rfl

/-- A stream over a query that may be missing is the pages of its scan. -/
theorem entityStream_query (query : Option (List Json)) (scan : Scan (query.getD []))
    (fails : ℕ → Bool) (hn : 0 < n) :
    ∃ r, entityStream (query.map fun _ => ask scan fails) n ((query.getD []).length + 1) = some r
      ∧ ((∀ k, fails k = false) → r.destroyed = false) ∧ (r.destroyed = false → Pages scan n r) := by
  cases query with
  | none =>
    refine ⟨_, rfl, fun _ => rfl, fun _ => ?_⟩
    rw [Pages, Scan.pages_of_le (Nat.zero_le _)]
    rfl
  | some rows => exact entityStream_scan scan fails hn

/-- **A stream ends**, and without a failure has pushed the pages of its queries. -/
theorem stream_scan (s : Tables) (e : Entity) (scan : Scan (e.matching s)) (fails : ℕ → Bool)
    (hn : 0 < n) :
    ∃ r, e.stream s scan fails n ((e.matching s).length + 1) = some r
      ∧ ((∀ k, fails k = false) → r.destroyed = false) ∧ (r.destroyed = false → Pages scan n r) := by
  cases e with
  | user entityType userId orgId => exact entityStream_query _ scan fails hn
  | org entityType orgId => exact entityStream_query _ scan fails hn

theorem entityStream_mono {query : Option (Query Json)} (hle : fuel ≤ fuel')
    (h : entityStream query n fuel = some r) : entityStream query n fuel' = some r := by
  cases query with
  | none => exact h
  | some query =>
    obtain ⟨x, hx, rfl⟩ := Option.map_eq_some_iff.mp h
    exact congrArg (Option.map _) (cursorPaginate_mono hle hx)

/-- What a stream comes to does not depend on the fuel. -/
theorem stream_det {scan : Scan (e.matching s)} {fails : ℕ → Bool}
    (h : e.stream s scan fails n fuel = some r) (h' : e.stream s scan fails n fuel' = some r') :
    r = r' := by
  have hmono : ∀ {k k' : ℕ} {x : Readable}, k ≤ k' → e.stream s scan fails n k = some x →
      e.stream s scan fails n k' = some x := by
    cases e with
    | user => exact entityStream_mono
    | org => exact entityStream_mono
  rcases Nat.le_total fuel fuel' with hle | hle
  · exact Option.some.inj ((hmono hle h).symm.trans h')
  · exact Option.some.inj (h.symm.trans (hmono hle h'))

end Streams

/-! ## Complete exports -/

/-- **The array of the rows**, in some order. -/
def Complete (rows : List Json) (r : Readable) : Prop :=
  r.destroyed = false ∧ ∃ values, Json.parse r.text = some (.arr values) ∧ values.Perm rows

/-- Whatever order each query comes upon the rows in, the stream ends, complete. -/
def Exported (s : Tables) (e : Entity) (n : ℕ) : Prop :=
  ∀ scan, ∃ fuel r, e.stream s scan (fun _ => false) n fuel = some r ∧ Complete (e.matching s) r

/-! ## The result -/

/-- A stream that has ended is complete exactly where its pages are the rows. -/
theorem complete_iff {rows : List Json} {scan : Scan rows} {n : ℕ} {r : Readable}
    (hended : r.destroyed = false) (hpages : Pages scan n r) :
    Complete rows r ↔ (scan.pages n (rows.length + 1) 0).Perm rows := by
  unfold Complete
  rw [hpages, Json.parse_stringify]
  constructor
  · rintro ⟨-, values, hvalues, hperm⟩
    cases hvalues
    exact hperm
  · intro hperm
    exact ⟨hended, _, rfl, hperm⟩

/-- An entity is exported whole exactly where every scan of it pages the rows. -/
theorem exported_iff_perm {s : Tables} {e : Entity} {n : ℕ} (hn : 0 < n) :
    Exported s e n ↔ ∀ scan : Scan (e.matching s),
      (scan.pages n ((e.matching s).length + 1) 0).Perm (e.matching s) := by
  refine forall_congr' fun scan => ?_
  obtain ⟨r, hr, hended, hpages⟩ := stream_scan s e scan (fun _ => false) hn
  rw [← complete_iff (hended fun _ => rfl) (hpages (hended fun _ => rfl))]
  constructor
  · rintro ⟨fuel, r', hr', hcomplete⟩
    exact stream_det hr' hr ▸ hcomplete
  · intro hcomplete
    exact ⟨_, r, hr, hcomplete⟩

/-- **An export is complete** exactly where one query gives all of its rows. -/
theorem exported_iff (s : Tables) (e : Entity) (n : ℕ+) :
    Exported s e n ↔
      (e.matching s).length ≤ n ∨ ∀ a ∈ e.matching s, ∀ b ∈ e.matching s, a = b := by
  have henough : (e.matching s).length ≤ ((e.matching s).length + 1) * n := by
    have := Nat.le_mul_of_pos_right ((e.matching s).length + 1) n.pos
    omega
  rw [exported_iff_perm n.pos]
  constructor
  · intro h
    refine or_iff_not_imp_left.mpr fun hlt a ha b hb => by_contra fun hne => ?_
    obtain ⟨scan, hscan⟩ := Scan.exists_scan_not_perm n.pos (Nat.lt_of_not_le hlt) ha hb hne
    exact hscan _ henough (h scan)
  · rintro (hle | hconst) scan
    · exact Scan.pages_perm_of_le hle
    · exact Scan.pages_perm_of_const henough hconst

/-! ## A page and a row -/

def demoWorkspace (i : ℕ) : WorkspaceRow := ⟨String.ofList (.replicate i 'w'), "A", "Team", 0, none⟩

theorem demoWorkspaces_nodup : (((List.range 101).map demoWorkspace).map WorkspaceRow.id).Nodup := by
  rw [List.map_map]
  refine List.nodup_range.map fun i j h => ?_
  have hlength := congrArg List.length (String.ofList_injective h)
  rwa [List.length_replicate, List.length_replicate] at hlength

/-- `A` has one workspace more than a page holds. -/
def manyWorkspaces : Tables where
  users := fun _ => none
  tasks := .empty
  taskAssignees := []
  comments := .empty
  messages := .empty
  files := .empty
  workspaces := ⟨(List.range 101).map demoWorkspace, demoWorkspaces_nodup⟩
  memberships := []
  comments_author := nofun

/-- The rows of the example, one for each workspace. -/
theorem matching_manyWorkspaces : (Entity.org "workspaces" "A").matching manyWorkspaces
    = (List.range 101).map fun i => (demoWorkspace i).select := by
  have hfilter : manyWorkspaces.workspaces.rows.filter (fun w => w.orgId = "A" ∧ w.deletedAt = none)
      = (List.range 101).map demoWorkspace := by
    refine List.filter_eq_self.mpr fun w hw => ?_
    obtain ⟨i, -, rfl⟩ := List.mem_map.mp hw
    exact decide_eq_true ⟨rfl, rfl⟩
  change (manyWorkspaces.workspaces.rows.filter _).map WorkspaceRow.select = _
  rw [hfilter, List.map_map]
  rfl

/-- One order for the first page and another for the second: a workspace comes twice, and one is
missing. -/
theorem not_exported :
    ¬ Exported manyWorkspaces (.org "workspaces" "A") defaultPageSize := by
  have hmem : ∀ i < 101, (demoWorkspace i).select
      ∈ (Entity.org "workspaces" "A").matching manyWorkspaces := by
    intro i hi
    rw [matching_manyWorkspaces]
    exact List.mem_map_of_mem (List.mem_range.mpr hi)
  have hne : (demoWorkspace 0).select ≠ (demoWorkspace 1).select := by
    intro h
    have hid := (Prod.mk.inj (List.cons.inj (Json.obj.inj h)).1).2
    exact absurd (Json.str.inj hid) (by decide)
  have hlength : ((Entity.org "workspaces" "A").matching manyWorkspaces).length = 101 := by
    rw [matching_manyWorkspaces, List.length_map, List.length_range]
  rw [exported_iff_perm (by decide)]
  intro h
  obtain ⟨scan, hscan⟩ := Scan.exists_scan_not_perm (n := defaultPageSize) (by decide)
    (by rw [hlength]; decide) (hmem 0 (by decide)) (hmem 1 (by decide)) hne
  exact hscan _ (by rw [hlength]; decide) (h scan)

end WorkPlatform.Gdpr

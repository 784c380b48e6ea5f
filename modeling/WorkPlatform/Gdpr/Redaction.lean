import WorkPlatform.Gdpr.Export

/-!
# Gdpr/Redaction — what a user's archive says of others

    messages   sender_id = u                        nothing
    comments   of everyone, the name redacted       id, body, created_at of each

Two databases that agree on what is the user's give the same messages.  They give the same comments
exactly where the others wrote the same bodies under the same ids at the same times, whoever wrote
them (`archive_same`).
-/

namespace WorkPlatform.Gdpr

open Machinery
open Chat (MessageRow)
open File (FileRow)

/-! ## The archive -/

/-- The entities `userExportWorkerJob` appends, with their names. -/
def userArchive : List (String × String) :=
  [("tasks", "tasks.json"), ("comments", "comments.json"), ("messages", "messages.json"),
    ("files", "files.json")]

/-- A stream may end with this text. -/
def Pushes (s : Tables) (e : Entity) (text : String) : Prop :=
  ∃ scan fuel r, e.stream s scan (fun _ => false) defaultPageSize fuel = some r
    ∧ r.destroyed = false ∧ r.text = text

/-- The archive of the user may have a file of this name, with this text. -/
def Archived (s : Tables) (userId orgId file text : String) : Prop :=
  ∃ entityType, (entityType, file) ∈ userArchive ∧ Pushes s (.user entityType userId orgId) text

/-! ## Two tables that agree -/

/-- What is the user's in the organisation is the same in both, and so is the user. -/
structure Agree (userId orgId : String) (s s' : Tables) : Prop where
  user : s.users userId = s'.users userId
  tasks : ∀ t : TaskRow, t.orgId = orgId →
    ((t ∈ s.tasks.rows ∧ (t.id, userId) ∈ s.taskAssignees)
      ↔ (t ∈ s'.tasks.rows ∧ (t.id, userId) ∈ s'.taskAssignees))
  comments : ∀ c : CommentRow, c.orgId = orgId → c.authorId = userId →
    (c ∈ s.comments.rows ↔ c ∈ s'.comments.rows)
  messages : ∀ m : MessageRow, m.orgId = orgId → m.senderId = userId →
    (m ∈ s.messages.rows ↔ m ∈ s'.messages.rows)
  files : ∀ f : FileRow, f.orgId = orgId → f.uploaderId = userId →
    (f ∈ s.files.rows ↔ f ∈ s'.files.rows)

/-- The archives can have the same texts under the name. -/
def SameFile (userId orgId : String) (s s' : Tables) (file : String) : Prop :=
  ∀ text, Archived s userId orgId file text ↔ Archived s' userId orgId file text

/-- **What is not redacted** of the comments others have in the organisation. -/
def Tables.commentsOfOthers (s : Tables) (orgId userId : String) : List (String × Json × String) :=
  ((s.liveComments orgId).filter fun c => c.authorId ≠ userId).map fun c =>
    (c.id, c.body, toISOString c.createdAt)

/-! ## What a stream may push -/

section Pushes

variable {s s' : Tables} {e e' : Entity} {text : String}

theorem defaultPageSize_pos : 0 < defaultPageSize := by decide

/-- A text is pushed where it is the JSON of the pages of some scan. -/
theorem pushes_iff : Pushes s e text ↔ ∃ scan : Scan (e.matching s),
    text = (Json.arr (scan.pages defaultPageSize ((e.matching s).length + 1) 0)).stringify := by
  refine exists_congr fun scan => ?_
  obtain ⟨r, hr, hended, hpages⟩ := stream_scan s e scan (fun _ => false) defaultPageSize_pos
  have hended := hended fun _ => rfl
  constructor
  · rintro ⟨fuel, r', hr', -, rfl⟩
    rw [stream_det hr' hr]
    exact hpages hended
  · rintro rfl
    exact ⟨_, r, hr, hended, hpages hended⟩

theorem pages_ofPerm {α : Type} {rows rows' : List α} (h : rows.Perm rows') (scan : Scan rows)
    (n : ℕ) : ∀ m o, (scan.ofPerm h).pages n m o = scan.pages n m o
  | 0, _ => rfl
  | m + 1, o => congrArg (scan.page n o ++ ·) (pages_ofPerm h scan n m (o + n))

/-- The same rows in another order may be pushed alike. -/
theorem Pushes.of_perm (hperm : (e.matching s).Perm (e'.matching s')) (h : Pushes s e text) :
    Pushes s' e' text := by
  obtain ⟨scan, rfl⟩ := pushes_iff.mp h
  refine pushes_iff.mpr ⟨scan.ofPerm hperm, ?_⟩
  rw [pages_ofPerm, hperm.length_eq]

/-- What may always be pushed as well has the same rows. -/
theorem mem_of_pushes (h : ∀ text, Pushes s e text → Pushes s' e' text) {a : Json}
    (ha : a ∈ e.matching s) : a ∈ e'.matching s' := by
  have henough : (e.matching s).length ≤ ((e.matching s).length + 1) * defaultPageSize := by
    have := Nat.le_mul_of_pos_right ((e.matching s).length + 1) defaultPageSize_pos
    omega
  obtain ⟨scan, hscan⟩ := pushes_iff.mp (h _ (pushes_iff.mpr ⟨.constant (.refl _), rfl⟩))
  rw [Scan.pages_constant _ henough] at hscan
  have hrows := Json.arr.inj (Json.stringify_injective hscan)
  exact Scan.mem_pages (hrows ▸ ha)

end Pushes

/-! ## The rows of two databases -/

section Rows

variable {s s' : Tables} {u o : String}

/-- The tasks assigned to the user are the same in both, up to their order. -/
theorem Agree.assignedTasks (h : Agree u o s s') :
    (s.assignedTasks o u).Perm (s'.assignedTasks o u) := by
  refine Table.filter_perm fun t => ?_
  simp only [decide_eq_true_iff, List.contains_iff_mem]
  constructor
  · rintro ⟨ht, ho, hlive, hu⟩
    obtain ⟨ht', hu'⟩ := (h.tasks t ho).mp ⟨ht, hu⟩
    exact ⟨ht', ho, hlive, hu'⟩
  · rintro ⟨ht, ho, hlive, hu⟩
    obtain ⟨ht', hu'⟩ := (h.tasks t ho).mpr ⟨ht, hu⟩
    exact ⟨ht', ho, hlive, hu'⟩

theorem Agree.sentMessages (h : Agree u o s s') :
    (s.sentMessages o u).Perm (s'.sentMessages o u) := by
  refine Table.filter_perm fun m => and_congr_left fun hm => ?_
  obtain ⟨ho, hu, -⟩ := of_decide_eq_true hm
  exact h.messages m ho hu

theorem Agree.uploadedFiles (h : Agree u o s s') :
    (s.uploadedFiles o u).Perm (s'.uploadedFiles o u) := by
  refine Table.filter_perm fun f => and_congr_left fun hf => ?_
  obtain ⟨ho, hu, -⟩ := of_decide_eq_true hf
  exact h.files f ho hu

/-! ### The comments -/

/-- What is pushed of a comment of another member. -/
def redacted (x : String × Json × String) : Json := .obj
  [("id", .str x.1), ("body", x.2.1), ("created_at", .str x.2.2), ("author_name", .str "Org Member")]

/-- What is pushed of two rows tells them apart. -/
theorem redacted_injective : Function.Injective redacted := by
  rintro ⟨id, body, time⟩ ⟨id', body', time'⟩ h
  unfold redacted at h
  injection h with h
  injection h with hid h
  injection h with hbody h
  injection h with htime
  cases Json.str.inj (Prod.mk.inj hid).2
  cases (Prod.mk.inj hbody).2
  cases Json.str.inj (Prod.mk.inj htime).2
  rfl

/-- A comment, joined with its author. -/
def Tables.joined (s : Tables) (u : String) (c : CommentRow) : Option Json :=
  (s.users c.authorId).map (c.select u)

theorem joined_of_ne {c : CommentRow} (hc : c ∈ s.comments.rows) (hu : c.authorId ≠ u) :
    s.joined u c = some (redacted (c.id, c.body, toISOString c.createdAt)) := by
  obtain ⟨author, hauthor⟩ := Option.isSome_iff_exists.mp (s.comments_author c hc)
  unfold Tables.joined CommentRow.select CommentRow.authorName
  rw [hauthor, Option.map_some, if_neg hu]
  rfl

/-- The user's own comments, and those of the others. -/
theorem matching_comments (s : Tables) (u o : String) :
    ((Entity.user "comments" u o).matching s).Perm
      (((s.liveComments o).filter fun c => c.authorId = u).filterMap (s.joined u)
        ++ (s.commentsOfOthers o u).map redacted) := by
  have hothers : ((s.liveComments o).filter fun c => c.authorId ≠ u).filterMap (s.joined u)
      = (s.commentsOfOthers o u).map redacted := by
    unfold Tables.commentsOfOthers
    rw [List.map_map, ← List.filterMap_eq_map]
    refine List.filterMap_congr fun c hc => ?_
    obtain ⟨hc, hu⟩ := List.mem_filter.mp hc
    exact joined_of_ne (List.mem_filter.mp hc).1 (of_decide_eq_true hu)
  have hsplit := List.filter_append_perm (fun c : CommentRow => decide (c.authorId = u))
    (s.liveComments o)
  have hnot : (fun c : CommentRow => !decide (c.authorId = u)) = fun c => decide (c.authorId ≠ u) :=
    funext fun _ => decide_not.symm
  rw [hnot] at hsplit
  rw [← hothers, ← List.filterMap_append]
  exact (hsplit.filterMap (s.joined u)).symm

/-- The comments of the user are the same in both, up to their order. -/
theorem Agree.ownComments (h : Agree u o s s') :
    (((s.liveComments o).filter fun c => c.authorId = u).filterMap (s.joined u)).Perm
      (((s'.liveComments o).filter fun c => c.authorId = u).filterMap (s'.joined u)) := by
  have hjoined : ∀ c ∈ (s.liveComments o).filter fun c => c.authorId = u,
      s.joined u c = s'.joined u c := by
    intro c hc
    have hu : c.authorId = u := of_decide_eq_true (List.mem_filter.mp hc).2
    unfold Tables.joined
    rw [hu, h.user]
  rw [List.filterMap_congr hjoined]
  refine List.Perm.filterMap _ ?_
  unfold Tables.liveComments
  rw [List.filter_filter, List.filter_filter]
  refine Table.filter_perm fun c => and_congr_left fun hc => ?_
  obtain ⟨hu, hlive⟩ := (Bool.and_eq_true _ _).mp hc
  exact h.comments c (of_decide_eq_true hlive).1 (of_decide_eq_true hu)

theorem commentsOfOthers_nodup (s : Tables) (o u : String) : (s.commentsOfOthers o u).Nodup := by
  have hids : ((s.commentsOfOthers o u).map Prod.fst).Nodup := by
    unfold Tables.commentsOfOthers
    rw [List.map_map]
    exact (((List.filter_sublist.trans List.filter_sublist).map CommentRow.id)).nodup
      s.comments.keys_nodup
  exact hids.of_map

/-- No comment of the user is, in the other database, one of another member. -/
theorem Agree.mem_commentsOfOthers (h : Agree u o s s') {x : String × Json × String}
    (hx : x ∈ s.commentsOfOthers o u)
    (hmem : redacted x ∈ (Entity.user "comments" u o).matching s') : x ∈ s'.commentsOfOthers o u := by
  rcases List.mem_append.mp ((matching_comments s' u o).mem_iff.mp hmem) with hown | hother
  · obtain ⟨c', hc', hjoined⟩ := List.mem_filterMap.mp hown
    obtain ⟨c, hc, rfl⟩ := List.mem_map.mp hx
    obtain ⟨hlive', hu'⟩ := List.mem_filter.mp hc'
    obtain ⟨hlive, hu⟩ := List.mem_filter.mp hc
    obtain ⟨hc', hlive'⟩ := List.mem_filter.mp hlive'
    have hid : c'.id = c.id := by
      obtain ⟨author, -, hselect⟩ := Option.map_eq_some_iff.mp hjoined
      have hfields := Json.obj.inj hselect
      exact Json.str.inj (Prod.mk.inj (List.cons.inj hfields).1).2
    have hown : c' ∈ s.comments.rows :=
      (h.comments c' (of_decide_eq_true hlive').1 (of_decide_eq_true hu')).mpr hc'
    obtain rfl := Table.eq_of_key hown (List.mem_filter.mp hlive).1 hid
    exact absurd (of_decide_eq_true hu') (of_decide_eq_true hu)
  · exact (List.mem_map_of_injective redacted_injective).mp hother

end Rows

/-! ## The result -/

section Result

variable {s s' : Tables} {u o : String}

theorem Agree.symm (h : Agree u o s s') : Agree u o s' s where
  user := h.user.symm
  tasks t ho := (h.tasks t ho).symm
  comments c ho hu := (h.comments c ho hu).symm
  messages m ho hu := (h.messages m ho hu).symm
  files f ho hu := (h.files f ho hu).symm

theorem archived_iff {entityType file text : String} (hmem : (entityType, file) ∈ userArchive) :
    Archived s u o file text ↔ Pushes s (.user entityType u o) text := by
  constructor
  · rintro ⟨entityType', hmem', h⟩
    have hfiles : (userArchive.map Prod.snd).Nodup := by decide
    obtain rfl := congrArg Prod.fst (List.inj_on_of_nodup_map hfiles hmem' hmem rfl)
    exact h
  · exact fun h => ⟨entityType, hmem, h⟩

/-- What is not of the comments is the user's own. -/
theorem Agree.matching_perm (h : Agree u o s s') {entityType file : String}
    (hmem : (entityType, file) ∈ userArchive) (hfile : file ≠ "comments.json") :
    ((Entity.user entityType u o).matching s).Perm ((Entity.user entityType u o).matching s') := by
  have hcases : entityType = "tasks" ∨ entityType = "messages" ∨ entityType = "files" := by
    unfold userArchive at hmem
    grind
  rcases hcases with rfl | rfl | rfl
  · exact h.assignedTasks.map _
  · exact h.sentMessages.map _
  · exact h.uploadedFiles.map _

theorem Agree.sameFile (h : Agree u o s s') {file : String} (hfile : file ≠ "comments.json") :
    SameFile u o s s' file := by
  refine fun text => exists_congr fun entityType => and_congr_right fun hmem => ⟨?_, ?_⟩
  · exact Pushes.of_perm (h.matching_perm hmem hfile)
  · exact Pushes.of_perm (h.matching_perm hmem hfile).symm

theorem sameFile_comments : SameFile u o s s' "comments.json" ↔
    ∀ text, Pushes s (.user "comments" u o) text ↔ Pushes s' (.user "comments" u o) text := by
  have hmem : ("comments", "comments.json") ∈ userArchive := by decide
  exact forall_congr' fun text => iff_congr (archived_iff hmem) (archived_iff hmem)

/-- Others' comments are rows of the export. -/
theorem redacted_mem_matching {x : String × Json × String} (hx : x ∈ s.commentsOfOthers o u) :
    redacted x ∈ (Entity.user "comments" u o).matching s :=
  (matching_comments s u o).mem_iff.mpr (List.mem_append_right _ (List.mem_map_of_mem hx))

/-- **The archive of a user** says of the others what they wrote in comments, and nothing else. -/
theorem archive_same (h : Agree u o s s') :
    (∀ file, file ≠ "comments.json" → SameFile u o s s' file)
      ∧ (SameFile u o s s' "comments.json"
        ↔ ∀ x, x ∈ s.commentsOfOthers o u ↔ x ∈ s'.commentsOfOthers o u) := by
  refine ⟨fun file hfile => h.sameFile hfile, sameFile_comments.trans ⟨fun hsame x => ?_, ?_⟩⟩
  · constructor
    · intro hx
      exact h.mem_commentsOfOthers hx
        (mem_of_pushes (fun text => (hsame text).mp) (redacted_mem_matching hx))
    · intro hx
      exact h.symm.mem_commentsOfOthers hx
        (mem_of_pushes (fun text => (hsame text).mpr) (redacted_mem_matching hx))
  · intro hothers
    have hperm := (List.perm_ext_iff_of_nodup (commentsOfOthers_nodup s o u)
      (commentsOfOthers_nodup s' o u)).mpr hothers
    have hrows := (matching_comments s u o).trans
      ((h.ownComments.append (hperm.map redacted)).trans (matching_comments s' u o).symm)
    exact fun text => ⟨.of_perm hrows, .of_perm hrows.symm⟩

end Result

/-! ## A comment -/

/-- The comment `c` in the organisation `A`. -/
def demoComment (author : String) : Table CommentRow.id :=
  ⟨[⟨"c", "A", author, .str "secret", 0, none⟩], List.nodup_singleton _⟩

/-- A user, with the given comments and nothing else. -/
def demoTables (comments : Table CommentRow.id) : Tables where
  users := fun _ => some ⟨"u@x", "Una", none, none, none, false, [], none⟩
  tasks := .empty
  taskAssignees := []
  comments := comments
  messages := .empty
  files := .empty
  workspaces := .empty
  memberships := []
  comments_author := fun _ _ => rfl

theorem agree_demoTables {comments comments' : Table CommentRow.id}
    (h : ∀ c ∈ comments.rows, c.authorId ≠ "u") (h' : ∀ c ∈ comments'.rows, c.authorId ≠ "u") :
    Agree "u" "A" (demoTables comments) (demoTables comments') where
  user := rfl
  tasks _ _ := Iff.rfl
  comments c _ hu := ⟨fun hc => absurd hu (h c hc), fun hc => absurd hu (h' c hc)⟩
  messages _ _ _ := Iff.rfl
  files _ _ _ := Iff.rfl

theorem demoComment_author {author : String} (h : author ≠ "u") :
    ∀ c ∈ (demoComment author).rows, c.authorId ≠ "u" := by
  intro c hc
  obtain rfl := List.mem_singleton.mp hc
  exact h

/-- It does not matter who of the others wrote the comment. -/
theorem archive_same_author :
    SameFile "u" "A" (demoTables (demoComment "v")) (demoTables (demoComment "w")) "comments.json" :=
  (archive_same (agree_demoTables (demoComment_author (by decide))
    (demoComment_author (by decide)))).2.mpr fun _ => Iff.rfl

/-- The user is no author of the comment, and its body is in the archive. -/
theorem comment_of_other_archived :
    Agree "u" "A" (demoTables (demoComment "v")) (demoTables .empty)
      ∧ ¬ SameFile "u" "A" (demoTables (demoComment "v")) (demoTables .empty) "comments.json" := by
  have hrow : ("c", Json.str "secret", toISOString 0)
      ∈ (demoTables (demoComment "v")).commentsOfOthers "A" "u" := .head _
  refine ⟨agree_demoTables (demoComment_author (by decide)) nofun, fun hsame => ?_⟩
  have hmem := mem_of_pushes (fun text => (sameFile_comments.mp hsame text).mp)
    (redacted_mem_matching hrow)
  cases hmem

end WorkPlatform.Gdpr

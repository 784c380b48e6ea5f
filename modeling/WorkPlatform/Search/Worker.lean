import WorkPlatform.Machinery.Replay
import WorkPlatform.Search.Typesense

/-!
# Search/Worker — whether the index has what the last job of each entity asked

    GET search:indexed:<type>:<id>:<action> ──there──▸ skipped
                   │
                   └ not there ──▸ upsert / delete ──▸ SET … EX 300

The key does not know the document, so a job within five minutes of another one of its kind is
skipped also where it asks for something else.  And a delete takes the id out of all collections.
After each job the index is as the last jobs ask exactly where neither does harm
(`search_worker_iff`).
-/

namespace WorkPlatform.Search

open Machinery

/-! ## `search.worker` -/

inductive Action
  | upsert | delete
  deriving DecidableEq, Repr

/-- `Omit<SearchDocument, 'id' | 'org_id' | 'entity_type'>`. -/
structure JobDocument where
  title : Option String
  body : Option String
  filename : Option String
  name : Option String
  email : Option String

def JobDocument.empty : JobDocument := ⟨none, none, none, none, none⟩

/-- `SearchIndexJobData`. -/
structure SearchIndexJobData where
  entityType : EntityType
  entityId : String
  orgId : String
  action : Action
  document : Option JobDocument

namespace SearchIndexJobData

variable (d : SearchIndexJobData)

/-- The entity a job is about. -/
def entity : EntityType × String := (d.entityType, d.entityId)

/-- `{ id, org_id, entity_type, ...document }`. -/
def searchDocument : SearchDocument :=
  let document := d.document.getD .empty
  ⟨d.entityId, d.orgId, d.entityType, document.title, document.body, document.filename,
    document.name, document.email⟩

end SearchIndexJobData

/-- The entity type as it is written. -/
def EntityType.text : EntityType → String
  | .task => "task"
  | .message => "message"
  | .file => "file"
  | .user => "user"

def Action.text : Action → String
  | .upsert => "upsert"
  | .delete => "delete"

def idempotencyKey (d : SearchIndexJobData) : String :=
  "search:indexed:" ++ d.entityType.text ++ ":" ++ d.entityId ++ ":" ++ d.action.text

/-- `IDEMPOTENCY_TTL`, in milliseconds. -/
def idempotencyTtl : ℕ := 5 * 60 * 1000

/-- The clock, the keys with the time at which each is gone, and the index. -/
structure WorkerState where
  now : ℕ
  keys : String → Option ℕ
  index : Index

def WorkerState.live (s : WorkerState) (key : String) (now : ℕ) : Bool := (s.keys key).any (now < ·)

/-- A job, the time before it is taken up, and the time the provider takes. -/
structure IndexJob where
  data : SearchIndexJobData
  wait : ℕ
  took : ℕ

/-- What the provider makes of the index. -/
def provide (index : Index) (d : SearchIndexJobData) : Option Index :=
  match d.action with
  | .delete => some (deleteDocument index d.entityId)
  | .upsert => upsertDocument index d.searchDocument

/-- `searchWorkerJob`; `none` where it throws. -/
def searchWorkerJob (s : WorkerState) (j : IndexJob) : Option WorkerState :=
  let key := idempotencyKey j.data
  let started := s.now + j.wait
  if s.live key started then some { s with now := started }
  else (provide s.index j.data).map fun index =>
    { now := started + j.took
      keys := Function.update s.keys key (some (started + j.took + idempotencyTtl))
      index := index }

/-! ## What the jobs ask for -/

/-- What is to be kept of the entity after a job: the document, or nothing. -/
def SearchIndexJobData.asked (d : SearchIndexJobData) : Option Document :=
  match d.action with
  | .upsert => some d.searchDocument.typesenseDoc
  | .delete => none

/-- The last job of an entity. -/
def lastJob (done : List IndexJob) (e : EntityType × String) : Option SearchIndexJobData :=
  ((done.map IndexJob.data).filter (·.entity = e)).getLast?

/-- What the index has of an entity. -/
def WorkerState.kept (s : WorkerState) (e : EntityType × String) : Option Document :=
  s.index.entry (collectionMap e.1) e.2

/-- **The index has of each entity what its last job asks for.** -/
def Converged (done : List IndexJob) (s : WorkerState) : Prop :=
  ∀ e d, lastJob done e = some d → s.kept e = d.asked

/-- A job that is skipped finds what it asks for, and a delete that is carried out finds no entity
of another type under its id. -/
def Harmless (done : List IndexJob) (s : WorkerState) (j : IndexJob) : Prop :=
  if s.live (idempotencyKey j.data) (s.now + j.wait) then s.kept j.data.entity = j.data.asked
  else j.data.action = .delete → ∀ t ≠ j.data.entityType, ∀ d,
    lastJob done (t, j.data.entityId) = some d → d.action = .delete

/-! ## One job -/

section

variable {done : List IndexJob} {s t : WorkerState} {j : IndexJob}

theorem lastJob_concat (done : List IndexJob) (j : IndexJob) (e : EntityType × String) :
    lastJob (done ++ [j]) e = if j.data.entity = e then some j.data else lastJob done e := by
  by_cases h : j.data.entity = e <;> simp [lastJob, h]

theorem asked_eq_none {d : SearchIndexJobData} : d.asked = none ↔ d.action = .delete := by
  cases hd : d.action <;> simp [SearchIndexJobData.asked, hd]

/-- **What a job does that is not skipped.** -/
theorem provide_spec (index : Index) (d : SearchIndexJobData) :
    ∃ index', provide index d = some index' ∧ ∀ e : EntityType × String,
      index'.entry (collectionMap e.1) e.2 =
        if e = d.entity ∨ d.action = .delete ∧ e.2 = d.entityId then d.asked
        else index.entry (collectionMap e.1) e.2 := by
  cases hd : d.action with
  | delete =>
    refine ⟨_, by rw [provide, hd], fun e => ?_⟩
    have hasked : d.asked = none := asked_eq_none.mpr hd
    rw [entry_deleteDocument, hasked]
    by_cases he : e.2 = d.entityId
    · simp [he]
    · have hne : e ≠ d.entity := fun h => he (congrArg Prod.snd h)
      simp [he, hne]
  | upsert =>
    obtain ⟨index', hindex, hentry⟩ := entry_upsertDocument index d.searchDocument
    refine ⟨index', by rw [provide, hd, hindex], fun e => ?_⟩
    rw [hentry]
    have hentity : e = d.entity ↔
        collectionMap e.1 = collectionMap d.searchDocument.entityType ∧ e.2 = d.searchDocument.id := by
      rw [Prod.ext_iff, collectionMap_injective.eq_iff]
      rfl
    simp [← hentity, SearchIndexJobData.asked, hd]

theorem searchWorkerJob_total (s : WorkerState) (j : IndexJob) :
    ∃ t, searchWorkerJob s j = some t := by
  obtain ⟨index, hindex, -⟩ := provide_spec s.index j.data
  by_cases hlive : s.live (idempotencyKey j.data) (s.now + j.wait)
  · exact ⟨_, if_pos hlive⟩
  · exact ⟨_, (if_neg hlive).trans (by rw [hindex, Option.map_some])⟩

/-- **What a job changes.** -/
theorem kept_searchWorkerJob (h : searchWorkerJob s j = some t) (e : EntityType × String) :
    t.kept e = if ¬ s.live (idempotencyKey j.data) (s.now + j.wait) ∧
        (e = j.data.entity ∨ j.data.action = .delete ∧ e.2 = j.data.entityId) then j.data.asked
      else s.kept e := by
  simp only [searchWorkerJob] at h
  split at h
  case isTrue hlive =>
    cases h
    simp [hlive, WorkerState.kept]
  case isFalse hlive =>
    obtain ⟨index, hindex, hentry⟩ := provide_spec s.index j.data
    rw [hindex] at h
    cases h
    simp only [WorkerState.kept, hentry, hlive]
    simp

/-- What the index has to be of the entity of the job. -/
theorem harmless_of_converged (h : searchWorkerJob s j = some t)
    (hafter : Converged (done ++ [j]) t) : Harmless done s j := by
  have hkept := kept_searchWorkerJob h
  unfold Harmless
  split
  case isTrue hlive =>
    have hlast := hafter j.data.entity j.data (by rw [lastJob_concat, if_pos rfl])
    rw [hkept, if_neg fun hnot => hnot.1 hlive] at hlast
    exact hlast
  case isFalse hlive =>
    intro hdelete t' ht d hd
    have hne : j.data.entity ≠ (t', j.data.entityId) := fun heq => ht (congrArg Prod.fst heq).symm
    have hlast := hafter (t', j.data.entityId) d (by rw [lastJob_concat, if_neg hne, hd])
    rw [hkept, if_pos ⟨hlive, Or.inr ⟨hdelete, rfl⟩⟩, asked_eq_none.mpr hdelete] at hlast
    exact asked_eq_none.mp hlast.symm

/-- The entity of the job. -/
theorem Harmless.kept_entity (hharmless : Harmless done s j) (h : searchWorkerJob s j = some t) :
    t.kept j.data.entity = j.data.asked := by
  rw [kept_searchWorkerJob h]
  unfold Harmless at hharmless
  split
  case isTrue => rfl
  case isFalse hnot =>
    have hlive : s.live (idempotencyKey j.data) (s.now + j.wait) :=
      of_not_not fun hlive => hnot ⟨hlive, Or.inl rfl⟩
    rwa [if_pos hlive] at hharmless

/-- Every other entity: a delete may take away what has its id, and that was to be gone. -/
theorem Harmless.kept_other (hharmless : Harmless done s j) (h : searchWorkerJob s j = some t)
    {e : EntityType × String} {d : SearchIndexJobData} (hne : j.data.entity ≠ e)
    (hlast : lastJob done e = some d) (hkept : s.kept e = d.asked) : t.kept e = d.asked := by
  rw [kept_searchWorkerJob h]
  unfold Harmless at hharmless
  split
  case isFalse => exact hkept
  case isTrue hcarried =>
    obtain ⟨hlive, heq | ⟨hdelete, hid⟩⟩ := hcarried
    · exact absurd heq.symm hne
    · rw [if_neg hlive] at hharmless
      have htype : e.1 ≠ j.data.entityType := fun htype => hne (Prod.ext htype.symm hid.symm)
      have hlast' : lastJob done (e.1, j.data.entityId) = some d := by rw [← hid, hlast]
      rw [asked_eq_none.mpr hdelete, asked_eq_none.mpr (hharmless hdelete e.1 htype d hlast')]

/-- **The step**: a job keeps the index as it is to be exactly where it does no harm. -/
theorem converged_concat (hdone : Converged done s) (h : searchWorkerJob s j = some t) :
    Converged (done ++ [j]) t ↔ Harmless done s j := by
  refine ⟨harmless_of_converged h, fun hharmless e d hd => ?_⟩
  rw [lastJob_concat] at hd
  split at hd
  case isTrue hentity =>
    cases hd
    rw [← hentity]
    exact hharmless.kept_entity h
  case isFalse hne => exact hharmless.kept_other h hne hd (hdone e d hd)

end

/-- **The index has after every job what the last jobs ask for, exactly where no job does harm.** -/
theorem search_worker_iff (start : WorkerState) (jobs : List IndexJob) :
    (∀ done, done <+: jobs → ∃ s, done.foldlM searchWorkerJob start = some s ∧ Converged done s) ↔
      ∀ done j s, done ++ [j] <+: jobs → done.foldlM searchWorkerJob start = some s →
        Harmless done s j :=
  prefixes_iff searchWorkerJob_total (fun e d hd => by cases hd)
    (fun _ _ _ _ hdone h => converged_concat hdone h) jobs

/-- Redis and the index at the start. -/
def demoWorker : WorkerState := ⟨0, fun _ => none, fun _ => none⟩

/-- An upsert of the task `t1`, with a title. -/
def demoJob (title : String) : IndexJob :=
  ⟨⟨.task, "t1", "o", .upsert, some ⟨some title, none, none, none, none⟩⟩, 1000, 10⟩

/-- **A task that is renamed within five minutes stays under its first name.** -/
theorem search_worker_stale : ∃ s,
    [demoJob "draft", demoJob "final"].foldlM searchWorkerJob demoWorker = some s ∧
      ¬ Converged [demoJob "draft", demoJob "final"] s := by
  have hkept : ([demoJob "draft", demoJob "final"].foldlM searchWorkerJob demoWorker).any
      fun s => s.kept (.task, "t1") = (demoJob "draft").data.asked := by decide
  obtain ⟨s, hs, hdraft⟩ := (Option.any_eq_true _ _).mp hkept
  refine ⟨s, hs, fun hconverged => ?_⟩
  have hfinal := hconverged (.task, "t1") (demoJob "final").data rfl
  rw [of_decide_eq_true hdraft] at hfinal
  exact absurd hfinal (by decide)

end WorkPlatform.Search

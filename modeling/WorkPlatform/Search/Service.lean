import WorkPlatform.Search.Typesense

/-!
# Search/Service — what the search gives while Typesense fails

    search ──▸ breaker ──▸ Typesense ──▸ each error of a call dropped ──▸ results
                  │
                  └ rejected ──▸ PostgreSQL ──▸ results, degraded

The loop of the provider drops the errors that the fallback waits for.  So a search is complete, or
marked, exactly where the breaker itself rejects it or no collection is missing and each call that
failed had nothing to find (`search_iff`).
-/

namespace WorkPlatform.Search

open Machinery

/-- `config.searchProvider`. -/
inductive ProviderName
  | typesense | postgres
  deriving DecidableEq

/-- `fire` of the breaker: it rejects, open or after its timeout, or gives what the action gives. -/
def fire {α : Type*} (rejects : Bool) (action : Option α) : Option α :=
  if rejects then none else action

section

variable {V : Type*} (pg : TextSearch V) (db : Database V) (engine : Engine) (provider : ProviderName)
  (rejects : Bool) (fails : Faults) (initialized : Bool) (index : Index) (o : SearchOptions)

/-- The search of the active provider, which never throws. -/
def providerSearch : SearchResponse :=
  match provider with
  | .typesense => typesenseSearch engine fails initialized index o
  | .postgres => postgresSearch pg db o

/-- `SearchService.search`. -/
def search : SearchResponse :=
  match fire rejects (some (providerSearch pg db engine provider fails initialized index o)) with
  | some result => result
  | none => { postgresSearch pg db o with degraded := true }

/-! ## What it is to give -/

/-- The results of all the requested collections, if they are there. -/
def typesenseResults : Option (List SearchResult) :=
  gatherAll (searchCollection engine index o) (o.entityTypes.getD allTypes)

/-- All that Typesense has to give, or what PostgreSQL has and marked. -/
def CompleteOrDegraded (response : SearchResponse) : Prop :=
  (typesenseResults engine index o = some response.results ∧ response.degraded = false) ∨
    response = { postgresSearch pg db o with degraded := true }

/-- The collection of a type is there when it is searched. -/
def Created (fails : Faults) (initialized : Bool) (index : Index) (t : EntityType) : Prop :=
  (index (collectionMap t)).isSome ∨ ¬ initialized ∧ ¬ fails.create (collectionMap t)

/-- What the search of a type finds. -/
def hits (t : EntityType) : List Hit :=
  engine ((index (collectionMap t)).getD fun _ => none) (searchParams o t)

end

section

variable {engine : Engine} {fails : Faults} {initialized : Bool} {index : Index} {o : SearchOptions}
  {t : EntityType}

/-- A collection answers with its hits where it was created and the search does not fail. -/
theorem searchCollection_eq_some {l : List SearchResult} :
    searchCollection engine (ensureCollections fails.create initialized index) o t = some l ↔
      Created fails initialized index t ∧ (hits engine index o t).map (Hit.result t) = l := by
  rw [searchCollection, Option.map_eq_some_iff, ensureCollections_apply]
  cases hindex : index (collectionMap t) with
  | some docs => simp [Created, hits, hindex]
  | none =>
    by_cases hthere : initialized ∨ fails.create (collectionMap t)
    · have hnot : ¬ Created fails initialized index t := by
        rintro (hsome | ⟨hinit, hfail⟩)
        · rw [hindex] at hsome
          cases hsome
        · exact hthere.elim hinit hfail
      simp [hthere, hnot]
    · have hcreated : Created fails initialized index t := Or.inr (not_or.mp hthere)
      simp [hthere, hcreated, hits, hindex]

/-- **The loop gives all of it** where the collections are there and the calls that fail would
find nothing. -/
theorem typesenseSearch_iff :
    typesenseResults engine (ensureCollections fails.create initialized index) o =
        some (typesenseSearch engine fails initialized index o).results ↔
      ∀ k t, (o.entityTypes.getD allTypes)[k]? = some t →
        Created fails initialized index t ∧ (fails.search k → hits engine index o t = []) := by
  have hpairs : o.entityTypes.getD allTypes = (o.entityTypes.getD allTypes).zipIdx.map Prod.fst :=
    (List.zipIdx_map_fst 0 _).symm
  rw [typesenseResults, hpairs, gatherAll_map, ← hpairs, typesenseSearch, gather_eq_iff]
  · constructor
    · intro hall k t hk
      obtain ⟨l, hl, hnone⟩ := hall (t, k) (List.mk_mem_zipIdx_iff_getElem?.mpr hk)
      obtain ⟨hcreated, rfl⟩ := searchCollection_eq_some.mp hl
      refine ⟨hcreated, fun hfail => List.map_eq_nil_iff.mp (hnone (if_pos hfail))⟩
    · rintro hall ⟨t, k⟩ hk
      obtain ⟨hcreated, hfail⟩ := hall k t (List.mk_mem_zipIdx_iff_getElem?.mp hk)
      have hcall : searchCollection engine (ensureCollections fails.create initialized index) o t =
          some ((hits engine index o t).map (Hit.result t)) :=
        searchCollection_eq_some.mpr ⟨hcreated, rfl⟩
      refine ⟨_, hcall, fun hnone => ?_⟩
      by_cases hk : fails.search k
      · rw [hfail hk, List.map_nil]
      · rw [if_neg hk, hcall] at hnone
        cases hnone
  · rintro ⟨t, k⟩
    by_cases hk : fails.search k <;> simp [hk]

end

/-- **A search gives all that Typesense has, or what PostgreSQL has and marked, exactly where the
breaker rejects it, or every collection is there and each search that fails would find nothing.** -/
theorem search_iff {V : Type*} (pg : TextSearch V) (db : Database V) (engine : Engine)
    (rejects : Bool) (fails : Faults) (initialized : Bool) (index : Index) (o : SearchOptions) :
    CompleteOrDegraded pg db engine (ensureCollections fails.create initialized index) o
        (search pg db engine .typesense rejects fails initialized index o) ↔
      rejects ∨ ∀ k t, (o.entityTypes.getD allTypes)[k]? = some t →
        Created fails initialized index t ∧ (fails.search k → hits engine index o t = []) := by
  cases rejects with
  | true => exact iff_of_true (Or.inr rfl) (Or.inl rfl)
  | false =>
    rw [← typesenseSearch_iff, or_iff_right Bool.false_ne_true]
    constructor
    · rintro (⟨hall, -⟩ | hmarked)
      · exact hall
      · exact absurd (congrArg SearchResponse.degraded hmarked) Bool.false_ne_true
    · exact fun hall => Or.inl ⟨hall, rfl⟩

/-- All four collections, with one task. -/
def demoIndex : Index
  | .tasks => some fun id =>
      if id = "t1" then some ⟨"t1", "o", "report", "", "", "", ""⟩ else none
  | _ => some fun _ => none

/-- The search that finds the task `t1`. -/
def demoEngine : Engine := fun docs _ => if (docs "t1").isSome then [⟨"t1", 100⟩] else []

/-- **With Typesense down, a search finds nothing, is not marked, and PostgreSQL is not asked.** -/
theorem search_down : ¬ CompleteOrDegraded demoText demoSearch demoEngine
    (ensureCollections (fun _ => true) false demoIndex) ⟨"report", "o", none, none, none⟩
    (search demoText demoSearch demoEngine .typesense false ⟨fun _ => true, fun _ => true⟩ false
      demoIndex ⟨"report", "o", none, none, none⟩) := by
  rintro (⟨hall, -⟩ | hmarked)
  · have hone : (typesenseResults demoEngine (ensureCollections (fun _ => true) false demoIndex)
        ⟨"report", "o", none, none, none⟩).map List.length = some 1 := by decide
    rw [hall] at hone
    exact absurd hone (by decide)
  · exact absurd (congrArg SearchResponse.degraded hmarked) Bool.false_ne_true

end WorkPlatform.Search

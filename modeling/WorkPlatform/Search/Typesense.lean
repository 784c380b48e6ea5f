import Mathlib.Logic.Function.Basic
import WorkPlatform.Machinery.Gather
import WorkPlatform.Search.PostgresFts

/-!
# Search/Typesense — the index of the search, and the provider that reads and writes it

    ensureCollections ──▸ tasks │ chat_messages │ files │ users
                            ▴ upsert, delete      │ one search a type, its errors dropped
                            │                     ▾
                       the search worker       the search

The search engine itself, the order and the choice of the hits, is a parameter.
-/

namespace WorkPlatform.Search

open Machinery

/-! ## The index -/

inductive Collection
  | tasks | chatMessages | files | users
  deriving DecidableEq, Repr

/-- `COLLECTIONS`. -/
def collections : List Collection := [.tasks, .chatMessages, .files, .users]

/-- The collection of an entity type. -/
def collectionMap : EntityType → Collection
  | .task => .tasks
  | .message => .chatMessages
  | .file => .files
  | .user => .users

/-- A document of a collection. -/
structure Document where
  id : String
  orgId : String
  title : String
  body : String
  filename : String
  name : String
  email : String
  deriving DecidableEq

/-- The documents of a collection, by their id. -/
abbrev Documents := String → Option Document

/-- The collections, those that have been created. -/
abbrev Index := Collection → Option Documents

namespace Index

/-- The calls of the client: `none` is an error, also that the collection is there already. -/
def create (index : Index) (c : Collection) : Option Index :=
  if (index c).isSome then none else some (Function.update index c (some fun _ => none))

def upsert (index : Index) (c : Collection) (doc : Document) : Option Index :=
  (index c).map fun docs =>
    Function.update index c (some (Function.update docs doc.id (some doc)))

def delete (index : Index) (c : Collection) (id : String) : Option Index :=
  (index c).bind fun docs => (docs id).map fun _ =>
    Function.update index c (some (Function.update docs id none))

/-- What is kept of an entity. -/
def entry (index : Index) (c : Collection) (id : String) : Option Document :=
  (index c).bind fun docs => docs id

end Index

/-! ## `TypesenseProvider` -/

/-- `fails c`: the creation of `c` fails for another reason than that `c` is there. -/
def ensureCollections (fails : Collection → Bool) (initialized : Bool) (index : Index) : Index :=
  if initialized then index
  else collections.foldl
    (fun index c => if fails c then index else (index.create c).getD index) index

/-- `metadata` with the fields that are read. -/
structure SearchDocument where
  id : String
  orgId : String
  entityType : EntityType
  title : Option String
  body : Option String
  filename : Option String
  name : Option String
  email : Option String
  deriving DecidableEq

def SearchDocument.typesenseDoc (doc : SearchDocument) : Document :=
  ⟨doc.id, doc.orgId, doc.title.getD "", doc.body.getD "", doc.filename.getD "", doc.name.getD "",
    doc.email.getD ""⟩

/-- By a provider of its own, over calls that are answered. -/
def upsertDocument (index : Index) (doc : SearchDocument) : Option Index :=
  (ensureCollections (fun _ => false) false index).upsert (collectionMap doc.entityType)
    doc.typesenseDoc

def deleteDocument (index : Index) (id : String) : Index :=
  collections.foldl (fun index c => (index.delete c id).getD index)
    (ensureCollections (fun _ => false) false index)

/-- The parameters of a search. -/
structure SearchParams where
  q : String
  queryBy : String
  filterBy : String
  perPage : ℕ
  page : ℕ

structure Hit where
  id : String
  textMatch : ℕ

def Hit.result (t : EntityType) (hit : Hit) : SearchResult := ⟨hit.id, t, hit.textMatch, none⟩

/-- The search over the documents of a collection. -/
abbrev Engine := Documents → SearchParams → List Hit

/-- The fields that are searched. -/
def queryBy : EntityType → String
  | .task => "title,body"
  | .message => "body"
  | .file => "filename"
  | .user => "name,email"

/-- The parameters of the search of one collection. -/
def searchParams (o : SearchOptions) (t : EntityType) : SearchParams where
  q := o.query
  queryBy := queryBy t
  filterBy := "org_id:=" ++ o.orgId
  perPage := o.limit.getD 20
  page := o.offset.getD 0 / o.limit.getD 20 + 1

/-- The search of one collection; one that is not there is an error. -/
def searchCollection (engine : Engine) (index : Index) (o : SearchOptions) (t : EntityType) :
    Option (List SearchResult) :=
  (index (collectionMap t)).map fun docs =>
    (engine docs (searchParams o t)).map (Hit.result t)

/-- The calls that fail: the creation of a collection, and the searches by their number. -/
structure Faults where
  create : Collection → Bool
  search : ℕ → Bool

/-- `TypesenseProvider.search`. -/
def typesenseSearch (engine : Engine) (fails : Faults) (initialized : Bool) (index : Index)
    (o : SearchOptions) : SearchResponse :=
  let index := ensureCollections fails.create initialized index
  let results := gather (fun call =>
    if fails.search call.2 then none else searchCollection engine index o call.1)
      (o.entityTypes.getD allTypes).zipIdx
  ⟨results, results.length, false⟩

/-! ## What the calls do -/

section

variable {index : Index} {fails : Collection → Bool} {c : Collection}

theorem mem_collections (c : Collection) : c ∈ collections := by
  cases c <;> decide

theorem create_getD (index : Index) (c c' : Collection) :
    (index.create c).getD index c' =
      if c' = c then some ((index c').getD fun _ => none) else index c' := by
  cases hc : index c with
  | some docs =>
    by_cases h : c' = c <;> simp [Index.create, hc, h]
  | none =>
    by_cases h : c' = c <;> simp [Index.create, hc, h]

/-- **A collection is there, empty where it was not**, if its creation does not fail. -/
theorem ensureCollections_apply (initialized : Bool) : ensureCollections fails initialized index c =
    if initialized ∨ fails c then index c else some ((index c).getD fun _ => none) := by
  have hloop : ∀ (cs : List Collection) (index : Index),
      cs.foldl (fun index c => if fails c then index else (index.create c).getD index) index c =
        if c ∈ cs ∧ ¬ fails c then some ((index c).getD fun _ => none) else index c := by
    intro cs
    induction cs with
    | nil => simp
    | cons x xs ih =>
      intro index
      rw [List.foldl_cons, ih]
      by_cases hx : fails x
      · by_cases hcx : c = x
        · simp [hx, hcx]
        · simp [hx, hcx]
      · rw [if_neg hx, create_getD]
        by_cases hcx : c = x
        · simp [hcx, hx]
        · simp [hcx]
  cases initialized with
  | true => simp [ensureCollections]
  | false =>
    simp only [ensureCollections, Bool.false_eq_true, if_false, hloop, mem_collections, true_and,
      false_or]
    by_cases hc : fails c <;> simp [hc]

/-! ### What is kept of an entity -/

/-- Creating the collections leaves every entry. -/
theorem entry_ensureCollections (initialized : Bool) (id : String) :
    (ensureCollections fails initialized index).entry c id = index.entry c id := by
  rw [Index.entry, ensureCollections_apply, Index.entry]
  cases hc : index c with
  | some docs => simp
  | none =>
    split_ifs
    · rfl
    · rfl

/-- A deletion takes away the entry of its id. -/
theorem entry_delete_getD (index : Index) (c c' : Collection) (id id' : String) :
    ((index.delete c id).getD index).entry c' id' =
      if c' = c ∧ id' = id then none else index.entry c' id' := by
  cases hc : index c with
  | none => by_cases h : c' = c <;> simp [Index.delete, Index.entry, h, hc]
  | some docs =>
    cases hid : docs id with
    | none =>
      by_cases h : c' = c
      · by_cases hi : id' = id <;> simp [Index.delete, Index.entry, h, hi, hc, hid]
      · simp [Index.delete, hc, hid, h]
    | some doc =>
      by_cases h : c' = c
      · by_cases hi : id' = id <;> simp [Index.delete, Index.entry, h, hi, hc, hid]
      · simp [Index.delete, Index.entry, hc, hid, h]

/-- **A delete takes the id out of every collection.** -/
theorem entry_deleteDocument (id id' : String) :
    (deleteDocument index id).entry c id' = if id' = id then none else index.entry c id' := by
  have hloop : ∀ (cs : List Collection) (index : Index),
      (cs.foldl (fun index c => (index.delete c id).getD index) index).entry c id' =
        if c ∈ cs ∧ id' = id then none else index.entry c id' := by
    intro cs
    induction cs with
    | nil => simp
    | cons x xs ih =>
      intro index
      rw [List.foldl_cons, ih, entry_delete_getD]
      by_cases hx : c = x <;> by_cases hid : id' = id <;> simp [hx, hid]
  rw [deleteDocument, hloop, entry_ensureCollections]
  simp [mem_collections]

/-- **An upsert puts the document in the place of its entity**, and does not fail. -/
theorem entry_upsertDocument (index : Index) (doc : SearchDocument) :
    ∃ index', upsertDocument index doc = some index' ∧ ∀ c id, index'.entry c id =
      if c = collectionMap doc.entityType ∧ id = doc.id then some doc.typesenseDoc
      else index.entry c id := by
  have hthere : ∃ docs, ensureCollections (fun _ => false) false index
      (collectionMap doc.entityType) = some docs :=
    ⟨_, (ensureCollections_apply false).trans (if_neg (by simp))⟩
  obtain ⟨docs, hdocs⟩ := hthere
  refine ⟨_, by rw [upsertDocument, Index.upsert, hdocs, Option.map_some], fun c id => ?_⟩
  have hbefore : (ensureCollections (fun _ => false) false index).entry c id = index.entry c id :=
    entry_ensureCollections false id
  rw [← hbefore]
  by_cases hc : c = collectionMap doc.entityType
  · subst hc
    by_cases hid : id = doc.id <;> simp [Index.entry, hdocs, hid, SearchDocument.typesenseDoc]
  · simp [Index.entry, hc]

theorem collectionMap_injective : Function.Injective collectionMap := by
  intro t t' h
  cases t <;> cases t' <;> first | rfl | cases h

end

end WorkPlatform.Search

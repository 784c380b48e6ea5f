import WorkPlatform.Machinery.Growing
import WorkPlatform.Machinery.Noninterference

/-!
# Task/ActivityLog — the log of what happened to the tasks

    log           insert
    listForTask   select, oldest first
    listForOrg    select, newest first, a page of it

Rows are only ever added, so a reader that goes through `listForOrg` page by page, by offset, may
meet a row twice, but misses none that was there when it began (`log_read_whole`).
-/

namespace WorkPlatform.ActivityLog

open Machinery

/-! ## Rows -/

/-- A row of `task_activity_log`; a payload is its JSON text. -/
structure ActivityLogRow where
  id : String
  orgId : String
  taskId : String
  actorId : String
  eventType : String
  payload : String
  createdAt : ℕ
  deriving DecidableEq

/-- The arguments of `log`. -/
structure LogArgs where
  orgId : String
  actorId : String
  eventType : String
  taskId : String
  payload : String
  deriving DecidableEq

structure Store where
  primary : Table ActivityLogRow.id
  replica : Table ActivityLogRow.id

/-- The id of a new row and when its transaction began, and the order PostgreSQL gives to rows of
one time. -/
structure Draw where
  id : String
  startedAt : ℕ
  rank : String → ℕ

def LogArgs.row (a : LogArgs) (d : Draw) : ActivityLogRow :=
  ⟨d.id, a.orgId, a.taskId, a.actorId, a.eventType, a.payload, d.startedAt⟩

/-! ## The service -/

/-- `ORDER BY created_at ASC`. -/
def older (d : Draw) (r r' : ActivityLogRow) : Prop :=
  r.createdAt < r'.createdAt ∨ r.createdAt = r'.createdAt ∧ d.rank r.id ≤ d.rank r'.id

/-- `ORDER BY created_at DESC`. -/
def newer (d : Draw) (r r' : ActivityLogRow) : Prop :=
  r'.createdAt < r.createdAt ∨ r.createdAt = r'.createdAt ∧ d.rank r.id ≤ d.rank r'.id

instance (d : Draw) : DecidableRel (older d) := fun _ _ => inferInstanceAs (Decidable (_ ∨ _))

instance (d : Draw) : DecidableRel (newer d) := fun _ _ => inferInstanceAs (Decidable (_ ∨ _))

namespace Store

def insertLog (s : Store) (r : ActivityLogRow) : Option Store :=
  (s.primary.insert r).map fun t => { s with primary := t }

def listForTask (s : Store) (d : Draw) (orgId taskId : String) : List ActivityLogRow :=
  (s.replica.rows.filter fun r => r.orgId = orgId ∧ r.taskId = taskId).insertionSort (older d)

/-- The rows of `listForOrg`, before LIMIT and OFFSET. -/
def ofOrg (s : Store) (d : Draw) (orgId : String) : List ActivityLogRow :=
  (s.replica.rows.filter (·.orgId = orgId)).insertionSort (newer d)

def listForOrg (s : Store) (d : Draw) (orgId : String) (limit offset : ℕ) : List ActivityLogRow :=
  ((s.ofOrg d orgId).drop offset).take limit

end Store

/-- Where a call of `log` is. -/
inductive LogPc
  | insert
  | returned
  | failed
  deriving DecidableEq

/-- Where a call that lists is. -/
inductive ListPc
  | select
  | returned (rows : List ActivityLogRow)
  deriving DecidableEq

/-- An INSERT that a foreign key refuses ends the call as a crash does. -/
def logNext (s : Store) (d : Draw) (a : LogArgs) : LogPc → Option (Store × LogPc)
  | .insert =>
    match s.insertLog (a.row d) with
    | some s' => some (s', .returned)
    | none => some (s, .failed)
  | .returned | .failed => none

/-! ## The machine -/

/-- A call, and where it is. -/
inductive Call
  | log (args : LogArgs) (pc : LogPc)
  | listForTask (orgId taskId : String) (pc : ListPc)
  | listForOrg (orgId : String) (limit offset : ℕ) (pc : ListPc)
  deriving DecidableEq

def Call.orgId : Call → String
  | .log args _ => args.orgId
  | .listForTask orgId _ _ | .listForOrg orgId _ _ _ => orgId

inductive Env
  | replicate

def env (s : Store) : Env → Store
  | .replicate => { s with replica := s.primary }

/-- The next statement of a call. -/
def Call.next (s : Store) (d : Draw) : Call → Option (Store × Call)
  | .log args pc => (logNext s d args pc).map fun x => (x.1, .log args x.2)
  | .listForTask orgId taskId .select =>
    some (s, .listForTask orgId taskId (.returned (s.listForTask d orgId taskId)))
  | .listForOrg orgId limit offset .select =>
    some (s, .listForOrg orgId limit offset (.returned (s.listForOrg d orgId limit offset)))
  | .listForTask _ _ (.returned _) | .listForOrg _ _ _ (.returned _) => none

def activityMachine : Machine Store Call Draw Env := ⟨fun s c d => c.next s d, env⟩

/-- Calls over the log. -/
abbrev Calls (ι : Type*) := Pool ι Store Call

/-! ## Organisations apart -/

structure Sees (orgId : String) (s t : Store) : Prop where
  primary : SeesRows ActivityLogRow.orgId orgId s.primary t.primary
  replica : SeesRows ActivityLogRow.orgId orgId s.replica t.replica

def activityTenancy : Tenancy Store Call Env String := ⟨Call.orgId, fun _ => none, Sees⟩

/-- The next statement of the call is an INSERT. -/
def Call.inserts : Call → Bool
  | .log _ .insert => true
  | _ => false

/-- The id of a new row is a new one. -/
def Unused (s : Store) (c : Call) (d : Draw) : Prop := c.inserts = true → s.primary.find d.id = none

instance (s : Store) (c : Call) (d : Draw) : Decidable (Unused s c d) :=
  inferInstanceAs (Decidable (_ → _))

theorem Sees.refl (orgId : String) (s : Store) : Sees orgId s s := ⟨.refl _, .refl _⟩

section Apart

variable {s s' t : Store} {d : Draw} {u : String}

theorem Sees.listForTask (h : Sees u s t) (d : Draw) (taskId : String) :
    t.listForTask d u taskId = s.listForTask d u taskId := by
  unfold Store.listForTask
  rw [h.replica.filter_eq fun _ hr => (of_decide_eq_true hr).1]

theorem Sees.listForOrg (h : Sees u s t) (d : Draw) (limit offset : ℕ) :
    t.listForOrg d u limit offset = s.listForOrg d u limit offset := by
  unfold Store.listForOrg Store.ofOrg
  rw [h.replica.rows]

/-- What an INSERT does. -/
theorem insert_of_log {args : LogArgs} {pc' : LogPc}
    (h : logNext s d args .insert = some (s', pc')) :
    (∃ rows, s.primary.insert (args.row d) = some rows ∧ s' = { s with primary := rows }
      ∧ pc' = .returned) ∨ s.primary.insert (args.row d) = none ∧ s' = s ∧ pc' = .failed := by
  rw [logNext, Store.insertLog] at h
  cases hins : s.primary.insert (args.row d) with
  | some rows =>
    rw [hins] at h
    obtain ⟨rfl, rfl⟩ := Prod.mk.inj (Option.some.inj h)
    exact Or.inl ⟨rows, rfl, rfl, rfl⟩
  | none =>
    rw [hins] at h
    obtain ⟨rfl, rfl⟩ := Prod.mk.inj (Option.some.inj h)
    exact Or.inr ⟨rfl, rfl, rfl⟩

/-- A tenant's own statement does the same in two stores the tenant cannot tell apart. -/
theorem activity_own {c c' : Call} (h : Sees u s t) (hc : c.orgId = u) (hG : Unused s c d)
    (hn : c.next s d = some (s', c')) :
    Unused t c d ∧ ∃ t', c.next t d = some (t', c') ∧ Sees u s' t' := by
  cases c with
  | log args pc =>
    obtain rfl : args.orgId = u := hc
    obtain ⟨pc', hpc, rfl⟩ := pc_of_next hn
    cases pc with
    | insert =>
      refine ⟨fun _ => h.primary.find_none (hG rfl), ?_⟩
      rcases insert_of_log hpc with ⟨rows, hins, rfl, rfl⟩ | ⟨hins, -, -⟩
      · obtain ⟨rows', hins', hsees⟩ := h.primary.insert_own hins
        refine ⟨{ t with primary := rows' }, ?_, hsees, h.replica⟩
        rw [Call.next, logNext, Store.insertLog, hins']
        rfl
      · obtain ⟨r, hr⟩ := Table.find_of_insert_none hins
        exact absurd ((hG rfl).symm.trans hr) nofun
    | returned | failed => cases hpc
  | listForTask orgId taskId pc =>
    obtain rfl : orgId = u := hc
    cases pc with
    | select =>
      obtain ⟨rfl, rfl⟩ := Prod.mk.inj (Option.some.inj hn)
      refine ⟨nofun, t, ?_, h⟩
      rw [Call.next, h.listForTask]
    | returned _ => cases hn
  | listForOrg orgId limit offset pc =>
    obtain rfl : orgId = u := hc
    cases pc with
    | select =>
      obtain ⟨rfl, rfl⟩ := Prod.mk.inj (Option.some.inj hn)
      refine ⟨nofun, t, ?_, h⟩
      rw [Call.next, h.listForOrg]
    | returned _ => cases hn

/-- Another's statement changes nothing of what the tenant sees. -/
theorem activity_other {c c' : Call} (h : Sees u s t) (hc : c.orgId ≠ u)
    (hn : c.next s d = some (s', c')) : Sees u s' t := by
  cases c with
  | log args pc =>
    obtain ⟨pc', hpc, rfl⟩ := pc_of_next hn
    cases pc with
    | insert =>
      rcases insert_of_log hpc with ⟨rows, hins, rfl, -⟩ | ⟨-, rfl, -⟩
      · exact ⟨h.primary.insert_other hc hins, h.replica⟩
      · exact h
    | returned | failed => cases hpc
  | listForTask orgId taskId pc =>
    cases pc with
    | select =>
      obtain ⟨rfl, rfl⟩ := Prod.mk.inj (Option.some.inj hn)
      exact h
    | returned _ => cases hn
  | listForOrg orgId limit offset pc =>
    cases pc with
    | select =>
      obtain ⟨rfl, rfl⟩ := Prod.mk.inj (Option.some.inj hn)
      exact h
    | returned _ => cases hn

/-- **Organisations are kept apart** by the log. -/
theorem activity_apart : activityTenancy.Apart activityMachine fun s c d => Unused s c d where
  owner_next := by
    intro s c d s' c' hn
    cases c with
    | log args pc =>
      obtain ⟨pc', -, rfl⟩ := pc_of_next hn
      rfl
    | listForTask orgId taskId pc | listForOrg orgId limit offset pc =>
      cases pc with
      | select =>
        obtain ⟨rfl, rfl⟩ := Prod.mk.inj (Option.some.inj hn)
        rfl
      | returned _ => cases hn
  own := fun u s t c d s' c' h hc hG hn => activity_own h hc hG hn
  other := fun u s t c d s' c' h hc _ hn => activity_other h hc hn
  env_own := by
    rintro u s t ⟨⟩ h -
    exact ⟨h.primary, h.primary⟩
  env_other := nofun

end Apart

/-! ## Reading the log page by page -/

section Reading

variable {ι : Type*} [DecidableEq ι] {p q : Calls ι} {s : Store} {d d' : Draw} {orgId : String}

/-- The replica is behind the primary, and both only grow. -/
structure Behind (s t : Store) : Prop where
  replica : s.replica.rows.Sublist t.replica.rows
  primary : s.primary.rows.Sublist t.primary.rows
  behind : t.replica.rows.Sublist t.primary.rows

/-- The replica shows rows of the primary only, in every state of a run. -/
theorem behind_run {p₀ : Calls ι} (h₀ : p₀.store.replica.rows.Sublist p₀.store.primary.rows)
    (h : Run (Pool.step activityMachine) anyStep p₀ q) : Behind p₀.store q.store := by
  refine Pool.invariant (I := fun p => Behind p₀.store p.store)
    ⟨.refl _, .refl _, h₀⟩ ?_ (fun _ _ _ hI _ _ => hI) ?_ h
  · intro p i d c s' c' hI _ _ hn
    cases c with
    | log args pc =>
      obtain ⟨pc', hpc, -⟩ := pc_of_next hn
      cases pc with
      | insert =>
        rcases insert_of_log hpc with ⟨rows, hins, rfl, -⟩ | ⟨-, rfl, -⟩
        · have hrows : p.store.primary.rows.Sublist rows.rows := by
            rw [(Table.insert_eq_some hins).2]
            exact List.sublist_cons_self _ _
          exact ⟨hI.replica, hI.primary.trans hrows, hI.behind.trans hrows⟩
        · exact hI
      | returned | failed => cases hpc
    | listForTask _ _ pc | listForOrg _ _ _ pc =>
      cases pc with
      | select =>
        obtain ⟨rfl, -⟩ := Prod.mk.inj (Option.some.inj hn)
        exact hI
      | returned _ => cases hn
  · rintro p ⟨⟩ hI _
    exact ⟨hI.replica.trans hI.behind, hI.primary, .refl _⟩

instance newer_total (d : Draw) : Std.Total (newer d) := by
  refine ⟨fun r r' => ?_⟩
  unfold newer
  omega

instance newer_trans (d : Draw) : IsTrans ActivityLogRow (newer d) := by
  refine ⟨fun r r' r'' h h' => ?_⟩
  unfold newer at *
  omega

/-- No two rows of the organisation are of one time. -/
def NoTies (s : Store) (orgId : String) : Prop :=
  ∀ r ∈ s.primary.rows, ∀ r' ∈ s.primary.rows, r.orgId = orgId → r'.orgId = orgId →
    r.createdAt = r'.createdAt → r = r'

instance (s : Store) (orgId : String) : Decidable (NoTies s orgId) :=
  inferInstanceAs (Decidable (∀ r ∈ _, ∀ r' ∈ _, _))

/-- What a later query lists, whatever orders were drawn. -/
theorem ofOrg_sublist {s t : Store} (h : Behind s t) (hties : NoTies t orgId) :
    (s.ofOrg d orgId).Sublist (t.ofOrg d' orgId) := by
  have hrow : ∀ r ∈ t.replica.rows.filter (·.orgId = orgId),
      r ∈ t.primary.rows ∧ r.orgId = orgId := by
    intro r hr
    obtain ⟨hmem, horg⟩ := List.mem_filter.mp hr
    exact ⟨h.behind.subset hmem, of_decide_eq_true horg⟩
  refine insertionSort_sublist (h.replica.filter _) (fun r hr r' hr' hnewer => ?_)
    fun r hr r' hr' hnewer hnewer' => ?_
  · obtain ⟨hr, horg⟩ := hrow r hr
    obtain ⟨hr', horg'⟩ := hrow r' hr'
    rcases hnewer with hlt | ⟨heq, -⟩
    · exact Or.inl hlt
    · obtain rfl := hties r hr r' hr' horg horg' heq
      exact Or.inr ⟨rfl, le_rfl⟩
  · obtain ⟨hr, horg⟩ := hrow r hr
    obtain ⟨hr', horg'⟩ := hrow r' hr'
    refine hties r hr r' hr' horg horg' ?_
    unfold newer at hnewer hnewer'
    omega

theorem NoTies.mono {s t : Store} (h : Behind s t) (hties : NoTies t orgId) : NoTies s orgId :=
  fun r hr r' hr' => hties r (h.primary.subset hr) r' (h.primary.subset hr')

/-- **The log is read whole**: a reader that asks for one page after the other, until a page is not
full, has met every row that the replica held when it began, whatever was logged meanwhile. -/
theorem log_read_whole {n m : ℕ} {p₀ : Calls ι} (p : ℕ → Calls ι) (d : ℕ → Draw)
    (h₀ : p₀.store.replica.rows = p₀.store.primary.rows)
    (hstart : Run (Pool.step activityMachine) anyStep p₀ (p 0))
    (hrun : ∀ k < m, Run (Pool.step activityMachine) anyStep (p k) (p (k + 1)))
    (hties : NoTies (p m).store orgId)
    (hlast : ((p m).store.listForOrg (d m) orgId n (m * n)).length < n) :
    ∀ r ∈ (p 0).store.replica.rows, r.orgId = orgId →
      ∃ k ≤ m, r ∈ (p k).store.listForOrg (d k) orgId n (k * n) := by
  have hbehind : ∀ k ≤ m, (p k).store.replica.rows.Sublist (p k).store.primary.rows := by
    intro k
    induction k with
    | zero => exact fun _ => (behind_run (h₀ ▸ .refl _) hstart).behind
    | succ k ih => exact fun hk => (behind_run (ih (Nat.le_of_succ_le hk)) (hrun k hk)).behind
  have hstep : ∀ k < m, Behind (p k).store (p (k + 1)).store :=
    fun k hk => behind_run (hbehind k hk.le) (hrun k hk)
  have hnoties : ∀ k ≤ m, NoTies (p k).store orgId := by
    intro k hk
    induction hk using Nat.decreasingInduction with
    | self => exact hties
    | of_succ k hk ih => exact ih.mono (hstep k hk)
  intro r hr horg
  refine mem_page_of_growing (L := fun k => (p k).store.ofOrg (d k) orgId)
    (fun k hk => ofOrg_sublist (hstep k hk) (hnoties (k + 1) hk)) hlast ?_
  exact (List.mem_insertionSort _).mpr (List.mem_filter.mpr ⟨hr, decide_eq_true horg⟩)

end Reading

/-! ### Two pages of two, with a row logged between them -/

def demoArgs : LogArgs := ⟨"org-1", "user-1", "task.updated", "task-1", "{}"⟩

def demoDraw (n : ℕ) : Draw := ⟨String.ofList (.replicate n 'a'), n, String.length⟩

def demoRow (n : ℕ) : ActivityLogRow := demoArgs.row (demoDraw n)

def demoTable : Table ActivityLogRow.id :=
  ⟨[demoRow 3, demoRow 2, demoRow 1], by decide⟩

def demoLog : Calls (Fin 1) := ⟨⟨demoTable, demoTable⟩, fun _ => .up (.log demoArgs .insert)⟩

def demoMoves : List (Move (Fin 1) Draw Env) := [.run 0 (demoDraw 4), .env .replicate]

/-- What is there to each page. -/
def demoPages : ℕ → Calls (Fin 1)
  | 0 => demoLog
  | _ => (exec (Pool.step activityMachine) anyStep demoLog demoMoves).getD demoLog

theorem demoPages_step (k : ℕ) :
    Run (Pool.step activityMachine) anyStep (demoPages k) (demoPages (k + 1)) := by
  cases k with
  | zero => exact (steps_getD (Pool.step activityMachine) anyStep demoLog demoMoves (by decide)).run
  | succ k => exact .refl

theorem log_read_whole_demo :
    ∃ k ≤ 2, demoRow 1 ∈ (demoPages k).store.listForOrg (demoDraw 0) "org-1" 2 (k * 2) :=
  log_read_whole demoPages (fun _ => demoDraw 0) rfl .refl (fun k _ => demoPages_step k) (by decide)
    (by decide) (demoRow 1) (by decide) rfl

end WorkPlatform.ActivityLog

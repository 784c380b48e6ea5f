import WorkPlatform.Machinery.Run
import WorkPlatform.Payment.Store
import WorkPlatform.Shared.Date

/-!
# Cleanup/Partitions — the monthly partitions of `chat_messages` and `audit_logs`

    migration 007   chat_messages   months 0 … 3     CREATE TABLE
    migration 011   audit_logs      months 0 … 11    CREATE TABLE
    cleanup         both            months 1, 2      CREATE TABLE IF NOT EXISTS
                    audit_logs      months -1 … -24 from the cutoff   DROP TABLE IF EXISTS

A label is the local month of a local midnight, a bound is the UTC date of such a midnight, and
PostgreSQL reads a bound as a midnight of its own session.  All are functions of the month alone
(`monthly_eq`), so the ranges tile the time line however the zones are set (`partitions_tile`).
-/

namespace WorkPlatform.Cleanup

open Machinery Machinery.Calendar
open Date (getFullYear getMonth getDate setDate toISODate Readable)

/-! ## Partitions -/

inductive Parent
  | chatMessages | auditLogs
  deriving DecidableEq

/-- The end of a table name, the month with two digits. -/
structure Label where
  year : ℤ
  month : ℤ
  deriving DecidableEq

/-- The label of the next month. -/
def Label.next (l : Label) : Label :=
  if l.month = 12 then ⟨l.year + 1, 1⟩ else ⟨l.year, l.month + 1⟩

/-- `CREATE TABLE <parent>_<label> PARTITION OF <parent> FOR VALUES FROM (<start>) TO (<stop>)`. -/
structure Partition where
  parent : Parent
  label : Label
  start : ℤ
  stop : ℤ
  deriving DecidableEq

/-- The instants of the partition, where sessions of PostgreSQL are in the zone `db`. -/
def Partition.range (db : TimeZone) (p : Partition) : Set ℤ :=
  Set.Ico (db.midnight p.start) (db.midnight p.stop)

/-- `label`, of a start. -/
def labelOf (tz : TimeZone) (start : ℤ) : Label := ⟨getFullYear tz start, getMonth tz start + 1⟩

/-- The `i`-th month from now. -/
def monthly (tz : TimeZone) (parent : Parent) (now i : ℤ) : Partition :=
  let start := Date.new tz (getFullYear tz now) (getMonth tz now + i) 1
  let stop := Date.new tz (getFullYear tz now) (getMonth tz now + i + 1) 1
  ⟨parent, labelOf tz start, toISODate start, toISODate stop⟩

/-! ## Statements -/

/-- Two partitions of one table that PostgreSQL does not let be side by side. -/
def Partition.Overlaps (db : TimeZone) (p q : Partition) : Prop :=
  p.parent = q.parent ∧ db.midnight p.start < db.midnight q.stop
    ∧ db.midnight q.start < db.midnight p.stop

instance (db : TimeZone) (p q : Partition) : Decidable (p.Overlaps db q) :=
  inferInstanceAs (Decidable (_ ∧ _ ∧ _))

/-- `CREATE TABLE [IF NOT EXISTS]`; `none` where it fails, for a reason below or another one. -/
def create (db : TimeZone) (ifNotExists refused : Bool) (p : Partition) (tables : List Partition) :
    Option (List Partition) :=
  if refused then none
  else if tables.any fun q => q.parent = p.parent ∧ q.label = p.label then
    if ifNotExists then some tables else none
  else if Readable p.start ∧ Readable p.stop ∧ db.midnight p.start < db.midnight p.stop
      ∧ ∀ q ∈ tables, ¬ p.Overlaps db q then some (p :: tables)
  else none

/-- The partitions, and on record all that a statement has asked for. -/
structure State where
  tables : List Partition
  issued : List Partition
  deriving DecidableEq

/-- The loop of a migration, which is one transaction. -/
def migrate (tz db : TimeZone) (parent : Parent) (count : ℕ) (now : ℤ)
    (refused : Partition → Bool) (s : State) : State :=
  let ps := (List.range count).map fun i : ℕ => monthly tz parent now i
  let created := ps.foldlM (fun tables p => create db false (refused p) p tables) s.tables
  ⟨created.getD s.tables, ps ++ s.issued⟩

/-- `retention_audit_days` and the status of an organisation. -/
structure OrgSettings where
  id : String
  status : Payment.OrgStatus
  retentionAuditDays : ℤ
  deriving DecidableEq

/-- Which statements of a run fail. -/
structure Failures where
  refused : Partition → Bool
  index : Label → Bool
  query : Bool
  drop : Label → Bool

section Job

variable (tz db : TimeZone) (now : ℤ) (fails : Failures)

/-- The body of the loop of `createNextPartitions`; what fails ends it. -/
def ensurePartitions (s : State) (i : ℤ) : State :=
  let chat := monthly tz .chatMessages now i
  let audit := monthly tz .auditLogs now i
  match create db true (fails.refused chat) chat s.tables with
  | none => ⟨s.tables, chat :: s.issued⟩
  | some tables =>
    if fails.index chat.label then ⟨tables, chat :: s.issued⟩
    else ⟨(create db true (fails.refused audit) audit tables).getD tables,
      audit :: chat :: s.issued⟩

def createNextPartitions (s : State) : State :=
  [1, 2].foldl (ensurePartitions tz db now fails) s

/-- `SELECT MIN(retention_audit_days) … WHERE status IN ('active', 'suspended')`. -/
def minRetention (orgs : List OrgSettings) : Option ℤ :=
  ((orgs.filter (·.status ∈ [.active, .suspended])).map (·.retentionAuditDays)).min?

/-- `cutoffDate`. -/
def cutoffDate (orgs : List OrgSettings) : ℤ :=
  setDate tz now (getDate tz now - (minRetention orgs).getD 90)

/-- The labels that are dropped, the latest first. -/
def expiredLabels (orgs : List OrgSettings) : List Label :=
  let cutoff := cutoffDate tz now orgs
  (List.range 24).map fun i : ℕ =>
    labelOf tz (Date.new tz (getFullYear tz cutoff) (getMonth tz cutoff - (i + 1)) 1)

/-- The labels for which `DROP TABLE` is done: the first failure ends the loop. -/
def droppedLabels (orgs : List OrgSettings) : List Label :=
  if fails.query then [] else (expiredLabels tz now orgs).takeWhile (¬ fails.drop ·)

def dropExpiredAuditLogPartitions (orgs : List OrgSettings) (s : State) : State :=
  { s with tables := s.tables.filter fun p =>
      ¬ (p.parent = .auditLogs ∧ p.label ∈ droppedLabels tz now fails orgs) }

end Job

/-- What happens to the partitions: the two migrations, and runs of the cleanup job, each at a time
of its own. -/
inductive Event
  | chatMigration (now : ℤ) (refused : Partition → Bool)
  | auditMigration (now : ℤ) (refused : Partition → Bool)
  | cleanup (now : ℤ) (orgs : List OrgSettings) (fails : Failures)

/-- What an event does to the partitions. -/
def step (tz db : TimeZone) (s : State) : Event → Option State
  | .chatMigration now refused => some (migrate tz db .chatMessages 4 now refused s)
  | .auditMigration now refused => some (migrate tz db .auditLogs 12 now refused s)
  | .cleanup now orgs fails => some (dropExpiredAuditLogPartitions tz now fails orgs
      (createNextPartitions tz db now fails s))

/-- Before the migrations. -/
def State.empty : State := ⟨[], []⟩

/-! ## The range of a month -/

/-- The label of a month. -/
def Label.ofMonth (M : ℤ) : Label := ⟨M / 12, M % 12 + 1⟩

/-- The partition of a month. -/
def Partition.ofMonth (tz : TimeZone) (parent : Parent) (M : ℤ) : Partition :=
  ⟨parent, .ofMonth M, tz.monthDate M, tz.monthDate (M + 1)⟩

section Months

variable {tz db : TimeZone} {M N : ℤ} {parent parent' : Parent}

theorem ofMonth_injective : Function.Injective Label.ofMonth := by
  intro M N h
  obtain ⟨hyear, hmonth⟩ := Label.mk.inj h
  omega

/-- The label of a month is followed by that of the next. -/
theorem next_ofMonth (M : ℤ) : (Label.ofMonth M).next = .ofMonth (M + 1) := by
  unfold Label.next Label.ofMonth
  dsimp only
  split
  case isTrue h =>
    rw [Label.mk.injEq]
    omega
  case isFalse h =>
    rw [Label.mk.injEq]
    omega

theorem labelOf_monthStart (M : ℤ) : labelOf tz (tz.monthStart M) = .ofMonth M := by
  unfold labelOf getFullYear getMonth
  rw [TimeZone.monthOf_date_monthStart]
  rfl

/-- The month that a run at the given time counts from. -/
def currentMonth (tz : TimeZone) (now : ℤ) : ℤ :=
  12 * Date.makeFullYear (getFullYear tz now) + getMonth tz now

/-- **Label and bounds are functions of the month.** -/
theorem monthly_eq (parent : Parent) (now i : ℤ) :
    monthly tz parent now i = .ofMonth tz parent (currentMonth tz now + i) := by
  have hstart : 12 * Date.makeFullYear (getFullYear tz now) + (getMonth tz now + i)
      = currentMonth tz now + i := (add_assoc _ _ _).symm
  have hstop : 12 * Date.makeFullYear (getFullYear tz now) + (getMonth tz now + i + 1)
      = currentMonth tz now + i + 1 := by
    rw [← hstart, ← add_assoc, ← add_assoc]
  unfold monthly
  dsimp only
  rw [Date.new_first, Date.new_first, hstart, hstop, labelOf_monthStart]
  rfl

theorem midnight_monthDate_lt (h : M < N) :
    db.midnight (tz.monthDate M) < db.midnight (tz.monthDate N) := by
  have hle := TimeZone.monthDate_add_le (z := tz) h
  exact TimeZone.midnight_lt (by omega)

theorem disjoint_of_lt (h : M < N) : Disjoint ((Partition.ofMonth tz parent M).range db)
    ((Partition.ofMonth tz parent' N).range db) := by
  rw [Set.disjoint_left]
  intro t ht ht'
  have hle : db.midnight (tz.monthDate (M + 1)) ≤ db.midnight (tz.monthDate N) :=
    TimeZone.midnight_mono (TimeZone.monthDate_strictMono.monotone h)
  exact absurd (ht.2.trans_le hle) (not_lt.mpr ht'.1)

theorem disjoint_ofMonth (h : M ≠ N) : Disjoint ((Partition.ofMonth tz parent M).range db)
    ((Partition.ofMonth tz parent' N).range db) := by
  rcases lt_or_gt_of_ne h with hlt | hgt
  · exact disjoint_of_lt hlt
  · exact (disjoint_of_lt hgt).symm

end Months

/-! ## Runs -/

/-- The partition is that of a month. -/
def Monthly (tz : TimeZone) (p : Partition) : Prop := ∃ parent M, p = .ofMonth tz parent M

/-- **The invariant.** -/
structure Tiled (tz : TimeZone) (s : State) : Prop where
  asked : ∀ p ∈ s.issued, Monthly tz p
  issued : ∀ p ∈ s.tables, p ∈ s.issued

section Steps

variable {tz db : TimeZone} {s s' : State} {now : ℤ} {fails : Failures} {p q : Partition}
  {tables tables' : List Partition}

theorem Tiled.empty : Tiled tz .empty :=
  ⟨fun _ h => (List.not_mem_nil h).elim, fun _ h => (List.not_mem_nil h).elim⟩

theorem monthly_monthly (parent : Parent) (i : ℤ) : Monthly tz (monthly tz parent now i) :=
  ⟨parent, _, monthly_eq parent now i⟩

/-- A statement makes the table it asks for, or none. -/
theorem mem_of_create {ifNotExists refused : Bool}
    (h : create db ifNotExists refused p tables = some tables') (hq : q ∈ tables') :
    q = p ∨ q ∈ tables := by
  unfold create at h
  split_ifs at h
  · obtain rfl := Option.some.inj h
    exact Or.inr hq
  · obtain rfl := Option.some.inj h
    exact List.mem_cons.mp hq

/-- A partition after the migration was asked for, or was there before. -/
theorem mem_of_migrate {refused : Partition → Bool} :
    ∀ {ps : List Partition} {tables tables' : List Partition},
      ps.foldlM (fun tables p => create db false (refused p) p tables) tables = some tables' →
        ∀ q ∈ tables', q ∈ ps ∨ q ∈ tables
  | [], tables, tables', h, q, hq => by
      obtain rfl := Option.some.inj h
      exact Or.inr hq
  | p :: ps, tables, tables', h, q, hq => by
      obtain ⟨between, hcreate, hrest⟩ := Option.bind_eq_some_iff.mp h
      rcases mem_of_migrate hrest q hq with hps | hbetween
      · exact Or.inl (List.mem_cons_of_mem _ hps)
      · rcases mem_of_create hcreate hbetween with rfl | hold
        · exact Or.inl List.mem_cons_self
        · exact Or.inr hold

/-- A migration leaves the partitions side by side. -/
theorem Tiled.migrate (hs : Tiled tz s) (parent : Parent) (count : ℕ)
    (refused : Partition → Bool) : Tiled tz (migrate tz db parent count now refused s) := by
  refine ⟨fun p hp => ?_, fun p hp => ?_⟩
  · rcases List.mem_append.mp hp with hnew | hold
    · obtain ⟨i, -, rfl⟩ := List.mem_map.mp hnew
      exact monthly_monthly parent i
    · exact hs.asked p hold
  · unfold Cleanup.migrate at hp ⊢
    dsimp only at hp ⊢
    rw [List.mem_append]
    cases hcreated : ((List.range count).map fun i : ℕ => monthly tz parent now i).foldlM
        (fun tables p => create db false (refused p) p tables) s.tables with
    | none =>
      rw [hcreated] at hp
      exact Or.inr (hs.issued p hp)
    | some tables =>
      rw [hcreated] at hp
      exact (mem_of_migrate hcreated p hp).imp_right (hs.issued p)

/-- One partition more is asked for, and the tables are those asked for. -/
theorem Tiled.issue (hs : Tiled tz s) (hp : Monthly tz p)
    (htables : ∀ q ∈ tables, q = p ∨ q ∈ s.tables) : Tiled tz ⟨tables, p :: s.issued⟩ := by
  refine ⟨fun q hq => ?_, fun q hq => ?_⟩
  · rcases List.mem_cons.mp hq with rfl | hold
    · exact hp
    · exact hs.asked q hold
  · rcases htables q hq with rfl | hold
    · exact List.mem_cons_self
    · exact List.mem_cons_of_mem _ (hs.issued q hold)

/-- So does a turn of the clean-up. -/
theorem Tiled.ensurePartitions (hs : Tiled tz s) (i : ℤ) :
    Tiled tz (ensurePartitions tz db now fails s i) := by
  unfold Cleanup.ensurePartitions
  dsimp only
  split
  case h_1 => exact hs.issue (monthly_monthly _ i) fun q hq => Or.inr hq
  case h_2 tables hchat =>
    have hs' := hs.issue (monthly_monthly .chatMessages i) fun q hq => mem_of_create hchat hq
    split
    · exact hs'
    · refine hs'.issue (monthly_monthly .auditLogs i) fun q hq => ?_
      cases haudit : create db true (fails.refused (monthly tz .auditLogs now i))
          (monthly tz .auditLogs now i) tables with
      | none =>
        rw [haudit] at hq
        exact Or.inr hq
      | some tables' =>
        rw [haudit] at hq
        exact mem_of_create haudit hq

theorem Tiled.drop (hs : Tiled tz s) (orgs : List OrgSettings) :
    Tiled tz (dropExpiredAuditLogPartitions tz now fails orgs s) :=
  ⟨hs.asked, fun p hp => hs.issued p (List.mem_filter.mp hp).1⟩

/-- **One event.** -/
theorem Tiled.next {e : Event} (hs : Tiled tz s) (h : step tz db s e = some s') : Tiled tz s' := by
  cases e with
  | chatMigration now refused =>
    obtain rfl := Option.some.inj h
    exact hs.migrate _ _ _
  | auditMigration now refused =>
    obtain rfl := Option.some.inj h
    exact hs.migrate _ _ _
  | cleanup now orgs fails =>
    obtain rfl := Option.some.inj h
    exact ((hs.ensurePartitions 1).ensurePartitions 2).drop orgs

theorem tiled_of_run (h : Run (step tz db) anyStep .empty s) : Tiled tz s :=
  h.invariant Tiled.empty fun _ _ _ hs _ hstep => hs.next hstep

/-- **The partitions tile the time line.**  Whatever the zones of the server and of PostgreSQL,
whenever the migrations and the cleanup job run and whatever statements fail: of all partitions
asked for, those of one table are disjoint, a month ends where the next one begins, and a label
stands for one range. -/
theorem partitions_tile (h : Run (step tz db) anyStep .empty s) :
    (∀ p ∈ s.tables, p ∈ s.issued)
      ∧ (∀ p ∈ s.issued, (p.range db).Nonempty)
      ∧ ∀ p ∈ s.issued, ∀ q ∈ s.issued,
        (p.parent = q.parent → p ≠ q → Disjoint (p.range db) (q.range db))
        ∧ (q.label = p.label.next → p.stop = q.start)
        ∧ (p.label = q.label → p.start = q.start ∧ p.stop = q.stop) := by
  have hs := tiled_of_run h
  refine ⟨hs.issued, fun p hp => ?_, fun p hp q hq => ?_⟩
  · obtain ⟨parent, M, rfl⟩ := hs.asked p hp
    exact Set.nonempty_Ico.mpr (midnight_monthDate_lt (Int.lt_succ M))
  · obtain ⟨parent, M, rfl⟩ := hs.asked p hp
    obtain ⟨parent', N, rfl⟩ := hs.asked q hq
    refine ⟨fun hparent hne => ?_, fun hlabel => ?_, fun hlabel => ?_⟩
    · refine disjoint_ofMonth ?_
      rintro rfl
      cases hparent
      exact hne rfl
    · obtain rfl : N = M + 1 := ofMonth_injective (hlabel.trans (next_ofMonth M))
      rfl
    · obtain rfl : M = N := ofMonth_injective hlabel
      exact ⟨rfl, rfl⟩

end Steps

/-- UTC+05:30. -/
def demoZone : TimeZone := .fixed 19800000 (by decide) (by decide)

def noFailures : Failures := ⟨fun _ => false, fun _ => false, false, fun _ => false⟩

/-- The migrations on 20 December 2024, and two runs, in November and December 2025. -/
def demoEvents : List Event :=
  [.chatMigration 1734688800000 fun _ => false, .auditMigration 1734688800000 fun _ => false,
    .cleanup 1763546400000 [] noFailures, .cleanup 1766138400000 [] noFailures]

/-- The runs extend the partitions over the end of the year; the second one finds January's there
already. -/
theorem tile_december : ∃ s, Run (step demoZone .universal) anyStep .empty s
    ∧ (⟨2025, 12⟩ ∈ s.tables.map (·.label) ∧ ⟨2026, 2⟩ ∈ s.tables.map (·.label))
    ∧ (∀ p ∈ s.tables, p ∈ s.issued)
    ∧ (∀ p ∈ s.issued, (p.range .universal).Nonempty)
    ∧ ∀ p ∈ s.issued, ∀ q ∈ s.issued,
      (p.parent = q.parent → p ≠ q → Disjoint (p.range .universal) (q.range .universal))
      ∧ (q.label = p.label.next → p.stop = q.start)
      ∧ (p.label = q.label → p.start = q.start ∧ p.stop = q.stop) := by
  obtain ⟨s, hrun, hs⟩ := exists_run_of_exec (step demoZone .universal) anyStep .empty demoEvents
    (fun s => ⟨2025, 12⟩ ∈ s.tables.map (·.label) ∧ ⟨2026, 2⟩ ∈ s.tables.map (·.label)) (by decide)
  exact ⟨s, hrun, of_decide_eq_true hs, partitions_tile hrun⟩

end WorkPlatform.Cleanup

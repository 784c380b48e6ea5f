import WorkPlatform.Cleanup.Partitions

/-!
# Cleanup/Retention — which audit rows `dropExpiredAuditLogPartitions` takes away

    n        MIN(retention_audit_days) of the active and suspended organisations, 90 without any
    cutoff   setDate(getDate() - n)
    drops    the months before the cutoff's, whole, of all organisations

One cutoff serves every organisation, the one of the shortest retention.  A dropped partition holds
nothing from the cutoff's date on (`dropped_before_cutoff`); an organisation with a longer
retention, and one that is offboarding, lose rows before their time (`longer_retention_lost`).
-/

namespace WorkPlatform.Cleanup

open Machinery Machinery.Calendar
open Date (getFullYear getMonth)

/-- A row of `audit_logs`, by what decides where it is and how long it is kept. -/
structure AuditRow where
  orgId : String
  occurredAt : ℤ
  deriving DecidableEq

section Drop

variable {tz db : TimeZone} {s : State} {now : ℤ} {orgs : List OrgSettings} {fails : Failures}
  {p : Partition} {l : Label}

/-- A label that is dropped is that of a month before the cutoff's. -/
theorem month_of_expired (hyear : ¬ (0 ≤ getFullYear tz (cutoffDate tz now orgs)
      ∧ getFullYear tz (cutoffDate tz now orgs) ≤ 99)) (h : l ∈ expiredLabels tz now orgs) :
    ∃ N, N < monthOf (tz.date (cutoffDate tz now orgs)) ∧ l = .ofMonth N := by
  obtain ⟨i, -, rfl⟩ := List.mem_map.mp h
  refine ⟨_, ?_, by rw [Date.new_first, labelOf_monthStart]⟩
  rw [Date.makeFullYear, if_neg hyear]
  unfold getFullYear getMonth
  omega

/-- **Which partitions go**: those of audit logs whose label is dropped. -/
theorem expired_of_dropped (hp : p ∈ s.tables)
    (h : p ∉ (dropExpiredAuditLogPartitions tz now fails orgs s).tables) :
    p.label ∈ expiredLabels tz now orgs := by
  have hlabel : p.parent = .auditLogs ∧ p.label ∈ droppedLabels tz now fails orgs := by
    by_contra hkept
    exact h (List.mem_filter.mpr ⟨hp, decide_eq_true hkept⟩)
  have hdropped := hlabel.2
  unfold droppedLabels at hdropped
  split at hdropped
  · cases hdropped
  · exact List.takeWhile_subset _ hdropped

/-- **What is dropped is older than the cutoff.**  A partition that a run of the cleanup job drops
holds only rows from before the date of the cutoff: the date so many days ago as the shortest
retention says, or the day after where that local time is skipped. -/
theorem dropped_before_cutoff (h : Run (step tz db) anyStep .empty s)
    (hyear : ¬ (0 ≤ getFullYear tz (cutoffDate tz now orgs)
      ∧ getFullYear tz (cutoffDate tz now orgs) ≤ 99))
    (hp : p ∈ s.tables) (hdropped : p ∉ (dropExpiredAuditLogPartitions tz now fails orgs s).tables)
    (rows : List AuditRow) :
    (tz.date (cutoffDate tz now orgs) = tz.date now - (minRetention orgs).getD 90
        ∨ tz.date (cutoffDate tz now orgs) = tz.date now - (minRetention orgs).getD 90 + 1)
      ∧ ∀ row ∈ rows, row.occurredAt ∈ p.range db →
        row.occurredAt < db.midnight (tz.date (cutoffDate tz now orgs)) := by
  refine ⟨Date.date_setDate now _, fun row _ hrow => ?_⟩
  obtain ⟨N, hN, hlabel⟩ := month_of_expired hyear (expired_of_dropped hp hdropped)
  have hs := tiled_of_run h
  obtain ⟨parent, M, rfl⟩ := hs.asked p (hs.issued p hp)
  obtain rfl : M = N := ofMonth_injective hlabel
  have hdate : tz.monthDate (M + 1) ≤ tz.date (cutoffDate tz now orgs) :=
    calc tz.monthDate (M + 1)
        ≤ tz.monthDate (monthOf (tz.date (cutoffDate tz now orgs))) :=
          TimeZone.monthDate_strictMono.monotone hN
      _ ≤ firstDay (monthOf (tz.date (cutoffDate tz now orgs))) := (TimeZone.monthDate_mem _).2
      _ ≤ tz.date (cutoffDate tz now orgs) := (firstDay_monthOf _).1
  exact hrow.2.trans_le (TimeZone.midnight_mono hdate)

end Drop

/-- What is asked for: no partition is dropped that holds a row younger than the retention of its
own organisation. -/
def KeepsOwn (tz db : TimeZone) (now : ℤ) (orgs : List OrgSettings) (fails : Failures)
    (rows : List AuditRow) (s : State) : Prop :=
  ∀ p ∈ s.tables, p ∉ (dropExpiredAuditLogPartitions tz now fails orgs s).tables →
    ∀ row ∈ rows, row.occurredAt ∈ p.range db → ∀ org ∈ orgs, org.id = row.orgId →
      org.retentionAuditDays * dayLength ≤ now - row.occurredAt

instance (db : TimeZone) (p : Partition) (t : ℤ) : Decidable (t ∈ p.range db) :=
  inferInstanceAs (Decidable (_ ∧ _))

instance (tz db : TimeZone) (now : ℤ) (orgs : List OrgSettings) (fails : Failures)
    (rows : List AuditRow) (s : State) : Decidable (KeepsOwn tz db now orgs fails rows s) :=
  inferInstanceAs (Decidable (∀ p ∈ s.tables, _ → ∀ row ∈ rows, _ → ∀ org ∈ orgs, _ → _))

/-- One organisation keeps its audit rows for a year, the other for two. -/
def demoOrgs : List OrgSettings := [⟨"a", .active, 365⟩, ⟨"b", .active, 730⟩]

/-- A row of the second one, of 10 May 2024. -/
def demoRow : AuditRow := ⟨"b", 1715300000000⟩

/-- The partition of the row goes. -/
theorem demo_dropped : ∃ s, Run (step .universal .universal) anyStep .empty s
    ∧ ∃ p ∈ s.tables,
      p ∉ (dropExpiredAuditLogPartitions .universal 1750420000000 noFailures demoOrgs s).tables
        ∧ demoRow.occurredAt ∈ p.range .universal := by
  obtain ⟨s, hrun, hs⟩ := exists_run_of_exec (step .universal .universal) anyStep .empty
    [.auditMigration 1704880000000 fun _ => false]
    (fun s => s.tables.any fun p =>
      p ∉ (dropExpiredAuditLogPartitions .universal 1750420000000 noFailures demoOrgs s).tables
        ∧ demoRow.occurredAt ∈ p.range .universal) (by decide +kernel)
  obtain ⟨p, hp, hdropped⟩ := List.any_eq_true.mp hs
  exact ⟨s, hrun, p, hp, of_decide_eq_true hdropped⟩

/-- On 20 June 2025 the row, thirteen months old, goes with its partition. -/
theorem longer_retention_lost : ∃ s, Run (step .universal .universal) anyStep .empty s
    ∧ ¬ KeepsOwn .universal .universal 1750420000000 demoOrgs noFailures [demoRow] s := by
  obtain ⟨s, hrun, p, hp, hdropped, hrow⟩ := demo_dropped
  refine ⟨s, hrun, fun h => ?_⟩
  have hage := h p hp hdropped demoRow List.mem_cons_self hrow ⟨"b", .active, 730⟩
    (List.mem_cons_of_mem _ List.mem_cons_self) rfl
  exact absurd hage (by decide)

/-- The row is older than the other retention says. -/
theorem may_2024_before_cutoff : ∃ s, Run (step .universal .universal) anyStep .empty s
    ∧ ∃ p ∈ s.tables,
      p ∉ (dropExpiredAuditLogPartitions .universal 1750420000000 noFailures demoOrgs s).tables
        ∧ (TimeZone.universal.date (cutoffDate .universal 1750420000000 demoOrgs)
            = TimeZone.universal.date 1750420000000 - (minRetention demoOrgs).getD 90
          ∨ TimeZone.universal.date (cutoffDate .universal 1750420000000 demoOrgs)
            = TimeZone.universal.date 1750420000000 - (minRetention demoOrgs).getD 90 + 1)
        ∧ ∀ row ∈ [demoRow], row.occurredAt ∈ p.range .universal → row.occurredAt
          < TimeZone.universal.midnight
            (TimeZone.universal.date (cutoffDate .universal 1750420000000 demoOrgs)) := by
  obtain ⟨s, hrun, p, hp, hdropped, -⟩ := demo_dropped
  exact ⟨s, hrun, p, hp, hdropped, dropped_before_cutoff hrun (by decide) hp hdropped [demoRow]⟩

end WorkPlatform.Cleanup

import Mathlib.Logic.Function.Basic
import WorkPlatform.Machinery.Table
import WorkPlatform.Shared.AppError

/-!
# File/Store — files and the storage they take

    files           one row a file: status, scan_status, deleted_at
    organizations   storage_used_bytes, storage_quota_bytes
    outbox_events   file.quarantined

The four UPDATEs of `files` are the four `FileWrite`s; none of them looks at the row it writes.
Which write reached which file is kept on record.
-/

namespace WorkPlatform.File

open Machinery

/-! ## Rows -/

inductive FileStatus
  | pending | confirmed | quarantined | deleted
  deriving DecidableEq, Repr

inductive ScanStatus
  | pending | clean | infected
  deriving DecidableEq, Repr

/-- A row of `files`; times are in milliseconds. -/
structure FileRow where
  id : String
  orgId : String
  uploaderId : String
  filename : String
  storageKey : String
  mimeType : String
  sizeBytes : ℤ
  status : FileStatus
  scanStatus : ScanStatus
  scanCompletedAt : Option ℕ
  createdAt : ℕ
  deletedAt : Option ℕ
  deriving DecidableEq

/-- A row of `organizations`: of its columns, those that no other service reads. -/
structure OrgRow where
  storageUsedBytes : ℤ
  storageQuotaBytes : ℤ
  deriving DecidableEq

def OrgRow.plus (org : OrgRow) (delta : ℤ) : OrgRow :=
  { org with storageUsedBytes := org.storageUsedBytes + delta }

/-- Why a file was quarantined. -/
inductive Finding
  | mimeMismatch (declared : String) (detected : Option String)
  | infected (viruses : List String)
  deriving DecidableEq

/-- The event `file.quarantined`. -/
structure QuarantineEvent where
  orgId : String
  fileId : String
  storageKey : String
  finding : Finding
  deriving DecidableEq

/-! ## Writes to a file -/

/-- `markClean` is what the scan job does where scanning is disabled, `confirmClean` what it does to
a file it has scanned. -/
inductive FileWrite
  | markClean | confirmClean | quarantine | softDelete
  deriving DecidableEq, Repr

/-- What an UPDATE sets, for one row. -/
def FileWrite.row (now : ℕ) : FileWrite → FileRow → FileRow
  | .markClean, r => { r with scanStatus := .clean, scanCompletedAt := some now }
  | .confirmClean, r =>
    { r with scanStatus := .clean, scanCompletedAt := some now, status := .confirmed }
  | .quarantine, r =>
    { r with scanStatus := .infected, scanCompletedAt := some now, status := .quarantined }
  | .softDelete, r => { r with deletedAt := some now, status := .deleted }

namespace FileWrite

variable {now : ℕ} {w : FileWrite} {r : FileRow}

@[simp] theorem row_id (now : ℕ) (w : FileWrite) (r : FileRow) : (w.row now r).id = r.id := by
  cases w <;> rfl

@[simp] theorem row_orgId : (w.row now r).orgId = r.orgId := by cases w <;> rfl

@[simp] theorem row_mimeType : (w.row now r).mimeType = r.mimeType := by cases w <;> rfl

@[simp] theorem row_sizeBytes : (w.row now r).sizeBytes = r.sizeBytes := by cases w <;> rfl

end FileWrite

/-! ## The store -/

/-- The tables, the events that were sent, and on record the UPDATEs that were run. -/
structure Store where
  now : ℕ
  orgs : String → Option OrgRow
  files : Table FileRow.id
  outbox : List QuarantineEvent
  record : List (FileWrite × String)

namespace Store

/-- `UPDATE files SET … WHERE id = $1`; it goes on record where there is such a file. -/
def write (s : Store) (w : FileWrite) (fileId : String) : Store :=
  { s with
    files := s.files.update fileId (w.row s.now) (w.row_id s.now)
    record := if (s.files.find fileId).isSome then (w, fileId) :: s.record else s.record }

/-- `findStalePending`: pending files older than an hour. -/
def findStalePending (s : Store) : List FileRow :=
  s.files.rows.filter fun r =>
    r.status = .pending ∧ r.deletedAt = none ∧ r.createdAt + 60 * 60 * 1000 < s.now

/-- `findById`. -/
def findById (s : Store) (fileId orgId : String) : Option FileRow :=
  (s.files.find fileId).filter fun r => r.orgId = orgId ∧ r.deletedAt = none

def setOrg (s : Store) (orgId : String) (org : OrgRow) : Store :=
  { s with orgs := Function.update s.orgs orgId (some org) }

/-- `UPDATE organizations SET storage_used_bytes = storage_used_bytes + $1
WHERE id = $2 AND storage_used_bytes + $1 <= storage_quota_bytes`; `none` where no row matches. -/
def addStorageUsed (s : Store) (orgId : String) (delta : ℤ) : Option Store :=
  match s.orgs orgId with
  | none => none
  | some org =>
    if org.storageUsedBytes + delta ≤ org.storageQuotaBytes then
      some (s.setOrg orgId (org.plus delta))
    else none

/-- The INSERT of a file; `none` where its id is taken. -/
def insertFile (s : Store) (r : FileRow) : Option Store :=
  (s.files.insert r).map fun files => { s with files := files }

/-- `UPDATE organizations SET storage_used_bytes = GREATEST(0, storage_used_bytes - $1)
WHERE id = $2`. -/
def reclaim (s : Store) (orgId : String) (size : ℤ) : Store :=
  let row := (s.orgs orgId).map fun org =>
    { org with storageUsedBytes := max 0 (org.storageUsedBytes - size) }
  { s with orgs := Function.update s.orgs orgId row }

def writeOutboxEvent (s : Store) (e : QuarantineEvent) : Store := { s with outbox := e :: s.outbox }

variable {s : Store} {w : FileWrite} {fileId : String}

theorem find_write (s : Store) (w : FileWrite) (fileId f : String) : (s.write w fileId).files.find f
    = if f = fileId then (s.files.find f).map (w.row s.now) else s.files.find f :=
  Table.find_update (w.row_id s.now) f

/-- The UPDATE of the usage goes through only within the quota. -/
theorem addStorageUsed_eq_some {s' : Store} {orgId : String} {delta : ℤ}
    (h : s.addStorageUsed orgId delta = some s') :
    ∃ org, s.orgs orgId = some org ∧ org.storageUsedBytes + delta ≤ org.storageQuotaBytes
      ∧ s' = s.setOrg orgId (org.plus delta) := by
  unfold addStorageUsed at h
  split at h
  · cases h
  · split at h
    · exact ⟨_, ‹_›, ‹_›, (Option.some.inj h).symm⟩
    · cases h

end Store

end WorkPlatform.File

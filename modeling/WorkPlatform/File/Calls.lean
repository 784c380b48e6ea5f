import WorkPlatform.Machinery.Run
import WorkPlatform.File.Store

/-!
# File/Calls — uploads, scans, cleanups and downloads

    requestUploadUrl       generate ▸ reserve                    (UPDATE and INSERT, one transaction)
    virusScanWorkerJob     start ▸ select ▸ confirm
                                          ▸ quarantine ▸ (selectSize) ▸ reclaim ▸ outbox
    fileCleanupWorkerJob   select ▸ (reclaim ▸ softDelete) for each stale file
    updateStorageUsed      update

A move of a call is one statement and the code after it, up to the next statement; what the
storage provider, the detector and the scanner say belongs to the statement before.  The UPDATE of
`reserve` locks the organisation until its transaction commits, so the transaction is one move.
Jobs run at any time, any number of times and for any file, so no queue is kept; a retry is one
more call.
-/

namespace WorkPlatform.File

open Machinery

/-- The storage provider, the magic-byte detector and the virus scanner; what the last two say of a
stored file they always say of it. -/
structure Config where
  generateUploadUrl : String → String → ℤ → Option String
  generateDownloadUrl : String → String
  fileType : String → Option String
  viruses : String → Option (List String)

/-! ## `requestUploadUrl` -/

def docx : String := "application/vnd.openxmlformats-officedocument.wordprocessingml.document"

def mimeAllowlist : List String :=
  ["image/jpeg", "image/png", "image/gif", "image/webp", "application/pdf", "text/plain",
    "application/zip", docx]

/-- `PLAN_MAX_FILE_BYTES`. -/
def planMaxFileBytes : String → Option ℤ
  | "free" => some (10 * 1024 * 1024)
  | "pro" => some (100 * 1024 * 1024)
  | "business" => some (500 * 1024 * 1024)
  | "enterprise" => some (2 * 1024 * 1024 * 1024)
  | _ => none

def defaultMaxFileBytes : ℤ := 10 * 1024 * 1024

/-- `PLAN_MAX_FILE_BYTES[planTier] ?? DEFAULT_MAX_FILE_BYTES`. -/
def maxBytes (planTier : String) : ℤ := (planMaxFileBytes planTier).getD defaultMaxFileBytes

/-- The arguments of `requestUploadUrl`. -/
structure UploadArgs where
  orgId : String
  uploaderId : String
  filename : String
  mimeType : String
  sizeBytes : ℤ
  planTier : String
  deriving DecidableEq

/-- `failed` is an error of the provider or of the INSERT. -/
inductive UploadPc
  | generate
  | reserve (storageKey url : String)
  | returned (fileId url : String)
  | threw (e : AppError)
  | failed
  deriving DecidableEq

def invalidMimeType (mimeType : String) : AppError :=
  .unprocessable "INVALID_MIME_TYPE" ("MIME type '" ++ mimeType ++ "' is not allowed")

def fileTooLarge (maxBytes : ℤ) (planTier : String) : AppError :=
  .unprocessable "FILE_TOO_LARGE"
    ("File size exceeds " ++ toString maxBytes ++ " bytes for plan '" ++ planTier ++ "'")

def quotaExceeded : AppError :=
  .forbidden "PLAN_STORAGE_QUOTA_EXCEEDED" "Storage quota exceeded for this organization"

/-- The row the INSERT of an upload makes. -/
def UploadArgs.fileRow (a : UploadArgs) (now : ℕ) (fileId storageKey : String) : FileRow where
  id := fileId
  orgId := a.orgId
  uploaderId := a.uploaderId
  filename := a.filename
  storageKey := storageKey
  mimeType := a.mimeType
  sizeBytes := a.sizeBytes
  status := .pending
  scanStatus := .pending
  scanCompletedAt := none
  createdAt := now
  deletedAt := none

/-- `uuid` is the storage key, and later the id of the row.  Where the INSERT fails, the UPDATE is
rolled back. -/
def uploadNext (cfg : Config) (s : Store) (a : UploadArgs) (uuid : String) :
    UploadPc → Option (Store × UploadPc)
  | .generate => some (s,
      if a.mimeType ∉ mimeAllowlist then .threw (invalidMimeType a.mimeType)
      else if a.sizeBytes > maxBytes a.planTier then
        .threw (fileTooLarge (maxBytes a.planTier) a.planTier)
      else
        match cfg.generateUploadUrl uuid a.mimeType a.sizeBytes with
        | none => .failed
        | some url => .reserve uuid url)
  | .reserve storageKey url =>
    match s.addStorageUsed a.orgId a.sizeBytes with
    | none => some (s, .threw quotaExceeded)
    | some s₁ =>
      match s₁.insertFile (a.fileRow s.now uuid storageKey) with
      | none => some (s, .failed)
      | some s₂ => some (s₂, .returned uuid url)
  | .returned _ _ | .threw _ | .failed => none

/-! ## `virusScanWorkerJob` -/

/-- `MIME_MAGIC_MAP`. -/
def mimeMagicMap : List (String × List String) :=
  [("image/jpeg", ["image/jpeg"]), ("image/png", ["image/png"]), ("image/gif", ["image/gif"]),
    ("image/webp", ["image/webp"]), ("application/pdf", ["application/pdf"]),
    ("application/zip", ["application/zip"]), (docx, [docx, "application/zip"])]

/-- The data of a job of `virusScan`. -/
structure ScanJob where
  fileId : String
  storageKey : String
  storageUrl : Option String
  orgId : String
  deriving DecidableEq

/-- `size` is what the call has read. -/
inductive ScanPc
  | start
  | select
  | quarantine (finding : Finding) (size : Option ℤ)
  | selectSize (finding : Finding)
  | reclaim (finding : Finding) (size : ℤ)
  | outbox (finding : Finding)
  | confirm
  | returned
  deriving DecidableEq

/-- The declared type has magic bytes, and the file does not have them. -/
def Config.mismatch (cfg : Config) (fileId mimeType : String) : Bool :=
  match mimeMagicMap.lookup mimeType with
  | none => false
  | some allowedActual => ¬ (cfg.fileType fileId).any fun detected => detected ∈ allowedActual

/-- What the detector and the scanner make of a file, given the row that was read. -/
def Config.verdict (cfg : Config) (fileId : String) (row : Option FileRow) : ScanPc :=
  match row.filter fun r => cfg.mismatch fileId r.mimeType with
  | some r => .quarantine (.mimeMismatch r.mimeType (cfg.fileType fileId)) (some r.sizeBytes)
  | none =>
    match cfg.viruses fileId with
    | some viruses => .quarantine (.infected viruses) none
    | none => .confirm

/-- `enabled` is `config.virusScanEnabled`. -/
def scanNext (cfg : Config) (s : Store) (enabled : Bool) (job : ScanJob) :
    ScanPc → Option (Store × ScanPc)
  | .start =>
    if enabled then some (s, if job.storageUrl.getD "" = "" then .returned else .select)
    else some (s.write .markClean job.fileId, .returned)
  | .select => some (s, cfg.verdict job.fileId (s.files.find job.fileId))
  | .quarantine finding size => some (s.write .quarantine job.fileId,
      match size with
      | some size => .reclaim finding size
      | none => .selectSize finding)
  | .selectSize finding => some (s,
      match s.files.find job.fileId with
      | some r => .reclaim finding r.sizeBytes
      | none => .outbox finding)
  | .reclaim finding size => some (s.reclaim job.orgId size, .outbox finding)
  | .outbox finding =>
    some (s.writeOutboxEvent ⟨job.orgId, job.fileId, job.storageKey, finding⟩, .returned)
  | .confirm => some (s.write .confirmClean job.fileId, .returned)
  | .returned => none

/-! ## `fileCleanupWorkerJob` -/

/-- `file` and `rest` are what is left of the files the call has found. -/
inductive CleanupPc
  | select
  | reclaim (file : FileRow) (rest : List FileRow)
  | softDelete (file : FileRow) (rest : List FileRow)
  | returned
  deriving DecidableEq

/-- The head of the loop. -/
def CleanupPc.loop : List FileRow → CleanupPc
  | [] => .returned
  | file :: rest => .reclaim file rest

/-- The next statement of the clean-up of stale files. -/
def cleanupNext (s : Store) : CleanupPc → Option (Store × CleanupPc)
  | .select => some (s, .loop s.findStalePending)
  | .reclaim file rest => some (s.reclaim file.orgId file.sizeBytes, .softDelete file rest)
  | .softDelete file rest => some (s.write .softDelete file.id, .loop rest)
  | .returned => none

/-! ## `updateStorageUsed` -/

/-- `updated` says whether a row came back. -/
inductive StoragePc
  | update
  | returned (updated : Bool)
  deriving DecidableEq

/-- The next statement of `updateStorageUsed`. -/
def storageNext (s : Store) (orgId : String) (delta : ℤ) : StoragePc → Option (Store × StoragePc)
  | .update =>
    match s.addStorageUsed orgId delta with
    | none => some (s, .returned false)
    | some s' => some (s', .returned true)
  | .returned _ => none

/-! ## `generateDownloadUrl` -/

/-- What `generateDownloadUrl` answers with. -/
inductive DownloadUrlResult
  | url (url : String)
  | scanPending
  deriving DecidableEq

/-- `generateDownloadUrl`. -/
def generateDownloadUrl (cfg : Config) (s : Store) (orgId fileId : String) :
    Except AppError DownloadUrlResult :=
  match s.findById fileId orgId with
  | none => .error (.notFound "File")
  | some file =>
    if file.status = .quarantined then
      .error (.unprocessable "FILE_QUARANTINED"
        "This file has been quarantined due to a virus scan failure")
    else if file.scanStatus = .pending then .ok .scanPending
    else .ok (.url (cfg.generateDownloadUrl file.storageKey))

/-! ## The machine -/

/-- A call, and where it is. -/
inductive Call
  | requestUploadUrl (args : UploadArgs) (pc : UploadPc)
  | virusScan (enabled : Bool) (job : ScanJob) (pc : ScanPc)
  | fileCleanup (pc : CleanupPc)
  | updateStorageUsed (orgId : String) (delta : ℤ) (pc : StoragePc)
  deriving DecidableEq

/-- The call has not run a statement yet; the router has checked the size, and no `delta` is
negative. -/
def Call.fresh : Call → Bool
  | .requestUploadUrl args .generate => 0 < args.sizeBytes
  | .updateStorageUsed _ delta .update => 0 ≤ delta
  | .virusScan _ _ .start | .fileCleanup .select => true
  | _ => false

/-- What happens around the calls: time. -/
inductive Env
  | tick (ms : ℕ)

def env (s : Store) : Env → Store
  | .tick ms => { s with now := s.now + ms }

/-- The next statement of a call. -/
def next (cfg : Config) (s : Store) (uuid : String) : Call → Option (Store × Call)
  | .requestUploadUrl args pc =>
    (uploadNext cfg s args uuid pc).map fun x => (x.1, .requestUploadUrl args x.2)
  | .virusScan enabled job pc =>
    (scanNext cfg s enabled job pc).map fun x => (x.1, .virusScan enabled job x.2)
  | .fileCleanup pc => (cleanupNext s pc).map fun x => (x.1, .fileCleanup x.2)
  | .updateStorageUsed orgId delta pc =>
    (storageNext s orgId delta pc).map fun x => (x.1, .updateStorageUsed orgId delta x.2)

/-- A call draws the UUID it may need. -/
def fileMachine (cfg : Config) : Machine Store Call String Env :=
  ⟨fun s c uuid => next cfg s uuid c, env⟩

/-- Calls over the store. -/
abbrev Calls (ι : Type*) := Pool ι Store Call

/-! ## What a statement does -/

/-- The write to a file the next statement of a call is. -/
def Call.write : Call → Option (FileWrite × String)
  | .virusScan enabled job .start => if enabled then none else some (.markClean, job.fileId)
  | .virusScan _ job .confirm => some (.confirmClean, job.fileId)
  | .virusScan _ job (.quarantine _ _) => some (.quarantine, job.fileId)
  | .fileCleanup (.softDelete file _) => some (.softDelete, file.id)
  | _ => none

/-- The organisation and the size of the reclaim the next statement of a call is. -/
def Call.reclaims : Call → Option (String × ℤ)
  | .virusScan _ job (.reclaim _ size) => some (job.orgId, size)
  | .fileCleanup (.reclaim file _) => some (file.orgId, file.sizeBytes)
  | _ => none

/-- A statement writes a file, reclaims storage, makes an upload, adds to the storage, or leaves
files and storage as they are. -/
inductive Stepped (s s' : Store) (uuid : String) (c : Call) : Prop
  | write {w : FileWrite} {fileId : String} (hc : c.write = some (w, fileId))
      (h : s' = s.write w fileId)
  | reclaim {orgId : String} {size : ℤ} (hc : c.reclaims = some (orgId, size))
      (h : s' = s.reclaim orgId size)
  | upload {args : UploadArgs} {storageKey url : String} {org : OrgRow}
      (hc : c = .requestUploadUrl args (.reserve storageKey url))
      (horg : s.orgs args.orgId = some org)
      (hfits : org.storageUsedBytes + args.sizeBytes ≤ org.storageQuotaBytes)
      (horgs : s'.orgs = (s.setOrg args.orgId (org.plus args.sizeBytes)).orgs)
      (hfiles : s.files.insert (args.fileRow s.now uuid storageKey) = some s'.files)
      (hrecord : s'.record = s.record) (hnow : s'.now = s.now)
  | add {orgId : String} {delta : ℤ} {org : OrgRow}
      (hc : c = .updateStorageUsed orgId delta .update) (horg : s.orgs orgId = some org)
      (hfits : org.storageUsedBytes + delta ≤ org.storageQuotaBytes)
      (h : s' = s.setOrg orgId (org.plus delta))
  | none (hw : c.write = .none) (hr : c.reclaims = .none) (horgs : s'.orgs = s.orgs)
      (hfiles : s'.files = s.files) (hrecord : s'.record = s.record) (hnow : s'.now = s.now)

section Steps

variable {cfg : Config} {s s' : Store} {c c' : Call} {uuid : String}

/-- What each statement of `requestUploadUrl` does. -/
theorem stepped_upload {args : UploadArgs} {pc pc' : UploadPc}
    (h : uploadNext cfg s args uuid pc = some (s', pc')) :
    Stepped s s' uuid (.requestUploadUrl args pc) := by
  cases pc with
  | generate =>
    obtain ⟨rfl, -⟩ := Prod.mk.inj (Option.some.inj h)
    exact .none rfl rfl rfl rfl rfl rfl
  | reserve storageKey url =>
    rw [uploadNext] at h
    split at h
    · obtain ⟨rfl, -⟩ := Prod.mk.inj (Option.some.inj h)
      exact .none rfl rfl rfl rfl rfl rfl
    · rename_i hadd
      obtain ⟨org, horg, hfits, rfl⟩ := Store.addStorageUsed_eq_some hadd
      split at h
      · obtain ⟨rfl, -⟩ := Prod.mk.inj (Option.some.inj h)
        exact .none rfl rfl rfl rfl rfl rfl
      · rename_i s₂ hinsert
        obtain ⟨rfl, -⟩ := Prod.mk.inj (Option.some.inj h)
        obtain ⟨files, hfiles, rfl⟩ := Option.map_eq_some_iff.mp hinsert
        exact .upload rfl horg hfits rfl hfiles rfl rfl
  | returned _ _ | threw _ | failed => cases h

/-- What each statement of the scan does. -/
theorem stepped_scan {enabled : Bool} {job : ScanJob} {pc pc' : ScanPc}
    (h : scanNext cfg s enabled job pc = some (s', pc')) :
    Stepped s s' uuid (.virusScan enabled job pc) := by
  cases pc with
  | start =>
    rw [scanNext] at h
    cases enabled with
    | false =>
      obtain ⟨rfl, -⟩ := Prod.mk.inj (Option.some.inj h)
      exact .write rfl rfl
    | true =>
      obtain ⟨rfl, -⟩ := Prod.mk.inj (Option.some.inj h)
      exact .none rfl rfl rfl rfl rfl rfl
  | quarantine finding size | confirm =>
    obtain ⟨rfl, -⟩ := Prod.mk.inj (Option.some.inj h)
    exact .write rfl rfl
  | reclaim finding size =>
    obtain ⟨rfl, -⟩ := Prod.mk.inj (Option.some.inj h)
    exact .reclaim rfl rfl
  | returned => cases h
  | _ =>
    obtain ⟨rfl, -⟩ := Prod.mk.inj (Option.some.inj h)
    exact .none rfl rfl rfl rfl rfl rfl

/-- **One statement, seen from the tables.** -/
theorem stepped_next (h : next cfg s uuid c = some (s', c')) : Stepped s s' uuid c := by
  cases c with
  | requestUploadUrl args pc =>
    obtain ⟨pc', hpc, -⟩ := pc_of_next h
    exact stepped_upload hpc
  | virusScan enabled job pc =>
    obtain ⟨pc', hpc, -⟩ := pc_of_next h
    exact stepped_scan hpc
  | fileCleanup pc =>
    obtain ⟨pc', hpc, -⟩ := pc_of_next h
    cases pc with
    | select =>
      obtain ⟨rfl, -⟩ := Prod.mk.inj (Option.some.inj hpc)
      exact .none rfl rfl rfl rfl rfl rfl
    | reclaim file rest =>
      obtain ⟨rfl, -⟩ := Prod.mk.inj (Option.some.inj hpc)
      exact .reclaim rfl rfl
    | softDelete file rest =>
      obtain ⟨rfl, -⟩ := Prod.mk.inj (Option.some.inj hpc)
      exact .write rfl rfl
    | returned => cases hpc
  | updateStorageUsed orgId delta pc =>
    obtain ⟨pc', hpc, -⟩ := pc_of_next h
    cases pc with
    | update =>
      rw [storageNext] at hpc
      split at hpc
      · obtain ⟨rfl, -⟩ := Prod.mk.inj (Option.some.inj hpc)
        exact .none rfl rfl rfl rfl rfl rfl
      · rename_i s₁ hadd
        obtain ⟨rfl, -⟩ := Prod.mk.inj (Option.some.inj hpc)
        obtain ⟨org, horg, hfits, hs⟩ := Store.addStorageUsed_eq_some hadd
        exact .add rfl horg hfits hs
    | returned _ => cases hpc

end Steps

end WorkPlatform.File

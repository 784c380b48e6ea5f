import WorkPlatform.File.Quota

/-!
# File/Download — only files that were found clean are handed out

    generateDownloadUrl   deleted_at IS NULL, status ≠ quarantined, scan_status ≠ pending

The scan job writes its verdict whatever the file has become since, and the cleanup deletes
whatever it has listed.  Three things hold all the same: a deletion sets `deleted_at`, which nothing
clears; a quarantine sets the status, and only a deletion or a clean verdict sets it again; and as
the detector and the scanner do not change their minds, a file that was quarantined gets no clean
verdict later.  So a file that is handed out was marked clean, and was never quarantined or deleted
(`downloadable_cleared`).

The id of a file is drawn when it is uploaded; no job for it begins before (`FreshIds`).
-/

namespace WorkPlatform.File

open Machinery

/-! ## Verdicts -/

/-- The detector or the scanner objects to the file. -/
def Config.bad (cfg : Config) (r : FileRow) : Bool :=
  cfg.mismatch r.id r.mimeType || (cfg.viruses r.id).isSome

theorem bad_of_fixed {cfg : Config} {r r' : FileRow} (h : r'.fixed = r.fixed) :
    cfg.bad r' = cfg.bad r := by
  have hid : r'.id = r.id := congrArg (·.1) h
  have hmime : r'.mimeType = r.mimeType := congrArg (·.2.2.1) h
  rw [Config.bad, Config.bad, hid, hmime]

/-- The writes that mark a file clean. -/
def FileWrite.clears : FileWrite → Bool
  | .markClean | .confirmClean => true
  | .quarantine | .softDelete => false

/-- What is on record of a file stands in its row. -/
structure Vouched (cfg : Config) (record : List (FileWrite × String)) (r : FileRow) : Prop where
  clean : r.scanStatus = .clean → ∃ w, w.clears = true ∧ (w, r.id) ∈ record
  infected : r.scanStatus = .infected → (.quarantine, r.id) ∈ record
  quarantined : (.quarantine, r.id) ∈ record →
    cfg.bad r = true ∧ (r.status = .quarantined ∨ r.deletedAt.isSome = true)
  deleted : (.softDelete, r.id) ∈ record → r.deletedAt.isSome = true

namespace Vouched

variable {cfg : Config} {record : List (FileWrite × String)} {r : FileRow} {now : ℕ}
  {w : FileWrite}

/-- **A write to the file**, where the verdict it writes is the verdict on the file. -/
theorem write (h : Vouched cfg record r) (hclean : w = .confirmClean → cfg.bad r = false)
    (hbad : w = .quarantine → cfg.bad r = true) :
    Vouched cfg ((w, r.id) :: record) (w.row now r) := by
  have hold : ∀ {w' : FileWrite}, w ≠ w' → (w', (w.row now r).id) ∈ (w, r.id) :: record →
      (w', r.id) ∈ record := by
    intro w' hne hmem
    rw [FileWrite.row_id] at hmem
    rcases List.mem_cons.mp hmem with heq | hmem
    · exact absurd (Prod.mk.inj heq).1.symm hne
    · exact hmem
  have hnew : (w, (w.row now r).id) ∈ (w, r.id) :: record := by
    rw [FileWrite.row_id]
    exact List.mem_cons_self
  cases w with
  | markClean =>
    exact ⟨fun _ => ⟨_, rfl, hnew⟩, nofun, fun hq => h.quarantined (hold nofun hq),
      fun hd => h.deleted (hold nofun hd)⟩
  | confirmClean =>
    refine ⟨fun _ => ⟨_, rfl, hnew⟩, nofun, fun hq => ?_, fun hd => h.deleted (hold nofun hd)⟩
    have hgood := hclean rfl
    rw [(h.quarantined (hold nofun hq)).1] at hgood
    cases hgood
  | quarantine =>
    exact ⟨nofun, fun _ => hnew, fun _ => ⟨hbad rfl, Or.inl rfl⟩,
      fun hd => h.deleted (hold nofun hd)⟩
  | softDelete =>
    refine ⟨fun hc => ?_, fun hi => List.mem_cons_of_mem _ (h.infected hi),
      fun hq => ⟨(h.quarantined (hold nofun hq)).1, Or.inr rfl⟩, fun _ => rfl⟩
    obtain ⟨w, hw, hmem⟩ := h.clean hc
    exact ⟨w, hw, List.mem_cons_of_mem _ hmem⟩

/-- A write to another file. -/
theorem other {fileId : String} (h : Vouched cfg record r) (hne : r.id ≠ fileId) :
    Vouched cfg ((w, fileId) :: record) r := by
  have hold : ∀ {w' : FileWrite}, (w', r.id) ∈ (w, fileId) :: record → (w', r.id) ∈ record := by
    intro w' hmem
    rcases List.mem_cons.mp hmem with heq | hmem
    · exact absurd (Prod.mk.inj heq).2 hne
    · exact hmem
  refine ⟨fun hc => ?_, fun hi => List.mem_cons_of_mem _ (h.infected hi),
    fun hq => h.quarantined (hold hq), fun hd => h.deleted (hold hd)⟩
  obtain ⟨w, hw, hmem⟩ := h.clean hc
  exact ⟨w, hw, List.mem_cons_of_mem _ hmem⟩

/-- A file nothing is on record of, and that nothing was written to. -/
theorem of_pending (hnone : ∀ w, (w, r.id) ∉ record) (hpending : r.scanStatus = .pending) :
    Vouched cfg record r where
  clean hc := absurd (hpending.symm.trans hc) nofun
  infected hi := absurd (hpending.symm.trans hi) nofun
  quarantined hq := absurd hq (hnone _)
  deleted hd := absurd hd (hnone _)

end Vouched

/-- What is on record is of files that are there. -/
def Store.Recorded (s : Store) : Prop :=
  ∀ w fileId, (w, fileId) ∈ s.record → (s.files.find fileId).isSome = true

/-- What is on record stands in the rows. -/
structure Store.Vouched (cfg : Config) (s : Store) : Prop where
  rows : ∀ fileId r, s.files.find fileId = some r → File.Vouched cfg s.record r
  recorded : s.Recorded

/-- A job that is about to write its verdict has the verdict on the file. -/
def Call.Sound (cfg : Config) (s : Store) : Call → Prop
  | .virusScan _ job .confirm => ∀ r, s.files.find job.fileId = some r → cfg.bad r = false
  | .virusScan _ job (.quarantine _ _) => ∀ r, s.files.find job.fileId = some r → cfg.bad r = true
  | _ => True

/-- The file a scan job that has begun is about. -/
def Call.scans : Call → Option String
  | .virusScan _ _ .start => none
  | .virusScan _ job _ => some job.fileId
  | _ => none

/-- A call that is about to INSERT a file. -/
def Call.uploading : Call → Bool
  | .requestUploadUrl _ (.reserve _ _) => true
  | _ => false

section Steps

variable {cfg : Config} {s s' : Store} {c c' : Call} {uuid : String}

/-- A write of a call that is sound is sound for the file. -/
theorem Call.Sound.write {w : FileWrite} {fileId : String} {r : FileRow} (h : c.Sound cfg s)
    (hc : c.write = some (w, fileId)) (hr : s.files.find fileId = some r) :
    (w = .confirmClean → cfg.bad r = false) ∧ (w = .quarantine → cfg.bad r = true) := by
  cases c with
  | virusScan enabled job pc =>
    cases pc with
    | start =>
      cases enabled with
      | false => cases hc; exact ⟨nofun, nofun⟩
      | true => cases hc
    | quarantine finding size => cases hc; exact ⟨nofun, fun _ => h r hr⟩
    | confirm => cases hc; exact ⟨fun _ => h r hr, nofun⟩
    | _ => cases hc
  | fileCleanup pc =>
    cases pc with
    | softDelete file rest => cases hc; exact ⟨nofun, nofun⟩
    | _ => cases hc
  | _ => cases hc

/-- What a write puts on record. -/
theorem mem_record_write {w w' : FileWrite} {fileId f : String}
    (h : (w', f) ∈ (s.write w fileId).record) :
    (w', f) ∈ s.record ∨ w' = w ∧ f = fileId ∧ (s.files.find fileId).isSome = true := by
  unfold Store.write at h
  dsimp only at h
  split at h
  · rcases List.mem_cons.mp h with heq | hmem
    · obtain ⟨rfl, rfl⟩ := Prod.mk.inj heq
      exact Or.inr ⟨rfl, rfl, ‹_›⟩
    · exact Or.inl hmem
  · exact Or.inl h

/-- A file that is there stays. -/
theorem isSome_next (h : next cfg s uuid c = some (s', c')) {f : String}
    (hf : (s.files.find f).isSome = true) : (s'.files.find f).isSome = true := by
  obtain ⟨r, hr⟩ := Option.isSome_iff_exists.mp hf
  obtain ⟨row, hrow, -⟩ := (has_next h (Store.has_of_find hr)).exists
  rw [(Table.find_eq_some.mp hr).2] at hrow
  rw [hrow]
  rfl

/-- One statement keeps the record to files that are there. -/
theorem recorded_next (h : next cfg s uuid c = some (s', c')) (hs : s.Recorded) : s'.Recorded := by
  intro w f hmem
  refine isSome_next h ?_
  cases stepped_next h with
  | write _ hs' =>
    rw [hs'] at hmem
    rcases mem_record_write hmem with hmem | ⟨-, rfl, hsome⟩
    · exact hs w f hmem
    · exact hsome
  | reclaim _ hs' | add _ _ _ hs' =>
    rw [hs'] at hmem
    exact hs w f hmem
  | upload _ _ _ _ _ hrecord _ | none _ _ _ _ hrecord _ =>
    rw [hrecord] at hmem
    exact hs w f hmem

/-- An UPDATE leaves a status that a verdict vouches for. -/
theorem vouched_write {w : FileWrite} {fileId f : String} {r' : FileRow} (hs : s.Vouched cfg)
    (hsound : ∀ r, s.files.find fileId = some r →
      (w = .confirmClean → cfg.bad r = false) ∧ (w = .quarantine → cfg.bad r = true))
    (hr' : (s.write w fileId).files.find f = some r') :
    Vouched cfg (s.write w fileId).record r' := by
  rw [Store.find_write] at hr'
  unfold Store.write
  dsimp only
  split at hr'
  · rename_i hf
    subst hf
    obtain ⟨r, hr, rfl⟩ := Option.map_eq_some_iff.mp hr'
    rw [hr, Option.isSome_some, if_pos rfl, ← (Table.find_eq_some.mp hr).2]
    exact (hs.rows f r hr).write (hsound r hr).1 (hsound r hr).2
  · rename_i hf
    split
    · refine (hs.rows f r' hr').other ?_
      rw [(Table.find_eq_some.mp hr').2]
      exact hf
    · exact hs.rows f r' hr'

/-- **One statement, seen from the record.** -/
theorem vouched_next (h : next cfg s uuid c = some (s', c')) (hc : c.Sound cfg s)
    (hs : s.Vouched cfg) : s'.Vouched cfg := by
  refine ⟨fun f r hr => ?_, recorded_next h hs.recorded⟩
  cases stepped_next h with
  | write hw hs' =>
    rw [hs'] at hr ⊢
    exact vouched_write hs (fun r hr => hc.write hw hr) hr
  | reclaim _ hs' | add _ _ _ hs' =>
    rw [hs'] at hr ⊢
    exact hs.rows f r hr
  | upload _ _ _ _ hfiles hrecord _ =>
    rw [hrecord]
    rw [Table.find_insert hfiles] at hr
    split at hr
    · obtain rfl := Option.some.inj hr
      refine .of_pending (fun w hmem => ?_) rfl
      have hsome := hs.recorded w _ hmem
      rw [(Table.insert_eq_some hfiles).1] at hsome
      cases hsome
    · exact hs.rows f r hr
  | none _ _ _ hfiles hrecord _ =>
    rw [hfiles] at hr
    rw [hrecord]
    exact hs.rows f r hr

/-- Nobody's verdict is upset by a statement that uploads no file of that id. -/
theorem Call.Sound.of_next (h : next cfg s uuid c = some (s', c')) {k : Call}
    (hfresh : c.uploading = true → k.scans ≠ some uuid) (hk : k.Sound cfg s) :
    k.Sound cfg s' := by
  have hback : ∀ fileId, k.scans = some fileId → ∀ r', s'.files.find fileId = some r' →
      ∃ r, s.files.find fileId = some r ∧ cfg.bad r' = cfg.bad r := by
    intro fileId hscans r' hr'
    rcases find_next h hr' with ⟨r, hr, hfixed⟩ | ⟨args, storageKey, url, rfl, rfl, -⟩
    · exact ⟨r, hr, bad_of_fixed hfixed⟩
    · exact absurd hscans (hfresh rfl)
  cases k with
  | virusScan enabled job pc =>
    cases pc with
    | confirm =>
      intro r' hr'
      obtain ⟨r, hr, hbad⟩ := hback _ rfl r' hr'
      rw [hbad]
      exact hk r hr
    | quarantine finding size =>
      intro r' hr'
      obtain ⟨r, hr, hbad⟩ := hback _ rfl r' hr'
      rw [hbad]
      exact hk r hr
    | _ => trivial
  | _ => trivial

/-- The verdict of a scan is right about the file. -/
theorem sound_verdict {enabled : Bool} {job : ScanJob} :
    (Call.virusScan enabled job
      (cfg.verdict job.fileId (s.files.find job.fileId))).Sound cfg s := by
  unfold Config.verdict
  split
  · rename_i row hrow
    obtain ⟨hfind, hmismatch⟩ := Option.filter_eq_some_iff.mp hrow
    intro r hr
    obtain rfl := Option.some.inj (hfind.symm.trans hr)
    rw [Config.bad, (Table.find_eq_some.mp hfind).2, hmismatch]
    rfl
  · rename_i hrow
    split
    · rename_i viruses hviruses
      intro r hr
      rw [Config.bad, (Table.find_eq_some.mp hr).2, hviruses, Bool.or_comm]
      rfl
    · rename_i hviruses
      intro r hr
      have hmatch : cfg.mismatch job.fileId r.mimeType = false := by
        simpa [hr, Option.filter] using hrow
      rw [Config.bad, (Table.find_eq_some.mp hr).2, hviruses, hmatch]
      rfl

/-- **One statement, seen from the verdict of its job.** -/
theorem sound_next (h : next cfg s uuid c = some (s', c')) : c'.Sound cfg s' := by
  cases c with
  | virusScan enabled job pc =>
    obtain ⟨pc', hpc, rfl⟩ := pc_of_next h
    cases pc with
    | start =>
      rw [scanNext] at hpc
      split at hpc <;> obtain ⟨-, rfl⟩ := Prod.mk.inj (Option.some.inj hpc)
      · split <;> trivial
      · trivial
    | select =>
      obtain ⟨rfl, rfl⟩ := Prod.mk.inj (Option.some.inj hpc)
      exact sound_verdict
    | quarantine finding size =>
      obtain ⟨-, rfl⟩ := Prod.mk.inj (Option.some.inj hpc)
      split <;> trivial
    | selectSize finding =>
      obtain ⟨-, rfl⟩ := Prod.mk.inj (Option.some.inj hpc)
      split <;> trivial
    | returned => cases hpc
    | _ =>
      obtain ⟨-, rfl⟩ := Prod.mk.inj (Option.some.inj hpc)
      trivial
  | _ =>
    obtain ⟨pc', -, rfl⟩ := pc_of_next h
    trivial

theorem sound_of_fresh (h : c.fresh = true) : c.Sound cfg s := by
  unfold Call.fresh at h
  split at h <;> trivial

/-- What is on record stays. -/
theorem record_next (h : next cfg s uuid c = some (s', c')) {x : FileWrite × String}
    (hx : x ∈ s.record) : x ∈ s'.record := by
  cases stepped_next h with
  | write _ hs' =>
    rw [hs', Store.write]
    dsimp only
    split
    · exact List.mem_cons_of_mem _ hx
    · exact hx
  | reclaim _ hs' | add _ _ _ hs' =>
    rw [hs']
    exact hx
  | upload _ _ _ _ _ hrecord _ | none _ _ _ _ hrecord _ =>
    rw [hrecord]
    exact hx

/-- A URL is given for a live file that is not quarantined and not pending. -/
theorem downloadable {orgId fileId url : String}
    (h : generateDownloadUrl cfg s orgId fileId = .ok (.url url)) :
    ∃ r, s.files.find fileId = some r ∧ r.deletedAt = none ∧ r.status ≠ .quarantined
      ∧ r.scanStatus ≠ .pending := by
  unfold generateDownloadUrl at h
  split at h
  · cases h
  · rename_i file hfile
    obtain ⟨hfind, hfilter⟩ := Option.filter_eq_some_iff.mp hfile
    split at h
    · cases h
    · rename_i hstatus
      split at h
      · cases h
      · exact ⟨file, hfind, (of_decide_eq_true hfilter).2, hstatus, ‹_›⟩

/-- A file that is handed out was marked clean, and never quarantined or deleted. -/
theorem Store.Vouched.cleared {orgId fileId url : String} (hs : s.Vouched cfg)
    (h : generateDownloadUrl cfg s orgId fileId = .ok (.url url)) :
    (∃ w, w.clears = true ∧ (w, fileId) ∈ s.record)
      ∧ (.quarantine, fileId) ∉ s.record ∧ (.softDelete, fileId) ∉ s.record := by
  obtain ⟨r, hr, hdeleted, hstatus, hscan⟩ := downloadable h
  have hrow := hs.rows fileId r hr
  obtain ⟨-, rfl⟩ := Table.find_eq_some.mp hr
  have hlive : ¬ r.deletedAt.isSome = true := by
    rw [hdeleted]
    nofun
  have hnotq : (.quarantine, r.id) ∉ s.record := by
    intro hq
    rcases (hrow.quarantined hq).2 with hquarantined | hgone
    · exact hstatus hquarantined
    · exact hlive hgone
  refine ⟨?_, hnotq, fun hd => hlive (hrow.deleted hd)⟩
  cases hs : r.scanStatus with
  | pending => exact absurd hs hscan
  | clean => exact hrow.clean hs
  | infected => exact absurd (hrow.infected hs) hnotq

end Steps

/-! ## Runs -/

section Runs

variable {ι : Type*} {cfg : Config}

/-- **The id of a file is new**: no scan job has begun for it before the file is there. -/
def FreshIds (p : Calls ι) : Move ι String Env → Prop
  | .run i uuid => (p.calls i).Live (fun c => c.uploading) →
      ∀ j, ¬ (p.calls j).Live fun c => c.scans = some uuid
  | _ => True

instance [Fintype ι] (p : Calls ι) : ∀ m : Move ι String Env, Decidable (FreshIds p m)
  | .run i uuid => inferInstanceAs (Decidable ((p.calls i).Live (fun c => c.uploading) →
      ∀ j, ¬ (p.calls j).Live fun c => c.scans = some uuid))
  | .crash _ => inferInstanceAs (Decidable True)
  | .env _ => inferInstanceAs (Decidable True)

variable [DecidableEq ι] {p q r : Calls ι}

/-- What runs with new ids keep. -/
structure DownloadInv (cfg : Config) (p : Calls ι) : Prop where
  vouched : p.store.Vouched cfg
  sound : ∀ i, (p.calls i).Keeps (Call.Sound cfg p.store)

/-- Every verdict on record is right, in every state of such a run. -/
theorem downloadInv_run (hI : DownloadInv cfg p)
    (h : Run (Pool.step (fileMachine cfg)) FreshIds p q) : DownloadInv cfg q := by
  refine Pool.invariant (I := DownloadInv cfg) hI ?_ ?_ ?_ h
  · intro p i uuid c s' c' hI hG hc hnext
    have hsound := (hI.sound i).of_up hc
    refine ⟨vouched_next hnext hsound hI.vouched, ?_⟩
    refine keeps_update_up (sound_next hnext) fun j _ => ?_
    have hj := hI.sound j
    cases hk : p.calls j with
    | down k => trivial
    | up k =>
      rw [hk] at hj
      refine Call.Sound.of_next hnext (fun hup hscans => ?_) hj
      refine hG (by rw [hc]; exact hup) j ?_
      rw [hk]
      exact hscans
  · intro p i c hI _ _
    exact ⟨hI.vouched, keeps_update_down hI.sound⟩
  · rintro p ⟨ms⟩ hI -
    exact ⟨⟨hI.vouched.rows, hI.vouched.recorded⟩, fun j => (hI.sound j).imp fun k hk => by
      cases k with
      | virusScan enabled job pc => cases pc <;> exact hk
      | _ => trivial⟩

/-- What is on record stays on record. -/
theorem record_run {x : FileWrite × String} (hx : x ∈ p.store.record)
    (h : Run (Pool.step (fileMachine cfg)) FreshIds p q) : x ∈ q.store.record := by
  refine Pool.invariant (I := fun p : Calls ι => x ∈ p.store.record) hx ?_ ?_ ?_ h
  · intro p i uuid c s' c' hI _ _ hnext
    exact record_next hnext hI
  · intro p i c hI _ _
    exact hI
  · rintro p ⟨ms⟩ hI -
    exact hI

/-- **Only clean files are handed out**: a URL is returned only for a file that a scan job has
marked clean and that was not quarantined or deleted since; and what is once quarantined or deleted
is never handed out again. -/
theorem downloadable_cleared (hstart : ∀ i, (p.calls i).Live fun c => c.fresh)
    (hfiles : p.store.files.rows = []) (hrecord : p.store.record = [])
    (h : Run (Pool.step (fileMachine cfg)) FreshIds p q) (fileId : String) :
    (∀ orgId url, generateDownloadUrl cfg q.store orgId fileId = .ok (.url url) →
      ∃ w later earlier, w.clears = true ∧ q.store.record = later ++ (w, fileId) :: earlier
        ∧ (.quarantine, fileId) ∉ later ∧ (.softDelete, fileId) ∉ later)
    ∧ (((.quarantine, fileId) ∈ q.store.record ∨ (.softDelete, fileId) ∈ q.store.record) →
        ∀ r, Run (Pool.step (fileMachine cfg)) FreshIds q r →
          ∀ orgId url, generateDownloadUrl cfg r.store orgId fileId ≠ .ok (.url url)) := by
  have hnone : ∀ f, p.store.files.find f = none := by
    intro f
    unfold Table.find
    rw [hfiles]
    rfl
  have hI : DownloadInv cfg p := by
    refine ⟨⟨fun f r hr => ?_, fun w f hmem => ?_⟩, fun i => ?_⟩
    · rw [hnone f] at hr
      cases hr
    · rw [hrecord] at hmem
      cases hmem
    · obtain ⟨c, hc, hfresh⟩ := (hstart i).exists
      rw [hc]
      exact sound_of_fresh hfresh
  refine ⟨fun orgId url hurl => ?_, fun hgone r hr orgId url hurl => ?_⟩
  · obtain ⟨⟨w, hw, hmem⟩, hq, hd⟩ := (downloadInv_run hI h).vouched.cleared hurl
    obtain ⟨later, earlier, heq⟩ := List.append_of_mem hmem
    rw [heq] at hq hd
    exact ⟨w, later, earlier, hw, heq, fun h => hq (List.mem_append_left _ h),
      fun h => hd (List.mem_append_left _ h)⟩
  · obtain ⟨-, hq, hd⟩ := (downloadInv_run (downloadInv_run hI h) hr).vouched.cleared hurl
    rcases hgone with hgone | hgone
    · exact hq (record_run hgone hr)
    · exact hd (record_run hgone hr)

end Runs

/-! ## A file that is scanned -/

/-- An upload, and a scan of the file. -/
def uploadAndScan : Calls (Fin 2) where
  store := demoStore
  calls := ![.up (.requestUploadUrl demoUpload .generate), .up (.virusScan true demoScan .start)]

theorem uploadAndScan_fresh (i : Fin 2) : (uploadAndScan.calls i).Live fun c => c.fresh := by
  revert i
  decide

/-- The scan confirms the file, and from then on it is handed out. -/
theorem scanned_file_downloads :
    ∃ q, Run (Pool.step (fileMachine demoConfig)) FreshIds uploadAndScan q
      ∧ generateDownloadUrl demoConfig q.store "o" "f" = .ok (.url "download/k")
      ∧ (.softDelete, "f") ∉ q.store.record
      ∧ ∃ w later earlier, w.clears = true ∧ q.store.record = later ++ (w, "f") :: earlier
        ∧ (.quarantine, "f") ∉ later ∧ (.softDelete, "f") ∉ later := by
  obtain ⟨q, hq, h⟩ := exists_run_of_exec (Pool.step (fileMachine demoConfig)) FreshIds
    uploadAndScan (List.flatten [[.run 0 "k", .run 0 "f"], List.replicate 3 (.run 1 "")])
    (fun q => generateDownloadUrl demoConfig q.store "o" "f" = .ok (.url "download/k")
      ∧ (.softDelete, "f") ∉ q.store.record) (by decide)
  obtain ⟨hurl, hdeleted⟩ := of_decide_eq_true h
  exact ⟨q, hq, hurl, hdeleted,
    (downloadable_cleared uploadAndScan_fresh rfl rfl hq "f").1 "o" _ hurl⟩

end WorkPlatform.File

import Mathlib.Data.Fin.VecNotation
import WorkPlatform.File.Calls

/-!
# File/Quota — storage stays within the quota

    requestUploadUrl, updateStorageUsed   used + size ≤ quota, in the UPDATE that adds
    the three reclaims                    GREATEST(0, used - size)

An addition carries its own condition, and a reclaim takes a size off that some row has, so it
takes nothing negative off and stops at 0.  Whatever the order, and whether or not a reclaim
belongs to a reservation, `storage_used_bytes` stays between 0 and the quota; and an upload is
refused for the quota exactly where its UPDATE finds no room (`within_quota`).
-/

namespace WorkPlatform.File

open Machinery

/-! ## What no statement changes -/

/-- The columns of a file that no UPDATE sets. -/
def FileRow.fixed (r : FileRow) : String × String × String × ℤ :=
  (r.id, r.orgId, r.mimeType, r.sizeBytes)

@[simp] theorem FileWrite.row_fixed (w : FileWrite) (now : ℕ) (r : FileRow) :
    (w.row now r).fixed = r.fixed := by
  cases w <;> rfl

/-- The file is in the table, with these columns. -/
def Store.Has (s : Store) (r : FileRow) : Prop :=
  (s.files.find r.id).map FileRow.fixed = some r.fixed

theorem Store.Has.exists {s : Store} {r : FileRow} (h : s.Has r) :
    ∃ row, s.files.find r.id = some row ∧ row.fixed = r.fixed := Option.map_eq_some_iff.mp h

theorem Store.has_of_find {s : Store} {r : FileRow} {fileId : String}
    (h : s.files.find fileId = some r) : s.Has r := by
  obtain ⟨-, rfl⟩ := Table.find_eq_some.mp h
  rw [Store.Has, h]
  rfl

section Steps

variable {cfg : Config} {s s' : Store} {c c' : Call} {uuid orgId : String} {org : OrgRow}
  {delta size : ℤ}

/-- **One statement, seen from a file**: it was there before with the same fixed columns, or it has
just been uploaded. -/
theorem find_next (h : next cfg s uuid c = some (s', c')) {fileId : String} {r' : FileRow}
    (hr' : s'.files.find fileId = some r') :
    (∃ r, s.files.find fileId = some r ∧ r'.fixed = r.fixed)
      ∨ ∃ args storageKey url, c = .requestUploadUrl args (.reserve storageKey url)
        ∧ fileId = uuid ∧ r' = args.fileRow s.now uuid storageKey := by
  have hsame : s'.files = s.files → ∃ r, s.files.find fileId = some r ∧ r'.fixed = r.fixed := by
    intro heq
    rw [heq] at hr'
    exact ⟨r', hr', rfl⟩
  cases stepped_next h with
  | @write w f hc hs' =>
    refine Or.inl ?_
    rw [hs', Store.find_write] at hr'
    split at hr'
    · obtain ⟨r, hr, rfl⟩ := Option.map_eq_some_iff.mp hr'
      exact ⟨r, hr, w.row_fixed _ r⟩
    · exact ⟨r', hr', rfl⟩
  | reclaim _ hs' => exact Or.inl (hsame (by rw [hs']; rfl))
  | @upload args storageKey url org hc _ _ _ hfiles _ _ =>
    rw [Table.find_insert hfiles] at hr'
    split at hr'
    · rename_i hid
      obtain rfl := Option.some.inj hr'
      exact Or.inr ⟨args, storageKey, url, hc, hid.symm, rfl⟩
    · exact Or.inl ⟨r', hr', rfl⟩
  | add _ _ _ hs' => exact Or.inl (hsame (by rw [hs']; rfl))
  | none _ _ _ hfiles _ _ => exact Or.inl (hsame hfiles)

/-- A file that is there stays, with its fixed columns. -/
theorem has_next (h : next cfg s uuid c = some (s', c')) {r : FileRow} (hr : s.Has r) :
    s'.Has r := by
  have hsame : s'.files = s.files → s'.Has r := by
    intro heq
    rw [Store.Has, heq]
    exact hr
  cases stepped_next h with
  | @write w fileId hc h =>
    rw [Store.Has, h, Store.find_write]
    split
    · have hcomp : FileRow.fixed ∘ w.row s.now = FileRow.fixed :=
        funext fun row => w.row_fixed _ row
      rw [Option.map_map, hcomp]
      exact hr
    · exact hr
  | reclaim hc h => exact hsame (by rw [h]; rfl)
  | upload _ _ _ _ hfiles _ _ =>
    rw [Store.Has, Table.find_insert hfiles, if_neg]
    · exact hr
    · intro hid
      obtain ⟨row, hrow, -⟩ := hr.exists
      rw [← hid, (Table.insert_eq_some hfiles).1] at hrow
      cases hrow
  | add _ _ _ h => exact hsame (by rw [h]; rfl)
  | none _ _ _ hfiles _ _ => exact hsame hfiles

/-! ## What a call has read -/

/-- What a call has read of files is what the table has. -/
def Call.Informed (s : Store) : Call → Prop
  | .virusScan _ job (.quarantine _ (some size)) | .virusScan _ job (.reclaim _ size) =>
    ∃ r, s.Has r ∧ r.id = job.fileId ∧ r.sizeBytes = size
  | .fileCleanup (.reclaim file rest) | .fileCleanup (.softDelete file rest) =>
    ∀ r ∈ file :: rest, s.Has r
  | _ => True

theorem informed_verdict {enabled : Bool} {job : ScanJob} :
    (Call.virusScan enabled job (cfg.verdict job.fileId (s.files.find job.fileId))).Informed s := by
  unfold Config.verdict
  split
  · rename_i r hr
    have hfind := (Option.filter_eq_some_iff.mp hr).1
    exact ⟨r, Store.has_of_find hfind, (Table.find_eq_some.mp hfind).2, rfl⟩
  · split <;> trivial

theorem informed_loop {files : List FileRow} (h : ∀ r ∈ files, s.Has r) :
    (Call.fileCleanup (.loop files)).Informed s := by
  cases files with
  | nil => trivial
  | cons file rest => exact h

/-- A call stays informed as long as what is stored stays. -/
theorem Call.Informed.mono (hhas : ∀ r, s.Has r → s'.Has r) (h : c.Informed s) : c.Informed s' := by
  unfold Call.Informed at h ⊢
  split at h
  · obtain ⟨r, hr, hid, hsize⟩ := h
    exact ⟨r, hhas r hr, hid, hsize⟩
  · obtain ⟨r, hr, hid, hsize⟩ := h
    exact ⟨r, hhas r hr, hid, hsize⟩
  · exact fun r hr => hhas r (h r hr)
  · exact fun r hr => hhas r (h r hr)
  · trivial

/-- **One statement, seen from what its call has read.** -/
theorem informed_next (h : next cfg s uuid c = some (s', c')) (hc : c.Informed s) :
    c'.Informed s' := by
  have hhas : ∀ r, s.Has r → s'.Has r := fun r => has_next h
  cases c with
  | requestUploadUrl args pc | updateStorageUsed o delta pc =>
    obtain ⟨pc', -, rfl⟩ := pc_of_next h
    trivial
  | virusScan enabled job pc =>
    obtain ⟨pc', hpc, rfl⟩ := pc_of_next h
    cases pc with
    | start =>
      rw [scanNext] at hpc
      split at hpc <;> obtain ⟨-, rfl⟩ := Prod.mk.inj (Option.some.inj hpc)
      · split <;> trivial
      · trivial
    | select =>
      obtain ⟨rfl, rfl⟩ := Prod.mk.inj (Option.some.inj hpc)
      exact informed_verdict
    | quarantine finding size =>
      obtain ⟨-, rfl⟩ := Prod.mk.inj (Option.some.inj hpc)
      cases size with
      | none => trivial
      | some size =>
        obtain ⟨r, hr, hid, hsize⟩ := hc
        exact ⟨r, hhas r hr, hid, hsize⟩
    | selectSize finding =>
      obtain ⟨rfl, rfl⟩ := Prod.mk.inj (Option.some.inj hpc)
      split
      · rename_i r hr
        exact ⟨r, Store.has_of_find hr, (Table.find_eq_some.mp hr).2, rfl⟩
      · trivial
    | returned => cases hpc
    | _ =>
      obtain ⟨-, rfl⟩ := Prod.mk.inj (Option.some.inj hpc)
      trivial
  | fileCleanup pc =>
    obtain ⟨pc', hpc, rfl⟩ := pc_of_next h
    cases pc with
    | select =>
      obtain ⟨rfl, rfl⟩ := Prod.mk.inj (Option.some.inj hpc)
      exact informed_loop fun r hr => Store.has_of_find (Table.find_key (List.mem_filter.mp hr).1)
    | reclaim file rest =>
      obtain ⟨-, rfl⟩ := Prod.mk.inj (Option.some.inj hpc)
      exact fun r hr => hhas r (hc r hr)
    | softDelete file rest =>
      obtain ⟨-, rfl⟩ := Prod.mk.inj (Option.some.inj hpc)
      exact informed_loop fun r hr => hhas r (hc r (List.mem_cons_of_mem _ hr))
    | returned => cases hpc

theorem informed_of_fresh (h : c.fresh = true) : c.Informed s := by
  unfold Call.fresh at h
  split at h <;> trivial

/-! ## Sizes -/

/-- No file is smaller than nothing. -/
def Store.Sized (s : Store) : Prop := ∀ r, s.Has r → 0 ≤ r.sizeBytes

/-- The sizes a call was given are as its callers check them. -/
def Call.valid : Call → Bool
  | .requestUploadUrl args _ => 0 < args.sizeBytes
  | .updateStorageUsed _ delta _ => 0 ≤ delta
  | _ => true

theorem valid_of_fresh (h : c.fresh = true) : c.valid = true := by
  unfold Call.fresh at h
  split at h <;> first | exact h | rfl | cases h

theorem valid_next (h : next cfg s uuid c = some (s', c')) : c'.valid = c.valid := by
  cases c <;> (obtain ⟨pc', -, rfl⟩ := pc_of_next h; rfl)

theorem sizeBytes_of_fixed {r r' : FileRow} (h : r'.fixed = r.fixed) :
    r'.sizeBytes = r.sizeBytes := congrArg (·.2.2.2) h

theorem sized_of_rows (h : ∀ r ∈ s.files.rows, 0 ≤ r.sizeBytes) : s.Sized := by
  intro r hr
  obtain ⟨row, hrow, hfixed⟩ := hr.exists
  rw [← sizeBytes_of_fixed hfixed]
  exact h row (Table.find_eq_some.mp hrow).1

/-- A call with valid sizes keeps every size valid. -/
theorem sized_next (h : next cfg s uuid c = some (s', c')) (hvalid : c.valid = true)
    (hs : s.Sized) : s'.Sized := by
  intro r hr
  obtain ⟨row, hrow, hfixed⟩ := hr.exists
  rw [← sizeBytes_of_fixed hfixed]
  rcases find_next h hrow with ⟨old, hold, hsame⟩ | ⟨args, storageKey, url, rfl, -, rfl⟩
  · rw [sizeBytes_of_fixed hsame]
    exact hs old (Store.has_of_find hold)
  · exact le_of_lt (of_decide_eq_true hvalid)

/-- A call reclaims the size of some file. -/
theorem reclaims_nonneg (hc : c.reclaims = some (orgId, size)) (hinf : c.Informed s)
    (hs : s.Sized) : 0 ≤ size := by
  cases c with
  | virusScan enabled job pc =>
    cases pc with
    | reclaim finding size =>
      cases hc
      obtain ⟨r, hr, -, rfl⟩ := hinf
      exact hs r hr
    | _ => cases hc
  | fileCleanup pc =>
    cases pc with
    | reclaim file rest =>
      cases hc
      exact hs file (hinf file List.mem_cons_self)
    | _ => cases hc
  | _ => cases hc

/-! ## Bounds -/

/-- Storage used is between 0 and the quota. -/
def OrgRow.Within (org : OrgRow) : Prop :=
  0 ≤ org.storageUsedBytes ∧ org.storageUsedBytes ≤ org.storageQuotaBytes

instance (org : OrgRow) : Decidable org.Within := inferInstanceAs (Decidable (_ ∧ _))

def Store.Within (s : Store) : Prop := ∀ orgId org, s.orgs orgId = some org → org.Within

/-- A row within its quota keeps every organisation within it. -/
theorem within_update {row : Option OrgRow} (hs : s.Within) (hrow : ∀ org ∈ row, org.Within) :
    ∀ o org, Function.update s.orgs orgId row o = some org → org.Within := by
  intro o org ho
  by_cases heq : o = orgId
  · subst heq
    rw [Function.update_self] at ho
    exact hrow org ho
  · rw [Function.update_of_ne heq] at ho
    exact hs o org ho

theorem within_add (hs : s.Within) (hdelta : 0 ≤ delta) (horg : s.orgs orgId = some org)
    (hfits : org.storageUsedBytes + delta ≤ org.storageQuotaBytes) :
    (s.setOrg orgId (org.plus delta)).Within := by
  refine within_update hs ?_
  rintro _ ⟨⟩
  exact ⟨Int.add_nonneg (hs orgId org horg).1 hdelta, hfits⟩

theorem within_reclaim (hs : s.Within) (hsize : 0 ≤ size) : (s.reclaim orgId size).Within := by
  refine within_update hs fun row hrow => ?_
  obtain ⟨org, horg, rfl⟩ := Option.map_eq_some_iff.mp hrow
  obtain ⟨hused, hquota⟩ := hs orgId org horg
  refine ⟨le_max_left _ _, ?_⟩
  change max 0 (org.storageUsedBytes - size) ≤ org.storageQuotaBytes
  omega

/-- **One statement, seen from the quota.** -/
theorem within_next (h : next cfg s uuid c = some (s', c')) (hvalid : c.valid = true)
    (hinf : c.Informed s) (hsized : s.Sized) (hs : s.Within) : s'.Within := by
  have hsame : s'.orgs = s.orgs → s'.Within := by
    intro heq
    rw [Store.Within, heq]
    exact hs
  cases stepped_next h with
  | write hc h => exact hsame (by rw [h]; rfl)
  | reclaim hc h =>
    rw [h]
    exact within_reclaim hs (reclaims_nonneg hc hinf hsized)
  | upload hc horg hfits horgs _ _ _ =>
    subst hc
    rw [Store.Within, horgs]
    exact within_add hs (le_of_lt (of_decide_eq_true hvalid)) horg hfits
  | add hc horg hfits hs' =>
    subst hc
    rw [hs']
    exact within_add hs (of_decide_eq_true hvalid) horg hfits
  | none _ _ horgs _ _ _ => exact hsame horgs

/-- **Where an upload is refused for the quota.** -/
theorem refused_iff {args : UploadArgs} {pc pc' : UploadPc}
    (h : uploadNext cfg s args uuid pc = some (s', pc')) (horg : s.orgs args.orgId = some org) :
    pc' = .threw quotaExceeded ↔ (∃ storageKey url, pc = .reserve storageKey url)
      ∧ org.storageQuotaBytes < org.storageUsedBytes + args.sizeBytes := by
  cases pc with
  | generate =>
    obtain ⟨-, rfl⟩ := Prod.mk.inj (Option.some.inj h)
    refine iff_of_false ?_ (by rintro ⟨⟨_, _, ⟨⟩⟩, -⟩)
    split
    · intro heq
      cases congrArg AppError.statusCode (UploadPc.threw.inj heq)
    · split
      · intro heq
        cases congrArg AppError.statusCode (UploadPc.threw.inj heq)
      · split <;> rintro ⟨⟩
  | reserve storageKey url =>
    rw [uploadNext] at h
    split at h
    · rename_i hnone
      obtain ⟨-, rfl⟩ := Prod.mk.inj (Option.some.inj h)
      refine iff_of_true rfl ⟨⟨_, _, rfl⟩, ?_⟩
      unfold Store.addStorageUsed at hnone
      rw [horg] at hnone
      simpa using hnone
    · rename_i s₁ hadd
      obtain ⟨org', horg', hfits, -⟩ := Store.addStorageUsed_eq_some hadd
      obtain rfl : org = org' := Option.some.inj (horg.symm.trans horg')
      refine iff_of_false ?_ fun hfull => absurd hfull.2 (not_lt.mpr hfits)
      split at h <;> (obtain ⟨-, rfl⟩ := Prod.mk.inj (Option.some.inj h); rintro ⟨⟩)
  | returned _ _ | threw _ | failed => cases h

end Steps

/-! ## Runs -/

section Runs

variable {ι : Type*} [DecidableEq ι] {cfg : Config} {p q : Calls ι}

/-- What every run keeps. -/
structure QuotaInv (p : Calls ι) : Prop where
  within : p.store.Within
  sized : p.store.Sized
  calls : ∀ i, (p.calls i).at'.valid = true ∧ (p.calls i).at'.Informed p.store

/-- The storage is within the quota in every state of a run. -/
theorem quotaInv_run (hstart : ∀ i, (p.calls i).Live fun c => c.fresh)
    (h₀ : p.store.Within) (hsized : p.store.Sized)
    (h : Run (Pool.step (fileMachine cfg)) anyStep p q) : QuotaInv q := by
  have hinit : QuotaInv p := by
    refine ⟨h₀, hsized, fun i => ?_⟩
    obtain ⟨c, hc, hfresh⟩ := (hstart i).exists
    rw [hc]
    exact ⟨valid_of_fresh hfresh, informed_of_fresh hfresh⟩
  refine Pool.invariant (I := QuotaInv) hinit ?_ ?_ ?_ h
  · intro p i uuid c s' c' hI _ hc hnext
    obtain ⟨hvalid, hinf⟩ := hI.calls i
    rw [hc] at hvalid hinf
    refine ⟨within_next hnext hvalid hinf hI.sized hI.within, sized_next hnext hvalid hI.sized, ?_⟩
    refine (Function.forall_update_iff p.calls fun _ (x : Proc Call) =>
      x.at'.valid = true ∧ x.at'.Informed s').mpr ⟨⟨?_, informed_next hnext hinf⟩, fun j _ => ?_⟩
    · rw [Proc.at'_up, valid_next hnext]
      exact hvalid
    · exact ⟨(hI.calls j).1, (hI.calls j).2.mono fun r => has_next hnext⟩
  · intro p i c hI _ hc
    refine ⟨hI.within, hI.sized, fun j => ?_⟩
    rw [at'_update_down hc]
    exact hI.calls j
  · rintro p ⟨ms⟩ hI -
    exact ⟨hI.within, hI.sized, fun j => ⟨(hI.calls j).1, (hI.calls j).2.mono fun r hr => hr⟩⟩

/-- **Storage stays within the quota**, and an upload is refused for the quota exactly where its
UPDATE would exceed it. -/
theorem within_quota (hstart : ∀ i, (p.calls i).Live fun c => c.fresh)
    (h₀ : ∀ orgId org, p.store.orgs orgId = some org → org.Within)
    (hsized : ∀ r ∈ p.store.files.rows, 0 ≤ r.sizeBytes)
    (h : Run (Pool.step (fileMachine cfg)) anyStep p q) :
    (∀ orgId org, q.store.orgs orgId = some org →
      0 ≤ org.storageUsedBytes ∧ org.storageUsedBytes ≤ org.storageQuotaBytes)
    ∧ ∀ i uuid args pc r org, q.calls i = .up (.requestUploadUrl args pc) →
        q.store.orgs args.orgId = some org →
        q.step (fileMachine cfg) (.run i uuid : Move ι String Env) = some r →
        (r.calls i = .up (.requestUploadUrl args (.threw quotaExceeded)) ↔
          (∃ storageKey url, pc = .reserve storageKey url)
            ∧ org.storageQuotaBytes < org.storageUsedBytes + args.sizeBytes) := by
  refine ⟨(quotaInv_run hstart h₀ (sized_of_rows hsized) h).within, ?_⟩
  intro i uuid args pc r org hcall horg hstep
  obtain ⟨c, s', c', hc, hnext, rfl⟩ := Pool.step_run hstep
  obtain rfl := Proc.up.inj (hcall.symm.trans hc)
  obtain ⟨pc', hpc, rfl⟩ := pc_of_next hnext
  rw [← refused_iff hpc horg]
  simp

end Runs

/-! ## An upload with room and one without -/

/-- A provider that always answers, a detector that sees PNGs, a scanner that finds nothing. -/
def demoConfig : Config where
  generateUploadUrl key _ _ := some ("upload/" ++ key)
  generateDownloadUrl key := "download/" ++ key
  fileType _ := some "image/png"
  viruses _ := none

/-- One organisation, with 100 bytes of storage. -/
def demoStore : Store where
  now := 0
  orgs o := if o = "o" then some ⟨0, 100⟩ else none
  files := .empty
  outbox := []
  record := []

/-- An upload of 60 bytes. -/
def demoUpload : UploadArgs := ⟨"o", "u", "a.png", "image/png", 60, "free"⟩

/-- A scan of the file `f`. -/
def demoScan : ScanJob := ⟨"f", "k", some "storage/k", "o"⟩

/-- Two requests for an upload, of the same size. -/
def twoUploads : Calls (Fin 2) where
  store := demoStore
  calls := ![.up (.requestUploadUrl demoUpload .generate),
    .up (.requestUploadUrl demoUpload .generate)]

theorem demoStore_within (orgId : String) (org : OrgRow) (h : demoStore.orgs orgId = some org) :
    org.Within := by
  change (if orgId = "o" then some (⟨0, 100⟩ : OrgRow) else none) = some org at h
  split at h
  · obtain rfl := Option.some.inj h
    decide
  · cases h

/-- The second upload of 60 bytes finds 60 of 100 in use, and is refused. -/
theorem second_upload_refused :
    ∃ q r, Run (Pool.step (fileMachine demoConfig)) anyStep twoUploads q
      ∧ q.step (fileMachine demoConfig) (.run 1 "f₁" : Move (Fin 2) String Env) = some r
      ∧ r.calls 1 = .up (.requestUploadUrl demoUpload (.threw quotaExceeded))
      ∧ (q.store.orgs "o").any fun org => 0 ≤ org.storageUsedBytes ∧ org.storageUsedBytes ≤ 100 := by
  obtain ⟨q, r, hq, -, hr, h⟩ := exists_step_of_exec (Pool.step (fileMachine demoConfig)) anyStep
    twoUploads [.run 0 "k₀", .run 1 "k₁", .run 0 "f₀"] (.run 1 "f₁")
    (fun q _ => q.calls 1 = .up (.requestUploadUrl demoUpload (.reserve "k₁" "upload/k₁"))
      ∧ q.store.orgs "o" = some ⟨60, 100⟩) (by decide)
  obtain ⟨hcall, horg⟩ := of_decide_eq_true h
  obtain ⟨hwithin, hrefused⟩ := within_quota (by decide) demoStore_within
    (fun r hr => absurd hr List.not_mem_nil) hq
  refine ⟨q, r, hq, hr, (hrefused 1 _ _ _ r _ hcall horg hr).mpr ⟨⟨_, _, rfl⟩, by decide⟩, ?_⟩
  rw [horg]
  exact decide_eq_true (hwithin "o" _ horg)

end WorkPlatform.File

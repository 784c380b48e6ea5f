import WorkPlatform.File.Quota

/-!
# File/Usage — the storage in use is what the files take

    requestUploadUrl       reserves the bytes with the row, in one transaction
    virusScanWorkerJob     quarantine ▸ reclaim
    fileCleanupWorkerJob   reclaim ▸ softDelete

Giving bytes back takes two statements, and neither looks whether the bytes are still reserved.  A
scan that is run twice quarantines twice and reclaims twice (`scanned_twice_reclaims_twice`); so
does a job that is retried after it has reclaimed, and a cleanup whose file a scan has quarantined;
and a scan that confirms a file the cleanup has deleted counts it again.

A file is reserved as long as it is counted, but for the time between the two statements: there it
is the other way round.  So in runs where each pair of statements finds its file counted and is not
interrupted (`Paired`), `storage_used_bytes` is the total of what is reserved, and at rest the total
of the files (`usage_exact`).
-/

namespace WorkPlatform.File

open Machinery

/-! ## Files that count -/

/-- The file counts: it is pending or confirmed. -/
def FileRow.counted (r : FileRow) : Bool := r.status = .pending ∨ r.status = .confirmed

/-- What the files of an organisation take. -/
def Store.usage (s : Store) (orgId : String) : ℤ :=
  s.files.total fun r => if r.orgId = orgId ∧ r.counted then r.sizeBytes else 0

/-- The file a call is between its two statements on. -/
def Call.midway : Call → Option String
  | .virusScan _ job (.selectSize _) | .virusScan _ job (.reclaim _ _) => some job.fileId
  | .fileCleanup (.softDelete file _) => some file.id
  | _ => none

/-- The file the next statement of a call begins to remove. -/
def Call.begins : Call → Option String
  | .virusScan _ job (.quarantine _ _) => some job.fileId
  | .fileCleanup (.reclaim file _) => some file.id
  | _ => none

/-- The next statement of a call finds its file counted, and in the organisation of its job. -/
def Call.finds (s : Store) : Call → Bool
  | .virusScan _ job (.quarantine _ _) =>
    (s.files.find job.fileId).any fun r => r.counted ∧ r.orgId = job.orgId
  | .virusScan _ job .confirm => (s.files.find job.fileId).all (·.counted)
  | .fileCleanup (.reclaim file _) => (s.files.find file.id).any (·.counted)
  | _ => true

/-- What a call between its two statements has left behind: a cleanup has given the bytes of a file
back that still counts, a scan has not yet given back the bytes of one that does not. -/
def Call.Halved (s : Store) : Call → Prop
  | .virusScan _ job (.selectSize _) | .virusScan _ job (.reclaim _ _) =>
    ∃ r, s.files.find job.fileId = some r ∧ r.counted = false ∧ r.orgId = job.orgId
  | .fileCleanup (.softDelete file _) => ∃ r, s.files.find file.id = some r ∧ r.counted = true
  | _ => True

/-- The call is not `updateStorageUsed`, which adds to the storage without a file. -/
def Call.filed : Call → Bool
  | .updateStorageUsed _ _ _ => false
  | _ => true

/-! ## What is reserved -/

section Reserved

variable {s : Store} {orgId fileId : String} {r : FileRow} {M M' : String → Prop}
  {w : FileWrite}

open Classical in
/-- The bytes of a file that are reserved in the organisation, where `M` are the files some call is
between its two statements on. -/
noncomputable def reserved (orgId : String) (M : String → Prop) (r : FileRow) : ℤ :=
  if r.orgId = orgId ∧ (r.counted = true ↔ ¬ M r.id) then r.sizeBytes else 0

theorem reserved_nonneg (h : 0 ≤ r.sizeBytes) : 0 ≤ reserved orgId M r := by
  unfold reserved
  split
  · exact h
  · exact le_refl 0

theorem reserved_of_iff (horg : r.orgId = orgId) (h : r.counted = true ↔ ¬ M r.id) :
    reserved orgId M r = r.sizeBytes := if_pos ⟨horg, h⟩

theorem reserved_of_not_iff (h : ¬ (r.counted = true ↔ ¬ M r.id)) : reserved orgId M r = 0 :=
  if_neg fun hr => h hr.2

theorem reserved_of_org_ne (h : r.orgId ≠ orgId) : reserved orgId M r = 0 :=
  if_neg fun hr => h hr.1

theorem reserved_congr {r' : FileRow} (hfixed : r'.fixed = r.fixed)
    (hcounted : r'.counted = r.counted) (hM : M' r.id ↔ M r.id) :
    reserved orgId M' r' = reserved orgId M r := by
  have hid : r'.id = r.id := congrArg (·.1) hfixed
  have horg : r'.orgId = r.orgId := congrArg (·.2.1) hfixed
  unfold reserved
  rw [hid, horg, hcounted, hM, sizeBytes_of_fixed hfixed]

/-- The total of what is reserved, before and after a write. -/
theorem total_write (hr : s.files.find fileId = some r) (hM : ∀ f, f ≠ fileId → (M' f ↔ M f)) :
    (s.write w fileId).files.total (reserved orgId M')
      = s.files.total (reserved orgId M) - reserved orgId M r
        + reserved orgId M' (w.row s.now r) := by
  have hid := (Table.find_eq_some.mp hr).2
  have hother : ∀ b ∈ s.files.rows, b.id ≠ fileId →
      reserved orgId M' (if b.id = fileId then w.row s.now b else b) = reserved orgId M b := by
    intro b _ hb
    rw [if_neg hb]
    exact reserved_congr rfl rfl (hM b.id hb)
  have htotal := Table.total_of_find hr hother
  rw [if_pos hid] at htotal
  exact (Table.total_update (w.row_id s.now)).trans htotal

/-- …and where only `M` changes. -/
theorem total_midway (hr : s.files.find fileId = some r) (hM : ∀ f, f ≠ fileId → (M' f ↔ M f)) :
    s.files.total (reserved orgId M')
      = s.files.total (reserved orgId M) - reserved orgId M r + reserved orgId M' r :=
  Table.total_of_find hr fun b _ hb => reserved_congr rfl rfl (hM b.id hb)

/-- At rest, what is reserved is what the files take. -/
theorem total_of_rest (hM : ∀ f, ¬ M f) : s.files.total (reserved orgId M) = s.usage orgId := by
  refine Table.total_congr fun r _ => ?_
  unfold reserved
  simp only [hM, not_false_eq_true, iff_true]

end Reserved

/-! ## One statement -/

section Steps

variable {cfg : Config} {s s' : Store} {c c' : Call} {uuid f : String} {r : FileRow}

/-- A write of a call, and where the call stands. -/
theorem write_cases {w : FileWrite} (h : c.write = some (w, f)) : w = .markClean
    ∨ w = .confirmClean ∧ (c.finds s = true → (s.files.find f).all (·.counted) = true)
    ∨ c.begins = some f ∨ c.midway = some f := by
  cases c with
  | virusScan enabled job pc =>
    cases pc with
    | start =>
      cases enabled with
      | false => cases h; exact Or.inl rfl
      | true => cases h
    | confirm => cases h; exact Or.inr (Or.inl ⟨rfl, id⟩)
    | quarantine finding size => cases h; exact Or.inr (Or.inr (Or.inl rfl))
    | _ => cases h
  | fileCleanup pc =>
    cases pc with
    | softDelete file rest => cases h; exact Or.inr (Or.inr (Or.inr rfl))
    | _ => cases h
  | _ => cases h

/-- A file that the call does not begin or end to remove counts as before. -/
theorem counted_next (h : next cfg s uuid c = some (s', c')) (hfinds : c.finds s = true)
    (hb : c.begins ≠ some f) (hm : c.midway ≠ some f) (hr : s.files.find f = some r) :
    ∃ r', s'.files.find f = some r' ∧ r'.fixed = r.fixed ∧ r'.counted = r.counted := by
  have hsame : s'.files = s.files →
      ∃ r', s'.files.find f = some r' ∧ r'.fixed = r.fixed ∧ r'.counted = r.counted := by
    intro hfiles
    rw [hfiles]
    exact ⟨r, hr, rfl, rfl⟩
  cases stepped_next h with
  | @write w fileId hc hs' =>
    rw [hs', Store.find_write]
    split
    · rename_i hf
      subst hf
      rw [hr]
      refine ⟨_, rfl, w.row_fixed _ r, ?_⟩
      rcases write_cases (s := s) hc with rfl | ⟨rfl, hcounted⟩ | hbegins | hmidway
      · rfl
      · have hr' := hcounted hfinds
        rw [hr] at hr'
        exact Eq.symm hr'
      · exact absurd hbegins hb
      · exact absurd hmidway hm
    · exact ⟨r, hr, rfl, rfl⟩
  | reclaim _ hs' | add _ _ _ hs' => exact hsame (by rw [hs']; rfl)
  | upload _ _ _ _ hfiles _ _ =>
    rw [Table.find_insert hfiles, if_neg]
    · exact ⟨r, hr, rfl, rfl⟩
    · intro hid
      rw [← hid, (Table.insert_eq_some hfiles).1] at hr
      cases hr
  | none _ _ _ hfiles _ _ => exact hsame hfiles

theorem midway_loop (files : List FileRow) : (Call.fileCleanup (.loop files)).midway = none := by
  cases files <;> rfl

/-- A call is between its two statements on the file it has begun to remove. -/
theorem midway_next (h : next cfg s uuid c = some (s', c')) (hf : c'.midway = some f) :
    c.midway = some f ∨ c.begins = some f := by
  cases c with
  | virusScan enabled job pc =>
    obtain ⟨pc', hpc, rfl⟩ := pc_of_next h
    cases pc with
    | start =>
      rw [scanNext] at hpc
      split at hpc <;> obtain ⟨-, rfl⟩ := Prod.mk.inj (Option.some.inj hpc)
      · split at hf <;> cases hf
      · cases hf
    | select =>
      obtain ⟨-, rfl⟩ := Prod.mk.inj (Option.some.inj hpc)
      unfold Config.verdict at hf
      split at hf
      · cases hf
      · split at hf <;> cases hf
    | quarantine finding size =>
      obtain ⟨-, rfl⟩ := Prod.mk.inj (Option.some.inj hpc)
      refine Or.inr ?_
      cases size <;> exact hf
    | selectSize finding =>
      obtain ⟨-, rfl⟩ := Prod.mk.inj (Option.some.inj hpc)
      refine Or.inl ?_
      split at hf
      · exact hf
      · cases hf
    | returned => cases hpc
    | _ =>
      obtain ⟨-, rfl⟩ := Prod.mk.inj (Option.some.inj hpc)
      cases hf
  | fileCleanup pc =>
    obtain ⟨pc', hpc, rfl⟩ := pc_of_next h
    cases pc with
    | reclaim file rest =>
      obtain ⟨-, rfl⟩ := Prod.mk.inj (Option.some.inj hpc)
      exact Or.inr hf
    | returned => cases hpc
    | _ =>
      obtain ⟨-, rfl⟩ := Prod.mk.inj (Option.some.inj hpc)
      rw [midway_loop] at hf
      cases hf
  | _ =>
    obtain ⟨pc', -, rfl⟩ := pc_of_next h
    cases hf

/-- What another call has left behind stays as it is. -/
theorem Call.Halved.of_next (h : next cfg s uuid c = some (s', c')) {k : Call}
    (hfinds : c.finds s = true)
    (hother : ∀ f, k.midway = some f → c.begins ≠ some f ∧ c.midway ≠ some f)
    (hk : k.Halved s) : k.Halved s' := by
  unfold Call.Halved at hk ⊢
  split at hk
  · obtain ⟨r, hr, hcounted, horg⟩ := hk
    obtain ⟨hb, hm⟩ := hother _ rfl
    obtain ⟨r', hr', hfixed, hsame⟩ := counted_next h hfinds hb hm hr
    exact ⟨r', hr', hsame.trans hcounted, (congrArg (·.2.1) hfixed).trans horg⟩
  · obtain ⟨r, hr, hcounted, horg⟩ := hk
    obtain ⟨hb, hm⟩ := hother _ rfl
    obtain ⟨r', hr', hfixed, hsame⟩ := counted_next h hfinds hb hm hr
    exact ⟨r', hr', hsame.trans hcounted, (congrArg (·.2.1) hfixed).trans horg⟩
  · obtain ⟨r, hr, hcounted⟩ := hk
    obtain ⟨hb, hm⟩ := hother _ rfl
    obtain ⟨r', hr', -, hsame⟩ := counted_next h hfinds hb hm hr
    exact ⟨r', hr', hsame.trans hcounted⟩
  · trivial

theorem halved_loop (files : List FileRow) : (Call.fileCleanup (.loop files)).Halved s := by
  cases files <;> trivial

/-- What a call leaves behind with its first statement. -/
theorem halved_next (h : next cfg s uuid c = some (s', c')) (hfinds : c.finds s = true)
    (hc : c.Halved s) : c'.Halved s' := by
  cases c with
  | virusScan enabled job pc =>
    obtain ⟨pc', hpc, rfl⟩ := pc_of_next h
    cases pc with
    | start =>
      rw [scanNext] at hpc
      split at hpc <;> obtain ⟨-, rfl⟩ := Prod.mk.inj (Option.some.inj hpc)
      · split <;> trivial
      · trivial
    | select =>
      obtain ⟨-, rfl⟩ := Prod.mk.inj (Option.some.inj hpc)
      unfold Config.verdict
      split
      · trivial
      · split <;> trivial
    | quarantine finding size =>
      obtain ⟨rfl, rfl⟩ := Prod.mk.inj (Option.some.inj hpc)
      have hfound : ∃ r, (s.write .quarantine job.fileId).files.find job.fileId = some r
          ∧ r.counted = false ∧ r.orgId = job.orgId := by
        obtain ⟨r, hr, hcounted⟩ := (Option.any_eq_true _ _).mp hfinds
        refine ⟨FileWrite.row s.now .quarantine r, ?_, rfl, (of_decide_eq_true hcounted).2⟩
        rw [Store.find_write, if_pos rfl, hr]
        rfl
      cases size <;> exact hfound
    | selectSize finding =>
      obtain ⟨rfl, rfl⟩ := Prod.mk.inj (Option.some.inj hpc)
      split
      · exact hc
      · trivial
    | returned => cases hpc
    | _ =>
      obtain ⟨-, rfl⟩ := Prod.mk.inj (Option.some.inj hpc)
      trivial
  | fileCleanup pc =>
    obtain ⟨pc', hpc, rfl⟩ := pc_of_next h
    cases pc with
    | reclaim file rest =>
      obtain ⟨rfl, rfl⟩ := Prod.mk.inj (Option.some.inj hpc)
      exact (Option.any_eq_true _ _).mp hfinds
    | returned => cases hpc
    | _ =>
      obtain ⟨-, rfl⟩ := Prod.mk.inj (Option.some.inj hpc)
      exact halved_loop _
  | _ =>
    obtain ⟨pc', -, rfl⟩ := pc_of_next h
    trivial

/-! ## The books -/

/-- The storage in use is what is reserved. -/
def Books (s : Store) (M : String → Prop) : Prop :=
  ∀ orgId org, s.orgs orgId = some org →
    org.storageUsedBytes = s.files.total (reserved orgId M)

variable {M M' : String → Prop} {before after : Option String}

theorem Books.quiet (h : Books s M) (horgs : s'.orgs = s.orgs) (hfiles : s'.files = s.files)
    (hM : ∀ g, M' g ↔ M g) : Books s' M' := by
  intro o org horg
  rw [horgs] at horg
  rw [hfiles, h o org horg]
  exact (Table.total_congr fun r _ => reserved_congr rfl rfl (hM r.id)).symm

/-- A write after which the row it finds is reserved as before. -/
theorem Books.write_found {w : FileWrite} (h : Books s M) (hM : ∀ g, g ≠ f → (M' g ↔ M g))
    (hr : s.files.find f = some r)
    (hrow : ∀ o, reserved o M' (w.row s.now r) = reserved o M r) : Books (s.write w f) M' := by
  intro o org horg
  have hold : org.storageUsedBytes = s.files.total (reserved o M) := h o org horg
  rw [hold, total_write hr hM, hrow o]
  omega

/-- A write after which the file, if there is one, is reserved as before. -/
theorem Books.write {w : FileWrite} (h : Books s M) (hM : ∀ g, g ≠ f → (M' g ↔ M g))
    (hrow : ∀ r, s.files.find f = some r → ∀ o,
      reserved o M' (w.row s.now r) = reserved o M r)
    (hnone : s.files.find f = none → (M' f ↔ M f)) : Books (s.write w f) M' := by
  cases hr : s.files.find f with
  | none =>
    intro o org horg
    have hold : org.storageUsedBytes = s.files.total (reserved o M) := h o org horg
    have hrows : (s.write w f).files.rows = s.files.rows :=
      Table.update_of_find_none (w.row_id s.now) hr
    rw [hold, Table.total, Table.total, hrows]
    refine congrArg List.sum (List.map_congr_left fun r _ => (reserved_congr rfl rfl ?_).symm)
    by_cases hid : r.id = f
    · rw [hid]
      exact hnone hr
    · exact hM r.id hid
  | some r => exact h.write_found hM hr (hrow r hr)

/-- A reclaim of what was reserved for the file and is not any more. -/
theorem Books.reclaim {size : ℤ} {orgId : String} (h : Books s M) (hsized : s.Sized)
    (hr : s.files.find f = some r) (hsize : r.sizeBytes = size) (horg : r.orgId = orgId)
    (hM : ∀ g, g ≠ f → (M' g ↔ M g)) (hbefore : r.counted = true ↔ ¬ M f)
    (hafter : ¬ (r.counted = true ↔ ¬ M' f)) : Books (s.reclaim orgId size) M' := by
  obtain ⟨-, rfl⟩ := Table.find_eq_some.mp hr
  subst hsize horg
  intro o org ho
  have htotal : s.files.total (reserved o M')
      = s.files.total (reserved o M) - reserved o M r + 0 := by
    rw [total_midway hr hM, reserved_of_not_iff hafter]
  change org.storageUsedBytes = s.files.total (reserved o M')
  rw [htotal]
  by_cases heq : o = r.orgId
  · subst heq
    have hnew : (s.orgs r.orgId).map (fun org : OrgRow =>
        { org with storageUsedBytes := max 0 (org.storageUsedBytes - r.sizeBytes) }) = some org := by
      rw [← ho]
      exact (Function.update_self r.orgId _ s.orgs).symm
    obtain ⟨old, hold, rfl⟩ := Option.map_eq_some_iff.mp hnew
    have hnonneg : ∀ b ∈ s.files.rows, 0 ≤ reserved r.orgId M b :=
      fun b hb => reserved_nonneg (hsized b (Store.has_of_find (Table.find_key hb)))
    have hle := Table.le_total hnonneg hr
    rw [reserved_of_iff rfl hbefore] at hle ⊢
    have hused := h r.orgId old hold
    change max 0 (old.storageUsedBytes - r.sizeBytes) = _
    omega
  · have hsame : s.orgs o = some org := by
      rw [← ho]
      exact (Function.update_of_ne heq _ s.orgs).symm
    rw [h o org hsame, reserved_of_org_ne (Ne.symm heq)]
    omega

/-- The new file is reserved as it is counted. -/
theorem Books.upload {args : UploadArgs} {storageKey : String} {org : OrgRow} (h : Books s M)
    (horg : s.orgs args.orgId = some org)
    (horgs : s'.orgs = (s.setOrg args.orgId (org.plus args.sizeBytes)).orgs)
    (hfiles : s.files.insert (args.fileRow s.now uuid storageKey) = some s'.files)
    (hM : ∀ g, M' g ↔ M g) (hnew : ¬ M uuid) : Books s' M' := by
  intro o row hrow
  have hcounted : (args.fileRow s.now uuid storageKey).counted = true ↔ ¬ M uuid :=
    iff_of_true rfl hnew
  have htotal : s'.files.total (reserved o M')
      = reserved o M (args.fileRow s.now uuid storageKey) + s.files.total (reserved o M) := by
    rw [← Table.total_insert hfiles]
    exact Table.total_congr fun r _ => reserved_congr rfl rfl (hM r.id)
  rw [htotal]
  rw [horgs] at hrow
  change Function.update s.orgs args.orgId (some (org.plus args.sizeBytes)) o = some row at hrow
  by_cases heq : o = args.orgId
  · subst heq
    have hsize : reserved args.orgId M (args.fileRow s.now uuid storageKey) = args.sizeBytes :=
      reserved_of_iff rfl hcounted
    obtain rfl : org.plus args.sizeBytes = row := by
      rw [Function.update_self] at hrow
      exact Option.some.inj hrow
    rw [hsize, ← h args.orgId org horg]
    exact Int.add_comm _ _
  · have hzero : reserved o M (args.fileRow s.now uuid storageKey) = 0 :=
      reserved_of_org_ne (Ne.symm heq)
    rw [Function.update_of_ne heq] at hrow
    rw [h o row hrow, hzero, Int.zero_add]

/-- How the files some call is between its two statements on change with one call. -/
def Shift (M M' : String → Prop) (before after : Option String) : Prop :=
  ∀ g, M' g ↔ after = some g ∨ M g ∧ before ≠ some g

theorem Shift.idle (h : Shift M M' before after) (hb : before = none) (ha : after = none)
    (g : String) : M' g ↔ M g := by
  rw [h g, hb, ha]
  simp

theorem Shift.begin (h : Shift M M' before after) (hb : before = none) (ha : after = some f) :
    M' f ∧ ∀ g, g ≠ f → (M' g ↔ M g) := by
  refine ⟨(h f).mpr (Or.inl ha), fun g hg => ?_⟩
  rw [h g, hb, ha]
  simp [Ne.symm hg]

theorem Shift.end (h : Shift M M' before after) (hb : before = some f) (ha : after = none) :
    ¬ M' f ∧ ∀ g, g ≠ f → (M' g ↔ M g) := by
  refine ⟨fun hf => ?_, fun g hg => ?_⟩
  · rw [h f, hb, ha] at hf
    simp at hf
  · rw [h g, hb, ha]
    simp [Ne.symm hg]

/-- A statement of the scan keeps the books. -/
theorem books_scan {enabled : Bool} {job : ScanJob} {pc pc' : ScanPc}
    (hpc : scanNext cfg s enabled job pc = some (s', pc')) (hbooks : Books s M) (hsized : s.Sized)
    (hinf : (Call.virusScan enabled job pc).Informed s)
    (hhalved : (Call.virusScan enabled job pc).Halved s)
    (hfinds : (Call.virusScan enabled job pc).finds s = true)
    (hbegins : ∀ g, (Call.virusScan enabled job pc).begins = some g → ¬ M g)
    (hmidway : ∀ g, (Call.virusScan enabled job pc).midway = some g → M g)
    (hM : Shift M M' (Call.virusScan enabled job pc).midway
      (Call.virusScan enabled job pc').midway) : Books s' M' := by
  cases pc with
  | start =>
    rw [scanNext] at hpc
    split at hpc <;> obtain ⟨rfl, rfl⟩ := Prod.mk.inj (Option.some.inj hpc)
    · refine hbooks.quiet rfl rfl (hM.idle rfl ?_)
      split <;> rfl
    · have hsame := hM.idle rfl rfl
      exact hbooks.write (fun g _ => hsame g)
        (fun r _ o => reserved_congr (FileWrite.row_fixed _ _ r) rfl (hsame r.id))
        fun _ => hsame job.fileId
  | select =>
    obtain ⟨rfl, rfl⟩ := Prod.mk.inj (Option.some.inj hpc)
    refine hbooks.quiet rfl rfl (hM.idle rfl ?_)
    unfold Config.verdict
    split
    · rfl
    · split <;> rfl
  | quarantine finding size =>
    obtain ⟨rfl, rfl⟩ := Prod.mk.inj (Option.some.inj hpc)
    obtain ⟨r, hr, hfound⟩ := (Option.any_eq_true _ _).mp hfinds
    obtain ⟨hf, hother⟩ := hM.begin rfl (by cases size <;> rfl)
    have hid := (Table.find_eq_some.mp hr).2
    refine hbooks.write_found hother hr fun o => ?_
    by_cases horg : r.orgId = o
    · rw [reserved_of_iff horg (iff_of_true (of_decide_eq_true hfound).1
        (hid ▸ hbegins job.fileId rfl))]
      refine reserved_of_iff horg (iff_of_false (by rintro ⟨⟩) ?_)
      rw [FileWrite.row_id, hid]
      exact not_not_intro hf
    · rw [reserved_of_org_ne horg]
      exact reserved_of_org_ne horg
  | selectSize finding =>
    obtain ⟨rfl, rfl⟩ := Prod.mk.inj (Option.some.inj hpc)
    obtain ⟨r, hr, -⟩ := hhalved
    refine hbooks.quiet rfl rfl fun g => ?_
    rw [hM g, hr]
    by_cases hg : job.fileId = g
    · subst hg
      exact iff_of_true (Or.inl rfl) (hmidway job.fileId rfl)
    · simp [Call.midway, hg]
  | reclaim finding size =>
    obtain ⟨rfl, rfl⟩ := Prod.mk.inj (Option.some.inj hpc)
    obtain ⟨r, hr, hcounted, horg⟩ := hhalved
    obtain ⟨row, hrow, hid, hsize⟩ := hinf
    obtain ⟨r', hr', hfixed⟩ := hrow.exists
    obtain rfl : r = r' := by
      rw [hid] at hr'
      exact Option.some.inj (hr.symm.trans hr')
    obtain ⟨hf, hother⟩ := hM.end rfl rfl
    refine hbooks.reclaim hsized hr ((sizeBytes_of_fixed hfixed).trans hsize) horg hother ?_ ?_
    · exact iff_of_false (by rw [hcounted]; rintro ⟨⟩) (not_not_intro (hmidway job.fileId rfl))
    · rw [hcounted]
      simpa using hf
  | outbox finding =>
    obtain ⟨rfl, rfl⟩ := Prod.mk.inj (Option.some.inj hpc)
    exact hbooks.quiet rfl rfl (hM.idle rfl rfl)
  | confirm =>
    obtain ⟨rfl, rfl⟩ := Prod.mk.inj (Option.some.inj hpc)
    have hsame := hM.idle rfl rfl
    refine hbooks.write (fun g _ => hsame g) (fun r hr o => ?_) fun _ => hsame job.fileId
    have hcounted : (s.files.find job.fileId).all (·.counted) = true := hfinds
    rw [hr] at hcounted
    exact reserved_congr (FileWrite.row_fixed _ _ r) (Eq.symm hcounted) (hsame r.id)
  | returned => cases hpc

/-- A statement of the clean-up keeps the books. -/
theorem books_cleanup {pc pc' : CleanupPc} (hpc : cleanupNext s pc = some (s', pc'))
    (hbooks : Books s M) (hsized : s.Sized) (hinf : (Call.fileCleanup pc).Informed s)
    (hhalved : (Call.fileCleanup pc).Halved s) (hfinds : (Call.fileCleanup pc).finds s = true)
    (hbegins : ∀ g, (Call.fileCleanup pc).begins = some g → ¬ M g)
    (hmidway : ∀ g, (Call.fileCleanup pc).midway = some g → M g)
    (hM : Shift M M' (Call.fileCleanup pc).midway (Call.fileCleanup pc').midway) :
    Books s' M' := by
  cases pc with
  | select =>
    obtain ⟨rfl, rfl⟩ := Prod.mk.inj (Option.some.inj hpc)
    exact hbooks.quiet rfl rfl (hM.idle rfl (midway_loop _))
  | reclaim file rest =>
    obtain ⟨rfl, rfl⟩ := Prod.mk.inj (Option.some.inj hpc)
    obtain ⟨r, hr, hcounted⟩ := (Option.any_eq_true _ _).mp hfinds
    obtain ⟨r', hr', hfixed⟩ := (hinf file List.mem_cons_self).exists
    obtain rfl : r = r' := Option.some.inj (hr.symm.trans hr')
    obtain ⟨hf, hother⟩ := hM.begin rfl rfl
    refine hbooks.reclaim hsized hr (sizeBytes_of_fixed hfixed) (congrArg (·.2.1) hfixed) hother
      (iff_of_true hcounted (hbegins file.id rfl)) ?_
    rw [hcounted]
    simpa using hf
  | softDelete file rest =>
    obtain ⟨rfl, rfl⟩ := Prod.mk.inj (Option.some.inj hpc)
    obtain ⟨r, hr, hcounted⟩ := hhalved
    obtain ⟨hf, hother⟩ := hM.end rfl (midway_loop _)
    have hid := (Table.find_eq_some.mp hr).2
    refine hbooks.write_found hother hr fun o => ?_
    have hbefore : reserved o M r = 0 := by
      refine reserved_of_not_iff ?_
      rw [hcounted, hid]
      simpa using hmidway file.id rfl
    rw [hbefore]
    refine reserved_of_not_iff fun hiff => ?_
    rw [FileWrite.row_id, hid] at hiff
    exact absurd (hiff.mpr hf) nofun
  | returned => cases hpc

/-- **One statement, seen from the books**; `M'` are the files some call is between its two
statements on afterwards. -/
theorem books_next (h : next cfg s uuid c = some (s', c')) (hbooks : Books s M)
    (hsized : s.Sized) (hinf : c.Informed s) (hhalved : c.Halved s) (hfinds : c.finds s = true)
    (hfiled : c.filed = true) (hbegins : ∀ g, c.begins = some g → ¬ M g)
    (hmidway : ∀ g, c.midway = some g → M g) (hrows : ∀ g, M g → (s.files.find g).isSome = true)
    (hM : Shift M M' c.midway c'.midway) : Books s' M' := by
  cases c with
  | requestUploadUrl args pc =>
    obtain ⟨pc', hpc, rfl⟩ := pc_of_next h
    have hstep : Stepped s s' uuid (.requestUploadUrl args pc) := stepped_upload hpc
    cases hstep with
    | upload _ horg _ horgs hfiles _ _ =>
      refine hbooks.upload horg horgs hfiles (hM.idle rfl rfl) fun hnew => ?_
      have hnone : s.files.find uuid = none := (Table.insert_eq_some hfiles).1
      have hsome := hrows uuid hnew
      rw [hnone] at hsome
      cases hsome
    | none _ _ horgs hfiles _ _ => exact hbooks.quiet horgs hfiles (hM.idle rfl rfl)
    | write hc _ | reclaim hc _ | add hc _ _ _ => cases hc
  | virusScan enabled job pc =>
    obtain ⟨pc', hpc, rfl⟩ := pc_of_next h
    exact books_scan hpc hbooks hsized hinf hhalved hfinds hbegins hmidway hM
  | fileCleanup pc =>
    obtain ⟨pc', hpc, rfl⟩ := pc_of_next h
    exact books_cleanup hpc hbooks hsized hinf hhalved hfinds hbegins hmidway hM
  | updateStorageUsed o delta pc => cases hfiled

theorem filed_next (h : next cfg s uuid c = some (s', c')) : c'.filed = c.filed := by
  cases c <;> (obtain ⟨pc', -, rfl⟩ := pc_of_next h; rfl)

theorem halved_of_fresh (h : c.fresh = true) : c.Halved s ∧ c.midway = none := by
  unfold Call.fresh at h
  split at h <;> first | exact ⟨trivial, rfl⟩ | cases h

/-- A call midway has its file in the table. -/
theorem Call.Halved.isSome (h : c.Halved s) (hf : c.midway = some f) :
    (s.files.find f).isSome = true := by
  have hsome : ∀ {g : String} {P : FileRow → Prop}, some g = some f →
      (∃ r, s.files.find g = some r ∧ P r) → (s.files.find f).isSome = true := by
    rintro g P hg ⟨r, hr, -⟩
    rw [← Option.some.inj hg, hr]
    rfl
  unfold Call.midway at hf
  split at hf
  · exact hsome hf h
  · exact hsome hf h
  · exact hsome hf h
  · cases hf

end Steps

/-! ## Runs -/

section Runs

variable {ι : Type*} {cfg : Config}

/-- Some call is between its two statements on the file. -/
def Midway (p : Calls ι) (f : String) : Prop := ∃ i, (p.calls i).Live fun c => c.midway = some f

/-- **Pairs of statements**: a job that begins to remove a file finds it counted, in the
organisation the job names, and no other job halfway with it; a scan confirms only a file that is
counted; and no job crashes halfway. -/
def Paired (p : Calls ι) : Move ι String Env → Prop
  | .run i _ => (p.calls i).Keeps fun c => c.finds p.store = true
      ∧ ∀ f ∈ c.begins, ∀ j, ¬ (p.calls j).Live fun k => k.midway = some f
  | .crash i => (p.calls i).Keeps fun c => c.midway = none
  | .env _ => True

instance [Fintype ι] (p : Calls ι) : ∀ m : Move ι String Env, Decidable (Paired p m)
  | .run i _ => inferInstanceAs (Decidable ((p.calls i).Keeps fun c => c.finds p.store = true
      ∧ ∀ f ∈ c.begins, ∀ j, ¬ (p.calls j).Live fun k => k.midway = some f))
  | .crash i => inferInstanceAs (Decidable ((p.calls i).Keeps fun c => c.midway = none))
  | .env _ => inferInstanceAs (Decidable True)

/-- What a call has read and left behind. -/
def Call.Booked (s : Store) (c : Call) : Prop :=
  c.valid = true ∧ c.filed = true ∧ c.Informed s ∧ c.Halved s

/-- What such runs keep. -/
structure UsageInv (p : Calls ι) : Prop where
  books : Books p.store (Midway p)
  sized : p.store.Sized
  single : ∀ i j f, (p.calls i).Live (fun c => c.midway = some f) →
    (p.calls j).Live (fun c => c.midway = some f) → i = j
  calls : ∀ i, (p.calls i).Keeps (Call.Booked p.store)

variable [DecidableEq ι] {p q : Calls ι} {i : ι} {c c' : Call} {s' : Store} {uuid : String}

/-- The files calls are halfway with, after a statement of one call. -/
theorem midway_shift (hI : UsageInv p) (hc : p.calls i = .up c) :
    Shift (Midway p) (Midway (⟨s', Function.update p.calls i (.up c')⟩ : Calls ι))
      c.midway c'.midway := by
  intro g
  constructor
  · rintro ⟨j, hj⟩
    rcases live_update_up hj with ⟨-, hj⟩ | ⟨hne, hj⟩
    · exact Or.inl hj
    · refine Or.inr ⟨⟨j, hj⟩, fun hg => hne (hI.single j i g hj ?_)⟩
      rw [hc]
      exact hg
  · rintro (hg | ⟨hmid, hg⟩)
    · exact exists_live_self hg
    · exact exists_live_of_ne (exists_live_ne hc hg hmid) _

/-- A statement of any call keeps the books, where releases come once. -/
theorem usageInv_step (hI : UsageInv p) (hG : Paired p (.run i uuid)) (hc : p.calls i = .up c)
    (hnext : next cfg p.store uuid c = some (s', c')) :
    UsageInv (⟨s', Function.update p.calls i (.up c')⟩ : Calls ι) := by
  rw [Paired, hc] at hG
  obtain ⟨hfinds, hbegins⟩ := hG
  have hbooked := hI.calls i
  rw [hc] at hbooked
  obtain ⟨hvalid, hfiled, hinf, hhalved⟩ := hbooked
  have hlive : ∀ {f}, c.midway = some f → (p.calls i).Live fun c => c.midway = some f := by
    intro f hf
    rw [hc]
    exact hf
  have hrows : ∀ f, Midway p f → (p.store.files.find f).isSome = true := by
    rintro f ⟨j, hj⟩
    obtain ⟨k, hk, hmid⟩ := hj.exists
    have hkept := hI.calls j
    rw [hk] at hkept
    exact hkept.2.2.2.isSome hmid
  refine ⟨?_, sized_next hnext hvalid hI.sized, fun j k f hj hk => ?_, ?_⟩
  · exact books_next hnext hI.books hI.sized hinf hhalved hfinds hfiled
      (fun f hf hM => hM.elim fun j hj => hbegins f hf j hj) (fun f hf => ⟨i, hlive hf⟩) hrows
      (midway_shift hI hc)
  · have hnew : ∀ l, l ≠ i → c'.midway = some f →
        ¬ (p.calls l).Live fun c => c.midway = some f := by
      intro l hl hf hlf
      rcases midway_next hnext hf with hmid | hbegin
      · exact hl (hI.single l i f hlf (hlive hmid))
      · exact hbegins f hbegin l hlf
    rcases live_update_up hj with ⟨rfl, hj'⟩ | ⟨hji, hj'⟩ <;>
      rcases live_update_up hk with ⟨rfl, hk'⟩ | ⟨hki, hk'⟩
    · rfl
    · exact absurd hk' (hnew k hki hj')
    · exact absurd hj' (hnew j hji hk')
    · exact hI.single j k f hj' hk'
  · refine keeps_update_up ⟨?_, ?_, informed_next hnext hinf, halved_next hnext hfinds hhalved⟩
      fun j hji => ?_
    · rw [valid_next hnext]
      exact hvalid
    · rw [filed_next hnext]
      exact hfiled
    · cases hk : p.calls j with
      | down k => trivial
      | up k =>
        have hkept := hI.calls j
        rw [hk] at hkept
        obtain ⟨hkvalid, hkfiled, hkinf, hkhalved⟩ := hkept
        refine ⟨hkvalid, hkfiled, hkinf.mono fun r => has_next hnext,
          Call.Halved.of_next hnext hfinds (fun f hf => ?_) hkhalved⟩
        have hkf : (p.calls j).Live fun c => c.midway = some f := by
          rw [hk]
          exact hf
        exact ⟨fun hb => hbegins f hb j hkf, fun hm => hji (hI.single j i f hkf (hlive hm))⟩

/-- A call that stops where it owes nothing keeps the count. -/
theorem usageInv_crash (hI : UsageInv p) (hG : Paired p (.crash i)) (hc : p.calls i = .up c) :
    UsageInv (⟨p.store, Function.update p.calls i (.down c)⟩ : Calls ι) := by
  rw [Paired, hc] at hG
  have hold : ∀ {j f}, (Function.update p.calls i (.down c) j).Live (fun c => c.midway = some f) →
      (p.calls j).Live fun c => c.midway = some f := by
    intro j f hj
    exact (live_update_down hj).2
  refine ⟨hI.books.quiet rfl rfl fun f => ⟨fun ⟨j, hj⟩ => ⟨j, hold hj⟩, fun ⟨j, hj⟩ => ⟨j, ?_⟩⟩,
    hI.sized, fun j k f hj hk => hI.single j k f (hold hj) (hold hk), ?_⟩
  · have hne : j ≠ i := by
      rintro rfl
      rw [hc] at hj
      exact absurd (hG.symm.trans hj) nofun
    change (Function.update p.calls i (.down c) j).Live _
    rw [Function.update_of_ne hne]
    exact hj
  · exact keeps_update_down hI.calls

/-- The count is right in every state of such a run. -/
theorem usageInv_run (hI : UsageInv p) (h : Run (Pool.step (fileMachine cfg)) Paired p q) :
    UsageInv q := by
  refine Pool.invariant (I := UsageInv) hI ?_ ?_ ?_ h
  · intro p i uuid c s' c' hI hG hc hnext
    exact usageInv_step hI hG hc hnext
  · intro p i c hI hG hc
    exact usageInv_crash hI hG hc
  · rintro p ⟨ms⟩ hI -
    refine ⟨hI.books.quiet rfl rfl fun f => Iff.rfl, hI.sized, hI.single, fun j => ?_⟩
    refine (hI.calls j).imp fun k ⟨hvalid, hfiled, hinf, hhalved⟩ => ⟨hvalid, hfiled,
      hinf.mono fun r hr => hr, ?_⟩
    unfold Call.Halved at hhalved ⊢
    exact hhalved

/-- Nothing of the call is done, or all. -/
def Call.atRest : Call → Bool
  | .requestUploadUrl _ .generate | .requestUploadUrl _ (.returned _ _)
  | .requestUploadUrl _ (.threw _) | .requestUploadUrl _ .failed | .virusScan _ _ .start
  | .virusScan _ _ .returned | .fileCleanup .select | .fileCleanup .returned
  | .updateStorageUsed _ _ _ => true
  | _ => false

omit [DecidableEq ι] in
theorem not_midway_of_atRest (h : ∀ i, (p.calls i).Keeps fun c => c.atRest) (f : String) :
    ¬ Midway p f := by
  rintro ⟨j, hj⟩
  obtain ⟨k, hk, hmid⟩ := hj.exists
  have hrest := h j
  rw [hk] at hrest
  unfold Call.midway at hmid
  split at hmid <;> first | cases hrest | cases hmid

/-- **The storage in use is what the files take**, whenever no call is in progress. -/
theorem usage_exact (hstart : ∀ i, (p.calls i).Live fun c => c.fresh ∧ c.filed)
    (h₀ : ∀ orgId org, p.store.orgs orgId = some org →
      org.storageUsedBytes = p.store.usage orgId)
    (hsized : ∀ r ∈ p.store.files.rows, 0 ≤ r.sizeBytes)
    (h : Run (Pool.step (fileMachine cfg)) Paired p q)
    (hrest : ∀ i, (q.calls i).Keeps fun c => c.atRest) {orgId : String} {org : OrgRow}
    (horg : q.store.orgs orgId = some org) : org.storageUsedBytes = q.store.usage orgId := by
  have hnone : ∀ f, ¬ Midway p f := by
    rintro f ⟨j, hj⟩
    obtain ⟨k, hk, hfresh, -⟩ := (hstart j).exists
    rw [hk, Proc.live_up, (halved_of_fresh (s := p.store) hfresh).2] at hj
    cases hj
  have hI : UsageInv p := by
    refine ⟨fun o org ho => ?_, sized_of_rows hsized, fun i _ f hi _ => absurd ⟨i, hi⟩ (hnone f),
      fun i => ?_⟩
    · rw [total_of_rest hnone]
      exact h₀ o org ho
    · obtain ⟨c, hc, hfresh, hfiled⟩ := (hstart i).exists
      rw [hc]
      exact ⟨valid_of_fresh hfresh, hfiled, informed_of_fresh hfresh, (halved_of_fresh hfresh).1⟩
  rw [(usageInv_run hI h).books orgId org horg]
  exact total_of_rest (not_midway_of_atRest hrest)

end Runs

/-! ## A scan that runs twice -/

/-- A detector that sees no PNG. -/
def spoofedConfig : Config := { demoConfig with fileType := fun _ => some "application/pdf" }

/-- Two uploads, and two runs of the scan of the first file. -/
def scannedTwice : Calls (Fin 4) where
  store := { demoStore with orgs := fun o => if o = "o" then some ⟨0, 200⟩ else none }
  calls := ![.up (.requestUploadUrl demoUpload .generate),
    .up (.requestUploadUrl demoUpload .generate), .up (.virusScan true demoScan .start),
    .up (.virusScan true demoScan .start)]

theorem scannedTwice_fresh (i : Fin 4) :
    (scannedTwice.calls i).Live fun c => c.fresh ∧ c.filed := by
  revert i
  decide

theorem scannedTwice_usage (orgId : String) (org : OrgRow)
    (h : scannedTwice.store.orgs orgId = some org) :
    org.storageUsedBytes = scannedTwice.store.usage orgId := by
  change (if orgId = "o" then some (⟨0, 200⟩ : OrgRow) else none) = some org at h
  split at h
  · obtain rfl := Option.some.inj h
    rfl
  · cases h

/-- The two uploads, with the ids of their files. -/
def uploaded : List (Move (Fin 4) String Env) :=
  [.run 0 "k", .run 0 "f", .run 1 "k'", .run 1 "f'"]

/-- **Scanned twice, reclaimed twice**: with the second reclaim goes the storage of the other file,
which still takes its 60 bytes. -/
theorem scanned_twice_reclaims_twice :
    (∀ i, (scannedTwice.calls i).Live fun c => c.fresh ∧ c.filed)
      ∧ (∀ orgId org, scannedTwice.store.orgs orgId = some org →
        org.storageUsedBytes = scannedTwice.store.usage orgId)
      ∧ ∃ q, Run (Pool.step (fileMachine spoofedConfig)) anyStep scannedTwice q
        ∧ (∀ i, (q.calls i).Keeps fun c => c.atRest)
        ∧ q.store.orgs "o" = some ⟨0, 200⟩ ∧ q.store.usage "o" = 60 := by
  refine ⟨scannedTwice_fresh, scannedTwice_usage, ?_⟩
  obtain ⟨q, hq, h⟩ := exists_run_of_exec (Pool.step (fileMachine spoofedConfig)) anyStep
    scannedTwice (List.flatten [uploaded, List.replicate 5 (.run 2 ""),
      List.replicate 5 (.run 3 "")])
    (fun q => (∀ i, (q.calls i).Keeps fun c => c.atRest)
      ∧ q.store.orgs "o" = some ⟨0, 200⟩ ∧ q.store.usage "o" = 60) (by decide)
  exact ⟨q, hq, of_decide_eq_true h⟩

/-- Scanned once, the file gives back its own 60 bytes. -/
theorem scanned_once_exact :
    ∃ q, Run (Pool.step (fileMachine spoofedConfig)) Paired scannedTwice q
      ∧ q.store.orgs "o" = some ⟨60, 200⟩ ∧ 60 = q.store.usage "o" := by
  obtain ⟨q, hq, h⟩ := exists_run_of_exec (Pool.step (fileMachine spoofedConfig)) Paired
    scannedTwice (List.flatten [uploaded, List.replicate 5 (.run 2 "")])
    (fun q => (∀ i, (q.calls i).Keeps fun c => c.atRest) ∧ q.store.orgs "o" = some ⟨60, 200⟩)
    (by decide)
  obtain ⟨hrest, horg⟩ := of_decide_eq_true h
  exact ⟨q, hq, horg, usage_exact scannedTwice_fresh scannedTwice_usage
    (fun r hr => absurd hr List.not_mem_nil) hq hrest horg⟩

end WorkPlatform.File

import WorkPlatform.File.Download

/-!
# File/Cleanup — what the cleanup may take away

    virusScanWorkerJob     disabled: scan_status = 'clean'         (status stays 'pending')
                           enabled:  scan_status = 'clean', status = 'confirmed'
    fileCleanupWorkerJob   status = 'pending', older than an hour  ▸ reclaim ▸ delete

The verdict is in `scan_status`, the cleanup selects on `status`.  Where scanning is disabled a
clean file stays pending, so the cleanup removes it after an hour (`clean_file_removed`); and a
cleanup that has listed a file removes it even where the scan confirms it meanwhile.

As long as a job that marks a file clean takes it out of `pending`, and no cleanup has it on its
list then (`OffTheList`), no cleanup touches a file that was marked clean (`marked_file_spared`).
-/

namespace WorkPlatform.File

open Machinery

/-- The files a cleanup has still to remove. -/
def Call.listed : Call → List FileRow
  | .fileCleanup (.reclaim file rest) | .fileCleanup (.softDelete file rest) => file :: rest
  | _ => []

/-- The next statement of the call reclaims the bytes of the file, or deletes it. -/
def Call.removes (fileId : String) : Call → Bool
  | .fileCleanup (.reclaim file _) | .fileCleanup (.softDelete file _) => file.id = fileId
  | _ => false

/-- A scan job has marked the file clean. -/
def Store.marked (s : Store) (fileId : String) : Bool :=
  s.record.any fun x => x.1.clears ∧ x.2 = fileId

/-- A file is marked where one of the writes on record clears it. -/
theorem Store.marked_iff {s : Store} {fileId : String} :
    s.marked fileId = true ↔ ∃ w, w.clears = true ∧ (w, fileId) ∈ s.record := by
  unfold Store.marked
  rw [List.any_eq_true]
  constructor
  · rintro ⟨⟨w, f⟩, hmem, hx⟩
    obtain ⟨hw, rfl⟩ := of_decide_eq_true hx
    exact ⟨w, hw, hmem⟩
  · rintro ⟨w, hw, hmem⟩
    exact ⟨_, hmem, decide_eq_true ⟨hw, rfl⟩⟩

section Steps

variable {cfg : Config} {s s' : Store} {c c' : Call} {uuid fileId : String} {r r' : FileRow}

/-! ## One statement -/

/-- A file is marked clean by the statement, or was before. -/
theorem marked_next (h : next cfg s uuid c = some (s', c')) (hm : s'.marked fileId = true) :
    s.marked fileId = true ∨ ∃ w, w.clears = true ∧ c.write = some (w, fileId) := by
  obtain ⟨w, hw, hmem⟩ := Store.marked_iff.mp hm
  have hold : (w, fileId) ∈ s.record → s.marked fileId = true :=
    fun hmem => Store.marked_iff.mpr ⟨w, hw, hmem⟩
  cases stepped_next h with
  | write hc hs' =>
    rw [hs'] at hmem
    rcases mem_record_write hmem with hmem | ⟨rfl, rfl, -⟩
    · exact Or.inl (hold hmem)
    · exact Or.inr ⟨w, hw, hc⟩
  | reclaim _ hs' | add _ _ _ hs' =>
    rw [hs'] at hmem
    exact Or.inl (hold hmem)
  | upload _ _ _ _ _ hrecord _ | none _ _ _ _ hrecord _ =>
    rw [hrecord] at hmem
    exact Or.inl (hold hmem)

theorem pending_row {now : ℕ} {w : FileWrite} (h : (w.row now r).status = .pending) :
    r.status = .pending ∧ w = .markClean := by
  cases w with
  | markClean => exact ⟨h, rfl⟩
  | _ => cases h

/-- A file that is pending was pending, and not scanned just now; or it has just been uploaded. -/
theorem pending_next (h : next cfg s uuid c = some (s', c'))
    (hr' : s'.files.find fileId = some r') (hp : r'.status = .pending) :
    (∃ r, s.files.find fileId = some r ∧ r.status = .pending
      ∧ ∀ w, c.write = some (w, fileId) → w = .markClean)
      ∨ s.files.find fileId = none ∧ c.write = none := by
  have hsame : s'.files = s.files → c.write = none → ∃ r, s.files.find fileId = some r
      ∧ r.status = .pending ∧ ∀ w, c.write = some (w, fileId) → w = .markClean := by
    intro hfiles hc
    rw [hfiles] at hr'
    refine ⟨r', hr', hp, fun w hw => ?_⟩
    rw [hc] at hw
    cases hw
  cases stepped_next h with
  | @write w f hc hs' =>
    refine Or.inl ?_
    rw [hs', Store.find_write] at hr'
    rw [hc]
    split at hr'
    · rename_i hf
      obtain ⟨r, hr, rfl⟩ := Option.map_eq_some_iff.mp hr'
      obtain ⟨hpending, rfl⟩ := pending_row hp
      refine ⟨r, hr, hpending, ?_⟩
      rintro _ ⟨⟩
      rfl
    · rename_i hf
      refine ⟨r', hr', hp, ?_⟩
      rintro _ ⟨⟩
      exact absurd rfl hf
  | reclaim hc hs' =>
    refine Or.inl (hsame (by rw [hs']; rfl) ?_)
    cases c with
    | virusScan enabled job pc => cases pc <;> first | rfl | cases hc
    | fileCleanup pc => cases pc <;> first | rfl | cases hc
    | _ => rfl
  | upload hc _ _ _ hfiles _ _ =>
    subst hc
    rw [Table.find_insert hfiles] at hr'
    split at hr'
    · rename_i hid
      rw [← hid]
      exact Or.inr ⟨(Table.insert_eq_some hfiles).1, rfl⟩
    · refine Or.inl ⟨r', hr', hp, ?_⟩
      rintro _ ⟨⟩
  | add hc _ _ hs' =>
    refine Or.inl (hsame (by rw [hs']; rfl) ?_)
    rw [hc]
    rfl
  | none hc _ _ hfiles _ _ => exact Or.inl (hsame hfiles hc)

theorem listed_loop (files : List FileRow) : (Call.fileCleanup (.loop files)).listed = files := by
  cases files <;> rfl

/-- A cleanup has on its list what it had, or files it finds pending. -/
theorem listed_next (h : next cfg s uuid c = some (s', c')) (hr : r ∈ c'.listed) :
    r ∈ c.listed ∨ s.files.find r.id = some r ∧ r.status = .pending := by
  cases c with
  | fileCleanup pc =>
    obtain ⟨pc', hpc, rfl⟩ := pc_of_next h
    cases pc with
    | select =>
      obtain ⟨-, rfl⟩ := Prod.mk.inj (Option.some.inj hpc)
      rw [listed_loop] at hr
      obtain ⟨hmem, hstale⟩ := List.mem_filter.mp hr
      exact Or.inr ⟨Table.find_key hmem, (of_decide_eq_true hstale).1⟩
    | reclaim file rest =>
      obtain ⟨-, rfl⟩ := Prod.mk.inj (Option.some.inj hpc)
      exact Or.inl hr
    | softDelete file rest =>
      obtain ⟨-, rfl⟩ := Prod.mk.inj (Option.some.inj hpc)
      rw [listed_loop] at hr
      exact Or.inl (List.mem_cons_of_mem _ hr)
    | returned => cases hpc
  | _ =>
    obtain ⟨pc', -, rfl⟩ := pc_of_next h
    cases hr

theorem listed_of_fresh (h : c.fresh = true) : c.listed = [] := by
  unfold Call.fresh at h
  split at h <;> first | rfl | cases h

theorem listed_of_removes (h : c.removes fileId = true) : ∃ r ∈ c.listed, r.id = fileId := by
  unfold Call.removes at h
  split at h
  · exact ⟨_, List.mem_cons_self, of_decide_eq_true h⟩
  · exact ⟨_, List.mem_cons_self, of_decide_eq_true h⟩
  · cases h

end Steps

/-! ## Runs -/

section Runs

variable {ι : Type*} {cfg : Config}

/-- **A file that is marked clean is off the list**: it is not left pending, and no cleanup in
progress has listed it. -/
def OffTheList (p : Calls ι) : Move ι String Env → Prop
  | .run i _ => (p.calls i).Keeps fun c => ∀ x ∈ c.write, x.1.clears = true →
      (x.1 = .markClean → (p.store.files.find x.2).all fun r => r.status ≠ .pending)
        ∧ ∀ j, ¬ (p.calls j).Live fun c => ∃ r ∈ c.listed, r.id = x.2
  | _ => True

instance [Fintype ι] (p : Calls ι) : ∀ m : Move ι String Env, Decidable (OffTheList p m)
  | .run i _ => inferInstanceAs (Decidable ((p.calls i).Keeps fun c =>
      ∀ x ∈ c.write, x.1.clears = true →
        (x.1 = .markClean → (p.store.files.find x.2).all fun r => r.status ≠ .pending)
          ∧ ∀ j, ¬ (p.calls j).Live fun c => ∃ r ∈ c.listed, r.id = x.2))
  | .crash _ => inferInstanceAs (Decidable True)
  | .env _ => inferInstanceAs (Decidable True)

/-- What such runs keep. -/
structure CleanupInv (p : Calls ι) : Prop where
  recorded : p.store.Recorded
  status : ∀ fileId r, p.store.files.find fileId = some r → p.store.marked fileId = true →
    r.status ≠ .pending
  lists : ∀ i, (p.calls i).Keeps fun c => ∀ r ∈ c.listed, p.store.marked r.id = false

variable [DecidableEq ι] {p q : Calls ι}

/-- A statement keeps files that were marked off the lists of the clean-ups. -/
theorem cleanupInv_step {i : ι} {uuid : String} {c c' : Call} {s' : Store} (hI : CleanupInv p)
    (hG : OffTheList p (.run i uuid)) (hc : p.calls i = .up c)
    (hnext : next cfg p.store uuid c = some (s', c')) :
    CleanupInv (⟨s', Function.update p.calls i (.up c')⟩ : Calls ι) := by
  rw [OffTheList, hc] at hG
  -- a file on some list is not marked clean by this statement
  have hlisted : ∀ j k, p.calls j = .up k → ∀ r ∈ k.listed, s'.marked r.id = false := by
    intro j k hk r hr
    have hj := hI.lists j
    rw [hk] at hj
    by_contra hm
    rcases marked_next hnext (eq_true_of_ne_false hm) with hold | ⟨w, hw, hwrite⟩
    · rw [hj r hr] at hold
      cases hold
    · refine (hG _ hwrite hw).2 j ?_
      rw [hk]
      exact ⟨r, hr, rfl⟩
  refine ⟨recorded_next hnext hI.recorded, fun fileId r' hr' hm hp => ?_, ?_⟩
  · rcases pending_next hnext hr' hp with ⟨r, hr, hpending, hwrite⟩ | ⟨hnew, hquiet⟩
    · rcases marked_next hnext hm with hold | ⟨w, hw, hc⟩
      · exact hI.status fileId r hr hold hpending
      · have hstatus := (hG _ hc hw).1 (hwrite w hc)
        rw [hr] at hstatus
        exact of_decide_eq_true hstatus hpending
    · rcases marked_next hnext hm with hold | ⟨w, hw, hc⟩
      · obtain ⟨w, -, hmem⟩ := Store.marked_iff.mp hold
        have hsome := hI.recorded w fileId hmem
        rw [hnew] at hsome
        cases hsome
      · rw [hquiet] at hc
        cases hc
  · refine keeps_update_up (fun r hr => ?_) fun j _ => ?_
    · rcases listed_next hnext hr with hold | ⟨hfind, hpending⟩
      · exact hlisted i c hc r hold
      · by_contra hm
        rcases marked_next hnext (eq_true_of_ne_false hm) with hold | ⟨w, hw, hwrite⟩
        · exact hI.status r.id r hfind hold hpending
        · cases c with
          | fileCleanup pc =>
            cases pc with
            | softDelete file rest =>
              obtain ⟨rfl, -⟩ := Prod.mk.inj (Option.some.inj hwrite)
              cases hw
            | _ => cases hwrite
          | _ =>
            obtain ⟨pc', -, rfl⟩ := pc_of_next hnext
            cases hr
    · cases hk : p.calls j with
      | up k => exact hlisted j k hk
      | down k => trivial

/-- The invariant holds in every state of such a run. -/
theorem cleanupInv_run (hI : CleanupInv p)
    (h : Run (Pool.step (fileMachine cfg)) OffTheList p q) : CleanupInv q := by
  refine Pool.invariant (I := CleanupInv) hI ?_ ?_ ?_ h
  · intro p i uuid c s' c' hI hG hc hnext
    exact cleanupInv_step hI hG hc hnext
  · intro p i c hI _ _
    exact ⟨hI.recorded, hI.status, keeps_update_down hI.lists⟩
  · rintro p ⟨ms⟩ hI -
    exact ⟨hI.recorded, hI.status, hI.lists⟩

/-- **A file that was marked clean is spared**: no cleanup reclaims its bytes or deletes it. -/
theorem marked_file_spared (hstart : ∀ i, (p.calls i).Live fun c => c.fresh)
    (hrecord : p.store.record = [])
    (h : Run (Pool.step (fileMachine cfg)) OffTheList p q) {fileId : String}
    (hm : q.store.marked fileId = true) (i : ι) :
    ¬ (q.calls i).Live fun c => c.removes fileId := by
  have hnone : ∀ f, p.store.marked f = false := by
    intro f
    rw [Store.marked, hrecord]
    rfl
  have hI : CleanupInv p := by
    refine ⟨fun w f hmem => ?_, fun f r _ hm => ?_, fun i => ?_⟩
    · rw [hrecord] at hmem
      cases hmem
    · rw [hnone f] at hm
      cases hm
    · obtain ⟨c, hc, hfresh⟩ := (hstart i).exists
      rw [hc, Proc.keeps_up, listed_of_fresh hfresh]
      exact fun r hr => absurd hr List.not_mem_nil
  intro hlive
  obtain ⟨c, hc, hremoves⟩ := hlive.exists
  obtain ⟨r, hr, rfl⟩ := listed_of_removes hremoves
  have hlist := (cleanupInv_run hI h).lists i
  rw [hc] at hlist
  rw [hlist r hr] at hm
  cases hm

end Runs

/-! ## Scanning disabled, and an hour -/

/-- An upload, a scan job where scanning is disabled, and a cleanup. -/
def uploadScanCleanup (enabled : Bool) : Calls (Fin 3) where
  store := demoStore
  calls := ![.up (.requestUploadUrl demoUpload .generate),
    .up (.virusScan enabled demoScan .start), .up (.fileCleanup .select)]

theorem uploadScanCleanup_fresh (enabled : Bool) (i : Fin 3) :
    ((uploadScanCleanup enabled).calls i).Live fun c => c.fresh := by
  revert enabled i
  decide

/-- **A clean file is removed**: it was marked clean and stayed pending, so after an hour the
cleanup reclaims its bytes and deletes it. -/
theorem clean_file_removed :
    (∀ i, ((uploadScanCleanup false).calls i).Live fun c => c.fresh)
      ∧ (uploadScanCleanup false).store.record = []
      ∧ ∃ q r, Run (Pool.step (fileMachine demoConfig)) anyStep (uploadScanCleanup false) q
        ∧ q.store.marked "f" = true ∧ ((q.calls 2).Live fun c => c.removes "f")
        ∧ q.step (fileMachine demoConfig) (.run 2 "" : Move (Fin 3) String Env) = some r
        ∧ (.softDelete, "f") ∈ r.store.record ∧ r.store.orgs "o" = some ⟨0, 100⟩ := by
  refine ⟨uploadScanCleanup_fresh false, rfl, ?_⟩
  obtain ⟨q, r, hq, -, hr, h⟩ := exists_step_of_exec (Pool.step (fileMachine demoConfig)) anyStep
    (uploadScanCleanup false) [.run 0 "k", .run 0 "f", .run 1 "", .env (.tick 3600001),
      .run 2 "", .run 2 ""] (.run 2 "")
    (fun q r => q.store.marked "f" = true ∧ ((q.calls 2).Live fun c => c.removes "f")
      ∧ (.softDelete, "f") ∈ r.store.record ∧ r.store.orgs "o" = some ⟨0, 100⟩) (by decide)
  obtain ⟨hm, hremoves, hdeleted, horg⟩ := of_decide_eq_true h
  exact ⟨q, r, hq, hm, hremoves, hr, hdeleted, horg⟩

/-- With scanning enabled, the file is confirmed and the cleanup passes it by. -/
theorem confirmed_file_spared :
    ∃ q, Run (Pool.step (fileMachine demoConfig)) OffTheList (uploadScanCleanup true) q
      ∧ q.store.marked "f" = true ∧ q.calls 2 = .up (.fileCleanup .returned)
      ∧ ∀ i, ¬ (q.calls i).Live fun c => c.removes "f" := by
  obtain ⟨q, hq, h⟩ := exists_run_of_exec (Pool.step (fileMachine demoConfig)) OffTheList
    (uploadScanCleanup true) [.run 0 "k", .run 0 "f", .run 1 "", .run 1 "", .run 1 "",
      .env (.tick 3600001), .run 2 ""]
    (fun q => q.store.marked "f" = true ∧ q.calls 2 = .up (.fileCleanup .returned)) (by decide)
  obtain ⟨hm, hreturned⟩ := of_decide_eq_true h
  exact ⟨q, hq, hm, hreturned,
    marked_file_spared (uploadScanCleanup_fresh true) rfl hq hm⟩

end WorkPlatform.File

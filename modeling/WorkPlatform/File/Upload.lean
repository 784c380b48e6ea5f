import WorkPlatform.File.Calls
import WorkPlatform.Machinery.Locks
import WorkPlatform.Machinery.Transaction

/-!
# File/Upload — the statements of `requestUploadUrl`

    checks, generateUploadUrl ▸ connect ▸ BEGIN ▸ UPDATE quota ▸ INSERT file ▸ COMMIT ▸ returned
                                            │         │  no row       │           │
                                            └─────────┴────▸ ROLLBACK ◂───────────┘ ──▸ thrown

Every statement can fail, be done while the caller is told that it failed, or be the last one
before a crash.  The UPDATE locks the row of the organisation and the INSERT the id of the file,
until the transaction is over; nobody else writes what is locked (`Allowed`).

What a call has made of the store is put together from its own statements: nothing, or its file
and the storage for it, once (`upload_exact`).  Only a COMMIT that is done while its answer is lost
makes a call fail that has stored its upload (`upload_stored_but_failed`).
-/

namespace WorkPlatform.File.Uploading

open Machinery

/-! ## Statements -/

inductive Statement
  | reserveQuota (orgId : String) (sizeBytes : ℤ)
  | insertFile (r : FileRow)

/-- A new version of a row of `organizations`, or a row of `files`. -/
inductive Write
  | org (orgId : String) (org : OrgRow)
  | file (r : FileRow)
  deriving DecidableEq

def write (s : Store) : Write → Store
  | .org orgId org => s.setOrg orgId org
  | .file r => (s.insertFile r).getD s

/-- The UPDATE may find no row to write; the INSERT is refused where the id is taken. -/
def exec (s : Store) : Statement → Option (List Write)
  | .reserveQuota orgId sizeBytes =>
    match s.orgs orgId with
    | none => some []
    | some org =>
      if org.storageUsedBytes + sizeBytes ≤ org.storageQuotaBytes then
        some [.org orgId (org.plus sizeBytes)]
      else some []
  | .insertFile r => (s.insertFile r).map fun _ => [.file r]

def engine : Engine Store Statement Write := ⟨write, exec⟩

/-! ## Calls -/

/-- The storage key, and the URL that was generated for it. -/
structure Signed where
  storageKey : String
  url : String
  deriving DecidableEq

/-- The statement a call runs next; `startedAt` is the `NOW()` of its transaction. -/
inductive Pc
  | generate
  | connect (spec : Signed)
  | start (spec : Signed)
  | reserve (spec : Signed) (startedAt : ℕ)
  | insert (spec : Signed) (startedAt : ℕ) (tx : List Write)
  | commit (spec : Signed) (startedAt : ℕ) (tx : List Write) (fileId : String)
  | rollback (error : Option AppError)
  | returned (fileId url : String)
  | threw (e : AppError)
  | failed
  deriving DecidableEq

/-- The UUID that is drawn, and how the statement goes. -/
structure Draw where
  uuid : String
  outcome : Outcome

/-- What comes of an error `err`: it is thrown after ROLLBACK, or that of ROLLBACK is. -/
def thrown (d : Draw) : Option AppError → Pc
  | some e => if d.outcome.answered then .threw e else .failed
  | none => .failed

/-- The next statement, and the code after it. -/
def statement (cfg : Config) (s : Store) (a : UploadArgs) (d : Draw) : Pc → Option (Store × Pc)
  | .generate => some (s,
      if a.mimeType ∉ mimeAllowlist then .threw (invalidMimeType a.mimeType)
      else if a.sizeBytes > maxBytes a.planTier then
        .threw (fileTooLarge (maxBytes a.planTier) a.planTier)
      else
        match cfg.generateUploadUrl d.uuid a.mimeType a.sizeBytes with
        | none => .failed
        | some url => .connect ⟨d.uuid, url⟩)
  | .connect spec => some (s, if d.outcome.answered then .start spec else .failed)
  | .start spec => some (s, if d.outcome.answered then .reserve spec s.now else .rollback none)
  | .reserve spec startedAt => some (s,
      if d.outcome.answered then
        match engine.statement s [] (.reserveQuota a.orgId a.sizeBytes) with
        | none => .rollback none
        | some [] => .rollback (some quotaExceeded)
        | some tx => .insert spec startedAt tx
      else .rollback none)
  | .insert spec startedAt tx => some (s,
      if d.outcome.answered then
        match engine.statement s tx (.insertFile (a.fileRow startedAt d.uuid spec.storageKey)) with
        | none => .rollback none
        | some tx => .commit spec startedAt tx d.uuid
      else .rollback none)
  | .commit spec _ tx fileId => some
      (if d.outcome.took then engine.view s tx else s,
        if d.outcome.answered then .returned fileId spec.url else .rollback none)
  | .rollback error => some (s, thrown d error)
  | .returned _ _ | .threw _ | .failed => none

/-- A statement that was run: where the call was, how it went, and the store before and after. -/
structure Ran where
  pc : Pc
  outcome : Outcome
  before : Store
  after : Store

/-- A call, with its statements on record. -/
structure Call where
  args : UploadArgs
  pc : Pc
  ran : List Ran

def next (cfg : Config) (s : Store) (c : Call) (d : Draw) : Option (Store × Call) :=
  (statement cfg s c.args d c.pc).map fun x =>
    (x.1, { c with pc := x.2, ran := c.ran ++ [⟨c.pc, d.outcome, s, x.1⟩] })

/-- Time passes, or someone else commits. -/
inductive Env
  | tick (ms : ℕ)
  | commit (s : Store)

def env (s : Store) : Env → Store
  | .tick ms => { s with now := s.now + ms }
  | .commit s' => s'

def machine (cfg : Config) : Machine Store Call Draw Env := ⟨next cfg, env⟩

/-- Calls of `requestUploadUrl`. -/
abbrev Uploads (ι : Type*) := Pool ι Store Call

/-! ## Locks -/

/-- What a transaction locks. -/
inductive Lock
  | org (orgId : String)
  | file (fileId : String)
  deriving DecidableEq

/-- What the transaction of a call has locked. -/
def Call.holds (c : Call) : List Lock :=
  match c.pc with
  | .insert _ _ _ => [.org c.args.orgId]
  | .commit _ _ _ fileId => [.org c.args.orgId, .file fileId]
  | _ => []

/-- What the next statement is to lock: the UPDATE locks the row it finds. -/
def Call.takes (s : Store) (c : Call) (d : Draw) : List Lock :=
  match c.pc with
  | .reserve _ _ =>
    match exec s (.reserveQuota c.args.orgId c.args.sizeBytes) with
    | some (_ :: _) => [.org c.args.orgId]
    | _ => []
  | .insert _ _ _ => [.file d.uuid]
  | _ => []

/-- Another commit leaves alone what is locked. -/
def Respects (s s' : Store) : Lock → Prop
  | .org orgId => s'.orgs orgId = s.orgs orgId
  | .file fileId => s.files.find fileId = none → s'.files.find fileId = none

variable {ι : Type*}

/-- **What is assumed of PostgreSQL**: a statement waits for the end of the transactions that have
locked what it is to write. -/
def Allowed (p : Uploads ι) : Move ι Draw Env → Prop
  | .run i d => (p.calls i).Keeps fun c =>
      ∀ l ∈ c.takes p.store d, ∀ j, ¬ (p.calls j).Live (l ∈ ·.holds)
  | .env (.commit s') => ∀ i, (p.calls i).Keeps fun c => ∀ l ∈ c.holds, Respects p.store s' l
  | _ => True

/-! ## What a call has made of the store -/

/-- Files and storage are as before. -/
def Ran.Idle (m : Ran) : Prop := m.after.orgs = m.before.orgs ∧ m.after.files = m.before.files

/-- A COMMIT that is done. -/
def Ran.commits (m : Ran) : Bool :=
  match m.pc with
  | .commit _ _ _ _ => m.outcome.took
  | _ => false

/-- **One upload**: a pending file with a new id, and the storage for its size. -/
structure Ran.Stores (m : Ran) (a : UploadArgs) (fileId : String) : Prop where
  file : m.before.files.find fileId = none ∧ ∃ now storageKey,
    m.after.files.rows = a.fileRow now fileId storageKey :: m.before.files.rows
  storage : ∃ org, m.before.orgs a.orgId = some org ∧
    org.storageUsedBytes + a.sizeBytes ≤ org.storageQuotaBytes ∧
      m.after.orgs = Function.update m.before.orgs a.orgId (some (org.plus a.sizeBytes))

/-- No statement of the call has changed files or storage. -/
def Call.Nothing (c : Call) : Prop := ∀ m ∈ c.ran, m.Idle

/-- One statement has, a COMMIT, and what it has made is one upload. -/
def Call.Once (c : Call) (fileId : String) (outcome : Outcome) : Prop :=
  ∃ l m r, c.ran = l ++ m :: r ∧ (∀ x ∈ l ++ r, x.Idle) ∧ m.commits ∧ m.outcome = outcome ∧
    m.Stores c.args fileId

/-! ## One statement -/

section

variable {s s' : Store} {a : UploadArgs} {d : Draw} {pc pc' : Pc} {tx : List Write}

/-- What the UPDATE writes. -/
theorem reserveQuota_eq_some (h : engine.statement s [] (.reserveQuota a.orgId a.sizeBytes) = some tx)
    (hne : tx ≠ []) : ∃ org, s.orgs a.orgId = some org ∧
      org.storageUsedBytes + a.sizeBytes ≤ org.storageQuotaBytes ∧
        tx = [.org a.orgId (org.plus a.sizeBytes)] := by
  obtain ⟨ws, hws, rfl⟩ := Engine.statement_eq_some h
  change exec s (.reserveQuota a.orgId a.sizeBytes) = some tx at hws
  simp only [exec] at hws
  split at hws
  case h_1 => exact absurd (Option.some.inj hws).symm hne
  case h_2 org horg =>
    split at hws
    case isTrue hfits => exact ⟨org, horg, hfits, (Option.some.inj hws).symm⟩
    case isFalse => exact absurd (Option.some.inj hws).symm hne

/-- What the transaction has written after the INSERT. -/
theorem insertFile_eq_some {org : OrgRow} {orgId : String} {r : FileRow}
    (h : engine.statement s [.org orgId org] (.insertFile r) = some tx) :
    s.files.find r.id = none ∧ tx = [.org orgId org, .file r] := by
  obtain ⟨ws, hws, rfl⟩ := Engine.statement_eq_some h
  obtain ⟨s₁, hinsert, rfl⟩ := Option.map_eq_some_iff.mp hws
  obtain ⟨files, hfiles, -⟩ := Option.map_eq_some_iff.mp hinsert
  exact ⟨(Table.insert_eq_some hfiles).1, rfl⟩

/-- **What COMMIT makes of the store.** -/
theorem view_upload {org : OrgRow} {orgId : String} {r : FileRow} (hnew : s.files.find r.id = none) :
    (engine.view s [.org orgId org, .file r]).orgs = Function.update s.orgs orgId (some org) ∧
      (engine.view s [.org orgId org, .file r]).files.rows = r :: s.files.rows := by
  cases hinsert : s.files.insert r with
  | none =>
    obtain ⟨b, hb⟩ := Table.find_of_insert_none hinsert
    rw [hnew] at hb
    cases hb
  | some files =>
    have hview : engine.view s [.org orgId org, .file r] =
        { s.setOrg orgId org with files := files } := by
      simp only [Engine.view, List.foldl_cons, List.foldl_nil, engine, write, Store.insertFile]
      have hsame : (s.setOrg orgId org).files.insert r = some files := hinsert
      rw [hsame]
      rfl
    rw [hview]
    exact ⟨rfl, (Table.insert_eq_some hinsert).2⟩

/-- Before the transaction is over. -/
def Pc.Going : Pc → Prop
  | .generate | .connect _ | .start _ | .reserve _ _ | .insert _ _ _ => True
  | _ => False

/-- No locks, and no COMMIT. -/
def Pc.Plain : Pc → Prop
  | .insert _ _ _ | .commit _ _ _ _ | .returned _ _ => False
  | _ => True

/-- The cases of `statement`. -/
inductive Does (s : Store) (a : UploadArgs) (d : Draw) (pc : Pc) : Store → Pc → Prop
  | before {pc' : Pc} (h : pc.Going) (hpc' : pc'.Plain) : Does s a d pc s pc'
  | reserved {spec : Signed} {startedAt : ℕ} {tx : List Write} (h : pc = .reserve spec startedAt)
      (htx : engine.statement s [] (.reserveQuota a.orgId a.sizeBytes) = some tx) (hne : tx ≠ []) :
      Does s a d pc s (.insert spec startedAt tx)
  | inserted {spec : Signed} {startedAt : ℕ} {tx tx' : List Write}
      (h : pc = .insert spec startedAt tx)
      (htx : engine.statement s tx (.insertFile (a.fileRow startedAt d.uuid spec.storageKey)) =
        some tx') :
      Does s a d pc s (.commit spec startedAt tx' d.uuid)
  | discarded {spec : Signed} {startedAt : ℕ} {tx : List Write} {fileId : String}
      (h : pc = .commit spec startedAt tx fileId) : Does s a d pc s (.rollback none)
  | committed {spec : Signed} {startedAt : ℕ} {tx : List Write} {fileId : String}
      (h : pc = .commit spec startedAt tx fileId) (ho : d.outcome = .ok) :
      Does s a d pc (engine.view s tx) (.returned fileId spec.url)
  | unanswered {spec : Signed} {startedAt : ℕ} {tx : List Write} {fileId : String}
      (h : pc = .commit spec startedAt tx fileId) (ho : d.outcome = .lost) :
      Does s a d pc (engine.view s tx) (.rollback none)
  | rolledBack {error : Option AppError} (h : pc = .rollback error) :
      Does s a d pc s (thrown d error)

/-- What each statement of an upload does to the transactions. -/
theorem does_of_statement {cfg : Config} (h : statement cfg s a d pc = some (s', pc')) :
    Does s a d pc s' pc' := by
  cases pc with
  | generate =>
    obtain ⟨rfl, rfl⟩ := Prod.mk.inj (Option.some.inj h)
    refine .before trivial ?_
    split
    · trivial
    · split
      · trivial
      · split <;> trivial
  | connect spec =>
    obtain ⟨rfl, rfl⟩ := Prod.mk.inj (Option.some.inj h)
    refine .before trivial ?_
    split_ifs <;> trivial
  | start spec =>
    obtain ⟨rfl, rfl⟩ := Prod.mk.inj (Option.some.inj h)
    refine .before trivial ?_
    split_ifs <;> trivial
  | reserve spec startedAt =>
    obtain ⟨rfl, rfl⟩ := Prod.mk.inj (Option.some.inj h)
    split
    case isFalse => exact .before trivial trivial
    case isTrue =>
      split
      case h_1 => exact .before trivial trivial
      case h_2 => exact .before trivial trivial
      case h_3 tx hne htx => exact .reserved rfl htx hne
  | insert spec startedAt tx =>
    obtain ⟨rfl, rfl⟩ := Prod.mk.inj (Option.some.inj h)
    split
    case isFalse => exact .before trivial trivial
    case isTrue =>
      split
      case h_1 => exact .before trivial trivial
      case h_2 htx => exact .inserted rfl htx
  | commit spec startedAt tx fileId =>
    obtain ⟨rfl, rfl⟩ := Prod.mk.inj (Option.some.inj h)
    cases ho : d.outcome
    · exact .committed rfl ho
    · exact .unanswered rfl ho
    · exact .discarded rfl
  | rollback error =>
    obtain ⟨rfl, rfl⟩ := Prod.mk.inj (Option.some.inj h)
    exact .rolledBack rfl
  | returned | threw | failed => cases h

end

/-! ## What a call knows, and what it has done -/

/-- The row of the organisation is as the UPDATE has found it, and the id of the file is free. -/
def Call.Known (s : Store) (c : Call) : Prop :=
  match c.pc with
  | .insert _ _ tx => ∃ org, s.orgs c.args.orgId = some org ∧
      org.storageUsedBytes + c.args.sizeBytes ≤ org.storageQuotaBytes ∧
        tx = [.org c.args.orgId (org.plus c.args.sizeBytes)]
  | .commit spec startedAt tx fileId => ∃ org, s.orgs c.args.orgId = some org ∧
      org.storageUsedBytes + c.args.sizeBytes ≤ org.storageQuotaBytes ∧
        s.files.find fileId = none ∧ tx = [.org c.args.orgId (org.plus c.args.sizeBytes),
          .file (c.args.fileRow startedAt fileId spec.storageKey)]
  | _ => True

/-- What the statements of a call have done by a control point. -/
def Call.Told (c : Call) : Prop :=
  match c.pc with
  | .returned fileId _ => c.Once fileId .ok
  | .rollback _ | .threw _ | .failed => c.Nothing ∨ ∃ fileId, c.Once fileId .lost
  | _ => c.Nothing

section Steps

variable {s s' : Store} {c c' : Call} {d : Draw} {pc' : Pc} {m : Ran}

/-- The call after one more statement. -/
def Call.after (c : Call) (pc : Pc) (m : Ran) : Call := { c with pc := pc, ran := c.ran ++ [m] }

theorem Call.Nothing.after (h : c.Nothing) (hm : m.Idle) : (c.after pc' m).Nothing := by
  intro x hx
  rcases List.mem_append.mp hx with hold | hnew
  · exact h x hold
  · rw [List.mem_singleton.mp hnew]
    exact hm

/-- A statement that changes nothing leaves it one upload. -/
theorem Call.Once.after {fileId : String} {outcome : Outcome} (h : c.Once fileId outcome)
    (hm : m.Idle) : (c.after pc' m).Once fileId outcome := by
  obtain ⟨l, x, r, hran, hidle, hrest⟩ := h
  refine ⟨l, x, r ++ [m], ?_, fun y hy => ?_, hrest⟩
  · simp [Call.after, hran]
  · rw [← List.append_assoc] at hy
    rcases List.mem_append.mp hy with hold | hnew
    · exact hidle y hold
    · rw [List.mem_singleton.mp hnew]
      exact hm

theorem Call.Nothing.once {fileId : String} (h : c.Nothing) (pc' : Pc) (hm : m.commits)
    (hstores : m.Stores c.args fileId) : (c.after pc' m).Once fileId m.outcome :=
  ⟨c.ran, m, [], rfl, fun x hx => h x (by simpa using hx), hm, rfl, hstores⟩

theorem told_of_nothing (h : c.Nothing) (hpc : c.pc.Plain) : c.Told := by
  obtain ⟨a, pc, ran⟩ := c
  cases pc with
  | rollback | threw | failed => exact Or.inl h
  | returned => exact hpc.elim
  | _ => exact h

/-- A call that is still going has changed nothing. -/
theorem Call.Told.nothing (h : c.Told) (hpc : c.pc.Going ∨ ∃ spec startedAt tx fileId,
    c.pc = .commit spec startedAt tx fileId) : c.Nothing := by
  obtain ⟨a, pc, ran⟩ := c
  cases pc with
  | rollback | threw | failed | returned =>
    rcases hpc with hgoing | ⟨_, _, _, _, heq⟩
    · exact hgoing.elim
    · cases heq
  | _ => exact h

/-- An error is thrown, or another one in its place. -/
theorem thrown_cases (d : Draw) (error : Option AppError) :
    thrown d error = .failed ∨ ∃ e, thrown d error = .threw e := by
  cases error with
  | none => exact Or.inl rfl
  | some e =>
    rw [thrown]
    split
    · exact Or.inr ⟨e, rfl⟩
    · exact Or.inl rfl

theorem told_thrown {error : Option AppError} (h : c.Nothing ∨ ∃ fileId, c.Once fileId .lost)
    (hpc : c.pc = thrown d error) : c.Told := by
  rcases thrown_cases d error with hfailed | ⟨e, hthrew⟩
  · rw [Call.Told, hpc, hfailed]
    exact h
  · rw [Call.Told, hpc, hthrew]
    exact h

/-- What COMMIT does is one upload. -/
theorem stores_of_commit {spec : Signed} {startedAt : ℕ} {tx : List Write} {fileId : String}
    (hc : c.Known s) (hpc : c.pc = .commit spec startedAt tx fileId) (outcome : Outcome) :
    (⟨c.pc, outcome, s, engine.view s tx⟩ : Ran).Stores c.args fileId := by
  rw [Call.Known, hpc] at hc
  obtain ⟨org, horg, hfits, hfree, rfl⟩ := hc
  obtain ⟨horgs, hrows⟩ := @view_upload s (org.plus c.args.sizeBytes) c.args.orgId
    (c.args.fileRow startedAt fileId spec.storageKey) hfree
  exact ⟨⟨hfree, startedAt, spec.storageKey, hrows⟩, org, horg, hfits, horgs⟩

/-- A COMMIT that is done makes one upload of no uploads. -/
theorem once_of_commit {spec : Signed} {startedAt : ℕ} {tx : List Write} {fileId : String}
    {outcome : Outcome} (hc : c.Known s) (hpc : c.pc = .commit spec startedAt tx fileId)
    (htold : c.Told) (hdone : outcome.took) (pc' : Pc) :
    (c.after pc' ⟨c.pc, outcome, s, engine.view s tx⟩).Once fileId outcome := by
  have hcommits : (⟨c.pc, outcome, s, engine.view s tx⟩ : Ran).commits := by
    rw [Ran.commits, hpc]
    exact hdone
  exact (htold.nothing (Or.inr ⟨_, _, _, _, hpc⟩)).once pc' hcommits (stores_of_commit hc hpc outcome)

/-- **COMMIT is the one move** of the call that is told of no statements, at the `NOW()` of the
transaction. -/
theorem uploadNext_of_commit {cfg : Config} {spec : Signed} {startedAt : ℕ} {tx : List Write}
    {fileId : String} (hc : c.Known s) (hpc : c.pc = .commit spec startedAt tx fileId) :
    uploadNext cfg { s with now := startedAt } c.args fileId (.reserve spec.storageKey spec.url) =
      some ({ engine.view s tx with now := startedAt }, .returned fileId spec.url) := by
  rw [Call.Known, hpc] at hc
  obtain ⟨org, horg, hfits, hfree, rfl⟩ := hc
  cases hinsert : s.files.insert (c.args.fileRow startedAt fileId spec.storageKey) with
  | none =>
    obtain ⟨b, hb⟩ := Table.find_of_insert_none hinsert
    cases hfree.symm.trans hb
  | some files =>
    simp only [uploadNext, Store.addStorageUsed, horg, if_pos hfits, Store.insertFile,
      Store.setOrg, hinsert, Engine.view, List.foldl_cons, List.foldl_nil, engine, write,
      Option.map_some, Option.getD_some]

/-- **One statement, and what the call has done.** -/
theorem told_next (h : Does s c.args d c.pc s' pc') (hc : c.Known s) (htold : c.Told) :
    (c.after pc' ⟨c.pc, d.outcome, s, s'⟩).Told := by
  cases h with
  | before hgoing hplain =>
    exact told_of_nothing ((htold.nothing (Or.inl hgoing)).after ⟨rfl, rfl⟩) hplain
  | reserved hpc | inserted hpc =>
    have hgoing : c.pc.Going := by rw [hpc]; trivial
    exact (htold.nothing (Or.inl hgoing)).after ⟨rfl, rfl⟩
  | discarded hpc =>
    exact Or.inl ((htold.nothing (Or.inr ⟨_, _, _, _, hpc⟩)).after ⟨rfl, rfl⟩)
  | @committed spec _ tx fileId hpc ho =>
    rw [ho]
    exact once_of_commit hc hpc htold rfl (.returned fileId spec.url)
  | @unanswered _ _ tx fileId hpc ho =>
    rw [ho]
    exact Or.inr ⟨fileId, once_of_commit hc hpc htold rfl (.rollback none)⟩
  | @rolledBack error hpc =>
    have htold' : c.Nothing ∨ ∃ fileId, c.Once fileId .lost := by
      rw [Call.Told, hpc] at htold
      exact htold
    refine told_thrown (htold'.imp (fun h => h.after ⟨rfl, rfl⟩) ?_) rfl
    exact fun ⟨fileId, h⟩ => ⟨fileId, h.after ⟨rfl, rfl⟩⟩

/-- What is locked is as before. -/
theorem Call.Known.congr (hc : c.Known s) (h : ∀ l ∈ c.holds, Respects s s' l) : c.Known s' := by
  obtain ⟨a, pc, ran⟩ := c
  cases pc with
  | insert spec startedAt tx =>
    obtain ⟨org, horg, hrest⟩ := hc
    exact ⟨org, (h (.org a.orgId) (by simp [Call.holds])).trans horg, hrest⟩
  | commit spec startedAt tx fileId =>
    obtain ⟨org, horg, hfits, hfree, htx⟩ := hc
    exact ⟨org, (h (.org a.orgId) (by simp [Call.holds])).trans horg, hfits,
      h (.file fileId) (by simp [Call.holds]) hfree, htx⟩
  | _ => trivial

/-- **A statement leaves alone what its call has not locked.** -/
theorem respects_next (h : Does s c.args d c.pc s' pc') (hc : c.Known s) {l : Lock}
    (hl : l ∉ c.holds) : Respects s s' l := by
  have hcommit : ∀ {spec : Signed} {startedAt : ℕ} {tx : List Write} {fileId : String},
      c.pc = .commit spec startedAt tx fileId → Respects s (engine.view s tx) l := by
    intro spec startedAt tx fileId hpc
    obtain ⟨⟨-, now, storageKey, hrows⟩, org, -, -, horgs⟩ := stores_of_commit hc hpc .ok
    rw [Call.holds, hpc, List.mem_pair, not_or] at hl
    cases l with
    | org orgId =>
      have hne : orgId ≠ c.args.orgId := fun heq => hl.1 (by rw [heq])
      exact (congrFun horgs orgId).trans (Function.update_of_ne hne _ _)
    | file id =>
      have hne : fileId ≠ id := fun heq => hl.2 (by rw [heq])
      intro hfree
      change List.find? _ _ = none at hfree ⊢
      rw [hrows, List.find?_cons, hfree]
      simp [UploadArgs.fileRow, hne]
  have hsame : Respects s s l := by
    cases l with
    | org => exact rfl
    | file => exact fun hfree => hfree
  cases h with
  | committed hpc | unanswered hpc => exact hcommit hpc
  | _ => exact hsame

theorem thrown_plain (d : Draw) (error : Option AppError) : (thrown d error).Plain := by
  rcases thrown_cases d error with hfailed | ⟨e, hthrew⟩
  · rw [hfailed]
    trivial
  · rw [hthrew]
    trivial

theorem known_of_plain (h : c.pc.Plain) : c.Known s := by
  obtain ⟨a, pc, ran⟩ := c
  cases pc with
  | insert | commit | returned => exact h.elim
  | _ => trivial

theorem holds_of_plain (h : c.pc.Plain) : c.holds = [] := by
  obtain ⟨a, pc, ran⟩ := c
  cases pc with
  | insert | commit | returned => exact h.elim
  | _ => rfl

/-- What the call knows after the statement. -/
theorem known_next (h : Does s c.args d c.pc s' pc') (hc : c.Known s) (m : Ran) :
    (c.after pc' m).Known s' := by
  cases h with
  | before _ hplain => exact known_of_plain hplain
  | reserved hpc htx hne => exact reserveQuota_eq_some htx hne
  | inserted hpc htx =>
    rw [Call.Known, hpc] at hc
    obtain ⟨org, horg, hfits, rfl⟩ := hc
    obtain ⟨hfree, rfl⟩ := insertFile_eq_some htx
    exact ⟨org, horg, hfits, hfree, rfl⟩
  | @rolledBack error => exact known_of_plain (thrown_plain d error)
  | discarded | committed | unanswered => trivial

/-- Locks are taken before they are held. -/
theorem holds_next (h : Does s c.args d c.pc s' pc') (m : Ran) {l : Lock}
    (hl : l ∈ (c.after pc' m).holds) : l ∈ c.holds ∨ l ∈ c.takes s d := by
  cases h with
  | before _ hplain =>
    rw [holds_of_plain hplain] at hl
    cases hl
  | @reserved spec startedAt tx hpc htx hne =>
    obtain ⟨org, -, -, rfl⟩ := reserveQuota_eq_some htx hne
    obtain ⟨ws, hws, hcons⟩ := Engine.statement_eq_some htx
    rw [List.nil_append] at hcons
    subst hcons
    change exec s (.reserveQuota c.args.orgId c.args.sizeBytes) = _ at hws
    refine Or.inr ?_
    rw [Call.takes, hpc]
    dsimp only
    rw [hws]
    exact hl
  | inserted hpc =>
    rcases List.mem_pair.mp hl with rfl | rfl
    · exact Or.inl (by rw [Call.holds, hpc]; exact List.mem_cons_self)
    · exact Or.inr (by rw [Call.takes, hpc]; exact List.mem_cons_self)
  | @rolledBack error =>
    rw [holds_of_plain (thrown_plain d error)] at hl
    cases hl
  | discarded | committed | unanswered => cases hl

theorem does_of_next {cfg : Config} (h : next cfg s c d = some (s', c')) :
    ∃ pc', Does s c.args d c.pc s' pc' ∧ c' = c.after pc' ⟨c.pc, d.outcome, s, s'⟩ := by
  obtain ⟨⟨s₁, pc'⟩, hstatement, heq⟩ := Option.map_eq_some_iff.mp h
  obtain ⟨rfl, rfl⟩ := Prod.mk.inj heq
  exact ⟨pc', does_of_statement hstatement, rfl⟩

end Steps

/-! ## Uploads side by side -/

/-- **The invariant.** -/
structure Sound (s : Store) (calls : ι → Proc Call) : Prop where
  exclusive : Exclusive Call.holds calls
  known : ∀ i, (calls i).Keeps (·.Known s)
  told : ∀ i, (calls i).at'.Told

section Runs

variable {cfg : Config} {p q : Uploads ι} {s s' : Store} {calls : ι → Proc Call} {i : ι}
  {c : Call} {d : Draw} {pc' : Pc}

variable [DecidableEq ι]

/-- One statement keeps the invariant, where nobody takes what another call holds. -/
theorem Sound.next (hI : Sound s calls) (hi : calls i = .up c) (h : Does s c.args d c.pc s' pc')
    (hG : ∀ l ∈ c.takes s d, ∀ j, ¬ (calls j).Live (l ∈ ·.holds)) :
    Sound s' (Function.update calls i (.up (c.after pc' ⟨c.pc, d.outcome, s, s'⟩))) := by
  have hc : c.Known s := (hI.known i).of_up hi
  have htold : c.Told := by
    have htold := hI.told i
    rwa [hi] at htold
  refine ⟨exclusive_next hI.exclusive hi fun l hl => ?_, keeps_update_up (known_next h hc _)
    fun j hj => ?_, ?_⟩
  · exact (holds_next h _ hl).imp_right fun htake => hG l htake
  · cases hcall : calls j with
    | down k => trivial
    | up k =>
      refine ((hI.known j).of_up hcall).congr fun l hl => respects_next h hc ?_
      exact hI.exclusive.notMem hj hcall hi hl
  · exact (Function.forall_update_iff calls fun _ x => x.at'.Told).mpr
      ⟨told_next h hc htold, fun j _ => hI.told j⟩

theorem Sound.crash (hI : Sound s calls) (hi : calls i = .up c) :
    Sound s (Function.update calls i (.down c)) := by
  refine ⟨exclusive_crash hI.exclusive, keeps_update_down hI.known, fun j => ?_⟩
  rw [at'_update_down hi]
  exact hI.told j

omit [DecidableEq ι] in
/-- So does an admitted write of the surroundings. -/
theorem Sound.env {e : Env} (hI : Sound p.store p.calls) (hG : Allowed p (.env e)) :
    Sound (env p.store e) p.calls := by
  refine ⟨hI.exclusive, fun i => ?_, hI.told⟩
  cases hcall : p.calls i with
  | down k => trivial
  | up k =>
    refine ((hI.known i).of_up hcall).congr fun l hl => ?_
    cases e with
    | tick ms =>
      cases l with
      | org => exact rfl
      | file => exact fun hfree => hfree
    | commit s' => exact (hG i).of_up hcall l hl

theorem sound_of_run (h₀ : Sound p.store p.calls)
    (h : Run (Pool.step (machine cfg)) Allowed p q) : Sound q.store q.calls := by
  refine Pool.invariant (I := fun p => Sound p.store p.calls) h₀ ?_ ?_ ?_ h
  · intro p i d c s' c' hI hG hi hn
    obtain ⟨pc', hdoes, rfl⟩ := does_of_next hn
    exact hI.next hi hdoes (hG.of_up hi)
  · exact fun p i c hI _ hi => hI.crash hi
  · exact fun p e hI hG => hI.env hG

/-- No call has begun. -/
def Fresh (p : Uploads ι) : Prop := ∀ i, ∃ a, p.calls i = .up ⟨a, .generate, []⟩

omit [DecidableEq ι] in
theorem Fresh.sound (h : Fresh p) : Sound p.store p.calls := by
  refine ⟨exclusive_of_none fun i => ?_, fun i => ?_, fun i => ?_⟩
  all_goals obtain ⟨a, hi⟩ := h i
  all_goals rw [hi]
  · rfl
  · trivial
  · exact fun m hm => by cases hm

/-- **A call that returns has stored its upload, once, and one that does not has changed nothing**,
wherever it fails or stops and however the uploads and everyone else interleave; but where its
COMMIT was done and the answer was lost, its upload is stored, once. -/
theorem upload_exact (h₀ : Fresh p) (h : Run (Pool.step (machine cfg)) Allowed p q) (i : ι) :
    (∀ fileId url, (q.calls i).at'.pc = .returned fileId url → (q.calls i).at'.Once fileId .ok) ∧
      ((∀ fileId url, (q.calls i).at'.pc ≠ .returned fileId url) →
        (q.calls i).at'.Nothing ∨ ∃ fileId, (q.calls i).at'.Once fileId .lost) := by
  have htold := (sound_of_run h₀.sound h).told i
  refine ⟨fun fileId url hpc => ?_, fun hnot => ?_⟩
  · rw [Call.Told, hpc] at htold
    exact htold
  · cases hpc : (q.calls i).at'.pc with
    | returned fileId url => exact absurd hpc (hnot fileId url)
    | rollback | threw | failed =>
      rw [Call.Told, hpc] at htold
      exact htold
    | _ =>
      rw [Call.Told, hpc] at htold
      exact Or.inl htold

end Runs

instance (s s' : Store) : ∀ l, Decidable (Respects s s' l)
  | .org orgId => inferInstanceAs (Decidable (s'.orgs orgId = s.orgs orgId))
  | .file fileId =>
    inferInstanceAs (Decidable (s.files.find fileId = none → s'.files.find fileId = none))

instance [Fintype ι] (p : Uploads ι) : ∀ m : Move ι Draw Env, Decidable (Allowed p m)
  | .run i d => inferInstanceAs (Decidable ((p.calls i).Keeps fun c =>
      ∀ l ∈ c.takes p.store d, ∀ j, ¬ (p.calls j).Live (l ∈ ·.holds)))
  | .env (.commit s') => inferInstanceAs (Decidable (∀ i, (p.calls i).Keeps fun c =>
      ∀ l ∈ c.holds, Respects p.store s' l))
  | .crash _ | .env (.tick _) => inferInstanceAs (Decidable True)

def demoConfig : Config := ⟨fun key _ _ => some key, fun key => key, fun _ => none, fun _ => none⟩

/-- Two uploads of ten bytes each, where fifteen are left. -/
def demoUploads : Uploads (Fin 2) where
  store :=
    { now := 0
      orgs := fun orgId => if orgId = "o" then some ⟨0, 15⟩ else none
      files := Table.empty
      outbox := []
      record := [] }
  calls _ := .up ⟨⟨"o", "u", "a.txt", "text/plain", 10, "free"⟩, .generate, []⟩

/-- The second waits for the first, and finds no storage left. -/
theorem upload_exact_two : ∃ q : Uploads (Fin 2),
    Run (Pool.step (machine demoConfig)) Allowed demoUploads q ∧
      (q.calls 0).at'.Once "f" .ok ∧
        ((q.calls 1).at'.pc = .threw quotaExceeded ∧
          ((q.calls 1).at'.Nothing ∨ ∃ fileId, (q.calls 1).at'.Once fileId .lost)) := by
  obtain ⟨q, hrun, hq⟩ := exists_run_of_exec (Pool.step (machine demoConfig)) Allowed demoUploads
    (List.flatten [List.replicate 5 (.run 0 ⟨"f", .ok⟩), List.replicate 3 (.run 1 ⟨"g", .ok⟩),
      [.run 0 ⟨"f", .ok⟩], List.replicate 2 (.run 1 ⟨"g", .ok⟩)])
    (fun q => (q.calls 0).at'.pc = .returned "f" "f" ∧ (q.calls 1).at'.pc = .threw quotaExceeded)
    (by decide)
  obtain ⟨hfirst, hsecond⟩ := of_decide_eq_true hq
  have hfresh : Fresh demoUploads := fun _ => ⟨_, rfl⟩
  refine ⟨q, hrun, (upload_exact hfresh hrun 0).1 "f" "f" hfirst, hsecond, ?_⟩
  exact (upload_exact hfresh hrun 1).2 fun fileId url hpc => by
    rw [hsecond] at hpc
    cases hpc

/-- **A COMMIT whose answer is lost**: the call fails, and its file and the storage for it stay. -/
theorem upload_stored_but_failed : ∃ q : Uploads (Fin 2),
    Run (Pool.step (machine demoConfig)) Allowed demoUploads q ∧
      (q.calls 0).at'.pc = .failed ∧ ¬ (q.calls 0).at'.Nothing := by
  obtain ⟨q, hrun, hq⟩ := exists_run_of_exec (Pool.step (machine demoConfig)) Allowed demoUploads
    (List.flatten [List.replicate 5 (.run 0 ⟨"f", .ok⟩),
      [.run 0 ⟨"f", .lost⟩, .run 0 ⟨"f", .failed⟩]])
    (fun q => (q.calls 0).at'.pc = .failed ∧
      (q.calls 0).at'.ran.any fun m => m.after.files.rows.length ≠ m.before.files.rows.length)
    (by decide)
  obtain ⟨hfailed, hany⟩ := of_decide_eq_true hq
  refine ⟨q, hrun, hfailed, fun hnothing => ?_⟩
  obtain ⟨m, hm, hlength⟩ := List.any_eq_true.mp hany
  exact of_decide_eq_true hlength (by rw [(hnothing m hm).2])

end WorkPlatform.File.Uploading

import Mathlib.Data.List.InsertIdx
import WorkPlatform.Machinery.Run
import WorkPlatform.Machinery.Generations

/-!
# Auth/BackupCodes — backup codes that should work once

    generateBackupCodes   hash ▸ update
    verifyBackupCode      read ▸ update ▸ audit

`verifyBackupCode` reads the array on the replica, takes the matched hash out of what it has read
and writes the rest back.  Whatever happened to the array between the two is undone: a code can be
used twice, a used code comes back, an older generation replaces a newer one
(`stale_updates`).

As long as every UPDATE of `verifyBackupCode` meets the array the call has read (`Current`), codes
are used once, and only those of the latest generation (`singleUse_of_current`).
-/

namespace WorkPlatform.BackupCodes

open Machinery

/-! ## Codes and hashes -/

/-- `BACKUP_CODE_COUNT`. -/
def backupCodeCount : ℕ := 8

/-- `BACKUP_CODE_LENGTH`. -/
def backupCodeLength : ℕ := 10

/-- `BACKUP_CODE_CHARS`. -/
def backupCodeChars : List Char :=
  "ABCDEFGHIJKLMNOPQRSTUVWXYZabcdefghijklmnopqrstuvwxyz0123456789".toList

/-- The loop of `generateAlphanumericCode`, over the random bytes. -/
def alphanumeric : List ℕ → ℕ → List Char
  | _, 0 => []
  | [], _ => []
  | b :: bytes, length + 1 =>
    backupCodeChars.getD (b % backupCodeChars.length) 'A' :: alphanumeric bytes length

def generateAlphanumericCode (bytes : List ℕ) (length : ℕ) : String :=
  String.ofList (alphanumeric bytes length)

/-- bcrypt, salts included: a hash matches the code it was made from, and no other. -/
structure Bcrypt where
  hash : String → String → String
  compare : String → String → Bool
  compare_hash : ∀ code code' salt, compare code (hash code' salt) = decide (code = code')

/-! ## The stores -/

/-- A row of `users`, less the columns nothing here reads. -/
structure MfaRow where
  deleted : Bool
  mfaBackupCodes : List String
  deriving DecidableEq

/-- The user's row on the primary and on the replica; what was generated, stored and used so far is
on record. -/
structure Store where
  primary : Option MfaRow
  replica : Option MfaRow
  generated : List String
  history : List (Event String)

namespace Store

/-- `SELECT * FROM users WHERE id = $1 AND deleted_at IS NULL`, on the replica. -/
def findUserById (s : Store) : Option MfaRow := s.replica.filter fun row => ¬ row.deleted

/-- The row an UPDATE with `WHERE deleted_at IS NULL` meets. -/
def updatable (s : Store) : Option MfaRow := s.primary.filter fun row => ¬ row.deleted

/-- `updateUser` with `{ mfa_backup_codes }`. -/
def updateUser (s : Store) (codes : List String) : Store :=
  match s.updatable with
  | some row => { s with primary := some { row with mfaBackupCodes := codes } }
  | none => s

def record (s : Store) (e : Event String) : Store := { s with history := e :: s.history }

end Store

/-! ## `generateBackupCodes` and `verifyBackupCode` -/

/-- The random bytes of a code, and the salt of its hash. -/
structure CodeDraw where
  bytes : List ℕ
  salt : String

abbrev Draw := Fin backupCodeCount → CodeDraw

def CodeDraw.code (d : CodeDraw) : String := generateAlphanumericCode d.bytes backupCodeLength

/-- The codes of a generation with their salts. -/
def drawnCodes (d : Draw) : List (String × String) := List.ofFn fun i => ((d i).code, (d i).salt)

/-- Where a call of `generateBackupCodes` is. -/
inductive GeneratePc
  | hash
  | update (plainCodes hashes : List String)
  | returned (plainCodes : List String)
  deriving DecidableEq

def plainCodes (codes : List (String × String)) : List String := codes.map (·.1)

def hashes (b : Bcrypt) (codes : List (String × String)) : List String :=
  codes.map fun x => b.hash x.1 x.2

/-- The next statement of `generateBackupCodes`. -/
def generateNext (b : Bcrypt) (s : Store) (d : Draw) : GeneratePc → Option (Store × GeneratePc)
  | .hash =>
    let codes := drawnCodes d
    some ({ s with generated := plainCodes codes ++ s.generated },
      .update (plainCodes codes) (hashes b codes))
  | .update plain hs =>
    let s' := s.updateUser hs
    some (if s.updatable.isSome then s'.record (.stored plain) else s', .returned plain)
  | .returned _ => none

/-- `codes` is the array the call has read, `i` the place of the hash that matched. -/
inductive VerifyPc
  | read
  | update (codes : List String) (i : ℕ)
  | audit
  | returned (accepted : Bool)
  deriving DecidableEq

/-- The loop of comparisons. -/
def VerifyPc.compared (b : Bcrypt) (code : String) (codes : List String) : VerifyPc :=
  match codes.findIdx? (b.compare code) with
  | some i => .update codes i
  | none => .returned false

/-- The next statement of `verifyBackupCode`; the array is written back as it was read, less one
code. -/
def verifyNext (b : Bcrypt) (s : Store) (code : String) : VerifyPc → Option (Store × VerifyPc)
  | .read => some (s,
      match s.findUserById with
      | some user => .compared b code user.mfaBackupCodes
      | none => .returned false)
  | .update codes i => some ((s.updateUser (codes.eraseIdx i)).record (.used code), .audit)
  | .audit => some (s, .returned true)
  | .returned _ => none

/-! ## The machine -/

/-- A call, and where it is. -/
inductive Call
  | generate (pc : GeneratePc)
  | verify (code : String) (pc : VerifyPc)
  deriving DecidableEq

/-- The call has not run a statement yet. -/
def Call.fresh : Call → Bool
  | .generate .hash | .verify _ .read => true
  | _ => false

/-- Replication, and the other writers of the row: `resetUserMfa` and the erasure of the user. -/
inductive Env
  | replicate
  | resetUserMfa
  | erase

/-- What others do to the row. -/
def env (s : Store) : Env → Store
  | .replicate => { s with replica := s.primary }
  | .resetUserMfa =>
    { s with primary := s.primary.map fun row => { row with mfaBackupCodes := [] } }
  | .erase => { s with primary := s.primary.map fun _ => ⟨true, []⟩ }

/-- The next statement of a call. -/
def next (b : Bcrypt) (s : Store) (c : Call) (d : Draw) : Option (Store × Call) :=
  match c with
  | .generate pc => (generateNext b s d pc).map fun x => (x.1, .generate x.2)
  | .verify code pc => (verifyNext b s code pc).map fun x => (x.1, .verify code x.2)

def mfaMachine (b : Bcrypt) : Machine Store Call Draw Env := ⟨next b, env⟩

/-- Calls of one user over its row. -/
abbrev Calls (ι : Type*) := Pool ι Store Call

/-! ## The property and the condition -/

variable {ι : Type*}

/-- The call has used up the code and answers, or has answered, that it is right. -/
def Call.accepted (code : String) : Call → Bool
  | .verify c .audit | .verify c (.returned true) => c = code
  | _ => false

/-- **Single use**: a code is accepted once, a used code does not match the array any more, and no
code of an older generation is used once a newer one is stored. -/
structure SingleUse (b : Bcrypt) (p : Calls ι) : Prop where
  once : ∀ i j code, (p.calls i).at'.accepted code → (p.calls j).at'.accepted code → i = j
  spent : ∀ row ∈ p.store.primary, ∀ h ∈ row.mfaBackupCodes,
    ∀ c ∈ History.used p.store.history, b.compare c h = false
  superseded : ∀ l₁ l₂ l₃ g c,
    p.store.history = l₁ ++ .used c :: (l₂ ++ .stored g :: l₃) → c ∉ History.stored l₃

/-- The array a call is about to replace is the one it has read. -/
def Call.current (s : Store) : Call → Prop
  | .verify _ (.update codes _) => s.primary = some ⟨false, codes⟩
  | _ => True

/-- **No stale UPDATE**: `verifyBackupCode` replaces the array it has read. -/
def Current (p : Calls ι) : Move ι Draw Env → Prop
  | .run i _ => (p.calls i).Keeps (Call.current p.store)
  | _ => True

/-- The codes of a new generation are distinct and new. -/
def Call.distinct (s : Store) (d : Draw) : Call → Prop
  | .generate .hash => (plainCodes (drawnCodes d)).Nodup
      ∧ ∀ c ∈ plainCodes (drawnCodes d), c ∉ s.generated
  | _ => True

/-- Generated codes are distinct. -/
def DistinctCodes (p : Calls ι) : Move ι Draw Env → Prop
  | .run i d => (p.calls i).Keeps (Call.distinct p.store d)
  | _ => True

/-! ## The array -/

section Array

variable {b : Bcrypt} {code : String} {live used : List String}

/-- The hashes of distinct codes that are live and unused. -/
def Backed (b : Bcrypt) (live used : List String) (hs : List String) : Prop :=
  ∃ codes : List (String × String), hs = hashes b codes ∧ (plainCodes codes).Nodup
    ∧ ∀ c ∈ plainCodes codes, c ∈ live ∧ c ∉ used

theorem Backed.nil : Backed b live used [] := ⟨[], rfl, List.nodup_nil, nofun⟩

/-- A used code matches none of them. -/
theorem Backed.compare_used {hs : List String} (h : Backed b live used hs) {x : String}
    (hx : x ∈ hs) {c : String} (hc : c ∈ used) : b.compare c x = false := by
  obtain ⟨codes, rfl, -, hcodes⟩ := h
  obtain ⟨⟨c', salt⟩, hmem, rfl⟩ := List.mem_map.mp hx
  have hne : c ≠ c' := by
    rintro rfl
    exact (hcodes c (List.mem_map_of_mem hmem)).2 hc
  rw [b.compare_hash]
  exact decide_eq_false hne

theorem plainCodes_eraseIdx (codes : List (String × String)) (i : ℕ) :
    plainCodes (codes.eraseIdx i) = (plainCodes codes).eraseIdx i :=
  (List.eraseIdx_map _ codes i).symm

/-- **The matched hash**: its code is live and unused, and what is left belongs to the others. -/
theorem Backed.use {hs : List String} {i : ℕ} (h : Backed b live used hs)
    (hi : hs.findIdx? (b.compare code) = some i) :
    (code ∈ live ∧ code ∉ used) ∧ Backed b live (code :: used) (hs.eraseIdx i) := by
  obtain ⟨codes, rfl, hnd, hcodes⟩ := h
  obtain ⟨hlt, hmatch, -⟩ := List.findIdx?_eq_some_iff_getElem.mp hi
  have hi' : i < codes.length := by simpa [hashes] using hlt
  have hlen : i < (plainCodes codes).length := by simpa [plainCodes] using hi'
  have hcode : (plainCodes codes)[i] = code := by
    have hc : code = codes[i].1 := by simpa [hashes, b.compare_hash] using hmatch
    rw [hc]
    exact List.getElem_map _
  refine ⟨hcodes code (hcode ▸ List.getElem_mem hlen), codes.eraseIdx i,
    List.eraseIdx_map _ _ _, ?_, fun c hc => ?_⟩
  · rw [plainCodes_eraseIdx]
    exact hnd.eraseIdx i
  · rw [plainCodes_eraseIdx] at hc
    obtain ⟨j, hj, hne, rfl⟩ := List.mem_eraseIdx_iff_getElem.mp hc
    obtain ⟨hlive, hunused⟩ := hcodes _ (List.getElem_mem hj)
    refine ⟨hlive, fun hmem => ?_⟩
    rcases List.mem_cons.mp hmem with heq | hmem
    · exact hne (hnd.getElem_inj_iff.mp (heq.trans hcode.symm))
    · exact hunused hmem

end Array

/-! ## Every run -/

section Runs

variable {b : Bcrypt} {c c' : Call} {d : Draw}

/-- The codes a call has drawn and not stored. -/
def Call.pending : Call → List String
  | .generate (.update plain _) => plain
  | _ => []

def pending : Proc Call → List String
  | .up c => c.pending
  | .down _ => []

/-- What a call knows about what it is going to write. -/
def Call.Sound (b : Bcrypt) : Call → Prop
  | .verify code (.update codes i) => codes.findIdx? (b.compare code) = some i
  | .generate (.update plain hs) => ∃ codes, plain = plainCodes codes ∧ hs = hashes b codes
      ∧ (plainCodes codes).Nodup
  | _ => True

/-- What runs without stale UPDATEs keep. -/
structure CodesInv (b : Bcrypt) (p : Calls ι) : Prop where
  lawful : History.Lawful p.store.history
  drawn : Drawn p.store.generated (History.stored p.store.history) (pending ∘ p.calls)
  array : ∀ row ∈ p.store.primary,
    Backed b (History.latest p.store.history) (History.used p.store.history) row.mfaBackupCodes
  sound : ∀ i, (p.calls i).Keeps (Call.Sound b)
  accepted : ∀ i code, (p.calls i).at'.accepted code → code ∈ History.used p.store.history
  once : ∀ i j code, (p.calls i).at'.accepted code → (p.calls j).at'.accepted code → i = j

theorem CodesInv.singleUse {p : Calls ι} (h : CodesInv b p) : SingleUse b p where
  once := h.once
  spent row hrow _ hx _ hc := (h.array row hrow).compare_used hx hc
  superseded _ _ _ _ _ hl := h.lawful.superseded hl

/-- At the start nobody holds a code and none is used. -/
theorem codesInv_of_fresh {p : Calls ι} (hstart : ∀ i, (p.calls i).Live fun c => c.fresh)
    (hnew : p.store.generated = [] ∧ p.store.history = [])
    (hcodes : ∀ row ∈ p.store.primary, row.mfaBackupCodes = []) : CodesInv b p := by
  obtain ⟨hgen, hhist⟩ := hnew
  have hcall : ∀ i, ∃ c : Call, p.calls i = .up c ∧ c.pending = [] ∧ c.Sound b
      ∧ ∀ code, c.accepted code = false := by
    intro i
    obtain ⟨c, hc, hi⟩ := (hstart i).exists
    refine ⟨c, hc, ?_⟩
    cases c with
    | generate pc => cases pc <;> first | exact ⟨rfl, trivial, fun _ => rfl⟩ | cases hi
    | verify code pc => cases pc <;> first | exact ⟨rfl, trivial, fun _ => rfl⟩ | cases hi
  have hnone : ∀ i code, (p.calls i).at'.accepted code = false := by
    intro i code
    obtain ⟨c, hc, -, -, hacc⟩ := hcall i
    rw [hc]
    exact hacc code
  refine ⟨hhist ▸ trivial, ⟨?_, fun i c hc => ?_, fun i j c hi _ => ?_⟩, fun row hrow => ?_,
    fun i => ?_, fun i code hacc => ?_, fun i j code hacc _ => ?_⟩
  · rw [hhist]
    exact nofun
  · obtain ⟨x, hx, hpend, -⟩ := hcall i
    rw [Function.comp_apply, hx, pending, hpend] at hc
    cases hc
  · obtain ⟨x, hx, hpend, -⟩ := hcall i
    rw [Function.comp_apply, hx, pending, hpend] at hi
    cases hi
  · rw [hcodes row hrow]
    exact .nil
  · obtain ⟨x, hx, -, hsound, -⟩ := hcall i
    rw [hx]
    exact hsound
  · rw [hnone] at hacc
    cases hacc
  · rw [hnone] at hacc
    cases hacc

@[simp] theorem updateUser_history (s : Store) (codes : List String) :
    (s.updateUser codes).history = s.history := by
  unfold Store.updateUser
  split <;> rfl

@[simp] theorem updateUser_generated (s : Store) (codes : List String) :
    (s.updateUser codes).generated = s.generated := by
  unfold Store.updateUser
  split <;> rfl

theorem updateUser_primary {s : Store} {row : MfaRow} (h : s.updatable = some row)
    (codes : List String) :
    (s.updateUser codes).primary = some { row with mfaBackupCodes := codes } := by
  unfold Store.updateUser
  rw [h]

theorem updateUser_missed {s : Store} (h : s.updatable = none) (codes : List String) :
    s.updateUser codes = s := by
  unfold Store.updateUser
  rw [h]

variable [DecidableEq ι] {p : Calls ι} {i : ι}

/-- A move that accepts nothing. -/
theorem accepted_of_update (hacc : ∀ code, c'.accepted code → (p.calls i).at'.accepted code) {j : ι}
    {code : String} (h : (Function.update p.calls i (.up c') j).at'.accepted code) :
    (p.calls j).at'.accepted code := by
  rcases update_cases (fun x : Proc Call => x.at'.accepted code) h with ⟨rfl, hc'⟩ | ⟨-, hj⟩
  · exact hacc code hc'
  · exact hj

/-- A generation accepts nothing. -/
theorem accepted_generate {pc : GeneratePc} {x : Call} (code : String)
    (h : (Call.generate pc).accepted code) : x.accepted code :=
  (Bool.false_ne_true h).elim

/-- A statement that leaves the row and the record alone. -/
theorem CodesInv.quiet (h : CodesInv b p) (hsound : c'.Sound b) (hpend : c'.pending = [])
    (hacc : ∀ code, c'.accepted code → (p.calls i).at'.accepted code) :
    CodesInv b ⟨p.store, Function.update p.calls i (.up c')⟩ := by
  refine ⟨h.lawful, ?_, h.array, keeps_update_up hsound fun j _ => h.sound j,
    fun j code hj => h.accepted j code (accepted_of_update hacc hj),
    fun j k code hj hk => h.once j k code (accepted_of_update hacc hj) (accepted_of_update hacc hk)⟩
  dsimp only
  rw [Function.comp_update, pending, hpend]
  exact h.drawn.drop i

/-- A generation is drawn. -/
theorem CodesInv.draw (h : CodesInv b p) {codes : List (String × String)}
    (hnd : (plainCodes codes).Nodup) (hnew : ∀ c ∈ plainCodes codes, c ∉ p.store.generated) :
    CodesInv b ⟨{ p.store with generated := plainCodes codes ++ p.store.generated },
      Function.update p.calls i
        (.up (.generate (.update (plainCodes codes) (hashes b codes))))⟩ := by
  refine ⟨h.lawful, ?_, h.array, keeps_update_up ⟨codes, rfl, rfl, hnd⟩ fun j _ => h.sound j,
    fun j code hj => h.accepted j code (accepted_of_update accepted_generate hj),
    fun j k code hj hk => h.once j k code (accepted_of_update accepted_generate hj)
      (accepted_of_update accepted_generate hk)⟩
  dsimp only
  rw [Function.comp_update]
  exact h.drawn.draw hnew

/-- A generation is stored. -/
theorem CodesInv.store (h : CodesInv b p) {plain hs : List String} {row : MfaRow}
    (hi : p.calls i = .up (.generate (.update plain hs))) (hrow : p.store.updatable = some row) :
    CodesInv b ⟨(p.store.updateUser hs).record (.stored plain),
      Function.update p.calls i (.up (.generate (.returned plain)))⟩ := by
  have hpend : (pending ∘ p.calls) i = plain := by
    rw [Function.comp_apply, hi]
    rfl
  have hfresh : ∀ c ∈ plain, c ∉ History.stored p.store.history := fun c hc =>
    (h.drawn.fresh i c (hpend ▸ hc)).2
  have hsound := (h.sound i).of_up hi
  obtain ⟨codes, rfl, rfl, hnd⟩ := hsound
  refine ⟨⟨?_, ?_⟩, ?_, fun r hr => ?_, keeps_update_up trivial fun j _ => h.sound j,
    fun j code hj => ?_,
    fun j k code hj hk => h.once j k code (accepted_of_update accepted_generate hj)
      (accepted_of_update accepted_generate hk)⟩
  · rwa [updateUser_history]
  · rw [updateUser_history]
    exact h.lawful
  · dsimp only [Store.record]
    rw [updateUser_history, updateUser_generated, Function.comp_update]
    have hstore := h.drawn.store i
    rw [hpend] at hstore
    exact hstore
  · dsimp only [Store.record] at hr ⊢
    rw [updateUser_primary hrow] at hr
    obtain rfl := Option.some.inj hr
    rw [updateUser_history]
    exact ⟨codes, rfl, hnd, fun c hc =>
      ⟨hc, fun hused => hfresh c hc (h.lawful.used_subset_stored hused)⟩⟩
  · dsimp only [Store.record]
    rw [updateUser_history]
    exact h.accepted j code (accepted_of_update accepted_generate hj)

/-- **A code is used**, and the array is the one the call has read. -/
theorem CodesInv.use (h : CodesInv b p) {code : String} {codes : List String} {n : ℕ}
    (hi : p.calls i = .up (.verify code (.update codes n)))
    (hcur : p.store.primary = some ⟨false, codes⟩) :
    CodesInv b ⟨(p.store.updateUser (codes.eraseIdx n)).record (.used code),
      Function.update p.calls i (.up (.verify code .audit))⟩ := by
  have hsound := (h.sound i).of_up hi
  obtain ⟨⟨hlive, hunused⟩, hleft⟩ := (h.array _ hcur).use hsound
  have hrow : p.store.updatable = some ⟨false, codes⟩ := by
    rw [Store.updatable, hcur]
    rfl
  -- nobody else has accepted the code, for it was unused
  have hother : ∀ j, (Function.update p.calls i (.up (.verify code .audit)) j).at'.accepted code →
      j = i := by
    intro j hj
    rcases update_cases (fun x : Proc Call => x.at'.accepted code) hj with ⟨rfl, -⟩ | ⟨-, hj⟩
    · rfl
    · exact absurd (h.accepted j code hj) hunused
  have hback : ∀ j code',
      (Function.update p.calls i (.up (.verify code .audit)) j).at'.accepted code' →
        code' = code ∨ (p.calls j).at'.accepted code' := by
    intro j code' hj
    rcases update_cases (fun x : Proc Call => x.at'.accepted code') hj with ⟨-, hc'⟩ | ⟨-, hj⟩
    · exact Or.inl (of_decide_eq_true hc').symm
    · exact Or.inr hj
  refine ⟨⟨?_, ?_, ?_⟩, ?_, fun r hr => ?_, keeps_update_up trivial fun j _ => h.sound j,
    fun j code' hj => ?_, fun j k code' hj hk => ?_⟩
  · rwa [updateUser_history]
  · rwa [updateUser_history]
  · rw [updateUser_history]
    exact h.lawful
  · dsimp only [Store.record]
    rw [updateUser_history, updateUser_generated, Function.comp_update]
    exact h.drawn.drop i
  · dsimp only [Store.record] at hr ⊢
    rw [updateUser_primary hrow] at hr
    obtain rfl := Option.some.inj hr
    rw [updateUser_history]
    exact hleft
  · dsimp only [Store.record]
    rw [updateUser_history]
    rcases hback j code' hj with rfl | hj
    · exact List.mem_cons_self
    · exact List.mem_cons_of_mem _ (h.accepted j code' hj)
  · rcases hback j code' hj with rfl | hj'
    · exact (hother j hj).trans (hother k hk).symm
    · rcases hback k code' hk with rfl | hk'
      · exact (hother j hj).trans (hother k hk).symm
      · exact h.once j k code' hj' hk'

theorem sound_compared (code : String) (codes : List String) :
    (Call.verify code (.compared b code codes)).Sound b := by
  unfold VerifyPc.compared
  split
  · rename_i i hi
    exact hi
  · trivial

theorem not_accepted_compared {code code' : String} {codes : List String} :
    (Call.verify code (.compared b code codes)).accepted code' = false := by
  unfold VerifyPc.compared
  split <;> rfl

/-- **One statement.** -/
theorem CodesInv.run {s' : Store} (h : CodesInv b p) (hcodes : DistinctCodes p (.run i d))
    (hcur : Current p (.run i d)) (hi : p.calls i = .up c)
    (hn : next b p.store c d = some (s', c')) :
    CodesInv b ⟨s', Function.update p.calls i (.up c')⟩ := by
  rw [DistinctCodes, hi] at hcodes
  rw [Current, hi] at hcur
  cases c with
  | generate pc =>
    obtain ⟨⟨s₁, pc'⟩, hpc, heq⟩ := Option.map_eq_some_iff.mp hn
    obtain ⟨rfl, rfl⟩ := Prod.mk.inj heq
    cases pc with
    | hash =>
      obtain ⟨rfl, rfl⟩ := Prod.mk.inj (Option.some.inj hpc)
      exact h.draw hcodes.1 hcodes.2
    | update plain hs =>
      obtain ⟨rfl, rfl⟩ := Prod.mk.inj (Option.some.inj hpc)
      cases hrow : p.store.updatable with
      | some row => exact h.store hi hrow
      | none =>
        rw [updateUser_missed hrow]
        exact h.quiet trivial rfl accepted_generate
    | returned _ => cases hpc
  | verify code pc =>
    obtain ⟨⟨s₁, pc'⟩, hpc, heq⟩ := Option.map_eq_some_iff.mp hn
    obtain ⟨rfl, rfl⟩ := Prod.mk.inj heq
    cases pc with
    | read =>
      obtain ⟨rfl, rfl⟩ := Prod.mk.inj (Option.some.inj hpc)
      refine h.quiet ?_ rfl fun code' hacc => ?_
      · split
        · exact sound_compared code _
        · trivial
      · split at hacc
        · rw [not_accepted_compared] at hacc
          cases hacc
        · exact (Bool.false_ne_true hacc).elim
    | update codes n =>
      obtain ⟨rfl, rfl⟩ := Prod.mk.inj (Option.some.inj hpc)
      exact h.use hi hcur
    | audit =>
      obtain ⟨rfl, rfl⟩ := Prod.mk.inj (Option.some.inj hpc)
      refine h.quiet trivial rfl fun code' hacc => ?_
      rw [hi]
      exact hacc
    | returned _ => cases hpc

/-- A call that stops keeps the invariant. -/
theorem CodesInv.crash (h : CodesInv b p) (hi : p.calls i = .up c) :
    CodesInv b ⟨p.store, Function.update p.calls i (.down c)⟩ := by
  refine ⟨h.lawful, ?_, h.array, keeps_update_down h.sound, fun j code hj => ?_,
    fun j k code hj hk => ?_⟩
  · dsimp only
    rw [Function.comp_update]
    exact h.drawn.drop i
  · dsimp only at hj
    rw [at'_update_down hi] at hj
    exact h.accepted j code hj
  · dsimp only at hj hk
    rw [at'_update_down hi] at hj hk
    exact h.once j k code hj hk

omit [DecidableEq ι] in
/-- What the surroundings do keeps the invariant. -/
theorem CodesInv.env (h : CodesInv b p) (e : Env) : CodesInv b ⟨env p.store e, p.calls⟩ := by
  cases e with
  | replicate => exact ⟨h.lawful, h.drawn, h.array, h.sound, h.accepted, h.once⟩
  | resetUserMfa =>
    refine ⟨h.lawful, h.drawn, fun row hrow => ?_, h.sound, h.accepted, h.once⟩
    obtain ⟨r, -, rfl⟩ := Option.map_eq_some_iff.mp hrow
    exact .nil
  | erase =>
    refine ⟨h.lawful, h.drawn, fun row hrow => ?_, h.sound, h.accepted, h.once⟩
    obtain ⟨r, -, rfl⟩ := Option.map_eq_some_iff.mp hrow
    exact .nil

/-- **Backup codes work once**: in every run without stale UPDATEs, from the creation of the
user. -/
theorem singleUse_of_current {q : Calls ι} (hstart : ∀ i, (p.calls i).Live fun c => c.fresh)
    (hnew : p.store.generated = [] ∧ p.store.history = [])
    (hcodes : ∀ row ∈ p.store.primary, row.mfaBackupCodes = [])
    (hrun : Run (Pool.step (mfaMachine b)) (fun p m => DistinctCodes p m ∧ Current p m) p q) :
    SingleUse b q := by
  have hinv : CodesInv b q :=
    Pool.invariant (I := CodesInv b) (codesInv_of_fresh hstart hnew hcodes)
      (fun p i d c s' c' h hG hi hn => h.run hG.1 hG.2 hi hn) (fun p i c h _ hi => h.crash hi)
      (fun p e h _ => h.env e) hrun
  exact hinv.singleUse

end Runs

/-! ## Stale UPDATEs -/

section Guard

instance (s : Store) : DecidablePred (Call.current s)
  | .verify _ (.update codes _) => inferInstanceAs (Decidable (s.primary = some ⟨false, codes⟩))
  | .verify _ .read | .verify _ .audit | .verify _ (.returned _) | .generate _ =>
    inferInstanceAs (Decidable True)

instance (s : Store) (d : Draw) : DecidablePred (Call.distinct s d)
  | .generate .hash => inferInstanceAs (Decidable ((plainCodes (drawnCodes d)).Nodup
      ∧ ∀ c ∈ plainCodes (drawnCodes d), c ∉ s.generated))
  | .generate (.update _ _) | .generate (.returned _) | .verify _ _ =>
    inferInstanceAs (Decidable True)

variable (p : Calls ι)

instance : ∀ m : Move ι Draw Env, Decidable (Current p m)
  | .run i _ => inferInstanceAs (Decidable ((p.calls i).Keeps (Call.current p.store)))
  | .crash _ => inferInstanceAs (Decidable True)
  | .env _ => inferInstanceAs (Decidable True)

instance : ∀ m : Move ι Draw Env, Decidable (DistinctCodes p m)
  | .run i d => inferInstanceAs (Decidable ((p.calls i).Keeps (Call.distinct p.store d)))
  | .crash _ => inferInstanceAs (Decidable True)
  | .env _ => inferInstanceAs (Decidable True)

end Guard

/-- Hashes that are the codes themselves. -/
def plainBcrypt : Bcrypt := ⟨fun code _ => code, fun code h => code = h, fun _ _ _ => rfl⟩

/-- The bytes of the codes of generation `g`: the first two characters of a code are its generation
and its number. -/
def generation (g : ℕ) : Draw := fun n => ⟨[g, n] ++ List.replicate 18 0, "salt"⟩

/-- Two generations, and three calls with codes of the first one. -/
def newUser : Calls (Fin 5) where
  store := ⟨some ⟨false, []⟩, some ⟨false, []⟩, [], []⟩
  calls
    | 0 | 1 => .up (.generate .hash)
    | 2 | 3 => .up (.verify "AAAAAAAAAA" .read)
    | 4 => .up (.verify "ABAAAAAAAA" .read)

theorem newUser_fresh (i : Fin 5) : (newUser.calls i).Live fun c => c.fresh := by
  revert i
  decide

def turn (i : Fin 5) : Move (Fin 5) Draw Env := .run i (generation i)

/-- The first generation is stored and replicated. -/
def enrol : List (Move (Fin 5) Draw Env) := [turn 0, turn 0, .env .replicate]

/-- A user that was just created. -/
theorem newUser_blank : (newUser.store.generated = [] ∧ newUser.store.history = [])
    ∧ ∀ row ∈ newUser.store.primary, row.mfaBackupCodes = [] := by
  refine ⟨⟨rfl, rfl⟩, fun row hrow => ?_⟩
  obtain rfl := Option.some.inj hrow
  rfl

/-- **UPDATEs of an array that has changed**: two calls use one code; a used code comes back; a
code of the first generation is used after the second one was stored. -/
theorem stale_updates :
    (∀ i, (newUser.calls i).Live fun c => c.fresh)
      ∧ (∃ q, Run (Pool.step (mfaMachine plainBcrypt)) DistinctCodes newUser q
        ∧ (q.calls 2).at'.accepted "AAAAAAAAAA" ∧ (q.calls 3).at'.accepted "AAAAAAAAAA"
        ∧ ¬ SingleUse plainBcrypt q)
      ∧ (∃ q, Run (Pool.step (mfaMachine plainBcrypt)) DistinctCodes newUser q
        ∧ (∃ row ∈ q.store.primary, ∃ h ∈ row.mfaBackupCodes,
          ∃ c ∈ History.used q.store.history, plainBcrypt.compare c h = true)
        ∧ ¬ SingleUse plainBcrypt q)
      ∧ ∃ q, Run (Pool.step (mfaMachine plainBcrypt)) DistinctCodes newUser q
        ∧ q.store.history = [.used "AAAAAAAAAA", .stored (plainCodes (drawnCodes (generation 1))),
          .stored (plainCodes (drawnCodes (generation 0)))]
        ∧ ¬ SingleUse plainBcrypt q := by
  refine ⟨newUser_fresh, ?_, ?_, ?_⟩
  · obtain ⟨q, hq, hacc⟩ := exists_run_of_exec (Pool.step (mfaMachine plainBcrypt)) DistinctCodes
      newUser (enrol ++ [turn 2, turn 3, turn 2, turn 3])
      (fun q => (q.calls 2).at'.accepted "AAAAAAAAAA" ∧ (q.calls 3).at'.accepted "AAAAAAAAAA")
      (by decide)
    obtain ⟨h2, h3⟩ := of_decide_eq_true hacc
    refine ⟨q, hq, h2, h3, fun h => ?_⟩
    cases h.once 2 3 _ h2 h3
  · obtain ⟨q, hq, hback⟩ := exists_run_of_exec (Pool.step (mfaMachine plainBcrypt)) DistinctCodes
      newUser (enrol ++ [turn 2, turn 4, turn 2, turn 4])
      (fun q => ∃ row ∈ q.store.primary, ∃ h ∈ row.mfaBackupCodes,
        ∃ c ∈ History.used q.store.history, plainBcrypt.compare c h = true) (by decide)
    obtain ⟨row, hrow, x, hx, c, hc, hmatch⟩ := of_decide_eq_true hback
    refine ⟨q, hq, ⟨row, hrow, x, hx, c, hc, hmatch⟩, fun h => ?_⟩
    rw [h.spent row hrow x hx c hc] at hmatch
    cases hmatch
  · obtain ⟨q, hq, hlog⟩ := exists_run_of_exec (Pool.step (mfaMachine plainBcrypt)) DistinctCodes
      newUser (enrol ++ [turn 2, turn 1, turn 1, turn 2])
      (fun q => q.store.history = [.used "AAAAAAAAAA",
        .stored (plainCodes (drawnCodes (generation 1))),
        .stored (plainCodes (drawnCodes (generation 0)))]) (by decide)
    have hhist := of_decide_eq_true hlog
    refine ⟨q, hq, hhist, fun h => ?_⟩
    exact h.superseded [] [] _ _ _ hhist (by decide)

/-- One call after the other, each on an up-to-date replica: the second use is refused. -/
theorem singleUse_in_turn :
    ∃ q, Run (Pool.step (mfaMachine plainBcrypt)) (fun p m => DistinctCodes p m ∧ Current p m)
        newUser q
      ∧ (q.calls 2).at'.accepted "AAAAAAAAAA"
      ∧ q.calls 3 = .up (.verify "AAAAAAAAAA" (.returned false)) ∧ SingleUse plainBcrypt q := by
  obtain ⟨q, hq, hend⟩ := exists_run_of_exec (Pool.step (mfaMachine plainBcrypt))
    (fun p m => DistinctCodes p m ∧ Current p m) newUser
    (List.flatten [enrol, [turn 2, turn 2, turn 2, .env .replicate, turn 3, turn 1, turn 1]])
    (fun q => (q.calls 2).at'.accepted "AAAAAAAAAA"
      ∧ q.calls 3 = .up (.verify "AAAAAAAAAA" (.returned false))) (by decide)
  obtain ⟨h2, h3⟩ := of_decide_eq_true hend
  exact ⟨q, hq, h2, h3,
    singleUse_of_current newUser_fresh newUser_blank.1 newUser_blank.2 hq⟩

end WorkPlatform.BackupCodes

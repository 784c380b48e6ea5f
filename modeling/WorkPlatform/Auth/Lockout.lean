import WorkPlatform.Machinery.Tally
import WorkPlatform.Auth.Login
import WorkPlatform.Auth.Rotation

/-!
# Auth/Lockout — how many wrong passwords an account sees before it is locked

    find      reads the row on the replica: the counter and the lock
    verify    evaluates the password
    increment raises the counter on the primary
    lock      if the counter it has *read*, plus one, has reached the threshold

Calls that read the row before any of them has raised the counter all evaluate their password
(`parallel_guesses_outrun_lock`), a replica that lags hides counter and lock alike, and the
threshold is that of whichever organisation the caller names.

As long as every wrong password starts from the current columns, after the one before it has come
to its end, and under a threshold of the user's own (`InTurn`), the lock comes in time
(`locked_in_time`).
-/

namespace WorkPlatform.Auth

open Machinery

/-! ## The tally of an account -/

/-- The wrong passwords evaluated for the user since the account was last reset or locked. -/
def guesses (u : String) : List LoginEvent → ℕ
  | [] => 0
  | .evaluated v valid _ :: h => if v = u ∧ valid = false then guesses u h + 1 else guesses u h
  | .reset v :: h | .locked v :: h => if v = u then 0 else guesses u h

/-- The largest of the default and the `account_lockout_attempts` of the organisations the user
belongs to. -/
def LoginStore.maxAttempts (s : LoginStore) (u : String) : ℕ :=
  ((s.auth.primary.memberships.filter fun m => m.userId = u ∧ m.status = .active).filterMap
    fun m => s.lockoutAttempts m.orgId).foldr max defaultLockoutAttempts

/-- The threshold `login` will use. -/
def LoginStore.limit (s : LoginStore) (orgId : Option String) : ℕ :=
  match truthy orgId with
  | some org => s.thresholdOf org
  | none => defaultLockoutAttempts

theorem le_foldr_max (n : ℕ) : ∀ l : List ℕ, n ≤ l.foldr max n
  | [] => le_rfl
  | x :: l => (le_foldr_max n l).trans (le_max_right x _)

theorem maxAttempts_pos (s : LoginStore) (u : String) : 0 < s.maxAttempts u :=
  lt_of_lt_of_le (by decide : 0 < defaultLockoutAttempts) (le_foldr_max _ _)

/-! ## A call as a try -/

/-- Where a call stands with respect to the account `u`: only wrong passwords count. -/
def LoginCall.guess (cfg : LoginConfig) (s : LoginStore) (u : String) (c : LoginCall) : Try :=
  match c.pc with
  | .verify user _ =>
    if user.id = u ∧ passwordValid cfg c.password user = false then
      .reading user.lockout.failedLoginAttempts (s.limit c.orgId)
    else .outside
  | .threshold user org =>
    if user.id = u then .tried user.lockout.failedLoginAttempts (s.thresholdOf org) else .outside
  | .increment user lockoutAttempts =>
    if user.id = u then .tried user.lockout.failedLoginAttempts lockoutAttempts else .outside
  | .lock user _ => if user.id = u then .closing else .outside
  | _ => .outside

/-- The call has not read a row yet. -/
def LoginCall.fresh (c : LoginCall) : Prop := c.pc = .find

instance : DecidablePred LoginCall.fresh := fun c => inferInstanceAs (Decidable (c.pc = .find))

section Steps

variable {cfg : LoginConfig} {s s' : LoginStore} {c c' : LoginCall} {d : Draw} {u : String}
  {pc' : LoginPc}

theorem guess_congr (h : s'.lockoutAttempts = s.lockoutAttempts) (c : LoginCall) :
    c.guess cfg s' u = c.guess cfg s u := by
  unfold LoginCall.guess LoginStore.limit LoginStore.thresholdOf
  rw [h]

/-- A guess that is being counted is one with a wrong password of this user. -/
theorem verify_of_reading {seen limit : ℕ} (h : c.guess cfg s u = .reading seen limit) :
    ∃ user locked, c.pc = .verify user locked ∧ user.id = u
      ∧ passwordValid cfg c.password user = false ∧ seen = user.lockout.failedLoginAttempts
      ∧ limit = s.limit c.orgId := by
  unfold LoginCall.guess at h
  split at h
  case h_1 user locked hpc =>
    split at h
    · rename_i hwrong
      obtain ⟨rfl, rfl⟩ := Try.reading.inj h
      exact ⟨user, locked, hpc, hwrong.1, hwrong.2, rfl, rfl⟩
    · cases h
  case h_5 => cases h
  all_goals
    split at h <;> cases h

/-- No statement of `login` writes a membership or an organisation. -/
theorem login_frame {email password : String} {orgId : Option String} {pc : LoginPc}
    (h : loginNext cfg s d email password orgId pc = some (s', pc')) :
    s'.lockoutAttempts = s.lockoutAttempts ∧ s'.auth.primary = s.auth.primary := by
  cases pc with
  | verify user locked =>
    obtain ⟨rfl, -⟩ := Prod.mk.inj (Option.some.inj h)
    unfold LoginStore.evaluate
    split <;> exact ⟨rfl, rfl⟩
  | touch user =>
    rw [loginNext] at h
    split at h <;> (obtain ⟨rfl, -⟩ := Prod.mk.inj (Option.some.inj h); exact ⟨rfl, rfl⟩)
  | lookupRole user org =>
    rw [loginNext] at h
    split at h <;> (obtain ⟨rfl, -⟩ := Prod.mk.inj (Option.some.inj h); exact ⟨rfl, rfl⟩)
  | insert m =>
    rw [loginNext] at h
    split at h
    · rename_i a ha
      obtain ⟨t, -, rfl⟩ := Store.createRefreshToken_eq ha
      obtain ⟨rfl, -⟩ := Prod.mk.inj (Option.some.inj h)
      exact ⟨rfl, rfl⟩
    · obtain ⟨rfl, -⟩ := Prod.mk.inj (Option.some.inj h)
      exact ⟨rfl, rfl⟩
  | returned _ | threw _ | failed => cases h
  | _ =>
    obtain ⟨rfl, -⟩ := Prod.mk.inj (Option.some.inj h)
    exact ⟨rfl, rfl⟩

/-- The row whose password hash a call is about to evaluate its password against: found, verified
and not locked. -/
def LoginCall.entering (cfg : LoginConfig) (s : LoginStore) (c : LoginCall) : Option Account :=
  if c.pc = .find then
    (s.findUserByEmail (cfg.normalizeEmail c.email)).filter fun user =>
      user.row.emailVerified ∧ ¬ user.lockout.lockedAt s.auth.now
  else none

theorem findUserByEmail_lockout {email : String} {user : Account}
    (h : s.findUserByEmail email = some user) : user.lockout = s.replica.lockouts user.id := by
  unfold LoginStore.findUserByEmail at h
  obtain ⟨id, -, h⟩ := Option.bind_eq_some_iff.mp h
  obtain ⟨row, -, h⟩ := Option.bind_eq_some_iff.mp h
  obtain rfl := Option.some.inj h
  rfl

/-- The checks end in an error or at the password. -/
theorem found_cases (s : LoginStore) (o : Option Account) :
    (∃ e, LoginPc.found s o = .threw e) ∨ ∃ user, o = some user ∧ user.row.emailVerified = true
      ∧ user.lockout.lockedAt s.auth.now = false
      ∧ LoginPc.found s o = .verify user ((s.primary.lockouts user.id).lockedAt s.auth.now) := by
  cases o with
  | none => exact Or.inl ⟨_, rfl⟩
  | some user =>
    rw [LoginPc.found]
    split
    · exact Or.inl ⟨_, rfl⟩
    split
    · exact Or.inl ⟨_, rfl⟩
    · rename_i hverified hlocked
      exact Or.inr ⟨user, rfl, by simpa using hverified, by simpa using hlocked, rfl⟩

/-- A call that gets to its password has entered, with what the replica said of the account. -/
theorem entering_of_find (hpc : c.pc = .find)
    (h : loginNext cfg s d c.email c.password c.orgId c.pc = some (s', pc')) :
    s' = s ∧ ((∃ e, pc' = .threw e) ∨ ∃ user ∈ c.entering cfg s,
      user.lockout = s.replica.lockouts user.id ∧ user.lockout.lockedAt s.auth.now = false
        ∧ pc' = .verify user ((s.primary.lockouts user.id).lockedAt s.auth.now)) := by
  rw [hpc] at h
  obtain ⟨rfl, rfl⟩ := Prod.mk.inj (Option.some.inj h)
  refine ⟨rfl, ?_⟩
  rcases found_cases s (s.findUserByEmail (cfg.normalizeEmail c.email)) with
    he | ⟨user, hu, hv, hl, hf⟩
  · exact Or.inl he
  · refine Or.inr ⟨user, ?_, findUserByEmail_lockout hu, hl, hf⟩
    rw [LoginCall.entering, if_pos hpc, hu]
    simp [hv, hl]

/-- Only the first statement leads to the password. -/
theorem find_of_verify {user : Account} {locked : Bool}
    (h : loginNext cfg s d c.email c.password c.orgId c.pc = some (s', .verify user locked)) :
    c.pc = .find := by
  obtain ⟨email, password, orgId, pc⟩ := c
  cases pc with
  | find => rfl
  | verify user' l =>
    obtain ⟨-, hpc⟩ := Prod.mk.inj (Option.some.inj h)
    unfold LoginPc.verified at hpc
    split at hpc
    · cases hpc
    · split at hpc <;> cases hpc
  | increment user' k =>
    obtain ⟨-, hpc⟩ := Prod.mk.inj (Option.some.inj h)
    unfold LoginPc.counted at hpc
    split at hpc <;> cases hpc
  | touch _ | lookupRole _ _ | insert _ =>
    rw [loginNext] at h
    split at h <;> cases (Prod.mk.inj (Option.some.inj h)).2
  | returned _ | threw _ | failed => cases h
  | _ => cases (Prod.mk.inj (Option.some.inj h)).2

/-- An evaluation adds one guess where the password is wrong, and none else. -/
theorem guesses_evaluate (password : String) (user : Account) (locked : Bool) :
    guesses u (s.evaluate cfg password user locked).history
      = if (truthy user.row.passwordHash).isSome ∧ user.id = u
          ∧ passwordValid cfg password user = false
        then guesses u s.history + 1 else guesses u s.history := by
  unfold LoginStore.evaluate
  by_cases hhash : (truthy user.row.passwordHash).isSome
  · rw [if_pos hhash]
    simp [LoginStore.record, guesses, hhash]
  · rw [if_neg hhash]
    simp [hhash]

theorem evaluate_primary (password : String) (user : Account) (locked : Bool) :
    (s.evaluate cfg password user locked).primary = s.primary := by
  unfold LoginStore.evaluate
  split <;> rfl

/-- The move of `verifyPassword`. -/
theorem guess_verify (password : String) (email : String) (orgId : Option String) (user : Account)
    (locked : Bool) :
    Try.Step (s.primary.lockouts u).failedLoginAttempts (guesses u s.history)
      (LoginCall.guess cfg s u ⟨email, password, orgId, .verify user locked⟩)
      (s.primary.lockouts u).failedLoginAttempts
      (guesses u (s.evaluate cfg password user locked).history)
      (LoginCall.guess cfg s u
        ⟨email, password, orgId, .verified orgId user (passwordValid cfg password user)⟩) := by
  rw [guesses_evaluate]
  by_cases hwrong : user.id = u ∧ passwordValid cfg password user = false
  · have hpc : LoginCall.guess cfg s u ⟨email, password, orgId, .verified orgId user false⟩
        = .tried user.lockout.failedLoginAttempts (s.limit orgId) := by
      unfold LoginPc.verified LoginStore.limit LoginCall.guess
      cases truthy orgId <;> simp [hwrong.1]
    rw [hwrong.2, hpc]
    simp only [LoginCall.guess, hwrong, and_self, if_true, and_true]
    split
    · exact .attempt _ _
    · exact .pass _ _
  · have hpc : LoginCall.guess cfg s u
        ⟨email, password, orgId, .verified orgId user (passwordValid cfg password user)⟩
          = .outside := by
      unfold LoginPc.verified LoginCall.guess
      cases hv : passwordValid cfg password user with
      | true => rfl
      | false =>
        have hne : user.id ≠ u := fun hu => hwrong ⟨hu, hv⟩
        cases truthy orgId <;> simp [hne]
    rw [hpc, if_neg fun h => hwrong h.2]
    simp only [LoginCall.guess, hwrong, if_false]
    exact .stay _

/-- The move of `incrementFailedLoginAttempts`. -/
theorem guess_increment (password email : String) (orgId : Option String) (user : Account)
    (lockoutAttempts : ℕ) :
    Try.Step (s.primary.lockouts u).failedLoginAttempts (guesses u s.history)
      (LoginCall.guess cfg s u ⟨email, password, orgId, .increment user lockoutAttempts⟩)
      ((s.incrementFailedLoginAttempts user.id).primary.lockouts u).failedLoginAttempts
      (guesses u (s.incrementFailedLoginAttempts user.id).history)
      (LoginCall.guess cfg s u
        ⟨email, password, orgId, .counted s.auth.now user lockoutAttempts⟩) := by
  unfold LoginPc.counted
  by_cases hu : user.id = u
  · subst hu
    have hraise : ((s.incrementFailedLoginAttempts user.id).primary.lockouts user.id)
        = ⟨(s.primary.lockouts user.id).failedLoginAttempts + 1, _⟩ := Function.update_self ..
    rw [hraise]
    split
    · rename_i hreach
      simp only [LoginCall.guess, if_true]
      exact .reach hreach
    · rename_i hbelow
      simp only [LoginCall.guess, if_true]
      exact .raise (Nat.lt_of_not_le hbelow)
  · rw [show (s.incrementFailedLoginAttempts user.id).primary.lockouts u = s.primary.lockouts u
      from Function.update_of_ne (Ne.symm hu) ..]
    split <;> simp only [LoginCall.guess, hu, if_false] <;> exact .stay _

/-- The move of `lockUser`. -/
theorem guess_lock (password email : String) (orgId : Option String) (user : Account)
    (lockUntil : ℕ) (e : AppError) :
    Try.Step (s.primary.lockouts u).failedLoginAttempts (guesses u s.history)
      (LoginCall.guess cfg s u ⟨email, password, orgId, .lock user lockUntil⟩)
      ((s.lockUser user.id lockUntil).primary.lockouts u).failedLoginAttempts
      (guesses u (s.lockUser user.id lockUntil).history)
      (LoginCall.guess cfg s u ⟨email, password, orgId, .threw e⟩) := by
  by_cases hu : user.id = u
  · subst hu
    rw [show (s.lockUser user.id lockUntil).primary.lockouts user.id
      = ⟨(s.primary.lockouts user.id).failedLoginAttempts, _⟩ from Function.update_self ..]
    simp only [LoginCall.guess, LoginStore.lockUser, LoginStore.record, guesses, if_true]
    exact .close
  · rw [show (s.lockUser user.id lockUntil).primary.lockouts u = s.primary.lockouts u
      from Function.update_of_ne (Ne.symm hu) ..]
    simp only [LoginCall.guess, LoginStore.lockUser, LoginStore.record, guesses, hu, if_false]
    exact .stay _

/-- The move of `resetFailedLoginAttempts`. -/
theorem guess_reset (password email : String) (orgId : Option String) (user : Account) :
    Try.Step (s.primary.lockouts u).failedLoginAttempts (guesses u s.history)
      (LoginCall.guess cfg s u ⟨email, password, orgId, .reset user⟩)
      ((s.resetFailedLoginAttempts user.id).primary.lockouts u).failedLoginAttempts
      (guesses u (s.resetFailedLoginAttempts user.id).history)
      (LoginCall.guess cfg s u ⟨email, password, orgId, .touch user⟩) := by
  by_cases hu : user.id = u
  · subst hu
    rw [show (s.resetFailedLoginAttempts user.id).primary.lockouts user.id = ⟨0, none⟩
      from Function.update_self ..]
    simp only [LoginCall.guess, LoginStore.resetFailedLoginAttempts, LoginStore.record, guesses,
      if_true]
    exact .reset
  · rw [show (s.resetFailedLoginAttempts user.id).primary.lockouts u = s.primary.lockouts u
      from Function.update_of_ne (Ne.symm hu) ..]
    simp only [LoginCall.guess, LoginStore.resetFailedLoginAttempts, LoginStore.record, guesses,
      hu, if_false]
    exact .stay _

/-- **One statement, seen from the account**: it is a step of a try. -/
theorem guess_step (h : loginNext cfg s d c.email c.password c.orgId c.pc = some (s', pc'))
    (hcurrent : ∀ user ∈ c.entering cfg s, user.id = u →
      s.replica.lockouts u = s.primary.lockouts u) :
    Try.Step (s.primary.lockouts u).failedLoginAttempts (guesses u s.history) (c.guess cfg s u)
      (s'.primary.lockouts u).failedLoginAttempts (guesses u s'.history)
      (LoginCall.guess cfg s u { c with pc := pc' }) := by
  obtain ⟨email, password, orgId, pc⟩ := c
  cases pc with
  | find =>
    obtain ⟨rfl, ⟨e, rfl⟩ | ⟨user, hin, hrow, -, rfl⟩⟩ := entering_of_find rfl h
    · exact .stay _
    · simp only [LoginCall.guess]
      split
      · rename_i hwrong
        refine .read _ ?_
        rw [hrow, hwrong.1, hcurrent user hin hwrong.1]
      · exact .stay _
  | verify user locked =>
    obtain ⟨rfl, rfl⟩ := Prod.mk.inj (Option.some.inj h)
    rw [evaluate_primary]
    exact guess_verify password email orgId user locked
  | threshold user org =>
    obtain ⟨rfl, rfl⟩ := Prod.mk.inj (Option.some.inj h)
    exact .stay _
  | increment user lockoutAttempts =>
    obtain ⟨rfl, rfl⟩ := Prod.mk.inj (Option.some.inj h)
    exact guess_increment password email orgId user lockoutAttempts
  | lock user lockUntil =>
    obtain ⟨rfl, rfl⟩ := Prod.mk.inj (Option.some.inj h)
    exact guess_lock password email orgId user lockUntil _
  | reset user =>
    obtain ⟨rfl, rfl⟩ := Prod.mk.inj (Option.some.inj h)
    exact guess_reset password email orgId user
  | touch user =>
    rw [loginNext] at h
    split at h <;> (obtain ⟨rfl, rfl⟩ := Prod.mk.inj (Option.some.inj h); exact .stay _)
  | lookupRole user org =>
    rw [loginNext] at h
    split at h <;> (obtain ⟨rfl, rfl⟩ := Prod.mk.inj (Option.some.inj h); exact .stay _)
  | insert m =>
    rw [loginNext] at h
    split at h <;> (obtain ⟨rfl, rfl⟩ := Prod.mk.inj (Option.some.inj h); exact .stay _)
  | audit m =>
    obtain ⟨rfl, rfl⟩ := Prod.mk.inj (Option.some.inj h)
    exact .stay _
  | returned _ | threw _ | failed => cases h

/-- A password that is evaluated was evaluated by the call at `verify`. -/
theorem evaluated_next {valid locked : Bool}
    (h : loginNext cfg s d c.email c.password c.orgId c.pc = some (s', pc'))
    (he : .evaluated u valid locked ∈ s'.history) :
    .evaluated u valid locked ∈ s.history ∨ ∃ user, c.pc = .verify user locked ∧ user.id = u := by
  obtain ⟨email, password, orgId, pc⟩ := c
  cases pc with
  | verify user l =>
    obtain ⟨rfl, rfl⟩ := Prod.mk.inj (Option.some.inj h)
    unfold LoginStore.evaluate at he
    split at he
    · rcases List.mem_cons.mp he with heq | hold
      · cases heq
        exact Or.inr ⟨user, rfl, rfl⟩
      · exact Or.inl hold
    · exact Or.inl he
  | lock user lockUntil | reset user =>
    obtain ⟨rfl, rfl⟩ := Prod.mk.inj (Option.some.inj h)
    rcases List.mem_cons.mp he with heq | hold
    · cases heq
    · exact Or.inl hold
  | touch _ | lookupRole _ _ | insert _ =>
    rw [loginNext] at h
    split at h <;> (obtain ⟨rfl, rfl⟩ := Prod.mk.inj (Option.some.inj h); exact Or.inl he)
  | returned _ | threw _ | failed => cases h
  | _ =>
    obtain ⟨rfl, rfl⟩ := Prod.mk.inj (Option.some.inj h)
    exact Or.inl he

end Steps

/-! ## Wrong passwords one after another -/

section Runs

variable {ι : Type*} {cfg : LoginConfig} {u : String}

/-- Logins over the stores. -/
abbrev Logins (ι : Type*) := Pool ι LoginStore LoginCall

/-- **A password is evaluated for the account in turn**: the call reads the columns the primary has;
and where the password is wrong, no other call is on its way from reading the row for a wrong
password to the end of its statements (or has crashed there), and the organisation it names has no
threshold beyond the user's own. -/
def InTurn (cfg : LoginConfig) (u : String) (p : Logins ι) : Move ι Draw LoginEnv → Prop
  | .run i _ =>
    let c := (p.calls i).at'
    ∀ user ∈ c.entering cfg p.store, user.id = u →
      p.store.replica.lockouts u = p.store.primary.lockouts u
        ∧ (passwordValid cfg c.password user = false →
          p.store.limit c.orgId ≤ p.store.maxAttempts u
            ∧ ∀ j, j ≠ i → (p.calls j).at'.guess cfg p.store u = .outside)
  | _ => True

/-- What the record of an account says: never more than `N` wrong passwords since it was last reset
or locked, and none evaluated by a call that started while it was locked. -/
structure LockedInTime (u : String) (N : ℕ) (s : LoginStore) : Prop where
  bounded : guesses u s.history ≤ N
  unlocked : ∀ valid locked, .evaluated u valid locked ∈ s.history → locked = false

/-- What runs with passwords in turn keep. -/
structure LockoutInv (cfg : LoginConfig) (u : String) (N : ℕ) (p : Logins ι) : Prop where
  max : p.store.maxAttempts u = N
  tally : Tally N (p.store.primary.lockouts u).failedLoginAttempts (guesses u p.store.history)
    fun i => (p.calls i).at'.guess cfg p.store u
  started : ∀ i user locked, (p.calls i).at'.pc = .verify user locked → user.id = u →
    locked = false
  unlocked : ∀ valid locked, .evaluated u valid locked ∈ p.store.history → locked = false

theorem LockoutInv.lockedInTime {N : ℕ} {p : Logins ι} (h : LockoutInv cfg u N p) :
    LockedInTime u N p.store where
  bounded := h.tally.le (h.max ▸ maxAttempts_pos p.store u)
  unlocked := h.unlocked

/-- Before the first attempt the tally is at its start. -/
theorem lockoutInv_of_fresh {p : Logins ι} (hstart : ∀ i, (p.calls i).Live LoginCall.fresh)
    (h₀ : p.store.history = []) : LockoutInv cfg u (p.store.maxAttempts u) p := by
  have hpc : ∀ i, (p.calls i).at'.pc = .find := by
    intro i
    obtain ⟨c, hc, hfresh⟩ := (hstart i).exists
    rw [hc]
    exact hfresh
  refine ⟨rfl, ?_, fun i user locked h => ?_, fun valid locked h => ?_⟩
  · rw [h₀]
    refine Tally.of_outside fun i => ?_
    rw [LoginCall.guess, hpc i]
  · rw [hpc i] at h
    cases h
  · rw [h₀] at h
    cases h

variable [DecidableEq ι] {N : ℕ} {c c' : LoginCall} {s' : LoginStore} {d : Draw}

/-- A statement taken in turn. -/
theorem LockoutInv.run {p : Logins ι} {i : ι} (h : LockoutInv cfg u N p)
    (hturn : InTurn cfg u p (.run i d)) (hi : p.calls i = .up c)
    (hn : (loginMachine cfg).next p.store c d = some (s', c')) :
    LockoutInv cfg u N ⟨s', Function.update p.calls i (.up c')⟩ := by
  obtain ⟨pc', hpc, rfl⟩ := loginMachine_next hn
  obtain ⟨horgs, hprimary⟩ := login_frame hpc
  have hci : (p.calls i).at' = c := by rw [hi]; rfl
  simp only [InTurn, hci] at hturn
  refine ⟨?_, ?_, ?_, ?_⟩
  · rw [← h.max, LoginStore.maxAttempts, LoginStore.maxAttempts, horgs, hprimary]
  · have hguess :
        (fun j => (Function.update p.calls i (.up { c with pc := pc' }) j).at'.guess cfg s' u)
        = Function.update (fun j => (p.calls j).at'.guess cfg p.store u) i
          (LoginCall.guess cfg p.store u { c with pc := pc' }) := by
      funext j
      rw [guess_congr horgs]
      exact Function.apply_update (fun _ x => x.at'.guess cfg p.store u) p.calls i _ j
    have hstep := guess_step hpc fun user hin hu => (hturn user hin hu).1
    dsimp only
    rw [hguess]
    refine h.tally.step (h.max ▸ maxAttempts_pos p.store u) (by rw [hci]; exact hstep)
      fun seen limit _ hread => ?_
    obtain ⟨user, locked, hverify, hu, hwrong, -, rfl⟩ := verify_of_reading hread
    obtain rfl : pc' = .verify user locked := hverify
    obtain ⟨-, ⟨e, he⟩ | ⟨user', hin, -, -, hv⟩⟩ := entering_of_find (find_of_verify hpc) hpc
    · cases he
    · obtain ⟨rfl, -⟩ := LoginPc.verify.inj hv
      rw [← h.max]
      exact (hturn user hin hu).2 hwrong
  · intro j user locked hj hu
    rcases update_cases (fun x : Proc LoginCall => x.at'.pc = .verify user locked) hj with
      ⟨-, hself⟩ | ⟨-, hother⟩
    · obtain rfl : pc' = .verify user locked := hself
      obtain ⟨-, ⟨e, he⟩ | ⟨user', hin, hrow, hfree, hv⟩⟩ :=
        entering_of_find (find_of_verify hpc) hpc
      · cases he
      · obtain ⟨rfl, rfl⟩ := LoginPc.verify.inj hv
        rw [hu, ← (hturn user hin hu).1, ← hu, ← hrow]
        exact hfree
    · exact h.started j user locked hother hu
  · intro valid locked he
    rcases evaluated_next hpc he with hold | ⟨user, hv, hu⟩
    · exact h.unlocked valid locked hold
    · exact h.started i user locked (by rw [hci]; exact hv) hu

theorem LockoutInv.crash {p : Logins ι} {i : ι} (h : LockoutInv cfg u N p)
    (hi : p.calls i = .up c) :
    LockoutInv cfg u N ⟨p.store, Function.update p.calls i (.down c)⟩ := by
  refine ⟨h.max, ?_, fun j => ?_, h.unlocked⟩
  · simp only [at'_update_down hi]
    exact h.tally
  · rw [at'_update_down hi]
    exact h.started j

omit [DecidableEq ι] in
theorem LockoutInv.env {p : Logins ι} (h : LockoutInv cfg u N p) (e : LoginEnv) :
    LockoutInv cfg u N ⟨loginEnv p.store e, p.calls⟩ := by
  cases e with
  | tick ms => exact ⟨h.max, h.tally, h.started, h.unlocked⟩
  | replicate => exact ⟨h.max, h.tally, h.started, h.unlocked⟩

/-- **The lock comes in time**, in every run in which the account's passwords are evaluated in
turn. -/
theorem locked_in_time {p q : Logins ι} (hstart : ∀ i, (p.calls i).Live LoginCall.fresh)
    (h₀ : p.store.history = [])
    (hrun : Run (Pool.step (loginMachine cfg)) (InTurn cfg u) p q) :
    LockedInTime u (p.store.maxAttempts u) q.store := by
  have hinv : LockoutInv cfg u (p.store.maxAttempts u) q :=
    Pool.invariant (I := LockoutInv cfg u (p.store.maxAttempts u)) (lockoutInv_of_fresh hstart h₀)
      (fun p i d c s' c' h hG hi hn => h.run hG hi hn) (fun p i c h _ hi => h.crash hi)
      (fun p e h _ => h.env e) hrun
  exact hinv.lockedInTime

end Runs

/-! ## Six guesses -/

section Guard

variable {ι : Type*} [Fintype ι] [DecidableEq ι]

instance (cfg : LoginConfig) (u : String) (p : Logins ι) :
    ∀ m : Move ι Draw LoginEnv, Decidable (InTurn cfg u p m)
  | .run i _ =>
    inferInstanceAs (Decidable (∀ user ∈ (p.calls i).at'.entering cfg p.store, user.id = u →
      p.store.replica.lockouts u = p.store.primary.lockouts u
        ∧ (passwordValid cfg (p.calls i).at'.password user = false →
          p.store.limit (p.calls i).at'.orgId ≤ p.store.maxAttempts u
            ∧ ∀ j, j ≠ i → (p.calls j).at'.guess cfg p.store u = .outside)))
  | .crash _ => inferInstanceAs (Decidable True)
  | .env _ => inferInstanceAs (Decidable True)

end Guard

/-- A password matches the hash that is the password itself. -/
def demoLoginConfig : LoginConfig where
  toConfig := demoConfig
  normalizeEmail := id
  verifyPassword password hash := password = hash

/-- The user `u` with the email `u@x`, never failed and not locked. -/
def demoAccounts : Accounts where
  emails email := if email = "u@x" then some "u" else none
  lockouts _ := ⟨0, none⟩

/-- No organisation raises the default of five attempts. -/
def demoLogins : LoginStore where
  auth := demoSession
  primary := demoAccounts
  replica := demoAccounts
  lockoutAttempts _ := none
  history := []

/-- Six calls with a wrong password. -/
def sixGuesses : Logins (Fin 6) := ⟨demoLogins, fun _ => .up ⟨"u@x", "guess", none, .find⟩⟩

theorem sixGuesses_fresh (i : Fin 6) : (sixGuesses.calls i).Live LoginCall.fresh := rfl

def noDraw : Draw := ⟨"", "", "", "", "", true⟩

/-- **All six read the row before any of them raises the counter**: six wrong passwords are
evaluated, and nothing has locked the account. -/
theorem parallel_guesses_outrun_lock :
    (∀ i, (sixGuesses.calls i).Live LoginCall.fresh) ∧ sixGuesses.store.history = []
      ∧ sixGuesses.store.primary.lockouts "u" = ⟨0, none⟩
      ∧ ∃ q, Run (Pool.step (loginMachine demoLoginConfig)) anyStep sixGuesses q
        ∧ .locked "u" ∉ q.store.history
        ∧ sixGuesses.store.maxAttempts "u" < guesses "u" q.store.history
        ∧ ¬ LockedInTime "u" (sixGuesses.store.maxAttempts "u") q.store := by
  refine ⟨sixGuesses_fresh, rfl, rfl, ?_⟩
  obtain ⟨q, hq, h⟩ := exists_run_of_exec (Pool.step (loginMachine demoLoginConfig)) anyStep
    sixGuesses (List.flatten [(List.finRange 6).map (.run · noDraw),
      (List.finRange 6).map (.run · noDraw)])
    (fun q => .locked "u" ∉ q.store.history
      ∧ sixGuesses.store.maxAttempts "u" < guesses "u" q.store.history) (by decide)
  obtain ⟨hlocked, hmore⟩ := of_decide_eq_true h
  exact ⟨q, hq, hlocked, hmore, fun h => Nat.not_lt_of_le h.bounded hmore⟩

/-- One after another, with the replica caught up before each: the sixth is not evaluated. -/
theorem locked_in_time_six_in_turn :
    ∃ q, Run (Pool.step (loginMachine demoLoginConfig)) (InTurn demoLoginConfig "u") sixGuesses q
      ∧ q.calls 5 = .up ⟨"u@x", "guess", none, .threw accountLocked⟩
      ∧ LockedInTime "u" (sixGuesses.store.maxAttempts "u") q.store := by
  obtain ⟨q, hq, h⟩ := exists_run_of_exec (Pool.step (loginMachine demoLoginConfig))
    (InTurn demoLoginConfig "u") sixGuesses
    (List.flatten [[0, 1, 2, 3].flatMap fun i => [.run i noDraw, .run i noDraw, .run i noDraw,
        .env .replicate],
      [.run 4 noDraw, .run 4 noDraw, .run 4 noDraw, .run 4 noDraw, .env .replicate, .run 5 noDraw]])
    (fun q => q.calls 5 = .up ⟨"u@x", "guess", none, .threw accountLocked⟩) (by decide)
  exact ⟨q, hq, of_decide_eq_true h, locked_in_time sixGuesses_fresh rfl hq⟩

end WorkPlatform.Auth

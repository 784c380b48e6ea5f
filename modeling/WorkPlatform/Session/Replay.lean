import WorkPlatform.Session.Standing

/-!
# Session/Replay — one token pair for one SAML assertion

    handleCallback   … validate ▸ SELECT saml_used_assertions ▸ INSERT … ▸ issueTokenPair
    cleanup          DELETE … WHERE not_on_or_after < NOW() - INTERVAL '24 hours'

An assertion is spent as long as its row is there, and three clocks say how long: what the library
accepts, the date that is stored, and the buffer of the cleanup.  Without `notOnOrAfter` in the
profile the date is an hour away, so that an assertion which is valid for two days is spent twice
(`assertion_spent_twice`).  Where the stored date and the buffer outlast the assertion, and no
callback sleeps over the cleanup, it is spent once (`one_pair_per_assertion`).
-/

namespace WorkPlatform.Session

open Machinery
open Auth (TokenPair)

/-! ## The profile and its date -/

/-- A profile, with `notOnOrAfter` or else `sessionNotOnOrAfter`. -/
structure AssertionProfile extends SamlProfile where
  notOnOrAfter : Option String
  deriving DecidableEq

/-- The configuration, what `new Date` makes of a text (`none` is an invalid date), and
`validatePostResponseAsync` at a time of the clock. -/
structure ReplayConfig where
  org : Organization.Config
  parseDate : String → Option ℕ
  validate : OrgSamlConfig → ℕ → String → Option AssertionProfile

def ReplayConfig.toConfig (cfg : ReplayConfig) : Config :=
  ⟨cfg.org, fun saml now response => (cfg.validate saml now response).map (·.toSamlProfile)⟩

/-- `notOnOrAfterRaw ? new Date(notOnOrAfterRaw) : new Date(Date.now() + 60 * 60 * 1000)`. -/
def storedDate (cfg : ReplayConfig) (now : ℕ) (profile : AssertionProfile) : Option ℕ :=
  match Auth.truthy profile.notOnOrAfter with
  | some raw => cfg.parseDate raw
  | none => some (now + 60 * 60 * 1000)

/-! ## The table -/

/-- A row of `saml_used_assertions`. -/
structure UsedAssertion where
  assertionId : String
  orgId : String
  notOnOrAfter : ℕ
  deriving DecidableEq

def UsedAssertion.key (r : UsedAssertion) : String × String := (r.assertionId, r.orgId)

/-- The 24 hours of the cleanup, in milliseconds. -/
def cleanupBuffer : ℕ := 24 * 60 * 60 * 1000

/-- The cleanup deletes the row. -/
def UsedAssertion.purged (now : ℕ) (r : UsedAssertion) : Bool :=
  r.notOnOrAfter + cleanupBuffer < now

/-- The rows of the used assertions stand beside the stores of the session. -/
structure ReplayStore where
  core : Store
  used : List UsedAssertion

namespace ReplayStore

def now (s : ReplayStore) : ℕ := s.core.now

def keys (s : ReplayStore) : List (String × String) := s.used.map (·.key)

/-- The stores of the session, with the table as `handleCallback` reads it. -/
def session (s : ReplayStore) : Store := { s.core with usedAssertions := s.keys }

/-- The fifth statement of `runCleanupJob`. -/
def cleanup (s : ReplayStore) : ReplayStore :=
  { s with used := s.used.filter fun r => ¬ r.purged s.now }

end ReplayStore

/-! ## `handleCallback` -/

/-- A call, with the assertion it has validated and the date it will store. -/
structure Callback where
  orgId : String
  samlResponse : String
  pc : SamlPc
  assertionId : Option String
  notOnOrAfter : Option ℕ
  deriving DecidableEq

/-- The next statement of `handleCallback`, which keeps what it needs of the assertion. -/
def callbackNext (cfg : ReplayConfig) (s : ReplayStore) (d : Draw) (c : Callback) :
    Option (ReplayStore × Callback) :=
  match c.pc, c.notOnOrAfter with
  | .validate saml, _ =>
    let profile := cfg.validate saml s.now c.samlResponse
    (samlNext cfg.toConfig s.session d c.orgId c.samlResponse c.pc).map fun x =>
      (⟨x.1, s.used⟩, { c with
        pc := x.2
        assertionId := profile.bind fun profile => Auth.truthy profile.id
        notOnOrAfter := profile.bind (storedDate cfg s.now) })
  -- PostgreSQL refuses an invalid date
  | .insertAssertion _ _, none => some (s, { c with pc := .failed })
  | .insertAssertion assertionId email, some date =>
    (samlNext cfg.toConfig s.session d c.orgId c.samlResponse c.pc).map fun x =>
      (⟨x.1, if x.2 = .findProvider email then ⟨assertionId, c.orgId, date⟩ :: s.used else s.used⟩,
        { c with pc := x.2 })
  | _, _ =>
    (samlNext cfg.toConfig s.session d c.orgId c.samlResponse c.pc).map fun x =>
      (⟨x.1, s.used⟩, { c with pc := x.2 })

/-- Time, replication, and the hourly cleanup. -/
inductive ReplayEnv
  | tick (ms : ℕ)
  | replicate
  | cleanup

/-- Time, replication and the clean-up of assertions. -/
def replayEnv (s : ReplayStore) : ReplayEnv → ReplayStore
  | .tick ms => { s with core := env s.core (.tick ms) }
  | .replicate => { s with core := env s.core .replicate }
  | .cleanup => s.cleanup

def replayMachine (cfg : ReplayConfig) : Machine ReplayStore Callback Draw ReplayEnv :=
  ⟨fun s c d => callbackNext cfg s d c, replayEnv⟩

abbrev Callbacks (ι : Type*) := Pool ι ReplayStore Callback

/-! ## What a call means to the table -/

/-- An assertion that is validated is presented until its row is inserted, and spent from then
on. -/
inductive Pass
  | outside
  | presenting (assertionId : String)
  | spent (assertionId : String)
  deriving DecidableEq

/-- The assertion a call is about to look up, or to insert. -/
def SamlPc.presented : SamlPc → Option String
  | .replay assertionId _ | .insertAssertion assertionId _ => some assertionId
  | _ => none

/-- The call has inserted its assertion. -/
def SamlPc.recorded : SamlPc → Bool
  | .flag | .config | .validate _ | .replay _ _ | .insertAssertion _ _ | .threw _ | .failed => false
  | _ => true

/-- What a callback makes of its assertion. -/
def Callback.pass (c : Callback) : Pass :=
  match c.pc.presented, c.assertionId with
  | some assertionId, _ => .presenting assertionId
  | none, some assertionId => if c.pc.recorded then .spent assertionId else .outside
  | none, none => .outside

/-- A call presents the assertion it has validated. -/
def Callback.Coherent (c : Callback) : Prop :=
  ∀ assertionId, c.pc.presented = some assertionId → c.assertionId = some assertionId

/-- The library accepts an assertion until its own `NotOnOrAfter`. -/
def AcceptsUntil (cfg : ReplayConfig) (lifetime : String → ℕ) : Prop :=
  ∀ saml now response profile assertionId, cfg.validate saml now response = some profile →
    Auth.truthy profile.id = some assertionId → now < lifetime assertionId

/-- The steps of a call on the table. -/
inductive PassStep (lifetime : String → ℕ) (s : ReplayStore) (c : Callback) :
    Pass → List UsedAssertion → Pass → Prop
  | stay {x : Pass} : PassStep lifetime s c x s.used x
  | leave {x : Pass} : PassStep lifetime s c x s.used .outside
  | present {assertionId : String} : s.now < lifetime assertionId →
      PassStep lifetime s c .outside s.used (.presenting assertionId)
  | spend {assertionId email : String} {date : ℕ} : c.pc = .insertAssertion assertionId email →
      c.notOnOrAfter = some date → (assertionId, c.orgId) ∉ s.keys →
      PassStep lifetime s c (.presenting assertionId)
        (⟨assertionId, c.orgId, date⟩ :: s.used) (.spent assertionId)

section Steps

variable {cfg : ReplayConfig} {lifetime : String → ℕ} {s s' : ReplayStore} {d : Draw}
  {c c' : Callback}

/-- What a statement does to the assertion of its call. -/
def SamlPc.Follows (cfg : Config) (s : Store) (orgId samlResponse : String) (pc' : SamlPc) :
    SamlPc → Prop
  | .flag | .config => pc'.presented = none ∧ pc'.recorded = false
  | .validate saml =>
    pc' = .validated cfg.normalizeEmail (cfg.validatePostResponse saml s.now samlResponse)
  | .replay assertionId email => pc' = .insertAssertion assertionId email ∨ ∃ e, pc' = .threw e
  | .insertAssertion assertionId email =>
    pc' = .findProvider email ∧ (assertionId, orgId) ∉ s.usedAssertions ∨ pc' = .failed
  | _ => pc'.presented = none

/-- **One statement of `handleCallback`**: the clock stays, and the assertion goes its way. -/
theorem samlNext_follows {cfg : Config} {s s' : Store} {orgId samlResponse : String}
    {pc pc' : SamlPc} (h : samlNext cfg s d orgId samlResponse pc = some (s', pc')) :
    s'.now = s.now ∧ pc'.Follows cfg s orgId samlResponse pc := by
  cases pc with
  | flag =>
    obtain ⟨rfl, rfl⟩ := Prod.mk.inj (Option.some.inj h)
    refine ⟨rfl, ?_⟩
    split <;> exact ⟨rfl, rfl⟩
  | config =>
    obtain ⟨rfl, rfl⟩ := Prod.mk.inj (Option.some.inj h)
    refine ⟨rfl, ?_⟩
    split <;> exact ⟨rfl, rfl⟩
  | validate saml =>
    obtain ⟨rfl, rfl⟩ := Prod.mk.inj (Option.some.inj h)
    exact ⟨rfl, rfl⟩
  | replay assertionId email =>
    obtain ⟨rfl, rfl⟩ := Prod.mk.inj (Option.some.inj h)
    refine ⟨rfl, ?_⟩
    split
    · exact Or.inr ⟨_, rfl⟩
    · exact Or.inl rfl
  | insertAssertion assertionId email =>
    unfold samlNext at h
    dsimp only at h
    split at h
    · obtain ⟨rfl, rfl⟩ := Prod.mk.inj (Option.some.inj h)
      exact ⟨rfl, Or.inr rfl⟩
    · rename_i hnew
      obtain ⟨rfl, rfl⟩ := Prod.mk.inj (Option.some.inj h)
      exact ⟨rfl, Or.inl ⟨rfl, fun hmem => hnew (Or.inl hmem)⟩⟩
  | findProvider email =>
    obtain ⟨rfl, rfl⟩ := Prod.mk.inj (Option.some.inj h)
    refine ⟨rfl, ?_⟩
    split <;> rfl
  | findUser email =>
    obtain ⟨rfl, rfl⟩ := Prod.mk.inj (Option.some.inj h)
    refine ⟨rfl, ?_⟩
    split
    · rfl
    · split <;> rfl
  | createUser email =>
    unfold samlNext at h
    dsimp only at h
    split at h
    · rename_i l hcreate
      obtain ⟨rfl, rfl⟩ := Prod.mk.inj (Option.some.inj h)
      obtain ⟨-, users, primary, -, rfl⟩ := Organization.createUser_spec hcreate
      exact ⟨rfl, rfl⟩
    · obtain ⟨rfl, rfl⟩ := Prod.mk.inj (Option.some.inj h)
      exact ⟨rfl, rfl⟩
  | verifyEmail email userId =>
    obtain ⟨rfl, rfl⟩ := Prod.mk.inj (Option.some.inj h)
    exact ⟨Auth.updateUser_now s.login.auth userId .verifyEmail, rfl⟩
  | provider email userId =>
    unfold samlNext at h
    dsimp only at h
    split at h
    · obtain ⟨rfl, rfl⟩ := Prod.mk.inj (Option.some.inj h)
      exact ⟨rfl, rfl⟩
    · obtain ⟨rfl, rfl⟩ := Prod.mk.inj (Option.some.inj h)
      exact ⟨rfl, rfl⟩
  | insert m =>
    unfold samlNext at h
    dsimp only at h
    split at h
    · rename_i a hins
      obtain ⟨rfl, rfl⟩ := Prod.mk.inj (Option.some.inj h)
      obtain ⟨t, -, rfl⟩ := Auth.Store.createRefreshToken_eq hins
      exact ⟨rfl, rfl⟩
    · obtain ⟨rfl, rfl⟩ := Prod.mk.inj (Option.some.inj h)
      exact ⟨rfl, rfl⟩
  | returned pair => cases h
  | threw e => cases h
  | failed => cases h
  | _ =>
    obtain ⟨rfl, rfl⟩ := Prod.mk.inj (Option.some.inj h)
    exact ⟨rfl, rfl⟩

theorem pass_of_presented {a : String} (h : c.pc.presented = some a) : c.pass = .presenting a := by
  unfold Callback.pass
  rw [h]

/-- A callback that presents nothing and has recorded nothing has spent nothing. -/
theorem pass_of_outside (h : c.pc.presented = none) (hrec : c.pc.recorded = false) :
    c.pass = .outside := by
  unfold Callback.pass
  rw [h]
  cases c.assertionId with
  | none => rfl
  | some a =>
    dsimp only
    rw [hrec]
    rfl

theorem pass_of_spent {a : String} (h : c.pc.presented = none) (hrec : c.pc.recorded = true)
    (ha : c.assertionId = some a) : c.pass = .spent a := by
  unfold Callback.pass
  rw [h, ha]
  dsimp only
  rw [if_pos hrec]

/-- After its INSERT a call goes on with its assertion, or is over. -/
theorem pass_of_recorded {pc' : SamlPc} (h : c.pc.presented = none) (hrec : c.pc.recorded = true)
    (h' : pc'.presented = none) :
    { c with pc := pc' }.pass = c.pass ∨ { c with pc := pc' }.pass = .outside := by
  cases hrec' : pc'.recorded with
  | false => exact Or.inr (pass_of_outside h' hrec')
  | true =>
    refine Or.inl ?_
    rcases Option.eq_none_or_eq_some c.assertionId with ha | ⟨a, ha⟩
    · unfold Callback.pass
      rw [ha, h, h']
    · exact (pass_of_spent (c := { c with pc := pc' }) h' hrec' ha).trans
        (pass_of_spent h hrec ha).symm

/-- What a callback does beside the statement of the session. -/
theorem callbackNext_cases (h : callbackNext cfg s d c = some (s', c')) :
    (∃ saml x, c.pc = .validate saml
      ∧ samlNext cfg.toConfig s.session d c.orgId c.samlResponse c.pc = some x
      ∧ s' = ⟨x.1, s.used⟩ ∧ c' = { c with
        pc := x.2
        assertionId := (cfg.validate saml s.now c.samlResponse).bind (Auth.truthy ·.id)
        notOnOrAfter := (cfg.validate saml s.now c.samlResponse).bind (storedDate cfg s.now) })
    ∨ (∃ assertionId email, c.pc = .insertAssertion assertionId email ∧ s' = s
      ∧ c' = { c with pc := .failed })
    ∨ (∃ assertionId email date x, c.pc = .insertAssertion assertionId email
      ∧ c.notOnOrAfter = some date
      ∧ samlNext cfg.toConfig s.session d c.orgId c.samlResponse c.pc = some x
      ∧ s' = ⟨x.1, if x.2 = .findProvider email then ⟨assertionId, c.orgId, date⟩ :: s.used
        else s.used⟩ ∧ c' = { c with pc := x.2 })
    ∨ ∃ x, (∀ saml, c.pc ≠ .validate saml) ∧ (∀ a e, c.pc ≠ .insertAssertion a e)
      ∧ samlNext cfg.toConfig s.session d c.orgId c.samlResponse c.pc = some x
      ∧ s' = ⟨x.1, s.used⟩ ∧ c' = { c with pc := x.2 } := by
  unfold callbackNext at h
  split at h
  · rename_i saml hpc
    obtain ⟨x, hx, heq⟩ := Option.map_eq_some_iff.mp h
    obtain ⟨rfl, rfl⟩ := Prod.mk.inj heq
    exact Or.inl ⟨saml, x, hpc, hx, rfl, rfl⟩
  · rename_i assertionId email hpc _
    obtain ⟨rfl, rfl⟩ := Prod.mk.inj (Option.some.inj h)
    exact Or.inr (Or.inl ⟨assertionId, email, hpc, rfl, rfl⟩)
  · rename_i assertionId email date hpc hdate
    obtain ⟨x, hx, heq⟩ := Option.map_eq_some_iff.mp h
    obtain ⟨rfl, rfl⟩ := Prod.mk.inj heq
    exact Or.inr (Or.inr (Or.inl ⟨assertionId, email, date, x, hpc, hdate, hx, rfl, rfl⟩))
  · rename_i hvalidate hinsertNone hinsert
    obtain ⟨x, hx, heq⟩ := Option.map_eq_some_iff.mp h
    obtain ⟨rfl, rfl⟩ := Prod.mk.inj heq
    refine Or.inr (Or.inr (Or.inr ⟨x, hvalidate, fun a e hpc => ?_, hx, rfl, rfl⟩))
    cases hdate : c.notOnOrAfter with
    | none => exact hinsertNone a e hpc hdate
    | some date => exact hinsert a e date hpc hdate

theorem validated_recorded (f : String → String) (o : Option SamlProfile) :
    (SamlPc.validated f o).recorded = false := by
  unfold SamlPc.validated
  repeat' split
  all_goals rfl

/-- The assertion that is presented is the id of the profile. -/
theorem validated_presented {f : String → String} {o : Option SamlProfile} {a : String}
    (h : (SamlPc.validated f o).presented = some a) :
    ∃ profile, o = some profile ∧ Auth.truthy profile.id = some a := by
  unfold SamlPc.validated at h
  split at h
  · cases h
  · rename_i profile
    split at h
    · cases h
    · cases h
    · rename_i assertionId _ hid
      obtain rfl : assertionId = a := Option.some.inj h
      exact ⟨profile, rfl, hid⟩

/-- What the library accepts is presented, and is still valid. -/
theorem passStep_validate (hlife : AcceptsUntil cfg lifetime) {saml : OrgSamlConfig} {t : Store}
    {pc' : SamlPc} (hpc : c.pc = .validate saml)
    (hx : samlNext cfg.toConfig s.session d c.orgId c.samlResponse c.pc = some (t, pc'))
    (hc' : c' = { c with
      pc := pc'
      assertionId := (cfg.validate saml s.now c.samlResponse).bind (Auth.truthy ·.id)
      notOnOrAfter := (cfg.validate saml s.now c.samlResponse).bind (storedDate cfg s.now) }) :
    c'.Coherent ∧ PassStep lifetime s c c.pass s.used c'.pass := by
  have hout : c.pass = .outside := by
    refine pass_of_outside ?_ ?_ <;> rw [hpc] <;> rfl
  have hvalidated : c'.pc = .validated cfg.toConfig.normalizeEmail
      ((cfg.validate saml s.now c.samlResponse).map (·.toSamlProfile)) := by
    have hfollows := (samlNext_follows hx).2
    rw [hpc] at hfollows
    rw [hc']
    exact hfollows
  have hknown : ∀ a, c'.pc.presented = some a →
      ∃ profile, cfg.validate saml s.now c.samlResponse = some profile
        ∧ Auth.truthy profile.id = some a := by
    intro a ha
    rw [hvalidated] at ha
    obtain ⟨profile', hprofile', hid⟩ := validated_presented ha
    obtain ⟨profile, hprofile, rfl⟩ := Option.map_eq_some_iff.mp hprofile'
    exact ⟨profile, hprofile, hid⟩
  constructor
  · intro a ha
    obtain ⟨profile, hprofile, hid⟩ := hknown a ha
    rw [hc', hprofile]
    exact hid
  · rw [hout]
    cases hpres : c'.pc.presented with
    | none =>
      rw [pass_of_outside hpres (by rw [hvalidated]; exact validated_recorded _ _)]
      exact .stay
    | some a =>
      obtain ⟨profile, hprofile, hid⟩ := hknown a hpres
      rw [pass_of_presented hpres]
      exact .present (hlife saml _ _ profile a hprofile hid)

/-- An INSERT that does not fail spends the assertion. -/
theorem passStep_insert (hco : c.Coherent) {assertionId email : String} {date : ℕ} {t : Store}
    {pc' : SamlPc} (hpc : c.pc = .insertAssertion assertionId email)
    (hdate : c.notOnOrAfter = some date)
    (hx : samlNext cfg.toConfig s.session d c.orgId c.samlResponse c.pc = some (t, pc')) :
    { c with pc := pc' }.Coherent ∧ PassStep lifetime s c c.pass
      (if pc' = .findProvider email then ⟨assertionId, c.orgId, date⟩ :: s.used else s.used)
      { c with pc := pc' }.pass := by
  have hpres : c.pc.presented = some assertionId := by
    rw [hpc]
    rfl
  have hfollows := (samlNext_follows hx).2
  rw [hpc] at hfollows
  rw [pass_of_presented hpres]
  rcases hfollows with ⟨rfl, hnew⟩ | rfl
  · rw [if_pos rfl, pass_of_spent (c := { c with pc := .findProvider email }) rfl rfl
      (hco assertionId hpres)]
    exact ⟨nofun, .spend hpc hdate hnew⟩
  · rw [if_neg nofun, pass_of_outside (c := { c with pc := .failed }) rfl rfl]
    exact ⟨nofun, .leave⟩

/-- Every other statement leaves the table alone. -/
theorem passStep_other {t : Store} {pc' : SamlPc} (hco : c.Coherent)
    (hvalidate : ∀ saml, c.pc ≠ .validate saml) (hinsert : ∀ a e, c.pc ≠ .insertAssertion a e)
    (hx : samlNext cfg.toConfig s.session d c.orgId c.samlResponse c.pc = some (t, pc')) :
    { c with pc := pc' }.Coherent
      ∧ PassStep lifetime s c c.pass s.used { c with pc := pc' }.pass := by
  have hfollows := (samlNext_follows hx).2
  obtain ⟨pc, hpc⟩ : ∃ pc, c.pc = pc := ⟨_, rfl⟩
  -- before the assertion is known, or after the end
  have hquiet : pc.presented = none → pc.recorded = false → pc'.presented = none →
      pc'.recorded = false → { c with pc := pc' }.Coherent
        ∧ PassStep lifetime s c c.pass s.used { c with pc := pc' }.pass := by
    intro hpres hrec hpres' hrec'
    rw [pass_of_outside (by rw [hpc]; exact hpres) (by rw [hpc]; exact hrec),
      pass_of_outside (c := { c with pc := pc' }) hpres' hrec']
    exact ⟨fun a ha => absurd (hpres'.symm.trans ha) nofun, .stay⟩
  have hspent : pc.presented = none → pc.recorded = true → pc'.presented = none →
      { c with pc := pc' }.Coherent
        ∧ PassStep lifetime s c c.pass s.used { c with pc := pc' }.pass := by
    intro hpres hrec hpres'
    refine ⟨fun a ha => absurd (hpres'.symm.trans ha) nofun, ?_⟩
    rw [← hpc] at hpres hrec
    rcases pass_of_recorded hpres hrec hpres' with hsame | hout
    · rw [hsame]
      exact .stay
    · rw [hout]
      exact .leave
  rw [hpc] at hfollows
  cases pc with
  | flag => exact hquiet rfl rfl hfollows.1 hfollows.2
  | config => exact hquiet rfl rfl hfollows.1 hfollows.2
  | validate saml => exact absurd hpc (hvalidate saml)
  | insertAssertion a e => exact absurd hpc (hinsert a e)
  | replay a email =>
    have hpres : c.pc.presented = some a := by
      rw [hpc]
      rfl
    rw [pass_of_presented hpres]
    rcases hfollows with rfl | ⟨e, rfl⟩
    · rw [pass_of_presented (c := { c with pc := .insertAssertion a email }) rfl]
      refine ⟨fun a' ha' => ?_, .stay⟩
      rw [← Option.some.inj ha']
      exact hco a hpres
    · rw [pass_of_outside (c := { c with pc := .threw e }) rfl rfl]
      exact ⟨nofun, .leave⟩
  | threw e =>
    rw [hpc] at hx
    cases hx
  | failed =>
    rw [hpc] at hx
    cases hx
  | _ => exact hspent rfl rfl hfollows

/-- **The statements refine the steps on the table.** -/
theorem passStep_of_next (hlife : AcceptsUntil cfg lifetime) (hco : c.Coherent)
    (h : callbackNext cfg s d c = some (s', c')) :
    s'.now = s.now ∧ c'.orgId = c.orgId ∧ c'.Coherent
      ∧ PassStep lifetime s c c.pass s'.used c'.pass := by
  rcases callbackNext_cases h with ⟨saml, ⟨t, pc'⟩, hpc, hx, rfl, hc'⟩ | ⟨a, email, hpc, rfl, rfl⟩
    | ⟨a, email, date, ⟨t, pc'⟩, hpc, hdate, hx, rfl, rfl⟩
    | ⟨⟨t, pc'⟩, hvalidate, hinsert, hx, rfl, rfl⟩
  · refine ⟨(samlNext_follows hx).1, ?_, passStep_validate hlife hpc hx hc'⟩
    rw [hc']
  · refine ⟨rfl, rfl, nofun, ?_⟩
    rw [pass_of_outside (c := { c with pc := .failed }) rfl rfl]
    exact .leave
  · exact ⟨(samlNext_follows hx).1, rfl, passStep_insert hco hpc hdate hx⟩
  · exact ⟨(samlNext_follows hx).1, rfl, passStep_other hco hvalidate hinsert hx⟩

end Steps

/-! ## The condition, and what is kept -/

/-- The call is about to insert an assertion, with the date. -/
def Callback.inserting (c : Callback) : Option (String × ℕ) :=
  match c.pc, c.notOnOrAfter with
  | .insertAssertion assertionId _, some date => some (assertionId, date)
  | _, _ => none

/-- The call has validated the assertion, and not inserted it yet. -/
def Callback.Presents (key : String × String) (c : Callback) : Prop :=
  c.pass = .presenting key.1 ∧ c.orgId = key.2

instance (key : String × String) : DecidablePred (Callback.Presents key) :=
  fun _ => inferInstanceAs (Decidable (_ ∧ _))

variable {ι : Type*}

/-- **The row outlasts the assertion**: the date that goes into the table, with the buffer of the
cleanup, is no earlier than the assertion's own, and no cleanup comes between the validation and
the INSERT of an assertion whose row it deletes. -/
def Outlasts (lifetime : String → ℕ) (p : Callbacks ι) : Move ι Draw ReplayEnv → Prop
  | .run i _ => ∀ x ∈ (p.calls i).at'.inserting, (x.1, (p.calls i).at'.orgId) ∉ p.store.keys →
      lifetime x.1 ≤ x.2 + cleanupBuffer
  | .env .cleanup => ∀ r ∈ p.store.used, r.purged p.store.now →
      ∀ j, ¬ (p.calls j).Live (Callback.Presents r.key)
  | _ => True

/-- The row of the assertion is there, and stays as long as the assertion is valid. -/
def Recorded (lifetime : String → ℕ) (s : ReplayStore) (key : String × String) : Prop :=
  key ∈ s.keys ∧ ∀ r ∈ s.used, r.key = key → lifetime key.1 ≤ r.notOnOrAfter + cleanupBuffer

/-- Nobody can present the assertion any more. -/
def Lapsed (lifetime : String → ℕ) (p : Callbacks ι) (key : String × String) : Prop :=
  lifetime key.1 ≤ p.store.now ∧ ∀ j, ¬ (p.calls j).Live (Callback.Presents key)

/-- **What is kept**: an assertion is spent by one call, and is covered from then on, by its row or
by its date. -/
structure SpentOnce (lifetime : String → ℕ) (p : Callbacks ι) : Prop where
  coherent : ∀ i, (p.calls i).at'.Coherent
  unique : ∀ i j a, (p.calls i).at'.pass = .spent a → (p.calls j).at'.pass = .spent a →
    (p.calls i).at'.orgId = (p.calls j).at'.orgId → i = j
  covered : ∀ i a, (p.calls i).at'.pass = .spent a →
    Recorded lifetime p.store (a, (p.calls i).at'.orgId)
      ∨ Lapsed lifetime p (a, (p.calls i).at'.orgId)

section Kept

variable {lifetime : String → ℕ} {p : Callbacks ι} {i : ι} {c c' : Callback} {s : ReplayStore}

theorem Recorded.congr {s s' : ReplayStore} {key : String × String} (hused : s'.used = s.used)
    (h : Recorded lifetime s key) : Recorded lifetime s' key := by
  unfold Recorded ReplayStore.keys at h ⊢
  rw [hused]
  exact h

/-- The assertion that a call presents has not lapsed. -/
theorem Lapsed.not_presents {key : String × String} (h : Lapsed lifetime p key)
    (hc : p.calls i = .up c) : ¬ c.Presents key := by
  intro hpres
  refine h.2 i ?_
  rw [hc]
  exact hpres

variable [DecidableEq ι]

/-- A statement that leaves the table alone, and spends nothing. -/
theorem SpentOnce.quiet (h : SpentOnce lifetime p) (hc : p.calls i = .up c)
    (hnow : s.now = p.store.now) (hused : s.used = p.store.used) (horg : c'.orgId = c.orgId)
    (hco : c'.Coherent) (hspent : ∀ a, c'.pass = .spent a → c.pass = .spent a)
    (hpres : ∀ a, c'.pass = .presenting a →
      c.pass = .presenting a ∨ p.store.now < lifetime a) :
    SpentOnce lifetime ⟨s, Function.update p.calls i (.up c')⟩ := by
  -- a call that has spent an assertion had spent it before
  have hbefore : ∀ j a, (Function.update p.calls i (.up c') j).at'.pass = .spent a →
      (p.calls j).at'.pass = .spent a
        ∧ (Function.update p.calls i (.up c') j).at'.orgId = (p.calls j).at'.orgId := by
    intro j a hj
    by_cases hji : j = i
    · subst hji
      rw [at'_update_self, hc]
      rw [at'_update_self] at hj
      exact ⟨hspent a hj, horg⟩
    · rw [at'_update_of_ne hji] at hj ⊢
      exact ⟨hj, rfl⟩
  refine ⟨fun j => ?_, fun j k a hj hk hjk => ?_, fun j a hj => ?_⟩
  · dsimp only
    by_cases hji : j = i
    · subst hji
      rw [at'_update_self]
      exact hco
    · rw [at'_update_of_ne hji]
      exact h.coherent j
  · obtain ⟨hj', hjorg⟩ := hbefore j a hj
    obtain ⟨hk', hkorg⟩ := hbefore k a hk
    exact h.unique j k a hj' hk' (hjorg.symm.trans (hjk.trans hkorg))
  · obtain ⟨hj', hjorg⟩ := hbefore j a hj
    dsimp only
    rw [hjorg]
    refine (h.covered j a hj').imp (Recorded.congr hused) fun hlapsed => ⟨?_, fun k hk => ?_⟩
    · show lifetime a ≤ s.now
      rw [hnow]
      exact hlapsed.1
    · rcases live_update_up hk with ⟨rfl, hpass, hkorg⟩ | ⟨-, hk⟩
      · rcases hpres a hpass with hold | hvalid
        · exact hlapsed.not_presents hc ⟨hold, horg.symm.trans hkorg⟩
        · exact absurd hlapsed.1 (not_le.mpr hvalid)
      · exact hlapsed.2 k hk

omit [DecidableEq ι] in
/-- Nobody has spent the assertion that a call inserts. -/
theorem SpentOnce.unspent (h : SpentOnce lifetime p) (hc : p.calls i = .up c) {a : String}
    (hpass : c.pass = .presenting a) (hnew : (a, c.orgId) ∉ p.store.keys) (j : ι)
    (hj : (p.calls j).at'.pass = .spent a) : (p.calls j).at'.orgId ≠ c.orgId := by
  intro horg
  have hcovered := h.covered j a hj
  rw [horg] at hcovered
  rcases hcovered with hrecorded | hlapsed
  · exact hnew hrecorded.1
  · exact hlapsed.not_presents hc ⟨hpass, rfl⟩

/-- An INSERT of an assertion that is covered by it. -/
theorem SpentOnce.spend (h : SpentOnce lifetime p) (hc : p.calls i = .up c) {a : String} {date : ℕ}
    (hpass : c.pass = .presenting a) (hpass' : c'.pass = .spent a) (horg : c'.orgId = c.orgId)
    (hco : c'.Coherent) (hnow : s.now = p.store.now)
    (hused : s.used = ⟨a, c.orgId, date⟩ :: p.store.used) (hnew : (a, c.orgId) ∉ p.store.keys)
    (hdate : lifetime a ≤ date + cleanupBuffer) :
    SpentOnce lifetime ⟨s, Function.update p.calls i (.up c')⟩ := by
  have hrecord : ∀ key, Recorded lifetime p.store key → Recorded lifetime s key := by
    rintro key ⟨hmem, hlasts⟩
    unfold Recorded ReplayStore.keys
    rw [hused]
    refine ⟨List.mem_cons_of_mem _ hmem, fun r hr hkey => ?_⟩
    rcases List.mem_cons.mp hr with rfl | hr
    · rw [← hkey]
      exact hdate
    · exact hlasts r hr hkey
  have hself : Recorded lifetime s (a, c.orgId) := by
    unfold Recorded ReplayStore.keys
    rw [hused]
    refine ⟨List.mem_cons_self, fun r hr hkey => ?_⟩
    rcases List.mem_cons.mp hr with rfl | hr
    · exact hdate
    · exact absurd (hkey ▸ List.mem_map_of_mem hr) hnew
  refine ⟨fun j => ?_, fun j k b hj hk hjk => ?_, fun j b hj => ?_⟩
  · dsimp only
    by_cases hji : j = i
    · subst hji
      rw [at'_update_self]
      exact hco
    · rw [at'_update_of_ne hji]
      exact h.coherent j
  · dsimp only at hj hk hjk
    by_cases hji : j = i <;> by_cases hki : k = i
    · rw [hji, hki]
    · subst hji
      rw [at'_update_self] at hj hjk
      rw [at'_update_of_ne hki] at hk hjk
      obtain rfl : a = b := Pass.spent.inj (hpass'.symm.trans hj)
      exact absurd (hjk.symm.trans horg) (h.unspent hc hpass hnew k hk)
    · subst hki
      rw [at'_update_self] at hk hjk
      rw [at'_update_of_ne hji] at hj hjk
      obtain rfl : a = b := Pass.spent.inj (hpass'.symm.trans hk)
      exact absurd (hjk.trans horg) (h.unspent hc hpass hnew j hj)
    · rw [at'_update_of_ne hji] at hj hjk
      rw [at'_update_of_ne hki] at hk hjk
      exact h.unique j k b hj hk hjk
  · dsimp only at hj ⊢
    by_cases hji : j = i
    · subst hji
      rw [at'_update_self] at hj ⊢
      obtain rfl : a = b := Pass.spent.inj (hpass'.symm.trans hj)
      refine Or.inl ?_
      show Recorded lifetime s (a, c'.orgId)
      rw [horg]
      exact hself
    · rw [at'_update_of_ne hji] at hj ⊢
      refine (h.covered j b hj).imp (hrecord _) fun hlapsed => ⟨?_, fun k hk => ?_⟩
      · show lifetime b ≤ s.now
        rw [hnow]
        exact hlapsed.1
      · rcases live_update_up hk with ⟨rfl, hpres, -⟩ | ⟨-, hk⟩
        · cases hpass'.symm.trans hpres
        · exact hlapsed.2 k hk

omit [DecidableEq ι] in
/-- What moves no call and leaves the table alone. -/
theorem SpentOnce.frame {q : Callbacks ι} (h : SpentOnce lifetime p)
    (hcalls : ∀ j, (q.calls j).at' = (p.calls j).at')
    (hlive : ∀ j P, (q.calls j).Live P → (p.calls j).Live P)
    (hused : q.store.used = p.store.used) (hnow : p.store.now ≤ q.store.now) :
    SpentOnce lifetime q := by
  refine ⟨fun j => ?_, fun j k a hj hk hjk => ?_, fun j a hj => ?_⟩
  · rw [hcalls]
    exact h.coherent j
  · rw [hcalls] at hj hk hjk
    rw [hcalls] at hjk
    exact h.unique j k a hj hk hjk
  · rw [hcalls] at hj ⊢
    exact (h.covered j a hj).imp (Recorded.congr hused) fun hlapsed =>
      ⟨hlapsed.1.trans hnow, fun k hk => hlapsed.2 k (hlive k _ hk)⟩

omit [DecidableEq ι] in
/-- The cleanup deletes what nobody can present any more. -/
theorem SpentOnce.cleanup (h : SpentOnce lifetime p) (hG : Outlasts lifetime p (.env .cleanup)) :
    SpentOnce lifetime ⟨p.store.cleanup, p.calls⟩ := by
  refine ⟨h.coherent, h.unique, fun j a hj => ?_⟩
  rcases h.covered j a hj with ⟨hmem, hlasts⟩ | hlapsed
  · by_cases hkept : (a, (p.calls j).at'.orgId) ∈ p.store.cleanup.keys
    · exact Or.inl ⟨hkept, fun r hr => hlasts r (List.mem_of_mem_filter hr)⟩
    · obtain ⟨r, hr, hkey⟩ := List.mem_map.mp hmem
      have hpurged : r.purged p.store.now = true := by
        by_contra hstays
        refine hkept (List.mem_map.mpr ⟨r, List.mem_filter.mpr ⟨hr, ?_⟩, hkey⟩)
        simpa using hstays
      refine Or.inr ⟨?_, fun k hk => ?_⟩
      · have hold : r.notOnOrAfter + cleanupBuffer < p.store.now := of_decide_eq_true hpurged
        exact (hlasts r hr hkey).trans hold.le
      · refine hG r hr hpurged k ?_
        rw [hkey]
        exact hk
  · exact Or.inr hlapsed

/-- **One statement.** -/
theorem SpentOnce.run {cfg : ReplayConfig} {d : Draw} (hlife : AcceptsUntil cfg lifetime)
    (h : SpentOnce lifetime p) (hG : Outlasts lifetime p (.run i d)) (hc : p.calls i = .up c)
    (hn : callbackNext cfg p.store d c = some (s, c')) :
    SpentOnce lifetime ⟨s, Function.update p.calls i (.up c')⟩ := by
  have hco : c.Coherent := by
    have hi := h.coherent i
    rw [hc] at hi
    exact hi
  obtain ⟨hnow, horg, hco', hstep⟩ := passStep_of_next hlife hco hn
  generalize hpass : c.pass = x at hstep
  generalize hpass' : c'.pass = x' at hstep
  generalize hused : s.used = rows at hstep
  cases hstep with
  | stay =>
    exact h.quiet hc hnow hused horg hco' (fun a ha => hpass.trans (hpass'.symm.trans ha))
      fun a ha => Or.inl (hpass.trans (hpass'.symm.trans ha))
  | leave =>
    exact h.quiet hc hnow hused horg hco' (fun a ha => nomatch hpass'.symm.trans ha)
      fun a ha => nomatch hpass'.symm.trans ha
  | @present a hvalid =>
    refine h.quiet hc hnow hused horg hco' (fun b hb => nomatch hpass'.symm.trans hb)
      fun b hb => Or.inr ?_
    rw [← Pass.presenting.inj (hpass'.symm.trans hb)]
    exact hvalid
  | @spend a email date hpc hdate hnew =>
    refine h.spend hc hpass hpass' horg hco' hnow hused hnew ?_
    have hinserting : (a, date) ∈ c.inserting := by
      unfold Callback.inserting
      rw [hpc, hdate]
      rfl
    rw [Outlasts, hc, Proc.at'_up] at hG
    exact hG (a, date) hinserting hnew

end Kept

/-! ## Every run -/

section Runs

variable {cfg : ReplayConfig} {lifetime : String → ℕ} {p q : Callbacks ι}

/-- Before the first statement it holds. -/
theorem spentOnce_start (hstart : ∀ i, (p.calls i).at'.pc = .flag) : SpentOnce lifetime p := by
  have hout : ∀ i, (p.calls i).at'.pass = .outside := by
    intro i
    refine pass_of_outside ?_ ?_ <;> rw [hstart] <;> rfl
  refine ⟨fun i a ha => ?_, fun i j a hi => ?_, fun i a hi => ?_⟩
  · rw [hstart] at ha
    cases ha
  · cases (hout i).symm.trans hi
  · cases (hout i).symm.trans hi

/-- It holds in every state of such a run. -/
theorem spentOnce_run [DecidableEq ι] (hlife : AcceptsUntil cfg lifetime)
    (h₀ : SpentOnce lifetime p) (h : Run (Pool.step (replayMachine cfg)) (Outlasts lifetime) p q) :
    SpentOnce lifetime q := by
  refine Pool.invariant h₀ (fun _ _ _ _ _ _ hI hG hc hn => hI.run hlife hG hc hn) ?_ ?_ h
  · intro p i c hI _ hc
    refine hI.frame (fun j => at'_update_down hc j) (fun j P hj => ?_) rfl le_rfl
    exact (live_update_down hj).2
  · intro p e hI hG
    cases e with
    | tick ms => exact hI.frame (fun _ => rfl) (fun _ _ => id) rfl (Nat.le_add_right _ ms)
    | replicate => exact hI.frame (fun _ => rfl) (fun _ _ => id) rfl le_rfl
    | cleanup => exact hI.cleanup hG

/-- The call has issued a pair for the assertion. -/
def Callback.Issued (assertionId orgId : String) (pair : TokenPair) (c : Callback) : Prop :=
  c.pc = .returned pair ∧ c.assertionId = some assertionId ∧ c.orgId = orgId

/-- **One token pair for one assertion**, in every run in which the rows outlast the
assertions. -/
theorem one_pair_per_assertion [DecidableEq ι] (hlife : AcceptsUntil cfg lifetime)
    (hstart : ∀ i, (p.calls i).at'.pc = .flag)
    (h : Run (Pool.step (replayMachine cfg)) (Outlasts lifetime) p q)
    {i j : ι} {assertionId orgId : String} {pair pair' : TokenPair}
    (hi : (q.calls i).at'.Issued assertionId orgId pair)
    (hj : (q.calls j).at'.Issued assertionId orgId pair') : i = j ∧ pair = pair' := by
  have hspent : ∀ {k pair}, (q.calls k).at'.Issued assertionId orgId pair →
      (q.calls k).at'.pass = .spent assertionId := by
    rintro k pair ⟨hpc, hassertion, -⟩
    refine pass_of_spent ?_ ?_ hassertion <;> rw [hpc] <;> rfl
  obtain rfl : i = j := (spentOnce_run hlife (spentOnce_start hstart) h).unique i j assertionId
    (hspent hi) (hspent hj) (hi.2.2.trans hj.2.2.symm)
  exact ⟨rfl, SamlPc.returned.inj (hi.1.symm.trans hj.1)⟩

end Runs

/-! ## An assertion of two days -/

section Guard

variable [Fintype ι]

instance (lifetime : String → ℕ) (p : Callbacks ι) :
    ∀ m : Move ι Draw ReplayEnv, Decidable (Outlasts lifetime p m)
  | .run i _ =>
    inferInstanceAs (Decidable (∀ x ∈ (p.calls i).at'.inserting,
      (x.1, (p.calls i).at'.orgId) ∉ p.store.keys → lifetime x.1 ≤ x.2 + cleanupBuffer))
  | .env .cleanup =>
    inferInstanceAs (Decidable (∀ r ∈ p.store.used, r.purged p.store.now = true →
      ∀ j, ¬ (p.calls j).Live (Callback.Presents r.key)))
  | .crash _ | .env (.tick _) | .env .replicate => isTrue trivial

end Guard

/-- The pair of a call that has returned. -/
def SamlPc.pair : SamlPc → Option TokenPair
  | .returned pair => some pair
  | _ => none

theorem pc_of_pair {pc : SamlPc} (h : pc.pair.isSome = true) : ∃ pair, pc = .returned pair := by
  cases pc with
  | returned pair => exact ⟨pair, rfl⟩
  | _ => cases h

def hours (n : ℕ) : ℕ := n * 60 * 60 * 1000

/-- Every response is an assertion for `u@x`, without a date in the profile, and valid for the
given time. -/
def demoReplayConfig (validity : ℕ) : ReplayConfig where
  org := Organization.demoConfig
  parseDate _ := none
  validate _ now response :=
    if now < validity then some ⟨⟨some response, some "u@x"⟩, none⟩ else none

theorem demoReplayConfig_acceptsUntil (validity : ℕ) :
    AcceptsUntil (demoReplayConfig validity) fun _ => validity := by
  intro saml now response profile assertionId hprofile _
  by_contra hlate
  rw [demoReplayConfig] at hprofile
  dsimp only at hprofile
  rw [if_neg hlate] at hprofile
  cases hprofile

/-- Draws named after their call. -/
def callbackDraw (n : String) : Draw :=
  ⟨⟨Auth.drawn ("a" ++ n) ("t" ++ n) ("r" ++ n), ""⟩, "", true, some ⟨"", "", "", none⟩⟩

/-- One assertion is posted twice. -/
def postedTwice : Callbacks (Fin 2) :=
  ⟨⟨demoStore, []⟩, fun _ => .up ⟨"o", "a", .flag, none, none⟩⟩

theorem postedTwice_fresh : ∀ i, (postedTwice.calls i).at'.pc = .flag := by decide

/-- The first call, and the second one on the next day, after a cleanup. -/
def nextDay : List (Move (Fin 2) Draw ReplayEnv) :=
  List.replicate 11 (.run 0 (callbackDraw "1")) ++ [.env .replicate, .env (.tick (hours 26)),
    .env .cleanup] ++ List.replicate 9 (.run 1 (callbackDraw "2"))

/-- **An assertion of two days is spent twice**: the row says that it expires in an hour, and is
gone on the next day. -/
theorem assertion_spent_twice :
    AcceptsUntil (demoReplayConfig (hours 48)) (fun _ => hours 48)
      ∧ (∀ i, (postedTwice.calls i).at'.pc = .flag)
      ∧ ∃ q pair pair', Run (Pool.step (replayMachine (demoReplayConfig (hours 48)))) anyStep
          postedTwice q
        ∧ (q.calls 0).at'.Issued "a" "o" pair ∧ (q.calls 1).at'.Issued "a" "o" pair' := by
  refine ⟨demoReplayConfig_acceptsUntil _, postedTwice_fresh, ?_⟩
  obtain ⟨q, hq, hpairs⟩ := exists_run_of_exec
    (Pool.step (replayMachine (demoReplayConfig (hours 48)))) anyStep postedTwice nextDay
    (fun q => ∀ i, (q.calls i).at'.pc.pair.isSome = true ∧ (q.calls i).at'.assertionId = some "a"
      ∧ (q.calls i).at'.orgId = "o") (by decide)
  have hissued := of_decide_eq_true hpairs
  obtain ⟨pair, hpair⟩ := pc_of_pair (hissued 0).1
  obtain ⟨pair', hpair'⟩ := pc_of_pair (hissued 1).1
  exact ⟨q, pair, pair', hq, ⟨hpair, (hissued 0).2⟩, ⟨hpair', (hissued 1).2⟩⟩

/-- An assertion of a day is gone before its row, and is spent by the first call alone. -/
theorem assertion_of_a_day_spent_once :
    ∃ q : Callbacks (Fin 2), (∃ pair, (q.calls 0).at'.Issued "a" "o" pair)
      ∧ ∀ pair, ¬ (q.calls 1).at'.Issued "a" "o" pair := by
  obtain ⟨q, hq, hissued⟩ := exists_run_of_exec
    (Pool.step (replayMachine (demoReplayConfig (hours 24)))) (Outlasts fun _ => hours 24)
    postedTwice (List.flatten [List.replicate 11 (.run 0 (callbackDraw "1")),
      [.env .replicate, .env (.tick (hours 26)), .env .cleanup],
      List.replicate 3 (.run 1 (callbackDraw "2"))])
    (fun q => (q.calls 0).at'.pc.pair.isSome = true ∧ (q.calls 0).at'.assertionId = some "a"
      ∧ (q.calls 0).at'.orgId = "o") (by decide)
  obtain ⟨hpair, hassertion⟩ := of_decide_eq_true hissued
  obtain ⟨pair, hpair⟩ := pc_of_pair hpair
  refine ⟨q, ⟨pair, hpair, hassertion⟩, fun pair' hsecond => ?_⟩
  have heq := one_pair_per_assertion (demoReplayConfig_acceptsUntil (hours 24)) postedTwice_fresh hq
    ⟨hpair, hassertion⟩ hsecond
  exact absurd heq.1 (by decide)

end WorkPlatform.Session

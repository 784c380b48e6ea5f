import WorkPlatform.Auth.RequestUser

/-!
# Auth/AdminGate — the hour of a platform admin

    [jwtMiddleware, platformAdminMiddleware]   user ▸ isPlatformAdmin ▸ ip ▸ mfaVerifiedAt ▸ age

`mfaVerifiedAt` enters a token where `issueTokenPair` is given it, and nowhere else: a magic link
and a refresh sign tokens without it.  So a token that passes was verified when it was issued, no
more than an hour ago, and no refreshed one passes (`admin_gate`).
-/

namespace WorkPlatform.Auth

open Machinery

variable {ι : Type*}

/-! ## The addresses -/

/-- What `ipaddr.js` does with texts and addresses; `none` where it throws. -/
structure IpAddr (α : Type*) where
  parse : String → Option α
  inRange : α → α → Option ℤ → Option Bool

/-- The digits a text begins with, in the given base. -/
def leadingDigits (base : ℕ) (value : Char → Option ℕ) (text : List Char) : Option ℤ :=
  match text.map value |>.takeWhile Option.isSome with
  | [] => none
  | ds => some (ds.foldl (fun n d => n * base + d.getD 0) 0 : ℕ)

def decimalDigit (c : Char) : Option ℕ := if c.isDigit then some (c.toNat - '0'.toNat) else none

/-- The value of a digit of a group of an IPv6 address. -/
def hexDigit (c : Char) : Option ℕ :=
  if c.isDigit then some (c.toNat - '0'.toNat)
  else if 'a' ≤ c.toLower ∧ c.toLower ≤ 'f' then some (c.toLower.toNat - 'a'.toNat + 10)
  else none

def parseUnsigned : List Char → Option ℤ
  | '0' :: 'x' :: ds | '0' :: 'X' :: ds => leadingDigits 16 hexDigit ds
  | ds => leadingDigits 10 decimalDigit ds

/-- `parseInt`; `none` is `NaN`. -/
def parseInt (text : String) : Option ℤ :=
  match text.toList.dropWhile Char.isWhitespace with
  | '-' :: ds => (parseUnsigned ds).map fun n => -n
  | '+' :: ds => parseUnsigned ds
  | ds => parseUnsigned ds

section Gate

variable {α : Type*} (lib : IpAddr α)

/-- `ipInCidr`; a range without a `/`, or one the library does not read, contains nothing. -/
def ipInCidr (ip cidr : String) : Bool :=
  ((lib.parse ip).bind fun parsed =>
    match cidr.splitOn "/" with
    | range :: bits :: _ =>
      (lib.parse range).bind fun parsedRange => lib.inRange parsed parsedRange (parseInt bits)
    | _ => none).getD false

/-- The allowlist of the configuration; without one every address is allowed. -/
def ipAllowed (allowlist ip : Option String) : Bool :=
  match truthy allowlist with
  | none => true
  | some list =>
    ((list.splitOn ",").map fun c => c.trimAscii.toString).any fun cidr =>
      if cidr.contains '/' then ipInCidr lib (ip.getD "") cidr else ip.getD "" = cidr

/-- `platformAdminMiddleware`: the error it hands on, `none` where it just calls `next`. -/
def platformAdminMiddleware (allowlist : Option String) (now : ℕ) (user : Option RequestUser)
    (ip : Option String) : Option AppError :=
  match user with
  | none => some (.forbidden "UNAUTHENTICATED" "Authentication required")
  | some user =>
    if user.isPlatformAdmin = false then
      some (.forbidden "PLATFORM_ADMIN_REQUIRED" "Platform admin access required")
    else if ipAllowed lib allowlist ip = false then
      some (.forbidden "IP_NOT_ALLOWED"
        "Your IP address is not allowed to access this endpoint")
    else
      match user.mfaVerifiedAt with
      | none | some 0 =>
        some (.forbidden "MFA_REQUIRED" "MFA verification required for platform admin access")
      | some mfaVerifiedAt =>
        let mfaAge : ℤ := (now / 1000 : ℕ) - mfaVerifiedAt
        if 3600 < mfaAge then
          some (.forbidden "MFA_SESSION_EXPIRED" "MFA session expired — re-authenticate with MFA")
        else none

variable {lib} {allowlist ip : Option String} {now : ℕ}

/-- **Who passes.** -/
theorem platformAdminMiddleware_eq_none {user : RequestUser} :
    platformAdminMiddleware lib allowlist now (some user) ip = none ↔
      user.isPlatformAdmin = true ∧ ipAllowed lib allowlist ip = true
        ∧ ∃ m, user.mfaVerifiedAt = some m ∧ m ≠ 0 ∧ now / 1000 ≤ m + 3600 := by
  unfold platformAdminMiddleware
  dsimp only
  split
  · rename_i hadmin
    simp [hadmin]
  · rename_i hadmin
    split
    · rename_i hip
      simp [hip]
    · rename_i hip
      split
      · rename_i hmfa
        simp [hmfa]
      · rename_i hmfa
        simp [hmfa]
      · rename_i m hzero hmfa
        have hm : m ≠ 0 := hzero
        have hage : ¬ 3600 < ((now / 1000 : ℕ) : ℤ) - m ↔ now / 1000 ≤ m + 3600 := by omega
        simp only [ite_eq_right_iff, reduceCtorEq, imp_false, hage]
        simp [hadmin, hip, hmfa, hm]

end Gate

/-! ## Where `mfaVerifiedAt` comes from -/

def IssueArgs.payload (a : IssueArgs) : AccessTokenPayload :=
  ⟨a.userId, a.orgId, a.role, a.isPlatformAdmin, a.mfaVerifiedAt⟩

/-- A call of `issueTokenPair` has signed the token, with these arguments. -/
def IssuedWith (cfg : Config) (q : Calls ι) (token : AccessToken) (args : IssueArgs) : Prop :=
  ∃ j pc now jti, (q.calls j).at' = .issue args pc ∧ pc ≠ .generate
    ∧ token = generateAccessToken cfg now jti args.payload

/-- A token says nothing of MFA but what it was issued with. -/
def MfaAsIssued (cfg : Config) (q : Calls ι) (token : AccessToken) : Prop :=
  token.mfaVerifiedAt = none ∨ ∃ args, IssuedWith cfg q token args

/-- The call is past the check of the signature. -/
def AuthPc.verified : AuthPc → Bool
  | .verify | .threw _ => false
  | _ => true

section Steps

variable {cfg : Config} {s s' : Store} {d : Draw} {c c' : Call}

/-- What is signed by a call other than `issueTokenPair` says nothing of MFA. -/
theorem signed_refresh {raw : String} {pc pc' : RefreshPc}
    (h : refreshNext cfg s d raw pc = some (s', pc')) :
    ∀ x ∈ s'.issued, x ∈ s.issued ∨ x.token.mfaVerifiedAt = none := by
  cases pc with
  | revoke row isPlatformAdmin role =>
    obtain ⟨rfl, rfl⟩ := Prod.mk.inj (Option.some.inj h)
    intro x hx
    rcases List.mem_cons.mp hx with rfl | hx
    · exact Or.inr rfl
    · exact Or.inl hx
  | blacklist row jti =>
    unfold refreshNext at h
    dsimp only at h
    split at h
    · rename_i s₁ hs₁
      obtain ⟨rfl, rfl⟩ := Prod.mk.inj (Option.some.inj h)
      obtain rfl := Store.blacklistToken_eq hs₁
      exact fun _ => Or.inl
    · obtain ⟨rfl, rfl⟩ := Prod.mk.inj (Option.some.inj h)
      exact fun _ => Or.inl
  | insert row m =>
    unfold refreshNext at h
    dsimp only at h
    split at h
    · rename_i s₁ hins
      obtain ⟨rfl, rfl⟩ := Prod.mk.inj (Option.some.inj h)
      obtain ⟨t, ht, rfl⟩ := Store.createRefreshToken_eq hins
      exact fun _ => Or.inl
    · obtain ⟨rfl, rfl⟩ := Prod.mk.inj (Option.some.inj h)
      exact fun _ => Or.inl
  | returned row pair => cases h
  | revoked row => cases h
  | threw e => cases h
  | failed row => cases h
  | _ =>
    obtain ⟨rfl, rfl⟩ := Prod.mk.inj (Option.some.inj h)
    exact fun _ => Or.inl

theorem signed_linkIssue (v : OneTimeValue) (isPlatformAdmin : Bool) :
    ∀ x ∈ (linkIssue cfg s d v isPlatformAdmin).1.issued,
      x ∈ s.issued ∨ x.token.mfaVerifiedAt = none := by
  intro x hx
  rcases List.mem_cons.mp hx with rfl | hx
  · exact Or.inr rfl
  · exact Or.inl hx

/-- A magic link signs no token that says when the second factor was verified. -/
theorem signed_link {token : String} {pc pc' : LinkPc}
    (h : linkNext cfg s d token pc = some (s', pc')) :
    ∀ x ∈ s'.issued, x ∈ s.issued ∨ x.token.mfaVerifiedAt = none := by
  cases pc with
  | get =>
    obtain ⟨rfl, rfl⟩ := Prod.mk.inj (Option.some.inj h)
    exact fun _ => Or.inl
  | del v =>
    obtain ⟨rfl, rfl⟩ := Prod.mk.inj (Option.some.inj h)
    exact fun _ => Or.inl
  | findUser v =>
    unfold linkNext at h
    dsimp only at h
    split at h
    · obtain ⟨rfl, rfl⟩ := Prod.mk.inj (Option.some.inj h)
      exact fun _ => Or.inl
    · split at h
      · obtain ⟨rfl, rfl⟩ := Prod.mk.inj (Option.some.inj h)
        exact signed_linkIssue v _
      · obtain ⟨rfl, rfl⟩ := Prod.mk.inj (Option.some.inj h)
        exact fun _ => Or.inl
  | verify v isPlatformAdmin =>
    obtain ⟨rfl, rfl⟩ := Prod.mk.inj (Option.some.inj h)
    rw [← updateUser_issued s v.userId .verifyEmail]
    exact signed_linkIssue v _
  | insert m =>
    unfold linkNext at h
    dsimp only at h
    split at h
    · rename_i s₁ hins
      obtain ⟨rfl, rfl⟩ := Prod.mk.inj (Option.some.inj h)
      obtain ⟨t, ht, rfl⟩ := Store.createRefreshToken_eq hins
      exact fun _ => Or.inl
    · obtain ⟨rfl, rfl⟩ := Prod.mk.inj (Option.some.inj h)
      exact fun _ => Or.inl
  | returned pair => cases h
  | threw e => cases h
  | failed => cases h

/-- An issue signs one token, from its arguments. -/
theorem signed_issue {a : IssueArgs} {pc pc' : IssuePc}
    (h : issueNext cfg s d a pc = some (s', pc')) :
    pc' ≠ .generate ∧ ∀ x ∈ s'.issued,
      x ∈ s.issued ∨ x.token = generateAccessToken cfg s.now d.jti a.payload := by
  cases pc with
  | generate =>
    obtain ⟨rfl, rfl⟩ := Prod.mk.inj (Option.some.inj h)
    refine ⟨nofun, fun x hx => ?_⟩
    rcases List.mem_cons.mp hx with rfl | hx
    · exact Or.inr rfl
    · exact Or.inl hx
  | insert m =>
    unfold issueNext at h
    dsimp only at h
    split at h
    · rename_i s₁ hins
      obtain ⟨rfl, rfl⟩ := Prod.mk.inj (Option.some.inj h)
      obtain ⟨t, ht, rfl⟩ := Store.createRefreshToken_eq hins
      exact ⟨nofun, fun _ => Or.inl⟩
    · obtain ⟨rfl, rfl⟩ := Prod.mk.inj (Option.some.inj h)
      exact ⟨nofun, fun _ => Or.inl⟩
  | returned pair => cases h
  | failed => cases h

/-- **What a statement signs**: nothing, a token without MFA, or one with the arguments of its
call. -/
theorem signed_next (h : next cfg s c d = some (s', c')) {x : Issued} (hx : x ∈ s'.issued) :
    x ∈ s.issued ∨ x.token.mfaVerifiedAt = none
      ∨ ∃ a pc', c' = .issue a pc' ∧ pc' ≠ .generate
        ∧ x.token = generateAccessToken cfg s.now d.jti a.payload := by
  cases c with
  | issue a pc =>
    obtain ⟨pc', hpc, rfl⟩ := pc_of_next h
    obtain ⟨hpc', hsigned⟩ := signed_issue hpc
    exact (hsigned x hx).imp_right fun htoken => Or.inr ⟨a, pc', rfl, hpc', htoken⟩
  | refresh raw pc =>
    obtain ⟨pc', hpc, rfl⟩ := pc_of_next h
    exact (signed_refresh hpc x hx).imp_right Or.inl
  | link token pc =>
    obtain ⟨pc', hpc, rfl⟩ := pc_of_next h
    exact (signed_link hpc x hx).imp_right Or.inl
  | revokeTokens raw jti ttl pc =>
    obtain ⟨pc', hpc, rfl⟩ := pc_of_next h
    rw [(updates_revoke hpc).2] at hx
    exact Or.inl hx
  | reset token password pc =>
    obtain ⟨pc', hpc, rfl⟩ := pc_of_next h
    rw [(updates_reset hpc).2] at hx
    exact Or.inl hx
  | verifyEmail token pc =>
    obtain ⟨pc', hpc, rfl⟩ := pc_of_next h
    rw [(updates_email hpc).2] at hx
    exact Or.inl hx
  | authenticate token pc =>
    obtain ⟨pc', hpc, rfl⟩ := pc_of_next h
    rw [(updates_authenticate hpc).2] at hx
    exact Or.inl hx

/-- A call keeps its arguments, and what it has generated it does not generate again. -/
theorem issue_next {a : IssueArgs} {pc : IssuePc} (h : next cfg s (.issue a pc) d = some (s', c')) :
    ∃ pc', c' = .issue a pc' ∧ pc' ≠ .generate := by
  obtain ⟨pc', hpc, rfl⟩ := pc_of_next h
  exact ⟨pc', rfl, (signed_issue hpc).1⟩

/-- A call of `authenticate` goes on with its token, which was signed here. -/
theorem verified_next {token : AccessToken} {pc : AuthPc}
    (h : next cfg s c d = some (s', .authenticate token pc)) (hpc : pc.verified = true) :
    ∃ pc₀, c = .authenticate token pc₀
      ∧ (pc₀.verified = true ∨ ∃ x ∈ s.issued, x.token = token) := by
  cases c with
  | authenticate token₀ pc₀ =>
    obtain ⟨pc', hnext, heq⟩ := pc_of_next h
    obtain ⟨rfl, rfl⟩ := Call.authenticate.inj heq
    refine ⟨pc₀, rfl, ?_⟩
    cases pc₀ with
    | verify =>
      obtain ⟨-, rfl⟩ := Prod.mk.inj (Option.some.inj hnext)
      split at hpc
      · rename_i hverifies
        unfold Store.verifies at hverifies
        simp only [Bool.decide_and, Bool.and_eq_true, decide_eq_true_eq, List.any_eq_true]
          at hverifies
        exact Or.inr hverifies.1
      · cases hpc
    | threw e => cases hnext
    | _ => exact Or.inl rfl
  | issue a pc₀ =>
    obtain ⟨pc', -, heq⟩ := pc_of_next h
    cases heq
  | refresh raw pc₀ =>
    obtain ⟨pc', -, heq⟩ := pc_of_next h
    cases heq
  | link token₀ pc₀ =>
    obtain ⟨pc', -, heq⟩ := pc_of_next h
    cases heq
  | revokeTokens raw jti ttl pc₀ =>
    obtain ⟨pc', -, heq⟩ := pc_of_next h
    cases heq
  | reset token₀ password pc₀ =>
    obtain ⟨pc', -, heq⟩ := pc_of_next h
    cases heq
  | verifyEmail token₀ pc₀ =>
    obtain ⟨pc', -, heq⟩ := pc_of_next h
    cases heq

end Steps

/-! ## Every run -/

/-- What is kept: no token says more of MFA than it was given, and the requests that are under way
have tokens that were signed. -/
structure Gated (cfg : Config) (q : Calls ι) : Prop where
  asIssued : ∀ x ∈ q.store.issued, MfaAsIssued cfg q x.token
  signed : ∀ i token pc, (q.calls i).at' = .authenticate token pc → pc.verified = true →
    ∃ x ∈ q.store.issued, x.token = token

section Runs

variable {cfg : Config} {p q : Calls ι} {i : ι} {c c' : Call} {d : Draw} {s : Store}

/-- The calls that have signed a token stay what they are. -/
theorem MfaAsIssued.run [DecidableEq ι] (hc : p.calls i = .up c)
    (hn : next cfg p.store c d = some (s, c')) {token : AccessToken} (h : MfaAsIssued cfg p token) :
    MfaAsIssued cfg ⟨s, Function.update p.calls i (.up c')⟩ token := by
  refine h.imp_right ?_
  rintro ⟨args, j, pc, now, jti, hj, hpc, htoken⟩
  refine ⟨args, j, ?_⟩
  by_cases hji : j = i
  · subst hji
    rw [hc, Proc.at'_up] at hj
    subst hj
    obtain ⟨pc', rfl, hpc'⟩ := issue_next hn
    exact ⟨pc', now, jti, at'_update_self _ _ _, hpc', htoken⟩
  · exact ⟨pc, now, jti, (at'_update_of_ne hji _).trans hj, hpc, htoken⟩

/-- A statement of a call keeps what is known of the tokens. -/
theorem Gated.run [DecidableEq ι] (h : Gated cfg p) (hc : p.calls i = .up c)
    (hn : next cfg p.store c d = some (s, c')) :
    Gated cfg ⟨s, Function.update p.calls i (.up c')⟩ where
  asIssued x hx := by
    rcases signed_next hn hx with hold | hnone | ⟨a, pc', rfl, hpc', htoken⟩
    · exact (h.asIssued x hold).run hc hn
    · exact Or.inl hnone
    · exact Or.inr ⟨a, i, pc', _, _, at'_update_self _ _ _, hpc', htoken⟩
  signed j token pc hj hpc := by
    have hlasting := (tokenStep_of_next hn).issued
    rcases update_cases (fun x : Proc Call => x.at' = .authenticate token pc) hj with
      ⟨rfl, hself⟩ | ⟨-, hother⟩
    · obtain rfl : c' = .authenticate token pc := hself
      obtain ⟨pc₀, rfl, hpc₀ | ⟨x, hx, htoken⟩⟩ := verified_next hn hpc
      · obtain ⟨x, hx, htoken⟩ := h.signed j token pc₀ (by rw [hc, Proc.at'_up]) hpc₀
        exact ⟨x, hlasting hx, htoken⟩
      · exact ⟨x, hlasting hx, htoken⟩
    · obtain ⟨x, hx, htoken⟩ := h.signed j token pc hother hpc
      exact ⟨x, hlasting hx, htoken⟩

/-- A crash and the environment move no call and sign nothing. -/
theorem Gated.frame {q : Calls ι} (h : Gated cfg p) (hissued : q.store.issued = p.store.issued)
    (hcalls : ∀ j, (q.calls j).at' = (p.calls j).at') : Gated cfg q where
  asIssued x hx := by
    rw [hissued] at hx
    refine (h.asIssued x hx).imp_right ?_
    rintro ⟨args, j, pc, now, jti, hj, hrest⟩
    exact ⟨args, j, pc, now, jti, (hcalls j).trans hj, hrest⟩
  signed j token pc hj hpc := by
    rw [hissued]
    exact h.signed j token pc ((hcalls j).symm.trans hj) hpc

/-- Before the first statement the invariant holds. -/
theorem gated_start (hstart : ∀ i, (p.calls i).at'.fresh = true) (hnone : p.store.issued = []) :
    Gated cfg p where
  asIssued x hx := by
    rw [hnone] at hx
    cases hx
  signed i token pc hi hpc := by
    have hfresh := hstart i
    rw [hi] at hfresh
    cases pc with
    | verify => cases hpc
    | _ => cases hfresh

theorem gated_run [DecidableEq ι] {G : Calls ι → Move ι Draw Env → Prop} (h₀ : Gated cfg p)
    (h : Run (Pool.step (authMachine cfg)) G p q) : Gated cfg q :=
  Pool.invariant h₀ (fun _ _ _ _ _ _ hI _ hc hn => hI.run hc hn)
    (fun _ _ _ hI _ hc => hI.frame rfl fun _ => at'_update_down hc _)
    (fun p e hI _ => hI.frame (env_issued p.store e) fun _ => rfl) h

end Runs

/-! ## The gate -/

/-- A request with the token is past `jwtMiddleware`, and passes the platform-admin middleware
now. -/
def Passes {α : Type*} (lib : IpAddr α) (allowlist : Option String) (q : Calls ι) (i : ι)
    (token : AccessToken) (ip : Option String) : Prop :=
  (q.calls i).at' = .authenticate token .accepted
    ∧ platformAdminMiddleware lib allowlist q.store.now (some (requestUser token.payload)) ip = none

/-- **The hour of a platform admin**: what passes was verified when it was issued, and no longer
than an hour ago; no token of a refresh passes, at no time. -/
theorem admin_gate {α : Type*} [DecidableEq ι] (lib : IpAddr α) (allowlist : Option String)
    {cfg : Config} {p q : Calls ι} {G : Calls ι → Move ι Draw Env → Prop}
    (hstart : ∀ i, (p.calls i).at'.fresh = true) (hnone : p.store.issued = [])
    (h : Run (Pool.step (authMachine cfg)) G p q) :
    (∀ i token ip, Passes lib allowlist q i token ip → token.isPlatformAdmin = true
      ∧ ∃ m args, token.mfaVerifiedAt = some m ∧ q.store.now / 1000 ≤ m + 3600
        ∧ args.mfaVerifiedAt = some m ∧ IssuedWith cfg q token args)
    ∧ ∀ j raw row pair, (q.calls j).at' = .refresh raw (.returned row pair) →
      ∀ i ip, ¬ Passes lib allowlist q i pair.accessToken ip := by
  refine ⟨fun i token ip hpass => ?_, fun j raw row pair hj i ip hpass => ?_⟩
  · obtain ⟨hi, hnext⟩ := hpass
    rw [requestUser_payload, platformAdminMiddleware_eq_none] at hnext
    obtain ⟨hadmin, -, m, hm, -, hhour⟩ := hnext
    have hgated := gated_run (gated_start hstart hnone) h
    obtain ⟨x, hx, rfl⟩ := hgated.signed i token .accepted hi rfl
    rcases hgated.asIssued x hx with hunverified | ⟨args, hissued⟩
    · cases hunverified.symm.trans hm
    · refine ⟨hadmin, m, args, hm, hhour, ?_, hissued⟩
      obtain ⟨_, _, _, _, -, -, htoken⟩ := hissued
      exact (congrArg AccessToken.mfaVerifiedAt htoken).symm.trans hm
  · obtain ⟨-, hnext⟩ := hpass
    rw [requestUser_payload, platformAdminMiddleware_eq_none] at hnext
    obtain ⟨-, -, m, hm, -⟩ := hnext
    have hcall := traced_run hstart h j
    rw [hj] at hcall
    obtain ⟨-, m', id, rfl, hreplaces, -⟩ := hcall
    cases hreplaces.mfaVerifiedAt.symm.trans hm

/-! ## An admin at work -/

/-- Access tokens that outlive the hour. -/
def longConfig : Config := ⟨3700, by decide, id, fun password salt => password ++ salt⟩

/-- The token of an admin who was verified in the first second. -/
def adminToken : AccessToken :=
  generateAccessToken longConfig 0 "a1" ⟨"u", "", .member, true, some 1⟩

/-- An administrator is issued a token, and a request presents it. -/
def adminAtWork : Calls (Fin 2) :=
  ⟨{ demoSession with issued := [] },
    ![.up (.issue ⟨"u", "", .member, true, some 1⟩ .generate),
      .up (.authenticate adminToken .verify)]⟩

theorem adminAtWork_fresh : ∀ i, (adminAtWork.calls i).at'.fresh = true := by decide

/-- `ipaddr.js`, of which nothing is asked. -/
def noAddresses : IpAddr Unit := ⟨fun _ => none, fun _ _ _ => none⟩

/-- A request in the last second of the hour passes. -/
theorem admin_passes_after_an_hour :
    ∃ q, Run (Pool.step (authMachine longConfig)) anyStep adminAtWork q
      ∧ q.store.now = 3601999 ∧ Passes noAddresses none q 1 adminToken none
      ∧ ∃ m args, adminToken.mfaVerifiedAt = some m ∧ q.store.now / 1000 ≤ m + 3600
        ∧ args.mfaVerifiedAt = some m ∧ IssuedWith longConfig q adminToken args := by
  obtain ⟨q, hq, hpass⟩ := exists_run_of_exec (Pool.step (authMachine longConfig)) anyStep
    adminAtWork (List.flatten [List.replicate 2 (.run 0 (drawn "a1" "t1" "r1")),
      .env (.tick 3601999) :: List.replicate 5 (.run 1 (drawn "a2" "t2" "r2"))])
    (fun q => q.store.now = 3601999 ∧ (q.calls 1).at' = .authenticate adminToken .accepted
      ∧ platformAdminMiddleware noAddresses none q.store.now
        (some (requestUser adminToken.payload)) none = none) (by decide)
  obtain ⟨hnow, hpass⟩ := of_decide_eq_true hpass
  exact ⟨q, hq, hnow, hpass,
    ((admin_gate noAddresses none adminAtWork_fresh rfl hq).1 1 adminToken none hpass).2⟩

end WorkPlatform.Auth

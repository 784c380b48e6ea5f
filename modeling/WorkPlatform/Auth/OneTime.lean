import Mathlib.Data.Fintype.Prod
import WorkPlatform.Auth.Rotation

/-!
# Auth/OneTime — tokens that should work once: magic links, password resets, e-mail verification

A one-time token is consumed by a GET and, later, a DEL.  Two calls whose GETs both come before
either DEL both go through with it (`two_clicks_two_pairs`), and a reset or a verification that
crashes after its effect leaves the key in place.

For one key a call is no more than what it has **made of** the key:

    outside ──hit──▸ holding ──act──▸ effected ──remove──▸ done
                        └──consume──▸ consumed ──finish──▸ done

As long as no call hits a key that another one has hit and not deleted (`Uncontended`), the key has
its effect once (`once_of_uncontended`).
-/

namespace WorkPlatform.Auth

open Machinery

variable {ι : Type*}

/-! ## The use of a key -/

/-- What a call has made of a key. -/
inductive Use
  | outside | holding | effected | consumed | done
  deriving DecidableEq

/-- The key has had its effect. -/
def Use.effective (x : Use) : Prop := x = .effected ∨ x = .done

/-- The steps of a call that uses the key, with whether the key is there before and after. -/
inductive Use.Step : Bool → Use → Bool → Use → Prop
  | hit : Step true .outside true .holding
  | act (b : Bool) : Step b .holding b .effected
  | consume (b : Bool) : Step b .holding false .consumed
  | remove (b : Bool) : Step b .effected false .done
  | finish (b : Bool) : Step b .consumed b .done
  | abandon (b : Bool) : Step b .consumed b .outside
  | stay (b : Bool) (x : Use) : Step b x b x

/-- A crash before the effect gives the use up. -/
def Use.dropped : Use → Use
  | .effected => .effected
  | .done => .done
  | _ => .outside

/-- One call uses the key, and the key is gone once that call has deleted it. -/
structure UseInv (present : Bool) (f : ι → Use) : Prop where
  single : ∀ i j, f i ≠ .outside → f j ≠ .outside → i = j
  gone : ∀ i, f i = .consumed ∨ f i = .done → present = false

namespace UseInv

variable [DecidableEq ι] {b b' : Bool} {f : ι → Use} {i : ι} {x : Use}

/-- Whoever changes his use keeps it to one. -/
theorem single_update (h : UseInv b f) (hx : x ≠ .outside → f i ≠ .outside) (j k : ι)
    (hj : Function.update f i x j ≠ .outside) (hk : Function.update f i x k ≠ .outside) :
    j = k := by
  have hback : ∀ j, Function.update f i x j ≠ .outside → f j ≠ .outside := by
    intro j hj
    rcases update_cases (· ≠ Use.outside) hj with ⟨rfl, hself⟩ | ⟨-, hj⟩
    · exact hx hself
    · exact hj
  exact h.single j k (hback j hj) (hback k hk)

theorem gone_update (h : UseInv b f) (hx : x = .consumed ∨ x = .done → b = false) (j : ι)
    (hj : Function.update f i x j = .consumed ∨ Function.update f i x j = .done) : b = false := by
  rcases update_cases (fun y : Use => y = .consumed ∨ y = .done) hj with ⟨-, hj⟩ | ⟨-, hj⟩
  · exact hx hj
  · exact h.gone j hj

/-- **One step**, where nobody hits a key that is in use. -/
theorem step (h : UseInv b f) (hs : Use.Step b (f i) b' x)
    (hhit : f i = .outside → x = .holding → ∀ j, j ≠ i → f j ≠ .holding ∧ f j ≠ .effected) :
    UseInv b' (Function.update f i x) := by
  generalize hfi : f i = y at hs hhit
  cases hs with
  | hit =>
    have hother : ∀ j, j ≠ i → f j = .outside := by
      intro j hj
      obtain ⟨hhold, heff⟩ := hhit rfl rfl j hj
      cases hfj : f j with
      | outside => rfl
      | holding => exact absurd hfj hhold
      | effected => exact absurd hfj heff
      | consumed => cases h.gone j (Or.inl hfj)
      | done => cases h.gone j (Or.inr hfj)
    have honly : ∀ j, Function.update f i .holding j ≠ .outside → j = i := by
      intro j hj
      by_contra hne
      rw [Function.update_of_ne hne] at hj
      exact hj (hother j hne)
    refine ⟨fun j k hj hk => (honly j hj).trans (honly k hk).symm, h.gone_update ?_⟩
    rintro (⟨⟨⟩⟩ | ⟨⟨⟩⟩)
  | act =>
    refine ⟨h.single_update fun _ => by rw [hfi]; exact nofun, h.gone_update ?_⟩
    rintro (⟨⟨⟩⟩ | ⟨⟨⟩⟩)
  | consume => exact ⟨h.single_update fun _ => by rw [hfi]; exact nofun, fun _ _ => rfl⟩
  | remove => exact ⟨h.single_update fun _ => by rw [hfi]; exact nofun, fun _ _ => rfl⟩
  | finish =>
    exact ⟨h.single_update fun _ => by rw [hfi]; exact nofun,
      h.gone_update fun _ => h.gone i (Or.inl hfi)⟩
  | abandon =>
    refine ⟨h.single_update fun hne => absurd rfl hne, h.gone_update ?_⟩
    rintro (⟨⟨⟩⟩ | ⟨⟨⟩⟩)
  | stay =>
    rw [← hfi, Function.update_eq_self]
    exact h

theorem drop (h : UseInv b f) (i : ι) : UseInv b (Function.update f i (f i).dropped) := by
  refine ⟨h.single_update fun hne heq => hne ?_, h.gone_update fun hx => h.gone i ?_⟩
  · rw [heq]
    rfl
  · cases hfi : f i with
    | done => exact Or.inr rfl
    | consumed => exact Or.inl rfl
    | _ => rw [hfi] at hx; rcases hx with hx | hx <;> cases hx

end UseInv

/-! ## What the calls make of their keys -/

section Refinement

variable (cfg : Config)

/-- The one-time key a call is about. -/
def Call.key : Call → Option OneTimeKey
  | .reset token _ _ => some (.pwdReset (cfg.hashToken token))
  | .link token _ => some (.magic (cfg.hashToken token))
  | .verifyEmail token _ => some (.emailVerify (cfg.hashToken token))
  | _ => none

/-- The effect of a reset or of a verification is its UPDATE. -/
def ResetPc.use : ResetPc → Use
  | .get | .threw _ => .outside
  | .hash _ | .update _ _ _ => .holding
  | .delCache _ | .revokeAll _ | .delKey _ => .effected
  | .audit _ | .returned _ => .done

/-- How far `verifyEmail` is with its key. -/
def EmailPc.use : EmailPc → Use
  | .get | .threw _ => .outside
  | .update _ => .holding
  | .del _ => .effected
  | .audit _ | .returned => .done

/-- The effect of a magic link is the token pair it returns. -/
def LinkPc.use : LinkPc → Use
  | .get | .threw _ | .failed => .outside
  | .del _ => .holding
  | .findUser _ | .verify _ _ | .insert _ => .consumed
  | .returned _ => .done

/-- How far a call is with its key. -/
def Call.use : Call → Use
  | .reset _ _ pc => pc.use
  | .link _ pc => pc.use
  | .verifyEmail _ pc => pc.use
  | _ => .outside

/-- What a call has made of the key `k`. -/
def Call.useOf (k : OneTimeKey) (c : Call) : Use := if c.key cfg = some k then c.use else .outside

/-- What a call has made of the key `k`, running or not. -/
def used (k : OneTimeKey) : Proc Call → Use
  | .up c => c.useOf cfg k
  | .down c => (c.useOf cfg k).dropped

variable {cfg} {s s' : Store} {d : Draw} {k : OneTimeKey}

@[simp] theorem updateUser_oneTime (s : Store) (id : String) (f : UserRow → UserRow) :
    (s.updateUser id f).oneTime = s.oneTime := by
  unfold Store.updateUser
  repeat' split
  all_goals rfl

theorem isSome_of_getOneTime {v : OneTimeValue} (h : s.getOneTime k = some v) :
    (s.oneTime k).isSome = true := by
  obtain ⟨x, hx, -⟩ := Option.map_eq_some_iff.mp h
  rw [(Option.filter_eq_some_iff.mp hx).1]
  rfl

/-- A statement of a call about the key `k`, and what it makes of it. -/
structure KeyStep (k : OneTimeKey) (s : Store) (x : Use) (s' : Store) (x' : Use) : Prop where
  self : Use.Step (s.oneTime k).isSome x (s'.oneTime k).isSome x'
  others : ∀ k', k' ≠ k → s'.oneTime k' = s.oneTime k'

namespace KeyStep

variable {x x' : Use}

/-- A statement that leaves the one-time keys alone. -/
theorem keep (h : s'.oneTime = s.oneTime)
    (hs : Use.Step (s.oneTime k).isSome x (s.oneTime k).isSome x') : KeyStep k s x s' x' := by
  refine ⟨?_, fun _ _ => by rw [h]⟩
  rw [h]
  exact hs

theorem same (h : s'.oneTime = s.oneTime) : KeyStep k s x s' x := keep h (.stay _ _)

/-- The GET of the key. -/
theorem get {v : OneTimeValue} (h : s.getOneTime k = some v) : KeyStep k s .outside s .holding := by
  refine keep rfl ?_
  rw [isSome_of_getOneTime h]
  exact .hit

/-- The DEL of the key. -/
theorem del (hs : ∀ b, Use.Step b x false x') : KeyStep k s x (s.delOneTime k) x' := by
  refine ⟨?_, fun k' hk => ?_⟩
  · dsimp only [Store.delOneTime]
    rw [Function.update_self]
    exact hs _
  · dsimp only [Store.delOneTime]
    rw [Function.update_of_ne hk]

end KeyStep

/-- Each statement of `confirmPasswordReset`, as a step of its key. -/
theorem keyStep_reset {token password : String} {pc pc' : ResetPc}
    (h : resetNext cfg s d token password pc = some (s', pc')) :
    KeyStep (.pwdReset (cfg.hashToken token)) s pc.use s' pc'.use := by
  cases pc with
  | get =>
    obtain ⟨rfl, rfl⟩ := Prod.mk.inj (Option.some.inj h)
    split
    · rename_i v hv
      exact .get hv
    · exact .same rfl
  | update userId passwordHash changedAt =>
    obtain ⟨rfl, rfl⟩ := Prod.mk.inj (Option.some.inj h)
    exact .keep (updateUser_oneTime _ _ _) (.act _)
  | delKey userId =>
    obtain ⟨rfl, rfl⟩ := Prod.mk.inj (Option.some.inj h)
    exact .del .remove
  | returned _ => cases h
  | threw _ => cases h
  | _ =>
    obtain ⟨rfl, rfl⟩ := Prod.mk.inj (Option.some.inj h)
    exact .same rfl

/-- Each statement of `verifyEmail`, as a step of its key. -/
theorem keyStep_email {token : String} {pc pc' : EmailPc}
    (h : emailNext cfg s token pc = some (s', pc')) :
    KeyStep (.emailVerify (cfg.hashToken token)) s pc.use s' pc'.use := by
  cases pc with
  | get =>
    obtain ⟨rfl, rfl⟩ := Prod.mk.inj (Option.some.inj h)
    split
    · rename_i v hv
      exact .get hv
    · exact .same rfl
  | update userId =>
    obtain ⟨rfl, rfl⟩ := Prod.mk.inj (Option.some.inj h)
    exact .keep (updateUser_oneTime _ _ _) (.act _)
  | del userId =>
    obtain ⟨rfl, rfl⟩ := Prod.mk.inj (Option.some.inj h)
    exact .del .remove
  | audit userId =>
    obtain ⟨rfl, rfl⟩ := Prod.mk.inj (Option.some.inj h)
    exact .same rfl
  | returned => cases h
  | threw _ => cases h

/-- Each statement of `verifyLink`, as a step of its key. -/
theorem keyStep_link {token : String} {pc pc' : LinkPc}
    (h : linkNext cfg s d token pc = some (s', pc')) :
    KeyStep (.magic (cfg.hashToken token)) s pc.use s' pc'.use := by
  cases pc with
  | get =>
    obtain ⟨rfl, rfl⟩ := Prod.mk.inj (Option.some.inj h)
    split
    · rename_i v hv
      exact .get hv
    · exact .same rfl
  | del v =>
    obtain ⟨rfl, rfl⟩ := Prod.mk.inj (Option.some.inj h)
    exact .del .consume
  | findUser v =>
    rw [linkNext] at h
    split at h
    · obtain ⟨rfl, rfl⟩ := Prod.mk.inj (Option.some.inj h)
      exact .keep rfl (.abandon _)
    · split at h
      all_goals
        obtain ⟨rfl, rfl⟩ := Prod.mk.inj (Option.some.inj h)
        exact .same rfl
  | verify v isPlatformAdmin =>
    obtain ⟨rfl, rfl⟩ := Prod.mk.inj (Option.some.inj h)
    exact .same (updateUser_oneTime s v.userId .verifyEmail)
  | insert m =>
    rw [linkNext] at h
    split at h
    · rename_i s₁ hs₁
      obtain ⟨rfl, rfl⟩ := Prod.mk.inj (Option.some.inj h)
      obtain ⟨t, -, rfl⟩ := Store.createRefreshToken_eq hs₁
      exact .keep rfl (.finish _)
    · obtain ⟨rfl, rfl⟩ := Prod.mk.inj (Option.some.inj h)
      exact .keep rfl (.abandon _)
  | returned _ => cases h
  | threw _ => cases h
  | failed => cases h

/-- A refresh has nothing to do with the keys. -/
theorem oneTime_refresh {raw : String} {pc pc' : RefreshPc}
    (h : refreshNext cfg s d raw pc = some (s', pc')) : s'.oneTime = s.oneTime := by
  cases pc with
  | blacklist row jti =>
    rw [refreshNext] at h
    split at h
    · rename_i s₁ hs₁
      obtain ⟨rfl, -⟩ := Prod.mk.inj (Option.some.inj h)
      rw [Store.blacklistToken_eq hs₁]
      rfl
    · obtain ⟨rfl, -⟩ := Prod.mk.inj (Option.some.inj h)
      rfl
  | insert row m =>
    rw [refreshNext] at h
    split at h
    · rename_i s₁ hs₁
      obtain ⟨rfl, -⟩ := Prod.mk.inj (Option.some.inj h)
      obtain ⟨t, -, rfl⟩ := Store.createRefreshToken_eq hs₁
      rfl
    · obtain ⟨rfl, -⟩ := Prod.mk.inj (Option.some.inj h)
      rfl
  | returned _ _ => cases h
  | revoked _ => cases h
  | threw _ => cases h
  | failed _ => cases h
  | _ =>
    obtain ⟨rfl, -⟩ := Prod.mk.inj (Option.some.inj h)
    rfl

/-- The issuing of tokens leaves the one-time entries alone. -/
theorem oneTime_issue {a : IssueArgs} {pc pc' : IssuePc}
    (h : issueNext cfg s d a pc = some (s', pc')) : s'.oneTime = s.oneTime := by
  cases pc with
  | generate =>
    obtain ⟨rfl, -⟩ := Prod.mk.inj (Option.some.inj h)
    rfl
  | insert m =>
    rw [issueNext] at h
    split at h
    · rename_i s₁ hs₁
      obtain ⟨rfl, -⟩ := Prod.mk.inj (Option.some.inj h)
      obtain ⟨t, -, rfl⟩ := Store.createRefreshToken_eq hs₁
      rfl
    · obtain ⟨rfl, -⟩ := Prod.mk.inj (Option.some.inj h)
      rfl
  | returned _ => cases h
  | failed => cases h

/-- So does a logout. -/
theorem oneTime_revoke {raw jti : String} {ttl : ℕ} {pc pc' : RevokePc}
    (h : revokeNext cfg s raw jti ttl pc = some (s', pc')) : s'.oneTime = s.oneTime := by
  cases pc with
  | blacklist =>
    rw [revokeNext] at h
    split at h
    · rename_i s₁ hs₁
      obtain ⟨rfl, -⟩ := Prod.mk.inj (Option.some.inj h)
      rw [Store.blacklistToken_eq hs₁]
      rfl
    · obtain ⟨rfl, -⟩ := Prod.mk.inj (Option.some.inj h)
      rfl
  | returned => cases h
  | failed => cases h
  | _ =>
    obtain ⟨rfl, -⟩ := Prod.mk.inj (Option.some.inj h)
    rfl

/-- So does the authentication of a request. -/
theorem oneTime_authenticate {token : AccessToken} {pc pc' : AuthPc}
    (h : authNext s d token pc = some (s', pc')) : s'.oneTime = s.oneTime := by
  cases pc with
  | setex user =>
    obtain ⟨rfl, -⟩ := Prod.mk.inj (Option.some.inj h)
    split <;> rfl
  | accepted => cases h
  | threw _ => cases h
  | _ =>
    obtain ⟨rfl, -⟩ := Prod.mk.inj (Option.some.inj h)
    rfl

theorem useOf_self {c : Call} (h : c.key cfg = some k) : c.useOf cfg k = c.use := if_pos h

theorem useOf_other {c : Call} (h : c.key cfg ≠ some k) : c.useOf cfg k = .outside := if_neg h

/-- A step on its own key is a step on every key. -/
theorem KeyStep.useOf {k' : OneTimeKey} {c c' : Call} (h : KeyStep k s c.use s' c'.use)
    (hc : c.key cfg = some k) (hc' : c'.key cfg = some k) :
    Use.Step (s.oneTime k').isSome (c.useOf cfg k') (s'.oneTime k').isSome (c'.useOf cfg k') := by
  by_cases hk : k' = k
  · subst hk
    rw [useOf_self hc, useOf_self hc']
    exact h.self
  · have hne : some k ≠ some k' := fun heq => hk (Option.some.inj heq).symm
    rw [useOf_other (hc ▸ hne), useOf_other (hc' ▸ hne), h.others k' hk]
    exact .stay _ _

/-- **The statements refine the steps on a key.** -/
theorem useStep_of_next {c c' : Call} (h : next cfg s c d = some (s', c')) (k : OneTimeKey) :
    Use.Step (s.oneTime k).isSome (c.useOf cfg k) (s'.oneTime k).isSome (c'.useOf cfg k) := by
  have hnone : ∀ {c c' : Call}, c.key cfg = none → c'.key cfg = none → s'.oneTime = s.oneTime →
      Use.Step (s.oneTime k).isSome (c.useOf cfg k) (s'.oneTime k).isSome (c'.useOf cfg k) := by
    intro c c' hc hc' hs
    rw [useOf_other (hc ▸ nofun), useOf_other (hc' ▸ nofun), hs]
    exact .stay _ _
  cases c with
  | reset token password pc =>
    obtain ⟨pc', hpc, rfl⟩ := pc_of_next h
    exact KeyStep.useOf (keyStep_reset hpc) rfl rfl
  | link token pc =>
    obtain ⟨pc', hpc, rfl⟩ := pc_of_next h
    exact KeyStep.useOf (keyStep_link hpc) rfl rfl
  | verifyEmail token pc =>
    obtain ⟨pc', hpc, rfl⟩ := pc_of_next h
    exact KeyStep.useOf (keyStep_email hpc) rfl rfl
  | issue a pc =>
    obtain ⟨pc', hpc, rfl⟩ := pc_of_next h
    exact hnone rfl rfl (oneTime_issue hpc)
  | refresh raw pc =>
    obtain ⟨pc', hpc, rfl⟩ := pc_of_next h
    exact hnone rfl rfl (oneTime_refresh hpc)
  | revokeTokens raw jti ttl pc =>
    obtain ⟨pc', hpc, rfl⟩ := pc_of_next h
    exact hnone rfl rfl (oneTime_revoke hpc)
  | authenticate token pc =>
    obtain ⟨pc', hpc, rfl⟩ := pc_of_next h
    exact hnone rfl rfl (oneTime_authenticate hpc)

end Refinement

/-! ## The property and the condition -/

/-- The key whose effect a call has had: the pair of a magic link, the UPDATE of a reset or of a
verification. -/
def Call.spent (cfg : Config) : Call → Option OneTimeKey
  | .link token (.returned _) => some (.magic (cfg.hashToken token))
  | .reset token _ (.delCache _) | .reset token _ (.revokeAll _) | .reset token _ (.delKey _)
  | .reset token _ (.audit _) | .reset token _ (.returned _) =>
    some (.pwdReset (cfg.hashToken token))
  | .verifyEmail token (.del _) | .verifyEmail token (.audit _) | .verifyEmail token .returned =>
    some (.emailVerify (cfg.hashToken token))
  | _ => none

/-- **Once**: each one-time key has had its effect in one call at most. -/
def Once (cfg : Config) (p : Calls ι) : Prop :=
  ∀ i j, ∀ k ∈ (p.calls i).at'.spent cfg, k ∈ (p.calls j).at'.spent cfg → i = j

/-- The key a call is about to read and will find. -/
def Call.hitting (cfg : Config) (s : Store) : Call → Option OneTimeKey
  | .link token .get =>
    (some (.magic (cfg.hashToken token))).filter fun k => (s.getOneTime k).isSome
  | .reset token _ .get =>
    (some (.pwdReset (cfg.hashToken token))).filter fun k => (s.getOneTime k).isSome
  | .verifyEmail token .get =>
    (some (.emailVerify (cfg.hashToken token))).filter fun k => (s.getOneTime k).isSome
  | _ => none

/-- **No key is contended**: a call finds a key only while no other call is between its own GET and
its own DEL of it, and no other call has stopped there after its effect. -/
def Uncontended (cfg : Config) (p : Calls ι) : Move ι Draw Env → Prop
  | .run i _ => ∀ k ∈ (p.calls i).at'.hitting cfg p.store, ∀ j, j ≠ i →
      used cfg k (p.calls j) ≠ .holding ∧ used cfg k (p.calls j) ≠ .effected
  | _ => True

/-- Random tokens never repeat: a key that is stored has not been used. -/
def FreshTokens (cfg : Config) (p : Calls ι) : Move ι Draw Env → Prop
  | .env (.storeOneTime k _ _) => ∀ i, used cfg k (p.calls i) = .outside
  | _ => True

/-! ## Every run -/

section Runs

variable {cfg : Config} {s s' : Store} {d : Draw} {k : OneTimeKey} {c c' : Call}

theorem key_of_useOf (h : c.useOf cfg k ≠ .outside) : c.key cfg = some k := by
  by_contra hk
  exact h (useOf_other hk)

theorem mem_filter_of_getOneTime {v : OneTimeValue} (h : s.getOneTime k = some v) :
    k ∈ (some k).filter fun k => (s.getOneTime k).isSome := by
  rw [Option.mem_def, Option.filter_eq_some_iff, h]
  exact ⟨rfl, rfl⟩

/-- Only a GET that finds the key takes hold of it. -/
theorem hitting_reset {token password : String} {pc pc' : ResetPc}
    (h : resetNext cfg s d token password pc = some (s', pc')) (hout : pc.use = .outside)
    (hhold : pc'.use = .holding) :
    .pwdReset (cfg.hashToken token) ∈ (Call.reset token password pc).hitting cfg s := by
  cases pc with
  | get =>
    obtain ⟨rfl, rfl⟩ := Prod.mk.inj (Option.some.inj h)
    split at hhold
    · rename_i v hv
      exact mem_filter_of_getOneTime hv
    · cases hhold
  | threw _ => cases h
  | _ => cases hout

/-- A magic link that comes to hold its key has found it. -/
theorem hitting_link {token : String} {pc pc' : LinkPc}
    (h : linkNext cfg s d token pc = some (s', pc')) (hout : pc.use = .outside)
    (hhold : pc'.use = .holding) :
    .magic (cfg.hashToken token) ∈ (Call.link token pc).hitting cfg s := by
  cases pc with
  | get =>
    obtain ⟨rfl, rfl⟩ := Prod.mk.inj (Option.some.inj h)
    split at hhold
    · rename_i v hv
      exact mem_filter_of_getOneTime hv
    · cases hhold
  | threw _ => cases h
  | failed => cases h
  | _ => cases hout

/-- An email verification that comes to hold its key has found it. -/
theorem hitting_email {token : String} {pc pc' : EmailPc}
    (h : emailNext cfg s token pc = some (s', pc')) (hout : pc.use = .outside)
    (hhold : pc'.use = .holding) :
    .emailVerify (cfg.hashToken token) ∈ (Call.verifyEmail token pc).hitting cfg s := by
  cases pc with
  | get =>
    obtain ⟨rfl, rfl⟩ := Prod.mk.inj (Option.some.inj h)
    split at hhold
    · rename_i v hv
      exact mem_filter_of_getOneTime hv
    · cases hhold
  | threw _ => cases h
  | _ => cases hout

/-- Only a call that finds the key gets hold of it. -/
theorem hitting_of_next (h : next cfg s c d = some (s', c')) (hout : c.useOf cfg k = .outside)
    (hhold : c'.useOf cfg k = .holding) : k ∈ c.hitting cfg s := by
  have hk : c'.key cfg = some k := key_of_useOf (hhold ▸ nofun)
  rw [useOf_self hk] at hhold
  cases c with
  | reset token password pc =>
    obtain ⟨pc', hpc, rfl⟩ := pc_of_next h
    rw [useOf_self (c := .reset token password pc) hk] at hout
    obtain rfl := Option.some.inj hk
    exact hitting_reset hpc hout hhold
  | link token pc =>
    obtain ⟨pc', hpc, rfl⟩ := pc_of_next h
    rw [useOf_self (c := .link token pc) hk] at hout
    obtain rfl := Option.some.inj hk
    exact hitting_link hpc hout hhold
  | verifyEmail token pc =>
    obtain ⟨pc', hpc, rfl⟩ := pc_of_next h
    rw [useOf_self (c := .verifyEmail token pc) hk] at hout
    obtain rfl := Option.some.inj hk
    exact hitting_email hpc hout hhold
  | _ =>
    obtain ⟨pc', -, rfl⟩ := pc_of_next h
    cases hk

/-- A call that has had the effect of a key has used it. -/
theorem effective_of_spent {x : Proc Call} (h : x.at'.spent cfg = some k) :
    (used cfg k x).effective := by
  have hcall : ∀ c : Call, c.spent cfg = some k → (c.useOf cfg k).effective := by
    intro c hc
    cases c with
    | reset token password pc =>
      cases pc with
      | get => cases hc
      | hash _ => cases hc
      | update _ _ _ => cases hc
      | threw _ => cases hc
      | audit _ => exact Or.inr (useOf_self hc)
      | returned _ => exact Or.inr (useOf_self hc)
      | _ => exact Or.inl (useOf_self hc)
    | link token pc =>
      cases pc with
      | returned _ => exact Or.inr (useOf_self hc)
      | _ => cases hc
    | verifyEmail token pc =>
      cases pc with
      | get => cases hc
      | update _ => cases hc
      | threw _ => cases hc
      | del _ => exact Or.inl (useOf_self hc)
      | _ => exact Or.inr (useOf_self hc)
    | _ => cases hc
  cases x with
  | up c => exact hcall c h
  | down c =>
    rcases hcall c h with hu | hu
    · exact Or.inl (congrArg Use.dropped hu)
    · exact Or.inr (congrArg Use.dropped hu)

/-- A call that has not started uses no key. -/
theorem used_of_fresh (k : OneTimeKey) {x : Proc Call} (h : x.Live fun c => c.fresh) :
    used cfg k x = .outside := by
  obtain ⟨c, rfl, hfresh⟩ := h.exists
  have huse : c.use = .outside := by
    cases c with
    | reset token password pc => cases pc <;> first | rfl | cases hfresh
    | link token pc => cases pc <;> first | rfl | cases hfresh
    | verifyEmail token pc => cases pc <;> first | rfl | cases hfresh
    | _ => rfl
  rw [used, Call.useOf, huse, ite_self]

/-- What uncontended runs keep. -/
def KeysInv (cfg : Config) (p : Calls ι) : Prop :=
  ∀ k, UseInv (p.store.oneTime k).isSome (used cfg k ∘ p.calls)

theorem KeysInv.once {p : Calls ι} (h : KeysInv cfg p) : Once cfg p := by
  intro i j k hi hj
  have houtside : ∀ {x : Use}, x.effective → x ≠ .outside := by
    rintro x (rfl | rfl) <;> exact nofun
  exact (h k).single i j (houtside (effective_of_spent hi)) (houtside (effective_of_spent hj))

theorem useInv_outside {b : Bool} {f : ι → Use} (h : ∀ i, f i = .outside) : UseInv b f where
  single i _ hi _ := absurd (h i) hi
  gone i hi := by
    rw [h i] at hi
    rcases hi with hi | hi <;> cases hi

/-- A key that is stored is new to the calls. -/
theorem KeysInv.env {p : Calls ι} (h : KeysInv cfg p) (e : Env)
    (hfresh : FreshTokens cfg p (.env e : Move ι Draw Env)) :
    KeysInv cfg ⟨env p.store e, p.calls⟩ := by
  cases e with
  | storeOneTime k v ttl =>
    intro k'
    by_cases hk : k' = k
    · subst hk
      exact useInv_outside hfresh
    · dsimp only [Auth.env, Store.setOneTime]
      rw [Function.update_of_ne hk]
      exact h k'
  | _ => exact h

variable [DecidableEq ι]

/-- **One effect for each key**: in every run in which no key is contended. -/
theorem once_of_uncontended {p q : Calls ι} (hstart : ∀ i, (p.calls i).Live fun c => c.fresh)
    (hrun : Run (Pool.step (authMachine cfg))
      (fun p m => FreshTokens cfg p m ∧ Uncontended cfg p m) p q) : Once cfg q := by
  have hinv : KeysInv cfg q := by
    refine Pool.invariant (I := KeysInv cfg) (fun k => ?_) ?_ ?_ (fun p e h hG => h.env e hG.1) hrun
    · exact useInv_outside fun i => used_of_fresh k (hstart i)
    · intro p i d c s' c' h hG hi hn k
      have hfi : (used cfg k ∘ p.calls) i = c.useOf cfg k := by
        rw [Function.comp_apply, hi]
        rfl
      dsimp only
      rw [Function.comp_update]
      refine (h k).step (hfi ▸ useStep_of_next hn k) fun hout hhold => hG.2 k ?_
      rw [hi]
      exact hitting_of_next hn (hfi ▸ hout) hhold
    · intro p i c h _ hi k
      have hcrash : used cfg k (.down c) = ((used cfg k ∘ p.calls) i).dropped := by
        rw [Function.comp_apply, hi]
        rfl
      dsimp only
      rw [Function.comp_update, hcrash]
      exact (h k).drop i
  exact hinv.once

end Runs

/-! ## Two clicks on one link, and a reset that crashed -/

section Guard

variable [Fintype ι] [DecidableEq ι] (cfg : Config) (p : Calls ι)

instance : ∀ m : Move ι Draw Env, Decidable (Uncontended cfg p m)
  | .run i _ => inferInstanceAs (Decidable (∀ k ∈ (p.calls i).at'.hitting cfg p.store, ∀ j, j ≠ i →
      used cfg k (p.calls j) ≠ .holding ∧ used cfg k (p.calls j) ≠ .effected))
  | .crash _ => inferInstanceAs (Decidable True)
  | .env _ => inferInstanceAs (Decidable True)

omit [DecidableEq ι] in
instance : ∀ m : Move ι Draw Env, Decidable (FreshTokens cfg p m)
  | .env (.storeOneTime k _ _) =>
    inferInstanceAs (Decidable (∀ i, used cfg k (p.calls i) = .outside))
  | .env (.tick _) | .env .replicate | .env (.writeUser _ _ _ _) | .env (.writeMemberships _)
  | .env (.evictUser _) | .run _ _ | .crash _ => inferInstanceAs (Decidable True)

end Guard

/-- A magic link `m` and a password reset `w` of the user `u`, each used by two calls. -/
def usedTwice : Calls (Fin 2 × Bool) where
  store := { demoSession with
    oneTime := fun k =>
      if k = .magic "m" ∨ k = .pwdReset "w" then some ⟨⟨"u", none⟩, 900000⟩ else none }
  calls
    | (_, true) => .up (.link "m" .get)
    | (_, false) => .up (.reset "w" "new" .get)

theorem usedTwice_fresh (i : Fin 2 × Bool) : (usedTwice.calls i).Live fun c => c.fresh := by
  obtain ⟨-, _ | _⟩ := i <;> rfl

/-- The draws of the two clicks. -/
def click (i : Fin 2) : Move (Fin 2 × Bool) Draw Env :=
  .run (i, true) (if i = 0 then drawn "a1" "t1" "r1" else drawn "a2" "t2" "r2")

def confirm (i : Fin 2) : Move (Fin 2 × Bool) Draw Env := .run (i, false) (drawn "" "" "")

/-- **Two clicks, two pairs**: both calls read the key before either deletes it.  **A reset that
crashes** after its UPDATE leaves its key to another reset. -/
theorem two_clicks_two_pairs :
    (∀ i, (usedTwice.calls i).Live fun c => c.fresh)
      ∧ (∃ q, Run (Pool.step (authMachine demoConfig)) (FreshTokens demoConfig) usedTwice q
        ∧ (q.calls (0, true)).at'.spent demoConfig = some (.magic "m")
        ∧ (q.calls (1, true)).at'.spent demoConfig = some (.magic "m") ∧ ¬ Once demoConfig q)
      ∧ ∃ q, Run (Pool.step (authMachine demoConfig)) (FreshTokens demoConfig) usedTwice q
        ∧ (q.calls (0, false)).at'.spent demoConfig = some (.pwdReset "w")
        ∧ (q.calls (1, false)).at'.spent demoConfig = some (.pwdReset "w")
        ∧ ¬ Once demoConfig q := by
  have htwice : ∀ {q : Calls (Fin 2 × Bool)} {k b}, (q.calls (0, b)).at'.spent demoConfig = some k →
      (q.calls (1, b)).at'.spent demoConfig = some k → ¬ Once demoConfig q := by
    intro q k b h0 h1 honce
    cases honce (0, b) (1, b) k h0 h1
  refine ⟨usedTwice_fresh, ?_, ?_⟩
  · obtain ⟨q, hq, hspent⟩ := exists_run_of_exec (Pool.step (authMachine demoConfig))
      (FreshTokens demoConfig) usedTwice ((List.replicate 4 [click 0, click 1]).flatten)
      (fun q => (q.calls (0, true)).at'.spent demoConfig = some (.magic "m")
        ∧ (q.calls (1, true)).at'.spent demoConfig = some (.magic "m")) (by decide)
    obtain ⟨h0, h1⟩ := of_decide_eq_true hspent
    exact ⟨q, hq, h0, h1, htwice h0 h1⟩
  · obtain ⟨q, hq, hspent⟩ := exists_run_of_exec (Pool.step (authMachine demoConfig))
      (FreshTokens demoConfig) usedTwice
      (List.flatten [List.replicate 3 (confirm 0), [.crash (0, false)],
        List.replicate 3 (confirm 1)])
      (fun q => (q.calls (0, false)).at'.spent demoConfig = some (.pwdReset "w")
        ∧ (q.calls (1, false)).at'.spent demoConfig = some (.pwdReset "w")) (by decide)
    obtain ⟨h0, h1⟩ := of_decide_eq_true hspent
    exact ⟨q, hq, h0, h1, htwice h0 h1⟩

/-- One click after the other, and a reset beside them: the second click is refused. -/
theorem once_clicked_in_turn :
    ∃ q, Run (Pool.step (authMachine demoConfig))
        (fun p m => FreshTokens demoConfig p m ∧ Uncontended demoConfig p m) usedTwice q
      ∧ (q.calls (0, true)).at'.spent demoConfig = some (.magic "m")
      ∧ q.calls (1, true) = .up (.link "m" (.threw (invalidOrExpired "Magic link")))
      ∧ Once demoConfig q := by
  obtain ⟨q, hq, hend⟩ := exists_run_of_exec (Pool.step (authMachine demoConfig))
    (fun p m => FreshTokens demoConfig p m ∧ Uncontended demoConfig p m) usedTwice
    ((List.replicate 4 [click 0, confirm 0]).flatten ++ [click 1])
    (fun q => (q.calls (0, true)).at'.spent demoConfig = some (.magic "m")
      ∧ q.calls (1, true) = .up (.link "m" (.threw (invalidOrExpired "Magic link")))) (by decide)
  obtain ⟨h0, h1⟩ := of_decide_eq_true hend
  exact ⟨q, hq, h0, h1, once_of_uncontended usedTwice_fresh hq⟩

end WorkPlatform.Auth

import WorkPlatform.Realtime.Places

/-!
# Realtime/CallState — the participants in Redis and the state in PostgreSQL

    join     SADD ▸ EXPIRE ▸ EXPIRE ▸ INSERT 'active'        joining, after SADD
    leave    SREM ▸ SCARD ─ 0 ▸ UPDATE 'ended'               leaving, after SREM

Two writes make one change, and others come between.  What every run keeps is that someone is on
the way to put right what is not (`Settled`): a call with participants is active or being joined, a
call without is not active or being left.  In every run whose statements keep to that
(`Settles`), a call that nobody is joining or leaving is active if and only if it has participants
(`active_iff_participants`).
-/

namespace WorkPlatform.Realtime

open Machinery

variable {ι κ : Type*}

/-! ## Who is on the way -/

/-- The row of the call says so. -/
def CallStore.active (uuid : String → Option String) (s : CallStore κ) (callId : String) : Bool :=
  ((uuid callId).bind s.videoCalls.find).any (·.state = .active)

/-- Between the SADD and the INSERT. -/
def Call.joining (callId : String) : Call κ → Bool
  | .handleCallJoin _ x _ .expireState | .handleCallJoin _ x _ .expireParticipants
  | .handleCallJoin _ x _ .upsert => x = callId
  | _ => false

/-- Between the SREM and the UPDATE. -/
def Call.leaving (callId : String) : Call κ → Bool
  | .handleCallLeave _ x .scard | .handleCallLeave _ x .ended => x = callId
  | _ => false

/-- After the first statement and before the end. -/
def Call.inProgress (callId : String) : Call κ → Bool
  | .handleCallJoin _ x _ pc => x = callId ∧ pc ≠ .videoEnabled ∧ pc ≠ .returned ∧ pc ≠ .threw
  | .handleCallLeave _ x pc => x = callId ∧ pc ≠ .leave ∧ pc ≠ .returned ∧ pc ≠ .threw
  | _ => false

section Settled

variable (uuid : String → Option String) (callId : String)

/-- **What every run keeps.** -/
structure Settled (p : Calls ι κ) : Prop where
  joined : p.store.participants callId ≠ [] →
    p.store.active uuid callId ∨ ∃ i, (p.calls i).Live fun c => c.joining callId
  left : p.store.participants callId = [] →
    p.store.active uuid callId = false ∨ ∃ i, (p.calls i).Live fun c => c.leaving callId

/-- The call can end where it is: if it is on the way, it is not needed, or another is too. -/
def CanStop (p : Calls ι κ) (i : ι) : Prop :=
  (p.calls i).Keeps fun c =>
    (c.joining callId → p.store.participants callId = [] ∨ p.store.active uuid callId
        ∨ ∃ j, j ≠ i ∧ (p.calls j).Live fun c => c.joining callId)
      ∧ (c.leaving callId → p.store.participants callId ≠ [] ∨ p.store.active uuid callId = false
        ∨ ∃ j, j ≠ i ∧ (p.calls j).Live fun c => c.leaving callId)

/-- The call has participants, or one is leaving and will look. -/
def CanActivate (p : Calls ι κ) : Prop :=
  p.store.participants callId ≠ [] ∨ ∃ j, (p.calls j).Live fun c => c.leaving callId

/-- The call has none, or one is joining and will set it active. -/
def CanEnd (p : Calls ι κ) : Prop :=
  p.store.participants callId = [] ∨ ∃ j, (p.calls j).Live fun c => c.joining callId

/-- The next statement of the call does not leave it behind. -/
def Call.Settles (p : Calls ι κ) (i : ι) (ok : Bool) : Call κ → Prop
  | .handleCallJoin _ x _ .upsert =>
    if ok = true ∧ (uuid x).isSome then uuid x = uuid callId → CanActivate callId p
    else CanStop uuid callId p i
  | .handleCallLeave _ x .ended => (uuid x).isSome → uuid x = uuid callId → CanEnd callId p
  | _ => True

/-- **The call is set active only while it has participants or one is leaving, and ended only while
it has none or one is joining**; no call that is needed on its way is stopped or refused, and the
participants do not expire. -/
def Settles (p : Calls ι κ) : Move ι Bool (Act κ) → Prop
  | .run i ok => (p.calls i).Keeps fun c => c.Settles uuid callId p i ok
  | .crash i => CanStop uuid callId p i
  | .env (.tick now) => (p.store.tick now).participants callId = [] →
      p.store.participants callId = [] ∨ p.store.active uuid callId = false
        ∨ ∃ j, (p.calls j).Live fun c => c.leaving callId
  | .env _ => True

section Decidable

variable [Fintype ι] [DecidableEq ι] {uuid} {callId} (p : Calls ι κ)

instance (i : ι) : Decidable (CanStop uuid callId p i) :=
  inferInstanceAs (Decidable ((p.calls i).Keeps fun c =>
    (c.joining callId → p.store.participants callId = [] ∨ p.store.active uuid callId
        ∨ ∃ j, j ≠ i ∧ (p.calls j).Live fun c => c.joining callId)
      ∧ (c.leaving callId → p.store.participants callId ≠ [] ∨ p.store.active uuid callId = false
        ∨ ∃ j, j ≠ i ∧ (p.calls j).Live fun c => c.leaving callId)))

instance : Decidable (CanActivate callId p) := inferInstanceAs (Decidable (_ ∨ _))

instance : Decidable (CanEnd callId p) := inferInstanceAs (Decidable (_ ∨ _))

instance (i : ι) (ok : Bool) : ∀ c : Call κ, Decidable (c.Settles uuid callId p i ok)
  | .handleCallJoin _ x _ .upsert => inferInstanceAs (Decidable
      (if ok = true ∧ (uuid x).isSome then uuid x = uuid callId → CanActivate callId p
        else CanStop uuid callId p i))
  | .handleCallLeave _ x .ended => inferInstanceAs (Decidable
      ((uuid x).isSome → uuid x = uuid callId → CanEnd callId p))
  | .handleCallJoin _ _ _ .videoEnabled | .handleCallJoin _ _ _ .join
  | .handleCallJoin _ _ _ .hset | .handleCallJoin _ _ _ .sadd
  | .handleCallJoin _ _ _ .expireState | .handleCallJoin _ _ _ .expireParticipants
  | .handleCallJoin _ _ _ .emit | .handleCallJoin _ _ _ .returned | .handleCallJoin _ _ _ .threw
  | .handleCallLeave _ _ .leave | .handleCallLeave _ _ .srem | .handleCallLeave _ _ .scard
  | .handleCallLeave _ _ .emit | .handleCallLeave _ _ .returned | .handleCallLeave _ _ .threw
  | .connect _ _ | .event _ _ _ | .broadcast _ _ => inferInstanceAs (Decidable True)

instance : ∀ m, Decidable (Settles uuid callId p m)
  | .run i ok =>
    inferInstanceAs (Decidable ((p.calls i).Keeps fun c => c.Settles uuid callId p i ok))
  | .crash i => inferInstanceAs (Decidable (CanStop uuid callId p i))
  | .env (.tick now) => inferInstanceAs (Decidable ((p.store.tick now).participants callId = [] →
      p.store.participants callId = [] ∨ p.store.active uuid callId = false
        ∨ ∃ j, (p.calls j).Live fun c => c.leaving callId))
  | .env (.memberships _) | .env (.deliver _ _) | .env (.settle _) =>
    inferInstanceAs (Decidable True)

end Decidable

end Settled

/-! ## What the statements do to the state -/

section Active

variable {uuid : String → Option String} {s s' : CallStore κ} {callId : String}

theorem active_congr (h : s'.videoCalls = s.videoCalls) :
    s'.active uuid callId = s.active uuid callId := by
  unfold CallStore.active
  rw [h]

/-- A call that was upserted is active. -/
theorem find_upsertCall_self (id channelId orgId userId : String) :
    ((s.upsertCall id channelId orgId userId).videoCalls.find id).any
      (·.state = .active) = true := by
  unfold CallStore.upsertCall
  dsimp only
  split
  case h_1 videoCalls hinsert =>
    rw [Table.find_insert hinsert, if_pos rfl]
    rfl
  case h_2 hinsert =>
    rw [Table.find_update, if_pos rfl]
    obtain ⟨row, hrow⟩ := Table.find_of_insert_none hinsert
    rw [hrow]
    rfl

theorem active_upsertCall_self {id : String} (hid : uuid callId = some id)
    (channelId orgId userId : String) :
    (s.upsertCall id channelId orgId userId).active uuid callId = true := by
  unfold CallStore.active
  rw [hid]
  exact find_upsertCall_self id channelId orgId userId

/-- The upsert of another call leaves a call as active as it was. -/
theorem active_upsertCall_of_ne {id : String} (hid : uuid callId ≠ some id)
    (channelId orgId userId : String) :
    (s.upsertCall id channelId orgId userId).active uuid callId = s.active uuid callId := by
  unfold CallStore.active
  cases hcall : uuid callId with
  | none => rfl
  | some id' =>
    have hne : id' ≠ id := fun h => hid (hcall.trans (congrArg some h))
    exact congrArg _ (CallStore.find_upsertCall_of_ne hne)

/-- A call that was ended is not active. -/
theorem active_endCall_self {id : String} (hid : uuid callId = some id) :
    (s.endCall id).active uuid callId = false := by
  have hfind : (s.endCall id).videoCalls.find id = (s.videoCalls.find id).map fun r =>
      { r with state := .ended, endedAt := some s.now } := by
    unfold CallStore.endCall
    rw [Table.find_update, if_pos rfl]
  unfold CallStore.active
  rw [hid, Option.bind_some, hfind]
  cases s.videoCalls.find id <;> rfl

theorem active_endCall_of_ne {id : String} (hid : uuid callId ≠ some id) :
    (s.endCall id).active uuid callId = s.active uuid callId := by
  unfold CallStore.active
  cases hcall : uuid callId with
  | none => rfl
  | some id' =>
    have hne : id' ≠ id := fun h => hid (hcall.trans (congrArg some h))
    exact congrArg _ (CallStore.find_endCall_of_ne hne)

end Active

/-! ## What keeps the two together -/

section Steps

variable [DecidableEq ι] {uuid : String → Option String} {callId : String} {p : Calls ι κ} {i : ι}
  {s' : CallStore κ} {c c' : Call κ}

/-- What changes neither the participants nor the state, and keeps the call on its way. -/
theorem settled_frame (h : Settled uuid callId p) (hc : p.calls i = .up c)
    (hset : s'.participants callId = p.store.participants callId)
    (hactive : s'.active uuid callId = p.store.active uuid callId)
    (hjoin : c.joining callId → c'.joining callId) (hleave : c.leaving callId → c'.leaving callId) :
    Settled uuid callId ⟨s', Function.update p.calls i (.up c')⟩ where
  joined := by
    show s'.participants callId ≠ [] → _
    rw [hset]
    intro hne
    exact (h.joined hne).imp hactive.trans (exists_live_update hc hjoin)
  left := by
    show s'.participants callId = [] → _
    rw [hset]
    intro hnil
    exact (h.left hnil).imp hactive.trans (exists_live_update hc hleave)

/-- A call may end where it is. -/
theorem settled_stop (h : Settled uuid callId p) (hc : p.calls i = .up c)
    (hstop : CanStop uuid callId p i) {x : Proc (Call κ)} :
    Settled uuid callId ⟨p.store, Function.update p.calls i x⟩ where
  joined := by
    intro hne
    obtain ⟨hjoin, -⟩ := hstop.of_up hc
    by_cases hself : c.joining callId
    · rcases hjoin hself with hnil | hactive | hother
      · exact absurd hnil hne
      · exact Or.inl hactive
      · exact Or.inr (exists_live_of_ne hother x)
    · exact (h.joined hne).imp_right fun hlive =>
        exists_live_of_ne (exists_live_ne hc hself hlive) x
  left := by
    intro hnil
    obtain ⟨-, hleave⟩ := hstop.of_up hc
    by_cases hself : c.leaving callId
    · rcases hleave hself with hne | hactive | hother
      · exact absurd hnil hne
      · exact Or.inl hactive
      · exact Or.inr (exists_live_of_ne hother x)
    · exact (h.left hnil).imp_right fun hlive =>
        exists_live_of_ne (exists_live_ne hc hself hlive) x

/-- After the SADD the call has a participant, and is being joined. -/
theorem settled_sadd {k : κ} {x channelId userId : String} (h : Settled uuid callId p)
    (hc : p.calls i = .up (.handleCallJoin k x channelId .sadd)) :
    Settled uuid callId ⟨p.store.sadd x userId,
      Function.update p.calls i (.up (.handleCallJoin k x channelId .expireState))⟩ := by
  by_cases hx : x = callId
  · subst hx
    have hset : (p.store.sadd x userId).participants x ≠ [] := by
      rw [CallStore.participants_sadd]
      exact List.ne_nil_of_mem List.mem_insert_self
    exact ⟨fun _ => Or.inr (exists_live_self (decide_eq_true rfl)), fun hnil => absurd hnil hset⟩
  · exact settled_frame h hc (Function.update_of_ne (Ne.symm hx) _ _) (active_congr rfl) nofun nofun

/-- After the SREM the call has no more participants than before, and is being left. -/
theorem settled_srem {k : κ} {x userId : String} (h : Settled uuid callId p)
    (hc : p.calls i = .up (.handleCallLeave k x .srem)) :
    Settled uuid callId ⟨p.store.srem x userId,
      Function.update p.calls i (.up (.handleCallLeave k x .scard))⟩ := by
  by_cases hx : x = callId
  · subst hx
    refine ⟨fun hne => ?_, fun _ => Or.inr (exists_live_self (decide_eq_true rfl))⟩
    have hbefore : p.store.participants x ≠ [] := by
      intro hnil
      refine hne ?_
      show (p.store.srem x userId).participants x = []
      rw [CallStore.participants_srem, hnil]
      rfl
    exact (h.joined hbefore).imp_right (exists_live_update hc nofun)
  · exact settled_frame h hc (Function.update_of_ne (Ne.symm hx) _ _) (active_congr rfl) nofun nofun

/-- The INSERT that is not refused. -/
theorem settled_upsertCall {k : κ} {x channelId id : String} (h : Settled uuid callId p)
    (hc : p.calls i = .up (.handleCallJoin k x channelId .upsert)) (hid : uuid x = some id)
    (hguard : uuid callId = some id → CanActivate callId p) {o userId : String} :
    Settled uuid callId ⟨p.store.upsertCall id channelId o userId,
      Function.update p.calls i (.up (.handleCallJoin k x channelId .emit))⟩ := by
  by_cases hcall : uuid callId = some id
  · refine ⟨fun _ => Or.inl (active_upsertCall_self hcall _ _ _), fun hnil => Or.inr ?_⟩
    rcases hguard hcall with hne | hlive
    · exact absurd hnil hne
    · exact exists_live_update hc nofun hlive
  · have hx : x ≠ callId := fun heq => hcall (heq ▸ hid)
    refine settled_frame h hc rfl (active_upsertCall_of_ne hcall _ _ _) ?_ nofun
    intro hjoin
    exact absurd (of_decide_eq_true hjoin) hx

/-- The UPDATE. -/
theorem settled_endCall {k : κ} {x id : String} (h : Settled uuid callId p)
    (hc : p.calls i = .up (.handleCallLeave k x .ended)) (hid : uuid x = some id)
    (hguard : uuid callId = some id → CanEnd callId p) :
    Settled uuid callId ⟨p.store.endCall id,
      Function.update p.calls i (.up (.handleCallLeave k x .emit))⟩ := by
  by_cases hcall : uuid callId = some id
  · refine ⟨fun hne => Or.inr ?_, fun _ => Or.inl (active_endCall_self hcall)⟩
    rcases hguard hcall with hnil | hlive
    · exact absurd hnil hne
    · exact exists_live_update hc nofun hlive
  · have hx : x ≠ callId := fun heq => hcall (heq ▸ hid)
    refine settled_frame h hc rfl (active_endCall_of_ne hcall) nofun ?_
    intro hleave
    exact absurd (of_decide_eq_true hleave) hx

end Steps

section Statements

variable [DecidableEq ι] [DecidableEq κ] {uuid : String → Option String} {session : κ → Session}
  {callId : String} {p : Calls ι κ} {i : ι} {ok : Bool} {s' : CallStore κ} {c c' : Call κ}

/-- A call that is neither of the handlers. -/
theorem settled_other (h : Settled uuid callId p) (hc : p.calls i = .up c)
    (hnext : c.next uuid session p.store ok = some (s', c')) (hplaces : c.places uuid = [])
    (hjoin : c.joining callId = false) (hleave : c.leaving callId = false) :
    Settled uuid callId ⟨s', Function.update p.calls i (.up c')⟩ := by
  have hset : s'.participants callId = p.store.participants callId := by
    by_contra hne
    have hmem := (effect_next hnext).callState (Or.inr hne)
    rw [hplaces] at hmem
    cases hmem
  have hactive : s'.active uuid callId = p.store.active uuid callId := by
    unfold CallStore.active
    cases uuid callId with
    | none => rfl
    | some id =>
      by_contra hne
      have hmem : .row id ∈ c.places uuid :=
        (effect_next hnext).videoCalls fun heq => hne (congrArg _ heq)
      rw [hplaces] at hmem
      cases hmem
  refine settled_frame h hc hset hactive ?_ ?_
  · rw [hjoin]
    nofun
  · rw [hleave]
    nofun

/-- A step of `handleCallJoin` leaves the state of a call settled. -/
theorem settled_handleCallJoin {k : κ} {x channelId : String} {pc pc' : JoinPc}
    (h : Settled uuid callId p) (hG : Settles uuid callId p (.run i ok))
    (hc : p.calls i = .up (.handleCallJoin k x channelId pc))
    (hnext : handleCallJoinNext uuid session p.store k x channelId ok pc = some (s', pc')) :
    Settled uuid callId
      ⟨s', Function.update p.calls i (.up (.handleCallJoin k x channelId pc'))⟩ := by
  cases pc with
  | videoEnabled | join | hset =>
    obtain ⟨rfl, rfl⟩ := Prod.mk.inj (Option.some.inj hnext)
    exact settled_frame h hc rfl (active_congr rfl) nofun nofun
  | expireState | expireParticipants =>
    obtain ⟨rfl, rfl⟩ := Prod.mk.inj (Option.some.inj hnext)
    exact settled_frame h hc rfl (active_congr rfl) id nofun
  | emit =>
    obtain ⟨rfl, rfl⟩ := Prod.mk.inj (Option.some.inj hnext)
    exact settled_frame h hc rfl (active_congr rfl) nofun nofun
  | sadd =>
    obtain ⟨rfl, rfl⟩ := Prod.mk.inj (Option.some.inj hnext)
    exact settled_sadd h hc
  | upsert =>
    have hguard := hG.of_up hc
    unfold Call.Settles at hguard
    dsimp only at hguard
    cases hid : uuid x with
    | none =>
      rw [hid, if_neg (fun hok => Bool.false_ne_true hok.2)] at hguard
      unfold handleCallJoinNext at hnext
      dsimp only at hnext
      rw [hid] at hnext
      obtain ⟨rfl, rfl⟩ := Prod.mk.inj (Option.some.inj hnext)
      exact settled_stop h hc hguard
    | some id =>
      rw [hid] at hguard
      unfold handleCallJoinNext at hnext
      dsimp only at hnext
      rw [hid] at hnext
      cases ok with
      | false =>
        obtain ⟨rfl, rfl⟩ := Prod.mk.inj (Option.some.inj hnext)
        exact settled_stop h hc hguard
      | true =>
        obtain ⟨rfl, rfl⟩ := Prod.mk.inj (Option.some.inj hnext)
        exact settled_upsertCall h hc hid fun hcall => hguard hcall.symm
  | returned | threw => cases hnext

/-- So does a step of `handleCallLeave`. -/
theorem settled_handleCallLeave {k : κ} {x : String} {pc pc' : LeavePc}
    (h : Settled uuid callId p) (hG : Settles uuid callId p (.run i ok))
    (hc : p.calls i = .up (.handleCallLeave k x pc))
    (hnext : handleCallLeaveNext uuid session p.store k x pc = some (s', pc')) :
    Settled uuid callId ⟨s', Function.update p.calls i (.up (.handleCallLeave k x pc'))⟩ := by
  cases pc with
  | leave | emit =>
    obtain ⟨rfl, rfl⟩ := Prod.mk.inj (Option.some.inj hnext)
    exact settled_frame h hc rfl (active_congr rfl) nofun nofun
  | srem =>
    obtain ⟨rfl, rfl⟩ := Prod.mk.inj (Option.some.inj hnext)
    exact settled_srem h hc
  | scard =>
    obtain ⟨rfl, rfl⟩ := Prod.mk.inj (Option.some.inj hnext)
    by_cases hcount : p.store.scard x = 0
    · rw [if_pos hcount]
      exact settled_frame h hc rfl rfl nofun id
    · rw [if_neg hcount]
      refine settled_stop h hc ?_
      show (p.calls i).Keeps _
      rw [hc]
      refine ⟨nofun, fun hleave => Or.inl fun hnil => hcount ?_⟩
      obtain rfl := of_decide_eq_true hleave
      unfold CallStore.scard
      rw [hnil]
      rfl
  | ended =>
    have hguard := hG.of_up hc
    unfold Call.Settles at hguard
    dsimp only at hguard
    unfold handleCallLeaveNext at hnext
    dsimp only at hnext
    cases hid : uuid x with
    | none =>
      rw [hid] at hnext
      obtain ⟨rfl, rfl⟩ := Prod.mk.inj (Option.some.inj hnext)
      refine settled_stop h hc ?_
      show (p.calls i).Keeps _
      rw [hc]
      refine ⟨nofun, fun hleave => Or.inr (Or.inl ?_)⟩
      obtain rfl := of_decide_eq_true hleave
      unfold CallStore.active
      rw [hid]
      rfl
    | some id =>
      rw [hid] at hguard hnext
      obtain ⟨rfl, rfl⟩ := Prod.mk.inj (Option.some.inj hnext)
      exact settled_endCall h hc hid fun hcall => hguard rfl hcall.symm
  | returned | threw => cases hnext

/-- A statement that settles keeps it. -/
theorem settled_next (h : Settled uuid callId p) (hG : Settles uuid callId p (.run i ok))
    (hc : p.calls i = .up c) (hnext : c.next uuid session p.store ok = some (s', c')) :
    Settled uuid callId ⟨s', Function.update p.calls i (.up c')⟩ := by
  cases c with
  | connect | event | broadcast => exact settled_other h hc hnext rfl rfl rfl
  | handleCallJoin k x channelId pc =>
    obtain ⟨pc', hpc, rfl⟩ := pc_of_next hnext
    exact settled_handleCallJoin h hG hc hpc
  | handleCallLeave k x pc =>
    obtain ⟨pc', hpc, rfl⟩ := pc_of_next hnext
    exact settled_handleCallLeave h hG hc hpc

omit [DecidableEq ι] [DecidableEq κ] in
/-- What the surroundings do keeps it. -/
theorem settled_act {a : Act κ} (h : Settled uuid callId p)
    (hG : Settles uuid callId p (.env a)) :
    Settled uuid callId ⟨p.store.act a, p.calls⟩ := by
  cases a with
  | memberships | deliver | settle => exact ⟨h.joined, h.left⟩
  | tick now =>
    refine ⟨fun hne => h.joined fun hnil => hne ?_, fun hnil => ?_⟩
    · show (if _ then [] else p.store.participants callId) = []
      rw [hnil]
      exact ite_self []
    · rcases hG hnil with hbefore | hactive | hlive
      · exact h.left hbefore
      · exact Or.inl hactive
      · exact Or.inr hlive

end Statements

/-! ## Runs -/

section Runs

variable [DecidableEq ι] [DecidableEq κ] {uuid : String → Option String} {session : κ → Session}
  {callId : String} {p q : Calls ι κ}

/-- It holds in every state of such a run. -/
theorem settled_run (hstart : p.store.active uuid callId ↔ p.store.participants callId ≠ [])
    (hrun : Run (Pool.step (callMachine uuid session)) (Settles uuid callId) p q) :
    Settled uuid callId q := by
  have hsettled : Settled uuid callId p :=
    ⟨fun hne => Or.inl (hstart.mpr hne),
      fun hnil => Or.inl (Bool.eq_false_iff.mpr fun hactive => hstart.mp hactive hnil)⟩
  refine Pool.invariant (I := Settled uuid callId) hsettled ?_ ?_ ?_ hrun
  · intro p i ok c s' c' h hG hc hnext
    exact settled_next h hG hc hnext
  · intro p i c h hG hc
    exact settled_stop h hc hG
  · intro p a h hG
    exact settled_act h hG

omit [DecidableEq κ] in
/-- Who is joining a call is in progress with it. -/
theorem inProgress_of_joining {c : Call κ} (h : c.joining callId) : c.inProgress callId := by
  cases c with
  | connect | event | broadcast | handleCallLeave => cases h
  | handleCallJoin k x channelId pc =>
    cases pc with
    | expireState | expireParticipants | upsert =>
      obtain rfl := of_decide_eq_true h
      exact decide_eq_true ⟨rfl, nofun, nofun, nofun⟩
    | videoEnabled | join | hset | sadd | emit | returned | threw => cases h

omit [DecidableEq κ] in
/-- So is who is leaving it. -/
theorem inProgress_of_leaving {c : Call κ} (h : c.leaving callId) : c.inProgress callId := by
  cases c with
  | connect | event | broadcast | handleCallJoin => cases h
  | handleCallLeave k x pc =>
    cases pc with
    | scard | ended =>
      obtain rfl := of_decide_eq_true h
      exact decide_eq_true ⟨rfl, nofun, nofun, nofun⟩
    | leave | srem | emit | returned | threw => cases h

/-- **A call that nobody is joining or leaving is active if and only if it has participants**, in
every run that keeps to `Settles`. -/
theorem active_iff_participants
    (hstart : p.store.active uuid callId ↔ p.store.participants callId ≠ [])
    (hrun : Run (Pool.step (callMachine uuid session)) (Settles uuid callId) p q)
    (hquiet : ∀ i, ¬ (q.calls i).Live fun c => c.inProgress callId) :
    q.store.active uuid callId ↔ q.store.participants callId ≠ [] := by
  have hsettled := settled_run hstart hrun
  constructor
  · intro hactive hnil
    rcases hsettled.left hnil with hended | ⟨i, hlive⟩
    · rw [hended] at hactive
      cases hactive
    · obtain ⟨c, hc, hleave⟩ := hlive.exists
      refine hquiet i ?_
      rw [hc]
      exact inProgress_of_leaving hleave
  · intro hne
    rcases hsettled.joined hne with hactive | ⟨i, hlive⟩
    · exact hactive
    · obtain ⟨c, hc, hjoin⟩ := hlive.exists
      refine absurd ?_ (hquiet i)
      rw [hc]
      exact inProgress_of_joining hjoin

end Runs

/-! ## A call that is left and joined -/

/-- Two sockets in the call `"x"`, of which the first is in it, and the second comes. -/
def demoCall : Calls (Fin 2) (Fin 2) where
  store := ⟨0, fun _ => [], fun _ => [], fun _ => none, fun _ => none,
    fun x => if x = "x" then ["u1"] else [], fun _ => none,
    ⟨[⟨"x", "c", "o1", "u1", .active, some 0, none⟩], List.nodup_singleton _⟩, [], fun _ => []⟩
  calls i := .up (
    if i = 0 then .handleCallLeave 0 "x" .leave else .handleCallJoin 1 "x" "c" .videoEnabled)

def demoUsers (k : Fin 2) : Session :=
  if k = 0 then ⟨⟨"u1", "o1"⟩, by decide⟩ else ⟨⟨"u2", "o1"⟩, by decide⟩

/-- The first leaves, and then the second joins. -/
theorem left_then_joined : ∃ q : Calls (Fin 2) (Fin 2),
    q.store.participants "x" = ["u2"] ∧ q.store.active some "x" = true := by
  obtain ⟨q, hrun, hq⟩ := exists_run_of_exec (Pool.step (callMachine some demoUsers))
    (Settles some "x") demoCall
    (List.flatten [List.replicate 5 (.run 0 true), List.replicate 8 (.run 1 true)])
    (fun q => q.store.participants "x" = ["u2"]
      ∧ ∀ i, ¬ (q.calls i).Live fun c => c.inProgress "x") (by decide)
  obtain ⟨hset, hquiet⟩ := of_decide_eq_true hq
  refine ⟨q, hset, (active_iff_participants (by decide) hrun hquiet).mpr ?_⟩
  rw [hset]
  exact List.cons_ne_nil _ _

/-- The first counts nobody, the second joins, and the first ends the call. -/
theorem ended_with_participant : ∃ q : Calls (Fin 2) (Fin 2),
    Run (Pool.step (callMachine some demoUsers)) anyStep demoCall q
      ∧ (∀ i, ¬ (q.calls i).Live fun c => c.inProgress "x")
      ∧ q.store.participants "x" = ["u2"] ∧ q.store.active some "x" = false := by
  obtain ⟨q, hrun, hq⟩ := exists_run_of_exec (Pool.step (callMachine some demoUsers))
    anyStep demoCall
    (List.flatten [List.replicate 3 (.run 0 true), List.replicate 8 (.run 1 true),
      List.replicate 2 (.run 0 true)])
    (fun q => (∀ i, ¬ (q.calls i).Live fun c => c.inProgress "x")
      ∧ q.store.participants "x" = ["u2"] ∧ q.store.active some "x" = false) (by decide)
  obtain ⟨hquiet, hset, hended⟩ := of_decide_eq_true hq
  exact ⟨q, hrun, hquiet, hset, hended⟩

end WorkPlatform.Realtime

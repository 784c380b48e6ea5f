import WorkPlatform.Organization.Owner

/-!
# Organization/Invitation — one outcome for every invitation

    pending ▸ accepted | expired | revoked

An acceptance reads the status once; the UPDATE with which it writes `accepted` (or `expired`)
several statements later has no condition on it.  A revocation, the cleanup job or a second
acceptance in between goes unnoticed (`revoked_invitation_grants`).

For one invitation an acceptance is no more than how far it has got, and the invitation no more than
its status and what is on record of it:

    outside ──hit──▸ holding ──mark──▸ marked ──finish──▸ outside
       └───lapse──▸ lapsing ──expire──▸ outside

As long as nobody takes an invitation that another call holds (`Untouched`), it has one outcome
(`settled_once`).
-/

namespace WorkPlatform.Organization

open Machinery

/-! ## The record of an invitation -/

/-- What is on record of the invitation, the newest first. -/
def Store.deeds (s : Store) (k : String) : List Deed :=
  s.history.filterMap fun x => if x.1 = k then some x.2 else none

def Deed.isChange : Deed → Bool
  | .changed _ _ => true
  | _ => false

/-- **Settled once**: the status changes at most once, from `pending` and to something else; at most
one event `member.joined` and one token pair; and no membership is created or re-activated after
the change. -/
structure SettledOnce (log : List Deed) : Prop where
  changed_once : log.countP Deed.isChange ≤ 1
  from_pending : ∀ a b, .changed a b ∈ log → a = .pending ∧ b ≠ .pending
  joined_once : log.count .joined ≤ 1
  issued_once : log.count .issued ≤ 1
  none_late : log.Pairwise fun newer older => older.isChange → newer ≠ .granted

/-- The status of an invitation, and the record that leads to it. -/
inductive Outcome : Option InvitationStatus → List Deed → Prop
  | absent : Outcome none []
  | pending (n : ℕ) : Outcome (some .pending) (List.replicate n .granted)
  | closed (n : ℕ) {status : InvitationStatus} (h : status ≠ .pending) :
      Outcome (some status) (.changed .pending status :: List.replicate n .granted)
  | joined (n : ℕ) : Outcome (some .accepted)
      (.issued :: .joined :: .changed .pending .accepted :: List.replicate n .granted)

theorem settledOnce_replicate (n : ℕ) : SettledOnce (List.replicate n .granted) where
  changed_once := by simp [List.countP_replicate, Deed.isChange]
  from_pending a b h := by cases List.eq_of_mem_replicate h
  joined_once := by simp [List.count_replicate]
  issued_once := by simp [List.count_replicate]
  none_late := List.pairwise_replicate.mpr (Or.inr nofun)

/-- One change of the status from `pending` is settled once. -/
theorem settledOnce_changed (n : ℕ) {status : InvitationStatus} (hne : status ≠ .pending) :
    SettledOnce (.changed .pending status :: List.replicate n .granted) where
  changed_once := by
    rw [List.countP_cons_of_pos rfl]
    simp [List.countP_replicate, Deed.isChange]
  from_pending a b hmem := by
    rcases List.mem_cons.mp hmem with heq | hmem
    · obtain ⟨rfl, rfl⟩ := Deed.changed.inj heq
      exact ⟨rfl, hne⟩
    · exact (settledOnce_replicate n).from_pending a b hmem
  joined_once := by simp [List.count_replicate]
  issued_once := by simp [List.count_replicate]
  none_late := List.pairwise_cons.mpr ⟨fun _ _ _ => nofun, (settledOnce_replicate n).none_late⟩

/-- Every outcome is settled once. -/
theorem Outcome.settledOnce {status : Option InvitationStatus} {log : List Deed}
    (h : Outcome status log) : SettledOnce log := by
  cases h with
  | absent => exact settledOnce_replicate 0
  | pending n => exact settledOnce_replicate n
  | closed n hne => exact settledOnce_changed n hne
  | joined n =>
    have hn : SettledOnce (.changed .pending .accepted :: List.replicate n .granted) :=
      settledOnce_changed n nofun
    refine ⟨hn.changed_once, fun a b hmem => hn.from_pending a b (by simpa using hmem), ?_, ?_, ?_⟩
    · simp [List.count_replicate]
    · simp [List.count_replicate]
    · exact List.pairwise_cons.mpr ⟨fun _ _ _ => nofun,
        List.pairwise_cons.mpr ⟨fun _ _ _ => nofun, hn.none_late⟩⟩

/-! ## How far a call has got with an invitation -/

/-- An acceptance holds an invitation it has found pending, until it has written its status. -/
inductive Stage
  | outside | holding | lapsing | marked
  deriving DecidableEq

/-- Who takes an invitation: `live` an acceptance that goes on or a revocation, `lapsed` an
acceptance that finds it expired or the cleanup job. -/
inductive Taking
  | live | lapsed
  deriving DecidableEq

/-- A call at the stage is in the way of the taking; expiring twice is harmless. -/
def Stage.bars : Stage → Taking → Bool
  | holding, _ | lapsing, .live => true
  | _, _ => false

/-- The steps of a call, with the status and the record before and after. -/
inductive Stage.Step : Option Taking → Option InvitationStatus → List Deed → Stage →
    Option InvitationStatus → List Deed → Stage → Prop
  | stay (w : Option Taking) (status : Option InvitationStatus) (log : List Deed) (x : Stage) :
      Step w status log x status log x
  | abandon (w : Option Taking) (status : Option InvitationStatus) (log : List Deed) (x : Stage) :
      Step w status log x status log outside
  | arrive (w : Option Taking) (log : List Deed) :
      Step w none log outside (some .pending) log outside
  | hit (log : List Deed) :
      Step (some .live) (some .pending) log outside (some .pending) log holding
  | lapse (log : List Deed) :
      Step (some .lapsed) (some .pending) log outside (some .pending) log lapsing
  | grant (w : Option Taking) (status : Option InvitationStatus) (log : List Deed) :
      Step w status log holding status (.granted :: log) holding
  | mark (w : Option Taking) (log : List Deed) : Step w (some .pending) log holding
      (some .accepted) (.changed .pending .accepted :: log) marked
  | finish (w : Option Taking) (status : Option InvitationStatus) (log : List Deed) :
      Step w status log marked status (.issued :: .joined :: log) outside
  | expire (w : Option Taking) (log : List Deed) : Step w (some .pending) log lapsing
      (some .expired) (.changed .pending .expired :: log) outside
  | revoke (log : List Deed) : Step (some .live) (some .pending) log outside
      (some .revoked) (.changed .pending .revoked :: log) outside
  | cleanup (log : List Deed) : Step (some .lapsed) (some .pending) log outside
      (some .expired) (.changed .pending .expired :: log) outside

/-- What the status and the record owe to a call. -/
def Stage.Fits (status : Option InvitationStatus) (log : List Deed) : Stage → Prop
  | outside => True
  | holding => status = some .pending
  | lapsing => status = some .pending ∨ status = some .expired
  | marked => ∃ n, log = .changed .pending .accepted :: List.replicate n .granted

/-- Two calls that cannot be at these stages at a time. -/
def Stage.clashes : Stage → Stage → Bool
  | holding, holding | holding, lapsing | lapsing, holding | marked, marked => true
  | _, _ => false

/-- What the calls at their stages keep. -/
structure Settling {ι : Type*} (status : Option InvitationStatus) (log : List Deed)
    (f : ι → Stage) : Prop where
  outcome : Outcome status log
  fits : ∀ i, (f i).Fits status log
  apart : ∀ i j, i ≠ j → (f i).clashes (f j) = false

theorem Stage.not_bars_live : ∀ {x : Stage}, x.bars .live = false → x ≠ .holding ∧ x ≠ .lapsing
  | outside, _ | marked, _ => ⟨nofun, nofun⟩

theorem Stage.not_bars_lapsed : ∀ {x : Stage}, x.bars .lapsed = false → x ≠ .holding
  | outside, _ | lapsing, _ | marked, _ => nofun

theorem Stage.not_clashes_holding :
    ∀ {x : Stage}, Stage.holding.clashes x = false → x ≠ .holding ∧ x ≠ .lapsing
  | outside, _ | marked, _ => ⟨nofun, nofun⟩

theorem Stage.clashes_comm (x y : Stage) : x.clashes y = y.clashes x := by
  cases x <;> cases y <;> rfl

theorem Outcome.grants {log : List Deed} (h : Outcome (some .pending) log) :
    ∃ n, log = List.replicate n .granted := by
  cases h with
  | pending n => exact ⟨n, rfl⟩
  | closed n hne => exact absurd rfl hne

/-- Nobody is past a pending invitation. -/
theorem Outcome.not_marked {log : List Deed} (h : Outcome (some .pending) log) (n : ℕ) :
    log ≠ .changed .pending .accepted :: List.replicate n .granted := by
  obtain ⟨m, rfl⟩ := h.grants
  intro heq
  have hmem : Deed.changed .pending .accepted ∈ List.replicate m .granted := by
    rw [heq]
    exact List.mem_cons_self
  cases List.eq_of_mem_replicate hmem

/-- After an acceptance the status is `accepted`. -/
theorem Outcome.accepted {status : Option InvitationStatus} {n : ℕ}
    (h : Outcome status (.changed .pending .accepted :: List.replicate n .granted)) :
    status = some .accepted := by
  generalize hlog : Deed.changed .pending .accepted :: List.replicate n .granted = log at h
  cases h with
  | absent => cases hlog
  | pending m => exact absurd hlog.symm ((Outcome.pending m).not_marked n)
  | closed m hne => cases (List.cons.inj hlog).1; rfl
  | joined m => rfl

namespace Settling

variable {ι : Type*} {status status' : Option InvitationStatus} {log log' : List Deed}
  {f : ι → Stage} {i : ι} {x : Stage}

/-- While all calls are outside, an outcome is all there is. -/
theorem of_outside (hout : Outcome status log) (h : ∀ i, f i = .outside) :
    Settling status log f where
  outcome := hout
  fits i := by
    rw [h i]
    trivial
  apart i j _ := by
    rw [h i, h j]
    rfl

variable [DecidableEq ι]

/-- A call moves, and its new stage suits the others. -/
theorem move (h : Settling status log f) (hout : Outcome status' log') (hx : x.Fits status' log')
    (hothers : ∀ j, j ≠ i → (f j).Fits status' log' ∧ x.clashes (f j) = false) :
    Settling status' log' (Function.update f i x) where
  outcome := hout
  fits := (Function.forall_update_iff f fun _ y => y.Fits status' log').mpr
    ⟨hx, fun j hj => (hothers j hj).1⟩
  apart j k hjk := by
    by_cases hj : j = i
    · subst hj
      rw [Function.update_self, Function.update_of_ne hjk.symm]
      exact (hothers k hjk.symm).2
    · rw [Function.update_of_ne hj]
      by_cases hk : k = i
      · subst hk
        rw [Function.update_self, Stage.clashes_comm]
        exact (hothers j hj).2
      · rw [Function.update_of_ne hk]
        exact h.apart j k hjk

/-- The status of a pending invitation is written, while nobody else is on the way to write another
one. -/
theorem close {st : InvitationStatus} (h : Settling (some .pending) log f) (hne : st ≠ .pending)
    (hx : x = .outside ∨ x = .marked ∧ st = .accepted)
    (hclear : ∀ j, j ≠ i → f j ≠ .holding ∧ (f j = .lapsing → st = .expired)) :
    Settling (some st) (.changed .pending st :: log) (Function.update f i x) := by
  obtain ⟨n, rfl⟩ := h.outcome.grants
  have hfits : x.Fits (some st) (.changed .pending st :: List.replicate n .granted) := by
    rcases hx with rfl | ⟨rfl, rfl⟩
    · trivial
    · exact ⟨n, rfl⟩
  have hclash : ∀ y, y ≠ .marked → x.clashes y = false := by
    intro y hy
    rcases hx with rfl | ⟨rfl, -⟩
    · rfl
    · cases y with
      | marked => exact absurd rfl hy
      | _ => rfl
  refine h.move (.closed n hne) hfits fun j hj => ?_
  have hfj := h.fits j
  obtain ⟨hhold, hlapse⟩ := hclear j hj
  cases hy : f j with
  | outside => exact ⟨trivial, hclash _ nofun⟩
  | holding => exact absurd hy hhold
  | lapsing => exact ⟨Or.inr (congrArg some (hlapse hy)), hclash _ nofun⟩
  | marked =>
    rw [hy] at hfj
    obtain ⟨m, hm⟩ := hfj
    exact absurd hm (h.outcome.not_marked m)

/-- **One step**, where nobody takes an invitation that another call holds. -/
theorem step {w : Option Taking} (h : Settling status log f)
    (hstep : Stage.Step w status log (f i) status' log' x)
    (hfree : ∀ taking, w = some taking → ∀ j, j ≠ i → (f j).bars taking = false) :
    Settling status' log' (Function.update f i x) := by
  have hout := h.outcome
  have hfits := h.fits i
  have hapart := h.apart i
  generalize hx : f i = y at hstep hfits hapart
  cases hstep with
  | stay =>
    rw [← hx, Function.update_eq_self]
    exact h
  | abandon => exact h.move hout trivial fun j _ => ⟨h.fits j, rfl⟩
  | arrive =>
    cases hout
    refine h.move (.pending 0) trivial fun j _ => ⟨?_, rfl⟩
    have hj := h.fits j
    cases hfj : f j with
    | outside => trivial
    | _ => rw [hfj] at hj; simp [Stage.Fits] at hj
  | hit =>
    refine h.move hout rfl fun j hj => ⟨h.fits j, ?_⟩
    have hbars := hfree .live rfl j hj
    cases hfj : f j with
    | outside | marked => rfl
    | holding | lapsing => rw [hfj] at hbars; cases hbars
  | lapse =>
    refine h.move hout (Or.inl rfl) fun j hj => ⟨h.fits j, ?_⟩
    have hbars := hfree .lapsed rfl j hj
    cases hfj : f j with
    | outside | marked | lapsing => rfl
    | holding => rw [hfj] at hbars; cases hbars
  | grant =>
    obtain rfl : status = some .pending := hfits
    obtain ⟨n, rfl⟩ := hout.grants
    refine h.move (.pending (n + 1)) rfl fun j hj => ⟨?_, hapart j hj.symm⟩
    have hfj := h.fits j
    cases hy : f j with
    | marked =>
      rw [hy] at hfj
      obtain ⟨m, hm⟩ := hfj
      exact absurd hm (hout.not_marked m)
    | _ => rw [hy] at hfj; exact hfj
  | mark =>
    refine h.close nofun (Or.inr ⟨rfl, rfl⟩) fun j hj => ?_
    obtain ⟨hhold, hlapse⟩ := Stage.not_clashes_holding (hapart j hj.symm)
    exact ⟨hhold, fun heq => absurd heq hlapse⟩
  | finish =>
    obtain ⟨n, rfl⟩ := hfits
    obtain rfl := hout.accepted
    refine h.move (.joined n) trivial fun j hj => ⟨?_, rfl⟩
    have hfj := h.fits j
    have hclash := hapart j hj.symm
    cases hy : f j with
    | outside => trivial
    | marked => rw [hy] at hclash; cases hclash
    | holding => rw [hy] at hfj; cases hfj
    | lapsing => rw [hy] at hfj; rcases hfj with hfj | hfj <;> cases hfj
  | expire =>
    refine h.close nofun (Or.inl rfl) fun j hj => ⟨fun heq => ?_, fun _ => rfl⟩
    have hclash := hapart j hj.symm
    rw [heq] at hclash
    cases hclash
  | revoke =>
    refine h.close nofun (Or.inl rfl) fun j hj => ?_
    obtain ⟨hhold, hlapse⟩ := Stage.not_bars_live (hfree .live rfl j hj)
    exact ⟨hhold, fun heq => absurd heq hlapse⟩
  | cleanup =>
    exact h.close nofun (Or.inl rfl) fun j hj =>
      ⟨Stage.not_bars_lapsed (hfree .lapsed rfl j hj), fun _ => rfl⟩

end Settling

/-! ## What the statements do to an invitation -/

/-- How far an acceptance has got with the invitation `k`. -/
def AcceptPc.stage (k : String) : AcceptPc → Stage
  | .expire v => if v.id = k then .lapsing else .outside
  | .findUser v | .createUser v | .preferences v _ | .provider v _ | .membership v _ _ | .seed v _ _
  | .mark v _ _ => if v.id = k then .holding else .outside
  | .outbox v _ _ => if v.id = k then .marked else .outside
  | _ => .outside

def Call.stage (k : String) : Call → Stage
  | .accept _ pc => pc.stage k
  | _ => .outside

/-- A call that has stopped holds nothing. -/
def stageOf (k : String) : Proc Call → Stage
  | .up c => c.stage k
  | .down _ => .outside

/-- The next statement of the call takes the invitation `k`: it finds it pending, or changes its
status. -/
def Call.taking (cfg : Config) (s : Store) (k : String) : Call → Option Taking
  | .accept token .find =>
    ((s.primary.findByTokenHash (cfg.hashToken token)).filter fun v =>
      v.id = k ∧ v.status = .pending).map fun v => if v.expiresAt < s.now then .lapsed else .live
  | .route _ orgId _ (.revoke id) =>
    if id = k ∧ s.primary.invitations.any fun v => v.id = k ∧ v.orgId = orgId ∧ v.status = .pending
    then some .live else none
  | .cleanup .expire =>
    if s.primary.invitations.any fun v => v.id = k ∧ Store.overdue s.now v then some .lapsed
    else none
  | _ => none

section Rows

variable {s s' : Store} {k : String} {v : InvitationRow}

theorem id_of_find? {l : List InvitationRow} (h : l.find? (·.id = k) = some v) : v.id = k := by
  have hid := List.find?_some h
  rw [decide_eq_true_eq] at hid
  exact hid

/-- An invitation is found by its id. -/
theorem find?_of_mem {t : Tables} (hv : v ∈ t.invitations) :
    t.invitations.find? (·.id = v.id) = some v := by
  cases hfind : t.invitations.find? (·.id = v.id) with
  | none => exact absurd rfl (of_decide_eq_false (Bool.eq_false_of_not_eq_true
      (List.find?_eq_none.mp hfind v hv)))
  | some w =>
    have hid := id_of_find? hfind
    exact congrArg some
      (List.inj_on_of_nodup_map t.invitations_nodup (List.mem_of_find?_eq_some hfind) hv hid)

theorem status_of_mem (hv : v ∈ s.primary.invitations) :
    s.invitationStatus v.id = some v.status := by
  rw [Store.invitationStatus, find?_of_mem hv]
  rfl

/-- The status of one invitation after an update of some. -/
theorem find?_setInvitationStatus (t : Tables) (p : InvitationRow → Bool)
    (status : InvitationStatus) (k : String) :
    ((t.setInvitationStatus p status).invitations.find? (·.id = k)).map (·.status)
      = (t.invitations.find? (·.id = k)).map fun v => if p v then status else v.status := by
  dsimp only [Tables.setInvitationStatus]
  have hid : ((fun v : InvitationRow => decide (v.id = k)) ∘ fun v =>
      if p v then { v with status := status } else v) = fun v => decide (v.id = k) := by
    funext v
    dsimp only [Function.comp_apply]
    split <;> rfl
  rw [List.find?_map, hid, Option.map_map]
  congr 1
  funext v
  dsimp only [Function.comp_apply]
  split <;> rfl

theorem deeds_record (s : Store) (id k : String) (d : Deed) :
    (s.record id d).deeds k = if id = k then d :: s.deeds k else s.deeds k := by
  unfold Store.deeds Store.record
  rw [List.filterMap_cons]
  split <;> simp_all

/-- The status and the record of an invitation are what they were. -/
structure Same (k : String) (s s' : Store) : Prop where
  status : s'.invitationStatus k = s.invitationStatus k
  deeds : s'.deeds k = s.deeds k

theorem Same.of_eq (hinv : s'.primary.invitations = s.primary.invitations)
    (hhist : s'.history = s.history) : Same k s s' where
  status := by rw [Store.invitationStatus, hinv]; rfl
  deeds := by rw [Store.deeds, hhist]; rfl

/-- The changes that are on record, with the UPDATE they come from. -/
theorem setInvitation_history (s : Store) (id : String) (p : InvitationRow → Bool)
    (st : InvitationStatus) : (s.setInvitation id p st).history
      = (((s.primary.invitations.find? (·.id = id)).filter fun v => p v ∧ v.status ≠ st).map
          fun v => (id, Deed.changed v.status st)).toList ++ s.history := by
  unfold Store.setInvitation
  cases s.primary.invitations.find? (·.id = id) with
  | none => rfl
  | some v =>
    dsimp only [Option.filter]
    split
    case isTrue h => rw [if_pos (by simpa using h)]; rfl
    case isFalse h => rw [if_neg (by simpa using h)]; rfl

theorem setInvitation_status (s : Store) (id k : String) (p : InvitationRow → Bool)
    (st : InvitationStatus) : (s.setInvitation id p st).invitationStatus k
      = (s.primary.invitations.find? (·.id = k)).map fun v =>
          if v.id = id ∧ p v then st else v.status := by
  rw [Store.invitationStatus, setInvitation_primary, find?_setInvitationStatus]
  simp only [decide_eq_true_eq]

/-- An UPDATE that does not hit the invitation, or writes the status it has. -/
theorem setInvitation_same {id : String} {p : InvitationRow → Bool} {st : InvitationStatus}
    (h : ∀ v, s.primary.invitations.find? (·.id = k) = some v → id = k → p v = true →
      v.status = st) : Same k s (s.setInvitation id p st) where
  status := by
    rw [setInvitation_status, Store.invitationStatus]
    cases hfind : s.primary.invitations.find? (·.id = k) with
    | none => rfl
    | some v =>
      have hid := id_of_find? hfind
      simp only [Option.map_some]
      split
      case isTrue hv => rw [h v hfind (hv.1.symm.trans hid) hv.2]
      case isFalse => rfl
  deeds := by
    rw [Store.deeds, setInvitation_history, List.filterMap_append]
    refine (congrArg (· ++ _) ?_).trans (List.nil_append _)
    by_cases hk : id = k
    · subst hk
      cases hfind : s.primary.invitations.find? (·.id = id) with
      | none => rfl
      | some v =>
        have hv : ¬ (p v = true ∧ v.status ≠ st) := fun hv => hv.2 (h v hfind rfl hv.1)
        simp [Option.filter, hv]
    · cases (s.primary.invitations.find? (·.id = id)).filter fun v => p v ∧ v.status ≠ st with
      | none => rfl
      | some v => simp [hk]

/-- An UPDATE that changes the status of the invitation. -/
theorem setInvitation_changed {p : InvitationRow → Bool} (st : InvitationStatus)
    (hfind : s.primary.invitations.find? (·.id = k) = some v) (hp : p v = true)
    (hne : v.status ≠ st) : (s.setInvitation k p st).invitationStatus k = some st
      ∧ (s.setInvitation k p st).deeds k = .changed v.status st :: s.deeds k := by
  have hid := id_of_find? hfind
  constructor
  · rw [setInvitation_status, hfind]
    simp [hid, hp]
  · rw [Store.deeds, setInvitation_history, hfind]
    simp [Option.filter, hp, hne, Store.deeds]

/-- The status of a pending invitation is written. -/
theorem setInvitation_pending (st : InvitationStatus) (hp : s.invitationStatus k = some .pending)
    (hne : st ≠ .pending) : (s.setInvitation k (fun _ => true) st).invitationStatus k = some st
      ∧ (s.setInvitation k (fun _ => true) st).deeds k = .changed .pending st :: s.deeds k := by
  obtain ⟨v, hfind, hv⟩ := Option.map_eq_some_iff.mp hp
  have hchanged := setInvitation_changed (p := fun _ => true) st hfind rfl
    (by rw [hv]; exact hne.symm)
  rw [hv] at hchanged
  exact hchanged

/-- The status that is written is the one there is. -/
theorem setInvitation_idle {id : String} {p : InvitationRow → Bool} {st : InvitationStatus}
    (h : s.invitationStatus k = some st) : Same k s (s.setInvitation id p st) := by
  refine setInvitation_same fun v hfind _ _ => ?_
  rw [Store.invitationStatus, hfind] at h
  exact Option.some.inj h

end Rows

/-- A statement, as a step of its call with the invitation `k`. -/
abbrev Stepped (w : Option Taking) (k : String) (s : Store) (x : Stage) (s' : Store) (x' : Stage) :
    Prop :=
  Stage.Step w (s.invitationStatus k) (s.deeds k) x (s'.invitationStatus k) (s'.deeds k) x'

section Steps

variable {cfg : Config} {s s' : Store} {d : Draw} {k : String} {w : Option Taking} {x : Stage}

theorem Same.stay (h : Same k s s') : Stepped w k s x s' x := by
  rw [Stepped, h.status, h.deeds]
  exact .stay _ _ _ _

theorem Same.abandon (h : Same k s s') : Stepped w k s x s' .outside := by
  rw [Stepped, h.status, h.deeds]
  exact .abandon _ _ _ _

/-- The SELECT of an acceptance. -/
theorem stepped_found (token : String) :
    Stepped (Call.taking cfg s k (.accept token .find)) k s .outside s
      ((AcceptPc.found s.now (s.primary.findByTokenHash (cfg.hashToken token))).stage k) := by
  rw [Call.taking]
  cases hfind : s.primary.findByTokenHash (cfg.hashToken token) with
  | none => exact Same.stay (.of_eq rfl rfl)
  | some v =>
    rw [AcceptPc.found]
    split
    case isTrue => exact Same.stay (.of_eq rfl rfl)
    case isFalse hpending =>
      have hp : v.status = .pending := not_not.mp hpending
      have hstatus := status_of_mem (List.mem_of_find?_eq_some hfind)
      by_cases hk : v.id = k
      · subst hk
        rw [Stepped, hstatus, hp]
        split
        case isTrue hlate =>
          have hlapse : AcceptPc.stage v.id (.expire v) = .lapsing := if_pos rfl
          simpa [Option.filter, hp, hlate, hlapse] using Stage.Step.lapse (s.deeds v.id)
        case isFalse hlive =>
          have hhold : AcceptPc.stage v.id (.findUser v) = .holding := if_pos rfl
          simpa [Option.filter, hp, hlive, hhold] using Stage.Step.hit (s.deeds v.id)
      · split <;> (rw [AcceptPc.stage, if_neg hk]; exact Same.stay (.of_eq rfl rfl))

theorem createOrg_invitations {t t' : Tables} {org : OrgRow} {userId : String}
    (h : t.createOrg org userId = some t') : t'.invitations = t.invitations := by
  unfold Tables.createOrg at h
  split at h
  · obtain rfl := Option.some.inj h
    rfl
  · cases h

/-- What a statement of an acceptance does to the invitation. -/
theorem stepped_accept {token : String} {pc pc' : AcceptPc}
    (h : acceptNext cfg s d token pc = some (s', pc'))
    (hfits : (pc.stage k).Fits (s.invitationStatus k) (s.deeds k)) :
    Stepped (Call.taking cfg s k (.accept token pc)) k s (pc.stage k) s' (pc'.stage k) := by
  cases pc with
  | find =>
    obtain ⟨rfl, rfl⟩ := Prod.mk.inj (Option.some.inj h)
    exact stepped_found token
  | expire v =>
    obtain ⟨rfl, rfl⟩ := Prod.mk.inj (Option.some.inj h)
    rw [AcceptPc.stage] at hfits ⊢
    split at hfits
    case isTrue hk =>
      subst hk
      rcases hfits with hp | he
      · obtain ⟨hstatus, hdeeds⟩ := setInvitation_pending .expired hp (by decide)
        rw [if_pos rfl, Stepped, hp, hstatus, hdeeds]
        exact .expire _ _
      · exact Same.abandon (setInvitation_idle he)
    case isFalse hk =>
      rw [if_neg hk]
      exact Same.stay (setInvitation_same fun _ _ heq => absurd heq hk)
  | findUser v =>
    obtain ⟨rfl, rfl⟩ := Prod.mk.inj (Option.some.inj h)
    split <;> exact Same.stay (.of_eq rfl rfl)
  | createUser v =>
    rw [acceptNext] at h
    split at h
    · obtain ⟨rfl, rfl⟩ := Prod.mk.inj (Option.some.inj h)
      exact Same.stay (.of_eq rfl rfl)
    · obtain ⟨rfl, rfl⟩ := Prod.mk.inj (Option.some.inj h)
      exact Same.abandon (.of_eq rfl rfl)
  | preferences v userId | provider v userId | seed v userId isPlatformAdmin =>
    obtain ⟨rfl, rfl⟩ := Prod.mk.inj (Option.some.inj h)
    exact Same.stay (.of_eq rfl rfl)
  | membership v userId isPlatformAdmin =>
    rw [acceptNext] at h
    split at h
    case h_1 t ht =>
      obtain ⟨rfl, rfl⟩ := Prod.mk.inj (Option.some.inj h)
      have hsame : Same k s { s with primary := t } := .of_eq (Tables.createMembership_spec ht).2.1 rfl
      have hstatus : (({ s with primary := t } : Store).record v.id .granted).invitationStatus k
          = s.invitationStatus k := hsame.status
      rw [Stepped, hstatus, deeds_record, hsame.deeds, AcceptPc.stage, AcceptPc.stage]
      split
      · exact .grant _ _ _
      · exact .stay _ _ _ _
    case h_2 =>
      obtain ⟨rfl, rfl⟩ := Prod.mk.inj (Option.some.inj h)
      exact Same.abandon (.of_eq rfl rfl)
  | mark v userId isPlatformAdmin =>
    obtain ⟨rfl, rfl⟩ := Prod.mk.inj (Option.some.inj h)
    rw [AcceptPc.stage] at hfits ⊢
    split at hfits
    case isTrue hk =>
      subst hk
      obtain ⟨hstatus, hdeeds⟩ := setInvitation_pending .accepted hfits (by decide)
      rw [AcceptPc.stage, if_pos rfl, if_pos rfl, Stepped, hfits, hstatus, hdeeds]
      exact .mark _ _
    case isFalse hk =>
      rw [AcceptPc.stage, if_neg hk, if_neg hk]
      exact Same.stay (setInvitation_same fun _ _ heq => absurd heq hk)
  | outbox v userId isPlatformAdmin =>
    obtain ⟨hs, hpc⟩ := Prod.mk.inj (Option.some.inj h)
    have hsame : Same k ((s.record v.id .joined).record v.id .issued) s' := by
      rw [← hs]
      exact .of_eq rfl rfl
    have hstatus : s'.invitationStatus k = s.invitationStatus k := hsame.status
    rw [← hpc, Stepped, hstatus, hsame.deeds, deeds_record, deeds_record, AcceptPc.stage]
    split
    · exact .finish _ _ _
    · exact .stay _ _ _ _
  | insert m =>
    rw [acceptNext] at h
    split at h <;>
      (obtain ⟨rfl, rfl⟩ := Prod.mk.inj (Option.some.inj h); exact Same.stay (.of_eq rfl rfl))
  | returned _ _ | threw _ | failed => cases h

/-- A new invitation is pending. -/
theorem stepped_insert {t : Tables} {v : InvitationRow} (hv : v.status = .pending)
    (ht : s.primary.insertInvitation v = some t) :
    Stepped w k s .outside { s with primary := t } .outside := by
  unfold Tables.insertInvitation at ht
  split at ht
  case isFalse => cases ht
  case isTrue hnew =>
    obtain rfl := Option.some.inj ht
    by_cases hk : v.id = k
    · have hnone : s.invitationStatus k = none := by
        rw [Store.invitationStatus, List.find?_eq_none.mpr fun u hu heq => ?_, Option.map_none]
        rw [decide_eq_true_eq] at heq
        exact hnew.2.1 (hk ▸ heq ▸ List.mem_map_of_mem hu)
      have hsome : ((v :: s.primary.invitations).find? (·.id = k)).map (·.status)
          = some .pending := by
        rw [List.find?_cons_of_pos (by simp [hk]), Option.map_some, hv]
      rw [Stepped, hnone, Store.invitationStatus, hsome]
      exact .arrive _ _
    · refine Same.stay ⟨?_, rfl⟩
      rw [Store.invitationStatus, List.find?_cons_of_neg (by simp [hk])]
      rfl

/-- The UPDATE of `revokeInvitation`. -/
theorem stepped_revoke (caller : Caller) (orgId : String) (action : Action) (id : String) :
    Stepped (Call.taking cfg s k (.route caller orgId action (.revoke id))) k s .outside
      (s.setInvitation id (fun v => v.orgId = orgId ∧ v.status = .pending) .revoked) .outside := by
  rw [Call.taking]
  by_cases hk : id = k
  · subst hk
    cases hfind : s.primary.invitations.find? (·.id = id) with
    | none =>
      refine Same.stay (setInvitation_same fun v hv => ?_)
      rw [hfind] at hv
      cases hv
    | some v =>
      have hid := id_of_find? hfind
      by_cases hp : v.orgId = orgId ∧ v.status = .pending
      · have hany : (s.primary.invitations.any fun u =>
            u.id = id ∧ u.orgId = orgId ∧ u.status = .pending) = true :=
          List.any_eq_true.mpr ⟨v, List.mem_of_find?_eq_some hfind, by simp [hid, hp]⟩
        obtain ⟨hstatus, hdeeds⟩ := setInvitation_changed
          (p := fun u => u.orgId = orgId ∧ u.status = .pending) .revoked hfind (by simp [hp])
          (by rw [hp.2]; exact nofun)
        have hbefore : s.invitationStatus id = some .pending := by
          rw [Store.invitationStatus, hfind, Option.map_some, hp.2]
        rw [hp.2] at hdeeds
        rw [if_pos ⟨rfl, hany⟩, Stepped, hstatus, hdeeds, hbefore]
        exact .revoke _
      · refine Same.stay (setInvitation_same fun u hu _ hpu => ?_)
        rw [hfind] at hu
        obtain rfl := Option.some.inj hu
        exact absurd (of_decide_eq_true hpu) hp
  · exact Same.stay (setInvitation_same fun _ _ heq => absurd heq hk)

/-- What a statement of a route does to it. -/
theorem stepped_route {caller : Caller} {orgId : String} {action : Action} {pc pc' : RoutePc}
    (h : routeNext cfg s d caller orgId action pc = some (s', pc')) :
    Stepped (Call.taking cfg s k (.route caller orgId action pc)) k s .outside s' .outside := by
  cases pc with
  | context pc =>
    obtain ⟨pc', hpc, -⟩ := pc_of_next h
    obtain ⟨sessions, rfl⟩ := context_store hpc
    exact Same.stay (.of_eq rfl rfl)
  | insertInvitation email role expiresAt =>
    rw [routeNext] at h
    split at h
    case h_1 t ht =>
      obtain ⟨rfl, -⟩ := Prod.mk.inj (Option.some.inj h)
      exact stepped_insert rfl ht
    case h_2 =>
      obtain ⟨rfl, -⟩ := Prod.mk.inj (Option.some.inj h)
      exact Same.stay (.of_eq rfl rfl)
  | revoke id =>
    obtain ⟨rfl, -⟩ := Prod.mk.inj (Option.some.inj h)
    exact stepped_revoke caller orgId action id
  | returned | threw _ | failed => cases h
  | _ =>
    obtain ⟨rfl, -⟩ := Prod.mk.inj (Option.some.inj h)
    exact Same.stay (.of_eq rfl rfl)

/-- There is one row with an id. -/
theorem filter_id (k : String) : ∀ {l : List InvitationRow}, (l.map (·.id)).Nodup →
    l.filter (·.id = k) = (l.find? (·.id = k)).toList
  | [], _ => rfl
  | v :: l, h => by
      obtain ⟨hv, hl⟩ := List.nodup_cons.mp h
      by_cases hk : v.id = k
      · subst hk
        have hnone : l.filter (·.id = v.id) = [] := by
          refine List.filter_eq_nil_iff.mpr fun u hu heq => hv ?_
          exact List.mem_map.mpr ⟨u, hu, of_decide_eq_true heq⟩
        rw [List.filter_cons_of_pos (by simp), List.find?_cons_of_pos (by simp), hnone]
        rfl
      · rw [List.filter_cons_of_neg (by simpa using hk), List.find?_cons_of_neg (by simpa using hk)]
        exact filter_id k hl

theorem filterMap_id {α : Type*} (k : String) (a : α) : ∀ l : List InvitationRow,
    l.filterMap (fun v => if v.id = k then some a else none) = (l.filter (·.id = k)).map fun _ => a
  | [] => rfl
  | v :: l => by
      by_cases hk : v.id = k <;> simp [hk, filterMap_id k a l]

/-- What the cleanup job puts on record. -/
theorem expire_deeds (s : Store) (k : String) : s.expireOldInvitations.deeds k
    = (((s.primary.invitations.find? (·.id = k)).filter (Store.overdue s.now)).map fun _ =>
        Deed.changed .pending .expired).toList ++ s.deeds k := by
  unfold Store.expireOldInvitations Store.deeds
  dsimp only
  rw [List.filterMap_append, List.filterMap_map]
  refine congrArg (· ++ _) ((filterMap_id k _ _).trans ?_)
  rw [List.filter_comm, filter_id k s.primary.invitations_nodup]
  cases s.primary.invitations.find? (·.id = k) with
  | none => rfl
  | some v =>
    by_cases ho : Store.overdue s.now v = true <;> simp [ho, Option.filter]

theorem expire_status (s : Store) (k : String) : s.expireOldInvitations.invitationStatus k
    = (s.primary.invitations.find? (·.id = k)).map fun v =>
        if Store.overdue s.now v then .expired else v.status :=
  find?_setInvitationStatus s.primary (Store.overdue s.now) .expired k

/-- The first statement of the cleanup job. -/
theorem stepped_cleanup : Stepped (Call.taking cfg s k (.cleanup .expire)) k s .outside
    s.expireOldInvitations .outside := by
  rw [Call.taking]
  cases hfind : s.primary.invitations.find? (·.id = k) with
  | none =>
    refine Same.stay ⟨?_, ?_⟩
    · rw [expire_status, Store.invitationStatus, hfind]
      rfl
    · rw [expire_deeds, hfind]
      rfl
  | some v =>
    have hid := id_of_find? hfind
    by_cases ho : Store.overdue s.now v = true
    · have hany : (s.primary.invitations.any fun u => u.id = k ∧ Store.overdue s.now u) = true :=
        List.any_eq_true.mpr ⟨v, List.mem_of_find?_eq_some hfind, by simp [hid, ho]⟩
      have hp : v.status = .pending := (of_decide_eq_true ho).1
      rw [if_pos hany, Stepped, expire_status, expire_deeds, Store.invitationStatus, hfind]
      simpa [ho, hp, Option.filter] using Stage.Step.cleanup (s.deeds k)
    · refine Same.stay ⟨?_, ?_⟩
      · rw [expire_status, Store.invitationStatus, hfind]
        simp [ho]
      · rw [expire_deeds, hfind]
        simp [ho, Option.filter]

/-- **One statement, seen from an invitation.** -/
theorem stepped_next {c c' : Call} (h : next cfg s c d = some (s', c'))
    (hfits : (c.stage k).Fits (s.invitationStatus k) (s.deeds k)) :
    Stepped (c.taking cfg s k) k s (c.stage k) s' (c'.stage k) := by
  cases c with
  | createOrg userId slug pc =>
    obtain ⟨pc', hpc, rfl⟩ := pc_of_next h
    rcases create_store hpc with rfl | ⟨t, ht, rfl⟩
    · exact Same.stay (.of_eq rfl rfl)
    · exact Same.stay (.of_eq (createOrg_invitations ht) rfl)
  | accept token pc =>
    obtain ⟨pc', hpc, rfl⟩ := pc_of_next h
    exact stepped_accept hpc hfits
  | route caller orgId action pc =>
    obtain ⟨pc', hpc, rfl⟩ := pc_of_next h
    exact stepped_route hpc
  | cleanup pc =>
    obtain ⟨pc', hpc, rfl⟩ := pc_of_next h
    cases pc with
    | expire =>
      obtain ⟨rfl, -⟩ := Prod.mk.inj (Option.some.inj hpc)
      exact stepped_cleanup
    | returned => cases hpc

theorem stage_of_fresh {c : Call} (h : c.fresh = true) : c.stage k = .outside := by
  unfold Call.fresh at h
  split at h <;> first | rfl | cases h

end Steps

/-! ## Runs -/

section Runs

variable {ι : Type*} {cfg : Config} {k : String}

/-- **Nobody takes what another call holds**: while an acceptance is between its SELECT and its
UPDATE of the invitation, no other acceptance finds the invitation pending, and no revocation and no
cleanup changes its status; those that only expire it do not mind each other. -/
def Untouched (cfg : Config) (k : String) (p : Calls ι) : Move ι Draw Env → Prop
  | .run i _ => (p.calls i).Keeps fun c => ∀ taking ∈ c.taking cfg p.store k,
      ∀ j, j ≠ i → (stageOf k (p.calls j)).bars taking = false
  | _ => True

variable [DecidableEq ι]

/-- An invitation is settled once, in every state of such a run. -/
theorem settling_run {p q : Calls ι} (hstart : ∀ i, (p.calls i).Live fun c => c.fresh)
    (hout : Outcome (p.store.invitationStatus k) (p.store.deeds k))
    (hrun : Run (Pool.step (orgMachine cfg)) (Untouched cfg k) p q) :
    Settling (q.store.invitationStatus k) (q.store.deeds k) (stageOf k ∘ q.calls) := by
  refine Pool.invariant (I := fun p : Calls ι =>
      Settling (p.store.invitationStatus k) (p.store.deeds k) (stageOf k ∘ p.calls))
    (.of_outside hout fun i => ?_) (fun p i d c s' c' h hG hi hn => ?_) (fun p i c h _ hi => ?_)
    (fun p e h _ => ?_) hrun
  · obtain ⟨c, hc, hfresh⟩ := (hstart i).exists
    rw [Function.comp_apply, hc]
    exact stage_of_fresh hfresh
  · have hstage : (stageOf k ∘ p.calls) i = c.stage k := by rw [Function.comp_apply, hi]; rfl
    have hfits := h.fits i
    rw [hstage] at hfits
    simp only [Untouched] at hG
    rw [hi] at hG
    dsimp only
    rw [Function.comp_update]
    refine h.step ?_ hG
    rw [hstage]
    exact stepped_next hn hfits
  · dsimp only
    rw [Function.comp_update]
    exact h.step (.abandon none _ _ _) nofun
  · cases e <;> exact h

/-- A status other than `pending` is on record. -/
theorem Outcome.recorded {st : InvitationStatus} {log : List Deed} (h : Outcome (some st) log)
    (hne : st ≠ .pending) : .changed .pending st ∈ log := by
  cases h with
  | pending n => exact absurd rfl hne
  | closed n _ => exact List.mem_cons_self
  | joined n => simp

/-- **One outcome**, in every run in which nobody takes an invitation another call holds. -/
theorem settled_once {p q : Calls ι} (hstart : ∀ i, (p.calls i).Live fun c => c.fresh)
    (hstatus : p.store.invitationStatus k = none ∨ p.store.invitationStatus k = some .pending)
    (hnew : p.store.deeds k = [])
    (hrun : Run (Pool.step (orgMachine cfg)) (Untouched cfg k) p q) :
    SettledOnce (q.store.deeds k) ∧ ∀ st, q.store.invitationStatus k = some st → st ≠ .pending →
      .changed .pending st ∈ q.store.deeds k := by
  have hout : Outcome (p.store.invitationStatus k) (p.store.deeds k) := by
    rw [hnew]
    rcases hstatus with hnone | hpending
    · rw [hnone]
      exact .absent
    · rw [hpending]
      exact .pending 0
  have hsettling := settling_run hstart hout hrun
  refine ⟨hsettling.outcome.settledOnce, fun st hst hne => ?_⟩
  have hclosed := hsettling.outcome
  rw [hst] at hclosed
  exact hclosed.recorded hne

end Runs

instance {ι : Type*} [Fintype ι] [DecidableEq ι] (cfg : Config) (k : String) (p : Calls ι) :
    ∀ m : Move ι Draw Env, Decidable (Untouched cfg k p m)
  | .run i _ => inferInstanceAs (Decidable ((p.calls i).Keeps fun c =>
      ∀ taking ∈ c.taking cfg p.store k,
        ∀ j, j ≠ i → (stageOf k (p.calls j)).bars taking = false))
  | .crash _ => inferInstanceAs (Decidable True)
  | .env _ => inferInstanceAs (Decidable True)

/-! ## An acceptance and a revocation -/

/-- The organisation `o` of `w`, with an invitation to `u@x`. -/
def oneInvitation : Tables where
  orgs := [newOrg "o" "slug"]
  memberships := [⟨⟨"w", "o", .orgOwner, .active⟩, false⟩]
  invitations := [⟨"i", "o", "u@x", ⟨.member, by decide⟩, "u@x", .pending, invitationTtl⟩]
  ids_nodup := by decide
  slugs_nodup := by decide
  live_nodup := by decide
  hashes_nodup := by decide
  invitations_nodup := by decide
  members_org := by decide
  invitations_org := by decide

def acceptedAndRevoked : Calls (Fin 2) :=
  ⟨demoStore oneInvitation, ![.up (.accept "u@x" .find),
    .up (.route ⟨"w", "o", false⟩ "o" (.revokeInvitation "i") (.context .get))]⟩

theorem acceptedAndRevoked_fresh (i : Fin 2) :
    (acceptedAndRevoked.calls i).Live fun c => c.fresh := by
  revert i
  decide

/-- **The acceptance reads `pending`, the invitation is revoked, the acceptance goes on**: it makes
a member and overwrites the revocation. -/
theorem revoked_invitation_grants :
    (∀ i, (acceptedAndRevoked.calls i).Live fun c => c.fresh)
      ∧ acceptedAndRevoked.store.invitationStatus "i" = some .pending
      ∧ acceptedAndRevoked.store.deeds "i" = []
      ∧ ∃ q, Run (Pool.step (orgMachine demoConfig)) anyStep acceptedAndRevoked q
        ∧ q.store.deeds "i" = [.issued, .joined, .changed .revoked .accepted, .granted,
          .changed .pending .revoked]
        ∧ ¬ SettledOnce (q.store.deeds "i") := by
  refine ⟨acceptedAndRevoked_fresh, by decide, rfl, ?_⟩
  obtain ⟨q, hq, h⟩ := exists_run_of_exec (Pool.step (orgMachine demoConfig)) anyStep
    acceptedAndRevoked (List.flatten [.run 0 (drawn "") :: List.replicate 4 (.run 1 (drawn "")),
      List.replicate 5 (.run 0 (drawn ""))])
    (fun q => q.store.deeds "i" = [.issued, .joined, .changed .revoked .accepted, .granted,
      .changed .pending .revoked]) (by decide)
  have hdeeds := of_decide_eq_true h
  refine ⟨q, hq, hdeeds, fun hsettled => ?_⟩
  rw [hdeeds] at hsettled
  exact absurd hsettled.changed_once (by decide)

/-- The revocation after the acceptance finds nothing to revoke. -/
theorem settled_once_in_turn :
    ∃ q, Run (Pool.step (orgMachine demoConfig)) (Untouched demoConfig "i") acceptedAndRevoked q
      ∧ q.store.deeds "i" = [.issued, .joined, .changed .pending .accepted, .granted]
      ∧ SettledOnce (q.store.deeds "i") := by
  obtain ⟨q, hq, h⟩ := exists_run_of_exec (Pool.step (orgMachine demoConfig))
    (Untouched demoConfig "i") acceptedAndRevoked
    (List.flatten [List.replicate 6 (.run 0 (drawn "")), List.replicate 4 (.run 1 (drawn ""))])
    (fun q => q.store.deeds "i" = [.issued, .joined, .changed .pending .accepted, .granted])
    (by decide)
  exact ⟨q, hq, of_decide_eq_true h,
    (settled_once acceptedAndRevoked_fresh (Or.inr (by decide)) rfl hq).1⟩

end WorkPlatform.Organization

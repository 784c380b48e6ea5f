import Mathlib.Data.Fin.VecNotation
import WorkPlatform.Organization.Store

/-!
# Realtime/SocketSession — how long a socket outlives its session

    io.use              jwt.verify ▸ connected
    every five minutes  SELECT users.status ▸ SELECT org_memberships.status ▸ kept | disconnected

Both SELECTs go to the replica, and neither asks for `password_changed_at`, which every request
over HTTP is held to: a socket stays connected after its user has changed the password
(`socket_survives_password_change`).  Where the replica is up to date and no password is changed
under a connected socket, a socket that is kept is entitled to it (`kept_socket_entitled`).
-/

namespace WorkPlatform.SocketSession

open Machinery
open Auth (UserRow UserStatus MembershipStatus AccessToken)
open Organization (MembershipRow)

/-! ## The tables -/

structure Tables where
  users : String → Option UserRow
  memberships : List MembershipRow

namespace Tables

/-- `SELECT status FROM users WHERE id = $1`. -/
def userStatus (t : Tables) (userId : String) : Option UserStatus := (t.users userId).map (·.status)

/-- `SELECT status FROM org_memberships WHERE user_id = $1 AND org_id = $2 AND deleted_at IS
NULL`. -/
def membershipStatus (t : Tables) (userId orgId : String) : Option MembershipStatus :=
  (t.memberships.find? (·.isOf orgId userId)).map (·.status)

/-- When the user last changed the password. -/
def passwordChangedAt (t : Tables) (userId : String) : Option ℕ :=
  (t.users userId).bind (·.passwordChangedAt)

def writeUser (t : Tables) (id : String) (row : UserRow) : Tables :=
  { t with users := Function.update t.users id (some row) }

end Tables

/-- `!user.rows[0] || user.rows[0].status !== 'active' || …`. -/
def expired (user : Option UserStatus) (membership : Option MembershipStatus) : Bool :=
  user ≠ some .active ∨ membership ≠ some .active

/-! ## The sockets -/

/-- A socket keeps the payload of its handshake; what is disconnected does not come back. -/
inductive Socket
  | unused
  | connected (token : AccessToken)
  | gone
  deriving DecidableEq

def Socket.token : Socket → Option AccessToken
  | .connected token => some token
  | .unused | .gone => none

variable {κ : Type*}

/-- The tables on both databases, and the sockets. -/
structure Store (κ : Type*) where
  now : ℕ
  primary : Tables
  replica : Tables
  sockets : κ → Socket

/-- The handshake, with the message of its error. -/
inductive ConnectPc
  | handshake
  | accepted
  | refused (message : String)
  deriving DecidableEq

/-- A tick of `sessionCheckInterval`; `failed` is a query that raised. -/
inductive CheckPc
  | selectUser
  | selectMembership (token : AccessToken) (user : Option UserStatus)
  | kept
  | dropped
  | failed
  deriving DecidableEq

/-- A handler of a socket, and where it is. -/
inductive Call (κ : Type*)
  | connect (k : κ) (token : Option AccessToken) (pc : ConnectPc)
  | check (k : κ) (pc : CheckPc)
  deriving DecidableEq

/-- The call has not run a statement yet. -/
def Call.fresh : Call κ → Bool
  | .connect _ _ .handshake | .check _ .selectUser => true
  | _ => false

/-- Whether the replica answers. -/
structure Draw where
  db : Bool

/-- What happens to the tables, and a client that leaves. -/
inductive Env (κ : Type*)
  | tick (ms : ℕ)
  | replicate
  | writeUser (id : String) (row : UserRow)
  | writeMemberships (rows : List MembershipRow)
  | leave (k : κ)

section Machine

variable [DecidableEq κ]

def Store.setSocket (s : Store κ) (k : κ) (x : Socket) : Store κ :=
  { s with sockets := Function.update s.sockets k x }

/-- `io.use`; what `jwt.verify` makes of the signature is a parameter. -/
def connectNext (signed : AccessToken → Bool) (s : Store κ) (k : κ) (token : Option AccessToken) :
    ConnectPc → Option (Store κ × ConnectPc)
  | .handshake =>
    match s.sockets k, token with
    | .unused, none => some (s, .refused "auth:error — missing token")
    | .unused, some token =>
      if signed token ∧ s.now / 1000 < token.exp then
        some (s.setSocket k (.connected token), .accepted)
      else some (s, .refused "auth:error — invalid token")
    | _, _ => none
  | .accepted | .refused _ => none

/-- An organisation that is empty is no UUID, so that the second query raises. -/
def checkNext (s : Store κ) (d : Draw) (k : κ) : CheckPc → Option (Store κ × CheckPc)
  | .selectUser =>
    match s.sockets k with
    | .connected token =>
      some (s, if d.db then .selectMembership token (s.replica.userStatus token.sub) else .failed)
    | _ => none
  | .selectMembership token user =>
    if d.db ∧ token.orgId ≠ "" then
      if expired user (s.replica.membershipStatus token.sub token.orgId) then
        some (s.setSocket k .gone, .dropped)
      else some (s, .kept)
    else some (s, .failed)
  | .kept | .dropped | .failed => none

/-- The next statement of a handler. -/
def next (signed : AccessToken → Bool) (s : Store κ) (c : Call κ) (d : Draw) :
    Option (Store κ × Call κ) :=
  match c with
  | .connect k token pc =>
    (connectNext signed s k token pc).map fun x => (x.1, .connect k token x.2)
  | .check k pc => (checkNext s d k pc).map fun x => (x.1, .check k x.2)

/-- Time, replication, and what other services and clients do. -/
def env (s : Store κ) : Env κ → Store κ
  | .tick ms => { s with now := s.now + ms }
  | .replicate => { s with replica := s.primary }
  | .writeUser id row => { s with primary := s.primary.writeUser id row }
  | .writeMemberships rows => { s with primary.memberships := rows }
  | .leave k => if (s.sockets k).token.isSome then s.setSocket k .gone else s

def socketMachine (signed : AccessToken → Bool) : Machine (Store κ) (Call κ) Draw (Env κ) :=
  ⟨next signed, env⟩

end Machine

abbrev Calls (ι κ : Type*) := Pool ι (Store κ) (Call κ)

/-! ## The property and the condition -/

/-- The token is not older than the password. -/
def Current (token : AccessToken) (passwordChangedAt : Option ℕ) : Prop :=
  ∀ changedAt ∈ passwordChangedAt, changedAt / 1000 ≤ token.iat

/-- **The session may go on**: what every request over HTTP and both SELECTs would ask. -/
structure Entitled (t : Tables) (token : AccessToken) : Prop where
  user : t.userStatus token.sub = some .active
  membership : t.membershipStatus token.sub token.orgId = some .active
  password : Current token (t.passwordChangedAt token.sub)

/-- The user a tick has found active. -/
def Call.foundActive : Call κ → Option String
  | .check _ (.selectMembership token (some .active)) => some token.sub
  | _ => none

/-- What a call is about to find active is active on the primary, and nobody connects with a token
that is older than the password. -/
def ReadsCurrent (s : Store κ) : Call κ → Prop
  | .connect _ (some token) .handshake => Current token (s.primary.passwordChangedAt token.sub)
  | .check k .selectUser => ∀ token ∈ (s.sockets k).token,
      s.replica.userStatus token.sub = some .active → s.primary.userStatus token.sub = some .active
  | .check _ (.selectMembership token _) =>
    s.replica.membershipStatus token.sub token.orgId = some .active →
      s.primary.membershipStatus token.sub token.orgId = some .active
  | _ => True

variable {ι : Type*}

/-- A user stays active while a tick has found so, and no password is changed under a connected
socket. -/
def WritesApart (p : Calls ι κ) (id : String) (row : UserRow) : Prop :=
  (∀ i, (p.calls i).Live (fun c => c.foundActive = some id) → row.status = .active)
  ∧ ∀ k, ∀ token ∈ (p.store.sockets k).token, token.sub = id →
    Current token row.passwordChangedAt

/-- **Nothing goes stale**: what is read is so, and is not written meanwhile. -/
def UpToDate (p : Calls ι κ) : Move ι Draw (Env κ) → Prop
  | .run i _ => ReadsCurrent p.store (p.calls i).at'
  | .env (.writeUser id row) => WritesApart p id row
  | _ => True

/-! ## What is kept -/

/-- A user that a tick has found active is so, and its socket has no other token. -/
def Reading (s : Store κ) : Call κ → Prop
  | .check k (.selectMembership token user) =>
    (user = some .active → s.primary.userStatus token.sub = some .active)
      ∧ (s.sockets k = .connected token ∨ s.sockets k = .gone)
  | _ => True

/-- A token that is connected is current, and a handler goes by what it has read. -/
structure Kept (p : Calls ι κ) : Prop where
  current : ∀ k token, p.store.sockets k = .connected token →
    Current token (p.store.primary.passwordChangedAt token.sub)
  reading : ∀ i, (p.calls i).Keeps (Reading p.store)

section Steps

variable [DecidableEq κ] {signed : AccessToken → Bool} {s s' : Store κ} {c c' : Call κ} {d : Draw}

/-- A step of a socket: it connects, it goes, or it stays as it is. -/
inductive SocketStep (s : Store κ) : Store κ → Prop
  | same : SocketStep s s
  | connect {k : κ} {token : AccessToken} : s.sockets k = .unused →
      Current token (s.primary.passwordChangedAt token.sub) →
      SocketStep s (s.setSocket k (.connected token))
  | drop {k : κ} {token : AccessToken} :
      (s.sockets k = .connected token ∨ s.sockets k = .gone) → SocketStep s (s.setSocket k .gone)

/-- What each statement of a handler does, and what it goes by then. -/
theorem socketStep_of_next (hG : ReadsCurrent s c) (hc : Reading s c)
    (h : next signed s c d = some (s', c')) : SocketStep s s' ∧ Reading s' c' := by
  cases c with
  | connect k token pc =>
    obtain ⟨pc', hpc, rfl⟩ := pc_of_next h
    cases pc with
    | handshake =>
      unfold connectNext at hpc
      dsimp only at hpc
      split at hpc
      · obtain ⟨rfl, rfl⟩ := Prod.mk.inj (Option.some.inj hpc)
        exact ⟨.same, trivial⟩
      · rename_i hunused
        split at hpc
        · obtain ⟨rfl, rfl⟩ := Prod.mk.inj (Option.some.inj hpc)
          exact ⟨.connect hunused hG, trivial⟩
        · obtain ⟨rfl, rfl⟩ := Prod.mk.inj (Option.some.inj hpc)
          exact ⟨.same, trivial⟩
      · cases hpc
    | accepted => cases hpc
    | refused message => cases hpc
  | check k pc =>
    obtain ⟨pc', hpc, rfl⟩ := pc_of_next h
    cases pc with
    | selectUser =>
      unfold checkNext at hpc
      dsimp only at hpc
      split at hpc
      · rename_i token hsocket
        obtain ⟨rfl, rfl⟩ := Prod.mk.inj (Option.some.inj hpc)
        refine ⟨.same, ?_⟩
        split
        · refine ⟨hG token ?_, Or.inl hsocket⟩
          rw [hsocket]
          rfl
        · trivial
      · cases hpc
    | selectMembership token user =>
      unfold checkNext at hpc
      dsimp only at hpc
      split at hpc
      · split at hpc
        · obtain ⟨rfl, rfl⟩ := Prod.mk.inj (Option.some.inj hpc)
          exact ⟨.drop hc.2, trivial⟩
        · obtain ⟨rfl, rfl⟩ := Prod.mk.inj (Option.some.inj hpc)
          exact ⟨.same, trivial⟩
      · obtain ⟨rfl, rfl⟩ := Prod.mk.inj (Option.some.inj hpc)
        exact ⟨.same, trivial⟩
    | kept => cases hpc
    | dropped => cases hpc
    | failed => cases hpc

/-- No step of a socket changes the primary, and what a tick has read of it. -/
theorem SocketStep.reading (hs : SocketStep s s') (hc : Reading s c) : Reading s' c := by
  cases c with
  | connect k token pc => trivial
  | check k pc =>
    cases pc with
    | selectMembership token user =>
      cases hs with
      | same => exact hc
      | @connect k' token' hunused hcurrent =>
        refine ⟨hc.1, ?_⟩
        have hk : k ≠ k' := by
          rintro rfl
          rcases hc.2 with hk | hk <;> cases hk.symm.trans hunused
        unfold Store.setSocket
        dsimp only
        rw [Function.update_of_ne hk]
        exact hc.2
      | @drop k' token' hold =>
        refine ⟨hc.1, ?_⟩
        unfold Store.setSocket
        dsimp only
        by_cases hk : k = k'
        · subst hk
          rw [Function.update_self]
          exact Or.inr rfl
        · rw [Function.update_of_ne hk]
          exact hc.2
    | _ => trivial

/-- Such a step leaves every connected token current. -/
theorem SocketStep.current (hs : SocketStep s s')
    (h : ∀ k token, s.sockets k = .connected token →
      Current token (s.primary.passwordChangedAt token.sub)) :
    ∀ k token, s'.sockets k = .connected token →
      Current token (s'.primary.passwordChangedAt token.sub) := by
  intro k token hk
  cases hs with
  | same => exact h k token hk
  | @connect k' token' hunused hcurrent =>
    rcases update_cases (fun x : Socket => x = .connected token) hk with ⟨-, hself⟩ | ⟨-, hother⟩
    · cases hself
      exact hcurrent
    · exact h k token hother
  | drop hold =>
    rcases update_cases (fun x : Socket => x = .connected token) hk with ⟨-, hself⟩ | ⟨-, hother⟩
    · cases hself
    · exact h k token hother

/-- A tick that drops its socket disconnects it. -/
theorem dropped_gone {k : κ} {pc : CheckPc} (h : checkNext s d k pc = some (s', .dropped)) :
    s'.sockets k = .gone := by
  cases pc with
  | selectUser =>
    unfold checkNext at h
    dsimp only at h
    split at h
    · have hdropped := (Prod.mk.inj (Option.some.inj h)).2
      split at hdropped <;> cases hdropped
    · cases h
  | selectMembership token user =>
    unfold checkNext at h
    dsimp only at h
    split at h
    · split at h
      · obtain ⟨rfl, -⟩ := Prod.mk.inj (Option.some.inj h)
        exact Function.update_self k Socket.gone s.sockets
      · cases (Prod.mk.inj (Option.some.inj h)).2
    · cases (Prod.mk.inj (Option.some.inj h)).2
  | kept => cases h
  | dropped => cases h
  | failed => cases h

/-- The status of a user after a write of some row. -/
theorem userStatus_write (t : Tables) (id userId : String) (row : UserRow) :
    (t.writeUser id row).userStatus userId
      = if userId = id then some row.status else t.userStatus userId := by
  unfold Tables.userStatus Tables.writeUser
  dsimp only
  split
  · rename_i hid
    subst hid
    rw [Function.update_self]
    rfl
  · rename_i hid
    rw [Function.update_of_ne hid]

/-- The last password change of a user after a write of some row. -/
theorem passwordChangedAt_write (t : Tables) (id userId : String) (row : UserRow) :
    (t.writeUser id row).passwordChangedAt userId
      = if userId = id then row.passwordChangedAt else t.passwordChangedAt userId := by
  unfold Tables.passwordChangedAt Tables.writeUser
  dsimp only
  split
  · rename_i hid
    subst hid
    rw [Function.update_self]
    rfl
  · rename_i hid
    rw [Function.update_of_ne hid]

/-- What a tick has read stays so under a write that leaves its user active. -/
theorem Reading.writeUser {id : String} {row : UserRow}
    (h : c.foundActive = some id → row.status = .active) (hc : Reading s c) :
    Reading (env s (.writeUser id row)) c := by
  cases c with
  | connect k token pc => trivial
  | check k pc =>
    cases pc with
    | selectMembership token user =>
      refine ⟨fun hactive => ?_, hc.2⟩
      show (s.primary.writeUser id row).userStatus token.sub = some .active
      rw [userStatus_write]
      split
      · rename_i hid
        subst hactive
        exact congrArg some (h (congrArg some hid))
      · exact hc.1 hactive
    | _ => trivial

omit [DecidableEq κ] in
/-- What is written elsewhere is nothing a tick relies on. -/
theorem Reading.congr (hprimary : s'.primary.users = s.primary.users)
    (hsockets : s'.sockets = s.sockets) (hc : Reading s c) : Reading s' c := by
  cases c with
  | connect k token pc => trivial
  | check k pc =>
    cases pc with
    | selectMembership token user =>
      refine ⟨?_, ?_⟩
      · rw [Tables.userStatus, hprimary]
        exact hc.1
      · rw [hsockets]
        exact hc.2
    | _ => trivial

end Steps

/-! ## Every run -/

section Runs

variable {signed : AccessToken → Bool} {p q r : Calls ι κ}

/-- A statement keeps it, where what it read is up to date. -/
theorem Kept.run [DecidableEq κ] [DecidableEq ι] {i : ι} {c c' : Call κ} {d : Draw}
    {s : Store κ} (h : Kept p) (hG : UpToDate p (.run i d)) (hc : p.calls i = .up c)
    (hn : next signed p.store c d = some (s, c')) :
    Kept ⟨s, Function.update p.calls i (.up c')⟩ := by
  have hread : ReadsCurrent p.store c := by
    rw [UpToDate, hc, Proc.at'_up] at hG
    exact hG
  obtain ⟨hstep, hself⟩ := socketStep_of_next hread ((h.reading i).of_up hc) hn
  exact ⟨hstep.current h.current,
    keeps_update_up hself fun j _ => (h.reading j).imp fun _ hc' => hstep.reading hc'⟩

theorem Kept.crash [DecidableEq ι] {i : ι} {c : Call κ} (h : Kept p) :
    Kept ⟨p.store, Function.update p.calls i (.down c)⟩ :=
  ⟨h.current, keeps_update_down h.reading⟩

/-- A write of a user keeps the invariant, where it is apart from the handlers. -/
theorem Kept.writeUser [DecidableEq κ] {id : String} {row : UserRow} (h : Kept p)
    (hG : WritesApart p id row) : Kept ⟨env p.store (.writeUser id row), p.calls⟩ where
  current k token hk := by
    show Current token ((p.store.primary.writeUser id row).passwordChangedAt token.sub)
    rw [passwordChangedAt_write]
    have hk' : p.store.sockets k = .connected token := hk
    split
    · rename_i hid
      refine hG.2 k token ?_ hid
      rw [hk']
      rfl
    · exact h.current k token hk
  reading i := by
    have hi := h.reading i
    have hstatus := hG.1 i
    dsimp only
    cases hc : p.calls i with
    | up c =>
      rw [hc] at hi hstatus
      exact Reading.writeUser hstatus hi
    | down c => trivial

/-- So does whatever else happens. -/
theorem Kept.env [DecidableEq κ] {e : Env κ} (h : Kept p) (hG : UpToDate p (.env e)) :
    Kept ⟨env p.store e, p.calls⟩ := by
  cases e with
  | tick ms => exact ⟨h.current, fun i => (h.reading i).imp fun _ => .congr rfl rfl⟩
  | replicate => exact ⟨h.current, fun i => (h.reading i).imp fun _ => .congr rfl rfl⟩
  | writeUser id row => exact h.writeUser hG
  | writeMemberships rows => exact ⟨h.current, fun i => (h.reading i).imp fun _ => .congr rfl rfl⟩
  | leave k =>
    unfold SocketSession.env
    dsimp only
    split
    · rename_i hconnected
      obtain ⟨token, htoken⟩ := Option.isSome_iff_exists.mp hconnected
      have hk : p.store.sockets k = .connected token := by
        cases hx : p.store.sockets k with
        | connected token' =>
          rw [hx] at htoken
          exact congrArg Socket.connected (Option.some.inj htoken)
        | unused =>
          rw [hx] at htoken
          cases htoken
        | gone =>
          rw [hx] at htoken
          cases htoken
      have hstep : SocketStep p.store (p.store.setSocket k .gone) := .drop (Or.inl hk)
      exact ⟨hstep.current h.current, fun i => (h.reading i).imp fun _ => hstep.reading⟩
    · exact h

/-- Before the first handshake the invariant holds. -/
theorem kept_start (hstart : ∀ i, (p.calls i).at'.fresh = true)
    (hnone : ∀ k, p.store.sockets k = .unused) : Kept p where
  current k token hk := by
    rw [hnone k] at hk
    cases hk
  reading i := by
    have hi := hstart i
    cases hc : p.calls i with
    | up c =>
      rw [hc] at hi
      cases c with
      | connect k token pc => trivial
      | check k pc => cases pc <;> trivial
    | down c => trivial

theorem kept_run [DecidableEq κ] [DecidableEq ι] (h₀ : Kept p)
    (h : Run (Pool.step (socketMachine signed)) UpToDate p q) : Kept q :=
  Pool.invariant h₀ (fun _ _ _ _ _ _ hI hG hc hn => hI.run hG hc hn)
    (fun _ _ _ hI _ _ => hI.crash) (fun _ _ hI hG => hI.env hG) h

/-- A tick that could read the database and leaves its socket connected has found everything
active. -/
theorem entitled_of_kept [DecidableEq κ] {k : κ} {pc : CheckPc} {s : Store κ} {d : Draw}
    (hG : ReadsCurrent q.store (.check k pc)) (hc : Reading q.store (.check k pc))
    (hcurrent : ∀ k token, q.store.sockets k = .connected token →
      Current token (q.store.primary.passwordChangedAt token.sub))
    (hn : checkNext q.store d k pc = some (s, .kept)) {token : AccessToken}
    (hk : s.sockets k = .connected token) : Entitled s.primary token := by
  cases pc with
  | selectUser =>
    unfold checkNext at hn
    dsimp only at hn
    split at hn
    · have hkept := (Prod.mk.inj (Option.some.inj hn)).2
      split at hkept <;> cases hkept
    · cases hn
  | selectMembership token' user =>
    unfold checkNext at hn
    dsimp only at hn
    split at hn
    · split at hn
      · cases (Prod.mk.inj (Option.some.inj hn)).2
      · rename_i hactive
        obtain ⟨rfl, -⟩ := Prod.mk.inj (Option.some.inj hn)
        obtain ⟨huser, hsocket⟩ := hc
        obtain rfl : token' = token := by
          rcases hsocket with hsame | hgone
          · exact Socket.connected.inj (hsame.symm.trans hk)
          · cases hgone.symm.trans hk
        simp only [expired, ne_eq, decide_eq_true_eq, not_or, not_not] at hactive
        exact ⟨huser hactive.1, hG hactive.2, hcurrent k token' hk⟩
    · cases (Prod.mk.inj (Option.some.inj hn)).2
  | kept => cases hn
  | dropped => cases hn
  | failed => cases hn

/-- **A socket that a tick keeps is entitled to it**, in every run in which nothing goes stale. -/
theorem kept_socket_entitled [DecidableEq κ] [DecidableEq ι]
    (hstart : ∀ i, (p.calls i).at'.fresh = true)
    (hnone : ∀ k, p.store.sockets k = .unused)
    (h : Run (Pool.step (socketMachine signed)) UpToDate p q) {i : ι} {d : Draw}
    (hG : UpToDate q (.run i d)) (hs : q.step (socketMachine signed) (.run i d) = some r) {k : κ}
    (hend : (r.calls i).at' = .check k .kept ∨ (r.calls i).at' = .check k .dropped)
    {token : AccessToken} (hk : r.store.sockets k = .connected token) :
    Entitled r.store.primary token := by
  have hkept := kept_run (kept_start hstart hnone) h
  obtain ⟨c, s, c', hc, hn, rfl⟩ := Pool.step_run hs
  rw [UpToDate, hc, Proc.at'_up] at hG
  have hread := (hkept.reading i).of_up hc
  dsimp only at hend hk
  rw [at'_update_self, Proc.at'_up] at hend
  cases c with
  | connect k' token' pc =>
    obtain ⟨pc', -, rfl⟩ := pc_of_next hn
    rcases hend with hend | hend <;> cases hend
  | check k' pc =>
    obtain ⟨pc', hpc, rfl⟩ := pc_of_next hn
    rcases hend with hend | hend
    · obtain ⟨rfl, rfl⟩ := Call.check.inj hend
      exact entitled_of_kept hG hread hkept.current hpc hk
    · obtain ⟨rfl, rfl⟩ := Call.check.inj hend
      cases (dropped_gone hpc).symm.trans hk

end Runs

/-! ## A password change -/

section Guard

variable [Fintype ι] [Fintype κ] {p : Calls ι κ}

instance (token : AccessToken) (changedAt : Option ℕ) : Decidable (Current token changedAt) :=
  inferInstanceAs (Decidable (∀ t ∈ changedAt, t / 1000 ≤ token.iat))

instance (s : Store κ) : DecidablePred (ReadsCurrent s)
  | .connect _ (some token) .handshake =>
    inferInstanceAs (Decidable (Current token (s.primary.passwordChangedAt token.sub)))
  | .check k .selectUser =>
    inferInstanceAs (Decidable (∀ token ∈ (s.sockets k).token,
      s.replica.userStatus token.sub = some .active →
        s.primary.userStatus token.sub = some .active))
  | .check _ (.selectMembership token _) =>
    inferInstanceAs (Decidable (s.replica.membershipStatus token.sub token.orgId = some .active →
      s.primary.membershipStatus token.sub token.orgId = some .active))
  | .connect _ none .handshake | .connect _ none .accepted | .connect _ none (.refused _)
  | .connect _ (some _) .accepted | .connect _ (some _) (.refused _)
  | .check _ .kept | .check _ .dropped | .check _ .failed => isTrue trivial

instance : ∀ m : Move ι Draw (Env κ), Decidable (UpToDate p m)
  | .run i _ => inferInstanceAs (Decidable (ReadsCurrent p.store (p.calls i).at'))
  | .env (.writeUser id row) =>
    inferInstanceAs (Decidable ((∀ i, (p.calls i).Live (fun c => c.foundActive = some id) →
        row.status = .active)
      ∧ ∀ k, ∀ token ∈ (p.store.sockets k).token, token.sub = id →
        Current token row.passwordChangedAt))
  | .crash _ | .env (.tick _) | .env .replicate | .env (.writeMemberships _)
  | .env (.leave _) => isTrue trivial

end Guard

/-- An active user, with a password of the given date. -/
def demoUser (changedAt : Option ℕ) : UserRow := ⟨false, .active, false, true, some "x", changedAt⟩

def demoTables : Tables :=
  ⟨fun id => if id = "u" then some (demoUser none) else none,
    [⟨⟨"u", "o", .member, .active⟩, false⟩]⟩

/-- A token of the first second, for a quarter of an hour. -/
def demoToken : AccessToken := ⟨"u", "o", .member, false, none, 0, "a", 0, 900⟩

/-- A user connects, and a tick comes. -/
def connectThenCheck : Calls (Fin 2) (Fin 1) :=
  ⟨⟨0, demoTables, demoTables, fun _ => .unused⟩,
    ![.up (.connect 0 (some demoToken) .handshake), .up (.check 0 .selectUser)]⟩

theorem connectThenCheck_fresh : ∀ i, (connectThenCheck.calls i).at'.fresh = true := by decide

/-- **The socket survives the password change**: five minutes later the tick keeps it. -/
theorem socket_survives_password_change :
    ∃ p q, Run (Pool.step (socketMachine fun _ => true)) anyStep connectThenCheck p
      ∧ p.step (socketMachine fun _ => true) (.run 1 ⟨true⟩) = some q
      ∧ q.calls 1 = .up (.check 0 .kept) ∧ q.store.sockets 0 = .connected demoToken
      ∧ ¬ Entitled q.store.primary demoToken := by
  obtain ⟨p, q, hrun, -, hs, hq⟩ := exists_step_of_exec
    (Pool.step (socketMachine fun _ => true)) anyStep connectThenCheck
    [.run 0 ⟨true⟩, .env (.writeUser "u" (demoUser (some 60000))), .env .replicate,
      .env (.tick 300000), .run 1 ⟨true⟩] (.run 1 ⟨true⟩)
    (fun _ q => q.calls 1 = .up (.check 0 .kept) ∧ q.store.sockets 0 = .connected demoToken
      ∧ q.store.primary.passwordChangedAt "u" = some 60000) (by decide)
  obtain ⟨hkept, hsocket, hchanged⟩ := of_decide_eq_true hq
  refine ⟨p, q, hrun, hs, hkept, hsocket, fun h => ?_⟩
  have hold : ¬ Current demoToken (some 60000) := by decide
  exact hold (hchanged ▸ h.password)

/-- A tick over tables that nobody writes. -/
theorem quiet_socket_entitled :
    ∃ q : Calls (Fin 2) (Fin 1), q.store.sockets 0 = .connected demoToken
      ∧ Entitled q.store.primary demoToken := by
  obtain ⟨p, q, hrun, hG, hs, hq⟩ := exists_step_of_exec
    (Pool.step (socketMachine fun _ => true)) UpToDate connectThenCheck
    [.run 0 ⟨true⟩, .env (.tick 300000), .run 1 ⟨true⟩] (.run 1 ⟨true⟩)
    (fun _ q => (q.calls 1).at' = .check 0 .kept ∧ q.store.sockets 0 = .connected demoToken)
    (by decide)
  obtain ⟨hkept, hsocket⟩ := of_decide_eq_true hq
  exact ⟨q, hsocket, kept_socket_entitled connectThenCheck_fresh (fun _ => rfl) hrun hG hs
    (Or.inl hkept) hsocket⟩

end WorkPlatform.SocketSession

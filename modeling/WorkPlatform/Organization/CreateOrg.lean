import WorkPlatform.Machinery.Transaction
import WorkPlatform.Notification.Store
import WorkPlatform.Organization.Calls

/-!
# Organization/CreateOrg — the statements of `createOrg`

    findBySlug ▸ connect ▸ BEGIN organization ▸ workspace ▸ membership ▸ preference × 14
                             │                      ▸ subscription ▸ COMMIT ▸ outbox
                             └── a statement fails ──▸ ROLLBACK

Every statement can fail, be done while the caller is told that it failed, or be the last one
before a crash.  What the transaction has written is its own until COMMIT.  The slug is looked up
before the transaction, on the replica; what keeps two organisations apart is the unique index: an
INSERT of a slug waits for a running transaction that has inserted it (`Allowed`).

Whatever fails, all of the organisation is there or nothing of it (`whole_or_absent`), and no two
live organisations have one slug.
-/

namespace WorkPlatform.Organization.Creation

open Machinery
open Notification (PreferenceRow defaultPreference)

/-! ## Rows -/

/-- A row of `workspaces`, less the columns nothing here reads. -/
structure WorkspaceRow where
  orgId : String
  name : String
  ownerUserId : String
  deriving DecidableEq

inductive SubscriptionStatus
  | active | halted | cancelled | expired | pending
  deriving DecidableEq

/-- A row of `subscriptions`, with its status. -/
structure SubscriptionRow extends Payment.SubscriptionRow where
  status : SubscriptionStatus
  deriving DecidableEq

/-- A row of one of the five tables. -/
inductive Row
  | organization (r : OrgRow)
  | workspace (r : WorkspaceRow)
  | membership (r : MembershipRow)
  | preference (r : PreferenceRow)
  | subscription (r : SubscriptionRow)
  deriving DecidableEq

namespace Row

/-- The organisation the row is or belongs to. -/
def orgId : Row → String
  | organization r => r.id
  | workspace r => r.orgId
  | membership r => r.orgId
  | preference r => r.orgId
  | subscription r => r.orgId

def organization? : Row → Option OrgRow
  | organization r => some r
  | _ => none

def workspace? : Row → Option WorkspaceRow
  | workspace r => some r
  | _ => none

def membership? : Row → Option MembershipRow
  | membership r => some r
  | _ => none

def preference? : Row → Option PreferenceRow
  | preference r => some r
  | _ => none

def subscription? : Row → Option SubscriptionRow
  | subscription r => some r
  | _ => none

end Row

/-- The ids in `users`, and the rows of the five tables. -/
structure Database where
  users : List String
  rows : List Row
  deriving DecidableEq

namespace Database

def organizations (db : Database) : List OrgRow := db.rows.filterMap (·.organization?)

def workspaces (db : Database) : List WorkspaceRow := db.rows.filterMap (·.workspace?)

def memberships (db : Database) : List MembershipRow := db.rows.filterMap (·.membership?)

def preferences (db : Database) : List PreferenceRow := db.rows.filterMap (·.preference?)

def subscriptions (db : Database) : List SubscriptionRow := db.rows.filterMap (·.subscription?)

/-- All rows of an organisation. -/
def ofOrg (db : Database) (orgId : String) : List Row := db.rows.filter (·.orgId = orgId)

def slugs (db : Database) : List String := db.organizations.map (·.slug)

/-- `REFERENCES organizations(id)` and `REFERENCES users(id)`. -/
def Refers (db : Database) (orgId userId : String) : Prop :=
  orgId ∈ db.organizations.map (·.id) ∧ userId ∈ db.users

instance (db : Database) (orgId userId : String) : Decidable (db.Refers orgId userId) :=
  inferInstanceAs (Decidable (_ ∧ _))

end Database

/-! ## Statements -/

/-- `NOTIFICATION_EVENT_TYPES`. -/
def notificationEventTypes : List String :=
  ["task.assigned", "task.updated", "task.status_changed", "task.commented", "task.mentioned",
    "task.due_soon", "message.received", "mention.created", "member.joined", "member.removed",
    "file.quarantined", "org.suspended", "payment.failed", "invitation.created"]

/-- The statements of the transaction. -/
inductive Statement
  | create (id slug : String)
  | insertWorkspace (orgId name userId : String)
  | createMembership (orgId userId : String) (role : Auth.Role)
  | insertPreference (orgId userId eventType : String)
  | insertSubscription (orgId : String)
  deriving DecidableEq

/-- What a statement writes. -/
inductive Write
  | insert (r : Row)
  | rejoin (orgId userId : String) (role : Auth.Role)
  deriving DecidableEq

/-- `DO UPDATE SET role = EXCLUDED.role, status = 'active', deleted_at = NULL`, for one row. -/
def rejoin (orgId userId : String) (role : Auth.Role) : Row → Row
  | .membership m =>
    .membership (if m.isOf orgId userId then { m with role := role, status := .active } else m)
  | r => r

def write (db : Database) : Write → Database
  | .insert r => { db with rows := db.rows ++ [r] }
  | .rejoin orgId userId role => { db with rows := db.rows.map (rejoin orgId userId role) }

/-- A statement is refused where it violates a constraint. -/
def exec (db : Database) : Statement → Option (List Write)
  | .create id slug =>
    if id ∈ db.organizations.map (·.id) ∨ slug ∈ db.slugs then none
    else some [.insert (.organization (newOrg id slug))]
  | .insertWorkspace orgId name userId =>
    if db.Refers orgId userId then some [.insert (.workspace ⟨orgId, name, userId⟩)] else none
  | .createMembership orgId userId role =>
    if db.memberships.any (·.isOf orgId userId) then some [.rejoin orgId userId role]
    else if db.Refers orgId userId then
      some [.insert (.membership ⟨⟨userId, orgId, role, .active⟩, false⟩)]
    else none
  | .insertPreference orgId userId eventType =>
    if db.preferences.any (fun p => p.orgId = orgId ∧ p.userId = userId ∧ p.eventType = eventType)
    then some []
    else if db.Refers orgId userId then
      some [.insert (.preference ⟨orgId, userId, eventType, defaultPreference⟩)]
    else none
  | .insertSubscription orgId =>
    if db.subscriptions.any (·.orgId = orgId) then none
    else if orgId ∈ db.organizations.map (·.id) then
      some [.insert (.subscription ⟨⟨orgId, none, .free⟩, .active⟩)]
    else none

def engine : Engine Database Statement Write := ⟨write, exec⟩

/-! ## Calls -/

/-- `CreateOrgInput` and the user; the time zone and the locale are columns nothing here reads. -/
structure Args where
  userId : String
  name : String
  slug : String
  deriving DecidableEq

/-- The statements after the first, which has returned the id. -/
def Args.statements (a : Args) (id : String) : List Statement :=
  .insertWorkspace id "Default Workspace" a.userId
    :: .createMembership id a.userId .orgOwner
    :: (notificationEventTypes.map (.insertPreference id a.userId) ++ [.insertSubscription id])

/-- `org.created`. -/
structure OrgCreated where
  orgId : String
  name : String
  userId : String
  deriving DecidableEq

/-- The tables on the primary, what the replica shows of the organisations, and the events that were
sent. -/
structure Store where
  primary : Database
  replica : List OrgRow
  outbox : List OrgCreated
  deriving DecidableEq

/-- The statement a call runs next. -/
inductive Pc
  | findBySlug
  | connect
  | start
  | create
  | statement (tx : List Write) (id : String) (s : Statement) (rest : List Statement)
  | commit (tx : List Write) (id : String)
  | rollback
  | outbox (id : String)
  | returned (id : String)
  | threw (e : AppError)
  | failed
  deriving DecidableEq

/-- A call, with the id that was drawn for its organisation on record. -/
structure Call where
  args : Args
  drawn : Option String
  pc : Pc
  deriving DecidableEq

/-- What `gen_random_uuid()` draws, and how the statement goes. -/
structure Draw where
  newId : String
  outcome : Outcome
  deriving DecidableEq

def slugTaken : AppError := .conflict "SLUG_TAKEN" "Organization slug is already in use"

/-- The statement after what the transaction has written. -/
def Pc.going (tx : List Write) (id : String) : List Statement → Pc
  | [] => .commit tx id
  | s :: rest => .statement tx id s rest

def Call.goto (c : Call) (pc : Pc) : Call := { c with pc := pc }

/-- Any statement of the transaction that does not come back with an answer leads to ROLLBACK; the
transaction is then over, whatever becomes of ROLLBACK itself: where that fails the connection is
gone. -/
def next (s : Store) (c : Call) (d : Draw) : Option (Store × Call) :=
  match c.pc with
  | .findBySlug => some (s, c.goto (
      if ¬ d.outcome.answered then .failed
      else if s.replica.any fun org => org.slug = c.args.slug ∧ ¬ org.deleted then .threw slugTaken
      else .connect))
  | .connect => some (s, c.goto (if d.outcome.answered then .start else .failed))
  | .start => some (s, c.goto (if d.outcome.answered then .create else .rollback))
  | .create => some (s,
      match engine.statement s.primary [] (.create d.newId c.args.slug) with
      | some tx =>
        Call.goto { c with drawn := some d.newId }
          (if d.outcome.answered then .going tx d.newId (c.args.statements d.newId) else .rollback)
      | none => c.goto .rollback)
  | .statement tx id stmt rest => some (s,
      match engine.statement s.primary tx stmt with
      | some tx' => c.goto (if d.outcome.answered then .going tx' id rest else .rollback)
      | none => c.goto .rollback)
  | .commit tx id => some
      (if d.outcome.took then { s with primary := engine.view s.primary tx } else s,
        c.goto (if d.outcome.answered then .outbox id else .rollback))
  | .rollback => some (s, c.goto .failed)
  | .outbox id => some
      (if d.outcome.took then
        { s with outbox := ⟨id, c.args.name, c.args.userId⟩ :: s.outbox } else s,
        c.goto (if d.outcome.answered then .returned id else .failed))
  | .returned _ | .threw _ | .failed => none

/-- The replica catches up, or someone else commits. -/
inductive Env
  | replicate
  | commit (db : Database)

def env (s : Store) : Env → Store
  | .replicate => { s with replica := s.primary.organizations }
  | .commit db => { s with primary := db }

def machine : Machine Store Call Draw Env := ⟨next, env⟩

/-- Calls of `createOrg`. -/
abbrev Calls (ι : Type*) := Pool ι Store Call

/-- The slug that the transaction of a call has inserted. -/
def Call.holds (c : Call) : Option String :=
  match c.pc with
  | .statement _ _ _ _ | .commit _ _ => some c.args.slug
  | _ => none

variable {ι : Type*}

/-- **What is assumed of PostgreSQL and of everyone else.**  `gen_random_uuid()` draws new ids.  An
INSERT of a slug waits for the end of a running transaction that has inserted it.  Others commit
under the same index, and leave alone the organisations of these calls. -/
def Allowed (p : Calls ι) : Move ι Draw Env → Prop
  | .run i d => (p.calls i).Keeps fun c => c.pc = .create →
      (p.store.primary.ofOrg d.newId = [] ∧ ∀ j, (p.calls j).at'.drawn ≠ some d.newId)
      ∧ ∀ j, ¬ (p.calls j).Live (·.holds = some c.args.slug)
  | .env (.commit db) => db.slugs.Nodup
      ∧ ∀ i, ((p.calls i).Keeps fun c => ∀ slug ∈ c.holds, slug ∉ db.slugs)
        ∧ ∀ id ∈ (p.calls i).at'.drawn, db.ofOrg id = p.store.primary.ofOrg id
  | _ => True

/-! ## What a statement of a call does -/

/-- The cases of `next`. -/
inductive Does (s : Store) (c : Call) (d : Draw) : Store → Call → Prop
  | before {pc : Pc} (h : c.pc ∈ [.findBySlug, .connect, .start])
      (hpc : pc ∈ [.connect, .start, .create, .rollback, .failed, .threw slugTaken]) :
      Does s c d s (c.goto pc)
  | refused (h : c.pc = .create) : Does s c d s (c.goto .rollback)
  | created {tx : List Write} {pc : Pc} (h : c.pc = .create)
      (htx : engine.statement s.primary [] (.create d.newId c.args.slug) = some tx)
      (hpc : pc ∈ [.going tx d.newId (c.args.statements d.newId), .rollback]) :
      Does s c d s (Call.goto { c with drawn := some d.newId } pc)
  | wrote {tx tx' : List Write} {id : String} {stmt : Statement} {rest : List Statement}
      (h : c.pc = .statement tx id stmt rest)
      (htx : engine.statement s.primary tx stmt = some tx') :
      Does s c d s (c.goto (.going tx' id rest))
  | failed {tx : List Write} {id : String} {stmt : Statement} {rest : List Statement}
      (h : c.pc = .statement tx id stmt rest) : Does s c d s (c.goto .rollback)
  | discarded {tx : List Write} {id : String} (h : c.pc = .commit tx id) :
      Does s c d s (c.goto .rollback)
  | committed {tx : List Write} {id : String} {pc : Pc} (h : c.pc = .commit tx id)
      (hpc : pc ∈ [.outbox id, .rollback]) :
      Does s c d { s with primary := engine.view s.primary tx } (c.goto pc)
  | rolledBack (h : c.pc = .rollback) : Does s c d s (c.goto .failed)
  | sent {id : String} {pc : Pc} (outbox : List OrgCreated) (h : c.pc = .outbox id)
      (hpc : pc ∈ [.returned id, .failed]) : Does s c d { s with outbox := outbox } (c.goto pc)

/-- What each statement of `createOrg` does. -/
theorem does_of_next {s s' : Store} {c c' : Call} {d : Draw} (h : next s c d = some (s', c')) :
    Does s c d s' c' := by
  unfold next at h
  split at h
  case h_1 hpc =>
    obtain ⟨rfl, rfl⟩ := Prod.mk.inj (Option.some.inj h)
    exact .before (by simp [hpc]) (by split_ifs <;> simp)
  case h_2 hpc =>
    obtain ⟨rfl, rfl⟩ := Prod.mk.inj (Option.some.inj h)
    exact .before (by simp [hpc]) (by split_ifs <;> simp)
  case h_3 hpc =>
    obtain ⟨rfl, rfl⟩ := Prod.mk.inj (Option.some.inj h)
    exact .before (by simp [hpc]) (by split_ifs <;> simp)
  case h_4 hpc =>
    obtain ⟨rfl, rfl⟩ := Prod.mk.inj (Option.some.inj h)
    split
    case h_1 htx => exact .created hpc htx (by split_ifs <;> simp)
    case h_2 => exact .refused hpc
  case h_5 hpc =>
    obtain ⟨rfl, rfl⟩ := Prod.mk.inj (Option.some.inj h)
    split
    case h_1 htx =>
      split_ifs
      · exact .wrote hpc htx
      · exact .failed hpc
    case h_2 => exact .failed hpc
  case h_6 hpc =>
    obtain ⟨rfl, rfl⟩ := Prod.mk.inj (Option.some.inj h)
    cases d.outcome
    · exact .committed hpc List.mem_cons_self
    · exact .committed hpc (List.mem_cons_of_mem _ List.mem_cons_self)
    · exact .discarded hpc
  case h_7 hpc =>
    obtain ⟨rfl, rfl⟩ := Prod.mk.inj (Option.some.inj h)
    exact .rolledBack hpc
  case h_8 hpc =>
    obtain ⟨rfl, rfl⟩ := Prod.mk.inj (Option.some.inj h)
    cases d.outcome
    · exact .sent _ hpc List.mem_cons_self
    · exact .sent _ hpc (List.mem_cons_of_mem _ List.mem_cons_self)
    · exact .sent s.outbox hpc (List.mem_cons_of_mem _ List.mem_cons_self)
  all_goals cases h

/-! ## What a transaction has written -/

/-- The row that a statement inserts where it meets no conflict. -/
def Statement.row : Statement → Row
  | create id slug => .organization (newOrg id slug)
  | insertWorkspace orgId name userId => .workspace ⟨orgId, name, userId⟩
  | createMembership orgId userId role => .membership ⟨⟨userId, orgId, role, .active⟩, false⟩
  | insertPreference orgId userId eventType =>
    .preference ⟨orgId, userId, eventType, defaultPreference⟩
  | insertSubscription orgId => .subscription ⟨⟨orgId, none, .free⟩, .active⟩

def Statement.insertion (stmt : Statement) : Write := .insert stmt.row

/-- All statements of the transaction. -/
def Args.script (a : Args) (id : String) : List Statement := .create id a.slug :: a.statements id

/-- The rows of the organisation. -/
def Args.rows (a : Args) (id : String) : List Row := (a.script id).map Statement.row

section Script

variable {db : Database} {a : Args} {id : String} {stmt stmt' : Statement}
  {done rest : List Statement} {tx : List Write}

/-- The statements of one creation, one by one. -/
theorem script_cases (h : stmt ∈ a.script id) : stmt = .create id a.slug
    ∨ stmt = .insertWorkspace id "Default Workspace" a.userId
    ∨ stmt = .createMembership id a.userId .orgOwner
    ∨ (∃ eventType, stmt = .insertPreference id a.userId eventType)
    ∨ stmt = .insertSubscription id := by
  simp only [Args.script, Args.statements, List.mem_cons, List.mem_append, List.mem_map,
    List.not_mem_nil, or_false] at h
  rcases h with rfl | rfl | rfl | ⟨eventType, -, rfl⟩ | rfl
  · exact Or.inl rfl
  · exact Or.inr (Or.inl rfl)
  · exact Or.inr (Or.inr (Or.inl rfl))
  · exact Or.inr (Or.inr (Or.inr (Or.inl ⟨eventType, rfl⟩)))
  · exact Or.inr (Or.inr (Or.inr (Or.inr rfl)))

/-- No statement is run twice. -/
theorem script_nodup (a : Args) (id : String) : (a.script id).Nodup := by
  have htypes : (notificationEventTypes.map (Statement.insertPreference id a.userId)).Nodup :=
    List.Nodup.map (fun _ _ h => (Statement.insertPreference.inj h).2.2) (by decide)
  have hlast : Statement.insertSubscription id
      ∉ notificationEventTypes.map (Statement.insertPreference id a.userId) := by
    simp
  simpa [Args.script, Args.statements] using htypes.append (List.nodup_singleton _)
    (List.disjoint_singleton.mpr hlast)

theorem row_orgId (h : stmt ∈ a.script id) : stmt.row.orgId = id := by
  rcases script_cases h with rfl | rfl | rfl | ⟨eventType, rfl⟩ | rfl <;> rfl

/-- The transaction sees the rows it has written. -/
theorem view_rows (db : Database) (done : List Statement) :
    (engine.view db (done.map Statement.insertion)).rows = db.rows ++ done.map Statement.row := by
  have hwrite : ∀ w ∈ done.map Statement.insertion, ∀ s : Database, (engine.write s w).rows
      = s.rows ++ match w with | .insert r => [r] | .rejoin _ _ _ => [] := by
    intro w hw s
    obtain ⟨stmt, -, rfl⟩ := List.mem_map.mp hw
    rfl
  have hadded := Engine.view_added (E := engine) (s := db) (f := Database.rows) hwrite
  rw [hadded, List.flatMap_map]
  exact congrArg (db.rows ++ ·) List.map_eq_flatMap.symm

/-- Where the organisation has no rows yet, a row that a statement could meet is one that the
transaction has inserted. -/
theorem mem_done (hnone : db.ofOrg id = [])
    {r : Row} (hr : r ∈ (engine.view db (done.map Statement.insertion)).rows) (horg : r.orgId = id) :
    ∃ stmt ∈ done, stmt.row = r := by
  rw [view_rows] at hr
  rcases List.mem_append.mp hr with hold | hnew
  · have hmem : r ∈ db.ofOrg id := List.mem_filter.mpr ⟨hold, decide_eq_true horg⟩
    rw [hnone] at hmem
    cases hmem
  · exact List.mem_map.mp hnew

/-- The same, of the rows of one table. -/
theorem mem_done_of_table {β : Type} {f : Row → Option β} (hnone : db.ofOrg id = []) {x : β}
    (horg : ∀ r, f r = some x → r.orgId = id)
    (hx : x ∈ (engine.view db (done.map Statement.insertion)).rows.filterMap f) :
    ∃ stmt ∈ done, f stmt.row = some x := by
  obtain ⟨r, hr, hrow⟩ := List.mem_filterMap.mp hx
  obtain ⟨stmt, hstmt, rfl⟩ := mem_done hnone hr (horg r hrow)
  exact ⟨stmt, hstmt, hrow⟩

/-- A statement meets no conflict where the only row of the transaction that it could meet is its
own. -/
theorem no_conflict {β : Type} {f : Row → Option β} {p : β → Bool} (hnone : db.ofOrg id = [])
    (hscript : a.script id = done ++ stmt :: rest)
    (horg : ∀ r x, f r = some x → p x = true → r.orgId = id)
    (hown : ∀ stmt' ∈ a.script id, ∀ x, f stmt'.row = some x → p x = true → stmt' = stmt) :
    ((engine.view db (done.map Statement.insertion)).rows.filterMap f).any p = false := by
  refine List.any_eq_false.mpr fun x hx hp => ?_
  obtain ⟨stmt', hmem, hrow⟩ := mem_done_of_table hnone (fun r hr => horg r x hr hp) hx
  have hstmt' : stmt' ∈ a.script id := by simp [hscript, hmem]
  obtain rfl := hown stmt' hstmt' x hrow hp
  have hnodup := script_nodup a id
  rw [hscript] at hnodup
  exact (List.nodup_append.mp hnodup).2.2 _ hmem _ List.mem_cons_self rfl

/-- **A statement that is not refused inserts its row**: no other statement of the transaction
inserts a row in its place. -/
theorem exec_eq (hnone : db.ofOrg id = []) (hscript : a.script id = done ++ stmt :: rest)
    {ws : List Write}
    (h : exec (engine.view db (done.map Statement.insertion)) stmt = some ws) :
    ws = [stmt.insertion] := by
  have hstmt : stmt ∈ a.script id := by simp [hscript]
  rcases script_cases hstmt with rfl | rfl | rfl | ⟨eventType, rfl⟩ | rfl
  · obtain ⟨-, hws⟩ := Option.ite_none_left_eq_some.mp h
    exact (Option.some.inj hws).symm
  · obtain ⟨-, hws⟩ := Option.ite_none_right_eq_some.mp h
    exact (Option.some.inj hws).symm
  · have hfree : (engine.view db (done.map Statement.insertion)).memberships.any
        (·.isOf id a.userId) = false := by
      refine no_conflict hnone hscript (fun r m hr hof => ?_) fun stmt' hstmt' m hrow _ => ?_
      · cases r <;> cases hr
        exact (of_decide_eq_true hof).1
      · rcases script_cases hstmt' with rfl | rfl | rfl | ⟨_, rfl⟩ | rfl
        case inr.inr.inl => rfl
        all_goals cases hrow
    rw [exec, if_neg (ne_true_of_eq_false hfree)] at h
    obtain ⟨-, hws⟩ := Option.ite_none_right_eq_some.mp h
    exact (Option.some.inj hws).symm
  · have hfree : (engine.view db (done.map Statement.insertion)).preferences.any
        (fun p => p.orgId = id ∧ p.userId = a.userId ∧ p.eventType = eventType) = false := by
      refine no_conflict hnone hscript (fun r p hr hof => ?_) fun stmt' hstmt' p hrow hof => ?_
      · cases r <;> cases hr
        exact (of_decide_eq_true hof).1
      · obtain ⟨-, -, htype⟩ := of_decide_eq_true hof
        rcases script_cases hstmt' with rfl | rfl | rfl | ⟨_, rfl⟩ | rfl
        case inr.inr.inr.inl =>
          cases hrow
          cases htype
          rfl
        all_goals cases hrow
    rw [exec, if_neg (ne_true_of_eq_false hfree)] at h
    obtain ⟨-, hws⟩ := Option.ite_none_right_eq_some.mp h
    exact (Option.some.inj hws).symm
  · obtain ⟨-, hnew⟩ := Option.ite_none_left_eq_some.mp h
    obtain ⟨-, hws⟩ := Option.ite_none_right_eq_some.mp hnew
    exact (Option.some.inj hws).symm

theorem statement_eq (hnone : db.ofOrg id = []) (hscript : a.script id = done ++ stmt :: rest)
    (h : engine.statement db (done.map Statement.insertion) stmt = some tx) :
    tx = (done ++ [stmt]).map Statement.insertion := by
  obtain ⟨ws, hexec, rfl⟩ := Engine.statement_eq_some h
  rw [exec_eq hnone hscript hexec, List.map_append]
  rfl

/-! ### COMMIT -/

/-- The rows of an organisation can be picked before or after the table is. -/
theorem filter_filterMap {β : Type} {f : Row → Option β} {g : β → String}
    (hg : ∀ r x, f r = some x → g x = r.orgId) (rows : List Row) (id : String) :
    (rows.filterMap f).filter (fun x => g x = id) = (rows.filter (·.orgId = id)).filterMap f := by
  induction rows with
  | nil => rfl
  | cons r rows ih =>
    cases hf : f r with
    | none =>
      rw [List.filterMap_cons_none hf, ih, List.filter_cons]
      split
      · rw [List.filterMap_cons_none hf]
      · rfl
    | some x =>
      rw [List.filterMap_cons_some hf, List.filter_cons, List.filter_cons, ih, hg r x hf]
      split
      · rw [List.filterMap_cons_some hf]
      · rfl

/-- The database after COMMIT. -/
def Database.add (db : Database) (rows : List Row) : Database := { db with rows := db.rows ++ rows }

/-- The script adds the rows of the new organisation. -/
theorem view_script (db : Database) (a : Args) (id : String) :
    engine.view db ((a.script id).map Statement.insertion) = db.add (a.rows id) := by
  have husers : (engine.view db ((a.script id).map Statement.insertion)).users = db.users :=
    Engine.view_frame (f := Database.users) fun w hw s => by
      obtain ⟨stmt, -, rfl⟩ := List.mem_map.mp hw
      rfl
  have hrows := view_rows db (a.script id)
  cases hview : engine.view db ((a.script id).map Statement.insertion)
  rw [hview] at husers hrows
  cases husers
  cases hrows
  rfl

theorem ofOrg_add_self (hnone : db.ofOrg id = []) : (db.add (a.rows id)).ofOrg id = a.rows id := by
  unfold Database.ofOrg Database.add at *
  rw [List.filter_append, hnone, List.nil_append, List.filter_eq_self]
  intro r hr
  obtain ⟨stmt, hstmt, rfl⟩ := List.mem_map.mp hr
  exact decide_eq_true (row_orgId hstmt)

theorem ofOrg_add_of_ne {id' : String} (hne : id' ≠ id) :
    (db.add (a.rows id)).ofOrg id' = db.ofOrg id' := by
  have hother : (a.rows id).filter (·.orgId = id') = [] := by
    refine List.filter_eq_nil_iff.mpr fun r hr horg => ?_
    obtain ⟨stmt, hstmt, rfl⟩ := List.mem_map.mp hr
    exact hne ((of_decide_eq_true horg).symm.trans (row_orgId hstmt))
  unfold Database.ofOrg Database.add
  rw [List.filter_append, hother, List.append_nil]

theorem slugs_add : (db.add (a.rows id)).slugs = db.slugs ++ [a.slug] := by
  unfold Database.slugs Database.organizations Database.add
  rw [List.filterMap_append, List.map_append]
  rfl

/-- **COMMIT is the one step of the transaction**, of organisations and members. -/
theorem add_eq_createOrg {t : Tables} (horgs : t.orgs.Perm db.organizations)
    (hmemberships : t.memberships.Perm db.memberships)
    (hid : id ∉ t.orgs.map (·.id)) (hslug : a.slug ∉ t.orgs.map (·.slug)) :
    ∃ t', t.createOrg (newOrg id a.slug) a.userId = some t'
      ∧ t'.orgs.Perm (db.add (a.rows id)).organizations
      ∧ t'.memberships.Perm (db.add (a.rows id)).memberships := by
  refine ⟨_, dif_pos ⟨hid, hslug⟩, ?_, ?_⟩
  · unfold Database.organizations Database.add
    rw [List.filterMap_append]
    exact (horgs.cons _).trans (List.perm_append_singleton _ _).symm
  · unfold Database.memberships Database.add
    rw [List.filterMap_append]
    exact (hmemberships.cons _).trans (List.perm_append_singleton _ _).symm

end Script

/-! ## All or nothing -/

/-- All of the organisation is there, and of what `createOrg` creates nothing twice. -/
structure Whole (db : Database) (a : Args) (id : String) : Prop where
  organization : db.organizations.filter (·.id = id) = [newOrg id a.slug]
  workspace : db.workspaces.filter (·.orgId = id) = [⟨id, "Default Workspace", a.userId⟩]
  owner : db.memberships.filter (·.orgId = id) = [⟨⟨a.userId, id, .orgOwner, .active⟩, false⟩]
  preferences : db.preferences.filter (·.orgId = id)
    = notificationEventTypes.map fun eventType => ⟨id, a.userId, eventType, defaultPreference⟩
  subscription : db.subscriptions.filter (·.orgId = id) = [⟨⟨id, none, .free⟩, .active⟩]

/-- An organisation with all its rows is whole. -/
theorem whole_of_rows {db : Database} {a : Args} {id : String} (h : db.ofOrg id = a.rows id) :
    Whole db a id := by
  have htable : ∀ {β : Type} {f : Row → Option β} {g : β → String},
      (∀ r x, f r = some x → g x = r.orgId) →
        (db.rows.filterMap f).filter (fun x => g x = id) = (a.rows id).filterMap f := by
    intro β f g hg
    rw [filter_filterMap hg, ← h]
    rfl
  refine ⟨?_, ?_, ?_, ?_, ?_⟩
  · exact htable (g := OrgRow.id) (by rintro (r | r | r | r | r) x ⟨⟩; rfl)
  · exact htable (g := WorkspaceRow.orgId) (by rintro (r | r | r | r | r) x ⟨⟩; rfl)
  · exact htable (g := fun (m : MembershipRow) => m.orgId) (by rintro (r | r | r | r | r) x ⟨⟩; rfl)
  · exact htable (g := PreferenceRow.orgId) (by rintro (r | r | r | r | r) x ⟨⟩; rfl)
  · exact htable (g := fun (r : SubscriptionRow) => r.orgId) (by rintro (r | r | r | r | r) x ⟨⟩; rfl)

/-- What is there of the organisation of a call, and what its transaction has written. -/
def Call.Known (db : Database) (c : Call) : Prop :=
  match c.pc with
  | .findBySlug | .connect | .start | .create | .threw _ => c.drawn = none
  | .statement tx id stmt rest => c.drawn = some id ∧ db.ofOrg id = []
      ∧ ∃ done, c.args.script id = done ++ stmt :: rest ∧ tx = done.map Statement.insertion
  | .commit tx id => c.drawn = some id ∧ db.ofOrg id = []
      ∧ tx = (c.args.script id).map Statement.insertion
  | .outbox id | .returned id => c.drawn = some id ∧ db.ofOrg id = c.args.rows id
  | .rollback | .failed => ∀ id ∈ c.drawn, db.ofOrg id = [] ∨ db.ofOrg id = c.args.rows id

section Steps

variable {s s' : Store} {c c' : Call} {d : Draw} {db db' : Database}

/-- Of the id that a call drew there is nothing, or all its rows. -/
theorem Call.Known.drawn_cases (h : c.Known db) :
    ∀ id ∈ c.drawn, db.ofOrg id = [] ∨ db.ofOrg id = c.args.rows id := by
  obtain ⟨a, drawn, pc⟩ := c
  intro id hid
  cases pc with
  | findBySlug | connect | start | create | threw =>
    rw [show drawn = none from h] at hid
    cases hid
  | statement | commit =>
    obtain ⟨hdrawn, hnone, -⟩ := h
    obtain rfl := Option.some.inj (hid.symm.trans hdrawn)
    exact Or.inl hnone
  | outbox | returned =>
    obtain ⟨hdrawn, hrows⟩ := h
    obtain rfl := Option.some.inj (hid.symm.trans hdrawn)
    exact Or.inr hrows
  | rollback | failed => exact h id hid

/-- What a call knows depends on the rows of its own organisation only. -/
theorem Call.Known.congr (h : c.Known db) (hdb : ∀ id ∈ c.drawn, db'.ofOrg id = db.ofOrg id) :
    c.Known db' := by
  obtain ⟨a, drawn, pc⟩ := c
  cases pc with
  | findBySlug | connect | start | create | threw => exact h
  | statement | commit | outbox | returned =>
    obtain ⟨hdrawn, hrest⟩ := h
    refine ⟨hdrawn, ?_⟩
    rw [hdb _ hdrawn]
    exact hrest
  | rollback | failed =>
    intro id hid
    rw [hdb id hid]
    exact h id hid

theorem known_going {a : Args} {id : String} {done rest : List Statement}
    (hnone : db.ofOrg id = []) (hscript : a.script id = done ++ rest) :
    Call.Known db ⟨a, some id, .going (done.map Statement.insertion) id rest⟩ := by
  cases rest with
  | nil =>
    rw [List.append_nil] at hscript
    exact ⟨rfl, hnone, by rw [hscript]⟩
  | cons stmt rest => exact ⟨rfl, hnone, done, hscript, rfl⟩

/-- **One statement**: what is committed stays as it is, or all rows of the organisation are
added. -/
theorem known_next (h : Does s c d s' c') (hc : c.Known s.primary)
    (hnew : c.pc = .create → s.primary.ofOrg d.newId = []) :
    c'.Known s'.primary ∧ (s'.primary = s.primary
      ∨ ∃ id, c.drawn = some id ∧ s'.primary = s.primary.add (c.args.rows id)) := by
  obtain ⟨a, drawn, pc⟩ := c
  cases h with
  | before hpc hpc' =>
    have hdrawn : drawn = none := by
      simp only [List.mem_cons, List.not_mem_nil, or_false] at hpc
      rcases hpc with rfl | rfl | rfl <;> exact hc
    subst hdrawn
    refine ⟨?_, Or.inl rfl⟩
    simp only [List.mem_cons, List.not_mem_nil, or_false] at hpc'
    rcases hpc' with rfl | rfl | rfl | rfl | rfl | rfl
    case inr.inr.inr.inl | inr.inr.inr.inr.inl => exact fun id hid => by cases hid
    all_goals exact rfl
  | refused hpc =>
    cases hpc
    refine ⟨fun id hid => ?_, Or.inl rfl⟩
    rw [show drawn = none from hc] at hid
    cases hid
  | created hpc htx hpc' =>
    cases hpc
    have hnone := hnew rfl
    have hscript : a.script d.newId = [] ++ a.script d.newId := rfl
    obtain rfl := statement_eq hnone hscript htx
    refine ⟨?_, Or.inl rfl⟩
    rcases List.mem_pair.mp hpc' with rfl | rfl
    · exact known_going hnone rfl
    · intro id hid
      obtain rfl := Option.some.inj hid
      exact Or.inl hnone
  | wrote hpc htx =>
    cases hpc
    obtain ⟨rfl, hnone, done, hscript, rfl⟩ := hc
    obtain rfl := statement_eq hnone hscript htx
    refine ⟨known_going hnone ?_, Or.inl rfl⟩
    rw [hscript, List.append_assoc]
    rfl
  | failed hpc =>
    cases hpc
    exact ⟨hc.drawn_cases, Or.inl rfl⟩
  | discarded hpc =>
    cases hpc
    exact ⟨hc.drawn_cases, Or.inl rfl⟩
  | @committed tx id pc' hpc hpc' =>
    cases hpc
    obtain ⟨rfl, hnone, htx⟩ := hc
    rw [htx, view_script]
    refine ⟨?_, Or.inr ⟨id, rfl, rfl⟩⟩
    have hrows := ofOrg_add_self (a := a) hnone
    rcases List.mem_pair.mp hpc' with rfl | rfl
    · exact ⟨rfl, hrows⟩
    · intro id' hid
      obtain rfl := Option.some.inj hid
      exact Or.inr hrows
  | rolledBack hpc =>
    cases hpc
    exact ⟨hc, Or.inl rfl⟩
  | sent outbox hpc hpc' =>
    cases hpc
    refine ⟨?_, Or.inl rfl⟩
    rcases List.mem_pair.mp hpc' with rfl | rfl
    · exact hc
    · exact hc.drawn_cases

/-- An id is drawn once. -/
theorem drawn_next (h : Does s c d s' c') :
    c'.drawn = c.drawn ∨ c.pc = .create ∧ c'.drawn = some d.newId := by
  cases h with
  | created hpc => exact Or.inr ⟨hpc, rfl⟩
  | _ => exact Or.inl rfl

theorem holds_going {a : Args} {id : String} {tx : List Write} {rest : List Statement}
    {drawn : Option String} : Call.holds ⟨a, drawn, .going tx id rest⟩ = some a.slug := by
  cases rest <;> rfl

/-- A slug is inserted where no organisation has it. -/
theorem holds_next (h : Does s c d s' c') {slug : String} (hslug : c'.holds = some slug) :
    c.holds = some slug ∨ c.pc = .create ∧ slug = c.args.slug ∧ slug ∉ s.primary.slugs := by
  obtain ⟨a, drawn, pc⟩ := c
  cases h with
  | before _ hpc' =>
    simp only [List.mem_cons, List.not_mem_nil, or_false] at hpc'
    rcases hpc' with rfl | rfl | rfl | rfl | rfl | rfl <;> cases hslug
  | created hpc htx hpc' =>
    cases hpc
    obtain ⟨ws, hexec, -⟩ := Engine.statement_eq_some htx
    obtain ⟨hfree, -⟩ := Option.ite_none_left_eq_some.mp hexec
    rcases List.mem_pair.mp hpc' with rfl | rfl
    · obtain rfl := Option.some.inj (hslug.symm.trans holds_going)
      exact Or.inr ⟨rfl, rfl, fun hmem => hfree (Or.inr hmem)⟩
    · cases hslug
  | wrote hpc =>
    cases hpc
    exact Or.inl (holds_going.symm.trans hslug)
  | committed _ hpc' | sent _ _ hpc' =>
    rcases List.mem_pair.mp hpc' with rfl | rfl <;> cases hslug
  | refused | failed | discarded | rolledBack => cases hslug

/-- COMMIT adds the slug that the transaction has inserted, and the call holds none after it. -/
theorem slugs_next (h : Does s c d s' c') (hc : c.Known s.primary) :
    s'.primary.slugs = s.primary.slugs
      ∨ c.holds = some c.args.slug ∧ c'.holds = none
        ∧ s'.primary.slugs = s.primary.slugs ++ [c.args.slug] := by
  obtain ⟨a, drawn, pc⟩ := c
  cases h with
  | committed hpc hpc' =>
    cases hpc
    obtain ⟨-, -, htx⟩ := hc
    rw [htx, view_script]
    refine Or.inr ⟨rfl, ?_, slugs_add⟩
    rcases List.mem_pair.mp hpc' with rfl | rfl <;> rfl
  | _ => exact Or.inl rfl

end Steps

/-! ### Calls side by side -/

/-- The two have drawn different ids. -/
def Apart (x y : Proc Call) : Prop := ∀ id ∈ x.at'.drawn, y.at'.drawn ≠ some id

/-- No two running transactions have inserted one slug. -/
def Waits (x y : Proc Call) : Prop :=
  ∀ slug, x.Live (·.holds = some slug) → ¬ y.Live (·.holds = some slug)

theorem Apart.symm {x y : Proc Call} (h : Apart x y) : Apart y x :=
  fun id hy hx => h id hx hy

theorem Waits.symm {x y : Proc Call} (h : Waits x y) : Waits y x :=
  fun slug hy hx => h slug hx hy

/-- **The invariant**, of what is committed and of the calls. -/
structure Sound (db : Database) (calls : ι → Proc Call) : Prop where
  slugs : db.slugs.Nodup
  known : ∀ i, (calls i).at'.Known db
  apart : ∀ i j, i ≠ j → Apart (calls i) (calls j)
  free : ∀ i, (calls i).Keeps fun c => ∀ slug ∈ c.holds, slug ∉ db.slugs
  waits : ∀ i j, i ≠ j → Waits (calls i) (calls j)

section Runs

variable {p q : Calls ι} {calls : ι → Proc Call} {s s' : Store} {i : ι} {c c' : Call} {d : Draw}

/-- What is committed of another call's organisation stays. -/
theorem Sound.ofOrg_next {j : ι} (hI : Sound s.primary calls) (hj : j ≠ i)
    (hi : calls i = .up c) (h : Does s c d s' c')
    (hnew : c.pc = .create → s.primary.ofOrg d.newId = []) :
    ∀ id ∈ (calls j).at'.drawn, s'.primary.ofOrg id = s.primary.ofOrg id := by
  intro id hid
  have hc := hI.known i
  have hapart := hI.apart j i hj id hid
  rw [hi] at hc hapart
  rcases (known_next h hc hnew).2 with hsame | ⟨id', hid', hadd⟩
  · rw [hsame]
  · rw [hadd]
    refine ofOrg_add_of_ne ?_
    rintro rfl
    exact hapart hid'

variable [DecidableEq ι]

/-- **One statement of a call.** -/
theorem Sound.next (hI : Sound s.primary calls) (hi : calls i = .up c) (h : Does s c d s' c')
    (hG : c.pc = .create →
      (s.primary.ofOrg d.newId = [] ∧ ∀ j, (calls j).at'.drawn ≠ some d.newId)
        ∧ ∀ j, ¬ (calls j).Live (·.holds = some c.args.slug)) :
    Sound s'.primary (Function.update calls i (.up c')) := by
  have hnew : c.pc = .create → s.primary.ofOrg d.newId = [] := fun hpc => (hG hpc).1.1
  have hc := hI.known i
  have hfree := hI.free i
  rw [hi] at hc hfree
  have hslugs := slugs_next h hc
  refine ⟨?_, ?_, pairwise_update Apart.symm hI.apart fun j hj id hid => ?_, ?_,
    pairwise_update Waits.symm hI.waits fun j hj slug hslug => ?_⟩
  · rcases hslugs with hsame | ⟨hholds, -, hadd⟩
    · rw [hsame]
      exact hI.slugs
    · rw [hadd]
      exact hI.slugs.append (List.nodup_singleton _)
        (List.disjoint_singleton.mpr (hfree _ hholds))
  · refine (Function.forall_update_iff calls fun _ x => x.at'.Known s'.primary).mpr
      ⟨(known_next h hc hnew).1, fun j hj => ?_⟩
    exact (hI.known j).congr (hI.ofOrg_next hj hi h hnew)
  · rcases drawn_next h with hold | ⟨hpc, hdrawn⟩
    · have hapart := hI.apart i j hj.symm id
      rw [hi] at hapart
      exact hapart (hold.symm.trans hid)
    · obtain rfl := Option.some.inj (hdrawn.symm.trans hid)
      exact (hG hpc).1.2 j
  · refine keeps_update_up (fun slug hslug => ?_) fun j hj => ?_
    · rcases hslugs with hsame | ⟨-, hnone, -⟩
      · rw [hsame]
        rcases holds_next h hslug with hold | ⟨-, -, hfresh⟩
        · exact hfree slug hold
        · exact hfresh
      · cases hnone.symm.trans hslug
    · have hother := hI.free j
      have hwaits := hI.waits i j hj.symm
      rw [hi] at hwaits
      rcases hcall : calls j with k | k
      · rw [hcall] at hother hwaits
        intro slug hslug
        rcases hslugs with hsame | ⟨hholds, -, hadd⟩
        · rw [hsame]
          exact hother slug hslug
        · rw [hadd, List.mem_append, List.mem_singleton]
          rintro (hold | rfl)
          · exact hother slug hslug hold
          · exact hwaits _ hholds hslug
      · trivial
  · rcases holds_next h hslug with hold | ⟨hpc, rfl, -⟩
    · have hwaits := hI.waits i j hj.symm slug
      rw [hi] at hwaits
      exact hwaits hold
    · exact (hG hpc).2 j

/-- A call that stops keeps the invariant. -/
theorem Sound.crash (hI : Sound s.primary calls) (hi : calls i = .up c) :
    Sound s.primary (Function.update calls i (.down c)) := by
  refine ⟨hI.slugs, fun j => ?_, fun j k hjk id => ?_, fun j => keeps_update_down_of (hI.free j),
    pairwise_update Waits.symm hI.waits fun j _ slug h => ?_⟩
  · rw [at'_update_down hi]
    exact hI.known j
  · rw [at'_update_down hi, at'_update_down hi]
    exact hI.apart j k hjk id
  · cases h

omit [DecidableEq ι] in
theorem Sound.env {e : Env} (hI : Sound p.store.primary p.calls) (hG : Allowed p (.env e)) :
    Sound (env p.store e).primary p.calls := by
  cases e with
  | replicate => exact hI
  | commit db =>
    obtain ⟨hslugs, hkeeps⟩ := hG
    exact ⟨hslugs, fun i => (hI.known i).congr (hkeeps i).2, hI.apart, fun i => (hkeeps i).1,
      hI.waits⟩

theorem sound_of_run (h₀ : Sound p.store.primary p.calls)
    (h : Run (Pool.step machine) Allowed p q) : Sound q.store.primary q.calls := by
  refine Pool.invariant (I := fun p => Sound p.store.primary p.calls) h₀ ?_ ?_ ?_ h
  · intro p i d c s' c' hI hG hi hn
    rw [Allowed, hi] at hG
    exact hI.next hi (does_of_next hn) hG
  · exact fun p i c hI _ hi => hI.crash hi
  · exact fun p e hI hG => hI.env hG

/-- No call has begun, and the index holds. -/
structure Fresh (p : Calls ι) : Prop where
  calls : ∀ i, ∃ a, p.calls i = .up ⟨a, none, .findBySlug⟩
  slugs : p.store.primary.slugs.Nodup

omit [DecidableEq ι] in
/-- Before the first statement the invariant holds. -/
theorem Fresh.sound (h : Fresh p) : Sound p.store.primary p.calls := by
  refine ⟨h.slugs, fun i => ?_, fun i j _ id hid => ?_, fun i => ?_, fun i j _ slug hlive => ?_⟩
  all_goals obtain ⟨a, hi⟩ := h.calls i
  · rw [hi]
    exact rfl
  · rw [hi] at hid
    cases hid
  · rw [hi]
    intro slug hslug
    cases hslug
  · rw [hi] at hlive
    cases hlive

/-- A unique slug is the slug of one organisation at most. -/
theorem length_filter_slug {db : Database} (h : db.slugs.Nodup) (slug : String) :
    (db.organizations.filter fun org => org.slug = slug ∧ ¬ org.deleted).length ≤ 1 := by
  have hnodup : ((db.organizations.filter fun org => org.slug = slug ∧ ¬ org.deleted).map
      (·.slug)).Nodup := h.sublist (List.filter_sublist.map _)
  have hall : ∀ x ∈ (db.organizations.filter fun org => org.slug = slug ∧ ¬ org.deleted).map
      (·.slug), x = slug := by
    intro x hx
    obtain ⟨org, horg, rfl⟩ := List.mem_map.mp hx
    exact (of_decide_eq_true (List.mem_filter.mp horg).2).1
  rw [List.eq_replicate_of_mem hall, List.nodup_replicate, List.length_map] at hnodup
  exact hnodup

/-- **All or nothing.**  Whatever statement of whichever call fails or is the last before a crash,
and however the calls and everyone else interleave: of the organisation of a call all is there,
once, or nothing; it is there when the call returns it; and no two live organisations have one slug.
-/
theorem whole_or_absent (h₀ : Fresh p) (h : Run (Pool.step machine) Allowed p q) :
    (∀ i, ∀ id ∈ (q.calls i).at'.drawn,
        Whole q.store.primary (q.calls i).at'.args id ∨ q.store.primary.ofOrg id = [])
      ∧ (∀ i id, (q.calls i).at'.pc = .returned id →
        Whole q.store.primary (q.calls i).at'.args id)
      ∧ ∀ slug, (q.store.primary.organizations.filter
        fun org => org.slug = slug ∧ ¬ org.deleted).length ≤ 1 := by
  have hI := sound_of_run h₀.sound h
  refine ⟨fun i id hid => ?_, fun i id hpc => ?_, length_filter_slug hI.slugs⟩
  · rcases (hI.known i).drawn_cases id hid with hnone | hrows
    · exact Or.inr hnone
    · exact Or.inl (whole_of_rows hrows)
  · have hknown := hI.known i
    rw [Call.Known, hpc] at hknown
    exact whole_of_rows hknown.2

end Runs

instance [Fintype ι] (p : Calls ι) : ∀ m : Move ι Draw Env, Decidable (Allowed p m)
  | .run i d => inferInstanceAs (Decidable ((p.calls i).Keeps fun c => c.pc = .create →
      (p.store.primary.ofOrg d.newId = [] ∧ ∀ j, (p.calls j).at'.drawn ≠ some d.newId)
      ∧ ∀ j, ¬ (p.calls j).Live (·.holds = some c.args.slug)))
  | .env (.commit db) => inferInstanceAs (Decidable (db.slugs.Nodup
      ∧ ∀ i, ((p.calls i).Keeps fun c => ∀ slug ∈ c.holds, slug ∉ db.slugs)
        ∧ ∀ id ∈ (p.calls i).at'.drawn, db.ofOrg id = p.store.primary.ofOrg id))
  | .crash _ | .env .replicate => inferInstanceAs (Decidable True)

/-- Two users ask for one slug. -/
def demoCreations : Calls (Fin 2) where
  store := ⟨⟨["u", "v"], []⟩, [], []⟩
  calls i := .up ⟨⟨if i = 0 then "u" else "v", "Acme", "acme"⟩, none, .findBySlug⟩

/-- Both find the slug free; the second INSERT waits, and is refused. -/
def demoMoves : List (Move (Fin 2) Draw Env) :=
  List.replicate 3 (.run 1 ⟨"y", .ok⟩) ++ List.replicate 22 (.run 0 ⟨"x", .ok⟩)
    ++ [.run 1 ⟨"y", .ok⟩, .run 1 ⟨"y", .failed⟩, .run 0 ⟨"x", .lost⟩]

/-- Of two creations with one slug the second is refused, and nothing of it is there. -/
theorem second_refused : ∃ q : Calls (Fin 2), Run (Pool.step machine) Allowed demoCreations q
    ∧ (q.calls 0).at'.drawn = some "x" ∧ (q.calls 1).at'.pc = .failed
    ∧ (∀ i, ∀ id ∈ (q.calls i).at'.drawn,
        Whole q.store.primary (q.calls i).at'.args id ∨ q.store.primary.ofOrg id = [])
    ∧ (∀ i id, (q.calls i).at'.pc = .returned id → Whole q.store.primary (q.calls i).at'.args id)
    ∧ ∀ slug, (q.store.primary.organizations.filter
      fun org => org.slug = slug ∧ ¬ org.deleted).length ≤ 1 := by
  obtain ⟨q, hrun, hq⟩ := exists_run_of_exec (Pool.step machine) Allowed demoCreations demoMoves
    (fun q => (q.calls 0).at'.drawn = some "x" ∧ (q.calls 1).at'.pc = .failed) (by decide)
  obtain ⟨hdrawn, hpc⟩ := of_decide_eq_true hq
  exact ⟨q, hrun, hdrawn, hpc, whole_or_absent ⟨fun _ => ⟨_, rfl⟩, by decide⟩ hrun⟩

end WorkPlatform.Organization.Creation

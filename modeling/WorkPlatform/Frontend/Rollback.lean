import WorkPlatform.Machinery.Json
import WorkPlatform.Machinery.Optimistic

/-!
# Frontend/Rollback — optimistic updates of the lists the browser shows

    TaskService           load, create, updateStatus
    NotificationService   load, markRead, markAllRead, subscribeRealtime

`updateStatus`, `markRead` and `markAllRead` change their list before the server answers, and set it
back to the list they began with when the server refuses.  What others did to the list in between
is set back with it: a task created meanwhile is gone (`created_lost`).  As long as an operation
that fails had the list for itself, the list is what the operations that did not fail made of it
(`rollback_exact`).  The count of unread notifications is kept beside their list and agrees with it
in every state (`unreadCount_eq_unread`).
-/

open Machinery Machinery.Optimistic

namespace WorkPlatform.Frontend

/-! ## Tasks -/

inductive TaskStatus
  | todo | inProgress | inReview | done | cancelled
  deriving DecidableEq

inductive TaskPriority
  | low | medium | high | urgent
  deriving DecidableEq

/-- A task of the client. -/
structure Task where
  id : String
  orgId : String
  workspaceId : String
  title : String
  description : Option Json
  status : TaskStatus
  priority : TaskPriority
  assigneeIds : List String
  dueDate : Option String
  version : ℕ
  createdAt : String
  updatedAt : String

/-- A task as the server sends it; `assignee_ids` may be missing. -/
structure TaskDto where
  id : String
  orgId : String
  workspaceId : String
  title : String
  description : Option Json
  status : TaskStatus
  priority : TaskPriority
  assigneeIds : Option (List String)
  dueDate : Option String
  version : ℕ
  createdAt : String
  updatedAt : String

/-- `toTask`. -/
def toTask (dto : TaskDto) : Task where
  id := dto.id
  orgId := dto.orgId
  workspaceId := dto.workspaceId
  title := dto.title
  description := dto.description
  status := dto.status
  priority := dto.priority
  assigneeIds := dto.assigneeIds.getD []
  dueDate := dto.dueDate
  version := dto.version
  createdAt := dto.createdAt
  updatedAt := dto.updatedAt

/-- A call of `updateStatus`, with what its closure keeps. -/
inductive StatusUpdate
  | unborn
  | inFlight (taskId : String) (snapshot : List Task)
  | over

/-- An update of a status, as an optimistic operation. -/
def StatusUpdate.op : StatusUpdate → Op (List Task)
  | .unborn => .unborn
  | .inFlight _ snapshot => .inFlight snapshot
  | .over => .over

/-- The service, with its requests the server has not answered. -/
structure TaskService (ι : Type*) where
  tasks : List Task
  loading : Bool
  loads : ℕ
  creates : ℕ
  updates : ι → StatusUpdate

/-- What happens to the tasks of the client. -/
inductive TaskEvent (ι : Type*)
  | load (activeOrgId : Option String)
  | loaded (data : List TaskDto)
  | loadFailed
  | create
  | created (data : TaskDto)
  | createFailed
  | updateStatus (i : ι) (taskId : String) (status : TaskStatus)
  | updated (i : ι) (data : TaskDto)
  | updateFailed (i : ι)

/-- A reply to a request that is open. -/
theorem eq_of_reply {σ : Type*} {n : ℕ} {s s' : σ} (h : (if n = 0 then none else some s) = some s') :
    s = s' := by
  split at h
  · cases h
  · exact Option.some.inj h

def setStatus (taskId : String) (status : TaskStatus) (tasks : List Task) : List Task :=
  tasks.map fun t => if t.id = taskId then { t with status := status } else t

def replaceTask (taskId : String) (updated : Task) (tasks : List Task) : List Task :=
  tasks.map fun t => if t.id = taskId then updated else t

namespace TaskService

variable {ι : Type*} [DecidableEq ι]

/-- `load`: `EMPTY` where there is no active organisation. -/
def load (s : TaskService ι) : Option String → TaskService ι
  | none => s
  | some _ => { s with loading := true, loads := s.loads + 1 }

/-- The reply to `load`. -/
def loaded (s : TaskService ι) (data : List TaskDto) : Option (TaskService ι) :=
  if s.loads = 0 then none
  else some { s with tasks := data.map toTask, loading := false, loads := s.loads - 1 }

def loadFailed (s : TaskService ι) : Option (TaskService ι) :=
  if s.loads = 0 then none else some { s with loading := false, loads := s.loads - 1 }

def create (s : TaskService ι) : TaskService ι := { s with creates := s.creates + 1 }

def created (s : TaskService ι) (data : TaskDto) : Option (TaskService ι) :=
  if s.creates = 0 then none
  else some { s with tasks := s.tasks ++ [toTask data], creates := s.creates - 1 }

def createFailed (s : TaskService ι) : Option (TaskService ι) :=
  if s.creates = 0 then none else some { s with creates := s.creates - 1 }

/-- `updateStatus` shows the new status at once, and keeps the tasks as they were. -/
def updateStatus (s : TaskService ι) (i : ι) (taskId : String) (status : TaskStatus) :
    Option (TaskService ι) :=
  match s.updates i with
  | .unborn => some { s with
      tasks := setStatus taskId status s.tasks
      updates := Function.update s.updates i (.inFlight taskId s.tasks) }
  | _ => none

/-- The `tap` of `updateStatus`. -/
def updated (s : TaskService ι) (i : ι) (data : TaskDto) : Option (TaskService ι) :=
  match s.updates i with
  | .inFlight taskId _ => some { s with
      tasks := replaceTask taskId (toTask data) s.tasks
      updates := Function.update s.updates i .over }
  | _ => none

/-- The `catchError` of `updateStatus`. -/
def updateFailed (s : TaskService ι) (i : ι) : Option (TaskService ι) :=
  match s.updates i with
  | .inFlight _ snapshot => some { s with
      tasks := snapshot
      updates := Function.update s.updates i .over }
  | _ => none

/-- What an event does to the tasks. -/
def step (s : TaskService ι) : TaskEvent ι → Option (TaskService ι)
  | .load activeOrgId => some (s.load activeOrgId)
  | .loaded data => s.loaded data
  | .loadFailed => s.loadFailed
  | .create => some s.create
  | .created data => s.created data
  | .createFailed => s.createFailed
  | .updateStatus i taskId status => s.updateStatus i taskId status
  | .updated i data => s.updated i data
  | .updateFailed i => s.updateFailed i

/-! ### As an optimistic client -/

/-- What an event does to them as a list. -/
def effect (s : TaskService ι) : TaskEvent ι → Effect ι (List Task)
  | .load _ | .loadFailed | .create | .createFailed => .same
  | .loaded data => .changed fun _ => data.map toTask
  | .created data => .changed (· ++ [toTask data])
  | .updateStatus i taskId status => .began i (setStatus taskId status)
  | .updated i data =>
    match s.updates i with
    | .inFlight taskId _ => .confirmed i (replaceTask taskId (toTask data))
    | _ => .same
  | .updateFailed i => .failed i

def view (s : TaskService ι) : Client ι (List Task) := ⟨s.tasks, fun i => (s.updates i).op⟩

theorem view_update (s : TaskService ι) (tasks : List Task) (i : ι) (u : StatusUpdate) :
    view { s with tasks := tasks, updates := Function.update s.updates i u } =
      ⟨tasks, Function.update s.view.ops i u.op⟩ :=
  congrArg (Client.mk tasks) (Function.comp_update StatusUpdate.op s.updates i u)

/-- A change of status is the step `began` of the client. -/
theorem updateStatus_view {s s' : TaskService ι} {i : ι} {taskId : String} {status : TaskStatus}
    (h : s.updateStatus i taskId status = some s') :
    s.view.next (.began i (setStatus taskId status)) = some s'.view := by
  rw [updateStatus] at h
  split at h
  case h_1 hi =>
    obtain rfl := Option.some.inj h
    have hop : s.view.ops i = .unborn := congrArg StatusUpdate.op hi
    rw [view_update, Client.next, hop]
    rfl
  case h_2 => cases h

/-- An answered update is the step `settled` of the client. -/
theorem updated_view {s s' : TaskService ι} {i : ι} {data : TaskDto}
    (h : s.updated i data = some s') :
    s.view.next (s.effect (.updated i data)) = some s'.view := by
  rw [updated] at h
  split at h
  case h_1 taskId snapshot hi =>
    obtain rfl := Option.some.inj h
    have hop : s.view.ops i = .inFlight snapshot := congrArg StatusUpdate.op hi
    simp only [effect, hi]
    rw [view_update, Client.next, Client.finish, hop]
    rfl
  case h_2 => cases h

/-- A failed update is its step `failed`. -/
theorem updateFailed_view {s s' : TaskService ι} {i : ι} (h : s.updateFailed i = some s') :
    s.view.next (.failed i) = some s'.view := by
  rw [updateFailed] at h
  split at h
  case h_1 taskId snapshot hi =>
    obtain rfl := Option.some.inj h
    have hop : s.view.ops i = .inFlight snapshot := congrArg StatusUpdate.op hi
    rw [view_update, Client.next, Client.finish, hop]
    rfl
  case h_2 => cases h

/-- Each event of the service is its effect on the list. -/
theorem step_view (s : TaskService ι) (e : TaskEvent ι) (s' : TaskService ι)
    (h : s.step e = some s') : s.view.next (s.effect e) = some s'.view := by
  cases e with
  | load activeOrgId =>
    obtain rfl := Option.some.inj h
    cases activeOrgId <;> rfl
  | create =>
    obtain rfl := Option.some.inj h
    rfl
  | loaded data =>
    obtain rfl := eq_of_reply h
    rfl
  | loadFailed =>
    obtain rfl := eq_of_reply h
    rfl
  | created data =>
    obtain rfl := eq_of_reply h
    rfl
  | createFailed =>
    obtain rfl := eq_of_reply h
    rfl
  | updateStatus i taskId status => exact updateStatus_view h
  | updated i data => exact updated_view h
  | updateFailed i => exact updateFailed_view h

variable (ι) in
/-- `TaskService`, as a service that shows its changes at once. -/
def service : Service (TaskService ι) (TaskEvent ι) ι (List Task) := ⟨step, effect, view, step_view⟩

end TaskService

/-! ## Notifications -/

/-- A notification of the client. -/
structure Notification where
  id : String
  orgId : String
  userId : String
  type : String
  entityType : String
  entityId : String
  actorId : String
  payload : Json
  isRead : Bool
  readAt : Option String
  createdAt : String

/-- A notification as the server sends it: `toNotification` renames its fields. -/
abbrev NotificationDto := Notification

def toNotification (dto : NotificationDto) : Notification := dto

/-- The service, with its requests the server has not answered. -/
structure NotificationService (ι : Type*) where
  notifications : List Notification
  unreadCount : ℕ
  loading : Bool
  loads : ℕ
  marks : ι → Op (List Notification)

/-- What happens to the notifications of the client. -/
inductive NotificationEvent (ι : Type*)
  | load (activeOrgId : Option String)
  | loaded (data : List NotificationDto)
  | loadFailed
  | markRead (i : ι) (id : String)
  | markAllRead (i : ι)
  | marked (i : ι)
  | markFailed (i : ι)
  | received (dto : NotificationDto)

def unread (ns : List Notification) : ℕ := (ns.filter fun n => !n.isRead).length

def readOne (id : String) (ns : List Notification) : List Notification :=
  ns.map fun n => if n.id = id then { n with isRead := true } else n

def readAll (ns : List Notification) : List Notification :=
  ns.map fun n => { n with isRead := true }

theorem unread_cons (n : Notification) (ns : List Notification) :
    unread (n :: ns) = unread ns + if n.isRead then 0 else 1 := by
  cases h : n.isRead <;> simp [unread, h]

theorem unread_readAll (ns : List Notification) : unread (readAll ns) = 0 := by
  simp [unread, readAll]

namespace NotificationService

variable {ι : Type*} [DecidableEq ι]

/-- `load`: `EMPTY` where there is no active organisation. -/
def load (s : NotificationService ι) : Option String → NotificationService ι
  | none => s
  | some _ => { s with loading := true, loads := s.loads + 1 }

def loaded (s : NotificationService ι) (data : List NotificationDto) :
    Option (NotificationService ι) :=
  if s.loads = 0 then none
  else some { s with
    notifications := data.map toNotification
    unreadCount := unread (data.map toNotification)
    loading := false
    loads := s.loads - 1 }

def loadFailed (s : NotificationService ι) : Option (NotificationService ι) :=
  if s.loads = 0 then none else some { s with loading := false, loads := s.loads - 1 }

/-- `markRead` and `markAllRead`, with the list and the count each shows at once. -/
def mark (s : NotificationService ι) (i : ι) (notifications : List Notification)
    (unreadCount : ℕ) : Option (NotificationService ι) :=
  match s.marks i with
  | .unborn => some { s with
      notifications := notifications
      unreadCount := unreadCount
      marks := Function.update s.marks i (.inFlight s.notifications) }
  | _ => none

def markRead (s : NotificationService ι) (i : ι) (id : String) : Option (NotificationService ι) :=
  s.mark i (readOne id s.notifications) (unread (readOne id s.notifications))

def markAllRead (s : NotificationService ι) (i : ι) : Option (NotificationService ι) :=
  s.mark i (readAll s.notifications) 0

/-- A success says nothing: `map(() => undefined)`. -/
def marked (s : NotificationService ι) (i : ι) : Option (NotificationService ι) :=
  match s.marks i with
  | .inFlight _ => some { s with marks := Function.update s.marks i .over }
  | _ => none

/-- The `catchError` of `markRead` and of `markAllRead`. -/
def markFailed (s : NotificationService ι) (i : ι) : Option (NotificationService ι) :=
  match s.marks i with
  | .inFlight snapshot => some { s with
      notifications := snapshot
      unreadCount := unread snapshot
      marks := Function.update s.marks i .over }
  | _ => none

/-- The subscription of `subscribeRealtime`. -/
def received (s : NotificationService ι) (dto : NotificationDto) : NotificationService ι :=
  { s with
    notifications := toNotification dto :: s.notifications
    unreadCount := s.unreadCount + 1 }

/-- What an event does to the notifications. -/
def step (s : NotificationService ι) : NotificationEvent ι → Option (NotificationService ι)
  | .load activeOrgId => some (s.load activeOrgId)
  | .loaded data => s.loaded data
  | .loadFailed => s.loadFailed
  | .markRead i id => s.markRead i id
  | .markAllRead i => s.markAllRead i
  | .marked i => s.marked i
  | .markFailed i => s.markFailed i
  | .received dto => some (s.received dto)

/-! ### As an optimistic client -/

/-- What an event does to them as a list. -/
def effect (_ : NotificationService ι) : NotificationEvent ι → Effect ι (List Notification)
  | .load _ | .loadFailed => .same
  | .loaded data => .changed fun _ => data.map toNotification
  | .markRead i id => .began i (readOne id)
  | .markAllRead i => .began i readAll
  | .marked i => .settled i
  | .markFailed i => .failed i
  | .received dto => .changed (toNotification dto :: ·)

def view (s : NotificationService ι) : Client ι (List Notification) := ⟨s.notifications, s.marks⟩

/-- A mark is the step `began` of the client. -/
theorem mark_view {s s' : NotificationService ι} {i : ι} {n : ℕ}
    {act : List Notification → List Notification}
    (h : s.mark i (act s.notifications) n = some s') :
    s.view.next (.began i act) = some s'.view := by
  rw [mark] at h
  split at h
  case h_1 hi =>
    obtain rfl := Option.some.inj h
    have hop : s.view.ops i = .unborn := hi
    rw [Client.next, hop]
    rfl
  case h_2 => cases h

/-- An answered mark is the step `settled` of the client. -/
theorem marked_view {s s' : NotificationService ι} {i : ι} (h : s.marked i = some s') :
    s.view.next (.settled i) = some s'.view := by
  rw [marked] at h
  split at h
  case h_1 snapshot hi =>
    obtain rfl := Option.some.inj h
    have hop : s.view.ops i = .inFlight snapshot := hi
    rw [Client.next, Client.finish, hop]
    rfl
  case h_2 => cases h

/-- A failed one is its step `failed`. -/
theorem markFailed_view {s s' : NotificationService ι} {i : ι} (h : s.markFailed i = some s') :
    s.view.next (.failed i) = some s'.view := by
  rw [markFailed] at h
  split at h
  case h_1 snapshot hi =>
    obtain rfl := Option.some.inj h
    have hop : s.view.ops i = .inFlight snapshot := hi
    rw [Client.next, Client.finish, hop]
    rfl
  case h_2 => cases h

/-- Every event of the service is a step of the client that applies first and takes back. -/
theorem step_view (s : NotificationService ι) (e : NotificationEvent ι)
    (s' : NotificationService ι) (h : s.step e = some s') :
    s.view.next (s.effect e) = some s'.view := by
  cases e with
  | load activeOrgId =>
    obtain rfl := Option.some.inj h
    cases activeOrgId <;> rfl
  | loaded data =>
    obtain rfl := eq_of_reply h
    rfl
  | loadFailed =>
    obtain rfl := eq_of_reply h
    rfl
  | markRead i id => exact mark_view h
  | markAllRead i => exact mark_view h
  | marked i => exact marked_view h
  | markFailed i => exact markFailed_view h
  | received dto =>
    obtain rfl := Option.some.inj h
    rfl

variable (ι) in
/-- `NotificationService`, as a service that shows its changes at once. -/
def service : Service (NotificationService ι) (NotificationEvent ι) ι (List Notification) :=
  ⟨step, effect, view, step_view⟩

/-! ### The counter

Six places write `unreadCount`: four count the list, one writes the `0` of a list that has just
been read, one adds a notification the server has pushed. -/

/-- The service before its first call. -/
def start : NotificationService ι := ⟨[], 0, false, 0, fun _ => .unborn⟩

/-- The counter says how many notifications of the list are unread. -/
def Counted (s : NotificationService ι) : Prop := s.unreadCount = unread s.notifications

/-- What the server pushes it has just inserted, unread. -/
def PushesUnread (_ : NotificationService ι) : NotificationEvent ι → Prop
  | .received dto => dto.isRead = false
  | _ => True

instance (s : NotificationService ι) : ∀ e, Decidable (s.PushesUnread e)
  | .received dto => inferInstanceAs (Decidable (dto.isRead = false))
  | .load _ | .loaded _ | .loadFailed | .markRead _ _ | .markAllRead _ | .marked _
  | .markFailed _ => inferInstanceAs (Decidable True)

theorem Counted.mark {s s' : NotificationService ι} {i : ι} {ns : List Notification} {n : ℕ}
    (hn : n = unread ns) (h : s.mark i ns n = some s') : s'.Counted := by
  rw [NotificationService.mark] at h
  split at h
  case h_1 =>
    obtain rfl := Option.some.inj h
    exact hn
  case h_2 => cases h

theorem Counted.marked {s s' : NotificationService ι} {i : ι} (hs : s.Counted)
    (h : s.marked i = some s') : s'.Counted := by
  rw [NotificationService.marked] at h
  split at h
  case h_1 =>
    obtain rfl := Option.some.inj h
    exact hs
  case h_2 => cases h

/-- The list set back is counted again. -/
theorem counted_markFailed {s s' : NotificationService ι} {i : ι} (h : s.markFailed i = some s') :
    s'.Counted := by
  rw [markFailed] at h
  split at h
  case h_1 =>
    obtain rfl := Option.some.inj h
    rfl
  case h_2 => cases h

omit [DecidableEq ι] in
theorem Counted.received {s : NotificationService ι} {dto : NotificationDto} (hs : s.Counted)
    (h : dto.isRead = false) : (s.received dto).Counted := by
  show s.unreadCount + 1 = unread (dto :: s.notifications)
  rw [unread_cons, h, hs]
  rfl

/-- An event keeps the count of the unread, where what is pushed is unread. -/
theorem Counted.step {s s' : NotificationService ι} {e : NotificationEvent ι} (hs : s.Counted)
    (hG : s.PushesUnread e) (h : s.step e = some s') : s'.Counted := by
  cases e with
  | load activeOrgId =>
    obtain rfl := Option.some.inj h
    cases activeOrgId <;> exact hs
  | loaded data =>
    obtain rfl := eq_of_reply h
    rfl
  | loadFailed =>
    obtain rfl := eq_of_reply h
    exact hs
  | markRead i id => exact Counted.mark rfl h
  | markAllRead i => exact Counted.mark (unread_readAll _).symm h
  | marked i => exact hs.marked h
  | markFailed i => exact counted_markFailed h
  | received dto =>
    obtain rfl := Option.some.inj h
    exact hs.received hG

/-- **The unread count is the number of unread notifications shown**, in whatever order calls,
replies, failures and pushes come. -/
theorem unreadCount_eq_unread {s : NotificationService ι} (h : Run step PushesUnread start s) :
    s.unreadCount = unread s.notifications := by
  have hstart : (start : NotificationService ι).Counted := rfl
  have hcounted : s.Counted := by
    refine h.invariant hstart ?_
    intro t e u ht hG hu
    exact ht.step hG hu
  exact hcounted

end NotificationService

def demoNotification (id : String) : NotificationDto :=
  ⟨id, "o", "u", "task.assigned", "task", "t1", "u2", .null, false, none, ""⟩

/-- A refused `markRead` sets the list back to what it was before `n2` came. -/
theorem unreadCount_eq_unread_refused :
    ∃ s : NotificationService ℕ,
      Run NotificationService.step NotificationService.PushesUnread NotificationService.start s ∧
        s.unreadCount = unread s.notifications ∧ s.notifications.map (·.id) = ["n1"] ∧
          s.unreadCount = 1 := by
  obtain ⟨s, hrun, hs⟩ := exists_run_of_exec NotificationService.step
    NotificationService.PushesUnread (NotificationService.start (ι := ℕ))
    [.load (some "o"), .loaded [demoNotification "n1"], .markRead 0 "n1",
      .received (demoNotification "n2"), .markFailed 0]
    (fun s => s.notifications.map (·.id) = ["n1"] ∧ s.unreadCount = 1) (by decide)
  obtain ⟨hids, hcount⟩ := of_decide_eq_true hs
  exact ⟨s, hrun, NotificationService.unreadCount_eq_unread hrun, hids, hcount⟩

/-! ## The browser -/

/-- Both services, each with the history of its list. -/
structure Browser (ι κ : Type*) where
  tasks : Observed (TaskService ι) ι (List Task)
  notifications : Observed (NotificationService κ) κ (List Notification)

inductive BrowserEvent (ι κ : Type*)
  | task (e : TaskEvent ι)
  | notification (e : NotificationEvent κ)

namespace Browser

variable {ι κ : Type*} [DecidableEq ι] [DecidableEq κ]

/-- What an event does to a browser with both services. -/
def next (b : Browser ι κ) : BrowserEvent ι κ → Option (Browser ι κ)
  | .task e => ((TaskService.service ι).next b.tasks e).map fun t => { b with tasks := t }
  | .notification e =>
    ((NotificationService.service κ).next b.notifications e).map fun n =>
      { b with notifications := n }

/-- No operation fails after another one's step has changed its list. -/
def Undisturbed (b : Browser ι κ) : BrowserEvent ι κ → Prop
  | .task e => (TaskService.service ι).Undisturbed b.tasks e
  | .notification e => (NotificationService.service κ).Undisturbed b.notifications e

instance (b : Browser ι κ) : ∀ e, Decidable (b.Undisturbed e)
  | .task e => inferInstanceAs (Decidable ((TaskService.service ι).Undisturbed b.tasks e))
  | .notification e =>
    inferInstanceAs (Decidable ((NotificationService.service κ).Undisturbed b.notifications e))

/-- No operation has begun, and the histories begin here. -/
structure Fresh (b : Browser ι κ) : Prop where
  tasks : ((TaskService.service ι).watched b.tasks).Fresh
  notifications : ((NotificationService.service κ).watched b.notifications).Fresh

/-- **Both lists are what was done to them**, by everything but the operations that failed. -/
structure Exact (b : Browser ι κ) : Prop where
  tasks : b.tasks.state.tasks = b.tasks.history.value
  notifications : b.notifications.state.notifications = b.notifications.history.value

/-- The invariant of both services. -/
structure Kept (b : Browser ι κ) : Prop where
  tasks : ((TaskService.service ι).watched b.tasks).Exact
  notifications : ((NotificationService.service κ).watched b.notifications).Exact

/-- An undisturbed event keeps both services. -/
theorem Kept.next {b b' : Browser ι κ} {e : BrowserEvent ι κ} (h : b.Kept)
    (hG : b.Undisturbed e) (hb : b.next e = some b') : b'.Kept := by
  cases e with
  | task e =>
    obtain ⟨t, ht, rfl⟩ := Option.map_eq_some_iff.mp hb
    exact ⟨(TaskService.service ι).exact_next h.tasks hG ht, h.notifications⟩
  | notification e =>
    obtain ⟨n, hn, rfl⟩ := Option.map_eq_some_iff.mp hb
    exact ⟨h.tasks, (NotificationService.service κ).exact_next h.notifications hG hn⟩

theorem Kept.exact {b : Browser ι κ} (h : b.Kept) : b.Exact :=
  ⟨h.tasks.value, h.notifications.value⟩

end Browser

/-- **A failed operation undoes exactly its own change** in every run in which no operation fails
after another step has changed its list. -/
theorem rollback_exact {ι κ : Type*} [DecidableEq ι] [DecidableEq κ] {b₀ b : Browser ι κ}
    (h₀ : b₀.Fresh) (h : Run Browser.next Browser.Undisturbed b₀ b) : b.Exact := by
  have hkept : b.Kept := by
    refine h.invariant ⟨h₀.tasks.exact, h₀.notifications.exact⟩ ?_
    intro t e u ht hG hu
    exact ht.next hG hu
  exact hkept.exact

/-! ## Two runs -/

def demoTask (id : String) (status : TaskStatus) : TaskDto :=
  ⟨id, "o", "w", "title", none, status, .medium, none, none, 1, "", ""⟩

/-- A browser that shows the task `t1` and the notification `n1`. -/
def demoBrowser : Browser ℕ ℕ where
  tasks :=
    ⟨⟨[toTask (demoTask "t1" .todo)], false, 0, 0, fun _ => .unborn⟩,
      ⟨[toTask (demoTask "t1" .todo)], []⟩, fun _ => false⟩
  notifications :=
    ⟨⟨[demoNotification "n1"], 1, false, 0, fun _ => .unborn⟩, ⟨[demoNotification "n1"], []⟩,
      fun _ => false⟩

theorem demoBrowser_fresh : demoBrowser.Fresh := ⟨⟨fun _ => rfl, rfl, rfl⟩, ⟨fun _ => rfl, rfl, rfl⟩⟩

/-- The ids and states of the tasks shown, and the ids of the notifications shown unread. -/
def Browser.shown (b : Browser ℕ ℕ) : List (String × TaskStatus) × List String :=
  (b.tasks.state.tasks.map fun t => (t.id, t.status),
    (b.notifications.state.notifications.filter fun n => !n.isRead).map (·.id))

/-- What is refused before anything else happens leaves both lists as they were. -/
theorem rollback_exact_alone :
    ∃ b, Run Browser.next Browser.Undisturbed demoBrowser b ∧ b.Exact ∧
      b.shown = ([("t1", .todo), ("t2", .todo)], ["n2", "n1"]) := by
  obtain ⟨b, hrun, hshown⟩ := exists_run_of_exec Browser.next Browser.Undisturbed demoBrowser
    [.task .create, .task (.created (demoTask "t2" .todo)), .task (.updateStatus 0 "t1" .done),
      .notification (.received (demoNotification "n2")), .task (.updateFailed 0),
      .notification (.markAllRead 0), .notification (.markFailed 0)]
    (fun b => b.shown = ([("t1", .todo), ("t2", .todo)], ["n2", "n1"])) (by decide)
  exact ⟨b, hrun, rollback_exact demoBrowser_fresh hrun, of_decide_eq_true hshown⟩

/-- **A task created while an update is in flight is gone when the update fails**: the list is set
back to what it was before both. -/
theorem created_lost :
    ¬ ∀ b₀ b : Browser ℕ ℕ, b₀.Fresh → Run Browser.next anyStep b₀ b → b.Exact := by
  intro hexact
  obtain ⟨b, hrun, hb⟩ := exists_run_of_exec Browser.next anyStep demoBrowser
    [.task (.updateStatus 0 "t1" .done), .task .create, .task (.created (demoTask "t2" .todo)),
      .task (.updateFailed 0)]
    (fun b => b.tasks.state.tasks.map (·.id) = ["t1"] ∧
      b.tasks.history.value.map (·.id) = ["t1", "t2"]) (by decide)
  obtain ⟨hshown, hkept⟩ := of_decide_eq_true hb
  rw [← (hexact demoBrowser b demoBrowser_fresh hrun).tasks, hshown] at hkept
  exact absurd hkept (by decide)

end WorkPlatform.Frontend

import WorkPlatform.Task.Forest
import WorkPlatform.Task.Transition

/-!
# Task/Assignees — who a task is assigned to

    createTask    member(u) on the replica, for every u ▸ INSERT task ▸ INSERT assignee u …
    updateTask    UPDATE task ▸ DELETE assignees ▸ INSERT assignee u …      nobody is looked up

`updateTask` assigns a task to whomever it is told (`stranger_assigned`); the look-ups of
`createTask` are on the replica, and the memberships may end before the assignees are inserted.

A run is `Vetted` where an edit names members only when its UPDATE goes through, the replica takes
nobody for a member who is none, and no membership ends that a call relies on.  Then every user a
task is assigned to is a member of its organisation, and a call that names anybody else writes
nothing (`assignees_are_members`).
-/

namespace WorkPlatform.Task

open Machinery

/-- The UPDATE of the edit finds its row and is not refused. -/
def UpdateArgs.applies (s : Store) (a : UpdateArgs) : Bool :=
  if a.data.isEmpty then (s.findById a.taskId).isSome
  else (s.tasks.find a.taskId).any fun r =>
    r.current a.orgId a.version ∧ s.refuses a.data r = false

namespace Op

/-- `createTask` and `updateTask`. -/
def assigning : Op → Bool
  | .createTask _ _ | .edit (.updateTask _ _) => true
  | _ => false

/-- The users a call has still to assign its task to. -/
def names : Op → List String
  | .createTask a (.parent _) | .createTask a (.member _ _ _) | .createTask a (.insert _) =>
    a.assignees
  | .createTask _ (.add _ userId rest) | .edit (.updateTask _ (.add _ userId rest)) =>
    userId :: rest
  | .edit (.updateTask a .find) | .edit (.updateTask a (.membership _))
  | .edit (.updateTask a .update) | .edit (.updateTask a (.getAssignees _))
  | .edit (.updateTask a (.remove _ _ _)) => a.assigneeIds.getD []
  | _ => []

/-- The organisation of a call. -/
def orgId : Op → String
  | .createTask a _ => a.orgId
  | .recurring job _ => job.orgId
  | .deleteWorkspace orgId _ _ _ => orgId
  | .edit (.updateTask a _) => a.orgId
  | .edit (.deleteTask orgId _ _ _) | .edit (.bulkUpdateStatus orgId _ _ _ _)
  | .edit (.bulkDelete orgId _ _ _) => orgId

/-- The call goes on to assign its task to the user and looks the membership up no more. -/
def relies (userId : String) : Op → Bool
  | .createTask a (.member _ assigneeId rest) => userId ∈ a.assignees ∧ userId ∉ assigneeId :: rest
  | .edit (.updateTask _ .find) | .edit (.updateTask _ (.membership _))
  | .edit (.updateTask _ .update) | .createTask _ (.parent _) => false
  | c => userId ∈ c.names

/-- Whoever the statement lets pass is a member. -/
def vetted (s : Store) : Op → Bool
  | .edit (.updateTask a .update) =>
    a.applies s → (a.assigneeIds.getD []).all fun userId => (s.members a.orgId userId).isSome
  | .createTask a (.member _ assigneeId _) =>
    (s.roles a.orgId assigneeId).isSome → (s.members a.orgId assigneeId).isSome
  | _ => true

/-- Whom a call relies on is a member. -/
def Relies (s : Store) (c : Op) : Prop :=
  ∀ userId, c.relies userId = true → (s.members c.orgId userId).isSome

/-- The task a call assigns is one of its organisation. -/
def Owns (s : Store) : Op → Prop
  | .createTask a (.add task _ _) => ∃ r, s.tasks.find task.id = some r ∧ r.orgId = a.orgId
  | .edit (.updateTask _ .find) | .edit (.updateTask _ .recheck)
  | .edit (.updateTask _ (.threw _)) => True
  | .edit (.updateTask a _) => ∃ r, s.tasks.find a.taskId = some r ∧ r.orgId = a.orgId
  | _ => True

end Op

section Steps

variable {cfg : Config} {s s' : Store} {uuid : String} {c c' k : Op}

theorem members_next (h : c.next cfg s uuid = some (s', c')) : s'.members = s.members := by
  cases effect_next h <;> rfl

theorem Op.Relies.of_next (h : c.next cfg s uuid = some (s', c')) (hk : k.Relies s) :
    k.Relies s' := by
  intro userId hrelies
  rw [members_next h]
  exact hk userId hrelies

/-! ## Whom a call relies on -/

section Relies

variable {a : CreateArgs} {b : UpdateArgs} {depth : ℕ} {task u : TaskRow}

/-- A creation relies on the users it has found to be members. -/
theorem relies_checking {rest : List String}
    (h : ∀ userId ∈ a.assignees, userId ∉ rest → (s.members a.orgId userId).isSome) :
    Op.Relies s (.createTask a (.checking depth rest)) := by
  intro userId hrelies
  cases rest with
  | nil => exact h userId (of_decide_eq_true hrelies) List.not_mem_nil
  | cons assigneeId rest =>
    obtain ⟨hmem, hchecked⟩ := of_decide_eq_true hrelies
    exact h userId hmem hchecked

theorem relies_createAdding {rest : List String}
    (h : ∀ userId ∈ rest, (s.members a.orgId userId).isSome) :
    Op.Relies s (.createTask a (.adding task rest)) := by
  intro userId hrelies
  cases rest with
  | nil => cases hrelies
  | cons assigneeId rest => exact h userId (of_decide_eq_true hrelies)

theorem relies_adding {rest : List String}
    (h : ∀ userId ∈ rest, (s.members b.orgId userId).isSome) :
    Op.Relies s (.edit (.updateTask b (.adding u rest))) := by
  intro userId hrelies
  cases rest with
  | nil => cases hrelies
  | cons assigneeId rest => exact h userId (of_decide_eq_true hrelies)

theorem relies_removing
    (h : ∀ userId ∈ b.assigneeIds.getD [], (s.members b.orgId userId).isSome) :
    ∀ rest, Op.Relies s (.edit (.updateTask b (.removing b u rest)))
  | [] => relies_adding h
  | _ :: _ => fun userId hrelies => h userId (of_decide_eq_true hrelies)

theorem relies_updated
    (h : ∀ userId ∈ b.assigneeIds.getD [], (s.members b.orgId userId).isSome) :
    Op.Relies s (.edit (.updateTask b (.updated b u))) := by
  intro userId hrelies
  unfold UpdatePc.updated at hrelies
  split at hrelies
  · exact h userId (of_decide_eq_true hrelies)
  · cases hrelies

/-- A call that has not begun relies on nothing. -/
theorem relies_of_fresh (h : c.fresh = true) (hassigning : c.assigning = true) : c.Relies s := by
  cases c with
  | recurring job pc => cases hassigning
  | deleteWorkspace orgId workspaceId actorId pc => cases hassigning
  | edit c =>
    cases c with
    | updateTask a pc =>
      cases pc with
      | find =>
        intro userId hrelies
        cases hrelies
      | _ => cases h
    | _ => cases hassigning
  | createTask a pc =>
    obtain rfl : pc = a.entry := of_decide_eq_true h
    unfold CreateArgs.entry
    split
    · intro userId hrelies
      cases hrelies
    · exact relies_checking fun userId hmem hnot => absurd hmem hnot

/-- `createTask` relies on members it has looked up. -/
theorem relies_create {pc pc' : CreatePc} (h : createNext s uuid a pc = some (s', pc'))
    (hvetted : Op.vetted s (.createTask a pc) = true) (hc : Op.Relies s (.createTask a pc)) :
    Op.Relies s' (.createTask a pc') := by
  cases pc with
  | parent parentTaskId =>
    obtain ⟨rfl, rfl⟩ := Prod.mk.inj (Option.some.inj h)
    intro userId hrelies
    split at hrelies
    · cases hrelies
    · split at hrelies
      · cases hrelies
      · split at hrelies
        · cases hrelies
        · exact relies_checking (fun userId hmem hnot => absurd hmem hnot) userId hrelies
  | member depth assigneeId rest =>
    obtain ⟨rfl, rfl⟩ := Prod.mk.inj (Option.some.inj h)
    split
    · rename_i hrole
      refine relies_checking fun userId hmem hchecked => ?_
      by_cases hself : userId = assigneeId
      · subst hself
        exact of_decide_eq_true hvetted hrole
      · refine hc userId (decide_eq_true ⟨hmem, ?_⟩)
        exact fun hin => (List.mem_cons.mp hin).elim hself hchecked
    · intro userId hrelies
      cases hrelies
  | insert depth =>
    rw [createNext] at h
    split at h <;> obtain ⟨rfl, rfl⟩ := Prod.mk.inj (Option.some.inj h)
    · rename_i hins
      obtain ⟨tasks, -, -, rfl⟩ := insertTask_eq_some hins
      exact relies_createAdding fun userId hmem => hc userId (decide_eq_true hmem)
    · intro userId hrelies
      cases hrelies
  | add task assigneeId rest =>
    obtain ⟨rfl, rfl⟩ := Prod.mk.inj (Option.some.inj h)
    exact relies_createAdding fun userId hmem =>
      hc userId (decide_eq_true (List.mem_cons_of_mem assigneeId hmem))
  | outbox task | activity task =>
    obtain ⟨rfl, rfl⟩ := Prod.mk.inj (Option.some.inj h)
    intro userId hrelies
    cases hrelies
  | returned task | threw e | failed => cases h

/-- The UPDATE of an edit goes through, or the edit ends without a write. -/
theorem applies_or_ends {pc' : UpdatePc} (h : updateNext s b .update = some (s', pc')) :
    (b.applies s = true ∧ ∃ r, pc' = .updated b r) ∨ s' = s ∧ (pc' = .recheck ∨ pc' = .failed) := by
  unfold UpdateArgs.applies
  rw [updateNext] at h
  split at h
  · rename_i hempty
    rw [if_pos hempty]
    split at h <;> obtain ⟨rfl, rfl⟩ := Prod.mk.inj (Option.some.inj h)
    · exact Or.inr ⟨rfl, Or.inl rfl⟩
    · rename_i r hr
      rw [hr]
      exact Or.inl ⟨rfl, r, rfl⟩
  · rename_i hfull
    rw [if_neg hfull]
    split at h
    · obtain ⟨rfl, rfl⟩ := Prod.mk.inj (Option.some.inj h)
      exact Or.inr ⟨rfl, Or.inl rfl⟩
    · rename_i r hr
      obtain ⟨hfind, hcurrent⟩ := Option.filter_eq_some_iff.mp hr
      split at h <;> obtain ⟨rfl, rfl⟩ := Prod.mk.inj (Option.some.inj h)
      · exact Or.inr ⟨rfl, Or.inr rfl⟩
      · rename_i haccepted
        rw [hfind, Option.any_some]
        exact Or.inl ⟨decide_eq_true ⟨hcurrent, eq_false_of_ne_true haccepted⟩, _, rfl⟩

/-- An update that is authorised relies on nobody yet. -/
theorem relies_authorized {existing : TaskRow} {isAdmin : Bool} :
    Op.Relies s (.edit (.updateTask b (.authorized b existing isAdmin))) := by
  intro userId hrelies
  unfold UpdatePc.authorized at hrelies
  split at hrelies
  · cases hrelies
  · split at hrelies
    · cases hrelies
    · split at hrelies <;> cases hrelies

/-- `updateTask` relies on members it has looked up. -/
theorem relies_update {pc pc' : UpdatePc} (h : updateNext s b pc = some (s', pc'))
    (hvetted : Op.vetted s (.edit (.updateTask b pc)) = true)
    (hmembers : s'.members = s.members) (hc : Op.Relies s (.edit (.updateTask b pc))) :
    Op.Relies s' (.edit (.updateTask b pc')) := by
  suffices hgoal : Op.Relies s (.edit (.updateTask b pc')) by
    intro userId hrelies
    rw [hmembers]
    exact hgoal userId hrelies
  cases pc with
  | find =>
    obtain ⟨rfl, rfl⟩ := Prod.mk.inj (Option.some.inj h)
    intro userId hrelies
    split at hrelies
    · cases hrelies
    · split at hrelies <;> cases hrelies
  | membership existing =>
    obtain ⟨rfl, rfl⟩ := Prod.mk.inj (Option.some.inj h)
    exact relies_authorized
  | update =>
    rcases applies_or_ends h with ⟨happlies, r, rfl⟩ | ⟨-, rfl | rfl⟩
    · exact relies_updated (List.all_eq_true.mp (of_decide_eq_true hvetted happlies))
    · intro userId hrelies
      cases hrelies
    · intro userId hrelies
      cases hrelies
  | recheck =>
    obtain ⟨rfl, rfl⟩ := Prod.mk.inj (Option.some.inj h)
    intro userId hrelies
    split at hrelies
    · cases hrelies
    · split at hrelies <;> cases hrelies
  | getAssignees u =>
    obtain ⟨rfl, rfl⟩ := Prod.mk.inj (Option.some.inj h)
    exact relies_removing (fun userId hmem => hc userId (decide_eq_true hmem)) _
  | remove u userId rest =>
    obtain ⟨rfl, rfl⟩ := Prod.mk.inj (Option.some.inj h)
    exact relies_removing (fun userId hmem => hc userId (decide_eq_true hmem)) rest
  | add u assigneeId rest =>
    obtain ⟨rfl, rfl⟩ := Prod.mk.inj (Option.some.inj h)
    exact relies_adding fun userId hmem =>
      hc userId (decide_eq_true (List.mem_cons_of_mem assigneeId hmem))
  | outbox u | enqueue u =>
    obtain ⟨rfl, rfl⟩ := Prod.mk.inj (Option.some.inj h)
    intro userId hrelies
    cases hrelies
  | activity u =>
    obtain ⟨rfl, rfl⟩ := Prod.mk.inj (Option.some.inj h)
    intro userId hrelies
    split at hrelies <;> cases hrelies
  | returned u | threw e | failed => cases h

/-- Whom a call relies on is a member after its statement too. -/
theorem relies_next (h : c.next cfg s uuid = some (s', c')) (hassigning : c.assigning = true)
    (hvetted : c.vetted s = true) (hc : c.Relies s) : c'.Relies s' ∧ c'.assigning = true := by
  have hmembers := members_next h
  cases c with
  | recurring job pc => cases hassigning
  | deleteWorkspace orgId workspaceId actorId pc => cases hassigning
  | createTask a pc =>
    obtain ⟨pc', hpc, rfl⟩ := pc_of_next h
    exact ⟨relies_create hpc hvetted hc, rfl⟩
  | edit c =>
    cases c with
    | updateTask b pc =>
      obtain ⟨c', hc', rfl⟩ := pc_of_next h
      obtain ⟨pc', hpc, rfl⟩ := pc_of_next hc'
      exact ⟨relies_update hpc hvetted hmembers hc, rfl⟩
    | _ => cases hassigning

end Relies

/-! ## The task of a call -/

theorem owns_of_row {a : UpdateArgs}
    (h : ∃ r, s.tasks.find a.taskId = some r ∧ r.orgId = a.orgId) :
    ∀ pc, Op.Owns s (.edit (.updateTask a pc))
  | .find | .recheck | .threw _ => trivial
  | .membership _ | .update | .getAssignees _ | .remove _ _ _ | .add _ _ _ | .outbox _
  | .activity _ | .enqueue _ | .returned _ | .failed => h

/-- A call that has not started assigns no task yet. -/
theorem owns_of_fresh (h : c.fresh = true) : c.Owns s := by
  cases c with
  | recurring job pc => trivial
  | deleteWorkspace orgId workspaceId actorId pc => trivial
  | edit c =>
    cases c with
    | updateTask a pc =>
      cases pc with
      | find => trivial
      | _ => cases h
    | _ => trivial
  | createTask a pc =>
    obtain rfl : pc = a.entry := of_decide_eq_true h
    unfold CreateArgs.entry
    split
    · trivial
    · cases a.assignees <;> trivial

/-- No task goes, and none goes to another organisation. -/
theorem row_of_next {taskId orgId : String} (h : c.next cfg s uuid = some (s', c'))
    (hr : ∃ r, s.tasks.find taskId = some r ∧ r.orgId = orgId) :
    ∃ r, s'.tasks.find taskId = some r ∧ r.orgId = orgId := by
  obtain ⟨r, hfind, horg⟩ := hr
  obtain ⟨r', hfind', hplace⟩ := find_next h hfind
  exact ⟨r', hfind', (place_eq hplace).1.trans horg⟩

/-- The task a call assigns stays its organisation's, whatever runs. -/
theorem Op.Owns.of_next (h : c.next cfg s uuid = some (s', c')) (hk : k.Owns s) : k.Owns s' := by
  cases k with
  | recurring job pc => trivial
  | deleteWorkspace orgId workspaceId actorId pc => trivial
  | createTask a pc =>
    cases pc with
    | add task assigneeId rest => exact row_of_next h hk
    | _ => trivial
  | edit k =>
    cases k with
    | updateTask a pc =>
      cases pc with
      | find | recheck | threw e => trivial
      | _ => exact row_of_next h hk
    | _ => trivial

/-- The task that `createTask` assigns is its own. -/
theorem owns_create {a : CreateArgs} {pc pc' : CreatePc}
    (h : createNext s uuid a pc = some (s', pc')) (hkept : Op.Owns s' (.createTask a pc)) :
    Op.Owns s' (.createTask a pc') := by
  cases pc with
  | parent parentTaskId =>
    obtain ⟨rfl, rfl⟩ := Prod.mk.inj (Option.some.inj h)
    split
    · trivial
    · split
      · trivial
      · split
        · trivial
        · cases a.assignees <;> trivial
  | member depth assigneeId rest =>
    obtain ⟨rfl, rfl⟩ := Prod.mk.inj (Option.some.inj h)
    split
    · cases rest <;> trivial
    · trivial
  | insert depth =>
    rw [createNext] at h
    split at h <;> obtain ⟨rfl, rfl⟩ := Prod.mk.inj (Option.some.inj h)
    · rename_i hins
      obtain ⟨tasks, -, htasks, rfl⟩ := insertTask_eq_some hins
      cases a.assignees with
      | nil => trivial
      | cons assigneeId rest =>
        refine ⟨a.row depth uuid, ?_, rfl⟩
        dsimp only
        rw [Table.find_insert htasks, if_pos rfl]
    · trivial
  | add task assigneeId rest =>
    obtain ⟨rfl, rfl⟩ := Prod.mk.inj (Option.some.inj h)
    cases rest with
    | nil => trivial
    | cons userId rest => exact hkept
  | outbox task | activity task =>
    obtain ⟨rfl, rfl⟩ := Prod.mk.inj (Option.some.inj h)
    trivial
  | returned task | threw e | failed => cases h

/-- The task that `updateTask` assigns is one of its organisation. -/
theorem owns_update {a : UpdateArgs} {pc : UpdatePc}
    (h : Op.next cfg s uuid (.edit (.updateTask a pc)) = some (s', c'))
    (hc : Op.Owns s (.edit (.updateTask a pc))) : c'.Owns s' := by
  obtain ⟨e, he, rfl⟩ := pc_of_next h
  obtain ⟨pc', hpc, rfl⟩ := pc_of_next he
  cases pc with
  | find =>
    obtain ⟨rfl, rfl⟩ := Prod.mk.inj (Option.some.inj hpc)
    split
    · trivial
    · rename_i existing hexisting
      split
      · trivial
      · rename_i horg
        exact ⟨existing, (Option.filter_eq_some_iff.mp hexisting).1, not_not.mp horg⟩
  | recheck =>
    obtain ⟨rfl, rfl⟩ := Prod.mk.inj (Option.some.inj hpc)
    split
    · trivial
    · split <;> trivial
  | threw e => cases hpc
  | _ => exact owns_of_row (row_of_next h hc) pc'

/-- The task a call assigns is its organisation's after its statement. -/
theorem owns_next (h : c.next cfg s uuid = some (s', c')) (hc : c.Owns s) : c'.Owns s' := by
  cases c with
  | recurring job pc | deleteWorkspace orgId workspaceId actorId pc =>
    obtain ⟨pc', -, rfl⟩ := pc_of_next h
    trivial
  | createTask a pc =>
    have hkept := hc.of_next h
    obtain ⟨pc', hpc, rfl⟩ := pc_of_next h
    exact owns_create hpc hkept
  | edit c =>
    cases c with
    | updateTask a pc => exact owns_update h hc
    | _ =>
      obtain ⟨c', hc', rfl⟩ := pc_of_next h
      obtain ⟨pc', -, rfl⟩ := pc_of_next hc'
      trivial

/-! ## What a call writes -/

/-- An assignee after an INSERT was there, or is the new one. -/
theorem mem_addAssignee {taskId taskId' userId userId' : String}
    (h : userId' ∈ (s.addAssignee taskId userId).assignees taskId') :
    userId' ∈ s.assignees taskId' ∨ taskId' = taskId ∧ userId' = userId := by
  unfold Store.addAssignee at h
  dsimp only at h
  by_cases ht : taskId' = taskId
  · subst ht
    rw [Function.update_self] at h
    split at h
    · exact Or.inl h
    · rcases List.mem_append.mp h with h | h
      · exact Or.inl h
      · exact Or.inr ⟨rfl, List.mem_singleton.mp h⟩
  · rw [Function.update_of_ne ht] at h
    exact Or.inl h

/-- Who is assigned after a DELETE was so before. -/
theorem mem_removeAssignee {taskId taskId' userId userId' : String}
    (h : userId' ∈ (s.removeAssignee taskId userId).assignees taskId') :
    userId' ∈ s.assignees taskId' := by
  unfold Store.removeAssignee at h
  dsimp only at h
  by_cases ht : taskId' = taskId
  · subst ht
    rw [Function.update_self] at h
    exact (List.mem_filter.mp h).1
  · rw [Function.update_of_ne ht] at h
    exact h

/-- A new assignee is one the call relies on, of a task of its organisation. -/
theorem assignee_next {taskId userId : String} (h : c.next cfg s uuid = some (s', c'))
    (hassigning : c.assigning = true) (hrelies : c.Relies s) (howns : c.Owns s)
    (hnew : userId ∈ s'.assignees taskId) (hold : userId ∉ s.assignees taskId) :
    ∃ r, s.tasks.find taskId = some r ∧ (s.members r.orgId userId).isSome := by
  cases effect_next h with
  | read | event e | patched _ _ _ | restated | cascade | bulkDeleted | created _ _ | spawned _ _
  | workspaceDeleted => exact absurd hnew hold
  | removed => exact absurd (mem_removeAssignee hnew) hold
  | added =>
    rcases mem_addAssignee hnew with hin | ⟨rfl, rfl⟩
    · exact absurd hin hold
    · obtain ⟨r, hr, horg⟩ := howns
      refine ⟨r, hr, ?_⟩
      rw [horg]
      exact hrelies userId (decide_eq_true List.mem_cons_self)
  | assigned =>
    rcases mem_addAssignee hnew with hin | ⟨rfl, rfl⟩
    · exact absurd hin hold
    · obtain ⟨r, hr, horg⟩ := howns
      refine ⟨r, hr, ?_⟩
      rw [horg]
      exact hrelies userId (decide_eq_true List.mem_cons_self)
  | copied => cases hassigning

/-- An UPDATE that finds its row and is not refused applies. -/
theorem applies_of_patched {a : UpdateArgs} {r : TaskRow} (hr : s.tasks.find a.taskId = some r)
    (hcurrent : r.current a.orgId a.version = true) (haccepted : s.refuses a.data r = false) :
    a.applies s = true := by
  unfold UpdateArgs.applies
  split
  · have hlive : s.findById a.taskId = some r := by
      refine Option.filter_eq_some_iff.mpr ⟨hr, ?_⟩
      exact decide_eq_true (of_decide_eq_true hcurrent).2.2
    rw [hlive]
    rfl
  · rw [hr, Option.any_some]
    exact decide_eq_true ⟨hcurrent, haccepted⟩

/-- A call that writes a task or its assignees names members only. -/
theorem names_of_write {userId : String} (h : c.next cfg s uuid = some (s', c'))
    (hassigning : c.assigning = true) (hvetted : c.vetted s = true) (hrelies : c.Relies s)
    (hnames : userId ∈ c.names) (hnone : s.members c.orgId userId = none) :
    s'.tasks = s.tasks ∧ s'.assignees = s.assignees := by
  have hnot : c.relies userId = false := by
    refine eq_false_of_ne_true fun hin => ?_
    have hsome := hrelies userId hin
    rw [hnone] at hsome
    cases hsome
  cases effect_next h with
  | read | event e => exact ⟨rfl, rfl⟩
  | @patched a r hr hcurrent haccepted =>
    have happlies := applies_of_patched hr hcurrent haccepted
    have hsome := List.all_eq_true.mp (of_decide_eq_true hvetted happlies) userId hnames
    rw [show s.members a.orgId userId = none from hnone] at hsome
    cases hsome
  | removed | added | created _ _ | assigned =>
    exact absurd hnames (of_decide_eq_false hnot)
  | restated | cascade | bulkDeleted | spawned _ _ | copied | workspaceDeleted => cases hassigning

/-- Who is no member is rejected where he is looked up. -/
theorem threw_of_member {a : CreateArgs} {depth : ℕ} {userId : String} {rest : List String}
    (h : (opMachine cfg).next s (.createTask a (.member depth userId rest)) uuid = some (s', c'))
    (hvetted : Op.vetted s (.createTask a (.member depth userId rest)) = true)
    (hnone : s.members a.orgId userId = none) :
    c' = .createTask a (.threw (assigneeNotInOrg userId)) := by
  have hmap : ((createNext s uuid a (.member depth userId rest)).map fun x =>
    (x.1, Op.createTask a x.2)) = some (s', c') := h
  obtain ⟨pc', hpc, rfl⟩ := pc_of_next hmap
  obtain ⟨rfl, rfl⟩ := Prod.mk.inj (Option.some.inj hpc)
  rw [if_neg]
  intro hrole
  have hsome : (s.members a.orgId userId).isSome = true := of_decide_eq_true hvetted hrole
  rw [hnone] at hsome
  cases hsome

end Steps

/-! ## Runs -/

section Runs

variable {ι : Type*}

/-- **Everybody is vetted**: what passes a call's look-up is a member, and no membership ends that a
call relies on. -/
def Vetted (p : Ops ι) : Move ι String Env → Prop
  | .run i _ => (p.calls i).Keeps fun c => c.vetted p.store = true
  | .env (.member orgId userId none) =>
    ∀ j, ¬ (p.calls j).Live fun c => c.orgId = orgId ∧ c.relies userId = true
  | _ => True

instance [Fintype ι] (p : Ops ι) : ∀ m : Move ι String Env, Decidable (Vetted p m)
  | .run i _ => inferInstanceAs (Decidable ((p.calls i).Keeps fun c => c.vetted p.store = true))
  | .env (.member orgId userId none) => inferInstanceAs (Decidable
      (∀ j, ¬ (p.calls j).Live fun c => c.orgId = orgId ∧ c.relies userId = true))
  | .env (.member _ _ (some _)) | .env (.tick _) | .env .replicate | .crash _ =>
    inferInstanceAs (Decidable True)

variable [DecidableEq ι] {cfg : Config} {p q q' : Ops ι} {m : Move ι String Env}

/-- Nothing around a call takes from it what it relies on, but the removal of a member. -/
theorem relies_env {s : Store} {e : Env} {c : Op}
    (he : ∀ orgId userId, e = .member orgId userId none →
      ¬ (c.orgId = orgId ∧ c.relies userId = true)) (hc : c.Relies s) : c.Relies (env s e) := by
  intro userId hrelies
  have hmember := hc userId hrelies
  cases e with
  | tick ms => exact hmember
  | replicate => exact hmember
  | member orgId memberId role =>
    unfold env
    dsimp only
    by_cases horg : c.orgId = orgId
    · by_cases huser : userId = memberId
      · subst horg huser
        rw [Function.update_self, Function.update_self]
        cases role with
        | some role => rfl
        | none => exact absurd ⟨rfl, hrelies⟩ (he c.orgId userId rfl)
      · subst horg
        rw [Function.update_self, Function.update_of_ne huser]
        exact hmember
    · rw [Function.update_of_ne horg]
      exact hmember

/-- Each call relies on members that are so, in every state of such a run. -/
theorem relies_run (hstart : ∀ i, (p.calls i).Live fun c => c.fresh ∧ c.assigning)
    (h : Run (Pool.step (opMachine cfg)) Vetted p q) :
    ∀ i, (q.calls i).Keeps fun c => c.assigning = true ∧ c.Relies q.store ∧ c.Owns q.store := by
  refine Pool.invariant (I := fun p : Ops ι => ∀ i, (p.calls i).Keeps fun c =>
    c.assigning = true ∧ c.Relies p.store ∧ c.Owns p.store) (fun i => ?_) ?_ ?_ ?_ h
  · obtain ⟨c, hc, hfresh, hassigning⟩ := (hstart i).exists
    rw [hc]
    exact ⟨hassigning, relies_of_fresh hfresh hassigning, owns_of_fresh hfresh⟩
  · intro p i uuid c s' c' hI hG hc hnext
    rw [Vetted, hc] at hG
    have hself := (hI i).of_up hc
    obtain ⟨hassigning, hrelies, howns⟩ := hself
    obtain ⟨hrelies', hassigning'⟩ := relies_next hnext hassigning hG hrelies
    refine keeps_update_up ⟨hassigning', hrelies', owns_next hnext howns⟩ fun j _ => ?_
    refine (hI j).imp ?_
    rintro k ⟨hk, hkrelies, hkowns⟩
    exact ⟨hk, hkrelies.of_next hnext, hkowns.of_next hnext⟩
  · intro p i c hI _ _
    exact keeps_update_down hI
  · intro p e hI hG i
    have hi := hI i
    cases hk : p.calls i with
    | down k => trivial
    | up k =>
      rw [hk] at hi
      obtain ⟨hassigning, hrelies, howns⟩ := hi
      refine ⟨hassigning, relies_env ?_ hrelies, ?_⟩
      · rintro orgId userId rfl hends
        refine hG i ?_
        rw [hk]
        exact hends
      · cases e <;> exact howns

/-- **Assignees are members**, in every run in which everybody is vetted: a task is assigned only to
users who are members of its organisation at the time, a call that names anybody else writes neither
a task nor assignees, and `createTask` rejects it with the error. -/
theorem assignees_are_members (hstart : ∀ i, (p.calls i).Live fun c => c.fresh ∧ c.assigning)
    (hrun : Run (Pool.step (opMachine cfg)) Vetted p q) (hm : Vetted q m)
    (hstep : q.step (opMachine cfg) m = some q') :
    (∀ taskId userId, userId ∈ q'.store.assignees taskId → userId ∉ q.store.assignees taskId →
      ∃ r, q.store.tasks.find taskId = some r ∧ (q.store.members r.orgId userId).isSome)
    ∧ (∀ i uuid c userId, m = .run i uuid → q.calls i = .up c → userId ∈ c.names →
      q.store.members c.orgId userId = none →
        q'.store.tasks = q.store.tasks ∧ q'.store.assignees = q.store.assignees)
    ∧ ∀ i uuid a depth userId rest, m = .run i uuid →
      q.calls i = .up (.createTask a (.member depth userId rest)) →
      q.store.members a.orgId userId = none →
        q'.calls i = .up (.createTask a (.threw (assigneeNotInOrg userId))) := by
  have hinv := relies_run hstart hrun
  refine ⟨fun taskId userId hnew hold => ?_, ?_, ?_⟩
  · cases m with
    | run i uuid =>
      obtain ⟨c, s', c', hc, hnext, rfl⟩ := Pool.step_run hstep
      have hself := (hinv i).of_up hc
      exact assignee_next hnext hself.1 hself.2.1 hself.2.2 hnew hold
    | crash i =>
      obtain ⟨c, -, rfl⟩ := Pool.step_crash hstep
      exact absurd hnew hold
    | env e =>
      obtain rfl := Option.some.inj hstep
      cases e <;> exact absurd hnew hold
  · rintro i uuid c userId rfl hc hnames hnone
    obtain ⟨c₁, s', c', hc₁, hnext, rfl⟩ := Pool.step_run hstep
    obtain rfl := Proc.up.inj (hc.symm.trans hc₁)
    rw [Vetted, hc] at hm
    have hself := (hinv i).of_up hc
    exact names_of_write hnext hself.1 hm hself.2.1 hnames hnone
  · rintro i uuid a depth userId rest rfl hc hnone
    obtain ⟨c, s', c', hc₁, hnext, rfl⟩ := Pool.step_run hstep
    obtain rfl := Proc.up.inj (hc.symm.trans hc₁)
    rw [Vetted, hc] at hm
    have hthrew := threw_of_member hnext hm hnone
    dsimp only
    rw [Function.update_self, hthrew]

end Runs

/-! ## A stranger -/

/-- The creator assigns the task to somebody. -/
def assignTo (userId : String) : Ops (Fin 1) where
  store :=
    { demoStore with
      members := fun _ userId => if userId = "m" then some .member else none
      roles := fun _ userId => if userId = "m" then some .member else none }
  calls := ![.up (.edit (.updateTask (demoEdit none (some [userId])) .find))]

/-- **A stranger is assigned**: the edit looks nobody up. -/
theorem stranger_assigned :
    (∀ i, ((assignTo "x").calls i).Live fun c => c.fresh ∧ c.assigning)
      ∧ ∃ q q' : Ops (Fin 1), Run (Pool.step (opMachine demoConfig)) anyStep (assignTo "x") q
        ∧ q.step (opMachine demoConfig) (.run 0 "") = some q'
        ∧ "x" ∈ q'.store.assignees "t" ∧ "x" ∉ q.store.assignees "t"
        ∧ ∀ r, q.store.tasks.find "t" = some r → q.store.members r.orgId "x" = none := by
  refine ⟨by decide, ?_⟩
  obtain ⟨q, q', hq, -, hq', h⟩ := exists_step_of_exec (Pool.step (opMachine demoConfig)) anyStep
    (assignTo "x") [.run 0 "", .run 0 "", .run 0 "", .run 0 "", .run 0 ""] (.run 0 "")
    (fun q q' => "x" ∈ q'.store.assignees "t" ∧ "x" ∉ q.store.assignees "t"
      ∧ (q.store.tasks.find "t").all fun r => q.store.members r.orgId "x" = none) (by decide)
  obtain ⟨hnew, hold, hnone⟩ := of_decide_eq_true h
  refine ⟨q, q', hq, hq', hnew, hold, fun r hr => ?_⟩
  rw [hr] at hnone
  exact of_decide_eq_true hnone

/-- A member is assigned. -/
theorem member_assigned :
    ∃ q q' : Ops (Fin 1), Run (Pool.step (opMachine demoConfig)) Vetted (assignTo "m") q
      ∧ q.step (opMachine demoConfig) (.run 0 "") = some q'
      ∧ "m" ∈ q'.store.assignees "t"
      ∧ ∃ r, q.store.tasks.find "t" = some r ∧ (q.store.members r.orgId "m").isSome := by
  obtain ⟨q, q', hq, hG, hq', h⟩ := exists_step_of_exec (Pool.step (opMachine demoConfig)) Vetted
    (assignTo "m") [.run 0 "", .run 0 "", .run 0 "", .run 0 "", .run 0 ""] (.run 0 "")
    (fun q q' => "m" ∈ q'.store.assignees "t" ∧ "m" ∉ q.store.assignees "t") (by decide)
  obtain ⟨hnew, hold⟩ := of_decide_eq_true h
  exact ⟨q, q', hq, hq', hnew,
    (assignees_are_members (by decide) hq hG hq').1 "t" "m" hnew hold⟩

end WorkPlatform.Task

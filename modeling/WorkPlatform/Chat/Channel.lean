import Mathlib.Logic.Function.Basic
import WorkPlatform.Machinery.Run
import WorkPlatform.Machinery.Table
import WorkPlatform.Shared.AppError

/-!
# Chat/Channel — channels and their members

    createDirect            creator ▸ other ▸ transaction ▸ outbox
                            where the pair has a channel: ▸ existing
    createGroup             flag ▸ member … ▸ transaction ▸ outbox
    createWorkspaceChannel  member ▸ transaction ▸ outbox

A transaction is one step: the channel, its members, the pair where it is a direct one, and its
sequence.  The look-ups of members are on the replica of the memberships; the workspace is looked at
by the foreign key only.
-/

namespace WorkPlatform.Chat

open Machinery

/-! ## The store -/

inductive ChannelType
  | direct | group
  deriving DecidableEq, Repr

/-- A row of `channels`. -/
structure ChannelRow where
  id : String
  orgId : String
  type : ChannelType
  name : Option String
  createdBy : String
  workspaceId : Option String
  deletedAt : Option ℕ
  deriving DecidableEq

/-- A row of `direct_channel_pairs`; the primary key is without the channel. -/
structure DirectPair where
  orgId : String
  userAId : String
  userBId : String
  channelId : String
  deriving DecidableEq

/-- What the service writes to `outbox_events`. -/
structure ChannelEvent where
  orgId : String
  channelId : String
  creatorId : String
  deriving DecidableEq

/-- `members` are the members of a channel that are not removed; `sequences` is the number last
drawn from the sequence of a channel, where there is one. -/
structure ChannelStore where
  channels : Table ChannelRow.id
  members : String → List String
  pairs : List DirectPair
  sequences : String → Option ℕ
  outbox : List ChannelEvent

/-- What the service reads of others: memberships, as the replica has them; workspaces; and
`isEnabled(orgId, 'feature.chat')`. -/
structure Directory where
  isMember : String → String → Bool
  hasWorkspace : String → Bool
  chatEnabled : String → Bool

namespace ChannelStore

/-- `channelRepo.create`, `addMember` for the users and `create_channel_sequence`; `none` where the
row is refused. -/
def create (s : ChannelStore) (d : Directory) (row : ChannelRow) (users : List String) :
    Option ChannelStore :=
  if row.workspaceId.all d.hasWorkspace then
    (s.channels.insert row).map fun channels =>
      { s with
        channels := channels
        members := Function.update s.members row.id users.eraseDups
        sequences := Function.update s.sequences row.id (some ((s.sequences row.id).getD 0)) }
  else none

/-- The pair the primary key allows one of. -/
def findPair (s : ChannelStore) (orgId userAId userBId : String) : Option DirectPair :=
  s.pairs.find? fun pair => pair.orgId = orgId ∧ pair.userAId = userAId ∧ pair.userBId = userBId

/-- `findDirectChannel`. -/
def findDirectChannel (s : ChannelStore) (orgId userAId userBId : String) : Option ChannelRow :=
  ((s.findPair orgId userAId userBId).bind fun pair => s.channels.find pair.channelId).filter
    fun channel => channel.deletedAt = none

def writeOutboxEvent (s : ChannelStore) (orgId channelId creatorId : String) : ChannelStore :=
  { s with outbox := ⟨orgId, channelId, creatorId⟩ :: s.outbox }

end ChannelStore

/-! ## `createDirect` -/

/-- The arguments of `createDirect`. -/
structure DirectArgs where
  orgId : String
  creatorId : String
  otherUserId : String
  deriving DecidableEq

namespace DirectArgs

def userAId (a : DirectArgs) : String :=
  if a.creatorId < a.otherUserId then a.creatorId else a.otherUserId

def userBId (a : DirectArgs) : String :=
  if a.creatorId < a.otherUserId then a.otherUserId else a.creatorId

def row (a : DirectArgs) (id : String) : ChannelRow :=
  ⟨id, a.orgId, .direct, none, a.creatorId, none, none⟩

/-- The transaction; `none` where the pair has a channel. -/
def transaction (a : DirectArgs) (s : ChannelStore) (d : Directory) (uuid : String) :
    Option ChannelStore :=
  if (s.findPair a.orgId a.userAId a.userBId).isSome then none
  else (s.create d (a.row uuid) [a.creatorId, a.otherUserId]).map fun s' =>
    { s' with pairs := ⟨a.orgId, a.userAId, a.userBId, uuid⟩ :: s'.pairs }

end DirectArgs

/-- Where a call of `createDirect` is. -/
inductive DirectPc
  | creator
  | other (creatorMembership : Bool)
  | transaction
  | outbox (channel : ChannelRow)
  | existing
  | returned (channel : ChannelRow) (created : Bool)
  | threw (e : AppError)
  | failed
  deriving DecidableEq

def notOrgMember : AppError := .forbidden "NOT_ORG_MEMBER" "Creator is not an org member"

def cannotDmSelf : AppError :=
  .badRequest "CANNOT_DM_SELF" "Cannot create a direct message channel with yourself"

/-- The check before the first statement. -/
def DirectArgs.entry (a : DirectArgs) : DirectPc :=
  if a.creatorId = a.otherUserId then .threw cannotDmSelf else .creator

/-- The next statement of `createDirect`; its transaction is one step. -/
def directNext (d : Directory) (s : ChannelStore) (uuid : String) (a : DirectArgs) :
    DirectPc → Option (ChannelStore × DirectPc)
  | .creator => some (s, .other (d.isMember a.orgId a.creatorId))
  | .other creatorMembership => some (s,
      if ¬ creatorMembership then .threw notOrgMember
      else if ¬ d.isMember a.orgId a.otherUserId then .threw (.notFound "OtherUser")
      else .transaction)
  | .transaction =>
    match a.transaction s d uuid with
    | some s' => some (s', .outbox (a.row uuid))
    | none => some (s, .existing)
  | .outbox channel =>
    some (s.writeOutboxEvent a.orgId channel.id a.creatorId, .returned channel true)
  | .existing => some (s,
      match s.findDirectChannel a.orgId a.userAId a.userBId with
      | some channel => .returned channel false
      | none => .failed)
  | .returned _ _ | .threw _ | .failed => none

/-! ## `createGroup` and `createWorkspaceChannel` -/

/-- The arguments of `createGroup`. -/
structure GroupArgs where
  orgId : String
  creatorId : String
  name : String
  memberIds : List String
  deriving DecidableEq

/-- The arguments of `createWorkspaceChannel`. -/
structure WorkspaceArgs where
  orgId : String
  creatorId : String
  name : String
  workspaceId : String
  deriving DecidableEq

/-- Where a call of `createGroup` or `createWorkspaceChannel` is. -/
inductive GroupPc
  | flag
  | member (userId : String) (rest : List String)
  | transaction
  | outbox (channel : ChannelRow)
  | returned (channel : ChannelRow)
  | threw (e : AppError)
  | failed
  deriving DecidableEq

def featureNotEnabled : AppError :=
  .forbidden "FEATURE_NOT_ENABLED"
    "Chat is not enabled for this organization. Upgrade to pro plan."

def insufficientMembers : AppError :=
  .unprocessable "INSUFFICIENT_MEMBERS" "Group channels require at least 2 members"

def memberNotInOrg (userId : String) : AppError :=
  .unprocessable "MEMBER_NOT_IN_ORG" ("User " ++ userId ++ " is not an org member")

/-- The loop that looks the members up. -/
def GroupPc.checking : List String → GroupPc
  | [] => .transaction
  | userId :: rest => .member userId rest

/-- `[...new Set([creatorId, ...memberIds])]`. -/
def GroupArgs.users (a : GroupArgs) : List String := (a.creatorId :: a.memberIds).eraseDups

def GroupArgs.row (a : GroupArgs) (id : String) : ChannelRow :=
  ⟨id, a.orgId, .group, some a.name, a.creatorId, none, none⟩

def WorkspaceArgs.row (a : WorkspaceArgs) (id : String) : ChannelRow :=
  ⟨id, a.orgId, .group, some a.name, a.creatorId, some a.workspaceId, none⟩

/-- The transaction of a group channel, and what follows it. -/
def groupWrite (d : Directory) (s : ChannelStore) (row : ChannelRow) (users : List String) :
    GroupPc → Option (ChannelStore × GroupPc)
  | .transaction =>
    match s.create d row users with
    | some s' => some (s', .outbox row)
    | none => some (s, .failed)
  | .outbox channel =>
    some (s.writeOutboxEvent channel.orgId channel.id channel.createdBy, .returned channel)
  | _ => none

/-- The next statement of `createGroup`. -/
def groupNext (d : Directory) (s : ChannelStore) (uuid : String) (a : GroupArgs) :
    GroupPc → Option (ChannelStore × GroupPc)
  | .flag => some (s,
      if ¬ d.chatEnabled a.orgId then .threw featureNotEnabled
      else if a.memberIds.length < 2 then .threw insufficientMembers
      else .checking a.users)
  | .member userId rest => some (s,
      if d.isMember a.orgId userId then .checking rest else .threw (memberNotInOrg userId))
  | pc => groupWrite d s (a.row uuid) a.users pc

/-- The next statement of `createWorkspaceChannel`. -/
def workspaceNext (d : Directory) (s : ChannelStore) (uuid : String) (a : WorkspaceArgs) :
    GroupPc → Option (ChannelStore × GroupPc)
  | .member _ _ => some (s,
      if d.isMember a.orgId a.creatorId then .transaction else .threw notOrgMember)
  | pc => groupWrite d s (a.row uuid) [a.creatorId] pc

/-! ## Calls -/

/-- A call, and where it is. -/
inductive ChannelCall
  | createDirect (args : DirectArgs) (pc : DirectPc)
  | createGroup (args : GroupArgs) (pc : GroupPc)
  | createWorkspaceChannel (args : WorkspaceArgs) (pc : GroupPc)
  deriving DecidableEq

/-- The call has not run a statement yet. -/
def ChannelCall.fresh : ChannelCall → Bool
  | .createDirect a pc => pc = a.entry
  | .createGroup _ .flag => true
  | .createWorkspaceChannel a pc => pc = .member a.creatorId []
  | _ => false

/-- The next statement of a call. -/
def ChannelCall.next (d : Directory) (s : ChannelStore) (uuid : String) :
    ChannelCall → Option (ChannelStore × ChannelCall)
  | .createDirect a pc => (directNext d s uuid a pc).map fun x => (x.1, .createDirect a x.2)
  | .createGroup a pc => (groupNext d s uuid a pc).map fun x => (x.1, .createGroup a x.2)
  | .createWorkspaceChannel a pc =>
    (workspaceNext d s uuid a pc).map fun x => (x.1, .createWorkspaceChannel a x.2)

/-! ## What a statement writes -/

/-- The channel the next statement of a call makes, with its members. -/
def ChannelCall.makes (uuid : String) : ChannelCall → Option (ChannelRow × List String)
  | .createDirect a .transaction => some (a.row uuid, [a.creatorId, a.otherUserId])
  | .createGroup a .transaction => some (a.row uuid, a.users)
  | .createWorkspaceChannel a .transaction => some (a.row uuid, [a.creatorId])
  | _ => none

/-- **What a statement does** to channels, members and sequences. -/
inductive ChannelWrote (d : Directory) (s : ChannelStore) (uuid : String) (c : ChannelCall)
    (s' : ChannelStore) : Prop
  | same (hchannels : s'.channels = s.channels) (hmembers : s'.members = s.members)
      (hsequences : s'.sequences = s.sequences)
  | made {row : ChannelRow} {users : List String} {t : ChannelStore}
      (hmakes : c.makes uuid = some (row, users)) (hcreate : s.create d row users = some t)
      (hchannels : s'.channels = t.channels) (hmembers : s'.members = t.members)
      (hsequences : s'.sequences = t.sequences)

section ChannelWrote

variable {d : Directory} {s s' : ChannelStore} {uuid : String} {c c' : ChannelCall}

/-- What a group channel's transaction writes. -/
theorem wrote_groupWrite {row : ChannelRow} {users : List String} {pc pc' : GroupPc}
    (h : groupWrite d s row users pc = some (s', pc'))
    (hmakes : pc = .transaction → c.makes uuid = some (row, users)) :
    ChannelWrote d s uuid c s' := by
  cases pc with
  | transaction =>
    rw [groupWrite] at h
    split at h
    all_goals obtain ⟨rfl, -⟩ := Prod.mk.inj (Option.some.inj h)
    case h_1 hcreate => exact .made (hmakes rfl) hcreate rfl rfl rfl
    case h_2 => exact .same rfl rfl rfl
  | outbox channel =>
    obtain ⟨rfl, -⟩ := Prod.mk.inj (Option.some.inj h)
    exact .same rfl rfl rfl
  | _ => cases h

/-- What each statement of `createDirect` writes. -/
theorem wrote_directNext {a : DirectArgs} {pc pc' : DirectPc}
    (h : directNext d s uuid a pc = some (s', pc')) :
    ChannelWrote d s uuid (.createDirect a pc) s' := by
  cases pc with
  | transaction =>
    rw [directNext] at h
    split at h
    all_goals obtain ⟨rfl, -⟩ := Prod.mk.inj (Option.some.inj h)
    case h_1 htransaction =>
      unfold DirectArgs.transaction at htransaction
      split at htransaction
      · cases htransaction
      · obtain ⟨t, hcreate, rfl⟩ := Option.map_eq_some_iff.mp htransaction
        exact .made rfl hcreate rfl rfl rfl
    case h_2 => exact .same rfl rfl rfl
  | creator | other | outbox | existing =>
    obtain ⟨rfl, -⟩ := Prod.mk.inj (Option.some.inj h)
    exact .same rfl rfl rfl
  | returned | threw | failed => cases h

/-- What each statement of these services writes. -/
theorem channelWrote_next (h : c.next d s uuid = some (s', c')) : ChannelWrote d s uuid c s' := by
  cases c with
  | createDirect a pc =>
    obtain ⟨pc', hpc, -⟩ := pc_of_next h
    exact wrote_directNext hpc
  | createGroup a pc =>
    obtain ⟨pc', hpc, -⟩ := pc_of_next h
    unfold groupNext at hpc
    split at hpc
    · obtain ⟨rfl, -⟩ := Prod.mk.inj (Option.some.inj hpc)
      exact .same rfl rfl rfl
    · obtain ⟨rfl, -⟩ := Prod.mk.inj (Option.some.inj hpc)
      exact .same rfl rfl rfl
    · exact wrote_groupWrite hpc fun htransaction => htransaction ▸ rfl
  | createWorkspaceChannel a pc =>
    obtain ⟨pc', hpc, -⟩ := pc_of_next h
    unfold workspaceNext at hpc
    split at hpc
    · obtain ⟨rfl, -⟩ := Prod.mk.inj (Option.some.inj hpc)
      exact .same rfl rfl rfl
    · exact wrote_groupWrite hpc fun htransaction => htransaction ▸ rfl

end ChannelWrote

end WorkPlatform.Chat

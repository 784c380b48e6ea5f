import Mathlib.Data.String.Basic
import WorkPlatform.Chat.Channel

/-!
# Chat/Transaction — the transaction of `createDirect`

    creator ▸ other ▸ BEGIN channel ▸ member ▸ member ▸ pair ▸ sequence ▸ COMMIT ▸ outbox
                               └──── 23505: ROLLBACK ────┴▸ existing

What a transaction has written is its own until COMMIT, and lost with a ROLLBACK or a crash.  An
INSERT of a pair waits for a transaction that has inserted the pair and not ended, and fails where
the pair is committed (`Blocking`); the ids of channels are new.

Every statement keeps pairs and direct channels together (`extends_next`).  At COMMIT the
transaction does what the one step of `DirectArgs.transaction` does (`commit_eq_transaction`).

The ids of users are in the form in which the order of texts is that of UUIDs.
-/

namespace WorkPlatform.Chat

open Machinery

/-! ## The statements of the transaction -/

/-- What a transaction has written. -/
structure Pending where
  channel : ChannelRow
  members : List String
  pair : Option DirectPair
  sequence : Bool
  deriving DecidableEq

/-- `addMember`; the second INSERT of a member does nothing. -/
def Pending.addMember (tx : Pending) (userId : String) : Pending :=
  if userId ∈ tx.members then tx else { tx with members := tx.members ++ [userId] }

/-- COMMIT. -/
def Pending.commit (tx : Pending) (s : ChannelStore) : Option ChannelStore :=
  (s.channels.insert tx.channel).map fun channels =>
    { s with
      channels := channels
      members := Function.update s.members tx.channel.id tx.members
      pairs := tx.pair.toList ++ s.pairs
      sequences :=
        if tx.sequence then Function.update s.sequences tx.channel.id
          (some ((s.sequences tx.channel.id).getD 0))
        else s.sequences }

namespace Direct

/-- The statement a call of `createDirect` runs next. -/
inductive Pc
  | creator
  | other (creatorMembership : Bool)
  | insertChannel
  | addMember (tx : Pending) (userId : String) (rest : List String)
  | insertDirectPair (tx : Pending)
  | createSequence (tx : Pending)
  | commit (tx : Pending)
  | outbox (channel : ChannelRow)
  | existing
  | returned (channel : ChannelRow) (created : Bool)
  | threw (e : AppError)
  | failed
  deriving DecidableEq

/-- A call of `createDirect`. -/
structure Call where
  args : DirectArgs
  pc : Pc
  deriving DecidableEq

/-- The memberships are those of the replica. -/
structure World where
  channels : ChannelStore
  directory : Directory

def World.putChannels (w : World) (channels : ChannelStore) : World :=
  { w with channels := channels }

/-- The two INSERTs of members, one after the other. -/
def Pc.adding (tx : Pending) : List String → Pc
  | [] => .insertDirectPair tx
  | userId :: rest => .addMember tx userId rest

def directPair (a : DirectArgs) (channelId : String) : DirectPair :=
  ⟨a.orgId, a.userAId, a.userBId, channelId⟩

/-- Before the first statement. -/
def entry (a : DirectArgs) : Pc :=
  if a.creatorId = a.otherUserId then .threw cannotDmSelf else .creator

/-- The next statement of `createDirect`, with its transaction statement by statement. -/
def next (w : World) (uuid : String) (a : DirectArgs) : Pc → Option (World × Pc)
  | .creator => some (w, .other (w.directory.isMember a.orgId a.creatorId))
  | .other creatorMembership => some (w,
      if ¬ creatorMembership then .threw notOrgMember
      else if ¬ w.directory.isMember a.orgId a.otherUserId then .threw (.notFound "OtherUser")
      else .insertChannel)
  | .insertChannel => some (w,
      if (w.channels.channels.find uuid).isSome then .existing
      else .adding ⟨a.row uuid, [], none, false⟩ [a.creatorId, a.otherUserId])
  | .addMember tx userId rest => some (w, .adding (tx.addMember userId) rest)
  | .insertDirectPair tx => some (w,
      -- the CHECK comes before the primary key
      if ¬ a.userAId < a.userBId then .failed
      else if (w.channels.findPair a.orgId a.userAId a.userBId).isSome then .existing
      else .createSequence { tx with pair := some (directPair a tx.channel.id) })
  | .createSequence tx => some (w, .commit { tx with sequence := true })
  | .commit tx =>
    match tx.commit w.channels with
    | some channels => some (w.putChannels channels, .outbox tx.channel)
    | none => some (w, .failed)
  | .outbox channel => some
      (w.putChannels (w.channels.writeOutboxEvent a.orgId channel.id a.creatorId),
        .returned channel true)
  | .existing => some (w,
      match w.channels.findDirectChannel a.orgId a.userAId a.userBId with
      | some channel => .returned channel false
      | none => .failed)
  | .returned _ _ | .threw _ | .failed => none

def machine : Machine World Call String Directory where
  next w c uuid := (next w uuid c.args c.pc).map fun x => (x.1, ⟨c.args, x.2⟩)
  env w d := { w with directory := d }

/-- Calls of `createDirect`. -/
abbrev Calls (ι : Type*) := Pool ι World Call

/-! ## Keys -/

/-- What the primary key of `direct_channel_pairs` is about. -/
structure Key where
  orgId : String
  userAId : String
  userBId : String
  deriving DecidableEq

def key (x : DirectPair) : Key := ⟨x.orgId, x.userAId, x.userBId⟩

def keyOf (a : DirectArgs) : Key := ⟨a.orgId, a.userAId, a.userBId⟩

/-- The pair that the next statement of a call inserts. -/
def Call.inserts : Call → Option Key
  | ⟨a, .insertDirectPair _⟩ => some (keyOf a)
  | _ => none

/-- The pair that the transaction of a call has inserted. -/
def Call.holds : Call → Option Key
  | ⟨a, .createSequence _⟩ | ⟨a, .commit _⟩ => some (keyOf a)
  | _ => none

/-- The channel that the transaction of a call has inserted. -/
def Call.pendingId : Call → Option String
  | ⟨_, .addMember tx _ _⟩ | ⟨_, .insertDirectPair tx⟩ | ⟨_, .createSequence tx⟩
  | ⟨_, .commit tx⟩ => some tx.channel.id
  | _ => none

/-- The pair whose channel the call has made. -/
def Call.made : Call → Option Key
  | ⟨a, .outbox _⟩ | ⟨a, .returned _ true⟩ => some (keyOf a)
  | _ => none

variable {ι : Type*}

/-- The id is in no channel, committed or not. -/
def New (p : Calls ι) (id : String) : Prop :=
  p.store.channels.channels.find id = none ∧ ∀ j, ¬ (p.calls j).Live (·.pendingId = some id)

/-- **Unique keys of PostgreSQL**: an INSERT of a pair waits for the end of a running transaction
that has inserted the pair; `gen_random_uuid()` draws new ids. -/
def Blocking (p : Calls ι) : Move ι String Directory → Prop
  | .run i uuid => (p.calls i).Keeps fun c =>
      (∀ k ∈ c.inserts, ∀ j, j ≠ i → ¬ (p.calls j).Live (·.holds = some k))
      ∧ (c.pc = .insertChannel → New p uuid)
  | _ => True

/-! ## The tables -/

/-- The channel is the direct channel of the two users. -/
structure IsDirect (s : ChannelStore) (orgId u v : String) (channel : ChannelRow) : Prop where
  row : s.channels.find channel.id = some channel
  type : channel.type = .direct
  org : channel.orgId = orgId
  live : channel.deletedAt = none
  pair : ⟨orgId, u, v, channel.id⟩ ∈ s.pairs
  members : ∀ x, x ∈ s.members channel.id ↔ x = u ∨ x = v
  sequence : (s.sequences channel.id).isSome

/-- Direct channels and pairs belong together. -/
structure Paired (s : ChannelStore) : Prop where
  direct : ∀ x ∈ s.pairs, x.userAId < x.userBId
    ∧ ∃ channel, channel.id = x.channelId ∧ IsDirect s x.orgId x.userAId x.userBId channel
  paired : ∀ channel ∈ s.channels.rows, channel.type = .direct →
    ∃ x ∈ s.pairs, x.channelId = channel.id
  unique : ∀ x ∈ s.pairs, ∀ y ∈ s.pairs, key x = key y → x = y

/-- Nothing is lost. -/
structure Extends (s s' : ChannelStore) : Prop where
  channels : ∀ channel, s.channels.find channel.id = some channel →
    s'.channels.find channel.id = some channel ∧ s'.members channel.id = s.members channel.id
      ∧ s'.sequences channel.id = s.sequences channel.id
  pairs : ∀ x ∈ s.pairs, x ∈ s'.pairs

section Tables

variable {s s' : ChannelStore} {a : DirectArgs} {orgId u v id : String} {channel : ChannelRow}

theorem Extends.refl (s : ChannelStore) : Extends s s := ⟨fun _ h => ⟨h, rfl, rfl⟩, fun _ h => h⟩

theorem IsDirect.mono (h : IsDirect s orgId u v channel) (hs : Extends s s') :
    IsDirect s' orgId u v channel := by
  obtain ⟨hrow, hmembers, hsequence⟩ := hs.channels channel h.row
  refine ⟨hrow, h.type, h.org, h.live, hs.pairs _ h.pair, ?_, ?_⟩
  · rw [hmembers]
    exact h.members
  · rw [hsequence]
    exact h.sequence

theorem key_findPair {x : DirectPair} (h : s.findPair a.orgId a.userAId a.userBId = some x) :
    x ∈ s.pairs ∧ key x = keyOf a := by
  have hselected := List.find?_some h
  obtain ⟨horg, hA, hB⟩ := of_decide_eq_true hselected
  refine ⟨List.mem_of_find?_eq_some h, ?_⟩
  unfold key keyOf
  rw [horg, hA, hB]

theorem key_of_findPair_none (h : s.findPair a.orgId a.userAId a.userBId = none) {x : DirectPair}
    (hx : x ∈ s.pairs) : key x ≠ keyOf a := by
  intro hkey
  obtain ⟨horg, hA, hB⟩ := Key.mk.inj hkey
  exact List.find?_eq_none.mp h x hx (decide_eq_true ⟨horg, hA, hB⟩)

/-- The look-up finds the channel of the pair. -/
theorem findDirectChannel_eq (hs : Paired s)
    (h : IsDirect s a.orgId a.userAId a.userBId channel) :
    s.findDirectChannel a.orgId a.userAId a.userBId = some channel := by
  unfold ChannelStore.findDirectChannel
  cases hfind : s.findPair a.orgId a.userAId a.userBId with
  | none => exact absurd rfl (key_of_findPair_none hfind h.pair)
  | some x =>
    obtain ⟨hx, hkey⟩ := key_findPair hfind
    obtain rfl := hs.unique x hx _ h.pair hkey
    rw [Option.bind_some, h.row, Option.filter_some, if_pos (decide_eq_true h.live)]

theorem userAId_lt (hne : a.creatorId ≠ a.otherUserId) : a.userAId < a.userBId := by
  unfold DirectArgs.userAId DirectArgs.userBId
  split
  case isTrue hlt => exact hlt
  case isFalse hle => exact (lt_or_gt_of_ne hne).resolve_left hle

theorem mem_users (a : DirectArgs) (u : String) :
    u ∈ [a.creatorId, a.otherUserId] ↔ u = a.userAId ∨ u = a.userBId := by
  unfold DirectArgs.userAId DirectArgs.userBId
  rw [List.mem_pair]
  split
  · rfl
  · exact or_comm

/-! ### COMMIT -/

/-- What a transaction of `createDirect` has written at its end. -/
def written (a : DirectArgs) (id : String) : Pending :=
  ⟨a.row id, [a.creatorId, a.otherUserId], some (directPair a id), true⟩

/-- The COMMIT puts into the tables what the transaction has written, and nothing else. -/
theorem commit_written (hid : s.channels.find id = none) :
    ∃ channels, s.channels.insert (a.row id) = some channels
      ∧ (written a id).commit s = some
        { s with
          channels := channels
          members := Function.update s.members id [a.creatorId, a.otherUserId]
          pairs := directPair a id :: s.pairs
          sequences := Function.update s.sequences id (some ((s.sequences id).getD 0)) } := by
  have hfree : (a.row id).id ∉ s.channels.rows.map ChannelRow.id := by
    intro hmem
    obtain ⟨channel, hrow, heq⟩ := List.mem_map.mp hmem
    exact Table.find_eq_none.mp hid channel hrow heq
  have hinsert : s.channels.insert (a.row id)
      = some ⟨a.row id :: s.channels.rows, List.nodup_cons.mpr ⟨hfree, s.channels.keys_nodup⟩⟩ :=
    dif_neg hfree
  refine ⟨_, hinsert, ?_⟩
  unfold Pending.commit written
  dsimp only
  rw [hinsert]
  rfl

/-- **COMMIT is the one step of the transaction.** -/
theorem commit_eq_transaction (d : Directory) (hne : a.creatorId ≠ a.otherUserId)
    (hfree : ∀ x ∈ s.pairs, key x ≠ keyOf a) :
    (written a id).commit s = a.transaction s d id := by
  have hpair : s.findPair a.orgId a.userAId a.userBId = none := by
    cases hfind : s.findPair a.orgId a.userAId a.userBId with
    | none => rfl
    | some x => exact absurd (key_findPair hfind).2 (hfree x (key_findPair hfind).1)
  have husers : [a.creatorId, a.otherUserId].eraseDups = [a.creatorId, a.otherUserId] := by
    simp [List.eraseDups_cons, hne.symm]
  have hcreate : s.create d (a.row id) [a.creatorId, a.otherUserId]
      = (s.channels.insert (a.row id)).map fun channels =>
        { s with
          channels := channels
          members := Function.update s.members id [a.creatorId, a.otherUserId]
          sequences := Function.update s.sequences id (some ((s.sequences id).getD 0)) } := by
    unfold ChannelStore.create
    rw [husers]
    rfl
  unfold DirectArgs.transaction
  rw [hpair, hcreate, Option.map_map]
  rfl

/-- What COMMIT leaves as it was. -/
theorem extends_commit (hid : s.channels.find id = none)
    (h : (written a id).commit s = some s') : Extends s s' := by
  obtain ⟨channels, hinsert, hcommit⟩ := commit_written (a := a) hid
  obtain rfl := Option.some.inj (h.symm.trans hcommit)
  refine ⟨fun channel hrow => ?_, fun x hx => List.mem_cons_of_mem _ hx⟩
  have hne : channel.id ≠ id := by
    rintro rfl
    cases hid.symm.trans hrow
  have hrow_ne : (a.row id).id ≠ channel.id := Ne.symm hne
  refine ⟨?_, Function.update_of_ne hne _ _, Function.update_of_ne hne _ _⟩
  dsimp only
  rw [Table.find_insert hinsert, if_neg hrow_ne]
  exact hrow

/-- The COMMIT makes a direct channel of the two users. -/
theorem isDirect_commit (hid : s.channels.find id = none)
    (h : (written a id).commit s = some s') :
    IsDirect s' a.orgId a.userAId a.userBId (a.row id) := by
  obtain ⟨channels, hinsert, hcommit⟩ := commit_written (a := a) hid
  obtain rfl := Option.some.inj (h.symm.trans hcommit)
  refine ⟨?_, rfl, rfl, rfl, List.mem_cons_self, fun u => ?_, ?_⟩
  · dsimp only
    rw [Table.find_insert hinsert, if_pos rfl]
  · dsimp only [DirectArgs.row]
    rw [Function.update_self]
    exact mem_users a u
  · dsimp only [DirectArgs.row]
    rw [Function.update_self]
    rfl

/-- And keeps the pairs apart, where nobody has taken the pair. -/
theorem paired_commit (hs : Paired s) (hne : a.creatorId ≠ a.otherUserId)
    (hid : s.channels.find id = none) (hfree : ∀ x ∈ s.pairs, key x ≠ keyOf a)
    (h : (written a id).commit s = some s') : Paired s' := by
  have hextends := extends_commit hid h
  have hnew := isDirect_commit hid h
  obtain ⟨channels, hinsert, hcommit⟩ := commit_written (a := a) hid
  obtain rfl := Option.some.inj (h.symm.trans hcommit)
  refine ⟨fun x hx => ?_, fun channel hrow htype => ?_, fun x hx y hy hkey => ?_⟩
  · rcases List.mem_cons.mp hx with rfl | hold
    · exact ⟨userAId_lt hne, a.row id, rfl, hnew⟩
    · obtain ⟨hlt, channel, hchannel, hdirect⟩ := hs.direct x hold
      exact ⟨hlt, channel, hchannel, hdirect.mono hextends⟩
  · rw [(Table.insert_eq_some hinsert).2] at hrow
    rcases List.mem_cons.mp hrow with rfl | hold
    · exact ⟨directPair a id, List.mem_cons_self, rfl⟩
    · obtain ⟨x, hx, hchannel⟩ := hs.paired channel hold htype
      exact ⟨x, List.mem_cons_of_mem _ hx, hchannel⟩
  · rcases List.mem_cons.mp hx with rfl | hxold
    · rcases List.mem_cons.mp hy with rfl | hyold
      · rfl
      · exact absurd hkey.symm (hfree y hyold)
    · rcases List.mem_cons.mp hy with rfl | hyold
      · exact absurd hkey (hfree x hxold)
      · exact hs.unique x hxold y hyold hkey

theorem extends_outbox (s : ChannelStore) (orgId channelId creatorId : String) :
    Extends s (s.writeOutboxEvent orgId channelId creatorId) :=
  ⟨fun _ h => ⟨h, rfl, rfl⟩, fun _ h => h⟩

theorem paired_outbox (hs : Paired s) (orgId channelId creatorId : String) :
    Paired (s.writeOutboxEvent orgId channelId creatorId) := by
  refine ⟨fun x hx => ?_, hs.paired, hs.unique⟩
  obtain ⟨hlt, channel, hchannel, hdirect⟩ := hs.direct x hx
  exact ⟨hlt, channel, hchannel, hdirect.mono (extends_outbox s orgId channelId creatorId)⟩

end Tables

/-! ## What a call knows -/

/-- Where a call has got to, what it has written, and what it has found. -/
def Call.Knows (s : ChannelStore) : Call → Prop
  | ⟨a, .creator⟩ | ⟨a, .other _⟩ | ⟨a, .insertChannel⟩ => a.creatorId ≠ a.otherUserId
  | ⟨a, .addMember tx userId rest⟩ => a.creatorId ≠ a.otherUserId ∧ ∃ id,
      tx = ⟨a.row id, [], none, false⟩ ∧ userId = a.creatorId ∧ rest = [a.otherUserId]
      ∨ tx = ⟨a.row id, [a.creatorId], none, false⟩ ∧ userId = a.otherUserId ∧ rest = []
  | ⟨a, .insertDirectPair tx⟩ => a.creatorId ≠ a.otherUserId ∧ ∃ id,
      tx = ⟨a.row id, [a.creatorId, a.otherUserId], none, false⟩
  | ⟨a, .createSequence tx⟩ => a.creatorId ≠ a.otherUserId ∧ ∃ id,
      tx = ⟨a.row id, [a.creatorId, a.otherUserId], some (directPair a id), false⟩
  | ⟨a, .commit tx⟩ => a.creatorId ≠ a.otherUserId ∧ ∃ id, tx = written a id
  | ⟨a, .outbox channel⟩ | ⟨a, .returned channel _⟩ =>
    IsDirect s a.orgId a.userAId a.userBId channel
  | ⟨a, .existing⟩ => ∃ channel, IsDirect s a.orgId a.userAId a.userBId channel
  | ⟨_, .threw e⟩ => e ∈ [cannotDmSelf, notOrgMember, .notFound "OtherUser"]
  | ⟨_, .failed⟩ => False

section Statements

variable {w w' : World} {s s' : ChannelStore} {uuid : String} {a : DirectArgs} {pc pc' : Pc}
  {c c' : Call}

theorem Call.Knows.mono (hs : Extends s s') (hc : c.Knows s) : c.Knows s' := by
  obtain ⟨a, pc⟩ := c
  cases pc with
  | outbox | returned => exact IsDirect.mono hc hs
  | existing =>
    obtain ⟨channel, hchannel⟩ := hc
    exact ⟨channel, hchannel.mono hs⟩
  | _ => exact hc

/-- What a statement needs of the tables: a new id, and at COMMIT a channel and a pair that are not
there. -/
structure Ready (s : ChannelStore) (uuid : String) (c : Call) : Prop where
  new : c.pc = .insertChannel → s.channels.find uuid = none
  id : ∀ id, c.pendingId = some id → s.channels.find id = none
  key : ∀ k, c.holds = some k → ∀ x ∈ s.pairs, key x ≠ k

/-- **What a statement does**: it commits, or leaves the tables as they were. -/
theorem extends_next (h : next w uuid a pc = some (w', pc')) (hs : Paired w.channels)
    (hready : Ready w.channels uuid ⟨a, pc⟩) (hc : Call.Knows w.channels ⟨a, pc⟩) :
    Extends w.channels w'.channels ∧ Paired w'.channels ∧ Call.Knows w'.channels ⟨a, pc'⟩ := by
  cases pc with
  | creator =>
    obtain ⟨rfl, rfl⟩ := Prod.mk.inj (Option.some.inj h)
    exact ⟨.refl _, hs, hc⟩
  | other creatorMembership =>
    obtain ⟨rfl, rfl⟩ := Prod.mk.inj (Option.some.inj h)
    refine ⟨.refl _, hs, ?_⟩
    split
    · exact List.mem_cons_of_mem _ List.mem_cons_self
    · split
      · exact List.mem_cons_of_mem _ (List.mem_cons_of_mem _ List.mem_cons_self)
      · exact hc
  | insertChannel =>
    obtain ⟨rfl, rfl⟩ := Prod.mk.inj (Option.some.inj h)
    refine ⟨.refl _, hs, ?_⟩
    rw [hready.new rfl, Option.isSome_none, if_neg Bool.false_ne_true]
    exact ⟨hc, uuid, Or.inl ⟨rfl, rfl, rfl⟩⟩
  | addMember tx userId rest =>
    obtain ⟨rfl, rfl⟩ := Prod.mk.inj (Option.some.inj h)
    refine ⟨.refl _, hs, ?_⟩
    obtain ⟨hne, id, ⟨rfl, rfl, rfl⟩ | ⟨rfl, rfl, rfl⟩⟩ := hc
    · exact ⟨hne, id, Or.inr ⟨if_neg List.not_mem_nil, rfl, rfl⟩⟩
    · refine ⟨hne, id, if_neg ?_⟩
      rw [List.mem_singleton]
      exact hne.symm
  | insertDirectPair tx =>
    obtain ⟨rfl, rfl⟩ := Prod.mk.inj (Option.some.inj h)
    refine ⟨.refl _, hs, ?_⟩
    obtain ⟨hne, id, rfl⟩ := hc
    rw [if_neg (not_not.mpr (userAId_lt hne))]
    split
    case isTrue htaken =>
      obtain ⟨x, hfind⟩ := Option.isSome_iff_exists.mp htaken
      obtain ⟨hx, hkey⟩ := key_findPair hfind
      obtain ⟨-, channel, -, hdirect⟩ := hs.direct x hx
      obtain ⟨horg, hA, hB⟩ := Key.mk.inj hkey
      rw [horg, hA, hB] at hdirect
      exact ⟨channel, hdirect⟩
    case isFalse => exact ⟨hne, id, rfl⟩
  | createSequence tx =>
    obtain ⟨rfl, rfl⟩ := Prod.mk.inj (Option.some.inj h)
    obtain ⟨hne, id, rfl⟩ := hc
    exact ⟨.refl _, hs, hne, id, rfl⟩
  | commit tx =>
    obtain ⟨hne, id, rfl⟩ := hc
    have hid := hready.id id rfl
    have hfree := hready.key (keyOf a) rfl
    rw [next] at h
    split at h
    all_goals obtain ⟨rfl, rfl⟩ := Prod.mk.inj (Option.some.inj h)
    case h_1 hcommit =>
      exact ⟨extends_commit hid hcommit, paired_commit hs hne hid hfree hcommit,
        isDirect_commit hid hcommit⟩
    case h_2 hrefused =>
      obtain ⟨channels, -, hcommit⟩ := commit_written (a := a) hid
      cases hrefused.symm.trans hcommit
  | outbox channel =>
    obtain ⟨rfl, rfl⟩ := Prod.mk.inj (Option.some.inj h)
    have hextends := extends_outbox w.channels a.orgId channel.id a.creatorId
    exact ⟨hextends, paired_outbox hs _ _ _, IsDirect.mono hc hextends⟩
  | existing =>
    obtain ⟨rfl, rfl⟩ := Prod.mk.inj (Option.some.inj h)
    obtain ⟨channel, hdirect⟩ := hc
    refine ⟨.refl _, hs, ?_⟩
    rw [findDirectChannel_eq hs hdirect]
    exact hdirect
  | returned | threw | failed => cases h

theorem pendingId_adding (tx : Pending) (userIds : List String) :
    Call.pendingId ⟨a, .adding tx userIds⟩ = some tx.channel.id := by
  cases userIds <;> rfl

theorem holds_adding (tx : Pending) (userIds : List String) :
    Call.holds ⟨a, .adding tx userIds⟩ = none := by
  cases userIds <;> rfl

theorem made_adding (tx : Pending) (userIds : List String) :
    Call.made ⟨a, .adding tx userIds⟩ = none := by
  cases userIds <;> rfl

theorem channel_addMember (tx : Pending) (userId : String) :
    (tx.addMember userId).channel = tx.channel := by
  unfold Pending.addMember
  split <;> rfl

/-- The id of a channel is drawn where it is inserted. -/
theorem pendingId_next (h : next w uuid a pc = some (w', pc')) {id : String}
    (hid : Call.pendingId ⟨a, pc'⟩ = some id) :
    Call.pendingId ⟨a, pc⟩ = some id ∨ pc = .insertChannel ∧ id = uuid := by
  cases pc with
  | creator | createSequence =>
    obtain ⟨-, rfl⟩ := Prod.mk.inj (Option.some.inj h)
    exact Or.inl hid
  | other =>
    obtain ⟨-, rfl⟩ := Prod.mk.inj (Option.some.inj h)
    split_ifs at hid <;> cases hid
  | insertChannel =>
    obtain ⟨-, rfl⟩ := Prod.mk.inj (Option.some.inj h)
    split_ifs at hid
    · cases hid
    · rw [pendingId_adding] at hid
      exact Or.inr ⟨rfl, (Option.some.inj hid).symm⟩
  | addMember tx userId rest =>
    obtain ⟨-, rfl⟩ := Prod.mk.inj (Option.some.inj h)
    rw [pendingId_adding, channel_addMember] at hid
    exact Or.inl hid
  | insertDirectPair =>
    obtain ⟨-, rfl⟩ := Prod.mk.inj (Option.some.inj h)
    split at hid
    · cases hid
    · split at hid
      · cases hid
      · exact Or.inl hid
  | commit =>
    rw [next] at h
    split at h
    all_goals
      obtain ⟨-, rfl⟩ := Prod.mk.inj (Option.some.inj h)
      cases hid
  | outbox =>
    obtain ⟨-, rfl⟩ := Prod.mk.inj (Option.some.inj h)
    cases hid
  | existing =>
    obtain ⟨-, rfl⟩ := Prod.mk.inj (Option.some.inj h)
    split at hid <;> cases hid
  | returned | threw | failed => cases h

/-- A pair is inserted where none is committed. -/
theorem holds_next (h : next w uuid a pc = some (w', pc')) {k : Key}
    (hk : Call.holds ⟨a, pc'⟩ = some k) :
    Call.holds ⟨a, pc⟩ = some k
      ∨ Call.inserts ⟨a, pc⟩ = some k ∧ ∀ x ∈ w.channels.pairs, key x ≠ k := by
  cases pc with
  | creator =>
    obtain ⟨-, rfl⟩ := Prod.mk.inj (Option.some.inj h)
    cases hk
  | createSequence =>
    obtain ⟨-, rfl⟩ := Prod.mk.inj (Option.some.inj h)
    exact Or.inl hk
  | other =>
    obtain ⟨-, rfl⟩ := Prod.mk.inj (Option.some.inj h)
    split_ifs at hk <;> cases hk
  | insertChannel =>
    obtain ⟨-, rfl⟩ := Prod.mk.inj (Option.some.inj h)
    split_ifs at hk
    · cases hk
    · rw [holds_adding] at hk
      cases hk
  | addMember =>
    obtain ⟨-, rfl⟩ := Prod.mk.inj (Option.some.inj h)
    rw [holds_adding] at hk
    cases hk
  | insertDirectPair =>
    obtain ⟨-, rfl⟩ := Prod.mk.inj (Option.some.inj h)
    split at hk
    · cases hk
    · split at hk
      case isTrue => cases hk
      case isFalse hfree =>
        obtain rfl := Option.some.inj hk
        have hnone := Option.not_isSome_iff_eq_none.mp hfree
        exact Or.inr ⟨rfl, fun x hx => key_of_findPair_none hnone hx⟩
  | commit =>
    rw [next] at h
    split at h
    all_goals
      obtain ⟨-, rfl⟩ := Prod.mk.inj (Option.some.inj h)
      cases hk
  | outbox =>
    obtain ⟨-, rfl⟩ := Prod.mk.inj (Option.some.inj h)
    cases hk
  | existing =>
    obtain ⟨-, rfl⟩ := Prod.mk.inj (Option.some.inj h)
    split at hk <;> cases hk
  | returned | threw | failed => cases h

/-- A pair that is there after a statement was there before, or is what the call has made. -/
theorem pairs_next (h : next w uuid a pc = some (w', pc')) (hc : Call.Knows w.channels ⟨a, pc⟩)
    {x : DirectPair} (hx : x ∈ w'.channels.pairs) :
    x ∈ w.channels.pairs
      ∨ Call.holds ⟨a, pc⟩ = some (key x) ∧ Call.made ⟨a, pc'⟩ = some (key x) := by
  cases pc with
  | commit tx =>
    obtain ⟨-, id, rfl⟩ := hc
    rw [next] at h
    split at h
    all_goals obtain ⟨rfl, rfl⟩ := Prod.mk.inj (Option.some.inj h)
    case h_1 hcommit =>
      obtain ⟨channels, -, rfl⟩ := Option.map_eq_some_iff.mp hcommit
      rcases List.mem_cons.mp hx with rfl | hold
      · exact Or.inr ⟨rfl, rfl⟩
      · exact Or.inl hold
    case h_2 => exact Or.inl hx
  | creator | other | insertChannel | addMember | insertDirectPair | createSequence | outbox
  | existing =>
    obtain ⟨rfl, -⟩ := Prod.mk.inj (Option.some.inj h)
    exact Or.inl hx
  | returned | threw | failed => cases h

/-- A channel is made at COMMIT. -/
theorem made_next (h : next w uuid a pc = some (w', pc')) (hc : Call.Knows w.channels ⟨a, pc⟩)
    {k : Key} (hk : Call.made ⟨a, pc'⟩ = some k) :
    Call.made ⟨a, pc⟩ = some k
      ∨ Call.holds ⟨a, pc⟩ = some k ∧ ∃ x ∈ w'.channels.pairs, key x = k := by
  cases pc with
  | creator | createSequence =>
    obtain ⟨-, rfl⟩ := Prod.mk.inj (Option.some.inj h)
    cases hk
  | other =>
    obtain ⟨-, rfl⟩ := Prod.mk.inj (Option.some.inj h)
    split_ifs at hk <;> cases hk
  | insertChannel =>
    obtain ⟨-, rfl⟩ := Prod.mk.inj (Option.some.inj h)
    split_ifs at hk
    · cases hk
    · rw [made_adding] at hk
      cases hk
  | addMember =>
    obtain ⟨-, rfl⟩ := Prod.mk.inj (Option.some.inj h)
    rw [made_adding] at hk
    cases hk
  | insertDirectPair =>
    obtain ⟨-, rfl⟩ := Prod.mk.inj (Option.some.inj h)
    split_ifs at hk <;> cases hk
  | commit tx =>
    obtain ⟨-, id, rfl⟩ := hc
    rw [next] at h
    split at h
    all_goals obtain ⟨rfl, rfl⟩ := Prod.mk.inj (Option.some.inj h)
    case h_1 hcommit =>
      obtain ⟨channels, -, rfl⟩ := Option.map_eq_some_iff.mp hcommit
      obtain rfl := Option.some.inj hk
      exact Or.inr ⟨rfl, directPair a id, List.mem_cons_self, rfl⟩
    case h_2 => cases hk
  | outbox =>
    obtain ⟨-, rfl⟩ := Prod.mk.inj (Option.some.inj h)
    exact Or.inl hk
  | existing =>
    obtain ⟨-, rfl⟩ := Prod.mk.inj (Option.some.inj h)
    split at hk <;> cases hk
  | returned | threw | failed => cases h

theorem made_stays (h : next w uuid a pc = some (w', pc')) {k : Key}
    (hk : Call.made ⟨a, pc⟩ = some k) : Call.made ⟨a, pc'⟩ = some k := by
  cases pc with
  | outbox channel =>
    obtain ⟨-, rfl⟩ := Prod.mk.inj (Option.some.inj h)
    exact hk
  | returned => cases h
  | _ => cases hk

theorem holds_of_made {k : Key} (h : c.made = some k) : c.holds = none := by
  obtain ⟨a, pc⟩ := c
  cases pc with
  | outbox | returned => rfl
  | _ => cases h

/-- Only COMMIT adds a channel, the one of the transaction. -/
theorem find_next (h : next w uuid a pc = some (w', pc')) {id : String}
    (hid : w.channels.channels.find id = none)
    (hother : Call.pendingId ⟨a, pc⟩ = some id → Call.pendingId ⟨a, pc'⟩ = some id) :
    w'.channels.channels.find id = none := by
  cases pc with
  | commit tx =>
    rw [next] at h
    split at h
    all_goals obtain ⟨rfl, rfl⟩ := Prod.mk.inj (Option.some.inj h)
    case h_1 hcommit =>
      obtain ⟨channels, hinsert, rfl⟩ := Option.map_eq_some_iff.mp hcommit
      have hne : tx.channel.id ≠ id := fun heq => nomatch hother (congrArg some heq)
      dsimp only [World.putChannels]
      rw [Table.find_insert hinsert, if_neg hne]
      exact hid
    case h_2 => exact hid
  | creator | other | insertChannel | addMember | insertDirectPair | createSequence | outbox
  | existing =>
    obtain ⟨rfl, -⟩ := Prod.mk.inj (Option.some.inj h)
    exact hid
  | returned | threw | failed => cases h

end Statements

end Direct

end WorkPlatform.Chat

import WorkPlatform.Chat.Message
import WorkPlatform.Realtime.Rooms

/-!
# Realtime/Reconnect — what `client:sync` reveals

    lastMessageSequences    c ↦ n, c' ↦ n', …       from the client
                            SELECT … WHERE channel_id = c AND sequence_number > n …

The query is all that decides what is emitted, and it asks for no membership and no organisation.
What is emitted depends on the messages of the user's own channels alone if and only if every
channel that is queried is one of them (`sync_reveals_own_iff`), and then nothing else is emitted.

How PostgreSQL reads the texts of the client, `uuid` and `bigint`, is a parameter.  A query whose
texts are refused throws, and ends the sync.
-/

namespace WorkPlatform.Realtime

open Machinery
open WorkPlatform.Chat (ChannelRow MessageRow SyncedMessage)

/-! ## The handler -/

/-- A value of the map, read as a `bigint`. -/
inductive Bound
  | refused
  | null
  | number (n : ℤ)
  deriving DecidableEq

/-- Whose the channels are, and their members that are not removed. -/
structure Access where
  channels : Table ChannelRow.id
  members : String → List String

structure Database where
  access : Access
  messages : Table MessageRow.key

/-- What is emitted as `client:sync:messages`. -/
structure Emission where
  channelId : String
  messages : List SyncedMessage
  deriving DecidableEq

/-- The SELECT. -/
def Database.missed (db : Database) (channelId : String) (lastSeq : ℤ) : List MessageRow :=
  ((db.messages.rows.filter fun r => r.channelId = channelId
      ∧ lastSeq < r.sequenceNumber ∧ r.deletedAt = none).insertionSort
    fun a b => a.sequenceNumber ≤ b.sequenceNumber).take 100

section Handler

variable {V : Type*} (uuid : String → Option String) (bigint : V → Bound)

/-- One round of the loop; `none` where the query throws. -/
def syncEntry (db : Database) (key : String) (value : V) : Option (List Emission) :=
  match uuid key, bigint value with
  | some channelId, .number n => some (
      if db.missed channelId n = [] then []
      else [⟨key, (db.missed channelId n).map (·.synced)⟩])
  | some _, .null => some []
  | _, _ => none

/-- The loop over the entries; `dbs k` is the database when the entry `k` is queried. -/
def syncEntries (dbs : ℕ → Database) : List (String × V) → List Emission
  | [] => []
  | (key, value) :: rest =>
    match syncEntry uuid bigint (dbs 0) key value with
    | some emitted => emitted ++ syncEntries (fun k => dbs (k + 1)) rest
    | none => []

/-- The handler of `client:sync`; `none` is an argument without a map. -/
def clientSync (dbs : ℕ → Database) (lastMessageSequences : Option (List (String × V))) :
    List Emission :=
  syncEntries uuid bigint dbs (lastMessageSequences.getD [])

end Handler

/-! ## Whose messages -/

/-- The user is a member of the channel, and the channel is the organisation's. -/
def Access.allows (access : Access) (socket : SocketData) (channelId : String) : Bool :=
  socket.userId ∈ access.members channelId
    ∧ (access.channels.find channelId).any fun channel => channel.orgId = socket.orgId

def maxBigint : ℕ := 2 ^ 63 - 1

/-- The numbers fit their column. -/
def Bigints (messages : Table MessageRow.key) : Prop :=
  ∀ r ∈ messages.rows, r.sequenceNumber ≤ maxBigint

/-- The messages differ in other channels only. -/
def SameOwn (socket : SocketData) (access : Access) (t t' : Table MessageRow.key) : Prop :=
  t.rows.filter (fun r => access.allows socket r.channelId)
    = t'.rows.filter fun r => access.allows socket r.channelId

section Reveals

variable {V : Type*} (uuid : String → Option String) (bigint : V → Bound) (socket : SocketData)

/-- Everything that is emitted is of an own channel. -/
def OnlyOwn (dbs : ℕ → Database) : List (String × V) → Prop
  | [] => True
  | (key, value) :: rest =>
    match syncEntry uuid bigint (dbs 0) key value with
    | some emitted =>
      (∀ e ∈ emitted, ∀ m ∈ e.messages, (dbs 0).access.allows socket m.channelId)
        ∧ OnlyOwn (fun k => dbs (k + 1)) rest
    | none => True

/-- **Every channel that is queried is an own one**, but where the number is the largest there
is. -/
def Entitled (access : ℕ → Access) : List (String × V) → Prop
  | [] => True
  | (key, value) :: rest =>
    match uuid key, bigint value with
    | some channelId, .number n => (maxBigint ≤ n ∨ (access 0).allows socket channelId)
        ∧ Entitled (fun k => access (k + 1)) rest
    | some _, .null => Entitled (fun k => access (k + 1)) rest
    | _, _ => True

variable {uuid bigint socket} {access : Access} {t t' : Table MessageRow.key} {channelId : String}
  {n : ℤ}

theorem mem_missed {db : Database} {r : MessageRow} (h : r ∈ db.missed channelId n) :
    r ∈ db.messages.rows ∧ r.channelId = channelId ∧ n < r.sequenceNumber := by
  have hmem := (List.mem_insertionSort _).mp (List.mem_of_mem_take h)
  obtain ⟨hrow, hselected⟩ := List.mem_filter.mp hmem
  obtain ⟨hchannel, hlt, -⟩ := of_decide_eq_true hselected
  exact ⟨hrow, hchannel, hlt⟩

/-- The messages of an own channel are the same. -/
theorem missed_congr (hown : access.allows socket channelId = true)
    (h : SameOwn socket access t t') :
    (Database.mk access t).missed channelId n = (Database.mk access t').missed channelId n := by
  have hselect : ∀ rows : List MessageRow,
      rows.filter (fun r => decide (r.channelId = channelId ∧ n < r.sequenceNumber
        ∧ r.deletedAt = none))
      = (rows.filter fun r => access.allows socket r.channelId).filter
        fun r => decide (r.channelId = channelId ∧ n < r.sequenceNumber ∧ r.deletedAt = none) := by
    intro rows
    rw [List.filter_filter]
    refine List.filter_congr fun r _ => ?_
    by_cases hr : r.channelId = channelId
    · rw [hr, hown, Bool.and_true]
    · simp [hr]
  unfold Database.missed
  dsimp only
  rw [hselect t.rows, hselect t'.rows, h]

/-- Nothing has a larger number than the largest. -/
theorem missed_eq_nil (hmax : (maxBigint : ℤ) ≤ n) (ht : Bigints t) :
    (Database.mk access t).missed channelId n = [] := by
  refine List.eq_nil_iff_forall_not_mem.mpr fun r hr => ?_
  obtain ⟨hrow, -, hlt⟩ := mem_missed hr
  have hle := ht r hrow
  omega

theorem Entitled.head {access : ℕ → Access} {key : String} {value : V}
    {rest : List (String × V)} (h : Entitled uuid bigint socket access ((key, value) :: rest)) :
    ∀ channelId n, uuid key = some channelId → bigint value = .number n →
      maxBigint ≤ n ∨ (access 0).allows socket channelId = true := by
  intro channelId n huuid hbigint
  unfold Entitled at h
  rw [huuid, hbigint] at h
  exact h.1

/-- The loop goes on where the query did not throw. -/
theorem Entitled.tail {access : ℕ → Access} {key : String} {value : V}
    {rest : List (String × V)} {emitted : List Emission}
    (h : Entitled uuid bigint socket access ((key, value) :: rest))
    (hsync : syncEntry uuid bigint ⟨access 0, t⟩ key value = some emitted) :
    Entitled uuid bigint socket (fun k => access (k + 1)) rest := by
  unfold Entitled at h
  unfold syncEntry at hsync
  split at hsync
  case h_1 huuid hbigint =>
    rw [huuid, hbigint] at h
    exact h.2
  case h_2 huuid hbigint =>
    rw [huuid, hbigint] at h
    exact h
  case h_3 => cases hsync

/-- The same entry of two databases that differ in other channels only. -/
theorem syncEntry_congr {key : String} {value : V} (ht : Bigints t) (ht' : Bigints t')
    (hentitled : ∀ channelId n, uuid key = some channelId → bigint value = .number n →
      maxBigint ≤ n ∨ access.allows socket channelId = true)
    (h : SameOwn socket access t t') :
    syncEntry uuid bigint ⟨access, t⟩ key value = syncEntry uuid bigint ⟨access, t'⟩ key value := by
  unfold syncEntry
  split
  case h_1 channelId n huuid hbigint =>
    rcases hentitled channelId n huuid hbigint with hmax | hown
    · rw [missed_eq_nil hmax ht, missed_eq_nil hmax ht']
    · rw [missed_congr hown h]
  case h_2 => rfl
  case h_3 => rfl

/-- An entry that is no number, or whose channel the socket is entitled to, reveals nothing of
others. -/
theorem syncEntry_own {key : String} {value : V} {emitted : List Emission} (ht : Bigints t)
    (hentitled : ∀ channelId n, uuid key = some channelId → bigint value = .number n →
      maxBigint ≤ n ∨ access.allows socket channelId = true)
    (h : syncEntry uuid bigint ⟨access, t⟩ key value = some emitted) :
    ∀ e ∈ emitted, ∀ m ∈ e.messages, access.allows socket m.channelId = true := by
  intro e he m hm
  unfold syncEntry at h
  split at h
  case h_1 channelId n huuid hbigint =>
    obtain rfl := Option.some.inj h
    split at he
    case isTrue => cases he
    case isFalse hsome =>
      obtain rfl := List.mem_singleton.mp he
      obtain ⟨r, hr, rfl⟩ := List.mem_map.mp hm
      rcases hentitled channelId n huuid hbigint with hmax | hown
      · exact absurd (missed_eq_nil hmax ht) hsome
      · show access.allows socket r.channelId = true
        rw [(mem_missed hr).2.1]
        exact hown
  case h_2 =>
    obtain rfl := Option.some.inj h
    cases he
  case h_3 => cases h

/-- Whatever differs in other channels, the emissions are the same. -/
theorem syncEntries_congr : ∀ (entries : List (String × V)) (access : ℕ → Access)
    (messages messages' : ℕ → Table MessageRow.key),
    Entitled uuid bigint socket access entries →
    (∀ k, Bigints (messages k)) → (∀ k, Bigints (messages' k)) →
    (∀ k, SameOwn socket (access k) (messages k) (messages' k)) →
    syncEntries uuid bigint (fun k => ⟨access k, messages k⟩) entries
      = syncEntries uuid bigint (fun k => ⟨access k, messages' k⟩) entries
  | [], _, _, _, _, _, _, _ => rfl
  | (key, value) :: rest, access, messages, messages', hentitled, ht, ht', h => by
    have hhead : syncEntry uuid bigint ⟨access 0, messages 0⟩ key value
        = syncEntry uuid bigint ⟨access 0, messages' 0⟩ key value :=
      syncEntry_congr (ht 0) (ht' 0) hentitled.head (h 0)
    unfold syncEntries
    rw [hhead]
    cases hsync : syncEntry uuid bigint ⟨access 0, messages' 0⟩ key value with
    | none => rfl
    | some emitted =>
      have hrest := syncEntries_congr rest (fun k => access (k + 1))
        (fun k => messages (k + 1)) (fun k => messages' (k + 1)) (hentitled.tail hsync)
        (fun k => ht (k + 1)) (fun k => ht' (k + 1)) fun k => h (k + 1)
      exact congrArg (emitted ++ ·) hrest

/-- Where all that is asked for is the user's, all that is answered is. -/
theorem onlyOwn_of_entitled : ∀ (entries : List (String × V)) (access : ℕ → Access)
    (messages : ℕ → Table MessageRow.key),
    Entitled uuid bigint socket access entries → (∀ k, Bigints (messages k)) →
    OnlyOwn uuid bigint socket (fun k => ⟨access k, messages k⟩) entries
  | [], _, _, _, _ => trivial
  | (key, value) :: rest, access, messages, hentitled, ht => by
    unfold OnlyOwn
    cases hsync : syncEntry uuid bigint ⟨access 0, messages 0⟩ key value with
    | none => trivial
    | some emitted =>
      exact ⟨syncEntry_own (ht 0) hentitled.head hsync,
        onlyOwn_of_entitled rest (fun k => access (k + 1)) (fun k => messages (k + 1))
          (hentitled.tail hsync) fun k => ht (k + 1)⟩

/-! ## What tells that a channel is queried -/

/-- A message of the channel, after every other. -/
def lastMessage (channelId : String) : MessageRow :=
  ⟨"", "", channelId, "", "", maxBigint, "", none, none, 0⟩

/-- The table of it alone. -/
def only (channelId : String) : Table MessageRow.key where
  rows := [lastMessage channelId]
  keys_nodup := List.nodup_singleton _

theorem bigints_only : Bigints (only channelId) := by
  intro r hr
  obtain rfl := List.mem_singleton.mp hr
  exact le_refl maxBigint

theorem bigints_empty : Bigints .empty := by
  intro r hr
  cases hr

theorem missed_only (h : n < maxBigint) :
    (Database.mk access (only channelId)).missed channelId n = [lastMessage channelId] := by
  have hselected : (only channelId).rows.filter (fun r => r.channelId = channelId
      ∧ n < r.sequenceNumber ∧ r.deletedAt = none) = [lastMessage channelId] := by
    simp [only, lastMessage, h]
  unfold Database.missed
  dsimp only
  rw [hselected]
  rfl

/-- The message after every other is emitted. -/
theorem syncEntry_only {key : String} {value : V} (huuid : uuid key = some channelId)
    (hbigint : bigint value = .number n) (h : n < maxBigint) :
    syncEntry uuid bigint ⟨access, only channelId⟩ key value
      = some [⟨key, [(lastMessage channelId).synced]⟩] := by
  unfold syncEntry
  rw [huuid, hbigint]
  dsimp only
  rw [missed_only h, if_neg (List.cons_ne_nil _ _)]
  rfl

theorem syncEntry_empty {key : String} {value : V} (huuid : uuid key = some channelId)
    (hbigint : bigint value = .number n) :
    syncEntry uuid bigint ⟨access, .empty⟩ key value = some [] := by
  unfold syncEntry
  rw [huuid, hbigint]
  rfl

/-- A table for the first query, and one for those after it. -/
def firstThen {β : Type*} (first : β) (rest : ℕ → β) : ℕ → β
  | 0 => first
  | k + 1 => rest k

/-- Where nothing of others is revealed whatever is stored, every entry is of this kind. -/
theorem entitled_of_onlyOwn : ∀ (entries : List (String × V)) (access : ℕ → Access),
    (∀ messages : ℕ → Table MessageRow.key, (∀ k, Bigints (messages k)) →
      OnlyOwn uuid bigint socket (fun k => ⟨access k, messages k⟩) entries) →
    Entitled uuid bigint socket access entries
  | [], _, _ => trivial
  | (key, value) :: rest, access, h => by
    have htail : ∀ emitted, syncEntry uuid bigint ⟨access 0, .empty⟩ key value = some emitted →
        Entitled uuid bigint socket (fun k => access (k + 1)) rest := by
      intro emitted hsync
      refine entitled_of_onlyOwn rest _ fun messages hmessages => ?_
      have hfirst : ∀ k, Bigints (firstThen .empty messages k)
        | 0 => bigints_empty
        | k + 1 => hmessages k
      have hall := h (firstThen .empty messages) hfirst
      unfold OnlyOwn at hall
      dsimp only [firstThen] at hall
      rw [hsync] at hall
      exact hall.2
    unfold Entitled
    split
    case h_1 channelId n huuid hbigint =>
      refine ⟨?_, htail [] (syncEntry_empty huuid hbigint)⟩
      rcases le_or_gt (maxBigint : ℤ) n with hmax | hlt
      · exact Or.inl hmax
      · have honly := h (fun _ => only channelId) fun _ => bigints_only
        unfold OnlyOwn at honly
        dsimp only at honly
        rw [syncEntry_only huuid hbigint hlt] at honly
        exact Or.inr (honly.1 _ (List.mem_singleton_self _) _ (List.mem_singleton_self _))
    case h_2 huuid hbigint =>
      refine htail [] ?_
      unfold syncEntry
      rw [huuid, hbigint]
    case h_3 => trivial

/-- **What is emitted depends on the own channels alone, and is of them, if and only if every
channel that is queried is an own one** — whatever the client sends, and whatever the memberships
are as the loop goes on. -/
theorem sync_reveals_own_iff (uuid : String → Option String) (bigint : V → Bound)
    (socket : SocketData) (access : ℕ → Access) (data : Option (List (String × V))) :
    ((∀ messages : ℕ → Table MessageRow.key, (∀ k, Bigints (messages k)) →
        OnlyOwn uuid bigint socket (fun k => ⟨access k, messages k⟩) (data.getD []))
      ∧ ∀ messages messages' : ℕ → Table MessageRow.key,
        (∀ k, Bigints (messages k)) → (∀ k, Bigints (messages' k)) →
        (∀ k, SameOwn socket (access k) (messages k) (messages' k)) →
        clientSync uuid bigint (fun k => ⟨access k, messages k⟩) data
          = clientSync uuid bigint (fun k => ⟨access k, messages' k⟩) data)
    ↔ Entitled uuid bigint socket access (data.getD []) := by
  constructor
  · rintro ⟨honly, -⟩
    exact entitled_of_onlyOwn _ access honly
  · intro hentitled
    exact ⟨fun messages => onlyOwn_of_entitled _ access messages hentitled,
      fun messages messages' => syncEntries_congr _ access messages messages' hentitled⟩

/-- What `"c2"` of another organisation holds is told to a user who is not in it. -/
theorem others_messages_revealed :
    ∃ (access : Access) (t t' : Table MessageRow.key) (socket : SocketData),
      access.channels.find "c2" = some ⟨"c2", "o2", .group, none, "u2", none, none⟩
        ∧ access.members "c2" = ["u2"] ∧ socket = ⟨"u1", "o1"⟩ ∧ SameOwn socket access t t'
        ∧ clientSync some Bound.number (fun _ => ⟨access, t⟩) (some [("c2", 0)])
          ≠ clientSync some Bound.number (fun _ => ⟨access, t'⟩) (some [("c2", 0)]) := by
  refine ⟨⟨⟨[⟨"c2", "o2", .group, none, "u2", none, none⟩], List.nodup_singleton _⟩,
    fun channelId => if channelId = "c2" then ["u2"] else []⟩, .empty,
    ⟨[⟨"m1", "o2", "c2", "u2", "x1", 1, "secret", none, none, 0⟩], List.nodup_singleton _⟩,
    ⟨"u1", "o1"⟩, rfl, rfl, rfl, ?_, ?_⟩
  · unfold SameOwn
    decide
  · decide

end Reveals

end WorkPlatform.Realtime

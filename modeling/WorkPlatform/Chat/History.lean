import WorkPlatform.Machinery.Keyset
import WorkPlatform.Realtime.Reconnect

/-!
# Chat/History — the messages of a channel, read from either end

    GET messages    the newest ▸ those before the smallest number shown ▸ … ▸ none
    client:sync     those after '0' ▸ those after the largest number received ▸ … ▸ none

Of messages that stay as they are both read all that are not deleted, each once (`history_exact`).
The route reads from the back, a page in ascending order at a time; a `before_sequence` of `0` would
be taken for none, and no message has that number.
-/

namespace WorkPlatform.Chat

open Machinery
open WorkPlatform.Realtime (Access Bound Database clientSync)

/-! ## The route -/

/-- The query string, once the schema has read it. -/
structure MessageQuery where
  limit : Option ℤ
  beforeSequence : Option ℤ

/-- What `validateQuery` demands. -/
def MessageQuery.valid (q : MessageQuery) : Bool := q.limit.all fun n => 1 ≤ n ∧ n ≤ 200

def invalidQuery : AppError := .badRequest "VALIDATION_ERROR" "Input validation failed"

/-- `req.query['before_sequence'] ? … : undefined`: `0` is no bound.  Below a negative number there
is as little as below `0`. -/
def MessageQuery.before (q : MessageQuery) : Option ℕ :=
  q.beforeSequence.bind fun n => if n = 0 then none else some n.toNat

/-- `listMessages`. -/
def Store.listMessages (s : Store) (channelId userId : String) (limit : ℕ)
    (beforeSequence : Option ℕ) : Except AppError (List MessageRow) :=
  if s.isMember channelId userId then .ok (s.listByChannel channelId limit beforeSequence)
  else .error notChannelMember

/-- `GET /orgs/:orgId/channels/:channelId/messages`. -/
def Store.getMessages (s : Store) (channelId userId : String) (q : MessageQuery) :
    Except AppError (List MessageRow) :=
  if q.valid then s.listMessages channelId userId (q.limit.getD 50).toNat q.before
  else .error invalidQuery

/-- The two statements of `listMessages`, run by themselves. -/
theorem listMessages_ends (s : Store) (a : ListArgs) :
    chatMachine.Ends "" (s, .listMessages a .member) (s, .listMessages a
      (match s.listMessages a.channelId a.userId a.limit a.beforeSequence with
        | .ok messages => .returned messages
        | .error e => .threw e)) := by
  rw [Store.listMessages]
  cases hmember : s.isMember a.channelId a.userId with
  | true =>
    have hlist : chatMachine.next s (.listMessages a .member) "" =
        some (s, .listMessages a .list) := by
      simp [chatMachine, Call.next, listNext, hmember]
    exact .of_next hlist (.of_next rfl (.of_none rfl))
  | false =>
    have hthrew : chatMachine.next s (.listMessages a .member) "" =
        some (s, .listMessages a (.threw notChannelMember)) := by
      simp [chatMachine, Call.next, listNext, hmember]
    exact .of_next hthrew (.of_none rfl)

/-! ## What there is to read -/

namespace Store

def ofChannel (s : Store) (channelId : String) : List MessageRow :=
  s.replica.messages.rows.filter fun r => r.channelId = channelId

/-- The messages of the channel that are not deleted. -/
def live (s : Store) (channelId : String) : List MessageRow :=
  (s.ofChannel channelId).filter fun r => r.deletedAt = none

/-- …in the order of their numbers. -/
def inOrder (s : Store) (channelId : String) : List MessageRow :=
  (s.live channelId).insertionSort fun a b => a.sequenceNumber ≤ b.sequenceNumber

end Store

section Reading

variable {s : Store} {channelId userId : String} {limit : ℕ}

theorem nodup_live (h : ((s.ofChannel channelId).map (·.sequenceNumber)).Nodup) :
    ((s.live channelId).map (·.sequenceNumber)).Nodup :=
  (List.filter_sublist.map _).nodup h

theorem ascending_inOrder (h : ((s.ofChannel channelId).map (·.sequenceNumber)).Nodup) :
    Ascending MessageRow.sequenceNumber (s.inOrder channelId) :=
  ascending_insertionSort (nodup_live h)

theorem mem_inOrder {r : MessageRow} : r ∈ s.inOrder channelId ↔ r ∈ s.live channelId :=
  List.mem_insertionSort _

/-- **The page is the end of what the bound leaves**, in ascending order. -/
theorem listByChannel_eq (h : ((s.ofChannel channelId).map (·.sequenceNumber)).Nodup)
    (before : Option ℕ) :
    s.listByChannel channelId limit before =
      ((s.inOrder channelId).filter (belowKey MessageRow.sequenceNumber before)).drop
        (((s.inOrder channelId).filter (belowKey MessageRow.sequenceNumber before)).length - limit) := by
  have hrows : s.replica.messages.rows.filter (fun r => r.channelId = channelId
      ∧ (before.all fun n => r.sequenceNumber < n) ∧ r.deletedAt = none) =
      (s.live channelId).filter (belowKey MessageRow.sequenceNumber before) := by
    rw [Store.live, Store.ofChannel, List.filter_filter, List.filter_filter]
    refine List.filter_congr fun r _ => ?_
    rw [Bool.eq_iff_iff]
    simp only [belowKey, decide_eq_true_eq, Bool.and_eq_true]
    tauto
  have hnodup := nodup_live h
  have hsome : (((s.live channelId).filter (belowKey MessageRow.sequenceNumber before)).map
      (·.sequenceNumber)).Nodup := (List.filter_sublist.map _).nodup hnodup
  have hperm : (s.inOrder channelId).Perm (s.live channelId) := List.perm_insertionSort _ _
  rw [Store.listByChannel, hrows, List.reverse_take, reverse_insertionSort hsome,
    List.length_insertionSort, insertionSort_filter hnodup, (hperm.filter _).length_eq]
  rfl

/-- The query of `client:sync`, on the same rows. -/
theorem missed_eq (access : Access)
    (h : ((s.ofChannel channelId).map (·.sequenceNumber)).Nodup) (lastSeq : ℕ) :
    (Database.mk access s.replica.messages).missed channelId lastSeq =
      ((s.inOrder channelId).filter fun r => lastSeq < r.sequenceNumber).take 100 := by
  have hrows : s.replica.messages.rows.filter (fun r => r.channelId = channelId
      ∧ (lastSeq : ℤ) < r.sequenceNumber ∧ r.deletedAt = none) =
      (s.live channelId).filter fun r => lastSeq < r.sequenceNumber := by
    rw [Store.live, Store.ofChannel, List.filter_filter, List.filter_filter]
    refine List.filter_congr fun r _ => ?_
    rw [Bool.eq_iff_iff]
    simp only [Int.ofNat_lt, decide_eq_true_eq, Bool.and_eq_true]
    tauto
  rw [Database.missed, hrows, insertionSort_filter (nodup_live h)]
  rfl

/-! ## The route, page after page -/

/-- The rows of a response; an error has none. -/
def rowsOf : Except AppError (List MessageRow) → List MessageRow
  | .ok rows => rows
  | .error _ => []

/-- The page before a number. -/
def historyPage (s : Store) (channelId userId : String) (limit : ℕ) (before : Option ℕ) :
    List MessageRow :=
  rowsOf (s.getMessages channelId userId ⟨some limit, before.map Int.ofNat⟩)

/-- Until a page is empty, each from the smallest number of the one before. -/
def readHistory (s : Store) (channelId userId : String) (limit : ℕ) (requests : ℕ) :
    Option (List (List MessageRow)) :=
  follow (historyPage s channelId userId limit)
    (fun _ page => (page.map (·.sequenceNumber)).min?) requests none

/-- For a member and a valid limit the page is the query's. -/
theorem historyPage_eq (hmember : s.isMember channelId userId = true)
    (hlimit : 1 ≤ limit ∧ limit ≤ 200) {before : Option ℕ} (hbefore : before ≠ some 0) :
    historyPage s channelId userId limit before = s.listByChannel channelId limit before := by
  have hvalid : MessageQuery.valid ⟨some limit, before.map Int.ofNat⟩ = true := by
    simp only [MessageQuery.valid, Option.all_some, decide_eq_true_eq]
    omega
  have hbound : MessageQuery.before ⟨some limit, before.map Int.ofNat⟩ = before := by
    cases before with
    | none => rfl
    | some n =>
      have hn : n ≠ 0 := fun h => hbefore (congrArg some h)
      simp [MessageQuery.before, hn]
  simp [historyPage, Store.getMessages, hvalid, hbound, Store.listMessages, hmember, rowsOf]

/-- Going back by the lowest number is a paging of the live messages. -/
theorem paged_history (hmember : s.isMember channelId userId = true)
    (hlimit : 1 ≤ limit ∧ limit ≤ 200)
    (h : ((s.ofChannel channelId).map (·.sequenceNumber)).Nodup)
    (hpos : ∀ r ∈ s.live channelId, 1 ≤ r.sequenceNumber) :
    Paged (historyPage s channelId userId limit)
      (fun _ page => (page.map (·.sequenceNumber)).min?) (fun page rest => rest ++ page)
      (fun before => (s.inOrder channelId).filter (belowKey MessageRow.sequenceNumber before))
      (· ≠ some 0) := by
  refine paged_back (ascending_inOrder h) hlimit.1 ?_ ?_
  · intro r hr hzero
    have hone := hpos r (mem_inOrder.mp hr)
    simp only [Option.some.injEq] at hzero
    omega
  · intro before hbefore
    rw [historyPage_eq hmember hlimit hbefore, listByChannel_eq h]

end Reading

/-! ## `client:sync`, batch after batch -/

section Sync

variable {V : Type*} (uuid : String → Option String) (bigint : V → Bound) (print : ℕ → V)

/-- What a client receives that has got to a number. -/
def syncBatch (db : Database) (key : String) (lastSeq : ℕ) : List SyncedMessage :=
  (clientSync uuid bigint (fun _ => db) (some [(key, print lastSeq)])).flatMap (·.messages)

/-- From `'0'`, until nothing comes, each time with the largest number received. -/
def readOn (db : Database) (key : String) (requests : ℕ) : Option (List (List SyncedMessage)) :=
  follow (syncBatch uuid bigint print db key)
    (fun lastSeq batch => (batch.map (·.sequenceNumber)).max?.getD lastSeq) requests 0

variable {uuid bigint print} {s : Store} {channelId key : String}

/-- A batch is the first hundred messages after the last number seen. -/
theorem syncBatch_eq (access : Access) (huuid : uuid key = some channelId)
    (h : ((s.ofChannel channelId).map (·.sequenceNumber)).Nodup) {lastSeq : ℕ}
    (hprint : bigint (print lastSeq) = .number lastSeq) :
    syncBatch uuid bigint print ⟨access, s.replica.messages⟩ key lastSeq =
      (((s.inOrder channelId).map (·.synced)).filter fun m => lastSeq < m.sequenceNumber).take
        100 := by
  have hmap : ((s.inOrder channelId).map (·.synced)).filter (fun m => lastSeq < m.sequenceNumber) =
      ((s.inOrder channelId).filter fun r => lastSeq < r.sequenceNumber).map (·.synced) := by
    rw [List.filter_map]
    rfl
  rw [hmap, ← List.map_take, ← missed_eq access h]
  simp only [syncBatch, clientSync, Option.getD_some, Realtime.syncEntries, Realtime.syncEntry,
    huuid, hprint]
  split_ifs with hnone
  · simp [hnone]
  · simp

/-- Going on from the highest number is a paging of the live messages. -/
theorem paged_sync (access : Access) (huuid : uuid key = some channelId)
    (h : ((s.ofChannel channelId).map (·.sequenceNumber)).Nodup) {Shown : ℕ → Prop}
    (hshown : ∀ r ∈ s.live channelId, Shown r.sequenceNumber)
    (hprint : ∀ n, Shown n → bigint (print n) = .number n) :
    Paged (syncBatch uuid bigint print ⟨access, s.replica.messages⟩ key)
      (fun lastSeq batch => (batch.map (·.sequenceNumber)).max?.getD lastSeq) (· ++ ·)
      (fun lastSeq => ((s.inOrder channelId).map (·.synced)).filter
        fun m => lastSeq < m.sequenceNumber) Shown := by
  refine paged_front (List.pairwise_map.mpr (ascending_inOrder h)) (Nat.succ_pos 99) ?_ ?_
  · intro m hm
    obtain ⟨r, hr, rfl⟩ := List.mem_map.mp hm
    exact hshown r (mem_inOrder.mp hr)
  · intro lastSeq hlast
    exact syncBatch_eq access huuid h (hprint lastSeq hlast)

end Sync

/-- **Both ways of reading come to an end and show every message that is not deleted once.**  The
pages of the route are ascending, each entirely below the one before; put together from the last to
the first they are what the syncs have sent.  The texts of the numbers that are shown, and `'0'`,
are read as these numbers. -/
theorem history_exact {s : Store} {channelId userId key : String} {limit : ℕ} {V : Type*}
    {uuid : String → Option String} {bigint : V → Bound} {print : ℕ → V} (access : Access)
    (hmember : s.isMember channelId userId = true) (hlimit : 1 ≤ limit ∧ limit ≤ 200)
    (hdistinct : ((s.ofChannel channelId).map (·.sequenceNumber)).Nodup)
    (hpos : ∀ r ∈ s.ofChannel channelId, 1 ≤ r.sequenceNumber)
    (huuid : uuid key = some channelId)
    (hprint : ∀ n, n = 0 ∨ n ∈ (s.ofChannel channelId).map (·.sequenceNumber) →
      bigint (print n) = .number n) :
    ∃ requests pages batches,
      (∀ n ≥ requests, readHistory s channelId userId limit n = some pages ∧
        readOn uuid bigint print ⟨access, s.replica.messages⟩ key n = some batches) ∧
      pages.flatten.Perm (s.live channelId) ∧
      (∀ page ∈ pages, Ascending MessageRow.sequenceNumber page) ∧
      pages.Pairwise (fun earlier later =>
        ∀ r ∈ later, ∀ r' ∈ earlier, r.sequenceNumber < r'.sequenceNumber) ∧
      batches.flatten = pages.reverse.flatten.map (·.synced) ∧
      Ascending SyncedMessage.sequenceNumber batches.flatten := by
  have hlive : ∀ r ∈ s.live channelId, r ∈ s.ofChannel channelId :=
    fun r hr => (List.mem_filter.mp hr).1
  obtain ⟨pages, hpages, hback⟩ :=
    (paged_history hmember hlimit hdistinct fun r hr => hpos r (hlive r hr)).follow
      (k := none) (by simp) (Nat.lt_succ_self _)
  obtain ⟨batches, hbatches, hfront⟩ :=
    (paged_sync access huuid hdistinct (fun r hr => Or.inr (List.mem_map_of_mem (hlive r hr)))
      hprint).follow (k := 0) (Or.inl rfl) (Nat.lt_succ_self _)
  rw [foldr_append_swap] at hback
  rw [foldr_append] at hfront
  have hall : pages.reverse.flatten = s.inOrder channelId := by
    rw [hback]
    exact List.filter_eq_self.mpr fun _ _ => rfl
  have hsent : batches.flatten = (s.inOrder channelId).map (·.synced) := by
    rw [hfront, List.filter_eq_self]
    intro m hm
    obtain ⟨r, hr, rfl⟩ := List.mem_map.mp hm
    exact decide_eq_true (hpos r (hlive r (mem_inOrder.mp hr)))
  have hascending : Ascending MessageRow.sequenceNumber pages.reverse.flatten := by
    rw [hall]
    exact ascending_inOrder hdistinct
  obtain ⟨hpage, hacross⟩ := List.pairwise_flatten.mp hascending
  refine ⟨_, pages, batches, fun n hn => ⟨follow_mono hpages (le_of_max_le_left hn),
    follow_mono hbatches (le_of_max_le_right hn)⟩, ?_, ?_, ?_, ?_, ?_⟩
  · have hperm : pages.flatten.Perm pages.reverse.flatten := (List.reverse_perm pages).symm.flatten
    rw [hall] at hperm
    exact hperm.trans (List.perm_insertionSort _ _)
  · intro page hmem
    exact hpage page (List.mem_reverse.mpr hmem)
  · exact List.pairwise_reverse.mp hacross
  · rw [hsent, hall]
  · rw [hsent]
    exact List.pairwise_map.mpr (ascending_inOrder hdistinct)

def demoMessage (id : String) (sequenceNumber : ℕ) (deletedAt : Option ℕ) : MessageRow :=
  ⟨id, "o", "c", "u", id, sequenceNumber, "hello", none, deletedAt, 0⟩

/-- Messages 1, 4 and 7 of the channel, and a deleted one. -/
def demoHistory : Store where
  now := 0
  channels := ⟨.empty, fun _ => ["u"], [], fun _ => none, []⟩
  directory := ⟨fun _ _ => true, fun _ => true, fun _ => true⟩
  messages := .empty
  replica := ⟨fun _ => ["u"], ⟨[demoMessage "m4" 4 none, demoMessage "m1" 1 none,
    demoMessage "m7" 7 none, demoMessage "m3" 3 (some 0)], by decide⟩⟩
  outbox := []
  received := fun _ => []

/-- `bigint`, for the numbers of the channel. -/
def demoBigint (text : String) : Bound :=
  if text = "0" then .number 0 else if text = "1" then .number 1
  else if text = "3" then .number 3 else if text = "4" then .number 4
  else if text = "7" then .number 7 else .refused

/-- Two at a time: 4 and 7, then 1. -/
theorem history_exact_demo : ∃ n pages, readHistory demoHistory "c" "u" 2 n = some pages ∧
    pages.map (·.map (·.sequenceNumber)) = [[4, 7], [1]] ∧
      pages.flatten.Perm (demoHistory.live "c") := by
  have hnumbers : (demoHistory.ofChannel "c").map (·.sequenceNumber) = [4, 1, 7, 3] := by decide
  have hmember : demoHistory.isMember "c" "u" = true := by decide
  have hlimit : 1 ≤ 2 ∧ 2 ≤ 200 := by decide
  have huuid : (fun text : String => some text) "c" = some "c" := rfl
  have hprint : ∀ n : ℕ, n = 0 ∨ n ∈ (demoHistory.ofChannel "c").map (·.sequenceNumber) →
      demoBigint (toString n) = .number n := by
    intro n hn
    have hcases : n = 0 ∨ n = 4 ∨ n = 1 ∨ n = 7 ∨ n = 3 := by simpa [hnumbers] using hn
    rcases hcases with rfl | rfl | rfl | rfl | rfl <;> decide
  obtain ⟨requests, pages, batches, hread, hperm, -⟩ :=
    history_exact ⟨.empty, fun _ => []⟩ hmember hlimit (by decide) (by decide) huuid hprint
  have hthree : (readHistory demoHistory "c" "u" 2 3).map
      (·.map (·.map (·.sequenceNumber))) = some [[4, 7], [1]] := by decide
  obtain ⟨pages', hpages', hshown⟩ := Option.map_eq_some_iff.mp hthree
  have hlast := (hread requests le_rfl).1
  obtain rfl : pages' = pages := follow_unique hpages' hlast
  exact ⟨_, pages', hlast, hshown, hperm⟩

end WorkPlatform.Chat

import Mathlib.Data.List.MinMax
import Mathlib.Order.Nat
import WorkPlatform.Chat.Sequence

/-!
# Chat/Sync — what a client that syncs can miss

    send a   nextval 1 ─────────────────────────────────▶ INSERT 1
    send b             nextval 2 ▸ INSERT 2
    client                                    ▸ sync: 2                 the cursor is past 1

A sync is `Settled` where no send is between its `nextval` and its INSERT with a number below one
that the SELECT finds, and nothing below such a number is still to reach the replica.  In runs whose
syncs are settled a client has received everything up to its cursor (`none_skipped`): what is not
there when a number is shown gets a larger one.
-/

namespace WorkPlatform.Chat

open Machinery

/-! ## What the client has -/

/-- The channels a sync of the client has still to query, with the numbers the client sent. -/
def Call.entries (client : String) : Call → List (String × ℕ)
  | .sync client' (.query channelId lastSeq rest) =>
    if client' = client then (channelId, lastSeq) :: rest else []
  | .sync client' (.emit _ _ rest) => if client' = client then rest else []
  | _ => []

section Cursor

variable {s s' : Store} {client channelId : String} {n : ℕ}

theorem le_cursor {m : SyncedMessage} (h : m ∈ s.received client) (hin : m.channelId = channelId) :
    m.sequenceNumber ≤ s.cursor client channelId := by
  refine List.le_max_of_le (α := ℕ) (List.mem_map_of_mem (List.mem_filter.mpr ⟨h, ?_⟩)) le_rfl
  exact decide_eq_true hin

theorem cursor_le
    (h : ∀ m ∈ s.received client, m.channelId = channelId → m.sequenceNumber ≤ n) :
    s.cursor client channelId ≤ n := by
  refine List.max_le_of_forall_le (α := ℕ) _ _ fun k hk => ?_
  obtain ⟨m, hm, rfl⟩ := List.mem_map.mp hk
  obtain ⟨hreceived, hin⟩ := List.mem_filter.mp hm
  exact h m hreceived (of_decide_eq_true hin)

theorem cursor_congr (h : s'.received client = s.received client) :
    s'.cursor client channelId = s.cursor client channelId := by
  unfold Store.cursor
  rw [h]

/-- How a cursor gets on. -/
theorem cursor_append {messages : List SyncedMessage}
    (h : s'.received client = messages ++ s.received client) (hn : n ≤ s'.cursor client channelId) :
    n ≤ s.cursor client channelId
      ∨ ∃ m ∈ messages, m.channelId = channelId ∧ n ≤ m.sequenceNumber := by
  by_contra hnot
  obtain ⟨hbelow, hnone⟩ := not_or.mp hnot
  have hall : s'.cursor client channelId ≤ n - 1 := by
    refine cursor_le fun m hm hin => ?_
    rw [h] at hm
    rcases List.mem_append.mp hm with hnew | hold
    · have hlt : ¬ n ≤ m.sequenceNumber := fun hle => hnone ⟨m, hnew, hin, hle⟩
      omega
    · have hle := le_cursor hold hin
      omega
  omega

theorem cursor_mono {messages : List SyncedMessage}
    (h : s'.received client = messages ++ s.received client) :
    s.cursor client channelId ≤ s'.cursor client channelId :=
  cursor_le fun _ hm hin => le_cursor (h ▸ List.mem_append_right _ hm) hin

end Cursor

/-- What is shown has all that there is up to it, but for what the client has. -/
def Store.Complete (s : Store) (client channelId : String) (shown : List SyncedMessage) : Prop :=
  ∀ r ∈ s.messages.rows, r.channelId = channelId → r.deletedAt = none →
    ∀ m ∈ shown, r.sequenceNumber ≤ m.sequenceNumber →
      r.synced ∈ s.received client ∨ r.synced ∈ shown

section CaughtUp

variable {ι : Type*} {client : String} {p q : Calls ι}

/-- **The client has all up to its cursor**, and no number below is still on its way. -/
structure CaughtUp (client : String) (p : Calls ι) : Prop where
  got : ∀ r ∈ p.store.messages.rows, r.deletedAt = none →
    r.sequenceNumber ≤ p.store.cursor client r.channelId → r.synced ∈ p.store.received client
  ahead : ∀ i channelId n, (p.calls i).Live (·.drawn channelId = some n) →
    p.store.cursor client channelId < n
  shows_ahead : ∀ i j channelId m n, (p.calls i).Live (fun c => m ∈ c.shows client channelId) →
    (p.calls j).Live (·.drawn channelId = some n) → m.sequenceNumber < n
  complete : ∀ i, (p.calls i).Keeps fun c => ∀ channelId,
    p.store.Complete client channelId (c.shows client channelId)
  asked : ∀ i, (p.calls i).Keeps fun c => ∀ e ∈ c.entries client,
    e.2 ≤ p.store.cursor client e.1

theorem softDelete_of_live {orgId messageId senderId : String} {now : ℕ} {r : MessageRow}
    (h : (r.softDelete orgId messageId senderId now).deletedAt = none) :
    r.softDelete orgId messageId senderId now = r := by
  unfold MessageRow.softDelete at h ⊢
  split at h
  · cases h
  · rename_i hnot
    exact if_neg hnot

theorem entries_of_not_sync {c : Call} (h : ∀ client pc, c ≠ .sync client pc) :
    c.entries client = [] := by
  cases c with
  | sync client pc => exact absurd rfl (h client pc)
  | _ => rfl

theorem drawn_of_shows {c : Call} {channelId channelId' : String} {m : SyncedMessage}
    (h : m ∈ c.shows client channelId) : c.drawn channelId' = none := by
  cases c with
  | sync client pc => rfl
  | _ => cases h

variable [DecidableEq ι] {s' : Store} {i : ι} {c c' : Call} {pc pc' : SyncPc}

/-- A statement after which the client has what it had. -/
theorem CaughtUp.carry (h : CaughtUp client p)
    (hreceived : s'.received client = p.store.received client)
    (hrows : ∀ r ∈ s'.messages.rows, r.deletedAt = none → r ∈ p.store.messages.rows
      ∨ (p.calls i).Live (·.drawn r.channelId = some r.sequenceNumber))
    (hdrawn : ∀ channelId n, c'.drawn channelId = some n → p.store.cursor client channelId < n
      ∧ ∀ j m, (p.calls j).Live (fun c => m ∈ c.shows client channelId) → m.sequenceNumber < n)
    (hahead : ∀ channelId, ∀ m ∈ c'.shows client channelId, ∀ j n,
      (p.calls j).Live (·.drawn channelId = some n) → m.sequenceNumber < n)
    (hcomplete : ∀ channelId, p.store.Complete client channelId (c'.shows client channelId))
    (hasked : ∀ e ∈ c'.entries client, e.2 ≤ p.store.cursor client e.1) :
    CaughtUp client ⟨s', Function.update p.calls i (.up c')⟩ := by
  have hcursor : ∀ channelId, s'.cursor client channelId = p.store.cursor client channelId :=
    fun channelId => cursor_congr hreceived
  have hstill : ∀ {channelId shown}, p.store.Complete client channelId shown →
      (∀ m ∈ shown, ∀ n, (p.calls i).Live (·.drawn channelId = some n) → m.sequenceNumber < n) →
      s'.Complete client channelId shown := by
    intro channelId shown hshown hbelow r hr hin hlive m hm hle
    rw [hreceived]
    rcases hrows r hr hlive with hold | hdrew
    · exact hshown r hold hin hlive m hm hle
    · rw [hin] at hdrew
      exact absurd hle (hbelow m hm _ hdrew).not_ge
  refine ⟨fun r hr hlive hle => ?_, fun j channelId n hj => ?_, fun j k channelId m n hj hk => ?_,
    keeps_update_up (fun channelId => ?_) fun j hj => ?_, keeps_update_up ?_ fun j hj => ?_⟩
  · rw [hcursor] at hle
    rw [hreceived]
    rcases hrows r hr hlive with hold | hdrew
    · exact h.got r hold hlive hle
    · exact absurd hle (h.ahead i _ _ hdrew).not_ge
  · rw [hcursor]
    rcases live_update_up hj with ⟨-, hown⟩ | ⟨-, hold⟩
    · exact (hdrawn channelId n hown).1
    · exact h.ahead j channelId n hold
  · rcases live_update_up hj with ⟨-, hown⟩ | ⟨-, hold⟩
    · rcases live_update_up hk with ⟨-, hown'⟩ | ⟨-, hold'⟩
      · cases (drawn_of_shows hown).symm.trans hown'
      · exact hahead channelId m hown k n hold'
    · rcases live_update_up hk with ⟨-, hown'⟩ | ⟨-, hold'⟩
      · exact (hdrawn channelId n hown').2 j m hold
      · exact h.shows_ahead j k channelId m n hold hold'
  · exact hstill (hcomplete channelId) fun m hm n hn => hahead channelId m hm i n hn
  · cases hcj : p.calls j with
    | up cj =>
      have hold := (h.complete j).of_up hcj
      refine fun channelId => hstill (hold channelId) fun m hm n hn => ?_
      refine h.shows_ahead j i channelId m n ?_ hn
      rw [hcj]
      exact hm
    | down cj => exact trivial
  · intro e he
    rw [hcursor]
    exact hasked e he
  · refine (h.asked j).imp fun c hc e he => ?_
    rw [hcursor]
    exact hc e he

/-- The same, of a statement after which the call shows nothing. -/
theorem CaughtUp.carry_silent (h : CaughtUp client p)
    (hreceived : s'.received client = p.store.received client)
    (hrows : ∀ r ∈ s'.messages.rows, r.deletedAt = none → r ∈ p.store.messages.rows
      ∨ (p.calls i).Live (·.drawn r.channelId = some r.sequenceNumber))
    (hdrawn : ∀ channelId n, c'.drawn channelId = some n → p.store.cursor client channelId < n
      ∧ ∀ j m, (p.calls j).Live (fun c => m ∈ c.shows client channelId) → m.sequenceNumber < n)
    (hshows : ∀ channelId, c'.shows client channelId = [])
    (hasked : ∀ e ∈ c'.entries client, e.2 ≤ p.store.cursor client e.1) :
    CaughtUp client ⟨s', Function.update p.calls i (.up c')⟩ := by
  refine h.carry hreceived hrows hdrawn (fun channelId m hm => ?_)
    (fun channelId r _ _ _ m hm => ?_) hasked
  all_goals
    rw [hshows channelId] at hm
    cases hm

/-! ### Statements of a sync -/

/-- What the sync of the client is about to query. -/
def Call.queries (client : String) : Call → Option (String × ℕ)
  | .sync client' (.query channelId lastSeq _) =>
    if client' = client then some (channelId, lastSeq) else none
  | _ => none

/-- **What a SELECT of a sync is safe with**: of a message it finds, no running send has drawn a
smaller number without inserting it, and nothing up to its number has still to reach the replica. -/
def Covers (p : Calls ι) (channelId : String) (lastSeq : ℕ) : Prop :=
  ∀ x ∈ p.store.missed channelId lastSeq,
    (∀ j, (p.calls j).Keeps fun c => ∀ n ∈ c.drawn channelId, x.sequenceNumber < n)
    ∧ ∀ r ∈ p.store.messages.rows, r.channelId = channelId → r.deletedAt = none →
      lastSeq < r.sequenceNumber → r.sequenceNumber ≤ x.sequenceNumber →
      r ∈ p.store.replica.messages.rows

/-- The syncs of the client are safe; everything else is free. -/
def Settled (client : String) (p : Calls ι) : Move ι String Env → Prop
  | .run i _ => (p.calls i).Keeps fun c => ∀ e ∈ c.queries client, Covers p e.1 e.2
  | _ => True

/-- The first hundred are all there are up to the last of them. -/
theorem mem_missed_of_le {s : Store} {channelId : String} {lastSeq : ℕ} {r x : MessageRow}
    (hdistinct : DistinctNumbers s.replica.messages.rows) (hr : r ∈ s.replica.messages.rows)
    (hin : r.channelId = channelId) (hlive : r.deletedAt = none) (hlt : lastSeq < r.sequenceNumber)
    (hx : x ∈ s.missed channelId lastSeq) (hle : r.sequenceNumber ≤ x.sequenceNumber) :
    r ∈ s.missed channelId lastSeq := by
  let sorted := (s.replica.messages.rows.filter fun r => r.channelId = channelId
      ∧ lastSeq < r.sequenceNumber ∧ r.deletedAt = none).insertionSort
    fun a b => a.sequenceNumber ≤ b.sequenceNumber
  have hsorted : sorted.Pairwise fun a b => a.sequenceNumber ≤ b.sequenceNumber :=
    have : Std.Total fun a b : MessageRow => a.sequenceNumber ≤ b.sequenceNumber :=
      ⟨fun a b => Nat.le_total _ _⟩
    have : IsTrans MessageRow fun a b => a.sequenceNumber ≤ b.sequenceNumber :=
      ⟨fun a b c => Nat.le_trans⟩
    List.pairwise_insertionSort _ _
  have hmem : r ∈ sorted := (List.mem_insertionSort _).mpr
    (List.mem_filter.mpr ⟨hr, decide_eq_true ⟨hin, hlt, hlive⟩⟩)
  rw [← List.take_append_drop 100 sorted] at hmem hsorted
  rcases List.mem_append.mp hmem with hfirst | hlater
  · exact hfirst
  · have hge := (List.pairwise_append.mp hsorted).2.2 x hx r hlater
    obtain ⟨hxrow, hxin⟩ := mem_missed hx
    rw [hdistinct r hr x hxrow (hin.trans hxin.symm) (hle.antisymm hge)]
    exact hx

theorem entries_querying (entries : List (String × ℕ)) :
    (Call.sync client (.querying entries)).entries client = entries := by
  cases entries with
  | nil => rfl
  | cons e rest => exact if_pos rfl

theorem mem_shows_emit {client' channelId channelId' : String} {messages : List SyncedMessage}
    {rest : List (String × ℕ)} {m : SyncedMessage}
    (h : m ∈ (Call.sync client' (.emit channelId messages rest)).shows client channelId') :
    channelId = channelId' ∧ m ∈ messages := by
  rw [Call.shows] at h
  split at h
  case isTrue heq => exact ⟨heq.2, h⟩
  case isFalse => cases h

/-- The client sends how far it has got. -/
theorem caughtUp_request {channelIds : List String} (h : CaughtUp client p) :
    CaughtUp client ⟨p.store, Function.update p.calls i (.up (.sync client
      (.querying (channelIds.map fun channelId => (channelId, p.store.cursor client channelId)))))⟩
    := by
  refine h.carry_silent rfl (fun r hr _ => Or.inl hr) nofun (fun _ => shows_querying _) ?_
  intro e he
  rw [entries_querying] at he
  obtain ⟨channelId, -, rfl⟩ := List.mem_map.mp he
  exact le_rfl

/-- A SELECT that is safe. -/
theorem caughtUp_query {channelId : String} {lastSeq : ℕ} {rest : List (String × ℕ)}
    (hn : Numbers client p) (h : CaughtUp client p)
    (hc : p.calls i = .up (.sync client (.query channelId lastSeq rest)))
    (hcovers : Covers p channelId lastSeq)
    (hpc : syncNext p.store client (.query channelId lastSeq rest) = some (s', pc')) :
    CaughtUp client ⟨s', Function.update p.calls i (.up (.sync client pc'))⟩ := by
  obtain ⟨rfl, rfl⟩ := Prod.mk.inj (Option.some.inj hpc)
  have hasked : ∀ e ∈ (channelId, lastSeq) :: rest, e.2 ≤ p.store.cursor client e.1 := by
    have hentries : (Call.sync client (.query channelId lastSeq rest)).entries client
        = (channelId, lastSeq) :: rest := if_pos rfl
    have hold := (h.asked i).of_up hc
    rw [hentries] at hold
    exact hold
  split
  · refine h.carry_silent rfl (fun r hr _ => Or.inl hr) nofun (fun _ => shows_querying _) ?_
    intro e he
    rw [entries_querying] at he
    exact hasked e (List.mem_cons_of_mem _ he)
  · refine h.carry rfl (fun r hr _ => Or.inl hr) nofun ?_ ?_ ?_
    · intro channelId' m hm j n hj
      obtain ⟨rfl, hshown⟩ := mem_shows_emit hm
      obtain ⟨x, hx, rfl⟩ := List.mem_map.mp hshown
      obtain ⟨cj, hcj, hdrawn⟩ := hj.exists
      exact ((hcovers x hx).1 j).of_up hcj n hdrawn
    · intro channelId' r hr hin hlive m hm hle
      obtain ⟨rfl, hshown⟩ := mem_shows_emit hm
      obtain ⟨x, hx, rfl⟩ := List.mem_map.mp hshown
      by_cases hlt : lastSeq < r.sequenceNumber
      · have hreplica := (hcovers x hx).2 r hr hin hlive hlt hle
        have hmem := mem_missed_of_le hn.store.replica_distinct hreplica hin hlive hlt hx hle
        refine Or.inr ?_
        rw [Call.shows, if_pos ⟨rfl, rfl⟩]
        exact List.mem_map_of_mem hmem
      · have hcursor := hasked _ List.mem_cons_self
        refine Or.inl (h.got r hr hlive ?_)
        rw [hin]
        exact (Nat.le_of_not_lt hlt).trans hcursor
    · intro e he
      have hentries : ∀ messages, (Call.sync client (.emit channelId messages rest)).entries client
          = rest := fun _ => if_pos rfl
      rw [hentries] at he
      exact hasked e (List.mem_cons_of_mem _ he)

/-- The client receives what is shown to it. -/
theorem caughtUp_emit {channelId : String} {messages : List SyncedMessage}
    {rest : List (String × ℕ)} (hn : Numbers client p) (h : CaughtUp client p)
    (hc : p.calls i = .up (.sync client (.emit channelId messages rest))) :
    CaughtUp client ⟨p.store.receive client messages,
      Function.update p.calls i (.up (.sync client (.querying rest)))⟩ := by
  have hreceived : (p.store.receive client messages).received client
      = messages ++ p.store.received client := Function.update_self _ _ _
  have hshows : (Call.sync client (.emit channelId messages rest)).shows client channelId
      = messages := if_pos ⟨rfl, rfl⟩
  have hmine : ∀ m ∈ messages, (p.calls i).Live (fun c => m ∈ c.shows client channelId) := by
    intro m hm
    rw [hc, Proc.live_up, hshows]
    exact hm
  refine ⟨fun r hr hlive hle => ?_, fun j channelId' n hj => ?_, fun j k channelId' m n hj hk => ?_,
    keeps_update_up (fun channelId' r _ _ _ m hm => ?_) fun j _ => ?_,
    keeps_update_up ?_ fun j _ => ?_⟩
  · rw [hreceived]
    rcases cursor_append hreceived hle with hbefore | ⟨m, hm, hin, hle⟩
    · exact List.mem_append_right _ (h.got r hr hlive hbefore)
    · have hchannel := (hn.shown i channelId m (hmine m hm)).1
      have hshown := (h.complete i).of_up hc channelId
      rw [hshows] at hshown
      rcases hshown r hr (hin.symm.trans hchannel) hlive m hm hle with hgot | hnew
      · exact List.mem_append_right _ hgot
      · exact List.mem_append_left _ hnew
  · rcases live_update_up hj with ⟨-, hown⟩ | ⟨-, hold⟩
    · cases hown
    · by_contra hnot
      rcases cursor_append hreceived (Nat.le_of_not_lt hnot) with hbefore | ⟨m, hm, hin, hle⟩
      · exact absurd hbefore (h.ahead j channelId' n hold).not_ge
      · have hchannel := (hn.shown i channelId m (hmine m hm)).1
        rw [← hin, hchannel] at hold
        exact absurd hle (h.shows_ahead i j channelId m n (hmine m hm) hold).not_ge
  · rcases live_update_up hj with ⟨-, hown⟩ | ⟨-, hold⟩
    · rw [shows_querying] at hown
      cases hown
    · rcases live_update_up hk with ⟨-, hown'⟩ | ⟨-, hold'⟩
      · cases hown'
      · exact h.shows_ahead j k channelId' m n hold hold'
  · rw [shows_querying] at hm
    cases hm
  · refine (h.complete j).imp fun c hcomplete channelId' r hr hin hlive m hm hle => ?_
    rw [hreceived]
    exact (hcomplete channelId' r hr hin hlive m hm hle).imp_left (List.mem_append_right _)
  · intro e he
    rw [entries_querying] at he
    have hentries : (Call.sync client (.emit channelId messages rest)).entries client = rest :=
      if_pos rfl
    exact ((h.asked i).of_up hc e (hentries.symm ▸ he)).trans (cursor_mono hreceived)
  · exact (h.asked j).imp fun c hasked e he => (hasked e he).trans (cursor_mono hreceived)

/-- Syncs of other clients. -/
theorem caughtUp_other {client' : String} (h : CaughtUp client p) (hclient : client' ≠ client)
    (hpc : syncNext p.store client' pc = some (s', pc')) :
    CaughtUp client ⟨s', Function.update p.calls i (.up (.sync client' pc'))⟩ := by
  have hshows : ∀ pc channelId, (Call.sync client' pc).shows client channelId = [] := by
    intro pc channelId
    cases pc with
    | emit channelId messages rest => exact if_neg fun heq => hclient heq.1
    | _ => rfl
  have hentries : (Call.sync client' pc').entries client = [] := by
    cases pc' with
    | query | emit => exact if_neg hclient
    | _ => rfl
  obtain ⟨hmessages, -, -⟩ := sync_keeps hpc
  have hreceived : s'.received client = p.store.received client := by
    rcases received_sync client hpc with hsame | ⟨channelId, hshown⟩
    · exact hsame
    · rw [hshows] at hshown
      exact hshown
  refine h.carry_silent hreceived ?_ nofun (hshows pc') ?_
  · rw [hmessages]
    exact fun r hr _ => Or.inl hr
  · intro e he
    rw [hentries] at he
    cases he

/-- A sync leaves a client with what it asked for. -/
theorem caughtUp_sync {client' : String} (hn : Numbers client p) (h : CaughtUp client p)
    (hc : p.calls i = .up (.sync client' pc))
    (hsettled : ∀ e ∈ (Call.sync client' pc).queries client, Covers p e.1 e.2)
    (hpc : syncNext p.store client' pc = some (s', pc')) :
    CaughtUp client ⟨s', Function.update p.calls i (.up (.sync client' pc'))⟩ := by
  by_cases hclient : client' = client
  · subst hclient
    cases pc with
    | request channelIds =>
      obtain ⟨rfl, rfl⟩ := Prod.mk.inj (Option.some.inj hpc)
      exact caughtUp_request h
    | query channelId lastSeq rest =>
      exact caughtUp_query hn h hc (hsettled (channelId, lastSeq) (if_pos rfl)) hpc
    | emit channelId messages rest =>
      obtain ⟨rfl, rfl⟩ := Prod.mk.inj (Option.some.inj hpc)
      exact caughtUp_emit hn h hc
    | ended => cases hpc
  · exact caughtUp_other h hclient hpc

/-! ### Every statement -/

/-- A statement leaves a client that has caught up where it is, up to what is being sent. -/
theorem caughtUp_run (hn : Numbers client p) (h : CaughtUp client p) (hc : p.calls i = .up c)
    (hsettled : ∀ e ∈ c.queries client, Covers p e.1 e.2) (hwrote : Wrote p.store s' c c') :
    CaughtUp client ⟨s', Function.update p.calls i (.up c')⟩ := by
  cases hwrote with
  | same hmessages _ hreceived _ hdrawn hsync =>
    refine h.carry_silent (congrFun hreceived client) ?_ ?_ (fun _ => shows_of_not_sync hsync) ?_
    · rw [hmessages]
      exact fun r hr _ => Or.inl hr
    · intro channelId n hnumber
      cases (hdrawn channelId).symm.trans hnumber
    · intro e he
      rw [entries_of_not_sync hsync] at he
      cases he
  | @drew a n hlast hs' =>
    subst hs'
    have hbelow : ∀ k, p.store.Drawn a.channelId k → k < n + 1 := by
      rintro k ⟨last, hk, hle⟩
      obtain rfl := Option.some.inj (hlast.symm.trans hk)
      exact Nat.lt_succ_of_le hle
    refine h.carry_silent rfl (fun r hr _ => Or.inl hr) ?_ (fun _ => rfl)
      fun e he => absurd he List.not_mem_nil
    intro channelId k hk
    rw [Call.drawn] at hk
    split at hk
    case isFalse => cases hk
    case isTrue heq =>
      subst heq
      obtain rfl := Option.some.inj hk
      refine ⟨Nat.lt_succ_of_le (cursor_le fun m hm hin => ?_), fun j m hj => ?_⟩
      · exact Nat.le_of_lt_succ (hbelow _ (hin ▸ hn.store.received m hm))
      · exact hbelow _ (hn.shown j a.channelId m hj).2
  | @inserted a n uuid messages hinsert hs' =>
    subst hs'
    refine h.carry_silent rfl (fun r hr _ => ?_) (fun _ _ hdrawn => by cases hdrawn)
      (fun _ => rfl) fun e he => absurd he List.not_mem_nil
    rw [(Table.insert_eq_some hinsert).2] at hr
    rcases List.mem_cons.mp hr with rfl | hold
    · refine Or.inr ?_
      rw [hc]
      exact if_pos rfl
    · exact Or.inl hold
  | @deleted a _ _ hs' =>
    subst hs'
    refine h.carry_silent rfl (fun r' hr' hlive => ?_) (fun _ _ hdrawn => by cases hdrawn)
      (fun _ => rfl) fun e he => absurd he List.not_mem_nil
    obtain ⟨r, hr, rfl⟩ := List.mem_map.mp hr'
    rw [softDelete_of_live hlive]
    exact Or.inl hr
  | synced hpc => exact caughtUp_sync hn h hc hsettled hpc

theorem caughtUp_crash (h : CaughtUp client p) :
    CaughtUp client ⟨p.store, Function.update p.calls i (.down c)⟩ := by
  refine ⟨h.got, fun j channelId n hj => h.ahead j channelId n (live_update_down hj).2,
    fun j k channelId m n hj hk => ?_, keeps_update_down h.complete, keeps_update_down h.asked⟩
  exact h.shows_ahead j k channelId m n (live_update_down hj).2 (live_update_down hk).2

omit [DecidableEq ι] in
theorem caughtUp_env (h : CaughtUp client p) (e : Env) :
    CaughtUp client ⟨env p.store e, p.calls⟩ := by
  cases e <;> exact ⟨h.got, h.ahead, h.shows_ahead, h.complete, h.asked⟩

/-- A client that has received nothing. -/
structure Store.Start (s : Store) (client : String) : Prop where
  numbered : s.Numbered client
  positive : ∀ r ∈ s.messages.rows, 0 < r.sequenceNumber
  nothing : s.received client = []

omit [DecidableEq ι] in
/-- At the start a client has missed nothing. -/
theorem caughtUp_fresh (hfresh : ∀ i, (p.calls i).Live fun c => c.fresh)
    (hs : p.store.Start client) : CaughtUp client p := by
  have hidle : ∀ i, ∃ c, p.calls i = .up c ∧ c.fresh = true := fun i => (hfresh i).exists
  have hdrawn : ∀ i channelId n, ¬ (p.calls i).Live (·.drawn channelId = some n) := by
    intro i channelId n hi
    obtain ⟨c, hc, hstart⟩ := hidle i
    rw [hc] at hi
    cases ((idle_of_fresh client hstart).1 channelId).symm.trans hi
  refine ⟨fun r hr _ hle => ?_, fun i channelId n hi => absurd hi (hdrawn i channelId n),
    fun _ j channelId _ n _ hj => absurd hj (hdrawn j channelId n), fun i => ?_, fun i => ?_⟩
  · have hzero : p.store.cursor client r.channelId ≤ 0 := by
      refine cursor_le fun m hm _ => ?_
      rw [hs.nothing] at hm
      cases hm
    exact absurd (hle.trans hzero) (hs.positive r hr).not_ge
  · obtain ⟨c, hc, hstart⟩ := hidle i
    rw [hc]
    intro channelId r _ _ _ m hm
    rw [(idle_of_fresh client hstart).2 channelId] at hm
    cases hm
  · obtain ⟨c, hc, hstart⟩ := hidle i
    rw [hc]
    intro e he
    match c, hstart with
    | .sync _ (.request _), _ => cases he
    | .send _ _, _ | .deleteMessage _ _, _ | .listMessages _ _, _ | .channel _, _ => cases he

/-- **No message is skipped** where the syncs are settled: whatever sends, deletions and syncs run
in whatever order, a client has received every message up to its cursor that is not deleted. -/
theorem none_skipped (hfresh : ∀ i, (p.calls i).Live fun c => c.fresh)
    (hs : p.store.Start client) (hrun : Run (Pool.step chatMachine) (Settled client) p q) :
    ∀ r ∈ q.store.messages.rows, r.deletedAt = none →
      r.sequenceNumber ≤ q.store.cursor client r.channelId →
      r.synced ∈ q.store.received client := by
  have hnumbers : ∀ q, Run (Pool.step chatMachine) (Settled client) p q → Numbers client q :=
    fun q hq => numbers (numbers_fresh hfresh hs.numbered) hq
  have hcaught : CaughtUp client q := by
    refine Pool.invariant_along hnumbers (caughtUp_fresh hfresh hs) ?_ ?_ ?_ hrun
    · intro p i uuid c s' c' hn h hG hc hnext
      rw [Settled, hc] at hG
      exact caughtUp_run hn h hc hG (wrote_next hnext)
    · intro p i c h _ _
      exact caughtUp_crash h
    · intro p e h _
      exact caughtUp_env h e
  exact hcaught.got

end CaughtUp

/-! ## Two sends and a client -/

instance {ι : Type*} [Fintype ι] (p : Calls ι) (channelId : String) (lastSeq : ℕ) :
    Decidable (Covers p channelId lastSeq) :=
  inferInstanceAs (Decidable (∀ x ∈ p.store.missed channelId lastSeq,
    (∀ j, (p.calls j).Keeps fun c => ∀ n ∈ c.drawn channelId, x.sequenceNumber < n)
    ∧ ∀ r ∈ p.store.messages.rows, r.channelId = channelId → r.deletedAt = none →
      lastSeq < r.sequenceNumber → r.sequenceNumber ≤ x.sequenceNumber →
      r ∈ p.store.replica.messages.rows))

instance {ι : Type*} [Fintype ι] (client : String) (p : Calls ι) :
    ∀ m : Move ι String Env, Decidable (Settled client p m)
  | .run i _ => inferInstanceAs
      (Decidable ((p.calls i).Keeps fun c => ∀ e ∈ c.queries client, Covers p e.1 e.2))
  | .crash _ | .env _ => inferInstanceAs (Decidable True)

def demoChannels : ChannelStore :=
  ⟨⟨[⟨"c", "o", .group, some "general", "u", none, none⟩], by decide⟩, fun _ => ["u", "v"], [],
    fun _ => some 0, []⟩

def demoChat : Store :=
  ⟨0, demoChannels, ⟨fun _ _ => true, fun _ => true, fun _ => true⟩, .empty,
    ⟨fun _ => ["u", "v"], .empty⟩, [], fun _ => []⟩

def demoSend (senderId clientMessageId : String) : Call :=
  .send ⟨"o", "c", senderId, "hello", clientMessageId, none⟩ .member

/-- Two sends, and a client that syncs. -/
def demoCalls : Calls (Fin 3) :=
  ⟨demoChat, fun i => .up (if i = 0 then demoSend "u" "x" else if i = 1 then demoSend "v" "y"
    else .sync "w" (.request ["c"]))⟩

theorem demoChat_start : demoChat.Start "w" := ⟨⟨nofun, nofun, nofun, nofun, nofun⟩, nofun, rfl⟩

/-- One send after the other, each on the replica before the client asks. -/
theorem client_gets_both : ∃ q : Calls (Fin 3),
    Run (Pool.step chatMachine) (Settled "w") demoCalls q ∧ q.store.cursor "w" "c" = 2
      ∧ ∀ r ∈ q.store.messages.rows, r.deletedAt = none →
        r.sequenceNumber ≤ q.store.cursor "w" r.channelId → r.synced ∈ q.store.received "w" := by
  obtain ⟨q, hrun, hq⟩ := exists_run_of_exec (Pool.step chatMachine) (Settled "w") demoCalls
    (List.flatten [List.replicate 5 (.run 0 "m1"), List.replicate 5 (.run 1 "m2"),
      .env .replicate :: List.replicate 3 (.run 2 "")])
    (fun q => q.store.cursor "w" "c" = 2) (by decide)
  exact ⟨q, hrun, of_decide_eq_true hq, none_skipped (by decide) demoChat_start hrun⟩

/-- The second send commits before the first, and the client syncs in between. -/
theorem late_insert_skipped : ∃ (q : Calls (Fin 3)) (r : MessageRow),
    Run (Pool.step chatMachine) anyStep demoCalls q ∧ r ∈ q.store.messages.rows
      ∧ r.deletedAt = none ∧ r.sequenceNumber ≤ q.store.cursor "w" r.channelId
      ∧ r.synced ∉ q.store.received "w" := by
  obtain ⟨q, hrun, hq⟩ := exists_run_of_exec (Pool.step chatMachine) anyStep demoCalls
    (List.flatten [List.replicate 3 (.run 0 "m1"), List.replicate 5 (.run 1 "m2"),
      .env .replicate :: List.replicate 3 (.run 2 ""), [.run 0 "m1"]])
    (fun q => ∃ r ∈ q.store.messages.rows, r.deletedAt = none
      ∧ r.sequenceNumber ≤ q.store.cursor "w" r.channelId ∧ r.synced ∉ q.store.received "w")
    (by decide)
  obtain ⟨r, hr, hlive, hle, hskipped⟩ := of_decide_eq_true hq
  exact ⟨q, r, hrun, hr, hlive, hle, hskipped⟩

end WorkPlatform.Chat

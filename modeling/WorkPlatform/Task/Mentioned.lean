import Mathlib.Logic.Relation
import WorkPlatform.Auth.Store
import WorkPlatform.Task.Mention

/-!
# Task/Mentioned — who is told of a comment

    handles ──▸ SELECT … LIMIT 1 ──▸ INSERT mention.created        one handle after the other
                 a member by name
                 or by email

Handles are distinct, and the users they stand for need not be: `@ann` by name and `@annlee` by
email are two events for one user.  Every user is told once, and every handle that stands for
someone is heard, exactly where no member goes by two of the handles and no op of a body with such a
handle is `null` (`mentioned_iff`).
-/

namespace WorkPlatform.Task

open Machinery

/-! ## The replica -/

/-- A row of `users`, less the columns the query does not read. -/
structure UserRow where
  id : String
  name : String
  email : String
  deletedAt : Option ℕ
  deriving DecidableEq

/-- A row of `org_memberships`; only `removeMembership` ends one, and it sets both columns. -/
structure MembershipRow where
  userId : String
  orgId : String
  status : Auth.MembershipStatus
  deletedAt : Option ℕ
  active : deletedAt = none → status = .active

/-- What the query reads; `lower` is `LOWER`. -/
structure Replica where
  users : List UserRow
  memberships : List MembershipRow
  lower : String → String

namespace Replica

variable (r : Replica)

/-- `LOWER(REPLACE(u.name, ' ', '')) = $2 OR LOWER(SPLIT_PART(u.email, '@', 1)) = $2`. -/
def goesBy (handle : String) (u : UserRow) : Bool :=
  r.lower (String.ofList (u.name.toList.filter (· ≠ ' '))) = handle
    ∨ r.lower (String.ofList (u.email.toList.takeWhile (· ≠ '@'))) = handle

/-- The JOIN, and what it is joined on. -/
def isMember (orgId : String) (u : UserRow) : Bool :=
  u.deletedAt = none
    ∧ r.memberships.any fun m => m.userId = u.id ∧ m.orgId = orgId ∧ m.deletedAt = none

/-- The rows the query finds for a handle. -/
def found (orgId handle : String) : List String :=
  (r.users.filter fun u => r.isMember orgId u ∧ r.goesBy handle u).map (·.id)

/-- `LIMIT 1`: one of the rows, where there are any. -/
def Answers (orgId handle : String) : Option String → Prop
  | none => r.found orgId handle = []
  | some userId => userId ∈ r.found orgId handle

/-- The user has an active membership. -/
def Active (orgId userId : String) : Prop :=
  ∃ m ∈ r.memberships, m.userId = userId ∧ m.orgId = orgId ∧ m.status = .active

end Replica

/-! ## `parseAndCreate` -/

/-- The arguments of `parseAndCreate`, less the body. -/
structure MentionArgs where
  orgId : String
  taskId : String
  commentId : String
  authorId : String

/-- The event for a handle. -/
def MentionArgs.event (a : MentionArgs) (userId handle : String) : CommentEvent :=
  .mentionCreated a.orgId a.commentId a.authorId a.taskId userId handle

/-- `for (const handle of handles)`; `answer` is what the query gives for each. -/
def mentionLoop (a : MentionArgs) (answer : String → Option String) : List String → List CommentEvent
  | [] => []
  | handle :: rest =>
    match answer handle with
    | none => mentionLoop a answer rest
    | some userId => a.event userId handle :: mentionLoop a answer rest

def parseAndCreate (fuel : ℕ) (a : MentionArgs) (answer : String → Option String) (body : Json) :
    Except Halt (List CommentEvent) :=
  (extractMentionHandles fuel body).map (mentionLoop a answer)

/-- What has been written when the call ends; it throws before it writes. -/
def written : Except Halt (List CommentEvent) → List CommentEvent
  | .ok events => events
  | .error _ => []

/-! ## What it is for -/

/-- The event tells the user. -/
def CommentEvent.tells (userId : String) : CommentEvent → Bool
  | .mentionCreated _ _ _ _ mentionedUserId _ => mentionedUserId = userId
  | .commentCreated .. => false

/-- **Every user is told once, all are active members who go by a handle, and no handle that stands
for someone is passed over.** -/
structure Mentioned (a : MentionArgs) (r : Replica) (handles : List String)
    (events : List CommentEvent) : Prop where
  once : ∀ userId, events.countP (·.tells userId) ≤ 1
  active : ∀ e ∈ events, ∃ u ∈ r.users, e.tells u.id = true ∧ r.Active a.orgId u.id ∧
    ∃ handle ∈ handles, r.goesBy handle u = true
  heard : ∀ handle ∈ handles, r.found a.orgId handle ≠ [] →
    ∃ userId ∈ r.found a.orgId handle, ∃ e ∈ events, e.tells userId = true

section

variable {a : MentionArgs} {r : Replica} {answer : String → Option String} {handles : List String}
  {orgId handle userId : String}

theorem mem_found : userId ∈ r.found orgId handle ↔
    ∃ u ∈ r.users, u.id = userId ∧ r.isMember orgId u = true ∧ r.goesBy handle u = true := by
  simp only [Replica.found, List.mem_map, List.mem_filter, decide_eq_true_eq]
  constructor
  · rintro ⟨u, ⟨hu, hmember, hgoes⟩, hid⟩
    exact ⟨u, hu, hid, hmember, hgoes⟩
  · rintro ⟨u, hu, hid, hmember, hgoes⟩
    exact ⟨u, ⟨hu, hmember, hgoes⟩, hid⟩

theorem active_of_isMember {u : UserRow} (h : r.isMember orgId u = true) : r.Active orgId u.id := by
  obtain ⟨m, hm, hrow⟩ := List.any_eq_true.mp (of_decide_eq_true h).2
  obtain ⟨huser, horg, hlive⟩ := of_decide_eq_true hrow
  exact ⟨m, hm, huser, horg, m.active hlive⟩

theorem mem_mentionLoop {e : CommentEvent} : e ∈ mentionLoop a answer handles ↔
    ∃ handle ∈ handles, ∃ userId, answer handle = some userId ∧ e = a.event userId handle := by
  induction handles with
  | nil => simp [mentionLoop]
  | cons handle rest ih =>
    cases hanswer : answer handle <;> simp [mentionLoop, hanswer, ih]

theorem tells_event (a : MentionArgs) (userId other handle : String) :
    (a.event other handle).tells userId = decide (other = userId) := rfl

/-- A user is told as often as handles are answered with the user. -/
theorem countP_mentionLoop (a : MentionArgs) (answer : String → Option String)
    (handles : List String) (userId : String) :
    (mentionLoop a answer handles).countP (·.tells userId) =
      handles.countP fun handle => answer handle = some userId := by
  induction handles with
  | nil => rfl
  | cons handle rest ih =>
    cases hanswer : answer handle with
    | none => simp [mentionLoop, hanswer, ih]
    | some other => simp [mentionLoop, hanswer, ih, List.countP_cons, tells_event]

/-- Where no user goes by two of them, distinct handles are served, whatever the answers. -/
theorem mentioned_of_answers (hanswers : ∀ handle, r.Answers a.orgId handle (answer handle))
    (hnodup : handles.Nodup)
    (hone : ∀ h₁ ∈ handles, ∀ h₂ ∈ handles, ∀ userId ∈ r.found a.orgId h₁,
      userId ∈ r.found a.orgId h₂ → h₁ = h₂) :
    Mentioned a r handles (mentionLoop a answer handles) := by
  have hfound : ∀ handle userId, answer handle = some userId → userId ∈ r.found a.orgId handle := by
    intro handle userId hanswer
    have h := hanswers handle
    rwa [hanswer] at h
  refine ⟨fun userId => ?_, fun e he => ?_, fun handle hhandle hsome => ?_⟩
  · rw [countP_mentionLoop, countP_le_one_iff hnodup]
    intro h₁ hh₁ h₂ hh₂ hanswer₁ hanswer₂
    exact hone h₁ hh₁ h₂ hh₂ userId (hfound h₁ userId (of_decide_eq_true hanswer₁))
      (hfound h₂ userId (of_decide_eq_true hanswer₂))
  · obtain ⟨handle, hhandle, userId, hanswer, rfl⟩ := mem_mentionLoop.mp he
    obtain ⟨u, hu, rfl, hmember, hgoes⟩ := mem_found.mp (hfound handle userId hanswer)
    exact ⟨u, hu, decide_eq_true rfl, active_of_isMember hmember, handle, hhandle, hgoes⟩
  · cases hanswer : answer handle with
    | none =>
      have h := hanswers handle
      rw [hanswer] at h
      exact absurd h hsome
    | some userId =>
      exact ⟨userId, hfound handle userId hanswer, a.event userId handle,
        mem_mentionLoop.mpr ⟨handle, hhandle, userId, hanswer, rfl⟩, decide_eq_true rfl⟩

theorem Mentioned.congr {handles' : List String} {events : List CommentEvent}
    (h : Mentioned a r handles events) (hmem : ∀ handle, handle ∈ handles ↔ handle ∈ handles') :
    Mentioned a r handles' events := by
  refine ⟨h.once, fun e he => ?_, fun handle hhandle => h.heard handle ((hmem handle).mpr hhandle)⟩
  obtain ⟨u, hu, htells, hactive, handle, hhandle, hgoes⟩ := h.active e he
  exact ⟨u, hu, htells, hactive, handle, (hmem handle).mp hhandle, hgoes⟩

/-- The first row of each query. -/
theorem answers_head? (orgId handle : String) :
    r.Answers orgId handle (r.found orgId handle).head? := by
  cases h : r.found orgId handle with
  | nil => exact h
  | cons userId rest =>
    show userId ∈ r.found orgId handle
    rw [h]
    exact List.mem_cons_self

/-- Two handles that stand for one user can be answered with that user. -/
theorem exists_answers {h₁ h₂ : String} (hfound₁ : userId ∈ r.found orgId h₁)
    (hfound₂ : userId ∈ r.found orgId h₂) :
    ∃ answer : String → Option String, (∀ handle, r.Answers orgId handle (answer handle)) ∧
      answer h₁ = some userId ∧ answer h₂ = some userId := by
  refine ⟨fun handle => if userId ∈ r.found orgId handle then some userId
    else (r.found orgId handle).head?, fun handle => ?_, if_pos hfound₁, if_pos hfound₂⟩
  dsimp only
  split_ifs with h
  · exact h
  · exact answers_head? orgId handle

end

/-! ## Who is told -/

/-- Whatever rows the queries come upon first, users and handles are served. -/
def Told (a : MentionArgs) (r : Replica) (body : Json) : Prop :=
  ∀ answer : String → Option String, (∀ handle, r.Answers a.orgId handle (answer handle)) →
    ∃ enough, ∀ fuel, enough ≤ fuel →
      Mentioned a r (bodyMentions body) (written (parseAndCreate fuel a answer body))

section

variable {a : MentionArgs} {r : Replica} {body : Json}

/-- A call that throws passes over every handle. -/
theorem told_of_null (hnull : hasNullOp body = true) :
    Told a r body ↔ ∀ handle ∈ bodyMentions body, r.found a.orgId handle = [] := by
  obtain ⟨enough, houtcome⟩ := extractMentionHandles_outcome body
  have hnone : ∀ answer fuel, enough ≤ fuel → written (parseAndCreate fuel a answer body) = [] := by
    intro answer fuel hfuel
    rw [parseAndCreate, houtcome fuel hfuel, if_pos hnull]
    rfl
  constructor
  · intro htold handle hhandle
    by_contra hsome
    obtain ⟨enough', hmentioned⟩ := htold _ fun handle => answers_head? a.orgId handle
    have hm := hmentioned (max enough enough') (le_max_right _ _)
    rw [hnone _ _ (le_max_left _ _)] at hm
    obtain ⟨_, -, e, he, -⟩ := hm.heard handle hhandle hsome
    cases he
  · intro hempty answer _
    refine ⟨enough, fun fuel hfuel => ?_⟩
    rw [hnone answer fuel hfuel]
    exact ⟨fun _ => Nat.zero_le 1, fun e he => absurd he List.not_mem_nil,
      fun handle hhandle hsome => absurd (hempty handle hhandle) hsome⟩

/-- A call that returns hears every handle, and may tell one user twice. -/
theorem told_of_ops (hnull : ¬ hasNullOp body = true) :
    Told a r body ↔ ∀ h₁ ∈ bodyMentions body, ∀ h₂ ∈ bodyMentions body,
      ∀ userId ∈ r.found a.orgId h₁, userId ∈ r.found a.orgId h₂ → h₁ = h₂ := by
  have hdistinct := firstOccurrences_eraseDups (bodyMentions body)
  obtain ⟨enough, houtcome⟩ := extractMentionHandles_outcome body
  have hloop : ∀ answer fuel, enough ≤ fuel → written (parseAndCreate fuel a answer body) =
      mentionLoop a answer (bodyMentions body).eraseDups := by
    intro answer fuel hfuel
    rw [parseAndCreate, houtcome fuel hfuel, if_neg hnull]
    rfl
  constructor
  · intro htold h₁ hh₁ h₂ hh₂ userId hfound₁ hfound₂
    obtain ⟨answer, hanswers, hanswer₁, hanswer₂⟩ := exists_answers hfound₁ hfound₂
    obtain ⟨enough', hmentioned⟩ := htold answer hanswers
    have hm := hmentioned (max enough enough') (le_max_right _ _)
    rw [hloop _ _ (le_max_left _ _)] at hm
    have honce := hm.once userId
    rw [countP_mentionLoop, countP_le_one_iff hdistinct.nodup] at honce
    exact honce h₁ ((hdistinct.mem_iff h₁).mpr hh₁) h₂ ((hdistinct.mem_iff h₂).mpr hh₂)
      (decide_eq_true hanswer₁) (decide_eq_true hanswer₂)
  · intro hone answer hanswers
    refine ⟨enough, fun fuel hfuel => ?_⟩
    rw [hloop answer fuel hfuel]
    refine (mentioned_of_answers hanswers hdistinct.nodup ?_).congr hdistinct.mem_iff
    intro h₁ hh₁ h₂ hh₂
    exact hone h₁ ((hdistinct.mem_iff h₁).mp hh₁) h₂ ((hdistinct.mem_iff h₂).mp hh₂)

end

/-- **Users are told once, and no handle is passed over,** exactly where no op is `null` or no
handle of the body stands for a member, and where no member goes by two of the handles. -/
theorem mentioned_iff (a : MentionArgs) (r : Replica) (body : Json) :
    Told a r body ↔
      (hasNullOp body → ∀ handle ∈ bodyMentions body, r.found a.orgId handle = []) ∧
        ∀ h₁ ∈ bodyMentions body, ∀ h₂ ∈ bodyMentions body, ∀ userId ∈ r.found a.orgId h₁,
          userId ∈ r.found a.orgId h₂ → h₁ = h₂ := by
  by_cases hnull : hasNullOp body = true
  · rw [told_of_null hnull, imp_iff_right hnull]
    refine ⟨fun hempty => ⟨hempty, fun h₁ hh₁ _ _ userId huser _ => ?_⟩, fun h => h.1⟩
    rw [hempty h₁ hh₁] at huser
    cases huser
  · rw [told_of_ops hnull]
    exact ⟨fun hone => ⟨fun h => absurd h hnull, hone⟩, fun h => h.2⟩

/-- A member who goes by two handles. -/
def demoReplica : Replica where
  users := [⟨"u", "Ann", "annlee@mail", none⟩]
  memberships := [⟨"u", "o", .active, none, fun _ => rfl⟩]
  lower := fun s => String.ofList (s.toList.map Char.toLower)

/-- **The member is told twice.** -/
theorem not_told_twice :
    ¬ Told ⟨"o", "t", "c", "v"⟩ demoReplica
      (.obj [("ops", .arr [.obj [("insert", .str "@Ann or @annlee")]])]) := by
  intro htold
  have hanswers : ∀ handle, demoReplica.Answers "o" handle (demoReplica.found "o" handle).head? :=
    fun handle => answers_head? "o" handle
  obtain ⟨enough, hmentioned⟩ := htold _ hanswers
  obtain ⟨enough', houtcome⟩ := extractMentionHandles_outcome
    (.obj [("ops", .arr [.obj [("insert", .str "@Ann or @annlee")]])])
  have honce := (hmentioned (max enough enough') (le_max_left _ _)).once "u"
  rw [parseAndCreate, houtcome _ (le_max_right _ _)] at honce
  exact absurd honce (by decide)

/-! ## The loop in `createComment` -/

/-- The call takes a step on its own. -/
def CommentStep (tasks : Table TaskRow.id) (uuid : String) (c : CommentArgs)
    (x y : CommentStore × CommentPc) : Prop :=
  createCommentNext tasks x.1 uuid c x.2 = some y

/-- **`createComment` ends with the events of the loop**, where nothing comes between. -/
theorem mentioning_steps (tasks : Table TaskRow.id) (uuid : String) (c : CommentArgs)
    (comment : CommentRow) (handles : List String) (s : CommentStore) :
    Relation.ReflTransGen (CommentStep tasks uuid c) (s, .mentioning comment handles)
      ({ s with
          outbox := (mentionLoop ⟨c.orgId, c.taskId, comment.id, c.authorId⟩ (s.mentioned c.orgId)
            handles).reverse ++ s.outbox },
        .returned comment) := by
  induction handles generalizing s with
  | nil => exact .refl
  | cons handle rest ih =>
    cases hanswer : s.mentioned c.orgId handle with
    | none =>
      have hstep : CommentStep tasks uuid c (s, .mentioning comment (handle :: rest))
          (s, .mentioning comment rest) := by
        simp only [CommentStep, CommentPc.mentioning, createCommentNext, hanswer]
      have hloop := ih s
      simp only [mentionLoop, hanswer]
      exact .head hstep hloop
    | some userId =>
      have hread : CommentStep tasks uuid c (s, .mentioning comment (handle :: rest))
          (s, .mentioned comment handle userId rest) := by
        simp only [CommentStep, CommentPc.mentioning, createCommentNext, hanswer]
      have hloop := ih { s with
        outbox := .mentionCreated c.orgId comment.id c.authorId c.taskId userId handle :: s.outbox }
      simp only [mentionLoop, hanswer, List.reverse_cons, List.append_assoc]
      exact .head hread (.head rfl hloop)

end WorkPlatform.Task

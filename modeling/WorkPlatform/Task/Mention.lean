import Mathlib.Algebra.Order.BigOperators.Group.List
import Mathlib.Algebra.Order.Group.Nat
import Mathlib.Data.List.ReduceOption
import WorkPlatform.Machinery.Distinct
import WorkPlatform.Machinery.Json
import WorkPlatform.Machinery.Regex
import WorkPlatform.Task.Comment

/-!
# Task/Mention — the handles of a comment

    { ops: [ { insert: "hi @Ann, @bob" }, { insert: { image: … } }, … ] }
                            │
        one /@([a-zA-Z0-9_.-]+)/g over all inserts that are texts
                            │
              ["Ann", "bob", …] ──toLowerCase──▸ ──Set──▸ handles

The loops over the ops share one regular expression and the position it remembers.  The loop over
the matches of a text leaves it only at position 0, so each text is read from its start, and the
handles are those at every `@` of every text (`extractMentionHandles_eq`).
-/

namespace WorkPlatform.Task

open Machinery

/-! ## The code -/

/-- `/@([a-zA-Z0-9_.-]+)/g`. -/
def mentionRegex : Regex Char := .leadMany (· = '@') handleChar

/-- The ways the function does not return: the loops are cut off, or `null` has no `insert`. -/
inductive Halt
  | fuel | typeError
  deriving DecidableEq

/-- `op.insert`, where it is a text. -/
def insertText : Json → Option String
  | .obj fields =>
    match fields.lookup "insert" with
    | some (.str text) => some text
    | _ => none
  | _ => none

/-- `match[1].toLowerCase()`. -/
def capture (m : List Char) : String := String.ofList (m.tail.map Char.toLower)

/-- The matches of a text, where there is one, and the position they are left at. -/
def matchText (fuel : ℕ) (text : Option String) (lastIndex : ℕ) :
    Except Halt (List (List Char) × ℕ) :=
  match text with
  | none => .ok ([], lastIndex)
  | some text =>
    match mentionRegex.execAll text.toList fuel lastIndex with
    | none => .error .fuel
    | some r => .ok r

/-- `for (const op of ops)`. -/
def collect (fuel : ℕ) : List Json → ℕ → Except Halt (List String × ℕ)
  | [], lastIndex => .ok ([], lastIndex)
  | .null :: _, _ => .error .typeError
  | op :: ops, lastIndex => do
    let found ← matchText fuel (insertText op) lastIndex
    let rest ← collect fuel ops found.2
    return (found.1.map capture ++ rest.1, rest.2)

/-- `body['ops']`, where it is an array. -/
def opsOf : Json → Option (List Json)
  | .obj fields =>
    match fields.lookup "ops" with
    | some (.arr ops) => some ops
    | _ => none
  | _ => none

/-- `extractMentionHandles`. -/
def extractMentionHandles (fuel : ℕ) (body : Json) : Except Halt (List String) :=
  match opsOf body with
  | none => .ok []
  | some ops => (collect fuel ops 0).map fun r => r.1.eraseDups

/-! ## What it is for -/

/-- The handle at the head of a text: an `@`, and what follows it. -/
def handleAt : List Char → Option String
  | [] => none
  | c :: rest =>
    if c = '@' ∧ rest.takeWhile handleChar ≠ [] then
      some (String.ofList ((rest.takeWhile handleChar).map Char.toLower))
    else none

/-- The handles of a text, from left to right. -/
def handlesOf (text : String) : List String := text.toList.tails.filterMap handleAt

/-- The handles of the ops, one op after the other. -/
def mentions (ops : List Json) : List String :=
  ops.flatMap fun op => (insertText op).toList.flatMap handlesOf

def isNull : Json → Bool
  | .null => true
  | _ => false

/-- `body` is a Quill delta with these ops: none of them is `null`. -/
structure IsDelta (body : Json) (ops : List Json) : Prop where
  ops_eq : opsOf body = some ops
  ne_null : ∀ op ∈ ops, op ≠ .null

theorem isNull_eq_false {op : Json} (h : op ≠ .null) : isNull op = false := by
  cases op with
  | null => exact absurd rfl h
  | bool | num | str | arr | obj => rfl

/-! ## The matches of a text -/

theorem mentionRegex_apart : mentionRegex.Apart := by
  refine Regex.leadMany_apart fun c hc => decide_eq_false ?_
  rintro rfl
  exact Bool.false_ne_true hc

theorem matchAt_cons (c : Char) (rest : List Char) : mentionRegex.matchAt (c :: rest) =
    if c = '@' ∧ rest.takeWhile handleChar ≠ [] then some ((rest.takeWhile handleChar).length + 1)
    else none := by
  simp only [mentionRegex, Regex.leadMany, Regex.leadManyAt, decide_eq_true_eq]

/-- The capture of a match is the handle that stands there. -/
theorem capture_match (l : List Char) :
    ((mentionRegex.matchAt l).map l.take).map capture = handleAt l := by
  cases l with
  | nil => rfl
  | cons c rest =>
    rw [matchAt_cons, handleAt]
    split_ifs with h
    · have hrun : rest.take (rest.takeWhile handleChar).length = rest.takeWhile handleChar :=
        (List.prefix_iff_eq_take.mp (List.takeWhile_prefix handleChar)).symm
      rw [Option.map_some, Option.map_some, capture, List.take_succ_cons, List.tail_cons, hrun]
    · rfl

theorem map_capture_all (text : String) :
    (mentionRegex.all text.toList).map capture = handlesOf text := by
  rw [Regex.all, handlesOf, List.map_filterMap]
  exact List.filterMap_congr fun l _ => capture_match l

/-- **A handle stands between an `@` and what is no character of a handle.** -/
theorem mem_handlesOf {text h : String} : h ∈ handlesOf text ↔
    ∃ before run after, text.toList = before ++ '@' :: (run ++ after) ∧ run ≠ [] ∧
      (∀ c ∈ run, handleChar c = true) ∧ (∀ c ∈ after.head?, handleChar c = false) ∧
      h = String.ofList (run.map Char.toLower) := by
  rw [handlesOf, List.mem_filterMap]
  constructor
  · rintro ⟨l, hl, hh⟩
    cases l with
    | nil => cases hh
    | cons c rest =>
      obtain ⟨before, hbefore⟩ := (List.mem_tails _ _).mp hl
      rw [handleAt] at hh
      split_ifs at hh with hmatch
      obtain ⟨rfl, hrun⟩ := hmatch
      refine ⟨before, rest.takeWhile handleChar, rest.dropWhile handleChar, ?_, hrun,
        fun c hc => List.mem_takeWhile_imp hc, fun c hc => ?_, (Option.some.inj hh).symm⟩
      · rw [List.takeWhile_append_dropWhile, hbefore]
      · have hhead := List.head?_dropWhile_not handleChar rest
        rw [Option.mem_def.mp hc] at hhead
        exact hhead
  · rintro ⟨before, run, after, htext, hrun, hall, hend, rfl⟩
    refine ⟨'@' :: (run ++ after), (List.mem_tails _ _).mpr ⟨before, htext.symm⟩, ?_⟩
    have hafter : after.takeWhile handleChar = [] := by
      cases after with
      | nil => rfl
      | cons c after => exact List.takeWhile_cons_of_neg (ne_true_of_eq_false (hend c rfl))
    have htake : (run ++ after).takeWhile handleChar = run := by
      rw [List.takeWhile_append_of_pos hall, hafter, List.append_nil]
    rw [handleAt, htake, if_pos ⟨rfl, hrun⟩]

/-! ## The loops -/

/-- The loop finds every handle of a text, and ends at its start again. -/
theorem matchText_eq {fuel : ℕ} {op : Json}
    (hfuel : ∀ text ∈ insertText op, text.length < fuel) :
    ∃ ms, matchText fuel (insertText op) 0 = .ok (ms, 0) ∧
      ms.map capture = (insertText op).toList.flatMap handlesOf := by
  cases h : insertText op with
  | none => exact ⟨[], rfl, rfl⟩
  | some text =>
    have hlength : text.toList.length < fuel + 0 := hfuel text h
    have hexec := Regex.execAll_eq mentionRegex_apart (Nat.zero_le text.toList.length) hlength
    refine ⟨mentionRegex.all text.toList, ?_, ?_⟩
    · simp only [matchText, hexec, List.drop_zero]
    · rw [map_capture_all, Option.toList_some, List.flatMap_singleton]

theorem collect_cons {fuel : ℕ} {op : Json} (hnull : op ≠ .null) (ops : List Json) (lastIndex : ℕ) :
    collect fuel (op :: ops) lastIndex = (matchText fuel (insertText op) lastIndex).bind fun found =>
      (collect fuel ops found.2).map fun rest => (found.1.map capture ++ rest.1, rest.2) := by
  cases op with
  | null => exact absurd rfl hnull
  | bool | num | str | arr | obj => rfl

/-- **The loop over the ops** begins every text at position 0. -/
theorem collect_eq {fuel : ℕ} {ops : List Json} (hnull : ∀ op ∈ ops, op ≠ .null)
    (hfuel : ∀ op ∈ ops, ∀ text ∈ insertText op, text.length < fuel) :
    collect fuel ops 0 = .ok (mentions ops, 0) := by
  induction ops with
  | nil => rfl
  | cons op ops ih =>
    obtain ⟨ms, hmatch, hms⟩ := matchText_eq (hfuel op List.mem_cons_self)
    have hrest := ih (fun op h => hnull op (List.mem_cons_of_mem _ h))
      fun op h => hfuel op (List.mem_cons_of_mem _ h)
    rw [collect_cons (hnull op List.mem_cons_self), hmatch]
    simp only [Except.bind, hrest, Except.map, mentions, List.flatMap_cons, hms]

/-- An op that is `null` is a `TypeError`, wherever it stands. -/
theorem collect_null {fuel : ℕ} {ops : List Json} (hnull : ops.any isNull = true)
    (hfuel : ∀ op ∈ ops, ∀ text ∈ insertText op, text.length < fuel) :
    collect fuel ops 0 = .error .typeError := by
  induction ops with
  | nil => cases hnull
  | cons op ops ih =>
    by_cases hop : op = .null
    · rw [hop]
      rfl
    · obtain ⟨ms, hmatch, -⟩ := matchText_eq (hfuel op List.mem_cons_self)
      have hrest : ops.any isNull = true := by
        rwa [List.any_cons, isNull_eq_false hop, Bool.false_or] at hnull
      have hcollect := ih hrest fun op h => hfuel op (List.mem_cons_of_mem _ h)
      rw [collect_cons hop, hmatch]
      simp only [Except.bind, hcollect, Except.map]

/-- Fuel for every text of the ops. -/
def fuelFor (ops : List Json) : ℕ :=
  ((ops.filterMap insertText).map String.length).sum + 1

theorem length_lt_fuelFor {ops : List Json} {op : Json} (hop : op ∈ ops) :
    ∀ text ∈ insertText op, text.length < fuelFor ops := by
  intro text htext
  have hmem : text.length ∈ (ops.filterMap insertText).map String.length :=
    List.mem_map_of_mem (List.mem_filterMap.mpr ⟨op, hop, htext⟩)
  exact Nat.lt_succ_of_le (List.single_le_sum (fun _ _ => Nat.zero_le _) _ hmem)

/-! ## The handles -/

/-- **The handles of a comment**: the loops end, with the handles at the `@` of the texts, each once
and in the order of their first occurrence; and every op is read from position 0. -/
theorem extractMentionHandles_eq (body : Json) (ops : List Json) (h : IsDelta body ops) :
    ∃ enough, ∀ fuel, enough ≤ fuel →
      (∃ handles, extractMentionHandles fuel body = .ok handles ∧
        FirstOccurrences (mentions ops) handles) ∧
      ∀ done rest, ops = done ++ rest → collect fuel done 0 = .ok (mentions done, 0) := by
  refine ⟨fuelFor ops, fun fuel hfuel => ?_⟩
  have hlength : ∀ op ∈ ops, ∀ text ∈ insertText op, text.length < fuel :=
    fun op hop text htext => Nat.lt_of_lt_of_le (length_lt_fuelFor hop text htext) hfuel
  constructor
  · refine ⟨(mentions ops).eraseDups, ?_, firstOccurrences_eraseDups _⟩
    simp only [extractMentionHandles, h.ops_eq, collect_eq h.ne_null hlength, Except.map]
  · rintro done rest rfl
    exact collect_eq (fun op hop => h.ne_null op (List.mem_append_left rest hop))
      fun op hop => hlength op (List.mem_append_left rest hop)

/-- The handles of a body, where it has ops. -/
def bodyMentions (body : Json) : List String := mentions ((opsOf body).getD [])

/-- One of the ops of a body is `null`. -/
def hasNullOp (body : Json) : Bool := ((opsOf body).getD []).any isNull

/-- What the function does on any body: it throws, or returns the handles of the body. -/
theorem extractMentionHandles_outcome (body : Json) :
    ∃ enough, ∀ fuel, enough ≤ fuel → extractMentionHandles fuel body =
      if hasNullOp body then .error .typeError else .ok (bodyMentions body).eraseDups := by
  cases hops : opsOf body with
  | none =>
    refine ⟨0, fun fuel _ => ?_⟩
    simp only [extractMentionHandles, hasNullOp, bodyMentions, hops]
    rfl
  | some ops =>
    refine ⟨fuelFor ops, fun fuel hfuel => ?_⟩
    have hlength : ∀ op ∈ ops, ∀ text ∈ insertText op, text.length < fuel :=
      fun op hop text htext => Nat.lt_of_lt_of_le (length_lt_fuelFor hop text htext) hfuel
    simp only [extractMentionHandles, hasNullOp, bodyMentions, hops, Option.getD_some]
    split_ifs with hnull
    · rw [collect_null hnull hlength]
      rfl
    · have hne : ∀ op ∈ ops, op ≠ .null := by
        rintro op hop rfl
        exact hnull (List.any_eq_true.mpr ⟨.null, hop, rfl⟩)
      rw [collect_eq hne hlength]
      rfl

/-- Two texts and a picture. -/
def demoDelta : List Json :=
  [.obj [("insert", .str "hi @Ann, @bob.")], .obj [("insert", .obj [("image", .str "@x")])],
    .obj [("insert", .str "@ann @@ @c")]]

/-- `@Ann` and `@ann` are one handle. -/
theorem extractMentionHandles_demo :
    mentions demoDelta = ["ann", "bob.", "ann", "c"] ∧
      ∃ enough, ∀ fuel, enough ≤ fuel →
        (∃ handles, extractMentionHandles fuel (.obj [("ops", .arr demoDelta)]) = .ok handles ∧
          FirstOccurrences (mentions demoDelta) handles) ∧
        ∀ done rest, demoDelta = done ++ rest → collect fuel done 0 = .ok (mentions done, 0) := by
  have hnull : ∀ op ∈ demoDelta, op ≠ .null := by simp [demoDelta]
  exact ⟨by decide, extractMentionHandles_eq _ demoDelta ⟨rfl, hnull⟩⟩

/-! ## The service's view of a body -/

/-- The body as `createComment` has it. -/
def CommentBody.ofOps (ops : List Json) : CommentBody := ⟨some (ops.map insertText)⟩

/-- A handle that has been read so far, last character first, and its end in the text that
follows. -/
def pending (read l : List Char) : List String :=
  if read.reverse ++ l.takeWhile handleChar = [] then []
  else [String.ofList ((read.reverse ++ l.takeWhile handleChar).map Char.toLower)]

theorem handles_cons (c : Char) (l : List Char) : (c :: l).tails.filterMap handleAt =
    (if c = '@' then pending [] l else []) ++ l.tails.filterMap handleAt := by
  rw [List.tails_cons, List.filterMap_cons, handleAt, pending]
  by_cases hat : c = '@' <;> by_cases hrun : l.takeWhile handleChar = [] <;> simp [hat, hrun]

theorem toLower_ofList (l : List Char) :
    (String.ofList l).toLower = String.ofList (l.map Char.toLower) := by
  have htoLower : (String.ofList l).toLower.toList = (String.ofList l).toList.map Char.toLower :=
    String.toList_map
  rw [← String.toList_inj, htoLower, String.toList_ofList, String.toList_ofList]

theorem map_toLower_pending (read : List Char) :
    (((some read).filter (· ≠ [])).toList.map fun h => String.ofList h.reverse).map String.toLower =
      pending read [] := by
  by_cases hempty : read = []
  · simp [hempty, pending]
  · simp [hempty, pending, toLower_ofList]

/-- One pass over the text finds what the regular expression finds. -/
theorem mentionMatches_eq (l : List Char) :
    (mentionMatches l none).map String.toLower = l.tails.filterMap handleAt ∧
      ∀ read, (mentionMatches l (some read)).map String.toLower =
        pending read l ++ l.tails.filterMap handleAt := by
  induction l with
  | nil =>
    refine ⟨rfl, fun read => ?_⟩
    rw [mentionMatches, map_toLower_pending]
    exact (List.append_nil _).symm
  | cons c l ih =>
    have hnext : (mentionMatches l (if c = '@' then some [] else none)).map String.toLower =
        (c :: l).tails.filterMap handleAt := by
      rw [handles_cons]
      split_ifs
      · exact ih.2 []
      · exact ih.1
    refine ⟨hnext, fun read => ?_⟩
    by_cases hc : handleChar c = true
    · have hat : c ≠ '@' := by
        rintro rfl
        exact Bool.false_ne_true hc
      have hread : pending read (c :: l) = pending (c :: read) l := by
        simp [pending, List.takeWhile_cons_of_pos hc]
      rw [mentionMatches, if_pos ⟨rfl, hc⟩, hread, handles_cons, if_neg hat]
      exact ih.2 (c :: read)
    · have hread : pending read (c :: l) = pending read [] := by
        simp [pending, List.takeWhile_cons_of_neg hc]
      rw [mentionMatches, if_neg fun h => hc h.2, List.map_append, map_toLower_pending, hnext, hread]

/-- **`createComment` mentions the handles that the loops find.** -/
theorem extractMentionHandles_ofOps (ops : List Json) :
    (CommentBody.ofOps ops).extractMentionHandles = (mentions ops).eraseDups := by
  rw [CommentBody.extractMentionHandles, CommentBody.ofOps, Option.getD_some]
  congr 1
  induction ops with
  | nil => rfl
  | cons op ops ih =>
    rw [mentions, List.flatMap_cons, List.map_cons, ← mentions, ← ih]
    cases h : insertText op with
    | none => rw [List.reduceOption_cons_of_none]; rfl
    | some text =>
      rw [List.reduceOption_cons_of_some, List.flatMap_cons, (mentionMatches_eq text.toList).1,
        Option.toList_some, List.flatMap_singleton, handlesOf]

end WorkPlatform.Task

import WorkPlatform.Machinery.JsonTree

/-!
# Shared/LogSanitiser — what a log line keeps

    { user: "u", Token: "s3", note: "eyJ….….…" }
    { user: "u", Token: "[REDACTED]", note: "[REDACTED_JWT]" }

The result of an object is built by assignment, and `result['__proto__'] = …` sets a prototype and
no key.  Whatever the value, the output holds none of what is to be kept out of it, and is its own
output; every key is there exactly where no object that is walked has a `__proto__` of its own
(`sanitised_iff`).
-/

namespace WorkPlatform.Shared

open Machinery

/-! ## The code -/

/-- The keys whose values are redacted. -/
def sensitiveKeys : List String :=
  ["password", "password_hash", "token", "access_token", "refresh_token", "secret", "totp_secret",
    "totp_secret_encrypted", "backup_codes", "mfa_backup_codes", "api_key", "webhook_secret",
    "encryption_key"]

/-- `[A-Za-z0-9_-]`. -/
def segmentChar (c : Char) : Bool := c.isAlphanum ∨ c = '_' ∨ c = '-'

/-- `[A-Za-z0-9_-]+`. -/
def isSegment (cs : List Char) : Bool := cs ≠ [] ∧ cs.all segmentChar

/-- `/^ey[A-Za-z0-9_-]+\.[A-Za-z0-9_-]+\.[A-Za-z0-9_-]+$/`; a segment has no dot. -/
def isJwt (s : String) : Bool :=
  match s.toList.splitOn '.' with
  | ['e' :: 'y' :: header, payload, signature] =>
    isSegment header ∧ isSegment payload ∧ isSegment signature
  | _ => false

def redacted : Json := .str "[REDACTED]"

def redactedJwt : String := "[REDACTED_JWT]"

/-- `result[key] = value`, of an object that began as `{}`. -/
def assign (result : List (String × Json)) (key : String) (value : Json) : List (String × Json) :=
  if key = "__proto__" then result
  else if key ∈ result.map Prod.fst then result.map fun f => if f.1 = key then (key, value) else f
  else result ++ [(key, value)]

section

variable (lower : String → String)

/-- `SENSITIVE_KEYS.has(key.toLowerCase())`. -/
def isSensitive (key : String) : Bool := lower key ∈ sensitiveKeys

mutual

/-- `lower` is `toLowerCase`. -/
def sanitiseLogData : Json → Json
  | .str s => if isJwt s then .str redactedJwt else .str s
  | .arr values => .arr (sanitiseValues values)
  | .obj fields => .obj (sanitiseFields [] fields)
  | .null => .null
  | .bool b => .bool b
  | .num n => .num n

/-- `obj.map(sanitiseLogData)`. -/
def sanitiseValues : List Json → List Json
  | [] => []
  | v :: vs => sanitiseLogData v :: sanitiseValues vs

/-- The loop over `Object.entries(obj)`. -/
def sanitiseFields (result : List (String × Json)) : List (String × Json) → List (String × Json)
  | [] => result
  | (key, value) :: rest =>
    sanitiseFields
      (assign result key (if isSensitive lower key then redacted else sanitiseLogData value)) rest

end

/-! ## What it is for -/

/-- Every key is kept and, outside sensitive keys, the shape and every leaf that is no JWT. -/
inductive Kept : Json → Json → Prop
  | null : Kept .null .null
  | bool (b : Bool) : Kept (.bool b) (.bool b)
  | num (n : Json.Number) : Kept (.num n) (.num n)
  | str (s : String) : Kept (.str s) (.str s)
  | jwt {s : String} (t : String) (h : isJwt s = true) : Kept (.str s) (.str t)
  | arr {vs ws : List Json} (hlen : vs.length = ws.length)
      (h : ∀ p ∈ vs.zip ws, Kept p.1 p.2) : Kept (.arr vs) (.arr ws)
  | obj {fs gs : List (String × Json)} (hkeys : fs.map Prod.fst = gs.map Prod.fst)
      (h : ∀ p ∈ fs.zip gs, isSensitive lower p.1.1 = false → Kept p.1.2 p.2.2) :
      Kept (.obj fs) (.obj gs)

/-- The values differ in what is stored under sensitive keys, and in which JWT stands at a position,
and in nothing else. -/
inductive Alike : Json → Json → Prop
  | null : Alike .null .null
  | bool (b : Bool) : Alike (.bool b) (.bool b)
  | num (n : Json.Number) : Alike (.num n) (.num n)
  | str (s : String) : Alike (.str s) (.str s)
  | jwt {s t : String} (hs : isJwt s = true) (ht : isJwt t = true) : Alike (.str s) (.str t)
  | arr {vs ws : List Json} (hlen : vs.length = ws.length)
      (h : ∀ p ∈ vs.zip ws, Alike p.1 p.2) : Alike (.arr vs) (.arr ws)
  | obj {fs gs : List (String × Json)} (hkeys : fs.map Prod.fst = gs.map Prod.fst)
      (h : ∀ p ∈ fs.zip gs, isSensitive lower p.1.1 = false → Alike p.1.2 p.2.2) :
      Alike (.obj fs) (.obj gs)

/-- Under a sensitive key there is the marker, and no string is a JWT. -/
inductive Clean : Json → Prop
  | null : Clean .null
  | bool (b : Bool) : Clean (.bool b)
  | num (n : Json.Number) : Clean (.num n)
  | str {s : String} (h : isJwt s = false) : Clean (.str s)
  | arr {values : List Json} (h : ∀ v ∈ values, Clean v) : Clean (.arr values)
  | obj {fields : List (String × Json)}
      (hmarked : ∀ f ∈ fields, isSensitive lower f.1 = true → f.2 = redacted)
      (h : ∀ f ∈ fields, Clean f.2) : Clean (.obj fields)

/-- No object outside sensitive keys has a `__proto__` of its own. -/
inductive Plain : Json → Prop
  | null : Plain .null
  | bool (b : Bool) : Plain (.bool b)
  | num (n : Json.Number) : Plain (.num n)
  | str (s : String) : Plain (.str s)
  | arr {values : List Json} (h : ∀ v ∈ values, Plain v) : Plain (.arr values)
  | obj {fields : List (String × Json)} (hproto : ∀ f ∈ fields, f.1 ≠ "__proto__")
      (h : ∀ f ∈ fields, isSensitive lower f.1 = false → Plain f.2) : Plain (.obj fields)

end

/-! ## The loops -/

section

variable {lower : String → String} {fields result : List (String × Json)} {v w : Json}

/-- What becomes of a field. -/
def sanitiseField (lower : String → String) (f : String × Json) : Option (String × Json) :=
  if f.1 = "__proto__" then none
  else some (f.1, if isSensitive lower f.1 then redacted else sanitiseLogData lower f.2)

theorem sanitise_arr (values : List Json) :
    sanitiseLogData lower (.arr values) = .arr (values.map (sanitiseLogData lower)) := by
  rw [sanitiseLogData]
  congr 1
  induction values with
  | nil => rfl
  | cons v vs ih => rw [sanitiseValues, ih, List.map_cons]

theorem assign_new {key : String} {value : Json} (h : key ∉ result.map Prod.fst) :
    assign result key value = if key = "__proto__" then result else result ++ [(key, value)] := by
  rw [assign, if_neg h]

/-- Keys that are new are assigned one after the other. -/
theorem sanitiseFields_eq (h : (result.map Prod.fst ++ fields.map Prod.fst).Nodup) :
    sanitiseFields lower result fields = result ++ fields.filterMap (sanitiseField lower) := by
  induction fields generalizing result with
  | nil => rw [sanitiseFields, List.filterMap_nil, List.append_nil]
  | cons f rest ih =>
    obtain ⟨key, value⟩ := f
    have hnew : key ∉ result.map Prod.fst := fun hmem =>
      List.disjoint_of_nodup_append h hmem List.mem_cons_self
    rw [sanitiseFields, assign_new hnew, List.filterMap_cons, sanitiseField]
    by_cases hproto : key = "__proto__"
    · have hrest : (result.map Prod.fst ++ rest.map Prod.fst).Nodup :=
        h.sublist (List.Sublist.append_left (List.sublist_cons_self _ _) _)
      simp only [if_pos hproto, ih hrest]
    · have hrest : ((result ++ [(key, if isSensitive lower key then redacted
          else sanitiseLogData lower value)]).map Prod.fst ++ rest.map Prod.fst).Nodup := by
        rwa [List.map_append, List.append_assoc]
      simp only [if_neg hproto, ih hrest, List.append_assoc, List.singleton_append]

theorem sanitise_obj (h : (fields.map Prod.fst).Nodup) :
    sanitiseLogData lower (.obj fields) = .obj (fields.filterMap (sanitiseField lower)) := by
  rw [sanitiseLogData, sanitiseFields_eq (by simpa using h), List.nil_append]

/-- A field of the output, and the field it comes from. -/
theorem mem_sanitised {g : String × Json} (hg : g ∈ fields.filterMap (sanitiseField lower)) :
    ∃ f ∈ fields, g.1 = f.1 ∧ f.1 ≠ "__proto__" ∧
      g.2 = if isSensitive lower f.1 then redacted else sanitiseLogData lower f.2 := by
  obtain ⟨f, hf, hfield⟩ := List.mem_filterMap.mp hg
  rw [sanitiseField] at hfield
  split_ifs at hfield with hproto hsensitive
  · obtain rfl := Option.some.inj hfield
    exact ⟨f, hf, rfl, hproto, (if_pos hsensitive).symm⟩
  · obtain rfl := Option.some.inj hfield
    exact ⟨f, hf, rfl, hproto, (if_neg hsensitive).symm⟩

/-- Sanitising makes no key twice. -/
theorem nodup_sanitised (h : (fields.map Prod.fst).Nodup) :
    ((fields.filterMap (sanitiseField lower)).map Prod.fst).Nodup := by
  have hkeys : (fields.filterMap (sanitiseField lower)).map Prod.fst =
      (fields.map Prod.fst).filter (· ≠ "__proto__") := by
    induction fields with
    | nil => rfl
    | cons f rest ih =>
      have hrest := ih (List.nodup_cons.mp h).2
      by_cases hproto : f.1 = "__proto__"
      · simp [sanitiseField, hproto, hrest]
      · simp [sanitiseField, hproto, hrest]
  rw [hkeys]
  exact h.filter _

/-! ## The output -/

theorem isJwt_redacted : isJwt "[REDACTED]" = false := by decide

theorem isJwt_redactedJwt : isJwt redactedJwt = false := by decide

theorem sanitise_str (s : String) :
    sanitiseLogData lower (.str s) = .str (if isJwt s = true then redactedJwt else s) := by
  rw [sanitiseLogData]
  split_ifs <;> rfl

/-- A proper value stays proper. -/
theorem proper_sanitise (hv : v.Proper) : (sanitiseLogData lower v).Proper := by
  induction v using Json.induction with
  | null | bool | num => rwa [sanitiseLogData]
  | str s =>
    rw [sanitise_str]
    exact .str _
  | arr values ih =>
    rw [sanitise_arr]
    exact .arr (List.forall_mem_map.mpr fun v hmem => ih v hmem (hv.values v hmem))
  | obj fields ih =>
    rw [sanitise_obj hv.keys]
    refine .obj (nodup_sanitised hv.keys) fun g hg => ?_
    obtain ⟨f, hf, -, -, hvalue⟩ := mem_sanitised hg
    rw [hvalue]
    split_ifs
    · exact .str _
    · exact ih f hf (hv.fields f hf)

/-- **No content under a sensitive key and no JWT is in the output.** -/
theorem clean_sanitise (hv : v.Proper) : Clean lower (sanitiseLogData lower v) := by
  induction v using Json.induction with
  | null => exact .null
  | bool b => exact .bool b
  | num n => exact .num n
  | str s =>
    rw [sanitise_str]
    split_ifs with hjwt
    · exact .str isJwt_redactedJwt
    · exact .str (eq_false_of_ne_true hjwt)
  | arr values ih =>
    rw [sanitise_arr]
    exact .arr (List.forall_mem_map.mpr fun v hmem => ih v hmem (hv.values v hmem))
  | obj fields ih =>
    rw [sanitise_obj hv.keys]
    refine .obj (fun g hg hsensitive => ?_) fun g hg => ?_
    · obtain ⟨f, -, hkey, -, hvalue⟩ := mem_sanitised hg
      rw [hvalue, if_pos (hkey ▸ hsensitive)]
    · obtain ⟨f, hf, -, -, hvalue⟩ := mem_sanitised hg
      rw [hvalue]
      split_ifs
      · exact .str isJwt_redacted
      · exact ih f hf (hv.fields f hf)

/-- Nothing sensitive is left of a value, at whatever depth. -/
theorem plain_sanitise (hv : v.Proper) : Plain lower (sanitiseLogData lower v) := by
  induction v using Json.induction with
  | null => exact .null
  | bool b => exact .bool b
  | num n => exact .num n
  | str s =>
    rw [sanitise_str]
    exact .str _
  | arr values ih =>
    rw [sanitise_arr]
    exact .arr (List.forall_mem_map.mpr fun v hmem => ih v hmem (hv.values v hmem))
  | obj fields ih =>
    rw [sanitise_obj hv.keys]
    refine .obj (fun g hg => ?_) fun g hg hopen => ?_
    · obtain ⟨f, -, hkey, hproto, -⟩ := mem_sanitised hg
      rwa [hkey]
    · obtain ⟨f, hf, hkey, -, hvalue⟩ := mem_sanitised hg
      have hfield : ¬ isSensitive lower f.1 = true := by
        rw [← hkey, hopen]
        exact Bool.false_ne_true
      rw [hvalue, if_neg hfield]
      exact ih f hf (hv.fields f hf)

/-- A value that is clean, with every key in place, is left alone. -/
theorem sanitise_of_clean (hv : v.Proper) (hclean : Clean lower v) (hplain : Plain lower v) :
    sanitiseLogData lower v = v := by
  induction v using Json.induction with
  | null | bool | num => rw [sanitiseLogData]
  | str s =>
    cases hclean with
    | str hjwt => rw [sanitise_str, if_neg (ne_true_of_eq_false hjwt)]
  | arr values ih =>
    cases hclean with
    | arr hclean =>
      cases hplain with
      | arr hplain =>
        have hvalues : values.map (sanitiseLogData lower) = values.map id :=
          List.map_congr_left fun v hmem => ih v hmem (hv.values v hmem) (hclean v hmem) (hplain v hmem)
        rw [sanitise_arr, hvalues, List.map_id]
  | obj fields ih =>
    cases hclean with
    | obj hmarked hclean =>
      cases hplain with
      | obj hproto hplain =>
        have hfields : fields.filterMap (sanitiseField lower) = fields.filterMap some := by
          refine List.filterMap_congr fun f hf => ?_
          rw [sanitiseField, if_neg (hproto f hf)]
          by_cases hsensitive : isSensitive lower f.1 = true
          · rw [if_pos hsensitive, ← hmarked f hf hsensitive]
          · rw [if_neg hsensitive, ih f hf (hv.fields f hf) (hclean f hf)
              (hplain f hf (eq_false_of_ne_true hsensitive))]
        rw [sanitise_obj hv.keys, hfields, List.filterMap_some]

/-! ## Two values -/

theorem mem_zip_map {α β : Type*} {f : α → β} {xs : List α} {p : α × β} :
    p ∈ xs.zip (xs.map f) ↔ ∃ x ∈ xs, p = (x, f x) := by
  induction xs with
  | nil => simp
  | cons x xs ih => simp [ih]

/-- Lists that agree under a function agree in every place. -/
theorem eq_of_mem_zip {α β : Type*} {f : α → β} {xs ys : List α} {p : α × α}
    (heq : xs.map f = ys.map f) (hp : p ∈ xs.zip ys) : f p.1 = f p.2 := by
  induction xs generalizing ys with
  | nil => cases hp
  | cons x xs ih =>
    cases ys with
    | nil => cases hp
    | cons y ys =>
      obtain ⟨hhead, hrest⟩ := List.cons.inj heq
      rcases List.mem_cons.mp hp with rfl | hp
      · exact hhead
      · exact ih hrest hp

/-- Lists of one length, whose members become the same one by one, become the same. -/
theorem filterMap_eq_of_zip {α β : Type*} {f : α → Option β} {xs ys : List α}
    (hlen : xs.length = ys.length) (h : ∀ p ∈ xs.zip ys, f p.1 = f p.2) :
    xs.filterMap f = ys.filterMap f := by
  induction xs generalizing ys with
  | nil =>
    obtain rfl := List.length_eq_zero_iff.mp hlen.symm
    rfl
  | cons x xs ih =>
    cases ys with
    | nil => cases hlen
    | cons y ys =>
      have hrest := ih (Nat.succ.inj hlen) fun p hp => h p (List.mem_cons_of_mem _ hp)
      have hhead : f x = f y := h (x, y) List.mem_cons_self
      rw [List.filterMap_cons, List.filterMap_cons, hhead, hrest]

/-- **Values that differ only in what is hidden have one output.** -/
theorem sanitise_eq_of_alike (hv : v.Proper) (hw : w.Proper) (h : Alike lower v w) :
    sanitiseLogData lower v = sanitiseLogData lower w := by
  induction h with
  | null | bool | num | str => rfl
  | jwt hs ht => rw [sanitise_str, sanitise_str, if_pos hs, if_pos ht]
  | @arr vs ws hlen _ ih =>
    rw [sanitise_arr, sanitise_arr, ← List.filterMap_eq_map]
    congr 1
    refine filterMap_eq_of_zip hlen fun p hp => ?_
    obtain ⟨hpv, hpw⟩ := List.of_mem_zip hp
    exact congrArg some (ih p hp (hv.values _ hpv) (hw.values _ hpw))
  | @obj fs gs hkeys _ ih =>
    have hlen : fs.length = gs.length := by simpa using congrArg List.length hkeys
    rw [sanitise_obj hv.keys, sanitise_obj hw.keys]
    congr 1
    refine filterMap_eq_of_zip hlen fun p hp => ?_
    obtain ⟨hpf, hpg⟩ := List.of_mem_zip hp
    have hkey : p.1.1 = p.2.1 := eq_of_mem_zip hkeys hp
    rw [sanitiseField, sanitiseField, ← hkey]
    by_cases hsensitive : isSensitive lower p.1.1 = true
    · rw [if_pos hsensitive, if_pos hsensitive]
    · rw [if_neg hsensitive, if_neg hsensitive, ih p hp (eq_false_of_ne_true hsensitive)
        (hv.fields _ hpf) (hw.fields _ hpg)]

/-! ## What is kept -/

/-- Where no key is `__proto__`, no field is lost. -/
theorem filterMap_sanitiseField (h : ∀ f ∈ fields, f.1 ≠ "__proto__") :
    fields.filterMap (sanitiseField lower) = fields.map fun f =>
      (f.1, if isSensitive lower f.1 then redacted else sanitiseLogData lower f.2) := by
  rw [← List.filterMap_eq_map]
  refine List.filterMap_congr fun f hf => ?_
  rw [sanitiseField, if_neg (h f hf), Function.comp_apply]

/-- Where every key is kept, none is `__proto__`. -/
theorem ne_proto_of_keys
    (h : fields.map Prod.fst = (fields.filterMap (sanitiseField lower)).map Prod.fst) :
    ∀ f ∈ fields, f.1 ≠ "__proto__" := by
  intro f hf
  have hkey : f.1 ∈ (fields.filterMap (sanitiseField lower)).map Prod.fst := by
    rw [← h]
    exact List.mem_map_of_mem hf
  obtain ⟨g, hg, hgf⟩ := List.mem_map.mp hkey
  obtain ⟨f', -, hgf', hproto, -⟩ := mem_sanitised hg
  rwa [← hgf, hgf']

/-- **Every key is kept, and the rest of the tree,** exactly where no object has a `__proto__`. -/
theorem kept_iff (hv : v.Proper) : Kept lower v (sanitiseLogData lower v) ↔ Plain lower v := by
  induction v using Json.induction with
  | null => exact iff_of_true .null .null
  | bool b => exact iff_of_true (.bool b) (.bool b)
  | num n => exact iff_of_true (.num n) (.num n)
  | str s =>
    rw [sanitise_str]
    refine iff_of_true ?_ (.str s)
    split_ifs with hjwt
    · exact .jwt _ hjwt
    · exact .str s
  | arr values ih =>
    rw [sanitise_arr]
    constructor
    · intro hkept
      cases hkept with
      | arr hlen h =>
        exact .arr fun v hmem => (ih v hmem (hv.values v hmem)).mp (h _ (mem_zip_map.mpr ⟨v, hmem, rfl⟩))
    · intro hplain
      cases hplain with
      | arr hplain =>
        refine .arr (List.length_map _).symm fun p hp => ?_
        obtain ⟨v, hmem, rfl⟩ := mem_zip_map.mp hp
        exact (ih v hmem (hv.values v hmem)).mpr (hplain v hmem)
  | obj fields ih =>
    rw [sanitise_obj hv.keys]
    have hopen : ∀ f ∈ fields, isSensitive lower f.1 = false →
        (Kept lower f.2 (if isSensitive lower f.1 then redacted else sanitiseLogData lower f.2) ↔
          Plain lower f.2) := by
      intro f hf hsensitive
      rw [if_neg (ne_true_of_eq_false hsensitive)]
      exact ih f hf (hv.fields f hf)
    constructor
    · intro hkept
      cases hkept with
      | obj hkeys h =>
        have hproto := ne_proto_of_keys hkeys
        rw [filterMap_sanitiseField hproto] at h
        refine .obj hproto fun f hf hsensitive => (hopen f hf hsensitive).mp ?_
        exact h _ (mem_zip_map.mpr ⟨f, hf, rfl⟩) hsensitive
    · intro hplain
      cases hplain with
      | obj hproto hplain =>
        rw [filterMap_sanitiseField hproto]
        refine .obj (by rw [List.map_map]; rfl) fun p hp hsensitive => ?_
        obtain ⟨f, hf, rfl⟩ := mem_zip_map.mp hp
        exact (hopen f hf hsensitive).mpr (hplain f hf hsensitive)

end

/-! ## Log data -/

/-- What can be logged: a tree of arrays and objects whose keys are distinct. -/
structure LogData where
  value : Json
  proper : value.Proper

/-- **Nothing that is to be hidden comes out, and nothing else is lost.** -/
structure Sanitised (lower : String → String) (v : LogData) : Prop where
  idempotent : sanitiseLogData lower (sanitiseLogData lower v.value) = sanitiseLogData lower v.value
  kept : Kept lower v.value (sanitiseLogData lower v.value)
  alike : ∀ w : LogData, Alike lower v.value w.value →
    sanitiseLogData lower v.value = sanitiseLogData lower w.value
  clean : Clean lower (sanitiseLogData lower v.value)

theorem sanitise_idempotent (lower : String → String) (v : LogData) :
    sanitiseLogData lower (sanitiseLogData lower v.value) = sanitiseLogData lower v.value :=
  sanitise_of_clean (proper_sanitise v.proper) (clean_sanitise v.proper) (plain_sanitise v.proper)

/-- **The output is what it is to be** exactly where no object outside sensitive keys has a
`__proto__` of its own: that key is lost, and all the rest holds all the same. -/
theorem sanitised_iff (lower : String → String) (v : LogData) :
    Sanitised lower v ↔ Plain lower v.value := by
  constructor
  · intro h
    exact (kept_iff v.proper).mp h.kept
  · intro hplain
    exact ⟨sanitise_idempotent lower v, (kept_iff v.proper).mpr hplain,
      fun w h => sanitise_eq_of_alike v.proper w.proper h, clean_sanitise v.proper⟩

/-- A body, as `JSON.parse` reads it. -/
def demoLogData : LogData where
  value := .obj [("__proto__", .obj [("admin", .bool true)]), ("token", .str "s3")]
  proper := by
    refine .obj (by decide) fun f hf => ?_
    rcases List.mem_pair.mp hf with rfl | rfl
    · refine .obj (List.nodup_singleton _) fun f hf => ?_
      obtain rfl := List.mem_singleton.mp hf
      exact .bool true
    · exact .str "s3"

/-- **The key is lost.** -/
theorem not_sanitised_proto :
    ¬ Sanitised (fun s => String.ofList (s.toList.map Char.toLower)) demoLogData := by
  intro h
  have hkept := h.kept
  rw [show demoLogData.value = .obj _ from rfl, sanitise_obj demoLogData.proper.keys] at hkept
  cases hkept with
  | obj hkeys _ => exact absurd hkeys (by decide)

end WorkPlatform.Shared

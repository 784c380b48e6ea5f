import Mathlib.Data.List.Find
import WorkPlatform.Machinery.Run
import WorkPlatform.Machinery.Table

/-!
# FeatureFlag/Calls — feature flags, and the three levels they are read through

    isEnabled     L1 of the instance ▸ HGET ▸ SELECT on the replica ▸ L1, HSET
    reload        SELECT on the replica ▸ one HSET for each row
    createFlag    INSERT ▸ L1 ▸ HDEL ▸ PUBLISH
    updateFlag    UPDATE ▸ L1 ▸ HDEL ▸ PUBLISH
    deleteFlag    DELETE ▸ L1 ▸ HDEL ▸ PUBLISH

An entry of L1 is live for 5 seconds; the hash of L2 never expires.  An answer of Redis or of the
database is on its way while others run: what a call has been given it keeps in its control point
(`cached`, `loaded`, `hset`, `pipeline`).

What a statement does to the store is said once, in `effect_of_next`.
-/

namespace WorkPlatform.FeatureFlag

open Machinery

/-! ## The flags -/

/-- What Redis keeps of a flag, as JSON. -/
structure FlagValue where
  isGloballyEnabled : Bool
  enabledOrgIds : List String
  disabledOrgIds : List String
  deriving DecidableEq

/-- `resolveFlag`: the lists come before the global switch, and the list of the disabled first. -/
def resolveFlag (flag : FlagValue) (orgId : String) : Bool :=
  if orgId ∈ flag.disabledOrgIds then false
  else if orgId ∈ flag.enabledOrgIds then true
  else flag.isGloballyEnabled

/-- Unknown flags are off. -/
def resolved (flag : Option FlagValue) (orgId : String) : Bool :=
  flag.any (resolveFlag · orgId)

/-- A row of `feature_flags`. -/
structure FlagRow where
  id : String
  key : String
  value : FlagValue
  deriving DecidableEq

/-- The type of the column `key`, and the checks of the two arrays. -/
def FlagRow.Fits (row : FlagRow) : Prop :=
  row.key.length ≤ 100 ∧ row.value.enabledOrgIds.length < 10000
    ∧ row.value.disabledOrgIds.length < 10000

instance : DecidablePred FlagRow.Fits := fun row =>
  inferInstanceAs (Decidable (row.key.length ≤ 100 ∧ row.value.enabledOrgIds.length < 10000
    ∧ row.value.disabledOrgIds.length < 10000))

/-- What is to be written; a column that is left out keeps what it has. -/
structure Patch where
  isGloballyEnabled : Option Bool
  enabledOrgIds : Option (List String)
  disabledOrgIds : Option (List String)
  deriving DecidableEq

structure NewFlag extends Patch where
  key : String
  deriving DecidableEq

/-- `COALESCE($n, column)`, for the three columns. -/
def FlagValue.coalesce (flag : FlagValue) (data : Patch) : FlagValue where
  isGloballyEnabled := data.isGloballyEnabled.getD flag.isGloballyEnabled
  enabledOrgIds := data.enabledOrgIds.getD flag.enabledOrgIds
  disabledOrgIds := data.disabledOrgIds.getD flag.disabledOrgIds

def FlagRow.coalesce (row : FlagRow) (data : Patch) : FlagRow :=
  { row with value := row.value.coalesce data }

/-- The row of a new flag; what is not given is off or empty. -/
def NewFlag.row (data : NewFlag) (id : String) : FlagRow where
  id := id
  key := data.key
  value := FlagValue.coalesce ⟨false, [], []⟩ data.toPatch

/-- The table `feature_flags`: the primary key is `id`, and `key` is unique. -/
structure Flags where
  table : Table FlagRow.id
  keys_nodup : (table.rows.map FlagRow.key).Nodup
  fits : ∀ row ∈ table.rows, row.Fits

namespace Flags

def find (flags : Flags) (key : String) : Option FlagRow :=
  flags.table.rows.find? (·.key = key)

/-- What a `SELECT` of the flag gives. -/
def value (flags : Flags) (key : String) : Option FlagValue := (flags.find key).map (·.value)

/-- What `loadFlagsFromDb` gives: every row, by its key. -/
def entries (flags : Flags) : List (String × FlagValue) :=
  flags.table.rows.map fun row => (row.key, row.value)

/-- The INSERT; `none` where the key is taken. -/
def insert (flags : Flags) (row : FlagRow) : Option Flags :=
  if h : row.Fits ∧ row.key ∉ flags.table.rows.map FlagRow.key then
    match ht : flags.table.insert row with
    | none => none
    | some table => some {
        table := table
        keys_nodup := by
          rw [(Table.insert_eq_some ht).2]
          exact List.nodup_cons.mpr ⟨h.2, flags.keys_nodup⟩
        fits := by
          rw [(Table.insert_eq_some ht).2]
          exact List.forall_mem_cons.mpr ⟨h.1, flags.fits⟩ }
  else none

/-- `WHERE id = $1`; refused where the row would not fit. -/
def update (flags : Flags) (id : String) (data : Patch) : Option Flags :=
  if h : ∀ row ∈ flags.table.rows, (row.coalesce data).Fits ∨ row.id ≠ id then
    some {
      table := flags.table.update id (·.coalesce data) fun _ => rfl
      keys_nodup := by
        have hkey : (FlagRow.key ∘ fun row => if row.id = id then row.coalesce data else row)
            = FlagRow.key := by
          funext row
          dsimp only [Function.comp]
          split <;> rfl
        show ((flags.table.rows.map _).map FlagRow.key).Nodup
        rw [List.map_map, hkey]
        exact flags.keys_nodup
      fits := by
        intro row hrow
        obtain ⟨old, hold, rfl⟩ := List.mem_map.mp hrow
        split
        case isTrue hid => exact (h old hold).resolve_right fun hne => hne hid
        case isFalse => exact flags.fits old hold }
  else none

/-- `DELETE … WHERE id = $1`. -/
def delete (flags : Flags) (id : String) : Flags where
  table := flags.table.filter (·.id ≠ id)
  keys_nodup := (List.filter_sublist.map FlagRow.key).nodup flags.keys_nodup
  fits := fun row hrow => flags.fits row (List.mem_of_mem_filter hrow)

end Flags

/-! ## The store -/

/-- Who asks for which flag. -/
structure Read where
  inst : String
  orgId : String
  flagKey : String
  deriving DecidableEq

/-- An entry of the map of one process. -/
structure L1Entry where
  value : Bool
  expiresAt : ℕ
  deriving DecidableEq

/-- The states of the primary that the replica has yet to go through, the next one first; the hash
`featureflags:cache`; the `l1Cache` of each instance, under `<orgId>:<flagKey>`; and the flags
that were announced on the invalidation channel. -/
structure Store where
  now : ℕ
  primary : Flags
  replica : Flags
  behind : List Flags
  l2 : String → Option FlagValue
  l1 : String → String × String → Option L1Entry
  published : List String

/-- `L1_TTL_MS`. -/
def l1TtlMs : ℕ := 5000

/-- `key.endsWith(":<flagKey>")`. -/
def endsWithKey (flagKey : String) (k : String × String) : Bool :=
  (':' :: flagKey.toList).isSuffixOf (k.1.toList ++ ':' :: k.2.toList)

namespace Store

/-- The current row of a flag. -/
def flag (s : Store) (key : String) : Option FlagValue := s.primary.value key

def commit (s : Store) (flags : Flags) : Store :=
  { s with primary := flags, behind := s.behind ++ [flags] }

/-- The replica catches up by one write. -/
def replicate (s : Store) : Store :=
  match s.behind with
  | [] => s
  | flags :: behind => { s with replica := flags, behind := behind }

/-- The process remembers the answer for 5 seconds. -/
def setL1 (s : Store) (r : Read) (value : Bool) : Store :=
  { s with
    l1 := Function.update s.l1 r.inst
      (Function.update (s.l1 r.inst) (r.orgId, r.flagKey) (some ⟨value, s.now + l1TtlMs⟩)) }

/-- The process forgets its answers for a flag. -/
def clearL1 (s : Store) (inst flagKey : String) : Store :=
  { s with
    l1 := Function.update s.l1 inst fun k =>
      if endsWithKey flagKey k then none else s.l1 inst k }

/-- The entry of a read, unless it has expired. -/
def liveL1 (s : Store) (r : Read) : Option Bool :=
  (s.l1 r.inst (r.orgId, r.flagKey)).bind fun e =>
    if s.now < e.expiresAt then some e.value else none

def hset (s : Store) (key : String) (flag : FlagValue) : Store :=
  { s with l2 := Function.update s.l2 key (some flag) }

def hdel (s : Store) (key : String) : Store :=
  { s with l2 := Function.update s.l2 key none }

def publish (s : Store) (key : String) : Store := { s with published := key :: s.published }

def tick (s : Store) (ms : ℕ) : Store := { s with now := s.now + ms }

/-- An instance gets the message that a flag is invalid, if there was one. -/
def deliver (s : Store) (inst key : String) : Store :=
  if key ∈ s.published then s.clearL1 inst key else s

def restart (s : Store) (inst : String) : Store :=
  { s with l1 := Function.update s.l1 inst fun _ => none }

end Store

/-! ## The calls -/

/-- Where a call of `isEnabled`, `loadFlagsIntoRedis` or one of the services that write flags is. -/
inductive Pc
  | isEnabled (r : Read)
  | hget (r : Read)
  | cached (r : Read) (flag : FlagValue)
  | select (r : Read)
  | loaded (r : Read) (flag : Option FlagValue)
  | hset (r : Read) (flag : FlagValue)
  | returned (value : Bool)
  | loadFlagsIntoRedis
  | pipeline (rows : List (String × FlagValue))
  | reloaded
  | createFlag (inst : String) (data : NewFlag)
  | updateFlag (inst id : String) (data : Patch)
  | deleteFlag (inst id : String)
  | invalidate (inst flagKey : String) (row : Option FlagRow)
  | hdel (flagKey : String) (row : Option FlagRow)
  | publish (flagKey : String) (row : Option FlagRow)
  | mutated (row : Option FlagRow)
  | threw
  deriving DecidableEq

/-- The id a new row gets, and whether the database or Redis fails. -/
structure Draw where
  id : String
  failed : Bool

/-- What happens around the calls. -/
inductive Env
  | tick (ms : ℕ)
  | replicate
  | deliver (inst flagKey : String)
  | restart (inst : String)

/-- Time, replication, the messages of Redis and restarts. -/
def env (s : Store) : Env → Store
  | .tick ms => s.tick ms
  | .replicate => s.replicate
  | .deliver inst flagKey => s.deliver inst flagKey
  | .restart inst => s.restart inst

/-- The next statement of a call. -/
def next (s : Store) (pc : Pc) (d : Draw) : Option (Store × Pc) :=
  match pc with
  | .isEnabled r =>
    match s.liveL1 r with
    | some value => some (s, .returned value)
    | none => some (s, .hget r)
  -- a failure of Redis falls through to the database
  | .hget r =>
    match if d.failed then none else s.l2 r.flagKey with
    | some flag => some (s, .cached r flag)
    | none => some (s, .select r)
  | .cached r flag =>
    some (s.setL1 r (resolveFlag flag r.orgId), .returned (resolveFlag flag r.orgId))
  | .select r =>
    if d.failed then some (s, .returned false)
    else some (s, .loaded r (s.replica.value r.flagKey))
  | .loaded r none => some (s.setL1 r false, .returned false)
  | .loaded r (some flag) => some (s.setL1 r (resolveFlag flag r.orgId), .hset r flag)
  | .hset r flag =>
    if d.failed then some (s, .returned false)
    else some (s.hset r.flagKey flag, .returned (resolveFlag flag r.orgId))
  | .loadFlagsIntoRedis =>
    if d.failed then some (s, .threw) else some (s, .pipeline s.replica.entries)
  | .pipeline [] => some (s, .reloaded)
  -- a command of a pipeline that fails does not stop the next one
  | .pipeline ((key, flag) :: rows) =>
    some (if d.failed then s else s.hset key flag, .pipeline rows)
  | .createFlag inst data =>
    match if d.failed then none else s.primary.insert (data.row d.id) with
    | none => some (s, .threw)
    | some flags => some (s.commit flags, .invalidate inst data.key (some (data.row d.id)))
  | .updateFlag inst id data =>
    match if d.failed then none else s.primary.update id data with
    | none => some (s, .threw)
    | some flags =>
      match flags.table.find id with
      | none => some (s, .mutated none)
      | some row => some (s.commit flags, .invalidate inst row.key (some row))
  | .deleteFlag inst id =>
    if d.failed then some (s, .threw)
    else
      match s.primary.table.find id with
      | none => some (s, .mutated none)
      | some row => some (s.commit (s.primary.delete id),
          if row.key = "" then .mutated none else .invalidate inst row.key none)
  | .invalidate inst flagKey row => some (s.clearL1 inst flagKey, .hdel flagKey row)
  | .hdel flagKey row =>
    if d.failed then some (s, .threw) else some (s.hdel flagKey, .publish flagKey row)
  | .publish flagKey row =>
    if d.failed then some (s, .threw) else some (s.publish flagKey, .mutated row)
  | .returned _ | .reloaded | .mutated _ | .threw => none

def flagMachine : Machine Store Pc Draw Env := ⟨next, env⟩

abbrev Calls (ι : Type*) := Pool ι Store Pc

/-! ## What a statement does -/

/-- The statement is on the row of the flag. -/
def Pc.Touches (s : Store) (key : String) : Pc → Prop
  | .createFlag _ data => data.key = key
  | .updateFlag _ id _ | .deleteFlag _ id =>
    (s.primary.table.find id).map FlagRow.key = some key
  | _ => False

/-- What the statement is about to write to L2. -/
def Pc.writes : Pc → Option (String × FlagValue)
  | .hset r flag => some (r.flagKey, flag)
  | .pipeline (row :: _) => some row
  | _ => none

/-- What the statement is about to write to L1. -/
def Pc.fills : Pc → Option (Read × Bool)
  | .cached r flag => some (r, resolveFlag flag r.orgId)
  | .loaded r flag => some (r, resolved flag r.orgId)
  | _ => none

namespace Flags

variable {flags flags' : Flags} {row : FlagRow} {id key : String} {data : Patch}

/-- The INSERT of a row leaves the other flags. -/
theorem value_insert (h : flags.insert row = some flags') (hkey : row.key ≠ key) :
    flags'.value key = flags.value key := by
  unfold insert at h
  split at h
  case isFalse => cases h
  case isTrue =>
    split at h
    case h_1 => cases h
    case h_2 table ht =>
      obtain rfl := Option.some.inj h
      unfold value find
      rw [(Table.insert_eq_some ht).2, List.find?_cons_of_neg (by simpa using hkey)]

theorem key_ne_of_find (hkey : (flags.table.find id).map FlagRow.key ≠ some key)
    (hrow : row ∈ flags.table.rows) (hid : row.id = id) : row.key ≠ key := by
  subst hid
  rw [Table.find_key hrow] at hkey
  exact fun heq => hkey (congrArg some heq)

/-- An update of one flag leaves the value of another. -/
theorem value_update (h : flags.update id data = some flags')
    (hkey : (flags.table.find id).map FlagRow.key ≠ some key) :
    flags'.value key = flags.value key := by
  unfold update at h
  split at h
  case isFalse => cases h
  case isTrue =>
    obtain rfl := Option.some.inj h
    have hpred : (fun row : FlagRow => decide (row.key = key)) ∘
        (fun row => if row.id = id then row.coalesce data else row)
          = fun row => decide (row.key = key) := by
      funext row
      dsimp only [Function.comp]
      split <;> rfl
    show ((flags.table.rows.map fun row => if row.id = id then row.coalesce data else row).find?
      (fun row => decide (row.key = key))).map _ = _
    rw [List.find?_map, hpred]
    unfold value find
    cases hfind : flags.table.rows.find? (fun row => decide (row.key = key)) with
    | none => rfl
    | some row =>
      have hid : row.id ≠ id := fun hid =>
        key_ne_of_find hkey (List.mem_of_find?_eq_some hfind) hid
          (by simpa using List.find?_some hfind)
      rw [Option.map_some, if_neg hid]

/-- So does a DELETE. -/
theorem value_delete (hkey : (flags.table.find id).map FlagRow.key ≠ some key) :
    (flags.delete id).value key = flags.value key := by
  have hpred : ∀ row ∈ flags.table.rows,
      decide (decide (row.id ≠ id) = true ∧ decide (row.key = key) = true)
        = decide (row.key = key) := by
    intro row hrow
    by_cases hid : row.id = id
    · simp [key_ne_of_find hkey hrow hid]
    · simp [hid]
  show ((flags.table.rows.filter _).find? _).map _ = _
  rw [List.find?_filter]
  unfold value find
  rw [List.find?_congr hpred]

/-- What is loaded under a key is what a `SELECT` of it gives. -/
theorem mem_entries {flag : FlagValue} :
    (key, flag) ∈ flags.entries ↔ flags.value key = some flag := by
  unfold entries value find
  rw [List.mem_map, Option.map_eq_some_iff]
  constructor
  · rintro ⟨row, hrow, heq⟩
    obtain ⟨rfl, rfl⟩ := Prod.mk.inj heq
    cases hfind : flags.table.rows.find? (fun row' => decide (row'.key = row.key)) with
    | none => simpa using List.find?_eq_none.mp hfind row hrow
    | some row' =>
      have hkey : row'.key = row.key := by simpa using List.find?_some hfind
      have hrow' := List.mem_of_find?_eq_some hfind
      exact ⟨row', rfl, by rw [List.inj_on_of_nodup_map flags.keys_nodup hrow' hrow hkey]⟩
  · rintro ⟨row, hfind, rfl⟩
    have hkey : row.key = key := by simpa using List.find?_some hfind
    exact ⟨row, List.mem_of_find?_eq_some hfind, by rw [hkey]⟩

end Flags

/-- What a statement can do to the store. -/
inductive Effect (s : Store) (pc : Pc) : Store → Prop
  | none : Effect s pc s
  | fill {r : Read} {value : Bool} (h : pc.fills = some (r, value)) : Effect s pc (s.setL1 r value)
  | write {key : String} {flag : FlagValue} (h : pc.writes = some (key, flag)) :
      Effect s pc (s.hset key flag)
  | commit {flags : Flags} (h : ∀ key, ¬ pc.Touches s key → flags.value key = s.flag key) :
      Effect s pc (s.commit flags)
  | clear (inst key : String) : Effect s pc (s.clearL1 inst key)
  | hdel (key : String) : Effect s pc (s.hdel key)
  | publish (key : String) : Effect s pc (s.publish key)

section Statements

variable {s s' : Store} {pc pc' : Pc} {d : Draw} {key : String}

theorem effect_pipeline {rows : List (String × FlagValue)}
    (h : next s (.pipeline rows) d = some (s', pc')) : Effect s (.pipeline rows) s' := by
  cases rows with
  | nil =>
    obtain ⟨rfl, -⟩ := Prod.mk.inj (Option.some.inj h)
    exact .none
  | cons row rows =>
    obtain ⟨rfl, -⟩ := Prod.mk.inj (Option.some.inj h)
    split
    · exact .none
    · exact .write rfl

/-- The INSERT of a flag changes no other one. -/
theorem effect_createFlag {inst : String} {data : NewFlag}
    (h : next s (.createFlag inst data) d = some (s', pc')) :
    Effect s (.createFlag inst data) s' := by
  unfold next at h
  dsimp only at h
  split at h <;> obtain ⟨rfl, -⟩ := Prod.mk.inj (Option.some.inj h)
  case h_1 => exact .none
  case h_2 hflags =>
    obtain ⟨-, hflags⟩ := Option.ite_none_left_eq_some.mp hflags
    exact .commit fun key htouch => Flags.value_insert hflags htouch

/-- Nor does an UPDATE. -/
theorem effect_updateFlag {inst id : String} {data : Patch}
    (h : next s (.updateFlag inst id data) d = some (s', pc')) :
    Effect s (.updateFlag inst id data) s' := by
  unfold next at h
  dsimp only at h
  split at h
  case h_1 =>
    obtain ⟨rfl, -⟩ := Prod.mk.inj (Option.some.inj h)
    exact .none
  case h_2 hflags =>
    obtain ⟨-, hflags⟩ := Option.ite_none_left_eq_some.mp hflags
    split at h <;> obtain ⟨rfl, -⟩ := Prod.mk.inj (Option.some.inj h)
    · exact .none
    · exact .commit fun key htouch => Flags.value_update hflags htouch

/-- Nor does a DELETE. -/
theorem effect_deleteFlag {inst id : String}
    (h : next s (.deleteFlag inst id) d = some (s', pc')) : Effect s (.deleteFlag inst id) s' := by
  unfold next at h
  dsimp only at h
  split at h
  case isTrue =>
    obtain ⟨rfl, -⟩ := Prod.mk.inj (Option.some.inj h)
    exact .none
  case isFalse =>
    split at h <;> obtain ⟨rfl, -⟩ := Prod.mk.inj (Option.some.inj h)
    · exact .none
    · exact .commit fun key htouch => Flags.value_delete htouch

/-- **What a statement does to the store.** -/
theorem effect_of_next (h : next s pc d = some (s', pc')) : Effect s pc s' := by
  cases pc with
  | isEnabled r =>
    unfold next at h
    dsimp only at h
    split at h <;> obtain ⟨rfl, -⟩ := Prod.mk.inj (Option.some.inj h) <;> exact .none
  | hget r =>
    unfold next at h
    dsimp only at h
    split at h <;> obtain ⟨rfl, -⟩ := Prod.mk.inj (Option.some.inj h) <;> exact .none
  | cached r flag =>
    obtain ⟨rfl, -⟩ := Prod.mk.inj (Option.some.inj h)
    exact .fill rfl
  | select r =>
    unfold next at h
    dsimp only at h
    split at h <;> obtain ⟨rfl, -⟩ := Prod.mk.inj (Option.some.inj h) <;> exact .none
  | loaded r flag =>
    cases flag <;> obtain ⟨rfl, -⟩ := Prod.mk.inj (Option.some.inj h) <;> exact .fill rfl
  | hset r flag =>
    unfold next at h
    dsimp only at h
    split at h <;> obtain ⟨rfl, -⟩ := Prod.mk.inj (Option.some.inj h)
    · exact .none
    · exact .write rfl
  | loadFlagsIntoRedis =>
    unfold next at h
    dsimp only at h
    split at h <;> obtain ⟨rfl, -⟩ := Prod.mk.inj (Option.some.inj h) <;> exact .none
  | pipeline rows => exact effect_pipeline h
  | createFlag inst data => exact effect_createFlag h
  | updateFlag inst id data => exact effect_updateFlag h
  | deleteFlag inst id => exact effect_deleteFlag h
  | invalidate inst flagKey row =>
    obtain ⟨rfl, -⟩ := Prod.mk.inj (Option.some.inj h)
    exact .clear inst flagKey
  | hdel flagKey row =>
    unfold next at h
    dsimp only at h
    split at h <;> obtain ⟨rfl, -⟩ := Prod.mk.inj (Option.some.inj h)
    · exact .none
    · exact .hdel flagKey
  | publish flagKey row =>
    unfold next at h
    dsimp only at h
    split at h <;> obtain ⟨rfl, -⟩ := Prod.mk.inj (Option.some.inj h)
    · exact .none
    · exact .publish flagKey
  | returned | reloaded | mutated | threw => cases h

/-- Where a call has what it holds from. -/
def Pc.From (s : Store) : Pc → Pc → Prop
  | .cached r flag, pc => pc = .hget r ∧ s.l2 r.flagKey = some flag
  | .loaded r flag, pc => pc = .select r ∧ flag = s.replica.value r.flagKey
  | .hset r flag, pc => pc = .loaded r (some flag)
  | .pipeline rows, pc =>
    pc = .loadFlagsIntoRedis ∧ rows = s.replica.entries ∨ ∃ row, pc = .pipeline (row :: rows)
  | .reloaded, pc => pc = .pipeline []
  | _, _ => True

/-- Where each value a call goes on with has come from. -/
theorem from_of_next (h : next s pc d = some (s', pc')) : pc'.From s pc := by
  cases pc with
  | isEnabled r =>
    unfold next at h
    dsimp only at h
    split at h <;> obtain ⟨-, rfl⟩ := Prod.mk.inj (Option.some.inj h) <;> trivial
  | hget r =>
    unfold next at h
    dsimp only at h
    split at h <;> obtain ⟨-, rfl⟩ := Prod.mk.inj (Option.some.inj h)
    case h_1 hl2 => exact ⟨rfl, (Option.ite_none_left_eq_some.mp hl2).2⟩
    case h_2 => trivial
  | select r =>
    unfold next at h
    dsimp only at h
    split at h <;> obtain ⟨-, rfl⟩ := Prod.mk.inj (Option.some.inj h)
    · trivial
    · exact ⟨rfl, rfl⟩
  | loaded r flag =>
    cases flag <;> obtain ⟨-, rfl⟩ := Prod.mk.inj (Option.some.inj h)
    · trivial
    · exact rfl
  | loadFlagsIntoRedis =>
    unfold next at h
    dsimp only at h
    split at h <;> obtain ⟨-, rfl⟩ := Prod.mk.inj (Option.some.inj h)
    · trivial
    · exact Or.inl ⟨rfl, rfl⟩
  | pipeline rows =>
    cases rows with
    | nil =>
      obtain ⟨-, rfl⟩ := Prod.mk.inj (Option.some.inj h)
      exact rfl
    | cons row rows =>
      obtain ⟨-, rfl⟩ := Prod.mk.inj (Option.some.inj h)
      exact Or.inr ⟨row, rfl⟩
  | updateFlag inst id data =>
    unfold next at h
    dsimp only at h
    split at h
    · obtain ⟨-, rfl⟩ := Prod.mk.inj (Option.some.inj h)
      trivial
    · split at h <;> obtain ⟨-, rfl⟩ := Prod.mk.inj (Option.some.inj h) <;> trivial
  | deleteFlag inst id =>
    unfold next at h
    dsimp only at h
    split at h
    · obtain ⟨-, rfl⟩ := Prod.mk.inj (Option.some.inj h)
      trivial
    · split at h <;> obtain ⟨-, rfl⟩ := Prod.mk.inj (Option.some.inj h)
      · trivial
      · split <;> trivial
  | hset | createFlag | hdel | publish =>
    unfold next at h
    dsimp only at h
    split at h <;> obtain ⟨-, rfl⟩ := Prod.mk.inj (Option.some.inj h) <;> trivial
  | cached | invalidate =>
    obtain ⟨-, rfl⟩ := Prod.mk.inj (Option.some.inj h)
    trivial
  | returned | reloaded | mutated | threw => cases h

theorem flag_of_effect (h : Effect s pc s') (htouch : ¬ pc.Touches s key) :
    s'.flag key = s.flag key := by
  cases h with
  | commit h => exact h key htouch
  | _ => rfl

/-- **What a statement does to L2.** -/
theorem l2_of_effect {flag : FlagValue} (h : Effect s pc s') (hflag : s'.l2 key = some flag) :
    s.l2 key = some flag ∨ pc.writes = some (key, flag) := by
  cases h with
  | @write key' flag' h =>
    rcases update_cases (· = some flag) hflag with ⟨rfl, heq⟩ | ⟨-, hsame⟩
    · rw [← Option.some.inj heq]
      exact Or.inr h
    · exact Or.inl hsame
  | hdel key' =>
    rcases update_cases (· = some flag) hflag with ⟨-, ⟨⟩⟩ | ⟨-, hsame⟩
    exact Or.inl hsame
  | _ => exact Or.inl hflag

theorem l1_of_clearL1 {inst inst' flagKey : String} {k : String × String} {e : L1Entry}
    (h : (s.clearL1 inst flagKey).l1 inst' k = some e) : s.l1 inst' k = some e := by
  rcases update_cases (fun l1 : String × String → Option L1Entry => l1 k = some e) h with
    ⟨rfl, hin⟩ | ⟨-, hsame⟩
  · exact (Option.ite_none_left_eq_some.mp hin).2
  · exact hsame

/-- **What a statement does to L1.** -/
theorem l1_of_effect {inst : String} {k : String × String} {e : L1Entry} (h : Effect s pc s')
    (he : s'.l1 inst k = some e) :
    s.l1 inst k = some e ∨ ∃ r, r.inst = inst ∧ (r.orgId, r.flagKey) = k
      ∧ pc.fills = some (r, e.value) ∧ e.expiresAt = s.now + l1TtlMs := by
  cases h with
  | @fill r value h =>
    rcases update_cases (fun l1 : String × String → Option L1Entry => l1 k = some e) he with
      ⟨rfl, hin⟩ | ⟨-, hsame⟩
    · rcases update_cases (· = some e) hin with ⟨rfl, heq⟩ | ⟨-, hsame⟩
      · obtain rfl := Option.some.inj heq
        exact Or.inr ⟨r, rfl, rfl, h, rfl⟩
      · exact Or.inl hsame
    · exact Or.inl hsame
  | clear inst' key' => exact Or.inl (l1_of_clearL1 he)
  | _ => exact Or.inl he

theorem now_of_effect (h : Effect s pc s') : s'.now = s.now := by
  cases h <;> rfl

end Statements

/-! ## What the environment does -/

section Environment

variable {s : Store}

/-- The surroundings change no flag. -/
theorem env_flag (e : Env) (key : String) : (env s e).flag key = s.flag key := by
  cases e with
  | replicate =>
    show s.replicate.flag key = _
    unfold Store.replicate
    split <;> rfl
  | deliver inst flagKey =>
    show (s.deliver inst flagKey).flag key = _
    unfold Store.deliver
    split <;> rfl
  | _ => rfl

/-- Nor what is in Redis. -/
theorem env_l2 (e : Env) : (env s e).l2 = s.l2 := by
  cases e with
  | replicate =>
    show s.replicate.l2 = _
    unfold Store.replicate
    split <;> rfl
  | deliver inst flagKey =>
    show (s.deliver inst flagKey).l2 = _
    unfold Store.deliver
    split <;> rfl
  | _ => rfl

/-- What happens around the calls puts nothing into the map of a process. -/
theorem env_l1 (e : Env) {inst : String} {k : String × String} {entry : L1Entry}
    (h : (env s e).l1 inst k = some entry) : s.l1 inst k = some entry := by
  cases e with
  | tick ms => exact h
  | replicate =>
    have h : s.replicate.l1 inst k = some entry := h
    unfold Store.replicate at h
    split at h <;> exact h
  | deliver inst' flagKey =>
    have h : (s.deliver inst' flagKey).l1 inst k = some entry := h
    unfold Store.deliver at h
    split at h
    · exact l1_of_clearL1 h
    · exact h
  | restart inst' =>
    rcases update_cases (fun l1 : String × String → Option L1Entry => l1 k = some entry) h with
      ⟨-, ⟨⟩⟩ | ⟨-, hsame⟩
    exact hsame

/-- Time goes on. -/
theorem now_le_env (e : Env) : s.now ≤ (env s e).now := by
  cases e with
  | tick ms => exact Nat.le_add_right _ _
  | replicate =>
    show s.now ≤ s.replicate.now
    unfold Store.replicate
    split <;> exact le_rfl
  | deliver inst flagKey =>
    show s.now ≤ (s.deliver inst flagKey).now
    unfold Store.deliver
    split <;> exact le_rfl
  | restart inst => exact le_rfl

end Environment

end WorkPlatform.FeatureFlag

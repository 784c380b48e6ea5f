import WorkPlatform.Machinery.Patch
import WorkPlatform.Notification.Store

/-!
# Notification/Preferences — what is left of an update of the preferences

    INSERT (org_id, user_id, event_type)          no row: one with the defaults
      ON CONFLICT DO UPDATE SET <what is given>   a row: the fields that are given

The INSERT does not have the values, so the update of a user who has no row yet stores the
defaults in their place.  An update without fields sets a column to itself by a name that both the
row and `EXCLUDED` have, and PostgreSQL refuses it.  What was given is read back exactly where
there is a row, or it is what the defaults are (`preference_iff`).
-/

namespace WorkPlatform.Notification

open Machinery

/-! ## The fields -/

inductive Field
  | channelInapp | channelEmail | channelPush | digestMode | quietHoursStart | quietHoursEnd
  deriving DecidableEq

/-- What a column contains. -/
abbrev Field.Value : Field → Type
  | channelInapp | channelEmail | channelPush => Bool
  | digestMode => DigestMode
  | quietHoursStart | quietHoursEnd => Option TimeOfDay

/-- In the order of the `setClauses`. -/
def fields : List Field :=
  [.channelInapp, .channelEmail, .channelPush, .digestMode, .quietHoursStart, .quietHoursEnd]

/-- `Partial<Pick<NotificationPreferenceRow, …>>`; the quiet hours by the `TIME`s they are. -/
abbrev PreferenceData := Patch Field.Value

namespace Preference

/-- A column of a preference. -/
def field (pref : Preference) : (f : Field) → f.Value
  | .channelInapp => pref.channelInapp
  | .channelEmail => pref.channelEmail
  | .channelPush => pref.channelPush
  | .digestMode => pref.digestMode
  | .quietHoursStart => pref.quietHoursStart
  | .quietHoursEnd => pref.quietHoursEnd

/-- `SET <field> = <value>`. -/
def setField (pref : Preference) : (f : Field) → f.Value → Preference
  | .channelInapp, v => { pref with channelInapp := v }
  | .channelEmail, v => { pref with channelEmail := v }
  | .channelPush, v => { pref with channelPush := v }
  | .digestMode, v => { pref with digestMode := v }
  | .quietHoursStart, v => { pref with quietHoursStart := v }
  | .quietHoursEnd, v => { pref with quietHoursEnd := v }

theorem field_setField (pref : Preference) (f : Field) (v : f.Value) :
    (pref.setField f v).field = Function.update pref.field f v := by
  funext g
  cases f <;> cases g <;> rfl

/-- A preference is what its fields are. -/
theorem field_injective : Function.Injective field := by
  intro p q h
  have hall := congrFun h
  cases p
  cases q
  have h₁ := hall .channelInapp
  have h₂ := hall .channelEmail
  have h₃ := hall .channelPush
  have h₄ := hall .digestMode
  have h₅ := hall .quietHoursStart
  have h₆ := hall .quietHoursEnd
  simp only [field] at h₁ h₂ h₃ h₄ h₅ h₆
  rw [h₁, h₂, h₃, h₄, h₅, h₆]

end Preference

/-- The columns that an update sets. -/
def preferenceRecord : Record Preference Field.Value :=
  ⟨Preference.field, Preference.setField, Preference.field_setField⟩

/-! ## The table -/

abbrev PreferenceKey := String × String × String

def PreferenceRow.key (r : PreferenceRow) : PreferenceKey := (r.orgId, r.userId, r.eventType)

/-- `notification_preferences`, with `idx_notif_prefs_unique`. -/
abbrev Preferences := Table PreferenceRow.key

/-- The `DEFAULT`s of the columns. -/
def columnDefaults : Preference where
  channelInapp := true
  channelEmail := true
  channelPush := false
  digestMode := .realtime
  quietHoursStart := none
  quietHoursEnd := none

/-- The row that `INSERT INTO notification_preferences (org_id, user_id, event_type)` adds. -/
def newRow (k : PreferenceKey) : PreferenceRow := ⟨k.1, k.2.1, k.2.2, columnDefaults⟩

def PreferenceRow.assign (cs : List (Σ f : Field, f.Value)) (r : PreferenceRow) : PreferenceRow :=
  { r with preference := preferenceRecord.assign r.preference cs }

theorem key_assign (cs : List (Σ f : Field, f.Value)) (r : PreferenceRow) :
    (r.assign cs).key = r.key := rfl

/-- `upsertPreference`: the table and the row that is returned, or the error of the statement. -/
def upsertPreference (t : Preferences) (k : PreferenceKey) (data : PreferenceData) :
    Option (Preferences × Option PreferenceRow) :=
  let setClauses := data.clauses fields
  -- `channel_inapp = channel_inapp` is ambiguous
  if setClauses.isEmpty then none
  else match t.insert (newRow k) with
    | some inserted => some (inserted, inserted.find k)
    | none =>
      let updated := t.update k (·.assign setClauses) (key_assign setClauses)
      some (updated, updated.find k)

/-- `updatePreference`, with the table it leaves: that of before, where it throws. -/
def updatePreference (t : Preferences) (k : PreferenceKey) (data : PreferenceData) : Preferences :=
  ((upsertPreference t k data).map Prod.fst).getD t

/-- `getOrDefault`, on a replica that has the table. -/
def getOrDefault (t : Preferences) (k : PreferenceKey) : Preference :=
  match t.find k with
  | some r => r.preference
  | none => defaultPreference

/-- The workers read the same. -/
theorem getOrDefault_eq (s : Store) (t : Preferences) (h : s.preferences = t.rows)
    (orgId userId eventType : String) :
    (s.getOrDefault orgId userId eventType) = getOrDefault t (orgId, userId, eventType) := by
  have hpred : (fun r : PreferenceRow =>
      decide (r.orgId = orgId ∧ r.userId = userId ∧ r.eventType = eventType)) =
      fun r => decide (r.key = (orgId, userId, eventType)) := by
    funext r
    simp [PreferenceRow.key, Prod.ext_iff]
  have hrow : s.preferences.find? (fun r => decide
      (r.orgId = orgId ∧ r.userId = userId ∧ r.eventType = eventType)) =
        t.find (orgId, userId, eventType) := by
    rw [h, hpred]
    exact rfl
  unfold Store.getOrDefault getOrDefault
  cases hfind : t.find (orgId, userId, eventType) with
  | none => simp only [hrow, hfind]
  | some r => simp only [hrow, hfind]

/-! ## What an update is to do -/

/-- What is given is read back, and of the other fields what they had. -/
def PutGet (t : Preferences) (k : PreferenceKey) (data : PreferenceData) : Prop :=
  ∀ f, (getOrDefault (updatePreference t k data) k).field f =
    (data f).getD ((getOrDefault t k).field f)

/-- Both orders leave the same preferences. -/
def Commute (t : Preferences) (k : PreferenceKey) (data data' : PreferenceData) : Prop :=
  ∀ k', getOrDefault (updatePreference (updatePreference t k data) k data') k' =
    getOrDefault (updatePreference (updatePreference t k data') k data) k'

/-- Each value that is given is the default. -/
def OnlyDefaults (data : PreferenceData) : Prop :=
  ∀ f v, data f = some v → v = defaultPreference.field f

/-! ## One update -/

section

variable {t : Preferences} {k k' : PreferenceKey} {data data' : PreferenceData}

theorem mem_fields (f : Field) : f ∈ fields := by
  cases f <;> decide

theorem clauses_isEmpty : (data.clauses fields).isEmpty ↔ data = Patch.empty := by
  rw [List.isEmpty_iff, Patch.clauses_eq_nil_iff]
  refine ⟨fun h => funext fun f => h f (mem_fields f), fun h f _ => congrFun h f⟩

/-- **The rows after an update**: a new one has the defaults, whatever was given. -/
theorem find_updatePreference (hdata : data ≠ Patch.empty) :
    (updatePreference t k data).find k' =
      if k' = k then
        some (((t.find k).map (·.assign (data.clauses fields))).getD (newRow k))
      else t.find k' := by
  have hclauses : ¬ (data.clauses fields).isEmpty := fun h => hdata (clauses_isEmpty.mp h)
  have hkey : (newRow k).key = k := rfl
  rw [updatePreference, upsertPreference, if_neg hclauses]
  cases hinsert : t.insert (newRow k) with
  | some inserted =>
    have habsent : t.find k = none := (Table.insert_eq_some hinsert).1
    simp only [Option.map_some, Option.getD_some, Table.find_insert hinsert, hkey, habsent,
      Option.map_none, Option.getD_none, eq_comm]
  | none =>
    obtain ⟨r, hr⟩ := Table.find_of_insert_none hinsert
    rw [hkey] at hr
    simp only [Option.map_some, Option.getD_some, Table.find_update, hr]
    split
    case isTrue heq => rw [heq, hr, Option.map_some]
    case isFalse => rfl

theorem updatePreference_empty : updatePreference t k Patch.empty = t := by
  rw [updatePreference, upsertPreference, if_pos (clauses_isEmpty.mpr rfl)]
  rfl

theorem getOrDefault_of_none (h : t.find k = none) : getOrDefault t k = defaultPreference := by
  rw [getOrDefault, h]

/-- Rows with other keys stay. -/
theorem getOrDefault_updatePreference_of_ne (h : k' ≠ k) :
    getOrDefault (updatePreference t k data) k' = getOrDefault t k' := by
  by_cases hdata : data = Patch.empty
  · rw [hdata, updatePreference_empty]
  · rw [getOrDefault, find_updatePreference hdata, if_neg h, getOrDefault]

/-- **What is read after an update.** -/
theorem field_updatePreference : (getOrDefault (updatePreference t k data) k).field =
    if (t.find k).isSome then data.onto (getOrDefault t k).field else defaultPreference.field := by
  by_cases hdata : data = Patch.empty
  · subst hdata
    rw [updatePreference_empty]
    cases hfind : t.find k with
    | none => rw [getOrDefault_of_none hfind, Option.isSome_none, if_neg Bool.false_ne_true]
    | some r => rfl
  · rw [getOrDefault, find_updatePreference hdata, if_pos rfl]
    cases hfind : t.find k with
    | none => rfl
    | some r =>
      funext f
      have hassign := preferenceRecord.get_assign data fields r.preference f
      rw [if_pos (mem_fields f)] at hassign
      rw [getOrDefault, hfind]
      exact hassign

theorem isSome_find_updatePreference : ((updatePreference t k data).find k).isSome ↔
    (t.find k).isSome ∨ data ≠ Patch.empty := by
  by_cases hdata : data = Patch.empty
  · simp [hdata, updatePreference_empty]
  · simp [find_updatePreference hdata, hdata]

/-- **The put-get law** holds where there is a row, or nothing but defaults is given. -/
theorem putGet_iff : PutGet t k data ↔ (t.find k).isSome ∨ OnlyDefaults data := by
  have hlaw : PutGet t k data ↔ (getOrDefault (updatePreference t k data) k).field =
      data.onto (getOrDefault t k).field := funext_iff.symm
  rw [hlaw, field_updatePreference]
  cases hfind : t.find k with
  | some r => simp
  | none =>
    rw [getOrDefault_of_none hfind, Option.isSome_none, if_neg Bool.false_ne_true,
      or_iff_right Bool.false_ne_true, eq_comm]
    exact Patch.onto_eq_self_iff

/-- What is read after two updates. -/
theorem field_twice_of_isSome (h : (t.find k).isSome) :
    (getOrDefault (updatePreference (updatePreference t k data) k data') k).field =
      data'.onto (data.onto (getOrDefault t k).field) := by
  rw [field_updatePreference, if_pos (isSome_find_updatePreference.mpr (Or.inl h)),
    field_updatePreference, if_pos h]

theorem field_twice_of_none (h : t.find k = none) (hdata : data ≠ Patch.empty) :
    (getOrDefault (updatePreference (updatePreference t k data) k data') k).field =
      data'.onto defaultPreference.field := by
  rw [field_updatePreference, if_pos (isSome_find_updatePreference.mpr (Or.inr hdata)),
    field_updatePreference, h, Option.isSome_none, if_neg Bool.false_ne_true]

/-- Only the row of the key can differ. -/
theorem commute_iff_field : Commute t k data data' ↔
    (getOrDefault (updatePreference (updatePreference t k data) k data') k).field =
      (getOrDefault (updatePreference (updatePreference t k data') k data) k).field := by
  refine ⟨fun hall => congrArg Preference.field (hall k), fun hk k' => ?_⟩
  by_cases hne : k' = k
  · rw [hne]
    exact Preference.field_injective hk
  · simp only [getOrDefault_updatePreference_of_ne hne]

/-- **Updates of different fields commute** where there is a row, where one of them is empty, and
where both give nothing but defaults. -/
theorem commute_iff (h : Patch.Apart data data') : Commute t k data data' ↔
    (t.find k).isSome ∨ data = Patch.empty ∨ data' = Patch.empty ∨
      OnlyDefaults data ∧ OnlyDefaults data' := by
  rw [commute_iff_field]
  cases hfind : t.find k with
  | some r =>
    have hrow : (t.find k).isSome := by rw [hfind, Option.isSome_some]
    rw [field_twice_of_isSome hrow, field_twice_of_isSome hrow]
    exact iff_of_true (Patch.onto_comm h.symm) (Or.inl rfl)
  | none =>
    rw [Option.isSome_none, or_iff_right Bool.false_ne_true]
    by_cases hdata : data = Patch.empty
    · subst hdata
      rw [updatePreference_empty, updatePreference_empty]
      exact iff_of_true rfl (Or.inl rfl)
    by_cases hdata' : data' = Patch.empty
    · subst hdata'
      rw [updatePreference_empty, updatePreference_empty]
      exact iff_of_true rfl (Or.inr (Or.inl rfl))
    rw [field_twice_of_none hfind hdata, field_twice_of_none hfind hdata',
      Patch.onto_eq_onto_iff h.symm, or_iff_right hdata, or_iff_right hdata']
    exact and_comm.trans (and_congr Patch.onto_eq_self_iff Patch.onto_eq_self_iff)

end

/-- **What is given to an update is read back exactly where there is a row or it is what the
defaults are, and two updates of different fields commute exactly there or where one is empty.** -/
theorem preference_iff (t : Preferences) (k : PreferenceKey) (data data' : PreferenceData)
    (h : Patch.Apart data data') :
    (PutGet t k data ↔ (t.find k).isSome ∨ OnlyDefaults data) ∧
      (Commute t k data data' ↔ (t.find k).isSome ∨ data = Patch.empty ∨ data' = Patch.empty ∨
        OnlyDefaults data ∧ OnlyDefaults data') :=
  ⟨putGet_iff, commute_iff h⟩

/-- No emails. -/
def noEmail : PreferenceData
  | .channelEmail => some false
  | _ => none

/-- A row with the defaults, of a user. -/
def demoPreferences : Preferences := ⟨[newRow ("o", "u", "task.assigned")], List.nodup_singleton _⟩

/-- The update of a user who has a row. -/
theorem preference_row : Patch.Apart noEmail Patch.empty ∧
    PutGet demoPreferences ("o", "u", "task.assigned") noEmail ∧
    Commute demoPreferences ("o", "u", "task.assigned") noEmail Patch.empty := by
  have hapart : Patch.Apart noEmail Patch.empty := fun _ => Or.inr rfl
  have hrow : (demoPreferences.find ("o", "u", "task.assigned")).isSome := by decide
  have hboth := preference_iff demoPreferences ("o", "u", "task.assigned") noEmail Patch.empty hapart
  exact ⟨hapart, hboth.1.mpr (Or.inl hrow), hboth.2.mpr (Or.inl hrow)⟩

/-- **A user who has no row unsubscribes from the emails of an event, and still gets them.** -/
theorem preference_lost :
    ¬ PutGet Table.empty ("o", "u", "task.assigned") noEmail := by
  intro hlaw
  exact absurd (hlaw .channelEmail) (by decide)

end WorkPlatform.Notification

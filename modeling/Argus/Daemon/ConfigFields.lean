import Argus.Daemon.ConfigSettings

/-!
# The fields of a delivered configuration

Every field of a delivery is the kind, the credential, or settings: a managed provider setting,
an object whose leaves are settings, or a key that begins with `brain.`. Of the latter the daemon
interprets three, and leaves the others to another consumer.

`content_accounted` is about contents that write no name twice and whose objects have managed
settings for leaves, which is the grammar of the dashboard. The code checks neither.
-/

namespace Argus

open BrainControl (isLever interpret validateAll)

/-- The leaves of a nested object. -/
def leavesOf : Value → List (String × Value)
  | .object leaves => leaves
  | _ => []

/-- A field that holds settings: under a managed name, or a lever's. -/
def isSetting (field : String × Value) : Bool :=
  managedProviderSettings.contains field.1 || isLever field.1

/-- The settings a field writes. -/
def writesOf (field : String × Value) : List (String × Value) :=
  if managedProviderSettings.contains field.1 then
    match field.2 with
    | .object leaves => leaves
    | value => [(field.1, value)]
  else if isLever field.1 then [field]
  else []

/-- The leaves of an object under a managed name are managed settings. -/
def Flat (content : List (String × Value)) : Prop :=
  ∀ field ∈ content, managedProviderSettings.contains field.1 = true →
    ∀ leaf ∈ leavesOf field.2, managedProviderSettings.contains leaf.1 = true
  deriving Decidable

/-- No setting is written twice. -/
def Distinct (content : List (String × Value)) : Prop :=
  ((content.flatMap writesOf).map Prod.fst).Nodup

instance (content : List (String × Value)) : Decidable (Distinct content) :=
  inferInstanceAs (Decidable (List.Nodup _))

/-- A write as it is in the table. -/
def Holds (settings : Settings) (write : String × Value) : Prop :=
  ∃ value, jsonToToml write.2 = .ok value ∧ settings.lookup write.1 = some value

/-- What is accepted of a content. -/
structure Accounted (content : List (String × Value)) (settings : Settings)
    (credential : Option String) : Prop where
  /-- A key is a managed setting, or a lever's that the daemon can interpret or is not its own. -/
  keys : ∀ setting ∈ settings, managedProviderSettings.contains setting.1 = true ∨
    isLever setting.1 = true ∧ ∃ change, interpret setting.1 setting.2 = .ok change
  secret : managedProviderSecret ∉ settings.map Prod.fst
  /-- Every field is the kind, the credential, or all in the settings. -/
  fields : ∀ field ∈ content, field.1 = "kind" ∨
    field.1 = managedProviderSecret ∧ (∃ text, field.2 = .string text ∧ credential = some text) ∨
    isSetting field = true ∧ ∀ write ∈ writesOf field, Holds settings write
  /-- Nothing else is. -/
  only : ∀ setting ∈ settings, ∃ field ∈ content, ∃ write ∈ writesOf field,
    write.1 = setting.1 ∧ jsonToToml write.2 = .ok setting.2

/-- Why a field is refused. A value that no setting can hold is refused for what it is, and the
field is not named. -/
inductive Refused (field : String × Value) : String → Prop
  | unrecognised (hkind : field.1 ≠ "kind") (hsecret : field.1 ≠ managedProviderSecret)
      (hsetting : isSetting field = false) :
      Refused field ("unrecognised configuration field '" ++ field.1 ++ "'")
  | secret (hsecret : field.1 = managedProviderSecret) (htext : field.2.asStr = none) :
      Refused field ("'" ++ field.1 ++ "' must be a string")
  | value {write : String × Value} {reason : String} (hwrite : write ∈ writesOf field)
      (hvalue : jsonToToml write.2 = .error reason) : Refused field reason

/-- The setting that a lever's error names. -/
def SettingError.field : SettingError → String
  | autonomyNotString | notALevel _ => "brain.autonomy"
  | thresholdNotNumber | thresholdOutside _ => "brain.confidence_threshold"
  | intervalNotInteger | intervalBelowFloor _ => "brain.interval_seconds"

/-- The text of a rejection begins with the setting that it is about. -/
theorem SettingError.text_names_field (display : Ieee.Datum → String) (error : SettingError) :
    ∃ tail, error.text display = error.field ++ tail := by
  have hsplit {whole name gap : String} (h : whole = name ++ gap) (middle rest : String) :
      ∃ tail, whole ++ middle ++ rest = name ++ tail :=
    ⟨gap ++ (middle ++ rest), by rw [h, String.append_assoc, String.append_assoc]⟩
  cases error with
  | autonomyNotString => exact ⟨" must be a string", rfl⟩
  | notALevel raw =>
      have hname : "brain.autonomy '" = "brain.autonomy" ++ " '" := by decide +kernel
      exact hsplit hname raw _
  | thresholdNotNumber => exact ⟨" must be a number", rfl⟩
  | thresholdOutside raw =>
      have hname : "brain.confidence_threshold " = "brain.confidence_threshold" ++ " " := by
        decide +kernel
      exact hsplit hname (display raw) _
  | intervalNotInteger => exact ⟨" must be an integer", rfl⟩
  | intervalBelowFloor raw =>
      have hname : "brain.interval_seconds " = "brain.interval_seconds" ++ " " := by
        decide +kernel
      exact hsplit hname (toString raw) _

/-! ### Folds that may fail -/

section Folds

variable {ε σ α : Type} {f : σ → α → Except ε σ} {s s' : σ} {x : α} {xs : List α} {error : ε}

theorem foldlM_cons_eq_ok : (x :: xs).foldlM f s = .ok s' ↔
    ∃ mid, f s x = .ok mid ∧ xs.foldlM f mid = .ok s' := by
  rw [List.foldlM_cons]
  cases hx : f s x with
  | error e => exact iff_of_false nofun fun ⟨_, h, _⟩ => nomatch h
  | ok mid => exact ⟨fun h => ⟨mid, rfl, h⟩, fun ⟨_, hmid, h⟩ => Except.ok.inj hmid ▸ h⟩

/-- A fold fails at one element. -/
theorem exists_of_foldlM_eq_error (h : xs.foldlM f s = .error error) :
    ∃ x ∈ xs, ∃ mid, f mid x = .error error := by
  induction xs generalizing s with
  | nil => cases h
  | cons x xs ih =>
      rw [List.foldlM_cons] at h
      cases hx : f s x with
      | error e =>
          rw [hx] at h
          obtain rfl : e = error := Except.error.inj h
          exact ⟨x, List.mem_cons_self, s, hx⟩
      | ok mid =>
          rw [hx] at h
          obtain ⟨y, hy, hfails⟩ := ih h
          exact ⟨y, List.mem_cons_of_mem _ hy, hfails⟩

end Folds

/-! ### Writing settings -/

section

variable {settings settings' : Settings} {writes : List (String × Value)}
  {write : String × Value}

theorem insertSetting_eq_ok (h : insertSetting settings write = .ok settings') :
    ∃ value, jsonToToml write.2 = .ok value ∧ settings' = insertKey write.1 value settings := by
  unfold insertSetting at h
  cases hvalue : jsonToToml write.2 with
  | error reason =>
      rw [hvalue] at h
      cases h
  | ok value =>
      rw [hvalue] at h
      exact ⟨value, rfl, (Except.ok.inj h).symm⟩

theorem insertSetting_eq_error {reason : String}
    (h : insertSetting settings write = .error reason) :
    jsonToToml write.2 = .error reason := by
  unfold insertSetting at h
  cases hvalue : jsonToToml write.2 with
  | error error =>
      rw [hvalue] at h
      exact congrArg Except.error (Except.error.inj h)
  | ok value =>
      rw [hvalue] at h
      cases h

/-- What is not written stays. -/
theorem lookup_of_insertSettings {key : String} (hkey : key ∉ writes.map Prod.fst)
    (h : writes.foldlM insertSetting settings = .ok settings') :
    settings'.lookup key = settings.lookup key := by
  induction writes generalizing settings with
  | nil => rw [Except.ok.inj h]
  | cons write writes ih =>
      rw [List.map_cons, List.mem_cons, not_or] at hkey
      obtain ⟨mid, hwrite, hrest⟩ := foldlM_cons_eq_ok.mp h
      obtain ⟨value, -, rfl⟩ := insertSetting_eq_ok hwrite
      rw [ih hkey.2 hrest, lookup_insertKey_of_ne hkey.1]

/-- What is written once is in the table. -/
theorem holds_of_insertSettings (hdistinct : (writes.map Prod.fst).Nodup)
    (h : writes.foldlM insertSetting settings = .ok settings') :
    ∀ write ∈ writes, Holds settings' write := by
  induction writes generalizing settings with
  | nil => nofun
  | cons first writes ih =>
      rw [List.map_cons, List.nodup_cons] at hdistinct
      obtain ⟨mid, hwrite, hrest⟩ := foldlM_cons_eq_ok.mp h
      refine List.forall_mem_cons.mpr ⟨?_, ih hdistinct.2 hrest⟩
      obtain ⟨value, hvalue, rfl⟩ := insertSetting_eq_ok hwrite
      exact ⟨value, hvalue, by rw [lookup_of_insertSettings hdistinct.1 hrest, lookup_insertKey]⟩

/-- What is in the table was there, or was written. -/
theorem mem_of_insertSettings (h : writes.foldlM insertSetting settings = .ok settings') :
    ∀ setting ∈ settings', setting ∈ settings ∨
      ∃ write ∈ writes, write.1 = setting.1 ∧ jsonToToml write.2 = .ok setting.2 := by
  induction writes generalizing settings with
  | nil => exact fun setting hmem => .inl (Except.ok.inj h ▸ hmem)
  | cons first writes ih =>
      obtain ⟨mid, hwrite, hrest⟩ := foldlM_cons_eq_ok.mp h
      obtain ⟨value, hvalue, rfl⟩ := insertSetting_eq_ok hwrite
      intro setting hmem
      rcases ih hrest setting hmem with hbefore | ⟨write, hmem, hsame⟩
      · rcases mem_insertKey hbefore with rfl | hold
        · exact .inr ⟨first, List.mem_cons_self, rfl, hvalue⟩
        · exact .inl hold
      · exact .inr ⟨write, List.mem_cons_of_mem _ hmem, hsame⟩

end

/-! ### Splitting -/

section

variable {parts parts' : Settings × Option String} {field : String × Value}

theorem insertSettings_singleton (settings : Settings) (write : String × Value) :
    [write].foldlM insertSetting settings = insertSetting settings write := by
  rw [List.foldlM_cons]
  cases insertSetting settings write <;> rfl

/-- A field under a managed name or a lever's writes its settings. -/
theorem splitField_of_setting (hkind : field.1 ≠ "kind") (hsecret : field.1 ≠ managedProviderSecret)
    (hsetting : isSetting field = true) : splitField parts field = (do
      let settings ← (writesOf field).foldlM insertSetting parts.1
      .ok (settings, parts.2)) := by
  obtain ⟨name, value⟩ := field
  unfold splitField writesOf
  rw [if_neg hkind, if_neg hsecret]
  by_cases hmanaged : managedProviderSettings.contains name = true
  · rw [if_pos hmanaged, if_pos hmanaged]
    cases value with
    | object leaves => rfl
    | _ => rw [insertSettings_singleton]
  · rw [isSetting, Bool.or_eq_true] at hsetting
    have hlever : isLever name = true := hsetting.resolve_left hmanaged
    rw [if_neg hmanaged, if_neg hmanaged, if_pos hlever, if_pos hlever, insertSettings_singleton]

theorem splitField_of_unrecognised (hkind : field.1 ≠ "kind")
    (hsecret : field.1 ≠ managedProviderSecret) (hsetting : isSetting field = false) :
    splitField parts field = .error ("unrecognised configuration field '" ++ field.1 ++ "'") := by
  simp only [isSetting, Bool.or_eq_false_iff] at hsetting
  simp only [splitField, hkind, hsecret, hsetting, if_false, Bool.false_eq_true]

theorem splitField_of_secret (hsecret : field.1 = managedProviderSecret) :
    splitField parts field =
      match field.2.asStr with
      | none => .error ("'" ++ field.1 ++ "' must be a string")
      | some text => .ok (parts.1, some text) := by
  have hkind : field.1 ≠ "kind" := by
    rw [hsecret]
    decide
  refine (if_neg hkind).trans ((if_pos hsecret).trans ?_)
  cases field.2.asStr <;> rfl

theorem writesOf_of_not_setting (hsetting : isSetting field = false) : writesOf field = [] := by
  simp only [isSetting, Bool.or_eq_false_iff] at hsetting
  simp only [writesOf, hsetting, if_false, Bool.false_eq_true]

/-- What an accepted field is, and that it writes its settings. -/
theorem splitField_eq_ok (h : splitField parts field = .ok parts') :
    (writesOf field).foldlM insertSetting parts.1 = .ok parts'.1 ∧
      (field.1 = "kind" ∧ parts'.2 = parts.2 ∨
        field.1 = managedProviderSecret ∧
          (∃ text, field.2 = .string text ∧ parts'.2 = some text) ∨
        field.1 ≠ managedProviderSecret ∧ isSetting field = true ∧ parts'.2 = parts.2) := by
  by_cases hkind : field.1 = "kind"
  · rw [splitField, if_pos hkind] at h
    obtain rfl := Except.ok.inj h
    rw [writesOf_of_not_setting (by rw [isSetting, hkind]; decide)]
    exact ⟨rfl, .inl ⟨hkind, rfl⟩⟩
  · by_cases hsecret : field.1 = managedProviderSecret
    · rw [splitField_of_secret hsecret] at h
      rw [writesOf_of_not_setting (by rw [isSetting, hsecret]; decide)]
      obtain ⟨name, value⟩ := field
      cases value with
      | string text =>
          obtain rfl := Except.ok.inj h
          exact ⟨rfl, .inr (.inl ⟨hsecret, text, rfl, rfl⟩)⟩
      | _ => cases h
    · cases hsetting : isSetting field with
      | false =>
          rw [splitField_of_unrecognised hkind hsecret hsetting] at h
          cases h
      | true =>
          rw [splitField_of_setting hkind hsecret hsetting] at h
          cases hwrites : (writesOf field).foldlM insertSetting parts.1 with
          | error error =>
              rw [hwrites] at h
              cases h
          | ok settings =>
              rw [hwrites] at h
              obtain rfl := Except.ok.inj h
              exact ⟨rfl, .inr (.inr ⟨hsecret, rfl, rfl⟩)⟩

theorem refused_of_splitField {reason : String} (h : splitField parts field = .error reason) :
    Refused field reason := by
  by_cases hkind : field.1 = "kind"
  · rw [splitField, if_pos hkind] at h
    cases h
  · by_cases hsecret : field.1 = managedProviderSecret
    · rw [splitField_of_secret hsecret] at h
      cases htext : field.2.asStr with
      | none =>
          rw [htext] at h
          exact Except.error.inj h ▸ .secret hsecret htext
      | some text => simp [htext] at h
    · cases hsetting : isSetting field with
      | false =>
          rw [splitField_of_unrecognised hkind hsecret hsetting] at h
          exact Except.error.inj h ▸ .unrecognised hkind hsecret hsetting
      | true =>
          rw [splitField_of_setting hkind hsecret hsetting] at h
          cases hwrites : (writesOf field).foldlM insertSetting parts.1 with
          | ok settings =>
              rw [hwrites] at h
              cases h
          | error error =>
              rw [hwrites] at h
              obtain rfl : error = reason := Except.error.inj h
              obtain ⟨write, hwrite, mid, hfails⟩ := exists_of_foldlM_eq_error hwrites
              exact .value hwrite (insertSetting_eq_error hfails)

end

/-! ### A whole content -/

section

variable {content : List (String × Value)} {parts parts' : Settings × Option String}

/-- The settings are what the fields write, one after the other. -/
theorem settings_of_split (h : content.foldlM splitField parts = .ok parts') :
    (content.flatMap writesOf).foldlM insertSetting parts.1 = .ok parts'.1 := by
  induction content generalizing parts with
  | nil => exact congrArg (fun parts => Except.ok parts.1) (Except.ok.inj h)
  | cons field content ih =>
      obtain ⟨mid, hfield, hrest⟩ := foldlM_cons_eq_ok.mp h
      rw [List.flatMap_cons, List.foldlM_append, (splitField_eq_ok hfield).1]
      exact ih hrest

/-- Every field is accepted. -/
theorem accepted_of_split (h : content.foldlM splitField parts = .ok parts') :
    ∀ field ∈ content, ∃ before after, splitField before field = .ok after := by
  induction content generalizing parts with
  | nil => nofun
  | cons field content ih =>
      obtain ⟨mid, hfield, hrest⟩ := foldlM_cons_eq_ok.mp h
      exact List.forall_mem_cons.mpr ⟨⟨parts, mid, hfield⟩, ih hrest⟩

theorem credential_unchanged (hsecret : managedProviderSecret ∉ content.map Prod.fst)
    (h : content.foldlM splitField parts = .ok parts') : parts'.2 = parts.2 := by
  induction content generalizing parts with
  | nil => rw [Except.ok.inj h]
  | cons field content ih =>
      rw [List.map_cons, List.mem_cons, not_or] at hsecret
      obtain ⟨mid, hfield, hrest⟩ := foldlM_cons_eq_ok.mp h
      rw [ih hsecret.2 hrest]
      rcases (splitField_eq_ok hfield).2 with ⟨-, hsame⟩ | ⟨hname, -⟩ | ⟨-, -, hsame⟩
      · exact hsame
      · exact absurd hname.symm hsecret.1
      · exact hsame

/-- The credential is the one that is delivered. -/
theorem credential_of_split (hkeys : (content.map Prod.fst).Nodup)
    (h : content.foldlM splitField parts = .ok parts') {text : String}
    (hmem : (managedProviderSecret, .string text) ∈ content) : parts'.2 = some text := by
  induction content generalizing parts with
  | nil => cases hmem
  | cons field content ih =>
      rw [List.map_cons, List.nodup_cons] at hkeys
      obtain ⟨mid, hfield, hrest⟩ := foldlM_cons_eq_ok.mp h
      rcases List.mem_cons.mp hmem with rfl | hlater
      · rw [credential_unchanged hkeys.1 hrest]
        exact congrArg Prod.snd (Except.ok.inj hfield).symm
      · exact ih hkeys.2 hrest hlater

end

/-! ### The levers -/

/-- An error names the key it is about. -/
theorem field_of_interpret {key : String} {value : Value} {error : SettingError}
    (h : interpret key value = .error error) : error.field = key := by
  unfold interpret at h
  split at h
  · cases hs : value.asStr with
    | none =>
        simp only [hs, Except.error.injEq] at h
        exact h ▸ rfl
    | some raw =>
        cases hd : AutonomyMode.deserialize raw with
        | none =>
            simp only [hs, hd, Except.error.injEq] at h
            exact h ▸ rfl
        | some level => simp [hs, hd] at h
  · cases hs : value.asF64 with
    | none =>
        simp only [hs, Except.error.injEq] at h
        exact h ▸ rfl
    | some raw =>
        simp only [hs] at h
        split_ifs at h
        exact Except.error.inj h ▸ rfl
  · cases hs : value.asU64 with
    | none =>
        simp only [hs, Except.error.injEq] at h
        exact h ▸ rfl
    | some raw =>
        simp only [hs] at h
        split_ifs at h
        exact Except.error.inj h ▸ rfl
  · cases h

theorem validateAll_eq_error {control : BrainControl} {settings : Settings} {error : SettingError}
    (h : control.validateAll settings = .error error) :
    ∃ setting ∈ settings, interpret setting.1 setting.2 = .error error := by
  induction settings generalizing control with
  | nil => cases h
  | cons setting settings ih =>
      obtain ⟨key, value⟩ := setting
      unfold validateAll at h
      split_ifs at h with hlever
      · rw [BrainControl.applyTo_eq_interpret] at h
        cases hi : interpret key value with
        | error e =>
            rw [hi] at h
            exact ⟨_, List.mem_cons_self, hi.trans (congrArg Except.error (Except.error.inj h))⟩
        | ok change =>
            rw [hi] at h
            change (do
              let applied ← (change.apply control).validateAll settings
              .ok ((key, value) :: applied)) = .error error at h
            cases hrest : (change.apply control).validateAll settings with
            | error e =>
                rw [hrest] at h
                obtain rfl : e = error := Except.error.inj h
                obtain ⟨setting, hmem, hfails⟩ := ih hrest
                exact ⟨setting, List.mem_cons_of_mem _ hmem, hfails⟩
            | ok rest =>
                rw [hrest] at h
                cases h
      · obtain ⟨setting, hmem, hfails⟩ := ih h
        exact ⟨setting, List.mem_cons_of_mem _ hmem, hfails⟩

/-! ### What is accepted, and what is not -/

variable {content : List (String × Value)}

/-- What a field of a flat content writes is a managed setting, or a lever's. -/
theorem name_of_write (hflat : Flat content) {field write : String × Value}
    (hfield : field ∈ content) (hwrite : write ∈ writesOf field) :
    managedProviderSettings.contains write.1 = true ∨ write = field ∧ isLever field.1 = true := by
  obtain ⟨name, value⟩ := field
  unfold writesOf at hwrite
  split_ifs at hwrite with hmanaged hlever
  · refine .inl ?_
    cases value with
    | object leaves => exact hflat _ hfield hmanaged write hwrite
    | _ =>
        obtain rfl := List.mem_singleton.mp hwrite
        exact hmanaged
  · exact .inr ⟨List.mem_singleton.mp hwrite, hlever⟩
  · cases hwrite

theorem written_of_split {settings : Settings} {credential : Option String}
    (hsplit : splitProviderContent content = .ok (settings, credential)) :
    ∀ setting ∈ settings, ∃ field ∈ content, ∃ write ∈ writesOf field,
      write.1 = setting.1 ∧ jsonToToml write.2 = .ok setting.2 := by
  intro setting hsetting
  rcases mem_of_insertSettings (settings_of_split hsplit) setting hsetting with
    hnone | ⟨write, hwrite, hsame⟩
  · cases hnone
  · obtain ⟨field, hfield, hmem⟩ := List.mem_flatMap.mp hwrite
    exact ⟨field, hfield, write, hmem, hsame⟩

theorem accounted_of_accepted (hkeys : (content.map Prod.fst).Nodup) (hflat : Flat content)
    (hdistinct : Distinct content) {control : BrainControl} {settings levers : Settings}
    {credential : Option String}
    (hsplit : splitProviderContent content = .ok (settings, credential))
    (hvalid : control.validateAll settings = .ok levers) :
    Accounted content settings credential := by
  have hwrites := settings_of_split hsplit
  have honly := written_of_split hsplit
  have hnames : ∀ setting ∈ settings, managedProviderSettings.contains setting.1 = true ∨
      isLever setting.1 = true := by
    intro setting hsetting
    obtain ⟨field, hfield, write, hwrite, hname, -⟩ := honly setting hsetting
    rw [← hname]
    exact (name_of_write hflat hfield hwrite).imp_right fun ⟨hsame, hlever⟩ => hsame ▸ hlever
  refine ⟨fun setting hsetting => ?_, fun hsecret => ?_, fun field hfield => ?_, honly⟩
  · refine (hnames setting hsetting).imp_right fun hlever => ⟨hlever, ?_⟩
    obtain ⟨rfl, haccepted⟩ := BrainControl.validateAll_eq_ok hvalid
    exact haccepted setting (List.mem_filter.mpr ⟨hsetting, hlever⟩)
  · obtain ⟨setting, hsetting, hname⟩ := List.mem_map.mp hsecret
    have hnever : ¬ (managedProviderSettings.contains managedProviderSecret = true ∨
        isLever managedProviderSecret = true) := by decide
    exact hnever (hname ▸ hnames setting hsetting)
  · obtain ⟨before, after, haccept⟩ := accepted_of_split hsplit field hfield
    rcases (splitField_eq_ok haccept).2 with ⟨hkind, -⟩ | ⟨hsecret, text, htext, -⟩ |
      ⟨-, hsetting, -⟩
    · exact .inl hkind
    · refine .inr (.inl ⟨hsecret, text, htext, ?_⟩)
      obtain ⟨name, value⟩ := field
      obtain rfl : name = managedProviderSecret := hsecret
      obtain rfl : value = .string text := htext
      exact credential_of_split hkeys hsplit hfield
    · exact .inr (.inr ⟨hsetting, fun write hwrite =>
        holds_of_insertSettings hdistinct hwrites write
          (List.mem_flatMap.mpr ⟨field, hfield, hwrite⟩)⟩)

/-- **The fields of a delivery.** A content that is accepted is accounted for, field by field; a
content that is not is refused for one of its fields. -/
theorem content_accounted (control : BrainControl) (content : List (String × Value))
    (hkeys : (content.map Prod.fst).Nodup) (hflat : Flat content) (hdistinct : Distinct content) :
    (∀ reason, splitProviderContent content = .error reason →
      ∃ field ∈ content, Refused field reason) ∧
    ∀ settings credential, splitProviderContent content = .ok (settings, credential) →
      (∀ error, control.validateAll settings = .error error →
        error.field ∈ content.map Prod.fst) ∧
      ∀ levers, control.validateAll settings = .ok levers →
        Accounted content settings credential := by
  refine ⟨fun reason hsplit => ?_, fun settings credential hsplit => ⟨fun error hinvalid => ?_,
    fun levers hvalid => accounted_of_accepted hkeys hflat hdistinct hsplit hvalid⟩⟩
  · obtain ⟨field, hfield, parts, hrefused⟩ := exists_of_foldlM_eq_error hsplit
    exact ⟨field, hfield, refused_of_splitField hrefused⟩
  · obtain ⟨setting, hsetting, hfails⟩ := validateAll_eq_error hinvalid
    obtain ⟨field, hfield, write, hwrite, hname, -⟩ := written_of_split hsplit setting hsetting
    have hkey : write.1 = error.field := hname.trans (field_of_interpret hfails).symm
    rcases name_of_write hflat hfield hwrite with hmanaged | ⟨rfl, -⟩
    · rw [hkey] at hmanaged
      cases error <;> cases hmanaged
    · exact hkey ▸ List.mem_map_of_mem hfield

/-- The dashboard's grammar: a nested model, a lever, and the credential. -/
def dashboardContent : List (String × Value) :=
  [("api_token", .string "sk-1"), ("brain.interval_seconds", .number (.posInt 30)),
    ("kind", .string "provider"),
    ("model", .object [("base_url", .string "https://x"), ("model", .string "m")])]

theorem content_accounted_dashboard : Accounted dashboardContent
    [("base_url", .string "https://x"), ("brain.interval_seconds", .number (.posInt 30)),
      ("model", .string "m")] (some "sk-1") :=
  ((content_accounted ⟨.l0Observe, .finite 0, 60⟩ dashboardContent (by decide) (by decide)
    (by decide)).2 _ _ rfl).2 _ rfl

/-- A key that the daemon does not interpret is written, a value that is refused is not named, and
a nested credential is a setting. -/
theorem content_unaccounted :
    splitProviderContent [("brain.colour", .string "red")] =
        .ok ([("brain.colour", .string "red")], none) ∧
      validateAll ⟨.l0Observe, .finite 0, 60⟩ [("brain.colour", .string "red")] =
        .ok [("brain.colour", .string "red")] ∧
      splitProviderContent [("model", .null)] = .error "null is not a valid setting value" ∧
      splitProviderContent [("provider", .object [("api_token", .string "sk-1")])] =
        .ok ([("api_token", .string "sk-1")], none) :=
  ⟨rfl, rfl, rfl, rfl⟩

end Argus

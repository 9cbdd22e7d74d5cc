import Argus.Daemon.ConfigLevers

/-!
# Applied configurations and the settings file

What is applied is listed for each configuration, and the settings of all of them share one file,
which a delivery replaces. So a listed configuration keeps its settings in the file only as long
as the deliveries that follow it carry its keys.
-/

namespace Argus

/-- The delivery as one that took effect with these settings. -/
def ConfigApplyPayload.effective (payload : ConfigApplyPayload) (settings : Settings) :
    Effective :=
  ⟨payload.configurationId, payload.versionId, payload.versionNumber, settings⟩

namespace ConfigHost

variable {host : ConfigHost} {event : ConfigEvent}

/-! ### What is listed, and what is in the file -/

/-- The row of the configuration shows this delivery as the version that is applied. -/
def Listed (host : ConfigHost) (entry : Effective) : Prop :=
  (Keyed.lookup AppliedConfigurationState.configurationId host.applied
    entry.configurationId).map AppliedConfigurationState.appliedVersionId = some entry.versionId

/-- The last delivery of each configuration that is listed with it has its settings in the file,
but for those whose key a later delivery carries. -/
def InEffect (host : ConfigHost) : Prop :=
  ∀ earlier entry later, host.effective = earlier ++ entry :: later →
    (∀ next ∈ later, next.configurationId ≠ entry.configurationId) → host.Listed entry →
      ∀ setting ∈ entry.settings,
        (∃ next ∈ later, setting.1 ∈ next.settings.map Prod.fst) ∨
          setting ∈ host.settings.getD []

/-- A delivery of settings that is answered as applied. -/
def AppliedSettings (host : ConfigHost) (event : ConfigEvent) : Prop :=
  host.Applied event ∧ ∀ payload ∈ event.frame,
    payload.kind ≠ some kindRunbook ∧ payload.kind ≠ some kindMcp

/-- The delivery carries every key of the delivery before it, unless that one is of the same
configuration or is not listed. -/
def CarriesLast (host : ConfigHost) (event : ConfigEvent) : Prop :=
  ∀ payload ∈ event.frame, ∀ settings credential,
    splitProviderContent payload.content = .ok (settings, credential) →
      ∀ last ∈ host.effective.getLast?, last.configurationId ≠ payload.configurationId →
        host.Listed last → last.settings.map Prod.fst ⊆ settings.map Prod.fst

/-! ### One delivery -/

/-- Settings are written: they are the file, and no other configuration's row is touched. -/
structure Written (host after : ConfigHost) (payload : ConfigApplyPayload) (settings : Settings) :
    Prop where
  file : after.settings = some settings
  history : after.effective = host.effective ++ [payload.effective settings]
  others : ∀ id, id ≠ payload.configurationId →
    Keyed.lookup AppliedConfigurationState.configurationId after.applied id =
      Keyed.lookup AppliedConfigurationState.configurationId host.applied id

/-- The row that is saved belongs to the configuration that is delivered. -/
theorem recordApplied_others (host : ConfigHost) (payload : ConfigApplyPayload) (kind : String)
    (answers : ConfigAnswers) {id : Uuid} (hid : id ≠ payload.configurationId) :
    Keyed.lookup AppliedConfigurationState.configurationId
        (host.recordApplied payload kind answers).2.applied id =
      Keyed.lookup AppliedConfigurationState.configurationId host.applied id := by
  unfold recordApplied
  by_cases hsaved : answers.appliedSaved = true
  · simp only [hsaved, if_true]
    rw [Keyed.lookup_upsert, if_neg hid.symm]
  · rw [Bool.not_eq_true] at hsaved
    simp only [hsaved]
    rfl

theorem AppliedSettings.written (h : host.AppliedSettings event) :
    ∃ payload settings credential, event.frame = some payload ∧
      splitProviderContent payload.content = .ok (settings, credential) ∧
        Written host (host.step event) payload settings := by
  rcases h.1.cases with ⟨payload, kind, hframe, hkind, hdocument, -, -⟩ |
    ⟨payload, kind, settings, credential, levers, hframe, passes, hstep⟩
  · obtain ⟨hrunbook, hmcp⟩ := h.2 payload hframe
    rcases hdocument with rfl | rfl
    · exact absurd hkind hrunbook
    · exact absurd hkind hmcp
  · refine ⟨payload, settings, credential, hframe, passes.split, ?_⟩
    rw [hstep]
    exact ⟨rfl, rfl, fun id hid => recordApplied_others _ payload kind event.answers hid⟩

variable {after : ConfigHost} {payload : ConfigApplyPayload} {settings : Settings}
  {entry : Effective}

theorem Written.listed_iff (h : Written host after payload settings)
    (hid : entry.configurationId ≠ payload.configurationId) :
    after.Listed entry ↔ host.Listed entry := by
  unfold Listed
  rw [h.others _ hid]

/-! ### Runs -/

/-- The settings are in effect, and the file is that of the last delivery. -/
structure Consistent (host : ConfigHost) : Prop where
  inEffect : host.InEffect
  file : ∀ last ∈ host.effective.getLast?, host.settings = some last.settings

theorem Consistent.of_nothing (h : host.effective = []) : host.Consistent where
  inEffect := fun earlier entry later hsplit => by
    rw [h] at hsplit
    exact absurd hsplit.symm (List.append_ne_nil_of_right_ne_nil _ (List.cons_ne_nil _ _))
  file := fun last hlast => by
    rw [h] at hlast
    cases hlast

/-- A setting of a listed configuration that no later delivery carries is of the last delivery. -/
theorem Consistent.last_or_carried (h : host.Consistent) {earlier later : List Effective}
    (hsplit : host.effective = earlier ++ entry :: later)
    (hlater : ∀ next ∈ later, next.configurationId ≠ entry.configurationId)
    (hlisted : host.Listed entry) {setting : String × Value} (hsetting : setting ∈ entry.settings) :
    (∃ next ∈ later, setting.1 ∈ next.settings.map Prod.fst) ∨ later = [] := by
  rcases List.eq_nil_or_concat' later with hnil | ⟨init, last, rfl⟩
  · exact .inr hnil
  · have hlast : last ∈ host.effective.getLast? := by
      rw [hsplit, ← List.cons_append, ← List.append_assoc, List.getLast?_concat]
      rfl
    rcases h.inEffect _ _ _ hsplit hlater hlisted setting hsetting with hcarried | hfile
    · exact .inl hcarried
    · rw [h.file last hlast, Option.getD_some] at hfile
      exact .inl ⟨last, by simp, List.mem_map_of_mem hfile⟩

/-- A delivery that carries the keys of the last one keeps all settings in effect. -/
theorem Consistent.step (h : host.Consistent) (happlied : host.AppliedSettings event)
    (hcarries : host.CarriesLast event) : (host.step event).Consistent := by
  obtain ⟨payload, settings, credential, hframe, hcontent, written⟩ := happlied.written
  refine ⟨?_, ?_⟩
  · intro earlier entry later hsplit hlater hlisted setting hsetting
    rw [written.history] at hsplit
    rcases List.eq_nil_or_concat' later with rfl | ⟨init, last, rfl⟩
    · -- the delivery itself: its settings are the file
      obtain ⟨-, hentry⟩ := List.append_inj' hsplit rfl
      obtain rfl := (List.cons.inj hentry).1
      rw [written.file]
      exact .inr hsetting
    · have happend : host.effective ++ [payload.effective settings] =
          (earlier ++ entry :: init) ++ [last] := by
        rw [hsplit, List.append_assoc, List.cons_append]
      obtain ⟨hbefore, hlast⟩ := List.append_inj' happend rfl
      obtain rfl := (List.cons.inj hlast).1
      have hid : entry.configurationId ≠ payload.configurationId :=
        (hlater (payload.effective settings) (by simp)).symm
      rw [written.listed_iff hid] at hlisted
      have hinit : ∀ next ∈ init, next.configurationId ≠ entry.configurationId :=
        fun next hnext => hlater next (by simp [hnext])
      rcases h.last_or_carried hbefore hinit hlisted hsetting with ⟨next, hnext, hkey⟩ | rfl
      · exact .inl ⟨next, by simp [hnext], hkey⟩
      · have hentry : entry ∈ host.effective.getLast? := by simp [hbefore]
        have hkeys := hcarries payload hframe settings credential hcontent entry hentry hid hlisted
        exact .inl ⟨payload.effective settings, by simp, hkeys (List.mem_map_of_mem hsetting)⟩
  · intro last hlast
    rw [written.history, List.getLast?_concat] at hlast
    obtain rfl := Option.some.inj hlast
    exact written.file

/-- No other delivery does. -/
theorem carriesLast_of_inEffect (happlied : host.AppliedSettings event)
    (hnext : (host.step event).InEffect) : host.CarriesLast event := by
  obtain ⟨payload, settings, credential, hframe, hcontent, written⟩ := happlied.written
  intro delivered hdelivered settings' credential' hcontent' last hlast hid hlisted
  obtain rfl : payload = delivered := Option.some.inj (hframe.symm.trans hdelivered)
  obtain ⟨rfl, -⟩ := Prod.mk.inj (Except.ok.inj (hcontent.symm.trans hcontent'))
  obtain ⟨init, hinit⟩ := List.getLast?_eq_some_iff.mp hlast
  intro key hkey
  obtain ⟨setting, hsetting, rfl⟩ := List.mem_map.mp hkey
  have hsplit : (host.step event).effective = init ++ last :: [payload.effective settings] := by
    rw [written.history, hinit, List.append_assoc, List.singleton_append]
  have hother : ∀ next ∈ [payload.effective settings],
      next.configurationId ≠ last.configurationId := by
    intro next hnew
    obtain rfl := List.mem_singleton.mp hnew
    exact hid.symm
  rcases hnext _ _ _ hsplit hother ((written.listed_iff hid).mpr hlisted) setting hsetting with
    ⟨next, hnew, hcarried⟩ | hfile
  · obtain rfl := List.mem_singleton.mp hnew
    exact hcarried
  · rw [written.file] at hfile
    exact List.mem_map_of_mem hfile

/-- **Settings in effect.** In a run of applied deliveries of settings, whatever rows are saved,
every listed configuration has its settings in the file all along, exactly when each delivery
carries the keys of the one before it, unless that is of its own configuration or not listed. -/
theorem settings_in_effect_iff (host : ConfigHost) (hstart : host.effective = [])
    (events : List ConfigEvent) (happlied : Machine.Every step AppliedSettings host events) :
    (∀ n, (Machine.run step host (events.take n)).InEffect) ↔
      Machine.Every step CarriesLast host events :=
  happlied.forall_take_iff (I := Consistent) (.of_nothing hstart) (fun _ h => h.inEffect)
    (fun _ _ h happly hcarries => h.step happly hcarries)
    fun _ _ _ happly hnext => carriesLast_of_inEffect happly hnext

/-- The first version of a configuration. -/
def firstVersion (id : Uuid) (content : List (String × Value)) : ConfigEvent :=
  ⟨some (ordinaryDelivery id 1 (("kind", .string "provider") :: content)), .willing⟩

/-- Two configurations that both set the model. -/
def modelTwice : List ConfigEvent :=
  [firstVersion 1 [("model", .string "small")], firstVersion 2 [("model", .string "large")]]

/-- The second configuration takes the model over, and nothing is lost. -/
theorem settings_in_effect_iff_model :
    (Machine.run step fresh modelTwice).InEffect := by
  have happlied : Machine.Every step AppliedSettings fresh modelTwice := by
    refine ⟨⟨?_, ?_⟩, ⟨?_, ?_⟩, trivial⟩
    · unfold Applied
      decide
    · rintro payload ⟨⟩
      decide
    · unfold Applied
      decide
    · rintro payload ⟨⟩
      decide
  refine (settings_in_effect_iff fresh rfl modelTwice happlied).mpr ⟨?_, ?_, trivial⟩ 2
  · intro payload _ settings credential _ last hlast
    cases hlast
  · rintro payload ⟨⟩ settings credential hcontent last hlast _ _
    obtain ⟨rfl, -⟩ := Prod.mk.inj (Except.ok.inj hcontent)
    obtain rfl := Option.some.inj hlast
    decide

/-- The first configuration sets the model, and then another configuration is delivered. -/
def modelThen (content : List (String × Value)) : ConfigHost :=
  Machine.run step fresh [firstVersion 1 [("model", .string "small")], firstVersion 2 content]

/-- A listed configuration has lost a setting whose key is neither in the next delivery nor in the
file. -/
theorem not_inEffect {entry next : Effective} (key : String)
    (hhistory : host.effective = [entry, next])
    (hid : next.configurationId ≠ entry.configurationId) (hlisted : host.Listed entry)
    (hkey : key ∈ entry.settings.map Prod.fst) (hnext : key ∉ next.settings.map Prod.fst)
    (hfile : key ∉ (host.settings.getD []).map Prod.fst) : ¬ host.InEffect := by
  intro h
  obtain ⟨setting, hsetting, rfl⟩ := List.mem_map.mp hkey
  have hother : ∀ later ∈ [next], later.configurationId ≠ entry.configurationId := by
    intro later hlater
    rwa [List.mem_singleton.mp hlater]
  rcases h [] entry [next] hhistory hother hlisted setting hsetting with
    ⟨later, hlater, hcarried⟩ | hin
  · obtain rfl := List.mem_singleton.mp hlater
    exact hnext hcarried
  · exact hfile (List.mem_map_of_mem hin)

/-- The second configuration carries another setting, or a credential alone: the first is still
listed, and its model is gone from the file. -/
theorem listed_model_lost :
    ¬ (modelThen [("base_url", .string "http://localhost")]).InEffect ∧
      ¬ (modelThen [("api_token", .string "secret")]).InEffect := by
  have hlisted (content : List (String × Value)) (hkept : (Keyed.lookup
      AppliedConfigurationState.configurationId (modelThen content).applied 1).map
        AppliedConfigurationState.appliedVersionId = some 1) :
      (modelThen content).Listed ⟨1, 1, 1, [("model", .string "small")]⟩ := hkept
  constructor
  · exact not_inEffect "model" rfl (by decide) (hlisted _ (by decide))
      (by decide) (by decide) (by decide)
  · exact not_inEffect "model" rfl (by decide) (hlisted _ (by decide))
      (by decide) (by decide) (by decide)

end ConfigHost

end Argus

import Argus.Daemon.ConfigVersions

/-!
# The levers over a restart

A delivery changes the live levers it carries, and the settings file holds the last delivery
alone. A restart starts from the configuration file and replays the settings file; so a lever that
an earlier delivery changed falls back, unless every delivery since carries it.
-/

namespace Argus

open Ieee (Datum)

namespace BrainControl

/-! ### Settings as writes to one lever -/

/-- What a setting means. -/
inductive LeverChange
  | autonomy (level : AutonomyMode)
  | confidenceThreshold (threshold : Datum)
  | intervalSeconds (seconds : Nat)
  /-- The key belongs to another consumer. -/
  | other

def LeverChange.apply (control : BrainControl) : LeverChange → BrainControl
  | .autonomy level => { control with autonomy := level }
  | .confidenceThreshold threshold => { control with confidenceThreshold := threshold }
  | .intervalSeconds seconds => { control with intervalSeconds := seconds }
  | .other => control

/-- The reading of a setting, which the levers have no part in. -/
def interpret (key : String) (value : Value) : Except SettingError LeverChange :=
  match key with
  | "brain.autonomy" =>
      match value.asStr with
      | none => .error .autonomyNotString
      | some raw =>
          match AutonomyMode.deserialize raw with
          | none => .error (.notALevel raw)
          | some level => .ok (.autonomy level)
  | "brain.confidence_threshold" =>
      match value.asF64 with
      | none => .error .thresholdNotNumber
      | some raw =>
          if raw.ge (.finite 0) && (Datum.finite 1).ge raw then .ok (.confidenceThreshold raw)
          else .error (.thresholdOutside raw)
  | "brain.interval_seconds" =>
      match value.asU64 with
      | none => .error .intervalNotInteger
      | some raw =>
          if raw < 5 then .error (.intervalBelowFloor raw) else .ok (.intervalSeconds raw)
  | _ => .ok .other

theorem applyTo_eq_interpret (control : BrainControl) (key : String) (value : Value) :
    control.applyTo key value = (interpret key value).map (·.apply control) := by
  unfold applyTo interpret
  split
  · cases value.asStr with
    | none => rfl
    | some raw => cases h : AutonomyMode.deserialize raw <;> simp [h, Except.map, LeverChange.apply]
  · cases value.asF64 with
    | none => rfl
    | some raw =>
        by_cases h : (raw.ge (.finite 0) && (Datum.finite 1).ge raw) = true <;>
          simp [h, Except.map, LeverChange.apply]
  · cases value.asU64 with
    | none => rfl
    | some raw => by_cases h : raw < 5 <;> simp [h, Except.map, LeverChange.apply]
  · simp [Except.map, LeverChange.apply]

/-- The key of the lever that is written. -/
def LeverChange.key : LeverChange → Option String
  | .autonomy _ => some "brain.autonomy"
  | .confidenceThreshold _ => some "brain.confidence_threshold"
  | .intervalSeconds _ => some "brain.interval_seconds"
  | .other => none

/-- A setting writes the lever of its key, or none. -/
theorem key_of_interpret {key : String} {value : Value} {change : LeverChange}
    (h : interpret key value = .ok change) :
    change.key = some key ∨ change.key = none ∧ key ≠ "brain.autonomy" ∧
      key ≠ "brain.confidence_threshold" ∧ key ≠ "brain.interval_seconds" := by
  unfold interpret at h
  split at h
  · cases hs : value.asStr with
    | none => simp [hs] at h
    | some raw =>
        cases hd : AutonomyMode.deserialize raw with
        | none => simp [hs, hd] at h
        | some level =>
            simp only [hs, hd, Except.ok.injEq] at h
            exact .inl (h ▸ rfl)
  · cases hs : value.asF64 with
    | none => simp [hs] at h
    | some raw =>
        by_cases hrange : (raw.ge (.finite 0) && (Datum.finite 1).ge raw) = true
        · simp only [hs, hrange, if_true, Except.ok.injEq] at h
          exact .inl (h ▸ rfl)
        · simp [hs, hrange] at h
  · cases hs : value.asU64 with
    | none => simp [hs] at h
    | some raw =>
        by_cases hfloor : raw < 5
        · simp [hs, hfloor] at h
        · simp only [hs, hfloor, if_false, Except.ok.injEq] at h
          exact .inl (h ▸ rfl)
  · rename_i hautonomy hthreshold hinterval
    exact .inr ⟨(Except.ok.inj h).symm ▸ rfl, hautonomy, hthreshold, hinterval⟩

/-! ### One lever -/

/-- A lever: its key, and what it reads. -/
structure Lever (α : Type) where
  key : String
  get : BrainControl → α
  known : key = "brain.autonomy" ∨ key = "brain.confidence_threshold" ∨
    key = "brain.interval_seconds"
  /-- A write to the lever determines what it reads. -/
  own : ∀ {change : LeverChange}, change.key = some key →
    ∀ control other, get (change.apply control) = get (change.apply other)
  /-- No other change does anything to it. -/
  frame : ∀ {change : LeverChange}, change.key ≠ some key →
    ∀ control, get (change.apply control) = get control

def autonomyLever : Lever AutonomyMode where
  key := "brain.autonomy"
  get := BrainControl.autonomy
  known := .inl rfl
  own := fun {change} h _ _ => by cases change <;> simp_all [LeverChange.key, LeverChange.apply]
  frame := fun {change} h _ => by cases change <;> simp_all [LeverChange.key, LeverChange.apply]

def confidenceLever : Lever Datum where
  key := "brain.confidence_threshold"
  get := BrainControl.confidenceThreshold
  known := .inr (.inl rfl)
  own := fun {change} h _ _ => by cases change <;> simp_all [LeverChange.key, LeverChange.apply]
  frame := fun {change} h _ => by cases change <;> simp_all [LeverChange.key, LeverChange.apply]

def intervalLever : Lever Nat where
  key := "brain.interval_seconds"
  get := BrainControl.intervalSeconds
  known := .inr (.inr rfl)
  own := fun {change} h _ _ => by cases change <;> simp_all [LeverChange.key, LeverChange.apply]
  frame := fun {change} h _ => by cases change <;> simp_all [LeverChange.key, LeverChange.apply]

/-- Levers that read the same are the same. -/
theorem eq_iff_levers {control other : BrainControl} : control = other ↔
    autonomyLever.get control = autonomyLever.get other ∧
      confidenceLever.get control = confidenceLever.get other ∧
        intervalLever.get control = intervalLever.get other := by
  cases control
  cases other
  simp [autonomyLever, confidenceLever, intervalLever]

/-! ### Lists of settings -/

/-- Every setting of the list is valid. -/
def Accepted (settings : List (String × Value)) : Prop :=
  ∀ setting ∈ settings, ∃ change, interpret setting.1 setting.2 = .ok change

theorem applySetting_eq {key : String} {value : Value} {change : LeverChange}
    (h : interpret key value = .ok change) (control : BrainControl) :
    control.applySetting key value = change.apply control := by
  rw [applySetting, applyTo_eq_interpret, h]
  rfl

theorem validateAll_eq_ok {probe : BrainControl} {settings applied : List (String × Value)}
    (h : probe.validateAll settings = .ok applied) :
    applied = settings.filter (fun setting => isLever setting.1) ∧ Accepted applied := by
  induction settings generalizing probe applied with
  | nil =>
      obtain rfl := Except.ok.inj h
      exact ⟨rfl, fun setting hmem => nomatch hmem⟩
  | cons setting settings ih =>
      obtain ⟨key, value⟩ := setting
      unfold validateAll at h
      by_cases hlever : isLever key = true
      · rw [if_pos hlever, applyTo_eq_interpret] at h
        cases hi : interpret key value with
        | error error =>
            rw [hi] at h
            cases h
        | ok change =>
            rw [hi] at h
            change (do
              let applied ← (change.apply probe).validateAll settings
              .ok ((key, value) :: applied)) = .ok applied at h
            cases hrest : (change.apply probe).validateAll settings with
            | error error =>
                rw [hrest] at h
                cases h
            | ok rest =>
                rw [hrest] at h
                obtain rfl := Except.ok.inj h
                obtain ⟨rfl, haccepted⟩ := ih hrest
                refine ⟨by simp [hlever], fun setting hmem => ?_⟩
                rcases List.mem_cons.mp hmem with rfl | hmem
                · exact ⟨change, hi⟩
                · exact haccepted setting hmem
      · rw [if_neg hlever] at h
        obtain ⟨rfl, haccepted⟩ := ih h
        exact ⟨by simp [hlever], haccepted⟩

section Commit

variable {α : Type} (lever : Lever α) {settings : List (String × Value)}

theorem commitAll_cons {setting : String × Value} {change : LeverChange}
    (h : interpret setting.1 setting.2 = .ok change) (control : BrainControl) :
    control.commitAll (setting :: settings) = (change.apply control).commitAll settings := by
  rw [← applySetting_eq h]
  rfl

theorem get_commitAll_of_not_mem (haccepted : Accepted settings)
    (hkey : lever.key ∉ settings.map Prod.fst) (control : BrainControl) :
    lever.get (control.commitAll settings) = lever.get control := by
  induction settings generalizing control with
  | nil => rfl
  | cons setting settings ih =>
      rw [List.map_cons, List.mem_cons, not_or] at hkey
      obtain ⟨change, hchange⟩ := haccepted setting List.mem_cons_self
      have hother : change.key ≠ some lever.key := by
        rcases key_of_interpret hchange with hwritten | ⟨hnone, -⟩
        · rw [hwritten]
          exact fun heq => hkey.1 (Option.some.inj heq).symm
        · rw [hnone]
          exact fun heq => nomatch heq
      rw [commitAll_cons hchange,
        ih (fun other hmem => haccepted other (List.mem_cons_of_mem _ hmem)) hkey.2]
      exact lever.frame hother control

/-- The last write to a lever decides, wherever the commit started. -/
theorem get_commitAll_of_mem (haccepted : Accepted settings)
    (hkey : lever.key ∈ settings.map Prod.fst) (control other : BrainControl) :
    lever.get (control.commitAll settings) = lever.get (other.commitAll settings) := by
  induction settings generalizing control other with
  | nil => cases hkey
  | cons setting settings ih =>
      have htail : Accepted settings := fun s hmem => haccepted s (List.mem_cons_of_mem _ hmem)
      obtain ⟨change, hchange⟩ := haccepted setting List.mem_cons_self
      rw [commitAll_cons hchange, commitAll_cons hchange]
      by_cases hlater : lever.key ∈ settings.map Prod.fst
      · exact ih htail hlater _ _
      · have hown : setting.1 = lever.key := by
          rw [List.map_cons, List.mem_cons] at hkey
          exact (hkey.resolve_right hlater).symm
        have hwritten : change.key = some lever.key := by
          rcases key_of_interpret hchange with hwritten | ⟨-, hautonomy, hthreshold, hinterval⟩
          · rw [hwritten, hown]
          · rw [hown] at hautonomy hthreshold hinterval
            rcases lever.known with h | h | h <;> contradiction
        rw [get_commitAll_of_not_mem lever htail hlater,
          get_commitAll_of_not_mem lever htail hlater]
        exact lever.own hwritten control other

end Commit

/-- The levers of the configuration file. -/
def ofConfig (config : BrainConfig) : BrainControl :=
  ⟨config.autonomy, config.confidenceThreshold, config.intervalSeconds⟩

theorem Lever.mem_filter_keys {α : Type} (lever : Lever α) (settings : List (String × Value)) :
    lever.key ∈ (settings.filter fun setting => isLever setting.1).map Prod.fst ↔
      lever.key ∈ settings.map Prod.fst := by
  have hlever : isLever lever.key = true := by
    rcases lever.known with h | h | h <;> rw [h] <;> decide
  constructor
  · intro h
    obtain ⟨setting, hmem, hkey⟩ := List.mem_map.mp h
    exact List.mem_map.mpr ⟨setting, List.mem_of_mem_filter hmem, hkey⟩
  · intro h
    obtain ⟨setting, hmem, hkey⟩ := List.mem_map.mp h
    exact List.mem_map.mpr ⟨setting, List.mem_filter.mpr ⟨hmem, by rw [hkey, hlever]⟩, hkey⟩

/-- The settings carry a lever, or the lever is the same without them. -/
def Lever.Carried {α : Type} (lever : Lever α) (control base : BrainControl)
    (settings : List (String × Value)) : Prop :=
  lever.get control ≠ lever.get base → lever.key ∈ settings.map Prod.fst

theorem Lever.get_commitAll_eq_iff {α : Type} (lever : Lever α) (control base : BrainControl)
    {settings : List (String × Value)}
    (haccepted : Accepted (settings.filter fun setting => isLever setting.1)) :
    lever.get (control.commitAll (settings.filter fun setting => isLever setting.1)) =
        lever.get (base.commitAll (settings.filter fun setting => isLever setting.1)) ↔
      lever.Carried control base settings := by
  unfold Lever.Carried
  rw [← lever.mem_filter_keys]
  by_cases hkey : lever.key ∈
      (settings.filter fun setting => isLever setting.1).map Prod.fst
  · simp [hkey, get_commitAll_of_mem lever haccepted hkey control base]
  · rw [get_commitAll_of_not_mem lever haccepted hkey,
      get_commitAll_of_not_mem lever haccepted hkey]
    simp [hkey]

/-- Every lever whose live value is not the configuration file's is carried. -/
def CarriesChanged (control : BrainControl) (config : BrainConfig)
    (settings : List (String × Value)) : Prop :=
  autonomyLever.Carried control (ofConfig config) settings ∧
    confidenceLever.Carried control (ofConfig config) settings ∧
      intervalLever.Carried control (ofConfig config) settings

/-- Live levers after a delivery are those a restart makes of it, exactly where the delivery carries
what differs from the configuration file. -/
theorem commitAll_eq_seed_iff {control : BrainControl} {settings levers : List (String × Value)}
    (h : control.validateAll settings = .ok levers) (config : BrainConfig) :
    control.commitAll levers = seed config settings ↔ control.CarriesChanged config settings := by
  obtain ⟨rfl, haccepted⟩ := validateAll_eq_ok h
  have hseed : seed config settings =
      (ofConfig config).commitAll (settings.filter fun setting => isLever setting.1) := rfl
  rw [hseed, eq_iff_levers, autonomyLever.get_commitAll_eq_iff _ _ haccepted,
    confidenceLever.get_commitAll_eq_iff _ _ haccepted,
    intervalLever.get_commitAll_eq_iff _ _ haccepted]
  rfl

end BrainControl

namespace ConfigHost

/-! ### Runs -/

/-- A restart makes the live levers of the configuration file and the settings file. -/
def Survives (config : BrainConfig) (host : ConfigHost) : Prop :=
  host.control = .seed config (host.settings.getD [])

/-- The delivery is answered as applied. -/
def Applied (host : ConfigHost) (event : ConfigEvent) : Prop :=
  (host.applyConfiguration event.frame event.answers).1.status = .applied

/-- A delivery of settings carries every lever whose live value is not the configuration file's. -/
def LeversCarried (config : BrainConfig) (host : ConfigHost) (event : ConfigEvent) : Prop :=
  ∀ payload ∈ event.frame, payload.kind ≠ some kindRunbook → payload.kind ≠ some kindMcp →
    ∀ settings credential, splitProviderContent payload.content = .ok (settings, credential) →
      host.control.CarriesChanged config settings

/-- What an applied delivery of settings writes, before its rows are saved. -/
def wrote (host : ConfigHost) (payload : ConfigApplyPayload) (settings levers : Settings)
    (credential : Option String) : ConfigHost :=
  { host with
    credential := credential.or host.credential
    settings := some settings
    control := host.control.commitAll levers
    effective := host.effective ++
      [⟨payload.configurationId, payload.versionId, payload.versionNumber, settings⟩] }

/-- An applied delivery is a document, which leaves the levers and the settings file, or it is
settings that are written. -/
theorem Applied.cases {host : ConfigHost} {event : ConfigEvent} (h : host.Applied event) :
    (∃ payload kind, event.frame = some payload ∧ payload.kind = some kind ∧
      (kind = kindRunbook ∨ kind = kindMcp) ∧ (host.step event).control = host.control ∧
        (host.step event).settings = host.settings) ∨
    ∃ payload kind settings credential levers, event.frame = some payload ∧
      host.Passes payload event.answers kind settings credential levers ∧
        host.step event = ((host.wrote payload settings levers credential).recordApplied payload
          kind event.answers).2 := by
  obtain ⟨frame, answers⟩ := event
  have houtcome := host.applyConfiguration_outcome frame answers
  unfold Applied at h
  unfold ConfigHost.step
  dsimp only at h ⊢
  generalize host.applyConfiguration frame answers = outcome at h houtcome
  cases houtcome with
  | refused result hresult => exact absurd h hresult
  | runbook name text honoured htext hverdict =>
      exact .inl ⟨_, kindRunbook, rfl, honoured.1, .inl rfl, rfl, rfl⟩
  | persisted document reason => cases h
  | servers mcp document honoured hmcp hparse hvalid hput happly =>
      exact .inl ⟨_, kindMcp, rfl, honoured.1, .inr rfl, rfl, rfl⟩
  | @settings payload kind settings levers credential stored passes hstored =>
      refine .inr ⟨payload, kind, settings, credential, levers, rfl, passes, ?_⟩
      obtain rfl := storeDelivered_eq_ok hstored
      unfold writeSettings at h ⊢
      cases hwritten : answers.writeSettings with
      | error error =>
          rw [hwritten] at h
          cases h
      | ok u => rfl

/-- One applied delivery keeps the levers over a restart exactly where it carries what differs. -/
theorem Applied.survives_iff {config : BrainConfig} {host : ConfigHost} {event : ConfigEvent}
    (h : host.Applied event) (hsurvives : host.Survives config) :
    (host.step event).Survives config ↔ host.LeversCarried config event := by
  unfold Survives
  rcases h.cases with ⟨payload, kind, hframe, hkind, hdocument, hcontrol, hsettings⟩ |
    ⟨payload, kind, settings, credential, levers, hframe, passes, hstep⟩
  · rw [hcontrol, hsettings]
    refine iff_of_true hsurvives fun delivered hdelivered hrunbook hmcp => ?_
    obtain rfl : payload = delivered := Option.some.inj (hframe.symm.trans hdelivered)
    rcases hdocument with rfl | rfl
    · exact absurd hkind hrunbook
    · exact absurd hkind hmcp
  · rw [hstep]
    refine (BrainControl.commitAll_eq_seed_iff passes.validated config).trans ?_
    constructor
    · intro hcarries delivered hdelivered _ _ settings' credential' hsplit
      obtain rfl : payload = delivered := Option.some.inj (hframe.symm.trans hdelivered)
      obtain ⟨rfl, -⟩ := Prod.mk.inj (Except.ok.inj (passes.split.symm.trans hsplit))
      exact hcarries
    · intro hcarried
      refine hcarried payload hframe ?_ ?_ settings credential passes.split
      · rw [passes.honoured.1]
        exact fun heq => passes.not_runbook (Option.some.inj heq)
      · rw [passes.honoured.1]
        exact fun heq => passes.not_mcp (Option.some.inj heq)

/-- **Levers over a restart.** In a run of applied deliveries the live levers are all along those a
restart makes of the configuration file and the settings file, exactly when every delivery of
settings carries each lever whose live value is not the configuration file's. -/
theorem levers_survive_iff (config : BrainConfig) (host : ConfigHost)
    (hstart : host.Survives config) (events : List ConfigEvent)
    (happlied : Machine.Every step Applied host events) :
    (∀ n, (Machine.run step host (events.take n)).Survives config) ↔
      Machine.Every step (LeversCarried config) host events :=
  happlied.forall_take_iff (I := Survives config) hstart (fun _ h => h)
    (fun _ _ h happly hcarried => (happly.survives_iff h).mpr hcarried)
    fun _ _ h happly hnext => (happly.survives_iff h).mp hnext

/-- A delivery of levers. -/
def leverDelivery (version : Int) (levers : List (String × Value)) : ConfigEvent :=
  ⟨some (ordinaryDelivery 1 version (("kind", .string "brain") :: levers)), .willing⟩

/-- A ceiling, and then a ceiling with an interval. -/
def ceilingTwice : List ConfigEvent :=
  [leverDelivery 1 [("brain.autonomy", .string "l3_assisted")],
    leverDelivery 2 [("brain.autonomy", .string "l2_recommend"),
      ("brain.interval_seconds", .number (.posInt 30))]]

/-- A delivery that repeats the ceiling keeps it over a restart. -/
theorem levers_survive_iff_repeated :
    (Machine.run step fresh ceilingTwice).Survives .default := by
  have happlied : Machine.Every step Applied fresh ceilingTwice := by
    refine ⟨?_, ?_, trivial⟩ <;> unfold Applied <;> decide
  refine (levers_survive_iff .default fresh rfl ceilingTwice happlied).mpr ⟨?_, ?_, trivial⟩ 2
  · intro payload _ _ _ settings credential _
    exact ⟨fun hne => absurd rfl hne, fun hne => absurd rfl hne, fun hne => absurd rfl hne⟩
  · rintro payload ⟨⟩ _ _ settings credential hsplit
    obtain ⟨rfl, -⟩ := Prod.mk.inj (Except.ok.inj hsplit)
    refine ⟨fun _ => by decide +kernel, fun hne => absurd (by decide +kernel) hne,
      fun _ => by decide⟩

/-- A daemon whose configuration file allows the brain to act on its own. -/
def autonomousConfig : BrainConfig := { BrainConfig.default with autonomy := .l4Autonomous }

/-- The operator takes the ceiling down, and then sets the interval: the restart brings the ceiling
of the file back. -/
theorem ceiling_falls_back :
    ¬ (Machine.run step { fresh with control := .seed autonomousConfig [] }
      [leverDelivery 1 [("brain.autonomy", .string "l0_observe")],
        leverDelivery 2 [("brain.interval_seconds", .number (.posInt 30))]]).Survives
      autonomousConfig := by
  unfold Survives
  decide

end ConfigHost

end Argus

import Argus.Daemon.ConfigDelivery

/-!
# Stale deliveries

An ordinary delivery is compared with the version read back from the repository. A read that
fails counts as nothing held, and a save that fails leaves the old row; so the versions that take
effect ascend exactly as long as the row that is read back is new enough. It is where every read of
the rows and every save of them succeeds (`remembered_of_kept`).
-/

namespace Argus

/-- One delivery, with what the outside answers to it. -/
structure ConfigEvent where
  frame : Option ConfigApplyPayload
  answers : ConfigAnswers

namespace ConfigHost

def step (host : ConfigHost) (event : ConfigEvent) : ConfigHost :=
  (host.applyConfiguration event.frame event.answers).2

/-- Behind the version guard nothing stops the delivery. -/
inductive Unhindered (host : ConfigHost) (payload : ConfigApplyPayload)
    (answers : ConfigAnswers) : Prop
  | runbook {text name : String} (hkind : payload.kind = some kindRunbook)
      (htext : payload.toml = some text) (hverdict : answers.deliverRunbook = .ok name)
  | servers {document : McpConfig} {mcp : McpState} (hkind : payload.kind = some kindMcp)
      (hparse : answers.parseServers = .ok document) (hvalid : document.validate = .ok ())
      (hmcp : host.mcp = some mcp) (hput : answers.putMcpDelivery = .ok ())
      (happly : answers.applyServers = .ok ())
  | settings {kind : String} {settings levers : Settings} {credential : Option String}
      {stored : ConfigHost} (hkind : payload.kind = some kind)
      (happly : (disposition kind).refusalReason = none)
      (hrunbook : kind ≠ kindRunbook) (hmcp : kind ≠ kindMcp)
      (hsplit : splitProviderContent payload.content = .ok (settings, credential))
      (hvalidated : host.control.validateAll settings = .ok levers)
      (hstored : host.storeDelivered credential answers = .ok stored)
      (hwritten : answers.writeSettings = .ok ())

variable {host : ConfigHost} {frame : Option ConfigApplyPayload} {payload : ConfigApplyPayload}
  {answers : ConfigAnswers}

/-- The version guard lets the delivery through. -/
def LetThrough (host : ConfigHost) (payload : ConfigApplyPayload) (answers : ConfigAnswers) :
    Prop :=
  (classifyDelivery (host.heldVersion answers payload.configurationId) payload.versionNumber
    payload.mode).changesHeldVersion = true

/-- A delivery takes effect, and its row is saved if it can be; or what took effect and the rows
stay the same. -/
inductive Takes (host : ConfigHost) (answers : ConfigAnswers) :
    Option ConfigApplyPayload → ConfigHost → Prop
  | nothing {frame : Option ConfigApplyPayload} {after : ConfigHost}
      (h : after.effective = host.effective) (hrows : after.managed = host.managed) :
      Takes host answers frame after
  | effect {payload : ConfigApplyPayload} {after : ConfigHost} (settings : Settings) (kind : String)
      (hguard : host.LetThrough payload answers) (hrest : host.Unhindered payload answers)
      (h : after.effective = host.effective ++
        [⟨payload.configurationId, payload.versionId, payload.versionNumber, settings⟩])
      (hrows : after.managed = if answers.managedSaved then
        Keyed.upsert ManagedConfiguration.configurationId
          ⟨payload.configurationId, kind, payload.versionId, payload.versionNumber,
            payload.contentHash, answers.now⟩ host.managed
        else host.managed) :
      Takes host answers (some payload) after

theorem Outcome.takes {outcome : ConfigResult × ConfigHost}
    (h : host.Outcome answers frame outcome) : host.Takes answers frame outcome.2 := by
  cases h with
  | refused result hresult => exact .nothing rfl rfl
  | persisted document reason => exact .nothing rfl rfl
  | runbook name text honoured htext hverdict =>
      exact .effect [] kindRunbook honoured.2.2 (.runbook honoured.1 htext hverdict) rfl rfl
  | servers mcp document honoured hmcp hparse hvalid hput happly =>
      exact .effect [] kindMcp honoured.2.2 (.servers honoured.1 hparse hvalid hmcp hput happly)
        rfl rfl
  | @settings payload kind settings levers credential stored passes hstored =>
      obtain ⟨hkind, happly, hguard⟩ := passes.honoured
      have hsame : stored.effective = host.effective := by rw [storeDelivered_eq_ok hstored]
      have hrows : stored.managed = host.managed := by rw [storeDelivered_eq_ok hstored]
      unfold writeSettings
      cases hwritten : answers.writeSettings with
      | error error => exact .nothing hsame hrows
      | ok u =>
          refine .effect settings kind hguard (.settings hkind happly passes.not_runbook
            passes.not_mcp passes.split passes.validated hstored hwritten) ?_ ?_
          · show stored.effective ++ _ = _
            rw [hsame]
          · rw [← hrows]
            rfl

/-- A delivery that is let through and is not hindered takes effect. -/
theorem effective_of_unhindered (hguard : host.LetThrough payload answers)
    (h : host.Unhindered payload answers) :
    ∃ settings, (host.applyConfiguration (some payload) answers).2.effective =
      host.effective ++
        [⟨payload.configurationId, payload.versionId, payload.versionNumber, settings⟩] := by
  cases h with
  | runbook hkind htext hverdict =>
      rw [applyConfiguration_of_honoured ⟨hkind, rfl, hguard⟩, if_pos rfl]
      simp only [applyRunbookDelivery, htext, hverdict]
      exact ⟨[], rfl⟩
  | servers hkind hparse hvalid hmcp hput happly =>
      rw [applyConfiguration_of_honoured ⟨hkind, rfl, hguard⟩, if_neg (by decide), if_pos rfl]
      simp only [applyMcpDelivery, hparse, hvalid, hmcp, hput, happly]
      exact ⟨[], rfl⟩
  | @settings kind settings levers credential stored hkind happly hrunbook hmcp hsplit hvalidated
      hstored hwritten =>
      have passes : host.Passes payload answers kind settings credential levers :=
        ⟨⟨hkind, happly, hguard⟩, hrunbook, hmcp, hsplit, hvalidated⟩
      rw [passes.applyConfiguration, hstored]
      simp only [writeSettings, hwritten]
      refine ⟨settings, ?_⟩
      show stored.effective ++ _ = _
      rw [storeDelivered_eq_ok hstored]

/-! ### Runs -/

/-- Of the deliveries of one configuration that took effect, each is newer than those before. -/
def Ascending (history : List Effective) : Prop :=
  history.Pairwise fun earlier later => earlier.configurationId = later.configurationId →
    earlier.versionNumber < later.versionNumber

/-- The frame is no rollback. -/
def Ordinary (_ : ConfigHost) (event : ConfigEvent) : Prop :=
  ∀ payload ∈ event.frame, payload.mode = .apply

/-- A delivery that is not newer than one that took effect meets a row, read back from the
repository, that is at least as new as the delivery; or it is refused for another reason. -/
def Remembered (host : ConfigHost) (event : ConfigEvent) : Prop :=
  ∀ payload ∈ event.frame, ∀ earlier ∈ host.effective,
    earlier.configurationId = payload.configurationId →
      payload.versionNumber ≤ earlier.versionNumber →
        payload.versionNumber ≤ host.heldVersion event.answers payload.configurationId ∨
          ¬ host.Unhindered payload event.answers

theorem letThrough_iff (hmode : payload.mode = .apply) : host.LetThrough payload answers ↔
    host.heldVersion answers payload.configurationId < payload.versionNumber := by
  unfold LetThrough classifyDelivery
  rw [hmode]
  by_cases hnewer : host.heldVersion answers payload.configurationId < payload.versionNumber
  · simp [hnewer, DeliveryDecision.changesHeldVersion]
  · simp [hnewer, DeliveryDecision.changesHeldVersion]

/-- One step keeps the order where the delivery is remembered. -/
theorem Ascending.step {event : ConfigEvent} (h : Ascending host.effective)
    (hordinary : host.Ordinary event) (hremembered : host.Remembered event) :
    Ascending (host.step event).effective := by
  obtain ⟨frame, answers⟩ := event
  have htakes := (host.applyConfiguration_outcome frame answers).takes
  unfold ConfigHost.step
  cases htakes with
  | nothing hsame => rwa [hsame]
  | @effect payload _ settings kind hguard hrest heffect =>
      rw [heffect]
      refine List.pairwise_append.mpr
        ⟨h, List.pairwise_singleton _ _, fun earlier hearlier _ hnew => ?_⟩
      obtain rfl := List.mem_singleton.mp hnew
      intro hid
      by_contra hstale
      have hnewer := (letThrough_iff (hordinary payload rfl)).mp hguard
      rcases hremembered payload rfl earlier hearlier hid (Int.not_lt.mp hstale) with hheld | hnot
      · exact absurd hnewer (Int.not_lt.mpr hheld)
      · exact hnot hrest

/-- No other step does. -/
theorem remembered_of_ascending {event : ConfigEvent} (hordinary : host.Ordinary event)
    (hnext : Ascending (host.step event).effective) : host.Remembered event := by
  obtain ⟨frame, answers⟩ := event
  intro payload hframe earlier hearlier hid hstale
  obtain rfl : frame = some payload := hframe
  by_contra hneither
  rw [not_or, Int.not_le, not_not] at hneither
  have hguard : host.LetThrough payload answers :=
    (letThrough_iff (hordinary payload rfl)).mpr hneither.1
  obtain ⟨settings, heffect⟩ := effective_of_unhindered hguard hneither.2
  rw [Ascending, ConfigHost.step, heffect, List.pairwise_append] at hnext
  have hnewer : earlier.versionNumber < payload.versionNumber :=
    hnext.2.2 earlier hearlier _ (List.mem_singleton.mpr rfl) hid
  exact absurd hnewer (Int.not_lt.mpr hstale)

/-- **Stale versions.** In a run of ordinary deliveries of any configurations, whatever reads and
saves fail, the versions of each configuration that take effect ascend all along, exactly when
every delivery that is not newer than one that took effect is remembered. -/
theorem versions_ascend_iff (host : ConfigHost) (hstart : host.effective = [])
    (events : List ConfigEvent) (hordinary : Machine.Every step Ordinary host events) :
    (∀ n, Ascending (Machine.run step host (events.take n)).effective) ↔
      Machine.Every step Remembered host events := by
  have hfirst : Ascending host.effective := by
    rw [hstart]
    exact List.Pairwise.nil
  exact hordinary.forall_take_iff (I := fun host => Ascending host.effective) hfirst
    (fun _ h => h) (fun _ _ h hmode hkept => h.step hmode hkept)
    fun _ _ _ hmode hnext => remembered_of_ascending hmode hnext

/-! ### Where every read and every save succeeds -/

/-- The rows are read and saved at the delivery. -/
def Kept (event : ConfigEvent) : Prop :=
  event.answers.readFails = false ∧ event.answers.managedSaved = true

/-- Each version that took effect has a row that is as new, or newer. -/
def Rows (host : ConfigHost) : Prop :=
  ∀ earlier ∈ host.effective, ∃ row,
    Keyed.lookup ManagedConfiguration.configurationId host.managed earlier.configurationId =
      some row ∧ earlier.versionNumber ≤ row.currentVersionNumber

theorem Rows.le_heldVersion (h : host.Rows) (hread : answers.readFails = false)
    {earlier : Effective} (hearlier : earlier ∈ host.effective) :
    earlier.versionNumber ≤ host.heldVersion answers earlier.configurationId := by
  obtain ⟨row, hrow, hle⟩ := h earlier hearlier
  simpa [heldVersion, hread, hrow] using hle

theorem Rows.remembered {event : ConfigEvent} (h : host.Rows) (hkept : Kept event) :
    host.Remembered event := by
  intro payload _ earlier hearlier hid hstale
  have hheld := h.le_heldVersion hkept.1 hearlier
  rw [hid] at hheld
  exact .inl (hstale.trans hheld)

theorem Rows.step {event : ConfigEvent} (h : host.Rows) (hordinary : host.Ordinary event)
    (hkept : Kept event) : (host.step event).Rows := by
  obtain ⟨frame, answers⟩ := event
  have htakes := (host.applyConfiguration_outcome frame answers).takes
  unfold ConfigHost.step
  cases htakes with
  | nothing hsame hrows =>
      unfold Rows
      rw [hsame, hrows]
      exact h
  | @effect payload _ settings kind hguard _ heffect hrows =>
      have hnewer := (letThrough_iff (hordinary payload rfl)).mp hguard
      rw [if_pos hkept.2] at hrows
      unfold Rows
      rw [heffect, hrows]
      intro earlier hearlier
      rw [Keyed.lookup_upsert]
      rcases List.mem_append.mp hearlier with hold | hnew
      · by_cases hid : payload.configurationId = earlier.configurationId
        · have hheld := h.le_heldVersion hkept.1 hold
          rw [← hid] at hheld
          exact ⟨_, if_pos hid, hheld.trans hnewer.le⟩
        · obtain ⟨row, hrow, hle⟩ := h earlier hold
          exact ⟨row, (if_neg hid).trans hrow, hle⟩
      · obtain rfl := List.mem_singleton.mp hnew
        exact ⟨_, if_pos rfl, le_rfl⟩

/-- Every delivery is remembered in a run in which the rows can be read and saved throughout. -/
theorem remembered_of_kept (host : ConfigHost) (hstart : host.effective = [])
    (events : List ConfigEvent) (hordinary : Machine.Every step Ordinary host events)
    (hkept : ∀ event ∈ events, Kept event) : Machine.Every step Remembered host events := by
  have hrows : host.Rows := by
    unfold Rows
    rw [hstart]
    simp
  exact (hordinary.and (Machine.every_events.mpr hkept)).of_invariant (I := Rows) hrows
    (fun _ _ h he => h.step he.1 he.2) fun _ _ h he => h.remembered he.2

/-! ### Out of order -/

/-- A version of one configuration, which sets the model. -/
def modelVersion (version : Int) (model : String) : ConfigApplyPayload :=
  ordinaryDelivery 1 version [("kind", .string "provider"), ("model", .string model)]

/-- The second version arrives before the first. -/
def outOfOrder : List ConfigEvent :=
  [⟨some (modelVersion 2 "large"), .willing⟩, ⟨some (modelVersion 1 "small"), .willing⟩]

/-- Out of order, and the stale version is held back. -/
theorem versions_ascend_iff_out_of_order :
    Ascending (Machine.run step fresh outOfOrder).effective := by
  refine (versions_ascend_iff fresh rfl outOfOrder ⟨?_, ?_, trivial⟩).mpr ⟨?_, ?_, trivial⟩ 2
  · rintro payload ⟨⟩
    rfl
  · rintro payload ⟨⟩
    rfl
  · intro payload _ earlier hearlier
    cases hearlier
  · rintro payload ⟨⟩ earlier _ _ _
    exact .inl (by decide)

/-- The stale version takes effect where the row cannot be read, and where it was not saved. -/
theorem stale_version_applied :
    ¬ Ascending (Machine.run step fresh
        [⟨some (modelVersion 2 "large"), .willing⟩,
          ⟨some (modelVersion 1 "small"),
            { ConfigAnswers.willing with readFails := true }⟩]).effective ∧
      ¬ Ascending (Machine.run step fresh
        [⟨some (modelVersion 2 "large"), { ConfigAnswers.willing with managedSaved := false }⟩,
          ⟨some (modelVersion 1 "small"), .willing⟩]).effective := by
  unfold Ascending
  decide

end ConfigHost

end Argus

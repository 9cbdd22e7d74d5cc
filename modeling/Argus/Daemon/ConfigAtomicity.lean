import Argus.Daemon.ConfigDelivery

/-!
# Deliveries that are not applied

Everything is decided before the first write, so a delivery that is refused changes nothing. The
two writes follow one another, and the first is not taken back where the second fails: the
credential of a delivery that is answered as failed may be in the store.
-/

namespace Argus

namespace ConfigHost

/-- The stored credential, the settings file, the levers and the held versions are the same. -/
structure Untouched (before after : ConfigHost) : Prop where
  credential : after.credential = before.credential
  settings : after.settings = before.settings
  control : after.control = before.control
  managed : after.managed = before.managed

/-- The delivery passes every check and carries a new credential that can be stored, and its
settings cannot be written. -/
def HalfApplied (host : ConfigHost) (frame : Option ConfigApplyPayload)
    (answers : ConfigAnswers) : Prop :=
  ∃ payload kind settings credential levers error, frame = some payload ∧
    host.Passes payload answers kind settings (some credential) levers ∧
    credential ≠ "" ∧ host.credential ≠ some credential ∧ answers.storeSecret = .ok () ∧
    answers.writeSettings = .error error

variable {host : ConfigHost} {frame : Option ConfigApplyPayload} {answers : ConfigAnswers}

theorem untouched_of_outcome {outcome : ConfigResult × ConfigHost}
    (h : host.Outcome answers frame outcome) (hhalf : ¬ host.HalfApplied frame answers)
    (hstatus : outcome.1.status ≠ .applied) : Untouched host outcome.2 := by
  cases h with
  | refused result hresult => exact ⟨rfl, rfl, rfl, rfl⟩
  | persisted document reason => exact ⟨rfl, rfl, rfl, rfl⟩
  | runbook name text honoured htext hverdict => exact absurd rfl hstatus
  | servers mcp document honoured hmcp hparse hvalid hput happly => exact absurd rfl hstatus
  | @settings payload kind settings levers credential stored passes hstored =>
      unfold writeSettings at hstatus ⊢
      cases hwrite : answers.writeSettings with
      | ok u =>
          rw [hwrite] at hstatus
          exact absurd rfl hstatus
      | error error =>
          obtain rfl := storeDelivered_eq_ok hstored
          refine ⟨?_, rfl, rfl, rfl⟩
          cases credential with
          | none => rfl
          | some credential =>
              obtain ⟨hempty, hsecret, -⟩ := storeProviderCredential_eq_ok_iff.mp hstored
              by_contra hnew
              exact hhalf ⟨payload, kind, settings, credential, levers, error, rfl, passes, hempty,
                fun hsame => hnew hsame.symm, hsecret, hwrite⟩

/-- **All or nothing.** A delivery that is not answered as applied leaves credential, settings,
levers and held versions as they were, exactly where it does not store a new credential and then
fail to write its settings. -/
theorem unapplied_untouched_iff (host : ConfigHost) (frame : Option ConfigApplyPayload)
    (answers : ConfigAnswers) :
    ((host.applyConfiguration frame answers).1.status ≠ .applied →
        Untouched host (host.applyConfiguration frame answers).2) ↔
      ¬ host.HalfApplied frame answers := by
  constructor
  · rintro huntouched ⟨payload, kind, settings, credential, levers, error, rfl, passes, hempty,
      hnew, hsecret, hwrite⟩
    have hstored : host.storeDelivered (some credential) answers =
        .ok { host with credential := some credential } :=
      storeProviderCredential_eq_ok_iff.mpr ⟨hempty, hsecret, rfl⟩
    rw [passes.applyConfiguration, hstored] at huntouched
    simp only [writeSettings, hwrite] at huntouched
    have hsame : some credential = host.credential :=
      (huntouched (by simp [failed])).credential
    exact hnew hsame.symm
  · exact untouched_of_outcome (host.applyConfiguration_outcome frame answers)

/-- A delivery of a token and a model. -/
def tokenDelivery : ConfigApplyPayload :=
  ordinaryDelivery 1 1
    [("api_token", .string "token"), ("kind", .string "provider"), ("model", .string "large")]

def diskFull : ConfigAnswers :=
  { ConfigAnswers.willing with
    writeSettings := .error "managed settings operation failed: no space left" }

/-- The delivery fails at the settings file, and its token stays in the secret store. -/
theorem failed_delivery_stores_token :
    ¬ ((fresh.applyConfiguration (some tokenDelivery) diskFull).1.status ≠ .applied →
      Untouched fresh (fresh.applyConfiguration (some tokenDelivery) diskFull).2) := by
  intro huntouched
  have hstatus : (fresh.applyConfiguration (some tokenDelivery) diskFull).1.status = .failed := by
    decide
  have hcredential : (fresh.applyConfiguration (some tokenDelivery) diskFull).2.credential =
      some "token" := by
    decide
  have hsame := (huntouched (by simp [hstatus])).credential
  rw [hcredential] at hsame
  cases hsame

end ConfigHost

end Argus

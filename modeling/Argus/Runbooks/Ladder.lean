import Argus.Lib.Machine
import Argus.Runbooks.Library

/-!
# The ladder, call by call

The three operations change a runbook in place, and may fail half-way. `recordGate` takes every
gate that is next, also the two that belong to `approve` and `promote`: then the gates go past the
status, and the last one may be recorded again and again.

`ladder_held_iff` says which sequences of calls leave the gates and the status in step.
-/

namespace Argus

/-- The operations on a runbook, in place: an error leaves what was done before it. -/
abbrev LadderM := ExceptT PromotionError (StateM LibraryRunbook)

namespace LadderM

def recordGate (gate : Gate) : LadderM Unit := do
  let r ← get
  let expected := (ladder[r.gates.length]?).getD .promotion
  if gate ≠ expected then throw (.gate .outOfOrder)
  set { r with gates := r.gates ++ [gate] }

def setStatus (status : RunbookStatus) : LadderM Unit :=
  modify fun r => { r with status }

def approve : LadderM Unit := do
  let r ← get
  if r.status ≠ .candidate then throw (.alreadyInStatus r.status)
  if !r.hasReached .policy then throw .notReadyForApproval
  recordGate .approval
  setStatus .approved

def promote : LadderM Unit := do
  let r ← get
  if r.status = .promoted then throw (.alreadyInStatus r.status)
  if r.status ≠ .approved then throw .notApproved
  recordGate .promotion
  setStatus .promoted

end LadderM

/-- A call on a runbook. -/
inductive LadderCall
  | recordGate (gate : Gate)
  | approve
  | promote

namespace LadderCall

/-- The result of the call, and the runbook it leaves. -/
def exec (call : LadderCall) (r : LibraryRunbook) :
    Except PromotionError Unit × LibraryRunbook :=
  match call with
  | recordGate gate => (LadderM.recordGate gate).run.run r
  | approve => LadderM.approve.run.run r
  | promote => LadderM.promote.run.run r

/-- The call as a function of the runbook. -/
def result (call : LadderCall) (r : LibraryRunbook) : Except PromotionError LibraryRunbook :=
  match call with
  | recordGate gate => (r.recordGate gate).mapError .gate
  | approve => r.approve
  | promote => r.promote

/-- What a call leaves where the function has this result. -/
def left (r : LibraryRunbook) :
    Except PromotionError LibraryRunbook → Except PromotionError Unit × LibraryRunbook
  | .ok r' => (.ok (), r')
  | .error error => (.error error, r)

theorem run_get_bind (act : LibraryRunbook → LadderM Unit) (r : LibraryRunbook) :
    (get >>= act).run.run r = (act r).run.run r := rfl

theorem recordGate_run (gate : Gate) (r : LibraryRunbook) :
    (LadderM.recordGate gate).run.run r = left r ((r.recordGate gate).mapError .gate) := by
  rw [LadderM.recordGate, run_get_bind, LibraryRunbook.recordGate]
  by_cases hgate : gate = (ladder[r.gates.length]?).getD .promotion
  · simp only [hgate, ne_eq, not_true_eq_false, if_false]
    rfl
  · simp only [hgate, ne_eq, not_false_eq_true, if_true]
    rfl

theorem recordGate_setStatus_run (gate : Gate) (status : RunbookStatus) (r : LibraryRunbook) :
    (do LadderM.recordGate gate; LadderM.setStatus status).run.run r =
      left r (match r.recordGate gate with
        | .error error => .error (.gate error)
        | .ok recorded => .ok { recorded with status }) := by
  have hgate : LadderM.recordGate gate r = left r ((r.recordGate gate).mapError .gate) :=
    recordGate_run gate r
  rw [ExceptT.run_bind, StateT.run_bind, ExceptT.run, StateT.run, hgate]
  cases r.recordGate gate <;> rfl

/-- A call in place is the function: what fails leaves the runbook as it was. -/
theorem exec_eq (call : LadderCall) (r : LibraryRunbook) :
    call.exec r = left r (call.result r) := by
  cases call with
  | recordGate gate => exact recordGate_run gate r
  | approve =>
      rw [exec, result, LadderM.approve, run_get_bind, LibraryRunbook.approve]
      by_cases hstatus : r.status = .candidate
      · rw [if_neg (not_not.mpr hstatus), if_neg (not_not.mpr hstatus)]
        cases r.hasReached .policy with
        | false => rfl
        | true => exact recordGate_setStatus_run .approval .approved r
      · rw [if_pos hstatus, if_pos hstatus]
        rfl
  | promote =>
      rw [exec, result, LadderM.promote, run_get_bind, LibraryRunbook.promote]
      by_cases hpromoted : r.status = .promoted
      · rw [if_pos hpromoted, if_pos hpromoted]
        rfl
      · rw [if_neg hpromoted, if_neg hpromoted]
        by_cases hstatus : r.status = .approved
        · rw [if_neg (not_not.mpr hstatus), if_neg (not_not.mpr hstatus)]
          exact recordGate_setStatus_run .promotion .promoted r
        · rw [if_pos hstatus, if_pos hstatus]
          rfl

/-- The runbook after the call. -/
def after (r : LibraryRunbook) (call : LadderCall) : LibraryRunbook := (call.exec r).2

theorem after_of_ok {call : LadderCall} {r r' : LibraryRunbook} (h : call.result r = .ok r') :
    after r call = r' := by
  rw [after, exec_eq, h, left]

theorem after_of_error {call : LadderCall} {r : LibraryRunbook} {error : PromotionError}
    (h : call.result r = .error error) : after r call = r := by
  rw [after, exec_eq, h, left]

/-- A failed call changes nothing. -/
theorem unchanged_of_error {call : LadderCall} {r : LibraryRunbook} {error : PromotionError}
    (h : (call.exec r).1 = .error error) : (call.exec r).2 = r := by
  rw [exec_eq] at h ⊢
  cases hresult : call.result r with
  | error e => rfl
  | ok r' => simp [hresult, left] at h

/-- The gate is for `recordGate` to record: the operator's two are left to `approve` and
`promote`. -/
def InTurn (r : LibraryRunbook) : LadderCall → Prop
  | recordGate .approval => r.gates.length ≠ 4
  | recordGate .promotion => r.gates.length < 5
  | _ => True

end LadderCall

namespace LibraryRunbook

/-- The gates are the first ones of the ladder, each once, and the status says how many. -/
structure OnLadder (r : LibraryRunbook) : Prop where
  gates : r.gates <+: ladder
  nodup : r.gates.Nodup
  approved : r.status = .approved ↔ r.gates.length = 5
  promoted : r.status = .promoted ↔ r.gates.length = 6

theorem laddered_fromCandidate (id : Nat) (name : String) (trigger : RunbookTrigger)
    (allowed rollback : List CapabilityId) :
    (fromCandidate id name trigger allowed rollback).Laddered := ⟨0, rfl, rfl⟩

variable {r : LibraryRunbook} {call : LadderCall}

theorem onLadder_iff : r.OnLadder ↔ r.Laddered := by
  constructor
  · intro h
    have hlength : r.gates.length < 7 := Nat.lt_succ_of_le h.gates.length_le
    have hstatus : ∀ (n : Fin 7) (status : RunbookStatus), (status = .approved ↔ n.val = 5) →
        (status = .promoted ↔ n.val = 6) → status = statusAfter n := by
      intro n status
      cases status <;> revert n <;> decide
    exact ⟨⟨r.gates.length, hlength⟩, List.prefix_iff_eq_take.mp h.gates,
      hstatus ⟨r.gates.length, hlength⟩ r.status h.approved h.promoted⟩
  · rintro ⟨n, hgates, hstatus⟩
    have hfacts : ∀ n : Fin 7, (ladder.take n).Nodup ∧
        (statusAfter n = .approved ↔ (ladder.take n).length = 5) ∧
        (statusAfter n = .promoted ↔ (ladder.take n).length = 6) := by decide
    obtain ⟨hnodup, happroved, hpromoted⟩ := hfacts n
    exact ⟨hgates ▸ List.take_prefix _ _, hgates ▸ hnodup, by rw [hgates, hstatus, happroved],
      by rw [hgates, hstatus, hpromoted]⟩

/-- A call that records a gate in its turn climbs, or fails and leaves the runbook. -/
theorem Laddered.after (h : r.Laddered) (hturn : call.InTurn r) :
    (LadderCall.after r call).Laddered := by
  cases hresult : call.result r with
  | error error => rwa [LadderCall.after_of_error hresult]
  | ok r' =>
      rw [LadderCall.after_of_ok hresult]
      cases call with
      | approve => exact (climbs_of_approve hresult).laddered h
      | promote => exact (climbs_of_promote hresult).laddered h
      | recordGate gate =>
          have hrecord : r.recordGate gate = .ok r' := by
            cases hgate : r.recordGate gate with
            | error error => simp [LadderCall.result, hgate, Except.mapError] at hresult
            | ok recorded => simpa [LadderCall.result, hgate, Except.mapError] using hresult
          obtain ⟨hgate, rfl⟩ := recordGate_eq_ok_iff.mp hrecord
          have ⟨n, hgates, _⟩ := h
          rw [hgates] at hgate
          cases gate with
          | approval =>
              have hfour : ∀ n : Fin 7,
                  .approval = (ladder[(ladder.take n).length]?).getD .promotion →
                    (ladder.take n).length = 4 := by decide
              exact absurd (by rw [hgates, hfour n hgate]) hturn
          | promotion =>
              have hfive : ∀ n : Fin 7,
                  .promotion = (ladder[(ladder.take n).length]?).getD .promotion →
                    5 ≤ (ladder.take n).length := by decide
              have hlt : r.gates.length < 5 := hturn
              exact absurd (hfive n hgate) (by rw [← hgates]; omega)
          | _ => exact (climbs_of_recordGate (by decide) (by decide) hrecord).laddered h

/-- A gate recorded out of turn leaves the ladder. -/
theorem OnLadder.inTurn (h : r.OnLadder) (hafter : (LadderCall.after r call).OnLadder) :
    call.InTurn r := by
  cases call with
  | approve => trivial
  | promote => trivial
  | recordGate gate =>
      have hrecorded (hgate : gate = (ladder[r.gates.length]?).getD .promotion) :
          LadderCall.after r (.recordGate gate) = { r with gates := r.gates ++ [gate] } :=
        LadderCall.after_of_ok (by
          simp [LadderCall.result, recordGate_eq_ok_iff.mpr ⟨hgate, rfl⟩, Except.mapError])
      cases gate with
      | approval =>
          intro hfour
          rw [hrecorded (by rw [hfour]; rfl)] at hafter
          have happroved : r.status = .approved := hafter.approved.mpr (by simp [hfour])
          have := h.approved.mp happroved
          omega
      | promotion =>
          refine Nat.lt_of_not_le fun hfive => ?_
          have hsix : r.gates.length ≤ 6 := h.gates.length_le
          have hnext : .promotion = (ladder[r.gates.length]?).getD .promotion := by
            obtain hlength | hlength : r.gates.length = 5 ∨ r.gates.length = 6 := by omega
            · simp [hlength, ladder]
            · simp [hlength, ladder]
          rw [hrecorded hnext] at hafter
          have hrecordedLe := hafter.gates.length_le
          have hlength : r.gates.length = 5 := by
            simp [ladder] at hrecordedLe
            omega
          have hpromoted : r.status = .promoted := hafter.promoted.mpr (by simp [hlength])
          have := h.promoted.mp hpromoted
          omega
      | _ => trivial

end LibraryRunbook

/-! ### The gates a document declares -/

variable {r : LibraryRunbook} {gates : List Gate}

/-- A declared gate is passed exactly where it is the next of the ladder. -/
theorem replayGate_ok_iff (h : r.Laddered) (gate : Gate) :
    (∃ r', replayGate r gate = .ok r') ↔ r.gates ++ [gate] <+: ladder := by
  constructor
  · rintro ⟨r', hr'⟩
    have hclimbs := climbs_of_replayGate hr'
    obtain ⟨n, hgates, -⟩ := hclimbs.laddered h
    rw [← hclimbs.gates, hgates]
    exact List.take_prefix _ _
  · obtain ⟨n, hgates, hstatus⟩ := h
    intro hfirst
    have hnext : gate = (ladder[r.gates.length]?).getD .promotion := by
      obtain ⟨rest, hrest⟩ := hfirst
      simp [← hrest]
    have hrecord := LibraryRunbook.recordGate_eq_ok_iff.mpr ⟨hnext, rfl⟩
    rw [hgates] at hfirst
    cases gate with
    | approval =>
        have hfour : ∀ n : Fin 7, ladder.take n ++ [.approval] <+: ladder → n = 4 := by decide
        obtain rfl := hfour n hfirst
        have hreached : r.hasReached .policy = true := by
          simp [LibraryRunbook.hasReached, hgates, ladder]
        simp [replayGate, LibraryRunbook.approve, hstatus, statusAfter, hreached, hrecord,
          Except.mapError]
    | promotion =>
        have hfive : ∀ n : Fin 7, ladder.take n ++ [.promotion] <+: ladder → n = 5 := by decide
        obtain rfl := hfive n hfirst
        simp [replayGate, LibraryRunbook.promote, hstatus, statusAfter, hrecord, Except.mapError]
    | _ => simp [replayGate, hrecord, Except.mapError]

theorem replay_ok_iff (h : r.Laddered) :
    (∃ r', gates.foldlM replayGate r = .ok r') ↔ r.gates ++ gates <+: ladder := by
  induction gates generalizing r with
  | nil =>
      obtain ⟨n, hgates, -⟩ := h
      simp only [List.append_nil, hgates]
      exact ⟨fun _ => List.take_prefix _ _, fun _ => ⟨r, rfl⟩⟩
  | cons gate gates ih =>
      rw [List.foldlM_cons, List.append_cons]
      cases hgate : replayGate r gate with
      | error e =>
          have hnot := (replayGate_ok_iff h gate).not.mp (by simp [hgate])
          refine iff_of_false (by rintro ⟨r', hr'⟩; cases hr') fun hall => hnot ?_
          exact (List.prefix_append _ gates).trans hall
      | ok next =>
          have hclimbs := climbs_of_replayGate hgate
          rw [← hclimbs.gates]
          exact ih (hclimbs.laddered h)

/-- A document is read exactly where its gates are the first of the ladder. -/
theorem parseRunbook_ok_iff (id : Nat) (file : RunbookFile) :
    (∃ r, parseRunbook id (.ok file) = .ok r) ↔
      (∃ r, parseRunbook id (.ok { file with gates := [] }) = .ok r) ∧ file.gates <+: ladder := by
  simp only [parseRunbook]
  by_cases hname : (trim file.name).isEmpty = true
  · simp [hname]
  · simp only [hname]
    cases file.allowedActions.mapM parseCapability with
    | error e => exact iff_of_false (by rintro ⟨r, h⟩; cases h) (by rintro ⟨⟨r, h⟩, -⟩; cases h)
    | ok allowed =>
        cases file.rollback.mapM parseCapability with
        | error e => exact iff_of_false (by rintro ⟨r, h⟩; cases h) (by rintro ⟨⟨r, h⟩, -⟩; cases h)
        | ok rollback =>
            have hcandidate := LibraryRunbook.laddered_fromCandidate id file.name file.trigger
              allowed rollback
            exact (replay_ok_iff hcandidate).trans (iff_and_self.mpr fun _ => ⟨_, rfl⟩)

/-- From a candidate, the gates and the status stay in step exactly as long as no call records a
gate out of its turn. -/
theorem ladder_held_iff (id : Nat) (name : String) (trigger : RunbookTrigger)
    (allowed rollback : List CapabilityId) (calls : List LadderCall) :
    ((∀ n, (Machine.run LadderCall.after (.fromCandidate id name trigger allowed rollback)
        (calls.take n)).OnLadder) ↔
      Machine.Every LadderCall.after LadderCall.InTurn
        (.fromCandidate id name trigger allowed rollback) calls) ∧
      (∀ call r error, (LadderCall.exec call r).1 = .error error → (call.exec r).2 = r) ∧
      ∀ id file, (∃ r, parseRunbook id (.ok file) = .ok r) ↔
        (∃ r, parseRunbook id (.ok { file with gates := [] }) = .ok r) ∧
          file.gates <+: ladder := by
  refine ⟨?_, fun _ _ _ => LadderCall.unchanged_of_error, parseRunbook_ok_iff⟩
  exact Machine.forall_take_iff_every
    (LibraryRunbook.laddered_fromCandidate id name trigger allowed rollback)
    (fun _ h => LibraryRunbook.onLadder_iff.mpr h) (fun _ _ h hturn => h.after hturn)
    fun _ _ h hafter => h.inTurn hafter

/-- Five gates recorded one by one leave a candidate that carries the approval. -/
theorem gate_recorded_by_hand : ¬ ∀ n, (Machine.run LadderCall.after
    (.fromCandidate 0 "learned-procedure" (.symptom "disk-pressure") [] [])
    (([.evaluation, .simulation, .validation, .policy, .approval].map
      LadderCall.recordGate).take n)).OnLadder := by
  intro h
  have happroved := (h 5).approved.mpr rfl
  cases happroved

end Argus

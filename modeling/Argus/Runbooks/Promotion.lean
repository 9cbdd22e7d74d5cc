import Argus.Daemon.Situation

/-!
# The promotion ladder

A runbook passes six gates one at a time, in their order. The operator's approval and promotion
record the last two and move the status; nothing else moves it.
-/

namespace Argus

/-- The six gates, in the order they must be passed. -/
inductive Gate
  | evaluation
  | simulation
  | validation
  | policy
  | approval
  | promotion
  deriving DecidableEq, Repr

/-- The ordered ladder: a gate requires those before it. -/
def ladder : List Gate := [.evaluation, .simulation, .validation, .policy, .approval, .promotion]

inductive GateError
  | outOfOrder
  | prerequisitesMissing
  deriving DecidableEq

def GateError.message : GateError → String
  | outOfOrder =>
      "gate must be passed in order: evaluation, simulation, validation, policy, approval, " ++
        "promotion"
  | prerequisitesMissing => "prerequisite gates have not been passed yet"

/-- The status's name as the source prints it. -/
def RunbookStatus.debug : RunbookStatus → String
  | candidate => "Candidate"
  | approved => "Approved"
  | promoted => "Promoted"

inductive PromotionError
  | notReadyForApproval
  | notApproved
  | alreadyInStatus (status : RunbookStatus)
  | gate (error : GateError)
  deriving DecidableEq

def PromotionError.message : PromotionError → String
  | notReadyForApproval =>
      "approval requires the evaluation, simulation, validation, and policy gates"
  | notApproved => "promotion requires operator approval first"
  | alreadyInStatus status => "the runbook is already " ++ status.debug
  | gate error => error.message

deriving instance DecidableEq for Runbook

/-- A runbook as the library holds it: the procedure, its identity, and the gates it passed. The
identity is minted when the runbook is parsed. -/
structure LibraryRunbook extends Runbook where
  id : Nat
  gates : List Gate
  deriving DecidableEq

namespace LibraryRunbook

/-- A runbook with no gates and no history: every one starts here. -/
def fromCandidate (id : Nat) (name : String) (trigger : RunbookTrigger)
    (allowedActions rollback : List CapabilityId) : LibraryRunbook where
  id := id
  name := name
  trigger := trigger
  allowedActions := allowedActions
  rollback := rollback
  status := .candidate
  gates := []
  attempts := 0
  successes := 0

/-- Records that `gate` was passed, enforcing the ladder's order. -/
def recordGate (r : LibraryRunbook) (gate : Gate) : Except GateError LibraryRunbook :=
  let expected := (ladder[r.gates.length]?).getD .promotion
  if gate ≠ expected then .error .outOfOrder else .ok { r with gates := r.gates ++ [gate] }

/-- Whether every gate before `gate` was passed; the gate itself need not be. -/
def hasReached (r : LibraryRunbook) (gate : Gate) : Bool :=
  decide (ladder.idxOf gate ≤ r.gates.length)

/-- The operator's approval: a candidate becomes approved. -/
def approve (r : LibraryRunbook) : Except PromotionError LibraryRunbook :=
  if r.status ≠ .candidate then .error (.alreadyInStatus r.status)
  else if !r.hasReached .policy then .error .notReadyForApproval
  else
    match r.recordGate .approval with
    | .error error => .error (.gate error)
    | .ok recorded => .ok { recorded with status := .approved }

/-- The promotion: an approved runbook drives procedures. -/
def promote (r : LibraryRunbook) : Except PromotionError LibraryRunbook :=
  if r.status = .promoted then .error (.alreadyInStatus r.status)
  else if r.status ≠ .approved then .error .notApproved
  else
    match r.recordGate .promotion with
    | .error error => .error (.gate error)
    | .ok recorded => .ok { recorded with status := .promoted }

/-- Records one full run of the procedure. The counters have 32 bits. -/
def recordOutcome (r : LibraryRunbook) (success : Bool) : LibraryRunbook :=
  { r with
    attempts := (r.attempts + 1) % 2 ^ 32
    successes := if success then (r.successes + 1) % 2 ^ 32 else r.successes }

end LibraryRunbook

/-! ### What the ladder keeps -/

/-- The status after so many gates. -/
def statusAfter : Nat → RunbookStatus
  | 5 => .approved
  | 6 => .promoted
  | _ => .candidate

namespace LibraryRunbook

variable {r r' : LibraryRunbook} {gate : Gate}

/-- The gates are the first ones of the ladder, and the status is theirs. -/
def Laddered (r : LibraryRunbook) : Prop :=
  ∃ n : Fin 7, r.gates = ladder.take n ∧ r.status = statusAfter n

/-- One gate more, and nothing else of the procedure moved. -/
structure Climbs (r : LibraryRunbook) (gate : Gate) (r' : LibraryRunbook) : Prop where
  id : r'.id = r.id
  name : r'.name = r.name
  gates : r'.gates = r.gates ++ [gate]
  attempts : r'.attempts = r.attempts
  successes : r'.successes = r.successes
  laddered : r.Laddered → r'.Laddered

theorem recordGate_eq_ok_iff : r.recordGate gate = .ok r' ↔
    gate = (ladder[r.gates.length]?).getD .promotion ∧
      r' = { r with gates := r.gates ++ [gate] } := by
  unfold recordGate
  by_cases hg : gate = (ladder[r.gates.length]?).getD .promotion
  · simp [← hg, eq_comm]
  · simp [hg]

/-- The next technical gate leaves a candidate a candidate. -/
theorem climbs_of_recordGate (hap : gate ≠ .approval) (hpr : gate ≠ .promotion)
    (h : r.recordGate gate = .ok r') : r.Climbs gate r' := by
  obtain ⟨hgate, rfl⟩ := recordGate_eq_ok_iff.mp h
  refine ⟨rfl, rfl, rfl, rfl, rfl, ?_⟩
  rintro ⟨n, hgates, hstatus⟩
  have hnext : ∀ n : Fin 7, (ladder[(ladder.take n).length]?).getD .promotion ≠ .approval →
      (ladder[(ladder.take n).length]?).getD .promotion ≠ .promotion →
      ∃ m : Fin 7, ladder.take n ++ [(ladder[(ladder.take n).length]?).getD .promotion] =
        ladder.take m ∧ statusAfter n = statusAfter m := by decide
  rw [hgates] at hgate
  obtain ⟨m, htake, hm⟩ := hnext n (hgate ▸ hap) (hgate ▸ hpr)
  exact ⟨m, by rw [← htake, ← hgate, hgates], hstatus.trans hm⟩

theorem climbs_of_approve (h : r.approve = .ok r') : r.Climbs .approval r' := by
  unfold approve at h
  by_cases hstatus : r.status = .candidate
  · cases hreached : r.hasReached .policy with
    | false => simp [hstatus, hreached] at h
    | true =>
        cases hrecord : r.recordGate .approval with
        | error error => simp [hstatus, hreached, hrecord] at h
        | ok recorded =>
            obtain ⟨hgate, rfl⟩ := recordGate_eq_ok_iff.mp hrecord
            obtain rfl : { r with gates := r.gates ++ [.approval], status := .approved } = r' := by
              simpa [hstatus, hreached, hrecord] using h
            refine ⟨rfl, rfl, rfl, rfl, rfl, ?_⟩
            rintro ⟨n, hgates, -⟩
            have hfour : ∀ n : Fin 7,
                .approval = (ladder[(ladder.take n).length]?).getD .promotion → n = 4 := by decide
            obtain rfl := hfour n (hgates ▸ hgate)
            exact ⟨5, by rw [hgates]; rfl, rfl⟩
  · simp [hstatus] at h

theorem climbs_of_promote (h : r.promote = .ok r') : r.Climbs .promotion r' := by
  unfold promote at h
  by_cases hstatus : r.status = .approved
  · cases hrecord : r.recordGate .promotion with
    | error error => simp [hstatus, hrecord] at h
    | ok recorded =>
        obtain ⟨-, rfl⟩ := recordGate_eq_ok_iff.mp hrecord
        obtain rfl : { r with gates := r.gates ++ [.promotion], status := .promoted } = r' := by
          simpa [hstatus, hrecord] using h
        refine ⟨rfl, rfl, rfl, rfl, rfl, ?_⟩
        rintro ⟨n, hgates, hn⟩
        have hfive : ∀ n : Fin 7, .approved = statusAfter n → n = 5 := by decide
        obtain rfl := hfive n (hstatus.symm.trans hn)
        exact ⟨6, by rw [hgates]; rfl, rfl⟩
  · by_cases hpromoted : r.status = .promoted
    · simp [hpromoted] at h
    · simp [hstatus, hpromoted] at h

/-- A runbook is promoted with all six gates, in the order of the ladder. -/
theorem Laddered.gates_of_promoted (h : r.Laddered) (hstatus : r.status = .promoted) :
    r.gates = ladder := by
  obtain ⟨n, hgates, hn⟩ := h
  have hsix : ∀ n : Fin 7, .promoted = statusAfter n → n = 6 := by decide
  obtain rfl := hsix n (hstatus.symm.trans hn)
  exact hgates

end LibraryRunbook

end Argus

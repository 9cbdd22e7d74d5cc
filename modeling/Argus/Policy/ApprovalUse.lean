import Argus.Lib.Machine
import Argus.Policy.Approval

/-!
# Approvals over sequences of operations

The store keeps one decision per token. A consumption that succeeds finds a grant that was
given for the token before, and since then nobody decided about the token, revoked it, or
consumed it (`Standing`). So each grant is used at most once (`approvals_single_use`).
-/

namespace Argus

/-- An operation on the store. -/
inductive ApprovalOp
  | grant (approval : ExecutionApproval)
  | grantFor (token : Uuid) (contextHash grantedBy : String) (grantedAt expiresAt : DateTime)
  | grantForAWhile (token : Uuid) (contextHash grantedBy : String) (now : DateTime)
      (ttl : Duration)
  | deny (token : Uuid) (contextHash grantedBy : String) (now : DateTime)
  | revoke (token : Uuid)
  | consume (token : Uuid) (contextHash : String) (now : DateTime)
  | get (token : Uuid)

namespace ApprovalOp

/-- The token an operation is about. -/
def token : ApprovalOp → Uuid
  | grant approval => approval.token
  | grantFor token _ _ _ _ | grantForAWhile token _ _ _ _ | deny token _ _ _ | revoke token
  | consume token _ _ | get token => token

/-- The decision an operation records. -/
def recorded : ApprovalOp → Option ExecutionApproval
  | grant approval => some approval
  | grantFor token contextHash grantedBy grantedAt expiresAt =>
      some ⟨token, contextHash, grantedBy, grantedAt, expiresAt, .granted⟩
  | grantForAWhile token contextHash grantedBy now ttl =>
      some ⟨token, contextHash, grantedBy, now, now.add ttl, .granted⟩
  | deny token contextHash grantedBy now => some ⟨token, contextHash, grantedBy, now, now, .denied⟩
  | revoke _ | consume _ _ _ | get _ => none

/-- The operation decides about its token, or revokes what was decided. -/
def Decides : ApprovalOp → Prop
  | grant _ | grantFor _ _ _ _ _ | grantForAWhile _ _ _ _ _ | deny _ _ _ _ | revoke _ => True
  | consume _ _ _ | get _ => False

end ApprovalOp

namespace ApprovalStore

def apply (store : ApprovalStore) : ApprovalOp → ApprovalStore
  | .grant approval => store.grant approval
  | .grantFor token contextHash grantedBy grantedAt expiresAt =>
      store.grantFor token contextHash grantedBy grantedAt expiresAt
  | .grantForAWhile token contextHash grantedBy now ttl =>
      store.grantForAWhile token contextHash grantedBy now ttl
  | .deny token contextHash grantedBy now => store.deny token contextHash grantedBy now
  | .revoke token => store.revoke token
  | .consume token contextHash now => (store.consume token contextHash now).2
  | .get _ => store

/-- The approval a consumption takes. -/
def taken (store : ApprovalStore) : ApprovalOp → Option ExecutionApproval
  | .consume token contextHash now => (store.consume token contextHash now).1
  | _ => none

/-- The store the `n`-th operation finds. -/
def storeAt (ops : List ApprovalOp) (n : Nat) : ApprovalStore :=
  Machine.run apply empty (ops.take n)

/-- The `j`-th operation takes an approval. -/
def takenAt (ops : List ApprovalOp) (j : Nat) : Option ExecutionApproval :=
  ops[j]?.bind (storeAt ops j).taken

variable {store : ApprovalStore} {op : ApprovalOp} {ops : List ApprovalOp} {token : Uuid}
  {approval : ExecutionApproval} {i j n : Nat}

/-! ### One operation -/

theorem get_grant (approval : ExecutionApproval) (token : Uuid) :
    (store.grant approval).get token =
      if token = approval.token then some approval else store.get token := by
  simp only [get, grant, Function.update_apply]

theorem get_revoke (other token : Uuid) :
    (store.revoke other).get token = if token = other then none else store.get token := by
  simp only [get, revoke, Function.update_apply]

/-- A consumption that takes nothing leaves the store as it was. -/
theorem apply_of_taken_none {contextHash : String} {now : DateTime}
    (h : store.taken (.consume token contextHash now) = none) :
    store.apply (.consume token contextHash now) = store := by
  simp only [taken, apply, consume] at h ⊢
  split at h
  · split_ifs at h ⊢
    rfl
  · rfl

/-- What a consumption took was stored, and authorized it. It is forgotten. -/
theorem taken_inv (h : store.taken op = some approval) :
    ∃ contextHash now, op = .consume op.token contextHash now ∧
      store.get op.token = some approval ∧
      approval.authorizes op.token contextHash now = true ∧
      store.apply op = store.revoke op.token := by
  cases op with
  | consume token contextHash now =>
      obtain ⟨hstored, hauthorizes, hrest⟩ := consume_inv (Prod.ext h rfl :
        store.consume token contextHash now = (some approval, _))
      exact ⟨contextHash, now, rfl, hstored, hauthorizes, hrest⟩
  | _ => cases h

/-- An operation touches its own token only. -/
theorem get_apply_of_ne (h : op.token ≠ token) : (store.apply op).get token = store.get token := by
  have hne : token ≠ op.token := h.symm
  cases op with
  | consume other contextHash now =>
      cases htaken : store.taken (.consume other contextHash now) with
      | none => rw [apply_of_taken_none htaken]
      | some approval =>
          obtain ⟨-, -, -, -, -, hrest⟩ := taken_inv htaken
          rw [hrest, get_revoke, if_neg hne]
  | revoke other => exact (get_revoke other token).trans (if_neg hne)
  | get other => rfl
  | _ => exact (get_grant _ token).trans (if_neg hne)

/-- The decision stored after an operation is the one it recorded, or was there before. -/
theorem get_apply (h : (store.apply op).get token = some approval) :
    (op.recorded = some approval ∧ op.token = token ∧ op.Decides) ∨
      (store.get token = some approval ∧
        ¬ (op.token = token ∧ (op.Decides ∨ (store.taken op).isSome = true))) := by
  by_cases htoken : op.token = token
  · subst htoken
    cases op with
    | consume other contextHash now =>
        cases htaken : store.taken (.consume other contextHash now) with
        | none =>
            rw [apply_of_taken_none htaken] at h
            exact .inr ⟨h, by simp [ApprovalOp.Decides]⟩
        | some approval =>
            obtain ⟨-, -, -, -, -, hrest⟩ := taken_inv htaken
            rw [hrest, get_revoke, if_pos rfl] at h
            cases h
    | revoke other =>
        have hnone := (get_revoke other other).symm.trans h
        rw [if_pos rfl] at hnone
        cases hnone
    | get other => exact .inr ⟨h, by simp [ApprovalOp.Decides, taken]⟩
    | _ => exact .inl ⟨((get_grant _ _).trans (if_pos rfl)).symm.trans h, rfl, trivial⟩
  · rw [get_apply_of_ne htoken] at h
    exact .inr ⟨h, fun hop => htoken hop.1⟩

/-- What an operation makes of its token depends on that token alone. -/
theorem get_apply_congr {store' : ApprovalStore} (h : store.get token = store'.get token)
    (htoken : op.token = token) :
    (store.apply op).get token = (store'.apply op).get token ∧
      store.taken op = store'.taken op := by
  subst htoken
  cases op with
  | consume other contextHash now =>
      simp only [ApprovalOp.token] at h ⊢
      simp only [apply, taken, consume, h]
      split
      · split_ifs <;> simp [get_revoke, h]
      · exact ⟨h, rfl⟩
  | revoke other => exact ⟨by simp [apply, get_revoke, ApprovalOp.token], rfl⟩
  | get other => exact ⟨h, rfl⟩
  | _ =>
      refine ⟨((get_grant _ _).trans (if_pos rfl)).trans ?_, rfl⟩
      exact ((get_grant _ _).trans (if_pos rfl)).symm

/-! ### Sequences -/

theorem storeAt_succ (h : ops[n]? = some op) : storeAt ops (n + 1) = (storeAt ops n).apply op := by
  simp [storeAt, List.take_add_one, h]

theorem storeAt_succ_of_none (h : ops[n]? = none) : storeAt ops (n + 1) = storeAt ops n := by
  simp [storeAt, List.take_add_one, h]

theorem takenAt_eq (h : ops[n]? = some op) : takenAt ops n = (storeAt ops n).taken op := by
  simp [takenAt, h]

/-- The decision that the `n`-th operation finds about a token was recorded by the `i`-th, and
between them nobody decided about the token or consumed it. -/
structure Standing (ops : List ApprovalOp) (n i : Nat) (token : Uuid)
    (approval : ExecutionApproval) : Prop where
  before : i < n
  recorded : ∃ op, ops[i]? = some op ∧ op.recorded = some approval ∧ op.token = token
  untouched : ∀ k, i < k → k < n → ∀ op, ops[k]? = some op → op.token = token →
    ¬ op.Decides ∧ takenAt ops k = none

theorem standing (h : (storeAt ops n).get token = some approval) :
    ∃ i, Standing ops n i token approval := by
  induction n generalizing approval with
  | zero => cases h
  | succ n ih =>
      cases hop : ops[n]? with
      | none =>
          rw [storeAt_succ_of_none hop] at h
          obtain ⟨i, hi⟩ := ih h
          refine ⟨i, Nat.lt_succ_of_lt hi.before, hi.recorded, ?_⟩
          intro k hik hk op hk' htoken
          rcases Nat.lt_succ_iff_lt_or_eq.mp hk with hlt | rfl
          · exact hi.untouched k hik hlt op hk' htoken
          · rw [hop] at hk'
            cases hk'
      | some op =>
          rw [storeAt_succ hop] at h
          rcases get_apply h with ⟨hrecorded, htoken, -⟩ | ⟨hbefore, hkept⟩
          · refine ⟨n, Nat.lt_succ_self n, ⟨op, hop, hrecorded, htoken⟩, ?_⟩
            intro k hnk hk
            omega
          · obtain ⟨i, hi⟩ := ih hbefore
            refine ⟨i, Nat.lt_succ_of_lt hi.before, hi.recorded, ?_⟩
            intro k hik hk op' hk' htoken
            rcases Nat.lt_succ_iff_lt_or_eq.mp hk with hlt | rfl
            · exact hi.untouched k hik hlt op' hk' htoken
            · obtain rfl : op = op' := by simpa [hop] using hk'
              rw [takenAt_eq hop]
              refine ⟨fun hdecides => hkept ⟨htoken, .inl hdecides⟩, ?_⟩
              rw [← Option.not_isSome_iff_eq_none]
              exact fun htaken => hkept ⟨htoken, .inr htaken⟩

/-- The `j`-th operation consumes what the `i`-th recorded. -/
def Uses (ops : List ApprovalOp) (i j : Nat) : Prop :=
  ∃ token contextHash now approval, ops[j]? = some (.consume token contextHash now) ∧
    takenAt ops j = some approval ∧ Standing ops j i token approval

/-- What is promised of a sequence of operations. -/
structure SingleUse (ops : List ApprovalOp) : Prop where
  /-- What is consumed was granted for this token and this hash, has not expired, and was
  neither replaced, denied, revoked nor consumed since. -/
  granted : ∀ j approval, takenAt ops j = some approval →
    ∃ i contextHash now, ops[j]? = some (.consume approval.token contextHash now) ∧
      Standing ops j i approval.token approval ∧ approval.state = .granted ∧
      approval.contextHash = contextHash ∧ now.before approval.expiresAt = true
  /-- No grant is consumed twice. -/
  once : ∀ i j j', Uses ops i j → Uses ops i j' → j = j'
  /-- A consumption that fails leaves the store unchanged. -/
  failed : ∀ j token contextHash now, ops[j]? = some (.consume token contextHash now) →
    takenAt ops j = none → storeAt ops (j + 1) = storeAt ops j
  /-- What is decided about a token depends on the operations on that token. -/
  frame : ∀ token, (Machine.run apply empty ops).get token =
    (Machine.run apply empty (ops.filter fun op => op.token == token)).get token

theorem taken_standing (h : takenAt ops j = some approval) :
    ∃ i contextHash now, ops[j]? = some (.consume approval.token contextHash now) ∧
      Standing ops j i approval.token approval ∧
      approval.authorizes approval.token contextHash now = true := by
  cases hop : ops[j]? with
  | none => simp [takenAt, hop] at h
  | some op =>
      rw [takenAt_eq hop] at h
      obtain ⟨contextHash, now, hconsume, hstored, hauthorizes, -⟩ := taken_inv h
      have htoken : approval.token = op.token := by
        simp only [ExecutionApproval.authorizes, Bool.and_eq_true, beq_iff_eq] at hauthorizes
        exact hauthorizes.1.1.2
      rw [htoken]
      obtain ⟨i, hi⟩ := standing hstored
      exact ⟨i, contextHash, now, by rw [← hconsume], hi, hauthorizes⟩

/-- Two consumptions cannot find the same decision: the first is in the way of the second. -/
theorem Uses.not_lt {j' : Nat} (h : Uses ops i j) (h' : Uses ops i j') : ¬ j < j' := by
  intro hlt
  obtain ⟨token, contextHash, now, approval, hop, htaken, hstanding⟩ := h
  obtain ⟨token', -, -, approval', -, -, hstanding'⟩ := h'
  obtain ⟨op, hop₁, -, htoken⟩ := hstanding.recorded
  obtain ⟨op', hop₂, -, htoken'⟩ := hstanding'.recorded
  obtain rfl : op = op' := by simpa [hop₁] using hop₂
  have huntouched := hstanding'.untouched j hstanding.before hlt _ hop (htoken.symm.trans htoken')
  rw [htaken] at huntouched
  cases huntouched.2

theorem get_run_filter {store' : ApprovalStore} (h : store.get token = store'.get token) :
    (Machine.run apply store ops).get token =
      (Machine.run apply store' (ops.filter fun op => op.token == token)).get token := by
  induction ops generalizing store store' with
  | nil => exact h
  | cons op ops ih =>
      by_cases htoken : op.token = token
      · rw [List.filter_cons_of_pos (by simp [htoken])]
        exact ih (get_apply_congr h htoken).1
      · rw [List.filter_cons_of_neg (by simp [htoken])]
        exact ih ((get_apply_of_ne htoken).trans h)

/-- **Approvals are single use**, in every sequence of operations. -/
theorem approvals_single_use (ops : List ApprovalOp) : SingleUse ops where
  granted j approval htaken := by
    obtain ⟨i, contextHash, now, hop, hstanding, hauthorizes⟩ := taken_standing htaken
    simp only [ExecutionApproval.authorizes, Bool.and_eq_true, beq_iff_eq] at hauthorizes
    obtain ⟨⟨⟨hstate, -⟩, hhash⟩, hbefore⟩ := hauthorizes
    exact ⟨i, contextHash, now, hop, hstanding, hstate, hhash, hbefore⟩
  once i j j' h h' := by
    have hle := Nat.not_lt.mp (h.not_lt h')
    have hge := Nat.not_lt.mp (h'.not_lt h)
    omega
  failed j token contextHash now hop htaken := by
    rw [takenAt_eq hop] at htaken
    rw [storeAt_succ hop, apply_of_taken_none htaken]
  frame token := get_run_filter rfl

end ApprovalStore
end Argus

import Argus.Domain.Value
import Mathlib.Logic.Function.Basic

/-!
# Per-invocation execution approvals

An approval authorizes exactly one invocation, identified by its single-use token and
bound to a context hash, and only until it expires.
-/

namespace Argus

/-- Outcome of an operator's decision about one invocation. -/
inductive ApprovalState
  | granted
  | denied
  | expired
  deriving DecidableEq

/-- An operator's decision about one invocation. -/
structure ExecutionApproval where
  token : Uuid
  contextHash : String
  grantedBy : String
  grantedAt : DateTime
  expiresAt : DateTime
  state : ApprovalState
  deriving DecidableEq

/-- Whether the approval authorizes `token` under `contextHash` at `now`. -/
def ExecutionApproval.authorizes (approval : ExecutionApproval) (token : Uuid)
    (contextHash : String) (now : DateTime) : Bool :=
  approval.state == .granted && approval.token == token &&
    approval.contextHash == contextHash && now.before approval.expiresAt

/-- Approvals granted locally, keyed by the token they authorize. -/
structure ApprovalStore where
  approvals : Uuid → Option ExecutionApproval

namespace ApprovalStore

variable {store : ApprovalStore} {token : Uuid} {contextHash : String} {now : DateTime}

def empty : ApprovalStore := ⟨fun _ => none⟩

/-- `ApprovalStore::get`. -/
def get (store : ApprovalStore) (token : Uuid) : Option ExecutionApproval := store.approvals token

/-- Records an approval, replacing any earlier one for the same token. -/
def grant (store : ApprovalStore) (approval : ExecutionApproval) : ApprovalStore :=
  ⟨Function.update store.approvals approval.token (some approval)⟩

/-- Grants a timed approval. -/
def grantFor (store : ApprovalStore) (token : Uuid) (contextHash grantedBy : String)
    (grantedAt expiresAt : DateTime) : ApprovalStore :=
  store.grant ⟨token, contextHash, grantedBy, grantedAt, expiresAt, .granted⟩

/-- Records an explicit denial, replacing any earlier decision. -/
def deny (store : ApprovalStore) (token : Uuid) (contextHash grantedBy : String)
    (now : DateTime) : ApprovalStore :=
  store.grant ⟨token, contextHash, grantedBy, now, now, .denied⟩

/-- Grants an approval valid for `ttl` from `now`. -/
def grantForAWhile (store : ApprovalStore) (token : Uuid) (contextHash grantedBy : String)
    (now : DateTime) (ttl : Duration) : ApprovalStore :=
  store.grant ⟨token, contextHash, grantedBy, now, now.add ttl, .granted⟩

/-- Forgets a token's approval. -/
def revoke (store : ApprovalStore) (token : Uuid) : ApprovalStore :=
  ⟨Function.update store.approvals token none⟩

/-- Consumes the approval for `token`: returns and forgets it when it authorizes, and
leaves the store as it was otherwise. -/
def consume (store : ApprovalStore) (token : Uuid) (contextHash : String) (now : DateTime) :
    Option ExecutionApproval × ApprovalStore :=
  match store.get token with
  | some approval =>
      if approval.authorizes token contextHash now then (some approval, store.revoke token)
      else (none, store)
  | none => (none, store)

/-- A stored approval that authorizes is there to be consumed. -/
theorem consume_of_authorizes {approval : ExecutionApproval}
    (hstored : store.get token = some approval)
    (h : approval.authorizes token contextHash now = true) :
    store.consume token contextHash now = (some approval, store.revoke token) := by
  simp [consume, hstored, h]

/-- What a successful consumption did: the approval authorized, and is forgotten. -/
theorem consume_inv {approval : ExecutionApproval} {store' : ApprovalStore}
    (h : store.consume token contextHash now = (some approval, store')) :
    store.get token = some approval ∧ approval.authorizes token contextHash now = true ∧
      store' = store.revoke token := by
  unfold consume at h
  split at h
  case h_1 stored hstored =>
    split_ifs at h with hauthorizes
    · simp only [Prod.mk.injEq, Option.some.injEq] at h
      obtain ⟨rfl, rfl⟩ := h
      exact ⟨hstored, hauthorizes, rfl⟩
    · simp at h
  case h_2 => simp at h

/-- Consuming a token leaves nothing to consume. -/
theorem consume_once {approval : ExecutionApproval} {store' : ApprovalStore}
    {contextHash' : String} {now' : DateTime}
    (h : store.consume token contextHash now = (some approval, store')) :
    store'.consume token contextHash' now' = (none, store') := by
  obtain ⟨-, -, rfl⟩ := consume_inv h
  simp [consume, get, revoke]

end ApprovalStore
end Argus

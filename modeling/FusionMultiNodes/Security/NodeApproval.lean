import Mathlib.Data.Rat.Defs
import Mathlib.Algebra.Order.Ring.Rat
import FusionMultiNodes.Lib.Dict

/-! The approval of nodes that ask to join. -/
namespace FusionMultiNodes

inductive ApprovalStatus
  | pending | approved | rejected
  deriving DecidableEq

structure JoinMetadata where
  totalMemoryGb : Option ℚ := none
  availableMemoryGb : Option ℚ := none
  maxTasks : Option ℤ := none
  cpuCores : Option ℤ := none
  gpuCores : Option ℤ := none
  arch : Option String := none
  deviceModel : Option String := none
  umaSizeGb : Option ℚ := none
  mlxVersion : Option String := none
  tags : Option (List String) := none
  drivers : Option (List String) := none
  deriving DecidableEq

structure ApprovalRequest where
  nodeId : String
  hostname : String
  ipAddress : String
  port : ℤ
  clusterSecretHash : String
  requestedAt : ℚ
  status : ApprovalStatus
  approvedBy : String
  approvedAt : ℚ
  rejectReason : String
  metadata : JoinMetadata
  deriving DecidableEq

def HasStatus (requests : Dict String ApprovalRequest) (status : ApprovalStatus) : Prop :=
  ∀ id r, requests.get? id = some r → r.status = status

theorem hasStatus_empty (status : ApprovalStatus) : HasStatus ∅ status := fun _ _ h => nomatch h

theorem HasStatus.set {requests : Dict String ApprovalRequest} {status : ApprovalStatus}
    (h : HasStatus requests status) (id : String) {r : ApprovalRequest} (hr : r.status = status) :
    HasStatus (requests.set id r) status := by
  intro id' r' hget
  rw [Dict.get?_set] at hget
  split_ifs at hget
  · cases hget
    exact hr
  · exact h id' r' hget

theorem HasStatus.erase {requests : Dict String ApprovalRequest} {status : ApprovalStatus}
    (h : HasStatus requests status) (id : String) : HasStatus (requests.erase id) status := by
  intro id' r hget
  rw [Dict.get?_erase] at hget
  split_ifs at hget
  exact h id' r hget

structure NodeApprovalManager where
  pending : Dict String ApprovalRequest
  approved : Dict String ApprovalRequest
  rejected : Dict String ApprovalRequest
  hasApproved : HasStatus approved .approved
  hasRejected : HasStatus rejected .rejected

namespace NodeApprovalManager

def maxPending : ℕ := 100

def approvalTtl : ℚ := 3600

def create : NodeApprovalManager := ⟨∅,∅,∅,hasStatus_empty _,hasStatus_empty _⟩

variable (a : NodeApprovalManager)

def cleanupExpiredPending (now : ℚ) : NodeApprovalManager :=
  { a with pending := a.pending.filter fun _ r => decide (now-r.requestedAt ≤ approvalTtl) }

/-- The request `request_join` makes of its arguments. -/
def joinRequest (nodeId hostname ipAddress : String) (port : ℤ) (clusterSecretHash : String)
    (metadata : JoinMetadata) (now : ℚ) : ApprovalRequest where
  nodeId := nodeId
  hostname := hostname
  ipAddress := ipAddress
  port := port
  clusterSecretHash := clusterSecretHash
  requestedAt := now
  status := .pending
  approvedBy := ""
  approvedAt := 0
  rejectReason := ""
  metadata := metadata

/-- `request_join`; `autoApproves` is `_check_auto_approve` for the patterns of the manager. -/
def requestJoin (autoApproves : String → String → Bool) (req : ApprovalRequest) (now : ℚ) :
    NodeApprovalManager × ApprovalRequest :=
  match a.approved.get? req.nodeId with
  | some r => (a,r)
  | none =>
    match a.rejected.get? req.nodeId with
    | some r => (a,r)
    | none =>
      if autoApproves req.hostname req.ipAddress then
        let r := { req with status := .approved, approvedBy := "auto", approvedAt := now }
        ({ a with
            approved := a.approved.set req.nodeId r
            hasApproved := a.hasApproved.set req.nodeId rfl },r)
      else
        let a' := { a with pending := a.pending.set req.nodeId req }
        (if maxPending < a'.pending.entries.length then a'.cleanupExpiredPending now else a',req)

/-- `approve`; `none` where there is no pending request. -/
def approve (nodeId approvedBy : String) (now : ℚ) : Option NodeApprovalManager :=
  (a.pending.get? nodeId).map fun req =>
    { a with
      pending := a.pending.erase nodeId
      approved := a.approved.set nodeId
        { req with status := .approved, approvedBy := approvedBy, approvedAt := now }
      hasApproved := a.hasApproved.set nodeId rfl }

def reject (nodeId reason : String) : Option NodeApprovalManager :=
  (a.pending.get? nodeId).map fun req =>
    { a with
      pending := a.pending.erase nodeId
      rejected := a.rejected.set nodeId { req with status := .rejected, rejectReason := reason }
      hasRejected := a.hasRejected.set nodeId rfl }

def revokeApproval (nodeId : String) : Option NodeApprovalManager :=
  (a.approved.get? nodeId).map fun req =>
    { a with
      approved := a.approved.erase nodeId
      rejected := a.rejected.set nodeId
        { req with status := .rejected, rejectReason := "准入资格被撤销" }
      hasApproved := a.hasApproved.erase nodeId
      hasRejected := a.hasRejected.set nodeId rfl }

/-- What decides about a node without a request of its own: it is approved, or nothing is decided
and its host is on the list. -/
def lets (autoApproves : String → String → Bool) (nodeId hostname ipAddress : String) : Bool :=
  a.approved.contains nodeId ||
    (!a.rejected.contains nodeId && autoApproves hostname ipAddress)

variable {a}

/-- The answer to a request is "approved" for the nodes that are let in. -/
theorem status_requestJoin (autoApproves : String → String → Bool) (req : ApprovalRequest)
    (hreq : req.status = .pending) (now : ℚ) :
    (a.requestJoin autoApproves req now).2.status = .approved ↔
      a.lets autoApproves req.nodeId req.hostname req.ipAddress = true := by
  unfold requestJoin lets Dict.contains
  cases happ : a.approved.get? req.nodeId with
  | some r => simpa using a.hasApproved _ _ happ
  | none =>
    cases hrej : a.rejected.get? req.nodeId with
    | some r =>
      have hr := a.hasRejected _ _ hrej
      simp [hr]
    | none => cases hauto : autoApproves req.hostname req.ipAddress <;> simp [hreq]

/-- A request is left pending only if nothing is decided and its host is not on the list. -/
theorem undecided_of_pending {autoApproves : String → String → Bool} {req : ApprovalRequest}
    {now : ℚ} (h : (a.requestJoin autoApproves req now).2.status = .pending) :
    a.approved.get? req.nodeId = none ∧ a.rejected.get? req.nodeId = none ∧
      autoApproves req.hostname req.ipAddress = false := by
  unfold requestJoin at h
  cases happ : a.approved.get? req.nodeId with
  | some r =>
    rw [happ] at h
    exact nomatch h.symm.trans (a.hasApproved _ _ happ)
  | none =>
    cases hrej : a.rejected.get? req.nodeId with
    | some r =>
      rw [happ,hrej] at h
      exact nomatch h.symm.trans (a.hasRejected _ _ hrej)
    | none =>
      cases hauto : autoApproves req.hostname req.ipAddress with
      | false => exact ⟨rfl,rfl,rfl⟩
      | true =>
        rw [happ,hrej,hauto] at h
        exact nomatch h

/-- A request that is neither decided nor on the list is left pending. -/
theorem requestJoin_pending {autoApproves : String → String → Bool} {req : ApprovalRequest}
    {now : ℚ} (hnow : req.requestedAt = now) (happ : a.approved.get? req.nodeId = none)
    (hrej : a.rejected.get? req.nodeId = none)
    (hauto : autoApproves req.hostname req.ipAddress = false) :
    (a.requestJoin autoApproves req now).2 = req ∧
      (a.requestJoin autoApproves req now).1.pending.get? req.nodeId = some req ∧
      (a.requestJoin autoApproves req now).1.approved = a.approved := by
  unfold requestJoin
  rw [happ,hrej,hauto]
  refine ⟨rfl,?_,?_⟩
  · have hkeep : now-req.requestedAt ≤ approvalTtl := by
      rw [hnow,sub_self]
      decide
    show (ite _ _ _ : NodeApprovalManager).pending.get? req.nodeId = some req
    split_ifs
    · show ((a.pending.set req.nodeId req).filter _).get? req.nodeId = some req
      rw [Dict.get?_filter,Dict.get?_set_self]
      simpa using hkeep
    · exact Dict.get?_set_self _ _ _
  · show (ite _ _ _ : NodeApprovalManager).approved = a.approved
    split_ifs <;> rfl

end NodeApprovalManager
end FusionMultiNodes

import FusionMultiNodes.Master.Rejoin

/-! What the routes do to the decisions on a node, its ban, its role and its record. -/
namespace FusionMultiNodes

/-- Whom a request leaves let in: with the node approved for the host of the request, it is let
in from every other host too. -/
theorem NodeApprovalManager.lets_requestJoin (a : NodeApprovalManager)
    (autoApproves : String → String → Bool) (req : ApprovalRequest) (now : ℚ)
    (hostname ipAddress : String) :
    (a.requestJoin autoApproves req now).1.lets autoApproves req.nodeId hostname ipAddress =
      (a.lets autoApproves req.nodeId req.hostname req.ipAddress ||
        a.lets autoApproves req.nodeId hostname ipAddress) := by
  unfold requestJoin lets Dict.contains
  cases happ : a.approved.get? req.nodeId with
  | some r => simp [happ]
  | none =>
    cases hrej : a.rejected.get? req.nodeId with
    | some r => simp [happ,hrej]
    | none =>
      cases hauto : autoApproves req.hostname req.ipAddress with
      | true => simp
      | false =>
        simp only [Bool.false_eq_true,if_false]
        split_ifs <;> simp [cleanupExpiredPending,happ,hrej]

namespace NodeDomain

variable {d : NodeDomain} {id : NodeId} {now : ℚ}

/-- What becomes of a ban that has run out makes no difference. -/
theorem isNodeBanned_registerNode (registerable : String → Bool) (info : NodeRecord) :
    (d.registerNode registerable info now).1.isNodeBanned id now = d.isNodeBanned id now := by
  unfold registerNode
  split_ifs
  · show (d.dropExpiredBan info.nodeId now).isNodeBanned id now = _
    by_cases hlapsed : d.banLapsed id now = true
    · have hfree : d.isNodeBanned id now = false := by
        simpa using (Bool.and_eq_true_iff.mp hlapsed).2
      unfold dropExpiredBan isNodeBanned
      rw [isNodeBanned] at hfree
      split_ifs
      · rw [Dict.get?_erase]
        split_ifs
        · rw [hfree]
          rfl
        · rfl
      · rfl
    · unfold isNodeBanned
      rw [(d.get?_dropExpiredBan info.nodeId (Bool.eq_false_iff.mpr hlapsed)).1]
  · rfl

end NodeDomain

namespace JoinState

variable {h : JoinHosts} {s : JoinState} {req a : NodeRegisterRequest} {now : ℚ}

/-- A registration puts the request to the approval, or does not get so far. -/
theorem approvals_register (checksRole : Bool) :
    (s.register h checksRole req now).1.approvals = (s.joined h req now).map Prod.fst ∨
      (s.register h checksRole req now).1.approvals = s.approvals := by
  by_cases hpass : isSafePathSegment req.nodeId = true ∧
      checkProtocolCompat req.protocolVersion = .ok () ∧
      (checksRole && s.roleBlocks req.nodeId) = false
  · left
    rw [s.register_of_passes h req now hpass.1 hpass.2.1 hpass.2.2,registerApproved]
    cases s.refusal h req now with
    | some status => rfl
    | none =>
      dsimp only
      split_ifs <;> rfl
  · right
    rw [(s.register_of_not_passes h req now hpass).1]

/-- A registration of the agent does not change whether its node is let in. -/
theorem lets_register (checksRole : Bool) (hreq : req.IsOf a) :
    (s.register h checksRole req now).1.lets h a = s.lets h a := by
  obtain ⟨hid,hhost,hip,-⟩ := hreq
  have happs : (s.register h checksRole req now).1.approvals = (s.joined h req now).map Prod.fst ∨
      (s.register h checksRole req now).1.approvals = s.approvals := approvals_register checksRole
  rcases happs with happ | happ
  · unfold lets
    rw [happ,joined]
    cases s.approvals with
    | none => rfl
    | some m =>
      simp only [Option.map_some,Option.all_some]
      have hlets := m.lets_requestJoin h.autoApproves (req.joinRequest now) now a.hostname
        a.ipAddress
      have hid' : (req.joinRequest now).nodeId = a.nodeId := hid
      have hhost' : (req.joinRequest now).hostname = a.hostname := hhost
      have hip' : (req.joinRequest now).ipAddress = a.ipAddress := hip
      rw [hid',hhost',hip',Bool.or_self] at hlets
      exact hlets
  · unfold lets
    rw [happ]

theorem isNodeBanned_register (checksRole : Bool) (id : NodeId) :
    (s.register h checksRole req now).1.domain.isNodeBanned id now =
      s.domain.isNodeBanned id now := by
  by_cases hpass : isSafePathSegment req.nodeId = true ∧
      checkProtocolCompat req.protocolVersion = .ok () ∧
      (checksRole && s.roleBlocks req.nodeId) = false
  · rw [s.register_of_passes h req now hpass.1 hpass.2.1 hpass.2.2]
    by_cases hlets : s.lets h req = true
    · rw [(s.admit_of_lets h req now hlets).1]
      exact NodeDomain.isNodeBanned_registerNode _ _
    · rw [(s.admit_of_not_lets h req now hlets).1]
  · rw [(s.register_of_not_passes h req now hpass).1]

theorem permissions_register {checksRole : Bool}
    (hnot : (s.register h checksRole req now).2 ≠ .ok ()) :
    (s.register h checksRole req now).1.permissions = s.permissions := by
  by_cases hpass : isSafePathSegment req.nodeId = true ∧
      checkProtocolCompat req.protocolVersion = .ok () ∧
      (checksRole && s.roleBlocks req.nodeId) = false
  · rw [s.register_of_passes h req now hpass.1 hpass.2.1 hpass.2.2,registerApproved] at hnot ⊢
    cases hrefusal : s.refusal h req now with
    | some status => rfl
    | none =>
      rw [hrefusal] at hnot
      dsimp only at hnot ⊢
      split_ifs at hnot ⊢
      · exact absurd rfl hnot
      · rfl
  · rw [(s.register_of_not_passes h req now hpass).1]

theorem valid_of_isOf (hreq : req.IsOf a) : req.Valid h ↔ a.Valid h := by
  obtain ⟨hid,-,hip,hversion⟩ := hreq
  constructor
  · rintro ⟨hsafe,hprotocol,hhost⟩
    exact ⟨hid ▸ hsafe,hversion ▸ hprotocol,hip ▸ hhost⟩
  · rintro ⟨hsafe,hprotocol,hhost⟩
    exact ⟨hid.symm ▸ hsafe,hversion.symm ▸ hprotocol,hip.symm ▸ hhost⟩

theorem lets_of_isOf (hreq : req.IsOf a) : s.lets h req = s.lets h a := by
  obtain ⟨hid,hhost,hip,-⟩ := hreq
  rw [lets,lets,hid,hhost,hip]

def Admits (h : JoinHosts) (s : JoinState) (a : NodeRegisterRequest) (now : ℚ) : Prop :=
  a.Valid h ∧ s.roleBlocks a.nodeId = false ∧ s.lets h a = true ∧
    s.domain.isNodeBanned a.nodeId now = false

theorem register_ok_iff_admits (hreq : req.IsOf a) :
    (s.register h true req now).2 = .ok () ↔ s.Admits h a now := by
  have hid : req.nodeId = a.nodeId := hreq.1
  refine (s.register_ok_iff h req now true).trans ?_
  rw [valid_of_isOf hreq,lets_of_isOf hreq,hid]
  rfl

/-- An accepted registration puts the node on record, and lifts no fault. -/
theorem fit?_of_admits (hreq : req.IsOf a) (hadm : s.Admits h a now) :
    (s.registerNode h req now).1.domain.fit? a.nodeId =
      some ((s.domain.fit? a.nodeId).getD true) := by
  have hid : (req.nodeRecord now).nodeId = a.nodeId := hreq.1
  rw [NodeDomain.fit?,registerNode,s.nodes_register h req now true,
    if_pos ((register_ok_iff_admits hreq).mpr hadm),hreq.1]
  exact s.domain.fit?_registeredNode a.nodeId now (req.nodeRecord now) hid

theorem fit?_of_not_admits (hreq : req.IsOf a) (hnot : ¬s.Admits h a now) :
    (s.registerNode h req now).1.domain.fit? a.nodeId = s.domain.fit? a.nodeId := by
  rw [NodeDomain.fit?,registerNode,s.nodes_register h req now true,
    if_neg (mt (register_ok_iff_admits hreq).mp hnot)]
  rfl

theorem roleBlocks_registerNode (hreq : req.IsOf a) (hnot : ¬s.Admits h a now) :
    (s.registerNode h req now).1.roleBlocks a.nodeId = s.roleBlocks a.nodeId := by
  rw [roleBlocks,registerNode,permissions_register (mt (register_ok_iff_admits hreq).mp hnot)]
  rfl

variable (now) in
/-- An approval lets the node in, and registers it if it is not on record. -/
theorem approveNode_of_pending {m : NodeApprovalManager} {r : ApprovalRequest} {id : NodeId}
    (approvedBy : String) (hid : id ≠ "") (hm : s.approvals = some m)
    (hr : m.pending.get? id = some r) (ha : a.nodeId = id) :
    (s.approveNode h id approvedBy now).1.lets h a = true ∧
      (s.approveNode h id approvedBy now).1.permissions = s.permissions ∧
      (s.approveNode h id approvedBy now).1.domain =
        if s.domain.nodes.get? id = none then
          (s.domain.registerNode h.registerable (r.nodeRecord id now) now).1
        else s.domain := by
  unfold approveNode
  rw [hm]
  simp only [if_neg hid,NodeApprovalManager.approve,hr,Option.map_some,Dict.get?_set_self]
  have hlets : ∀ m' : NodeApprovalManager, (m'.approved.get? id).isSome = true →
      ∀ s' : JoinState, s'.approvals = some m' → s'.lets h a = true := by
    intro m' hin s' hs'
    rw [lets,hs',Option.all_some,NodeApprovalManager.lets,ha,Dict.contains,hin,Bool.true_or]
  cases hnode : s.domain.nodes.get? id with
  | none =>
    simp only [admitApproved,if_true]
    split_ifs
    · exact ⟨hlets _ (by rw [Dict.get?_set_self]; rfl) _ rfl,rfl,rfl⟩
    · exact ⟨hlets _ (by rw [Dict.get?_set_self]; rfl) _ rfl,rfl,rfl⟩
  | some old => exact ⟨hlets _ (by rw [Dict.get?_set_self]; rfl) _ rfl,rfl,rfl⟩

theorem approveNode_of_no_request {id : NodeId} (approvedBy : String)
    (hnot : ∀ m r, id ≠ "" → s.approvals = some m → m.pending.get? id ≠ some r) :
    (s.approveNode h id approvedBy now).1 = s := by
  unfold approveNode
  cases hm : s.approvals with
  | none => rfl
  | some m =>
    by_cases hid : id = ""
    · simp only [if_pos hid]
    · have hnone : m.pending.get? id = none :=
        Option.eq_none_iff_forall_ne_some.mpr fun r => hnot m r hid hm
      simp only [if_neg hid,NodeApprovalManager.approve,hnone,Option.map_none]

theorem lets_rejectNode {id : NodeId} (reason : String)
    (hlets : (s.rejectNode id reason).1.lets h a = true) : s.lets h a = true := by
  unfold rejectNode at hlets
  cases hm : s.approvals with
  | none =>
    rw [lets,hm]
    rfl
  | some m =>
    rw [hm] at hlets
    by_cases hid : id = ""
    · simpa only [if_pos hid] using hlets
    cases hr : m.pending.get? id with
    | none => simpa only [if_neg hid,NodeApprovalManager.reject,hr,Option.map_none] using hlets
    | some r =>
      simp only [if_neg hid,NodeApprovalManager.reject,hr,Option.map_some,lets,Option.all_some,
        NodeApprovalManager.lets,Dict.contains,Dict.get?_set] at hlets
      rw [lets,hm,Option.all_some,NodeApprovalManager.lets,Dict.contains,Dict.contains]
      split_ifs at hlets
      · simp only [Option.isSome_some,Bool.not_true,Bool.false_and,Bool.or_false] at hlets
        rw [hlets,Bool.true_or]
      · exact hlets

theorem domain_rejectNode (s : JoinState) (id : NodeId) (reason : String) :
    (s.rejectNode id reason).1.domain = s.domain ∧
      (s.rejectNode id reason).1.permissions = s.permissions := by
  unfold rejectNode
  split
  · exact ⟨rfl,rfl⟩
  · split_ifs
    · exact ⟨rfl,rfl⟩
    · split <;> exact ⟨rfl,rfl⟩

theorem lets_revokeApproval {id : NodeId}
    (hlets : ({ s with approvals := s.approvals.map fun m => (m.revokeApproval id).getD m } :
      JoinState).lets h a = true) : s.lets h a = true := by
  rw [lets] at hlets ⊢
  cases hm : s.approvals with
  | none => rfl
  | some m =>
    rw [hm,Option.map_some,Option.all_some,NodeApprovalManager.revokeApproval] at hlets
    cases hr : m.approved.get? id with
    | none =>
      rw [hr] at hlets
      exact hlets
    | some r =>
      simp only [hr,Option.map_some,Option.getD_some,NodeApprovalManager.lets,Dict.contains,
        Dict.get?_set,Dict.get?_erase] at hlets
      rw [Option.all_some,NodeApprovalManager.lets,Dict.contains,Dict.contains]
      split_ifs at hlets with ha
      · simp at hlets
      · exact hlets

theorem lets_manualJoin (hostname ipAddress : String) (port : ℤ) :
    (s.manualJoin h a.nodeId hostname ipAddress port now).lets h a =
      s.approvals.all fun m => m.lets h.autoApproves a.nodeId hostname ipAddress ||
        m.lets h.autoApproves a.nodeId a.hostname a.ipAddress := by
  rw [lets,manualJoin]
  cases s.approvals with
  | none => rfl
  | some m =>
    exact m.lets_requestJoin h.autoApproves
      (NodeApprovalManager.joinRequest a.nodeId hostname ipAddress port "" {} now) now _ _

theorem roleBlocks_create (approvals : Option NodeApprovalManager) (id : NodeId) :
    (create approvals).roleBlocks id = false := by
  by_cases hid : id = "master"
  · subst hid
    show ((PermissionManager.create.getRole "master").isSome && _) = false
    rw [Bool.and_eq_false_iff]
    right
    show (!PermissionManager.create.checkPathAccess "master" "/api/nodes/register" "POST") = false
    decide
  · have hrole : PermissionManager.create.getRole id = none := by
      rw [PermissionManager.create,PermissionManager.getRole,Dict.get?_set_ne _ _ hid]
      rfl
    show ((PermissionManager.create.getRole id).isSome && _) = false
    rw [hrole]
    rfl

end JoinState
end FusionMultiNodes

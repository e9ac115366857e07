import FusionMultiNodes.Master.JoinPaths

/-! The ways into the cluster agree exactly where no node that has a role registers, and where an
approved request has nothing that its metadata leaves out. -/
namespace FusionMultiNodes

def NodeRecord.heardAt (n : NodeRecord) (t : ℚ) : NodeRecord := { n with lastHeartbeat := t }

def SameRecord (x y : Option NodeRecord) : Prop :=
  x.map (fun n => n.heardAt 0) = y.map fun n => n.heardAt 0

namespace NodeRegisterRequest

/-- The id, the protocol version and the host are those of a node that may register. -/
structure Valid (h : JoinHosts) (req : NodeRegisterRequest) : Prop where
  nodeId : isSafePathSegment req.nodeId = true
  protocol : checkProtocolCompat req.protocolVersion = .ok ()
  host : h.registerable req.ipAddress = true

/-- The request has nothing that the metadata of its approval leaves out. -/
structure Plain (req : NodeRegisterRequest) : Prop where
  activeTasks : req.activeTasks = 0
  networkRttMs : req.networkRttMs = 0
  supervisorAvailable : req.supervisorAvailable = false
  drivers : req.drivers = []
  resident : req.resident = false

theorem nodeId_ne_empty {h : JoinHosts} {req : NodeRegisterRequest} (hreq : req.Valid h) :
    req.nodeId ≠ "" := by
  intro hid
  have hsafe := hreq.nodeId
  rw [hid] at hsafe
  revert hsafe
  decide

/-- An approved request makes the record of the request itself if the request is plain. -/
theorem heardAt_nodeRecord_iff (req : NodeRegisterRequest) (now later : ℚ) :
    ((req.joinRequest now).nodeRecord req.nodeId later).heardAt 0 =
      (req.nodeRecord later).heardAt 0 ↔ req.Plain := by
  constructor
  · intro heq
    have hinfo := congrArg NodeRecord.toNodeInfo heq
    exact ⟨(congrArg NodeInfo.activeTasks hinfo).symm,(congrArg NodeInfo.networkRttMs hinfo).symm,
      (congrArg NodeInfo.supervisorAvailable hinfo).symm,(congrArg NodeInfo.drivers hinfo).symm,
      (congrArg NodeRecord.resident heq).symm⟩
  · rintro ⟨htasks,hrtt,hsupervisor,hdrivers,hresident⟩
    simp only [NodeRecord.heardAt,nodeRecord,ApprovalRequest.nodeRecord,joinRequest,
      NodeApprovalManager.joinRequest,metadata,Option.getD_some,Option.getD_none,htasks,hrtt,
      hsupervisor,hdrivers,hresident]

end NodeRegisterRequest

namespace JoinState

variable (h : JoinHosts) (s : JoinState) (req : NodeRegisterRequest) (now : ℚ)

def lets : Bool :=
  s.approvals.all fun a => a.lets h.autoApproves req.nodeId req.hostname req.ipAddress

def isApproved (nodeId : NodeId) : Bool := s.approvals.all fun a => a.approved.contains nodeId

theorem lets_of_isApproved (happ : s.isApproved req.nodeId = true) : s.lets h req = true := by
  unfold isApproved at happ
  unfold lets
  cases hs : s.approvals with
  | none => rfl
  | some a =>
    rw [hs,Option.all_some] at happ
    rw [Option.all_some,NodeApprovalManager.lets,happ,Bool.true_or]

theorem refusal_eq_none_iff : s.refusal h req now = none ↔ s.lets h req = true := by
  unfold refusal joined lets
  cases s.approvals with
  | none => simp
  | some a =>
    have hstatus := a.status_requestJoin h.autoApproves (req.joinRequest now) rfl now
    rw [Option.map_some,Option.bind_some,Option.all_some]
    refine Iff.trans ?_ hstatus
    rw [ite_eq_left_iff]
    exact ⟨fun hnone => by_contra fun hne => (nomatch hnone hne),fun happ hne => absurd happ hne⟩

theorem registerNode_snd (d : NodeDomain) (registerable : String → Bool) (info : NodeRecord) :
    (d.registerNode registerable info now).2 = d.admits registerable info now := by
  unfold NodeDomain.registerNode
  split_ifs with hadm
  · exact hadm.symm
  · exact (Bool.eq_false_iff.mpr hadm).symm

theorem admit_of_lets (hlets : s.lets h req = true) :
    (s.registerApproved h req now).1.domain =
        (s.domain.registerNode h.registerable (req.nodeRecord now) now).1 ∧
      ((s.registerApproved h req now).2 = .ok () ↔
        s.domain.admits h.registerable (req.nodeRecord now) now = true) := by
  unfold registerApproved
  rw [(s.refusal_eq_none_iff h req now).mpr hlets]
  simp only [registerNode_snd]
  by_cases hadm : s.domain.admits h.registerable (req.nodeRecord now) now = true
  · rw [if_pos hadm]
    exact ⟨rfl,fun _ => hadm,fun _ => rfl⟩
  · rw [if_neg hadm]
    exact ⟨rfl,fun hok => (nomatch hok),fun hpos => absurd hpos hadm⟩

theorem admit_of_not_lets (hlets : s.lets h req ≠ true) :
    (s.registerApproved h req now).1.domain = s.domain ∧ (s.registerApproved h req now).2 ≠ .ok () := by
  have hsome := mt (s.refusal_eq_none_iff h req now).mp hlets
  obtain ⟨status,hstatus⟩ := Option.ne_none_iff_exists'.mp hsome
  unfold registerApproved
  rw [hstatus]
  exact ⟨rfl,fun hok => (nomatch hok)⟩

theorem register_of_passes {checksRole : Bool} (hid : isSafePathSegment req.nodeId = true)
    (hprotocol : checkProtocolCompat req.protocolVersion = .ok ())
    (hrole : (checksRole && s.roleBlocks req.nodeId) = false) :
    s.register h checksRole req now = s.registerApproved h req now := by
  rw [register,if_neg (by rw [hid]; decide),hprotocol]
  simp only [hrole,Bool.false_eq_true,if_false]

theorem register_of_not_passes {checksRole : Bool}
    (hnot : ¬(isSafePathSegment req.nodeId = true ∧
      checkProtocolCompat req.protocolVersion = .ok () ∧
      (checksRole && s.roleBlocks req.nodeId) = false)) :
    (s.register h checksRole req now).1 = s ∧
      (s.register h checksRole req now).2 ≠ .ok () ∧
      ∀ status, (s.register h checksRole req now).2 ≠ .error (.notApproved status) := by
  unfold register
  by_cases hid : isSafePathSegment req.nodeId = false
  · rw [if_pos hid]
    exact ⟨rfl,fun hok => (nomatch hok),fun _ herr => (nomatch herr)⟩
  · rw [if_neg hid]
    cases hprotocol : checkProtocolCompat req.protocolVersion with
    | error detail => exact ⟨rfl,fun hok => (nomatch hok),fun _ herr => (nomatch herr)⟩
    | ok u =>
      by_cases hrole : (checksRole && s.roleBlocks req.nodeId) = true
      · simp only [if_pos hrole]
        exact ⟨trivial,fun hok => (nomatch hok),fun _ herr => (nomatch herr)⟩
      · exact absurd ⟨(Bool.not_eq_false _).mp hid,hprotocol,Bool.eq_false_iff.mpr hrole⟩ hnot

/-- A registration is accepted if the request is valid, its node is let in and not banned, and
the route does not look at the role or the role does not stand in the way. -/
theorem register_ok_iff (checksRole : Bool) :
    (s.register h checksRole req now).2 = .ok () ↔
      req.Valid h ∧ (checksRole && s.roleBlocks req.nodeId) = false ∧ s.lets h req = true ∧
        s.domain.isNodeBanned req.nodeId now = false := by
  have hadmits : s.domain.admits h.registerable (req.nodeRecord now) now = true ↔
      h.registerable req.ipAddress = true ∧ s.domain.isNodeBanned req.nodeId now = false := by
    simp [NodeDomain.admits,NodeRegisterRequest.nodeRecord]
  by_cases hpass : isSafePathSegment req.nodeId = true ∧
      checkProtocolCompat req.protocolVersion = .ok () ∧
      (checksRole && s.roleBlocks req.nodeId) = false
  · obtain ⟨hid,hprotocol,hrole⟩ := hpass
    rw [s.register_of_passes h req now hid hprotocol hrole]
    by_cases hlets : s.lets h req = true
    · rw [(s.admit_of_lets h req now hlets).2,hadmits]
      constructor
      · rintro ⟨hhost,hfree⟩
        exact ⟨⟨hid,hprotocol,hhost⟩,hrole,hlets,hfree⟩
      · rintro ⟨hvalid,-,-,hfree⟩
        exact ⟨hvalid.host,hfree⟩
    · exact ⟨fun hok => absurd hok (s.admit_of_not_lets h req now hlets).2,
        fun hall => absurd hall.2.2.1 hlets⟩
  · refine ⟨fun hok => absurd hok (s.register_of_not_passes h req now hpass).2.1,?_⟩
    rintro ⟨hvalid,hrole,-⟩
    exact absurd ⟨hvalid.nodeId,hvalid.protocol,hrole⟩ hpass

/-- An accepted registration stores its record, a refused one changes no node. -/
theorem nodes_register (checksRole : Bool) :
    (s.register h checksRole req now).1.domain.nodes =
      if (s.register h checksRole req now).2 = .ok () then
        s.domain.nodes.set req.nodeId (s.domain.registeredNode (req.nodeRecord now) now)
      else s.domain.nodes := by
  by_cases hpass : isSafePathSegment req.nodeId = true ∧
      checkProtocolCompat req.protocolVersion = .ok () ∧
      (checksRole && s.roleBlocks req.nodeId) = false
  · obtain ⟨hid,hprotocol,hrole⟩ := hpass
    rw [s.register_of_passes h req now hid hprotocol hrole]
    by_cases hlets : s.lets h req = true
    · obtain ⟨hdomain,hok⟩ := s.admit_of_lets h req now hlets
      rw [hdomain]
      by_cases hadm : s.domain.admits h.registerable (req.nodeRecord now) now = true
      · rw [if_pos (hok.mpr hadm),(s.domain.registerNode_of_admits hadm).1]
        rfl
      · rw [if_neg (mt hok.mp hadm),s.domain.registerNode_of_refused hadm]
    · obtain ⟨hdomain,hnot⟩ := s.admit_of_not_lets h req now hlets
      rw [hdomain,if_neg hnot]
  · obtain ⟨hsame,hnot,-⟩ := s.register_of_not_passes h req now hpass
    rw [hsame,if_neg hnot]

/-- A registration that is left pending is one that nobody has decided about. -/
theorem register_pending {checksRole : Bool}
    (hpend : (s.register h checksRole req now).2 = .error (.notApproved .pending)) :
    (checksRole && s.roleBlocks req.nodeId) = false ∧
      ∃ a, s.approvals = some a ∧ a.approved.get? req.nodeId = none ∧
        a.rejected.get? req.nodeId = none ∧ h.autoApproves req.hostname req.ipAddress = false := by
  by_cases hpass : isSafePathSegment req.nodeId = true ∧
      checkProtocolCompat req.protocolVersion = .ok () ∧
      (checksRole && s.roleBlocks req.nodeId) = false
  · refine ⟨hpass.2.2,?_⟩
    rw [s.register_of_passes h req now hpass.1 hpass.2.1 hpass.2.2,registerApproved] at hpend
    cases hrefusal : s.refusal h req now with
    | none =>
      rw [hrefusal] at hpend
      simp only at hpend
      split_ifs at hpend
      all_goals exact nomatch hpend
    | some status =>
      rw [hrefusal] at hpend
      obtain rfl : status = .pending := by
        simpa using hpend
      unfold refusal joined at hrefusal
      cases ha : s.approvals with
      | none =>
        rw [ha] at hrefusal
        exact nomatch hrefusal
      | some a =>
        rw [ha,Option.map_some,Option.bind_some] at hrefusal
        split_ifs at hrefusal
        exact ⟨a,rfl,NodeApprovalManager.undecided_of_pending (Option.some.inj hrefusal)⟩
  · exact absurd hpend ((s.register_of_not_passes h req now hpass).2.2 _)

/-- The tables after a registration that is left pending: only the pending requests change. -/
theorem register_of_undecided {a : NodeApprovalManager}
    (hid : isSafePathSegment req.nodeId = true)
    (hprotocol : checkProtocolCompat req.protocolVersion = .ok ()) (ha : s.approvals = some a)
    (happ : a.approved.get? req.nodeId = none) (hrej : a.rejected.get? req.nodeId = none)
    (hauto : h.autoApproves req.hostname req.ipAddress = false) {checksRole : Bool}
    (hrole : (checksRole && s.roleBlocks req.nodeId) = false) :
    s.register h checksRole req now =
      (⟨some (a.requestJoin h.autoApproves (req.joinRequest now) now).1,s.permissions,s.domain⟩,
        .error (.notApproved .pending)) := by
  have htime : (req.joinRequest now).requestedAt = now := rfl
  have hsame := (NodeApprovalManager.requestJoin_pending htime happ hrej hauto).1
  have hrefusal : s.refusal h req now = some .pending := by
    rw [refusal,joined,ha,Option.map_some,Option.bind_some,hsame]
    rfl
  rw [s.register_of_passes h req now hid hprotocol hrole,registerApproved,hrefusal,joined,ha]
  rfl

theorem admitApproved_spec (nodeId : NodeId) (r : ApprovalRequest) :
    (s.admitApproved h nodeId r now).1.domain =
        (s.domain.registerNode h.registerable (r.nodeRecord nodeId now) now).1 ∧
      ((s.admitApproved h nodeId r now).2 = .ok () ↔
        s.domain.admits h.registerable (r.nodeRecord nodeId now) now = true) := by
  unfold admitApproved
  simp only [registerNode_snd]
  by_cases hadm : s.domain.admits h.registerable (r.nodeRecord nodeId now) now = true
  · rw [if_pos hadm]
    exact ⟨rfl,fun _ => hadm,fun _ => rfl⟩
  · rw [if_neg hadm]
    exact ⟨rfl,fun hok => (nomatch hok),fun hpos => absurd hpos hadm⟩

/-- The approval of a pending request of a node the master does not know is a registration. -/
theorem approveNode_unknown {a : NodeApprovalManager} {r : ApprovalRequest} {nodeId : NodeId}
    (approvedBy : String) (hid : nodeId ≠ "") (ha : s.approvals = some a)
    (hr : a.pending.get? nodeId = some r) (hnode : s.domain.nodes.get? nodeId = none) :
    (s.approveNode h nodeId approvedBy now).1.domain =
        (s.domain.registerNode h.registerable (r.nodeRecord nodeId now) now).1 ∧
      ((s.approveNode h nodeId approvedBy now).2 = .ok () ↔
        s.domain.admits h.registerable (r.nodeRecord nodeId now) now = true) := by
  unfold approveNode
  rw [ha]
  simp only [if_neg hid,NodeApprovalManager.approve,hr,Option.map_some,Dict.get?_set_self,hnode]
  exact admitApproved_spec h _ now nodeId _

/-- The approval of a pending request of a known node leaves the nodes. -/
theorem approveNode_known {a : NodeApprovalManager} {r : ApprovalRequest} {nodeId : NodeId}
    (approvedBy : String) (hid : nodeId ≠ "") (ha : s.approvals = some a)
    (hr : a.pending.get? nodeId = some r) {old : NodeRecord}
    (hnode : s.domain.nodes.get? nodeId = some old) :
    (s.approveNode h nodeId approvedBy now).1.domain = s.domain ∧
      (s.approveNode h nodeId approvedBy now).2 = .ok () := by
  unfold approveNode
  rw [ha]
  simp only [if_neg hid,NodeApprovalManager.approve,hr,Option.map_some,Dict.get?_set_self,hnode,
    and_self]

structure RoutesAgree : Prop where
  decision : (s.registerNode h req now).2 = .ok () ↔ (s.v1RegisterNode h req now).2 = .ok ()
  record : SameRecord ((s.registerNode h req now).1.domain.nodes.get? req.nodeId)
    ((s.v1RegisterNode h req now).1.domain.nodes.get? req.nodeId)

/-- A node that is approved and not banned is accepted, however often it has registered. -/
def Returns : Prop :=
  req.Valid h → s.isApproved req.nodeId = true → s.domain.isNodeBanned req.nodeId now = false →
    (s.registerNode h req now).2 = .ok () ∧ (s.v1RegisterNode h req now).2 = .ok ()

/-- A request that is left pending, by either route, and approved later leaves the record that an
automatic approval of the request leaves, by either route. -/
def ApprovalAgrees : Prop :=
  ∀ (checksRole checksRole' : Bool) (approvedBy : String) (later : ℚ)
    (pending auto : JoinState × Except JoinRefusal Unit)
    (approved : JoinState × Except HttpError Unit),
    pending = s.register h checksRole req now →
    approved = pending.1.approveNode h req.nodeId approvedBy later →
    auto = s.register { h with autoApproves := fun _ _ => true } checksRole' req later →
    pending.2 = .error (.notApproved .pending) → approved.2 = .ok () → auto.2 = .ok () →
      SameRecord (approved.1.domain.nodes.get? req.nodeId)
        (auto.1.domain.nodes.get? req.nodeId)

structure JoinsAlike : Prop where
  routes : s.RoutesAgree h req now
  returns : s.Returns h req now
  approval : s.ApprovalAgrees h req now

/-- The node has no role that stands in the way of a registration the other route accepts. -/
def Unblocked : Prop :=
  req.Valid h → s.lets h req = true → s.domain.isNodeBanned req.nodeId now = false →
    s.roleBlocks req.nodeId = false

/-- A request that is left pending is plain, if the master does not know the node; if it does, the
record it has is the one the request would leave. -/
def Confirms : Prop :=
  ∀ a, s.approvals = some a → a.approved.get? req.nodeId = none →
    a.rejected.get? req.nodeId = none → h.autoApproves req.hostname req.ipAddress = false →
    req.Valid h → match s.domain.nodes.get? req.nodeId with
      | none => req.Plain
      | some old => old.heardAt 0 = (s.domain.registeredNode (req.nodeRecord now) now).heardAt 0

theorem nodes_eq_of_decision (checksRole checksRole' : Bool)
    (hok : (s.register h checksRole req now).2 = .ok () ↔
      (s.register h checksRole' req now).2 = .ok ()) :
    (s.register h checksRole req now).1.domain.nodes =
      (s.register h checksRole' req now).1.domain.nodes := by
  rw [nodes_register,nodes_register]
  simp only [hok]

/-- The routes agree, and nodes may return, where no role stands in the way. -/
theorem routesAgree_iff :
    s.RoutesAgree h req now ∧ s.Returns h req now ↔ s.Unblocked h req now := by
  have hlegacy := s.register_ok_iff h req now true
  have hv1 := s.register_ok_iff h req now false
  rw [Bool.true_and] at hlegacy
  rw [Bool.false_and] at hv1
  constructor
  · rintro ⟨hroutes,-⟩ hvalid hlets hfree
    exact (hlegacy.mp (hroutes.decision.mpr (hv1.mpr ⟨hvalid,rfl,hlets,hfree⟩))).2.1
  · intro hunblocked
    have hdecision : (s.registerNode h req now).2 = .ok () ↔
        (s.v1RegisterNode h req now).2 = .ok () := by
      refine hlegacy.trans (Iff.trans ?_ hv1.symm)
      constructor
      · rintro ⟨hvalid,-,hlets,hfree⟩
        exact ⟨hvalid,rfl,hlets,hfree⟩
      · rintro ⟨hvalid,-,hlets,hfree⟩
        exact ⟨hvalid,hunblocked hvalid hlets hfree,hlets,hfree⟩
    refine ⟨⟨hdecision,?_⟩,?_⟩
    · have hnodes := s.nodes_eq_of_decision h req now true false hdecision
      exact congrArg (fun nodes : Dict NodeId NodeRecord =>
        (nodes.get? req.nodeId).map fun n => n.heardAt 0) hnodes
    · intro hvalid happ hfree
      have hlets := s.lets_of_isApproved h req happ
      have hok := hv1.mpr ⟨hvalid,rfl,hlets,hfree⟩
      exact ⟨hdecision.mpr hok,hok⟩

/-- The record after a request that was left pending has been approved. -/
theorem get?_approved {a : NodeApprovalManager} (hvalid : req.Valid h) (ha : s.approvals = some a)
    (happ : a.approved.get? req.nodeId = none) (hrej : a.rejected.get? req.nodeId = none)
    (hauto : h.autoApproves req.hostname req.ipAddress = false) {checksRole : Bool}
    (hrole : (checksRole && s.roleBlocks req.nodeId) = false) (approvedBy : String) {later : ℚ}
    (hfree : s.domain.isNodeBanned req.nodeId later = false) :
    ((s.register h checksRole req now).1.approveNode h req.nodeId approvedBy later).2 = .ok () ∧
      ((s.register h checksRole req now).1.approveNode h req.nodeId approvedBy
          later).1.domain.nodes.get? req.nodeId =
        some ((s.domain.nodes.get? req.nodeId).getD
          (s.domain.registeredNode ((req.joinRequest now).nodeRecord req.nodeId later) later)) := by
  have htime : (req.joinRequest now).requestedAt = now := rfl
  have hpending := (NodeApprovalManager.requestJoin_pending htime happ hrej hauto).2.1
  rw [s.register_of_undecided h req now hvalid.nodeId hvalid.protocol ha happ hrej hauto hrole]
  set s₁ : JoinState :=
    ⟨some (a.requestJoin h.autoApproves (req.joinRequest now) now).1,s.permissions,s.domain⟩
  cases hnode : s.domain.nodes.get? req.nodeId with
  | some old =>
    obtain ⟨hdomain,hok⟩ := s₁.approveNode_known h later approvedBy
      (NodeRegisterRequest.nodeId_ne_empty hvalid) rfl hpending hnode
    rw [hdomain]
    exact ⟨hok,hnode⟩
  | none =>
    obtain ⟨hdomain,hok⟩ := s₁.approveNode_unknown h later approvedBy
      (NodeRegisterRequest.nodeId_ne_empty hvalid) rfl hpending hnode
    have hadm : s.domain.admits h.registerable
        ((req.joinRequest now).nodeRecord req.nodeId later) later = true := by
      rw [NodeDomain.admits,Bool.and_eq_true,Bool.not_eq_true']
      exact ⟨hvalid.host,hfree⟩
    rw [hdomain,(s.domain.registerNode_of_admits hadm).1]
    exact ⟨hok.mpr hadm,Dict.get?_set_self _ _ _⟩

theorem get?_auto {checksRole : Bool} {later : ℚ}
    (hok : (s.register h checksRole req later).2 = .ok ()) :
    (s.register h checksRole req later).1.domain.nodes.get? req.nodeId =
      some (s.domain.registeredNode (req.nodeRecord later) later) := by
  rw [nodes_register,if_pos hok]
  exact Dict.get?_set_self _ _ _

/-- The two records are the same where the request confirms what is known. -/
theorem sameRecord_iff (later : ℚ) :
    SameRecord
        (some ((s.domain.nodes.get? req.nodeId).getD
          (s.domain.registeredNode ((req.joinRequest now).nodeRecord req.nodeId later) later)))
        (some (s.domain.registeredNode (req.nodeRecord later) later)) ↔
      match s.domain.nodes.get? req.nodeId with
        | none => req.Plain
        | some old => old.heardAt 0 = (s.domain.registeredNode (req.nodeRecord now) now).heardAt 0 := by
  unfold SameRecord
  rw [Option.map_some,Option.map_some,Option.some_inj]
  cases hnode : s.domain.nodes.get? req.nodeId with
  | none =>
    rw [Option.getD_none,NodeDomain.registeredNode_unknown hnode,
      NodeDomain.registeredNode_unknown hnode]
    exact req.heardAt_nodeRecord_iff now later
  | some old =>
    have hknown : ∀ t, s.domain.nodes.get? (req.nodeRecord t).nodeId = some old := fun _ => hnode
    rw [Option.getD_some,NodeDomain.registeredNode,NodeDomain.registeredNode,hknown,hknown]
    exact Iff.rfl

/-- Pending-then-approved is automatically approved, where requests confirm what is known. -/
theorem approvalAgrees_iff : s.ApprovalAgrees h req now ↔ s.Confirms h req now := by
  constructor
  · intro hagrees a ha happ hrej hauto hvalid
    -- a time at which no ban of the node goes on
    obtain ⟨later,hfree⟩ : ∃ later, s.domain.isNodeBanned req.nodeId later = false := by
      cases hban : s.domain.bannedNodes.get? req.nodeId with
      | none => exact ⟨0,by rw [NodeDomain.isNodeBanned,hban,Option.any_none]⟩
      | some unbanAt =>
        exact ⟨unbanAt,by rw [NodeDomain.isNodeBanned,hban,Option.any_some]; simp⟩
    have hrole : (false && s.roleBlocks req.nodeId) = false := Bool.false_and _
    have hpending := s.register_of_undecided h req now hvalid.nodeId hvalid.protocol ha happ hrej
      hauto hrole
    obtain ⟨hok,hrecord⟩ := s.get?_approved h req now hvalid ha happ hrej hauto hrole "admin" hfree
    have hauto' : (s.register { h with autoApproves := fun _ _ => true } false req later).2 =
        .ok () := by
      refine (s.register_ok_iff _ req later false).mpr ⟨⟨hvalid.nodeId,hvalid.protocol,hvalid.host⟩,
        hrole,?_,hfree⟩
      rw [lets,ha,Option.all_some,NodeApprovalManager.lets,Dict.contains,Dict.contains,happ,hrej]
      rfl
    have hsame := hagrees false false "admin" later _ _ _ rfl rfl rfl (by rw [hpending]) hok hauto'
    rw [hrecord,s.get?_auto _ req hauto'] at hsame
    exact (s.sameRecord_iff req now later).mp hsame
  · rintro hconfirms checksRole checksRole' approvedBy later _ _ _ rfl rfl rfl hpending - hauto'
    obtain ⟨hrole,a,ha,happ,hrej,hauto⟩ := s.register_pending h req now hpending
    obtain ⟨hvalid',-,-,hfree⟩ := (s.register_ok_iff _ req later checksRole').mp hauto'
    have hvalid : req.Valid h := ⟨hvalid'.nodeId,hvalid'.protocol,hvalid'.host⟩
    rw [(s.get?_approved h req now hvalid ha happ hrej hauto hrole approvedBy hfree).2,
      s.get?_auto _ req hauto']
    exact (s.sameRecord_iff req now later).mpr (hconfirms a ha happ hrej hauto hvalid)

theorem joinsAlike_iff :
    s.JoinsAlike h req now ↔ s.Unblocked h req now ∧ s.Confirms h req now := by
  rw [← routesAgree_iff,← approvalAgrees_iff]
  exact ⟨fun ⟨hroutes,hreturns,happroval⟩ => ⟨⟨hroutes,hreturns⟩,happroval⟩,
    fun ⟨⟨hroutes,hreturns⟩,happroval⟩ => ⟨hroutes,hreturns,happroval⟩⟩

/-- Along a run on any tables, every way in leads to the same at each registration, if and only if
no role stands in the way of one that is else accepted, and each that is left pending confirms
what the master knows. -/
theorem join_paths_iff (es : List JoinEvent) :
    (machine h).Along (fun s e _ => ∀ req now,
        e = .registerNode req now ∨ e = .v1RegisterNode req now → s.JoinsAlike h req now) s es ↔
      (machine h).Along (fun s e _ => ∀ req now,
        e = .registerNode req now ∨ e = .v1RegisterNode req now →
          s.Unblocked h req now ∧ s.Confirms h req now) s es := by
  apply Machine.along_congr
  intro s e _ _
  exact forall₃_congr fun req now _ => s.joinsAlike_iff h req now

def openHosts : JoinHosts := ⟨fun _ => true,fun _ _ => true⟩

theorem restart_is_refused : ¬∀ (h : JoinHosts) (s : JoinState) (es : List JoinEvent),
    (machine h).Along (fun s e _ => ∀ req now,
      e = .registerNode req now ∨ e = .v1RegisterNode req now → s.JoinsAlike h req now) s es := by
  intro h
  have hrun := h openHosts (create (some .create)) ([.registerNode NodeDomain.startRequest 0] ++
    [.registerNode NodeDomain.startRequest 10])
  have hagain := hrun.last rfl rfl NodeDomain.startRequest 10 (Or.inl rfl)
  have hok := (hagain.returns ⟨by decide,by decide,rfl⟩ (by decide)
    (by decide)).1
  revert hok
  decide

end JoinState
end FusionMultiNodes

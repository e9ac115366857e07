import FusionMultiNodes.Master.RejoinEffects

/-! One step of an agent and its master: what leaves the agent running for nothing. -/
namespace FusionMultiNodes
namespace AgentLink

variable {p : AgentSetup} {s t : AgentLink}

def Own (p : AgentSetup) (s : AgentLink) : Prop :=
  ∀ req, AgentMessage.register req ∈ s.network → req.IsOf p.agent

structure Sound (p : AgentSetup) (s : AgentLink) : Prop where
  own : s.Own p
  anchored : s.isDue p = true → s.Anchored p

theorem isDue_iff : s.isDue p = true ↔
    s.isRunning = true ∧ s.isApproved p = true ∧ s.isBanned p s.clock = false := by
  simp [isDue,and_assoc]

/-- The server takes a registration of a node that is due if the routes accept it. -/
theorem admits_iff (hdue : s.isDue p = true) :
    s.server.Admits p.hosts p.agent s.clock ↔ s.Accepts p := by
  obtain ⟨-,happ,hfree⟩ := isDue_iff.mp hdue
  exact ⟨fun ⟨hvalid,hrole,_,_⟩ => ⟨hrole,hvalid⟩,fun ⟨hrole,hvalid⟩ => ⟨hvalid,hrole,happ,hfree⟩⟩

theorem mem_of_mem_eraseIdx {α : Type} {l : List α} {i : ℕ} {x : α} (h : x ∈ l.eraseIdx i) :
    x ∈ l :=
  (List.eraseIdx_sublist l i).subset h

/-- A registration under way stays so, unless it is the message that is taken. -/
theorem mem_eraseIdx_or {α : Type} {l : List α} {i : ℕ} {x y : α} (hx : x ∈ l)
    (hi : l[i]? = some y) : x = y ∨ x ∈ l.eraseIdx i := by
  obtain ⟨j,hj⟩ := List.mem_iff_getElem?.mp hx
  by_cases hij : j = i
  · subst hij
    exact .inl (Option.some.inj (hj.symm.trans hi))
  · exact .inr (List.mem_eraseIdx_iff_getElem?.mpr ⟨j,hij,hj⟩)

theorem anchored_congr (hfit : t.fit? p = s.fit? p)
    (hrole : t.server.roleBlocks p.agent.nodeId = s.server.roleBlocks p.agent.nodeId)
    (hund : t.Underway ↔ s.Underway) : t.Anchored p ↔ s.Anchored p := by
  unfold Anchored Accepts
  rw [hfit,hrole,hund]

theorem underway_eraseIdx {i : ℕ} {msg : AgentMessage} (hi : s.network[i]? = some msg)
    (hmsg : ∀ req, msg ≠ .register req) (ht : t.network = s.network.eraseIdx i) :
    t.Underway ↔ s.Underway := by
  unfold Underway
  rw [ht]
  refine exists_congr fun req => ⟨mem_of_mem_eraseIdx,fun hin => ?_⟩
  exact (mem_eraseIdx_or hin hi).resolve_left fun heq => hmsg req heq.symm

theorem underway_cons {msg : AgentMessage} (hmsg : ∀ req, msg ≠ .register req)
    (l : List AgentMessage) :
    (∃ req, AgentMessage.register req ∈ msg::l) ↔ ∃ req, AgentMessage.register req ∈ l := by
  refine exists_congr fun req => ?_
  rw [List.mem_cons]
  exact or_iff_right fun heq => hmsg req heq.symm

section register

variable {req : NodeRegisterRequest} {i : ℕ}

/-- The state after a registration has reached the master. -/
def registeredAt (p : AgentSetup) (s : AgentLink) (req : NodeRegisterRequest) (i : ℕ) : AgentLink :=
  { s with
    server := (s.server.registerNode p.hosts req s.clock).1
    network := s.network.eraseIdx i }

theorem isDue_registeredAt (hreq : req.IsOf p.agent) :
    (s.registeredAt p req i).isDue p = s.isDue p := by
  unfold isDue
  have happ : (s.registeredAt p req i).isApproved p = s.isApproved p :=
    JoinState.lets_register true hreq
  have hban : (s.registeredAt p req i).isBanned p s.clock = s.isBanned p s.clock :=
    JoinState.isNodeBanned_register true _
  rw [happ]
  show (s.isRunning && s.isApproved p && !(s.registeredAt p req i).isBanned p s.clock) = _
  rw [hban]

/-- The master takes the registration of a node that is due, or has the node on record. -/
theorem fit?_registeredAt (hreq : req.IsOf p.agent) (hdue : s.isDue p = true)
    (h : s.Anchored p) : (s.registeredAt p req i).fit? p = some true := by
  by_cases hadm : s.server.Admits p.hosts p.agent s.clock
  · refine (JoinState.fit?_of_admits hreq hadm).trans ?_
    rcases h with hfit | ⟨hnone,-⟩
    · rw [← fit?,hfit]
      rfl
    · rw [← fit?,hnone]
      rfl
  · refine (JoinState.fit?_of_not_admits hreq hadm).trans ?_
    rcases h with hfit | ⟨-,hacc,-⟩
    · exact hfit
    · exact absurd ((admits_iff hdue).mpr hacc) hadm

theorem anchored_of_registeredAt (hreq : req.IsOf p.agent)
    (hi : s.network[i]? = some (.register req)) (h : (s.registeredAt p req i).Anchored p) :
    s.Anchored p := by
  have hund : s.Underway := ⟨req,List.mem_of_getElem? hi⟩
  by_cases hadm : s.server.Admits p.hosts p.agent s.clock
  · have hfit : (s.registeredAt p req i).fit? p = some ((s.fit? p).getD true) :=
      JoinState.fit?_of_admits hreq hadm
    cases hold : s.fit? p with
    | none => exact .inr ⟨hold,⟨hadm.2.1,hadm.1⟩,hund⟩
    | some b =>
      rw [hold] at hfit
      rcases h with hpos | ⟨hnone,-⟩
      · exact .inl (hold.trans (hfit.symm.trans hpos))
      · exact nomatch hfit.symm.trans hnone
  · have hfit : (s.registeredAt p req i).fit? p = s.fit? p :=
      JoinState.fit?_of_not_admits hreq hadm
    rcases h with hpos | ⟨hnone,⟨hrole,hvalid⟩,-⟩
    · exact .inl (hfit.symm.trans hpos)
    · refine .inr ⟨hfit.symm.trans hnone,⟨?_,hvalid⟩,hund⟩
      exact (JoinState.roleBlocks_registerNode hreq hadm).symm.trans hrole

end register

section fault

variable (hserver : t.server = { s.server with
    domain := s.server.domain.reportFault p.agent.nodeId s.clock })
  (hclock : t.clock = s.clock) (hphase : t.phase = s.phase)
include hserver

theorem fit?_faulted : t.fit? p = (s.fit? p).map fun _ => false := by
  rw [fit?,hserver]
  exact s.server.domain.fit?_reportFault _ _

theorem anchored_of_faulted (hund : t.Underway → s.Underway) (h : t.Anchored p) :
    s.Anchored p := by
  have hfit := fit?_faulted hserver
  rcases h with hpos | ⟨hnone,⟨hrole,hvalid⟩,hsent⟩
  · cases hold : s.fit? p <;> rw [hold] at hfit <;> exact nomatch hfit.symm.trans hpos
  · refine .inr ⟨Option.map_eq_none_iff.mp (hfit.symm.trans hnone),⟨?_,hvalid⟩,hund hsent⟩
    rw [hserver] at hrole
    exact hrole

include hclock hphase

theorem isDue_faulted : t.isDue p = (s.isDue p && !((s.fit? p).isSome && decide (faultThreshold ≤
    (s.server.domain.windowedFaults p.agent.nodeId s.clock).length))) := by
  have hrun : t.isRunning = s.isRunning := by
    rw [isRunning,hphase,isRunning]
  have happ : t.isApproved p = s.isApproved p := by
    rw [isApproved,hserver]
    rfl
  have hban : t.isBanned p t.clock = (s.isBanned p s.clock || ((s.fit? p).isSome &&
      decide (faultThreshold ≤
        (s.server.domain.windowedFaults p.agent.nodeId s.clock).length))) := by
    rw [isBanned,hclock,hserver]
    exact s.server.domain.isNodeBanned_reportFault _ _
  rw [isDue,hrun,happ,hban,isDue,Bool.not_or,Bool.and_assoc,Bool.and_assoc,Bool.and_assoc]

/-- A report of a fault leaves the agent running for nothing unless it is banned for it. -/
theorem faulted_iff (hs : s.Sound p) (hund : s.Underway → t.Underway) :
    (t.isDue p = true → t.Anchored p) ↔ ¬s.FaultStays p := by
  have hfit := fit?_faulted hserver
  have hdue := isDue_faulted hserver hclock hphase
  cases hold : s.fit? p with
  | none =>
    rw [hold] at hfit hdue
    refine iff_of_true (fun h => ?_) fun h => h.2.1 hold
    have hsdue : s.isDue p = true := by
      rw [hdue] at h
      exact (Bool.and_eq_true_iff.mp h).1
    rcases hs.anchored hsdue with hpos | ⟨-,⟨hrole,hvalid⟩,hsent⟩
    · exact nomatch hold.symm.trans hpos
    · refine .inr ⟨hfit,⟨?_,hvalid⟩,hund hsent⟩
      rw [hserver]
      exact hrole
  | some b =>
    rw [hold] at hfit hdue
    have hnot : ¬t.Anchored p := by
      rintro (hpos | ⟨hnone,-⟩)
      · exact nomatch hfit.symm.trans hpos
      · exact nomatch hfit.symm.trans hnone
    rw [FaultStays,hold,hdue]
    simp only [hnot,imp_false,Option.isSome_some,Bool.true_and,Bool.and_eq_true,
      Bool.not_eq_true',decide_eq_false_iff_not,not_le,ne_eq,reduceCtorEq,not_false_iff,true_and]

end fault

theorem released_iff (hs : s.Sound p) (hanch : t.Anchored p ↔ s.Anchored p)
    (hrun : t.isRunning = s.isRunning) (happ : t.isApproved p = s.isApproved p) :
    (t.isDue p = true → t.Anchored p) ↔ ¬(t.isBanned p t.clock = false ∧ s.ReleasedLate p) := by
  have hsound := hs.anchored
  rw [isDue_iff] at hsound
  rw [isDue_iff,hrun,happ,hanch,ReleasedLate]
  cases hban : s.isBanned p s.clock <;> rw [hban] at hsound <;> tauto

theorem quiet_iff (hs : s.Sound p) (hanch : t.Anchored p ↔ s.Anchored p)
    (hdue : t.isDue p = true → s.isDue p = true) : (t.isDue p = true → t.Anchored p) ↔ ¬False :=
  iff_of_true (fun h => hanch.mpr (hs.anchored (hdue h))) not_false

def isReport : AgentMessage → Bool
  | .heartbeat .. | .load .. => true
  | _ => false

theorem anchored_report {i : ℕ} {msg : AgentMessage} (h : s.step p (.deliver i) = some t)
    (hi : s.network[i]? = some msg) (hmsg : isReport msg = true) : t.Anchored p ↔ s.Anchored p := by
  have ht := Option.some.inj ((congrArg (Option.map _) hi).symm.trans h)
  have hund : t.Underway ↔ s.Underway := by
    refine underway_eraseIdx hi (fun req hreq => ?_) (by rw [← ht])
    rw [hreq] at hmsg
    exact nomatch hmsg
  refine anchored_congr ?_ ?_ hund
  · rw [← ht]
    cases msg with
    | heartbeat total available active supervisor =>
      exact s.server.domain.fit?_updateHeartbeat _ _ _ _ _ _
    | load metrics used total supervisor => exact s.server.domain.fit?_updateNodeLoad _ _ _ _ _ _
    | register req => exact nomatch hmsg
    | fault => exact nomatch hmsg
  · rw [← ht]
    cases msg with
    | heartbeat total available active supervisor => rfl
    | load metrics used total supervisor => rfl
    | register req => exact nomatch hmsg
    | fault => exact nomatch hmsg

/-- The step concerns neither the record of the node nor its registrations. -/
def isPlain : LinkEvent → Bool
  | .registered | .beat .. | .refresh | .probe | .probed _ | .tick _ | .reject _ | .revoke
  | .manualJoin .. | .unban => true
  | _ => false

theorem anchored_plain {e : LinkEvent} (h : s.step p e = some t) (he : isPlain e = true) :
    t.Anchored p ↔ s.Anchored p := by
  cases e with
  | registered =>
    obtain ⟨-,ht⟩ := Option.ite_none_right_eq_some.mp h
    obtain rfl := Option.some.inj ht
    exact anchored_congr rfl rfl Iff.rfl
  | beat total available active supervisor metrics used gpuTotal =>
    obtain ⟨-,ht⟩ := Option.ite_none_right_eq_some.mp h
    obtain rfl := Option.some.inj ht
    refine anchored_congr rfl rfl ((underway_cons ?_ _).trans (underway_cons ?_ _)) <;>
      · intro _ h
        cases h
  | refresh =>
    obtain rfl := Option.some.inj h
    exact anchored_congr (s.server.domain.fit?_refreshNodes _ _ _) rfl Iff.rfl
  | probe =>
    obtain ⟨-,ht⟩ := Option.ite_none_left_eq_some.mp h
    obtain rfl := Option.some.inj ht
    exact anchored_congr (s.server.domain.fit?_probeBannedNodes _ _) rfl Iff.rfl
  | probed ok =>
    obtain ⟨-,ht⟩ := Option.ite_none_right_eq_some.mp h
    obtain rfl := Option.some.inj ht
    exact anchored_congr (s.server.domain.fit?_probed p.agent.nodeId s.clock ok) rfl Iff.rfl
  | tick now =>
    obtain ⟨-,ht⟩ := Option.ite_none_right_eq_some.mp h
    obtain rfl := Option.some.inj ht
    exact anchored_congr rfl rfl Iff.rfl
  | reject reason =>
    obtain rfl := Option.some.inj h
    obtain ⟨hdomain,hperm⟩ := s.server.domain_rejectNode p.agent.nodeId reason
    refine anchored_congr ?_ ?_ Iff.rfl
    · exact congrArg (fun d => d.fit? p.agent.nodeId) hdomain
    · rw [JoinState.roleBlocks,hperm,JoinState.roleBlocks]
  | revoke =>
    obtain rfl := Option.some.inj h
    exact anchored_congr rfl rfl Iff.rfl
  | manualJoin hostname ipAddress port =>
    obtain ⟨-,ht⟩ := Option.ite_none_right_eq_some.mp h
    obtain rfl := Option.some.inj ht
    exact anchored_congr rfl rfl Iff.rfl
  | unban =>
    obtain rfl := Option.some.inj h
    exact anchored_congr rfl rfl Iff.rfl
  | start | stop | deliver | lose | cleanup | dispatchFailed | approve | unregister | restart =>
    cases he

theorem deliver_iff (hs : s.Sound p) {i : ℕ} (h : s.step p (.deliver i) = some t) :
    (t.isDue p = true → t.Anchored p) ↔ ¬s.Strands p (.deliver i) := by
  obtain ⟨msg,hi,ht⟩ := Option.map_eq_some_iff.mp h
  have hserver : t.server = s.server.receive p.hosts p.agent.nodeId s.clock msg := by rw [← ht]
  have hnet : t.network = s.network.eraseIdx i := by rw [← ht]
  show _ ↔ ¬(_ ∧ _)
  rw [hi]
  cases msg with
  | register req =>
    have hreq := hs.own req (List.mem_of_getElem? hi)
    obtain rfl : s.registeredAt p req i = t := ht
    refine iff_of_true (fun hdue => .inl ?_) fun hfault => nomatch hfault.1
    rw [isDue_registeredAt hreq] at hdue
    exact fit?_registeredAt hreq hdue (hs.anchored hdue)
  | heartbeat total available active supervisor =>
    have hdue : t.isDue p = s.isDue p := by
      rw [← ht]
      rfl
    refine (quiet_iff hs (anchored_report h hi rfl) fun hpos => ?_).trans (by simp)
    exact hdue.symm.trans hpos
  | load metrics used total supervisor =>
    have hdue : t.isDue p = s.isDue p := by
      have hban : t.isBanned p s.clock = s.isBanned p s.clock := by
        rw [isBanned,hserver]
        exact s.server.domain.isNodeBanned_updateNodeLoad _ _ _ _ _ _
      rw [← ht] at hban ⊢
      exact congrArg (fun b => s.isRunning && s.isApproved p && !b) hban
    refine (quiet_iff hs (anchored_report h hi rfl) fun hpos => ?_).trans (by simp)
    exact hdue.symm.trans hpos
  | fault =>
    have hund := (underway_eraseIdx hi (fun _ => nofun) hnet).mpr
    refine (faulted_iff hserver ?_ ?_ hs hund).trans (by simp)
    · rw [← ht]
    · rw [← ht]

/-- The approval of a pending request brings a node on record whose host may register. -/
theorem anchored_approved {r : ApprovalRequest} (hfree : s.isBanned p s.clock = false)
    (hperm : t.server.permissions = s.server.permissions) (hnet : t.network = s.network)
    (hdomain : t.server.domain = if s.server.domain.nodes.get? p.agent.nodeId = none then
        (s.server.domain.registerNode p.hosts.registerable (r.nodeRecord p.agent.nodeId s.clock)
          s.clock).1
      else s.server.domain) :
    t.Anchored p ↔
      s.Anchored p ∨ (s.fit? p = none ∧ p.hosts.registerable r.ipAddress = true) := by
  have hsame : t.server.domain = s.server.domain → (t.Anchored p ↔ s.Anchored p) := by
    intro hsame
    refine anchored_congr ?_ ?_ ?_
    · rw [fit?,hsame,fit?]
    · rw [JoinState.roleBlocks,hperm,JoinState.roleBlocks]
    · rw [Underway,hnet,Underway]
  have hnone : s.fit? p = none ↔ s.server.domain.nodes.get? p.agent.nodeId = none :=
    Option.map_eq_none_iff
  by_cases hnew : s.server.domain.nodes.get? p.agent.nodeId = none
  · rw [if_pos hnew] at hdomain
    have hadmits : s.server.domain.admits p.hosts.registerable
        (r.nodeRecord p.agent.nodeId s.clock) s.clock = p.hosts.registerable r.ipAddress := by
      have hban : s.server.domain.isNodeBanned p.agent.nodeId s.clock = false := hfree
      show (p.hosts.registerable r.ipAddress &&
        !s.server.domain.isNodeBanned p.agent.nodeId s.clock) = _
      rw [hban,Bool.not_false,Bool.and_true]
    cases hhost : p.hosts.registerable r.ipAddress with
    | true =>
      have hfit : t.fit? p = some true := by
        rw [fit?,hdomain,NodeDomain.fit?,
          (s.server.domain.registerNode_of_admits (hadmits.trans hhost)).1]
        refine (s.server.domain.fit?_registeredNode _ _ (r.nodeRecord _ _) rfl).trans ?_
        show some ((s.fit? p).getD true) = some true
        rw [hnone.mpr hnew]
        rfl
      exact iff_of_true (.inl hfit) (.inr ⟨hnone.mpr hnew,rfl⟩)
    | false =>
      rw [s.server.domain.registerNode_of_refused (by rw [hadmits,hhost]; decide)] at hdomain
      exact (hsame hdomain).trans (by simp)
  · rw [if_neg hnew] at hdomain
    refine (hsame hdomain).trans (iff_of_eq ?_)
    rw [hnone]
    simp [hnew]

theorem approve_iff (hs : s.Sound p) {approvedBy : String}
    (h : s.step p (.approve approvedBy) = some t) :
    (t.isDue p = true → t.Anchored p) ↔ ¬s.Strands p (.approve approvedBy) := by
  have ht := Option.some.inj h
  by_cases hrequest : ∃ m r, p.agent.nodeId ≠ "" ∧ s.server.approvals = some m ∧
      m.pending.get? p.agent.nodeId = some r
  · obtain ⟨m,r,hid,hm,hr⟩ := hrequest
    obtain ⟨hlets,hperm,hdomain⟩ := JoinState.approveNode_of_pending (s := s.server) (h := p.hosts)
      s.clock approvedBy hid hm hr rfl
    have hserver : t.server =
        (s.server.approveNode p.hosts p.agent.nodeId approvedBy s.clock).1 := by
      rw [← ht]
    rw [← hserver] at hlets hperm hdomain
    have hclock : t.clock = s.clock := by rw [← ht]
    have hban : t.isBanned p t.clock = s.isBanned p s.clock := by
      rw [isBanned,hdomain,hclock]
      split_ifs
      · exact NodeDomain.isNodeBanned_registerNode _ _
      · rfl
    have hdue : t.isDue p = true ↔ s.isRunning = true ∧ s.isBanned p s.clock = false := by
      have hrun : t.isRunning = s.isRunning := by
        rw [← ht]
        rfl
      rw [isDue_iff,hrun,hban]
      exact and_congr_right fun _ => and_iff_right hlets
    have hstrands : s.Strands p (.approve approvedBy) ↔ (s.isRunning = true ∧
        s.isBanned p s.clock = false) ∧ ¬s.Anchored p ∧
          (s.fit? p = none → p.hosts.registerable r.ipAddress = false) := by
      show (_ ∧ _) ↔ _
      rw [hm]
      constructor
      · rintro ⟨hrun,hfree,hnot,-,m',r',hm',hr',hhost⟩
        obtain rfl := Option.some.inj hm'
        obtain rfl := Option.some.inj (hr.symm.trans hr')
        exact ⟨⟨hrun,hfree⟩,hnot,hhost⟩
      · rintro ⟨⟨hrun,hfree⟩,hnot,hhost⟩
        exact ⟨hrun,hfree,hnot,hid,m,r,rfl,hr,hhost⟩
    rw [hdue,hstrands]
    have hanch := fun hfree : s.isBanned p s.clock = false =>
      anchored_approved (t := t) hfree hperm (by rw [← ht]) hdomain
    constructor
    · rintro hback ⟨hpre,hnot,hhost⟩
      rcases (hanch hpre.2).mp (hback hpre) with hold | ⟨hnew,hpos⟩
      · exact hnot hold
      · exact nomatch (hhost hnew).symm.trans hpos
    · intro hnot hpre
      by_contra hno
      refine hnot ⟨hpre,fun hold => hno ((hanch hpre.2).mpr (.inl hold)),fun hnew => ?_⟩
      exact Bool.eq_false_iff.mpr fun hpos => hno ((hanch hpre.2).mpr (.inr ⟨hnew,hpos⟩))
  · have hserver : (s.server.approveNode p.hosts p.agent.nodeId approvedBy s.clock).1 = s.server :=
      JoinState.approveNode_of_no_request approvedBy fun m r hid hm hr =>
        hrequest ⟨m,r,hid,hm,hr⟩
    rw [hserver] at ht
    obtain rfl : s = t := ht
    refine iff_of_true hs.anchored ?_
    rintro ⟨-,-,-,hid,m,r,hm,hr,-⟩
    exact hrequest ⟨m,r,hid,hm,hr⟩

theorem manualJoin_iff (hs : s.Sound p) {hostname ipAddress : String} {port : ℤ}
    (h : s.step p (.manualJoin hostname ipAddress port) = some t) :
    (t.isDue p = true → t.Anchored p) ↔ ¬s.Strands p (.manualJoin hostname ipAddress port) := by
  obtain ⟨-,ht⟩ := Option.ite_none_right_eq_some.mp h
  have ht := Option.some.inj ht
  have happ : t.isApproved p = s.server.approvals.all fun m =>
      m.lets p.hosts.autoApproves p.agent.nodeId hostname ipAddress ||
        m.lets p.hosts.autoApproves p.agent.nodeId p.agent.hostname p.agent.ipAddress := by
    rw [← ht]
    exact JoinState.lets_manualJoin hostname ipAddress port
  have hdue : t.isDue p = true ↔ s.isRunning = true ∧ t.isApproved p = true ∧
      s.isBanned p s.clock = false := by
    rw [isDue_iff,← ht]
    rfl
  rw [hdue,anchored_plain h rfl,happ]
  show _ ↔ ¬(_ ∧ _)
  have hsound := hs.anchored
  rw [isDue_iff] at hsound
  unfold isApproved JoinState.lets at hsound ⊢
  cases hm : s.server.approvals with
  | none =>
    rw [hm] at hsound
    exact iff_of_true (fun hpre => hsound hpre) fun hnot => nomatch hnot.2.2.2.1
  | some m =>
    rw [hm] at hsound
    simp only [Option.all_some,Option.some.injEq,exists_eq_left'] at hsound ⊢
    cases hold : m.lets p.hosts.autoApproves p.agent.nodeId p.agent.hostname p.agent.ipAddress with
    | true =>
      refine iff_of_true (fun hpre => hsound ⟨hpre.1,hold,hpre.2.2⟩) fun hnot => ?_
      exact nomatch hnot.2.2.2.1
    | false =>
      rw [Bool.or_false]
      constructor
      · rintro hback ⟨hrun,hfree,hnot,-,hlets⟩
        exact hnot (hback ⟨hrun,hlets,hfree⟩)
      · rintro hnot ⟨hrun,hlets,hfree⟩
        by_contra hno
        exact hnot ⟨hrun,hfree,hno,rfl,hlets⟩

theorem restart_iff (h : s.step p .restart = some t) :
    (t.isDue p = true → t.Anchored p) ↔ ¬s.Strands p .restart := by
  have ht := Option.some.inj h
  have hanch : t.Anchored p ↔ p.agent.Valid p.hosts ∧ s.Underway := by
    have hnone : t.fit? p = none := by
      rw [← ht]
      rfl
    have hrole : t.server.roleBlocks p.agent.nodeId = false := by
      rw [← ht]
      exact JoinState.roleBlocks_create _ _
    have hund : t.Underway ↔ s.Underway := by
      rw [← ht]
      rfl
    rw [Anchored,Accepts,hnone,hrole,hund]
    simp
  have hdue : t.isDue p = true ↔ s.isRunning = true ∧ (s.server.approvals.isSome = true →
      p.hosts.autoApproves p.agent.hostname p.agent.ipAddress = true) := by
    have hrun : t.isRunning = s.isRunning := by
      rw [← ht]
      rfl
    have hban : t.isBanned p t.clock = false := by
      rw [← ht]
      rfl
    have happ : t.isApproved p = true ↔ (s.server.approvals.isSome = true →
        p.hosts.autoApproves p.agent.hostname p.agent.ipAddress = true) := by
      rw [← ht]
      show ((s.server.approvals.map fun _ => NodeApprovalManager.create).all _) = true ↔ _
      cases s.server.approvals with
      | none => simp
      | some m => simp [NodeApprovalManager.lets,NodeApprovalManager.create,Dict.contains]
    rw [isDue_iff,hrun,happ,hban]
    simp
  rw [hdue,hanch]
  show _ ↔ ¬(_ ∧ _)
  tauto

theorem start_iff {req : NodeRegisterRequest} (h : s.step p (.start req) = some t) :
    (t.isDue p = true → t.Anchored p) ↔ ¬s.Strands p (.start req) := by
  have ht := Option.some.inj (Option.ite_none_right_eq_some.mp h).2
  have hund : t.Underway := ⟨req,by rw [← ht]; exact List.mem_cons_self ..⟩
  have hanch : t.Anchored p ↔
      s.fit? p = some true ∨ (s.fit? p = none ∧ s.Accepts p ∧ t.Underway) := by
    rw [← ht]
    rfl
  have hdue : t.isDue p = true ↔ s.isApproved p = true ∧ s.isBanned p s.clock = false := by
    rw [isDue_iff,← ht]
    exact and_iff_right rfl
  rw [hdue,hanch]
  show _ ↔ ¬(_ ∧ _)
  tauto

theorem lose_iff (hs : s.Sound p) {i : ℕ} (h : s.step p (.lose i) = some t) :
    (t.isDue p = true → t.Anchored p) ↔ ¬s.Strands p (.lose i) := by
  obtain ⟨msg,hi,ht⟩ := Option.map_eq_some_iff.mp h
  have hdue : t.isDue p = s.isDue p := by
    rw [← ht]
    rfl
  have hanch : t.Anchored p ↔ s.fit? p = some true ∨ (s.fit? p = none ∧ s.Accepts p ∧
      ∃ req, AgentMessage.register req ∈ s.network.eraseIdx i) := by
    rw [← ht]
    rfl
  rw [hdue,hanch]
  show _ ↔ ¬(_ ∧ _)
  constructor
  · rintro hback ⟨hpos,hfit,hnone⟩
    rcases hback hpos with hold | ⟨-,-,req,hin⟩
    · exact hfit hold
    · exact hnone req hin
  · intro hnot hpos
    rcases hs.anchored hpos with hold | ⟨hnew,hacc,-⟩
    · exact .inl hold
    · refine .inr ⟨hnew,hacc,?_⟩
      by_contra hno
      exact hnot ⟨hpos,by rw [hnew]; nofun,fun req hin => hno ⟨req,hin⟩⟩

theorem cleanup_iff (hs : s.Sound p) (h : s.step p .cleanup = some t) :
    (t.isDue p = true → t.Anchored p) ↔ ¬s.Strands p .cleanup := by
  have ht := Option.some.inj h
  have hfit : t.fit? p =
      if (s.node? p).any (fun n => NodeDomain.isStale s.clock n.toNodeInfo) = true then none
      else s.fit? p := by
    rw [← ht]
    exact s.server.domain.fit?_cleanupOfflineNodes _ _
  have hdue : t.isDue p = s.isDue p := by
    rw [← ht]
    rfl
  have hacc : t.Accepts p ∧ t.Underway ↔ s.Accepts p ∧ s.Underway := by
    rw [← ht]
    rfl
  rw [hdue]
  show _ ↔ ¬(_ ∧ _)
  by_cases hstale : (s.node? p).any (fun n => NodeDomain.isStale s.clock n.toNodeInfo) = true
  · rw [if_pos hstale] at hfit
    rw [Anchored,hfit,hacc]
    simp only [hstale,reduceCtorEq,false_or,true_and,and_true]
    tauto
  · rw [if_neg hstale] at hfit
    refine iff_of_true (fun hpos => ?_) fun hnot => hstale hnot.2.2
    have hold := hs.anchored hpos
    rw [Anchored,← hfit,← hacc] at hold
    exact hold

theorem unregister_iff {banned : Bool} (h : s.step p (.unregister banned) = some t) :
    (t.isDue p = true → t.Anchored p) ↔ ¬s.Strands p (.unregister banned) := by
  have ht := Option.some.inj h
  have hanch : t.Anchored p ↔ s.Accepts p ∧ s.Underway := by
    have hfit : t.fit? p = none := by
      rw [← ht]
      exact s.server.domain.fit?_unregisterNode _ _ _
    have hacc : t.Accepts p ∧ t.Underway ↔ s.Accepts p ∧ s.Underway := by
      rw [← ht]
      rfl
    rw [Anchored,hfit,hacc]
    simp
  have hdue : t.isDue p = true ↔ banned = false ∧ s.isDue p = true := by
    have hban : t.isBanned p t.clock = (s.isBanned p s.clock || banned) := by
      rw [← ht]
      exact s.server.domain.isNodeBanned_unregisterNode _ _ _
    have hrun : t.isRunning = s.isRunning ∧ t.isApproved p = s.isApproved p := by
      rw [← ht]
      exact ⟨rfl,rfl⟩
    rw [isDue_iff,hrun.1,hrun.2,hban,isDue_iff,Bool.or_eq_false_iff]
    tauto
  rw [hdue,hanch]
  show _ ↔ ¬(_ ∧ _)
  tauto

/-- The step leaves the agent running for nothing exactly in these cases. -/
theorem strands_iff (hs : s.Sound p) {e : LinkEvent} (h : s.step p e = some t) :
    (t.isDue p = true → t.Anchored p) ↔ ¬s.Strands p e := by
  cases e with
  | start req => exact start_iff h
  | registered =>
    refine quiet_iff hs (anchored_plain h rfl) fun hdue => ?_
    obtain ⟨hphase,ht⟩ := Option.ite_none_right_eq_some.mp h
    obtain rfl := Option.some.inj ht
    rw [isDue_iff] at hdue ⊢
    exact ⟨by rw [isRunning,hphase]; rfl,hdue.2⟩
  | beat total available active supervisor metrics used gpuTotal =>
    refine quiet_iff hs (anchored_plain h rfl) fun hdue => ?_
    obtain ⟨-,ht⟩ := Option.ite_none_right_eq_some.mp h
    obtain rfl := Option.some.inj ht
    exact hdue
  | stop =>
    obtain rfl := Option.some.inj (Option.ite_none_left_eq_some.mp h).2
    refine iff_of_true (fun hdue => ?_) not_false
    exact absurd (isDue_iff.mp hdue).1 (by simp [isRunning])
  | deliver i => exact deliver_iff hs h
  | lose i => exact lose_iff hs h
  | refresh =>
    refine quiet_iff hs (anchored_plain h rfl) fun hdue => ?_
    obtain rfl := Option.some.inj h
    exact hdue
  | cleanup => exact cleanup_iff hs h
  | probe =>
    refine quiet_iff hs (anchored_plain h rfl) fun hdue => ?_
    obtain ⟨-,ht⟩ := Option.ite_none_left_eq_some.mp h
    obtain rfl := Option.some.inj ht
    have hban := s.server.domain.isNodeBanned_probeBannedNodes p.agent.nodeId s.clock
    rw [isDue_iff] at hdue ⊢
    exact ⟨hdue.1,hdue.2.1,hban.symm.trans hdue.2.2⟩
  | probed ok =>
    have hanch := anchored_plain h rfl
    have ht := Option.some.inj (Option.ite_none_right_eq_some.mp h).2
    have hban : t.isBanned p t.clock = !ok := by
      rw [← ht]
      exact s.server.domain.isNodeBanned_probed _ _ _
    refine (released_iff hs hanch (by rw [← ht]; rfl) (by rw [← ht]; rfl)).trans ?_
    rw [hban,Bool.not_eq_false']
    rfl
  | dispatchFailed =>
    have ht := Option.some.inj h
    refine faulted_iff (by rw [← ht]; rfl) (by rw [← ht]; rfl) (by rw [← ht]; rfl) hs ?_
    rw [← ht]
    exact id
  | tick now =>
    have hanch := anchored_plain h rfl
    obtain rfl := Option.some.inj (Option.ite_none_right_eq_some.mp h).2
    exact released_iff hs hanch rfl rfl
  | approve approvedBy => exact approve_iff hs h
  | reject reason =>
    refine quiet_iff hs (anchored_plain h rfl) fun hdue => ?_
    obtain rfl := Option.some.inj h
    have hdomain := (s.server.domain_rejectNode p.agent.nodeId reason).1
    rw [isDue_iff] at hdue ⊢
    refine ⟨hdue.1,JoinState.lets_rejectNode reason hdue.2.1,?_⟩
    exact (congrArg (fun d => d.isNodeBanned p.agent.nodeId s.clock) hdomain).symm.trans hdue.2.2
  | revoke =>
    refine quiet_iff hs (anchored_plain h rfl) fun hdue => ?_
    obtain rfl := Option.some.inj h
    rw [isDue_iff] at hdue ⊢
    exact ⟨hdue.1,JoinState.lets_revokeApproval hdue.2.1,hdue.2.2⟩
  | manualJoin hostname ipAddress port => exact manualJoin_iff hs h
  | unregister banned => exact unregister_iff h
  | unban =>
    have hanch := anchored_plain h rfl
    have ht := Option.some.inj h
    have hban : t.isBanned p t.clock = false := by
      rw [← ht]
      exact s.server.domain.isNodeBanned_unbanNode _ _
    refine (released_iff hs hanch (by rw [← ht]; rfl) (by rw [← ht]; rfl)).trans ?_
    exact not_congr (and_iff_right hban)
  | restart => exact restart_iff h

end AgentLink
end FusionMultiNodes

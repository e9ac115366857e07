import FusionMultiNodes.Master.RejoinSteps

/-! A node whose agent runs comes back by itself exactly as long as it is on record without a
fault, or a registration of it that is going to be accepted is under way. -/
namespace FusionMultiNodes
namespace AgentLink

variable {p : AgentSetup} {s t : AgentLink}

theorem own_step {e : LinkEvent} (hown : s.Own p) (h : s.step p e = some t) : t.Own p := by
  cases e with
  | start req' =>
    obtain ⟨⟨-,hreq⟩,ht⟩ := Option.ite_none_right_eq_some.mp h
    obtain rfl := Option.some.inj ht
    intro req hin
    rcases List.mem_cons.mp hin with heq | hin
    · cases heq
      exact hreq
    · exact hown req hin
  | beat total available active supervisor metrics used gpuTotal =>
    obtain rfl := Option.some.inj (Option.ite_none_right_eq_some.mp h).2
    intro req hin
    simp only [List.mem_cons,reduceCtorEq,false_or] at hin
    exact hown req hin
  | stop =>
    obtain rfl := Option.some.inj (Option.ite_none_left_eq_some.mp h).2
    intro req hin
    simp only [List.mem_cons,reduceCtorEq,false_or] at hin
    exact hown req hin
  | deliver i | lose i =>
    obtain ⟨msg,-,rfl⟩ := Option.map_eq_some_iff.mp h
    exact fun req hin => hown req (mem_of_mem_eraseIdx hin)
  | probe =>
    obtain rfl := Option.some.inj (Option.ite_none_left_eq_some.mp h).2
    exact hown
  | registered | probed | tick | manualJoin =>
    obtain rfl := Option.some.inj (Option.ite_none_right_eq_some.mp h).2
    exact hown
  | refresh | cleanup | dispatchFailed | approve | reject | revoke | unregister | unban | restart =>
    obtain rfl := Option.some.inj h
    exact hown

theorem anchored_of_unaided {e : LinkEvent} (hown : s.Own p) (h : s.step p e = some t)
    (he : e.unaided = true) (hanch : t.Anchored p) : s.Anchored p := by
  cases e with
  | registered | beat | refresh | probe | probed | tick => exact (anchored_plain h rfl).mp hanch
  | deliver i =>
    obtain ⟨msg,hi,ht⟩ := Option.map_eq_some_iff.mp h
    cases msg with
    | register req =>
      obtain rfl : s.registeredAt p req i = t := ht
      exact anchored_of_registeredAt (hown req (List.mem_of_getElem? hi)) hi hanch
    | heartbeat total available active supervisor => exact (anchored_report h hi rfl).mp hanch
    | load metrics used total supervisor => exact (anchored_report h hi rfl).mp hanch
    | fault =>
      refine anchored_of_faulted (by rw [← ht]; rfl) ?_ hanch
      exact (underway_eraseIdx hi (fun _ => nofun) (by rw [← ht])).mp
  | cleanup =>
    by_cases hstale : (s.node? p).any (fun n => NodeDomain.isStale s.clock n.toNodeInfo) = true
    · exact .inl (s.server.domain.fit?_of_isStale _ _ hstale)
    · obtain rfl := Option.some.inj h
      have hfit : (s.withDomain (s.server.domain.cleanupOfflineNodes s.clock)).fit? p = s.fit? p :=
        (s.server.domain.fit?_cleanupOfflineNodes _ _).trans (if_neg hstale)
      exact (anchored_congr hfit rfl Iff.rfl).mp hanch
  | dispatchFailed =>
    have ht := Option.some.inj h
    refine anchored_of_faulted (by rw [← ht]; rfl) ?_ hanch
    rw [← ht]
    exact id
  | start | stop | lose | approve | reject | revoke | manualJoin | unregister | unban | restart =>
    exact nomatch he

theorem Listed.anchored (h : s.Listed p) : s.Anchored p := by
  obtain ⟨n,hn,hin⟩ := h
  have hup := (Bool.and_eq_true_iff.mp (List.mem_filter.mp hin).2).1
  have hnode : s.server.domain.nodes.get? p.agent.nodeId = some n := hn
  left
  rw [fit?,NodeDomain.fit?,hnode,Option.map_some]
  rcases Bool.or_eq_true_iff.mp hup with hup | hup <;> rw [of_decide_eq_true hup] <;> rfl

/-- A node that has been heard of just now is listed if it is online or busy. -/
theorem listed_of_node {n : NodeRecord} (hn : s.node? p = some n)
    (hup : n.status = .online ∨ n.status = .busy) (halive : n.lastHeartbeat = s.clock) :
    s.Listed p := by
  refine ⟨n,hn,List.mem_filter.mpr ⟨Dict.mem_values_iff.mpr ⟨_,hn⟩,?_⟩⟩
  rw [halive,sub_self,decide_eq_true p.timeout_pos,Bool.and_true]
  rcases hup with hup | hup <;> rw [hup] <;> rfl

theorem Listed.returns (h : s.Listed p) : s.Returns p :=
  ⟨[],s,by simp,rfl,h⟩

theorem Returns.cons {e : LinkEvent} (he : e.unaided = true) (hstep : s.step p e = some t)
    (h : t.Returns p) : s.Returns p := by
  obtain ⟨es,u,hes,hexec,hlisted⟩ := h
  refine ⟨e::es,u,?_,?_,hlisted⟩
  · intro e' he'
    rcases List.mem_cons.mp he' with rfl | he'
    · exact he
    · exact hes e' he'
  · exact (congrArg (fun o => o.bind fun x => (machine p).exec x es) hstep).trans hexec

theorem Returns.anchored (hown : s.Own p) (h : s.Returns p) : s.Anchored p := by
  obtain ⟨es,t,hes,hexec,hlisted⟩ := h
  induction es generalizing s with
  | nil =>
    obtain rfl : s = t := Option.some.inj hexec
    exact hlisted.anchored
  | cons e es ih =>
    obtain ⟨u,hu,hrest⟩ := Option.bind_eq_some_iff.mp hexec
    have hes' := fun e' he' => hes e' (List.mem_cons_of_mem _ he')
    exact anchored_of_unaided hown hu (hes e (List.mem_cons_self ..))
      (ih (own_step hown hu) hes' hrest)

/-- The next heartbeat lists a node that is on record without a fault. -/
theorem returns_of_beating (hphase : s.phase = .beating) (hfit : s.fit? p = some true) :
    s.Returns p := by
  obtain ⟨n,hn,hok⟩ := Option.map_eq_some_iff.mp hfit
  have hbeat : s.step p (.beat 0 0 0 false ⟨0,0,0,0,0,0⟩ 0 0) = some { s with
      network := .heartbeat 0 0 0 false :: .load ⟨0,0,0,0,0,0⟩ 0 0 false :: s.network } :=
    if_pos hphase
  refine Returns.cons rfl hbeat (Returns.cons (e := .deliver 0) rfl rfl (Listed.returns ?_))
  refine listed_of_node (n := { n with
    lastHeartbeat := s.clock
    totalMemoryGb := 0
    availableMemoryGb := 0
    activeTasks := 0
    supervisorAvailable := false
    status := if n.status = .offline then .online else n.status }) ?_ ?_ rfl
  · refine (Dict.get?_modify _ _ _ _).trans ?_
    rw [if_pos rfl,hn]
    rfl
  · dsimp only
    cases hstatus : n.status with
    | online | offline | busy => simp
    | fault | error =>
      rw [hstatus] at hok
      exact nomatch hok

/-- The registration under way lists a node that the routes accept. -/
theorem returns_of_underway (hown : s.Own p) (hdue : s.isDue p = true) (hnone : s.fit? p = none)
    (hacc : s.Accepts p) (hund : s.Underway) : s.Returns p := by
  obtain ⟨req,hin⟩ := hund
  obtain ⟨i,hi⟩ := List.mem_iff_getElem?.mp hin
  have hreq := hown req hin
  have hadm := (admits_iff hdue).mpr hacc
  have hstep : s.step p (.deliver i) = some (s.registeredAt p req i) := by
    rw [step,hi]
    rfl
  have hnew : s.server.domain.nodes.get? (req.nodeRecord s.clock).nodeId = none := by
    rw [show (req.nodeRecord s.clock).nodeId = p.agent.nodeId from hreq.1]
    exact Option.map_eq_none_iff.mp hnone
  have hnode : (s.registeredAt p req i).node? p =
      some (s.server.domain.registeredNode (req.nodeRecord s.clock) s.clock) := by
    have hnodes := s.server.nodes_register p.hosts req s.clock true
    rw [if_pos ((JoinState.register_ok_iff_admits hreq).mpr hadm)] at hnodes
    rw [node?,← hreq.1]
    exact (congrArg (fun d => d.get? req.nodeId) hnodes).trans (Dict.get?_set_self _ _ _)
  rw [NodeDomain.registeredNode_unknown hnew] at hnode
  exact Returns.cons rfl hstep (listed_of_node hnode (.inl rfl) rfl).returns

/-- A node that is due comes back exactly if it is on record without a fault, or a registration
that is going to be accepted is under way. -/
theorem returns_iff (hown : s.Own p) (hdue : s.isDue p = true) :
    s.Returns p ↔ s.Anchored p := by
  refine ⟨Returns.anchored hown,?_⟩
  rintro (hfit | ⟨hnone,hacc,hund⟩)
  · cases hphase : s.phase with
    | stopped => exact absurd (isDue_iff.mp hdue).1 (by simp [isRunning,hphase])
    | beating => exact returns_of_beating hphase hfit
    | registering =>
      have hstep : s.step p .registered = some { s with phase := .beating } := if_pos hphase
      exact Returns.cons rfl hstep (returns_of_beating rfl hfit)
  · exact returns_of_underway hown hdue hnone hacc hund

theorem sound_create (approvals : Option NodeApprovalManager) (clock : ℚ) :
    (create approvals clock).Sound p :=
  ⟨fun _ hin => (List.not_mem_nil hin).elim,
    fun hdue => absurd (isDue_iff.mp hdue).1 (by simp [isRunning,create])⟩

theorem Sound.step (hs : s.Sound p) {e : LinkEvent} (h : s.step p e = some t)
    (hnot : ¬s.Strands p e) : t.Sound p :=
  ⟨own_step hs.own h,(strands_iff hs h).mpr hnot⟩

theorem recovers_step_iff (hs : s.Sound p) {e : LinkEvent} (h : s.step p e = some t) :
    t.Recovers p ↔ ¬s.Strands p e := by
  refine Iff.trans ?_ (strands_iff hs h)
  exact forall_congr' fun hdue => returns_iff (own_step hs.own h) hdue

/-- Along a run, a node that is approved and not banned, and whose agent runs, can always come
back by itself, if and only if no step leaves the agent running for nothing. -/
theorem membership_recovery_iff (p : AgentSetup) (approvals : Option NodeApprovalManager)
    (clock : ℚ) (es : List LinkEvent) :
    (machine p).Along (fun _ _ t => t.Recovers p) (create approvals clock) es ↔
      (machine p).Along (fun s e _ => ¬s.Strands p e) (create approvals clock) es := by
  apply Machine.along_congr_of_invariant (I := Sound p)
  · exact fun s e t hs ht => recovers_step_iff hs ht
  · exact fun s e t hs ht hnot => hs.step ht hnot
  · exact sound_create approvals clock

def openSetup : AgentSetup := ⟨JoinState.openHosts,NodeDomain.startRequest,15,by norm_num⟩

/-- The agent is stopped in good order and started again. -/
def restartedAgent : List LinkEvent :=
  [.start NodeDomain.startRequest,.deliver 0,.registered,.stop,.deliver 0]

/-- The fault that it reports when it stops stays on record, so that it is never listed again. -/
theorem restarted_agent_is_not_listed : ¬∀ (p : AgentSetup)
    (approvals : Option NodeApprovalManager) (clock : ℚ) (es : List LinkEvent),
    (machine p).Along (fun _ _ t => t.Recovers p) (create approvals clock) es := by
  intro h
  have hexec : ((machine openSetup).exec (create (some .create) 0) restartedAgent).any (fun s =>
      ((machine openSetup).step s (.start NodeDomain.startRequest)).any fun t =>
        t.isDue openSetup && decide (t.fit? openSetup = some false) &&
          decide (s.network.length = 0)) = true := by
    decide +kernel
  obtain ⟨s,hs,hexec⟩ := (Option.any_eq_true _ _).mp hexec
  obtain ⟨t,ht,hexec⟩ := (Option.any_eq_true _ _).mp hexec
  obtain ⟨hexec,hempty⟩ := Bool.and_eq_true_iff.mp hexec
  obtain ⟨hdue,hfit⟩ := Bool.and_eq_true_iff.mp hexec
  have hfit := of_decide_eq_true hfit
  have hown : s.Own openSetup := by
    rw [Own,List.eq_nil_of_length_eq_zero (of_decide_eq_true hempty)]
    exact fun _ hin => (List.not_mem_nil hin).elim
  have hrun := h openSetup (some .create) 0 (restartedAgent ++ [.start NodeDomain.startRequest])
  have hlast := hrun.last hs ht
  have hstep : s.step openSetup (.start NodeDomain.startRequest) = some t := ht
  rcases (returns_iff (own_step hown hstep) hdue).mp (hlast hdue) with hpos | ⟨hnone,-⟩
  · exact nomatch hfit.symm.trans hpos
  · exact nomatch hfit.symm.trans hnone

end AgentLink
end FusionMultiNodes

import FusionMultiNodes.Master.FrameSteps

/-! The names of the nodes, and the selections of nodes that wait to be confirmed. -/
namespace FusionMultiNodes

def NamedNodes (nodes : Dict NodeId NodeInfo) : Prop :=
  ∀ id n, nodes.get? id = some n → n.nodeId = id

/-- What a record keeps as long as its node is neither registered, drained nor synced. -/
structure NodeInfo.Keeps (n n' : NodeInfo) : Prop where
  nodeId : n'.nodeId = n.nodeId
  draining : n'.draining = n.draining

/-- The records of a table are those of an older one. -/
def KeepsNodes (nodes nodes' : Dict NodeId NodeInfo) : Prop :=
  ∀ id n', nodes'.get? id = some n' → ∃ n, nodes.get? id = some n ∧ n.Keeps n'

/-- The event does more to a record than to keep or to remove it. -/
def MasterEvent.setsNode : MasterEvent → Bool
  | .registerNode _ _ | .setNodeDraining _ _ | .receiveSyncedState _ _ _ => true
  | _ => false

variable {nodes nodes' : Dict NodeId NodeInfo}

theorem NamedNodes.empty : NamedNodes ∅ := by
  intro id n hn
  simp at hn

theorem NamedNodes.set (h : NamedNodes nodes) {id : NodeId} {n : NodeInfo} (hn : n.nodeId = id) :
    NamedNodes (nodes.set id n) := by
  intro k n' hn'
  rw [Dict.get?_set] at hn'
  split_ifs at hn' with hk
  · cases hn'
    exact hn.trans hk.symm
  · exact h k n' hn'

/-- The tables of `update` in a loop: each record is an old one or a new one. -/
theorem get?_foldl_set {infos : List NodeInfo} {id : NodeId} {n : NodeInfo}
    (h : (infos.foldl (fun d i => d.set i.nodeId i) nodes).get? id = some n) :
    nodes.get? id = some n ∨ (n ∈ infos ∧ n.nodeId = id) := by
  induction infos generalizing nodes with
  | nil => exact .inl h
  | cons i infos ih =>
    rcases ih h with hold | ⟨hmem,hid⟩
    · rw [Dict.get?_set] at hold
      split_ifs at hold with hk
      · cases hold
        exact .inr ⟨List.mem_cons_self,hk.symm⟩
      · exact .inl hold
    · exact .inr ⟨List.mem_cons_of_mem i hmem,hid⟩

namespace KeepsNodes

theorem refl (nodes : Dict NodeId NodeInfo) : KeepsNodes nodes nodes :=
  fun _ n hn => ⟨n,hn,rfl,rfl⟩

theorem named (h : KeepsNodes nodes nodes') (hm : NamedNodes nodes) : NamedNodes nodes' := by
  intro id n' hn'
  obtain ⟨n,hn,hkeeps⟩ := h id n' hn'
  exact hkeeps.nodeId.trans (hm id n hn)

theorem empty : KeepsNodes nodes ∅ := by
  intro id n hn
  simp at hn

theorem modify (h : KeepsNodes nodes nodes') (id : NodeId) {f : NodeInfo → NodeInfo}
    (hf : ∀ n : NodeInfo, n.Keeps (f n)) : KeepsNodes nodes (nodes'.modify id f) := by
  intro k n hn
  rw [Dict.get?_modify] at hn
  split_ifs at hn
  · obtain ⟨n₁,hn₁,rfl⟩ := Option.map_eq_some_iff.mp hn
    obtain ⟨n₀,hn₀,hkeeps⟩ := h k n₁ hn₁
    exact ⟨n₀,hn₀,(hf n₁).nodeId.trans hkeeps.nodeId,(hf n₁).draining.trans hkeeps.draining⟩
  · exact h k n hn

theorem filter (h : KeepsNodes nodes nodes') (p : NodeId → NodeInfo → Bool) :
    KeepsNodes nodes (nodes'.filter p) := by
  intro k n hn
  rw [Dict.get?_filter] at hn
  exact h k n (Option.filter_eq_some_iff.mp hn).1

theorem mapValues (h : KeepsNodes nodes nodes') {f : NodeId → NodeInfo → NodeInfo}
    (hf : ∀ id (n : NodeInfo), n.Keeps (f id n)) : KeepsNodes nodes (nodes'.mapValues f) := by
  intro k n hn
  rw [Dict.get?_mapValues] at hn
  obtain ⟨n₁,hn₁,rfl⟩ := Option.map_eq_some_iff.mp hn
  obtain ⟨n₀,hn₀,hkeeps⟩ := h k n₁ hn₁
  exact ⟨n₀,hn₀,(hf k n₁).nodeId.trans hkeeps.nodeId,(hf k n₁).draining.trans hkeeps.draining⟩

theorem release (h : KeepsNodes nodes nodes') (ids : List NodeId) :
    KeepsNodes nodes (releaseNodes nodes' ids) := by
  induction ids generalizing nodes' with
  | nil => exact h
  | cons id ids ih => exact ih (h.modify id fun _ => ⟨rfl,rfl⟩)

theorem occupy (h : KeepsNodes nodes nodes') (ids : List NodeId) :
    KeepsNodes nodes (occupyNodes nodes' ids) := by
  induction ids generalizing nodes' with
  | nil => exact h
  | cons id ids ih => exact ih (h.modify id fun _ => ⟨rfl,rfl⟩)

end KeepsNodes

namespace ClusterMaster

variable {m m' s : ClusterMaster} {r : Ref} {cid c : ℕ} {f : Frame} {now : ℚ} {ev : MasterEvent}

theorem keepsNodes_reportFault (h : KeepsNodes nodes m.nodes) (id : NodeId) :
    KeepsNodes nodes (m.reportFault id now).nodes := by
  unfold reportFault
  split_ifs
  · exact h.modify id fun _ => ⟨rfl,rfl⟩
  · exact h

theorem nodes_enqueuePending (m : ClusterMaster) (r : Ref) (force : Bool) :
    (m.enqueuePending r force).1.nodes = m.nodes := by
  unfold enqueuePending
  split_ifs <;> rfl

theorem nodes_enqueueRetry (m : ClusterMaster) (r : Ref) (now : ℚ) :
    (m.enqueueRetry r now).nodes = m.nodes := by
  unfold enqueueRetry
  split_ifs <;> rfl

theorem nodes_triggerDispatch (m : ClusterMaster) (r : Ref) :
    (m.triggerDispatch r).nodes = m.nodes := by
  simp only [triggerDispatch]
  split_ifs <;> rfl

theorem nodes_foldl {α : Type} {F : ClusterMaster → α → ClusterMaster}
    (hF : ∀ s a, (F s a).nodes = s.nodes) (l : List α) (m : ClusterMaster) :
    (l.foldl F m).nodes = m.nodes := by
  induction l generalizing m with
  | nil => rfl
  | cons a l ih => exact (ih (F m a)).trans (hF m a)

theorem keepsNodes_assignStep {pc : AssignPc} {p : ClusterMaster × AssignPc} (hm : KeepsNodes nodes m.nodes)
    (h : m.assignStep r now pc = some p) : KeepsNodes nodes p.1.nodes := by
  obtain ⟨s,pc'⟩ := p
  cases assignStep_outcome h with
  | advance _ hn => exact hn ▸ hm
  | skip => exact hm
  | refuse _ hn => exact hn ▸ hm
  | parked _ hn => exact hn ▸ hm
  | committed _ _ hn =>
    rw [hn]
    exact hm.occupy _
  | written => exact hm
  | triggered => exact (nodes_triggerDispatch m r).symm ▸ hm

theorem keepsNodes_resumeAssign {pc : AssignPc} {k : Caller} (hm : KeepsNodes nodes m.nodes)
    (h : m.resumeAssign cid r k now pc = some m') : KeepsNodes nodes m'.nodes := by
  rcases resumeAssign_cases h with ⟨ok,rfl,rfl⟩ | ⟨-,s,pc',hp,rfl⟩
  · have hq := nodes_enqueuePending m r true
    have hr := nodes_enqueueRetry m r now
    cases k <;> cases ok <;> first | exact hm | exact hq.symm ▸ hm | exact hr.symm ▸ hm
  · exact keepsNodes_assignStep hm hp

theorem keepsNodes_finalizeTask (hm : KeepsNodes nodes m.nodes) (id : TaskId) (o : DispatchOutcome) (now : ℚ) :
    KeepsNodes nodes (m.finalizeTask id o now).1.nodes := by
  unfold finalizeTask
  split
  · exact hm
  · next r _ =>
    have hrelease : KeepsNodes nodes (m.releaseTask r).nodes := hm.release _
    split_ifs
    · show KeepsNodes nodes (ClusterMaster.enqueueRetry _ r now).nodes
      exact (nodes_enqueueRetry _ r now).symm ▸ hrelease
    · exact hrelease
    · exact hm

theorem nodes_endDispatch (m : ClusterMaster) (c : ℕ) (d : Dispatch) (o : DispatchOutcome) :
    (m.endDispatch c d o).nodes = m.nodes := by
  simp only [endDispatch,setPrevOutputs]
  split <;> rfl

theorem nodes_pipelineNext (m : ClusterMaster) (d : Dispatch) (present : List NodeId) (idx : ℕ)
    (hidden : Option String) (steps : List NodeId) :
    (m.pipelineNext d present idx hidden steps).1.nodes = m.nodes := by
  unfold pipelineNext
  split
  · rfl
  · split_ifs <;> rfl

theorem keepsNodes_resumeDispatch {d : Dispatch} (hm : KeepsNodes nodes m.nodes)
    (h : m.resumeDispatch cid d now = some m') : KeepsNodes nodes m'.nodes := by
  obtain ⟨task,attempt,nodeIds,pc⟩ := d
  cases pc with
  | start => exact Option.some.inj h ▸ hm
  | snapshot =>
    obtain rfl := Option.some.inj h
    show KeepsNodes nodes (ite _ _ _ : ClusterMaster × DispatchPc).1.nodes
    split_ifs
    · rw [nodes_pipelineNext]
      exact hm
    · exact hm
  | data replies =>
    obtain ⟨-,h⟩ := Option.ite_none_right_eq_some.mp h
    exact Option.some.inj h ▸ hm
  | collect rest acc =>
    cases rest with
    | nil => exact Option.some.inj h ▸ hm
    | cons p rest =>
      obtain rfl := Option.some.inj h
      show KeepsNodes nodes (ite _ _ _ : ClusterMaster).nodes
      split_ifs
      · exact keepsNodes_reportFault hm _
      · exact hm
  | pipeline present idx hidden steps => cases h
  | finalizing o =>
    obtain rfl := Option.some.inj h
    have hfinal := keepsNodes_finalizeTask hm (m.objects task).taskId o now
    simp only [resumeFinalize]
    split_ifs
    · exact hfinal
    · rw [nodes_endDispatch]
      exact hfinal
  | tail w o =>
    obtain ⟨-,h⟩ := Option.ite_none_left_eq_some.mp h
    obtain rfl := Option.some.inj h
    rw [nodes_endDispatch]
    exact hm

theorem keepsNodes_receiveReply {d : Dispatch} {i : ℕ} {reply : AgentReply} (hm : KeepsNodes nodes m.nodes)
    (h : m.receiveReply cid d i reply now = some m') : KeepsNodes nodes m'.nodes := by
  obtain ⟨task,attempt,nodeIds,pc⟩ := d
  unfold receiveReply at h
  dsimp only at h
  split at h
  · cases h
  · next n _ =>
    cases pc with
    | data replies =>
      obtain ⟨-,h⟩ := Option.ite_none_right_eq_some.mp h
      obtain rfl := Option.some.inj h
      cases reply with
      | raised => exact keepsNodes_reportFault hm n
      | _ => exact hm
    | pipeline present idx hidden steps =>
      obtain ⟨-,h⟩ := Option.ite_none_right_eq_some.mp h
      obtain rfl := Option.some.inj h
      cases reply with
      | raised => exact keepsNodes_reportFault hm n
      | notDict => exact hm
      | dict a =>
        simp only [pipelineReply]
        cases stepFailure n a with
        | some o => exact hm
        | none =>
          show KeepsNodes nodes (m.pipelineNext _ present (idx+1) _ _).1.nodes
          rw [nodes_pipelineNext]
          exact hm
    | _ => cases h

theorem keepsNodes_cancelSubTasks (hm : KeepsNodes nodes m.nodes) (reason : String) (fuel : ℕ)
    (stack : List TaskId) : KeepsNodes nodes (m.cancelSubTasks reason fuel stack).nodes := by
  fun_induction cancelSubTasks m reason fuel stack with
  | case1 => exact hm
  | case2 => exact hm
  | case3 _ _ _ _ _ _ ih => exact ih hm
  | case4 _ _ _ _ _ _ _ _ ih => exact ih (hm.release _)
  | case5 _ _ _ _ _ _ _ _ ih => exact ih hm

theorem keepsNodes_cancelTask (hm : KeepsNodes nodes m.nodes) (id : TaskId) (reason : String) (subs : Bool) :
    KeepsNodes nodes (m.cancelTask id reason subs).nodes := by
  unfold cancelTask
  split
  · exact hm
  · next r _ =>
    have hrelease : KeepsNodes nodes (m.releaseTask r).nodes := hm.release _
    simp only
    split_ifs
    all_goals first
      | exact hm
      | exact hrelease
      | exact keepsNodes_cancelSubTasks (by exact hrelease) _ _ _

theorem nodes_timeoutOne (m : ClusterMaster) (now : ℚ) (r : Ref) :
    (m.timeoutOne now r).nodes = m.nodes := by
  unfold timeoutOne
  split_ifs
  · exact nodes_enqueueRetry _ r now
  · rfl

theorem nodes_refreshOne (m : ClusterMaster) (offline : List NodeId) (now : ℚ) (r : Ref) :
    (m.refreshOne offline now r).nodes = m.nodes :=
  nodes_enqueueRetry _ r now

theorem nodes_refreshTasks (m : ClusterMaster) (c : ℕ) (offline : List NodeId) (now : ℚ) :
    (m.refreshTasks c offline now).nodes = m.nodes := by
  simp only [refreshTasks]
  split_ifs
  · rfl
  · exact nodes_foldl (fun s r => nodes_refreshOne s offline now r) _ m

theorem keepsNodes_resumeFrame (hm : KeepsNodes nodes m.nodes) (h : m.resumeFrame cid now f = some m') :
    KeepsNodes nodes m'.nodes := by
  cases f with
  | assign r pc k => exact keepsNodes_resumeAssign hm h
  | drainStart =>
    obtain rfl := Option.some.inj h
    unfold drainStart
    split_ifs <;> exact hm
  | draining rest =>
    obtain rfl := Option.some.inj h
    cases rest <;> exact hm
  | retrying loopNow rest =>
    obtain rfl := Option.some.inj h
    cases rest with
    | nil => exact hm
    | cons r rest =>
      simp only [retryNext]
      split_ifs <;> exact hm
  | cancelling w =>
    obtain ⟨-,h⟩ := Option.ite_none_left_eq_some.mp h
    exact Option.some.inj h ▸ hm
  | refreshing offline =>
    obtain rfl := Option.some.inj h
    rw [nodes_refreshTasks]
    exact hm
  | probing rest =>
    cases rest with
    | nil => exact Option.some.inj h ▸ hm
    | cons n rest => exact absurd h (by simp [resumeFrame])
  | dispatch d => exact keepsNodes_resumeDispatch hm h

theorem nodes_restart (m : ClusterMaster) (now rnd : ℚ) : (m.restart now rnd).nodes = ∅ := by
  have henqueue : ∀ (s : ClusterMaster) r, (s.enqueueRestored r).nodes = s.nodes := by
    intro s r
    unfold enqueueRestored
    split_ifs
    · exact nodes_enqueuePending s r true
    · rfl
  unfold restart
  split
  · rfl
  · next content _ =>
    rw [nodes_foldl henqueue]
    exact nodes_foldl (F := insertRecord) (fun _ _ => rfl) content.tasks (m.reboot now rnd)

theorem nodes_receiveSyncedTasks (m : ClusterMaster) (records : List TaskRecord) :
    (m.receiveSyncedTasks records).nodes = m.nodes := by
  have hmerge : (records.foldl mergeRecord m).nodes = m.nodes := by
    apply nodes_foldl
    intro s d
    unfold mergeRecord
    split_ifs <;> rfl
  unfold receiveSyncedTasks
  split_ifs <;> exact hmerge

theorem keepsNodes_updateNodeLoad (m : ClusterMaster) (id : NodeId) (metrics : LoadMetrics)
    (used total : Option ℚ) (supervisor : Option Bool) (now : ℚ) :
    KeepsNodes m.nodes (m.updateNodeLoad id metrics used total supervisor now).nodes := by
  unfold updateNodeLoad
  split_ifs
  · exact (KeepsNodes.refl _).modify id fun _ => ⟨rfl,rfl⟩
  · exact .refl _

theorem keepsNodes_checkHeartbeat (m : ClusterMaster) (id : NodeId) (now : ℚ) :
    KeepsNodes m.nodes (m.checkHeartbeat id now).nodes := by
  apply (KeepsNodes.refl _).modify id
  intro n
  split_ifs <;> exact ⟨rfl,rfl⟩

theorem keepsNodes_completeTask (m : ClusterMaster) (id : TaskId) (error : String) (now : ℚ) :
    KeepsNodes m.nodes (m.completeTask id error now).nodes := by
  unfold completeTask
  split
  · exact .refl _
  · exact (KeepsNodes.refl _).release _

theorem keepsNodes_migrateTask (m : ClusterMaster) (id : TaskId) :
    KeepsNodes m.nodes (m.migrateTask id).nodes := by
  unfold migrateTask
  split
  · exact .refl _
  · split_ifs
    · exact (KeepsNodes.refl _).release _
    · exact .refl _

theorem keepsNodes_degradeTask (m : ClusterMaster) (id : TaskId) :
    KeepsNodes m.nodes (m.degradeTask id).nodes := by
  unfold degradeTask
  split
  · exact .refl _
  · simp only
    split_ifs
    · split
      · exact .refl _
      · exact (KeepsNodes.refl _).release _
    · exact .refl _

theorem keepsNodes_refreshNodes (m : ClusterMaster) (now : ℚ) :
    KeepsNodes m.nodes (m.refreshNodes now).nodes := by
  have hmap := (KeepsNodes.refl m.nodes).mapValues
    (f := fun _ n => { n with status := m.refreshedStatus now n }) fun _ _ => ⟨rfl,rfl⟩
  simp only [refreshNodes]
  split_ifs <;> exact hmap

theorem step_keepsNodes (h : machine.step m ev = some m') (hev : ev.setsNode = false) :
    KeepsNodes m.nodes m'.nodes := by
  by_cases hstore : ev.isStore = true
  · obtain ⟨_,_,_,rfl⟩ := step_store h hstore
    exact .refl _
  cases ev with
  | registerNode | setNodeDraining | receiveSyncedState => cases hev
  | fillTmp | replaceFile | persistLoop | registerRunId | registerSession | handoffSession |
      closeSession =>
    exact absurd rfl hstore
  | election e =>
    obtain ⟨p,-,rfl⟩ := Option.map_eq_some_iff.mp h
    exact .refl _
  | unregisterNode id banned now => exact Option.some.inj h ▸ (KeepsNodes.refl _).filter _
  | updateHeartbeat id total available active supervisor now =>
    exact Option.some.inj h ▸ (KeepsNodes.refl _).modify id fun _ => ⟨rfl,rfl⟩
  | updateNodeLoad id metrics used total supervisor now =>
    exact Option.some.inj h ▸ keepsNodes_updateNodeLoad m id metrics used total supervisor now
  | checkHeartbeat id now => exact Option.some.inj h ▸ keepsNodes_checkHeartbeat m id now
  | reportFault id now => exact Option.some.inj h ▸ keepsNodes_reportFault (.refl _) id
  | probeBannedNodes now =>
    obtain rfl := Option.some.inj h
    have hnodes : (List.foldl unbanNode m ((m.expiredBans now).filter fun id =>
        !(m.nodes.contains id))).nodes = m.nodes := nodes_foldl (F := unbanNode) (fun _ _ => rfl) _ m
    exact hnodes ▸ .refl _
  | probed cid ok now =>
    simp only [machine,step] at h
    split at h
    · obtain rfl := Option.some.inj h
      cases ok <;> exact .refl _
    · cases h
  | submit t =>
    obtain ⟨-,h⟩ := Option.ite_none_right_eq_some.mp h
    exact Option.some.inj h ▸ .refl _
  | resume cid now =>
    obtain ⟨f,-,hs⟩ := Option.bind_eq_some_iff.mp h
    exact keepsNodes_resumeFrame (.refl _) hs
  | reply cid i reply now =>
    simp only [machine,step] at h
    split at h
    · exact keepsNodes_receiveReply (.refl _) h
    · cases h
  | doneCallback id =>
    obtain ⟨-,h⟩ := Option.ite_none_right_eq_some.mp h
    exact Option.some.inj h ▸ .refl _
  | completeTask id error now => exact Option.some.inj h ▸ keepsNodes_completeTask m id error now
  | cancelTask id reason subs =>
    exact Option.some.inj h ▸ keepsNodes_cancelTask (.refl _) id reason subs
  | migrateTask id => exact Option.some.inj h ▸ keepsNodes_migrateTask m id
  | degradeTask id => exact Option.some.inj h ▸ keepsNodes_degradeTask m id
  | checkTimeouts now =>
    have hnodes : (m.checkTimeouts now).nodes = m.nodes :=
      nodes_foldl (fun s r => nodes_timeoutOne s now r) _ m
    exact Option.some.inj h ▸ hnodes ▸ .refl _
  | refreshNodeStatuses now => exact Option.some.inj h ▸ keepsNodes_refreshNodes m now
  | cleanupOfflineNodes now => exact Option.some.inj h ▸ (KeepsNodes.refl _).filter _
  | retryLoop now =>
    obtain rfl := Option.some.inj h
    unfold retryLoop
    split_ifs <;> exact .refl _
  | receiveSyncedTasks records =>
    exact Option.some.inj h ▸ nodes_receiveSyncedTasks m records ▸ .refl _
  | restart now rnd => exact Option.some.inj h ▸ nodes_restart m now rnd ▸ .empty
  | _ => exact Option.some.inj h ▸ .refl _

/-- A record is an old one, drained or undrained, registered or synced. -/
theorem get?_of_setsNode (h : machine.step m ev = some m') (hev : ev.setsNode = true) {id : NodeId}
    {n' : NodeInfo} (hget : m'.nodes.get? id = some n') :
    m.nodes.get? id = some n' ∨
      (∃ draining n, ev = .setNodeDraining id draining ∧ m.nodes.get? id = some n ∧
        n' = { n with draining := draining }) ∨
      (∃ info now, ev = .registerNode info now ∧ info.nodeId = id ∧
        m.isNodeBanned id now = false ∧ n' = m.registeredNode info now) ∨
      ∃ infos banned now, ev = .receiveSyncedState infos banned now ∧ n' ∈ infos ∧
        n'.nodeId = id := by
  cases ev with
  | setNodeDraining id' draining =>
    obtain rfl := Option.some.inj h
    have hmodify : (m.nodes.modify id' fun n => { n with draining := draining }).get? id =
      some n' := hget
    rw [Dict.get?_modify] at hmodify
    split_ifs at hmodify with hid
    · obtain ⟨n,hn,rfl⟩ := Option.map_eq_some_iff.mp hmodify
      exact .inr (.inl ⟨draining,n,by rw [hid],hn,rfl⟩)
    · exact .inl hmodify
  | registerNode info now =>
    obtain rfl := Option.some.inj h
    unfold registerNode at hget
    split_ifs at hget with hbanned
    · exact .inl hget
    · have hset : (m.nodes.set info.nodeId (m.registeredNode info now)).get? id = some n' := hget
      rw [Dict.get?_set] at hset
      split_ifs at hset with hid
      · subst hid
        exact .inr (.inr (.inl ⟨info,now,rfl,rfl,eq_false_of_ne_true hbanned,
          (Option.some.inj hset).symm⟩))
      · exact .inl hset
  | receiveSyncedState infos banned now =>
    obtain rfl := Option.some.inj h
    rcases get?_foldl_set hget with hold | ⟨hmem,hid⟩
    · exact .inl hold
    · exact .inr (.inr (.inr ⟨infos,banned,now,rfl,List.mem_of_mem_filter hmem,hid⟩))
  | _ => cases hev

theorem registeredNode_nodeId (m : ClusterMaster) (info : NodeInfo) (now : ℚ) :
    (m.registeredNode info now).nodeId = info.nodeId := by
  unfold registeredNode
  split <;> rfl

theorem step_named (hm : NamedNodes m.nodes) (h : machine.step m ev = some m') :
    NamedNodes m'.nodes := by
  cases hev : ev.setsNode with
  | false => exact (step_keepsNodes h hev).named hm
  | true =>
    intro id n' hget
    rcases get?_of_setsNode h hev hget with
      hold | ⟨draining,n,-,hn,rfl⟩ | ⟨info,now,-,rfl,-,rfl⟩ | ⟨_,_,_,-,-,hid⟩
    · exact hm id n' hold
    · exact hm id n hn
    · exact registeredNode_nodeId m info now
    · exact hid

variable {requiredMem : ℚ} {selected : List NodeId} {k : Caller}

theorem assignStep_confirm {pc : AssignPc} {p : ClusterMaster × AssignPc}
    (h : m.assignStep r now pc = some p) (hp : p.2 = .confirm requiredMem selected) :
    ∃ original, pc = .selecting requiredMem original ∧
      selected = (m.selectNodes (m.objects r) requiredMem now).map NodeInfo.nodeId := by
  cases pc with
  | selecting mem original =>
    obtain rfl := Option.some.inj h
    have hsnd : (m.assignSelect r mem original now).2 =
        if ((m.selectNodes (m.objects r) mem now).map NodeInfo.nodeId).length < (m.objects r).need
          then .enqueueShort
        else .confirm mem ((m.selectNodes (m.objects r) mem now).map NodeInfo.nodeId) := by
      simp only [assignSelect]
      split <;> rfl
    rw [hsnd] at hp
    split_ifs at hp
    obtain ⟨rfl,rfl⟩ := AssignPc.confirm.inj hp
    exact ⟨original,rfl,rfl⟩
  | quota =>
    obtain rfl := Option.some.inj h
    simp only [assignQuota] at hp
    split_ifs at hp
  | localCommit mem =>
    obtain rfl := Option.some.inj h
    simp only [assignLocal] at hp
    split_ifs at hp
  | enqueueShort =>
    obtain rfl := Option.some.inj h
    simp only [assignShort] at hp
    split_ifs at hp
  | confirm mem nodes =>
    obtain rfl := Option.some.inj h
    simp only [assignConfirm] at hp
    split_ifs at hp
  | writing w =>
    obtain ⟨-,h⟩ := Option.ite_none_left_eq_some.mp h
    obtain rfl := Option.some.inj h
    cases hp
  | returned ok => cases h
  | guards | localCheck mem =>
    obtain rfl := Option.some.inj h
    dsimp only at hp
    split_ifs at hp
  | route | trigger =>
    obtain rfl := Option.some.inj h
    cases hp

theorem frames_setFrame_self (m : ClusterMaster) (c : ℕ) (f : Frame) :
    (m.setFrame c f).frames.get? c = some f :=
  Dict.get?_set_self _ _ _

theorem frames_endFrame_self (m : ClusterMaster) (c : ℕ) : (m.endFrame c).frames.get? c = none :=
  (Dict.get?_erase _ _ _).trans (if_pos rfl)

/-- A coroutine that assigns a task after it has run is at the start, or has run a step of the same
assignment. -/
theorem resumeFrame_assign {pc : AssignPc} (h : m.resumeFrame c now f = some m')
    (hf : m'.frames.get? c = some (.assign r pc k)) :
    pc = .guards ∨ ∃ pc₀ s, f = .assign r pc₀ k ∧ m.assignStep r now pc₀ = some (s,pc) := by
  have hset : ∀ (s : ClusterMaster) f', m' = s.setFrame c f' → f' = .assign r pc k := by
    rintro s f' rfl
    rw [frames_setFrame_self] at hf
    exact Option.some.inj hf
  have hend : ∀ s : ClusterMaster, m'.frames = (s.endFrame c).frames → False := by
    intro s hs
    rw [hs,frames_endFrame_self] at hf
    cases hf
  cases f with
  | assign r' pc₀ k' =>
    rcases resumeAssign_cases h with ⟨ok,rfl,rfl⟩ | ⟨-,s,pc',hp,heq⟩
    · cases k' with
      | submit | migrate | degrade => exact (hend _ rfl).elim
      | drain | retry => cases hset _ _ rfl
    · obtain ⟨rfl,rfl,rfl⟩ := Frame.assign.inj (hset _ _ heq)
      exact .inr ⟨pc₀,s,rfl,hp⟩
  | drainStart =>
    obtain rfl := Option.some.inj h
    by_cases hqueue : m.pendingQueue = []
    · exact (hend m (congrArg ClusterMaster.frames (if_pos hqueue))).elim
    · cases hset _ _ (if_neg hqueue)
  | draining rest =>
    obtain rfl := Option.some.inj h
    cases rest with
    | nil => exact (hend m rfl).elim
    | cons x rest =>
      obtain ⟨-,rfl,-⟩ := Frame.assign.inj (hset _ _ rfl)
      exact .inl rfl
  | retrying loopNow rest =>
    obtain rfl := Option.some.inj h
    cases rest with
    | nil => exact (hend m rfl).elim
    | cons x rest =>
      have hframe : ∃ s f', m.retryNext c loopNow (x::rest) = ClusterMaster.setFrame s c f' ∧
          (f' = .assign r pc k → pc = .guards) := by
        simp only [retryNext]
        split_ifs
        · refine ⟨_,_,rfl,fun heq => ?_⟩
          cases heq
        · refine ⟨_,_,rfl,fun heq => ?_⟩
          cases heq
        · exact ⟨_,_,rfl,fun heq => (Frame.assign.inj heq).2.1.symm⟩
      obtain ⟨s,f',heq,hguards⟩ := hframe
      exact .inl (hguards (hset s f' heq))
  | cancelling w =>
    obtain ⟨-,h⟩ := Option.ite_none_left_eq_some.mp h
    cases hset _ _ (Option.some.inj h).symm
  | refreshing offline =>
    obtain rfl := Option.some.inj h
    have hframes : ∃ s, (m.refreshTasks c offline now).frames = (endFrame s c).frames := by
      simp only [refreshTasks]
      split_ifs <;> exact ⟨_,rfl⟩
    exact (hend _ hframes.choose_spec).elim
  | probing rest =>
    cases rest with
    | nil => exact (hend m (congrArg ClusterMaster.frames (Option.some.inj h).symm)).elim
    | cons n rest => exact absurd h (by simp [resumeFrame])
  | dispatch d =>
    cases resumeDispatch_effect h with
    | continues => cases hset _ _ rfl
    | finalizes => cases hset _ _ rfl
    | stale => exact (hend _ (frames_endDispatch _ _ _ _)).elim
    | done => exact (hend _ (frames_endDispatch _ _ _ _)).elim

/-- A coroutine that assigns a task after a step has stood there before it, is at the start, or has
run a step of the same assignment. -/
theorem step_assign {pc : AssignPc} (h : machine.step m ev = some m')
    (hf : m'.frames.get? c = some (.assign r pc k)) :
    (ev.isRestart = false ∧ ev.runs ≠ some c ∧ m.frames.get? c = some (.assign r pc k)) ∨
      pc = .guards ∨
      ∃ now pc₀ s, ev = .resume c now ∧ m.frames.get? c = some (.assign r pc₀ k) ∧
        m.assignStep r now pc₀ = some (s,pc) := by
  by_cases hrestart : ev.isRestart = true
  · cases ev with
    | restart now rnd =>
      obtain rfl := Option.some.inj h
      rw [frames_restart] at hf
      cases hf
    | _ => cases hrestart
  · by_cases hruns : ev.runs = some c
    · refine .inr ?_
      cases ev with
      | resume cid now =>
        obtain rfl := Option.some.inj hruns
        obtain ⟨f,hf₀,hs⟩ := Option.bind_eq_some_iff.mp h
        rcases resumeFrame_assign hs hf with hguards | ⟨pc₀,s,rfl,hstep⟩
        · exact .inl hguards
        · exact .inr ⟨now,pc₀,s,rfl,hf₀,hstep⟩
      | reply cid i reply now =>
        obtain rfl := Option.some.inj hruns
        simp only [machine,step] at h
        split at h
        · obtain ⟨s,d',-,-,rfl⟩ := receiveReply_continues h
          rw [frames_setFrame_self] at hf
          cases hf
        · cases h
      | probed cid ok now =>
        obtain rfl := Option.some.inj hruns
        simp only [machine,step] at h
        split at h
        · obtain rfl := Option.some.inj h
          simp only [probed,frames_setFrame_self] at hf
          cases hf
        · cases h
      | _ => cases hruns
    · rcases (step_runsOne h (Bool.not_eq_true _ ▸ hrestart)).begun c _ hruns hf with hold | hbegins
      · exact .inl ⟨Bool.not_eq_true _ ▸ hrestart,hruns,hold⟩
      · exact .inr (.inl (of_decide_eq_true hbegins))

/-- A selection that waits to be confirmed has waited before a step, or is made in it. -/
theorem step_confirm (h : machine.step m ev = some m')
    (hf : m'.frames.get? c = some (.assign r (.confirm requiredMem selected) k)) :
    m.frames.get? c = some (.assign r (.confirm requiredMem selected) k) ∨
      ∃ now original, ev = .resume c now ∧
        m.frames.get? c = some (.assign r (.selecting requiredMem original) k) ∧
        selected = (m.selectNodes (m.objects r) requiredMem now).map NodeInfo.nodeId := by
  rcases step_assign h hf with ⟨-,-,hold⟩ | hguards | ⟨now,pc₀,s,rfl,hf₀,hs⟩
  · exact .inl hold
  · exact nomatch hguards
  · obtain ⟨original,rfl,hsel⟩ := assignStep_confirm hs rfl
    exact .inr ⟨now,original,rfl,hf₀,hsel⟩

end ClusterMaster
end FusionMultiNodes

import FusionMultiNodes.Master.Outcomes

/-! What the steps of a master do to its leadership and to the requests it posts. -/
namespace FusionMultiNodes
namespace ClusterMaster

/-- The leadership stays as it is, and the requests posted carry the token of the master. -/
structure Posts (m m' : ClusterMaster) : Prop where
  ha : m'.ha = m.ha
  requests : ∃ sent, m'.requests = m.requests ++ sent ∧
    ∀ q ∈ sent, q.fencingToken = m.ha.fencingToken

/-- The leadership, the configuration and the batches stay as they are, and nothing is posted. -/
structure Silent (m m' : ClusterMaster) : Prop where
  ha : m'.ha = m.ha
  requests : m'.requests = m.requests
  config : m'.config = m.config
  testBatches : m'.testBatches = m.testBatches

structure Sends (m : ClusterMaster) (sent : List ExecuteRequest) (m' : ClusterMaster) : Prop where
  ha : m'.ha = m.ha
  requests : m'.requests = m.requests ++ sent
  config : m'.config = m.config
  testBatches : m'.testBatches = m.testBatches

variable {m m' m'' : ClusterMaster} {now : ℚ} {cid : ℕ} {r : Ref} {sent : List ExecuteRequest}

theorem Silent.refl (m : ClusterMaster) : m.Silent m := ⟨rfl,rfl,rfl,rfl⟩

theorem Silent.trans (h : m.Silent m') (h' : m'.Silent m'') : m.Silent m'' :=
  ⟨h'.ha.trans h.ha,h'.requests.trans h.requests,h'.config.trans h.config,
    h'.testBatches.trans h.testBatches⟩

theorem Silent.sends (h : m.Silent m') : m.Sends [] m' :=
  ⟨h.ha,h.requests.trans (List.append_nil _).symm,h.config,h.testBatches⟩

theorem Sends.trans_silent (h : m.Sends sent m') (h' : m'.Silent m'') : m.Sends sent m'' :=
  ⟨h'.ha.trans h.ha,h'.requests.trans h.requests,h'.config.trans h.config,
    h'.testBatches.trans h.testBatches⟩

theorem Sends.posts (h : m.Sends sent m') (hsent : ∀ q ∈ sent, q.fencingToken = m.ha.fencingToken) :
    m.Posts m' :=
  ⟨h.ha,sent,h.requests,hsent⟩

theorem silent_foldl {α : Type} {F : ClusterMaster → α → ClusterMaster}
    (hF : ∀ s a, Silent s (F s a)) (l : List α) (m : ClusterMaster) : m.Silent (l.foldl F m) := by
  induction l generalizing m with
  | nil => exact Silent.refl m
  | cons a l ih => exact (hF m a).trans (ih (F m a))

theorem silent_enqueuePending (m : ClusterMaster) (r : Ref) (force : Bool) :
    m.Silent (m.enqueuePending r force).1 := by
  unfold enqueuePending
  split_ifs <;> exact ⟨rfl,rfl,rfl,rfl⟩

theorem silent_enqueueRetry (m : ClusterMaster) (r : Ref) (now : ℚ) :
    m.Silent (m.enqueueRetry r now) := by
  unfold enqueueRetry
  split_ifs <;> exact ⟨rfl,rfl,rfl,rfl⟩

theorem silent_triggerDispatch (m : ClusterMaster) (r : Ref) : m.Silent (m.triggerDispatch r) := by
  simp only [triggerDispatch]
  split_ifs <;> exact ⟨rfl,rfl,rfl,rfl⟩

theorem silent_reportFault (m : ClusterMaster) (id : NodeId) (now : ℚ) :
    m.Silent (m.reportFault id now) := by
  unfold reportFault
  split_ifs <;> exact ⟨rfl,rfl,rfl,rfl⟩

theorem silent_dropExpiredBan (m : ClusterMaster) (id : NodeId) (now : ℚ) :
    m.Silent (m.dropExpiredBan id now) := by
  unfold dropExpiredBan
  split_ifs <;> exact ⟨rfl,rfl,rfl,rfl⟩

theorem silent_assignConfirm (m : ClusterMaster) (r : Ref) (requiredMem : ℚ)
    (selected : List NodeId) (now : ℚ) : m.Silent (m.assignConfirm r requiredMem selected now).1 := by
  simp only [assignConfirm]
  have hbans : m.Silent (if m.looksForBackup (m.objects r) selected = true then
      m.dropExpiredBans (selected.filter m.hasFreeSlot ++ (m.objects r).excludeNodes) now else m) := by
    split_ifs
    · exact silent_foldl (fun s (n : NodeInfo) => silent_dropExpiredBan s n.nodeId now) _ m
    · exact Silent.refl m
  by_cases hrun : m.isRunning (m.objects r).taskId = true
  · rw [if_pos hrun]
    exact Silent.refl m
  rw [if_neg hrun]
  by_cases hpinned : m.looksForBackup (m.objects r) selected = true ∧ (m.objects r).pinnedNodeId ≠ ""
  · rw [if_pos hpinned]
    exact silent_enqueuePending m r false
  rw [if_neg hpinned]
  refine hbans.trans ?_
  generalize (if m.looksForBackup (m.objects r) selected = true then
    m.dropExpiredBans (selected.filter m.hasFreeSlot ++ (m.objects r).excludeNodes) now else m) = m₁
  split_ifs
  · exact silent_enqueuePending m₁ r false
  · exact ⟨rfl,rfl,rfl,rfl⟩
  · exact ⟨rfl,rfl,rfl,rfl⟩

theorem silent_assignStep {pc : AssignPc} {p : ClusterMaster × AssignPc}
    (h : m.assignStep r now pc = some p) : m.Silent p.1 := by
  cases pc with
  | quota =>
    obtain rfl := Option.some.inj h
    simp only [assignQuota]
    split_ifs <;> first | exact Silent.refl m | exact silent_enqueuePending m r false
  | localCommit requiredMem =>
    obtain rfl := Option.some.inj h
    simp only [assignLocal]
    split_ifs <;> exact ⟨rfl,rfl,rfl,rfl⟩
  | selecting requiredMem original =>
    obtain rfl := Option.some.inj h
    simp only [assignSelect]
    split_ifs <;> exact ⟨rfl,rfl,rfl,rfl⟩
  | enqueueShort =>
    obtain rfl := Option.some.inj h
    simp only [assignShort]
    split_ifs
    · exact Silent.refl m
    · exact silent_enqueuePending m r false
  | confirm requiredMem selected =>
    obtain rfl := Option.some.inj h
    exact silent_assignConfirm m r requiredMem selected now
  | writing w =>
    obtain ⟨-,h⟩ := Option.ite_none_left_eq_some.mp h
    obtain rfl := Option.some.inj h
    exact Silent.refl m
  | trigger =>
    obtain rfl := Option.some.inj h
    exact silent_triggerDispatch m r
  | returned ok => simp [assignStep] at h
  | _ =>
    obtain rfl := Option.some.inj h
    exact ⟨rfl,rfl,rfl,rfl⟩

theorem silent_assignReturned (m : ClusterMaster) (cid : ℕ) (r : Ref) (ok : Bool) (now : ℚ)
    (k : Caller) : m.Silent (m.assignReturned cid r ok now k) := by
  have hretry : m.Silent (if ok then m else m.enqueueRetry r now) := by
    split_ifs
    · exact Silent.refl m
    · exact silent_enqueueRetry m r now
  cases k with
  | submit => exact ⟨rfl,rfl,rfl,rfl⟩
  | drain rest =>
    have hpend : m.Silent (if ok then m else (m.enqueuePending r true).1) := by
      split_ifs
      · exact Silent.refl m
      · exact silent_enqueuePending m r true
    exact hpend.trans ⟨rfl,rfl,rfl,rfl⟩
  | retry loopNow rest => exact hretry.trans ⟨rfl,rfl,rfl,rfl⟩
  | migrate => exact hretry.trans ⟨rfl,rfl,rfl,rfl⟩
  | degrade => exact hretry.trans ⟨rfl,rfl,rfl,rfl⟩

theorem silent_retryNext (m : ClusterMaster) (cid : ℕ) (loopNow : ℚ) (l : List Ref) :
    m.Silent (m.retryNext cid loopNow l) := by
  cases l with
  | nil => exact ⟨rfl,rfl,rfl,rfl⟩
  | cons r rest =>
    simp only [retryNext]
    split_ifs <;> exact ⟨rfl,rfl,rfl,rfl⟩

/-- The request for the pipeline step of the given index, if its node was there when the nodes
were read. -/
def stepRequests (m : ClusterMaster) (d : Dispatch) (present : List NodeId) (idx : ℕ) :
    List ExecuteRequest :=
  match d.nodeIds[idx]? with
  | none => []
  | some n => if n ∈ present then [m.stepRequest (m.objects d.task) n idx] else []

def dispatchRequests (m : ClusterMaster) (d : Dispatch) : List ExecuteRequest :=
  match d.pc with
  | .snapshot =>
    if (m.objects d.task).mode = .pipeline then
      m.stepRequests d (d.nodeIds.filter m.nodes.contains) 0
    else (d.nodeIds.filter m.nodes.contains).map (m.executeRequest (m.objects d.task))
  | _ => []

/-- What a dispatch posts after a reply: the next step of a pipeline. -/
def replyRequests (m : ClusterMaster) (d : Dispatch) (i : ℕ) (reply : AgentReply) :
    List ExecuteRequest :=
  match d.pc, d.nodeIds[i]?, reply with
  | .pipeline present idx _ _, some n, .dict a =>
    if i = idx ∧ stepFailure n a = none then m.stepRequests d present (idx+1) else []
  | _, _, _ => []

theorem stepRequests_spec {d : Dispatch} {present : List NodeId} {idx : ℕ} :
    ∀ q ∈ m.stepRequests d present idx,
      q.fencingToken = m.ha.fencingToken ∧ q.target ∈ d.nodeIds := by
  intro q hq
  unfold stepRequests at hq
  split at hq
  · exact absurd hq List.not_mem_nil
  · next n hn =>
    split_ifs at hq
    · rw [List.mem_singleton.mp hq]
      exact ⟨rfl,List.mem_of_getElem? hn⟩
    · exact absurd hq List.not_mem_nil

theorem dispatchRequests_spec {d : Dispatch} :
    ∀ q ∈ m.dispatchRequests d, q.fencingToken = m.ha.fencingToken ∧ q.target ∈ d.nodeIds := by
  intro q hq
  unfold dispatchRequests at hq
  split at hq
  · split_ifs at hq
    · exact stepRequests_spec q hq
    · obtain ⟨n,hn,rfl⟩ := List.mem_map.mp hq
      exact ⟨rfl,(List.mem_filter.mp hn).1⟩
  · exact absurd hq List.not_mem_nil

theorem replyRequests_spec {d : Dispatch} {i : ℕ} {reply : AgentReply} :
    ∀ q ∈ m.replyRequests d i reply,
      q.fencingToken = m.ha.fencingToken ∧ q.target ∈ d.nodeIds := by
  intro q hq
  unfold replyRequests at hq
  split at hq
  · split_ifs at hq
    · exact stepRequests_spec q hq
    · exact absurd hq List.not_mem_nil
  · exact absurd hq List.not_mem_nil

theorem sends_pipelineNext (m : ClusterMaster) (d : Dispatch) (present : List NodeId) (idx : ℕ)
    (hidden : Option String) (steps : List NodeId) :
    m.Sends (m.stepRequests d present idx) (m.pipelineNext d present idx hidden steps).1 := by
  unfold pipelineNext stepRequests
  cases d.nodeIds[idx]? with
  | none => exact (Silent.refl m).sends
  | some n =>
    by_cases hpresent : n ∈ present
    · simp only [if_pos hpresent]
      exact ⟨rfl,rfl,rfl,rfl⟩
    · simp only [if_neg hpresent]
      exact (Silent.refl m).sends

theorem silent_finalized (m : ClusterMaster) (r : Ref) (o : DispatchOutcome) (now : ℚ) :
    m.Silent (m.finalized r o now) := by
  unfold finalized
  split_ifs
  · refine Silent.trans ?_ (silent_enqueueRetry _ r now)
    exact ⟨rfl,rfl,rfl,rfl⟩
  · exact ⟨rfl,rfl,rfl,rfl⟩

theorem silent_finalizeTask (m : ClusterMaster) (id : TaskId) (o : DispatchOutcome) (now : ℚ) :
    m.Silent (m.finalizeTask id o now).1 := by
  rcases finalizeTask_spec m id o now with ⟨-,heq⟩ | ⟨r,-,-,heq⟩
  · rw [heq]
    exact Silent.refl m
  · rw [heq]
    exact (silent_finalized m r o now).trans ⟨rfl,rfl,rfl,rfl⟩

theorem silent_endDispatch (m : ClusterMaster) (cid : ℕ) (d : Dispatch) (o : DispatchOutcome) :
    m.Silent (m.endDispatch cid d o) := by
  simp only [endDispatch,setPrevOutputs]
  split <;> exact ⟨rfl,rfl,rfl,rfl⟩

theorem sends_resumeDispatch {d : Dispatch} (h : m.resumeDispatch cid d now = some m') :
    m.Sends (m.dispatchRequests d) m' := by
  obtain ⟨task,attempt,nodeIds,pc⟩ := d
  cases pc with
  | start =>
    obtain rfl := Option.some.inj h
    exact Silent.sends ⟨rfl,rfl,rfl,rfl⟩
  | snapshot =>
    obtain rfl := Option.some.inj h
    simp only [dispatchRequests]
    by_cases hmode : (m.objects task).mode = .pipeline
    · rw [if_pos hmode,if_pos hmode]
      exact (sends_pipelineNext m _ _ _ _ _).trans_silent ⟨rfl,rfl,rfl,rfl⟩
    · rw [if_neg hmode,if_neg hmode]
      exact ⟨rfl,rfl,rfl,rfl⟩
  | data replies =>
    obtain ⟨-,h⟩ := Option.ite_none_right_eq_some.mp h
    obtain rfl := Option.some.inj h
    exact Silent.sends ⟨rfl,rfl,rfl,rfl⟩
  | collect rest acc =>
    cases rest with
    | nil =>
      obtain rfl := Option.some.inj h
      exact Silent.sends ⟨rfl,rfl,rfl,rfl⟩
    | cons p rest =>
      obtain rfl := Option.some.inj h
      have hfault : m.Silent (if (collectReply acc p.1 p.2).2 then m.reportFault p.1 now else m) := by
        split_ifs
        · exact silent_reportFault m p.1 now
        · exact Silent.refl m
      refine Silent.sends (hfault.trans ?_)
      exact ⟨rfl,rfl,rfl,rfl⟩
  | pipeline => simp [resumeDispatch] at h
  | finalizing o =>
    obtain rfl := Option.some.inj h
    have hfinal := silent_finalizeTask m (m.objects task).taskId o now
    simp only [resumeFinalize]
    refine (hfinal.trans ?_).sends
    split_ifs
    · exact ⟨rfl,rfl,rfl,rfl⟩
    · exact silent_endDispatch _ cid _ o
  | tail w o =>
    obtain ⟨-,h⟩ := Option.ite_none_left_eq_some.mp h
    obtain rfl := Option.some.inj h
    exact (silent_endDispatch m cid _ o).sends

theorem sends_pipelineReply (m : ClusterMaster) (d : Dispatch) (present : List NodeId) (idx : ℕ)
    (hidden : Option String) (steps : List NodeId) (n : NodeId) (reply : AgentReply) (now : ℚ) :
    m.Sends (match reply with
      | .dict a => if stepFailure n a = none then m.stepRequests d present (idx+1) else []
      | _ => []) (m.pipelineReply d present idx hidden steps n reply now).1 := by
  unfold pipelineReply
  cases reply with
  | raised exception message => exact (silent_reportFault m n now).sends
  | notDict => exact (Silent.refl m).sends
  | dict a =>
    simp only
    cases hfail : stepFailure n a with
    | some o => exact (Silent.refl m).sends
    | none => exact sends_pipelineNext m d present _ _ _

theorem sends_receiveReply {d : Dispatch} {i : ℕ} {reply : AgentReply}
    (h : m.receiveReply cid d i reply now = some m') : m.Sends (m.replyRequests d i reply) m' := by
  obtain ⟨task,attempt,nodeIds,pc⟩ := d
  unfold receiveReply at h
  unfold replyRequests
  cases hn : nodeIds[i]? with
  | none =>
    simp only [hn] at h
    exact nomatch h
  | some n =>
    simp only [hn] at h
    cases pc with
    | data replies =>
      obtain ⟨-,h⟩ := Option.ite_none_right_eq_some.mp h
      obtain rfl := Option.some.inj h
      cases reply with
      | raised exception message =>
        refine Silent.sends ((silent_reportFault m n now).trans ?_)
        exact ⟨rfl,rfl,rfl,rfl⟩
      | notDict => exact Silent.sends ⟨rfl,rfl,rfl,rfl⟩
      | dict a => exact Silent.sends ⟨rfl,rfl,rfl,rfl⟩
    | pipeline present idx hidden steps =>
      obtain ⟨hi,h⟩ := Option.ite_none_right_eq_some.mp h
      obtain rfl := Option.some.inj h
      have hsends := sends_pipelineReply m ⟨task,attempt,nodeIds,.pipeline present idx hidden steps⟩
        present idx hidden steps n reply now
      cases reply with
      | raised exception message => exact hsends.trans_silent ⟨rfl,rfl,rfl,rfl⟩
      | notDict => exact hsends.trans_silent ⟨rfl,rfl,rfl,rfl⟩
      | dict a =>
        simp only [hi,true_and]
        exact hsends.trans_silent ⟨rfl,rfl,rfl,rfl⟩
    | start => exact nomatch h
    | snapshot => exact nomatch h
    | collect rest acc => exact nomatch h
    | finalizing o => exact nomatch h
    | tail w o => exact nomatch h

theorem silent_completeTask (m : ClusterMaster) (id : TaskId) (error : String) (now : ℚ) :
    m.Silent (m.completeTask id error now) := by
  unfold completeTask
  split <;> exact ⟨rfl,rfl,rfl,rfl⟩

theorem silent_cancelTask (m : ClusterMaster) (id : TaskId) (reason : String) (subs : Bool) :
    m.Silent (m.cancelTask id reason subs) := by
  rcases cancelTask_shape m id reason subs with h | ⟨_,_,_,_,_,-,h⟩ <;> rw [h]
  · exact Silent.refl m
  · exact ⟨rfl,rfl,rfl,rfl⟩

theorem silent_migrateTask (m : ClusterMaster) (id : TaskId) : m.Silent (m.migrateTask id) := by
  unfold migrateTask
  split
  · exact Silent.refl m
  · split_ifs <;> exact ⟨rfl,rfl,rfl,rfl⟩

theorem silent_degradeTask (m : ClusterMaster) (id : TaskId) : m.Silent (m.degradeTask id) := by
  unfold degradeTask
  split
  · exact Silent.refl m
  · simp only
    split_ifs
    · split <;> exact ⟨rfl,rfl,rfl,rfl⟩
    · exact Silent.refl m

theorem silent_checkTimeouts (m : ClusterMaster) (now : ℚ) : m.Silent (m.checkTimeouts now) := by
  refine silent_foldl (fun s r => ?_) _ m
  unfold timeoutOne
  split_ifs
  · refine Silent.trans ?_ (silent_enqueueRetry _ r now)
    exact ⟨rfl,rfl,rfl,rfl⟩
  · exact Silent.refl s

theorem silent_refreshTasks (m : ClusterMaster) (cid : ℕ) (offline : List NodeId) (now : ℚ) :
    m.Silent (m.refreshTasks cid offline now) := by
  simp only [refreshTasks]
  split_ifs
  · exact ⟨rfl,rfl,rfl,rfl⟩
  · refine Silent.trans (silent_foldl (fun s r => ?_) _ m) ⟨rfl,rfl,rfl,rfl⟩
    refine Silent.trans ?_ (silent_enqueueRetry _ r now)
    exact ⟨rfl,rfl,rfl,rfl⟩

theorem silent_receiveSyncedTasks (m : ClusterMaster) (records : List TaskRecord) :
    m.Silent (m.receiveSyncedTasks records) := by
  have hmerge : m.Silent (records.foldl mergeRecord m) := by
    refine silent_foldl (fun s d => ?_) _ m
    unfold mergeRecord
    split_ifs
    · exact ⟨rfl,rfl,rfl,rfl⟩
    · exact Silent.refl s
  simp only [receiveSyncedTasks]
  split_ifs
  · exact hmerge.trans ⟨rfl,rfl,rfl,rfl⟩
  · exact hmerge

def frameRequests (m : ClusterMaster) : Frame → List ExecuteRequest
  | .dispatch d => m.dispatchRequests d
  | _ => []

theorem sends_resumeFrame {f : Frame} (h : m.resumeFrame cid now f = some m') :
    m.Sends (m.frameRequests f) m' := by
  cases f with
  | assign r pc k =>
    rcases resumeAssign_cases h with ⟨ok,rfl,rfl⟩ | ⟨-,s,pc',hp,rfl⟩
    · exact (silent_assignReturned m cid r ok now k).sends
    · refine Silent.sends ((silent_assignStep hp).trans ?_)
      exact ⟨rfl,rfl,rfl,rfl⟩
  | drainStart =>
    obtain rfl := Option.some.inj h
    unfold drainStart
    split_ifs <;> exact Silent.sends ⟨rfl,rfl,rfl,rfl⟩
  | draining rest =>
    obtain rfl := Option.some.inj h
    cases rest <;> exact Silent.sends ⟨rfl,rfl,rfl,rfl⟩
  | retrying loopNow rest =>
    obtain rfl := Option.some.inj h
    exact (silent_retryNext m cid loopNow rest).sends
  | cancelling w =>
    obtain ⟨-,h⟩ := Option.ite_none_left_eq_some.mp h
    obtain rfl := Option.some.inj h
    exact Silent.sends ⟨rfl,rfl,rfl,rfl⟩
  | refreshing offline =>
    obtain rfl := Option.some.inj h
    exact (silent_refreshTasks m cid offline now).sends
  | probing rest =>
    cases rest with
    | nil =>
      obtain rfl := Option.some.inj h
      exact Silent.sends ⟨rfl,rfl,rfl,rfl⟩
    | cons n rest => simp [resumeFrame] at h
  | dispatch d => exact sends_resumeDispatch h

/-- What a step does to the leadership: only an election block and a new process change it. -/
def LeadershipStep (m m' : ClusterMaster) : MasterEvent → Prop
  | .election ev => ∃ p, m.ha.electionStep ev = some p ∧ m' = { m with ha := p.1 }
  | .restart now rnd => (m.reboot now rnd).Posts m'
  | _ => m.Posts m'

def sends (m : ClusterMaster) : MasterEvent → List ExecuteRequest
  | .resume cid _ => (m.frames.get? cid).elim [] m.frameRequests
  | .reply cid i reply _ =>
    match m.frames.get? cid with
    | some (.dispatch d) => m.replyRequests d i reply
    | _ => []
  | _ => []

/-- What a step does to the leadership, the configuration and the batches, and exactly what it
posts. -/
def SendStep (m m' : ClusterMaster) : MasterEvent → Prop
  | .election ev => ∃ p, m.ha.electionStep ev = some p ∧ m' = { m with ha := p.1 }
  | .registerTestBatch b => m' = m.registerTestBatch b
  | .restart now rnd =>
    ∃ batches, ({ m.reboot now rnd with testBatches := batches } : ClusterMaster).Silent m'
  | ev => m.Sends (m.sends ev) m'

theorem silent_enqueueRestored (m : ClusterMaster) (r : Ref) : m.Silent (m.enqueueRestored r) := by
  unfold enqueueRestored
  split_ifs
  · exact silent_enqueuePending m r true
  · exact Silent.refl m

theorem silent_restart (m : ClusterMaster) (now rnd : ℚ) :
    ∃ batches, ({ m.reboot now rnd with testBatches := batches } : ClusterMaster).Silent
      (m.restart now rnd) := by
  unfold restart
  split
  · exact ⟨_,Silent.refl _⟩
  · next content _ =>
    have hinsert : (m.reboot now rnd).Silent (content.tasks.foldl insertRecord (m.reboot now rnd)) :=
      silent_foldl (F := insertRecord) (fun _ _ => ⟨rfl,rfl,rfl,rfl⟩) _ _
    refine ⟨((m.reboot now rnd).restoreTasks content).testBatches,
      Silent.trans ?_ (silent_foldl silent_enqueueRestored _ _)⟩
    exact ⟨hinsert.ha,hinsert.requests,hinsert.config,rfl⟩

theorem silent_registerNode (m : ClusterMaster) (info : NodeInfo) (now : ℚ) :
    m.Silent (m.registerNode info now) := by
  unfold registerNode
  split_ifs
  · exact Silent.refl m
  · exact (silent_dropExpiredBan m info.nodeId now).trans ⟨rfl,rfl,rfl,rfl⟩

theorem step_sends {ev : MasterEvent} (h : machine.step m ev = some m') : m.SendStep m' ev := by
  by_cases hstore : ev.isStore = true
  · obtain ⟨_,_,_,rfl⟩ := step_store h hstore
    cases ev <;> first | exact Silent.sends ⟨rfl,rfl,rfl,rfl⟩ | cases hstore
  cases ev with
  | election e =>
    obtain ⟨p,hp,rfl⟩ := Option.map_eq_some_iff.mp h
    exact ⟨p,hp,rfl⟩
  | registerTestBatch b => exact (Option.some.inj h).symm
  | restart now rnd => exact Option.some.inj h ▸ silent_restart m now rnd
  | registerNode info now => exact Option.some.inj h ▸ (silent_registerNode m info now).sends
  | resume cid now =>
    obtain ⟨f,hf,hs⟩ := Option.bind_eq_some_iff.mp h
    have hsends := sends_resumeFrame hs
    rwa [← show m.sends (.resume cid now) = m.frameRequests f by rw [sends,hf]; rfl] at hsends
  | reply cid i reply now =>
    simp only [machine,step] at h
    split at h
    · next d hd =>
      have hsends := sends_receiveReply h
      rwa [← show m.sends (.reply cid i reply now) = m.replyRequests d i reply by
        rw [sends,hd]] at hsends
    · cases h
  | probed cid ok now =>
    simp only [machine,step] at h
    split at h
    · obtain rfl := Option.some.inj h
      cases ok <;> exact Silent.sends ⟨rfl,rfl,rfl,rfl⟩
    · cases h
  | updateNodeLoad id metrics used total supervisor now =>
    obtain rfl := Option.some.inj h
    unfold updateNodeLoad SendStep
    split_ifs <;> exact Silent.sends ⟨rfl,rfl,rfl,rfl⟩
  | reportFault id now => exact Option.some.inj h ▸ (silent_reportFault m id now).sends
  | probeBannedNodes now =>
    obtain rfl := Option.some.inj h
    have hunban := silent_foldl (F := unbanNode) (fun _ _ => ⟨rfl,rfl,rfl,rfl⟩)
      ((m.expiredBans now).filter fun id => !(m.nodes.contains id)) m
    refine Silent.sends (hunban.trans ?_)
    exact ⟨rfl,rfl,rfl,rfl⟩
  | submit t =>
    obtain ⟨-,h⟩ := Option.ite_none_right_eq_some.mp h
    exact Option.some.inj h ▸ Silent.sends ⟨rfl,rfl,rfl,rfl⟩
  | doneCallback id =>
    obtain ⟨-,h⟩ := Option.ite_none_right_eq_some.mp h
    exact Option.some.inj h ▸ Silent.sends ⟨rfl,rfl,rfl,rfl⟩
  | completeTask id error now => exact Option.some.inj h ▸ (silent_completeTask m id error now).sends
  | cancelTask id reason subs => exact Option.some.inj h ▸ (silent_cancelTask m id reason subs).sends
  | migrateTask id => exact Option.some.inj h ▸ (silent_migrateTask m id).sends
  | degradeTask id => exact Option.some.inj h ▸ (silent_degradeTask m id).sends
  | checkTimeouts now => exact Option.some.inj h ▸ (silent_checkTimeouts m now).sends
  | refreshNodeStatuses now =>
    obtain rfl := Option.some.inj h
    simp only [refreshNodes,SendStep]
    split_ifs <;> exact Silent.sends ⟨rfl,rfl,rfl,rfl⟩
  | retryLoop now =>
    obtain rfl := Option.some.inj h
    unfold retryLoop SendStep
    split_ifs <;> exact Silent.sends ⟨rfl,rfl,rfl,rfl⟩
  | fillTmp | replaceFile | persistLoop | registerRunId | registerSession | handoffSession |
      closeSession =>
    exact absurd rfl hstore
  | receiveSyncedTasks records => exact Option.some.inj h ▸ (silent_receiveSyncedTasks m records).sends
  | _ =>
    obtain rfl := Option.some.inj h
    exact Silent.sends ⟨rfl,rfl,rfl,rfl⟩

theorem frameRequests_spec {f : Frame} :
    ∀ q ∈ m.frameRequests f, q.fencingToken = m.ha.fencingToken := by
  intro q hq
  cases f with
  | dispatch d => exact (dispatchRequests_spec q hq).1
  | _ => exact absurd hq List.not_mem_nil

theorem sends_token {ev : MasterEvent} :
    ∀ q ∈ m.sends ev, q.fencingToken = m.ha.fencingToken := by
  intro q hq
  cases ev with
  | resume cid now =>
    rw [sends] at hq
    cases hf : m.frames.get? cid with
    | none =>
      rw [hf] at hq
      exact absurd hq List.not_mem_nil
    | some f =>
      rw [hf] at hq
      exact frameRequests_spec q hq
  | reply cid i reply now =>
    rw [sends] at hq
    split at hq
    · exact (replyRequests_spec q hq).1
    · exact absurd hq List.not_mem_nil
  | _ => exact absurd hq List.not_mem_nil

theorem step_leadership {ev : MasterEvent} (h : machine.step m ev = some m') :
    m.LeadershipStep m' ev := by
  have hsend := step_sends h
  cases ev with
  | election e => exact hsend
  | registerTestBatch b =>
    obtain rfl : m' = m.registerTestBatch b := hsend
    exact ⟨rfl,[],(List.append_nil _).symm,nofun⟩
  | restart now rnd =>
    obtain ⟨batches,hsilent⟩ := hsend
    exact ⟨hsilent.ha,[],hsilent.requests.trans (List.append_nil _).symm,nofun⟩
  | _ => exact Sends.posts hsend sends_token

theorem step_requests {ev : MasterEvent} (h : machine.step m ev = some m') :
    m'.requests = m.requests ++ m.sends ev := by
  have hsend := step_sends h
  cases ev with
  | election e =>
    obtain ⟨p,-,rfl⟩ := hsend
    exact (List.append_nil _).symm
  | registerTestBatch b =>
    obtain rfl : m' = m.registerTestBatch b := hsend
    exact (List.append_nil _).symm
  | restart now rnd =>
    obtain ⟨batches,hsilent⟩ := hsend
    exact hsilent.requests.trans (List.append_nil _).symm
  | _ => exact Sends.requests hsend

/-- Nothing changes the configuration of a master. -/
theorem step_config {ev : MasterEvent} (h : machine.step m ev = some m') :
    m'.config = m.config := by
  have hsend := step_sends h
  cases ev with
  | election e =>
    obtain ⟨p,-,rfl⟩ := hsend
    rfl
  | registerTestBatch b =>
    obtain rfl : m' = m.registerTestBatch b := hsend
    rfl
  | restart now rnd =>
    obtain ⟨batches,hsilent⟩ := hsend
    exact hsilent.config
  | _ => exact Sends.config hsend

/-- Only a registration and a restart change the table of batches. -/
theorem step_testBatches {ev : MasterEvent} (h : machine.step m ev = some m')
    (hreg : ∀ b, ev ≠ .registerTestBatch b) (hrestart : ∀ now rnd, ev ≠ .restart now rnd) :
    m'.testBatches = m.testBatches := by
  have hsend := step_sends h
  cases ev with
  | election e =>
    obtain ⟨p,-,rfl⟩ := hsend
    rfl
  | registerTestBatch b => exact absurd rfl (hreg b)
  | restart now rnd => exact absurd rfl (hrestart now rnd)
  | _ => exact Sends.testBatches hsend

end ClusterMaster
end FusionMultiNodes

import FusionMultiNodes.Master.Outcomes

/-! The effects a step of a master can have on tasks, coroutines and slots. -/
namespace FusionMultiNodes

/-- The event carries the number of tasks an agent says it runs. -/
def MasterEvent.reportsLoad : MasterEvent → Bool
  | .updateHeartbeat _ _ _ active _ _ => active.isSome
  | .updateNodeLoad _ _ _ _ _ _ => true
  | .receiveSyncedState _ _ _ => true
  | _ => false

namespace ClusterMaster

/-- Unless agents report their load, a node keeps its slots, goes, or is new. -/
def SlotsFollow (m : ClusterMaster) (ev : MasterEvent) (m' : ClusterMaster) : Prop :=
  ev.reportsLoad = false → ∀ n, m'.slots n = m.slots n ∨ m'.slots n = none ∨
    (m.slots n = none ∧ ∃ info now, ev = .registerNode info now ∧ n = info.nodeId ∧
      m'.slots n = some (info.activeTasks,info.maxTasks))

/-- What a step can do. The coroutines, tasks and conditions of a step are those of the state
before it. -/
inductive Effect (m : ClusterMaster) : MasterEvent → ClusterMaster → Prop
  | still {ev : MasterEvent} {s : ClusterMaster} : m.Still s → m.SlotsFollow ev s → Effect m ev s
  | spawns {ev : MasterEvent} {s : ClusterMaster} {f : Frame} : m.Still s → m.SlotsFollow ev s →
      f.refs = [] → Effect m ev (s.spawn f)
  | swaps {ev : MasterEvent} {s : ClusterMaster} {cid : ℕ} {f f' : Frame} : m.Quiet s →
      m.frames.get? cid = some f → f.Alike f' → Effect m ev (s.setFrame cid f')
  | ends {ev : MasterEvent} {cid : ℕ} {f : Frame} : m.frames.get? cid = some f → f.Idle →
      Effect m ev (m.endFrame cid)
  | callback {id : TaskId} : Effect m (.doneCallback id)
      { m with
        doneCallbacks := m.doneCallbacks.erase id
        dispatchTasks := m.dispatchTasks.erase id }
  | submits {t : ClusterTask} : m.isNewTask t = true → Effect m (.submit t) (m.submit t)
  | drains {cid : ℕ} {now : ℚ} : m.frames.get? cid = some .drainStart →
      Effect m (.resume cid now)
        ({ m with pendingQueue := [] }.setFrame cid (.draining m.pendingQueue))
  | collects {now : ℚ} : Effect m (.retryLoop now)
      ({ m with pendingRetry := [] }.spawn (.retrying now m.pendingRetry))
  | notDue {cid : ℕ} {now loopNow : ℚ} {r : Ref} {rest : List Ref} :
      m.frames.get? cid = some (.retrying loopNow (r::rest)) →
      Effect m (.resume cid now)
        ({ m with pendingRetry := m.pendingRetry ++ [r] }.setFrame cid (.retrying loopNow rest))
  | exhausted {cid : ℕ} {now loopNow : ℚ} {r : Ref} {rest : List Ref} {error : String} :
      m.frames.get? cid = some (.retrying loopNow (r::rest)) → (m.objects r).nextRetryAt ≤ loopNow →
      maxRetryLoopAttempts ≤ (m.objects r).retryCount →
      Effect m (.resume cid now)
        ((m.modifyTask r fun t => giveUpTask t error).setFrame cid (.retrying loopNow rest))
  | skips {cid : ℕ} {now : ℚ} {r : Ref} {pc : AssignPc} {k : Caller} :
      m.frames.get? cid = some (.assign r pc k) → pc.isOpen = true →
      m.isRunning (m.objects r).taskId = true ∨ m.isQueued (m.objects r).taskId = true →
      Effect m (.resume cid now) (m.setFrame cid (.assign r (.returned true) k))
  | refuses {s : ClusterMaster} {cid : ℕ} {now : ℚ} {r : Ref} {pc : AssignPc} : m.Quiet s →
      m.frames.get? cid = some (.assign r pc .submit) → pc.isOpen = true →
      Effect m (.resume cid now) (s.setFrame cid (.assign r (.returned false) .submit))
  | parks {s : ClusterMaster} {cid : ℕ} {now : ℚ} {r : Ref} {pc : AssignPc} {k : Caller} :
      (m.park r).Quiet s → m.frames.get? cid = some (.assign r pc k) → pc.isOpen = true →
      Effect m (.resume cid now) (s.setFrame cid (.assign r (.returned true) k))
  | requeues {cid : ℕ} {now : ℚ} {r : Ref} {rest : List Ref} :
      m.frames.get? cid = some (.assign r (.returned false) (.drain rest)) →
      Effect m (.resume cid now) ((m.park r).setFrame cid (.draining rest))
  | commits {s : ClusterMaster} {cid : ℕ} {now : ℚ} {r : Ref} {pc pc' : AssignPc} {k : Caller}
      {ns : List NodeId} : m.Commits r now pc ns → (m.commit r ns now).Quiet s →
      s.nodes = occupyNodes m.nodes ns → m.frames.get? cid = some (.assign r pc k) →
      pc.isOpen = true → (pc' = .trigger ∨ pc' = .writing m.store.nextWrite) →
      Effect m (.resume cid now) (s.setFrame cid (.assign r pc' k))
  | triggers {cid : ℕ} {now : ℚ} {r : Ref} {k : Caller} :
      m.frames.get? cid = some (.assign r .trigger k) →
      Effect m (.resume cid now) ((m.triggerDispatch r).setFrame cid (.assign r (.returned true) k))
  | retries {cid : ℕ} {now loopNow : ℚ} {r : Ref} {rest : List Ref} :
      m.frames.get? cid = some (.assign r (.returned false) (.retry loopNow rest)) →
      Effect m (.resume cid now) ((m.enqueueRetry r now).setFrame cid (.retrying loopNow rest))
  | fallsBack {cid : ℕ} {now : ℚ} {r : Ref} {k : Caller} :
      m.frames.get? cid = some (.assign r (.returned false) k) → k = .migrate ∨ k = .degrade →
      Effect m (.resume cid now) ((m.enqueueRetry r now).endFrame cid)
  | dispatches {s : ClusterMaster} {cid : ℕ} {now : ℚ} {d : Dispatch} :
      m.frames.get? cid = some (.dispatch d) → DispatchEffect m cid d now s →
      Effect m (.resume cid now) s
  | replies {s : ClusterMaster} {cid i : ℕ} {now : ℚ} {d d' : Dispatch} {reply : AgentReply} :
      m.Quiet s → m.frames.get? cid = some (.dispatch d) → m.Continues d d' →
      Effect m (.reply cid i reply now) (s.setFrame cid (.dispatch d'))
  | completes {id : TaskId} {error : String} {now : ℚ} {r : Ref} : m.tasks.get? id = some r →
      Effect m (.completeTask id error now) (m.completeTask id error now)
  | cancels {id : TaskId} {reason : String} {subs : Bool} {r : Ref} : m.tasks.get? id = some r →
      isCancellable (m.objects r) = true →
      Effect m (.cancelTask id reason subs) (m.cancelTask id reason subs)
  | migrates {id : TaskId} {r : Ref} : m.tasks.get? id = some r →
      (m.objects r).status = .running → Effect m (.migrateTask id) (m.migrateTask id)
  | degrades {id : TaskId} {r : Ref} {size : String × String} : m.tasks.get? id = some r →
      ((m.objects r).status = .running ∨ (m.objects r).status = .pending ∨
        (m.objects r).status = .failed) →
      (m.objects r).degradationCount < (m.objects r).maxDegradations →
      (m.objects r).nextModelSize = some size → Effect m (.degradeTask id) (m.degradeTask id)
  | timesOut {now : ℚ} : Effect m (.checkTimeouts now) (m.checkTimeouts now)
  | refreshes {cid : ℕ} {now : ℚ} {offline : List NodeId} :
      m.frames.get? cid = some (.refreshing offline) →
      Effect m (.resume cid now) (m.refreshTasks cid offline now)
  | cleans : Effect m .cleanupCompletedTasks m.cleanupCompletedTasks
  | receives {records : List TaskRecord} :
      Effect m (.receiveSyncedTasks records) (m.receiveSyncedTasks records)
  | restarts {now rnd : ℚ} : Effect m (.restart now rnd) (m.restart now rnd)

variable {m m' s : ClusterMaster} {ev : MasterEvent} {cid : ℕ} {now : ℚ}

theorem SlotsFollow.of_eq (h : ∀ n, m'.slots n = m.slots n) : m.SlotsFollow ev m' :=
  fun _ n => Or.inl (h n)

theorem Quiet.effect (h : m.Quiet m') : Effect m ev m' :=
  .still h.still (.of_eq h.slots)

theorem slots_filter {nodes : Dict NodeId NodeInfo} (p : NodeId → NodeInfo → Bool) (n : NodeId) :
    ((nodes.filter p).get? n).map (fun i => (i.activeTasks,i.maxTasks)) =
        (nodes.get? n).map (fun i => (i.activeTasks,i.maxTasks)) ∨
      ((nodes.filter p).get? n).map (fun i => (i.activeTasks,i.maxTasks)) = none := by
  rw [Dict.get?_filter]
  cases nodes.get? n with
  | none => exact Or.inl rfl
  | some i =>
    by_cases hp : p n i = true
    · exact Or.inl (by simp [hp])
    · exact Or.inr (by simp [hp])

theorem registerNode_effect (m : ClusterMaster) (info : NodeInfo) (now : ℚ) :
    Effect m (.registerNode info now) (m.registerNode info now) := by
  unfold registerNode
  split_ifs
  · exact (Quiet.refl m).effect
  · have hban := (quiet_dropExpiredBan m info.nodeId now).still
    refine .spawns (hban.trans ⟨rfl,rfl,rfl,rfl,rfl,rfl,rfl,rfl,rfl,rfl⟩) (fun _ n => ?_) rfl
    simp only [slots,Dict.get?_set,registeredNode]
    split_ifs with hn
    · subst hn
      cases hold : m.nodes.get? info.nodeId with
      | none => exact Or.inr (Or.inr ⟨by simp,info,now,rfl,rfl,by simp⟩)
      | some old => exact Or.inl (by simp)
    · exact Or.inl rfl

theorem quiet_unbanNode (m : ClusterMaster) (id : NodeId) : m.Quiet (m.unbanNode id) :=
  ⟨⟨rfl,rfl,rfl,rfl,rfl,rfl,rfl,rfl,rfl,rfl⟩,fun _ => rfl⟩

theorem quiet_foldl {α : Type} {F : ClusterMaster → α → ClusterMaster}
    (hF : ∀ s a, Quiet s (F s a)) (l : List α) (m : ClusterMaster) : m.Quiet (l.foldl F m) := by
  induction l generalizing m with
  | nil => exact Quiet.refl m
  | cons a l ih => exact (hF m a).trans (ih (F m a))

theorem slots_mapValues {nodes : Dict NodeId NodeInfo} {f : NodeId → NodeInfo → NodeInfo}
    (hf : ∀ n i, (f n i).activeTasks = i.activeTasks ∧ (f n i).maxTasks = i.maxTasks) (n : NodeId) :
    ((nodes.mapValues f).get? n).map (fun i => (i.activeTasks,i.maxTasks)) =
      (nodes.get? n).map fun i => (i.activeTasks,i.maxTasks) := by
  rw [Dict.get?_mapValues]
  cases nodes.get? n <;> simp [hf]

theorem probeBannedNodes_effect (m : ClusterMaster) (now : ℚ) :
    Effect m (.probeBannedNodes now) (m.probeBannedNodes now) := by
  have hq := quiet_foldl quiet_unbanNode ((m.expiredBans now).filter fun id => !(m.nodes.contains id)) m
  exact .spawns hq.still (.of_eq hq.slots) rfl

theorem probed_effect {id : NodeId} {rest : List NodeId} {ok : Bool}
    (h : m.frames.get? cid = some (.probing (id::rest))) :
    Effect m (.probed cid ok now) (m.probed cid id rest ok now) := by
  unfold probed
  refine .swaps ?_ h ⟨rfl,rfl,rfl,rfl,rfl,List.Subset.refl _⟩
  cases ok
  · exact ⟨⟨rfl,rfl,rfl,rfl,rfl,rfl,rfl,rfl,rfl,rfl⟩,fun _ => rfl⟩
  · exact quiet_unbanNode m id

theorem refreshNodes_effect (m : ClusterMaster) (now : ℚ) : Effect m ev (m.refreshNodes now) := by
  simp only [refreshNodes]
  have hslots : ∀ n, ({ m with nodes := m.nodes.mapValues fun _ n =>
      { n with status := m.refreshedStatus now n } } : ClusterMaster).slots n = m.slots n := by
    intro n
    apply slots_mapValues
    exact fun _ _ => ⟨rfl,rfl⟩
  split_ifs
  · exact .still ⟨rfl,rfl,rfl,rfl,rfl,rfl,rfl,rfl,rfl,rfl⟩ (.of_eq hslots)
  · exact .spawns ⟨rfl,rfl,rfl,rfl,rfl,rfl,rfl,rfl,rfl,rfl⟩ (.of_eq hslots) rfl

theorem assignReturned_effect {r : Ref} {ok : Bool} {k : Caller}
    (h : m.frames.get? cid = some (.assign r (.returned ok) k)) :
    Effect m (.resume cid now) (m.assignReturned cid r ok now k) := by
  have hswap : ok = true → ∀ f : Frame, f.holds = k.rest → f.commits = [] → f.fresh = [] →
      f.dispatches = [] → f.refs = k.rest → Effect m (.resume cid now) (m.setFrame cid f) := by
    rintro rfl f hh hc hf hd hr
    refine .swaps (Quiet.refl m) h ⟨hh,hc,?_,rfl,hd,?_⟩
    · rw [hf]
      cases k <;> rfl
    · rw [hr]
      exact List.subset_cons_self r k.rest
  cases k with
  | submit =>
    refine .ends h ⟨?_,rfl,rfl,rfl⟩
    cases ok <;> rfl
  | drain rest =>
    cases ok
    · exact .requeues h
    · exact hswap rfl _ rfl rfl rfl rfl rfl
  | retry loopNow rest =>
    cases ok
    · exact .retries h
    · exact hswap rfl _ rfl rfl rfl rfl rfl
  | migrate =>
    cases ok
    · exact .fallsBack h (Or.inl rfl)
    · exact .ends h ⟨rfl,rfl,rfl,rfl⟩
  | degrade =>
    cases ok
    · exact .fallsBack h (Or.inr rfl)
    · exact .ends h ⟨rfl,rfl,rfl,rfl⟩

theorem assignOutcome_effect {r : Ref} {pc pc' : AssignPc} {k : Caller}
    (h : m.frames.get? cid = some (.assign r pc k)) (ho : AssignOutcome m r now pc s pc') :
    Effect m (.resume cid now) (s.setFrame cid (.assign r pc' k)) := by
  cases ho with
  | advance hq _ hp hp' =>
    refine .swaps hq h ⟨?_,?_,?_,rfl,rfl,List.Subset.refl _⟩
    · rw [Frame.holds_of_isOpen hp,Frame.holds_of_isOpen hp']
    · rw [Frame.commits_of_isOpen hp,Frame.commits_of_isOpen hp']
    · rw [Frame.fresh_of_isOpen hp,Frame.fresh_of_isOpen hp']
  | skip hreason hp => exact .skips h hp hreason
  | refuse hq _ hp =>
    by_cases hk : k = .submit
    · subst hk
      exact .refuses hq h hp
    · refine .swaps hq h ⟨?_,?_,?_,rfl,rfl,List.Subset.refl _⟩
      · rw [Frame.holds_of_isOpen hp]
        simp [Frame.holds,hk]
      · rw [Frame.commits_of_isOpen hp]
        rfl
      · rw [Frame.fresh_of_isOpen hp,if_neg hk]
        cases k <;> rfl
  | parked hq _ hp => exact .parks hq h hp
  | committed hc hq hn hp hp' => exact .commits hc hq hn h hp hp'
  | written =>
    refine .swaps (Quiet.refl m) h ⟨rfl,rfl,?_,rfl,rfl,List.Subset.refl _⟩
    cases k <;> rfl
  | triggered => exact .triggers h

theorem resumeAssign_effect {r : Ref} {pc : AssignPc} {k : Caller}
    (h : m.frames.get? cid = some (.assign r pc k))
    (hs : m.resumeAssign cid r k now pc = some m') : Effect m (.resume cid now) m' := by
  rcases resumeAssign_cases hs with ⟨ok,rfl,rfl⟩ | ⟨-,s,pc',hp,rfl⟩
  · exact assignReturned_effect h
  · exact assignOutcome_effect h (assignStep_outcome hp)

theorem retryNext_effect {loopNow : ℚ} {l : List Ref}
    (h : m.frames.get? cid = some (.retrying loopNow l)) :
    Effect m (.resume cid now) (m.retryNext cid loopNow l) := by
  cases l with
  | nil => exact .ends h ⟨rfl,rfl,rfl,rfl⟩
  | cons r rest =>
    simp only [retryNext]
    split_ifs with hdue hmax
    · exact .notDue h
    · exact .exhausted h (not_lt.mp hdue) hmax
    · exact .swaps (Quiet.refl m) h ⟨rfl,rfl,rfl,rfl,rfl,List.Subset.refl _⟩

theorem resumeFrame_effect {f : Frame} (h : m.frames.get? cid = some f)
    (hs : m.resumeFrame cid now f = some m') : Effect m (.resume cid now) m' := by
  cases f with
  | assign r pc k => exact resumeAssign_effect h hs
  | drainStart =>
    simp only [resumeFrame,drainStart,Option.some.injEq] at hs
    subst hs
    split_ifs
    · exact .ends h ⟨rfl,rfl,rfl,rfl⟩
    · exact .drains h
  | draining rest =>
    simp only [resumeFrame,Option.some.injEq] at hs
    subst hs
    cases rest with
    | nil => exact .ends h ⟨rfl,rfl,rfl,rfl⟩
    | cons r rest => exact .swaps (Quiet.refl m) h ⟨rfl,rfl,rfl,rfl,rfl,List.Subset.refl _⟩
  | retrying loopNow rest =>
    simp only [resumeFrame,Option.some.injEq] at hs
    subst hs
    exact retryNext_effect h
  | cancelling w =>
    simp only [resumeFrame,Option.ite_none_left_eq_some,Option.some.injEq] at hs
    obtain ⟨-,rfl⟩ := hs
    exact .swaps (Quiet.refl m) h ⟨rfl,rfl,rfl,rfl,rfl,List.Subset.refl _⟩
  | refreshing offline =>
    simp only [resumeFrame,Option.some.injEq] at hs
    subst hs
    exact .refreshes h
  | probing rest =>
    cases rest with
    | nil =>
      simp only [resumeFrame,Option.some.injEq] at hs
      subst hs
      exact .ends h ⟨rfl,rfl,rfl,rfl⟩
    | cons n rest => simp [resumeFrame] at hs
  | dispatch d => exact .dispatches h (resumeDispatch_effect hs)

theorem completeTask_effect (m : ClusterMaster) (id : TaskId) (error : String) (now : ℚ) :
    Effect m (.completeTask id error now) (m.completeTask id error now) := by
  cases h : m.tasks.get? id with
  | none =>
    simp only [completeTask,h]
    exact (Quiet.refl m).effect
  | some r => exact .completes h

theorem cancelTask_effect (m : ClusterMaster) (id : TaskId) (reason : String) (subs : Bool) :
    Effect m (.cancelTask id reason subs) (m.cancelTask id reason subs) := by
  cases h : m.tasks.get? id with
  | none =>
    simp only [cancelTask,h]
    exact (Quiet.refl m).effect
  | some r =>
    by_cases hc : isCancellable (m.objects r) = true
    · exact .cancels h hc
    · simp only [cancelTask,h,hc]
      exact (Quiet.refl m).effect

theorem migrateTask_effect (m : ClusterMaster) (id : TaskId) :
    Effect m (.migrateTask id) (m.migrateTask id) := by
  cases h : m.tasks.get? id with
  | none =>
    simp only [migrateTask,h]
    exact (Quiet.refl m).effect
  | some r =>
    by_cases hs : (m.objects r).status = .running
    · exact .migrates h hs
    · simp only [migrateTask,h,hs]
      exact (Quiet.refl m).effect

theorem degradeTask_effect (m : ClusterMaster) (id : TaskId) :
    Effect m (.degradeTask id) (m.degradeTask id) := by
  cases h : m.tasks.get? id with
  | none =>
    simp only [degradeTask,h]
    exact (Quiet.refl m).effect
  | some r =>
    by_cases hc : ((m.objects r).status = .running ∨ (m.objects r).status = .pending ∨
        (m.objects r).status = .failed) ∧ (m.objects r).degradationCount < (m.objects r).maxDegradations
    · cases hsize : (m.objects r).nextModelSize with
      | none =>
        simp only [degradeTask,h,hc,hsize]
        exact (Quiet.refl m).effect
      | some size => exact .degrades h hc.1 hc.2 hsize
    · simp only [degradeTask,h,hc]
      exact (Quiet.refl m).effect

/-- Steps that touch nothing but the store, the batches, the sessions and the run ids. -/
theorem quiet_store {b : Dict String TestBatch} {c : Dict String ClusterSession}
    {d : Dict String TaskId} {e : TaskStore} :
    m.Quiet { m with testBatches := b, sessions := c, runIds := d, store := e } :=
  ⟨⟨rfl,rfl,rfl,rfl,rfl,rfl,rfl,rfl,rfl,rfl⟩,fun _ => rfl⟩

theorem step_quiet (h : machine.step m ev = some m') (hev : ev.isStore = true) : m.Quiet m' := by
  obtain ⟨_,_,_,rfl⟩ := step_store h hev
  exact quiet_store

theorem step_effect (h : machine.step m ev = some m') : Effect m ev m' := by
  by_cases hstore : ev.isStore = true
  · exact (step_quiet h hstore).effect
  cases ev with
  | election e =>
    obtain ⟨p,-,rfl⟩ := Option.map_eq_some_iff.mp h
    exact Quiet.effect ⟨⟨rfl,rfl,rfl,rfl,rfl,rfl,rfl,rfl,rfl,rfl⟩,fun _ => rfl⟩
  | registerNode info now => exact Option.some.inj h ▸ registerNode_effect m info now
  | unregisterNode id banned now =>
    obtain rfl := Option.some.inj h
    exact .still ⟨rfl,rfl,rfl,rfl,rfl,rfl,rfl,rfl,rfl,rfl⟩ fun _ n =>
      (slots_filter _ n).imp_right Or.inl
  | unbanNode id => exact Option.some.inj h ▸ (quiet_unbanNode m id).effect
  | updateHeartbeat id total available active supervisor now =>
    obtain rfl := Option.some.inj h
    refine .still ⟨rfl,rfl,rfl,rfl,rfl,rfl,rfl,rfl,rfl,rfl⟩ fun hev n => Or.inl ?_
    apply slots_modify
    intro i
    cases active with
    | none => exact ⟨rfl,rfl⟩
    | some a => simp [MasterEvent.reportsLoad] at hev
  | updateNodeLoad id metrics used total supervisor now =>
    obtain rfl := Option.some.inj h
    unfold updateNodeLoad
    split_ifs
    · exact .still ⟨rfl,rfl,rfl,rfl,rfl,rfl,rfl,rfl,rfl,rfl⟩ fun hev => by
        simp [MasterEvent.reportsLoad] at hev
    · exact (Quiet.refl m).effect
  | setNodeDraining id draining =>
    obtain rfl := Option.some.inj h
    refine .still ⟨rfl,rfl,rfl,rfl,rfl,rfl,rfl,rfl,rfl,rfl⟩ (.of_eq fun n => ?_)
    apply slots_modify
    exact fun i => ⟨rfl,rfl⟩
  | checkHeartbeat id now =>
    obtain rfl := Option.some.inj h
    refine .still ⟨rfl,rfl,rfl,rfl,rfl,rfl,rfl,rfl,rfl,rfl⟩ (.of_eq fun n => ?_)
    apply slots_modify
    intro i
    split_ifs <;> exact ⟨rfl,rfl⟩
  | reportFault id now => exact Option.some.inj h ▸ (quiet_reportFault m id now).effect
  | probeBannedNodes now => exact Option.some.inj h ▸ probeBannedNodes_effect m now
  | probed cid ok now =>
    simp only [machine,step] at h
    split at h
    · obtain rfl := Option.some.inj h
      exact probed_effect ‹_›
    · cases h
  | receiveSyncedState infos banned now =>
    obtain rfl := Option.some.inj h
    exact .still ⟨rfl,rfl,rfl,rfl,rfl,rfl,rfl,rfl,rfl,rfl⟩ fun hev => by
      simp [MasterEvent.reportsLoad] at hev
  | configureScheduling tenantMax maxQueue =>
    obtain rfl := Option.some.inj h
    exact Quiet.effect ⟨⟨rfl,rfl,rfl,rfl,rfl,rfl,rfl,rfl,rfl,rfl⟩,fun _ => rfl⟩
  | setTenantQuota tid concurrent =>
    obtain rfl := Option.some.inj h
    exact Quiet.effect ⟨⟨rfl,rfl,rfl,rfl,rfl,rfl,rfl,rfl,rfl,rfl⟩,fun _ => rfl⟩
  | submit t =>
    obtain ⟨hnew,h⟩ := Option.ite_none_right_eq_some.mp h
    exact Option.some.inj h ▸ .submits hnew
  | resume cid now =>
    obtain ⟨f,hf,hs⟩ := Option.bind_eq_some_iff.mp h
    exact resumeFrame_effect hf hs
  | reply cid i reply now =>
    simp only [machine,step] at h
    split at h
    · obtain ⟨s,d',hq,hc,rfl⟩ := receiveReply_continues h
      exact .replies hq ‹_› hc
    · cases h
  | doneCallback id =>
    obtain ⟨-,h⟩ := Option.ite_none_right_eq_some.mp h
    exact Option.some.inj h ▸ .callback
  | completeTask id error now => exact Option.some.inj h ▸ completeTask_effect m id error now
  | cancelTask id reason subs => exact Option.some.inj h ▸ cancelTask_effect m id reason subs
  | migrateTask id => exact Option.some.inj h ▸ migrateTask_effect m id
  | degradeTask id => exact Option.some.inj h ▸ degradeTask_effect m id
  | checkTimeouts now => exact Option.some.inj h ▸ .timesOut
  | refreshNodeStatuses now => exact Option.some.inj h ▸ refreshNodes_effect m now
  | cleanupCompletedTasks => exact Option.some.inj h ▸ .cleans
  | cleanupOfflineNodes now =>
    obtain rfl := Option.some.inj h
    exact .still ⟨rfl,rfl,rfl,rfl,rfl,rfl,rfl,rfl,rfl,rfl⟩ fun _ n =>
      (slots_filter _ n).imp_right Or.inl
  | retryLoop now =>
    obtain rfl := Option.some.inj h
    unfold retryLoop
    split_ifs
    · exact (Quiet.refl m).effect
    · exact .collects
  | fillTmp | replaceFile | persistLoop | registerRunId | registerSession | handoffSession |
      closeSession =>
    exact absurd rfl hstore
  | registerTestBatch b => exact Option.some.inj h ▸ Quiet.effect quiet_store
  | receiveSyncedTasks records => exact Option.some.inj h ▸ .receives
  | restart now rnd => exact Option.some.inj h ▸ .restarts

end ClusterMaster
end FusionMultiNodes

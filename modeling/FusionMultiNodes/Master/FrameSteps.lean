import FusionMultiNodes.Master.Dispatches

/-! A step runs at most one coroutine, and leaves the others suspended where they are. -/
namespace FusionMultiNodes

def MasterEvent.runs : MasterEvent → Option ℕ
  | .resume cid _ => some cid
  | .reply cid _ _ _ => some cid
  | .probed cid _ _ => some cid
  | _ => none

def MasterEvent.isRestart : MasterEvent → Bool
  | .restart _ _ => true
  | _ => false

def Frame.begins : Frame → Bool
  | .assign _ pc _ => decide (pc = .guards)
  | .dispatch d => decide (d.pc = .start)
  | _ => true

namespace ClusterMaster

structure LeavesFrames (m : ClusterMaster) (cid : Option ℕ) (m' : ClusterMaster) : Prop where
  nextFrame : m.nextFrame ≤ m'.nextFrame
  frames : ∀ c < m.nextFrame, cid ≠ some c → m'.frames.get? c = m.frames.get? c

/-- A step runs one coroutine at most; coroutines that were not there before have just begun. -/
structure RunsOne (m : ClusterMaster) (cid : Option ℕ) (m' : ClusterMaster) : Prop
    extends LeavesFrames m cid m' where
  begun : ∀ c f, cid ≠ some c → m'.frames.get? c = some f →
    m.frames.get? c = some f ∨ f.begins = true

variable {m m' s : ClusterMaster} {cid : Option ℕ} {c : ℕ} {f : Frame} {now : ℚ} {ev : MasterEvent}

theorem RunsOne.of_eq (hn : m'.nextFrame = m.nextFrame) (hf : m'.frames = m.frames) :
    m.RunsOne cid m' :=
  ⟨⟨hn.ge,fun _ _ _ => by rw [hf]⟩,fun _ _ _ h => .inl (by rwa [hf] at h)⟩

theorem RunsOne.refl (m : ClusterMaster) : m.RunsOne cid m := .of_eq rfl rfl

theorem RunsOne.trans (h : m.RunsOne cid s) (h' : s.RunsOne cid m') : m.RunsOne cid m' where
  nextFrame := h.nextFrame.trans h'.nextFrame
  frames c hc hne :=
    (h'.frames c (hc.trans_le h.nextFrame) hne).trans (h.frames c hc hne)
  begun c f hne hf := (h'.begun c f hne hf).elim (h.begun c f hne) .inr

theorem Still.runsOne (h : m.Still m') : m.RunsOne cid m' := .of_eq h.nextFrame h.frames

theorem RunsOne.setFrame (m : ClusterMaster) (c : ℕ) (f : Frame) :
    m.RunsOne (some c) (m.setFrame c f) := by
  have hother : ∀ c', some c ≠ some c' → (m.setFrame c f).frames.get? c' = m.frames.get? c' :=
    fun c' hne => Dict.get?_set_ne _ _ fun h => hne (congrArg some h.symm)
  exact ⟨⟨le_refl _,fun c' _ => hother c'⟩,fun c' f' hne hf => .inl (hother c' hne ▸ hf)⟩

theorem RunsOne.endFrame (m : ClusterMaster) (c : ℕ) : m.RunsOne (some c) (m.endFrame c) := by
  have hother : ∀ c', some c ≠ some c' → (m.endFrame c).frames.get? c' = m.frames.get? c' :=
    fun c' hne => by
      have hc : c' ≠ c := fun h => hne (congrArg some h.symm)
      exact (Dict.get?_erase _ _ _).trans (if_neg hc)
  exact ⟨⟨le_refl _,fun c' _ => hother c'⟩,fun c' f' hne hf => .inl (hother c' hne ▸ hf)⟩

theorem RunsOne.spawn (m : ClusterMaster) (hf : f.begins = true) : m.RunsOne cid (m.spawn f) := by
  refine ⟨⟨Nat.le_succ _,fun _ hc _ => Dict.get?_set_ne _ _ (Nat.ne_of_lt hc)⟩,fun c f' _ hf' => ?_⟩
  simp only [ClusterMaster.spawn,Dict.get?_set] at hf'
  split_ifs at hf'
  · obtain rfl := Option.some.inj hf'
    exact .inr hf
  · exact .inl hf'

theorem RunsOne.after (h : s.RunsOne cid m') (hn : s.nextFrame = m.nextFrame)
    (hf : s.frames = m.frames) : m.RunsOne cid m' :=
  (RunsOne.of_eq hn hf).trans h

theorem runsOne_foldl {α : Type} {F : ClusterMaster → α → ClusterMaster}
    (hF : ∀ s a, RunsOne s cid (F s a)) (l : List α) (m : ClusterMaster) :
    m.RunsOne cid (l.foldl F m) := by
  induction l generalizing m with
  | nil => exact .refl m
  | cons a l ih => exact (hF m a).trans (ih (F m a))

theorem runsOne_enqueuePending (m : ClusterMaster) (r : Ref) (force : Bool) :
    m.RunsOne cid (m.enqueuePending r force).1 := by
  unfold enqueuePending
  split_ifs
  · exact .refl m
  · exact .of_eq rfl rfl

theorem runsOne_enqueueRetry (m : ClusterMaster) (r : Ref) (now : ℚ) :
    m.RunsOne cid (m.enqueueRetry r now) := by
  unfold enqueueRetry
  split_ifs <;> exact .of_eq rfl rfl

theorem runsOne_triggerDispatch (m : ClusterMaster) (r : Ref) :
    m.RunsOne cid (m.triggerDispatch r) := by
  simp only [triggerDispatch]
  split_ifs
  · exact .refl m
  · exact .refl m
  · exact (RunsOne.spawn m rfl).trans (.of_eq rfl rfl)

theorem runsOne_assignStep {pc : AssignPc} {r : Ref} {p : ClusterMaster × AssignPc}
    (h : m.assignStep r now pc = some p) : m.RunsOne cid p.1 := by
  obtain ⟨s,pc'⟩ := p
  cases assignStep_outcome h with
  | advance hq => exact hq.still.runsOne
  | skip => exact .refl m
  | refuse hq => exact hq.still.runsOne
  | parked hq => exact hq.still.runsOne.after rfl rfl
  | committed _ hq => exact hq.still.runsOne.after rfl rfl
  | written => exact .refl m
  | triggered => exact runsOne_triggerDispatch m r

theorem runsOne_resumeAssign {pc : AssignPc} {r : Ref} {k : Caller}
    (h : m.resumeAssign c r k now pc = some m') : m.RunsOne (some c) m' := by
  rcases resumeAssign_cases h with ⟨ok,rfl,rfl⟩ | ⟨-,s,pc',hp,rfl⟩
  · cases k with
    | submit => exact .endFrame m c
    | drain rest =>
      refine RunsOne.trans ?_ (.setFrame _ c _)
      cases ok
      · exact runsOne_enqueuePending m r true
      · exact .refl m
    | retry loopNow rest =>
      refine RunsOne.trans ?_ (.setFrame _ c _)
      cases ok
      · exact runsOne_enqueueRetry m r now
      · exact .refl m
    | migrate =>
      refine RunsOne.trans ?_ (.endFrame _ c)
      cases ok
      · exact runsOne_enqueueRetry m r now
      · exact .refl m
    | degrade =>
      refine RunsOne.trans ?_ (.endFrame _ c)
      cases ok
      · exact runsOne_enqueueRetry m r now
      · exact .refl m
  · exact (runsOne_assignStep hp).trans (.setFrame _ c _)

theorem runsOne_finalized (m : ClusterMaster) (r : Ref) (o : DispatchOutcome) (now : ℚ) :
    m.RunsOne cid (m.finalized r o now) := by
  unfold finalized
  split_ifs
  · exact (runsOne_enqueueRetry _ r now).after rfl rfl
  · exact .of_eq rfl rfl

theorem runsOne_endDispatch (m : ClusterMaster) (c : ℕ) (d : Dispatch) (o : DispatchOutcome) :
    m.RunsOne (some c) (m.endDispatch c d o) := by
  refine (RunsOne.endFrame m c).trans (.of_eq ?_ (frames_endDispatch m c d o))
  simp only [endDispatch,setPrevOutputs]
  split <;> rfl

theorem runsOne_dispatch {d : Dispatch} (h : DispatchEffect m c d now s) :
    m.RunsOne (some c) s := by
  cases h with
  | continues hq => exact hq.still.runsOne.trans (.setFrame _ c _)
  | finalizes =>
    exact (runsOne_finalized m _ _ now).trans
      ((quiet_persistTasks _).still.runsOne.trans (.setFrame _ c _))
  | stale => exact runsOne_endDispatch m c d _
  | done => exact runsOne_endDispatch m c d _

theorem runsOne_refreshOne (m : ClusterMaster) (offline : List NodeId) (now : ℚ) (r : Ref) :
    m.RunsOne cid (m.refreshOne offline now r) :=
  (runsOne_enqueueRetry _ r now).after rfl rfl

theorem runsOne_refreshTasks (m : ClusterMaster) (c : ℕ) (offline : List NodeId) (now : ℚ) :
    m.RunsOne (some c) (m.refreshTasks c offline now) := by
  simp only [refreshTasks]
  split_ifs
  · exact .endFrame m c
  · exact (runsOne_foldl (fun s r => runsOne_refreshOne s offline now r) _ m).trans
      ((quiet_persistTasks _).still.runsOne.trans (.endFrame _ c))

theorem runsOne_resumeFrame (h : m.resumeFrame c now f = some m') :
    m.RunsOne (some c) m' := by
  cases f with
  | assign r pc k => exact runsOne_resumeAssign h
  | drainStart =>
    obtain rfl := Option.some.inj h
    unfold drainStart
    split_ifs
    · exact .endFrame m c
    · exact (RunsOne.setFrame _ c _).after rfl rfl
  | draining rest =>
    obtain rfl := Option.some.inj h
    cases rest with
    | nil => exact .endFrame m c
    | cons r rest => exact .setFrame m c _
  | retrying loopNow rest =>
    obtain rfl := Option.some.inj h
    cases rest with
    | nil => exact .endFrame m c
    | cons r rest =>
      simp only [retryNext]
      split_ifs
      · exact (RunsOne.setFrame _ c _).after rfl rfl
      · exact (RunsOne.setFrame _ c _).after rfl rfl
      · exact .setFrame m c _
  | cancelling w =>
    obtain ⟨-,h⟩ := Option.ite_none_left_eq_some.mp h
    exact Option.some.inj h ▸ .setFrame m c _
  | refreshing offline => exact Option.some.inj h ▸ runsOne_refreshTasks m c offline now
  | probing rest =>
    cases rest with
    | nil => exact Option.some.inj h ▸ .endFrame m c
    | cons n rest => exact absurd h (by simp [resumeFrame])
  | dispatch d => exact runsOne_dispatch (resumeDispatch_effect h)

theorem runsOne_cancelTask (m : ClusterMaster) (id : TaskId) (reason : String) (subs : Bool) :
    m.RunsOne cid (m.cancelTask id reason subs) := by
  rcases cancelTask_shape m id reason subs with h | ⟨_,_,_,_,_,-,h⟩ <;> rw [h]
  · exact .refl m
  · exact (RunsOne.spawn _ rfl).after rfl rfl

theorem runsOne_receiveSyncedTasks (m : ClusterMaster) (records : List TaskRecord) :
    m.RunsOne cid (m.receiveSyncedTasks records) := by
  have hmerge : m.RunsOne cid (records.foldl mergeRecord m) := by
    apply runsOne_foldl
    intro s d
    unfold mergeRecord
    split_ifs
    · exact .of_eq rfl rfl
    · exact .refl s
  unfold receiveSyncedTasks
  split_ifs
  · exact hmerge.trans (quiet_persistTasks _).still.runsOne
  · exact hmerge

theorem step_runsOne (h : machine.step m ev = some m') (hev : ev.isRestart = false) :
    m.RunsOne ev.runs m' := by
  by_cases hstore : ev.isStore = true
  · exact (step_quiet h hstore).still.runsOne
  cases ev with
  | restart => cases hev
  | resume cid now =>
    obtain ⟨f,-,hs⟩ := Option.bind_eq_some_iff.mp h
    exact runsOne_resumeFrame hs
  | reply cid i reply now =>
    simp only [machine,step] at h
    split at h
    · obtain ⟨s,d',hq,-,rfl⟩ := receiveReply_continues h
      exact hq.still.runsOne.trans (.setFrame _ cid _)
    · cases h
  | probed cid ok now =>
    simp only [machine,step] at h
    split at h
    · obtain rfl := Option.some.inj h
      unfold probed
      refine RunsOne.trans ?_ (.setFrame _ cid _)
      cases ok <;> exact .of_eq rfl rfl
    · cases h
  | election e =>
    obtain ⟨p,-,rfl⟩ := Option.map_eq_some_iff.mp h
    exact .of_eq rfl rfl
  | registerNode info now =>
    obtain rfl := Option.some.inj h
    unfold registerNode
    split_ifs
    · exact .refl m
    · have hban := (quiet_dropExpiredBan m info.nodeId now).still
      exact (RunsOne.spawn _ rfl).after hban.nextFrame hban.frames
  | updateNodeLoad id metrics used total supervisor now =>
    obtain rfl := Option.some.inj h
    unfold updateNodeLoad
    split_ifs
    · exact .of_eq rfl rfl
    · exact .refl m
  | reportFault id now => exact Option.some.inj h ▸ (quiet_reportFault m id now).still.runsOne
  | probeBannedNodes now =>
    obtain rfl := Option.some.inj h
    have hq := quiet_foldl quiet_unbanNode
      ((m.expiredBans now).filter fun id => !(m.nodes.contains id)) m
    exact hq.still.runsOne.trans (.spawn _ rfl)
  | submit t =>
    obtain ⟨-,h⟩ := Option.ite_none_right_eq_some.mp h
    exact Option.some.inj h ▸ (RunsOne.spawn _ rfl).after rfl rfl
  | doneCallback id =>
    obtain ⟨-,h⟩ := Option.ite_none_right_eq_some.mp h
    exact Option.some.inj h ▸ .of_eq rfl rfl
  | completeTask id error now =>
    obtain rfl := Option.some.inj h
    unfold completeTask
    split
    · exact .refl m
    · exact (RunsOne.spawn _ rfl).after rfl rfl
  | cancelTask id reason subs => exact Option.some.inj h ▸ runsOne_cancelTask m id reason subs
  | migrateTask id =>
    obtain rfl := Option.some.inj h
    unfold migrateTask
    split
    · exact .refl m
    · split_ifs
      · exact (RunsOne.spawn _ rfl).after rfl rfl
      · exact .refl m
  | degradeTask id =>
    obtain rfl := Option.some.inj h
    unfold degradeTask
    split
    · exact .refl m
    · simp only
      split_ifs
      · split
        · exact .refl m
        · exact (RunsOne.spawn _ rfl).after rfl rfl
      · exact .refl m
  | checkTimeouts now =>
    obtain rfl := Option.some.inj h
    exact runsOne_foldl (fun s r => by
      unfold timeoutOne
      split_ifs
      · exact (runsOne_enqueueRetry _ r now).after rfl rfl
      · exact .refl s) _ m
  | refreshNodeStatuses now =>
    obtain rfl := Option.some.inj h
    simp only [refreshNodes]
    split_ifs
    · exact .of_eq rfl rfl
    · exact (RunsOne.spawn _ rfl).after rfl rfl
  | retryLoop now =>
    obtain rfl := Option.some.inj h
    unfold retryLoop
    split_ifs
    · exact .refl m
    · exact (RunsOne.spawn _ rfl).after rfl rfl
  | fillTmp | replaceFile | persistLoop | registerRunId | registerSession | handoffSession |
      closeSession =>
    exact absurd rfl hstore
  | receiveSyncedTasks records =>
    exact Option.some.inj h ▸ runsOne_receiveSyncedTasks m records
  | _ =>
    obtain rfl := Option.some.inj h
    exact .of_eq rfl rfl

theorem leavesFrames_resumeFrame (h : m.resumeFrame c now f = some m') :
    m.LeavesFrames (some c) m' :=
  (runsOne_resumeFrame h).toLeavesFrames

theorem step_leavesFrames (h : machine.step m ev = some m') (hev : ev.isRestart = false) :
    m.LeavesFrames ev.runs m' :=
  (step_runsOne h hev).toLeavesFrames

end ClusterMaster
end FusionMultiNodes

import FusionMultiNodes.Master.FrameSteps
import FusionMultiNodes.Master.SingleHolder
import FusionMultiNodes.Master.TaskSteps

/-! How often a task runs, and when it runs again after a failure. -/
namespace FusionMultiNodes

/-- The tasks a caller of `assign_task` will assign satisfy `P`, the time its loop began `L`. -/
def Caller.Offers (P : Ref → Prop) (L : ℚ → Prop) : Caller → Prop
  | .drain rest => ∀ r ∈ rest, P r
  | .retry loopNow rest => rest ≠ [] → L loopNow
  | _ => True

/-- The tasks a coroutine will assign satisfy `P`; those in the hands of a retry loop, whose retry
times it still has to look at, may not, but the loop began at a time that satisfies `L`. -/
def Frame.Offers (P : Ref → Prop) (L : ℚ → Prop) : Frame → Prop
  | .assign r pc k =>
    (pc.isOpen = true ∨ (pc = .returned false ∧ k.isDrain = true) → P r) ∧ k.Offers P L
  | .draining rest => ∀ r ∈ rest, P r
  | .retrying loopNow rest => rest ≠ [] → L loopNow
  | _ => True

namespace ClusterMaster

/-- The tasks that can be assigned without a look at their retry times satisfy `P`. -/
structure Offers (m : ClusterMaster) (P : Ref → Prop) (L : ℚ → Prop) : Prop where
  queue : ∀ r ∈ m.pendingQueue, P r
  frames : ∀ cid f, m.frames.get? cid = some f → f.Offers P L

variable {m m' s : ClusterMaster} {P Q : Ref → Prop} {L : ℚ → Prop} {cid : ℕ} {f : Frame} {r : Ref}
  {now : ℚ} {ev : MasterEvent} {pc : AssignPc} {k : Caller}

theorem Offers.of_eq (h : m.Offers P L) (hq : s.pendingQueue = m.pendingQueue)
    (hf : s.frames = m.frames) : s.Offers P L :=
  ⟨by rw [hq]; exact h.queue,by rw [hf]; exact h.frames⟩

theorem Offers.still (h : m.Offers P L) (hs : m.Still s) : s.Offers P L :=
  h.of_eq hs.pendingQueue hs.frames

theorem Offers.setFrame (h : m.Offers P L) (cid : ℕ) (f : Frame) (hf : f.Offers P L) :
    (m.setFrame cid f).Offers P L := by
  refine ⟨h.queue,fun c g hg => ?_⟩
  simp only [ClusterMaster.setFrame,Dict.get?_set] at hg
  split_ifs at hg
  · exact Option.some.inj hg ▸ hf
  · exact h.frames c g hg

theorem Offers.endFrame (h : m.Offers P L) (cid : ℕ) : (m.endFrame cid).Offers P L := by
  refine ⟨h.queue,fun c g hg => ?_⟩
  simp only [ClusterMaster.endFrame,Dict.get?_erase] at hg
  split_ifs at hg
  exact h.frames c g hg

theorem Offers.spawn (h : m.Offers P L) (f : Frame) (hf : f.Offers P L) :
    (m.spawn f).Offers P L :=
  ⟨h.queue,(h.setFrame m.nextFrame f hf).frames⟩

theorem Offers.park (h : m.Offers P L) (hr : P r) : (m.park r).Offers P L := by
  refine ⟨fun x hx => ?_,h.frames⟩
  rcases mem_insertByPriority hx with hx | rfl
  · exact h.queue x hx
  · exact hr

theorem offers_enqueueRetry (h : m.Offers P L) (r : Ref) (now : ℚ) :
    (m.enqueueRetry r now).Offers P L := by
  unfold enqueueRetry
  split_ifs <;> exact h.of_eq rfl rfl

theorem offers_foldl {α : Type} {F : ClusterMaster → α → ClusterMaster}
    (hF : ∀ s a, Offers s P L → (F s a).Offers P L) (l : List α) (h : m.Offers P L) :
    (l.foldl F m).Offers P L := by
  induction l generalizing m with
  | nil => exact h
  | cons a l ih => exact ih (hF m a h)

theorem offers_assignOutcome {pc' : AssignPc} (h : m.Offers P L)
    (hf : m.frames.get? cid = some (.assign r pc k)) (ho : AssignOutcome m r now pc s pc') :
    (s.setFrame cid (.assign r pc' k)).Offers P L := by
  obtain ⟨hr,hk⟩ := h.frames cid _ hf
  have hopen : ∀ {t : ClusterMaster} {p : AssignPc}, t.Offers P L → pc.isOpen = true →
      (t.setFrame cid (.assign r p k)).Offers P L :=
    fun ht hp => ht.setFrame cid _ ⟨fun _ => hr (.inl hp),hk⟩
  have hclosed : ∀ {t : ClusterMaster} {p : AssignPc}, t.Offers P L → p.isOpen = false →
      p ≠ .returned false → (t.setFrame cid (.assign r p k)).Offers P L :=
    fun ht hp hne => ht.setFrame cid _
      ⟨fun h => h.elim (fun h => absurd h (by simp [hp])) fun h => absurd h.1 hne,hk⟩
  cases ho with
  | advance hq _ hp _ | refuse hq _ hp => exact hopen (h.still hq.still) hp
  | skip => exact hclosed h rfl (by simp)
  | parked hq _ hp => exact hclosed ((h.park (hr (.inl hp))).still hq.still) rfl (by simp)
  | @committed _ _ _ ns _ hq _ _ hp' =>
    have hcommit : (m.commit r ns now).Offers P L := h.of_eq rfl rfl
    rcases hp' with rfl | rfl <;> exact hclosed (hcommit.still hq.still) rfl (by simp)
  | written => exact hclosed h rfl (by simp)
  | triggered =>
    have htrigger : (m.triggerDispatch r).Offers P L := by
      simp only [triggerDispatch]
      split_ifs
      · exact h
      · exact h
      · exact (h.spawn (.dispatch _) trivial).of_eq rfl rfl
    exact hclosed htrigger rfl (by simp)

theorem offers_assignReturned {ok : Bool} (h : m.Offers P L)
    (hf : m.frames.get? cid = some (.assign r (.returned ok) k)) :
    (m.assignReturned cid r ok now k).Offers P L := by
  obtain ⟨hr,hk⟩ := h.frames cid _ hf
  have hretry : (if ok = true then m else m.enqueueRetry r now).Offers P L := by
    split_ifs
    · exact h
    · exact offers_enqueueRetry h r now
  cases k with
  | submit => exact h.endFrame cid
  | drain rest =>
    refine Offers.setFrame ?_ cid (.draining rest) hk
    cases ok with
    | true => exact h
    | false => exact h.park (hr (.inr ⟨rfl,rfl⟩))
  | retry loopNow rest => exact hretry.setFrame cid (.retrying loopNow rest) hk
  | migrate | degrade => exact hretry.endFrame cid

theorem offers_resumeAssign (h : m.Offers P L)
    (hf : m.frames.get? cid = some (.assign r pc k))
    (hs : m.resumeAssign cid r k now pc = some m') : m'.Offers P L := by
  rcases resumeAssign_cases hs with ⟨ok,rfl,rfl⟩ | ⟨-,s,pc',hp,rfl⟩
  · exact offers_assignReturned h hf
  · exact offers_assignOutcome h hf (assignStep_outcome hp)

theorem offers_endDispatch (h : m.Offers P L) (d : Dispatch) (o : DispatchOutcome) :
    (m.endDispatch cid d o).Offers P L := by
  refine (h.endFrame cid).of_eq ?_ (frames_endDispatch m cid d o)
  simp only [endDispatch,setPrevOutputs]
  split <;> rfl

theorem offers_dispatch {d : Dispatch} (h : m.Offers P L) (he : DispatchEffect m cid d now s) :
    s.Offers P L := by
  cases he with
  | continues hq => exact (h.still hq.still).setFrame cid (.dispatch _) trivial
  | @finalizes r o =>
    have hreleased : (m.releaseTask r).Offers P L := h.of_eq rfl rfl
    have hfinal : (m.finalized r o now).Offers P L := by
      simp only [finalized]
      split_ifs
      · refine offers_enqueueRetry ?_ r now
        exact hreleased.of_eq rfl rfl
      · exact h.of_eq rfl rfl
    exact (hfinal.still (quiet_persistTasks _).still).setFrame cid (.dispatch _) trivial
  | stale => exact offers_endDispatch h d _
  | done => exact offers_endDispatch h d _

/-- A coroutine goes on. What satisfies `L` is a time at which a task whose retry time has come
satisfies `P`. -/
theorem offers_resumeFrame (h : m.Offers P L)
    (hdue : ∀ r loopNow, L loopNow → (m.objects r).nextRetryAt ≤ loopNow → P r)
    (hf : m.frames.get? cid = some f) (hs : m.resumeFrame cid now f = some m') :
    m'.Offers P L := by
  have hframe := h.frames cid f hf
  cases f with
  | assign r pc k => exact offers_resumeAssign h hf hs
  | drainStart =>
    obtain rfl := Option.some.inj hs
    unfold drainStart
    split_ifs
    · exact h.endFrame cid
    · have hempty : Offers { m with pendingQueue := [] } P L :=
        ⟨fun r hr => (nomatch hr),h.frames⟩
      exact hempty.setFrame cid (.draining m.pendingQueue) h.queue
  | draining rest =>
    obtain rfl := Option.some.inj hs
    cases rest with
    | nil => exact h.endFrame cid
    | cons r rest =>
      have hrest : ∀ x ∈ rest, P x := fun x hx => hframe x (List.mem_cons_of_mem r hx)
      exact h.setFrame cid (.assign r .guards (.drain rest))
        ⟨fun _ => hframe r List.mem_cons_self,hrest⟩
  | retrying loopNow rest =>
    obtain rfl := Option.some.inj hs
    cases rest with
    | nil => exact h.endFrame cid
    | cons r rest =>
      have hL : L loopNow := hframe (List.cons_ne_nil r rest)
      have hloop : ∀ t : ClusterMaster, t.pendingQueue = m.pendingQueue → t.frames = m.frames →
          (t.setFrame cid (.retrying loopNow rest)).Offers P L := fun t hq hf =>
        (h.of_eq hq hf).setFrame cid (.retrying loopNow rest) fun _ => hL
      simp only [retryNext]
      split_ifs with hwait
      · exact hloop _ rfl rfl
      · exact hloop _ rfl rfl
      · exact h.setFrame cid (.assign r .guards (.retry loopNow rest))
          ⟨fun _ => hdue r loopNow hL (not_lt.mp hwait),fun _ => hL⟩
  | cancelling w =>
    obtain ⟨-,hs⟩ := Option.ite_none_left_eq_some.mp hs
    exact Option.some.inj hs ▸ h.setFrame cid .drainStart trivial
  | refreshing offline =>
    obtain rfl := Option.some.inj hs
    simp only [refreshTasks]
    split_ifs
    · exact h.endFrame cid
    · refine Offers.endFrame (Offers.still ?_ (quiet_persistTasks _).still) cid
      refine offers_foldl (fun s r hs => ?_) _ h
      refine offers_enqueueRetry ?_ r now
      exact hs.of_eq rfl rfl
  | probing rest =>
    cases rest with
    | nil => exact Option.some.inj hs ▸ h.endFrame cid
    | cons n rest => exact absurd hs (by simp [resumeFrame])
  | dispatch d => exact offers_dispatch h (resumeDispatch_effect hs)

theorem offers_cancelTask (h : m.Offers P L) (id : TaskId) (reason : String) (subs : Bool) :
    (m.cancelTask id reason subs).Offers P L := by
  rcases cancelTask_shape m id reason subs with heq | ⟨_,_,_,_,_,hqueue,heq⟩ <;> rw [heq]
  · exact h
  · refine Offers.spawn ?_ (.cancelling _) trivial
    exact ⟨fun x hx => h.queue x (hqueue.subset hx),h.frames⟩

theorem offers_restart (hw : m.Wf) (now rnd : ℚ)
    (hP : ∀ r, m.nextRef ≤ r → r < (m.restart now rnd).nextRef → P r) :
    (m.restart now rnd).Offers P L := by
  refine ⟨fun r hr => ?_,fun c f hf => ?_⟩
  · refine hP r (not_lt.mp fun hlt => ?_) ((grows_restart now rnd hw).wf hw |>.queue_lt r hr)
    have hcount := List.count_pos_iff.mpr hr
    have hlisted : (m.restart now rnd).Listed r := by
      refine .inr ?_
      simp only [held]
      omega
    exact not_listed_restart hw hlt hlisted
  · rw [frames_restart] at hf
    cases hf

/-- What a step puts where it can be assigned satisfies `P`, if the tasks it submits or restores
do and the times of its retry loops satisfy `L`. -/
theorem offers_step (hw : m.Wf) (hstep : machine.step m ev = some m') (h : m.Offers P L)
    (hdue : ∀ r loopNow, L loopNow → (m.objects r).nextRetryAt ≤ loopNow → P r)
    (hloop : ∀ now, ev = .retryLoop now → L now)
    (hnew : ∀ r, m.nextRef ≤ r → r < m'.nextRef → P r)
    (hmove : ∀ id, ev ≠ .migrateTask id ∧ ev ≠ .degradeTask id) : m'.Offers P L := by
  by_cases hstore : ev.isStore = true
  · exact h.still (step_quiet hstep hstore).still
  cases ev with
  | migrateTask id => exact absurd rfl (hmove id).1
  | degradeTask id => exact absurd rfl (hmove id).2
  | restart now rnd =>
    obtain rfl := Option.some.inj hstep
    exact offers_restart hw now rnd hnew
  | resume cid now =>
    obtain ⟨f,hf,hs⟩ := Option.bind_eq_some_iff.mp hstep
    exact offers_resumeFrame h hdue hf hs
  | reply cid i reply now =>
    simp only [machine,step] at hstep
    split at hstep
    · obtain ⟨s,d',hq,-,rfl⟩ := receiveReply_continues hstep
      exact (h.still hq.still).setFrame cid (.dispatch d') trivial
    · cases hstep
  | probed cid ok now =>
    simp only [machine,step] at hstep
    split at hstep
    · obtain rfl := Option.some.inj hstep
      unfold probed
      refine Offers.setFrame ?_ cid (.probing _) trivial
      cases ok <;> exact h.of_eq rfl rfl
    · cases hstep
  | election e =>
    obtain ⟨p,-,rfl⟩ := Option.map_eq_some_iff.mp hstep
    exact h.of_eq rfl rfl
  | registerNode info now =>
    obtain rfl := Option.some.inj hstep
    unfold registerNode
    split_ifs
    · exact h
    · have hban := h.still (quiet_dropExpiredBan m info.nodeId now).still
      refine Offers.spawn ?_ .drainStart trivial
      exact hban.of_eq rfl rfl
  | updateNodeLoad id metrics used total supervisor now =>
    obtain rfl := Option.some.inj hstep
    unfold updateNodeLoad
    split_ifs
    · exact h.of_eq rfl rfl
    · exact h
  | reportFault id now =>
    exact Option.some.inj hstep ▸ h.still (quiet_reportFault m id now).still
  | probeBannedNodes now =>
    obtain rfl := Option.some.inj hstep
    have hq := quiet_foldl quiet_unbanNode
      ((m.expiredBans now).filter fun id => !(m.nodes.contains id)) m
    exact (h.still hq.still).spawn (.probing _) trivial
  | submit t =>
    obtain ⟨-,hs⟩ := Option.ite_none_right_eq_some.mp hstep
    obtain rfl := Option.some.inj hs
    have hP : P m.nextRef := hnew m.nextRef (le_refl _) (Nat.lt_succ_self _)
    have hobject : Offers { m with
        objects := Function.update m.objects m.nextRef t
        nextRef := m.nextRef+1 } P L := h.of_eq rfl rfl
    exact hobject.spawn (.assign m.nextRef .guards .submit) ⟨fun _ => hP,trivial⟩
  | doneCallback id =>
    obtain ⟨-,hs⟩ := Option.ite_none_right_eq_some.mp hstep
    exact Option.some.inj hs ▸ h.of_eq rfl rfl
  | completeTask id error now =>
    obtain rfl := Option.some.inj hstep
    unfold completeTask
    split
    · exact h
    · refine Offers.spawn ?_ .drainStart trivial
      exact h.of_eq rfl rfl
  | cancelTask id reason subs => exact Option.some.inj hstep ▸ offers_cancelTask h id reason subs
  | checkTimeouts now =>
    obtain rfl := Option.some.inj hstep
    refine offers_foldl (fun s r hs => ?_) _ h
    unfold timeoutOne
    split_ifs
    · refine offers_enqueueRetry ?_ r now
      exact hs.of_eq rfl rfl
    · exact hs
  | refreshNodeStatuses now =>
    obtain rfl := Option.some.inj hstep
    simp only [refreshNodes]
    split_ifs
    · exact h.of_eq rfl rfl
    · refine Offers.spawn ?_ (.refreshing _) trivial
      exact h.of_eq rfl rfl
  | retryLoop now =>
    obtain rfl := Option.some.inj hstep
    unfold retryLoop
    split_ifs
    · exact h
    · have hempty : Offers { m with pendingRetry := [] } P L := h.of_eq rfl rfl
      exact hempty.spawn (.retrying now m.pendingRetry) fun _ => hloop now rfl
  | fillTmp | replaceFile | persistLoop | registerRunId | registerSession | handoffSession |
      closeSession =>
    exact absurd rfl hstore
  | receiveSyncedTasks records =>
    obtain rfl := Option.some.inj hstep
    have hmerge : (records.foldl mergeRecord m).Offers P L := by
      refine offers_foldl (fun s d hs => ?_) records h
      unfold mergeRecord
      split_ifs
      · exact hs.of_eq rfl rfl
      · exact hs
    simp only [receiveSyncedTasks]
    split_ifs
    · exact hmerge.still (quiet_persistTasks _).still
    · exact hmerge
  | _ =>
    obtain rfl := Option.some.inj hstep
    exact h.of_eq rfl rfl

theorem Offers.mono {L' : ℚ → Prop} (h : m.Offers P L) (hP : ∀ r, P r → Q r)
    (hL : ∀ t, L t → L' t) : m.Offers Q L' := by
  refine ⟨fun r hr => hP r (h.queue r hr),fun c f hf => ?_⟩
  have hold := h.frames c f hf
  cases f with
  | assign r pc k =>
    refine ⟨fun hpc => hP r (hold.1 hpc),?_⟩
    cases k with
    | drain rest => exact fun x hx => hP x (hold.2 x hx)
    | retry loopNow rest => exact fun hne => hL loopNow (hold.2 hne)
    | _ => trivial
  | draining rest => exact fun x hx => hP x (hold x hx)
  | retrying loopNow rest => exact fun hne => hL loopNow (hold hne)
  | _ => trivial

/-- A task that is offered is held, and so not in the retry list. -/
theorem Offers.imp (h : m.Offers P L) (hone : m.OnePlace)
    (himp : ∀ r < m.nextRef, r ∉ m.pendingRetry → P r → Q r) : m.Offers Q L := by
  have hqueue : ∀ r ∈ m.pendingQueue, r ∉ m.pendingRetry := by
    intro r hr hmem
    have honce := hone.once r (hone.wf.queue_lt r hr)
    have hcount := List.count_pos_iff.mpr hr
    have hcount' := List.count_pos_iff.mpr hmem
    simp only [held] at honce
    omega
  have hframe : ∀ c f, m.frames.get? c = some f → ∀ r ∈ f.holds, r < m.nextRef →
      r ∉ m.pendingRetry := by
    intro c f hf r hr hlt hmem
    have honce := hone.once r hlt
    have hcount := List.count_pos_iff.mpr hr
    have hcount' := List.count_pos_iff.mpr hmem
    have hle : f.holds.count r ≤ m.weigh fun f => f.holds.count r :=
      le_weigh hf fun f => f.holds.count r
    simp only [held] at honce
    omega
  refine ⟨fun r hr => himp r (hone.wf.queue_lt r hr) (hqueue r hr) (h.queue r hr),fun c f hf => ?_⟩
  have hold := h.frames c f hf
  have hlt : ∀ r ∈ f.refs, r < m.nextRef := hone.wf.refs_lt c f hf
  have hheld := hframe c f hf
  cases f with
  | assign r pc k =>
    have hr : r < m.nextRef := hlt r List.mem_cons_self
    refine ⟨fun hpc => himp r hr ?_ (hold.1 hpc),?_⟩
    · refine hheld r ?_ hr
      rcases hpc with hpc | ⟨rfl,hk⟩
      · rw [Frame.holds_of_isOpen hpc]
        exact List.mem_cons_self
      · cases k <;> simp_all [Frame.holds,Caller.isDrain]
    · cases k with
      | drain rest =>
        intro x hx
        have hx' : x < m.nextRef := hlt x (List.mem_cons_of_mem r hx)
        refine himp x hx' ?_ (hold.2 x hx)
        refine hheld x ?_ hx'
        cases pc with
        | returned ok => cases ok <;> simp [Frame.holds,Caller.rest,hx]
        | _ => simp [Frame.holds,Caller.rest,hx]
      | _ => exact hold.2
  | draining rest => exact fun x hx => himp x (hlt x hx) (hheld x hx (hlt x hx)) (hold x hx)
  | _ => exact hold

structure Counts (t t' : ClusterTask) : Prop where
  le : t.retryCount ≤ t'.retryCount
  le_max : t'.retryCount ≤ max t.retryCount maxRetryAttempts
  due : t'.retryCount = t.retryCount → t'.nextRetryAt = t.nextRetryAt

theorem counts_taskChange {c : StepKind} {t t' : ClusterTask} (h : TaskChange c t t') :
    Counts t t' := by
  cases h with
  | retry _ hbudget =>
    refine ⟨Nat.le_succ _,?_,fun heq => absurd heq (Nat.succ_ne_self _)⟩
    exact le_max_of_le_right hbudget
  | _ => exact ⟨le_refl _,le_max_left _ _,fun _ => rfl⟩

theorem Counts.trans {t s t' : ClusterTask} (h : Counts t s) (h' : Counts s t') : Counts t t' := by
  refine ⟨h.le.trans h'.le,?_,fun heq => ?_⟩
  · exact h'.le_max.trans (max_le h.le_max (le_max_right _ _))
  · have hs : s.retryCount = t.retryCount := le_antisymm (heq ▸ h'.le) h.le
    exact (h'.due (heq.trans hs.symm)).trans (h.due hs)

theorem counts_taskChanges {c : StepKind} {t t' : ClusterTask}
    (h : Relation.ReflTransGen (TaskChange c) t t') : Counts t t' := by
  induction h with
  | refl => exact ⟨le_refl _,le_max_left _ _,fun _ => rfl⟩
  | tail _ hone ih => exact ih.trans (counts_taskChange hone)

theorem Rewrites.counts {c : StepKind} (h : m.Rewrites c m') (hr : r < m.nextRef) :
    Counts (m.objects r) (m'.objects r) :=
  counts_taskChanges (h.change r hr)

/-- A running task that is interrupted and waits again has used up a retry. -/
theorem Rewrites.retried (h : m.Rewrites .interrupts m') (hr : r < m.nextRef)
    (hrun : (m.objects r).status = .running) (hpending : (m'.objects r).status = .pending) :
    (m.objects r).retryCount < (m'.objects r).retryCount := by
  have hchange := h.change r hr
  generalize m'.objects r = t' at hchange hpending
  revert hpending
  induction hchange with
  | refl => exact fun hs => absurd (hrun.symm.trans hs) (by decide)
  | tail hbefore hone ih =>
    intro hs
    cases hone with
    | park hk | migrate hk => exact absurd hk (by decide)
    | degrade hk => exact nomatch hk
    | retry => exact Nat.lt_succ_of_le (counts_taskChanges hbefore).le
    | fault | prevOutputs | cancelling => exact ih hs
    | commit | giveUp | cancel | cancelled | timeout | strand => exact nomatch hs
    | complete =>
      simp only at hs
      split_ifs at hs
    | finish =>
      simp only [finishTask] at hs
      split_ifs at hs

theorem Rewrites.uncounted {c : StepKind} (h : m.Rewrites c m') (hr : r < m.nextRef)
    (hc : ¬(c = .assigns ∨ c = .interrupts)) :
    (m'.objects r).retryCount = (m.objects r).retryCount := by
  have hchange := h.change r hr
  generalize m'.objects r = t' at hchange
  induction hchange with
  | refl => rfl
  | tail _ hone ih =>
    cases hone with
    | retry hk => exact absurd hk hc
    | _ => exact ih

structure Requeues (m m' : ClusterMaster) : Prop where
  kept : ∀ r ∈ m.pendingRetry, r ∈ m'.pendingRetry
  counted : ∀ r, (m'.objects r).retryCount = (m.objects r).retryCount ∨ r ∈ m'.pendingRetry

theorem Requeues.refl (m : ClusterMaster) : m.Requeues m := ⟨fun _ h => h,fun _ => .inl rfl⟩

theorem Requeues.trans (h : m.Requeues s) (h' : s.Requeues m') : m.Requeues m' := by
  refine ⟨fun r hr => h'.kept r (h.kept r hr),fun r => ?_⟩
  rcases h'.counted r with heq | hmem
  · rcases h.counted r with heq' | hmem
    · exact .inl (heq.trans heq')
    · exact .inr (h'.kept r hmem)
  · exact .inr hmem

theorem requeues_of_eq (hq : s.pendingRetry = m.pendingRetry)
    (ho : ∀ r, (s.objects r).retryCount = (m.objects r).retryCount) : m.Requeues s :=
  ⟨fun _ h => hq ▸ h,fun r => .inl (ho r)⟩

theorem requeues_modifyTask (m : ClusterMaster) (r : Ref) {g : ClusterTask → ClusterTask}
    (hg : ∀ t, (g t).retryCount = t.retryCount) : m.Requeues (m.modifyTask r g) := by
  refine requeues_of_eq rfl fun x => ?_
  by_cases hx : x = r
  · subst hx
    simp [modifyTask,hg]
  · simp [modifyTask,hx]

theorem requeues_releaseTask (m : ClusterMaster) (r : Ref) : m.Requeues (m.releaseTask r) :=
  requeues_of_eq rfl fun _ => rfl

theorem requeues_enqueueRetry (m : ClusterMaster) (r : Ref) (now : ℚ) :
    m.Requeues (m.enqueueRetry r now) := by
  unfold enqueueRetry
  split_ifs
  · exact requeues_modifyTask m r fun _ => rfl
  · refine ⟨fun x hx => List.mem_append_left _ hx,fun x => ?_⟩
    by_cases hx : x = r
    · subst hx
      exact .inr (List.mem_append_right _ List.mem_cons_self)
    · exact .inl (by simp [modifyTask,hx])

theorem requeues_foldl {α : Type} {F : ClusterMaster → α → ClusterMaster}
    (hF : ∀ s a, Requeues s (F s a)) (l : List α) (m : ClusterMaster) :
    m.Requeues (l.foldl F m) := by
  induction l generalizing m with
  | nil => exact .refl m
  | cons a l ih => exact (hF m a).trans (ih (F m a))

theorem requeues_dispatch {d : Dispatch} (h : DispatchEffect m cid d now s) : m.Requeues s := by
  have hend : ∀ o, m.Requeues (m.endDispatch cid d o) := by
    intro o
    have hprev : m.Requeues (m.setPrevOutputs d.task o) := by
      unfold setPrevOutputs
      split
      · exact .refl m
      · exact requeues_modifyTask m _ fun _ => rfl
    exact hprev.trans (requeues_of_eq rfl fun _ => rfl)
  cases h with
  | continues hq =>
    exact requeues_of_eq hq.still.pendingRetry fun r => by simp only [setFrame,hq.still.objects]
  | @finalizes r o =>
    have hfinal : m.Requeues (m.finalized r o now) := by
      simp only [finalized]
      split_ifs
      · refine Requeues.trans ?_ (requeues_enqueueRetry _ r now)
        exact (requeues_releaseTask m r).trans (requeues_modifyTask _ r fun _ => rfl)
      · exact (requeues_releaseTask m r).trans (requeues_modifyTask _ r fun _ => rfl)
    exact hfinal.trans (requeues_of_eq rfl fun _ => rfl)
  | stale => exact hend _
  | done => exact hend _

/-- A task whose retries a step counts up is in the retry list after it. -/
theorem Effect.requeued (h : Effect m ev m') (hk : m.kind ev = .assigns ∨ m.kind ev = .interrupts)
    (r : Ref) : (m'.objects r).retryCount = (m.objects r).retryCount ∨ r ∈ m'.pendingRetry := by
  have hsame : ∀ {s : ClusterMaster}, s.objects = m.objects →
      (s.objects r).retryCount = (m.objects r).retryCount ∨ r ∈ s.pendingRetry :=
    fun hs => .inl (by rw [hs])
  have hother : ∀ {ev : MasterEvent}, m.kind ev = .other →
      ¬(m.kind ev = .assigns ∨ m.kind ev = .interrupts) := fun h => by simp [h]
  cases h with
  | still hs _ | spawns hs _ _ => exact hsame hs.objects
  | swaps hq _ _ | refuses hq _ _ | replies hq _ _ => exact hsame hq.still.objects
  | ends | skips => exact hsame rfl
  | @parks s _ _ x _ _ hq _ _ =>
    refine .inl ?_
    simp only [setFrame,hq.still.objects]
    by_cases hx : r = x
    · subst hx
      simp [park,modifyTask]
    · simp [park,modifyTask,hx]
  | @requeues _ _ x =>
    refine .inl ?_
    by_cases hx : r = x
    · subst hx
      simp [park,modifyTask,setFrame]
    · simp [park,modifyTask,setFrame,hx]
  | @commits s _ _ x _ _ _ ns _ hq =>
    refine .inl ?_
    simp only [setFrame,hq.still.objects]
    by_cases hx : r = x
    · subst hx
      simp [commit,modifyTask]
    · simp [commit,modifyTask,hx]
  | triggers =>
    refine hsame ?_
    simp only [triggerDispatch,setFrame]
    split_ifs <;> rfl
  | @retries _ now _ x => exact (requeues_enqueueRetry m x now).counted r
  | @fallsBack _ now x => exact (requeues_enqueueRetry m x now).counted r
  | dispatches _ he => exact (requeues_dispatch he).counted r
  | @timesOut now =>
    refine (requeues_foldl (F := fun s x => s.timeoutOne now x) (fun s x => ?_) _ m).counted r
    unfold timeoutOne
    split_ifs
    · refine Requeues.trans ?_ (requeues_enqueueRetry _ x now)
      exact requeues_modifyTask s x fun _ => rfl
    · exact .refl s
  | @refreshes cid now offline =>
    simp only [refreshTasks]
    split_ifs
    · exact hsame rfl
    · refine (requeues_foldl (F := fun s x => s.refreshOne offline now x) (fun s x => ?_)
        _ m).counted r
      refine Requeues.trans ?_ (requeues_enqueueRetry _ x now)
      exact requeues_modifyTask s x fun _ => rfl
  | drains hf | notDue hf | exhausted hf _ _ => exact absurd hk (hother (by simp [kind,hf]))
  | _ => exact absurd hk (by simp [kind])

theorem step_requeued (hw : m.Wf) (hr : r < m.nextRef) (h : machine.step m ev = some m')
    (hmem : r ∉ m'.pendingRetry) :
    (m'.objects r).retryCount = (m.objects r).retryCount := by
  by_cases hk : m.kind ev = .assigns ∨ m.kind ev = .interrupts
  · exact ((step_effect h).requeued hk r).resolve_right hmem
  · exact (step_rewrites hw h).uncounted hr hk

end ClusterMaster

/-- A call of `migrate_task` or `degrade_task`. -/
def MasterEvent.movesTask : MasterEvent → Bool
  | .migrateTask _ | .degradeTask _ => true
  | _ => false

namespace ClusterMaster

variable {m m' : ClusterMaster} {r : Ref} {ev : MasterEvent} {v : TaskView}

/-- A step that makes a task wait once more has interrupted it. -/
theorem Move.held_le (hmove : Move m r ev v) (hev : ev.movesTask = false) :
    v.held ≤ m.held r ∨ (v.held = m.held r+1 ∧ (m.objects r).status = .running ∧
      v.status = .pending ∧ m.kind ev = .interrupts) := by
  have hheld : (m.view r).held = m.held r := rfl
  cases hmove with
  | requeue _ hs hi _ =>
    refine .inr ⟨rfl,hs,rfl,?_⟩
    rcases hi with hi | hi
    · cases ev with
      | checkTimeouts now => rfl
      | resume cid now =>
        obtain ⟨d,o,hf,-⟩ := hi
        simp [kind,hf]
      | _ => exact hi.elim
    · cases ev with
      | resume cid now =>
        obtain ⟨offline,hf,-⟩ := hi
        simp [kind,hf]
      | _ => exact hi.elim
  | migrate | degrade => cases hev
  | reset => exact .inl (Int.natCast_nonneg _)
  | _ => exact .inl (by simp only [hheld]; omega)

/-- Only an open `assign_task` sets a task to `RUNNING`, and lets go of it. -/
theorem Move.starts (hmove : Move m r ev v) (hold : (m.objects r).status ≠ .running)
    (hnew : v.status = .running) :
    v.held = m.held r-1 ∧ ∃ cid now pc k, ev = .resume cid now ∧
      m.frames.get? cid = some (.assign r pc k) ∧ pc.isOpen = true := by
  cases hmove with
  | @assign cid now pc k _ hf hpc _ => exact ⟨rfl,cid,now,pc,k,rfl,hf,hpc⟩
  | stay | launch | noLaunch | endLive | purge | displace | skip | refuse | unqueue | reset =>
    exact absurd hnew hold
  | finish =>
    simp only at hnew
    split_ifs at hnew
  | complete =>
    simp only at hnew
    split_ifs at hnew
  | _ => exact nomatch hnew

end ClusterMaster

/-- A master, with the time, the retry count each task object was submitted, taken over or
restored with, and how often it has gone to `RUNNING` since. -/
structure RetryWatch where
  master : ClusterMaster
  clock : ℚ
  firstCount : Ref → ℕ
  started : Ref → ℕ

namespace RetryWatch

open ClusterMaster

variable {w w' : RetryWatch} {ev : MasterEvent} {r : Ref}

def Starts (w : RetryWatch) (m : ClusterMaster) (r : Ref) : Prop :=
  r < w.master.nextRef ∧ (w.master.objects r).status ≠ .running ∧ (m.objects r).status = .running

instance (w : RetryWatch) (m : ClusterMaster) (r : Ref) : Decidable (w.Starts m r) :=
  inferInstanceAs (Decidable (_ ∧ _))

def record (w : RetryWatch) (ev : MasterEvent) (m : ClusterMaster) : RetryWatch where
  master := m
  clock := ev.now?.getD w.clock
  firstCount r := if w.master.nextRef ≤ r then (m.objects r).retryCount else w.firstCount r
  started r := if w.Starts m r then w.started r+1 else w.started r

/-- No task is migrated or degraded, and time does not run backwards. -/
def step (w : RetryWatch) (ev : MasterEvent) : Option RetryWatch :=
  if ev.movesTask = false ∧ w.clock ≤ ev.now?.getD w.clock then
    (machine.step w.master ev).map (w.record ev)
  else none

def watch : Machine RetryWatch MasterEvent := ⟨step⟩

def create (config : MasterConfig) (ha : HaState) (clock : ℚ) : RetryWatch :=
  ⟨.create config ha,clock,fun _ => 0,fun _ => 0⟩

/-- A task has run once and once for each retry that it had left when it came, and a task that goes
to `RUNNING` after a retry was scheduled does so at the time of the retry or later. -/
structure KeepsBudget (w : RetryWatch) (w' : RetryWatch) : Prop where
  budget : ∀ r < w'.master.nextRef, w'.started r ≤ 1+(maxRetryAttempts-w'.firstCount r)
  due : ∀ r, w.Starts w'.master r → w.firstCount r < (w.master.objects r).retryCount →
    (w.master.objects r).nextRetryAt ≤ w'.clock

/-- No retry is scheduled for the task, or its time has come. -/
def Due (w : RetryWatch) (r : Ref) : Prop :=
  (w.master.objects r).retryCount = w.firstCount r ∨ (w.master.objects r).nextRetryAt ≤ w.clock

structure Sound (w : RetryWatch) : Prop where
  one : w.master.OnePlace
  unborn : ∀ r, w.master.nextRef ≤ r → w.started r = 0
  spent : ∀ r < w.master.nextRef,
    w.started r+w.master.held r+w.firstCount r ≤ 1+(w.master.objects r).retryCount
  first_le : ∀ r < w.master.nextRef, w.firstCount r ≤ (w.master.objects r).retryCount
  le_max : ∀ r < w.master.nextRef,
    (w.master.objects r).retryCount ≤ max (w.firstCount r) maxRetryAttempts
  offers : w.master.Offers w.Due (· ≤ w.clock)

theorem sound_create (config : MasterConfig) (ha : HaState) (clock : ℚ) :
    (create config ha clock).Sound := by
  refine ⟨onePlace_create config ha,fun _ _ => rfl,fun r hr => ?_,fun r hr => ?_,fun r hr => ?_,?_⟩
  · exact absurd hr (Nat.not_lt_zero r)
  · exact absurd hr (Nat.not_lt_zero r)
  · exact absurd hr (Nat.not_lt_zero r)
  · exact ⟨fun r hr => (nomatch hr),fun c f hf => (nomatch hf)⟩

theorem step_spec (h : watch.step w ev = some w') :
    ev.movesTask = false ∧ w.clock ≤ w'.clock ∧ machine.step w.master ev = some w'.master ∧
      w' = w.record ev w'.master := by
  obtain ⟨⟨hev,hle⟩,h⟩ := Option.ite_none_right_eq_some.mp h
  obtain ⟨m,hm,rfl⟩ := Option.map_eq_some_iff.mp h
  exact ⟨hev,hle,hm,rfl⟩

theorem not_moves (hev : ev.movesTask = false) (id : TaskId) :
    ev ≠ .migrateTask id ∧ ev ≠ .degradeTask id := by
  constructor <;> rintro rfl <;> exact nomatch hev

theorem Sound.offers_step (hw : w.Sound) (h : watch.step w ev = some w')
    (hone : w'.master.OnePlace) : w'.master.Offers w'.Due (· ≤ w'.clock) := by
  obtain ⟨hev,hle,hm,hrecord⟩ := step_spec h
  let P : Ref → Prop := fun r => r < w.master.nextRef →
    (w.master.objects r).retryCount = w.firstCount r ∨
      (w.master.objects r).nextRetryAt ≤ w'.clock
  have hbefore : w.master.Offers P (· ≤ w'.clock) :=
    hw.offers.mono (fun r hr _ => hr.imp_right fun hdue => hdue.trans hle) fun t ht => ht.trans hle
  have hloop : ∀ now, ev = .retryLoop now → now ≤ w'.clock := by
    rintro now rfl
    rw [hrecord]
    exact le_refl now
  have hafter : w'.master.Offers P (· ≤ w'.clock) :=
    ClusterMaster.offers_step hw.one.wf hm hbefore
      (fun r t ht hdue _ => .inr (hdue.trans ht)) hloop
      (fun r hr _ hlt => absurd hr (not_le.mpr hlt)) (not_moves hev)
  refine hafter.imp hone fun r hr hmem hP => ?_
  unfold Due
  have hfirst : w'.firstCount r =
      if w.master.nextRef ≤ r then (w'.master.objects r).retryCount else w.firstCount r := by
    rw [hrecord]
    rfl
  rcases Nat.lt_or_ge r w.master.nextRef with hlt | hge
  · rw [if_neg (not_le.mpr hlt)] at hfirst
    have hcount := step_requeued hw.one.wf hlt hm hmem
    have hdue := ((step_rewrites hw.one.wf hm).counts hlt).due hcount
    rw [hfirst,hcount,hdue]
    exact hP hlt
  · rw [if_pos hge] at hfirst
    exact .inl hfirst.symm

theorem Sound.spent_step (hw : w.Sound) (h : watch.step w ev = some w') (hr : r < w.master.nextRef) :
    w'.started r+w'.master.held r+w.firstCount r ≤ 1+(w'.master.objects r).retryCount := by
  obtain ⟨hev,-,hm,hrecord⟩ := step_spec h
  have hmove := step_move hw.one.wf hm hr
  have hheld : (w'.master.view r).held = w'.master.held r := rfl
  have hcounts := (step_rewrites hw.one.wf hm).counts hr
  have hspent := hw.spent r hr
  have hle := hcounts.le
  have hstarted : w'.started r = if w.Starts w'.master r then w.started r+1 else w.started r := by
    rw [hrecord]
    rfl
  by_cases hstarts : w.Starts w'.master r
  · rw [if_pos hstarts] at hstarted
    have hless := (hmove.starts hstarts.2.1 hstarts.2.2).1
    omega
  · rw [if_neg hstarts] at hstarted
    rcases hmove.held_le hev with hless | ⟨hmore,hrun,hpending,hkind⟩
    · omega
    · have hretried := (hkind ▸ step_rewrites hw.one.wf hm :
        w.master.Rewrites .interrupts w'.master).retried hr hrun hpending
      omega

theorem Sound.step (hw : w.Sound) (h : watch.step w ev = some w') :
    w.KeepsBudget w' ∧ w'.Sound := by
  obtain ⟨hev,hclock,hm,hrecord⟩ := step_spec h
  have hone : w'.master.OnePlace :=
    hw.one.step (fun id r heq => absurd heq (not_moves hev id).2) hm
  have hnext := (step_rewrites hw.one.wf hm).nextRef
  have hfirst : ∀ r, w'.firstCount r =
      if w.master.nextRef ≤ r then (w'.master.objects r).retryCount else w.firstCount r := by
    intro r
    rw [hrecord]
    rfl
  have hfirst_le : ∀ r < w'.master.nextRef,
      w'.firstCount r ≤ (w'.master.objects r).retryCount := by
    intro r _
    rw [hfirst r]
    split_ifs with hge
    · exact le_refl _
    · have hlt := not_le.mp hge
      exact (hw.first_le r hlt).trans ((step_rewrites hw.one.wf hm).counts hlt).le
  have hle_max : ∀ r < w'.master.nextRef,
      (w'.master.objects r).retryCount ≤ max (w'.firstCount r) maxRetryAttempts := by
    intro r _
    rw [hfirst r]
    split_ifs with hge
    · exact le_max_left _ _
    · have hlt := not_le.mp hge
      refine ((step_rewrites hw.one.wf hm).counts hlt).le_max.trans ?_
      exact max_le (hw.le_max r hlt) (le_max_right _ _)
  have hunborn : ∀ r, w.master.nextRef ≤ r → w'.started r = 0 := by
    intro r hr
    rw [hrecord]
    have hnot : ¬w.Starts w'.master r := fun hstarts => absurd hr (not_le.mpr hstarts.1)
    simp only [record,if_neg hnot]
    exact hw.unborn r hr
  have hspent : ∀ r < w'.master.nextRef,
      w'.started r+w'.master.held r+w'.firstCount r ≤ 1+(w'.master.objects r).retryCount := by
    intro r hr
    rw [hfirst r]
    split_ifs with hge
    · have honce := hone.once r hr
      have hzero := hunborn r hge
      omega
    · exact hw.spent_step h (not_le.mp hge)
  refine ⟨⟨fun r hr => ?_,fun r hstarts hretry => ?_⟩,hone,?_,hspent,hfirst_le,hle_max,
    hw.offers_step h hone⟩
  · have hs := hspent r hr
    have hm' := hle_max r hr
    omega
  · obtain ⟨-,cid,now,pc,k,rfl,hf,hpc⟩ :=
      (step_move hw.one.wf hm hstarts.1).starts hstarts.2.1 hstarts.2.2
    have hdue : w.Due r := (hw.offers.frames cid _ hf).1 (.inl hpc)
    exact (hdue.resolve_left hretry.ne').trans hclock
  · exact fun r hr => hunborn r (hnext.trans hr)

/-- In every run without migrations and degradations, and in every life of the master in it, each
task keeps to its budget and runs again no earlier than its retry is scheduled. -/
theorem retry_budget_kept (config : MasterConfig) (ha : HaState) (clock : ℚ)
    (evs : List MasterEvent) :
    watch.Along (fun w _ w' => w.KeepsBudget w') (create config ha clock) evs :=
  Machine.along_of_invariant (fun _ _ _ hw hstep => hw.step hstep)
    (sound_create config ha clock) evs

/-- Task `t1` runs on `n1`, and the store knows. -/
def storedRun : List MasterEvent :=
  [.registerNode (worker "n1") 0,.resume 0 0,.submit (plainTask "t1")] ++
    List.replicate 5 (.resume 1 5) ++ [.fillTmp 0,.replaceFile 0 5]

/-- The master crashes twice, each time while the task is running. -/
def crashesRun : List MasterEvent :=
  storedRun ++ [.restart 6 0,.registerNode (worker "n2") 6] ++ List.replicate 7 (.resume 2 11) ++
    [.fillTmp 1,.replaceFile 1 11,.restart 12 0,.registerNode (worker "n3") 12] ++
    List.replicate 7 (.resume 3 17)

/-- The node goes offline, the retry is scheduled for 60, and the master crashes. -/
def backoffRun : List MasterEvent :=
  storedRun ++ [.refreshNodeStatuses 30,.resume 2 30,.fillTmp 1,.replaceFile 1 30,.restart 31 0,
    .registerNode (worker "n2") 31] ++ List.replicate 6 (.resume 3 36)

/-- With crashes the task runs three times, and before the time of its retry. -/
theorem crashes_run_again :
    (∃ w, watch.exec (create defaultConfig .create 0) crashesRun = some w ∧
      1+maxRetryAttempts < w.master.attempts "t1") ∧
    ∃ w w', watch.exec (create defaultConfig .create 0) backoffRun = some w ∧
      watch.step w (.resume 3 36) = some w' ∧ (w.master.objects 1).taskId = "t1" ∧
      w.Starts w'.master 1 ∧ w'.clock < (w.master.objects 1).nextRetryAt := by
  constructor
  · have hexec : ((watch.exec (create defaultConfig .create 0) crashesRun).any fun w =>
        decide (1+maxRetryAttempts < w.master.attempts "t1")) = true := by
      decide +kernel
    obtain ⟨w,hw,hexec⟩ := (Option.any_eq_true _ _).mp hexec
    exact ⟨w,hw,of_decide_eq_true hexec⟩
  · have hexec : ((watch.exec (create defaultConfig .create 0) backoffRun).any fun w =>
        (watch.step w (.resume 3 36)).any fun w' =>
          decide ((w.master.objects 1).taskId = "t1" ∧ w.Starts w'.master 1 ∧
            w'.clock < (w.master.objects 1).nextRetryAt)) = true := by
      decide +kernel
    obtain ⟨w,hw,hexec⟩ := (Option.any_eq_true _ _).mp hexec
    obtain ⟨w',hw',hexec⟩ := (Option.any_eq_true _ _).mp hexec
    exact ⟨w,w',hw,hw',of_decide_eq_true hexec⟩

end RetryWatch
end FusionMultiNodes

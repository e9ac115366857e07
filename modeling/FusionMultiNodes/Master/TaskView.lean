import FusionMultiNodes.Master.WellFormed

/-! What the task table, the waiting lists and the coroutines say about one task. -/
namespace FusionMultiNodes

@[ext] structure TaskView where
  status : TaskStatus
  nodes : List NodeId
  registered : Prop
  held : ℤ
  committing : ℤ
  live : ℤ
  fresh : ℤ
  launched : ℤ

namespace TaskView

def gain (v : TaskView) (r : Ref) (f : Frame) : TaskView :=
  { v with
    held := v.held+f.holds.count r
    committing := v.committing+f.commits.count r
    live := v.live+f.dispatches.count r
    fresh := v.fresh+f.fresh.count r }

def lose (v : TaskView) (r : Ref) (f : Frame) : TaskView :=
  { v with
    held := v.held-f.holds.count r
    committing := v.committing-f.commits.count r
    live := v.live-f.dispatches.count r
    fresh := v.fresh-f.fresh.count r }

theorem gain_idle (v : TaskView) (r : Ref) {f : Frame} (h : f.Idle) : v.gain r f = v := by
  obtain ⟨h₁,h₂,h₃,h₄⟩ := h
  simp [gain,h₁,h₂,h₃,h₄]

theorem lose_idle (v : TaskView) (r : Ref) {f : Frame} (h : f.Idle) : v.lose r f = v := by
  obtain ⟨h₁,h₂,h₃,h₄⟩ := h
  simp [lose,h₁,h₂,h₃,h₄]

theorem swap_alike (v : TaskView) (r : Ref) {f f' : Frame} (h : f.Alike f') :
    (v.lose r f).gain r f' = v := by
  simp [gain,lose,h.holds,h.commits,h.fresh,h.dispatches,h.dispatches']

end TaskView

namespace ClusterMaster

def view (m : ClusterMaster) (r : Ref) : TaskView where
  status := (m.objects r).status
  nodes := (m.objects r).assignedNodes
  registered := m.Registered r
  held := m.held r
  committing := m.committing r
  live := m.live r
  fresh := m.fresh r
  launched := m.launched.count r

variable {m m' s : ClusterMaster} {r x : Ref} {cid : ℕ} {f f' : Frame} {now : ℚ}

theorem Still.view (h : m.Still s) (r : Ref) : s.view r = m.view r := by
  obtain ⟨h₁,-,h₃,h₄,h₅,h₆,-,-,-,h₁₀⟩ := h
  simp only [ClusterMaster.view,Registered,held,committing,live,fresh,weigh,h₁,h₃,h₄,h₅,h₆,h₁₀]

theorem view_setFrame (h : m.frames.get? cid = some f) (f' : Frame) (r : Ref) :
    (m.setFrame cid f').view r = ((m.view r).lose r f).gain r f' := by
  have hh := weigh_setFrame h f' fun f => f.holds.count r
  have hc := weigh_setFrame h f' fun f => f.commits.count r
  have hd := weigh_setFrame h f' fun f => f.dispatches.count r
  have hf := weigh_setFrame h f' fun f => f.fresh.count r
  have hq : (m.setFrame cid f').pendingQueue = m.pendingQueue ∧
      (m.setFrame cid f').pendingRetry = m.pendingRetry := ⟨rfl,rfl⟩
  ext1 <;> try rfl
  all_goals simp only [view,TaskView.gain,TaskView.lose,held,committing,live,fresh,hq]
  all_goals omega

theorem view_endFrame (h : m.frames.get? cid = some f) (r : Ref) :
    (m.endFrame cid).view r = (m.view r).lose r f := by
  have hh := weigh_endFrame h fun f => f.holds.count r
  have hc := weigh_endFrame h fun f => f.commits.count r
  have hd := weigh_endFrame h fun f => f.dispatches.count r
  have hf := weigh_endFrame h fun f => f.fresh.count r
  have hq : (m.endFrame cid).pendingQueue = m.pendingQueue ∧
      (m.endFrame cid).pendingRetry = m.pendingRetry := ⟨rfl,rfl⟩
  ext1 <;> try rfl
  all_goals simp only [view,TaskView.lose,held,committing,live,fresh,hq]
  all_goals omega

theorem Wf.nextFrame_free (hw : m.Wf) : m.frames.get? m.nextFrame = none := by
  cases h : m.frames.get? m.nextFrame with
  | none => rfl
  | some f => exact absurd (hw.frame_lt _ f h) (lt_irrefl _)

theorem view_spawn (h : m.frames.get? m.nextFrame = none) (f : Frame) (r : Ref) :
    (m.spawn f).view r = (m.view r).gain r f := by
  have hh := weigh_spawn h f fun f => f.holds.count r
  have hc := weigh_spawn h f fun f => f.commits.count r
  have hd := weigh_spawn h f fun f => f.dispatches.count r
  have hf := weigh_spawn h f fun f => f.fresh.count r
  have hq : (m.spawn f).pendingQueue = m.pendingQueue ∧
      (m.spawn f).pendingRetry = m.pendingRetry := ⟨rfl,rfl⟩
  ext1 <;> try rfl
  all_goals simp only [view,TaskView.gain,held,committing,live,fresh,hq]
  all_goals omega

theorem view_modifyTask_self {g : ClusterTask → ClusterTask}
    (hid : (g (m.objects r)).taskId = (m.objects r).taskId) :
    (m.modifyTask r g).view r = { m.view r with
      status := (g (m.objects r)).status
      nodes := (g (m.objects r)).assignedNodes } := by
  have hw : ∀ g' : Frame → ℕ, (m.modifyTask r g).weigh g' = m.weigh g' := fun _ => rfl
  simp [view,Registered,modifyTask,held,committing,live,fresh,weigh,hid]

theorem view_modifyTask_ne {g : ClusterTask → ClusterTask} (h : r ≠ x) :
    (m.modifyTask x g).view r = m.view r := by
  simp [view,Registered,modifyTask,held,committing,live,fresh,weigh,h]

theorem view_modifyTask_same {g : ClusterTask → ClusterTask}
    (hid : (g (m.objects x)).taskId = (m.objects x).taskId)
    (hs : (g (m.objects x)).status = (m.objects x).status)
    (hn : (g (m.objects x)).assignedNodes = (m.objects x).assignedNodes) (r : Ref) :
    (m.modifyTask x g).view r = m.view r := by
  by_cases h : r = x
  · subst h
    rw [view_modifyTask_self hid,hs,hn]
    rfl
  · exact view_modifyTask_ne h

theorem registered_set (hid : ∀ y, (m'.objects y).taskId = (m.objects y).taskId)
    (ht : m'.tasks = m.tasks.set (m.objects x).taskId x) :
    m'.Registered r ↔ r = x ∨ (m.Registered r ∧ (m.objects r).taskId ≠ (m.objects x).taskId) := by
  simp only [Registered,hid,ht,Dict.get?_set]
  by_cases h : (m.objects r).taskId = (m.objects x).taskId
  · simp only [h,if_true,Option.some.injEq,ne_eq,not_true_eq_false,and_false,or_false]
    exact eq_comm
  · simp only [h,if_false,ne_eq,not_false_eq_true,and_true,iff_or_self]
    rintro rfl
    exact absurd rfl h

theorem taskId_modifyTask {g : ClusterTask → ClusterTask}
    (hid : (g (m.objects x)).taskId = (m.objects x).taskId) (y : Ref) :
    ((m.modifyTask x g).objects y).taskId = (m.objects y).taskId := by
  by_cases h : y = x
  · subst h
    simpa [modifyTask] using hid
  · simp [modifyTask,h]

theorem taskId_park (m : ClusterMaster) (x y : Ref) :
    ((m.park x).objects y).taskId = (m.objects y).taskId :=
  taskId_modifyTask (g := fun t => { t with status := .pending, assignedNodes := [] }) rfl y

theorem taskId_commit (m : ClusterMaster) (x : Ref) (ns : List NodeId) (now : ℚ) (y : Ref) :
    ((m.commit x ns now).objects y).taskId = (m.objects y).taskId :=
  taskId_modifyTask
    (g := fun t => { t with assignedNodes := ns, status := .running, startedAt := now }) rfl y

theorem view_park_self (m : ClusterMaster) (r : Ref) :
    (m.park r).view r = { m.view r with
      status := .pending
      nodes := []
      registered := True
      held := (m.view r).held+1 } := by
  have hc := count_insertByPriority (fun q => (m.objects q).priority) r r m.pendingQueue
  rw [List.count_singleton_self] at hc
  have hreg : (m.park r).Registered r ↔ True :=
    iff_true_intro ((registered_set (taskId_park m r) rfl).mpr (Or.inl rfl))
  ext1
  · simp [view,park,modifyTask]
  · simp [view,park,modifyTask]
  · exact propext hreg
  · simp only [view,held,park,hc,weigh,modifyTask]
    omega
  all_goals rfl

theorem view_park_ne (h : r ≠ x) :
    (m.park x).view r = { m.view r with
      registered := m.Registered r ∧ (m.objects r).taskId ≠ (m.objects x).taskId } := by
  have hc := count_insertByPriority (fun q => (m.objects q).priority) x r m.pendingQueue
  rw [List.count_singleton,if_neg (by simpa using h.symm)] at hc
  have hreg := registered_set (r := r) (taskId_park m x) rfl
  ext1
  · simp [view,park,modifyTask,h]
  · simp [view,park,modifyTask,h]
  · exact propext (hreg.trans (or_iff_right h))
  · simp only [view,held,park,hc,weigh,modifyTask]
    omega
  all_goals rfl

theorem view_commit_self (m : ClusterMaster) (r : Ref) (ns : List NodeId) (now : ℚ) :
    (m.commit r ns now).view r = { m.view r with
      status := .running
      nodes := ns
      registered := True } := by
  have hreg : (m.commit r ns now).Registered r ↔ True :=
    iff_true_intro ((registered_set (taskId_commit m r ns now) rfl).mpr (Or.inl rfl))
  ext1
  · simp [view,commit,modifyTask]
  · simp [view,commit,modifyTask]
  · exact propext hreg
  all_goals rfl

theorem view_commit_ne {ns : List NodeId} (h : r ≠ x) :
    (m.commit x ns now).view r = { m.view r with
      registered := m.Registered r ∧ (m.objects r).taskId ≠ (m.objects x).taskId } := by
  have hreg := registered_set (r := r) (taskId_commit m x ns now) rfl
  ext1
  · simp [view,commit,modifyTask,h]
  · simp [view,commit,modifyTask,h]
  · exact propext (hreg.trans (or_iff_right h))
  all_goals rfl

theorem view_enqueueRetry_self (m : ClusterMaster) (r : Ref) (now : ℚ) :
    (m.enqueueRetry r now).view r =
      if maxRetryAttempts ≤ (m.objects r).retryCount then { m.view r with status := .failed }
      else { m.view r with status := .pending, nodes := [], held := (m.view r).held+1 } := by
  unfold enqueueRetry
  split_ifs
  · exact view_modifyTask_self rfl
  · ext1
    · simp [view,modifyTask,retryTask]
    · simp [view,modifyTask,retryTask]
    · simp [view,Registered,modifyTask,retryTask]
    · simp only [view,held,weigh,modifyTask,List.count_append,List.count_singleton_self]
      omega
    all_goals rfl

theorem view_enqueueRetry_ne (h : r ≠ x) : (m.enqueueRetry x now).view r = m.view r := by
  unfold enqueueRetry
  split_ifs
  · exact view_modifyTask_ne h
  · ext1
    · simp [view,modifyTask,h]
    · simp [view,modifyTask,h]
    · simp [view,Registered,modifyTask,h]
    · have hc : List.count r [x] = 0 := List.count_eq_zero.mpr (by simpa using h)
      simp only [view,held,weigh,modifyTask,List.count_append,hc]
      omega
    all_goals rfl

theorem objects_enqueueRetry_ne (h : r ≠ x) : (m.enqueueRetry x now).objects r = m.objects r := by
  unfold enqueueRetry
  split_ifs <;> simp [modifyTask,h]

/-- Going through a list of different tasks reaches a task at most once. -/
theorem view_foldl {F : ClusterMaster → Ref → ClusterMaster} {G : ClusterTask → TaskView → TaskView}
    {l : List Ref} (hself : ∀ s, (F s r).view r = G (s.objects r) (s.view r))
    (hother : ∀ s x, r ≠ x → (F s x).objects r = s.objects r ∧ (F s x).view r = s.view r)
    (hl : l.Nodup) :
    (l.foldl F m).view r = if r ∈ l then G (m.objects r) (m.view r) else m.view r := by
  have hskip : ∀ (l : List Ref) (s : ClusterMaster), r ∉ l → (l.foldl F s).view r = s.view r := by
    intro l
    induction l with
    | nil => exact fun s _ => rfl
    | cons a l ih =>
      intro s ha
      obtain ⟨hne,hnot⟩ := not_or.mp (mt List.mem_cons.mpr ha)
      exact (ih (F s a) hnot).trans (hother s a hne).2
  induction l generalizing m with
  | nil => rfl
  | cons a l ih =>
    obtain ⟨ha,hl⟩ := List.nodup_cons.mp hl
    by_cases hra : r = a
    · subst hra
      rw [if_pos (List.mem_cons_self ..)]
      exact (hskip l (F m r) ha).trans (hself m)
    · obtain ⟨ho,hv⟩ := hother m a hra
      rw [List.foldl_cons,ih hl,ho,hv]
      simp [hra]

theorem Wf.values_nodup (hw : m.Wf) : m.tasks.values.Nodup := by
  have hkeys := m.tasks.nodup
  refine List.Nodup.of_map (fun r => (m.objects r).taskId) ?_
  have hmap : m.tasks.values.map (fun r => (m.objects r).taskId) = m.tasks.entries.map Prod.fst := by
    rw [Dict.values,List.map_map]
    refine List.map_congr_left fun p hp => ?_
    exact (hw.task_lt p.1 p.2 (Dict.get?_eq_some_iff.mpr hp)).2
  rwa [hmap]

theorem Wf.registered_iff (hw : m.Wf) : r ∈ m.tasks.values ↔ m.Registered r := by
  rw [Dict.mem_values_iff]
  constructor
  · rintro ⟨id,hid⟩
    have htask := (hw.task_lt id r hid).2
    simpa only [Registered,htask] using hid
  · exact fun h => ⟨_,h⟩

theorem Wf.registered_of_get? {id : TaskId} (hw : m.Wf) (h : m.tasks.get? id = some r) :
    m.Registered r := by
  simpa only [Registered,(hw.task_lt id r h).2] using h

theorem Wf.view_unborn (hw : m.Wf) (h : m.nextRef ≤ r) :
    ¬m.Registered r ∧ m.held r = 0 ∧ m.committing r = 0 ∧ m.live r = 0 ∧ m.fresh r = 0 := by
  have hzero : ∀ part : Frame → List Ref, (∀ f, part f ⊆ f.refs) →
      (m.weigh fun f => (part f).count r) = 0 := by
    intro part hpart
    refine Dict.sumOver_eq_zero_iff.mpr fun cid f hf => ?_
    refine List.count_eq_zero.mpr fun hr => ?_
    exact absurd (hw.refs_lt cid f hf r (hpart f hr)) (not_lt.mpr h)
  refine ⟨fun hr => absurd (hw.reg_lt hr) (not_lt.mpr h),?_,hzero _ ?_,hzero _ ?_,hzero _ ?_⟩
  · have hq : m.pendingQueue.count r = 0 :=
      List.count_eq_zero.mpr fun hr => absurd (hw.queue_lt r hr) (not_lt.mpr h)
    have hretry : m.pendingRetry.count r = 0 :=
      List.count_eq_zero.mpr fun hr => absurd (hw.retry_lt r hr) (not_lt.mpr h)
    rw [held,hq,hretry,hzero _ Frame.holds_subset]
  · exact Frame.commits_subset
  · exact Frame.dispatches_subset
  · exact Frame.fresh_subset

end ClusterMaster
end FusionMultiNodes

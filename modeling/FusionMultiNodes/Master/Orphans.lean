import FusionMultiNodes.Master.Dispatches
import FusionMultiNodes.Master.Leadership

/-! Work that nobody does: a waiting task in no list, or a running one without a dispatch. -/
namespace FusionMultiNodes

def TaskView.Present (v : TaskView) : Prop :=
  v.registered ∨ 0 < v.held ∨ 0 < v.committing ∨ 0 < v.live

/-- A waiting task is held once, a running one is dispatched or about to be. -/
structure TaskView.Accounted (v : TaskView) : Prop where
  held_le : v.held ≤ 1
  pending : v.registered → v.status = .pending → v.held = 1
  running : v.registered → v.status = .running →
    v.held = 0 ∧ v.nodes ≠ [] ∧ (1 ≤ v.committing ∨ v.live = 1)
  fresh : 1 ≤ v.fresh → ¬v.registered ∧ v.held = 1

namespace TaskView.Accounted

variable {v : TaskView}

theorem waiting (hs : v.status = .pending) (hheld : v.held = 1) (hfresh : v.fresh ≤ 0) :
    v.Accounted :=
  ⟨hheld.le,fun _ _ => hheld,fun _ h => TaskStatus.noConfusion (hs.symm.trans h),
    fun h => absurd hfresh (by omega)⟩

theorem ended (hpending : v.status ≠ .pending) (hrunning : v.status ≠ .running) (hheld : v.held ≤ 1)
    (hfresh : 1 ≤ v.fresh → ¬v.registered ∧ v.held = 1) : v.Accounted :=
  ⟨hheld,fun _ h => absurd h hpending,fun _ h => absurd h hrunning,hfresh⟩

theorem unlisted (hreg : ¬v.registered) (hheld : v.held ≤ 1) (hfresh : 1 ≤ v.fresh → v.held = 1) :
    v.Accounted :=
  ⟨hheld,fun h => absurd h hreg,fun h => absurd h hreg,fun h => ⟨hreg,hfresh h⟩⟩

end TaskView.Accounted

namespace ClusterMaster

/-- The guards of `assign_task` let the task pass. -/
def responsible (m : ClusterMaster) (r : Ref) : Bool := !(m.ha.refuses (m.objects r).ownerMaster)

def Present (m : ClusterMaster) (r : Ref) : Prop := (m.view r).Present

/-- The dispatch reads the nodes of its task when it begins, or has read those the task has now. -/
def Addresses (m : ClusterMaster) (d : Dispatch) : Prop :=
  (d.pc = .start ∨ d.nodeIds = (m.objects d.task).assignedNodes) ∧ ∀ w o, d.pc ≠ .tail w o

/-- A coroutine triggers no dispatch of a running task while an earlier one is alive. -/
def FrameKeepsTrack (m : ClusterMaster) : Frame → Prop
  | .assign r .trigger _ => m.responsible r = true → m.Registered r →
      (m.objects r).status = .running → m.live r = 0
  | _ => True

/-- The steps that lose no task the master is responsible for: only tasks that are in no list and
in no coroutine's hands are degraded, no dispatch is triggered while an earlier one of the task
is alive, and no record of a peer is about a task of this master. -/
def KeepsTrack (m : ClusterMaster) : MasterEvent → Prop
  | .degradeTask id => ∀ r ∈ m.tasks.get? id, m.responsible r = true → m.held r = 0
  | .resume cid _ => ∀ f ∈ m.frames.get? cid, m.FrameKeepsTrack f
  | .receiveSyncedTasks records => ∀ d ∈ records, m.accepts d = true →
      m.ha.refuses d.ownerMaster = true ∧
        ∀ r < m.nextRef, (m.objects r).taskId = d.taskId → m.responsible r = true → ¬m.Present r
  | _ => True

def Settled (m : ClusterMaster) (r : Ref) : Prop :=
  ∀ cid f, m.frames.get? cid = some f → r ∉ f.holds ∧ r ∉ f.commits

structure Tracked (m : ClusterMaster) : Prop where
  wf : m.Wf
  unhooked : m.Unhooked
  unique : ∀ r < m.nextRef, ∀ x < m.nextRef, m.responsible r = true → m.Present r → m.Present x →
    (m.objects x).taskId = (m.objects r).taskId → x = r
  accounted : ∀ r < m.nextRef, m.responsible r = true → (m.view r).Accounted
  addressed : ∀ r < m.nextRef, m.responsible r = true → m.Registered r →
    (m.objects r).status = .running → m.committing r = 0 →
      ∀ cid d, m.frames.get? cid = some (.dispatch d) → d.task = r → m.Addresses d

variable {m m' : ClusterMaster} {r x : Ref} {cid : ℕ} {f : Frame} {ev : MasterEvent} {v : TaskView}
  {now : ℚ}

theorem fresh_le_holds (f : Frame) (r : Ref) : f.fresh.count r ≤ f.holds.count r := by
  cases f with
  | assign x pc k =>
    by_cases hpc : pc.isOpen = true
    · rw [Frame.fresh_of_isOpen hpc,Frame.holds_of_isOpen hpc]
      split_ifs with hk
      · subst hk
        exact le_refl _
      · exact Nat.zero_le _
    · have hfresh : (Frame.assign x pc k).fresh = [] := by
        cases k <;> simp [Frame.fresh,hpc]
      rw [hfresh]
      exact Nat.zero_le _
  | _ => exact Nat.zero_le _

/-- A task is held by all who hold it, and by its unfinished submission besides. -/
theorem fresh_add_holds_le (h : m.frames.get? cid = some f) (r : Ref) :
    m.fresh r+f.holds.count r ≤ m.held r+f.fresh.count r := by
  have hfresh := weigh_endFrame h fun f => f.fresh.count r
  have hholds := weigh_endFrame h fun f => f.holds.count r
  have hle : (m.endFrame cid).weigh (fun f => f.fresh.count r) ≤
      (m.endFrame cid).weigh fun f => f.holds.count r :=
    Dict.sumOver_mono (fun _ f => fresh_le_holds f r) _
  simp only [fresh,held]
  omega

theorem queue_add_holds_le (h : m.frames.get? cid = some f) (r : Ref) :
    m.pendingQueue.count r+f.holds.count r ≤ m.held r := by
  have hle := le_weigh h fun f => f.holds.count r
  simp only [held]
  omega

theorem live_pos {d : Dispatch} (h : m.frames.get? cid = some (.dispatch d)) : 0 < m.live d.task := by
  have hle := le_weigh h fun f => f.dispatches.count d.task
  simp only [Frame.dispatches,List.count_singleton_self] at hle
  exact hle

theorem Present.of_registered (h : m.Registered r) : m.Present r := Or.inl h

theorem Present.of_held (h : 0 < m.held r) : m.Present r := Or.inr (Or.inl (Int.natCast_pos.mpr h))

theorem Present.of_live (h : 0 < m.live r) : m.Present r :=
  Or.inr (Or.inr (Or.inr (Int.natCast_pos.mpr h)))

theorem Commits.ne_nil {pc : AssignPc} {ns : List NodeId} (h : m.Commits r now pc ns) : ns ≠ [] := by
  have hneed : 0 < (m.objects r).need := by
    unfold ClusterTask.need
    split_ifs <;> omega
  obtain ⟨-,h⟩ := h
  cases pc with
  | localCommit requiredMem =>
    rw [h.2]
    exact List.cons_ne_nil _ _
  | confirm requiredMem selected =>
    rintro rfl
    have hle := h.2.2
    rw [List.length_nil] at hle
    omega
  | _ => exact h.elim

/-- The task registered under an id of which something refers to a task. -/
theorem Tracked.eq_of_registered (h : m.Tracked) (hr : r < m.nextRef) (hm : m.responsible r = true)
    (hp : m.Present r) (hx : m.tasks.get? (m.objects r).taskId = some x) : x = r :=
  have htask := h.wf.task_lt _ _ hx
  h.unique r hr x htask.1 hm hp (.of_registered (h.wf.registered_of_get? hx)) htask.2

/-- A task that `assign_task` has in its hands is neither running nor queued. -/
theorem Tracked.not_skipped (h : m.Tracked) (hr : r < m.nextRef) (hm : m.responsible r = true)
    {pc : AssignPc} {k : Caller} (hf : m.frames.get? cid = some (.assign r pc k))
    (hpc : pc.isOpen = true) :
    ¬(m.isRunning (m.objects r).taskId = true ∨ m.isQueued (m.objects r).taskId = true) := by
  have hcount : 1 ≤ (Frame.assign r pc k).holds.count r := by
    rw [Frame.holds_of_isOpen hpc]
    exact List.count_pos_iff.mpr (List.mem_cons_self ..)
  have hle := queue_add_holds_le hf r
  have hacc := h.accounted r hr hm
  have hheld : ((m.held r : ℕ) : ℤ) ≤ 1 := hacc.held_le
  have hp : m.Present r := .of_held (by omega)
  rintro (hrun | hqueue)
  · obtain ⟨t,ht,hs⟩ := (Option.any_eq_true _ _).mp hrun
    obtain ⟨x,hx,rfl⟩ := Option.map_eq_some_iff.mp ht
    obtain rfl := h.eq_of_registered hr hm hp hx
    have hzero : ((m.held x : ℕ) : ℤ) = 0 := (hacc.running hx (of_decide_eq_true hs)).1
    omega
  · obtain ⟨q,hq,hid⟩ := List.any_eq_true.mp hqueue
    have hqpos : 0 < m.pendingQueue.count q := List.count_pos_iff.mpr hq
    have hqheld : 0 < m.held q := by
      simp only [held]
      omega
    obtain rfl := h.unique r hr q (h.wf.queue_lt q hq) hm hp (.of_held hqheld) (of_decide_eq_true hid)
    omega

/-- The dispatch table points to a dispatch of the task itself. -/
theorem Tracked.live_of_hasHandle (h : m.Tracked) (hr : r < m.nextRef) (hm : m.responsible r = true)
    (hp : m.Present r) (hh : m.hasHandle r = true) : 0 < m.live r := by
  obtain ⟨c,hc,hf⟩ := (Option.any_eq_true _ _).mp hh
  obtain ⟨f,hf⟩ := Option.isSome_iff_exists.mp hf
  obtain ⟨d,rfl,hid⟩ := (h.wf.handle _ c hc).2 f hf
  have hpos := live_pos hf
  have hlt := h.wf.ref_lt hf (x := d.task) (by simp [Frame.refs])
  obtain rfl := h.unique r hr d.task hlt hm hp (.of_live hpos) hid
  exact hpos

/-- A task in the hands of `assign_task` is held, and once more if it is not being submitted. -/
theorem open_counts {pc : AssignPc} {k : Caller} (hf : m.frames.get? cid = some (.assign r pc k))
    (hpc : pc.isOpen = true) : 1 ≤ m.held r ∧ (m.fresh r : ℤ)+1 ≤ m.held r+k.fresh := by
  have hle := fresh_add_holds_le hf r
  have hle' := queue_add_holds_le hf r
  have hcount := count_fresh hpc r r k
  rw [if_pos rfl] at hcount
  have hone : 1 ≤ (Frame.assign r pc k).holds.count r := by
    rw [Frame.holds_of_isOpen hpc]
    exact List.count_pos_iff.mpr (List.mem_cons_self ..)
  omega

theorem returned_counts {k : Caller} (hf : m.frames.get? cid = some (.assign r (.returned false) k))
    (hk : k ≠ .submit) : m.fresh r+1 ≤ m.held r := by
  have hle := fresh_add_holds_le hf r
  have hone : 1 ≤ (Frame.assign r (.returned false) k).holds.count r := by
    simp only [Frame.holds,if_neg hk]
    exact List.count_pos_iff.mpr (List.mem_cons_self ..)
  have hzero : (Frame.assign r (.returned false) k).fresh = [] := by cases k <;> rfl
  rw [hzero,List.count_nil] at hle
  omega

/-- No running task has a live dispatch when the next one is triggered. -/
theorem Tracked.no_handle (h : m.Tracked) (hG : m.KeepsTrack (.resume cid now)) (hr : r < m.nextRef)
    (hm : m.responsible r = true) {k : Caller} (hf : m.frames.get? cid = some (.assign r .trigger k))
    (hreg : m.Registered r) (hs : (m.objects r).status = .running) :
    m.live r = 0 ∧ ¬((m.objects r).assignedNodes = [] ∨ m.hasHandle r = true) := by
  have hnone : m.live r = 0 := hG _ hf hm hreg hs
  refine ⟨hnone,fun hreason => ?_⟩
  rcases hreason with hnodes | hhandle
  · exact ((h.accounted r hr hm).running hreg hs).2.1 hnodes
  · have hpos := h.live_of_hasHandle hr hm (.of_registered hreg) hhandle
    omega

/-- Only a dispatch of a task that is no longer running ends. -/
theorem Tracked.committing_of_ends (h : m.Tracked) (hr : r < m.nextRef) (hm : m.responsible r = true)
    (hreg : m.Registered r) (hs : (m.objects r).status = .running) {d : Dispatch}
    {o : DispatchOutcome} (hf : m.frames.get? cid = some (.dispatch d)) (hd : d.task = r)
    (hend : (∃ w, d.pc = .tail w o) ∨
      (d.pc = .finalizing o ∧ m.isRunning (m.objects r).taskId = false)) : 1 ≤ m.committing r := by
  by_contra hnone
  have haddr := h.addressed r hr hm hreg hs (by omega) cid d hf hd
  rcases hend with ⟨w,hpc⟩ | ⟨-,hrun⟩
  · exact haddr.2 w o hpc
  · have hreg' : m.tasks.get? (m.objects r).taskId = some r := hreg
    simp [isRunning,task?,hreg',hs] at hrun

theorem Tracked.held_of_twin (h : m.Tracked) (hr : r < m.nextRef) (hm : m.responsible r = true)
    (hx : ∃ x, x ≠ r ∧ m.Registered x ∧ (m.objects x).taskId = (m.objects r).taskId) :
    ¬m.Registered r ∧ m.held r = 0 := by
  obtain ⟨x,hne,hreg,hid⟩ := hx
  have hnot : ¬m.Present r := fun hp =>
    hne (h.unique r hr x (h.wf.reg_lt hreg) hm hp (.of_registered hreg) hid)
  refine ⟨fun hreg' => hnot (.of_registered hreg'),?_⟩
  by_contra hpos
  exact hnot (.of_held (Nat.pos_of_ne_zero hpos))

theorem Tracked.move_accounted (h : m.Tracked) (hG : m.KeepsTrack ev) (hr : r < m.nextRef)
    (hm : m.responsible r = true) (hmove : Move m r ev v) : v.Accounted := by
  have hacc := h.accounted r hr hm
  have hle : (m.held r : ℤ) ≤ 1 := hacc.held_le
  have hrunning : m.Registered r → (m.objects r).status = .running → (m.held r : ℤ) = 0 :=
    fun hreg hs => (hacc.running hreg hs).1
  have hfresh : (1 : ℤ) ≤ m.fresh r → ¬m.Registered r ∧ (m.held r : ℤ) = 1 := hacc.fresh
  have hold : m.Registered r → (m.fresh r : ℤ) ≤ 0 := fun hreg => by
    by_contra hnew
    exact (hfresh (by omega)).1 hreg
  cases hmove with
  | stay => exact hacc
  | skip hf hpc hreason => exact absurd hreason (h.not_skipped hr hm hf hpc)
  | refuse hf hpc =>
    obtain ⟨hone,hshare⟩ := open_counts hf hpc
    simp only [Caller.fresh] at hshare
    have hpos : 1 ≤ m.fresh r := by
      have hw := le_weigh hf fun f => f.fresh.count r
      simp only [Frame.fresh,hpc,if_true,List.count_singleton_self] at hw
      exact hw
    refine .unlisted (hfresh (by exact_mod_cast hpos)).1 ?_ ?_ <;> simp only [view] <;> omega
  | @park cid now pc k hf hpc =>
    have hshare : (m.fresh r : ℤ)-k.fresh ≤ 0 ∧ (m.held r : ℤ) = 1 := by
      rcases hpc with hpc | ⟨rfl,rest,rfl⟩
      · have ho := open_counts hf hpc
        omega
      · have hb := returned_counts hf (by simp)
        simp only [Caller.fresh]
        omega
    exact .waiting rfl hshare.2 hshare.1
  | @assign cid now pc k ns hf hpc hc =>
    have ho := open_counts hf hpc
    refine ⟨?_,fun _ hs => TaskStatus.noConfusion hs,fun _ _ => ⟨?_,hc.ne_nil,Or.inl ?_⟩,fun hf' => ?_⟩ <;>
      simp only [view] at * <;> omega
  | launch hf _ _ =>
    refine ⟨hle,hacc.pending,fun hreg hs => ?_,hacc.fresh⟩
    have hnone := (h.no_handle hG hr hm hf hreg hs).1
    exact ⟨hrunning hreg hs,(hacc.running hreg hs).2.1,Or.inr (by simp only [view,hnone]; rfl)⟩
  | noLaunch hf hreason =>
    exact ⟨hle,hacc.pending,fun hreg hs => absurd hreason (h.no_handle hG hr hm hf hreg hs).2,hacc.fresh⟩
  | retry hf hk _ =>
    have hb := returned_counts hf hk
    refine .waiting rfl ?_ ?_ <;> simp only [view] <;> omega
  | giveUp hf hk _ _ =>
    have hb := returned_counts hf hk
    refine .ended (by simp) (by simp) ?_ fun hf' => ?_ <;> simp only [view] at * <;> omega
  | exhaust hf _ _ =>
    have hle' := fresh_add_holds_le hf r
    simp only [Frame.holds,Frame.fresh,List.count_cons_self,List.count_nil] at hle'
    refine .ended (by simp) (by simp) ?_ fun hf' => ?_ <;> simp only [view] at * <;> omega
  | requeue hreg hs _ _ =>
    have hzero := hrunning hreg hs
    have hnew := hold hreg
    refine .waiting rfl ?_ ?_ <;> simp only [view] <;> omega
  | abandon => exact .ended (by simp) (by simp) hle hfresh
  | strand => exact .ended (by simp) (by simp) hle hfresh
  | finish => exact .ended (by simp only; split_ifs <;> simp) (by simp only; split_ifs <;> simp) hle hfresh
  | complete => exact .ended (by simp only; split_ifs <;> simp) (by simp only; split_ifs <;> simp) hle hfresh
  | cancel hreg _ _ =>
    refine .ended (by simp) (by simp) ?_ fun hf' => absurd hreg (hfresh hf').1
    simp only [view]
    omega
  | unqueue hx =>
    obtain ⟨hreg,hnone⟩ := h.held_of_twin hr hm hx
    refine .unlisted hreg ?_ fun hf' => ?_
    · simp only [view]
      omega
    · have hone := (hfresh hf').2
      omega
  | migrate hid hs =>
    have hreg := h.wf.registered_of_get? hid
    have hzero := hrunning hreg hs
    have hnew := hold hreg
    refine .waiting rfl ?_ ?_ <;> simp only [view] <;> omega
  | degrade hid _ =>
    have hnew := hold (h.wf.registered_of_get? hid)
    have hzero : m.held r = 0 := hG r hid hm
    refine .waiting rfl ?_ ?_ <;> simp only [view] <;> omega
  | endLive hf hd hend =>
    refine ⟨hle,hacc.pending,fun hreg hs => ?_,hacc.fresh⟩
    have hcommits := h.committing_of_ends hr hm hreg hs hf hd hend
    exact ⟨hrunning hreg hs,(hacc.running hreg hs).2.1,Or.inl (Nat.one_le_cast.mpr hcommits)⟩
  | purge => exact .unlisted id hle fun hf' => (hfresh hf').2
  | displace => exact .unlisted id hle fun hf' => (hfresh hf').2
  | reset => exact .unlisted id (by simp) (by simp)

theorem Move.present (hw : m.Wf) (hmove : Move m r ev v) (hv : v.Present) : m.Present r := by
  have hopen : ∀ {cid} {f : Frame}, m.frames.get? cid = some f → r ∈ f.holds → m.Present r :=
    fun hf hx => .of_held (held_pos_of_mem hf hx)
  have hself : ∀ {k : Caller} {pc : AssignPc}, pc.isOpen = true → r ∈ (Frame.assign r pc k).holds :=
    fun hpc => by
      rw [Frame.holds_of_isOpen hpc]
      exact List.mem_cons_self ..
  cases hmove with
  | stay => exact hv
  | skip hf hpc _ => exact hopen hf (hself hpc)
  | refuse hf hpc => exact hopen hf (hself hpc)
  | @park cid now pc k hf hpc =>
    rcases hpc with hpc | ⟨rfl,rest,rfl⟩
    · exact hopen hf (hself hpc)
    · exact hopen hf (by simp [Frame.holds])
  | assign hf hpc _ => exact hopen hf (hself hpc)
  | launch hf _ _ =>
    have hle := le_weigh hf fun f => f.commits.count r
    simp only [Frame.commits,List.count_singleton_self] at hle
    exact Or.inr (Or.inr (Or.inl (Int.natCast_pos.mpr hle)))
  | noLaunch hf _ =>
    have hle := le_weigh hf fun f => f.commits.count r
    simp only [Frame.commits,List.count_singleton_self] at hle
    exact Or.inr (Or.inr (Or.inl (Int.natCast_pos.mpr hle)))
  | retry hf hk _ => exact hopen hf (by simp [Frame.holds,hk])
  | giveUp hf hk _ _ => exact hopen hf (by simp [Frame.holds,hk])
  | exhaust hf _ _ => exact hopen hf (by simp [Frame.holds])
  | requeue hreg _ _ _ => exact .of_registered hreg
  | abandon hreg _ _ _ => exact .of_registered hreg
  | strand hreg _ _ _ => exact .of_registered hreg
  | finish _ _ _ hid _ => exact .of_registered (hw.registered_of_get? hid)
  | complete hid => exact .of_registered (hw.registered_of_get? hid)
  | cancel hreg _ _ => exact .of_registered hreg
  | unqueue _ =>
    rcases hv with hreg | hheld | hrest
    · exact Or.inl hreg
    · refine Or.inr (Or.inl ?_)
      simp only at hheld
      omega
    · exact Or.inr (Or.inr hrest)
  | migrate hid _ => exact .of_registered (hw.registered_of_get? hid)
  | degrade hid _ => exact .of_registered (hw.registered_of_get? hid)
  | endLive hf hd _ =>
    subst hd
    exact .of_live (live_pos hf)
  | purge hreg _ => exact .of_registered hreg
  | displace hreg _ => exact .of_registered hreg
  | reset => exact absurd hv (by simp [TaskView.Present])

/-- As long as a task runs on the same nodes, its dispatches go on to address them. -/
theorem Tracked.origin_addresses (h : m.Tracked) (hr : r < m.nextRef) (hm : m.responsible r = true)
    (hreg : m.Registered r) (hs : (m.objects r).status = .running) (hc : m.committing r = 0)
    (hs' : (m'.objects r).status = .running)
    (hnodes : (m'.objects r).assignedNodes = (m.objects r).assignedNodes) {d : Dispatch}
    (hd : d.task = r) (horigin : DispatchOrigin m m' cid d) : m'.Addresses d := by
  have hold := h.addressed r hr hm hreg hs hc
  have hnodes' : (m'.objects d.task).assignedNodes = (m.objects d.task).assignedNodes := by
    rw [hd]
    exact hnodes
  cases horigin with
  | kept hf =>
    obtain ⟨hpc,hlast⟩ := hold cid d hf hd
    exact ⟨by rwa [hnodes'],hlast⟩
  | started hpc => exact ⟨Or.inl hpc,by simp [hpc]⟩
  | @continued d₀ hf hcont =>
    obtain ⟨hpc,-⟩ := hold cid d₀ hf (hcont.task.symm.trans hd)
    refine ⟨Or.inr ?_,hcont.notDone⟩
    rw [hcont.nodes,hnodes',hcont.task]
    split_ifs with hstart
    · rfl
    · exact hpc.resolve_left hstart
  | @finalized d₀ x hf htask hx hne =>
    rw [← htask,hd] at hx
    obtain rfl := h.eq_of_registered hr hm (.of_registered hreg) hx
    exact absurd hs' hne

theorem Tracked.step_addressed (h : m.Tracked) (hG : m.KeepsTrack ev)
    (hstep : machine.step m ev = some m') (hr : r < m.nextRef) (hm : m.responsible r = true)
    (hreg : m'.Registered r) (hs : (m'.objects r).status = .running) (hc : m'.committing r = 0)
    {d : Dispatch} (hf : m'.frames.get? cid = some (.dispatch d)) (hd : d.task = r) :
    m'.Addresses d := by
  have horigin := step_origin h.wf hstep hf
  have hmove := step_move h.wf hstep hr
  have hacc := h.accounted r hr hm
  have hreg' : (m'.view r).registered := hreg
  have hs' : (m'.view r).status = .running := hs
  have hc' : (m'.view r).committing = 0 := by
    simp only [view,hc]
    rfl
  have hnodes' : (m'.view r).nodes = (m'.objects r).assignedNodes := rfl
  generalize m'.view r = v at hmove hreg' hs' hc' hnodes'
  -- the task was running on the same nodes before the step
  have hsame : m.Registered r → (m.objects r).status = .running → (m.committing r : ℤ) = 0 →
      v.nodes = (m.objects r).assignedNodes → m'.Addresses d := fun hreg₀ hs₀ hc₀ hn =>
    h.origin_addresses hr hm hreg₀ hs₀ (by exact_mod_cast hc₀) hs (hnodes'.symm.trans hn) hd horigin
  cases hmove with
  | stay => exact hsame hreg' hs' hc' rfl
  | skip => exact hsame hreg' hs' hc' rfl
  | refuse => exact hsame hreg' hs' hc' rfl
  | unqueue => exact hsame hreg' hs' hc' rfl
  | endLive => exact hsame hreg' hs' hc' rfl
  | assign =>
    simp only [view] at hc'
    omega
  | launch hf₀ _ _ =>
    have hnone : m.live r = 0 := hG _ hf₀ hm hreg' hs'
    have habsent : ∀ {d₀ : Dispatch}, m.frames.get? cid = some (.dispatch d₀) → d₀.task ≠ r := by
      rintro d₀ hf₁ rfl
      exact absurd hnone (Nat.pos_iff_ne_zero.mp (live_pos hf₁))
    cases horigin with
    | kept hf => exact absurd hd (habsent hf)
    | started hpc => exact ⟨Or.inl hpc,by simp [hpc]⟩
    | continued hf hcont => exact absurd (hcont.task.symm.trans hd) (habsent hf)
    | finalized hf htask _ _ => exact absurd (htask.symm.trans hd) (habsent hf)
  | noLaunch hf₀ hreason =>
    exact absurd hreason (h.no_handle hG hr hm hf₀ hreg' hs').2
  | purge => exact hreg'.elim
  | displace => exact hreg'.elim
  | reset => exact hreg'.elim
  | finish =>
    simp only at hs'
    split_ifs at hs'
  | complete =>
    simp only at hs'
    split_ifs at hs'
  | _ => exact TaskStatus.noConfusion hs'

theorem fromDict_spec (partialRecovery : Bool) (d : TaskRecord) :
    (d.fromDict partialRecovery).taskId = d.taskId ∧
      (d.fromDict partialRecovery).ownerMaster = d.ownerMaster ∧
      (d.fromDict partialRecovery).status ≠ .running := by
  have hload : d.load.status ≠ .running := by
    unfold TaskRecord.load
    split_ifs with h
    · simp
    · simp only [TaskRecord.wasRunning,Bool.or_eq_true,decide_eq_true_eq,not_or] at h
      exact h.1
  unfold TaskRecord.fromDict
  split_ifs
  · exact ⟨rfl,rfl,by simp⟩
  · exact ⟨rfl,rfl,hload⟩

theorem Unhooked.refuses_step (hu : m.Unhooked) (h : machine.step m ev = some m') (owner : NodeId) :
    m'.ha.refuses owner = m.ha.refuses owner := by
  obtain ⟨hmode,hid⟩ := hu.site h
  rw [(hu.step h).ha.refuses_eq,hu.ha.refuses_eq,hmode,hid]

/-- What is new after a step is one submission, some records of other masters, or what a new
process has read from its store. -/
inductive Newcomer (m m' : ClusterMaster) (r : Ref) : Prop
  | submitted : r = m.nextRef → (∀ x < m.nextRef, (m.objects x).taskId ≠ (m'.objects r).taskId) →
      (m'.view r).Accounted → ¬m'.Registered r → Newcomer m m' r
  | foreign : m'.responsible r = false →
      (∀ x < m.nextRef, (m.objects x).taskId = (m'.objects r).taskId → m.responsible x = true →
        ¬m.Present x) → Newcomer m m' r
  | stored : (∀ x < m.nextRef, ¬m'.Present x) → (m'.view r).Accounted →
      (m'.objects r).status ≠ .running → Newcomer m m' r

theorem Tracked.newcomer (h : m.Tracked) (hG : m.KeepsTrack ev) (hstep : machine.step m ev = some m')
    (hr : m.nextRef ≤ r) (hr' : r < m'.nextRef) : Newcomer m m' r := by
  have hbirth := step_birth h.wf hstep hr hr'
  have hgone : ∀ now rnd, ev = .restart now rnd → ∀ x < m.nextRef, ¬m'.Present x := by
    rintro now rnd rfl x hx hp
    obtain rfl := Option.some.inj hstep
    rw [Present,view_restart h.wf hx] at hp
    simp [TaskView.Present] at hp
  generalize ht : m'.objects r = t at hbirth
  generalize hv : m'.view r = v at hbirth
  cases hbirth with
  | submitted hnew hreq =>
    simp only [isNewTask,Bool.and_eq_true,decide_eq_true_eq,List.all_eq_true,List.mem_range] at hnew
    refine .submitted hreq (fun x hx => ht ▸ hnew.2 x hx) ?_ ?_
    · rw [hv]
      exact ⟨le_refl _,False.elim,False.elim,fun _ => ⟨id,rfl⟩⟩
    · exact fun hreg => (congrArg TaskView.registered hv).mp hreg
  | @merged records d t reg hd hacc hobj =>
    obtain ⟨hforeign,hother⟩ := hG d hd hacc
    obtain ⟨hid,howner,-⟩ := fromDict_spec m.config.partialRecovery d
    rw [hobj] at ht
    refine .foreign ?_ fun x hx hxid hm => hother x hx ?_ hm
    · rw [responsible,ht,howner,h.unhooked.refuses_step hstep,hforeign]
      rfl
    · rwa [ht,hid] at hxid
  | @restored now rnd content d t reg _ _ hobj hnot =>
    obtain ⟨-,-,hrun⟩ := fromDict_spec m.config.partialRecovery d
    rw [← hobj] at hrun
    refine .stored (hgone now rnd rfl) ?_ (by rwa [ht])
    rw [hv]
    exact ⟨by simp,fun hreg hs => absurd ⟨hreg,hs⟩ hnot,fun _ hs => absurd hs hrun,
      fun hf => absurd hf (by simp)⟩
  | @queued now rnd content d t _ _ _ hobj =>
    refine .stored (hgone now rnd rfl) ?_ (by simp [ht,hobj])
    rw [hv]
    exact ⟨le_refl _,fun _ _ => rfl,fun _ hs => TaskStatus.noConfusion hs,
      fun hf => absurd hf (by simp)⟩

/-- What has come in from elsewhere is referred to by the task table only. -/
theorem registered_of_born (hw : m.Wf) (hstep : machine.step m ev = some m') (hr : m.nextRef ≤ r)
    (hr' : r < m'.nextRef) (hp : m'.Present r) :
    ((∃ t, ev = .submit t) ∧ r = m.nextRef) ∨ (m'.Registered r ∧ ∀ t, ev ≠ .submit t) := by
  have hbirth := step_birth hw hstep hr hr'
  have hreg : ∀ {status nodes reg launched},
      m'.view r = ⟨status,nodes,reg,0,0,0,0,launched⟩ → m'.Registered r := fun hv => by
    rw [Present,hv] at hp
    exact (congrArg TaskView.registered hv).mpr (by simpa [TaskView.Present] using hp)
  generalize m'.objects r = t at hbirth
  generalize hv : m'.view r = v at hbirth
  cases hbirth with
  | submitted _ hreq => exact Or.inl ⟨⟨_,rfl⟩,hreq⟩
  | merged => exact Or.inr ⟨hreg hv,by simp⟩
  | restored => exact Or.inr ⟨hreg hv,by simp⟩
  | queued => exact Or.inr ⟨(congrArg TaskView.registered hv).mpr trivial,by simp⟩

theorem Tracked.step (h : m.Tracked) (hG : m.KeepsTrack ev) (hstep : machine.step m ev = some m') :
    m'.Tracked := by
  have hevolves := step_evolves h.wf hstep
  have hmine : ∀ r < m.nextRef, m'.responsible r = m.responsible r := fun r hr => by
    rw [responsible,responsible,(hevolves.job r hr).ownerMaster,h.unhooked.refuses_step hstep]
  have hpresent : ∀ r < m.nextRef, m'.Present r → m.Present r := fun r hr hp =>
    (step_move h.wf hstep hr).present h.wf hp
  have hold : ∀ r < m.nextRef, (m'.objects r).taskId = (m.objects r).taskId := fun r hr =>
    (hevolves.job r hr).taskId
  refine ⟨step_wf h.wf hstep,h.unhooked.step hstep,?_,?_,?_⟩
  · intro r hr x hx hm hpr hpx hid
    rcases Nat.lt_or_ge r m.nextRef with hr' | hr' <;> rcases Nat.lt_or_ge x m.nextRef with hx' | hx'
    · rw [hold r hr',hold x hx'] at hid
      exact h.unique r hr' x hx' ((hmine r hr').symm.trans hm) (hpresent r hr' hpr)
        (hpresent x hx' hpx) hid
    · rw [hold r hr'] at hid
      cases h.newcomer hG hstep hx' hx with
      | submitted _ hnew _ _ => exact absurd hid.symm (hnew r hr')
      | foreign _ hother =>
        exact absurd (hpresent r hr' hpr) (hother r hr' hid.symm ((hmine r hr').symm.trans hm))
      | stored hgone _ _ => exact absurd hpr (hgone r hr')
    · rw [hold x hx'] at hid
      cases h.newcomer hG hstep hr' hr with
      | submitted _ hnew _ _ => exact absurd hid (hnew x hx')
      | foreign hforeign _ => exact absurd hm (by simp [hforeign])
      | stored hgone _ _ => exact absurd hpx (hgone x hx')
    · rcases registered_of_born h.wf hstep hr' hr hpr with ⟨⟨t,rfl⟩,hreq⟩ | ⟨hreg,hne⟩ <;>
        rcases registered_of_born h.wf hstep hx' hx hpx with ⟨⟨t',ht'⟩,hxeq⟩ | ⟨hregx,hnex⟩
      · exact hxeq.trans hreq.symm
      · exact absurd rfl (hnex t)
      · exact absurd ht' (hne t')
      · exact Registered.unique hreg hregx hid
  · intro r hr hm
    rcases Nat.lt_or_ge r m.nextRef with hr' | hr'
    · exact h.move_accounted hG hr' ((hmine r hr').symm.trans hm) (step_move h.wf hstep hr')
    · cases h.newcomer hG hstep hr' hr with
      | submitted _ _ hacc _ => exact hacc
      | foreign hforeign _ => exact absurd hm (by simp [hforeign])
      | stored _ hacc _ => exact hacc
  · intro r hr hm hreg hs hc cid d hf hd
    rcases Nat.lt_or_ge r m.nextRef with hr' | hr'
    · exact h.step_addressed hG hstep hr' ((hmine r hr').symm.trans hm) hreg hs hc hf hd
    · cases h.newcomer hG hstep hr' hr with
      | submitted _ _ _ hnot => exact absurd hreg hnot
      | foreign hforeign _ => exact absurd hm (by simp [hforeign])
      | stored _ _ hrun => exact absurd hs hrun

theorem tracked_create (config : MasterConfig) {ha : HaState} (hha : ha.Unhooked) :
    (create config ha).Tracked :=
  ⟨wf_create config ha,unhooked_create config hha,fun r hr => absurd hr (Nat.not_lt_zero r),
    fun r hr => absurd hr (Nat.not_lt_zero r),fun r hr => absurd hr (Nat.not_lt_zero r)⟩

/-- A task that no coroutine has is held by the waiting lists only. -/
theorem Settled.parts (h : m.Settled r) :
    m.held r = (m.pendingQueue ++ m.pendingRetry).count r ∧ m.committing r = 0 := by
  have hzero : ∀ part : Frame → List Ref, (∀ cid f, m.frames.get? cid = some f → r ∉ part f) →
      (m.weigh fun f => (part f).count r) = 0 := fun part hpart =>
    Dict.sumOver_eq_zero_iff.mpr fun cid f hf => List.count_eq_zero.mpr (hpart cid f hf)
  refine ⟨?_,hzero Frame.commits fun cid f hf => (h cid f hf).2⟩
  rw [held,hzero Frame.holds fun cid f hf => (h cid f hf).1,List.count_append]
  rfl

theorem Tracked.queued_once (h : m.Tracked) (hr : r < m.nextRef) (hm : m.responsible r = true)
    (hs : m.Settled r) (hheld : m.held r = 1) :
    ((m.pendingQueue ++ m.pendingRetry).filter fun x =>
      decide ((m.objects x).taskId = (m.objects r).taskId)) = [r] := by
  have hp : m.Present r := .of_held (by omega)
  have hsame : ∀ x ∈ m.pendingQueue ++ m.pendingRetry,
      decide ((m.objects x).taskId = (m.objects r).taskId) = decide (x = r) := by
    intro x hx
    refine decide_eq_decide.mpr ⟨fun hid => ?_,fun hxr => by rw [hxr]⟩
    have hcount : 0 < m.pendingQueue.count x+m.pendingRetry.count x := by
      rw [← List.count_append]
      exact List.count_pos_iff.mpr hx
    have hlt : x < m.nextRef := by
      rcases List.mem_append.mp hx with hx | hx
      · exact h.wf.queue_lt x hx
      · exact h.wf.retry_lt x hx
    refine h.unique r hr x hlt hm hp (.of_held ?_) hid
    simp only [held]
    omega
  rw [List.filter_congr hsame,List.filter_eq,← hs.parts.1,hheld]
  rfl

theorem Tracked.one_dispatch (h : m.Tracked) (hr : r < m.nextRef) (hm : m.responsible r = true)
    (hlive : m.live r = 1) : ∃ cid d, m.frames.get? cid = some (.dispatch d) ∧ d.task = r ∧
      ∀ cid' d', m.frames.get? cid' = some (.dispatch d') →
        (m.objects d'.task).taskId = (m.objects r).taskId → cid' = cid := by
  have hex : ∃ cid d, m.frames.get? cid = some (.dispatch d) ∧ d.task = r := by
    by_contra hnone
    have hzero : (m.weigh fun f => f.dispatches.count r) = 0 := by
      refine Dict.sumOver_eq_zero_iff.mpr fun cid f hf => List.count_eq_zero.mpr fun hx => ?_
      cases f with
      | dispatch d => exact hnone ⟨cid,d,hf,(List.mem_singleton.mp hx).symm⟩
      | _ => cases hx
    exact absurd (hlive.symm.trans hzero) one_ne_zero
  obtain ⟨cid,d,hf,hd⟩ := hex
  refine ⟨cid,d,hf,hd,fun cid' d' hf' hid => ?_⟩
  have hlt := h.wf.ref_lt hf' (x := d'.task) (by simp [Frame.refs])
  have hd' : d'.task = r := h.unique r hr d'.task hlt hm (.of_live (by omega)) (.of_live (live_pos hf')) hid
  by_contra hne
  have hrest : (m.endFrame cid).weigh (fun f => f.dispatches.count r) = 0 := by
    have hend := weigh_endFrame hf fun f => f.dispatches.count r
    have hone : (Frame.dispatch d).dispatches.count r = 1 := by simp [Frame.dispatches,hd]
    rw [hone,show (m.weigh fun f => f.dispatches.count r) = 1 from hlive] at hend
    omega
  have hother : (m.endFrame cid).frames.get? cid' = some (.dispatch d') := by
    simp only [ClusterMaster.endFrame,Dict.get?_erase,if_neg hne,hf']
  have hzero := Dict.sumOver_eq_zero_iff.mp hrest cid' _ hother
  simp [Frame.dispatches,hd'] at hzero

/-- A task that waits is in one waiting list, once, and one that runs is with one dispatch, which
addresses its nodes. -/
def Cared (m : ClusterMaster) (r : Ref) : Prop :=
  ((m.objects r).status = .pending → ((m.pendingQueue ++ m.pendingRetry).filter fun x =>
      decide ((m.objects x).taskId = (m.objects r).taskId)) = [r]) ∧
    ((m.objects r).status = .running → ∃ cid d, m.frames.get? cid = some (.dispatch d) ∧
      d.task = r ∧ m.Addresses d ∧ ∀ cid' d', m.frames.get? cid' = some (.dispatch d') →
        (m.objects d'.task).taskId = (m.objects r).taskId → cid' = cid)

/-- A task that waits is in just one of the two lists, and once; a task that runs has just one
live dispatch, and it is addressed to the nodes the task has. -/
theorem no_orphaned_work {config : MasterConfig} {ha : HaState} (hha : ha.Configured)
    (hrun : machine.Reaches KeepsTrack (create config ha) m) {id : TaskId}
    (hid : m.tasks.get? id = some r) (hm : m.responsible r = true) (hs : m.Settled r) : m.Cared r := by
  have h : m.Tracked :=
    hrun.invariant (fun _ _ _ hx hG hstep => hx.step hG hstep) (tracked_create config hha.unhooked)
  have hr := h.wf.reg_lt hid
  have hreg := h.wf.registered_of_get? hid
  have hacc := h.accounted r hr hm
  refine ⟨fun hpending => ?_,fun hrunning => ?_⟩
  · have hheld : ((m.held r : ℕ) : ℤ) = 1 := hacc.pending hreg hpending
    exact h.queued_once hr hm hs (by exact_mod_cast hheld)
  · obtain ⟨-,-,hlast⟩ := hacc.running hreg hrunning
    have hnone : ¬1 ≤ (m.view r).committing := by
      simp [view,hs.parts.2]
    have hlive : ((m.live r : ℕ) : ℤ) = 1 := hlast.resolve_left hnone
    obtain ⟨cid,d,hf,hd,hone⟩ := h.one_dispatch hr hm (by exact_mod_cast hlive)
    exact ⟨cid,d,hf,hd,h.addressed r hr hm hreg hrunning hs.parts.2 cid d hf hd,hone⟩

instance (m : ClusterMaster) (r : Ref) : Decidable (m.Present r) := by
  unfold Present TaskView.Present view Registered
  infer_instance

instance (m : ClusterMaster) (f : Frame) : Decidable (m.FrameKeepsTrack f) := by
  unfold FrameKeepsTrack Registered
  split <;> infer_instance

instance (m : ClusterMaster) (ev : MasterEvent) : Decidable (m.KeepsTrack ev) := by
  apply MasterEvent.casesOn (motive := fun ev => Decidable (m.KeepsTrack ev)) ev <;> intros <;>
    dsimp only [KeepsTrack] <;> infer_instance

instance (m : ClusterMaster) (r : Ref) : Decidable (m.Settled r) :=
  decidable_of_iff (∀ p ∈ m.frames.entries, r ∉ p.2.holds ∧ r ∉ p.2.commits)
    ⟨fun h cid f hf => h (cid,f) (Dict.get?_eq_some_iff.mp hf),
      fun h p hp => h p.1 p.2 (Dict.get?_eq_some_iff.mpr hp)⟩

theorem no_orphaned_work_assigned :
    ∃ m, machine.Reaches KeepsTrack (create defaultConfig HaState.create) m ∧
      m.tasks.get? "t1" = some 0 ∧ (m.objects 0).status = .running ∧ m.responsible 0 = true ∧
      m.Settled 0 ∧ m.Cared 0 := by
  have hexec : ((machine.restrict KeepsTrack).exec (create defaultConfig HaState.create)
      assignedRun).any (fun m => decide (m.tasks.get? "t1" = some 0 ∧
        (m.objects 0).status = .running ∧ m.responsible 0 = true ∧ m.Settled 0)) = true := by
    decide +kernel
  obtain ⟨m,hm,h⟩ := (Option.any_eq_true _ _).mp hexec
  obtain ⟨hid,hs,hmine,hsettled⟩ := of_decide_eq_true h
  have hrun := (Machine.Reaches.of_exec hm).of_restrict
  exact ⟨m,hrun,hid,hs,hmine,hsettled,no_orphaned_work .single hrun hid hmine hsettled⟩

def standby : HaState := HaState.create.setupElection "m2" 0 ["m1"] none 0 0

/-- The leader sends a waiting task to its standby, which is then elected. -/
def takeoverRun : List MasterEvent :=
  [.receiveSyncedTasks [(plainTask "t1").toDict],.election (.tick 100 0),.election (.writeDone 0),
    .election .resume,.election (.voteResponse ⟨1,true,"m1"⟩),.election (.writeDone 1),
    .election .resume]

/-- The new leader has a waiting task that is in no list; the running task has no dispatch that
addresses its node. -/
theorem tasks_are_orphaned :
    (¬∀ (ha : HaState) (m : ClusterMaster) (r : Ref) (id : TaskId), ha.Configured →
      machine.Reaches Machine.Any (create defaultConfig ha) m → m.tasks.get? id = some r →
      m.responsible r = true → (∀ e, m.ha.election = some e → e.state = .leader) → m.Settled r →
      (m.objects r).status = .pending → m.Cared r) ∧
    ¬∀ (ha : HaState) (m : ClusterMaster) (r : Ref) (id : TaskId), ha.Configured →
      machine.Reaches Machine.Any (create defaultConfig ha) m → m.tasks.get? id = some r →
      m.responsible r = true → m.Settled r → (m.objects r).status = .running → m.Cared r := by
  constructor
  · intro h
    have hexec : (machine.exec (create defaultConfig standby) takeoverRun).any (fun m =>
        decide (m.tasks.get? "t1" = some 0 ∧ m.responsible 0 = true ∧
          (m.ha.election.all fun e => decide (e.state = .leader)) = true ∧ m.Settled 0 ∧
          (m.objects 0).status = .pending ∧ m.pendingQueue = [] ∧ m.pendingRetry = [])) = true := by
      decide +kernel
    obtain ⟨m,hm,hs⟩ := (Option.any_eq_true _ _).mp hexec
    obtain ⟨hid,hmine,hleader,hsettled,hpending,hqueue,hretry⟩ := of_decide_eq_true hs
    have hcared := h standby m 0 "t1" (.election _ _ _ _ _ _) (Machine.Reaches.of_exec hm) hid hmine
      (fun e he => by simpa [he] using hleader) hsettled hpending
    have hone := hcared.1 hpending
    simp [hqueue,hretry] at hone
  · intro h
    have hexec : (machine.exec (create defaultConfig HaState.create) timedOutRun).any (fun m =>
        decide (m.tasks.get? "t1" = some 0 ∧ m.responsible 0 = true ∧ m.Settled 0 ∧
          (m.objects 0).status = .running ∧ (m.objects 0).assignedNodes = ["n2"]) &&
        m.frames.entries.all fun p =>
          p.2.dispatch?.all fun d => decide (d.nodeIds = ["n1"] ∧ d.pc ≠ .start)) = true := by
      decide +kernel
    obtain ⟨m,hm,hs⟩ := (Option.any_eq_true _ _).mp hexec
    simp only [Bool.and_eq_true,decide_eq_true_eq,List.all_eq_true] at hs
    obtain ⟨⟨hid,hmine,hsettled,hrunning,hnodes⟩,hframes⟩ := hs
    obtain ⟨cid,d,hf,hd,⟨hpc,-⟩,-⟩ := (h HaState.create m 0 "t1" .single (Machine.Reaches.of_exec hm)
      hid hmine hsettled hrunning).2 hrunning
    obtain ⟨hold,hstart⟩ := of_decide_eq_true (hframes _ (Dict.get?_eq_some_iff.mp hf))
    rw [hd,hnodes,hold] at hpc
    exact absurd (hpc.resolve_left hstart) (by decide)

end ClusterMaster
end FusionMultiNodes

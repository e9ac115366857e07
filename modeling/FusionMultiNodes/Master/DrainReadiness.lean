import FusionMultiNodes.Master.Constraints
import FusionMultiNodes.Master.Requests

/-! `drain_status`, and what happens on a node after it was reported ready to be taken down. -/
namespace FusionMultiNodes

structure DrainStatus where
  nodeId : NodeId
  draining : Bool
  inFlight : ℕ
  ready : Bool
  longTaskActive : Bool
  deriving DecidableEq

namespace ClusterMaster

variable (m : ClusterMaster)

def inFlightOn (n : NodeId) : List ClusterTask :=
  (m.tasks.values.map m.objects).filter fun t =>
    decide (t.status = .running) && decide (n ∈ t.assignedNodes)

def FreeOf (n : NodeId) : Prop :=
  ∀ r, m.Registered r → (m.objects r).status = .running → n ∉ (m.objects r).assignedNodes

/-- The event undrains the node, in a record of the leader too, or registers it anew. -/
def withdraws (n : NodeId) : MasterEvent → Bool
  | .setNodeDraining id draining => decide (id = n) && !draining
  | .registerNode info now => decide (info.nodeId = n) && !(m.isNodeBanned n now)
  | .receiveSyncedState infos _ _ =>
    infos.any fun info => decide (info.nodeId = n) && !info.draining
  | _ => false

/-- The node that the local path of `assign_task` gives its task. -/
def localNode? : MasterEvent → Option NodeId
  | .resume cid now =>
    match m.frames.get? cid with
    | some (.assign r (.localCommit requiredMem) _) =>
      if m.admits r now (.localCommit requiredMem) then some (m.objects r).preferredNodeId else none
    | _ => none
  | _ => none

def launches? : MasterEvent → Option Ref
  | .resume cid _ =>
    match m.frames.get? cid with
    | some (.assign r .trigger _) =>
      if (m.objects r).assignedNodes = [] ∨ m.hasHandle r = true then none else some r
    | _ => none
  | _ => none

def turnsTo : MasterEvent → List NodeId
  | .resume cid _ =>
    match m.frames.get? cid with
    | some (.dispatch d) =>
      match d.pc with
      | .snapshot =>
        (if (m.objects d.task).mode = .pipeline then d.nodeIds.take 1 else d.nodeIds).filter
          m.nodes.contains
      | _ => []
    | _ => []
  | .reply cid i reply _ =>
    match m.frames.get? cid with
    | some (.dispatch d) =>
      match d.pc, d.nodeIds[i]?, reply with
      | .pipeline present idx _ _, some n, .dict a =>
        if i = idx ∧ stepFailure n a = none then
          (d.nodeIds[idx+1]?).toList.filter fun n => decide (n ∈ present)
        else []
      | _, _, _ => []
    | _ => []
  | _ => []

end ClusterMaster

/-- A master, and what `drain_status` has said of its nodes. -/
structure DrainWorld where
  master : ClusterMaster
  drainLongTaskThreshold : ℚ
  /-- History variable: what the calls have returned. -/
  reports : List DrainStatus
  /-- History variable: the nodes that were reported ready, and have been neither undrained nor
  registered anew since. -/
  ready : List NodeId

inductive DrainEvent
  | master (ev : MasterEvent)
  | drainStatus (id : NodeId)

namespace DrainWorld

open ClusterMaster

variable (w : DrainWorld)

def start (config : MasterConfig) (ha : HaState) (threshold : ℚ) : DrainWorld :=
  ⟨.create config ha,threshold,[],[]⟩

/-- `drain_status`; `None` for an unknown node. -/
def drainStatus (id : NodeId) : Option DrainStatus :=
  (w.master.nodes.get? id).map fun n =>
    let running := w.master.inFlightOn id
    { nodeId := id
      draining := n.draining
      inFlight := running.length
      ready := n.draining && decide (running.length = 0)
      longTaskActive := running.any fun t => decide (w.drainLongTaskThreshold < t.timeoutSeconds) }

def report (status : DrainStatus) : DrainWorld :=
  { w with
    reports := w.reports ++ [status]
    ready := if status.ready then status.nodeId::w.ready else w.ready }

def afterMaster (ev : MasterEvent) (m : ClusterMaster) : DrainWorld :=
  { w with
    master := m
    ready := w.ready.filter fun n => !(w.master.withdraws n ev) }

/-- A call of `drain_status` is answered where nobody else is at work: its lock sections are never
contended either. -/
def step : DrainEvent → Option DrainWorld
  | .master ev => (loop.step w.master ev).map (w.afterMaster ev)
  | .drainStatus id =>
    if w.master.Yields none then some ((w.drainStatus id).elim w w.report) else none

def machine : Machine DrainWorld DrainEvent := ⟨step⟩

/-- After a step no task runs on a node that was reported ready, and the step starts no dispatch
of a task with such a node and posts nothing to it. -/
structure Untouched (w w' : DrainWorld) : Prop where
  free : ∀ n ∈ w'.ready, w'.master.FreeOf n
  launched : ∀ n ∈ w.ready, ∀ r < w.master.nextRef,
    w.master.launched.count r < w'.master.launched.count r →
      n ∉ (w.master.objects r).assignedNodes
  posted : ∀ n ∈ w.ready, ∀ q ∈ w'.master.requests.drop w.master.requests.length, q.target ≠ n

/-- The local path of `assign_task` chooses no node that was reported ready, no task that names one
comes to its dispatch, and no dispatch comes to one. -/
structure LeavesAlone (w : DrainWorld) (ev : MasterEvent) : Prop where
  placed : ∀ n ∈ w.master.localNode? ev, n ∉ w.ready
  launched : ∀ r ∈ w.master.launches? ev, ∀ n ∈ (w.master.objects r).assignedNodes, n ∉ w.ready
  posted : ∀ n ∈ w.master.turnsTo ev, n ∉ w.ready

def StaysAway (w : DrainWorld) : DrainEvent → Prop
  | .master ev => w.LeavesAlone ev
  | .drainStatus _ => True

/-- The nodes that were reported ready are draining, no task runs on them, and no selection that
waits has one of them. -/
structure Clear (w : DrainWorld) : Prop where
  wf : w.master.Wf
  named : NamedNodes w.master.nodes
  free : ∀ n ∈ w.ready, w.master.FreeOf n
  draining : ∀ n ∈ w.ready, ∀ info, w.master.nodes.get? n = some info → info.draining = true
  selected : ∀ cid r requiredMem selected k,
    w.master.frames.get? cid = some (.assign r (.confirm requiredMem selected) k) →
      ∀ n ∈ selected, n ∉ w.ready

variable {w}

theorem clear_start (config : MasterConfig) (ha : HaState) (threshold : ℚ) :
    (start config ha threshold).Clear :=
  ⟨wf_create config ha,NamedNodes.empty,nofun,nofun,nofun⟩

end DrainWorld

namespace ClusterMaster

variable {m m' : ClusterMaster} {r : Ref} {ev : MasterEvent}

theorem targets_stepRequests (d : Dispatch) (present : List NodeId) (idx : ℕ) :
    (m.stepRequests d present idx).map ExecuteRequest.target =
      (d.nodeIds[idx]?).toList.filter fun n => decide (n ∈ present) := by
  unfold stepRequests
  cases d.nodeIds[idx]? with
  | none => rfl
  | some n => by_cases hpresent : n ∈ present <;> simp [hpresent,stepRequest,executeRequest]

theorem targets_dispatchRequests (d : Dispatch) :
    (m.dispatchRequests d).map ExecuteRequest.target =
      match d.pc with
      | .snapshot =>
        (if (m.objects d.task).mode = .pipeline then d.nodeIds.take 1 else d.nodeIds).filter
          m.nodes.contains
      | _ => [] := by
  obtain ⟨task,attempt,nodeIds,pc⟩ := d
  cases pc with
  | snapshot =>
    simp only [dispatchRequests]
    by_cases hmode : (m.objects task).mode = .pipeline
    · rw [if_pos hmode,if_pos hmode,targets_stepRequests]
      cases nodeIds with
      | nil => rfl
      | cons n rest =>
        by_cases hn : m.nodes.contains n = true <;> simp [hn]
    · rw [if_neg hmode,if_neg hmode,List.map_map]
      exact List.map_id _
  | _ => rfl

theorem targets_replyRequests (d : Dispatch) (i : ℕ) (reply : AgentReply) :
    (m.replyRequests d i reply).map ExecuteRequest.target =
      match d.pc, d.nodeIds[i]?, reply with
      | .pipeline present idx _ _, some n, .dict a =>
        if i = idx ∧ stepFailure n a = none then
          (d.nodeIds[idx+1]?).toList.filter fun n => decide (n ∈ present)
        else []
      | _, _, _ => [] := by
  obtain ⟨task,attempt,nodeIds,pc⟩ := d
  cases pc with
  | pipeline present idx hidden steps =>
    unfold replyRequests
    dsimp only
    cases nodeIds[i]? with
    | none => rfl
    | some n =>
      cases reply with
      | dict a =>
        dsimp only
        by_cases hok : i = idx ∧ stepFailure n a = none
        · rw [if_pos hok,if_pos hok,targets_stepRequests]
        · rw [if_neg hok,if_neg hok]
          rfl
      | _ => rfl
  | _ => rfl

theorem targets_sends (m : ClusterMaster) (ev : MasterEvent) :
    (m.sends ev).map ExecuteRequest.target = m.turnsTo ev := by
  cases ev with
  | resume cid now =>
    rw [sends,turnsTo]
    cases m.frames.get? cid with
    | none => rfl
    | some f =>
      cases f with
      | dispatch d => exact targets_dispatchRequests d
      | _ => rfl
  | reply cid i reply now =>
    rw [sends,turnsTo]
    cases m.frames.get? cid with
    | none => rfl
    | some f =>
      cases f with
      | dispatch d => exact targets_replyRequests d i reply
      | _ => rfl
  | _ => rfl

theorem launches_of_step (hw : m.Wf) (h : machine.step m ev = some m') (hr : r < m.nextRef)
    (hlt : m.launched.count r < m'.launched.count r) : m.launches? ev = some r := by
  have hmove := step_move hw h hr
  have hv : (m.view r).launched < (m'.view r).launched := Int.ofNat_lt.mpr hlt
  generalize m'.view r = v at hmove hv
  cases hmove with
  | launch hf hne hfree =>
    simp only [launches?,hf]
    rw [if_neg]
    rintro (hnil | hhandle)
    · exact hne hnil
    · exact absurd (hfree.symm.trans hhandle) Bool.false_ne_true
  | _ => exact absurd hv (lt_irrefl _)

theorem launches?_eq_some (hr : m.launches? ev = some r) :
    ∃ cid now k, ev = .resume cid now ∧ m.frames.get? cid = some (.assign r .trigger k) ∧
      ¬((m.objects r).assignedNodes = [] ∨ m.hasHandle r = true) := by
  unfold launches? at hr
  split at hr
  · split at hr
    · next cid now _ r' k hf =>
      obtain ⟨hnot,heq⟩ := Option.ite_none_left_eq_some.mp hr
      cases heq
      exact ⟨cid,now,k,rfl,hf,hnot⟩
    · exact nomatch hr
  · exact nomatch hr

theorem launched_of_launches (h : machine.step m ev = some m') (hr : m.launches? ev = some r) :
    m.launched.count r < m'.launched.count r := by
  obtain ⟨cid,now,k,rfl,hf,hnot⟩ := launches?_eq_some hr
  have hstep : (m.frames.get? cid).bind (m.resumeFrame cid now) = some m' := h
  rw [hf] at hstep
  cases hstep
  have hlaunched : (m.triggerDispatch r).launched = m.launched ++ [r] := by
    rw [not_or] at hnot
    rw [triggerDispatch,if_neg hnot.1]
    exact congrArg ClusterMaster.launched (if_neg hnot.2)
  show m.launched.count r < (m.triggerDispatch r).launched.count r
  rw [hlaunched,List.count_append,List.count_singleton_self]
  exact Nat.lt_succ_self _

end ClusterMaster

namespace DrainWorld

open ClusterMaster

variable {w w' : DrainWorld} {m : ClusterMaster} {ev : MasterEvent} {e : DrainEvent} {n : NodeId}

theorem ready_afterMaster (hn : n ∈ (w.afterMaster ev m).ready) :
    n ∈ w.ready ∧ w.master.withdraws n ev = false := by
  obtain ⟨hready,hkept⟩ := List.mem_filter.mp hn
  exact ⟨hready,by simpa using hkept⟩

theorem ready_of_resume (cid : ℕ) (now : ℚ) : (w.afterMaster (.resume cid now) m).ready = w.ready :=
  List.filter_true _

theorem localNode?_eq_some (hn : w.master.localNode? ev = some n) :
    ∃ cid now r requiredMem k, ev = .resume cid now ∧
      w.master.frames.get? cid = some (.assign r (.localCommit requiredMem) k) ∧
      n = (w.master.objects r).preferredNodeId ∧ w.master.placed? ev = some (r,[n]) := by
  unfold localNode? at hn
  split at hn
  · split at hn
    · next cid now _ r requiredMem k hf =>
      obtain ⟨hadmits,heq⟩ := Option.ite_none_right_eq_some.mp hn
      cases heq
      refine ⟨cid,now,r,requiredMem,k,rfl,hf,rfl,?_⟩
      simp only [placed?,hf,if_pos hadmits]
      rfl
    · cases hn
  · cases hn

/-- The nodes that a step gives a task are neither reported ready nor given on the local path. -/
theorem Clear.not_ready_of_placed (hc : w.Clear) {r : Ref} {ns : List NodeId}
    (hp : w.master.placed? ev = some (r,ns)) (hlocal : ∀ n ∈ w.master.localNode? ev, n ∉ w.ready)
    (hn : n ∈ ns) : n ∉ w.ready := by
  obtain ⟨cid,now,pc,k,rfl,hf,hcommits⟩ := placed?_eq_some_iff.mp hp
  obtain ⟨hadmits,hns⟩ := commits_iff.mp hcommits
  obtain ⟨-,hpc⟩ := hcommits
  cases pc with
  | localCommit requiredMem =>
    obtain ⟨-,rfl⟩ := hpc
    apply hlocal
    rw [List.mem_singleton.mp hn]
    simp only [localNode?,hf,if_pos hadmits,Option.mem_def]
  | confirm requiredMem selected =>
    rw [hns] at hn
    rcases mem_confirmedNodes.mp hn with ⟨hselected,-⟩ | ⟨-,info,hinfo,rfl⟩
    · exact hc.selected cid r requiredMem selected k hf n hselected
    · intro hready
      have hget := (backup_open hc.named hinfo).1
      obtain ⟨-,hfree⟩ :=
        List.mem_filter.mp ((w.master.selectFreeNodesLocked_subperm ..).subset hinfo)
      simp only [Bool.and_eq_true,Bool.not_eq_true'] at hfree
      exact Bool.false_ne_true (hfree.1.1.2.symm.trans (hc.draining _ hready info hget))
  | _ => exact absurd hpc id

theorem untouched_master_iff (hc : w.Clear) (h : ClusterMaster.machine.step w.master ev = some m) :
    w.Untouched (w.afterMaster ev m) ↔ w.LeavesAlone ev := by
  have hrequests : m.requests.drop w.master.requests.length = w.master.sends ev := by
    rw [step_requests h,List.drop_left]
  constructor
  · intro hu
    refine ⟨?_,?_,?_⟩
    · intro n hn hready
      obtain ⟨cid,now,r,-,-,rfl,-,-,hp⟩ := localNode?_eq_some hn
      obtain ⟨hreg,hrun,hnodes⟩ := step_placed h hp
      refine hu.free n ((ready_of_resume (m := m) cid now).symm ▸ hready) r hreg hrun ?_
      rw [show (w.afterMaster (.resume cid now) m).master = m from rfl,hnodes]
      exact List.mem_singleton_self n
    · intro r hr n hn hready
      obtain ⟨cid,now,k,-,hf,-⟩ := launches?_eq_some hr
      have hlt := hc.wf.refs_lt cid _ hf r List.mem_cons_self
      exact hu.launched n hready r hlt (launched_of_launches h hr) hn
    · intro n hn hready
      rw [← targets_sends] at hn
      obtain ⟨q,hq,rfl⟩ := List.mem_map.mp hn
      exact hu.posted _ hready q (hrequests ▸ hq) rfl
  · intro hl
    refine ⟨?_,?_,?_⟩
    · intro n hn r hreg hrun hmem
      have hready := (ready_afterMaster hn).1
      rcases running_of_step hc.wf h hreg hrun with ⟨hreg₀,hrun₀,hnodes⟩ | hp
      · exact hc.free n hready r hreg₀ hrun₀ (hnodes ▸ hmem)
      · exact hc.not_ready_of_placed hp hl.placed hmem hready
    · intro n hready r hlt hcount hmem
      exact hl.launched r (launches_of_step hc.wf h hlt hcount) n hmem hready
    · intro n hready q hq htarget
      rw [show (w.afterMaster ev m).master = m from rfl,hrequests] at hq
      refine hl.posted n ?_ hready
      rw [← targets_sends,← htarget]
      exact List.mem_map_of_mem hq

/-- A node that was reported ready goes on draining. -/
theorem Clear.draining_step (hc : w.Clear) (h : ClusterMaster.machine.step w.master ev = some m) :
    ∀ n ∈ (w.afterMaster ev m).ready, ∀ info, m.nodes.get? n = some info → info.draining = true := by
  intro n hn info hget
  obtain ⟨hready,hkept⟩ := ready_afterMaster hn
  cases hev : ev.setsNode with
  | false =>
    obtain ⟨info₀,hinfo₀,hkeeps⟩ := step_keepsNodes h hev n info hget
    exact hkeeps.draining.trans (hc.draining n hready info₀ hinfo₀)
  | true =>
    rcases get?_of_setsNode h hev hget with
      hold | ⟨draining,_,rfl,-,rfl⟩ | ⟨new,now,rfl,hid,hban,-⟩ | ⟨infos,_,_,rfl,hmem,hid⟩
    · exact hc.draining n hready info hold
    · simpa [withdraws] using hkept
    · rw [withdraws,hban] at hkept
      simp [hid] at hkept
    · simp only [withdraws,List.any_eq_false,Bool.and_eq_true,decide_eq_true_eq,
        Bool.not_eq_true',not_and,Bool.not_eq_false] at hkept
      exact hkept info hmem hid

theorem Clear.master_step (hc : w.Clear) (h : loop.step w.master ev = some m)
    (hl : w.LeavesAlone ev) : (w.afterMaster ev m).Clear := by
  have hstep := (loop_step h).2
  refine ⟨step_wf hc.wf hstep,step_named hc.named hstep,
    ((untouched_master_iff hc hstep).mpr hl).free,hc.draining_step hstep,?_⟩
  intro cid r requiredMem selected k hf n hn hready
  rcases loop_confirm h hf with ⟨-,hf₀⟩ | ⟨now,_,_,-,rfl,-⟩
  · exact hc.selected cid r requiredMem selected k hf₀ n hn (ready_afterMaster hready).1
  · obtain ⟨info,hget,hopen⟩ := selected_open hc.named hn
    have hdraining := hc.draining n (ready_afterMaster hready).1 info hget
    exact Bool.false_ne_true (hopen.notDraining.symm.trans hdraining)

theorem freeOf_of_inFlight (hw : w.master.Wf) (hn : (w.master.inFlightOn n).length = 0) :
    w.master.FreeOf n := by
  intro r hreg hrun hmem
  have hmem' : w.master.objects r ∈ w.master.inFlightOn n :=
    List.mem_filter.mpr ⟨List.mem_map_of_mem (hw.registered_iff.mpr hreg),by simp [hrun,hmem]⟩
  rw [List.length_eq_zero_iff.mp hn] at hmem'
  cases hmem'

/-- A report touches nothing, and names a node that no task runs on. -/
theorem Clear.report_step (hc : w.Clear) (hy : w.master.Yields none) (id : NodeId) :
    w.Untouched ((w.drainStatus id).elim w w.report) ∧
      ((w.drainStatus id).elim w w.report).Clear := by
  have hclear : ((w.drainStatus id).elim w w.report).Clear := by
    cases hget : w.master.nodes.get? id with
    | none =>
      rw [drainStatus,hget]
      exact hc
    | some info =>
      rw [drainStatus,hget]
      have hnew : ∀ n ∈ (w.report ⟨id,info.draining,(w.master.inFlightOn id).length,
          info.draining && decide ((w.master.inFlightOn id).length = 0),
          (w.master.inFlightOn id).any fun t =>
            decide (w.drainLongTaskThreshold < t.timeoutSeconds)⟩).ready,
          n ∈ w.ready ∨ (n = id ∧ info.draining = true ∧ (w.master.inFlightOn id).length = 0) := by
        intro n hn
        simp only [report] at hn
        split_ifs at hn with hready
        · rcases List.mem_cons.mp hn with rfl | hn
          · simp only [Bool.and_eq_true,decide_eq_true_eq] at hready
            exact .inr ⟨rfl,hready⟩
          · exact .inl hn
        · exact .inl hn
      refine ⟨hc.wf,hc.named,fun n hn => ?_,fun n hn info' hinfo' => ?_,?_⟩
      · rcases hnew n hn with hold | ⟨rfl,-,hnone⟩
        · exact hc.free n hold
        · exact freeOf_of_inFlight hc.wf hnone
      · rcases hnew n hn with hold | ⟨rfl,hdraining,-⟩
        · exact hc.draining n hold info' hinfo'
        · obtain rfl := Option.some.inj (hget.symm.trans hinfo')
          exact hdraining
      · -- a selection would be confirmed before anybody is answered
        intro cid r requiredMem selected k hf
        cases hy.runs hf rfl
  have hmaster : ((w.drainStatus id).elim w w.report).master = w.master := by
    cases w.drainStatus id <;> rfl
  refine ⟨⟨?_,fun n _ r _ hlt => ?_,fun n _ q hq => ?_⟩,hclear⟩
  · exact hclear.free
  · rw [hmaster] at hlt
    exact absurd hlt (lt_irrefl _)
  · rw [hmaster,List.drop_length] at hq
    cases hq

theorem Clear.step (hc : w.Clear) (h : w.step e = some w') :
    (w.Untouched w' ↔ w.StaysAway e) ∧ (w.StaysAway e → w'.Clear) := by
  cases e with
  | master ev =>
    obtain ⟨m,hm,rfl⟩ := Option.map_eq_some_iff.mp h
    exact ⟨untouched_master_iff hc (loop_step hm).2,hc.master_step hm⟩
  | drainStatus id =>
    obtain ⟨hy,h⟩ := Option.ite_none_right_eq_some.mp h
    obtain rfl := Option.some.inj h
    obtain ⟨huntouched,hclear⟩ := hc.report_step hy id
    exact ⟨iff_of_true huntouched trivial,fun _ => hclear⟩

/-- Along every run a node that was reported ready stays out of use, if and only if it is left
alone by the local path and by what was under way. -/
theorem drain_ready_stable_iff (config : MasterConfig) (ha : HaState) (threshold : ℚ)
    (es : List DrainEvent) :
    machine.Along (fun w _ w' => w.Untouched w') (start config ha threshold) es ↔
      machine.Along (fun w e _ => w.StaysAway e) (start config ha threshold) es :=
  Machine.along_congr_of_invariant (fun _ _ _ hc h => (hc.step h).1)
    (fun _ _ _ hc h => (hc.step h).2) (clear_start config ha threshold) es

/-- The node is drained and reported ready, and a light task that prefers it comes in. -/
def preferredMeanwhile : List DrainEvent :=
  [.master (.registerNode (worker "n1") 0),.master (.resume 0 0),
    .master (.setNodeDraining "n1" true),.drainStatus "n1",
    .master (.submit { plainTask "t1" with preferredNodeId := "n1" }),.master (.resume 1 1),
    .master (.resume 1 1),.master (.resume 1 1)]

theorem local_task_on_ready_node : ¬∀ (config : MasterConfig) (ha : HaState) (threshold : ℚ)
    (es : List DrainEvent),
    machine.Along (fun w _ w' => w.Untouched w') (start config ha threshold) es := by
  intro h
  have hexec : (machine.exec (start defaultConfig .create 300) preferredMeanwhile).any (fun w =>
      (machine.step w (.master (.resume 1 1))).any fun w' => decide (w'.ready = ["n1"] ∧
        w'.master.tasks.get? (w'.master.objects 0).taskId = some 0 ∧
        (w'.master.objects 0).status = .running ∧
        (w'.master.objects 0).assignedNodes = ["n1"])) = true := by
    decide +kernel
  obtain ⟨w,hw,hexec⟩ := (Option.any_eq_true _ _).mp hexec
  obtain ⟨w',hw',hexec⟩ := (Option.any_eq_true _ _).mp hexec
  obtain ⟨hready,hreg,hrun,hnodes⟩ := of_decide_eq_true hexec
  have huntouched := (h _ _ _ (preferredMeanwhile ++ [.master (.resume 1 1)])).last hw hw'
  have hmem : "n1" ∈ w'.ready := hready ▸ List.mem_singleton_self _
  exact huntouched.free "n1" hmem 0 hreg hrun (hnodes ▸ List.mem_singleton_self _)

end DrainWorld
end FusionMultiNodes

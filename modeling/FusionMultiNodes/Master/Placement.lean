import FusionMultiNodes.Master.Quota

/-! The nodes a task gets when a step sets it to `RUNNING`. -/
namespace FusionMultiNodes
namespace ClusterMaster

open QuotaHistory

variable {m m' : ClusterMaster} {r : Ref} {ns : List NodeId} {ev : MasterEvent} {now : ℚ}
  {pc : AssignPc}

/-- The nodes the lock section at `pc` gives the task, if it assigns it. -/
def chosenNodes (m : ClusterMaster) (r : Ref) (now : ℚ) : AssignPc → List NodeId
  | .localCommit _ => [(m.objects r).preferredNodeId]
  | .confirm requiredMem selected => m.confirmedNodes (m.objects r) requiredMem selected now
  | _ => []

/-- The task that a step sets to `RUNNING`, and its nodes. -/
def placed? (m : ClusterMaster) : MasterEvent → Option (Ref × List NodeId)
  | .resume cid now =>
    match m.frames.get? cid with
    | some (.assign r pc _) => if m.admits r now pc then some (r,m.chosenNodes r now pc) else none
    | _ => none
  | _ => none

theorem commits_iff : m.Commits r now pc ns ↔
    m.admits r now pc = true ∧ ns = m.chosenNodes r now pc := by
  constructor
  · intro hc
    refine ⟨admits_of_commits hc,?_⟩
    obtain ⟨-,hpc⟩ := hc
    cases pc with
    | localCommit requiredMem => exact hpc.2
    | confirm requiredMem selected => exact hpc.2.1
    | _ => exact absurd hpc id
  · rintro ⟨hadmits,rfl⟩
    obtain ⟨ns,hc⟩ := commits_of_admits hadmits
    have hns : ns = m.chosenNodes r now pc := by
      obtain ⟨-,hpc⟩ := hc
      cases pc with
      | localCommit requiredMem => exact hpc.2
      | confirm requiredMem selected => exact hpc.2.1
      | _ => exact absurd hpc id
    exact hns ▸ hc

theorem placed?_eq_some_iff : m.placed? ev = some (r,ns) ↔
    ∃ cid now pc k, ev = .resume cid now ∧ m.frames.get? cid = some (.assign r pc k) ∧
      m.Commits r now pc ns := by
  constructor
  · intro h
    unfold placed? at h
    split at h
    · split at h
      · next cid now _ r' pc k hf =>
        obtain ⟨hadmits,heq⟩ := Option.ite_none_right_eq_some.mp h
        cases heq
        exact ⟨cid,now,pc,k,rfl,hf,commits_iff.mpr ⟨hadmits,rfl⟩⟩
      · exact nomatch h
    · exact nomatch h
  · rintro ⟨cid,now,pc,k,rfl,hf,hc⟩
    obtain ⟨hadmits,rfl⟩ := commits_iff.mp hc
    simp only [placed?,hf,if_pos hadmits]

theorem step_placed (h : machine.step m ev = some m') (hp : m.placed? ev = some (r,ns)) :
    m'.Registered r ∧ (m'.objects r).status = .running ∧ (m'.objects r).assignedNodes = ns := by
  obtain ⟨cid,now,pc,k,rfl,hf,hc⟩ := placed?_eq_some_iff.mp hp
  obtain ⟨f,p,hstill,rfl⟩ := step_commits h hf hc
  have hself := view_commit_self m r ns now
  have hobjects : (p.setFrame cid f).objects = (m.commit r ns now).objects := hstill.objects
  have htasks : (p.setFrame cid f).tasks = (m.commit r ns now).tasks := hstill.tasks
  refine ⟨?_,?_,?_⟩
  · rw [Registered,hobjects,htasks]
    exact (congrArg TaskView.registered hself).mpr trivial
  · rw [hobjects]
    exact congrArg TaskView.status hself
  · rw [hobjects]
    exact congrArg TaskView.nodes hself

/-- A task that runs after a step ran on the same nodes before it, or is given them in it. -/
theorem running_of_step (hw : m.Wf) (h : machine.step m ev = some m') (hreg : m'.Registered r)
    (hrun : (m'.objects r).status = .running) :
    (m.Registered r ∧ (m.objects r).status = .running ∧
        (m'.objects r).assignedNodes = (m.objects r).assignedNodes) ∨
      m.placed? ev = some (r,(m'.objects r).assignedNodes) := by
  have hv : (m'.view r).status = .running ∧ (m'.view r).registered ∧
      (m'.view r).nodes = (m'.objects r).assignedNodes := ⟨hrun,hreg,rfl⟩
  rcases Nat.lt_or_ge r m.nextRef with hlt | hge
  · have hmove := step_move hw h hlt
    generalize m'.view r = v at hmove hv
    generalize (m'.objects r).assignedNodes = ns at hv ⊢
    have hkeep : (m.view r).status = .running ∧ (m.view r).registered ∧ (m.view r).nodes = ns →
        (m.Registered r ∧ (m.objects r).status = .running ∧ ns = (m.objects r).assignedNodes) ∨
          m.placed? ev = some (r,ns) :=
      fun hm => .inl ⟨hm.2.1,hm.1,hm.2.2.symm⟩
    cases hmove with
    | assign hf hopen hc =>
      rw [← hv.2.2]
      exact .inr (placed?_eq_some_iff.mpr ⟨_,_,_,_,rfl,hf,hc⟩)
    | stay | skip | refuse | launch | noLaunch | unqueue | endLive => exact hkeep hv
    | park | retry | giveUp | exhaust | requeue | abandon | strand | cancel | migrate | degrade =>
      exact absurd hv.1 (by simp)
    | finish =>
      have hstatus := hv.1
      dsimp only at hstatus
      split_ifs at hstatus
    | complete =>
      have hstatus := hv.1
      dsimp only at hstatus
      split_ifs at hstatus
    | purge | displace | reset => exact absurd hv.2.1 (by simp)
  · have hbirth := step_birth hw h hge ((step_wf hw h).reg_lt hreg)
    exact absurd hrun (not_running_of_birth hbirth hreg)

end ClusterMaster
end FusionMultiNodes

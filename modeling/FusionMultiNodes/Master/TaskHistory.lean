import Mathlib.Logic.Function.Iterate
import FusionMultiNodes.Master.TaskSteps

/-! What a task keeps over a whole run: what was asked for, its budgets, and a model name that is
the one asked for with one step down the chain for each degradation. -/
namespace FusionMultiNodes

open Relation

/-- The attributes a submission gives a task, the model name aside. -/
structure SameRequest (t t' : ClusterTask) : Prop where
  taskId : t'.taskId = t.taskId
  name : t'.name = t.name
  mode : t'.mode = t.mode
  modelShards : t'.modelShards = t.modelShards
  createdAt : t'.createdAt = t.createdAt
  timeoutSeconds : t'.timeoutSeconds = t.timeoutSeconds
  user : t'.user = t.user
  requiredCapability : t'.requiredCapability = t.requiredCapability
  preferredNodeId : t'.preferredNodeId = t.preferredNodeId
  ownerMaster : t'.ownerMaster = t.ownerMaster
  pinnedNodeId : t'.pinnedNodeId = t.pinnedNodeId
  batchId : t'.batchId = t.batchId
  tier : t'.tier = t.tier
  priority : t'.priority = t.priority
  maxDegradations : t'.maxDegradations = t.maxDegradations
  subTasks : t'.subTasks = t.subTasks
  taskType : t'.taskType = t.taskType

/-- One step down the degradation chain; a name without a size of the chain stays. -/
def degradedModel (name : String) : String :=
  ((matchModelSize name (modelDegradationChain.map Prod.fst)).bind fun size =>
    modelDegradationChain.find? fun p => decide (p.1 = size)).elim name
      (ClusterMaster.degradedName name)

structure History (t t' : ClusterTask) : Prop where
  request : SameRequest t t'
  retries : t.retryCount ≤ t'.retryCount
  retriesBounded : t'.retryCount ≤ max t.retryCount maxRetryAttempts
  degradations : t.degradationCount ≤ t'.degradationCount
  degradationsBounded : t'.degradationCount ≤ max t.degradationCount t.maxDegradations
  modelName : t'.modelName = degradedModel^[t'.degradationCount-t.degradationCount] t.modelName

theorem SameRequest.refl (t : ClusterTask) : SameRequest t t :=
  ⟨rfl,rfl,rfl,rfl,rfl,rfl,rfl,rfl,rfl,rfl,rfl,rfl,rfl,rfl,rfl,rfl,rfl⟩

variable {t t' t'' : ClusterTask} {k : StepKind}

theorem SameRequest.trans (h : SameRequest t t') (h' : SameRequest t' t'') : SameRequest t t'' :=
  ⟨h'.1.trans h.1,h'.2.trans h.2,h'.3.trans h.3,h'.4.trans h.4,h'.5.trans h.5,h'.6.trans h.6,
    h'.7.trans h.7,h'.8.trans h.8,h'.9.trans h.9,h'.10.trans h.10,h'.11.trans h.11,
    h'.12.trans h.12,h'.13.trans h.13,h'.14.trans h.14,h'.15.trans h.15,h'.16.trans h.16,
    h'.17.trans h.17⟩

theorem SameRequest.of_change (h : TaskChange k t t') : SameRequest t t' := by
  cases h <;> exact ⟨rfl,rfl,rfl,rfl,rfl,rfl,rfl,rfl,rfl,rfl,rfl,rfl,rfl,rfl,rfl,rfl,rfl⟩

namespace History

theorem of_same (hrequest : SameRequest t t') (hretry : t'.retryCount = t.retryCount)
    (hdegradation : t'.degradationCount = t.degradationCount) (hmodel : t'.modelName = t.modelName) :
    History t t' := by
  refine ⟨hrequest,hretry.ge,?_,hdegradation.ge,?_,?_⟩
  · exact hretry.le.trans (le_max_left _ _)
  · exact hdegradation.le.trans (le_max_left _ _)
  · rw [hdegradation,Nat.sub_self,hmodel,Function.iterate_zero_apply]

theorem refl (t : ClusterTask) : History t t := of_same (.refl t) rfl rfl rfl

theorem trans (h : History t t') (h' : History t' t'') : History t t'' where
  request := h.request.trans h'.request
  retries := h.retries.trans h'.retries
  retriesBounded :=
    h'.retriesBounded.trans (max_le h.retriesBounded (le_max_right _ _))
  degradations := h.degradations.trans h'.degradations
  degradationsBounded := by
    have hbound := h'.degradationsBounded
    rw [h.request.maxDegradations] at hbound
    exact hbound.trans (max_le h.degradationsBounded (le_max_right _ _))
  modelName := by
    have hsum : t''.degradationCount-t.degradationCount =
        (t''.degradationCount-t'.degradationCount)+(t'.degradationCount-t.degradationCount) := by
      have hfirst := h.degradations
      have hsecond := h'.degradations
      omega
    rw [h'.modelName,h.modelName,hsum,Function.iterate_add_apply]

theorem of_change (h : TaskChange k t t') : History t t' := by
  have hrequest := SameRequest.of_change h
  cases h with
  | retry _ hbudget =>
    refine ⟨hrequest,Nat.le_succ _,?_,le_rfl,le_max_left _ _,?_⟩
    · exact (Nat.succ_le_of_lt hbudget).trans (le_max_right _ _)
    · exact (congrArg (fun n => degradedModel^[n] t.modelName) (Nat.sub_self _)).symm
  | @degrade size _ hsize hbudget =>
    refine ⟨hrequest,le_rfl,le_max_left _ _,Nat.le_succ _,?_,?_⟩
    · exact (Nat.succ_le_of_lt hbudget).trans (le_max_right _ _)
    · have hone : t.degradationCount+1-t.degradationCount = 1 := Nat.add_sub_cancel_left _ _
      have hchain : degradedModel t.modelName = ClusterMaster.degradedName t.modelName size :=
        congrArg (fun o => Option.elim o t.modelName (ClusterMaster.degradedName t.modelName)) hsize
      show _ = degradedModel^[t.degradationCount+1-t.degradationCount] t.modelName
      rw [hone,Function.iterate_one,hchain]
  | _ => exact of_same hrequest rfl rfl rfl

theorem of_changes (h : ReflTransGen (TaskChange k) t t') : History t t' := by
  induction h with
  | refl => exact .refl t
  | tail _ hchange ih => exact ih.trans (.of_change hchange)

end History

namespace ClusterMaster

variable {m m' : ClusterMaster} {config : MasterConfig} {ha : HaState}

/-- Between any two states of a run, in whatever order assignments, retries, timeouts, migrations,
degradations, cancellations and the replies of agents come: every task in memory keeps all that was
asked for; its retries never decrease and stay in their budget, and its degradations in that of the
task; and its model name is the earlier one taken down the chain once for each degradation between. -/
theorem task_history (hm : machine.Reaches Machine.Any (create config ha) m)
    (h : machine.Reaches Machine.Any m m') :
    ∀ r < m.nextRef, History (m.objects r) (m'.objects r) := by
  have hwf : m.Wf :=
    hm.invariant (fun _ _ _ hw _ hstep => step_wf hw hstep) (wf_create config ha)
  have hrun : m.nextRef ≤ m'.nextRef ∧ ∀ r < m.nextRef, History (m.objects r) (m'.objects r) :=
    h.relates (I := Wf)
      (R := fun x y => x.nextRef ≤ y.nextRef ∧ ∀ r < x.nextRef, History (x.objects r) (y.objects r))
      (fun x => ⟨le_rfl,fun r _ => .refl _⟩)
      (fun x y z hxy hyz => ⟨hxy.1.trans hyz.1,fun r hr =>
        (hxy.2 r hr).trans (hyz.2 r (hr.trans_le hxy.1))⟩)
      (fun _ _ _ hw _ hstep => step_wf hw hstep)
      (fun x ev y hw _ hstep =>
        have hrewrites := step_rewrites hw hstep
        ⟨hrewrites.nextRef,fun r hr => .of_changes (hrewrites.change r hr)⟩) hwf
  exact hrun.2

/-- The timeout of the task on `n1` costs it a retry, and the retry loop assigns it again. -/
theorem task_history_timedOut :
    ∃ m m', machine.exec (create defaultConfig HaState.create) assignedRun = some m ∧
      machine.exec m (timedOutRun.drop assignedRun.length) = some m' ∧
      (m.objects 0).retryCount = 0 ∧ (m'.objects 0).retryCount = 1 ∧
      History (m.objects 0) (m'.objects 0) := by
  have hexec : (machine.exec (create defaultConfig HaState.create) assignedRun).any (fun m =>
      decide (0 < m.nextRef ∧ (m.objects 0).retryCount = 0) &&
        (machine.exec m (timedOutRun.drop assignedRun.length)).any fun m' =>
          decide ((m'.objects 0).retryCount = 1)) = true := by
    decide +kernel
  obtain ⟨m,hm,hboth⟩ := (Option.any_eq_true _ _).mp hexec
  obtain ⟨hbefore,hafter⟩ := Bool.and_eq_true_iff.mp hboth
  obtain ⟨hlt,hzero⟩ := of_decide_eq_true hbefore
  obtain ⟨m',hm',hone⟩ := (Option.any_eq_true _ _).mp hafter
  exact ⟨m,m',hm,hm',hzero,of_decide_eq_true hone,task_history (.of_exec hm) (.of_exec hm') 0 hlt⟩

end ClusterMaster
end FusionMultiNodes

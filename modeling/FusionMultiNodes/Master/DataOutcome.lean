import FusionMultiNodes.Master.Outcomes
import FusionMultiNodes.Master.Step

/-! How a `DATA` dispatch ends, for the results of its nodes and the outputs that were kept from an
earlier attempt. -/
namespace FusionMultiNodes

namespace AgentReply

def output : AgentReply → Option String
  | .dict r =>
    if r.rateLimited || r.overload || r.dedupBlocked || r.sandboxBlocked || r.fencingRejected ||
        r.error.isSome then none
    else some r.body
  | _ => none

/-- A failure that another attempt may not meet: an exception, no dictionary, or a node that has
too much to do. -/
def transient : AgentReply → Bool
  | .dict r => r.rateLimited || r.overload
  | _ => true

end AgentReply

/-- The results of the nodes of a dispatch, one for each. -/
abbrev NodeReplies := List (NodeId × AgentReply)

namespace NodeReplies

/-- The outputs of the nodes that have succeeded, in the order of the nodes. -/
def outputs (results : NodeReplies) : List AgentOutput :=
  results.filterMap fun p => p.2.output.map fun body => ⟨p.1,body⟩

/-- The loop over the results of `_dispatch_data`. -/
def collected (results : NodeReplies) : Collected :=
  results.foldl (fun acc p => (ClusterMaster.collectReply acc p.1 p.2).1) ⟨[],[],false,false⟩

def AllSucceeded (results : NodeReplies) : Prop := ∀ p ∈ results, p.2.output.isSome = true

def SomeSucceeded (results : NodeReplies) : Prop := ∃ p ∈ results, p.2.output.isSome = true

end NodeReplies

open NodeReplies

/-- How a task with kept outputs has to end for the results of its nodes. -/
structure EndsBy (kept : List AgentOutput) (results : NodeReplies) (t t' : ClusterTask) : Prop where
  completed : t'.status = .completed ↔ AllSucceeded results
  partially : t'.status = .partialDone ↔
    ¬AllSucceeded results ∧ (kept ≠ [] ∨ SomeSucceeded results)
  retried : t'.status = .pending → (∃ p ∈ results, p.2.transient = true) ∧
    t.retryCount < maxRetryAttempts
  failed : t'.status = .completed ∨ t'.status = .partialDone ∨ t'.status = .pending ∨
    t'.status = .failed
  /-- Each output is there once, and no node has two. -/
  outputs : t'.status = .completed ∨ t'.status = .partialDone →
    ∃ result ∈ t'.result, (∀ o, o ∈ result.outputs ↔ o ∈ kept ∨ o ∈ outputs results) ∧
      (result.outputs.map AgentOutput.nodeId).Nodup

/-- There are results, a node has succeeded unless no output was kept, and no node has an output
twice. -/
def Mergeable (kept : List AgentOutput) (results : NodeReplies) : Prop :=
  results ≠ [] ∧ (kept ≠ [] → SomeSucceeded results) ∧
    ((kept ++ outputs results).map AgentOutput.nodeId).Nodup

instance (kept : List AgentOutput) (results : NodeReplies) :
    Decidable (Mergeable kept results) := by
  unfold Mergeable SomeSucceeded
  infer_instance

variable {results : NodeReplies} {n : NodeId} {reply : AgentReply} {acc : Collected}

structure Collects (n : NodeId) (reply : AgentReply) (acc acc' : Collected) : Prop where
  outputs : acc'.outputs = acc.outputs ++ (reply.output.map fun body => ⟨n,body⟩).toList
  errors : acc'.errors = [] ↔ acc.errors = [] ∧ reply.output.isSome = true
  transientFail : acc'.transientFail = (acc.transientFail || reply.transient)

theorem collects_collectReply (acc : Collected) (n : NodeId) (reply : AgentReply) :
    Collects n reply acc (ClusterMaster.collectReply acc n reply).1 := by
  cases reply with
  | raised | notDict =>
    constructor <;> simp [ClusterMaster.collectReply,AgentReply.output,AgentReply.transient]
  | dict r =>
    obtain ⟨rateLimited,overload,dedupBlocked,sandboxBlocked,fencingRejected,_,error,_,body⟩ := r
    cases rateLimited <;> cases overload <;> cases dedupBlocked <;> cases sandboxBlocked <;>
      cases fencingRejected <;> cases error <;>
      constructor <;> simp [ClusterMaster.collectReply,AgentReply.output,AgentReply.transient]

structure CollectsAll (results : NodeReplies) (acc acc' : Collected) : Prop where
  outputs : acc'.outputs = acc.outputs ++ outputs results
  errors : acc'.errors = [] ↔ acc.errors = [] ∧ AllSucceeded results
  transientFail : acc'.transientFail = true ↔
    acc.transientFail = true ∨ ∃ p ∈ results, p.2.transient = true

theorem collectsAll_foldl (results : NodeReplies) (acc : Collected) :
    CollectsAll results acc
      (results.foldl (fun acc p => (ClusterMaster.collectReply acc p.1 p.2).1) acc) := by
  induction results generalizing acc with
  | nil => exact ⟨by simp [NodeReplies.outputs],by simp [AllSucceeded],by simp⟩
  | cons p results ih =>
    have hone := collects_collectReply acc p.1 p.2
    have hrest := ih (ClusterMaster.collectReply acc p.1 p.2).1
    refine ⟨?_,?_,?_⟩
    · rw [List.foldl_cons,hrest.outputs,hone.outputs,List.append_assoc,NodeReplies.outputs,
        NodeReplies.outputs,List.filterMap_cons]
      cases p.2.output <;> rfl
    · rw [List.foldl_cons,hrest.errors,hone.errors,and_assoc]
      simp [AllSucceeded]
    · rw [List.foldl_cons,hrest.transientFail,hone.transientFail,Bool.or_eq_true,or_assoc]
      simp

theorem collected_spec (results : NodeReplies) :
    CollectsAll results ⟨[],[],false,false⟩ (collected results) :=
  collectsAll_foldl results _

theorem outputs_ne_nil_iff : outputs results ≠ [] ↔ SomeSucceeded results := by
  rw [NodeReplies.outputs,Ne,List.filterMap_eq_nil_iff]
  simp only [SomeSucceeded,Option.map_eq_none_iff,not_forall,Option.isSome_iff_ne_none,exists_prop]

theorem someSucceeded_of_all (h : AllSucceeded results) (hne : results ≠ []) :
    SomeSucceeded results :=
  have ⟨p,hp⟩ := List.exists_mem_of_ne_nil results hne
  ⟨p,hp,h p hp⟩

variable {t : ClusterTask} {nodeIds : List NodeId}

structure OutcomeOf (t : ClusterTask) (results : NodeReplies) (o : DispatchOutcome) : Prop where
  success : o.success = true ↔ SomeSucceeded results ∧ AllSucceeded results
  partially : o.partially = true ↔ SomeSucceeded results ∧ ¬AllSucceeded results
  retryable : o.retryable = true → ∃ p ∈ results, p.2.transient = true
  result : ∃ result ∈ o.result, result.outputs = t.partialPrevOutputs.getD [] ++ outputs results

theorem outcomeOf_dataOutcome (t : ClusterTask) (nodeIds : List NodeId) (results : NodeReplies) :
    OutcomeOf t results (ClusterMaster.dataOutcome t nodeIds (collected results)) := by
  have hspec := collected_spec results
  have houtputs : (collected results).outputs = outputs results := by simpa using hspec.outputs
  have herrors : (collected results).errors = [] ↔ AllSucceeded results := by
    simpa using hspec.errors
  refine ⟨?_,?_,?_,?_⟩
  · simp only [ClusterMaster.dataOutcome,Bool.and_eq_true,decide_eq_true_eq,houtputs,herrors,
      outputs_ne_nil_iff]
  · simp only [ClusterMaster.dataOutcome,Bool.and_eq_true,decide_eq_true_eq,houtputs,Ne,herrors,
      ← outputs_ne_nil_iff]
  · intro h
    simp only [ClusterMaster.dataOutcome,Bool.and_eq_true] at h
    simpa using hspec.transientFail.mp h.1.2
  · exact ⟨_,rfl,by rw [houtputs]⟩

namespace ClusterMaster

variable {m : ClusterMaster} {r : Ref} {o : DispatchOutcome} {id : TaskId} {now : ℚ}

structure Finalized (t : ClusterTask) (o : DispatchOutcome) (t' : ClusterTask) : Prop where
  completed : t'.status = .completed ↔ o.success = true
  partially : t'.status = .partialDone ↔ o.success = false ∧ o.partially = true
  retried : t'.status = .pending → o.retryable = true ∧ t.retryCount < maxRetryAttempts
  failed : t'.status = .completed ∨ t'.status = .partialDone ∨ t'.status = .pending ∨
    t'.status = .failed
  result : o.success = true ∨ o.partially = true → ∀ result ∈ o.result, t'.result = some result

theorem finalizeTask_finalized (hr : m.tasks.get? id = some r)
    (hs : (m.objects r).status = .running) (o : DispatchOutcome) (now : ℚ) :
    Finalized (m.objects r) o ((m.finalizeTask id o now).1.objects r) := by
  have hobject : (m.finalizeTask id o now).1.objects r = (m.finalized r o now).objects r := by
    simp only [finalizeTask,hr,hs,if_true,finalized,DispatchOutcome.isRetry,Bool.and_eq_true,
      Bool.not_eq_true',and_assoc]
    rfl
  rw [hobject,finalized]
  by_cases hretry : o.isRetry = true
  · rw [if_pos hretry]
    simp only [DispatchOutcome.isRetry,Bool.and_eq_true,Bool.not_eq_true'] at hretry
    obtain ⟨⟨hsuccess,hpartially⟩,hretryable⟩ := hretry
    have hcount : (((m.releaseTask r).modifyTask r fun t => { t with error := o.error }).objects
        r).retryCount = (m.objects r).retryCount := by
      simp [modifyTask,releaseTask]
    by_cases hbudget : maxRetryAttempts ≤ (m.objects r).retryCount
    · rw [enqueueRetry,if_pos (hcount ▸ hbudget)]
      constructor <;> simp [modifyTask,giveUpTask,hsuccess,hpartially]
    · rw [enqueueRetry,if_neg (hcount ▸ hbudget)]
      constructor <;> simp [modifyTask,retryTask,hsuccess,hpartially,hretryable,not_le.mp hbudget]
  · rw [if_neg hretry]
    have hfinish : (((m.releaseTask r).modifyTask r fun t => finishTask t o now).objects r) =
        finishTask (m.objects r) o now := by
      simp [modifyTask,releaseTask]
    rw [hfinish]
    cases hsuccess : o.success <;> cases hpartially : o.partially <;> constructor <;>
      simp +contextual [finishTask,hsuccess,hpartially]

/-- A running task of a `DATA` dispatch ends as the results of its nodes and the kept outputs say if
and only if they can be merged. -/
theorem data_outcome_iff (m : ClusterMaster) (id : TaskId) (t : ClusterTask) (nodeIds : List NodeId)
    (results : NodeReplies) (now : ℚ) (hr : m.tasks.get? id = some r)
    (hs : (m.objects r).status = .running) :
    EndsBy (t.partialPrevOutputs.getD []) results (m.objects r)
        ((m.finalizeTask id (dataOutcome t nodeIds (collected results)) now).1.objects r) ↔
      Mergeable (t.partialPrevOutputs.getD []) results := by
  have ho := outcomeOf_dataOutcome t nodeIds results
  have hend := finalizeTask_finalized hr hs (dataOutcome t nodeIds (collected results)) now
  generalize dataOutcome t nodeIds (collected results) = o at ho hend ⊢
  generalize (m.finalizeTask id o now).1.objects r = t' at hend ⊢
  obtain ⟨result,hresult,houtputs⟩ := ho.result
  have hcompleted : t'.status = .completed ↔ SomeSucceeded results ∧ AllSucceeded results :=
    hend.completed.trans ho.success
  have hpartially : t'.status = .partialDone ↔ SomeSucceeded results ∧ ¬AllSucceeded results := by
    rw [hend.partially,ho.partially,← Bool.not_eq_true,ho.success]
    tauto
  have hmerged : SomeSucceeded results → t'.result = some result := by
    intro hsome
    refine hend.result ?_ result hresult
    rw [ho.success,ho.partially]
    tauto
  constructor
  · intro h
    have hne : results ≠ [] := by
      rintro rfl
      have hall : AllSucceeded ([] : NodeReplies) := fun p hp => nomatch hp
      obtain ⟨⟨p,hp,-⟩,-⟩ := hcompleted.mp (h.completed.mpr hall)
      exact nomatch hp
    have hsome : t.partialPrevOutputs.getD [] ≠ [] → SomeSucceeded results := by
      intro hkept
      by_cases hall : AllSucceeded results
      · exact someSucceeded_of_all hall hne
      · exact (hpartially.mp (h.partially.mpr ⟨hall,.inl hkept⟩)).1
    refine ⟨hne,hsome,?_⟩
    by_cases hnone : SomeSucceeded results
    · have hended : t'.status = .completed ∨ t'.status = .partialDone := by
        rw [hcompleted,hpartially]
        tauto
      obtain ⟨result',hresult',-,hnodup⟩ := h.outputs hended
      obtain rfl : result = result' := Option.some.inj ((hmerged hnone).symm.trans hresult')
      rwa [houtputs] at hnodup
    · have hkept : t.partialPrevOutputs.getD [] = [] := by
        by_contra hkept
        exact hnone (hsome hkept)
      have hempty : outputs results = [] := by
        by_contra hout
        exact hnone (outputs_ne_nil_iff.mp hout)
      rw [hkept,hempty]
      exact List.nodup_nil
  · rintro ⟨hne,hkept,hnodup⟩
    refine ⟨?_,?_,?_,hend.failed,?_⟩
    · rw [hcompleted]
      exact ⟨And.right,fun hall => ⟨someSucceeded_of_all hall hne,hall⟩⟩
    · rw [hpartially,and_comm]
      exact and_congr_right fun _ => ⟨.inr,fun h => h.elim hkept fun h => h⟩
    · intro hpending
      obtain ⟨hretryable,hbudget⟩ := hend.retried hpending
      exact ⟨ho.retryable hretryable,hbudget⟩
    · intro hended
      have hsome : SomeSucceeded results := by
        rw [hcompleted,hpartially] at hended
        exact hended.elim And.left And.left
      refine ⟨result,hmerged hsome,fun a => ?_,houtputs ▸ hnodup⟩
      rw [houtputs,List.mem_append]

/-- The record of a task that ended `PARTIAL` with the output of `n1`. -/
def partialRecord : TaskRecord :=
  { (plainTask "t1").toDict with
    status := .partialDone
    assignedNodes := ["n1","n2"]
    result := some ⟨[⟨"n1","{}"⟩],["n2: ReadTimeout: "],2,none,[]⟩ }

def runs (t : ClusterTask) : ClusterMaster :=
  { create defaultConfig .create with
    objects := Function.update (fun _ => noTask) 0 { t with status := .running }
    nextRef := 1
    tasks := (∅ : Dict TaskId Ref).set "t1" 0 }

theorem recovered_task_completes :
    EndsBy [⟨"n1","{}"⟩] [("n2",goodReply)] ((runs (partialRecord.fromDict true)).objects 0)
      (((runs (partialRecord.fromDict true)).finalizeTask "t1"
        (dataOutcome (partialRecord.fromDict true) ["n2"] (collected [("n2",goodReply)]))
          1).1.objects 0) :=
  (data_outcome_iff (runs (partialRecord.fromDict true)) "t1" (partialRecord.fromDict true) ["n2"]
    [("n2",goodReply)] 1 rfl rfl).mpr (by decide)

def errorReply : AgentReply := .dict ⟨false,false,false,false,false,false,some "oom",none,"{}"⟩

/-- The other node fails: the task is `FAILED` although `n1` had succeeded. -/
theorem recovered_task_fails : ¬∀ (m : ClusterMaster) (r : Ref) (id : TaskId) (t : ClusterTask)
    (nodeIds : List NodeId) (results : NodeReplies) (now : ℚ), m.tasks.get? id = some r →
    (m.objects r).status = .running →
    EndsBy (t.partialPrevOutputs.getD []) results (m.objects r)
      ((m.finalizeTask id (dataOutcome t nodeIds (collected results)) now).1.objects r) := by
  intro h
  have hend := h (runs (partialRecord.fromDict true)) 0 "t1" (partialRecord.fromDict true) ["n2"]
    [("n2",errorReply)] 1 rfl rfl
  have hfailed : (((runs (partialRecord.fromDict true)).finalizeTask "t1"
      (dataOutcome (partialRecord.fromDict true) ["n2"] (collected [("n2",errorReply)]))
        1).1.objects 0).status = .failed := by
    decide +kernel
  have hnot : ¬AllSucceeded [("n2",errorReply)] := by
    intro hall
    exact absurd (hall _ (List.mem_singleton_self _)) (by decide)
  have hpartial := hend.partially.mpr ⟨hnot,.inl (by decide)⟩
  rw [hfailed] at hpartial
  exact nomatch hpartial

end ClusterMaster
end FusionMultiNodes

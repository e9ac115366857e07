import FusionMultiNodes.Master.Requests

/-! Test batches: the status that is derived from the task table, and what a restart reads. -/
namespace FusionMultiNodes

/-- The statuses `derive_status` takes for the end of a job. -/
def TaskStatus.isDone : TaskStatus → Bool
  | .pending | .running => false
  | _ => true

/-- The statuses `derive_status` takes for a failure. -/
def TaskStatus.isLost (s : TaskStatus) : Bool :=
  decide (s = .failed) || decide (s = .timeout) || decide (s = .cancelled)

namespace TestBatch

def states (b : TestBatch) (m : ClusterMaster) : List TaskStatus :=
  b.jobs.map fun j => ((m.task? j.taskId).map ClusterTask.status).getD .pending

def deriveStatus (b : TestBatch) (m : ClusterMaster) : String :=
  let states := b.states m
  if states = [] then b.status
  else if states.all TaskStatus.isDone then
    if states.all fun s => decide (s = .completed) then "completed"
    else if states.all TaskStatus.isLost then "failed"
    else "partial"
  else if states.any fun s => decide (s = .running) || decide (s = .pending) then "running"
  else b.status

def IsTerminal (status : String) : Prop :=
  status = "completed" ∨ status = "failed" ∨ status = "partial"

instance (status : String) : Decidable (IsTerminal status) :=
  inferInstanceAs (Decidable (_ ∨ _ ∨ _))

variable {b : TestBatch} {m : ClusterMaster}

/-- A batch with jobs has ended if each of them has a task that has. -/
theorem isTerminal_deriveStatus_iff (hjobs : b.jobs ≠ []) :
    IsTerminal (b.deriveStatus m) ↔
      ∀ j ∈ b.jobs, ∃ r, m.tasks.get? j.taskId = some r ∧
        (m.objects r).status.isDone = true := by
  have hstates : b.states m ≠ [] := by simpa [states] using hjobs
  have hall : (b.states m).all TaskStatus.isDone = true ↔
      ∀ j ∈ b.jobs, ∃ r, m.tasks.get? j.taskId = some r ∧
        (m.objects r).status.isDone = true := by
    simp only [states,List.all_map,List.all_eq_true,Function.comp_apply,ClusterMaster.task?]
    refine forall₂_congr fun j _ => ?_
    cases m.tasks.get? j.taskId with
    | none => simp [TaskStatus.isDone]
    | some r => simp
  rw [← hall]
  simp only [deriveStatus]
  rw [if_neg hstates]
  by_cases hdone : (b.states m).all TaskStatus.isDone = true
  · rw [if_pos hdone]
    refine iff_of_true ?_ hdone
    split_ifs
    · exact .inl rfl
    · exact .inr (.inl rfl)
    · exact .inr (.inr rfl)
  · rw [if_neg hdone]
    refine iff_of_false ?_ hdone
    have hwaiting : ((b.states m).any fun s => decide (s = .running) || decide (s = .pending)) =
        true := by
      simp only [List.all_eq_true,not_forall] at hdone
      obtain ⟨s,hs,hnot⟩ := hdone
      refine List.any_eq_true.mpr ⟨s,hs,?_⟩
      cases s <;> simp_all [TaskStatus.isDone]
    rw [if_pos hwaiting]
    simp [IsTerminal]

end TestBatch

namespace ClusterMaster

variable {m : ClusterMaster}

theorem testBatches_restart {now rnd : ℚ} {id : String} {b : TestBatch}
    (h : (m.restart now rnd).testBatches.get? id = some b) :
    ∃ content, m.store.file = some content ∧ b ∈ content.batches := by
  unfold restart at h
  split at h
  · cases h
  · next content hfile =>
    refine ⟨content,hfile,?_⟩
    rw [(silent_foldl silent_enqueueRestored _ _).testBatches] at h
    have hboot : (content.tasks.foldl insertRecord (m.reboot now rnd)).testBatches = ∅ :=
      (silent_foldl (F := insertRecord) (fun _ _ => ⟨rfl,rfl,rfl,rfl⟩) _ _).testBatches
    simp only [restoreTasks,hboot] at h
    rw [Dict.get?_foldl_set TestBatch.batchId] at h
    rcases Option.or_eq_some_iff.mp h with h | ⟨-,h⟩
    · exact List.mem_of_mem_filter (List.mem_reverse.mp (List.mem_of_find?_eq_some h))
    · cases h

end ClusterMaster
end FusionMultiNodes

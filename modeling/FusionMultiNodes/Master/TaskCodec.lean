import FusionMultiNodes.Master.DataOutcome

/-! Saving and restoring a task: what `_task_from_dict` makes of what `_task_to_dict` has written,
once and after further crashes, and what becomes of the outputs that were already there. -/
namespace FusionMultiNodes
namespace ClusterTask

/-- A save and a restore; the flag is `FUSION_PARTIAL_RECOVERY`. -/
def restored (partialRecovery : Bool) (t : ClusterTask) : ClusterTask :=
  t.toDict.fromDict partialRecovery

def wasRunning (t : ClusterTask) : Bool := t.toDict.wasRunning

/-- The outputs that a task has, and that its final result has to have: those of a `PARTIAL` task,
and those kept for an unfinished one. -/
def obtained (t : ClusterTask) : List AgentOutput :=
  match t.status with
  | .partialDone => (t.result.map TaskResult.outputs).getD []
  | .pending | .running | .migrated => t.partialPrevOutputs.getD []
  | _ => []

/-- The output is in the final result: in that of each dispatch if the task has to be dispatched,
otherwise in the one it has. -/
def Delivers (t : ClusterTask) (o : AgentOutput) : Prop :=
  if t.status = .pending then
    ∀ nodeIds results, ∃ result ∈ (ClusterMaster.dataOutcome t nodeIds
      (NodeReplies.collected results)).result, o ∈ result.outputs
  else ∃ result ∈ t.result, o ∈ result.outputs

/-- The task but for what it keeps from a dispatch in memory. -/
def saved (t : ClusterTask) : ClusterTask := { t with completedAt := 0, partialPrevOutputs := none }

structure Recovers (partialRecovery : Bool) (t : ClusterTask) : Prop where
  /-- A waiting task stays as it is, with its retry count and its retry time. -/
  pending : t.status = .pending → t.restored partialRecovery = t.saved
  /-- A dispatched one waits again, and avoids the nodes it had, but for the pinned one. -/
  running : t.status = .running ∨ t.status = .migrated →
    t.restored partialRecovery = { t.saved with
      status := .pending
      assignedNodes := []
      startedAt := 0
      excludeNodes := appendMissing t.excludeNodes
        (t.assignedNodes.filter fun n => decide (n ≠ t.pinnedNodeId)) }
  again : ∀ n, (restored partialRecovery)^[n+1] t = t.restored partialRecovery
  delivers : ∀ n, ∀ o ∈ t.obtained, ((restored partialRecovery)^[n+1] t).Delivers o

variable {pr : Bool} {t : ClusterTask} {o : AgentOutput}

/-- `_task_from_dict` without its last part. -/
def loaded (t : ClusterTask) : ClusterTask := t.toDict.load

theorem loaded_of_not_running (h : t.wasRunning = false) : t.loaded = t.saved := by
  have hload : t.toDict.wasRunning = false := h
  simp only [loaded,TaskRecord.load,hload,Bool.false_eq_true,if_false]
  rfl

theorem wasRunning_iff : t.wasRunning = true ↔ t.status = .running ∨ t.status = .migrated := by
  simp only [wasRunning,TaskRecord.wasRunning,Bool.or_eq_true,decide_eq_true_eq]
  exact Iff.rfl

theorem wasRunning_restored (pr : Bool) (t : ClusterTask) : (t.restored pr).wasRunning = false := by
  have hload : t.loaded.wasRunning = false := by
    rw [← Bool.not_eq_true,wasRunning_iff]
    cases hs : t.wasRunning with
    | true =>
      have hrun : t.toDict.wasRunning = true := hs
      simp [loaded,TaskRecord.load,hrun]
    | false =>
      rw [loaded_of_not_running hs]
      rw [← Bool.not_eq_true,wasRunning_iff] at hs
      exact hs
  unfold restored TaskRecord.fromDict
  split_ifs
  · rfl
  · exact hload

theorem restored_eq_loaded (h : ¬(t.status = .partialDone ∧ pr = true)) :
    t.restored pr = t.loaded := by
  have hrecord : ¬(t.toDict.status = .partialDone ∧ pr = true) := h
  simp only [restored,TaskRecord.fromDict,hrecord,if_false]
  rfl

theorem restored_of_pending (h : t.status = .pending) (pr : Bool) : t.restored pr = t.saved := by
  rw [restored_eq_loaded (by simp [h]),loaded_of_not_running]
  rw [← Bool.not_eq_true,wasRunning_iff]
  simp [h]

theorem restored_of_running (h : t.status = .running ∨ t.status = .migrated) (pr : Bool) :
    t.restored pr = { t.saved with
      status := .pending
      assignedNodes := []
      startedAt := 0
      excludeNodes := appendMissing t.excludeNodes
        (t.assignedNodes.filter fun n => decide (n ≠ t.pinnedNodeId)) } := by
  have hnot : ¬(t.status = .partialDone ∧ pr = true) := by
    rintro ⟨hs,-⟩
    rcases h with h | h <;> exact absurd (h.symm.trans hs) (by decide)
  have hrun : t.toDict.wasRunning = true := wasRunning_iff.mpr h
  rw [restored_eq_loaded hnot]
  simp only [loaded,TaskRecord.load,hrun,if_true]
  rfl

/-- A `PARTIAL` task to be recovered waits again, with the outputs of nodes that have a name. -/
theorem restored_partialDone (h : t.status = .partialDone) : (t.restored true).status = .pending ∧
    (t.obtained = [] → (t.restored true).partialPrevOutputs = none) := by
  have hrecord : t.toDict.status = .partialDone ∧ true = true := ⟨h,rfl⟩
  have hobtained : t.obtained = t.toDict.prevOutputs := by
    simp only [obtained,h]
    rfl
  rw [restored,TaskRecord.fromDict,if_pos hrecord,hobtained]
  refine ⟨rfl,fun hnone => ?_⟩
  simp only [hnone,List.map_nil,List.filter_nil,if_true]

/-- What comes out of the store is no `PARTIAL` task to be recovered. -/
theorem settled_restored (pr : Bool) (t : ClusterTask) :
    ¬((t.restored pr).status = .partialDone ∧ pr = true) := by
  rintro ⟨hs,rfl⟩
  by_cases hpart : t.status = .partialDone
  · rw [(restored_partialDone hpart).1] at hs
    exact nomatch hs
  · rw [restored_eq_loaded fun h => hpart h.1] at hs
    cases hrun : t.wasRunning with
    | true =>
      have hrecord : t.toDict.wasRunning = true := hrun
      simp [loaded,TaskRecord.load,hrecord] at hs
    | false =>
      rw [loaded_of_not_running hrun] at hs
      exact hpart hs

theorem restored_restored (pr : Bool) (t : ClusterTask) :
    (t.restored pr).restored pr = (t.restored pr).saved := by
  rw [restored_eq_loaded (settled_restored pr t),loaded_of_not_running (wasRunning_restored pr t)]

/-- All restores but the first do nothing but drop what is in memory only. -/
theorem iterate_restored (pr : Bool) (t : ClusterTask) (n : ℕ) :
    (restored pr)^[n+2] t = (t.restored pr).saved := by
  induction n with
  | zero => exact restored_restored pr t
  | succ n ih =>
    rw [Function.iterate_succ_apply',ih]
    have hrun : (t.restored pr).saved.wasRunning = false := wasRunning_restored pr t
    rw [restored_eq_loaded (t := (t.restored pr).saved) (settled_restored pr t),
      loaded_of_not_running hrun]
    rfl

theorem completedAt_restored (pr : Bool) (t : ClusterTask) : (t.restored pr).completedAt = 0 := by
  unfold restored TaskRecord.fromDict
  split_ifs <;> rfl

theorem saved_restored (h : (t.restored pr).partialPrevOutputs = none) :
    (t.restored pr).saved = t.restored pr := by
  have hcompleted := completedAt_restored pr t
  generalize t.restored pr = t' at h hcompleted
  cases t'
  simp only at h hcompleted
  subst h hcompleted
  rfl

/-- A task without kept outputs delivers none of an earlier attempt. -/
theorem not_delivers (hs : t.status = .pending) (hkept : t.partialPrevOutputs = none) :
    ¬t.Delivers o := by
  intro h
  rw [Delivers,if_pos hs] at h
  obtain ⟨result,hresult,ho⟩ := h [] []
  obtain ⟨result',hresult',houtputs⟩ := (outcomeOf_dataOutcome t [] []).result
  obtain rfl := Option.some.inj (hresult.symm.trans hresult')
  rw [houtputs,hkept] at ho
  exact nomatch ho

theorem status_restored (hs : t.obtained ≠ [])
    (hpart : ¬(t.status = .partialDone ∧ pr = false)) : (t.restored pr).status = .pending := by
  cases hstatus : t.status with
  | pending => rw [restored_of_pending hstatus]; exact hstatus
  | running => rw [restored_of_running (.inl hstatus)]
  | migrated => rw [restored_of_running (.inr hstatus)]
  | partialDone =>
    have hpr : pr = true := by
      rw [← Bool.not_eq_false]
      exact fun hpr => hpart ⟨hstatus,hpr⟩
    rw [hpr]
    exact (restored_partialDone hstatus).1
  | _ => exact absurd (by simp only [obtained,hstatus]) hs

/-- Saving and restoring keeps what it has to keep if and only if the task has no outputs yet, or is
a `PARTIAL` task that is not to be recovered. -/
theorem recovers_iff (pr : Bool) (t : ClusterTask) :
    t.Recovers pr ↔ t.obtained = [] ∨ t.status = .partialDone ∧ pr = false := by
  constructor
  · intro h
    by_contra hnot
    rw [not_or] at hnot
    obtain ⟨o,ho⟩ := List.exists_mem_of_ne_nil _ hnot.1
    have hlost := h.delivers 1 o ho
    rw [iterate_restored pr t 0] at hlost
    have hpending : (t.restored pr).saved.status = .pending := status_restored hnot.1 hnot.2
    exact not_delivers hpending rfl hlost
  · intro h
    have hkept : (t.restored pr).partialPrevOutputs = none := by
      by_cases hpart : t.status = .partialDone ∧ pr = true
      · obtain ⟨hs,rfl⟩ := hpart
        rcases h with hnone | ⟨-,hpr⟩
        · exact (restored_partialDone hs).2 hnone
        · exact nomatch hpr
      · rw [restored_eq_loaded hpart]
        rfl
    have hagain : ∀ n, (restored pr)^[n+1] t = t.restored pr := by
      intro n
      cases n with
      | zero => rfl
      | succ n => rw [iterate_restored,saved_restored hkept]
    refine ⟨fun hs => restored_of_pending hs pr,fun hs => restored_of_running hs pr,hagain,?_⟩
    intro n o ho
    rw [hagain n]
    rcases h with hnone | ⟨hs,rfl⟩
    · rw [hnone] at ho
      exact nomatch ho
    · have hrun : t.wasRunning = false := by
        rw [← Bool.not_eq_true,wasRunning_iff,hs]
        simp
      have hsame : t.restored false = t.saved := by
        rw [restored_eq_loaded (by simp),loaded_of_not_running hrun]
      have hstatus : t.saved.status ≠ .pending := by
        rw [saved,hs]
        decide
      rw [hsame,Delivers,if_neg hstatus]
      simp only [obtained,hs] at ho
      obtain ⟨result,hresult,hmem⟩ : ∃ result, t.result = some result ∧ o ∈ result.outputs := by
        cases hresult : t.result with
        | none => rw [hresult] at ho; exact nomatch ho
        | some result => exact ⟨result,rfl,by simpa [hresult] using ho⟩
      exact ⟨result,hresult,hmem⟩

/-- The output of `n1` is lost when the master crashes again during the recovery. -/
theorem second_crash_loses_outputs : ¬∀ (pr : Bool) (t : ClusterTask), t.Recovers pr := by
  intro h
  have hlost := (h true { ClusterMaster.plainTask "t1" with
    status := .partialDone
    result := some ⟨[⟨"n1","{}"⟩],["n2: ReadTimeout: "],2,none,[]⟩ }).delivers 1 ⟨"n1","{}"⟩
      (List.mem_singleton_self _)
  exact not_delivers rfl rfl hlost

end ClusterTask
end FusionMultiNodes

import FusionMultiNodes.Lib.Json
import FusionMultiNodes.Master.TestBatch

/-! The report of a test batch: its summary counts the jobs by a classification of its own, beside
the one that `derive_status` makes. -/
namespace FusionMultiNodes

/-- `exit_code == 0`, which `False` and `0.0` equal as well. -/
def Json.isZero : Json → Bool
  | .int n => decide (n = 0)
  | .float x => x.isZero
  | .bool b => !b
  | _ => false

/-- `output.get("exit_code")`; the body is the JSON text of what the agent returned. -/
def AgentOutput.exitCode (o : AgentOutput) : Option Json :=
  (Json.loads o.body.toList).bind (Json.get? "exit_code")

/-- The exit code of a result: that of its first output. -/
def TaskResult.exitCode (r : TaskResult) : Option Json := r.outputs.head?.bind AgentOutput.exitCode

structure JobReport where
  jobId : String
  taskId : TaskId
  node : NodeId
  state : TaskStatus
  result : Option TaskResult
  error : String
  exitCode : Option Json

inductive JobClass
  | passed | failed | running | pending
  deriving DecidableEq

namespace JobReport

def jobClass (j : JobReport) : JobClass :=
  if j.state = .completed ∧ (j.exitCode.any Json.isZero) = true then .passed
  else if j.state.isLost then .failed
  else if j.state = .running then .running
  else .pending

/-- What has become of a job: it has passed if it ended with exit code 0, and failed if it ended
otherwise. -/
def outcome (j : JobReport) : JobClass :=
  if j.state.isDone then
    if j.state = .completed ∧ (j.exitCode.any Json.isZero) = true then .passed else .failed
  else if j.state = .running then .running
  else .pending

end JobReport

structure BatchSummary where
  total : ℕ
  passed : ℕ
  failed : ℕ
  running : ℕ
  pending : ℕ

namespace BatchSummary

def add (s : BatchSummary) : JobClass → BatchSummary
  | .passed => { s with passed := s.passed + 1 }
  | .failed => { s with failed := s.failed + 1 }
  | .running => { s with running := s.running + 1 }
  | .pending => { s with pending := s.pending + 1 }

def count (s : BatchSummary) : JobClass → ℕ
  | .passed => s.passed
  | .failed => s.failed
  | .running => s.running
  | .pending => s.pending

end BatchSummary

structure BatchReport where
  batchId : String
  status : String
  summary : BatchSummary
  jobs : List JobReport

namespace TestBatch

def jobReport (m : ClusterMaster) (j : TestJob) : JobReport :=
  match m.task? j.taskId with
  | none => ⟨j.jobId,j.taskId,j.nodeId,.pending,none,"",none⟩
  | some t =>
    ⟨j.jobId,j.taskId,t.assignedNodes.head?.getD j.nodeId,t.status,t.result,t.error,
      t.result.bind TaskResult.exitCode⟩

/-- `get_test_batch_report` of a batch. -/
def report (b : TestBatch) (m : ClusterMaster) : BatchReport where
  batchId := b.batchId
  status := b.deriveStatus m
  summary := (b.jobs.map (jobReport m)).foldl (fun s j => s.add j.jobClass)
    ⟨b.jobs.length,0,0,0,0⟩
  jobs := b.jobs.map (jobReport m)

end TestBatch

/-- What a report promises: every job is counted once, by its outcome, and the counters agree with
the status. -/
structure BatchReport.Agrees (r : BatchReport) : Prop where
  total : r.summary.total = r.jobs.length
  counts : ∀ c, r.summary.count c = r.jobs.countP fun j => decide (j.jobClass = c)
  sum : r.summary.passed + r.summary.failed + r.summary.running + r.summary.pending =
    r.summary.total
  outcomes : ∀ j ∈ r.jobs, j.jobClass = j.outcome
  terminal : TestBatch.IsTerminal r.status → r.summary.running = 0 ∧ r.summary.pending = 0 ∧
    r.summary.passed + r.summary.failed = r.summary.total
  failed : r.status = "failed" → r.summary.failed = r.summary.total
  running : r.status = "running" → 0 < r.summary.running + r.summary.pending

variable {m : ClusterMaster} {b : TestBatch} {j : JobReport}

namespace BatchSummary

theorem foldl_add (l : List JobReport) (s : BatchSummary) :
    (l.foldl (fun s j => s.add j.jobClass) s).total = s.total ∧
      ∀ c, (l.foldl (fun s j => s.add j.jobClass) s).count c =
        s.count c + l.countP fun j => decide (j.jobClass = c) := by
  induction l generalizing s with
  | nil => exact ⟨rfl,fun _ => rfl⟩
  | cons j l ih =>
    obtain ⟨htotal,hcount⟩ := ih (s.add j.jobClass)
    refine ⟨htotal.trans ?_,fun c => ?_⟩
    · cases j.jobClass <;> rfl
    · rw [List.foldl_cons,hcount,List.countP_cons]
      cases j.jobClass <;> cases c <;> simp [add,count] <;> omega

end BatchSummary

theorem JobClass.countP_sum (l : List JobReport) :
    (l.countP fun j => decide (j.jobClass = .passed)) +
      (l.countP fun j => decide (j.jobClass = .failed)) +
      (l.countP fun j => decide (j.jobClass = .running)) +
      (l.countP fun j => decide (j.jobClass = .pending)) = l.length := by
  induction l with
  | nil => rfl
  | cons j l ih =>
    simp only [List.countP_cons,List.length_cons]
    cases j.jobClass <;> simp <;> omega

/-- A job is counted by its outcome unless it has ended in a way that the report does not know. -/
theorem JobReport.jobClass_eq_outcome_iff : j.jobClass = j.outcome ↔
    j.state ≠ .migrated ∧ j.state ≠ .partialDone ∧
      (j.state = .completed → j.exitCode.any Json.isZero = true) := by
  by_cases hzero : j.exitCode.any Json.isZero = true <;> cases hstate : j.state <;>
    simp [jobClass,outcome,TaskStatus.isLost,TaskStatus.isDone,hstate,hzero]

namespace TestBatch

theorem jobReport_state (m : ClusterMaster) (x : TestJob) :
    (jobReport m x).state = ((m.task? x.taskId).map ClusterTask.status).getD .pending := by
  rw [jobReport]
  cases m.task? x.taskId <;> rfl

/-- The report works on the states that the status is derived from. -/
theorem report_states (b : TestBatch) (m : ClusterMaster) :
    (b.report m).jobs.map JobReport.state = b.states m := by
  rw [report,List.map_map,states]
  exact List.map_congr_left fun x _ => jobReport_state m x

theorem report_summary (b : TestBatch) (m : ClusterMaster) :
    (b.report m).summary.total = (b.report m).jobs.length ∧
      ∀ c, (b.report m).summary.count c =
        (b.report m).jobs.countP fun j => decide (j.jobClass = c) := by
  obtain ⟨htotal,hcount⟩ := BatchSummary.foldl_add (b.report m).jobs ⟨b.jobs.length,0,0,0,0⟩
  refine ⟨htotal.trans (List.length_map _).symm,fun c => (hcount c).trans ?_⟩
  cases c <;> exact Nat.zero_add _

/-- What the derived status says of the states of a batch with jobs. -/
theorem deriveStatus_cases (hjobs : b.jobs ≠ []) :
    (b.deriveStatus m = "completed" ∧ ∀ s ∈ b.states m, s = .completed) ∨
    (b.deriveStatus m = "failed" ∧ ∀ s ∈ b.states m, s.isLost = true) ∨
    (b.deriveStatus m = "partial" ∧ ∀ s ∈ b.states m, s.isDone = true) ∨
    (b.deriveStatus m = "running" ∧ ∃ s ∈ b.states m, s.isDone = false) := by
  have hstates : b.states m ≠ [] := by simpa [states] using hjobs
  simp only [deriveStatus]
  rw [if_neg hstates]
  by_cases hdone : (b.states m).all TaskStatus.isDone = true
  · rw [if_pos hdone]
    split_ifs with hcompleted hlost
    · exact .inl ⟨rfl,fun s hs => of_decide_eq_true (List.all_eq_true.mp hcompleted s hs)⟩
    · exact .inr (.inl ⟨rfl,List.all_eq_true.mp hlost⟩)
    · exact .inr (.inr (.inl ⟨rfl,List.all_eq_true.mp hdone⟩))
  · rw [if_neg hdone]
    right; right; right
    simp only [List.all_eq_true,not_forall,Bool.not_eq_true] at hdone
    obtain ⟨s,hs,hnot⟩ := hdone
    refine ⟨if_pos (List.any_eq_true.mpr ⟨s,hs,?_⟩),s,hs,hnot⟩
    cases s <;> simp_all [TaskStatus.isDone]

/-- No job has ended in a way that the report does not know, and a batch without jobs is not
stored as running. -/
def Reportable (b : TestBatch) (m : ClusterMaster) : Prop :=
  (∀ x ∈ b.jobs, ∀ t, m.task? x.taskId = some t → t.status ≠ .migrated ∧
    t.status ≠ .partialDone ∧
    (t.status = .completed → (t.result.bind TaskResult.exitCode).any Json.isZero = true)) ∧
  (b.jobs = [] → b.status ≠ "running")

theorem jobClass_jobReport_iff (x : TestJob) :
    (jobReport m x).jobClass = (jobReport m x).outcome ↔
      ∀ t, m.task? x.taskId = some t → t.status ≠ .migrated ∧ t.status ≠ .partialDone ∧
        (t.status = .completed → (t.result.bind TaskResult.exitCode).any Json.isZero = true) := by
  rw [JobReport.jobClass_eq_outcome_iff,jobReport]
  cases m.task? x.taskId with
  | none => simp
  | some t => simp

theorem outcome_eq_of_isDone (hdone : j.state.isDone = true) (hj : j.jobClass = j.outcome) :
    j.jobClass = .passed ∨ j.jobClass = .failed := by
  rw [hj,JobReport.outcome,if_pos hdone]
  split_ifs
  · exact .inl rfl
  · exact .inr rfl

theorem jobClass_of_isLost (h : j.state.isLost = true) : j.jobClass = .failed := by
  have hne : ¬(j.state = .completed ∧ j.exitCode.any Json.isZero = true) := by
    rintro ⟨hcompleted,-⟩
    rw [hcompleted] at h
    exact absurd h (by decide)
  rw [JobReport.jobClass,if_neg hne,if_pos h]

theorem jobClass_of_not_isDone (h : j.state.isDone = false) :
    j.jobClass = .running ∨ j.jobClass = .pending := by
  cases hstate : j.state <;> simp [hstate,TaskStatus.isDone] at h <;>
    simp [JobReport.jobClass,hstate,TaskStatus.isLost]

theorem outcomes_iff : (∀ j ∈ (b.report m).jobs, j.jobClass = j.outcome) ↔ ∀ x ∈ b.jobs, ∀ t,
    m.task? x.taskId = some t → t.status ≠ .migrated ∧ t.status ≠ .partialDone ∧
      (t.status = .completed →
        (t.result.bind TaskResult.exitCode).any Json.isZero = true) := by
  rw [report,List.forall_mem_map]
  exact forall₂_congr fun x _ => jobClass_jobReport_iff x

theorem count_eq_zero {c : JobClass} (h : ∀ j ∈ (b.report m).jobs, j.jobClass ≠ c) :
    (b.report m).summary.count c = 0 := by
  rw [(report_summary b m).2 c,List.countP_eq_zero]
  intro j hj
  simpa using h j hj

theorem report_sum (b : TestBatch) (m : ClusterMaster) :
    (b.report m).summary.passed + (b.report m).summary.failed + (b.report m).summary.running +
      (b.report m).summary.pending = (b.report m).summary.total := by
  obtain ⟨htotal,hcounts⟩ := report_summary b m
  have hsum := JobClass.countP_sum (b.report m).jobs
  simp only [← hcounts] at hsum
  exact hsum.trans htotal.symm

/-- When every job has ended and is counted by its outcome, nothing is running or pending. -/
theorem settled_of_isDone (hgood : ∀ j ∈ (b.report m).jobs, j.jobClass = j.outcome)
    (hdone : ∀ j ∈ (b.report m).jobs, j.state.isDone = true) :
    (b.report m).summary.running = 0 ∧ (b.report m).summary.pending = 0 ∧
      (b.report m).summary.passed + (b.report m).summary.failed =
        (b.report m).summary.total := by
  have hclass : ∀ j ∈ (b.report m).jobs, j.jobClass = .passed ∨ j.jobClass = .failed :=
    fun j hj => outcome_eq_of_isDone (hdone j hj) (hgood j hj)
  have hrunning : (b.report m).summary.running = 0 := count_eq_zero (c := .running) fun j hj h => by
    rcases hclass j hj with hpassed | hfailed
    · exact absurd (hpassed.symm.trans h) (by decide)
    · exact absurd (hfailed.symm.trans h) (by decide)
  have hpending : (b.report m).summary.pending = 0 := count_eq_zero (c := .pending) fun j hj h => by
    rcases hclass j hj with hpassed | hfailed
    · exact absurd (hpassed.symm.trans h) (by decide)
    · exact absurd (hfailed.symm.trans h) (by decide)
  have hsum := report_sum b m
  exact ⟨hrunning,hpending,by omega⟩

/-- A report keeps its promises if and only if no job has ended as migrated, partly done or
completed without exit code 0. -/
theorem report_agrees_iff (b : TestBatch) (m : ClusterMaster) :
    (b.report m).Agrees ↔ b.Reportable m := by
  obtain ⟨htotal,hcounts⟩ := report_summary b m
  constructor
  · intro h
    refine ⟨outcomes_iff.mp h.outcomes,fun hnil hstored => ?_⟩
    have hrunning : (b.report m).status = "running" := by
      simpa [report,deriveStatus,states,hnil] using hstored
    have hpos := h.running hrunning
    have hlength : (b.report m).jobs.length = 0 := by rw [report,hnil]; rfl
    have hsum := report_sum b m
    omega
  · rintro ⟨hjobs,hempty⟩
    have hgood := outcomes_iff.mpr hjobs
    have hstate : ∀ j ∈ (b.report m).jobs, j.state ∈ b.states m := by
      intro j hj
      rw [← report_states]
      exact List.mem_map_of_mem hj
    have hdone_of : (∀ s ∈ b.states m, s.isDone = true) →
        (b.report m).summary.running = 0 ∧ (b.report m).summary.pending = 0 ∧
          (b.report m).summary.passed + (b.report m).summary.failed =
            (b.report m).summary.total :=
      fun h => settled_of_isDone hgood fun j hj => h _ (hstate j hj)
    suffices hlaws : (IsTerminal (b.report m).status → (b.report m).summary.running = 0 ∧
        (b.report m).summary.pending = 0 ∧
        (b.report m).summary.passed + (b.report m).summary.failed = (b.report m).summary.total) ∧
        ((b.report m).status = "failed" →
          (b.report m).summary.failed = (b.report m).summary.total) ∧
        ((b.report m).status = "running" →
          0 < (b.report m).summary.running + (b.report m).summary.pending) from
      ⟨htotal,hcounts,report_sum b m,hgood,hlaws.1,hlaws.2.1,hlaws.2.2⟩
    rcases eq_or_ne b.jobs [] with hnil | hne
    · have hsettled := hdone_of (by simp [states,hnil])
      have hlength : (b.report m).jobs.length = 0 := by rw [report,hnil]; rfl
      refine ⟨fun _ => hsettled,fun _ => by omega,fun hstatus => ?_⟩
      have hstored : b.status = "running" := by
        simpa [report,deriveStatus,states,hnil] using hstatus
      exact absurd hstored (hempty hnil)
    · rcases deriveStatus_cases (m := m) hne with ⟨hstatus,hall⟩ | ⟨hstatus,hall⟩ |
        ⟨hstatus,hall⟩ | ⟨hstatus,s,hs,hnot⟩
      · have hsettled := hdone_of fun s hs => by rw [hall s hs]; rfl
        exact ⟨fun _ => hsettled,fun h => absurd (hstatus.symm.trans h) (by decide),
          fun h => absurd (hstatus.symm.trans h) (by decide)⟩
      · have hsettled := hdone_of fun s hs => by
          have hlost := hall s hs
          cases s <;> first | rfl | exact absurd hlost (by decide)
        refine ⟨fun _ => hsettled,fun _ => ?_,fun h => absurd (hstatus.symm.trans h) (by decide)⟩
        have hpassed : (b.report m).summary.passed = 0 :=
          count_eq_zero (c := .passed) fun j hj h => by
            rw [jobClass_of_isLost (hall _ (hstate j hj))] at h
            exact absurd h (by decide)
        omega
      · exact ⟨fun _ => hdone_of hall,fun h => absurd (hstatus.symm.trans h) (by decide),
          fun h => absurd (hstatus.symm.trans h) (by decide)⟩
      · refine ⟨fun h => ?_,fun h => absurd (hstatus.symm.trans h) (by decide),fun _ => ?_⟩
        · have hterminal : IsTerminal (b.deriveStatus m) := h
          rw [hstatus] at hterminal
          exact absurd hterminal (by decide)
        · rw [← report_states] at hs
          obtain ⟨j,hj,rfl⟩ := List.mem_map.mp hs
          have hclass := jobClass_of_not_isDone hnot
          have hpos : ∀ c, j.jobClass = c → 0 < (b.report m).summary.count c := by
            intro c hc
            rw [hcounts c,List.countP_pos_iff]
            exact ⟨j,hj,decide_eq_true hc⟩
          rcases hclass with hrunning | hpending
          · exact Nat.add_pos_left (hpos .running hrunning) _
          · exact Nat.add_pos_right _ (hpos .pending hpending)

/-- A master whose only task has completed, its command with exit code 1. -/
def failedCommand : ClusterMaster :=
  { ClusterMaster.create ClusterMaster.defaultConfig HaState.create with
    objects := fun _ =>
      { ClusterMaster.plainTask "t" with
        status := .completed
        result := some ⟨[⟨"n","\x7b\"exit_code\": 1\x7d"⟩],[],1,none,[]⟩ }
    tasks := (∅ : Dict TaskId Ref).set "t" 0 }

def oneTest : TestBatch := ⟨"b",0,"",[⟨"j","t","",0,""⟩],"pending"⟩

theorem failed_command_is_pending : ¬(oneTest.report failedCommand).Agrees := by
  intro h
  have hpending := (h.terminal (by decide +kernel)).2.1
  exact absurd hpending (by decide +kernel)

end TestBatch
end FusionMultiNodes

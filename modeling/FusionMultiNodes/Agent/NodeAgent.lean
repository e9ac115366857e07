import FusionMultiNodes.Master.State

/-! The entry of a `NodeAgent`: `execute_task` up to the start of the run it registers. -/
namespace FusionMultiNodes

/-- The handles are numbered in the order in which they are created. -/
structure NodeAgent where
  nodeId : NodeId
  maxTasks : ℕ
  runningTaskHandles : Dict String ℕ
  handleSeq : ℕ
  anonTaskSeq : ℕ
  lastFencingToken : ℕ

inductive Refusal
  | dedupBlocked
  | fencingRejected
  | sandboxBlocked (reason : String)
  | overload
  deriving DecidableEq

def Refusal.error : Refusal → String
  | .dedupBlocked => "task_id 已在运行 (重复派发)"
  | .fencingRejected => "stale master (fencing token expired)"
  | .sandboxBlocked reason => reason
  | .overload => "节点任务已满"

namespace NodeAgent

def create (nodeId : NodeId) (maxTasks : ℕ) : NodeAgent := ⟨nodeId,maxTasks,∅,0,0,0⟩

/-- The task id of a request; one without an id gets an anonymous one. -/
def nameTask (a : NodeAgent) (q : ExecuteRequest) : NodeAgent × String :=
  if q.dispatchId = "" then
    ({ a with anonTaskSeq := a.anonTaskSeq+1 },"anon-" ++ toString (a.anonTaskSeq+1))
  else (a,q.dispatchId)

/-- `execute_task` up to the start of the run, with the verdict of the sandbox gate on the
payload. The id of the run that is started, or the refusal. -/
def executeTask (a : NodeAgent) (q : ExecuteRequest) (gate : Option String) :
    NodeAgent × Except Refusal String :=
  if a.runningTaskHandles.contains q.dispatchId = true ∧ q.dispatchId ≠ "" then (a,.error .dedupBlocked)
  else
    let p := a.nameTask q
    if q.fencingToken ≠ 0 ∧ q.fencingToken < a.lastFencingToken then
      (p.1,.error .fencingRejected)
    else
      let a₁ := { p.1 with lastFencingToken := max a.lastFencingToken q.fencingToken }
      match gate with
      | some reason => (a₁,.error (.sandboxBlocked reason))
      | none =>
        if a.maxTasks ≤ a.runningTaskHandles.entries.length then (a₁,.error .overload)
        else
          ({ a₁ with
            runningTaskHandles := a.runningTaskHandles.set p.2 a.handleSeq
            handleSeq := a.handleSeq+1 },.ok p.2)

def finishTask (a : NodeAgent) (taskId : String) : NodeAgent :=
  { a with runningTaskHandles := a.runningTaskHandles.erase taskId }

end NodeAgent
end FusionMultiNodes

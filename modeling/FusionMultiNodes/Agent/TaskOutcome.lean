import FusionMultiNodes.Agent.NodeAgent

/-! How an agent's work on a task ends, and the dictionary it answers with. -/
namespace FusionMultiNodes

inductive TaskOutcome
  /-- A result without an error. -/
  | finished (hiddenStates : Option String) (body : String)
  /-- The entry refuses the task. -/
  | refused (r : Refusal)
  /-- The backend's 429 has not gone away. -/
  | rateLimited (error : String)
  /-- `cancel_task`. -/
  | cancelled
  /-- An unknown type, an illegal name, an unsafe peer, a missing field or another backend. -/
  | invalidInput (error : String)
  | testExecDisabled
  | sandboxUnavailable
  | invalidCommand
  | upstreamMissing
  /-- The work raises; the flag tells whether the backend has refused the input or the model with a
  client error. -/
  | raised (error : String) (clientError : Bool)
  /-- What fusion-desk answers; `none` is not an object. -/
  | forwarded (answer : Option AgentResult)

namespace TaskOutcome

def errorResult (error : String) : AgentResult :=
  ⟨false,false,false,false,false,false,some error,none,""⟩

def refusedResult : Refusal → AgentResult
  | .dedupBlocked => { errorResult Refusal.dedupBlocked.error with dedupBlocked := true }
  | .fencingRejected => { errorResult Refusal.fencingRejected.error with fencingRejected := true }
  | .sandboxBlocked reason => { errorResult reason with sandboxBlocked := true }
  | .overload => { errorResult Refusal.overload.error with overload := true }

/-- What `execute_task` returns. The flags of a cancellation and of the test refusals are none that
a master looks at. -/
def reply : TaskOutcome → AgentReply
  | .finished hiddenStates body => .dict ⟨false,false,false,false,false,false,none,hiddenStates,body⟩
  | .refused r => .dict (refusedResult r)
  | .rateLimited error => .dict { errorResult error with rateLimited := true }
  | .cancelled => .dict (errorResult "cancelled")
  | .invalidInput error => .dict (errorResult error)
  | .testExecDisabled => .dict (errorResult "测试执行未启用 (设 FUSION_NODE_TEST_EXEC=1)")
  | .sandboxUnavailable => .dict (errorResult "沙箱未配置, 拒绝执行测试")
  | .invalidCommand => .dict (errorResult "command 必须为非空 list[str]")
  | .upstreamMissing =>
    .dict { errorResult "上游 /distributed/* 未实现 (fusion-mlx#621)" with upstreamMissing := true }
  | .raised error _ => .dict (errorResult error)
  | .forwarded (some r) => .dict r
  | .forwarded none => .notDict

/-- Something on the node has failed; all other ends are those of a node that works. -/
def nodeFailed : TaskOutcome → Bool
  | .raised _ clientError => !clientError
  | _ => false

end TaskOutcome
end FusionMultiNodes

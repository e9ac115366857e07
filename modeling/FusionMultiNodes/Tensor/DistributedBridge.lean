import FusionMultiNodes.Agent.Backend
import FusionMultiNodes.Lib.Machine

/-! The pipelines of the distributed bridge. Calls of `pipeline_inference` interleave where they
await a node's answer. -/
namespace FusionMultiNodes

inductive PipelineStatus
  | running | completed | failed
  deriving DecidableEq

structure PipelineRecord where
  model : String
  nodes : List String
  status : PipelineStatus
  startedAt : ℚ
  deriving DecidableEq

abbrev PipelineTable := Dict String PipelineRecord

def maxPipelines : ℕ := 100

def cleanupCompletedPipelines (table : PipelineTable) : PipelineTable :=
  let kept := table.filter fun _ p => decide (p.status ≠ .completed ∧ p.status ≠ .failed)
  if maxPipelines < kept.entries.length then
    match kept.entries with
    | [] => kept
    | oldest::_ => kept.erase oldest.1
  else kept

/-- The id of a pipeline that begins when the table has `count` entries. -/
def pipelineIdOf (modelName : String) (count : ℕ) : String :=
  String.ofList ("pipe_".toList ++ (modelName.toList ++ '_'::(natDigits count).map Digit.char))

theorem pipelineIdOf_inj {m m' : String} {n n' : ℕ} :
    pipelineIdOf m n = pipelineIdOf m' n' ↔ m = m' ∧ n = n' := by
  constructor
  · intro h
    obtain ⟨hm,hn⟩ := append_sep_inj (underscore_not_mem_digits _) (underscore_not_mem_digits _)
      (List.append_cancel_left (String.ofList_injective h))
    exact ⟨String.toList_injective hm,natDigits_inj (map_char_inj hn)⟩
  · rintro ⟨rfl,rfl⟩
    rfl

/-- A call that awaits the answer of stage `i`, or of the decoder behind the last stage. Inputs and
outputs are of a type `V`. -/
structure PipelineCall (V : Type) where
  modelName : String
  prompt : V
  nodeChain : List String
  pipelineId : String
  startedAt : ℚ
  i : ℕ
  currentInput : V
  /-- History variable: the size of the table when the call began. -/
  count : ℕ
  /-- History variable: the `output` of every stage that has answered. -/
  outputs : List (Option V)

inductive PipelineAnswer (V : Type)
  | result (pipelineId : String) (output : V) (decoded : Bool) (nodes : ℕ)
  | error (error pipelineId : String)
  /-- The `KeyError` of a record that is missing. -/
  | raised (pipelineId : String)
  deriving DecidableEq

structure PipelineEnd (V : Type) where
  call : PipelineCall V
  decoded : Option (Option V)
  answer : PipelineAnswer V

/-- The answer of a stage; `failed` is any exception of the request, its status or its body. -/
inductive StageReply (V : Type)
  | output (value : Option V)
  | failed

inductive DecodeReply (V : Type)
  | output (value : Option V)
  | notReady
  | failed

namespace PipelineCall

variable {V : Type} (c : PipelineCall V)

def record : PipelineRecord := ⟨c.modelName,c.nodeChain,.running,c.startedAt⟩

def failStep (table : PipelineTable) : PipelineTable × PipelineAnswer V :=
  match table.get? c.pipelineId with
  | none => (table,.raised c.pipelineId)
  | some p =>
    (table.set c.pipelineId { p with status := .failed },.error "流水线步骤执行失败" c.pipelineId)

def complete (table : PipelineTable) (decoded : Option (Option V)) :
    PipelineTable × PipelineAnswer V :=
  match table.get? c.pipelineId with
  | none => (table,.raised c.pipelineId)
  | some p =>
    (cleanupCompletedPipelines (table.set c.pipelineId { p with status := .completed }),
      .result c.pipelineId ((decoded.getD none).getD c.currentInput) decoded.isSome
        c.nodeChain.length)

/-- The call goes on to its next `await`, or it ends. -/
def goOn (table : PipelineTable) : PipelineTable × Option (PipelineAnswer V) :=
  match c.nodeChain[c.i]? with
  | some node =>
    if isSafePathSegment node then (table,none) else (c.failStep table).map id some
  | none =>
    match c.nodeChain.getLast? with
    | none => (c.complete table none).map id some
    | some final =>
      if isSafePathSegment final then (table,none) else (c.complete table none).map id some

def feed (value : Option V) : PipelineCall V :=
  { c with
    i := c.i+1
    currentInput := value.getD c.currentInput
    outputs := c.outputs ++ [value] }

end PipelineCall

/-- The registry of the bridge, the calls in progress and those that have ended. -/
structure DistributedMLXBridge (V : Type) where
  activePipelines : PipelineTable
  calls : Dict ℕ (PipelineCall V)
  ended : List (PipelineEnd V)
  nextCall : ℕ

inductive PipelineEvent (V : Type)
  | start (modelName : String) (prompt : V) (nodeChain : List String) (now : ℚ)
  | stage (call : ℕ) (reply : StageReply V)
  | decode (call : ℕ) (reply : DecodeReply V)
  /-- The coroutine is cancelled where it awaits. -/
  | cancel (call : ℕ)

namespace DistributedMLXBridge

variable {V : Type}

def create : DistributedMLXBridge V := ⟨∅,∅,[],0⟩

variable (w : DistributedMLXBridge V)

/-- A call has come to its next `await` or to its end. -/
def settle (k : ℕ) (c : PipelineCall V) (decoded : Option (Option V)) :
    PipelineTable × Option (PipelineAnswer V) → DistributedMLXBridge V
  | (table,none) => { w with activePipelines := table, calls := w.calls.set k c }
  | (table,some a) =>
    { w with
      activePipelines := table
      calls := w.calls.erase k
      ended := w.ended ++ [⟨c,decoded,a⟩] }

def newCall (modelName : String) (prompt : V) (nodeChain : List String) (now : ℚ) :
    PipelineCall V where
  modelName := modelName
  prompt := prompt
  nodeChain := nodeChain
  pipelineId := pipelineIdOf modelName w.activePipelines.entries.length
  startedAt := now
  i := 0
  currentInput := prompt
  count := w.activePipelines.entries.length
  outputs := []

def step : PipelineEvent V → Option (DistributedMLXBridge V)
  | .start modelName prompt nodeChain now =>
    let c := w.newCall modelName prompt nodeChain now
    some ({ w with nextCall := w.nextCall+1 }.settle w.nextCall c none
      (c.goOn (w.activePipelines.set c.pipelineId c.record)))
  | .stage k reply =>
    match w.calls.get? k with
    | none => none
    | some c =>
      if c.i < c.nodeChain.length then
        match reply with
        | .output value =>
          some (w.settle k (c.feed value) none ((c.feed value).goOn w.activePipelines))
        | .failed => some (w.settle k c none ((c.failStep w.activePipelines).map id some))
      else none
  | .decode k reply =>
    match w.calls.get? k with
    | none => none
    | some c =>
      if c.i < c.nodeChain.length then none
      else
        let decoded := match reply with
          | .output value => some value
          | _ => none
        some (w.settle k c decoded ((c.complete w.activePipelines decoded).map id some))
  | .cancel k =>
    match w.calls.get? k with
    | none => none
    | some _ => some { w with calls := w.calls.erase k }

def machine : Machine (DistributedMLXBridge V) (PipelineEvent V) := ⟨step⟩

end DistributedMLXBridge

/-- What a call returns whose stages have all answered. -/
def PipelineEnd.expected {V : Type} (x : PipelineEnd V) : PipelineAnswer V :=
  let last := x.call.outputs.foldl (fun input value => value.getD input) x.call.prompt
  .result x.call.pipelineId ((x.decoded.getD none).getD last) x.decoded.isSome
    x.call.nodeChain.length

namespace DistributedMLXBridge

variable {V : Type}

/-- The calls in progress have distinct ids and find their records as they wrote them, and each
call whose stages all answered has returned its result. -/
structure Separate (w : DistributedMLXBridge V) : Prop where
  distinct : ∀ k k' c c', w.calls.get? k = some c → w.calls.get? k' = some c' →
    c.pipelineId = c'.pipelineId → k = k'
  recorded : ∀ k c, w.calls.get? k = some c → w.activePipelines.get? c.pipelineId = some c.record
  returned : ∀ x ∈ w.ended, x.call.outputs.length = x.call.nodeChain.length →
    x.answer = x.expected

variable (w : DistributedMLXBridge V)

/-- The records of pipelines that have not ended, but for one. -/
def others (id : String) : PipelineTable :=
  (w.activePipelines.erase id).filter fun _ p =>
    decide (p.status ≠ .completed ∧ p.status ≠ .failed)

/-- The oldest of too many records is not the one of a call in progress. -/
def SparesOthers (id : String) : Prop :=
  ∀ p ∈ (w.others id).entries.head?, maxPipelines < (w.others id).entries.length →
    ∀ k c, w.calls.get? k = some c → c.pipelineId ≠ p.1

/-- No call in progress of the same model began when the table was as large as it is when a call
begins, and a call that ends does so with no more than the greatest number of other records, or
the oldest of them has no call. -/
def Apart : PipelineEvent V → Prop
  | .start modelName _ nodeChain _ =>
    (∀ k c, w.calls.get? k = some c → c.modelName = modelName →
      c.count ≠ w.activePipelines.entries.length) ∧
      (nodeChain = [] → w.SparesOthers (pipelineIdOf modelName w.activePipelines.entries.length))
  | .decode k _ => ∀ c, w.calls.get? k = some c → w.SparesOthers c.pipelineId
  | _ => True

end DistributedMLXBridge
end FusionMultiNodes

import FusionMultiNodes.Lib.Json
import Mathlib.Data.List.Infix

/-! What an agent does with an execute request and with a chat request, up to the call of its
inference backend. JSON objects are dictionaries under the names of their fields. -/
namespace FusionMultiNodes

def spread (d e : JsonDict) : JsonDict := e.entries.foldl (fun d p => d.set p.1 p.2) d

def Json.truthy : Json → Bool
  | .null => false
  | .bool b => b
  | .int n => decide (n ≠ 0)
  | .float x => !x.isZero
  | .str s => decide (s ≠ "")
  | .arr l => !l.isEmpty
  | .obj ms => !ms.isEmpty

/-- `re.match(r"^[a-zA-Z0-9_.\-]+$", value)`; a line break may stand at the end. -/
def matchesSegment (s : List Char) : Bool :=
  let word := if s.getLast? = some '\n' then s.dropLast else s
  !word.isEmpty && word.all fun c =>
    c.isAlphanum || c = '_' || c = '.' || c = '-'

def isSafePathSegment (value : String) : Bool :=
  let s := value.toList
  if s = [] ∨ 128 < s.length then false
  else if '/' ∈ s ∨ '\\' ∈ s ∨ Char.ofNat 0 ∈ s then false
  else if value = "." ∨ value = ".." then false
  else if s.head? = some '.' ∧ ['.','.'] <:+: s then false
  else matchesSegment s

inductive BackendCall
  /-- `POST /v1/chat/completions`. -/
  | chat (body : JsonDict)
  /-- `POST /v1/embeddings`. -/
  | embed (body : JsonDict)
  /-- `POST /distributed/load_shard` and then `/distributed/pipeline_step` for the shard. -/
  | pipelineStep (shard body : JsonDict)

namespace FusionMLXBackend

def chat (model : String) (messages temperature maxTokens : Json) (kwargs : JsonDict) :
    BackendCall :=
  .chat (spread (dictOf [("model",.str model),("messages",messages),("temperature",temperature),
    ("max_tokens",maxTokens)]) kwargs)

def embed (model : String) (inputText : Json) : BackendCall :=
  .embed (dictOf [("model",.str model),("input",inputText)])

end FusionMLXBackend

def allowedTaskTypes : List String :=
  ["inference","embedding","plugin","model_sync","pipeline_step","test"]

def allowedExtraKeys : List String := ["temperature","top_p","top_k","repeat_penalty","seed"]

def pipelineExtraKeys : List String :=
  ["model_id","shard_index","layer_range","hidden_states","input_ids","position_ids"]

def testExtraKeys : List String := ["command","cwd","env","timeout"]

structure AgentServer.ExecuteRequest where
  taskId : String := ""
  taskType : String := "inference"
  modelName : String := ""
  prompt : String := ""
  messages : List Json := []
  maxTokens : ℤ := 2048
  /-- 0.7 by default. -/
  temperature : Decimal := ⟨false,0,[7],rfl⟩
  extra : JsonDict := ∅

/-- A field of a request body: its default where it is left out, `none` where its value has another
type. -/
def field {α : Type} (body : JsonDict) (name : String) (default : α) (read : Json → Option α) :
    Option α :=
  match body.get? name with
  | none => some default
  | some v => read v

def readStr : Json → Option String
  | .str s => some s
  | _ => none

def readList : Json → Option (List Json)
  | .arr l => some l
  | _ => none

def readInt : Json → Option ℤ
  | .int n => some n
  | _ => none

def readFloat : Json → Option Decimal
  | .float x => some x
  | _ => none

def readBool : Json → Option Bool
  | .bool b => some b
  | _ => none

def readDict : Json → Option JsonDict
  | .obj ms => some (dictOf ms)
  | _ => none

def defaultTemperature : Decimal := ⟨false,0,[7],rfl⟩

def AgentServer.ExecuteRequest.read (body : JsonDict) : Option AgentServer.ExecuteRequest := do
  let taskId ← field body "task_id" "" readStr
  let taskType ← field body "task_type" "inference" readStr
  let modelName ← field body "model_name" "" readStr
  let prompt ← field body "prompt" "" readStr
  let messages ← field body "messages" [] readList
  let maxTokens ← field body "max_tokens" 2048 readInt
  let temperature ← field body "temperature" defaultTemperature readFloat
  let extra ← field body "extra" ∅ readDict
  some ⟨taskId,taskType,modelName,prompt,messages,maxTokens,temperature,extra⟩

/-- `{k: v for k, v in extra.items() if k in keys}`. -/
def keep (keys : List String) (extra : JsonDict) : JsonDict :=
  extra.filter fun k _ => decide (k ∈ keys)

/-- The `params` of the task that the execute route makes. -/
def AgentServer.ExecuteRequest.params (req : AgentServer.ExecuteRequest) : JsonDict :=
  spread (spread (spread
    (dictOf [("prompt",.str req.prompt),("messages",.arr req.messages),
      ("max_tokens",.int req.maxTokens),("temperature",.float req.temperature)])
    (keep allowedExtraKeys req.extra)) (keep pipelineExtraKeys req.extra))
    (keep testExtraKeys req.extra)

namespace NodeAgent

def userMessage (prompt : Json) : Json := .obj [("role",.str "user"),("content",prompt)]

def executeInference (model : String) (params : JsonDict) : Option BackendCall :=
  if model ≠ "" ∧ isSafePathSegment model = false then none
  else
    let prompt := (params.get? "prompt").getD (.str "")
    let messages := (params.get? "messages").getD (.arr [])
    let messages :=
      if messages.truthy = false ∧ prompt.truthy then .arr [userMessage prompt] else messages
    some (FusionMLXBackend.chat model messages
      ((params.get? "temperature").getD (.float defaultTemperature))
      ((params.get? "max_tokens").getD (.int 4096)) ∅)

def executeEmbedding (model : String) (params : JsonDict) : Option BackendCall :=
  let text := (params.get? "text").getD (.str "")
  if isSafePathSegment model = false then none else some (FusionMLXBackend.embed model text)

/-- `_execute_pipeline_step`, with the shard id that `load_shard` gives. -/
def executePipelineStep (params : JsonDict) (shardId : String) : Option BackendCall :=
  let modelId := (params.get? "model_id").getD (.str "")
  let layerRange := (params.get? "layer_range").getD (.arr [])
  if modelId.truthy = false ∨ layerRange.truthy = false then none
  else
    some (.pipelineStep
      (dictOf [("model_id",modelId),("shard_index",(params.get? "shard_index").getD (.int 0)),
        ("layer_range",layerRange),("dtype",.null)])
      (dictOf [("shard_id",.str shardId),("hidden_states",(params.get? "hidden_states").getD .null),
        ("input_ids",(params.get? "input_ids").getD .null),
        ("position_ids",(params.get? "position_ids").getD .null)]))

/-- The call that a task makes once it is let in; the other task types make none. The gate refuses
an unsafe model of an inference or embedding task. -/
def backendCall (req : AgentServer.ExecuteRequest) (shardId : String) : Option BackendCall :=
  if req.taskType ∉ allowedTaskTypes then none
  else if req.taskType = "inference" then executeInference req.modelName req.params
  else if req.taskType = "embedding" then executeEmbedding req.modelName req.params
  else if req.taskType = "pipeline_step" then executePipelineStep req.params shardId
  else none

end NodeAgent

structure ChatCompletionsRequest where
  model : String
  messages : List Json
  temperature : Decimal
  maxTokens : ℤ
  stream : Bool
  extra : JsonDict

def ChatCompletionsRequest.read (body : JsonDict) : Option ChatCompletionsRequest := do
  let model ← (body.get? "model").bind readStr
  let messages ← field body "messages" [] readList
  let temperature ← field body "temperature" defaultTemperature readFloat
  let maxTokens ← field body "max_tokens" 4096 readInt
  let stream ← field body "stream" false readBool
  let extra ← field body "extra" ∅ readDict
  some ⟨model,messages,temperature,maxTokens,stream,extra⟩

/-- The chat route of the agent. A keyword that is given twice raises. -/
def ChatCompletionsRequest.backendCall (req : ChatCompletionsRequest) : Option BackendCall :=
  if isSafePathSegment req.model = false then none
  else
    let extra := keep allowedExtraKeys req.extra
    if req.stream then
      some (.chat ((spread (dictOf [("model",.str req.model),("messages",.arr req.messages),
        ("temperature",.float req.temperature),("max_tokens",.int req.maxTokens)]) extra).set
        "stream" (.bool true)))
    else if extra.contains "temperature" then none
    else
      some (FusionMLXBackend.chat req.model (.arr req.messages) (.float req.temperature)
        (.int req.maxTokens) extra)

end FusionMultiNodes

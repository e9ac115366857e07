import FusionMultiNodes.Agent.Backend

/-! The parameters of a request on their way through the master: the submission routes, the
dispatch body, the chat proxy, and what reaches the inference backend of the agent. -/
namespace FusionMultiNodes

structure Scrubber where
  text : String → String
  message : Json → Json

def Scrubber.off : Scrubber := ⟨id,id⟩

structure TaskSubmitBody where
  pipeline : Bool := false
  modelName : Option String := none
  taskType : Option String := none
  prompt : Option String := none
  messages : Option (List Json) := none
  maxTokens : Option ℤ := none
  temperature : Option Decimal := none
  /-- Fields that the schema does not declare. -/
  undeclared : JsonDict := ∅

/-- The task that both submission routes make, as far as it is dispatched. -/
structure SubmittedTask where
  pipeline : Bool
  modelName : String
  taskType : String
  params : JsonDict

namespace TaskSubmitBody

variable (body : TaskSubmitBody)

def model : String := body.modelName.getD ""

def promptText : String := body.prompt.getD ""

def messageList : List Json := body.messages.getD []

def submit : SubmittedTask where
  pipeline := body.pipeline
  modelName := body.model
  taskType := body.taskType.getD "inference"
  params := dictOf [("prompt",.str body.promptText),("messages",.arr body.messageList),
    ("max_tokens",.int (body.maxTokens.getD 2048)),
    ("temperature",.float (body.temperature.getD defaultTemperature))]

end TaskSubmitBody

/-- What the dispatch of a pipeline step takes from the task's shards and the step before. -/
structure PipelineStep where
  /-- Whether it is the step of the first node. -/
  first : Bool
  shardIndex : ℕ
  layerRange : List Json
  hiddenStates : Option String
  shardId : String

namespace SubmittedTask

variable (task : SubmittedTask) (scrub : Scrubber)

def scrubPayload (payload : JsonDict) : JsonDict :=
  let payload := match payload.get? "prompt" with
    | some (.str s) => payload.set "prompt" (.str (scrub.text s))
    | _ => payload
  match payload.get? "messages" with
  | some (.arr l) => payload.set "messages" (.arr (l.map scrub.message))
  | _ => payload

/-- The body that `_dispatch_to_node` posts. -/
def dispatchPayload (taskId : String) (fencingToken : ℕ) (leaderId : String) : JsonDict :=
  let payload :=
    if task.taskType = "test" then
      dictOf [("task_id",.str taskId),("task_type",.str "test"),
        ("model_name",.str task.modelName),
        ("extra",.obj (keep ["command","cwd","env","timeout"] task.params).entries)]
    else
      scrubPayload scrub (dictOf [("task_id",.str taskId),("task_type",.str task.taskType),
        ("model_name",.str task.modelName),
        ("prompt",(task.params.get? "prompt").getD (.str "")),
        ("messages",(task.params.get? "messages").getD (.arr [])),
        ("max_tokens",(task.params.get? "max_tokens").getD (.int 2048)),
        ("temperature",(task.params.get? "temperature").getD (.float defaultTemperature)),
        ("extra",.obj (keep ["top_p","top_k","repeat_penalty","seed"] task.params).entries)])
  (payload.set "fencing_token" (.int fencingToken)).set "leader_id" (.str leaderId)

/-- The body of a pipeline step; what is not there is left out. -/
def pipelinePayload (taskId : String) (fencingToken : ℕ) (leaderId : String)
    (step : PipelineStep) : JsonDict :=
  let hidden := match step.hiddenStates with
    | some s => [("hidden_states",Json.str s)]
    | none => []
  let inputIds := match task.params.get? "input_ids" with
    | some v => if step.first then [("input_ids",v)] else []
    | none => []
  let payload := dictOf [("task_id",.str taskId),("task_type",.str "pipeline_step"),
    ("model_name",.str task.modelName),
    ("extra",.obj ([("model_id",(task.params.get? "model_id").getD (.str task.modelName)),
      ("shard_index",Json.int step.shardIndex),("layer_range",Json.arr step.layerRange)] ++
      hidden ++ inputIds))]
  (payload.set "fencing_token" (.int fencingToken)).set "leader_id" (.str leaderId)

def backendCall (taskId : String) (fencingToken : ℕ) (leaderId : String) (step : PipelineStep) :
    Option BackendCall :=
  let payload := if task.pipeline then task.pipelinePayload taskId fencingToken leaderId step
    else task.dispatchPayload scrub taskId fencingToken leaderId
  (AgentServer.ExecuteRequest.read payload).bind fun req => NodeAgent.backendCall req step.shardId

end SubmittedTask

structure ChatBody where
  model : String
  messages : Option (List Json) := none
  temperature : Option Decimal := none
  maxTokens : Option ℤ := none
  stream : Bool := false
  extra : JsonDict := ∅
  /-- Fields that the schema does not declare. -/
  undeclared : JsonDict := ∅

namespace ChatBody

variable (body : ChatBody) (scrub : Scrubber)

def messageList : List Json := body.messages.getD []

def proxyPayload : JsonDict :=
  dictOf [("model",.str body.model),("messages",.arr (body.messageList.map scrub.message)),
    ("temperature",.float (body.temperature.getD defaultTemperature)),
    ("max_tokens",.int (body.maxTokens.getD 4096)),("stream",.bool body.stream),
    ("extra",.obj body.extra.entries)]

def backendCall : Option BackendCall :=
  (ChatCompletionsRequest.read (body.proxyPayload scrub)).bind
    ChatCompletionsRequest.backendCall

end ChatBody

inductive ClientRequest
  | task (body : TaskSubmitBody)
  | chat (body : ChatBody)

/-- The sampling parameters that the schemas do not declare as fields. -/
def samplingExtras : List String := ["top_p","top_k","repeat_penalty","seed"]

def declaredSampling (maxTokens : Option ℤ) (temperature : Option Decimal) :
    List (String × Json) :=
  (maxTokens.map fun n => ("max_tokens",Json.int n)).toList ++
    (temperature.map fun x => ("temperature",Json.float x)).toList

def undeclaredSampling (undeclared : JsonDict) : List (String × Json) :=
  (keep samplingExtras undeclared).entries

namespace ClientRequest

def model : ClientRequest → String
  | .task body => body.model
  | .chat body => body.model

def prompt : ClientRequest → String
  | .task body => body.promptText
  | .chat _ => ""

def messages : ClientRequest → List Json
  | .task body => body.messageList
  | .chat body => body.messageList

def sampling : ClientRequest → List (String × Json)
  | .task body => declaredSampling body.maxTokens body.temperature ++
    undeclaredSampling body.undeclared
  | .chat body => declaredSampling body.maxTokens body.temperature ++
    undeclaredSampling body.undeclared ++
    (keep ("temperature"::"max_tokens"::samplingExtras) body.extra).entries

variable (r : ClientRequest)

def CarriesSampling (body : JsonDict) : Prop :=
  ∀ p ∈ r.sampling, body.get? p.1 = some p.2

/-- The call carries what the request gives: the model, every sampling parameter under its name,
the messages, and the text (as a message of the user, or as the input of an embedding). -/
def Carries : BackendCall → Prop
  | .chat body => body.get? "model" = some (.str r.model) ∧ r.CarriesSampling body ∧
    ∃ l, body.get? "messages" = some (.arr l) ∧ (r.messages ≠ [] → l = r.messages) ∧
      (r.prompt ≠ "" → NodeAgent.userMessage (.str r.prompt) ∈ l) ∧
      (r.messages = [] → r.prompt = "" → l = [])
  | .embed body => body.get? "model" = some (.str r.model) ∧ r.CarriesSampling body ∧
    body.get? "input" = some (.str r.prompt) ∧ r.messages = []
  | .pipelineStep shard body => shard.get? "model_id" = some (.str r.model) ∧
    r.CarriesSampling body ∧ r.prompt = "" ∧ r.messages = []

end ClientRequest

structure Route where
  scrub : Scrubber
  taskId : String
  fencingToken : ℕ
  leaderId : String
  step : PipelineStep

def ClientRequest.backendCall (route : Route) : ClientRequest → Option BackendCall
  | .task body =>
    body.submit.backendCall route.scrub route.taskId route.fencingToken route.leaderId route.step
  | .chat body => body.backendCall route.scrub

def TaskSubmitBody.Whole (body : TaskSubmitBody) (route : Route) : Prop :=
  if body.pipeline then
    body.model = "" ∨ route.step.layerRange = [] ∨
      (body.promptText = "" ∧ body.messageList = [] ∧ body.maxTokens = none ∧
        body.temperature = none ∧ undeclaredSampling body.undeclared = [])
  else if body.taskType.getD "inference" = "inference" then
    (body.model ≠ "" ∧ isSafePathSegment body.model = false) ∨
      (undeclaredSampling body.undeclared = [] ∧
        (body.messageList = [] → route.scrub.text body.promptText = body.promptText) ∧
        body.messageList.map route.scrub.message = body.messageList ∧
        (body.promptText = "" ∨ body.messageList = [] ∨
          NodeAgent.userMessage (.str body.promptText) ∈ body.messageList))
  else if body.taskType.getD "inference" = "embedding" then
    isSafePathSegment body.model = false ∨
      (body.promptText = "" ∧ body.messageList = [] ∧ body.maxTokens = none ∧
        body.temperature = none ∧ undeclaredSampling body.undeclared = [])
  else True

def ChatBody.Whole (body : ChatBody) (route : Route) : Prop :=
  isSafePathSegment body.model = false ∨
    (body.stream = false ∧ body.extra.contains "temperature" = true) ∨
    ((∀ p ∈ undeclaredSampling body.undeclared, body.extra.get? p.1 = some p.2) ∧
      body.messageList.map route.scrub.message = body.messageList ∧
      (∀ v, body.extra.get? "max_tokens" = some v → v = .int (body.maxTokens.getD 4096)) ∧
      ∀ v, body.extra.get? "temperature" = some v →
        ∀ x, body.temperature = some x → v = .float x)

def ClientRequest.Whole (route : Route) : ClientRequest → Prop
  | .task body => body.Whole route
  | .chat body => body.Whole route

@[simp] theorem spread_empty (d : JsonDict) : spread d ∅ = d := rfl

@[simp] theorem keep_empty (keys : List String) : keep keys ∅ = ∅ := rfl

theorem get?_keep (keys : List String) (extra : JsonDict) (k : String) :
    (keep keys extra).get? k = if k ∈ keys then extra.get? k else none := by
  rw [keep,Dict.get?_filter]
  by_cases hk : k ∈ keys
  · cases extra.get? k <;> simp [hk]
  · cases extra.get? k <;> simp [hk]

theorem get?_spread (d e : JsonDict) (k : String) :
    (spread d e).get? k = (e.get? k).or (d.get? k) :=
  Dict.get?_foldl_entries e.nodup d k

end FusionMultiNodes

import FusionMultiNodes.Master.Parameters

/-! When a request reaches the backend of the agent with everything that it gives. -/
namespace FusionMultiNodes

theorem params_submit (body : TaskSubmitBody) (k : String) :
    body.submit.params.get? k =
      if k = "temperature" then some (.float (body.temperature.getD defaultTemperature))
      else if k = "max_tokens" then some (.int (body.maxTokens.getD 2048))
      else if k = "messages" then some (.arr body.messageList)
      else if k = "prompt" then some (.str body.promptText)
      else none := by
  simp only [TaskSubmitBody.submit,dictOf,List.foldl_cons,List.foldl_nil,Dict.get?_set,
    Dict.get?_empty]

/-- The route has put no other sampling parameter into the task. -/
theorem keep_submit (body : TaskSubmitBody) : keep samplingExtras body.submit.params = ∅ := by
  apply Dict.ext_entries
  apply List.eq_nil_iff_forall_not_mem.mpr
  intro p hp
  have h := Dict.get?_eq_some_iff.mpr hp
  rw [get?_keep,params_submit] at h
  by_cases hk : p.1 ∈ samplingExtras
  · rw [if_pos hk] at h
    simp only [samplingExtras,List.mem_cons,List.not_mem_nil,or_false] at hk
    rcases hk with hk | hk | hk | hk <;> simp [hk] at h
  · rw [if_neg hk] at h
    cases h

theorem get?_dispatchPayload (body : TaskSubmitBody) (scrub : Scrubber) (taskId leaderId : String)
    (fencingToken : ℕ) (htest : body.submit.taskType ≠ "test") (k : String) :
    (body.submit.dispatchPayload scrub taskId fencingToken leaderId).get? k =
      if k = "leader_id" then some (.str leaderId)
      else if k = "fencing_token" then some (.int fencingToken)
      else if k = "messages" then some (.arr (body.messageList.map scrub.message))
      else if k = "prompt" then some (.str (scrub.text body.promptText))
      else if k = "extra" then some (.obj [])
      else if k = "temperature" then some (.float (body.temperature.getD defaultTemperature))
      else if k = "max_tokens" then some (.int (body.maxTokens.getD 2048))
      else if k = "model_name" then some (.str body.model)
      else if k = "task_type" then some (.str body.submit.taskType)
      else if k = "task_id" then some (.str taskId)
      else none := by
  have hextra := keep_submit body
  simp only [samplingExtras] at hextra
  simp only [SubmittedTask.dispatchPayload,if_neg htest,Dict.get?_set,params_submit,hextra,
    SubmittedTask.scrubPayload,dictOf,List.foldl_cons,List.foldl_nil]
  simp only [Dict.get?_set,reduceIte,String.reduceEq,Option.getD_some,Dict.get?_empty]
  by_cases hm : k = "messages"
  · simp only [hm,reduceIte]
  · by_cases hp : k = "prompt"
    · simp only [hp,reduceIte]
    · simp only [hm,hp,reduceIte]
      rfl

def TaskSubmitBody.executeRequest (body : TaskSubmitBody) (scrub : Scrubber) (taskId : String) :
    AgentServer.ExecuteRequest where
  taskId := taskId
  taskType := body.submit.taskType
  modelName := body.model
  prompt := scrub.text body.promptText
  messages := body.messageList.map scrub.message
  maxTokens := body.maxTokens.getD 2048
  temperature := body.temperature.getD defaultTemperature
  extra := ∅

theorem read_dispatchPayload (body : TaskSubmitBody) (scrub : Scrubber) (taskId leaderId : String)
    (fencingToken : ℕ) (htest : body.submit.taskType ≠ "test") :
    AgentServer.ExecuteRequest.read
        (body.submit.dispatchPayload scrub taskId fencingToken leaderId) =
      some (body.executeRequest scrub taskId) := by
  simp only [AgentServer.ExecuteRequest.read,field,get?_dispatchPayload _ _ _ _ _ htest,
    String.reduceEq,reduceIte]
  rfl

/-- Without `extra` the agent's parameters are the declared fields. -/
theorem get?_params (req : AgentServer.ExecuteRequest) (h : req.extra = ∅) (k : String) :
    req.params.get? k =
      if k = "temperature" then some (.float req.temperature)
      else if k = "max_tokens" then some (.int req.maxTokens)
      else if k = "messages" then some (.arr req.messages)
      else if k = "prompt" then some (.str req.prompt)
      else none := by
  simp only [AgentServer.ExecuteRequest.params,h,keep_empty,spread_empty,dictOf,List.foldl_cons,
    List.foldl_nil,Dict.get?_set,Dict.get?_empty]

theorem mem_keep_entries {keys : List String} {d : JsonDict} {p : String × Json} :
    p ∈ (keep keys d).entries ↔ p.1 ∈ keys ∧ d.get? p.1 = some p.2 := by
  rw [← Dict.get?_eq_some_iff,get?_keep]
  by_cases hk : p.1 ∈ keys
  · simp [hk]
  · simp [hk]

theorem forall_declaredSampling {maxTokens : Option ℤ} {temperature : Option Decimal}
    {d : JsonDict} :
    (∀ p ∈ declaredSampling maxTokens temperature, d.get? p.1 = some p.2) ↔
      (∀ n, maxTokens = some n → d.get? "max_tokens" = some (.int n)) ∧
        ∀ x, temperature = some x → d.get? "temperature" = some (.float x) := by
  cases maxTokens with
  | none => cases temperature <;> simp [declaredSampling]
  | some n => cases temperature <;> simp [declaredSampling]

/-- A body without the keys carries the undeclared parameters only where there are none. -/
theorem forall_undeclaredSampling {u d : JsonDict}
    (hd : ∀ k ∈ samplingExtras, d.get? k = none) :
    (∀ p ∈ undeclaredSampling u, d.get? p.1 = some p.2) ↔ undeclaredSampling u = [] := by
  constructor
  · intro h
    apply List.eq_nil_iff_forall_not_mem.mpr
    intro p hp
    have hnone := hd p.1 (mem_keep_entries.mp hp).1
    rw [h p hp] at hnone
    cases hnone
  · intro h p hp
    rw [h] at hp
    cases hp

theorem forall_sampling (body : TaskSubmitBody) {d : JsonDict}
    (hd : ∀ k ∈ "temperature"::"max_tokens"::samplingExtras, d.get? k = none) :
    (ClientRequest.task body).CarriesSampling d ↔ body.maxTokens = none ∧
      body.temperature = none ∧ undeclaredSampling body.undeclared = [] := by
  have hextras : ∀ k ∈ samplingExtras, d.get? k = none := by
    intro k hk
    exact hd k (.tail _ (.tail _ hk))
  have htemp : d.get? "temperature" = none := hd _ (.head _)
  have hmax : d.get? "max_tokens" = none := hd _ (.tail _ (.head _))
  simp only [ClientRequest.CarriesSampling,ClientRequest.sampling,List.forall_mem_append,
    forall_declaredSampling,forall_undeclaredSampling hextras,htemp,hmax]
  simp only [reduceCtorEq,imp_false,and_assoc]
  rw [← Option.eq_none_iff_forall_ne_some,← Option.eq_none_iff_forall_ne_some]

/-- The messages of the call that an inference task makes. -/
def sentMessages (body : TaskSubmitBody) (scrub : Scrubber) : List Json :=
  if body.messageList = [] ∧ scrub.text body.promptText ≠ "" then
    [NodeAgent.userMessage (.str (scrub.text body.promptText))]
  else body.messageList.map scrub.message

theorem executeInference_params (req : AgentServer.ExecuteRequest) (h : req.extra = ∅) :
    NodeAgent.executeInference req.modelName req.params =
      if req.modelName ≠ "" ∧ isSafePathSegment req.modelName = false then none
      else some (FusionMLXBackend.chat req.modelName
        (.arr (if req.messages = [] ∧ req.prompt ≠ "" then
          [NodeAgent.userMessage (.str req.prompt)] else req.messages))
        (.float req.temperature) (.int req.maxTokens) ∅) := by
  unfold NodeAgent.executeInference
  by_cases hm : req.modelName ≠ "" ∧ isSafePathSegment req.modelName = false
  · rw [if_pos hm,if_pos hm]
  · rw [if_neg hm,if_neg hm]
    simp only [get?_params req h,String.reduceEq,reduceIte,Option.getD_some,Json.truthy,
      decide_eq_true_eq,Bool.not_eq_false',List.isEmpty_iff]
    by_cases hs : req.messages = [] ∧ req.prompt ≠ ""
    · rw [if_pos hs,if_pos hs]
    · rw [if_neg hs,if_neg hs]

theorem sentMessages_iff (body : TaskSubmitBody) (scrub : Scrubber) :
    (∃ l, some (Json.arr (sentMessages body scrub)) = some (.arr l) ∧
      (body.messageList ≠ [] → l = body.messageList) ∧
      (body.promptText ≠ "" → NodeAgent.userMessage (.str body.promptText) ∈ l) ∧
      (body.messageList = [] → body.promptText = "" → l = [])) ↔
    (body.messageList = [] → scrub.text body.promptText = body.promptText) ∧
      body.messageList.map scrub.message = body.messageList ∧
      (body.promptText = "" ∨ body.messageList = [] ∨
        NodeAgent.userMessage (.str body.promptText) ∈ body.messageList) := by
  simp only [Option.some.injEq,Json.arr.injEq,exists_eq_left']
  by_cases hl : body.messageList = []
  · by_cases ht : scrub.text body.promptText = ""
    · by_cases hp : body.promptText = ""
      · simp [sentMessages,hl,hp]
      · simp [sentMessages,hl,ht,hp]
    · by_cases hp : body.promptText = ""
      · rw [hp] at ht
        simp [sentMessages,hl,ht,hp]
      · simp [sentMessages,hl,ht,hp,NodeAgent.userMessage,eq_comm]
  · have hsent : sentMessages body scrub = body.messageList.map scrub.message :=
      if_neg fun h => hl h.1
    rw [hsent]
    constructor
    · rintro ⟨heq,hmem,-⟩
      have heq := heq hl
      rw [heq] at hmem
      exact ⟨fun h => absurd h hl,heq,or_iff_not_imp_left.mpr fun hp => .inr (hmem hp)⟩
    · rintro ⟨-,heq,hmem⟩
      rw [heq]
      refine ⟨fun _ => rfl,fun hp => ?_,fun h => absurd h hl⟩
      rcases hmem with hmem | hmem | hmem
      · exact absurd hmem hp
      · exact absurd hmem hl
      · exact hmem

def inferenceBody (body : TaskSubmitBody) (scrub : Scrubber) : JsonDict :=
  dictOf [("model",.str body.model),("messages",.arr (sentMessages body scrub)),
    ("temperature",.float (body.temperature.getD defaultTemperature)),
    ("max_tokens",.int (body.maxTokens.getD 2048))]

theorem get?_inferenceBody (body : TaskSubmitBody) (scrub : Scrubber) (k : String) :
    (inferenceBody body scrub).get? k =
      if k = "max_tokens" then some (.int (body.maxTokens.getD 2048))
      else if k = "temperature" then some (.float (body.temperature.getD defaultTemperature))
      else if k = "messages" then some (.arr (sentMessages body scrub))
      else if k = "model" then some (.str body.model)
      else none := by
  simp only [inferenceBody,dictOf,List.foldl_cons,List.foldl_nil,Dict.get?_set,Dict.get?_empty]

variable (body : TaskSubmitBody) (route : Route)

theorem backendCall_submit (hpipe : body.pipeline = false)
    (htest : body.submit.taskType ≠ "test") :
    (ClientRequest.task body).backendCall route =
      NodeAgent.backendCall (body.executeRequest route.scrub route.taskId) route.step.shardId := by
  simp only [ClientRequest.backendCall,SubmittedTask.backendCall]
  have hpipe' : body.submit.pipeline = false := hpipe
  rw [hpipe']
  simp only [Bool.false_eq_true,reduceIte,read_dispatchPayload _ _ _ _ _ htest,Option.bind_some]

theorem backendCall_inference (hpipe : body.pipeline = false)
    (htype : body.submit.taskType = "inference") :
    (ClientRequest.task body).backendCall route =
      if body.model ≠ "" ∧ isSafePathSegment body.model = false then none
      else some (.chat (inferenceBody body route.scrub)) := by
  rw [backendCall_submit body route hpipe (by rw [htype]; decide)]
  have hallowed : body.submit.taskType ∈ allowedTaskTypes := by
    rw [htype]
    decide
  have hcall : NodeAgent.backendCall (body.executeRequest route.scrub route.taskId)
      route.step.shardId = NodeAgent.executeInference body.model
        (body.executeRequest route.scrub route.taskId).params :=
    (if_neg (not_not_intro hallowed)).trans (if_pos htype)
  have hexec := executeInference_params (body.executeRequest route.scrub route.taskId) rfl
  refine hcall.trans (hexec.trans ?_)
  by_cases hm : body.model ≠ "" ∧ isSafePathSegment body.model = false
  · exact (if_pos hm).trans (if_pos hm).symm
  · refine (if_neg hm).trans (.trans ?_ (if_neg hm).symm)
    simp only [TaskSubmitBody.executeRequest,FusionMLXBackend.chat,spread_empty,inferenceBody,
      sentMessages,List.map_eq_nil_iff]

theorem inference_whole_iff (hpipe : body.pipeline = false)
    (htype : body.submit.taskType = "inference") :
    (∀ call, (ClientRequest.task body).backendCall route = some call →
      (ClientRequest.task body).Carries call) ↔ body.Whole route := by
  have htype' : body.taskType.getD "inference" = "inference" := htype
  simp only [TaskSubmitBody.Whole,hpipe,Bool.false_eq_true,reduceIte,htype',
    backendCall_inference body route hpipe htype]
  by_cases hm : body.model ≠ "" ∧ isSafePathSegment body.model = false
  · simp only [if_pos hm,reduceCtorEq,false_imp_iff,implies_true,true_iff]
    exact .inl hm
  · have hextras : ∀ k ∈ samplingExtras, (inferenceBody body route.scrub).get? k = none := by
      intro k hk
      simp only [samplingExtras,List.mem_cons,List.not_mem_nil,or_false] at hk
      rw [get?_inferenceBody]
      rcases hk with rfl | rfl | rfl | rfl <;> rfl
    have hdeclared : ∀ p ∈ declaredSampling body.maxTokens body.temperature,
        (inferenceBody body route.scrub).get? p.1 = some p.2 := by
      rw [forall_declaredSampling,get?_inferenceBody,get?_inferenceBody]
      simp +contextual
    simp only [if_neg hm,Option.some.injEq,forall_eq',ClientRequest.Carries,
      ClientRequest.CarriesSampling,ClientRequest.sampling,List.forall_mem_append,
      forall_undeclaredSampling hextras]
    have hmodel : (inferenceBody body route.scrub).get? "model" = some (.str body.model) := by
      rw [get?_inferenceBody]
      rfl
    have hmessages : (inferenceBody body route.scrub).get? "messages" =
        some (.arr (sentMessages body route.scrub)) := by
      rw [get?_inferenceBody]
      rfl
    simp only [ClientRequest.model,ClientRequest.messages,ClientRequest.prompt,hmodel,hmessages,
      sentMessages_iff,hm,true_and,false_or]
    tauto

theorem backendCall_embedding (hpipe : body.pipeline = false)
    (htype : body.submit.taskType = "embedding") :
    (ClientRequest.task body).backendCall route =
      if isSafePathSegment body.model = false then none
      else some (FusionMLXBackend.embed body.model (.str "")) := by
  rw [backendCall_submit body route hpipe (by rw [htype]; decide)]
  have hallowed : body.submit.taskType ∈ allowedTaskTypes := by
    rw [htype]
    decide
  have hother : body.submit.taskType ≠ "inference" := by
    rw [htype]
    decide
  have hcall : NodeAgent.backendCall (body.executeRequest route.scrub route.taskId)
      route.step.shardId = NodeAgent.executeEmbedding body.model
        (body.executeRequest route.scrub route.taskId).params :=
    (if_neg (not_not_intro hallowed)).trans ((if_neg hother).trans (if_pos htype))
  rw [hcall,NodeAgent.executeEmbedding,get?_params _ rfl]
  rfl

theorem embedding_whole_iff (hpipe : body.pipeline = false)
    (htype : body.submit.taskType = "embedding") :
    (∀ call, (ClientRequest.task body).backendCall route = some call →
      (ClientRequest.task body).Carries call) ↔ body.Whole route := by
  have htype' : body.taskType.getD "inference" = "embedding" := htype
  have hother : ¬ "embedding" = "inference" := by decide
  simp only [TaskSubmitBody.Whole,hpipe,Bool.false_eq_true,reduceIte,htype',
    backendCall_embedding body route hpipe htype,if_neg hother]
  by_cases hm : isSafePathSegment body.model = false
  · simp only [if_pos hm,reduceCtorEq,false_imp_iff,implies_true,true_iff]
    exact .inl hm
  · have hget : ∀ k, (dictOf [("model",.str body.model),("input",Json.str "")]).get? k =
        if k = "input" then some (.str "") else if k = "model" then some (.str body.model)
        else none := by
      intro k
      simp only [dictOf,List.foldl_cons,List.foldl_nil,Dict.get?_set,Dict.get?_empty]
    have hsampling := forall_sampling body
      (d := dictOf [("model",.str body.model),("input",Json.str "")]) (by
        intro k hk
        simp only [samplingExtras,List.mem_cons,List.not_mem_nil,or_false] at hk
        rw [hget]
        rcases hk with rfl | rfl | rfl | rfl | rfl | rfl <;> rfl)
    simp only [if_neg hm,Option.some.injEq,forall_eq',FusionMLXBackend.embed,
      ClientRequest.Carries,hsampling,hget,String.reduceEq,reduceIte,ClientRequest.model,
      ClientRequest.prompt,ClientRequest.messages,Json.str.injEq,true_and,or_iff_right hm,
      @eq_comm _ "" body.promptText]
    tauto

theorem get?_params_missing (body : TaskSubmitBody) {k : String}
    (hk : k ∉ ["temperature","max_tokens","messages","prompt"]) :
    body.submit.params.get? k = none := by
  simp only [List.mem_cons,List.not_mem_nil,or_false,not_or] at hk
  rw [params_submit,if_neg hk.1,if_neg hk.2.1,if_neg hk.2.2.1,if_neg hk.2.2.2]

def stepExtra (body : TaskSubmitBody) (step : PipelineStep) : JsonDict :=
  dictOf ([("model_id",.str body.model),("shard_index",.int step.shardIndex),
    ("layer_range",.arr step.layerRange)] ++
    match step.hiddenStates with
    | some s => [("hidden_states",.str s)]
    | none => [])

theorem get?_stepExtra (body : TaskSubmitBody) (step : PipelineStep) (k : String) :
    (stepExtra body step).get? k =
      if k = "hidden_states" then step.hiddenStates.map Json.str
      else if k = "layer_range" then some (.arr step.layerRange)
      else if k = "shard_index" then some (.int step.shardIndex)
      else if k = "model_id" then some (.str body.model)
      else none := by
  by_cases hk : k = "hidden_states"
  · cases hs : step.hiddenStates <;>
      simp [stepExtra,hs,dictOf,Dict.get?_set,hk]
  · cases hs : step.hiddenStates <;>
      simp [stepExtra,hs,dictOf,Dict.get?_set,hk]

theorem read_pipelinePayload (body : TaskSubmitBody) (taskId leaderId : String) (fencingToken : ℕ)
    (step : PipelineStep) :
    AgentServer.ExecuteRequest.read
        (body.submit.pipelinePayload taskId fencingToken leaderId step) =
      some ⟨taskId,"pipeline_step",body.model,"",[],2048,defaultTemperature,
        stepExtra body step⟩ := by
  have hids : body.submit.params.get? "input_ids" = none :=
    get?_params_missing body (by decide)
  have hmodel : body.submit.params.get? "model_id" = none :=
    get?_params_missing body (by decide)
  simp only [AgentServer.ExecuteRequest.read,field,SubmittedTask.pipelinePayload,hids,hmodel,dictOf,
    List.foldl_cons,List.foldl_nil,Dict.get?_set,Dict.get?_empty,String.reduceEq,reduceIte,
    Option.getD_none,List.append_nil]
  rfl

theorem get?_params_step (req : AgentServer.ExecuteRequest) {k : String}
    (hk : k ∈ pipelineExtraKeys) : req.params.get? k = req.extra.get? k := by
  simp only [AgentServer.ExecuteRequest.params,get?_spread,get?_keep]
  simp only [pipelineExtraKeys,List.mem_cons,List.not_mem_nil,or_false] at hk
  rcases hk with rfl | rfl | rfl | rfl | rfl | rfl <;>
    simp [testExtraKeys,pipelineExtraKeys,allowedExtraKeys,dictOf,Dict.get?_set]

theorem executePipelineStep_extra (body : TaskSubmitBody) (step : PipelineStep)
    (req : AgentServer.ExecuteRequest) (h : req.extra = stepExtra body step) :
    NodeAgent.executePipelineStep req.params step.shardId =
      if body.model = "" ∨ step.layerRange = [] then none
      else some (.pipelineStep
        (dictOf [("model_id",.str body.model),("shard_index",.int step.shardIndex),
          ("layer_range",.arr step.layerRange),("dtype",.null)])
        (dictOf [("shard_id",.str step.shardId),
          ("hidden_states",(step.hiddenStates.map Json.str).getD .null),("input_ids",.null),
          ("position_ids",.null)])) := by
  have hget : ∀ k ∈ pipelineExtraKeys, req.params.get? k = (stepExtra body step).get? k := by
    intro k hk
    rw [get?_params_step req hk,h]
  unfold NodeAgent.executePipelineStep
  simp only [hget "model_id" (by decide),hget "layer_range" (by decide),
    hget "shard_index" (by decide),hget "hidden_states" (by decide),hget "input_ids" (by decide),
    hget "position_ids" (by decide),get?_stepExtra,String.reduceEq,reduceIte,Option.getD_some,
    Option.getD_none,Json.truthy,decide_eq_false_iff_not,not_not,Bool.not_eq_false',
    List.isEmpty_iff]

theorem pipeline_whole_iff (hpipe : body.pipeline = true) :
    (∀ call, (ClientRequest.task body).backendCall route = some call →
      (ClientRequest.task body).Carries call) ↔ body.Whole route := by
  have hcall : (ClientRequest.task body).backendCall route =
      NodeAgent.executePipelineStep
        (AgentServer.ExecuteRequest.params ⟨route.taskId,"pipeline_step",body.model,"",[],2048,
          defaultTemperature,stepExtra body route.step⟩) route.step.shardId := by
    have hpipe' : body.submit.pipeline = true := hpipe
    simp only [ClientRequest.backendCall,SubmittedTask.backendCall,hpipe',reduceIte,
      read_pipelinePayload,Option.bind_some]
    rfl
  rw [hcall,executePipelineStep_extra body route.step _ rfl]
  simp only [TaskSubmitBody.Whole,hpipe,reduceIte]
  by_cases hm : body.model = "" ∨ route.step.layerRange = []
  · simp only [if_pos hm,reduceCtorEq,false_imp_iff,implies_true,true_iff]
    exact hm.elim .inl fun h => .inr (.inl h)
  · have hsampling := forall_sampling body
      (d := dictOf [("shard_id",.str route.step.shardId),
        ("hidden_states",(route.step.hiddenStates.map Json.str).getD .null),("input_ids",.null),
        ("position_ids",.null)]) (by
        intro k hk
        simp only [samplingExtras,List.mem_cons,List.not_mem_nil,or_false] at hk
        rcases hk with rfl | rfl | rfl | rfl | rfl | rfl <;> rfl)
    simp only [if_neg hm,Option.some.injEq,forall_eq',ClientRequest.Carries,hsampling,
      ClientRequest.model,ClientRequest.prompt,ClientRequest.messages]
    have hmodel : (dictOf [("model_id",.str body.model),("shard_index",.int route.step.shardIndex),
        ("layer_range",.arr route.step.layerRange),("dtype",Json.null)]).get? "model_id" =
        some (.str body.model) := rfl
    rw [hmodel]
    tauto

theorem read_taskType {payload : JsonDict} {req : AgentServer.ExecuteRequest} {t : String}
    (h : AgentServer.ExecuteRequest.read payload = some req)
    (ht : payload.get? "task_type" = some (.str t)) : req.taskType = t := by
  simp only [AgentServer.ExecuteRequest.read,Option.bind_eq_bind,Option.bind_eq_some_iff] at h
  obtain ⟨_,-,taskType,htype,_,-,_,-,_,-,_,-,_,-,_,-,heq⟩ := h
  rw [field,ht] at htype
  cases heq
  exact (Option.some.inj htype).symm

theorem NodeAgent.backendCall_other {req : AgentServer.ExecuteRequest} (shardId : String)
    (hinference : req.taskType ≠ "inference") (hembedding : req.taskType ≠ "embedding")
    (hstep : req.taskType ≠ "pipeline_step") : NodeAgent.backendCall req shardId = none := by
  unfold NodeAgent.backendCall
  rw [if_neg hinference,if_neg hembedding,if_neg hstep]
  exact ite_self none

theorem NodeAgent.backendCall_bare_step {req : AgentServer.ExecuteRequest} (shardId : String)
    (hextra : req.extra = ∅) (hstep : req.taskType = "pipeline_step") :
    NodeAgent.backendCall req shardId = none := by
  have hallowed : req.taskType ∈ allowedTaskTypes := by
    rw [hstep]
    decide
  unfold NodeAgent.backendCall
  rw [if_neg (not_not_intro hallowed),if_neg (by rw [hstep]; decide),if_neg (by rw [hstep]; decide),
    if_pos hstep,NodeAgent.executePipelineStep,get?_params _ hextra]
  rfl

theorem submit_other (hpipe : body.pipeline = false)
    (hinference : body.submit.taskType ≠ "inference")
    (hembedding : body.submit.taskType ≠ "embedding") :
    (ClientRequest.task body).backendCall route = none := by
  by_cases htest : body.submit.taskType = "test"
  · have hpipe' : body.submit.pipeline = false := hpipe
    simp only [ClientRequest.backendCall,SubmittedTask.backendCall,hpipe',Bool.false_eq_true,
      reduceIte,Option.bind_eq_none_iff]
    intro req hread
    have htype : req.taskType = "test" := by
      apply read_taskType hread
      rw [SubmittedTask.dispatchPayload,if_pos htest]
      rfl
    apply NodeAgent.backendCall_other <;> rw [htype] <;> decide
  · rw [backendCall_submit body route hpipe htest]
    by_cases hstep : body.submit.taskType = "pipeline_step"
    · exact NodeAgent.backendCall_bare_step _ rfl hstep
    · exact NodeAgent.backendCall_other _ hinference hembedding hstep

section Chat

variable (chat : ChatBody)

theorem read_proxyPayload (scrub : Scrubber) :
    ChatCompletionsRequest.read (chat.proxyPayload scrub) =
      some ⟨chat.model,chat.messageList.map scrub.message,
        chat.temperature.getD defaultTemperature,chat.maxTokens.getD 4096,chat.stream,
        chat.extra⟩ := by
  simp only [ChatCompletionsRequest.read,ChatBody.proxyPayload,field,dictOf,List.foldl_cons,
    List.foldl_nil,Dict.get?_set,Dict.get?_empty,String.reduceEq,reduceIte,Option.bind_some,
    readStr,readList,readInt,readFloat,readBool,readDict,Option.bind_eq_bind]
  rw [← dictOf,dictOf_entries]

/-- What a chat request posts to the backend, but for the mark of a stream. -/
def chatBody (scrub : Scrubber) : JsonDict :=
  spread (dictOf [("model",.str chat.model),
    ("messages",.arr (chat.messageList.map scrub.message)),
    ("temperature",.float (chat.temperature.getD defaultTemperature)),
    ("max_tokens",.int (chat.maxTokens.getD 4096))]) (keep allowedExtraKeys chat.extra)

theorem get?_chatBody (scrub : Scrubber) (k : String) :
    (chatBody chat scrub).get? k =
      (if k ∈ allowedExtraKeys then chat.extra.get? k else none).or
        (if k = "max_tokens" then some (.int (chat.maxTokens.getD 4096))
        else if k = "temperature" then
          some (.float (chat.temperature.getD defaultTemperature))
        else if k = "messages" then some (.arr (chat.messageList.map scrub.message))
        else if k = "model" then some (.str chat.model) else none) := by
  rw [chatBody,get?_spread,get?_keep]
  simp only [dictOf,List.foldl_cons,List.foldl_nil,Dict.get?_set,Dict.get?_empty]

theorem backendCall_chat :
    (ClientRequest.chat chat).backendCall route =
      if isSafePathSegment chat.model = false ∨
        (chat.stream = false ∧ chat.extra.contains "temperature" = true) then none
      else some (.chat (if chat.stream then
        (chatBody chat route.scrub).set "stream" (.bool true) else chatBody chat route.scrub)) := by
  have hcontains : (keep allowedExtraKeys chat.extra).contains "temperature" =
      chat.extra.contains "temperature" := by
    simp [Dict.contains,get?_keep,allowedExtraKeys]
  simp only [ClientRequest.backendCall,ChatBody.backendCall,read_proxyPayload,Option.bind_some,
    ChatCompletionsRequest.backendCall,hcontains]
  by_cases hm : isSafePathSegment chat.model = false
  · rw [if_pos hm,if_pos (.inl hm)]
  · rw [if_neg hm]
    cases hs : chat.stream with
    | true => simp [hm,chatBody]
    | false =>
      by_cases ht : chat.extra.contains "temperature" = true
      · simp [ht]
      · simp [hm,ht,chatBody,FusionMLXBackend.chat]

/-- The parameters that the request gives reach the body, the temperature as the last word on it
says. -/
theorem chat_carries_iff {d : JsonDict} {scrub : Scrubber}
    (hd : ∀ k, k ≠ "stream" → d.get? k = (chatBody chat scrub).get? k) :
    (ClientRequest.chat chat).Carries (.chat d) ↔
      (∀ p ∈ undeclaredSampling chat.undeclared, chat.extra.get? p.1 = some p.2) ∧
        chat.messageList.map scrub.message = chat.messageList ∧
        (∀ v, chat.extra.get? "max_tokens" = some v → v = .int (chat.maxTokens.getD 4096)) ∧
        ∀ v, chat.extra.get? "temperature" = some v →
          ∀ x, chat.temperature = some x → v = .float x := by
  have hextra : ∀ k ∈ samplingExtras, d.get? k = chat.extra.get? k := by
    intro k hk
    simp only [samplingExtras,List.mem_cons,List.not_mem_nil,or_false] at hk
    rcases hk with rfl | rfl | rfl | rfl <;>
      (rw [hd _ (by decide),get?_chatBody]; simp [allowedExtraKeys])
  have hmodel : d.get? "model" = some (.str chat.model) := by
    rw [hd _ (by decide),get?_chatBody]
    simp [allowedExtraKeys]
  have hmessages : d.get? "messages" = some (.arr (chat.messageList.map scrub.message)) := by
    rw [hd _ (by decide),get?_chatBody]
    simp [allowedExtraKeys]
  have hmax : d.get? "max_tokens" = some (.int (chat.maxTokens.getD 4096)) := by
    rw [hd _ (by decide),get?_chatBody]
    simp [allowedExtraKeys]
  have htemp : d.get? "temperature" = some ((chat.extra.get? "temperature").getD
      (.float (chat.temperature.getD defaultTemperature))) := by
    rw [hd _ (by decide),get?_chatBody]
    cases chat.extra.get? "temperature" <;> simp [allowedExtraKeys]
  have hdeclared : (∀ p ∈ declaredSampling chat.maxTokens chat.temperature,
      d.get? p.1 = some p.2) ↔ ∀ v, chat.extra.get? "temperature" = some v →
        ∀ x, chat.temperature = some x → v = .float x := by
    rw [forall_declaredSampling,hmax,htemp]
    cases chat.extra.get? "temperature" with
    | none => simp +contextual
    | some v => simp +contextual
  have hundeclared : (∀ p ∈ undeclaredSampling chat.undeclared, d.get? p.1 = some p.2) ↔
      ∀ p ∈ undeclaredSampling chat.undeclared, chat.extra.get? p.1 = some p.2 := by
    apply forall₂_congr
    intro p hp
    rw [hextra p.1 (mem_keep_entries.mp hp).1]
  have hgiven : (∀ p ∈ (keep ("temperature"::"max_tokens"::samplingExtras) chat.extra).entries,
      d.get? p.1 = some p.2) ↔
      ∀ v, chat.extra.get? "max_tokens" = some v → v = .int (chat.maxTokens.getD 4096) := by
    constructor
    · intro h v hv
      have hv' := h ("max_tokens",v) (mem_keep_entries.mpr ⟨.tail _ (.head _),hv⟩)
      rw [hmax] at hv'
      exact (Option.some.inj hv').symm
    · rintro h ⟨k,v⟩ hp
      have ⟨hk,hv⟩ := mem_keep_entries.mp hp
      rcases List.mem_cons.mp hk with rfl | hk
      · rw [htemp,hv]
        rfl
      · rcases List.mem_cons.mp hk with rfl | hk
        · rw [hmax,h v hv]
        · rw [hextra k hk,hv]
  simp only [ClientRequest.Carries,ClientRequest.CarriesSampling,ClientRequest.sampling,
    List.forall_mem_append,hdeclared,hundeclared,hgiven,ClientRequest.model,hmodel,
    ClientRequest.messages,ClientRequest.prompt,hmessages,Option.some.injEq,Json.arr.injEq,
    exists_eq_left',true_and,ne_eq,not_true_eq_false,false_imp_iff]
  have hlist : ((¬ chat.messageList = [] →
      chat.messageList.map scrub.message = chat.messageList) ∧
      (chat.messageList = [] → True → chat.messageList.map scrub.message = [])) ↔
      chat.messageList.map scrub.message = chat.messageList := by
    by_cases hl : chat.messageList = []
    · simp [hl]
    · simp [hl]
  rw [hlist]
  tauto

theorem chat_whole_iff :
    (∀ call, (ClientRequest.chat chat).backendCall route = some call →
      (ClientRequest.chat chat).Carries call) ↔ chat.Whole route := by
  rw [backendCall_chat,ChatBody.Whole,← or_assoc]
  by_cases hm : isSafePathSegment chat.model = false ∨
      (chat.stream = false ∧ chat.extra.contains "temperature" = true)
  · simp only [if_pos hm,reduceCtorEq,false_imp_iff,implies_true,true_iff]
    exact .inl hm
  · rw [if_neg hm,or_iff_right hm]
    simp only [Option.some.injEq,forall_eq']
    apply chat_carries_iff
    intro k hk
    by_cases hs : chat.stream = true
    · rw [if_pos hs,Dict.get?_set,if_neg hk]
    · rw [if_neg hs]

end Chat

/-- A request arrives at the backend with what it gives exactly when its route leaves it whole. -/
theorem parameters_reach_backend_iff (r : ClientRequest) :
    (∀ call, r.backendCall route = some call → r.Carries call) ↔ r.Whole route := by
  cases r with
  | chat chat => exact chat_whole_iff route chat
  | task body =>
    cases hpipe : body.pipeline with
    | true => exact pipeline_whole_iff body route hpipe
    | false =>
      by_cases hinference : body.submit.taskType = "inference"
      · exact inference_whole_iff body route hpipe hinference
      · by_cases hembedding : body.submit.taskType = "embedding"
        · exact embedding_whole_iff body route hpipe hembedding
        · have hwhole : body.Whole route := by
            have hpipe' : ¬ body.pipeline = true := ne_true_of_eq_false hpipe
            have hinference' : ¬ body.taskType.getD "inference" = "inference" := hinference
            have hembedding' : ¬ body.taskType.getD "inference" = "embedding" := hembedding
            unfold TaskSubmitBody.Whole
            rw [if_neg hpipe',if_neg hinference',if_neg hembedding']
            exact trivial
          simp only [submit_other body route hpipe hinference hembedding,reduceCtorEq,
            false_imp_iff,implies_true,true_iff]
          exact hwhole

def embeddingTask : TaskSubmitBody where
  modelName := some "BGE-M3"
  taskType := some "embedding"
  prompt := some "hello"

/-- An embedding asks for a text that the master has sent under another name. -/
theorem embedding_loses_text :
    ∃ d, (ClientRequest.task embeddingTask).backendCall
        ⟨.off,"task_1",1,"master",⟨true,0,[],none,""⟩⟩ = some (.embed d) ∧
      d.get? "input" = some (.str "") ∧
      ¬ (ClientRequest.task embeddingTask).Carries (.embed d) := by
  refine ⟨_,rfl,rfl,?_⟩
  rintro ⟨-,-,h,-⟩
  have htext : "" = "hello" := Json.str.inj (Option.some.inj h)
  exact absurd htext (by decide)

end FusionMultiNodes

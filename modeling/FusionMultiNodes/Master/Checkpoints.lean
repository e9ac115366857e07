import FusionMultiNodes.Master.FrameSteps
import FusionMultiNodes.Master.TaskSteps

/-! `_dispatch_pipeline` with `FUSION_PIPELINE_CHECKPOINT`: a dispatch goes on behind the last shard
that the parameters of the task tell of. -/
namespace FusionMultiNodes

/-- What the answer to a pipeline step says beside the hidden states. -/
structure StepInfo where
  shardId : String
  shape : Option (List ℤ)
  dtype : Option String
  deriving DecidableEq

structure StepEntry where
  nodeId : NodeId
  info : StepInfo
  deriving DecidableEq

/-- The entry `_pipeline_ckpt` of the parameters of a task. -/
structure Checkpoint where
  step : ℕ
  hiddenStates : String
  steps : List StepEntry
  deriving DecidableEq

/-- The parameters of a task that `_dispatch_pipeline` reads. -/
structure PipelineParams where
  modelId : Option String
  inputIds : Option String
  checkpoint : Option Checkpoint
  deriving DecidableEq

structure StepParams where
  modelId : String
  modelName : String
  shardIndex : ℤ
  layerRange : List ℤ
  hiddenStates : Option String
  inputIds : Option String
  deriving DecidableEq

structure StepAnswer where
  hiddenStates : String
  info : StepInfo
  deriving DecidableEq

structure PipelineJob where
  modelId : String
  modelName : String
  shards : List ModelShard
  inputIds : Option String
  deriving DecidableEq

namespace PipelineJob

def need (j : PipelineJob) : ℕ := if j.shards.length = 0 then 1 else j.shards.length

def stepParams (j : PipelineJob) (idx : ℕ) (hidden : Option String) : StepParams where
  modelId := j.modelId
  modelName := j.modelName
  shardIndex := ((j.shards[idx]?).map ModelShard.shardIndex).getD idx
  layerRange := ((j.shards[idx]?).map ModelShard.layerRange).getD []
  hiddenStates := hidden
  inputIds := if idx = 0 then j.inputIds else none

/-- The first `k` shards, each applied once and in order: the last hidden states and the steps. -/
def run (F : StepParams → StepAnswer) (j : PipelineJob) : ℕ → Option String × List StepInfo
  | 0 => (none,[])
  | k+1 =>
    let p := j.run F k
    let a := F (j.stepParams k p.1)
    (some a.hiddenStates,p.2 ++ [a.info])

/-- The checkpoint is the state of an uninterrupted run of the job before its end. -/
def Genuine (F : StepParams → StepAnswer) (j : PipelineJob) (c : Checkpoint) : Prop :=
  c.step < j.need ∧
    j.run F (c.step+1) = (some c.hiddenStates,c.steps.map StepEntry.info)

instance (F : StepParams → StepAnswer) (j : PipelineJob) (c : Checkpoint) :
    Decidable (j.Genuine F c) :=
  inferInstanceAs (Decidable (_ ∧ _))

end PipelineJob

def Frame.reads (r : Ref) : Frame → Bool
  | .dispatch d =>
    decide (d.task = r) &&
      match d.pc with
      | .start | .snapshot | .tail _ _ => false
      | _ => true
  | _ => false

/-- The result of a dispatch that is about to finalize its task as a success. -/
def Frame.success? : Frame → Option (Ref × TaskResult)
  | .dispatch d =>
    match d.pc with
    | .finalizing o => if o.success = true then o.result.map (d.task,·) else none
    | _ => none
  | _ => none

/-- `degrade_task` has a smaller model for the task. -/
def ClusterTask.canDegrade (t : ClusterTask) : Bool :=
  (decide (t.status = .running) || decide (t.status = .pending) || decide (t.status = .failed)) &&
    decide (t.degradationCount < t.maxDegradations) && t.nextModelSize.isSome

/-- The local variables of a coroutine in `_dispatch_pipeline`, and the step it has posted last. -/
structure PipelineLocals where
  modelId : String
  inputIds : Option String
  steps : List StepEntry
  posted : StepParams

/-- A master with the parameters of its tasks. The store keeps the parameters of a task with its
record; `known` has every checkpoint of a task together with what the task computed then. -/
structure PipelineMaster where
  master : ClusterMaster
  params : Ref → PipelineParams
  locals : ℕ → PipelineLocals
  known : List (PipelineJob × Checkpoint)

/-- An event, with what an answer tells of its step and the parameters of tasks that come in. -/
structure PipelineAction where
  event : MasterEvent
  info : StepInfo
  params : TaskId → PipelineParams

/-- The node of index `idx` of a dispatch has answered with hidden states. -/
structure StepDone where
  cid : ℕ
  dispatch : Dispatch
  idx : ℕ
  node : NodeId
  hidden : String

namespace PipelineMaster

open ClusterMaster

def jobOf (t : ClusterTask) (q : PipelineParams) : PipelineJob :=
  ⟨q.modelId.getD t.modelName,t.modelName,t.modelShards,q.inputIds⟩

def job (p : PipelineMaster) (r : Ref) : PipelineJob := jobOf (p.master.objects r) (p.params r)

def starting (p : PipelineMaster) : MasterEvent → Option (ℕ × Dispatch)
  | .resume cid _ =>
    match p.master.frames.get? cid with
    | some (.dispatch d) =>
      if d.pc = .snapshot ∧ (p.master.objects d.task).mode = .pipeline then some (cid,d) else none
    | _ => none
  | _ => none

def answered (p : PipelineMaster) : MasterEvent → Option StepDone
  | .reply cid i (.dict a) _ =>
    match p.master.frames.get? cid with
    | some (.dispatch d) =>
      match d.pc,d.nodeIds[i]? with
      | .pipeline _ idx _ _,some n =>
        if i = idx ∧ stepFailure n a = none then some ⟨cid,d,idx,n,a.hiddenStates.getD ""⟩
        else none
      | _,_ => none
    | _ => none
  | _ => none

/-- The index, the hidden states and the steps the loop begins with. -/
def resumePoint (enabled : Bool) (q : PipelineParams) : ℕ × Option String × List StepEntry :=
  match (if enabled then q.checkpoint else none) with
  | some c => (c.step+1,some c.hiddenStates,c.steps)
  | none => (0,none,[])

/-- `_dispatch_pipeline` up to its first step; a loop without steps ends at once. -/
def startLoop (enabled : Bool) (p : PipelineMaster) (cid : ℕ) (d : Dispatch) : PipelineMaster :=
  let q := p.params d.task
  let start := resumePoint enabled q
  let s := p.master.pipelineNext d (d.nodeIds.filter p.master.nodes.contains) start.1 start.2.1
    (start.2.2.map StepEntry.nodeId)
  { p with
    master := s.1.setFrame cid (.dispatch { d with pc := s.2 })
    params :=
      if enabled = true ∧ d.nodeIds.length ≤ start.1 then
        Function.update p.params d.task { q with checkpoint := none }
      else p.params
    locals := Function.update p.locals cid
      ⟨q.modelId.getD (p.master.objects d.task).modelName,q.inputIds,start.2.2,
        (p.job d.task).stepParams start.1 start.2.1⟩ }

/-- The rest of the loop body behind an answer, with the state of the master after it. -/
def continueLoop (enabled : Bool) (p : PipelineMaster) (a : StepDone) (info : StepInfo)
    (m : ClusterMaster) : PipelineMaster :=
  let l := p.locals a.cid
  let t := p.master.objects a.dispatch.task
  let steps := l.steps ++ [⟨a.node,info⟩]
  { p with
    master := m
    params :=
      if enabled then
        Function.update p.params a.dispatch.task
          { p.params a.dispatch.task with
            checkpoint :=
              if a.idx+1 < a.dispatch.nodeIds.length then some ⟨a.idx,a.hidden,steps⟩ else none }
      else p.params
    locals := Function.update p.locals a.cid
      { l with
        steps := steps
        posted := (PipelineJob.mk l.modelId t.modelName t.modelShards l.inputIds).stepParams
          (a.idx+1) (some a.hidden) } }

def advance (enabled : Bool) (p : PipelineMaster) (e : PipelineAction) : Option PipelineMaster :=
  match p.starting e.event with
  | some s => some (p.startLoop enabled s.1 s.2)
  | none => (machine.step p.master e.event).map fun m =>
    match p.answered e.event with
    | some a => p.continueLoop enabled a e.info m
    | none =>
      { p with
        master := m
        params := fun r =>
          if r < p.master.nextRef then p.params r else e.params (m.objects r).taskId }

/-- A node that answers with hidden states has applied its shard to what was posted; a submitted
task has no checkpoint, and a restored one a checkpoint that was stored with it. -/
def Accords (F : StepParams → StepAnswer) (p : PipelineMaster) (e : PipelineAction)
    (p' : PipelineMaster) : Prop :=
  (∀ a ∈ p.answered e.event, F (p.locals a.cid).posted = ⟨a.hidden,e.info⟩) ∧
    match e.event with
    | .submit t => (e.params t.taskId).checkpoint = none
    | .restart _ _ => ∀ r < p'.master.nextRef, p.master.nextRef ≤ r →
        ∀ c ∈ (p'.params r).checkpoint, (p'.job r,c) ∈ p.known
    | _ => True

instance (F : StepParams → StepAnswer) (p : PipelineMaster) (e : PipelineAction)
    (p' : PipelineMaster) : Decidable (p.Accords F e p') := by
  unfold Accords
  refine @instDecidableAnd _ _ inferInstance ?_
  split <;> infer_instance

def checkpoints (p : PipelineMaster) : List (PipelineJob × Checkpoint) :=
  (List.range p.master.nextRef).filterMap fun r =>
    if (p.master.objects r).mode = .pipeline then (p.params r).checkpoint.map (p.job r,·) else none

def step (F : StepParams → StepAnswer) (enabled : Bool) (p : PipelineMaster) (e : PipelineAction) :
    Option PipelineMaster :=
  (p.advance enabled e).bind fun p' =>
    if p.Accords F e p' then some { p' with known := p'.checkpoints ++ p.known } else none

def pipelines (F : StepParams → StepAnswer) (enabled : Bool) :
    Machine PipelineMaster PipelineAction := ⟨step F enabled⟩

def create (config : MasterConfig) (ha : HaState) : PipelineMaster where
  master := .create config ha
  params := fun _ => ⟨none,none,none⟩
  locals := fun _ => ⟨"",none,[],⟨"","",0,[],none,none⟩⟩
  known := []

/-- What a dispatch has done agrees with an uninterrupted run of what its task computes now. -/
def Follows (F : StepParams → StepAnswer) (p : PipelineMaster) (cid : ℕ) (d : Dispatch) : Prop :=
  let j := p.job d.task
  let l := p.locals cid
  match d.pc with
  | .start | .snapshot | .tail _ _ => True
  | .data _ | .collect _ _ => False
  | .pipeline _ idx hidden steps =>
    d.nodeIds.length = j.need ∧ l.modelId = j.modelId ∧ l.inputIds = j.inputIds ∧
      l.posted = j.stepParams idx hidden ∧
      j.run F idx = (hidden,l.steps.map StepEntry.info) ∧
      steps = l.steps.map StepEntry.nodeId
  | .finalizing o => o.success = true → ∃ result, o.result = some result ∧
      j.run F j.need = (result.hiddenStates,l.steps.map StepEntry.info) ∧
      result.steps = l.steps.map StepEntry.nodeId

/-- Every dispatch of a pipeline and every checkpoint agrees with an uninterrupted run. -/
structure Resumes (F : StepParams → StepAnswer) (p : PipelineMaster) : Prop where
  loops : ∀ cid d, p.master.frames.get? cid = some (.dispatch d) →
    (p.master.objects d.task).mode = .pipeline → p.Follows F cid d
  stored : ∀ r < p.master.nextRef, (p.master.objects r).mode = .pipeline →
    ∀ c ∈ (p.params r).checkpoint, (p.job r).Genuine F c

/-- A pipeline has as many nodes as shards, it is degraded only while it has no checkpoint and no
dispatch has read its model, and a checkpoint that comes with a record of a peer is genuine. -/
def KeepsModel (F : StepParams → StepAnswer) (p : PipelineMaster) (e : PipelineAction) : Prop :=
  (∀ s ∈ p.starting e.event,
      s.2.nodeIds.length = (p.master.objects s.2.task).need) ∧
    match e.event with
    | .degradeTask id => ∀ r ∈ p.master.tasks.get? id,
        (p.master.objects r).mode = .pipeline → (p.master.objects r).canDegrade = true →
          (p.params r).checkpoint = none ∧ ∀ f ∈ p.master.frames.values, f.reads r = false
    | .receiveSyncedTasks records => ∀ d ∈ records, p.master.accepts d = true →
        ∀ c ∈ (e.params d.taskId).checkpoint,
          (jobOf (d.fromDict p.master.config.partialRecovery) (e.params d.taskId)).Genuine F c
    | _ => True

instance (F : StepParams → StepAnswer) (p : PipelineMaster) (e : PipelineAction) :
    Decidable (p.KeepsModel F e) := by
  unfold KeepsModel
  refine @instDecidableAnd _ _ inferInstance ?_
  split <;> infer_instance

variable {F : StepParams → StepAnswer} {enabled : Bool} {p p' : PipelineMaster}
  {e : PipelineAction} {m' : ClusterMaster} {cid : ℕ} {d : Dispatch} {r : Ref}

/-- What a step does to the master, the parameters and the local variables. -/
inductive Advances (enabled : Bool) (p : PipelineMaster) (e : PipelineAction) :
    PipelineMaster → Prop
  | starts {cid : ℕ} {d : Dispatch} {now : ℚ} : e.event = .resume cid now →
      p.master.frames.get? cid = some (.dispatch d) → d.pc = .snapshot →
      (p.master.objects d.task).mode = .pipeline →
      Advances enabled p e (p.startLoop enabled cid d)
  | continues {a : StepDone} {m : ClusterMaster} : p.answered e.event = some a →
      machine.step p.master e.event = some m →
      Advances enabled p e (p.continueLoop enabled a e.info m)
  | other {m : ClusterMaster} : p.starting e.event = none → p.answered e.event = none →
      machine.step p.master e.event = some m →
      Advances enabled p e { p with
        master := m
        params := fun r =>
          if r < p.master.nextRef then p.params r else e.params (m.objects r).taskId }

theorem starting_spec {ev : MasterEvent} {s : ℕ × Dispatch} (h : p.starting ev = some s) :
    ∃ now, ev = .resume s.1 now ∧ p.master.frames.get? s.1 = some (.dispatch s.2) ∧
      s.2.pc = .snapshot ∧ (p.master.objects s.2.task).mode = .pipeline := by
  unfold starting at h
  split at h
  · next cid now =>
    split at h
    · next d hf =>
      obtain ⟨⟨hpc,hmode⟩,h⟩ := Option.ite_none_right_eq_some.mp h
      obtain rfl := Option.some.inj h
      exact ⟨now,rfl,hf,hpc,hmode⟩
    · cases h
  · cases h

theorem answered_spec {ev : MasterEvent} {a : StepDone} (h : p.answered ev = some a) :
    ∃ answer now present hidden steps, ev = .reply a.cid a.idx (.dict answer) now ∧
      p.master.frames.get? a.cid = some (.dispatch a.dispatch) ∧
      a.dispatch.pc = .pipeline present a.idx hidden steps ∧
      a.dispatch.nodeIds[a.idx]? = some a.node ∧ stepFailure a.node answer = none ∧
      answer.hiddenStates = some a.hidden := by
  unfold answered at h
  split at h
  · next cid i answer now =>
    split at h
    · next d hf =>
      split at h
      · next present idx hidden steps n hpc hn =>
        obtain ⟨⟨rfl,hok⟩,h⟩ := Option.ite_none_right_eq_some.mp h
        obtain rfl := Option.some.inj h
        refine ⟨answer,now,present,hidden,steps,rfl,hf,hpc,hn,hok,?_⟩
        have hsome : answer.hiddenStates.isNone = false := by
          simp only [stepFailure] at hok
          split_ifs at hok with _ _ _ _ _ _ hnone
          simpa [Option.isSome_iff_ne_none] using hnone
        cases hstates : answer.hiddenStates with
        | none => simp [hstates] at hsome
        | some hidden => rfl
      · cases h
    · cases h
  · cases h

theorem advance_cases (h : p.advance enabled e = some p') : Advances enabled p e p' := by
  unfold advance at h
  split at h
  · next s hs =>
    obtain ⟨now,hev,hf,hpc,hmode⟩ := starting_spec hs
    obtain rfl := Option.some.inj h
    exact .starts hev hf hpc hmode
  · next hs =>
    obtain ⟨m,hm,rfl⟩ := Option.map_eq_some_iff.mp h
    split
    · next a ha => exact .continues ha hm
    · next ha => exact .other hs ha hm

theorem step_spec (h : (pipelines F enabled).step p e = some p') :
    ∃ q, Advances enabled p e q ∧ p.Accords F e q ∧
      p' = { q with known := q.checkpoints ++ p.known } := by
  obtain ⟨q,hq,h⟩ := Option.bind_eq_some_iff.mp h
  obtain ⟨haccords,h⟩ := Option.ite_none_right_eq_some.mp h
  exact ⟨q,advance_cases hq,haccords,(Option.some.inj h).symm⟩

theorem startLoop_effect {now : ℚ} (hf : p.master.frames.get? cid = some (.dispatch d))
    (hpc : d.pc = .snapshot) :
    Effect p.master (.resume cid now) (p.startLoop enabled cid d).master := by
  refine .dispatches hf (.continues (pipelineNext_spec ..).1 ?_)
  obtain ⟨-,hstart,htail⟩ := pipelineNext_spec p.master d (d.nodeIds.filter p.master.nodes.contains)
    (resumePoint enabled (p.params d.task)).1 (resumePoint enabled (p.params d.task)).2.1
    ((resumePoint enabled (p.params d.task)).2.2.map StepEntry.nodeId)
  exact ⟨rfl,hstart,htail,by simp [hpc],by simp [hpc]⟩

theorem Advances.effect (h : Advances enabled p e p') : Effect p.master e.event p'.master := by
  cases h with
  | starts hev hf hpc _ => exact hev ▸ startLoop_effect hf hpc
  | continues _ hm => exact step_effect hm
  | other _ _ hm => exact step_effect hm

theorem modelName_taskChange {k : StepKind} {t t' : ClusterTask} (h : TaskChange k t t')
    (hk : k ≠ .degrades t.taskId) : t'.modelName = t.modelName ∧ t'.taskId = t.taskId := by
  cases h with
  | degrade heq => exact absurd heq hk
  | _ => exact ⟨rfl,rfl⟩

theorem modelName_taskChanges {k : StepKind} {t t' : ClusterTask}
    (h : Relation.ReflTransGen (TaskChange k) t t') (hk : k ≠ .degrades t.taskId) :
    t'.modelName = t.modelName ∧ t'.taskId = t.taskId := by
  induction h with
  | refl => exact ⟨rfl,rfl⟩
  | tail _ hone ih =>
    obtain ⟨hname,hid⟩ := modelName_taskChange hone (by rwa [ih.2])
    exact ⟨hname.trans ih.1,hid.trans ih.2⟩

theorem objects_degradeTask (m : ClusterMaster) (id : TaskId) (r : Ref) :
    (m.degradeTask id).objects r = m.objects r ∨
      m.tasks.get? id = some r ∧ (m.objects r).canDegrade = true := by
  unfold degradeTask
  cases hx : m.tasks.get? id with
  | none => exact .inl rfl
  | some x =>
    simp only
    split_ifs with hc
    · cases hsize : (m.objects x).nextModelSize with
      | none => exact .inl rfl
      | some size =>
        by_cases hrx : r = x
        · subst hrx
          refine .inr ⟨rfl,?_⟩
          simpa [ClusterTask.canDegrade,hsize,or_assoc] using hc
        · refine .inl ?_
          simp [ClusterMaster.spawn,modifyTask,releaseTask,hrx]
    · exact .inl rfl

theorem step_modelName {m : ClusterMaster} {ev : MasterEvent} (hw : m.Wf)
    (h : machine.step m ev = some m') (hr : r < m.nextRef) :
    (m'.objects r).modelName = (m.objects r).modelName ∨
      ∃ id, ev = .degradeTask id ∧ m.tasks.get? id = some r ∧ (m.objects r).canDegrade = true := by
  by_cases hdegrade : ∃ id, ev = .degradeTask id
  · obtain ⟨id,rfl⟩ := hdegrade
    obtain rfl := Option.some.inj h
    rcases objects_degradeTask m id r with hsame | hdegraded
    · exact .inl (by rw [hsame])
    · exact .inr ⟨id,rfl,hdegraded⟩
  · refine .inl (modelName_taskChanges ((step_rewrites hw h).change r hr) ?_).1
    have hkind : ∀ id, m.kind ev ≠ .degrades id := by
      intro id
      cases ev with
      | degradeTask id' => exact absurd ⟨id',rfl⟩ hdegrade
      | resume cid now =>
        simp only [kind]
        split <;> simp
      | _ => simp [kind]
    exact hkind _

def Retains (p p' : PipelineMaster) (r : Ref) : Prop :=
  (p'.master.objects r).mode = (p.master.objects r).mode ∧ p'.job r = p.job r

theorem Retains.of_eq (hobjects : p'.master.objects r = p.master.objects r)
    (hmodel : (p'.params r).modelId = (p.params r).modelId)
    (hinput : (p'.params r).inputIds = (p.params r).inputIds) : p.Retains p' r := by
  simp [Retains,job,jobOf,hobjects,hmodel,hinput]

/-- A checkpoint that is written or removed leaves the other parameters as they are. -/
theorem params_update (params : Ref → PipelineParams) (x r : Ref) (c : Option Checkpoint) :
    (Function.update params x { params x with checkpoint := c } r).modelId =
        (params r).modelId ∧
      (Function.update params x { params x with checkpoint := c } r).inputIds =
        (params r).inputIds := by
  by_cases h : r = x
  · subst h
    simp
  · simp [h]

theorem receiveReply_done {a : StepDone} {m : ClusterMaster} (ha : p.answered e.event = some a)
    (h : machine.step p.master e.event = some m) :
    ∃ present hidden steps, a.dispatch.pc = .pipeline present a.idx hidden steps ∧
      p.master.frames.get? a.cid = some (.dispatch a.dispatch) ∧
      a.dispatch.nodeIds[a.idx]? = some a.node ∧
      m = (p.master.pipelineNext a.dispatch present (a.idx+1) (some a.hidden)
          (steps ++ [a.node])).1.setFrame a.cid
        (.dispatch { a.dispatch with
          pc := (p.master.pipelineNext a.dispatch present (a.idx+1) (some a.hidden)
            (steps ++ [a.node])).2 }) := by
  obtain ⟨answer,now,present,hidden,steps,hev,hf,hpc,hn,hok,hstates⟩ := answered_spec ha
  refine ⟨present,hidden,steps,hpc,hf,hn,?_⟩
  rw [hev] at h
  simp only [machine,ClusterMaster.step,hf,receiveReply,hn,hpc,if_true,pipelineReply,hok,hstates,
    Option.some_or] at h
  exact (Option.some.inj h).symm

theorem startLoop_retains (enabled : Bool) (p : PipelineMaster) (cid : ℕ) (d : Dispatch)
    (r : Ref) : p.Retains (p.startLoop enabled cid d) r := by
  have hstatic : ((p.startLoop enabled cid d).params r).modelId = (p.params r).modelId ∧
      ((p.startLoop enabled cid d).params r).inputIds = (p.params r).inputIds := by
    simp only [startLoop]
    split_ifs
    · exact params_update p.params d.task r none
    · exact ⟨rfl,rfl⟩
  have hq := (pipelineNext_spec p.master d (d.nodeIds.filter p.master.nodes.contains)
    (resumePoint enabled (p.params d.task)).1 (resumePoint enabled (p.params d.task)).2.1
    ((resumePoint enabled (p.params d.task)).2.2.map StepEntry.nodeId)).1
  exact .of_eq (congrFun hq.still.objects r) hstatic.1 hstatic.2

theorem continueLoop_retains {a : StepDone} (ha : p.answered e.event = some a)
    (hm : machine.step p.master e.event = some m') (enabled : Bool) (r : Ref) :
    p.Retains (p.continueLoop enabled a e.info m') r := by
  have hstatic : ((p.continueLoop enabled a e.info m').params r).modelId =
        (p.params r).modelId ∧
      ((p.continueLoop enabled a e.info m').params r).inputIds = (p.params r).inputIds := by
    simp only [continueLoop]
    by_cases henabled : enabled = true
    · rw [if_pos henabled]
      exact params_update p.params a.dispatch.task r _
    · rw [if_neg henabled]
      exact ⟨rfl,rfl⟩
  obtain ⟨present,hidden,steps,-,-,-,rfl⟩ := receiveReply_done ha hm
  have hq := (pipelineNext_spec p.master a.dispatch present (a.idx+1) (some a.hidden)
    (steps ++ [a.node])).1
  exact .of_eq (congrFun hq.still.objects r) hstatic.1 hstatic.2

variable (p') in
/-- A task that is degraded has no checkpoint, and nothing has read its model. -/
theorem retains_other (hw : p.master.Wf) (hG : p.KeepsModel F e)
    (hm : machine.step p.master e.event = some m') (hr : r < p.master.nextRef)
    (hmode : (p.master.objects r).mode = .pipeline) (hobjects : p'.master = m')
    (hparams : p'.params r = p.params r) :
    p.Retains p' r ∨ (p.params r).checkpoint = none ∧
      ∀ f ∈ p.master.frames.values, f.reads r = false := by
  have hjob := (step_evolves hw hm).job r hr
  rcases step_modelName hw hm hr with hname | ⟨id,hev,hid,hdegrade⟩
  · refine .inl ⟨hobjects ▸ hjob.mode,?_⟩
    simp only [job,jobOf,hobjects,hparams,hname,hjob.modelShards]
  · have hcond := hG.2
    rw [hev] at hcond
    exact .inr (hcond r hid hmode hdegrade)

end PipelineMaster
end FusionMultiNodes

import Mathlib.Algebra.BigOperators.Fin
import FusionMultiNodes.Lib.Channel
import FusionMultiNodes.Lib.EventStream
import FusionMultiNodes.Lib.JsonLaws
import FusionMultiNodes.Master.Step

/-! The stream of task events: the master writes every event to the queue of every subscriber without
waiting, and each subscriber's endpoint sends its client what it takes from its queue. -/
namespace FusionMultiNodes

inductive TaskEventKind
  | running | retry | completed | partially | failed | cancelled
  deriving DecidableEq

def TaskEventKind.name : TaskEventKind → String
  | .running => "running"
  | .retry => "retry"
  | .completed => "completed"
  | .partially => "partial"
  | .failed => "failed"
  | .cancelled => "cancelled"

def TaskStatus.value : TaskStatus → String
  | .pending => "pending"
  | .running => "running"
  | .completed => "completed"
  | .failed => "failed"
  | .cancelled => "cancelled"
  | .migrated => "migrated"
  | .timeout => "timeout"
  | .partialDone => "partial"

structure TaskEvent where
  taskId : TaskId
  name : String
  status : TaskStatus
  event : TaskEventKind
  error : String
  modelName : String
  retryCount : ℕ
  deriving DecidableEq

def taskEvent (task : ClusterTask) (event : TaskEventKind) (error : String) : TaskEvent where
  taskId := task.taskId
  name := task.name
  status := task.status
  event := event
  error := error
  modelName := task.modelName
  retryCount := task.retryCount

namespace TaskEvent

def toJson (e : TaskEvent) : Json :=
  .obj [("task_id",.str e.taskId),("name",.str e.name),("status",.str e.status.value),
    ("event",.str e.event.name),("error",.str e.error),("model_name",.str e.modelName),
    ("retry_count",.int e.retryCount)]

def statusOf (s : String) : Option TaskStatus :=
  [TaskStatus.pending,.running,.completed,.failed,.cancelled,.migrated,.timeout,
    .partialDone].find? fun x => decide (x.value = s)

def kindOf (s : String) : Option TaskEventKind :=
  [TaskEventKind.running,.retry,.completed,.partially,.failed,.cancelled].find?
    fun x => decide (x.name = s)

def ofJson (j : Json) : Option TaskEvent := do
  let taskId ← j.required Json.asStr "task_id"
  let name ← j.required Json.asStr "name"
  let status ← (j.required Json.asStr "status").bind statusOf
  let event ← (j.required Json.asStr "event").bind kindOf
  let error ← j.required Json.asStr "error"
  let modelName ← j.required Json.asStr "model_name"
  let retryCount ← j.required Json.asInt "retry_count"
  return ⟨taskId,name,status,event,error,modelName,retryCount.toNat⟩

theorem statusOf_value (s : TaskStatus) : statusOf s.value = some s := by
  cases s <;> rfl

theorem kindOf_name (k : TaskEventKind) : kindOf k.name = some k := by
  cases k <;> rfl

theorem ofJson_toJson (e : TaskEvent) : ofJson e.toJson = some e := by
  simp [ofJson,toJson,Json.required,Json.get?,Json.asStr,Json.asInt,statusOf_value,kindOf_name]

def frame (e : TaskEvent) : StreamEvent := ⟨e.event.name.toList,e.toJson.dumps⟩

def text (e : TaskEvent) : List Char := eventText e.frame.event e.frame.data

theorem read_text (events : List StreamEvent) (e : TaskEvent) :
    (StreamReader.between events).read e.text = StreamReader.between (events ++ [e.frame]) := by
  have hname : ∀ k : TaskEventKind, k.name.toList ≠ [] ∧ StreamReader.OneLine k.name.toList := by
    intro k
    cases k <;> decide
  obtain ⟨hne,hline⟩ := hname e.event
  exact StreamReader.read_eventText hne hline (Json.oneLine_dumps _)

def ofFrame (f : StreamEvent) : Option TaskEvent := (Json.loads f.data).bind ofJson

theorem ofFrame_frame (e : TaskEvent) : ofFrame e.frame = some e := by
  rw [ofFrame,frame,Json.loads_dumps,Option.bind_some,ofJson_toJson]

end TaskEvent

/-- The queues by the order in which they were made, and the text that the endpoint of each has
sent so far; the values of the metric `event_dropped` if there is an observability object, and the
numbers in the warnings about dropped events. -/
structure EventBus where
  made : ℕ
  queues : ℕ → Channel 256 TaskEvent
  texts : ℕ → List Char
  subscribers : List ℕ
  warnings : List ℕ
  observability : Option (List ℕ)

/-- What happens at the bus; `next` and `keepalive` are the two ways the wait of an endpoint for its
queue ends. -/
inductive BusEvent
  | subscribe
  | unsubscribe (q : ℕ)
  | emit (task : ClusterTask) (event : TaskEventKind) (error : String)
  | next (q : ℕ)
  | keepalive (q : ℕ)
  | observe

namespace EventBus

def start : EventBus := ⟨0,fun _ => Channel.empty,fun _ => [],[],[],none⟩

def ready : StreamEvent :=
  ⟨['r','e','a','d','y'],['{','"','e','v','e','n','t','"',':','"','r','e','a','d','y','"','}']⟩

/-- The start of an endpoint: `subscribe_task_events` and the first event. -/
def subscribeTaskEvents (s : EventBus) : EventBus :=
  { s with
    made := s.made+1
    texts := Function.update s.texts s.made (eventText ready.event ready.data)
    subscribers := s.subscribers ++ [s.made] }

def unsubscribeTaskEvents (s : EventBus) (q : ℕ) : EventBus :=
  if q ∈ s.subscribers then { s with subscribers := s.subscribers.erase q } else s

/-- The loop over the subscribers, which counts the queues it finds full. -/
def emitLoop (payload : TaskEvent) :
    List ℕ → (ℕ → Channel 256 TaskEvent) × ℕ → (ℕ → Channel 256 TaskEvent) × ℕ
  | [], p => p
  | q::qs, (queues,dropped) =>
    emitLoop payload qs (Function.update queues q ((queues q).put payload),
      dropped+(if (queues q).isFull then 1 else 0))

/-- The loop's queues, and what is said of the events it dropped. -/
def emitted (s : EventBus) (p : (ℕ → Channel 256 TaskEvent) × ℕ) : EventBus :=
  if 0 < p.2 then
    { s with
      queues := p.1
      warnings := s.warnings ++ [p.2]
      observability := s.observability.map fun values => values ++ [p.2] }
  else { s with queues := p.1 }

def emitTaskEvent (s : EventBus) (task : ClusterTask) (event : TaskEventKind) (error : String) :
    EventBus :=
  if s.subscribers = [] then s
  else s.emitted (emitLoop (taskEvent task event error) s.subscribers (s.queues,0))

def next (s : EventBus) (q : ℕ) : Option EventBus :=
  if q ∈ s.subscribers then
    (s.queues q).take.map fun p =>
      { s with
        queues := Function.update s.queues q p.2
        texts := Function.update s.texts q (s.texts q ++ p.1.text) }
  else none

def keepalive (s : EventBus) (q : ℕ) : Option EventBus :=
  if q ∈ s.subscribers then
    some { s with
      texts := Function.update s.texts q
        (s.texts q ++ commentText [' ','k','e','e','p','a','l','i','v','e']) }
  else none

def step (s : EventBus) : BusEvent → Option EventBus
  | .subscribe => some s.subscribeTaskEvents
  | .unsubscribe q => some (s.unsubscribeTaskEvents q)
  | .emit task event error => some (s.emitTaskEvent task event error)
  | .next q => s.next q
  | .keepalive q => s.keepalive q
  | .observe => some { s with observability := some (s.observability.getD []) }

def machine : Machine EventBus BusEvent := ⟨step⟩

variable {s t u : EventBus} {e : BusEvent} {q : ℕ}

theorem emitLoop_queues (payload : TaskEvent) {qs : List ℕ} (hqs : qs.Nodup)
    (queues : ℕ → Channel 256 TaskEvent) (dropped q : ℕ) :
    (emitLoop payload qs (queues,dropped)).1 q =
      if q ∈ qs then (queues q).put payload else queues q := by
  induction qs generalizing queues dropped with
  | nil => rfl
  | cons a qs ih =>
    obtain ⟨ha,hqs⟩ := List.nodup_cons.mp hqs
    rw [emitLoop,ih hqs]
    by_cases hq : q = a
    · subst hq
      simp [ha]
    · simp [hq]

theorem emitLoop_dropped (payload : TaskEvent) {qs : List ℕ} (hqs : qs.Nodup)
    (queues : ℕ → Channel 256 TaskEvent) (dropped : ℕ) :
    (emitLoop payload qs (queues,dropped)).2 =
      dropped+(qs.map fun q => if (queues q).isFull then 1 else 0).sum := by
  induction qs generalizing queues dropped with
  | nil => rfl
  | cons a qs ih =>
    obtain ⟨ha,hqs⟩ := List.nodup_cons.mp hqs
    have hrest : (qs.map fun q =>
        if (Function.update queues a ((queues a).put payload) q).isFull then 1 else 0) =
        qs.map fun q => if (queues q).isFull then 1 else 0 := by
      apply List.map_congr_left
      intro q hq
      rw [Function.update_of_ne (fun heq : q = a => ha (heq ▸ hq))]
    rw [emitLoop,ih hqs,hrest,List.map_cons,List.sum_cons,Nat.add_assoc]

theorem queues_emit (hs : s.subscribers.Nodup) (task : ClusterTask) (event : TaskEventKind)
    (error : String) (q : ℕ) :
    (s.emitTaskEvent task event error).queues q =
      if q ∈ s.subscribers then (s.queues q).put (taskEvent task event error) else s.queues q := by
  rw [← emitLoop_queues (taskEvent task event error) hs s.queues 0 q]
  unfold emitTaskEvent emitted
  split_ifs with hnone
  · rw [hnone]
    rfl
  · rfl
  · rfl

/-- The number of full queues among those of the subscribers. -/
def fullQueues (s : EventBus) : ℕ :=
  (s.subscribers.map fun q => if (s.queues q).isFull then 1 else 0).sum

theorem warnings_emit (hs : s.subscribers.Nodup) (task : ClusterTask) (event : TaskEventKind)
    (error : String) :
    (s.emitTaskEvent task event error).warnings.sum = s.warnings.sum+s.fullQueues := by
  have hloop := emitLoop_dropped (taskEvent task event error) hs s.queues 0
  rw [Nat.zero_add] at hloop
  unfold emitTaskEvent emitted
  split_ifs with hnone hdropped
  · rw [fullQueues,hnone]
    rfl
  · rw [List.sum_append,List.sum_singleton,hloop]
    rfl
  · rw [hloop] at hdropped
    rw [fullQueues,Nat.eq_zero_of_not_pos hdropped,Nat.add_zero]

theorem emit_frame (s : EventBus) (task : ClusterTask) (event : TaskEventKind) (error : String) :
    (s.emitTaskEvent task event error).made = s.made ∧
      (s.emitTaskEvent task event error).texts = s.texts ∧
      (s.emitTaskEvent task event error).subscribers = s.subscribers := by
  unfold emitTaskEvent emitted
  split_ifs <;> exact ⟨rfl,rfl,rfl⟩

theorem next_eq_some (h : s.next q = some t) : q ∈ s.subscribers ∧ ∃ a c,
    (s.queues q).take = some (a,c) ∧
      t = { s with
        queues := Function.update s.queues q c
        texts := Function.update s.texts q (s.texts q ++ a.text) } := by
  obtain ⟨hq,htake⟩ := Option.ite_none_right_eq_some.mp h
  obtain ⟨⟨a,c⟩,hac,rfl⟩ := Option.map_eq_some_iff.mp htake
  exact ⟨hq,a,c,hac,rfl⟩

/-- The state of the bus at any time: the endpoints have sent their clients what was taken from
their queues, and every lost event is in a warning. -/
structure Wf (s : EventBus) : Prop where
  nodup : s.subscribers.Nodup
  made : ∀ q ∈ s.subscribers, q < s.made
  fresh : ∀ q, s.made ≤ q → s.queues q = Channel.empty
  texts : ∀ q < s.made, StreamReader.start.read (s.texts q) =
    StreamReader.between (ready::(s.queues q).delivered.map TaskEvent.frame)
  warnings : s.warnings.sum = ∑ q ∈ Finset.range s.made, (s.queues q).lost
  observability : ∀ values, s.observability = some values → values <:+ s.warnings

theorem wf_start : start.Wf :=
  ⟨List.nodup_nil,fun _ h => (nomatch h),fun _ _ => rfl,fun _ h => (nomatch h),rfl,
    fun _ h => (nomatch h)⟩

theorem wf_subscribe (h : s.Wf) : s.subscribeTaskEvents.Wf := by
  refine ⟨?_,fun q hq => ?_,fun q hq => h.fresh q (Nat.le_of_succ_le hq),fun q hq => ?_,?_,
    h.observability⟩
  · exact List.Nodup.append h.nodup (List.nodup_singleton _) fun q hq hnew =>
      Nat.lt_irrefl _ (List.mem_singleton.mp hnew ▸ h.made q hq)
  · rcases List.mem_append.mp hq with hq | hq
    · exact Nat.lt_succ_of_lt (h.made q hq)
    · exact Nat.lt_succ_of_le (List.mem_singleton.mp hq).le
  · rcases Nat.lt_succ_iff_lt_or_eq.mp hq with hq | rfl
    · exact (congrArg _ (Function.update_of_ne hq.ne _ _)).trans (h.texts q hq)
    · show StreamReader.start.read (Function.update s.texts s.made _ s.made) =
        StreamReader.between (ready::(s.queues s.made).delivered.map TaskEvent.frame)
      rw [Function.update_self,h.fresh _ le_rfl]
      exact @StreamReader.read_eventText _ _ [] (by decide) (by decide) (by decide)
  · show s.warnings.sum = ∑ q ∈ Finset.range (s.made+1), (s.queues q).lost
    rw [Finset.sum_range_succ,h.fresh _ le_rfl,h.warnings]
    rfl

theorem wf_unsubscribe (h : s.Wf) (q : ℕ) : (s.unsubscribeTaskEvents q).Wf := by
  unfold unsubscribeTaskEvents
  split_ifs
  · exact ⟨h.nodup.erase q,fun p hp => h.made p (List.mem_of_mem_erase hp),h.fresh,h.texts,
      h.warnings,h.observability⟩
  · exact h

theorem sum_fullQueues (h : s.Wf) :
    s.fullQueues =
      ∑ q ∈ Finset.range s.made, if q ∈ s.subscribers ∧ (s.queues q).isFull then 1 else 0 := by
  have hsubset : s.subscribers.toFinset ⊆ Finset.range s.made := fun q hq =>
    Finset.mem_range.mpr (h.made q (List.mem_toFinset.mp hq))
  have hsum : s.fullQueues =
      ∑ q ∈ s.subscribers.toFinset, if (s.queues q).isFull then 1 else 0 :=
    (List.sum_toFinset _ h.nodup).symm
  rw [hsum,← Finset.sum_subset hsubset fun q _ hq => ?_]
  · apply Finset.sum_congr rfl
    intro q hq
    simp [List.mem_toFinset.mp hq]
  · exact if_neg fun hboth => hq (List.mem_toFinset.mpr hboth.1)

theorem suffix_emit (h : s.Wf) (task : ClusterTask) (event : TaskEventKind) (error : String)
    (values : List ℕ) (hvalues : (s.emitTaskEvent task event error).observability = some values) :
    values <:+ (s.emitTaskEvent task event error).warnings := by
  revert hvalues
  unfold emitTaskEvent emitted
  split_ifs
  · exact h.observability values
  · intro hvalues
    obtain ⟨old,hold,rfl⟩ := Option.map_eq_some_iff.mp hvalues
    obtain ⟨before,hbefore⟩ := h.observability old hold
    exact ⟨before,by rw [← List.append_assoc,hbefore]⟩
  · exact h.observability values

theorem wf_emit (h : s.Wf) (task : ClusterTask) (event : TaskEventKind) (error : String) :
    (s.emitTaskEvent task event error).Wf := by
  obtain ⟨hmade,htexts,hsubscribers⟩ := emit_frame s task event error
  have hqueues := queues_emit h.nodup task event error
  refine ⟨?_,?_,fun q hq => ?_,fun q hq => ?_,?_,suffix_emit h task event error⟩
  · rw [hsubscribers]
    exact h.nodup
  · rw [hsubscribers,hmade]
    exact h.made
  · rw [hmade] at hq
    rw [hqueues,if_neg fun hmem => absurd (h.made q hmem) (Nat.not_lt.mpr hq),h.fresh q hq]
  · rw [hmade] at hq
    rw [htexts,h.texts q hq,hqueues]
    split_ifs <;> rfl
  · have hlost : ∀ q, ((s.emitTaskEvent task event error).queues q).lost =
        (s.queues q).lost+if q ∈ s.subscribers ∧ (s.queues q).isFull then 1 else 0 := by
      intro q
      rw [hqueues]
      by_cases hq : q ∈ s.subscribers <;> simp [hq,Channel.lost_put]
    simp only [warnings_emit h.nodup,hmade,hlost,Finset.sum_add_distrib,← h.warnings,
      ← sum_fullQueues h]

theorem wf_next (h : s.Wf) (ht : s.next q = some t) : t.Wf := by
  obtain ⟨hq,a,c,htake,rfl⟩ := next_eq_some ht
  obtain ⟨-,hdelivered,hlost⟩ := Channel.take_eq_some htake
  refine ⟨h.nodup,h.made,fun p hp => ?_,fun p hp => ?_,?_,h.observability⟩
  · have hne : p ≠ q := fun heq => absurd (h.made q hq) (Nat.not_lt.mpr (heq ▸ hp))
    exact (Function.update_of_ne hne _ _).trans (h.fresh p hp)
  · by_cases hpq : p = q
    · subst hpq
      simp only [Function.update_self,StreamReader.read_append,h.texts p hp,TaskEvent.read_text,
        hdelivered,List.map_append,List.map_singleton,List.cons_append]
    · simp only [Function.update_of_ne hpq]
      exact h.texts p hp
  · refine h.warnings.trans (Finset.sum_congr rfl fun p _ => ?_)
    by_cases hpq : p = q
    · subst hpq
      simp only [Function.update_self,hlost]
    · simp only [Function.update_of_ne hpq]

theorem wf_keepalive (h : s.Wf) (ht : s.keepalive q = some t) : t.Wf := by
  obtain ⟨-,ht⟩ := Option.ite_none_right_eq_some.mp ht
  obtain rfl := Option.some.inj ht
  refine ⟨h.nodup,h.made,h.fresh,fun p hp => ?_,h.warnings,h.observability⟩
  by_cases hpq : p = q
  · subst hpq
    simp only [Function.update_self,StreamReader.read_append,h.texts p hp]
    exact StreamReader.read_commentText (by decide)
  · simp only [Function.update_of_ne hpq]
    exact h.texts p hp

theorem wf_observe (h : s.Wf) :
    Wf { s with observability := some (s.observability.getD []) } := by
  refine ⟨h.nodup,h.made,h.fresh,h.texts,h.warnings,fun values hvalues => ?_⟩
  obtain rfl := Option.some.inj hvalues
  cases hold : s.observability with
  | none => exact List.nil_suffix
  | some values => exact h.observability values hold

theorem wf_step (h : s.Wf) (ht : machine.step s e = some t) : t.Wf := by
  cases e with
  | subscribe => exact Option.some.inj ht ▸ wf_subscribe h
  | unsubscribe q => exact Option.some.inj ht ▸ wf_unsubscribe h q
  | emit task event error => exact Option.some.inj ht ▸ wf_emit h task event error
  | next q => exact wf_next h ht
  | keepalive q => exact wf_keepalive h ht
  | observe => exact Option.some.inj ht ▸ wf_observe h

theorem wf_of_reaches (h : machine.Reaches Machine.Any start s) : s.Wf :=
  h.invariant (fun _ _ _ hwf _ hstep => wf_step hwf hstep) wf_start

def emission : BusEvent → List TaskEvent
  | .emit task event error => [taskEvent task event error]
  | _ => []

/-- The step emits nothing, or the queue has room for it. -/
def HasRoom (q : ℕ) (s : EventBus) (e : BusEvent) (_ : EventBus) : Prop :=
  emission e ≠ [] → (s.queues q).isFull = false

structure Follows (q : ℕ) (s : EventBus) (e : BusEvent) (t : EventBus) : Prop where
  subscribed : q ∈ t.subscribers
  offered : (t.queues q).offered = (s.queues q).offered ++ emission e
  le : (s.queues q).lost ≤ (t.queues q).lost
  lost : (t.queues q).lost = (s.queues q).lost ↔ HasRoom q s e t

theorem follows_same (hq : q ∈ t.subscribers) (he : emission e = [])
    (hqueue : t.queues q = s.queues q) : Follows q s e t := by
  refine ⟨hq,?_,?_,?_⟩
  · rw [hqueue,he,List.append_nil]
  · rw [hqueue]
  · exact iff_of_true (congrArg _ hqueue) fun hne => absurd he hne

theorem follows_emit (h : s.Wf) (hq : q ∈ s.subscribers) (task : ClusterTask)
    (event : TaskEventKind) (error : String) :
    Follows q s (.emit task event error) (s.emitTaskEvent task event error) := by
  have hqueue := queues_emit h.nodup task event error q
  rw [if_pos hq] at hqueue
  have hlost : ((s.emitTaskEvent task event error).queues q).lost =
      (s.queues q).lost+if (s.queues q).isFull then 1 else 0 := by rw [hqueue,Channel.lost_put]
  refine ⟨?_,?_,?_,?_⟩
  · rw [(emit_frame s task event error).2.2]
    exact hq
  · rw [hqueue,Channel.offered_put]
    rfl
  · rw [hlost]
    exact Nat.le_add_right _ _
  · rw [hlost,HasRoom]
    cases (s.queues q).isFull <;> simp [emission]

theorem follows_next {p : ℕ} (hq : q ∈ s.subscribers) (ht : s.next p = some t) :
    Follows q s (.next p) t := by
  obtain ⟨-,a,c,htake,rfl⟩ := next_eq_some ht
  obtain ⟨hoffered,-,hlost⟩ := Channel.take_eq_some htake
  by_cases hqp : q = p
  · subst hqp
    refine ⟨hq,?_,?_,?_⟩
    · simp only [Function.update_self,hoffered,emission,List.append_nil]
    · simp only [Function.update_self,hlost,le_refl]
    · exact iff_of_true (by simp only [Function.update_self,hlost]) fun hne => absurd rfl hne
  · exact follows_same hq rfl (Function.update_of_ne hqp _ _)

theorem follows_step (h : s.Wf) (hq : q ∈ s.subscribers) (he : e ≠ .unsubscribe q)
    (ht : machine.step s e = some t) : Follows q s e t := by
  cases e with
  | subscribe =>
    obtain rfl := Option.some.inj ht
    exact follows_same (List.mem_append_left _ hq) rfl rfl
  | unsubscribe p =>
    obtain rfl := Option.some.inj ht
    have hne : q ≠ p := fun heq => he (heq ▸ rfl)
    unfold unsubscribeTaskEvents
    split_ifs
    · exact follows_same ((List.mem_erase_of_ne hne).mpr hq) rfl rfl
    · exact follows_same hq rfl rfl
  | emit task event error =>
    obtain rfl := Option.some.inj ht
    exact follows_emit h hq task event error
  | next p => exact follows_next hq ht
  | keepalive p =>
    obtain ⟨-,ht⟩ := Option.ite_none_right_eq_some.mp ht
    obtain rfl := Option.some.inj ht
    exact follows_same hq rfl rfl
  | observe =>
    obtain rfl := Option.some.inj ht
    exact follows_same hq rfl rfl

/-- Over a run a subscriber that stays is offered every event that is emitted, and it loses one only
where its queue is full. -/
theorem follows_run {es : List BusEvent} (h : s.Wf) (hq : q ∈ s.subscribers)
    (hes : .unsubscribe q ∉ es) (hu : machine.exec s es = some u) :
    q ∈ u.subscribers ∧
      (u.queues q).offered = (s.queues q).offered ++ es.flatMap emission ∧
      (s.queues q).lost ≤ (u.queues q).lost ∧
      ((u.queues q).lost = (s.queues q).lost ↔ machine.Along (HasRoom q) s es) := by
  induction es generalizing s with
  | nil =>
    obtain rfl : s = u := Option.some.inj hu
    exact ⟨hq,(List.append_nil _).symm,le_rfl,iff_of_true rfl trivial⟩
  | cons e es ih =>
    obtain ⟨t,ht,hrest⟩ := Option.bind_eq_some_iff.mp hu
    obtain ⟨hne,hes⟩ := not_or.mp (mt List.mem_cons.mpr hes)
    have hstep := follows_step h hq (Ne.symm hne) ht
    obtain ⟨hfinal,hoffered,hle,hlost⟩ := ih (wf_step h ht) hstep.subscribed hes hrest
    refine ⟨hfinal,?_,hstep.le.trans hle,?_⟩
    · rw [hoffered,hstep.offered,List.flatMap_cons,List.append_assoc]
    · have hsplit : machine.Along (HasRoom q) s (e::es) ↔
          HasRoom q s e t ∧ machine.Along (HasRoom q) t es := by
        constructor
        · exact fun hall => hall t ht
        · intro hboth t' ht'
          obtain rfl := Option.some.inj (ht.symm.trans ht')
          exact hboth
      have hle' := hstep.le
      rw [hsplit,← hstep.lost,← hlost]
      omega

/-- What a client reads in the text of its stream: the first event, and the task events after it. -/
def clientView (text : List Char) : Option (StreamEvent × List TaskEvent) :=
  match (StreamReader.start.read text).events with
  | [] => none
  | first::events => (events.mapM TaskEvent.ofFrame).map fun tasks => (first,tasks)

theorem Wf.clientView (h : s.Wf) (hq : q < s.made) :
    clientView (s.texts q) = some (ready,(s.queues q).delivered) := by
  have hframes : ((s.queues q).delivered.map TaskEvent.frame).mapM TaskEvent.ofFrame =
      some (s.queues q).delivered := by
    have hinverse : TaskEvent.ofFrame ∘ TaskEvent.frame = some := funext TaskEvent.ofFrame_frame
    rw [List.mapM_map,hinverse]
    simpa using List.mapM_pure (m := Option) (f := id)
  rw [EventBus.clientView,h.texts q hq]
  simp only [StreamReader.between,hframes,Option.map_some]

/-- Over any run from a subscription on, whatever the other subscribers do: the text sent to the
client reads as the event `ready` and the task events taken from its queue; these are some of those
that have left the queue, in their order, and the rest of them is lost; what has left the queue and
what waits in it are all the events of the run. None is lost if and only if the queue had room at
every emission. The warnings count the lost events of all subscribers, and the metric has the counts
since it is recorded. -/
theorem task_events_delivered {es : List BusEvent} (hs : machine.Reaches Machine.Any start s)
    (ht : machine.step s .subscribe = some t) (hes : .unsubscribe s.made ∉ es)
    (hu : machine.exec t es = some u) :
    clientView (u.texts s.made) = some (ready,(u.queues s.made).delivered) ∧
      es.flatMap emission = (u.queues s.made).past ++ (u.queues s.made).queue.items ∧
      (u.queues s.made).delivered.Sublist (u.queues s.made).past ∧
      (u.queues s.made).past.length = (u.queues s.made).delivered.length+(u.queues s.made).lost ∧
      ((u.queues s.made).lost = 0 ↔ machine.Along (HasRoom s.made) t es) ∧
      u.warnings.sum = ∑ q ∈ Finset.range u.made, (u.queues q).lost ∧
      ∀ values, u.observability = some values → values <:+ u.warnings := by
  have hwf := wf_of_reaches hs
  obtain rfl := Option.some.inj ht
  have hmem : s.made ∈ s.subscribeTaskEvents.subscribers :=
    List.mem_append_right _ (List.mem_singleton_self _)
  have hempty : s.subscribeTaskEvents.queues s.made = Channel.empty := hwf.fresh _ le_rfl
  obtain ⟨hsubscribed,hoffered,-,hlost⟩ := follows_run (wf_subscribe hwf) hmem hes hu
  have hfinal : u.Wf := wf_of_reaches
    (hs.trans ((Machine.Reaches.single trivial ht).trans (Machine.Reaches.of_exec hu)))
  rw [hempty] at hoffered hlost
  exact ⟨hfinal.clientView (hfinal.made _ hsubscribed),hoffered.symm,(u.queues s.made).sublist,(u.queues s.made).count,
    hlost,hfinal.warnings,hfinal.observability⟩

theorem task_events_delivered_two : ∃ u,
    machine.exec start.subscribeTaskEvents
      [.emit (ClusterMaster.plainTask "t1") .running "",.keepalive 0,.next 0,
        .emit (ClusterMaster.plainTask "t1") .failed "out of\nmemory"] = some u ∧
    clientView (u.texts 0) = some (ready,(u.queues 0).delivered) ∧
    u.warnings.sum = ∑ q ∈ Finset.range u.made, (u.queues q).lost := by
  refine ⟨_,rfl,?_⟩
  have h := @task_events_delivered start _ _ _ Machine.Reaches.refl rfl
    (show BusEvent.unsubscribe 0 ∉ [BusEvent.emit (ClusterMaster.plainTask "t1") .running "",
      .keepalive 0,.next 0,.emit (ClusterMaster.plainTask "t1") .failed "out of\nmemory"] by simp) rfl
  exact ⟨h.1,h.2.2.2.2.2.1⟩

end EventBus
end FusionMultiNodes

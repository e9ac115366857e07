import FusionMultiNodes.Agent.NodeAgent
import FusionMultiNodes.Lib.Machine

/-! The runs of a `NodeAgent` on its event loop: requests, cancellations, the first step of a
run and its end, in any order. -/
namespace FusionMultiNodes

/-- The worker of one accepted request, from its creation to its end. -/
structure TaskRun where
  taskId : String
  started : Bool
  cancelling : Bool
  deriving DecidableEq

structure AgentLoop where
  agent : NodeAgent
  runs : Dict ℕ TaskRun

inductive AgentEvent
  | execute (q : ExecuteRequest) (gate : Option String)
  | cancelTask (taskId : String)
  /-- The coroutine of the request that awaits a run is cancelled, and the run with it. -/
  | dropRequest (handle : ℕ)
  /-- The loop enters the worker of a run for the first time. -/
  | firstStep (handle : ℕ)
  /-- A run that has been entered returns or raises. -/
  | runEnds (handle : ℕ)

namespace AgentLoop

variable (l : AgentLoop)

def create (nodeId : NodeId) (maxTasks : ℕ) : AgentLoop := ⟨.create nodeId maxTasks,∅⟩

/-- `execute_task` up to the point where it awaits the run. -/
def execute (q : ExecuteRequest) (gate : Option String) : AgentLoop :=
  let r := l.agent.executeTask q gate
  match r.2 with
  | .ok taskId => ⟨r.1,l.runs.set l.agent.handleSeq ⟨taskId,false,false⟩⟩
  | .error _ => ⟨r.1,l.runs⟩

/-- `handle.cancel()`; nothing happens to a run that is done. -/
def cancelHandle (handle : ℕ) : AgentLoop :=
  { l with runs := l.runs.modify handle fun r => { r with cancelling := true } }

def cancelTask (taskId : String) : AgentLoop × Bool :=
  match l.agent.runningTaskHandles.get? taskId with
  | none => (l,false)
  | some handle => if l.runs.contains handle then (l.cancelHandle handle,true) else (l,false)

/-- A run that is cancelled before its first step never enters the `try` that would remove its
handle. -/
def step : AgentEvent → Option AgentLoop
  | .execute q gate => some (l.execute q gate)
  | .cancelTask taskId => some (l.cancelTask taskId).1
  | .dropRequest handle => some (l.cancelHandle handle)
  | .firstStep handle =>
    match l.runs.get? handle with
    | none => none
    | some r =>
      if r.started then none
      else if r.cancelling then some { l with runs := l.runs.erase handle }
      else some { l with runs := l.runs.modify handle fun r => { r with started := true } }
  | .runEnds handle =>
    match l.runs.get? handle with
    | none => none
    | some r =>
      if r.started then some ⟨l.agent.finishTask r.taskId,l.runs.erase handle⟩ else none

def machine : Machine AgentLoop AgentEvent := ⟨step⟩

/-- The live runs are no more than allowed and have different task ids, and the registry has
exactly their handles. -/
structure Kept : Prop where
  bounded : l.runs.entries.length ≤ l.agent.maxTasks
  single : ∀ h₁ r₁ h₂ r₂, l.runs.get? h₁ = some r₁ → l.runs.get? h₂ = some r₂ →
    r₁.taskId = r₂.taskId → h₁ = h₂
  registered : ∀ taskId handle, l.agent.runningTaskHandles.get? taskId = some handle ↔
    ∃ r, l.runs.get? handle = some r ∧ r.taskId = taskId

def Numbered : Prop := ∀ handle r, l.runs.get? handle = some r → handle < l.agent.handleSeq

end AgentLoop

namespace NodeAgent

variable (a : NodeAgent)

/-- Neither the token, the sandbox nor the number of runs stands against the request. -/
def Accepts (q : ExecuteRequest) (gate : Option String) : Prop :=
  ¬(q.fencingToken ≠ 0 ∧ q.fencingToken < a.lastFencingToken) ∧ gate = none ∧
    a.runningTaskHandles.entries.length < a.maxTasks

variable {a} {q : ExecuteRequest} {gate : Option String}

@[simp] theorem nameTask_handles : (a.nameTask q).1.runningTaskHandles = a.runningTaskHandles := by
  unfold nameTask
  split_ifs <;> rfl

@[simp] theorem nameTask_handleSeq : (a.nameTask q).1.handleSeq = a.handleSeq := by
  unfold nameTask
  split_ifs <;> rfl

@[simp] theorem nameTask_maxTasks : (a.nameTask q).1.maxTasks = a.maxTasks := by
  unfold nameTask
  split_ifs <;> rfl

theorem executeTask_ok (h : a.Accepts q gate)
    (hid : q.dispatchId ≠ "" → a.runningTaskHandles.get? q.dispatchId = none) :
    (a.executeTask q gate).2 = .ok (a.nameTask q).2 ∧
      (a.executeTask q gate).1.runningTaskHandles =
        a.runningTaskHandles.set (a.nameTask q).2 a.handleSeq ∧
      (a.executeTask q gate).1.handleSeq = a.handleSeq + 1 ∧
      (a.executeTask q gate).1.maxTasks = a.maxTasks := by
  obtain ⟨htoken,rfl,hroom⟩ := h
  have hdedup : ¬(a.runningTaskHandles.contains q.dispatchId = true ∧ q.dispatchId ≠ "") := by
    rintro ⟨hc,hne⟩
    simp [Dict.contains,hid hne] at hc
  simp only [executeTask,if_neg hdedup,if_neg htoken,if_neg (Nat.not_le.mpr hroom),
    nameTask_maxTasks,and_self]

theorem executeTask_error (h : ¬(a.Accepts q gate ∧
    (q.dispatchId ≠ "" → a.runningTaskHandles.get? q.dispatchId = none))) :
    (∃ e, (a.executeTask q gate).2 = .error e) ∧
      (a.executeTask q gate).1.runningTaskHandles = a.runningTaskHandles ∧
      (a.executeTask q gate).1.handleSeq = a.handleSeq ∧
      (a.executeTask q gate).1.maxTasks = a.maxTasks := by
  by_cases hdedup : a.runningTaskHandles.contains q.dispatchId = true ∧ q.dispatchId ≠ ""
  · rw [executeTask,if_pos hdedup]
    exact ⟨⟨_,rfl⟩,rfl,rfl,rfl⟩
  have hid : q.dispatchId ≠ "" → a.runningTaskHandles.get? q.dispatchId = none := by
    intro hne
    have hc : ¬a.runningTaskHandles.contains q.dispatchId = true := fun hc => hdedup ⟨hc,hne⟩
    simpa [Dict.contains] using hc
  simp only [executeTask,if_neg hdedup]
  by_cases htoken : q.fencingToken ≠ 0 ∧ q.fencingToken < a.lastFencingToken
  · simp only [if_pos htoken]
    exact ⟨⟨_,rfl⟩,nameTask_handles,nameTask_handleSeq,nameTask_maxTasks⟩
  simp only [if_neg htoken]
  cases gate with
  | some reason => exact ⟨⟨_,rfl⟩,nameTask_handles,nameTask_handleSeq,nameTask_maxTasks⟩
  | none =>
    have hfull : a.maxTasks ≤ a.runningTaskHandles.entries.length := by
      by_contra hroom
      exact h ⟨⟨htoken,rfl,Nat.lt_of_not_le hroom⟩,hid⟩
    simp only [if_pos hfull]
    exact ⟨⟨_,rfl⟩,nameTask_handles,nameTask_handleSeq,nameTask_maxTasks⟩

end NodeAgent

namespace AgentLoop

variable (l : AgentLoop)

/-- No request is accepted under a generated id that a live run has, and no run is entered that
is cancelled already. -/
def Keeps : AgentEvent → Prop
  | .execute q gate => q.dispatchId = "" → l.agent.Accepts q gate →
      l.agent.runningTaskHandles.get? (l.agent.nameTask q).2 = none
  | .firstStep handle => ∀ r, l.runs.get? handle = some r → r.cancelling = false
  | _ => True

variable {l} {l' : AgentLoop}

theorem numbered_create (nodeId : NodeId) (maxTasks : ℕ) : (create nodeId maxTasks).Numbered :=
  fun handle r h => absurd h (by simp [create])

theorem Numbered.of_runs (hl : l.Numbered) (hseq : l.agent.handleSeq = l'.agent.handleSeq)
    (hruns : ∀ handle r, l'.runs.get? handle = some r → ∃ r', l.runs.get? handle = some r') :
    l'.Numbered := by
  intro handle r h
  obtain ⟨r',hr'⟩ := hruns handle r h
  rw [← hseq]
  exact hl handle r' hr'

theorem get?_modify_some {d : Dict ℕ TaskRun} {k k' : ℕ} {f : TaskRun → TaskRun} {r : TaskRun}
    (h : (d.modify k f).get? k' = some r) :
    ∃ r', d.get? k' = some r' ∧ r = if k' = k then f r' else r' := by
  rw [Dict.get?_modify] at h
  split_ifs at h ⊢ with hk
  · obtain ⟨r',hr',rfl⟩ := Option.map_eq_some_iff.mp h
    exact ⟨r',hr',rfl⟩
  · exact ⟨r,h,rfl⟩

theorem get?_erase_some {d : Dict ℕ TaskRun} {k k' : ℕ} {r : TaskRun} :
    (d.erase k).get? k' = some r ↔ k' ≠ k ∧ d.get? k' = some r := by
  rw [Dict.get?_erase]
  split_ifs with hk <;> simp [hk]

theorem kept_modify_iff (l : AgentLoop) (handle : ℕ) {f : TaskRun → TaskRun}
    (hf : ∀ r, (f r).taskId = r.taskId) :
    ({ l with runs := l.runs.modify handle f } : AgentLoop).Kept ↔ l.Kept := by
  have hlen : (l.runs.modify handle f).entries.length = l.runs.entries.length := by
    simp [Dict.modify,Dict.mapValues]
  have hget : ∀ k taskId, (∃ r, (l.runs.modify handle f).get? k = some r ∧ r.taskId = taskId) ↔
      ∃ r, l.runs.get? k = some r ∧ r.taskId = taskId := by
    intro k taskId
    rw [Dict.get?_modify]
    split_ifs with hk
    · cases l.runs.get? k <;> simp [hf]
    · rfl
  have hsingle : (∀ h₁ r₁ h₂ r₂, (l.runs.modify handle f).get? h₁ = some r₁ →
      (l.runs.modify handle f).get? h₂ = some r₂ → r₁.taskId = r₂.taskId → h₁ = h₂) ↔
      ∀ h₁ r₁ h₂ r₂, l.runs.get? h₁ = some r₁ → l.runs.get? h₂ = some r₂ →
        r₁.taskId = r₂.taskId → h₁ = h₂ := by
    constructor
    · intro h h₁ r₁ h₂ r₂ hr₁ hr₂ hid
      obtain ⟨s₁,hs₁,hid₁⟩ := (hget h₁ r₁.taskId).mpr ⟨r₁,hr₁,rfl⟩
      obtain ⟨s₂,hs₂,hid₂⟩ := (hget h₂ r₂.taskId).mpr ⟨r₂,hr₂,rfl⟩
      exact h h₁ s₁ h₂ s₂ hs₁ hs₂ (by rw [hid₁,hid₂,hid])
    · intro h h₁ r₁ h₂ r₂ hr₁ hr₂ hid
      obtain ⟨s₁,hs₁,hid₁⟩ := (hget h₁ r₁.taskId).mp ⟨r₁,hr₁,rfl⟩
      obtain ⟨s₂,hs₂,hid₂⟩ := (hget h₂ r₂.taskId).mp ⟨r₂,hr₂,rfl⟩
      exact h h₁ s₁ h₂ s₂ hs₁ hs₂ (by rw [hid₁,hid₂,hid])
  constructor
  · intro h
    exact ⟨hlen ▸ h.bounded,hsingle.mp h.single,
      fun taskId k => (h.registered taskId k).trans (hget k taskId)⟩
  · intro h
    exact ⟨hlen ▸ h.bounded,hsingle.mpr h.single,
      fun taskId k => (h.registered taskId k).trans (hget k taskId).symm⟩

theorem length_erase_le (d : Dict ℕ TaskRun) (k : ℕ) :
    (d.erase k).entries.length ≤ d.entries.length :=
  List.length_filter_le _ _

theorem Kept.runEnds (hl : l.Kept) {handle : ℕ} {r : TaskRun}
    (hr : l.runs.get? handle = some r) :
    (⟨l.agent.finishTask r.taskId,l.runs.erase handle⟩ : AgentLoop).Kept := by
  refine ⟨(length_erase_le l.runs handle).trans hl.bounded,?_,?_⟩
  · intro h₁ r₁ h₂ r₂ hr₁ hr₂
    exact hl.single h₁ r₁ h₂ r₂ (get?_erase_some.mp hr₁).2 (get?_erase_some.mp hr₂).2
  · intro taskId k
    show (l.agent.runningTaskHandles.erase r.taskId).get? taskId = some k ↔ _
    have hrun : l.agent.runningTaskHandles.get? r.taskId = some handle :=
      (hl.registered r.taskId handle).mpr ⟨r,hr,rfl⟩
    rw [Dict.get?_erase]
    constructor
    · intro h
      split_ifs at h with hid
      obtain ⟨s,hs,hsid⟩ := (hl.registered taskId k).mp h
      have hk : k ≠ handle := by
        rintro rfl
        rw [hr] at hs
        cases hs
        exact hid hsid.symm
      exact ⟨s,get?_erase_some.mpr ⟨hk,hs⟩,hsid⟩
    · rintro ⟨s,hs,hsid⟩
      obtain ⟨hk,hs⟩ := get?_erase_some.mp hs
      have hid : taskId ≠ r.taskId := by
        intro hid
        exact hk (hl.single k s handle r hs hr (hsid.trans hid))
      rw [if_neg hid]
      exact (hl.registered taskId k).mpr ⟨s,hs,hsid⟩

/-- A run that goes without its handle leaves the handle behind. -/
theorem not_kept_erase (hl : l.Kept) {handle : ℕ} {r : TaskRun}
    (hr : l.runs.get? handle = some r) :
    ¬({ l with runs := l.runs.erase handle } : AgentLoop).Kept := by
  intro h
  have hrun : l.agent.runningTaskHandles.get? r.taskId = some handle :=
    (hl.registered r.taskId handle).mpr ⟨r,hr,rfl⟩
  obtain ⟨s,hs,-⟩ := (h.registered r.taskId handle).mp hrun
  exact (get?_erase_some.mp hs).1 rfl

theorem Kept.length_runs_le (hl : l.Kept) :
    l.runs.entries.length ≤ l.agent.runningTaskHandles.entries.length := by
  have hnodup : (l.runs.entries.map fun p => p.2.taskId).Nodup := by
    apply List.Nodup.map_on _ (List.Nodup.of_map _ l.runs.nodup)
    intro p hp p' hp' hid
    have h₁ : l.runs.get? p.1 = some p.2 := Dict.get?_eq_some_iff.mpr hp
    have h₂ : l.runs.get? p'.1 = some p'.2 := Dict.get?_eq_some_iff.mpr hp'
    have hk : p.1 = p'.1 := hl.single p.1 p.2 p'.1 p'.2 h₁ h₂ hid
    rw [hk,h₂] at h₁
    exact Prod.ext hk (Option.some.inj h₁).symm
  have hsub : (l.runs.entries.map fun p => p.2.taskId) ⊆ l.agent.runningTaskHandles.keys := by
    intro taskId hid
    obtain ⟨p,hp,rfl⟩ := List.mem_map.mp hid
    rw [Dict.mem_keys_iff]
    exact ⟨p.1,(hl.registered _ p.1).mpr ⟨p.2,Dict.get?_eq_some_iff.mpr hp,rfl⟩⟩
  have hle := (List.subperm_of_subset hnodup hsub).length_le
  simpa only [Dict.keys,List.length_map] using hle

theorem Kept.register (hl : l.Kept) (hn : l.Numbered) {a : NodeAgent} {taskId : String}
    (hfree : l.agent.runningTaskHandles.get? taskId = none)
    (hroom : l.agent.runningTaskHandles.entries.length < l.agent.maxTasks)
    (hhandles : a.runningTaskHandles = l.agent.runningTaskHandles.set taskId l.agent.handleSeq)
    (hmax : a.maxTasks = l.agent.maxTasks) :
    (⟨a,l.runs.set l.agent.handleSeq ⟨taskId,false,false⟩⟩ : AgentLoop).Kept := by
  have hnew : l.runs.get? l.agent.handleSeq = none := by
    cases h : l.runs.get? l.agent.handleSeq with
    | none => rfl
    | some r => exact absurd (hn _ r h) (Nat.lt_irrefl _)
  have hother : ∀ k r, l.runs.get? k = some r → r.taskId ≠ taskId := by
    rintro k r hr rfl
    rw [(hl.registered r.taskId k).mpr ⟨r,hr,rfl⟩] at hfree
    cases hfree
  have hget : ∀ k r, (l.runs.set l.agent.handleSeq ⟨taskId,false,false⟩).get? k = some r ↔
      (k = l.agent.handleSeq ∧ r = ⟨taskId,false,false⟩) ∨ l.runs.get? k = some r := by
    intro k r
    rw [Dict.get?_set]
    split_ifs with hk
    · subst hk
      simp [hnew,eq_comm]
    · simp [hk]
  refine ⟨?_,?_,?_⟩
  · show (l.runs.set l.agent.handleSeq ⟨taskId,false,false⟩).entries.length ≤ a.maxTasks
    rw [Dict.length_set_of_none hnew,hmax]
    exact Nat.lt_of_le_of_lt hl.length_runs_le hroom
  · intro h₁ r₁ h₂ r₂ hr₁ hr₂ hid
    rcases (hget h₁ r₁).mp hr₁ with ⟨rfl,rfl⟩ | hr₁ <;>
      rcases (hget h₂ r₂).mp hr₂ with ⟨rfl,rfl⟩ | hr₂
    · rfl
    · exact absurd hid.symm (hother h₂ r₂ hr₂)
    · exact absurd hid (hother h₁ r₁ hr₁)
    · exact hl.single h₁ r₁ h₂ r₂ hr₁ hr₂ hid
  · intro id k
    show a.runningTaskHandles.get? id = some k ↔ _
    rw [hhandles,Dict.get?_set]
    split_ifs with hid
    · subst hid
      constructor
      · intro hk
        obtain rfl := Option.some.inj hk
        exact ⟨_,(hget _ _).mpr (Or.inl ⟨rfl,rfl⟩),rfl⟩
      · rintro ⟨r,hr,hrid⟩
        rcases (hget k r).mp hr with ⟨rfl,rfl⟩ | hr
        · rfl
        · exact absurd hrid (hother k r hr)
    · rw [hl.registered]
      constructor
      · rintro ⟨r,hr,hrid⟩
        exact ⟨r,(hget k r).mpr (Or.inr hr),hrid⟩
      · rintro ⟨r,hr,hrid⟩
        rcases (hget k r).mp hr with ⟨rfl,rfl⟩ | hr
        · exact absurd hrid.symm hid
        · exact ⟨r,hr,hrid⟩

theorem not_kept_collision (hl : l.Kept) (hn : l.Numbered) (a : NodeAgent) {taskId : String}
    {handle : ℕ} (hlive : l.agent.runningTaskHandles.get? taskId = some handle) :
    ¬(⟨a,l.runs.set l.agent.handleSeq ⟨taskId,false,false⟩⟩ : AgentLoop).Kept := by
  intro h
  obtain ⟨r,hr,hid⟩ := (hl.registered taskId handle).mp hlive
  have hne : handle ≠ l.agent.handleSeq := Nat.ne_of_lt (hn handle r hr)
  have hold : (l.runs.set l.agent.handleSeq ⟨taskId,false,false⟩).get? handle = some r := by
    rw [Dict.get?_set_ne _ _ hne,hr]
  exact hne (h.single handle r l.agent.handleSeq _ hold (Dict.get?_set_self _ _ _) hid)

theorem execute_kept_iff (hl : l.Kept) (hn : l.Numbered) (q : ExecuteRequest)
    (gate : Option String) : (l.execute q gate).Kept ↔ l.Keeps (.execute q gate) := by
  by_cases hruns : l.agent.Accepts q gate ∧
      (q.dispatchId ≠ "" → l.agent.runningTaskHandles.get? q.dispatchId = none)
  · obtain ⟨hok,hhandles,-,hmax⟩ := NodeAgent.executeTask_ok hruns.1 hruns.2
    have heq : l.execute q gate = ⟨(l.agent.executeTask q gate).1,
        l.runs.set l.agent.handleSeq ⟨(l.agent.nameTask q).2,false,false⟩⟩ := by
      simp only [execute,hok]
    rw [heq]
    cases hlive : l.agent.runningTaskHandles.get? (l.agent.nameTask q).2 with
    | none =>
      refine iff_of_true ?_ fun _ _ => hlive
      exact hl.register hn hlive hruns.1.2.2 hhandles hmax
    | some handle =>
      refine iff_of_false (not_kept_collision hl hn _ hlive) fun hkeeps => ?_
      by_cases hid : q.dispatchId = ""
      · rw [hkeeps hid hruns.1] at hlive
        cases hlive
      · have hname : (l.agent.nameTask q).2 = q.dispatchId := by
          rw [NodeAgent.nameTask,if_neg hid]
        rw [hname,hruns.2 hid] at hlive
        cases hlive
  · obtain ⟨⟨e,he⟩,hhandles,-,hmax⟩ := NodeAgent.executeTask_error hruns
    have heq : l.execute q gate = ⟨(l.agent.executeTask q gate).1,l.runs⟩ := by
      simp only [execute,he]
    have hkept : (l.execute q gate).Kept := by
      rw [heq]
      exact ⟨hmax ▸ hl.bounded,hl.single,fun taskId k => hhandles ▸ hl.registered taskId k⟩
    refine iff_of_true hkept fun hid hacc => ?_
    exact absurd ⟨hacc,fun hne => absurd hid hne⟩ hruns

theorem cancelHandle_kept_iff (l : AgentLoop) (handle : ℕ) :
    (l.cancelHandle handle).Kept ↔ l.Kept :=
  kept_modify_iff l handle fun _ => rfl

theorem cancelTask_kept (hl : l.Kept) (taskId : String) : (l.cancelTask taskId).1.Kept := by
  unfold cancelTask
  cases l.agent.runningTaskHandles.get? taskId with
  | none => exact hl
  | some handle =>
    simp only
    split_ifs
    · exact (cancelHandle_kept_iff l handle).mpr hl
    · exact hl

theorem step_kept_iff (hl : l.Kept) (hn : l.Numbered) {ev : AgentEvent}
    (h : machine.step l ev = some l') : l'.Kept ↔ l.Keeps ev := by
  cases ev with
  | execute q gate =>
    obtain rfl := Option.some.inj h
    exact execute_kept_iff hl hn q gate
  | cancelTask taskId =>
    obtain rfl := Option.some.inj h
    exact iff_of_true (cancelTask_kept hl taskId) trivial
  | dropRequest handle =>
    obtain rfl := Option.some.inj h
    exact iff_of_true ((cancelHandle_kept_iff l handle).mpr hl) trivial
  | firstStep handle =>
    simp only [machine,step] at h
    cases hr : l.runs.get? handle with
    | none => simp [hr] at h
    | some r =>
      simp only [hr] at h
      split_ifs at h with hstarted hcancel
      · obtain rfl := Option.some.inj h
        refine iff_of_false (not_kept_erase hl hr) fun hkeeps => ?_
        rw [hkeeps r hr] at hcancel
        cases hcancel
      · obtain rfl := Option.some.inj h
        have hkept := (kept_modify_iff l handle (f := fun r => { r with started := true })
          fun _ => rfl).mpr hl
        refine iff_of_true hkept fun s hs => ?_
        obtain rfl := Option.some.inj (hr.symm.trans hs)
        exact Bool.eq_false_iff.mpr hcancel
  | runEnds handle =>
    simp only [machine,step] at h
    cases hr : l.runs.get? handle with
    | none => simp [hr] at h
    | some r =>
      simp only [hr] at h
      split_ifs at h with hstarted
      obtain rfl := Option.some.inj h
      exact iff_of_true (hl.runEnds hr) trivial

theorem execute_numbered (hn : l.Numbered) (q : ExecuteRequest) (gate : Option String) :
    (l.execute q gate).Numbered := by
  by_cases hruns : l.agent.Accepts q gate ∧
      (q.dispatchId ≠ "" → l.agent.runningTaskHandles.get? q.dispatchId = none)
  · obtain ⟨hok,-,hseq,-⟩ := NodeAgent.executeTask_ok hruns.1 hruns.2
    intro k r hr
    simp only [execute,hok,hseq] at hr ⊢
    rw [Dict.get?_set] at hr
    split_ifs at hr with hk
    · omega
    · exact Nat.lt_succ_of_lt (hn k r hr)
  · obtain ⟨⟨e,he⟩,-,hseq,-⟩ := NodeAgent.executeTask_error hruns
    intro k r hr
    simp only [execute,he,hseq] at hr ⊢
    exact hn k r hr

theorem cancelHandle_numbered (hn : l.Numbered) (handle : ℕ) : (l.cancelHandle handle).Numbered :=
  hn.of_runs rfl fun k _ hr => by
    obtain ⟨r',hr',-⟩ := get?_modify_some hr
    exact ⟨r',hr'⟩

theorem step_numbered (hn : l.Numbered) {ev : AgentEvent} (h : machine.step l ev = some l') :
    l'.Numbered := by
  cases ev with
  | execute q gate =>
    obtain rfl := Option.some.inj h
    exact execute_numbered hn q gate
  | cancelTask taskId =>
    obtain rfl := Option.some.inj h
    unfold cancelTask
    cases l.agent.runningTaskHandles.get? taskId with
    | none => exact hn
    | some handle =>
      simp only
      split_ifs
      · exact cancelHandle_numbered hn handle
      · exact hn
  | dropRequest handle =>
    obtain rfl := Option.some.inj h
    exact cancelHandle_numbered hn handle
  | firstStep handle =>
    simp only [machine,step] at h
    cases hr : l.runs.get? handle with
    | none => simp [hr] at h
    | some r =>
      simp only [hr] at h
      split_ifs at h with hstarted hcancel <;> obtain rfl := Option.some.inj h
      · exact hn.of_runs rfl fun k s hs => ⟨s,(get?_erase_some.mp hs).2⟩
      · refine hn.of_runs rfl fun k s hs => ?_
        obtain ⟨s',hs',-⟩ := get?_modify_some hs
        exact ⟨s',hs'⟩
  | runEnds handle =>
    simp only [machine,step] at h
    cases hr : l.runs.get? handle with
    | none => simp [hr] at h
    | some r =>
      simp only [hr] at h
      split_ifs at h with hstarted
      obtain rfl := Option.some.inj h
      exact hn.of_runs rfl fun k s hs => ⟨s,(get?_erase_some.mp hs).2⟩

theorem kept_create (nodeId : NodeId) (maxTasks : ℕ) : (create nodeId maxTasks).Kept :=
  ⟨Nat.zero_le _,fun _ _ _ _ h => absurd h (by simp [create]),
    fun _ _ => by simp [create,NodeAgent.create]⟩

/-- The registry has exactly the live runs, one for each id and no more than allowed, in every
state of a run of the agent if and only if no request takes a generated id that is in use and no
cancelled run is entered for the first time. -/
theorem admission_iff (nodeId : NodeId) (maxTasks : ℕ) (es : List AgentEvent) :
    machine.Along (fun _ _ l' => l'.Kept) (create nodeId maxTasks) es ↔
      machine.Along (fun l ev _ => l.Keeps ev) (create nodeId maxTasks) es := by
  apply Machine.along_congr_of_invariant (I := fun l => l.Kept ∧ l.Numbered)
  · intro l ev l' hl h
    exact step_kept_iff hl.1 hl.2 h
  · intro l ev l' hl h hkeeps
    exact ⟨(step_kept_iff hl.1 hl.2 h).mpr hkeeps,step_numbered hl.2 h⟩
  · exact ⟨kept_create nodeId maxTasks,numbered_create nodeId maxTasks⟩

/-- A request for a test task, for runs on fixed inputs. -/
def testRequest (taskId : String) : ExecuteRequest := ⟨"n1",taskId,"test","",0,"m1"⟩

/-- A task that is cancelled before its first step has no run and cannot be executed again. -/
theorem cancelled_run_keeps_slot :
    ∃ l, machine.exec (create "n1" 4)
        [.execute (testRequest "t1") none,.cancelTask "t1",.firstStep 0] = some l ∧
      l.runs.entries = [] ∧ ¬l.Kept ∧
      (l.agent.executeTask (testRequest "t1") none).2 = .error .dedupBlocked := by
  refine ⟨_,rfl,rfl,fun h => ?_,rfl⟩
  obtain ⟨r,hr,-⟩ := (h.registered "t1" 0).mp rfl
  cases hr

end AgentLoop
end FusionMultiNodes

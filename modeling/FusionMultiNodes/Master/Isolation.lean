import FusionMultiNodes.Master.Dispatches

/-! What a dispatch of an earlier attempt can do to a later attempt of its task. -/
namespace FusionMultiNodes

def MasterEvent.wakes : MasterEvent → Option ℕ
  | .resume cid _ => some cid
  | .reply cid _ _ _ => some cid
  | _ => none

/-- The node whose fault a step of the dispatch reports. -/
def Dispatch.faulty (d : Dispatch) : MasterEvent → Option NodeId
  | .resume _ _ =>
    match d.pc with
    | .collect ((n,reply)::_) acc =>
      if (ClusterMaster.collectReply acc n reply).2 then some n else none
    | _ => none
  | .reply _ i (.raised _ _) _ => d.nodeIds[i]?
  | _ => none

/-- The outcome with which the dispatch ends or is about to end. -/
def Dispatch.outcome (d : Dispatch) : Option DispatchOutcome :=
  match d.pc with
  | .finalizing o => some o
  | .tail _ o => some o
  | _ => none

namespace ClusterMaster

/-- The task was assigned again since the dispatch read its nodes. -/
def Stale (m : ClusterMaster) (d : Dispatch) : Prop :=
  d.pc ≠ .start ∧ d.attempt < m.attempts (m.objects d.task).taskId

/-- Between two states the task of a dispatch is neither finalized nor given outputs, and the
nodes it is assigned to keep their slots and their faults. -/
structure Isolated (m m' : ClusterMaster) (d : Dispatch) : Prop where
  outputs : (m'.objects d.task).partialPrevOutputs = (m.objects d.task).partialPrevOutputs
  task : ∀ x ∈ m.tasks.get? (m.objects d.task).taskId,
    (m'.objects x).status = (m.objects x).status ∧ (m'.objects x).result = (m.objects x).result
  nodes : ∀ x ∈ m.tasks.get? (m.objects d.task).taskId, ∀ n ∈ (m.objects x).assignedNodes,
    m'.nodes.get? n = m.nodes.get? n ∧ m'.faultCounts.get? n = m.faultCounts.get? n

/-- A step of a dispatch of an earlier attempt leaves the later attempt alone. -/
def Isolates (m : ClusterMaster) (ev : MasterEvent) (m' : ClusterMaster) : Prop :=
  ∀ cid ∈ ev.wakes, ∀ d, m.frames.get? cid = some (.dispatch d) → m.Stale d → m.Isolated m' d

/-- The dispatch is not about to finalize a task that runs, reports no fault of a node of the
task, and does not end with outputs for a task that still has others. -/
structure Harmless (m : ClusterMaster) (ev : MasterEvent) (d : Dispatch) : Prop where
  finalizes : ∀ o, d.pc = .finalizing o → m.isRunning (m.objects d.task).taskId = false
  reports : ∀ n ∈ d.faulty ev, m.nodes.contains n = true →
    ∀ x ∈ m.tasks.get? (m.objects d.task).taskId, n ∉ (m.objects x).assignedNodes
  ends : ∀ o ∈ d.outcome, ∀ outputs ∈ o.prevOutputs,
    ∀ prev ∈ (m.objects d.task).partialPrevOutputs, prev = outputs

/-- No dispatch of an earlier attempt meets the later one in this step. -/
def KeepsApart (m : ClusterMaster) (ev : MasterEvent) : Prop :=
  ∀ cid ∈ ev.wakes, ∀ d, m.frames.get? cid = some (.dispatch d) → m.Stale d → m.Harmless ev d

variable {m m' s : ClusterMaster} {d : Dispatch} {ev : MasterEvent} {cid : ℕ} {now : ℚ} {n : NodeId}

/-- The part of the state `Isolated` speaks of. -/
def SameTables (m m' : ClusterMaster) : Prop :=
  m'.objects = m.objects ∧ m'.nodes = m.nodes ∧ m'.faultCounts = m.faultCounts

theorem SameTables.isolated (h : m.SameTables m') (d : Dispatch) : m.Isolated m' d := by
  obtain ⟨hobjects,hnodes,hfaults⟩ := h
  exact ⟨by rw [hobjects],fun x _ => by rw [hobjects]; exact ⟨rfl,rfl⟩,
    fun x _ n _ => by rw [hnodes,hfaults]; exact ⟨rfl,rfl⟩⟩

theorem pipelineNext_tables (m : ClusterMaster) (d : Dispatch) (present : List NodeId) (idx : ℕ)
    (hidden : Option String) (steps : List NodeId) :
    m.SameTables (m.pipelineNext d present idx hidden steps).1 := by
  unfold pipelineNext
  split
  · exact ⟨rfl,rfl,rfl⟩
  · split_ifs <;> exact ⟨rfl,rfl,rfl⟩

theorem faultCounts_reportFault (h : m.nodes.contains n = true) :
    (m.reportFault n now).faultCounts.get? n ≠ m.faultCounts.get? n := by
  simp only [reportFault,h,if_true,Dict.get?_set_self]
  cases hl : m.faultCounts.get? n with
  | none => exact Option.some_ne_none _
  | some l =>
    intro heq
    have heq := congrArg (List.countP fun t => decide (now-t ≤ faultWindowS)) (Option.some.inj heq)
    have hwindow : ¬faultWindowS < 0 := by norm_num [faultWindowS]
    simp only [Option.getD_some,List.filter_append,List.countP_append,List.countP_filter] at heq
    simp [hwindow] at heq

theorem isolated_reportFault (hs : (m.reportFault n now).SameTables s) :
    m.Isolated s d ↔ (m.nodes.contains n = true →
      ∀ x ∈ m.tasks.get? (m.objects d.task).taskId, n ∉ (m.objects x).assignedNodes) := by
  obtain ⟨hobjects,hnodes,hfaults⟩ := hs
  constructor
  · intro h hn x hx hmem
    have hsame := (h.nodes x hx n hmem).2
    rw [hfaults] at hsame
    exact faultCounts_reportFault hn hsame
  · intro h
    by_cases hn : m.nodes.contains n = true
    · have hobj : s.objects = m.objects := by
        rw [hobjects]
        simp only [reportFault,hn,if_true]
      refine ⟨by rw [hobj],fun x _ => by rw [hobj]; exact ⟨rfl,rfl⟩,fun x hx k hk => ?_⟩
      have hne : k ≠ n := fun heq => h hn x hx (heq ▸ hk)
      rw [hnodes,hfaults]
      simp only [reportFault,hn,if_true,Dict.get?_modify,if_neg hne,Dict.get?_set,and_self]
    · have hsame : m.reportFault n now = m := by simp only [reportFault,hn]; rfl
      rw [hsame] at hobjects hnodes hfaults
      exact SameTables.isolated ⟨hobjects,hnodes,hfaults⟩ d

theorem Harmless.of_nothing (hpc : ∀ o, d.pc ≠ .finalizing o) (hfaulty : d.faulty ev = none)
    (hout : d.outcome = none) : m.Harmless ev d :=
  ⟨fun o ho => absurd ho (hpc o),fun n hn => by simp [hfaulty] at hn,fun o ho => by simp [hout] at ho⟩

theorem harmless_reports (hpc : ∀ o, d.pc ≠ .finalizing o) (hfaulty : d.faulty ev = some n)
    (hout : d.outcome = none) : m.Harmless ev d ↔ (m.nodes.contains n = true →
      ∀ x ∈ m.tasks.get? (m.objects d.task).taskId, n ∉ (m.objects x).assignedNodes) := by
  constructor
  · exact fun h => h.reports n hfaulty
  · refine fun h => ⟨fun o ho => absurd ho (hpc o),fun k hk => ?_,fun o ho => by simp [hout] at ho⟩
    obtain rfl := Option.some.inj (hfaulty.symm.trans hk)
    exact h

theorem isolated_endDispatch (m : ClusterMaster) (cid : ℕ) (d : Dispatch) (o : DispatchOutcome) :
    m.Isolated (m.endDispatch cid d o) d ↔ ∀ outputs ∈ o.prevOutputs,
      ∀ prev ∈ (m.objects d.task).partialPrevOutputs, prev = outputs := by
  cases ho : o.prevOutputs with
  | none =>
    refine iff_of_true (SameTables.isolated ?_ d) (by simp)
    simp only [endDispatch,setPrevOutputs,ho]
    exact ⟨rfl,rfl,rfl⟩
  | some outputs =>
    have hobjects : (m.endDispatch cid d o).objects = Function.update m.objects d.task
        { m.objects d.task with
          partialPrevOutputs := (m.objects d.task).partialPrevOutputs.map fun _ => outputs } := by
      simp only [endDispatch,setPrevOutputs,ho]
      rfl
    have hnodes : (m.endDispatch cid d o).nodes = m.nodes ∧
        (m.endDispatch cid d o).faultCounts = m.faultCounts := by
      simp only [endDispatch,setPrevOutputs,ho]
      exact ⟨rfl,rfl⟩
    constructor
    · intro h out hout prev hprev
      obtain rfl := Option.some.inj hout
      have hsame := h.outputs
      rw [hobjects,Function.update_self,Option.mem_def.mp hprev] at hsame
      exact (Option.some.inj hsame).symm
    · intro h
      refine ⟨?_,fun x _ => ?_,fun x _ n _ => by rw [hnodes.1,hnodes.2]; exact ⟨rfl,rfl⟩⟩
      · rw [hobjects,Function.update_self]
        cases hprev : (m.objects d.task).partialPrevOutputs with
        | none => rfl
        | some prev => exact congrArg some (h outputs rfl prev hprev).symm
      · rw [hobjects]
        by_cases hx : x = d.task
        · subst hx
          simp
        · simp [hx]

theorem isolated_resume (hf : m.frames.get? cid = some (.dispatch d))
    (h : m.resumeDispatch cid d now = some m') : m.Isolated m' d ↔ m.Harmless (.resume cid now) d := by
  obtain ⟨task,attempt,nodeIds,pc⟩ := d
  cases pc with
  | start =>
    obtain rfl := Option.some.inj h
    refine iff_of_true (SameTables.isolated ?_ _) (.of_nothing (by simp) rfl rfl)
    exact ⟨rfl,rfl,rfl⟩
  | snapshot =>
    obtain rfl := Option.some.inj h
    refine iff_of_true (SameTables.isolated ?_ _) (.of_nothing (by simp) rfl rfl)
    split_ifs
    · exact pipelineNext_tables m _ _ _ _ _
    · exact ⟨rfl,rfl,rfl⟩
  | data replies =>
    obtain ⟨-,h⟩ := Option.ite_none_right_eq_some.mp h
    obtain rfl := Option.some.inj h
    refine iff_of_true (SameTables.isolated ?_ _) (.of_nothing (by simp) rfl rfl)
    exact ⟨rfl,rfl,rfl⟩
  | collect rest acc =>
    cases rest with
    | nil =>
      obtain rfl := Option.some.inj h
      refine iff_of_true (SameTables.isolated ?_ _) (.of_nothing (by simp) rfl rfl)
      exact ⟨rfl,rfl,rfl⟩
    | cons p rest =>
      obtain ⟨n,reply⟩ := p
      obtain rfl := Option.some.inj h
      by_cases hfault : (collectReply acc n reply).2 = true
      · have hfaulty : (Dispatch.mk task attempt nodeIds (.collect ((n,reply)::rest) acc)).faulty
            (.resume cid now) = some n := by simp only [Dispatch.faulty,hfault,if_true]
        rw [harmless_reports (by simp) hfaulty rfl]
        simp only [hfault,if_true]
        exact isolated_reportFault ⟨rfl,rfl,rfl⟩
      · refine iff_of_true (SameTables.isolated ?_ _) (.of_nothing (by simp) ?_ rfl)
        · simp only [hfault]
          exact ⟨rfl,rfl,rfl⟩
        · simp only [Dispatch.faulty,hfault]
          rfl
  | pipeline => simp [resumeDispatch] at h
  | finalizing o =>
    simp only [resumeDispatch,resumeFinalize,Option.some.injEq] at h
    rcases finalizeTask_spec m (m.objects task).taskId o now with ⟨hrun,heq⟩ | ⟨x,hx,hs,heq⟩
    · rw [heq] at h
      obtain rfl := h
      refine (isolated_endDispatch m cid _ o).trans ⟨fun hends => ?_,fun hh => hh.ends o rfl⟩
      refine ⟨fun _ _ => hrun,fun n hn => by simp [Dispatch.faulty] at hn,fun o' ho' => ?_⟩
      obtain rfl := Option.some.inj ho'
      exact hends
    · rw [heq] at h
      obtain rfl := h
      refine iff_of_false (fun hi => ?_) fun hh => ?_
      · have hsame := (hi.task x hx).1
        exact status_finalized m x o now (hsame.trans hs)
      · have hnot := hh.finalizes o rfl
        simp [isRunning,task?,hx,hs] at hnot
  | tail w o =>
    obtain ⟨-,h⟩ := Option.ite_none_left_eq_some.mp h
    obtain rfl := Option.some.inj h
    rw [isolated_endDispatch]
    constructor
    · refine fun hends => ⟨fun o ho => by simp at ho,fun n hn => by simp [Dispatch.faulty] at hn,?_⟩
      intro o' ho'
      obtain rfl := Option.some.inj ho'
      exact hends
    · exact fun hh => hh.ends o rfl

theorem pipelineReply_tables (m : ClusterMaster) (d : Dispatch) (present : List NodeId) (idx : ℕ)
    (hidden : Option String) (steps : List NodeId) (n : NodeId) {reply : AgentReply} (now : ℚ)
    (hreply : ∀ exception message, reply ≠ .raised exception message) :
    m.SameTables (m.pipelineReply d present idx hidden steps n reply now).1 := by
  unfold pipelineReply
  cases reply with
  | raised exception message => exact absurd rfl (hreply exception message)
  | notDict => exact ⟨rfl,rfl,rfl⟩
  | dict a =>
    simp only
    split
    · exact ⟨rfl,rfl,rfl⟩
    · exact pipelineNext_tables m d present _ _ _

theorem isolated_reply {i : ℕ} {reply : AgentReply} (h : m.receiveReply cid d i reply now = some m') :
    m.Isolated m' d ↔ m.Harmless (.reply cid i reply now) d := by
  obtain ⟨task,attempt,nodeIds,pc⟩ := d
  unfold receiveReply at h
  cases hn : nodeIds[i]? with
  | none => simp [hn] at h
  | some n =>
    simp only [hn] at h
    have hfaulty : ∀ exception message, (Dispatch.mk task attempt nodeIds pc).faulty
        (.reply cid i (.raised exception message) now) = some n := fun _ _ => hn
    cases pc with
    | data replies =>
      obtain ⟨-,h⟩ := Option.ite_none_right_eq_some.mp h
      obtain rfl := Option.some.inj h
      cases reply with
      | raised exception message =>
        rw [harmless_reports (by simp) (hfaulty _ _) rfl]
        exact isolated_reportFault ⟨rfl,rfl,rfl⟩
      | _ =>
        refine iff_of_true (SameTables.isolated ?_ _) (.of_nothing (by simp) rfl rfl)
        exact ⟨rfl,rfl,rfl⟩
    | pipeline present idx hidden steps =>
      obtain ⟨-,h⟩ := Option.ite_none_right_eq_some.mp h
      obtain rfl := Option.some.inj h
      cases reply with
      | raised exception message =>
        rw [harmless_reports (by simp) (hfaulty _ _) rfl]
        exact isolated_reportFault ⟨rfl,rfl,rfl⟩
      | _ =>
        refine iff_of_true (SameTables.isolated ?_ _) (.of_nothing (by simp) rfl rfl)
        exact pipelineReply_tables m _ _ _ _ _ n now (by simp)
    | _ => simp at h

theorem step_isolates_iff (h : machine.step m ev = some m') : m.Isolates ev m' ↔ m.KeepsApart ev := by
  refine forall₂_congr fun cid hcid => forall₃_congr fun d hf _ => ?_
  cases ev with
  | resume c now =>
    obtain rfl := Option.some.inj hcid
    obtain ⟨f,hf',hs⟩ := Option.bind_eq_some_iff.mp h
    obtain rfl := Option.some.inj (hf.symm.trans hf')
    exact isolated_resume hf hs
  | reply c i reply now =>
    obtain rfl := Option.some.inj hcid
    simp only [machine,step,hf] at h
    exact isolated_reply h
  | _ => simp [MasterEvent.wakes] at hcid

/-- Along a run the results, failures and exceptions of earlier attempts leave the later ones
alone just where no step lets them meet. -/
theorem attempts_are_isolated (config : MasterConfig) (ha : HaState) (es : List MasterEvent) :
    machine.Along Isolates (create config ha) es ↔
      machine.Along (fun m ev _ => m.KeepsApart ev) (create config ha) es :=
  Machine.along_congr (fun _ _ _ h => step_isolates_iff h) _ es

/-- The answer of `n1` arrives after the task was assigned to `n2`. -/
def lateRun : List MasterEvent :=
  timedOutRun ++ [.reply 2 0 goodReply 333] ++ List.replicate 3 (.resume 2 333)

/-- It completes the later attempt and gives back the slot on `n2`. -/
theorem late_result_completes_later_attempt :
    ¬∀ (config : MasterConfig) (ha : HaState) (es : List MasterEvent),
      machine.Along Isolates (create config ha) es := by
  intro h
  have hexec : (machine.exec (create defaultConfig HaState.create) lateRun).any (fun m =>
      (machine.step m (.resume 2 333)).any fun m' =>
        ((m.frames.get? 2).bind Frame.dispatch?).any fun d => decide ((d.pc ≠ .start ∧
          d.attempt < m.attempts (m.objects d.task).taskId) ∧
          m.tasks.get? (m.objects d.task).taskId = some 0 ∧
          (m.objects 0).status = .running ∧ (m'.objects 0).status = .completed)) = true := by
    decide +kernel
  obtain ⟨m,hm,hs⟩ := (Option.any_eq_true _ _).mp hexec
  obtain ⟨m',hm',hs⟩ := (Option.any_eq_true _ _).mp hs
  obtain ⟨d,hd,hs⟩ := (Option.any_eq_true _ _).mp hs
  obtain ⟨f,hf,hdispatch⟩ := Option.bind_eq_some_iff.mp hd
  obtain rfl := Frame.dispatch?_eq_some.mp hdispatch
  obtain ⟨hstale,hid,hrunning,hcompleted⟩ := of_decide_eq_true hs
  have hlast := (h defaultConfig HaState.create (lateRun ++ [.resume 2 333])).last hm hm'
  have hsame := ((hlast 2 rfl d hf hstale).task 0 hid).1
  rw [hrunning,hcompleted] at hsame
  cases hsame

end ClusterMaster
end FusionMultiNodes

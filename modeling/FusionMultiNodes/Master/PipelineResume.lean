import FusionMultiNodes.Master.Checkpoints
import FusionMultiNodes.Master.Orphans

/-! A pipeline that goes on from a checkpoint ends as an uninterrupted one. -/
namespace FusionMultiNodes
namespace PipelineMaster

open ClusterMaster

variable {F : StepParams → StepAnswer} {enabled : Bool} {p p' : PipelineMaster}
  {e : PipelineAction} {m' : ClusterMaster} {cid : ℕ} {d : Dispatch} {r : Ref}

theorem follows_next {present : List NodeId} {idx : ℕ} {hidden : Option String}
    (m : ClusterMaster) (l : PipelineLocals) (hl : p.locals cid = l)
    (hlen : d.nodeIds.length = (p.job d.task).need)
    (hmodel : l.modelId = (p.job d.task).modelId) (hinput : l.inputIds = (p.job d.task).inputIds)
    (hposted : l.posted = (p.job d.task).stepParams idx hidden)
    (hrun : (p.job d.task).run F idx = (hidden,l.steps.map StepEntry.info))
    (hidx : idx ≤ (p.job d.task).need) :
    p.Follows F cid { d with
      pc := (m.pipelineNext d present idx hidden (l.steps.map StepEntry.nodeId)).2 } := by
  subst hl
  unfold pipelineNext
  cases hn : d.nodeIds[idx]? with
  | none =>
    have heq : idx = (p.job d.task).need :=
      le_antisymm hidx (hlen ▸ List.getElem?_eq_none_iff.mp hn)
    exact fun _ => ⟨_,rfl,heq ▸ hrun,rfl⟩
  | some n =>
    by_cases hpresent : n ∈ present
    · simp only [if_pos hpresent]
      exact ⟨hlen,hmodel,hinput,hposted,hrun,rfl⟩
    · simp only [if_neg hpresent]
      exact fun hsuccess => nomatch hsuccess

theorem Follows.keep (h : p.Follows F cid d) (hjob : p'.job d.task = p.job d.task)
    (hlocals : p'.locals cid = p.locals cid) : p'.Follows F cid d := by
  simp only [Follows,hjob,hlocals]
  exact h

theorem follows_of_not_reads (h : (Frame.dispatch d).reads d.task = false) :
    p.Follows F cid d := by
  simp only [Frame.reads,decide_true,Bool.true_and] at h
  unfold Follows
  split at h <;> simp_all

theorem dispatch_cases {m : ClusterMaster} {ev : MasterEvent} (hw : m.Wf)
    (h : machine.step m ev = some m') (hd : m'.frames.get? cid = some (.dispatch d)) :
    m.frames.get? cid = some (.dispatch d) ∨ d.pc = .start ∨ ∃ d₀ now,
      m.frames.get? cid = some (.dispatch d₀) ∧
        (ev = .resume cid now ∧ m.resumeDispatch cid d₀ now = some m' ∨
          ∃ i reply, ev = .reply cid i reply now ∧
            m.receiveReply cid d₀ i reply now = some m') := by
  by_cases hrestart : ev.isRestart = true
  · cases ev with
    | restart now rnd =>
      obtain rfl := Option.some.inj h
      rw [frames_restart] at hd
      cases hd
    | _ => cases hrestart
  by_cases hruns : ev.runs = some cid
  · have hold : ∀ f, m.frames.get? cid = some f → (∀ d, f ≠ .dispatch d) → d.pc = .start := by
      intro f hf hnot
      cases step_origin hw h hd with
      | kept hkept => exact absurd (Option.some.inj (hf.symm.trans hkept)) (hnot _)
      | started hstart => exact hstart
      | continued hcont => exact absurd (Option.some.inj (hf.symm.trans hcont)) (hnot _)
      | finalized hfin => exact absurd (Option.some.inj (hf.symm.trans hfin)) (hnot _)
    cases ev with
    | resume c now =>
      obtain rfl := Option.some.inj hruns
      obtain ⟨f,hf,hs⟩ := Option.bind_eq_some_iff.mp h
      cases f with
      | dispatch d₀ => exact .inr (.inr ⟨d₀,now,hf,.inl ⟨rfl,hs⟩⟩)
      | _ => exact .inr (.inl (hold _ hf (by simp)))
    | reply c i reply now =>
      obtain rfl := Option.some.inj hruns
      simp only [machine,ClusterMaster.step] at h
      split at h
      · next d₀ hf => exact .inr (.inr ⟨d₀,now,hf,.inr ⟨i,reply,rfl,h⟩⟩)
      · cases h
    | probed c ok now =>
      obtain rfl := Option.some.inj hruns
      have hstep := h
      simp only [machine,ClusterMaster.step] at h
      split at h
      · next hf => exact .inr (.inl (hold _ hf (by simp)))
      · cases h
    | _ => cases hruns
  · rcases (step_runsOne h (by simpa using hrestart)).begun cid _ hruns hd with hf | hbegins
    · exact .inl hf
    · simp only [Frame.begins,decide_eq_true_eq] at hbegins
      exact .inr (.inl hbegins)

theorem stepFailure_success {n : NodeId} {a : AgentResult} {o : DispatchOutcome}
    (h : stepFailure n a = some o) : o.success = false := by
  simp only [stepFailure] at h
  split_ifs at h <;> exact Option.some.inj h ▸ rfl

theorem follows_other {m : ClusterMaster} {d₀ : Dispatch} {now : ℚ}
    (hf₀ : p.master.frames.get? cid = some (.dispatch d₀))
    (hfollows : p.Follows F cid d₀)
    (hmode : (p.master.objects d₀.task).mode = .pipeline)
    (hstarting : p.starting e.event = none) (hanswered : p.answered e.event = none)
    (hcase : e.event = .resume cid now ∧ p.master.resumeDispatch cid d₀ now = some m ∨
      ∃ i reply, e.event = .reply cid i reply now ∧
        p.master.receiveReply cid d₀ i reply now = some m)
    (hd : m.frames.get? cid = some (.dispatch d)) : p'.Follows F cid d := by
  have hframe : ∀ {s : ClusterMaster} {d₁ : Dispatch}, m = s.setFrame cid (.dispatch d₁) →
      d = d₁ := by
    rintro s d₁ rfl
    simp only [ClusterMaster.setFrame,Dict.get?_set_self] at hd
    exact (Frame.dispatch.inj (Option.some.inj hd)).symm
  have hended : ∀ o, m ≠ p.master.endDispatch cid d₀ o := by
    rintro o rfl
    rw [frames_endDispatch] at hd
    simp only [ClusterMaster.endFrame,Dict.get?_erase,if_true] at hd
    cases hd
  obtain ⟨task,attempt,nodeIds,pc⟩ := d₀
  rcases hcase with ⟨hev,hs⟩ | ⟨i,reply,hev,hs⟩
  · cases pc with
    | start =>
      obtain rfl := hframe (Option.some.inj hs).symm
      trivial
    | snapshot => simp [hev,starting,hf₀,hmode] at hstarting
    | data | collect => exact hfollows.elim
    | pipeline => cases hs
    | finalizing o =>
      have hm := (Option.some.inj hs).symm
      simp only [resumeFinalize] at hm
      split_ifs at hm
      · obtain rfl := hframe hm
        trivial
      · rcases finalizeTask_spec p.master (p.master.objects task).taskId o now with
          ⟨-,heq⟩ | ⟨r,-,-,heq⟩
        · rw [heq] at hm
          exact absurd hm (hended o)
        · simp [heq] at *
    | tail w o =>
      obtain ⟨-,hs⟩ := Option.ite_none_left_eq_some.mp hs
      exact absurd (Option.some.inj hs).symm (hended o)
  · unfold receiveReply at hs
    cases hn : nodeIds[i]? with
    | none => simp [hn] at hs
    | some n =>
      simp only [hn] at hs
      cases pc with
      | data | collect => exact hfollows.elim
      | pipeline present idx hidden steps =>
        obtain ⟨hidx,hs⟩ := Option.ite_none_right_eq_some.mp hs
        subst hidx
        obtain rfl := hframe (Option.some.inj hs).symm
        cases reply with
        | raised | notDict =>
          intro hsuccess
          cases hsuccess
        | dict a =>
          cases hfail : stepFailure n a with
          | none => simp [hev,answered,hf₀,hn,hfail] at hanswered
          | some o =>
            simp only [pipelineReply,hfail]
            intro hsuccess
            rw [stepFailure_success hfail] at hsuccess
            cases hsuccess
      | _ => cases hs

/-- A pipeline that succeeds has the hidden states and the steps of an uninterrupted run. -/
theorem Resumes.success (h : p.Resumes F) {f : Frame} (hf : p.master.frames.get? cid = some f)
    {result : TaskResult} (hresult : f.success? = some (r,result))
    (hmode : (p.master.objects r).mode = .pipeline) :
    (p.job r).run F (p.job r).need =
        (result.hiddenStates,(p.locals cid).steps.map StepEntry.info) ∧
      result.steps = (p.locals cid).steps.map StepEntry.nodeId := by
  unfold Frame.success? at hresult
  split at hresult
  · next d =>
    split at hresult
    · next o hpc =>
      obtain ⟨hsuccess,hresult⟩ := Option.ite_none_right_eq_some.mp hresult
      obtain ⟨result',hresult',heq⟩ := Option.map_eq_some_iff.mp hresult
      obtain ⟨rfl,rfl⟩ := Prod.mk.inj heq
      have hfollows := h.loops cid d hf hmode
      simp only [Follows,hpc] at hfollows
      obtain ⟨result,hsome,hrun,hsteps⟩ := hfollows hsuccess
      obtain rfl := Option.some.inj (hresult'.symm.trans hsome)
      exact ⟨hrun,hsteps⟩
    · cases hresult
  · cases hresult

structure Sound (F : StepParams → StepAnswer) (p : PipelineMaster) : Prop where
  wf : p.master.Wf
  resumes : p.Resumes F
  known : ∀ q ∈ p.known, q.1.Genuine F q.2

theorem sound_create (config : MasterConfig) (ha : HaState) : (create config ha).Sound F :=
  ⟨wf_create config ha,⟨fun _ _ => nofun,fun r hr => absurd hr (Nat.not_lt_zero r)⟩,fun _ => nofun⟩

theorem run_succ {j : PipelineJob} {idx : ℕ} {hidden : Option String} {infos : List StepInfo}
    {answer : StepAnswer} (hrun : j.run F idx = (hidden,infos))
    (hanswer : F (j.stepParams idx hidden) = answer) :
    j.run F (idx+1) = (some answer.hiddenStates,infos ++ [answer.info]) := by
  simp only [PipelineJob.run,hrun,hanswer]

/-- The step that is answered is the next one of an uninterrupted run. -/
theorem Sound.answered_run (hw : p.Sound F) {a : StepDone} {done : List StepEntry}
    (ha : p.answered e.event = some a) (hdone : done = (p.locals a.cid).steps ++ [⟨a.node,e.info⟩])
    (hanswer : F (p.locals a.cid).posted = ⟨a.hidden,e.info⟩)
    (hmode : (p.master.objects a.dispatch.task).mode = .pipeline)
    (hm : machine.step p.master e.event = some m') :
    a.idx < (p.job a.dispatch.task).need ∧
      a.dispatch.nodeIds.length = (p.job a.dispatch.task).need ∧
      (p.locals a.cid).modelId = (p.job a.dispatch.task).modelId ∧
      (p.locals a.cid).inputIds = (p.job a.dispatch.task).inputIds ∧
      (p.job a.dispatch.task).run F (a.idx+1) = (some a.hidden,done.map StepEntry.info) ∧
      ∃ present, m' = (p.master.pipelineNext a.dispatch present (a.idx+1) (some a.hidden)
          (done.map StepEntry.nodeId)).1.setFrame a.cid
        (.dispatch { a.dispatch with
          pc := (p.master.pipelineNext a.dispatch present (a.idx+1) (some a.hidden)
            (done.map StepEntry.nodeId)).2 }) := by
  subst hdone
  obtain ⟨present,hidden,steps,hpc,hf,hn,hm'⟩ := receiveReply_done ha hm
  have hfollows := hw.resumes.loops a.cid a.dispatch hf hmode
  simp only [Follows,hpc] at hfollows
  obtain ⟨hlen,hmodel,hinput,hposted,hrun,hsteps⟩ := hfollows
  rw [hposted] at hanswer
  refine ⟨?_,hlen,hmodel,hinput,?_,present,?_⟩
  · rw [← hlen]
    exact (List.getElem?_eq_some_iff.mp hn).1
  · rw [run_succ hrun hanswer,List.map_append]
    rfl
  · rw [hm',hsteps,List.map_append]
    rfl

variable (enabled) in
theorem Sound.resumePoint_run (hw : p.Sound F) (hr : r < p.master.nextRef)
    (hmode : (p.master.objects r).mode = .pipeline) :
    (resumePoint enabled (p.params r)).1 ≤ (p.job r).need ∧
      (p.job r).run F (resumePoint enabled (p.params r)).1 =
        ((resumePoint enabled (p.params r)).2.1,
          (resumePoint enabled (p.params r)).2.2.map StepEntry.info) := by
  unfold resumePoint
  split
  · next c hc =>
    split_ifs at hc
    obtain ⟨hlt,hrun⟩ := hw.resumes.stored r hr hmode c hc
    exact ⟨hlt,hrun⟩
  · exact ⟨Nat.zero_le _,rfl⟩

theorem Sound.stored_kept (hw : p.Sound F) (hret : p.Retains p' r) (hr : r < p.master.nextRef)
    (hmode : (p'.master.objects r).mode = .pipeline) {c : Checkpoint}
    (hc : (p.params r).checkpoint = some c) : (p'.job r).Genuine F c := by
  obtain ⟨hsame,hjob⟩ := hret
  rw [hsame] at hmode
  rw [hjob]
  exact hw.resumes.stored r hr hmode c hc

theorem Sound.stored_born (hw : p.Sound F) (hG : p.KeepsModel F e) (haccords : p.Accords F e p')
    (hm : machine.step p.master e.event = some p'.master)
    (hparams : p'.params r = e.params (p'.master.objects r).taskId)
    (hr : p.master.nextRef ≤ r) (hr' : r < p'.master.nextRef) {c : Checkpoint}
    (hc : (p'.params r).checkpoint = some c) : (p'.job r).Genuine F c := by
  have hbirth := step_birth hw.wf hm hr hr'
  obtain ⟨-,hcond⟩ := hG
  obtain ⟨-,haccords⟩ := haccords
  generalize p'.master.view r = v at hbirth
  generalize ht : p'.master.objects r = t at hbirth hparams
  generalize hev : e.event = ev at hbirth hcond haccords
  cases hbirth with
  | submitted => simp [hparams,haccords] at hc
  | @merged records d _ _ hd haccept hrecord =>
    have hid : t.taskId = d.taskId := hrecord ▸ (fromDict_spec _ d).1
    rw [hid] at hparams
    rw [job,ht,hparams,hrecord]
    exact hcond d hd haccept c (hparams ▸ hc)
  | restored | queued => exact hw.known _ (haccords r hr' hr c hc)

theorem Sound.stored_step (hw : p.Sound F) (hG : p.KeepsModel F e) (hA : Advances enabled p e p')
    (haccords : p.Accords F e p') (hr : r < p'.master.nextRef)
    (hmode : (p'.master.objects r).mode = .pipeline) {c : Checkpoint}
    (hc : (p'.params r).checkpoint = some c) : (p'.job r).Genuine F c := by
  cases hA with
  | @starts cid d now hev hf hpc hmode' =>
    have hnext : (p.startLoop enabled cid d).master.nextRef = p.master.nextRef :=
      (pipelineNext_spec ..).1.still.nextRef
    refine hw.stored_kept (startLoop_retains enabled p cid d r) (hnext ▸ hr) hmode ?_
    simp only [startLoop] at hc
    split_ifs at hc
    · by_cases hrd : r = d.task
      · simp [hrd] at hc
      · simpa [hrd] using hc
    · exact hc
  | @continues a m ha hm =>
    have hret := continueLoop_retains ha hm enabled r
    have hr' : r < p.master.nextRef := by
      obtain ⟨present,hidden,steps,-,-,-,rfl⟩ := receiveReply_done ha hm
      exact (pipelineNext_spec ..).1.still.nextRef ▸ hr
    simp only [continueLoop] at hc
    by_cases henabled : enabled = true
    · rw [if_pos henabled] at hc
      by_cases hra : r = a.dispatch.task
      · subst hra
        obtain ⟨hidx,-,-,-,hrun,-⟩ :=
          hw.answered_run ha rfl (haccords.1 a ha) (hret.1.symm.trans hmode) hm
        rw [Function.update_self] at hc
        obtain ⟨-,hc⟩ := Option.ite_none_right_eq_some.mp hc
        obtain rfl := Option.some.inj hc
        rw [hret.2]
        exact ⟨hidx,hrun⟩
      · rw [Function.update_of_ne hra] at hc
        exact hw.stored_kept hret hr' hmode hc
    · rw [if_neg henabled] at hc
      exact hw.stored_kept hret hr' hmode hc
  | @other m hs ha hm =>
    by_cases hr' : r < p.master.nextRef
    · simp only [if_pos hr'] at hc
      have hmode' := ((step_evolves hw.wf hm).job r hr').mode
      rcases retains_other { p with
          master := m
          params := fun r =>
            if r < p.master.nextRef then p.params r else e.params (m.objects r).taskId }
        hw.wf hG hm hr' (hmode'.symm.trans hmode) rfl (if_pos hr') with hret | ⟨hnone,-⟩
      · exact hw.stored_kept hret hr' hmode hc
      · exact absurd (hnone.symm.trans hc) (by simp)
    · exact hw.stored_born hG haccords hm (if_neg hr') (not_lt.mp hr') hr hc

theorem Sound.follows_kept (hw : p.Sound F) (hret : p.Retains p' d.task)
    (hf : p.master.frames.get? cid = some (.dispatch d))
    (hmode : (p'.master.objects d.task).mode = .pipeline)
    (hlocals : p'.locals cid = p.locals cid) : p'.Follows F cid d :=
  (hw.resumes.loops cid d hf (hret.1.symm.trans hmode)).keep hret.2 hlocals

theorem Sound.loops_start (hw : p.Sound F) (hG : p.KeepsModel F e) {c : ℕ} {d₀ : Dispatch} {now : ℚ}
    (hev : e.event = .resume c now) (hf : p.master.frames.get? c = some (.dispatch d₀))
    (hpc : d₀.pc = .snapshot) (hmode₀ : (p.master.objects d₀.task).mode = .pipeline)
    (hd : (p.startLoop enabled c d₀).master.frames.get? cid = some (.dispatch d))
    (hmode : ((p.startLoop enabled c d₀).master.objects d.task).mode = .pipeline) :
    (p.startLoop enabled c d₀).Follows F cid d := by
  have hret := startLoop_retains enabled p c d₀
  have hq := (pipelineNext_spec p.master d₀ (d₀.nodeIds.filter p.master.nodes.contains)
    (resumePoint enabled (p.params d₀.task)).1 (resumePoint enabled (p.params d₀.task)).2.1
    ((resumePoint enabled (p.params d₀.task)).2.2.map StepEntry.nodeId)).1
  simp only [startLoop,ClusterMaster.setFrame,Dict.get?_set,hq.still.frames] at hd
  split_ifs at hd with hc
  · subst hc
    obtain rfl := Frame.dispatch.inj (Option.some.inj hd)
    have hlen : d₀.nodeIds.length = (p.job d₀.task).need := by
      refine hG.1 (cid,d₀) ?_
      simp [starting,hev,hf,hpc,hmode₀]
    have hr : d₀.task < p.master.nextRef := hw.wf.ref_lt hf (by simp [Frame.refs])
    obtain ⟨hle,hrun⟩ := hw.resumePoint_run enabled hr hmode₀
    rw [← (hret d₀.task).2] at hlen hle hrun
    have hjob := (hret d₀.task).2.symm
    exact follows_next p.master _ (Function.update_self ..) hlen
      (congrArg PipelineJob.modelId hjob) (congrArg PipelineJob.inputIds hjob)
      (congrArg (PipelineJob.stepParams · _ _) hjob) hrun hle
  · exact hw.follows_kept (hret d.task) hd hmode (Function.update_of_ne hc _ _)

theorem Sound.loops_continue (hw : p.Sound F) {a : StepDone} {m : ClusterMaster}
    (ha : p.answered e.event = some a) (hm : machine.step p.master e.event = some m)
    (haccords : p.Accords F e (p.continueLoop enabled a e.info m))
    (hd : (p.continueLoop enabled a e.info m).master.frames.get? cid = some (.dispatch d))
    (hmode : ((p.continueLoop enabled a e.info m).master.objects d.task).mode = .pipeline) :
    (p.continueLoop enabled a e.info m).Follows F cid d := by
  have hret := continueLoop_retains ha hm enabled
  have hkept : ∀ s : ClusterMaster, p.master.Still s → ∀ f,
      m = s.setFrame a.cid f → cid ≠ a.cid → p.master.frames.get? cid = some (.dispatch d) := by
    rintro s hs f rfl hne
    change (s.frames.set a.cid f).get? cid = _ at hd
    rwa [Dict.get?_set_ne _ _ hne,hs.frames] at hd
  obtain ⟨present,hidden,steps,-,hf,-,hm'⟩ := receiveReply_done ha hm
  have hq := (pipelineNext_spec p.master a.dispatch present (a.idx+1) (some a.hidden)
    (steps ++ [a.node])).1
  by_cases hc : cid = a.cid
  · subst hc
    have htask : d.task = a.dispatch.task := by
      subst hm'
      change (Dict.set _ a.cid _).get? a.cid = _ at hd
      rw [Dict.get?_set_self] at hd
      obtain rfl := Frame.dispatch.inj (Option.some.inj hd)
      rfl
    have hmode' : (p.master.objects a.dispatch.task).mode = .pipeline := by
      rw [← htask]
      exact (hret d.task).1.symm.trans hmode
    obtain ⟨done,hdone⟩ : ∃ done, done = (p.locals a.cid).steps ++ [⟨a.node,e.info⟩] := ⟨_,rfl⟩
    obtain ⟨hidx,hlen,hmodel,hinput,hrun,present',hm''⟩ :=
      hw.answered_run ha hdone (haccords.1 a ha) hmode' hm
    have hd' : d = { a.dispatch with
        pc := (p.master.pipelineNext a.dispatch present' (a.idx+1) (some a.hidden)
          (done.map StepEntry.nodeId)).2 } := by
      subst hm''
      change (Dict.set _ a.cid _).get? a.cid = _ at hd
      rw [Dict.get?_set_self] at hd
      exact (Frame.dispatch.inj (Option.some.inj hd)).symm
    have hjob := (hret a.dispatch.task).2
    have hlocals : (p.continueLoop enabled a e.info m).locals a.cid =
        ⟨(p.job a.dispatch.task).modelId,(p.job a.dispatch.task).inputIds,done,
          (p.job a.dispatch.task).stepParams (a.idx+1) (some a.hidden)⟩ := by
      simp only [continueLoop,Function.update_self,hdone,hmodel,hinput]
      rfl
    rw [hd']
    rw [← hjob] at hlen hrun hidx hlocals
    exact follows_next p.master _ hlocals hlen rfl rfl rfl hrun hidx
  · exact hw.follows_kept (hret d.task) (hkept _ hq.still _ hm' hc) hmode
      (Function.update_of_ne hc _ _)

theorem Sound.loops_other (hw : p.Sound F) (hG : p.KeepsModel F e) {m : ClusterMaster}
    (hs : p.starting e.event = none) (ha : p.answered e.event = none)
    (hm : machine.step p.master e.event = some m)
    (hp : p' = { p with
      master := m
      params := fun r =>
        if r < p.master.nextRef then p.params r else e.params (m.objects r).taskId })
    (hd : m.frames.get? cid = some (.dispatch d)) (hmode : (m.objects d.task).mode = .pipeline) :
    p'.Follows F cid d := by
  have hkeep : p.master.frames.get? cid = some (.dispatch d) →
      (p.master.objects d.task).mode = .pipeline → p'.Follows F cid d := by
    intro hf hmode'
    have hr : d.task < p.master.nextRef := hw.wf.ref_lt hf (by simp [Frame.refs])
    have hmaster : p'.master = m := by rw [hp]
    have hparams : p'.params d.task = p.params d.task := by
      rw [hp]
      exact if_pos hr
    rcases retains_other p' hw.wf hG hm hr hmode' hmaster hparams with hret | ⟨-,hreads⟩
    · exact hw.follows_kept hret hf (hmaster ▸ hmode) (by rw [hp])
    · exact follows_of_not_reads (hreads _ (Dict.mem_values_iff.mpr ⟨cid,hf⟩))
  have hmodes : ∀ {d₀ : Dispatch}, p.master.frames.get? cid = some (.dispatch d₀) →
      d.task = d₀.task → (p.master.objects d₀.task).mode = .pipeline := by
    intro d₀ hf htask
    have hr := hw.wf.ref_lt hf (by simp [Frame.refs] : d₀.task ∈ (Frame.dispatch d₀).refs)
    rw [← ((step_evolves hw.wf hm).job _ hr).mode,← htask]
    exact hmode
  rcases dispatch_cases hw.wf hm hd with hf | hstart | ⟨d₀,now,hf,hcase⟩
  · exact hkeep hf (hmodes hf rfl)
  · simp [Follows,hstart]
  · have hgo : d.task = d₀.task → p'.Follows F cid d := by
      intro htask
      subst hp
      exact follows_other hf (hw.resumes.loops cid d₀ hf (hmodes hf htask)) (hmodes hf htask) hs ha
        hcase hd
    cases step_origin hw.wf hm hd with
    | kept hkept => exact hkeep hkept (hmodes hkept rfl)
    | started hstart => simp [Follows,hstart]
    | continued hf' hcont =>
      obtain rfl := Frame.dispatch.inj (Option.some.inj (hf.symm.trans hf'))
      exact hgo hcont.task
    | finalized hf' htask =>
      obtain rfl := Frame.dispatch.inj (Option.some.inj (hf.symm.trans hf'))
      exact hgo htask

/-- Every dispatch of a pipeline agrees with an uninterrupted run after a step. -/
theorem Sound.loops_step (hw : p.Sound F) (hG : p.KeepsModel F e) (hA : Advances enabled p e p')
    (haccords : p.Accords F e p') (hd : p'.master.frames.get? cid = some (.dispatch d))
    (hmode : (p'.master.objects d.task).mode = .pipeline) : p'.Follows F cid d := by
  cases hA with
  | starts hev hf hpc hmode₀ => exact hw.loops_start hG hev hf hpc hmode₀ hd hmode
  | continues ha hm => exact hw.loops_continue ha hm haccords hd hmode
  | other hs ha hm => exact hw.loops_other hG hs ha hm rfl hd hmode

theorem Sound.step (hw : p.Sound F) (hG : p.KeepsModel F e)
    (h : (pipelines F enabled).step p e = some p') : p'.Sound F := by
  obtain ⟨q,hA,haccords,rfl⟩ := step_spec h
  have hstored : ∀ r < q.master.nextRef, (q.master.objects r).mode = .pipeline →
      ∀ c ∈ (q.params r).checkpoint, (q.job r).Genuine F c :=
    fun r hr hmode c hc => hw.stored_step hG hA haccords hr hmode hc
  have hloops : ∀ cid d, q.master.frames.get? cid = some (.dispatch d) →
      (q.master.objects d.task).mode = .pipeline → q.Follows F cid d :=
    fun cid d hd hmode => hw.loops_step hG hA haccords hd hmode
  refine ⟨(hA.effect.grows hw.wf).wf hw.wf,⟨hloops,hstored⟩,fun x hx => ?_⟩
  rcases List.mem_append.mp hx with hx | hx
  · simp only [checkpoints,List.mem_filterMap,List.mem_range,Option.ite_none_right_eq_some] at hx
    obtain ⟨r,hr,hmode,hx⟩ := hx
    obtain ⟨c,hc,rfl⟩ := Option.map_eq_some_iff.mp hx
    exact hstored r hr hmode c hc
  · exact hw.known x hx

/-- In every run in which pipelines have as many nodes as shards and are degraded before they have
begun only, every dispatch is on the way of an uninterrupted run of the model of its task, and ends
as that does. -/
theorem resumed_run_eq (F : StepParams → StepAnswer) (enabled : Bool) (config : MasterConfig)
    (ha : HaState) (es : List PipelineAction)
    (h : (pipelines F enabled).Along (fun p e _ => p.KeepsModel F e) (create config ha) es) :
    (pipelines F enabled).Along (fun _ _ p' => p'.Resumes F) (create config ha) es :=
  Machine.Along.of_invariant
    (fun _ _ _ hw hstep hG => ⟨(hw.step hG hstep).resumes,hw.step hG hstep⟩)
    (sound_create config ha) h

/-- A shard that adds its model and its index to the hidden states. -/
def applyShard (s : StepParams) : StepAnswer :=
  ⟨s.hiddenStates.getD "" ++ s.modelId ++ "/" ++ toString s.shardIndex ++ ";",
    ⟨toString s.shardIndex,none,none⟩⟩

def action (ev : MasterEvent) : PipelineAction :=
  ⟨ev,⟨"",none,none⟩,fun _ => ⟨none,none,none⟩⟩

def actions (evs : List MasterEvent) : List PipelineAction := evs.map action

/-- The node of index `i` of a dispatch answers with hidden states. -/
def answer (cid i : ℕ) (hidden : String) (now : ℚ) : PipelineAction :=
  { action (.reply cid i (.dict ⟨false,false,false,false,false,false,none,some hidden,""⟩) now) with
    info := ⟨toString i,none,none⟩ }

def twoShards (id : TaskId) : ClusterTask :=
  { plainTask id with
    mode := .pipeline
    modelName := "m-13b"
    modelShards := [⟨0,[0,4]⟩,⟨1,[4,8]⟩] }

/-- Of four nodes, `n1` has applied the first shard, and `n2` fails: the task is to be retried. -/
def failedRun : List PipelineAction :=
  actions ([.registerNode (worker "n1") 0,.resume 0 0,.registerNode (worker "n2") 0,.resume 1 0,
      .registerNode (worker "n3") 0,.resume 2 0,.registerNode (worker "n4") 0,.resume 3 0,
      .submit (twoShards "t1")] ++ List.replicate 5 (.resume 4 1) ++
    [.resume 4 2,.resume 4 2,.resume 5 2,.resume 5 2]) ++
  [answer 5 0 "m-13b/0;" 3] ++
  actions [.reply 5 1 (.raised "ReadTimeout" "") 4,.resume 5 4,.fillTmp 0,.replaceFile 0 5,
    .resume 5 5,.doneCallback "t1"]

/-- The task is assigned again, and the second shard is applied by `n4`. -/
def retriedRun : List PipelineAction :=
  failedRun ++
  actions ([.updateHeartbeat "n3" none none none none 39,
      .updateHeartbeat "n4" none none none none 39,.retryLoop 40] ++
    List.replicate 6 (.resume 6 40) ++ [.fillTmp 1,.replaceFile 1 41,.resume 6 41,.resume 6 41,
      .resume 7 41,.resume 7 41]) ++
  [answer 7 1 "m-13b/0;m-13b/1;" 42]

theorem resumed_run_eq_retried : (pipelines applyShard true).Along
    (fun _ _ p' => p'.Resumes applyShard) (create defaultConfig .create) retriedRun :=
  resumed_run_eq applyShard true defaultConfig .create _ (by decide +kernel)

/-- The task is degraded instead, and goes on with the smaller model. -/
def degradedRun : List PipelineAction :=
  failedRun ++ actions ([.degradeTask "t1"] ++ List.replicate 7 (.resume 6 6) ++
    [.resume 7 6,.resume 7 6])

/-- A task of two shards is assigned to its preferred node alone. -/
def lightRun : List PipelineAction :=
  actions ([.registerNode (worker "n1") 0,.resume 0 0,
      .submit { twoShards "t1" with modelName := "", preferredNodeId := "n1" }] ++
    List.replicate 6 (.resume 1 1) ++ [.resume 2 1,.resume 2 1])

/-- A degraded task goes on with the hidden states of the larger model, and a pipeline on one node
succeeds with its first shard. -/
theorem other_job_resumed :
    ¬(pipelines applyShard true).Along (fun _ _ p' => p'.Resumes applyShard)
        (create defaultConfig .create) (degradedRun ++ [answer 7 1 "m-13b/0;m-8b/1;" 7]) ∧
      ¬(pipelines applyShard true).Along (fun _ _ p' => p'.Resumes applyShard)
        (create defaultConfig .create) (lightRun ++ [answer 2 0 "/0;" 2]) := by
  constructor
  · intro h
    have hexec : (((pipelines applyShard true).exec (create defaultConfig .create)
        degradedRun).any fun t =>
        ((pipelines applyShard true).step t (answer 7 1 "m-13b/0;m-8b/1;" 7)).any fun u =>
          decide (∃ f ∈ u.master.frames.get? 7, ∃ s ∈ f.success?,
            (u.master.objects s.1).mode = .pipeline ∧
            s.2.hiddenStates = some "m-13b/0;m-8b/1;" ∧
            ((u.job s.1).run applyShard (u.job s.1).need).1 = some "m-8b/0;m-8b/1;")) = true := by
      decide +kernel
    obtain ⟨t,ht,hexec⟩ := (Option.any_eq_true _ _).mp hexec
    obtain ⟨u,hu,hexec⟩ := (Option.any_eq_true _ _).mp hexec
    obtain ⟨f,hf,s,hs,hmode,hhidden,hrun⟩ := of_decide_eq_true hexec
    have hsame := congrArg Prod.fst ((h.last ht hu).success hf hs hmode).1
    rw [hrun] at hsame
    exact absurd (hsame.trans hhidden) (by decide)
  · intro h
    have hexec : (((pipelines applyShard true).exec (create defaultConfig .create)
        lightRun).any fun t =>
        ((pipelines applyShard true).step t (answer 2 0 "/0;" 2)).any fun u =>
          decide (∃ f ∈ u.master.frames.get? 2, ∃ s ∈ f.success?,
            (u.master.objects s.1).mode = .pipeline ∧ s.2.hiddenStates = some "/0;" ∧
            ((u.job s.1).run applyShard (u.job s.1).need).1 = some "/0;/1;")) = true := by
      decide
    obtain ⟨t,ht,hexec⟩ := (Option.any_eq_true _ _).mp hexec
    obtain ⟨u,hu,hexec⟩ := (Option.any_eq_true _ _).mp hexec
    obtain ⟨f,hf,s,hs,hmode,hhidden,hrun⟩ := of_decide_eq_true hexec
    have hsame := congrArg Prod.fst ((h.last ht hu).success hf hs hmode).1
    rw [hrun] at hsame
    exact absurd (hsame.trans hhidden) (by decide)

end PipelineMaster
end FusionMultiNodes

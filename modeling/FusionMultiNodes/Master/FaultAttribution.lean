import Mathlib.Data.List.ReduceOption
import FusionMultiNodes.Master.Dispatches
import FusionMultiNodes.Master.FaultCauses
import FusionMultiNodes.Master.Records

/-! A master blames a node for nothing but what has failed on it. -/
namespace FusionMultiNodes

namespace AgentReply

/-- The loop of `_dispatch_data` takes the answer for no fault. -/
def Clear (reply : AgentReply) : Prop := ∀ acc n, (ClusterMaster.collectReply acc n reply).2 = false

variable {reply : AgentReply} {n : NodeId}

theorem clear_of_plain (h : reply.plain = true) : reply.Clear := by
  intro acc n
  cases reply with
  | raised => rfl
  | notDict => rfl
  | dict r =>
    obtain ⟨rateLimited,overload,dedup,sandbox,fencing,upstream,error,hidden,body⟩ := r
    simp only [plain,AgentResult.flagged,Bool.or_eq_true,Bool.and_eq_true] at h
    simp only [ClusterMaster.collectReply]
    split_ifs with h₁ h₂ h₃ h₄ h₅ <;> first | rfl | skip
    cases error <;> simp_all

/-- The two dispatch paths agree on an answer that may be one to a pipeline step exactly if it is
plain. -/
theorem verdicts_agree_iff (h : reply.mayBeStep = true) :
    reply.dataVerdict n = reply.pipelineVerdict n ↔ reply.plain = true := by
  cases reply with
  | raised exception message => exact iff_of_true rfl rfl
  | notDict =>
    -- an empty answer is tried again in the one path alone
    exact iff_of_false (fun h => nomatch congrArg Verdict.retryable h) Bool.false_ne_true
  | dict r =>
    obtain ⟨rateLimited,overload,dedup,sandbox,fencing,upstream,error,hidden,body⟩ := r
    simp only [mayBeStep] at h
    cases rateLimited
    case true => simp [dataVerdict,pipelineVerdict,plain,AgentResult.flagged,isRaised,
      ClusterMaster.collectReply,ClusterMaster.stepFailure,ClusterMaster.failOutcome]
    cases overload
    case true => simp [dataVerdict,pipelineVerdict,plain,AgentResult.flagged,isRaised,
      ClusterMaster.collectReply,ClusterMaster.stepFailure,ClusterMaster.failOutcome]
    cases hblocked : (dedup || sandbox)
    case true => simp_all [dataVerdict,pipelineVerdict,plain,AgentResult.flagged,isRaised,
      ClusterMaster.collectReply,ClusterMaster.stepFailure,ClusterMaster.failOutcome]
    cases fencing
    case true => simp_all [dataVerdict,pipelineVerdict,plain,AgentResult.flagged,isRaised,
      ClusterMaster.collectReply,ClusterMaster.stepFailure,ClusterMaster.failOutcome]
    cases error <;> cases upstream <;> cases hidden <;>
      simp_all [dataVerdict,pipelineVerdict,plain,AgentResult.flagged,isRaised,
        ClusterMaster.collectReply,ClusterMaster.stepFailure,ClusterMaster.failOutcome]

theorem mayBeStep_of_not_plain (h : reply.plain = false) : reply.mayBeStep = true := by
  cases reply with
  | raised => rfl
  | notDict => rfl
  | dict r =>
    simp only [plain,Bool.or_eq_false_iff,Bool.and_eq_false_iff] at h
    simp only [mayBeStep]
    rcases h.2 with herror | hup
    · cases hr : r.error <;> simp_all
    · simp_all

end AgentReply

/-- No answer that the dispatch still has to look at passes for a fault. -/
def Dispatch.Tame (d : Dispatch) : Prop :=
  match d.pc with
  | .data replies => ∀ reply, some reply ∈ replies → reply.Clear
  | .collect rest _ => ∀ p ∈ rest, p.2.Clear
  | _ => True

namespace ClusterMaster

variable {m m' : ClusterMaster} {c cid i : ℕ} {d d' : Dispatch} {ev : MasterEvent} {now : ℚ}
  {n : NodeId} {reply : AgentReply}

theorem tame_pipelineNext (m : ClusterMaster) (d : Dispatch) (present : List NodeId) (idx : ℕ)
    (hidden : Option String) (steps : List NodeId) (d' : Dispatch) :
    ({ d' with pc := (m.pipelineNext d present idx hidden steps).2 } : Dispatch).Tame := by
  simp only [pipelineNext]
  split
  · trivial
  · split_ifs <;> trivial

theorem tame_startData (m : ClusterMaster) (d d' : Dispatch) :
    ({ d' with pc := (m.startData d).2 } : Dispatch).Tame := by
  intro reply hreply
  obtain ⟨n,-,hn⟩ := List.mem_map.mp hreply
  split_ifs at hn
  -- a node that is gone has raised
  exact Option.some.inj hn ▸ fun _ _ => rfl

theorem get?_setFrame_self (h : (m.setFrame c (.dispatch d)).frames.get? c = some (.dispatch d')) :
    d' = d := by
  simp only [setFrame,Dict.get?_set_self] at h
  exact (Frame.dispatch.inj (Option.some.inj h)).symm

theorem not_dispatch_endDispatch (m : ClusterMaster) (d : Dispatch) (o : DispatchOutcome) :
    (m.endDispatch c d o).frames.get? c = none := by
  rw [frames_endDispatch]
  simp [endFrame,Dict.get?_erase]

theorem tame_resumeDispatch (h : m.resumeDispatch c d now = some m') (hd : d.Tame)
    (hf : m'.frames.get? c = some (.dispatch d')) : d'.Tame := by
  obtain ⟨task,attempt,nodeIds,pc⟩ := d
  cases pc with
  | start =>
    obtain rfl := Option.some.inj h
    obtain rfl := get?_setFrame_self hf
    trivial
  | snapshot =>
    obtain rfl := Option.some.inj h
    obtain rfl := get?_setFrame_self hf
    split_ifs
    · exact tame_pipelineNext m _ _ _ _ _ _
    · exact tame_startData m _ _
  | data replies =>
    obtain ⟨-,h⟩ := Option.ite_none_right_eq_some.mp h
    obtain rfl := Option.some.inj h
    obtain rfl := get?_setFrame_self hf
    intro p hp
    have hmem := (List.of_mem_zip hp).2
    exact hd p.2 (List.reduceOption_mem_iff.mp hmem)
  | collect rest acc =>
    cases rest with
    | nil =>
      obtain rfl := Option.some.inj h
      obtain rfl := get?_setFrame_self hf
      trivial
    | cons p rest =>
      obtain rfl := Option.some.inj h
      obtain rfl := get?_setFrame_self hf
      exact fun q hq => hd q (List.mem_cons_of_mem p hq)
  | pipeline present idx hidden steps => cases h
  | finalizing o =>
    obtain rfl := Option.some.inj h
    simp only [resumeFinalize] at hf
    split_ifs at hf
    · obtain rfl := get?_setFrame_self hf
      trivial
    · cases (not_dispatch_endDispatch _ _ o).symm.trans hf
  | tail w o =>
    obtain ⟨-,h⟩ := Option.ite_none_left_eq_some.mp h
    obtain rfl := Option.some.inj h
    cases (not_dispatch_endDispatch m _ o).symm.trans hf

theorem tame_receiveReply (h : m.receiveReply c d i reply now = some m') (hd : d.Tame)
    (hreply : reply.Clear) (hf : m'.frames.get? c = some (.dispatch d')) : d'.Tame := by
  obtain ⟨task,attempt,nodeIds,pc⟩ := d
  unfold receiveReply at h
  split at h
  · exact nomatch h
  · split at h
    · next replies hpc =>
      obtain rfl : pc = .data replies := hpc
      obtain ⟨-,h⟩ := Option.ite_none_right_eq_some.mp h
      obtain rfl := Option.some.inj h
      obtain rfl := get?_setFrame_self hf
      intro x hx
      rcases List.mem_or_eq_of_mem_set hx with hx | hx
      · exact hd x hx
      · exact Option.some.inj hx ▸ hreply
    · obtain ⟨-,h⟩ := Option.ite_none_right_eq_some.mp h
      obtain rfl := Option.some.inj h
      obtain rfl := get?_setFrame_self hf
      unfold pipelineReply
      split
      · trivial
      · trivial
      · split
        · trivial
        · exact tame_pipelineNext m _ _ _ _ _ _
    · exact nomatch h

/-- A dispatch after a step was there before, has just begun, or has taken the step. -/
theorem dispatch_cases (hw : m.Wf) (h : machine.step m ev = some m')
    (hf : m'.frames.get? c = some (.dispatch d')) :
    m.frames.get? c = some (.dispatch d') ∨ d'.pc = .start ∨
      ev.runs = some c ∧ ∃ d, m.frames.get? c = some (.dispatch d) := by
  have hlives : ∀ d, m.frames.get? c = some (.dispatch d) →
      m.frames.get? c = some (.dispatch d') ∨ d'.pc = .start ∨
        ev.runs = some c ∧ ∃ d, m.frames.get? c = some (.dispatch d) := by
    intro d hd
    by_cases hrestart : ev.isRestart = true
    · cases ev with
      | restart now rnd =>
        obtain rfl := Option.some.inj h
        rw [frames_restart] at hf
        exact nomatch hf
      | _ => exact nomatch hrestart
    · by_cases hruns : ev.runs = some c
      · exact .inr (.inr ⟨hruns,d,hd⟩)
      · have hleaves := step_leavesFrames h (Bool.not_eq_true _ ▸ hrestart)
        exact .inl ((hleaves.frames c (hw.frame_lt c _ hd) hruns).symm.trans hf)
  cases step_origin hw h hf with
  | kept hd => exact .inl hd
  | started hpc => exact .inr (.inl hpc)
  | continued hd _ => exact hlives _ hd
  | finalized hd _ _ _ => exact hlives _ hd

def LeavesFaults (m m' : ClusterMaster) : Prop :=
  ∀ n l, m'.faultCounts.get? n = some l → m.faultCounts.get? n = some l

theorem LeavesFaults.of_eq (h : m'.faultCounts = m.faultCounts) : m.LeavesFaults m' :=
  fun _ _ hl => by rwa [h] at hl

theorem leavesFaults_resumeFrame {f : Frame} (h : m.resumeFrame c now f = some m')
    (hd : ∀ d, f ≠ .dispatch d) : m.LeavesFaults m' := by
  by_cases hroutes : f.routes = true
  · cases f with
    | assign r pc k =>
      cases pc with
      | route requiredMem =>
        obtain rfl := Option.some.inj h
        exact .of_eq rfl
      | selecting requiredMem original =>
        obtain rfl := Option.some.inj h
        refine .of_eq ?_
        simp only [assignSelect]
        split_ifs <;> rfl
      | _ => cases hroutes
    | _ => cases hroutes
  · exact (leavesRecords_resumeFrame h (Bool.not_eq_true _ ▸ hroutes) hd).faults

/-- A dispatch that waits for no answer which passes for a fault records none. -/
theorem leavesFaults_resumeDispatch (h : m.resumeDispatch c d now = some m') (hd : d.Tame) :
    m.LeavesFaults m' := by
  rcases leavesRecords_resumeDispatch h with hleaves | ⟨n,reply,rest,acc,hpc,hfault,-⟩
  · exact hleaves.faults
  · simp only [Dispatch.Tame,hpc] at hd
    have hclear := hd (n,reply) List.mem_cons_self acc n
    exact nomatch hclear.symm.trans hfault

theorem leavesFaults_receiveReply (h : m.receiveReply c d i reply now = some m')
    (hreply : reply.isRaised = false) : m.LeavesFaults m' := by
  unfold receiveReply at h
  split at h
  · exact nomatch h
  · split at h
    · obtain ⟨-,h⟩ := Option.ite_none_right_eq_some.mp h
      obtain rfl := Option.some.inj h
      cases reply with
      | raised => exact nomatch hreply
      | notDict => exact .of_eq rfl
      | dict => exact .of_eq rfl
    · obtain ⟨-,h⟩ := Option.ite_none_right_eq_some.mp h
      obtain rfl := Option.some.inj h
      refine .of_eq ?_
      unfold pipelineReply
      split
      · exact nomatch hreply
      · rfl
      · split
        · rfl
        · exact (pipelineNext_tables m _ _ _ _ _).2.2
    · exact nomatch h

theorem receiveReply_raised {exception message : String}
    (h : m.receiveReply c d i (.raised exception message) now = some m')
    (hn : d.nodeIds[i]? = some n) :
    m'.faultCounts = (m.reportFault n now).faultCounts ∧
      m'.bannedNodes = (m.reportFault n now).bannedNodes := by
  unfold receiveReply at h
  simp only [hn] at h
  split at h
  · obtain ⟨-,h⟩ := Option.ite_none_right_eq_some.mp h
    exact Option.some.inj h ▸ ⟨rfl,rfl⟩
  · obtain ⟨-,h⟩ := Option.ite_none_right_eq_some.mp h
    exact Option.some.inj h ▸ ⟨rfl,rfl⟩
  · exact nomatch h

theorem leavesFaults_step (h : machine.step m ev = some m')
    (htame : ∀ cid d, m.frames.get? cid = some (.dispatch d) → d.Tame)
    (hreport : ∀ id now, ev ≠ .reportFault id now)
    (hreply : ∀ cid i reply now, ev ≠ .reply cid i reply now) : m.LeavesFaults m' := by
  cases hev : ev.mayRecord with
  | false => exact (step_leavesRecords h hev).faults
  | true =>
    cases ev with
    | reportFault id now => exact absurd rfl (hreport id now)
    | reply cid i reply now => exact absurd rfl (hreply cid i reply now)
    | restart now rnd =>
      obtain rfl := Option.some.inj h
      intro n l hl
      rw [(records_restart m now rnd).1] at hl
      exact nomatch hl
    | resume cid now =>
      obtain ⟨f,hf,hs⟩ := Option.bind_eq_some_iff.mp h
      by_cases hd : ∃ d, f = .dispatch d
      · obtain ⟨d,rfl⟩ := hd
        exact leavesFaults_resumeDispatch hs (htame cid d hf)
      · exact leavesFaults_resumeFrame hs fun d hfd => hd ⟨d,hfd⟩
    | _ => exact nomatch hev

theorem reportFault_cases {id : NodeId} {l : List ℚ}
    (h : (m.reportFault id now).faultCounts.get? n = some l) :
    m.faultCounts.get? n = some l ∨ n = id ∧ m.nodes.contains id = true ∧
      l.length ≤ ((m.faultCounts.get? id).getD []).length+1 ∧
      ((m.reportFault id now).bannedNodes.get? id ≠ m.bannedNodes.get? id →
        faultThreshold ≤ l.length) := by
  by_cases hid : m.nodes.contains id = true
  · simp only [reportFault,hid,if_true,Dict.get?_set] at h ⊢
    split_ifs at h with hn
    · refine .inr ⟨hn,trivial,?_,fun hban => ?_⟩
      · rw [← Option.some.inj h]
        exact (List.length_filter_le _ _).trans (List.length_append ..).le
      · rw [← Option.some.inj h]
        split_ifs at hban with hcount
        · exact hcount
        · exact absurd rfl hban
    · exact .inl h
  · refine .inl ?_
    rwa [show m.reportFault id now = m from if_neg hid] at h

end ClusterMaster

namespace FaultWatch

open ClusterMaster (reportFault_cases)

variable {w w' : FaultWatch} {e : FaultEvent} {n : NodeId}

/-- A node has no more faults on record than it or the link to it has had failures. -/
structure Sound (w : FaultWatch) : Prop where
  wf : w.master.Wf
  counts : ∀ n l, w.master.faultCounts.get? n = some l → l.length ≤ w.failures n
  tame : ∀ cid d, w.master.frames.get? cid = some (.dispatch d) → d.Tame

theorem sound_create (config : MasterConfig) (ha : HaState) : (create config ha).Sound :=
  ⟨ClusterMaster.wf_create config ha,fun _ _ h => (nomatch h),fun _ _ h => nomatch h⟩

theorem not_records (h : w.master.LeavesFaults w'.master) : ¬w.Records w' n := by
  rintro ⟨hsome,hne⟩
  obtain ⟨l,hl⟩ := Option.isSome_iff_exists.mp hsome
  exact hne (hl.trans (h n l hl).symm)

theorem le_countFailure (w : FaultWatch) (n id : NodeId) (failed : Bool) :
    w.failures n ≤ w.countFailure id failed n := by
  unfold countFailure
  split_ifs
  · by_cases hn : n = id
    · subst hn
      simp
    · rw [Function.update_of_ne hn]
  · exact le_refl _

/-- A step that records faults as a report of the node does, and counts its failures. -/
structure Reports (w w' : FaultWatch) (id : NodeId) (failed : Bool) (now : ℚ) : Prop where
  faultCounts : w'.master.faultCounts = (w.master.reportFault id now).faultCounts
  bannedNodes : w'.master.bannedNodes = (w.master.reportFault id now).bannedNodes
  failures : w'.failures = w.countFailure id failed

variable {id : NodeId} {failed : Bool} {now : ℚ}

theorem Reports.cases (h : w.Reports w' id failed now) {l : List ℚ}
    (hl : w'.master.faultCounts.get? n = some l) :
    w.master.faultCounts.get? n = some l ∨ n = id ∧ w.master.nodes.contains id = true ∧
      l.length ≤ ((w.master.faultCounts.get? id).getD []).length+1 ∧
      (w'.master.bannedNodes.get? id ≠ w.master.bannedNodes.get? id →
        faultThreshold ≤ l.length) := by
  rw [h.faultCounts] at hl
  rw [h.bannedNodes]
  exact reportFault_cases hl

theorem Reports.records_iff (h : w.Reports w' id failed now) :
    w.Records w' n ↔ n = id ∧ w.master.nodes.contains id = true := by
  constructor
  · rintro ⟨hsome,hne⟩
    obtain ⟨l,hl⟩ := Option.isSome_iff_exists.mp hsome
    rcases h.cases hl with hold | ⟨hn,hid,-⟩
    · exact absurd (hl.trans hold.symm) hne
    · exact ⟨hn,hid⟩
  · rintro ⟨rfl,hid⟩
    refine ⟨?_,?_⟩
    · rw [h.faultCounts]
      simp [ClusterMaster.reportFault,hid]
    · rw [h.faultCounts]
      exact ClusterMaster.faultCounts_reportFault hid

theorem Sound.old_length (hs : w.Sound) (id : NodeId) :
    ((w.master.faultCounts.get? id).getD []).length ≤ w.failures id := by
  cases hl : w.master.faultCounts.get? id with
  | none => exact Nat.zero_le _
  | some l => exact hs.counts id l hl

/-- The failure that a report is about covers the fault that it adds. -/
theorem Reports.counts (h : w.Reports w' id failed now) (hs : w.Sound)
    (hfailed : w.master.nodes.contains id = true → failed = true) {l : List ℚ}
    (hl : w'.master.faultCounts.get? n = some l) : l.length ≤ w'.failures n := by
  rw [h.failures]
  rcases h.cases hl with hold | ⟨rfl,hid,hlen,-⟩
  · exact (hs.counts n l hold).trans (le_countFailure w n id failed)
  · have hold := hs.old_length n
    simp only [countFailure,hfailed hid,if_true,Function.update_self]
    omega

theorem Reports.bans (h : w.Reports w' id failed now) (hs : w.Sound)
    (hfailed : w.master.nodes.contains id = true → failed = true) (hrec : w.Records w' n)
    (hban : w'.master.bannedNodes.get? n ≠ w.master.bannedNodes.get? n) :
    faultThreshold ≤ w'.failures n := by
  obtain ⟨rfl,-⟩ := h.records_iff.mp hrec
  obtain ⟨l,hl⟩ := Option.isSome_iff_exists.mp hrec.1
  have hlen := h.counts hs hfailed hl
  rcases h.cases hl with hold | ⟨-,-,-,hcount⟩
  · exact absurd (hl.trans hold.symm) hrec.2
  · exact (hcount hban).trans hlen

theorem answer_cases {cid i : ℕ} {a : AgentAnswer} (h : w.step (.answer cid i a now) = some w') :
    ∃ d n, w.master.frames.get? cid = some (.dispatch d) ∧ d.nodeIds[i]? = some n ∧
      w.target cid i = some n ∧
      w.master.receiveReply cid d i (a.reply n) now = some w'.master ∧
      ClusterMaster.machine.step w.master (.reply cid i (a.reply n) now) = some w'.master ∧
      w'.failures = w.countFailure n a.failed := by
  obtain ⟨n,hn,h⟩ := Option.bind_eq_some_iff.mp h
  obtain ⟨m,hm,rfl⟩ := Option.map_eq_some_iff.mp h
  have htarget := hn
  simp only [target] at hn
  split at hn
  · next d hf =>
    refine ⟨d,n,hf,hn,htarget,?_,hm,rfl⟩
    simpa only [ClusterMaster.step,hf] using hm
  · cases hn

theorem other_cases {ev : MasterEvent} (h : w.step (.other ev) = some w') :
    ClusterMaster.machine.step w.master ev = some w'.master ∧ w'.failures = w.failures ∧
      (∀ id now, ev ≠ .reportFault id now) ∧ ∀ cid i reply now, ev ≠ .reply cid i reply now := by
  simp only [step] at h
  split at h
  · exact nomatch h
  · exact nomatch h
  · next hreply hreport =>
    obtain ⟨m,hm,rfl⟩ := Option.map_eq_some_iff.mp h
    exact ⟨hm,rfl,fun id now => hreport id now,fun cid i reply now => hreply cid i reply now⟩

theorem answer_reports {cid i : ℕ} {a : AgentAnswer} {d : Dispatch}
    (h : w.master.receiveReply cid d i (a.reply n) now = some w'.master)
    (hn : d.nodeIds[i]? = some n) (hf : w'.failures = w.countFailure n a.failed)
    (hraised : (a.reply n).isRaised = true) : w.Reports w' n a.failed now := by
  cases hreply : a.reply n with
  | raised exception message =>
    rw [hreply] at h
    obtain ⟨hcounts,hbans⟩ := ClusterMaster.receiveReply_raised h hn
    exact ⟨hcounts,hbans,hf⟩
  | _ => simp [hreply,AgentReply.isRaised] at hraised

theorem answer_attributes_iff {cid i : ℕ} {a : AgentAnswer} (hs : w.Sound)
    (h : w.step (.answer cid i a now) = some w') :
    w.Attributes (.answer cid i a now) w' ↔ w.Unmistaken (.answer cid i a now) := by
  obtain ⟨d,n,hf,hn,htarget,hmaster,-,hfailures⟩ := answer_cases h
  constructor
  · intro hattr k hk
    obtain rfl := Option.some.inj (htarget.symm.trans hk)
    constructor
    · by_contra hplain
      have hstep := AgentReply.mayBeStep_of_not_plain (Bool.not_eq_true _ ▸ hplain)
      exact hplain ((AgentReply.verdicts_agree_iff hstep).mp
        (hattr.alike cid i a now n rfl htarget hstep))
    · intro hraised hmem
      have hreports := answer_reports hmaster hn hfailures hraised
      exact (hattr.blames n (hreports.records_iff.mpr ⟨rfl,hmem⟩)).2
  · intro hun
    obtain ⟨hplain,hfailed⟩ := hun n htarget
    have halike : ∀ cid' i' a' now' k, FaultEvent.answer cid i a now = .answer cid' i' a' now' →
        w.target cid' i' = some k → (a'.reply k).mayBeStep = true →
        (a'.reply k).dataVerdict k = (a'.reply k).pipelineVerdict k := by
      rintro cid' i' a' now' k heq hk hstep
      obtain ⟨rfl,rfl,rfl,rfl⟩ := FaultEvent.answer.inj heq
      obtain rfl := Option.some.inj (htarget.symm.trans hk)
      exact (AgentReply.verdicts_agree_iff hstep).mpr hplain
    cases hraised : (a.reply n).isRaised with
    | true =>
      have hreports := answer_reports hmaster hn hfailures hraised
      refine ⟨fun k hk => ?_,fun k hk hban => hreports.bans hs (hfailed hraised) hk hban,halike⟩
      obtain ⟨rfl,hmem⟩ := hreports.records_iff.mp hk
      exact ⟨htarget,hfailed hraised hmem⟩
    | false =>
      have hnone : ∀ k, ¬w.Records w' k := fun k =>
        not_records (ClusterMaster.leavesFaults_receiveReply hmaster hraised)
      exact ⟨fun k hk => absurd hk (hnone k),fun k hk => absurd hk (hnone k),halike⟩

theorem report_attributes_iff (hs : w.Sound) (h : w.step (.report id failed now) = some w') :
    w.Attributes (.report id failed now) w' ↔ w.Unmistaken (.report id failed now) := by
  obtain rfl := Option.some.inj h
  have hreports : w.Reports ⟨w.master.reportFault id now,w.answers,w.countFailure id failed⟩ id
      failed now := ⟨rfl,rfl,rfl⟩
  constructor
  · exact fun hattr hmem => (hattr.blames id (hreports.records_iff.mpr ⟨rfl,hmem⟩)).2
  · intro hun
    refine ⟨fun k hk => ?_,fun k hk hban => hreports.bans hs hun hk hban,
      fun _ _ _ _ _ heq => nomatch heq⟩
    obtain ⟨rfl,hmem⟩ := hreports.records_iff.mp hk
    exact ⟨rfl,hun hmem⟩

theorem other_attributes {ev : MasterEvent} (hs : w.Sound) (h : w.step (.other ev) = some w') :
    w.Attributes (.other ev) w' := by
  obtain ⟨hmaster,-,hreport,hreply⟩ := other_cases h
  have hnone : ∀ k, ¬w.Records w' k := fun k =>
    not_records (ClusterMaster.leavesFaults_step hmaster hs.tame hreport hreply)
  exact ⟨fun k hk => absurd hk (hnone k),fun k hk => absurd hk (hnone k),
    fun _ _ _ _ _ heq => nomatch heq⟩

/-- A step blames the right node if and only if nothing in it is mistaken. -/
theorem step_attributes_iff (hs : w.Sound) (h : w.step e = some w') :
    w.Attributes e w' ↔ w.Unmistaken e := by
  cases e with
  | answer cid i a now => exact answer_attributes_iff hs h
  | report id failed now => exact report_attributes_iff hs h
  | other ev => exact iff_of_true (other_attributes hs h) trivial

theorem Sound.tame_step {ev : MasterEvent} (hs : w.Sound)
    (h : ClusterMaster.machine.step w.master ev = some w'.master)
    (hreply : ∀ cid i reply now, ev = .reply cid i reply now → reply.Clear) :
    ∀ cid d, w'.master.frames.get? cid = some (.dispatch d) → d.Tame := by
  intro c d' hf
  rcases ClusterMaster.dispatch_cases hs.wf h hf with hold | hstart | ⟨hruns,d,hd⟩
  · exact hs.tame c d' hold
  · simp only [Dispatch.Tame,hstart]
  · cases ev with
    | resume cid now =>
      obtain rfl := Option.some.inj hruns
      simp only [ClusterMaster.machine,ClusterMaster.step,hd,Option.bind_some] at h
      exact ClusterMaster.tame_resumeDispatch h (hs.tame cid d hd) hf
    | reply cid i reply now =>
      obtain rfl := Option.some.inj hruns
      simp only [ClusterMaster.machine,ClusterMaster.step,hd] at h
      exact ClusterMaster.tame_receiveReply h (hs.tame cid d hd) (hreply cid i reply now rfl) hf
    | probed cid ok now =>
      obtain rfl := Option.some.inj hruns
      simp [ClusterMaster.machine,ClusterMaster.step,hd] at h
    | _ => cases hruns

theorem Sound.step (hs : w.Sound) (h : w.step e = some w') (hun : w.Unmistaken e) : w'.Sound := by
  cases e with
  | answer cid i a now =>
    obtain ⟨d,n,hf,hn,htarget,hreceive,hmaster,hfailures⟩ := answer_cases h
    obtain ⟨hplain,hfailed⟩ := hun n htarget
    refine ⟨ClusterMaster.step_wf hs.wf hmaster,fun k l hl => ?_,hs.tame_step hmaster ?_⟩
    · cases hraised : (a.reply n).isRaised with
      | true => exact (answer_reports hreceive hn hfailures hraised).counts hs (hfailed hraised) hl
      | false =>
        rw [hfailures]
        exact (hs.counts k l (ClusterMaster.leavesFaults_receiveReply hreceive hraised k l hl)).trans
          (le_countFailure w k n a.failed)
    · rintro _ _ _ _ ⟨⟩
      exact AgentReply.clear_of_plain hplain
  | report id failed now =>
    obtain rfl := Option.some.inj h
    have hreports : w.Reports ⟨w.master.reportFault id now,w.answers,w.countFailure id failed⟩ id
        failed now := ⟨rfl,rfl,rfl⟩
    have hmaster : ClusterMaster.machine.step w.master (.reportFault id now) =
        some (w.master.reportFault id now) := rfl
    exact ⟨ClusterMaster.step_wf hs.wf hmaster,fun k l hl => hreports.counts hs hun hl,
      hs.tame_step hmaster fun _ _ _ _ heq => nomatch heq⟩
  | other ev =>
    obtain ⟨hmaster,hfailures,hreport,hreply⟩ := other_cases h
    refine ⟨ClusterMaster.step_wf hs.wf hmaster,fun k l hl => ?_,
      hs.tame_step hmaster fun cid i reply now heq => absurd heq (hreply cid i reply now)⟩
    rw [hfailures]
    exact hs.counts k l (ClusterMaster.leavesFaults_step hmaster hs.tame hreport hreply k l hl)

/-- Along a run each fault is one of the node it is recorded for, and both dispatch paths take each
answer alike, just where no answer is mistaken. -/
theorem fault_attribution_iff (config : MasterConfig) (ha : HaState) (es : List FaultEvent) :
    machine.Along Attributes (create config ha) es ↔
      machine.Along (fun w e _ => w.Unmistaken e) (create config ha) es :=
  machine.along_congr_of_invariant (I := Sound)
    (fun _ _ _ hs h => step_attributes_iff hs h) (fun _ _ _ hs h hun => hs.step h hun)
    (sound_create config ha) es

/-- The user cancels the task that `n1` works on. -/
def cancelledRun : List FaultEvent :=
  ClusterMaster.assignedRun.map .other ++
    [.other (.resume 2 1),.other (.resume 2 1),.answer 2 0 (.executed .cancelled) 2,
      .other (.resume 2 2)]

theorem cancelled_task_is_blamed : ¬∀ (config : MasterConfig) (ha : HaState)
    (es : List FaultEvent), machine.Along Attributes (create config ha) es := by
  intro h
  have hexec : (machine.exec (create ClusterMaster.defaultConfig HaState.create)
      cancelledRun).any (fun w => (machine.step w (.other (.resume 2 3))).any fun w' =>
        decide (w.master.faultCounts.get? "n1" = none) &&
          (w'.master.faultCounts.get? "n1").isSome &&
          match w.collected 2 with
          | some p => !p.2.failed
          | none => true) = true := by
    decide +kernel
  obtain ⟨w,hw,hs⟩ := (Option.any_eq_true _ _).mp hexec
  obtain ⟨w',hw',hs⟩ := (Option.any_eq_true _ _).mp hs
  simp only [Bool.and_eq_true,decide_eq_true_eq] at hs
  obtain ⟨⟨hnone,hsome⟩,hanswer⟩ := hs
  have hlast := (h ClusterMaster.defaultConfig HaState.create
    (cancelledRun ++ [.other (.resume 2 3)])).last hw hw'
  obtain ⟨a,ha,hfailed⟩ := hlast.blames "n1" ⟨hsome,fun heq => by simp [heq,hnone] at hsome⟩
  simp [ha,hfailed] at hanswer

end FaultWatch
end FusionMultiNodes

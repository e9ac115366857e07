import FusionMultiNodes.Master.EventLoop

/-! Tenant quotas. The quota is looked at in the first lock section of `assign_task` and a task
is set to `RUNNING` in a later one; between them the coroutine does not wait. -/
namespace FusionMultiNodes
namespace ClusterMaster

/-- The tasks `_running_count_for_user` counts. -/
def runningOf (m : ClusterMaster) (user : String) : List Ref :=
  m.tasks.values.filter fun r =>
    decide ((m.objects r).status = .running) && decide ((m.objects r).user = user)

/-- The lock section at `pc` sets the task to `RUNNING`. -/
def admits (m : ClusterMaster) (r : Ref) (now : ℚ) (pc : AssignPc) : Bool :=
  !m.isRunning (m.objects r).taskId &&
    match pc with
    | .localCommit _ => m.hasFreeSlot (m.objects r).preferredNodeId
    | .confirm requiredMem selected =>
      !(m.looksForBackup (m.objects r) selected && decide ((m.objects r).pinnedNodeId ≠ "")) &&
        decide ((m.objects r).need ≤ (m.confirmedNodes (m.objects r) requiredMem selected now).length)
    | _ => false

/-- The task a step sets to `RUNNING`. -/
def admitted? (m : ClusterMaster) : MasterEvent → Option Ref
  | .resume cid now =>
    match m.frames.get? cid with
    | some (.assign r pc _) => if m.admits r now pc then some r else none
    | _ => none
  | _ => none

end ClusterMaster

/-- A master, and the tasks it has set to `RUNNING`, the last one first, each with the limit of
its user that was in force. -/
structure QuotaHistory where
  master : ClusterMaster
  admitted : List (Ref × ℕ) := []

namespace QuotaHistory

open ClusterMaster

variable (s : QuotaHistory)

def record (ev : MasterEvent) (m : ClusterMaster) : QuotaHistory where
  master := m
  admitted := ((s.master.admitted? ev).map fun r =>
    (r,s.master.tenantLimitFor (s.master.objects r).user)).toList ++ s.admitted

def machine : Machine QuotaHistory MasterEvent :=
  ⟨fun s ev => (loop.step s.master ev).map (s.record ev)⟩

def start (config : MasterConfig) (ha : HaState) : QuotaHistory := { master := .create config ha }

/-- The last admission of a task of the user that is `RUNNING`. -/
def lastAdmitted (user : String) : Option (Ref × ℕ) :=
  s.admitted.find? fun p => decide (p.1 ∈ s.master.runningOf user)

/-- No user has more tasks `RUNNING` than the limit allowed when the last of them was
admitted. -/
def WithinQuota : Prop :=
  ∀ user, s.master.runningOf user ≠ [] →
    ∃ p, s.lastAdmitted user = some p ∧ (0 < p.2 → s.master.runningCountForUser user ≤ p.2)

/-- A task is admitted only where the check of the first lock section would still let it
pass. -/
def ChecksAgain (ev : MasterEvent) : Prop :=
  ∀ r, s.master.admitted? ev = some r →
    0 < s.master.tenantLimitFor (s.master.objects r).user →
    s.master.runningCountForUser (s.master.objects r).user <
      s.master.tenantLimitFor (s.master.objects r).user

variable {s : QuotaHistory} {m m' : ClusterMaster} {r x : Ref} {user : String} {ev : MasterEvent}

theorem mem_runningOf (hw : m.Wf) : r ∈ m.runningOf user ↔
    m.Registered r ∧ (m.objects r).status = .running ∧ (m.objects r).user = user := by
  simp [runningOf,List.mem_filter,hw.registered_iff]

theorem nodup_runningOf (hw : m.Wf) (user : String) : (m.runningOf user).Nodup :=
  hw.values_nodup.filter _

theorem fromDict_not_running (partialRecovery : Bool) (d : TaskRecord) :
    (d.fromDict partialRecovery).status ≠ .running := by
  unfold TaskRecord.fromDict
  split_ifs
  · simp
  · by_cases h : d.status = .running ∨ d.status = .migrated
    · simp [TaskRecord.load,TaskRecord.wasRunning,h]
    · simp [TaskRecord.load,TaskRecord.wasRunning,h]
      exact fun hs => h (Or.inl hs)

theorem admits_of_commits {now : ℚ} {pc : AssignPc} {ns : List NodeId}
    (hc : m.Commits r now pc ns) : m.admits r now pc = true := by
  obtain ⟨hrunning,hpc⟩ := hc
  cases pc with
  | localCommit requiredMem => simp [admits,hrunning,hpc.1]
  | confirm requiredMem selected =>
    obtain ⟨hbackup,rfl,hlen⟩ := hpc
    simp only [admits,hrunning,Bool.not_false,Bool.true_and,Bool.and_eq_true,Bool.not_eq_true',
      Bool.and_eq_false_iff,decide_eq_false_iff_not,not_not,decide_eq_true_eq]
    refine ⟨?_,hlen⟩
    by_cases hlook : m.looksForBackup (m.objects r) selected = true
    · exact Or.inr (hbackup hlook)
    · exact Or.inl (eq_false_of_ne_true hlook)
  | _ => exact absurd hpc id

theorem admitted_of_commits {cid : ℕ} {now : ℚ} {pc : AssignPc} {k : Caller} {ns : List NodeId}
    (hf : m.frames.get? cid = some (.assign r pc k)) (hc : m.Commits r now pc ns) :
    m.admitted? (.resume cid now) = some r := by
  simp only [admitted?,hf,admits_of_commits hc,if_true]

theorem not_running_of_birth {t : ClusterTask} {v : TaskView} (h : Birth m r ev t v)
    (hreg : v.registered) : t.status ≠ .running := by
  cases h with
  | submitted => exact absurd hreg id
  | merged hd haccepts ht =>
    rw [ht]
    exact fromDict_not_running _ _
  | restored hfile hd ht hnot =>
    rw [ht]
    exact fromDict_not_running _ _
  | queued _ _ _ ht =>
    rw [ht]
    exact nofun

/-- A task that runs after a step ran before it, or was admitted in it. -/
theorem mem_runningOf_step (hw : m.Wf) (h : ClusterMaster.machine.step m ev = some m')
    (hr : r ∈ m'.runningOf user) :
    r ∈ m.runningOf user ∨ (m.admitted? ev = some r ∧ (m.objects r).user = user) := by
  have hw' := step_wf hw h
  obtain ⟨hreg,hstatus,huser⟩ := (mem_runningOf hw').mp hr
  rcases Nat.lt_or_ge r m.nextRef with hlt | hge
  · have hold : (m.objects r).user = user := by
      rw [← huser,((step_evolves hw h).job r hlt).user]
    have hmove := step_move hw h hlt
    have hv : (m'.view r).status = .running ∧ (m'.view r).registered := ⟨hstatus,hreg⟩
    generalize m'.view r = v at hmove hv
    have hkeep : (m.view r).status = .running ∧ (m.view r).registered → r ∈ m.runningOf user ∨
        (m.admitted? ev = some r ∧ (m.objects r).user = user) :=
      fun hm => Or.inl ((mem_runningOf hw).mpr ⟨hm.2,hm.1,hold⟩)
    cases hmove with
    | assign hf hopen hc => exact Or.inr ⟨admitted_of_commits hf hc,hold⟩
    | stay | skip | refuse | launch | noLaunch | unqueue | endLive => exact hkeep hv
    | park | retry | giveUp | exhaust | requeue | abandon | strand | cancel | migrate | degrade =>
      exact absurd hv.1 (by simp)
    | finish =>
      have := hv.1
      dsimp only at this
      split_ifs at this
    | complete =>
      have := hv.1
      dsimp only at this
      split_ifs at this
    | purge | displace | reset => exact absurd hv.2 (by simp)
  · have hbirth := step_birth hw h hge (hw'.reg_lt hreg)
    exact absurd hstatus (not_running_of_birth hbirth hreg)

theorem assignStep_commits {now : ℚ} {pc : AssignPc} {ns : List NodeId}
    (hc : m.Commits r now pc ns) :
    ∃ p, m.assignStep r now pc = some p ∧ (m.commit r ns now).Still p.1 := by
  obtain ⟨hrunning,hpc⟩ := hc
  cases pc with
  | localCommit requiredMem =>
    obtain ⟨hfree,rfl⟩ := hpc
    exact ⟨_,rfl,by simp [assignLocal,hrunning,hfree,Still.refl]⟩
  | confirm requiredMem selected =>
    obtain ⟨hbackup,rfl,hlen⟩ := hpc
    have hpinned : ¬(m.looksForBackup (m.objects r) selected = true ∧
        (m.objects r).pinnedNodeId ≠ "") := fun h => h.2 (hbackup h.1)
    have hbans : m.OnlyBans (if m.looksForBackup (m.objects r) selected = true then
        m.dropExpiredBans (selected.filter m.hasFreeSlot ++ (m.objects r).excludeNodes) now
        else m) := by
      split_ifs
      · exact onlyBans_dropExpiredBans m _ now
      · exact OnlyBans.refl m
    refine ⟨_,rfl,?_⟩
    simp only [assignConfirm,hrunning,Bool.false_eq_true,if_false,if_neg hpinned,
      if_neg (not_lt.mpr hlen)]
    generalize (if m.looksForBackup (m.objects r) selected = true then
      m.dropExpiredBans (selected.filter m.hasFreeSlot ++ (m.objects r).excludeNodes) now else m) = m₁
      at hbans ⊢
    have hcommit := (hbans.quiet.commit hbans.nodes r
      (m.confirmedNodes (m.objects r) requiredMem selected now) now).still
    split_ifs
    · exact hcommit.trans (quiet_persistTasks _).still
    · exact hcommit.trans (quiet_deferPersist _).still
  | _ => exact absurd hpc id

theorem commits_of_admits {now : ℚ} {pc : AssignPc} (h : m.admits r now pc = true) :
    ∃ ns, m.Commits r now pc ns := by
  simp only [admits,Bool.and_eq_true,Bool.not_eq_true'] at h
  obtain ⟨hrunning,hpc⟩ := h
  cases pc with
  | localCommit requiredMem => exact ⟨_,hrunning,hpc,rfl⟩
  | confirm requiredMem selected =>
    simp only [Bool.and_eq_true,Bool.not_eq_true',Bool.and_eq_false_iff,decide_eq_false_iff_not,
      not_not,decide_eq_true_eq] at hpc
    refine ⟨_,hrunning,fun hback => ?_,rfl,hpc.2⟩
    exact hpc.1.resolve_left (by simp [hback])
  | _ => exact absurd hpc (by simp)

theorem admitted?_eq_some (h : m.admitted? ev = some r) :
    ∃ cid now pc k, ev = .resume cid now ∧ m.frames.get? cid = some (.assign r pc k) ∧
      m.admits r now pc = true := by
  unfold admitted? at h
  split at h
  · split at h
    · rename_i cid now _ r' pc k hf
      obtain ⟨hadmits,hr⟩ := Option.ite_none_right_eq_some.mp h
      obtain rfl := Option.some.inj hr
      exact ⟨cid,now,pc,k,rfl,hf,hadmits⟩
    · cases h
  · cases h

/-- Where the conditions to assign hold, the step of the coroutine assigns. -/
theorem step_commits {cid : ℕ} {now : ℚ} {pc : AssignPc} {k : Caller} {ns : List NodeId}
    (h : ClusterMaster.machine.step m (.resume cid now) = some m')
    (hf : m.frames.get? cid = some (.assign r pc k)) (hc : m.Commits r now pc ns) :
    ∃ f p, (m.commit r ns now).Still p ∧ m' = p.setFrame cid f := by
  obtain ⟨p,hp,hstill⟩ := assignStep_commits hc
  have hresume : m.resumeAssign cid r k now pc = some m' := by
    have hstep : (m.frames.get? cid).bind (m.resumeFrame cid now) = some m' := h
    simpa only [hf,Option.bind_some,resumeFrame] using hstep
  refine ⟨.assign r p.2 k,p.1,hstill,?_⟩
  cases pc with
  | localCommit | confirm =>
    simp only [resumeAssign,hp,Option.map_some,Option.some.injEq] at hresume
    exact hresume.symm
  | _ => exact absurd hc.2 id

/-- Every running task was admitted, and whatever was admitted after a task, those of its user
that run without that are within its limit. -/
structure Counted (s : QuotaHistory) : Prop where
  wf : s.master.Wf
  admitted_lt : ∀ p ∈ s.admitted, p.1 < s.master.nextRef
  running : ∀ user, ∀ r ∈ s.master.runningOf user, r ∈ s.admitted.map Prod.fst
  within : ∀ newer p older, s.admitted = newer ++ p::older → 0 < p.2 →
    ((s.master.runningOf (s.master.objects p.1).user).filter
      fun r => decide (r ∉ newer.map Prod.fst)).length ≤ p.2

theorem length_le_of_subset {l l' : List Ref} (hl : l.Nodup) (h : l ⊆ l') : l.length ≤ l'.length :=
  (List.subperm_of_subset hl h).length_le

theorem counted_start (config : MasterConfig) (ha : HaState) : (start config ha).Counted where
  wf := wf_create config ha
  admitted_lt := by simp [start]
  running := by
    intro user r hr
    cases hr
  within := by simp [start]

theorem user_of_step (hc : s.Counted) (h : ClusterMaster.machine.step s.master ev = some m')
    {p : Ref × ℕ} (hp : p ∈ s.admitted) :
    (m'.objects p.1).user = (s.master.objects p.1).user :=
  ((step_evolves hc.wf h).job p.1 (hc.admitted_lt p hp)).user

theorem Counted.keep (hc : s.Counted) (h : ClusterMaster.machine.step s.master ev = some m')
    (hnone : s.master.admitted? ev = none) : (s.record ev m').Counted := by
  have hw' := step_wf hc.wf h
  have hsub : ∀ user, m'.runningOf user ⊆ s.master.runningOf user := by
    intro user r hr
    exact (mem_runningOf_step hc.wf h hr).resolve_right (by simp [hnone])
  have hadmitted : (s.record ev m').admitted = s.admitted := by simp [record,hnone]
  constructor
  · exact hw'
  · intro p hp
    rw [hadmitted] at hp
    exact (hc.admitted_lt p hp).trans_le (step_evolves hc.wf h).nextRef
  · intro user r hr
    rw [hadmitted]
    exact hc.running user r (hsub user hr)
  · intro newer p older hsplit hpos
    rw [hadmitted] at hsplit
    have hp : p ∈ s.admitted := by simp [hsplit]
    refine le_trans ?_ (hc.within newer p older hsplit hpos)
    apply length_le_of_subset ((nodup_runningOf hw' _).filter _)
    intro x hx
    obtain ⟨hx,hnewer⟩ := List.mem_filter.mp hx
    rw [show (s.record ev m').master = m' from rfl,user_of_step hc h hp] at hx
    exact List.mem_filter.mpr ⟨hsub _ hx,hnewer⟩

/-- A step that admits a task keeps the counts where the check would let it pass. -/
theorem Counted.take (hc : s.Counted) (h : ClusterMaster.machine.step s.master ev = some m')
    (hadm : s.master.admitted? ev = some r) (hchecks : s.ChecksAgain ev) :
    (s.record ev m').Counted := by
  have hw' := step_wf hc.wf h
  obtain ⟨cid,now,pc,k,rfl,hf,-⟩ := admitted?_eq_some hadm
  have hr : r < s.master.nextRef := hc.wf.refs_lt cid _ hf r (List.mem_cons_self ..)
  have huser := ((step_evolves hc.wf h).job r hr).user
  have hsub : ∀ user, m'.runningOf user ⊆ r::s.master.runningOf user := by
    intro user x hx
    rcases mem_runningOf_step hc.wf h hx with hold | ⟨hnew,-⟩
    · exact List.mem_cons_of_mem _ hold
    · rw [hadm] at hnew
      exact List.mem_cons.mpr (Or.inl (Option.some.inj hnew).symm)
  have hadmitted : (s.record (.resume cid now) m').admitted =
      (r,s.master.tenantLimitFor (s.master.objects r).user)::s.admitted := by simp [record,hadm]
  constructor
  · exact hw'
  · intro p hp
    rw [hadmitted] at hp
    apply lt_of_lt_of_le ?_ (step_evolves hc.wf h).nextRef
    rcases List.mem_cons.mp hp with rfl | hp
    · exact hr
    · exact hc.admitted_lt p hp
  · intro user x hx
    rw [hadmitted,List.map_cons]
    exact List.cons_subset_cons _ (hc.running user) (hsub user hx)
  · intro newer p older hsplit hpos
    rw [hadmitted] at hsplit
    cases newer with
    | nil =>
      obtain ⟨rfl,-⟩ := List.cons_eq_cons.mp hsplit
      have hlt := hchecks r hadm hpos
      have hle := length_le_of_subset (nodup_runningOf hw' (s.master.objects r).user) (hsub _)
      rw [List.length_cons] at hle
      have hfilter := List.length_filter_le (fun x => decide (x ∉ ([] : List (Ref × ℕ)).map Prod.fst))
        (m'.runningOf (m'.objects r).user)
      rw [huser] at hfilter
      rw [show (s.record (.resume cid now) m').master = m' from rfl]
      simp only [huser]
      exact (hfilter.trans hle).trans hlt
    | cons q newer =>
      rw [List.cons_append] at hsplit
      obtain ⟨hq,hrest⟩ := List.cons_eq_cons.mp hsplit
      subst hq
      have hp : p ∈ s.admitted := by
        rw [hrest]
        exact List.mem_append_right newer (List.mem_cons_self ..)
      refine le_trans ?_ (hc.within newer p older hrest hpos)
      apply length_le_of_subset ((nodup_runningOf hw' _).filter _)
      intro x hx
      obtain ⟨hx,hnewer⟩ := List.mem_filter.mp hx
      rw [show (s.record (.resume cid now) m').master = m' from rfl,user_of_step hc h hp] at hx
      obtain ⟨hxr,hnewer⟩ : x ≠ r ∧ x ∉ newer.map Prod.fst := by
        simpa only [List.map_cons,List.mem_cons,decide_eq_true_eq,not_or] using hnewer
      exact List.mem_filter.mpr
        ⟨(List.mem_cons.mp (hsub _ hx)).resolve_left hxr,decide_eq_true hnewer⟩

theorem Counted.step (hc : s.Counted) (h : ClusterMaster.machine.step s.master ev = some m')
    (hchecks : s.ChecksAgain ev) : (s.record ev m').Counted := by
  cases hadm : s.master.admitted? ev with
  | none => exact hc.keep h hadm
  | some r => exact hc.take h hadm hchecks

theorem Counted.withinQuota (hc : s.Counted) : s.WithinQuota := by
  intro user hne
  cases hlast : s.lastAdmitted user with
  | none =>
    obtain ⟨r,hr⟩ := List.exists_mem_of_ne_nil _ hne
    obtain ⟨p,hp,rfl⟩ := List.mem_map.mp (hc.running user r hr)
    exact absurd hr (by simpa using List.find?_eq_none.mp hlast p hp)
  | some p =>
    refine ⟨p,rfl,fun hpos => ?_⟩
    obtain ⟨hp,newer,older,hsplit,hnewer⟩ := List.find?_eq_some_iff_append.mp hlast
    have hrun : p.1 ∈ s.master.runningOf user := of_decide_eq_true hp
    have huser : (s.master.objects p.1).user = user := ((mem_runningOf hc.wf).mp hrun).2.2
    have hwithin := hc.within newer p older hsplit hpos
    have hall : (s.master.runningOf user).filter (fun r => decide (r ∉ newer.map Prod.fst)) =
        s.master.runningOf user := by
      apply List.filter_eq_self.mpr
      intro r hr
      apply decide_eq_true
      intro hmem
      obtain ⟨q,hq,rfl⟩ := List.mem_map.mp hmem
      exact absurd hr (by simpa using hnewer q hq)
    rwa [huser,hall] at hwithin

end QuotaHistory

/-- The quota of the task has been looked at, and the task is not yet `RUNNING`. -/
def AssignPc.isPastQuota : AssignPc → Bool
  | .localCheck _ | .localCommit _ | .route _ | .selecting _ _ | .confirm _ _ => true
  | _ => false

namespace ClusterMaster

variable {m m' : ClusterMaster} {r : Ref} {ev : MasterEvent} {now : ℚ} {pc : AssignPc}

def HasRoom (m : ClusterMaster) (user : String) : Prop :=
  0 < m.tenantLimitFor user → m.runningCountForUser user < m.tenantLimitFor user

/-- What the check of the quota has found is still so. -/
def Checked (m : ClusterMaster) : Prop :=
  ∀ c r pc k, m.frames.get? c = some (.assign r pc k) → pc.isPastQuota = true →
    m.HasRoom (m.objects r).user

theorem checked_create (config : MasterConfig) (ha : HaState) : (create config ha).Checked := nofun

theorem isPastQuota_of_admits (h : m.admits r now pc = true) : pc.isPastQuota = true := by
  cases pc with
  | localCommit | confirm => rfl
  | _ => exact absurd (Bool.and_eq_true_iff.mp h).2 Bool.false_ne_true

theorem isUnderway_of_isPastQuota {k : Caller} (h : pc.isPastQuota = true) :
    (Frame.assign r pc k).isUnderway = true := by
  cases pc with
  | writing w => cases h
  | _ => rfl

/-- A step that comes past the quota, or goes on there, leaves the running tasks and the limits. -/
theorem assignStep_pastQuota {s : ClusterMaster} {pc₀ : AssignPc}
    (hs : m.assignStep r now pc₀ = some (s,pc)) (hpc : pc.isPastQuota = true)
    (hroom : pc₀.isPastQuota = true → m.HasRoom (m.objects r).user) :
    s.HasRoom (s.objects r).user := by
  cases pc₀ with
  | quota =>
    simp only [assignStep,assignQuota,Option.some.injEq] at hs
    split_ifs at hs with hrun hfull hqueued hlocal
    · cases hs
      cases hpc
    · cases hs
      cases hpc
    · cases hs
      cases hpc
    · cases hs
      exact fun hpos => not_le.mp fun hle => hfull ⟨hpos,hle⟩
    · cases hs
      exact fun hpos => not_le.mp fun hle => hfull ⟨hpos,hle⟩
  | localCheck mem =>
    cases hs
    exact hroom rfl
  | localCommit mem =>
    simp only [assignStep,assignLocal,Option.some.injEq] at hs
    split_ifs at hs
    · cases hs
      cases hpc
    · cases hs
      cases hpc
    · cases hs
      exact hroom rfl
  | route mem =>
    cases hs
    exact hroom rfl
  | selecting mem original =>
    simp only [assignStep,assignSelect,Option.some.injEq] at hs
    split_ifs at hs <;> cases hs <;> exact hroom rfl
  | guards =>
    cases hs
    split_ifs at hpc <;> cases hpc
  | enqueueShort =>
    simp only [assignStep,assignShort,Option.some.injEq] at hs
    split_ifs at hs <;> cases hs <;> cases hpc
  | confirm mem selected =>
    simp only [assignStep,assignConfirm,Option.some.injEq] at hs
    split_ifs at hs <;> cases hs <;> cases hpc
  | writing w =>
    obtain ⟨-,hs⟩ := Option.ite_none_left_eq_some.mp hs
    cases hs
    cases hpc
  | trigger =>
    cases hs
    cases hpc
  | returned ok => cases hs

theorem Checked.step (hm : m.Checked) (h : loop.step m ev = some m') : m'.Checked := by
  intro c r pc k hf hpc
  have hne : pc ≠ .guards := by
    rintro rfl
    cases hpc
  rcases loop_assign h hf (isUnderway_of_isPastQuota hpc) hne with
    ⟨hthread,hf₀⟩ | ⟨now,pc₀,s,rfl,hf₀,hs,rfl⟩
  · obtain ⟨store,rfl⟩ := step_thread (loop_step h).2 hthread
    exact hm c r pc k hf₀ hpc
  · have hroom := assignStep_pastQuota hs hpc (hm c r pc₀ k hf₀)
    exact hroom

end ClusterMaster

namespace QuotaHistory

open ClusterMaster

variable {s : QuotaHistory} {ev : MasterEvent}

theorem checksAgain_of_checked (hm : s.master.Checked) : s.ChecksAgain ev := by
  intro r hadm
  obtain ⟨cid,now,pc,k,-,hf,hadmits⟩ := admitted?_eq_some hadm
  exact hm cid r pc k hf (isPastQuota_of_admits hadmits)

/-- In every run, no user has more tasks `RUNNING` than the limit in force when the last of them was
admitted. -/
theorem tenant_quota (config : MasterConfig) (ha : HaState) (es : List MasterEvent) :
    machine.Along (fun _ _ t => t.WithinQuota) (start config ha) es := by
  refine Machine.along_of_invariant (I := fun s => s.Counted ∧ s.master.Checked) ?_
    ⟨counted_start config ha,checked_create config ha⟩ es
  rintro s ev t ⟨hc,hm⟩ ht
  obtain ⟨m',h,rfl⟩ := Option.map_eq_some_iff.mp ht
  have hcounted := hc.step (loop_step h).2 (checksAgain_of_checked hm)
  exact ⟨hcounted.withinQuota,hcounted,hm.step h⟩

end QuotaHistory
end FusionMultiNodes

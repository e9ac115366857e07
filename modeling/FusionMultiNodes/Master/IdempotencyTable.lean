import FusionMultiNodes.Master.Idempotency
import FusionMultiNodes.Master.Orphans

/-! What the steps of a master do to tasks that have not ended, and what lookups and registrations
do to the table of idempotency keys. -/
namespace FusionMultiNodes

namespace ClusterMaster

variable {m m' s : ClusterMaster} {r : Ref} {id : TaskId} {ev : MasterEvent} {now : ℚ} {cid : ℕ}

theorem isLive_iff : m.isLive id = true ↔
    ∃ r, m.tasks.get? id = some r ∧ (m.objects r).status.freesKey = false := by
  unfold isLive task?
  cases m.tasks.get? id <;> simp

theorem isLive_congr (ho : m'.objects = m.objects) (ht : m'.tasks = m.tasks) (id : TaskId) :
    m'.isLive id = m.isLive id := by
  simp only [isLive,task?,ho,ht]

theorem Still.isLive (h : m.Still m') (id : TaskId) : m'.isLive id = m.isLive id :=
  isLive_congr h.objects h.tasks id

theorem isLive_of_view (hreg : (m.view r).registered) (hs : (m.view r).status.freesKey = false) :
    m.isLive (m.objects r).taskId = true :=
  isLive_iff.mpr ⟨r,hreg,hs⟩

theorem revives_of_open {pc : AssignPc} {k : Caller}
    (hf : m.frames.get? cid = some (.assign r pc k)) (hpc : pc.isOpen = true) :
    m.revives (m.objects r).taskId (.resume cid now) = true := by
  simp [revives,hf,hpc]

theorem revives_of_returned {k : Caller}
    (hf : m.frames.get? cid = some (.assign r (.returned false) k)) (hk : k ≠ .submit) :
    m.revives (m.objects r).taskId (.resume cid now) = true := by
  simp [revives,hf,hk]

/-- A task that has not ended after a step had not ended before, or is revived by it. -/
theorem Move.isLive {v : TaskView} (hw : m.Wf) (h : Move m r ev v) (hreg : v.registered)
    (hs : v.status.freesKey = false) :
    m.isLive (m.objects r).taskId = true ∨ m.revives (m.objects r).taskId ev = true := by
  have hkept : (m.view r).registered → (m.view r).status.freesKey = false →
      m.isLive (m.objects r).taskId = true ∨ m.revives (m.objects r).taskId ev = true :=
    fun hreg hs => .inl (isLive_of_view hreg hs)
  have hrunning : m.Registered r → (m.objects r).status = .running →
      m.isLive (m.objects r).taskId = true ∨ m.revives (m.objects r).taskId ev = true := by
    intro hreg hrun
    refine .inl (isLive_iff.mpr ⟨r,hreg,?_⟩)
    rw [hrun]
    rfl
  cases h with
  | stay => exact hkept hreg hs
  | skip => exact hkept hreg hs
  | refuse => exact hkept hreg hs
  | park hf hpc =>
    rcases hpc with hpc | ⟨rfl,rest,rfl⟩
    · exact .inr (revives_of_open hf hpc)
    · exact .inr (revives_of_returned hf (by simp))
  | assign hf hpc => exact .inr (revives_of_open hf hpc)
  | launch => exact hkept hreg hs
  | noLaunch => exact hkept hreg hs
  | retry hf hk => exact .inr (revives_of_returned hf hk)
  | giveUp => cases hs
  | exhaust => cases hs
  | requeue hreg hrun => exact hrunning hreg hrun
  | abandon => cases hs
  | strand => cases hs
  | finish _ _ _ hid hrun => exact hrunning (hw.registered_of_get? hid) hrun
  | complete hid => exact absurd hs (by dsimp only; split_ifs <;> simp [TaskStatus.freesKey])
  | cancel => cases hs
  | unqueue => exact hkept hreg hs
  | migrate hid hrun => exact hrunning (hw.registered_of_get? hid) hrun
  | degrade hid _ => exact .inr (by simp [revives,(hw.task_lt _ _ hid).2])
  | endLive => exact hkept hreg hs
  | purge => exact hreg.elim
  | displace => exact hreg.elim
  | reset => exact hreg.elim

theorem Birth.isLive {t : ClusterTask} {v : TaskView} (h : Birth m r ev t v) (hreg : v.registered)
    (hs : v.status.freesKey = false) : m.revives t.taskId ev = true := by
  cases h with
  | submitted => exact hreg.elim
  | @merged records d t reg hd hacc ht =>
    subst ht
    have hid := (fromDict_spec m.config.partialRecovery d).1
    simp only [revives,List.any_eq_true]
    exact ⟨d,hd,by simp [hid,hacc,hs]⟩
  | @restored now rnd content d t reg hfile hd ht =>
    subst ht
    have hid := (fromDict_spec m.config.partialRecovery d).1
    simp only [revives,hfile,Option.any_some,List.any_eq_true]
    exact ⟨d,hd,by simp [hid,hs]⟩
  | @queued now rnd content d t hfile hd hpending ht =>
    subst ht
    have hid := (fromDict_spec m.config.partialRecovery d).1
    simp only [revives,hfile,Option.any_some,List.any_eq_true]
    exact ⟨d,hd,by simp [hid,hpending,TaskStatus.freesKey]⟩

theorem step_isLive (hw : m.Wf) (h : machine.step m ev = some m') (hl : m'.isLive id = true) :
    m.isLive id = true ∨ m.revives id ev = true := by
  obtain ⟨r,hid,hs⟩ := isLive_iff.mp hl
  obtain ⟨hlt,rfl⟩ := (step_wf hw h).task_lt id r hid
  rcases Nat.lt_or_ge r m.nextRef with hr | hr
  · have hjob := ((step_evolves hw h).job r hr).taskId
    rw [hjob]
    exact (step_move hw h hr).isLive hw hid hs
  · exact .inr ((step_birth hw h hr hlt).isLive hid hs)

theorem restart_isLive (hw : m.Wf) {rnd : ℚ} (hl : (m.restart now rnd).isLive id = true) :
    m.revives id (.restart now rnd) = true := by
  have hstep : machine.step m (.restart now rnd) = some (m.restart now rnd) := rfl
  obtain ⟨r,hid,hs⟩ := isLive_iff.mp hl
  obtain ⟨hlt,rfl⟩ := (step_wf hw hstep).task_lt id r hid
  rcases Nat.lt_or_ge r m.nextRef with hr | hr
  · have hgone : ¬((m.restart now rnd).view r).registered := by
      rw [view_restart hw hr]
      exact not_false
    exact absurd hid hgone
  · exact (step_birth hw hstep hr hlt).isLive hid hs

/-- `assign_task` for a submission goes on, and takes its task only when it is done with it. -/
theorem resume_submit {pc : AssignPc} (hf : m.frames.get? cid = some (.assign r pc .submit))
    (hpc : ∀ ok, pc ≠ .returned ok) (h : machine.step m (.resume cid now) = some m') :
    ∃ pc', m'.frames.get? cid = some (.assign r pc' .submit) ∧
      (pc'.isOpen = true ∨ pc' = .returned false →
        pc.isOpen = true ∧ ∀ id, m'.isLive id = m.isLive id) := by
  simp only [machine,step,hf,Option.bind_some,resumeFrame] at h
  obtain ⟨ok,hret,-⟩ | ⟨-,s,pc',hp,rfl⟩ := resumeAssign_cases h
  · exact absurd hret (hpc ok)
  refine ⟨pc',Dict.get?_set_self ..,fun hopen => ?_⟩
  have hsame : m.Still s → ∀ id, (s.setFrame cid (.assign r pc' .submit)).isLive id = m.isLive id :=
    fun hs id => (isLive_congr rfl rfl id).trans (hs.isLive id)
  cases assignStep_outcome hp with
  | advance hq _ hopen' => exact ⟨hopen',hsame hq.still⟩
  | skip _ => simp [AssignPc.isOpen] at hopen
  | refuse hq _ hopen' => exact ⟨hopen',hsame hq.still⟩
  | parked => simp [AssignPc.isOpen] at hopen
  | committed _ _ _ _ hend => rcases hend with rfl | rfl <;> simp [AssignPc.isOpen] at hopen
  | written => simp [AssignPc.isOpen] at hopen
  | triggered => simp [AssignPc.isOpen] at hopen

/-- A step leaves the `assign_task` of a submission where it is, unless it resumes it. -/
theorem step_keeps_submit {pc : AssignPc} (hw : m.Wf)
    (hf : m.frames.get? cid = some (.assign r pc .submit)) (hev : ev.isRestart = false)
    (hne : ∀ now, ev ≠ .resume cid now) (h : machine.step m ev = some m') :
    m'.frames.get? cid = some (.assign r pc .submit) := by
  rw [(step_leavesFrames h hev).frames cid (hw.frame_lt cid _ hf) ?_,hf]
  intro hruns
  cases ev with
  | resume c now => exact hne now (by rw [Option.some.inj hruns])
  | reply c i reply now =>
    obtain rfl := Option.some.inj hruns
    simp [machine,step,hf] at h
  | probed c ok now =>
    obtain rfl := Option.some.inj hruns
    simp [machine,step,hf] at h
  | _ => cases hruns

end ClusterMaster

namespace SubmissionWorld

variable {w w' : SubmissionWorld} {key : String} {id : TaskId} {rid : ℕ} {route : SubmitRoute}
  {now : ℚ}

def Leads (w : SubmissionWorld) (key : String) (id : TaskId) : Prop :=
  ∃ rid route, w.routes.get? rid = some route ∧ route.isUnregistered = true ∧ route.key = key ∧
    route.task.taskId = id

def Idle (w : SubmissionWorld) (key : String) : Prop :=
  ∀ rid route, w.routes.get? rid = some route → route.key = key → route.isUnregistered = false

def Lists (w : SubmissionWorld) (key : String) (id : TaskId) : Prop :=
  ∃ entry, w.idempotencyKeys.get? key = some entry ∧ entry.taskId = some id

def Alone (w : SubmissionWorld) : Prop :=
  ∀ rid rid' a b, w.routes.get? rid = some a → w.routes.get? rid' = some b →
    a.isUnderWay = true → b.isUnderWay = true → a.key = b.key → rid = rid'

theorem isUnderWay_of_isUnregistered (h : route.isUnregistered = true) : route.isUnderWay = true := by
  unfold SubmitRoute.isUnregistered at h
  unfold SubmitRoute.isUnderWay
  cases hpc : route.pc <;> simp_all

theorem mem_unregistered : route ∈ w.unregistered key ↔
    ∃ rid, w.routes.get? rid = some route ∧ route.key = key ∧ route.isUnregistered = true := by
  simp [unregistered,Dict.mem_values_iff]

theorem mem_underWay : route ∈ w.underWay key ↔
    ∃ rid, w.routes.get? rid = some route ∧ route.key = key ∧ route.isUnderWay = true := by
  simp [underWay,Dict.mem_values_iff]

theorem holder_eq_some_iff (h : w.Alone) :
    w.holder key = some id ↔ w.Leads key id ∨ (w.Idle key ∧ w.Lists key id) := by
  unfold holder
  cases hl : w.unregistered key with
  | nil =>
    have hidle : w.Idle key := by
      intro rid route hroute hkey
      by_contra hne
      have hmem := mem_unregistered.mpr ⟨rid,hroute,hkey,eq_true_of_ne_false hne⟩
      rw [hl] at hmem
      cases hmem
    constructor
    · intro hentry
      obtain ⟨entry,hget,hid⟩ := Option.bind_eq_some_iff.mp hentry
      exact .inr ⟨hidle,entry,hget,hid⟩
    · rintro (⟨rid,route,hroute,hun,hkey,-⟩ | ⟨-,entry,hget,hid⟩)
      · rw [hidle rid route hroute hkey] at hun
        cases hun
      · exact Option.bind_eq_some_iff.mpr ⟨entry,hget,hid⟩
  | cons route l =>
    obtain ⟨rid,hroute,hkey,hun⟩ := mem_unregistered.mp (hl ▸ List.mem_cons_self ..)
    constructor
    · intro hid
      exact .inl ⟨rid,route,hroute,hun,hkey,Option.some.inj hid⟩
    · rintro (⟨rid',route',hroute',hun',hkey',hid⟩ | ⟨hidle,-⟩)
      · have heq := h rid rid' route route' hroute hroute' (isUnderWay_of_isUnregistered hun)
          (isUnderWay_of_isUnregistered hun') (hkey.trans hkey'.symm)
        rw [← heq,hroute] at hroute'
        rw [← hid,Option.some.inj hroute']
      · rw [hidle rid route hroute hkey] at hun
        cases hun

theorem isCurrent_iff {entry : IdempotencyEntry} : w.isCurrent entry = true ↔
    ∃ id, entry.taskId = some id ∧ w.master.isLive id = true := by
  unfold isCurrent
  cases entry.taskId <;> simp

theorem tryIdempotency_subset {entry : IdempotencyEntry} {k : String}
    (h : (w.tryIdempotency key now).1.get? k = some entry) :
    w.idempotencyKeys.get? k = some entry := by
  have herase : (w.idempotencyKeys.erase key).get? k = some entry →
      w.idempotencyKeys.get? k = some entry := by
    intro h
    rw [Dict.get?_erase] at h
    exact (Option.ite_none_left_eq_some.mp h).2
  unfold tryIdempotency at h
  cases hget : w.idempotencyKeys.get? key with
  | none =>
    rw [hget] at h
    exact h
  | some e =>
    simp only [hget] at h
    split_ifs at h
    · exact herase h
    · exact herase h
    · exact h

theorem tryIdempotency_keeps {k : String} (hin : w.InTime key now)
    (hlist : w.Lists k id) (hl : w.master.isLive id = true) :
    ∃ entry, (w.tryIdempotency key now).1.get? k = some entry ∧ entry.taskId = some id := by
  obtain ⟨entry,hget,hid⟩ := hlist
  refine ⟨entry,?_,hid⟩
  by_cases hk : k = key
  · subst hk
    have hcurrent : w.isCurrent entry = true := isCurrent_iff.mpr ⟨id,hid,hl⟩
    have htime := hin entry hget hcurrent
    unfold tryIdempotency
    simp only [hget]
    rw [if_neg (not_le.mpr htime),if_neg]
    · exact hget
    · unfold ClusterMaster.isLive at hl
      rw [hid,Option.bind_some]
      cases ht : w.master.task? id with
      | none => simp
      | some t =>
        rw [ht] at hl
        simpa using hl
  · have hother : (w.idempotencyKeys.erase key).get? k = some entry := by
      rw [Dict.get?_erase,if_neg hk]
      exact hget
    unfold tryIdempotency
    split
    · exact hget
    · split_ifs
      · exact hother
      · exact hother
      · exact hget

/-- What a lookup answers with is the task of the entry, which has not ended. -/
theorem existing_eq_some (hw : w.master.Wf) {t : ClusterTask} (h : w.existing key now = some t) :
    w.Lists key t.taskId ∧ w.master.isLive t.taskId = true ∧
      (w.tryIdempotency key now).1 = w.idempotencyKeys := by
  unfold existing at h
  unfold tryIdempotency at h ⊢
  cases hget : w.idempotencyKeys.get? key with
  | none => simp [hget] at h
  | some entry =>
    simp only [hget] at h ⊢
    by_cases hexp : entry.expiresAt ≤ now
    · simp [hexp] at h
    · rw [if_neg hexp] at h ⊢
      by_cases hfree : (entry.taskId.bind w.master.task?).any (fun t => t.status.freesKey) = true
      · simp [hfree] at h
      · rw [if_neg hfree] at h ⊢
        obtain ⟨id,hid,ht⟩ := Option.bind_eq_some_iff.mp h
        have hid' : entry.taskId = some id := hid
        obtain ⟨r,hr,rfl⟩ := Option.map_eq_some_iff.mp ht
        have hsame := (hw.task_lt id r hr).2
        rw [hsame]
        refine ⟨⟨entry,hget,hid'⟩,?_,rfl⟩
        rw [hid',Option.bind_some,ht] at hfree
        rw [ClusterMaster.isLive,ht]
        simpa using hfree

/-- A lookup in time finds the task of an entry that has not ended. -/
theorem existing_of_lists (hin : w.InTime key now) (hlist : w.Lists key id)
    (hl : w.master.isLive id = true) : w.existing key now ≠ none := by
  obtain ⟨entry,hget,hid⟩ := hlist
  have hcurrent : w.isCurrent entry = true := isCurrent_iff.mpr ⟨id,hid,hl⟩
  have htime := hin entry hget hcurrent
  unfold ClusterMaster.isLive at hl
  obtain ⟨t,ht,hfree⟩ := (Option.any_eq_true _ _).mp hl
  have hfree' : t.status.freesKey = false := by simpa using hfree
  simp [existing,tryIdempotency,hget,not_le.mpr htime,hid,ht,hfree']

theorem registerIdempotency_self (taskId : Option TaskId) :
    (w.registerIdempotency key taskId now).get? key = some ⟨taskId,now+w.idempotencyTtl⟩ :=
  Dict.get?_set_self ..

theorem dropOldest_subset {keys : Dict String IdempotencyEntry} {k : String}
    {entry : IdempotencyEntry} (h : (dropOldest keys).get? k = some entry) :
    keys.get? k = some entry := by
  unfold dropOldest at h
  split at h
  · exact h
  · rw [Dict.get?_erase] at h
    exact (Option.ite_none_left_eq_some.mp h).2

theorem registerIdempotency_subset {taskId : Option TaskId} {entry : IdempotencyEntry}
    {k : String} (hk : k ≠ key)
    (h : (w.registerIdempotency key taskId now).get? k = some entry) :
    w.idempotencyKeys.get? k = some entry := by
  rw [registerIdempotency,Dict.get?_set_ne _ _ hk] at h
  split_ifs at h
  · exact dropOldest_subset h
  · exact h

theorem registerIdempotency_keeps {taskId : Option TaskId} {k : String} (hk : k ≠ key)
    (hkeep : w.KeepsCurrent key) (hlist : w.Lists k id) (hl : w.master.isLive id = true) :
    ∃ entry, (w.registerIdempotency key taskId now).get? k = some entry ∧
      entry.taskId = some id := by
  obtain ⟨entry,hget,hid⟩ := hlist
  refine ⟨entry,?_,hid⟩
  rw [registerIdempotency,Dict.get?_set_ne _ _ hk]
  by_cases hfull : w.isFull key = true
  · rw [if_pos hfull]
    unfold dropOldest
    cases hentries : w.idempotencyKeys.entries with
    | nil => exact hget
    | cons p l =>
      have hold : w.isCurrent p.2 = false := hkeep hfull p (by rw [hentries]; rfl)
      have hne : k ≠ p.1 := by
        rintro rfl
        have hp : w.idempotencyKeys.get? p.1 = some p.2 := by
          rw [Dict.get?_eq_some_iff,hentries]
          exact List.mem_cons_self ..
        rw [hget] at hp
        rw [← Option.some.inj hp,isCurrent_iff.mpr ⟨id,hid,hl⟩] at hold
        cases hold
      exact (Dict.get?_erase ..).trans ((if_neg hne).trans hget)
  · rw [if_neg hfull]
    exact hget

end SubmissionWorld
end FusionMultiNodes

import FusionMultiNodes.Master.Orphans

/-! A task is in one place at most: one of the waiting lists or the hands of one coroutine. -/
namespace FusionMultiNodes
namespace ClusterMaster

/-- The task is in the task table, or something waits to assign it. -/
def Listed (m : ClusterMaster) (r : Ref) : Prop := m.Registered r ∨ 0 < m.held r

/-- Nothing waits to assign a running task, and one thing at most any other. -/
structure OnePlace (m : ClusterMaster) : Prop where
  wf : m.Wf
  once : ∀ r < m.nextRef, m.held r ≤ 1
  idle : ∀ r < m.nextRef, (m.objects r).status = .running → m.held r = 0

structure SingleHolder (m : ClusterMaster) : Prop extends OnePlace m where
  unique : ∀ r < m.nextRef, ∀ x < m.nextRef, m.Listed r → m.Listed x →
    (m.objects r).taskId = (m.objects x).taskId → r = x

/-- No task that waits is degraded, and no record of a peer replaces one. -/
def KeepsSingle (m : ClusterMaster) : MasterEvent → Prop
  | .degradeTask id => ∀ r ∈ m.tasks.get? id, m.held r = 0
  | .receiveSyncedTasks records => ∀ d ∈ records, m.accepts d = true →
      ∀ r < m.nextRef, 0 < m.held r → (m.objects r).taskId ≠ d.taskId
  | _ => True

instance (m : ClusterMaster) (ev : MasterEvent) : Decidable (m.KeepsSingle ev) := by
  apply MasterEvent.casesOn (motive := fun ev => Decidable (m.KeepsSingle ev)) ev <;> intros <;>
    dsimp only [KeepsSingle] <;> infer_instance

variable {m m' : ClusterMaster} {r x : Ref} {cid : ℕ} {ev : MasterEvent} {v : TaskView}

theorem Listed.of_view (h : (m.view r).registered ∨ 0 < (m.view r).held) : m.Listed r :=
  h.imp id Int.natCast_pos.mp

theorem Move.single (h : m.OnePlace) (hr : r < m.nextRef)
    (hG : ∀ id, ev = .degradeTask id → m.tasks.get? id = some r → m.held r = 0)
    (hmove : Move m r ev v) : v.held ≤ 1 ∧ (v.status = .running → v.held = 0) := by
  have hheld : (m.view r).held = m.held r := rfl
  have hstatus : (m.view r).status = (m.objects r).status := rfl
  have honce := h.once r hr
  have hidle := h.idle r hr
  have hkept : (m.view r).held ≤ 1 ∧ ((m.view r).status = .running → (m.view r).held = 0) := by
    rw [hheld,hstatus]
    exact ⟨by omega,fun hs => by simp [hidle hs]⟩
  have hassigns : ∀ {cid pc k}, m.frames.get? cid = some (.assign r pc k) → pc.isOpen = true →
      0 < m.held r := by
    intro cid pc k hf hpc
    refine held_pos_of_mem hf ?_
    rw [Frame.holds_of_isOpen hpc]
    exact List.mem_cons_self
  have hwaits : ∀ s : TaskStatus, s ≠ .running → (m.view r).held ≤ 1 ∧
      (s = .running → (m.view r).held = 0) := fun s hs => ⟨hkept.1,fun h => absurd h hs⟩
  have hless : ∀ s : TaskStatus, s ≠ .running → ∀ k : ℤ, 0 ≤ k → (m.view r).held-k ≤ 1 ∧
      (s = .running → (m.view r).held-k = 0) :=
    fun s hs k hk => ⟨by omega,fun h => absurd h hs⟩
  cases hmove with
  | stay | launch | noLaunch | endLive | purge | displace => exact hkept
  | skip hf hpc _ | refuse hf hpc =>
    have hpos := hassigns hf hpc
    refine ⟨by simp only; omega,fun hs => ?_⟩
    have hzero := hidle hs
    omega
  | park | retry => exact hwaits .pending (by decide)
  | assign hf hpc _ =>
    have hpos := hassigns hf hpc
    refine ⟨by simp only; omega,fun _ => ?_⟩
    simp only
    omega
  | giveUp | exhaust => exact hless .failed (by decide) 1 (by decide)
  | requeue _ hs _ _ =>
    have hzero := hidle hs
    exact ⟨by simp only; omega,fun h => nomatch h⟩
  | abandon | strand => exact hwaits .failed (by decide)
  | @finish _ _ _ o =>
    refine hwaits (if o.success then .completed else if o.partially then .partialDone else .failed) ?_
    split_ifs <;> decide
  | @complete _ error =>
    refine hwaits (if error = "" then .completed else .failed) ?_
    split_ifs <;> decide
  | cancel => exact hless .cancelled (by decide) _ (Int.natCast_nonneg _)
  | unqueue =>
    have hle : m.pendingQueue.count r ≤ m.held r := by
      simp only [held]
      omega
    refine ⟨by simp only; omega,fun hs => ?_⟩
    have hzero := hidle hs
    simp only
    omega
  | migrate _ hs =>
    have hzero := hidle hs
    exact ⟨by simp only; omega,fun h => nomatch h⟩
  | degrade hid _ =>
    have hzero : m.held r = 0 := hG _ rfl hid
    exact ⟨by simp only; omega,fun h => nomatch h⟩
  | reset => exact ⟨Int.zero_le_ofNat 1,fun _ => rfl⟩

theorem Move.listed (hw : m.Wf) (hmove : Move m r ev v) (hv : v.registered ∨ 0 < v.held) :
    m.Listed r := by
  have hself : ∀ {cid pc k}, m.frames.get? cid = some (.assign r pc k) → pc.isOpen = true →
      m.Listed r := by
    intro cid pc k hf hpc
    refine .inr (held_pos_of_mem hf ?_)
    rw [Frame.holds_of_isOpen hpc]
    exact List.mem_cons_self
  have hless : ∀ k : ℤ, 0 ≤ k → (m.view r).registered ∨ 0 < (m.view r).held-k → m.Listed r := by
    rintro k hk (hreg | hheld)
    · exact .inl hreg
    · exact .of_view (.inr (by omega))
  cases hmove with
  | stay | launch | noLaunch | endLive => exact .of_view hv
  | skip hf hpc _ | refuse hf hpc | assign hf hpc _ => exact hself hf hpc
  | @park cid now pc k hf hpc =>
    rcases hpc with hpc | ⟨rfl,rest,rfl⟩
    · exact hself hf hpc
    · exact .inr (held_pos_of_mem hf (by simp [Frame.holds]))
  | retry hf hk _ | giveUp hf hk _ _ => exact .inr (held_pos_of_mem hf (by simp [Frame.holds,hk]))
  | exhaust hf _ _ => exact .inr (held_pos_of_mem hf (by simp [Frame.holds]))
  | requeue hreg _ _ _ | abandon hreg _ _ | strand hreg _ _ | cancel hreg _ _ | purge hreg _
  | displace hreg _ => exact .inl hreg
  | finish _ _ _ hid _ | complete hid | migrate hid _ | degrade hid _ =>
    exact .inl (hw.registered_of_get? hid)
  | unqueue _ => exact hless _ (Int.natCast_nonneg _) hv
  | reset => exact absurd hv (by simp)

theorem Birth.single {t : ClusterTask} (h : Birth m r ev t v) :
    v.held ≤ 1 ∧ (v.status = .running → v.held = 0) := by
  cases h with
  | submitted hnew _ =>
    simp only [isNewTask,Bool.and_eq_true,decide_eq_true_eq] at hnew
    exact ⟨le_refl _,fun hs => absurd (hnew.1.1.1.1.1.symm.trans hs) (by decide)⟩
  | merged | restored => exact ⟨Int.zero_le_ofNat 1,fun _ => rfl⟩
  | queued =>
    refine ⟨le_refl _,fun h => ?_⟩
    cases h

theorem Birth.registered {t : ClusterTask} (h : Birth m r ev t v) (hev : ∀ t, ev ≠ .submit t)
    (hv : v.registered ∨ 0 < v.held) : v.registered := by
  cases h with
  | submitted => exact absurd rfl (hev _)
  | merged | restored => exact hv.elim id fun h => absurd h (lt_irrefl _)
  | queued => trivial

theorem Move.held_receives {records : List TaskRecord}
    (hmove : Move m r (.receiveSyncedTasks records) v) : v.held = m.held r := by
  cases hmove with
  | requeue _ _ hi _ => exact hi.elim False.elim False.elim
  | _ => rfl

theorem step_listed (hw : m.Wf) (h : machine.step m ev = some m') (hr : r < m.nextRef)
    (hl : m'.Listed r) : m.Listed r :=
  (step_move hw h hr).listed hw (hl.imp (fun h => h) Int.natCast_pos.mpr)

theorem not_listed_restart {now rnd : ℚ} (hw : m.Wf) (hr : r < m.nextRef) :
    ¬(m.restart now rnd).Listed r := by
  have hview : (m.restart now rnd).view r = _ := view_restart hw hr
  rintro (hreg | hheld)
  · exact (congrArg TaskView.registered hview).mp hreg
  · have hzero : ((m.restart now rnd).held r : ℤ) = 0 := congrArg TaskView.held hview
    omega

theorem onePlace_create (config : MasterConfig) (ha : HaState) : (create config ha).OnePlace :=
  ⟨wf_create config ha,fun r hr => absurd hr (Nat.not_lt_zero r),
    fun r hr => absurd hr (Nat.not_lt_zero r)⟩

theorem singleHolder_create (config : MasterConfig) (ha : HaState) :
    (create config ha).SingleHolder :=
  ⟨onePlace_create config ha,fun r hr => absurd hr (Nat.not_lt_zero r)⟩

theorem OnePlace.step (h : m.OnePlace)
    (hG : ∀ id r, ev = .degradeTask id → m.tasks.get? id = some r → m.held r = 0)
    (hstep : machine.step m ev = some m') : m'.OnePlace := by
  have hborn : ∀ r, m.nextRef ≤ r → r < m'.nextRef → m'.held r ≤ 1 ∧
      ((m'.objects r).status = .running → m'.held r = 0) := by
    intro r hr hr'
    obtain ⟨honce,hidle⟩ := (step_birth h.wf hstep hr hr').single
    exact ⟨Int.ofNat_le.mp honce,fun hs => Int.ofNat_eq_zero.mp (hidle hs)⟩
  have hold : ∀ r < m.nextRef, m'.held r ≤ 1 ∧
      ((m'.objects r).status = .running → m'.held r = 0) := by
    intro r hr
    obtain ⟨honce,hidle⟩ := (step_move h.wf hstep hr).single h hr fun id => hG id r
    exact ⟨Int.ofNat_le.mp honce,fun hs => Int.ofNat_eq_zero.mp (hidle hs)⟩
  refine ⟨step_wf h.wf hstep,fun r hr => ?_,fun r hr => ?_⟩
  · rcases Nat.lt_or_ge r m.nextRef with hr' | hr'
    · exact (hold r hr').1
    · exact (hborn r hr' hr).1
  · rcases Nat.lt_or_ge r m.nextRef with hr' | hr'
    · exact (hold r hr').2
    · exact (hborn r hr' hr).2

theorem SingleHolder.step_pair (h : m.SingleHolder) (hG : m.KeepsSingle ev)
    (hstep : machine.step m ev = some m') :
    ∀ r, m.nextRef ≤ r → r < m'.nextRef → ∀ x < m'.nextRef, m'.Listed r → m'.Listed x →
      (m'.objects r).taskId = (m'.objects x).taskId → r = x := by
  intro r hr hr' x hx hlr hlx hid
  have hevolves := step_evolves h.wf hstep
  have hview : ∀ y, m'.Listed y → (m'.view y).registered ∨ 0 < (m'.view y).held :=
    fun y hy => hy.imp (fun h => h) Int.natCast_pos.mpr
  have hregistered : (∀ t, ev ≠ .submit t) → ∀ y, m.nextRef ≤ y → y < m'.nextRef → m'.Listed y →
      m'.Registered y := fun hev y hy hy' hly =>
    (step_birth h.wf hstep hy hy').registered hev (hview y hly)
  have hboth : (∀ t, ev ≠ .submit t) → m'.Registered x → r = x := fun hev hreg =>
    Registered.unique hreg (hregistered hev r hr hr' hlr) hid
  have hbirth := step_birth h.wf hstep hr hr'
  generalize m'.view r = v at hbirth
  generalize ht : m'.objects r = t at hbirth
  cases hbirth with
  | submitted hnew hreq =>
    rcases Nat.lt_or_ge x m.nextRef with hx' | hx'
    · simp only [isNewTask,Bool.and_eq_true,decide_eq_true_eq,List.all_eq_true,
        List.mem_range] at hnew
      rw [ht,(hevolves.job x hx').taskId] at hid
      exact absurd hid.symm (hnew.2 x hx')
    · have hbirth := step_birth h.wf hstep hx' hx
      generalize m'.view x = v at hbirth
      generalize m'.objects x = t' at hbirth
      cases hbirth with
      | submitted _ hxeq => exact hreq.trans hxeq.symm
  | @merged records d _ _ hd haccept ht' =>
    have hev : ∀ t, MasterEvent.receiveSyncedTasks records ≠ .submit t := by
      intro t h
      cases h
    rcases Nat.lt_or_ge x m.nextRef with hx' | hx'
    · refine hlx.elim (hboth hev) fun hheld => ?_
      have hsame := (step_move h.wf hstep hx').held_receives
      have hheld' : 0 < m.held x := by
        rw [← Int.ofNat_inj.mp hsame]
        exact hheld
      rw [ht,ht',(fromDict_spec _ d).1,(hevolves.job x hx').taskId] at hid
      exact absurd hid.symm (hG d hd haccept x hx' hheld')
    · exact hboth hev (hregistered hev x hx' hx hlx)
  | @restored now rnd | @queued now rnd =>
    have hev : ∀ t, MasterEvent.restart now rnd ≠ .submit t := by
      intro t h
      cases h
    rcases Nat.lt_or_ge x m.nextRef with hx' | hx'
    · obtain rfl := Option.some.inj hstep
      exact absurd hlx (not_listed_restart h.wf hx')
    · exact hboth hev (hregistered hev x hx' hx hlx)

theorem SingleHolder.step (h : m.SingleHolder) (hG : m.KeepsSingle ev)
    (hstep : machine.step m ev = some m') : m'.SingleHolder := by
  have hevolves := step_evolves h.wf hstep
  have hpair := h.step_pair hG hstep
  have hone : m'.OnePlace := by
    refine h.toOnePlace.step (fun id r heq hid => ?_) hstep
    subst heq
    exact hG r hid
  refine ⟨hone,fun r hr x hx hlr hlx hid => ?_⟩
  rcases Nat.lt_or_ge r m.nextRef with hr' | hr'
  · rcases Nat.lt_or_ge x m.nextRef with hx' | hx'
    · rw [(hevolves.job r hr').taskId,(hevolves.job x hx').taskId] at hid
      exact h.unique r hr' x hx' (step_listed h.wf hstep hr' hlr) (step_listed h.wf hstep hx' hlx)
        hid
    · exact (hpair x hx' hx r hr hlx hlr hid.symm).symm
  · exact hpair r hr' hr x hx hlr hlx hid

end ClusterMaster
end FusionMultiNodes

import FusionMultiNodes.Master.Effects

/-! Addresses and coroutine numbers in use are allocated, the task table maps ids to tasks of
that id, and the attributes that describe a task never change. -/
namespace FusionMultiNodes

structure SameJob (t t' : ClusterTask) : Prop where
  taskId : t'.taskId = t.taskId
  ownerMaster : t'.ownerMaster = t.ownerMaster
  pinnedNodeId : t'.pinnedNodeId = t.pinnedNodeId
  modelShards : t'.modelShards = t.modelShards
  mode : t'.mode = t.mode
  subTasks : t'.subTasks = t.subTasks
  user : t'.user = t.user

theorem SameJob.refl (t : ClusterTask) : SameJob t t := ⟨rfl,rfl,rfl,rfl,rfl,rfl,rfl⟩

theorem SameJob.trans {t t' t'' : ClusterTask} (h : SameJob t t') (h' : SameJob t' t'') :
    SameJob t t'' :=
  ⟨h'.1.trans h.1,h'.2.trans h.2,h'.3.trans h.3,h'.4.trans h.4,h'.5.trans h.5,h'.6.trans h.6,
    h'.7.trans h.7⟩

namespace ClusterMaster

structure Evolves (m m' : ClusterMaster) : Prop where
  nextRef : m.nextRef ≤ m'.nextRef
  job : ∀ r < m.nextRef, SameJob (m.objects r) (m'.objects r)

structure Wf (m : ClusterMaster) : Prop where
  frame_lt : ∀ cid f, m.frames.get? cid = some f → cid < m.nextFrame
  refs_lt : ∀ cid f, m.frames.get? cid = some f → ∀ r ∈ f.refs, r < m.nextRef
  queue_lt : ∀ r ∈ m.pendingQueue, r < m.nextRef
  retry_lt : ∀ r ∈ m.pendingRetry, r < m.nextRef
  task_lt : ∀ id r, m.tasks.get? id = some r → r < m.nextRef ∧ (m.objects r).taskId = id
  handle : ∀ id c, m.dispatchTasks.get? id = some c → c < m.nextFrame ∧
    ∀ f, m.frames.get? c = some f → ∃ d, f = .dispatch d ∧ (m.objects d.task).taskId = id

/-- A step keeps the state well formed, and tasks keep what describes them. -/
structure Grows (m m' : ClusterMaster) : Prop where
  wf : m.Wf → m'.Wf
  evolves : m.Evolves m'

variable {m m' m'' : ClusterMaster} {r : Ref} {cid : ℕ} {f f' : Frame} {now : ℚ}

theorem Evolves.refl (m : ClusterMaster) : m.Evolves m := ⟨le_refl _,fun _ _ => SameJob.refl _⟩

theorem Evolves.trans (h : m.Evolves m') (h' : m'.Evolves m'') : m.Evolves m'' :=
  ⟨h.1.trans h'.1,fun r hr => (h.2 r hr).trans (h'.2 r (lt_of_lt_of_le hr h.1))⟩

theorem Grows.refl (m : ClusterMaster) : m.Grows m := ⟨id,Evolves.refl m⟩

theorem Grows.trans (h : m.Grows m') (h' : m'.Grows m'') : m.Grows m'' :=
  ⟨fun hw => h'.wf (h.wf hw),h.evolves.trans h'.evolves⟩

theorem Evolves.of_eq (hn : m'.nextRef = m.nextRef) (ho : m'.objects = m.objects) : m.Evolves m' :=
  ⟨hn.ge,fun _ _ => ho ▸ SameJob.refl _⟩

theorem evolves_update {g : ClusterTask} (hn : m'.nextRef = m.nextRef)
    (ho : m'.objects = Function.update m.objects r g) (hg : SameJob (m.objects r) g) :
    m.Evolves m' := by
  refine ⟨hn.ge,fun x _ => ?_⟩
  rw [ho]
  by_cases hx : x = r
  · subst hx
    simpa using hg
  · simpa [hx] using SameJob.refl (m.objects x)

theorem Still.grows (h : m.Still m') : m.Grows m' := by
  refine ⟨fun hw => ?_,.of_eq h.nextRef h.objects⟩
  obtain ⟨h₁,h₂,h₃,h₄,h₅,h₆,h₇,h₈,-,-⟩ := h
  constructor
  · simpa only [h₆,h₇] using hw.frame_lt
  · simpa only [h₆,h₂] using hw.refs_lt
  · simpa only [h₄,h₂] using hw.queue_lt
  · simpa only [h₅,h₂] using hw.retry_lt
  · simpa only [h₃,h₂,h₁] using hw.task_lt
  · simpa only [h₈,h₇,h₆,h₁] using hw.handle

theorem Still.frame (h : m.Still m') (hf : m.frames.get? cid = some f) :
    m'.frames.get? cid = some f := by
  rw [h.frames]
  exact hf

theorem Quiet.grows (h : m.Quiet m') : m.Grows m' := h.still.grows

/-- Change attributes of a task that do not describe it, and register tasks. -/
theorem grows_update {g : ClusterTask} (hn : m'.nextRef = m.nextRef)
    (ho : m'.objects = Function.update m.objects r g) (hg : SameJob (m.objects r) g)
    (hf : m'.frames = m.frames) (hnf : m'.nextFrame = m.nextFrame)
    (hd : m'.dispatchTasks = m.dispatchTasks) (hq : ∀ x ∈ m'.pendingQueue, x ∈ m.pendingQueue ∨ x = r)
    (hretry : ∀ x ∈ m'.pendingRetry, x ∈ m.pendingRetry ∨ x = r)
    (ht : ∀ id x, m'.tasks.get? id = some x → m.tasks.get? id = some x ∨
      (x = r ∧ id = (m.objects r).taskId)) (hr : r < m.nextRef) : m.Grows m' := by
  have hev := evolves_update hn ho hg
  have hid : ∀ x, (m'.objects x).taskId = (m.objects x).taskId := by
    intro x
    rw [ho]
    by_cases hx : x = r
    · subst hx
      simpa using hg.taskId
    · simp [hx]
  refine ⟨fun hw => ?_,hev⟩
  constructor
  · simpa only [hf,hnf] using hw.frame_lt
  · simpa only [hf,hn] using hw.refs_lt
  · intro x hx
    rw [hn]
    rcases hq x hx with hx | rfl
    · exact hw.queue_lt x hx
    · exact hr
  · intro x hx
    rw [hn]
    rcases hretry x hx with hx | rfl
    · exact hw.retry_lt x hx
    · exact hr
  · intro id x hx
    rw [hn,hid]
    rcases ht id x hx with hx | ⟨rfl,rfl⟩
    · exact hw.task_lt id x hx
    · exact ⟨hr,rfl⟩
  · intro id c hc
    rw [hd] at hc
    rw [hnf,hf]
    simpa only [hid] using hw.handle id c hc

theorem grows_modifyTask {g : ClusterTask → ClusterTask} (m : ClusterMaster)
    (hg : SameJob (m.objects r) (g (m.objects r))) (hr : r < m.nextRef) :
    m.Grows (m.modifyTask r g) :=
  grows_update rfl rfl hg rfl rfl rfl (fun _ hx => Or.inl hx) (fun _ hx => Or.inl hx)
    (fun _ _ hx => Or.inl hx) hr

theorem get?_set_cases {d : Dict TaskId Ref} {id : TaskId} {r : Ref} (id' : TaskId) (x : Ref)
    (h : (d.set id r).get? id' = some x) : d.get? id' = some x ∨ (x = r ∧ id' = id) := by
  rw [Dict.get?_set] at h
  split_ifs at h with hid
  · exact Or.inr ⟨(Option.some.inj h).symm,hid⟩
  · exact Or.inl h

theorem mem_insertByPriority {priority : Ref → ℤ} {x : Ref} {l : List Ref}
    (h : x ∈ insertByPriority priority r l) : x ∈ l ∨ x = r := by
  have hc := count_insertByPriority priority r x l
  rw [← List.count_pos_iff] at h ⊢
  by_cases hx : x = r
  · exact Or.inr hx
  · rw [List.count_singleton,if_neg (by simpa using fun he : r = x => hx he.symm)] at hc
    exact Or.inl (by omega)

theorem grows_park (hr : r < m.nextRef) : m.Grows (m.park r) :=
  grows_update rfl rfl ⟨rfl,rfl,rfl,rfl,rfl,rfl,rfl⟩ rfl rfl rfl
    (fun _ hx => mem_insertByPriority hx) (fun _ hx => Or.inl hx) get?_set_cases hr

theorem grows_commit (ns : List NodeId) (now : ℚ) (hr : r < m.nextRef) :
    m.Grows (m.commit r ns now) :=
  grows_update rfl rfl ⟨rfl,rfl,rfl,rfl,rfl,rfl,rfl⟩ rfl rfl rfl
    (fun _ hx => Or.inl hx) (fun _ hx => Or.inl hx) get?_set_cases hr

theorem grows_enqueueRetry (now : ℚ) (hr : r < m.nextRef) : m.Grows (m.enqueueRetry r now) := by
  unfold enqueueRetry
  split_ifs
  · exact grows_modifyTask m ⟨rfl,rfl,rfl,rfl,rfl,rfl,rfl⟩ hr
  · refine grows_update rfl rfl ⟨rfl,rfl,rfl,rfl,rfl,rfl,rfl⟩ rfl rfl rfl
      (fun _ hx => Or.inl hx) (fun x hx => ?_) (fun _ _ hx => Or.inl hx) hr
    simpa using hx

theorem grows_lists {queue retry : List Ref} (hq : m.Wf → ∀ x ∈ queue, x < m.nextRef)
    (hr : m.Wf → ∀ x ∈ retry, x < m.nextRef) :
    m.Grows { m with pendingQueue := queue, pendingRetry := retry } :=
  ⟨fun hw => ⟨hw.frame_lt,hw.refs_lt,hq hw,hr hw,hw.task_lt,hw.handle⟩,.of_eq rfl rfl⟩

theorem grows_alloc {t : ClusterTask} {tasks : Dict TaskId Ref}
    (h : tasks = m.tasks ∨ tasks = m.tasks.set t.taskId m.nextRef) :
    m.Grows { m with
      objects := Function.update m.objects m.nextRef t
      nextRef := m.nextRef+1
      tasks := tasks } := by
  have hold : ∀ x < m.nextRef, Function.update m.objects m.nextRef t x = m.objects x := fun x hx => by
    simp [hx.ne]
  refine ⟨fun hw => ?_,Nat.le_succ _,fun x hx => ?_⟩
  · refine ⟨hw.frame_lt,?_,?_,?_,?_,?_⟩
    · exact fun cid f hf x hx => Nat.lt_succ_of_lt (hw.refs_lt cid f hf x hx)
    · exact fun x hx => Nat.lt_succ_of_lt (hw.queue_lt x hx)
    · exact fun x hx => Nat.lt_succ_of_lt (hw.retry_lt x hx)
    · intro id x hx
      have hcases : m.tasks.get? id = some x ∨ (x = m.nextRef ∧ id = t.taskId) := by
        rcases h with rfl | rfl
        · exact Or.inl hx
        · exact get?_set_cases id x hx
      rcases hcases with hx | ⟨rfl,rfl⟩
      · obtain ⟨hlt,hid⟩ := hw.task_lt id x hx
        exact ⟨Nat.lt_succ_of_lt hlt,by simpa only [hold x hlt] using hid⟩
      · exact ⟨Nat.lt_succ_self _,by simp⟩
    · intro id c hc
      obtain ⟨hlt,hd⟩ := hw.handle id c hc
      refine ⟨hlt,fun f hf => ?_⟩
      obtain ⟨d,rfl,hid⟩ := hd f hf
      have hdlt := hw.refs_lt c _ hf d.task (List.mem_singleton_self _)
      exact ⟨d,rfl,by simpa only [hold _ hdlt] using hid⟩
  · simpa only [hold x hx] using SameJob.refl _

theorem grows_insertRecord (m : ClusterMaster) (d : TaskRecord) : m.Grows (m.insertRecord d) := by
  refine grows_alloc (Or.inr ?_)
  have hid : (d.fromDict m.config.partialRecovery).taskId = d.taskId := by
    unfold TaskRecord.fromDict
    split_ifs <;> rfl
  rw [hid]

theorem grows_filterTasks (p : TaskId → Ref → Bool) :
    m.Grows { m with tasks := m.tasks.filter p } := by
  refine ⟨fun hw => ⟨hw.frame_lt,hw.refs_lt,hw.queue_lt,hw.retry_lt,fun id x hx => ?_,hw.handle⟩,
    .of_eq rfl rfl⟩
  rw [Dict.get?_filter,Option.filter_eq_some_iff] at hx
  exact hw.task_lt id x hx.1

theorem grows_setFrame (h : m.frames.get? cid = some f) (hd : f'.dispatches = f.dispatches)
    (hrefs : m.Wf → ∀ x ∈ f'.refs, x < m.nextRef) : m.Grows (m.setFrame cid f') := by
  refine ⟨fun hw => ?_,.of_eq rfl rfl⟩
  have hcases : ∀ c g, (m.setFrame cid f').frames.get? c = some g →
      (c = cid ∧ g = f') ∨ m.frames.get? c = some g := by
    intro c g hg
    simp only [setFrame,Dict.get?_set] at hg
    split_ifs at hg with hc
    · exact Or.inl ⟨hc,(Option.some.inj hg).symm⟩
    · exact Or.inr hg
  refine ⟨?_,?_,hw.queue_lt,hw.retry_lt,hw.task_lt,?_⟩
  · intro c g hg
    rcases hcases c g hg with ⟨rfl,rfl⟩ | hg
    · exact hw.frame_lt c f h
    · exact hw.frame_lt c g hg
  · intro c g hg
    rcases hcases c g hg with ⟨rfl,rfl⟩ | hg
    · exact hrefs hw
    · exact hw.refs_lt c g hg
  · intro id c hc
    obtain ⟨hlt,hh⟩ := hw.handle id c hc
    refine ⟨hlt,fun g hg => ?_⟩
    rcases hcases c g hg with ⟨rfl,rfl⟩ | hg
    · obtain ⟨d,rfl,hid⟩ := hh f h
      cases g with
      | dispatch d' =>
        have htask : d'.task = d.task := by simpa [Frame.dispatches] using hd
        exact ⟨d',rfl,by rw [← hid]; exact congrArg (fun x => (m.objects x).taskId) htask⟩
      | _ => simp [Frame.dispatches] at hd
    · exact hh g hg

theorem grows_endFrame (m : ClusterMaster) (cid : ℕ) : m.Grows (m.endFrame cid) := by
  refine ⟨fun hw => ?_,.of_eq rfl rfl⟩
  have hold : ∀ c g, (m.endFrame cid).frames.get? c = some g → m.frames.get? c = some g := by
    intro c g hg
    simp only [endFrame,Dict.get?_erase] at hg
    split_ifs at hg
    exact hg
  refine ⟨fun c g hg => hw.frame_lt c g (hold c g hg),fun c g hg => hw.refs_lt c g (hold c g hg),
    hw.queue_lt,hw.retry_lt,hw.task_lt,fun id c hc => ?_⟩
  obtain ⟨hlt,hh⟩ := hw.handle id c hc
  exact ⟨hlt,fun g hg => hh g (hold c g hg)⟩

theorem grows_spawn (hrefs : m.Wf → ∀ x ∈ f.refs, x < m.nextRef) : m.Grows (m.spawn f) := by
  refine ⟨fun hw => ?_,.of_eq rfl rfl⟩
  have hcases : ∀ c g, (m.spawn f).frames.get? c = some g →
      (c = m.nextFrame ∧ g = f) ∨ m.frames.get? c = some g := by
    intro c g hg
    simp only [spawn,Dict.get?_set] at hg
    split_ifs at hg with hc
    · exact Or.inl ⟨hc,(Option.some.inj hg).symm⟩
    · exact Or.inr hg
  refine ⟨?_,?_,hw.queue_lt,hw.retry_lt,hw.task_lt,?_⟩
  · intro c g hg
    rcases hcases c g hg with ⟨rfl,rfl⟩ | hg
    · exact Nat.lt_succ_self _
    · exact Nat.lt_succ_of_lt (hw.frame_lt c g hg)
  · intro c g hg
    rcases hcases c g hg with ⟨rfl,rfl⟩ | hg
    · exact hrefs hw
    · exact hw.refs_lt c g hg
  · intro id c hc
    obtain ⟨hlt,hh⟩ := hw.handle id c hc
    refine ⟨Nat.lt_succ_of_lt hlt,fun g hg => ?_⟩
    rcases hcases c g hg with ⟨rfl,rfl⟩ | hg
    · exact absurd hlt (lt_irrefl _)
    · exact hh g hg

theorem grows_triggerDispatch (hr : r < m.nextRef) : m.Grows (m.triggerDispatch r) := by
  simp only [triggerDispatch]
  split_ifs
  · exact Grows.refl m
  · exact Grows.refl m
  · have hspawn : m.Grows (m.spawn (.dispatch ⟨r,m.attempts (m.objects r).taskId,[],.start⟩)) :=
      grows_spawn fun _ x hx => by
        obtain rfl := List.mem_singleton.mp hx
        exact hr
    refine hspawn.trans ⟨fun hw => ?_,.of_eq rfl rfl⟩
    refine ⟨hw.frame_lt,hw.refs_lt,hw.queue_lt,hw.retry_lt,hw.task_lt,fun id c hc => ?_⟩
    simp only [Dict.get?_set] at hc
    split_ifs at hc with hid
    · obtain rfl := Option.some.inj hc
      refine ⟨Nat.lt_succ_self _,fun g hg => ?_⟩
      simp only [spawn,Dict.get?_set_self,Option.some.injEq] at hg
      exact ⟨_,hg.symm,hid.symm⟩
    · exact hw.handle id c hc

theorem grows_foldl {α : Type} {F : ClusterMaster → α → ClusterMaster} {l : List α}
    (hF : ∀ s, m.nextRef ≤ s.nextRef → ∀ a ∈ l, Grows s (F s a)) : m.Grows (l.foldl F m) := by
  induction l generalizing m with
  | nil => exact Grows.refl m
  | cons a l ih =>
    have ha := hF m (le_refl _) a (List.mem_cons_self ..)
    refine ha.trans (ih fun s hs b hb => hF s (ha.evolves.nextRef.trans hs) b (List.mem_cons_of_mem a hb))

theorem still_releaseTask (m : ClusterMaster) (r : Ref) : m.Still (m.releaseTask r) :=
  ⟨rfl,rfl,rfl,rfl,rfl,rfl,rfl,rfl,rfl,rfl⟩

theorem grows_finalized (o : DispatchOutcome) (now : ℚ) (hr : r < m.nextRef) :
    m.Grows (m.finalized r o now) := by
  have hrelease := (still_releaseTask m r).grows
  unfold finalized
  split_ifs
  · have herror : (m.releaseTask r).Grows
        ((m.releaseTask r).modifyTask r fun t => { t with error := o.error }) :=
      grows_modifyTask _ ⟨rfl,rfl,rfl,rfl,rfl,rfl,rfl⟩ hr
    exact (hrelease.trans herror).trans (grows_enqueueRetry now hr)
  · exact hrelease.trans (grows_modifyTask _ ⟨rfl,rfl,rfl,rfl,rfl,rfl,rfl⟩ hr)

theorem grows_endDispatch (d : Dispatch) (o : DispatchOutcome) (hd : d.task < m.nextRef) :
    m.Grows (m.endDispatch cid d o) := by
  have hset : m.Grows (m.setPrevOutputs d.task o) := by
    unfold setPrevOutputs
    cases o.prevOutputs with
    | none => exact Grows.refl m
    | some outputs => exact grows_modifyTask m ⟨rfl,rfl,rfl,rfl,rfl,rfl,rfl⟩ hd
  exact (hset.trans (grows_endFrame _ cid)).trans
    (Still.grows ⟨rfl,rfl,rfl,rfl,rfl,rfl,rfl,rfl,rfl,rfl⟩)

theorem Wf.ref_lt {x : Ref} (hw : m.Wf) (h : m.frames.get? cid = some f) (hx : x ∈ f.refs) :
    x < m.nextRef :=
  hw.refs_lt cid f h x hx

theorem Wf.reg_lt {id : TaskId} (hw : m.Wf) (h : m.tasks.get? id = some r) : r < m.nextRef :=
  (hw.task_lt id r h).1

theorem Wf.values_lt (hw : m.Wf) (h : r ∈ m.tasks.values) : r < m.nextRef := by
  obtain ⟨id,hid⟩ := Dict.mem_values_iff.mp h
  exact hw.reg_lt hid

theorem grows_dispatch {d : Dispatch} {s : ClusterMaster} (hw : m.Wf)
    (h : m.frames.get? cid = some (.dispatch d)) (he : DispatchEffect m cid d now s) : m.Grows s := by
  have hd : d.task < m.nextRef := hw.ref_lt h (List.mem_singleton_self _)
  have hset : ∀ {s d'}, d'.task = d.task → m.frames = ClusterMaster.frames s →
      m.nextRef = s.nextRef → s.Grows (s.setFrame cid (.dispatch d')) := by
    intro s d' htask hframes hnext
    refine grows_setFrame (f := .dispatch d) (hframes ▸ h) ?_ fun _ x hx => ?_
    · simp only [Frame.dispatches,htask]
    · obtain rfl := List.mem_singleton.mp hx
      rw [htask,← hnext]
      exact hd
  cases he with
  | continues hq hc => exact hq.grows.trans (hset hc.task hq.still.frames.symm hq.still.nextRef.symm)
  | @finalizes r o hpc hr hs =>
    have hfin := grows_finalized o now (hw.reg_lt hr)
    have hkeep : m.frames = (m.finalized r o now).persistTasks.frames ∧
        m.nextRef = (m.finalized r o now).persistTasks.nextRef := by
      simp only [finalized,enqueueRetry]
      split_ifs <;> exact ⟨rfl,rfl⟩
    exact (hfin.trans (quiet_persistTasks _).grows).trans (hset rfl hkeep.1 hkeep.2)
  | stale _ _ => exact grows_endDispatch d _ hd
  | done _ => exact grows_endDispatch d _ hd

theorem grows_cancelOne (reason : String) (hr : r < m.nextRef) : m.Grows (m.cancelOne r reason) :=
  grows_update rfl rfl ⟨rfl,rfl,rfl,rfl,rfl,rfl,rfl⟩ rfl rfl rfl
    (fun _ hx => Or.inl (List.mem_of_mem_filter hx)) (fun _ hx => Or.inl hx)
    (fun _ _ hx => Or.inl hx) hr

theorem grows_cancelSubTasks (reason : String) (fuel : ℕ) (stack : List TaskId) (hw : m.Wf) :
    m.Grows (m.cancelSubTasks reason fuel stack) := by
  fun_induction cancelSubTasks m reason fuel stack with
  | case1 => exact Grows.refl _
  | case2 => exact Grows.refl _
  | case3 m fuel stack id hid hnone ih => exact ih hw
  | case4 m fuel stack id hid r hr hc ih =>
    have hone := grows_cancelOne reason (hw.reg_lt hr)
    exact hone.trans (ih (hone.wf hw))
  | case5 m fuel stack id hid r hr hc ih => exact ih hw

theorem grows_spawnIdle (hf : f.refs = []) : m.Grows (m.spawn f) :=
  grows_spawn fun _ x hx => by simp [hf] at hx

theorem grows_cancelTask {id : TaskId} {reason : String} {subs : Bool} (hw : m.Wf)
    (h : m.tasks.get? id = some r) (hc : isCancellable (m.objects r) = true) :
    m.Grows (m.cancelTask id reason subs) := by
  have hr := hw.reg_lt h
  simp only [cancelTask,h,hc,if_true]
  set m₁ : ClusterMaster := { (m.releaseTask r).modifyTask r fun t =>
    { t with
      cancelReason := if reason = "" then "用户取消" else reason
      assignedNodes := [] } with
    pendingQueue := m.pendingQueue.filter fun q => decide ((m.objects q).taskId ≠ id) }
  have h₁ : m.Grows m₁ := grows_update rfl rfl ⟨rfl,rfl,rfl,rfl,rfl,rfl,rfl⟩ rfl rfl rfl
    (fun _ hx => Or.inl (List.mem_of_mem_filter hx)) (fun _ hx => Or.inl hx)
    (fun _ _ hx => Or.inl hx) hr
  have h₂ : m₁.Grows (if subs = true then m₁.cancelSubTasks ("父任务取消: " ++ id)
      (m.cancelFuel (m.objects r).subTasks) (m.objects r).subTasks else m₁) := by
    split_ifs
    · exact grows_cancelSubTasks _ _ _ (h₁.wf hw)
    · exact Grows.refl _
  generalize (if subs = true then m₁.cancelSubTasks ("父任务取消: " ++ id)
    (m.cancelFuel (m.objects r).subTasks) (m.objects r).subTasks else m₁) = m₂ at h₂
  have h₃ : m₂.Grows (m₂.modifyTask r fun t => { t with status := .cancelled, error := t.cancelReason }) :=
    grows_modifyTask _ ⟨rfl,rfl,rfl,rfl,rfl,rfl,rfl⟩
      (lt_of_lt_of_le hr (h₁.evolves.nextRef.trans h₂.evolves.nextRef))
  exact ((h₁.trans (h₂.trans h₃)).trans (quiet_persistTasks _).grows).trans (grows_spawnIdle rfl)

theorem grows_assignLater {g : ClusterTask → ClusterTask} {k : Caller} (hk : k.rest = [])
    (hg : SameJob (m.objects r) (g (m.objects r))) (hr : r < m.nextRef) :
    m.Grows (((m.releaseTask r).modifyTask r g).spawn (.assign r .guards k)) := by
  have hmod : (m.releaseTask r).Grows ((m.releaseTask r).modifyTask r g) := grows_modifyTask _ hg hr
  refine ((still_releaseTask m r).grows.trans hmod).trans (grows_spawn fun _ x hx => ?_)
  simp only [Frame.refs,hk,List.mem_singleton] at hx
  subst hx
  exact hr

theorem grows_timeoutOne (now : ℚ) (hr : r < m.nextRef) : m.Grows (m.timeoutOne now r) := by
  unfold timeoutOne
  split_ifs
  · have hmod : m.Grows (m.modifyTask r fun t =>
        { t with status := .timeout, error := timeoutText t.timeoutSeconds }) :=
      grows_modifyTask _ ⟨rfl,rfl,rfl,rfl,rfl,rfl,rfl⟩ hr
    exact hmod.trans (grows_enqueueRetry now hr)
  · exact Grows.refl m

theorem grows_refreshOne (offline : List NodeId) (now : ℚ) (hr : r < m.nextRef) :
    m.Grows (m.refreshOne offline now r) := by
  refine Grows.trans (grows_modifyTask m ?_ hr) (grows_enqueueRetry now hr)
  exact ⟨rfl,rfl,rfl,rfl,rfl,rfl,rfl⟩

theorem grows_mergeRecord (m : ClusterMaster) (d : TaskRecord) : m.Grows (m.mergeRecord d) := by
  unfold mergeRecord
  split_ifs
  · exact grows_insertRecord m d
  · exact Grows.refl m

theorem grows_receiveSyncedTasks (m : ClusterMaster) (records : List TaskRecord) :
    m.Grows (m.receiveSyncedTasks records) := by
  have hfold : m.Grows (records.foldl mergeRecord m) := grows_foldl fun s _ d _ => grows_mergeRecord s d
  unfold receiveSyncedTasks
  split_ifs
  · exact hfold.trans (quiet_persistTasks _).grows
  · exact hfold

theorem grows_enqueueRestored (hr : r < m.nextRef) : m.Grows (m.enqueueRestored r) := by
  simp only [enqueueRestored,enqueuePending]
  split_ifs <;> first | exact Grows.refl m | exact grows_park hr

theorem grows_reboot (m : ClusterMaster) (now rnd : ℚ) : m.Grows (m.reboot now rnd) := by
  refine ⟨fun hw => ?_,.of_eq rfl rfl⟩
  constructor <;> simp [reboot]

theorem grows_restoreTasks (m : ClusterMaster) (content : StoreContent) :
    m.Grows (m.restoreTasks content) := by
  have hfold : m.Grows (content.tasks.foldl insertRecord m) :=
    grows_foldl fun s _ d _ => grows_insertRecord s d
  exact hfold.trans (Still.grows ⟨rfl,rfl,rfl,rfl,rfl,rfl,rfl,rfl,rfl,rfl⟩)

theorem grows_restart (now rnd : ℚ) (hw : m.Wf) : m.Grows (m.restart now rnd) := by
  have hboot := grows_reboot m now rnd
  unfold restart
  cases m.store.file with
  | none => exact hboot
  | some content =>
    have hrestore := hboot.trans (grows_restoreTasks (m.reboot now rnd) content)
    refine hrestore.trans (grows_foldl fun s hs r hr => grows_enqueueRestored ?_)
    exact lt_of_lt_of_le ((hrestore.wf hw).values_lt hr) hs

theorem Effect.grows {ev : MasterEvent} (hw : m.Wf) (h : Effect m ev m') : m.Grows m' := by
  cases h with
  | still hs _ => exact hs.grows
  | spawns hs _ hf => exact hs.grows.trans (grows_spawnIdle hf)
  | swaps hq hf ha =>
    refine hq.grows.trans (grows_setFrame (hq.still.frame hf) ?_ fun hw' x hx => ?_)
    · rw [ha.dispatches,ha.dispatches']
    · rw [hq.still.nextRef]
      exact hw.ref_lt hf (ha.refs hx)
  | ends => exact grows_endFrame m _
  | callback =>
    refine ⟨fun _ => ⟨hw.frame_lt,hw.refs_lt,hw.queue_lt,hw.retry_lt,hw.task_lt,fun id c hc => ?_⟩,
      .of_eq rfl rfl⟩
    simp only [Dict.get?_erase] at hc
    split_ifs at hc
    exact hw.handle id c hc
  | submits =>
    refine (grows_alloc (Or.inl rfl)).trans (grows_spawn fun _ x hx => ?_)
    obtain rfl := List.mem_singleton.mp hx
    exact Nat.lt_succ_self _
  | drains hf =>
    refine (grows_lists (fun _ => by simp) fun hw => hw.retry_lt).trans (grows_setFrame hf rfl fun _ => ?_)
    exact hw.queue_lt
  | collects =>
    exact (grows_lists (fun hw => hw.queue_lt) fun _ => by simp).trans (grows_spawn fun _ => hw.retry_lt)
  | @notDue cid now loopNow r rest hf =>
    refine (grows_lists (fun hw => hw.queue_lt) fun hw x hx => ?_).trans (grows_setFrame hf rfl fun _ x hx => ?_)
    · rcases List.mem_append.mp hx with hx | hx
      · exact hw.retry_lt x hx
      · exact hw.ref_lt hf (List.mem_cons.mpr (Or.inl (List.mem_singleton.mp hx)))
    · exact hw.ref_lt hf (List.mem_cons_of_mem r hx)
  | @exhausted cid now loopNow r rest error hf _ _ =>
    have hr := hw.ref_lt hf (List.mem_cons_self ..)
    have hmod : m.Grows (m.modifyTask r fun t => giveUpTask t error) :=
      grows_modifyTask m ⟨rfl,rfl,rfl,rfl,rfl,rfl,rfl⟩ hr
    exact hmod.trans (grows_setFrame hf rfl fun _ x hx => hw.ref_lt hf (List.mem_cons_of_mem r hx))
  | skips hf _ _ => exact grows_setFrame hf rfl fun _ x hx => hw.ref_lt hf hx
  | refuses hq hf _ =>
    refine hq.grows.trans (grows_setFrame (hq.still.frame hf) rfl fun _ x hx => ?_)
    rw [hq.still.nextRef]
    exact hw.ref_lt hf hx
  | parks hq hf _ =>
    have hpark := (grows_park (hw.ref_lt hf (List.mem_cons_self ..))).trans hq.grows
    refine hpark.trans (grows_setFrame (hq.still.frame hf) rfl fun _ x hx => ?_)
    rw [hq.still.nextRef]
    exact hw.ref_lt hf hx
  | @requeues cid now r rest hf =>
    refine (grows_park (hw.ref_lt hf (List.mem_cons_self ..))).trans (grows_setFrame hf rfl fun _ x hx => ?_)
    exact hw.ref_lt hf (List.mem_cons_of_mem r hx)
  | commits _ hq _ hf _ _ =>
    have hcommit := (grows_commit _ _ (hw.ref_lt hf (List.mem_cons_self ..))).trans hq.grows
    refine hcommit.trans (grows_setFrame (hq.still.frame hf) rfl fun _ x hx => ?_)
    rw [hq.still.nextRef]
    exact hw.ref_lt hf hx
  | @triggers cid now r k hf =>
    have htrigger := grows_triggerDispatch (hw.ref_lt hf (List.mem_cons_self ..))
    refine htrigger.trans ?_
    have hkeep : (m.triggerDispatch r).frames.get? cid = some (.assign r .trigger k) ∧
        (m.triggerDispatch r).nextRef = m.nextRef := by
      simp only [triggerDispatch]
      split_ifs
      · exact ⟨hf,rfl⟩
      · exact ⟨hf,rfl⟩
      · refine ⟨?_,rfl⟩
        simp only [spawn]
        rwa [Dict.get?_set_ne _ _ (hw.frame_lt cid _ hf).ne]
    refine grows_setFrame hkeep.1 rfl fun _ x hx => ?_
    rw [hkeep.2]
    exact hw.ref_lt hf hx
  | @retries cid now loopNow r rest hf =>
    have hretry := grows_enqueueRetry now (hw.ref_lt hf (List.mem_cons_self ..))
    have hkeep : (m.enqueueRetry r now).frames = m.frames ∧ (m.enqueueRetry r now).nextRef = m.nextRef := by
      unfold enqueueRetry
      split_ifs <;> exact ⟨rfl,rfl⟩
    refine hretry.trans (grows_setFrame (hkeep.1.symm ▸ hf : _ = some (.assign r _ _)) rfl fun _ x hx => ?_)
    rw [hkeep.2]
    exact hw.ref_lt hf (List.mem_cons_of_mem r hx)
  | fallsBack hf _ =>
    exact (grows_enqueueRetry _ (hw.ref_lt hf (List.mem_cons_self ..))).trans (grows_endFrame _ _)
  | dispatches hf he => exact grows_dispatch hw hf he
  | @replies s cid _ _ d d' _ hq hf hc =>
    have he : DispatchEffect m cid d 0 (s.setFrame cid (.dispatch d')) := .continues hq hc
    exact grows_dispatch hw hf he
  | @completes id error now r hr =>
    simp only [completeTask,hr]
    have hmod : (m.releaseTask r).Grows ((m.releaseTask r).modifyTask r fun t =>
        { t with
          status := if error = "" then .completed else .failed
          completedAt := now
          error := error }) := grows_modifyTask _ ⟨rfl,rfl,rfl,rfl,rfl,rfl,rfl⟩ (hw.reg_lt hr)
    exact ((still_releaseTask m r).grows.trans hmod).trans (grows_spawnIdle rfl)
  | cancels hr hc => exact grows_cancelTask hw hr hc
  | migrates hr hs =>
    simp only [migrateTask,hr,hs,if_true]
    exact grows_assignLater rfl ⟨rfl,rfl,rfl,rfl,rfl,rfl,rfl⟩ (hw.reg_lt hr)
  | degrades hr hs hbudget hsize =>
    simp only [degradeTask,hr,hs,hbudget,hsize,and_self,if_true]
    exact grows_assignLater rfl ⟨rfl,rfl,rfl,rfl,rfl,rfl,rfl⟩ (hw.reg_lt hr)
  | timesOut =>
    exact grows_foldl fun s hs r hr => grows_timeoutOne _ (lt_of_lt_of_le (hw.values_lt hr) hs)
  | refreshes =>
    simp only [refreshTasks]
    split_ifs
    · exact grows_endFrame m _
    · refine Grows.trans (Grows.trans (grows_foldl fun s hs r hr => ?_) (quiet_persistTasks _).grows)
        (grows_endFrame _ _)
      exact grows_refreshOne _ _ (lt_of_lt_of_le (hw.values_lt (List.mem_of_mem_filter hr)) hs)
  | cleans => exact grows_filterTasks _
  | receives => exact grows_receiveSyncedTasks m _
  | restarts => exact grows_restart _ _ hw

theorem step_wf {ev : MasterEvent} (hw : m.Wf) (h : machine.step m ev = some m') : m'.Wf :=
  ((step_effect h).grows hw).wf hw

theorem step_evolves {ev : MasterEvent} (hw : m.Wf) (h : machine.step m ev = some m') : m.Evolves m' :=
  ((step_effect h).grows hw).evolves

theorem wf_create (config : MasterConfig) (ha : HaState) : (create config ha).Wf := by
  constructor <;> simp [create]

end ClusterMaster
end FusionMultiNodes

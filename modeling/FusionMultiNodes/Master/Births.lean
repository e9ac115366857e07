import FusionMultiNodes.Master.Life

/-! Where task objects come from: submission, records of a peer, and the store after a crash. -/
namespace FusionMultiNodes
namespace ClusterMaster

inductive Birth (m : ClusterMaster) (r : Ref) : MasterEvent → ClusterTask → TaskView → Prop
  | submitted {t : ClusterTask} : m.isNewTask t = true → r = m.nextRef →
      Birth m r (.submit t) t ⟨t.status,t.assignedNodes,False,1,0,0,1,(m.view r).launched⟩
  | merged {records : List TaskRecord} {d : TaskRecord} {t : ClusterTask} {reg : Prop} :
      d ∈ records → m.accepts d = true → t = d.fromDict m.config.partialRecovery →
      Birth m r (.receiveSyncedTasks records) t
        ⟨t.status,t.assignedNodes,reg,0,0,0,0,(m.view r).launched⟩
  | restored {now rnd : ℚ} {content : StoreContent} {d : TaskRecord} {t : ClusterTask} {reg : Prop} :
      m.store.file = some content → d ∈ content.tasks → t = d.fromDict m.config.partialRecovery →
      ¬(reg ∧ t.status = .pending) →
      Birth m r (.restart now rnd) t ⟨t.status,t.assignedNodes,reg,0,0,0,0,(m.view r).launched⟩
  | queued {now rnd : ℚ} {content : StoreContent} {d : TaskRecord} {t : ClusterTask} :
      m.store.file = some content → d ∈ content.tasks →
      (d.fromDict m.config.partialRecovery).status = .pending →
      t = { d.fromDict m.config.partialRecovery with status := .pending, assignedNodes := [] } →
      Birth m r (.restart now rnd) t ⟨.pending,[],True,1,0,0,0,(m.view r).launched⟩

variable {m m' s : ClusterMaster} {r x : Ref} {cid : ℕ} {f : Frame} {now : ℚ} {ev : MasterEvent}

theorem birth_submits (hw : m.Wf) {t : ClusterTask} (hnew : m.isNewTask t = true) :
    Birth m m.nextRef (.submit t) ((m.submit t).objects m.nextRef) ((m.submit t).view m.nextRef) := by
  obtain ⟨hreg,hheld,hcommitting,hlive,hfresh⟩ := hw.view_unborn (le_refl m.nextRef)
  set s : ClusterMaster := { m with
    objects := Function.update m.objects m.nextRef t
    nextRef := m.nextRef+1 } with hs
  have hobj : s.objects m.nextRef = t := by simp [hs]
  have hnot : ¬s.Registered m.nextRef := by
    rw [Registered,hobj]
    exact fun h => absurd (hw.reg_lt h) (lt_irrefl _)
  have hparts : s.held m.nextRef = 0 ∧ s.committing m.nextRef = 0 ∧ s.live m.nextRef = 0 ∧
      s.fresh m.nextRef = 0 := ⟨hheld,hcommitting,hlive,hfresh⟩
  have hv : (m.submit t).view m.nextRef =
      ⟨t.status,t.assignedNodes,False,1,0,0,1,(m.view m.nextRef).launched⟩ := by
    rw [submit,← hs,view_spawn (by exact hw.nextFrame_free)]
    ext1 <;> simp [TaskView.gain,Frame.holds,Frame.commits,Frame.dispatches,Frame.fresh,
      AssignPc.isOpen,Caller.rest,view,hobj,hnot,hparts]
    rfl
  rw [show (m.submit t).objects m.nextRef = t from hobj,hv]
  exact .submitted hnew rfl

theorem objects_insertRecords (records : List TaskRecord) (m : ClusterMaster) :
    (records.foldl insertRecord m).config = m.config ∧
      ∀ r, r < (records.foldl insertRecord m).nextRef → m.nextRef ≤ r →
        ∃ d ∈ records, (records.foldl insertRecord m).objects r = d.fromDict m.config.partialRecovery := by
  induction records generalizing m with
  | nil => exact ⟨rfl,fun r h h' => absurd h (not_lt.mpr h')⟩
  | cons d records ih =>
    obtain ⟨hconfig,hrest⟩ := ih (m.insertRecord d)
    refine ⟨hconfig,fun r hr hr' => ?_⟩
    rcases Nat.lt_or_ge r (m.insertRecord d).nextRef with hlt | hge
    · have hreq : r = m.nextRef := Nat.le_antisymm (Nat.le_of_lt_succ hlt) hr'
      have hkeep : ∀ (l : List TaskRecord) (s : ClusterMaster), r < s.nextRef →
          (l.foldl insertRecord s).objects r = s.objects r := by
        intro l
        induction l with
        | nil => exact fun s _ => rfl
        | cons a l ihl =>
          intro s hs
          exact (ihl _ (Nat.lt_succ_of_lt hs)).trans (objects_insertRecord hs)
      refine ⟨d,List.mem_cons_self ..,(hkeep records _ hlt).trans ?_⟩
      simp [insertRecord,hreq]
    · obtain ⟨d',hd',ho⟩ := hrest r hr hge
      exact ⟨d',List.mem_cons_of_mem d hd',ho⟩

/-- Merging brings in accepted records, and leaves coroutines and lists alone. -/
theorem objects_mergeRecords (records : List TaskRecord) (m : ClusterMaster) (hw : m.Wf) :
    (records.foldl mergeRecord m).config = m.config ∧
      (records.foldl mergeRecord m).frames = m.frames ∧
      (records.foldl mergeRecord m).pendingQueue = m.pendingQueue ∧
      (records.foldl mergeRecord m).pendingRetry = m.pendingRetry ∧
      (records.foldl mergeRecord m).launched = m.launched ∧
      ∀ r, r < (records.foldl mergeRecord m).nextRef → m.nextRef ≤ r →
        ∃ d ∈ records, m.accepts d = true ∧
          (records.foldl mergeRecord m).objects r = d.fromDict m.config.partialRecovery := by
  induction records generalizing m with
  | nil => exact ⟨rfl,rfl,rfl,rfl,rfl,fun r h h' => absurd h (not_lt.mpr h')⟩
  | cons d records ih =>
    obtain ⟨h₁,h₂,h₃,h₄,h₅,hrest⟩ := ih (m.mergeRecord d) ((grows_mergeRecord m d).wf hw)
    by_cases ha : m.accepts d = true
    · have hm : m.mergeRecord d = m.insertRecord d := if_pos ha
      rw [List.foldl_cons]
      rw [hm] at h₁ h₂ h₃ h₄ h₅ hrest ⊢
      refine ⟨h₁,h₂,h₃,h₄,h₅,fun r hr hr' => ?_⟩
      rcases Nat.lt_or_ge r (m.insertRecord d).nextRef with hlt | hge
      · have hreq : r = m.nextRef := Nat.le_antisymm (Nat.le_of_lt_succ hlt) hr'
        have hkeep : ∀ (l : List TaskRecord) (s : ClusterMaster), r < s.nextRef →
            (l.foldl mergeRecord s).objects r = s.objects r := by
          intro l
          induction l with
          | nil => exact fun s _ => rfl
          | cons a l ihl =>
            intro s hs
            by_cases hacc : s.accepts a = true
            · rw [List.foldl_cons,show s.mergeRecord a = s.insertRecord a from if_pos hacc]
              exact (ihl _ (Nat.lt_succ_of_lt hs)).trans (objects_insertRecord hs)
            · rw [List.foldl_cons,show s.mergeRecord a = s from if_neg hacc]
              exact ihl s hs
        refine ⟨d,List.mem_cons_self ..,ha,(hkeep records _ hlt).trans ?_⟩
        simp [insertRecord,hreq]
      · obtain ⟨d',hd',hacc,ho⟩ := hrest r hr hge
        by_cases hid : d'.taskId = d.taskId
        · refine ⟨d',List.mem_cons_of_mem d hd',?_,ho⟩
          simpa only [accepts,hid] using ha
        · exact ⟨d',List.mem_cons_of_mem d hd',accepts_insertRecord hw hid ▸ hacc,ho⟩
    · have hm : m.mergeRecord d = m := if_neg ha
      rw [List.foldl_cons]
      rw [hm] at h₁ h₂ h₃ h₄ h₅ hrest ⊢
      refine ⟨h₁,h₂,h₃,h₄,h₅,fun r hr hr' => ?_⟩
      obtain ⟨d',hd',hrec⟩ := hrest r hr hr'
      exact ⟨d',List.mem_cons_of_mem d hd',hrec⟩

theorem birth_receives (hw : m.Wf) {records : List TaskRecord} (hr : m.nextRef ≤ r)
    (hr' : r < (m.receiveSyncedTasks records).nextRef) :
    Birth m r (.receiveSyncedTasks records) ((m.receiveSyncedTasks records).objects r)
      ((m.receiveSyncedTasks records).view r) := by
  have hstill : (records.foldl mergeRecord m).Still (m.receiveSyncedTasks records) := by
    unfold receiveSyncedTasks
    split_ifs
    · exact (quiet_persistTasks _).still
    · exact Still.refl _
  obtain ⟨-,hframes,hqueue,hretry,hlaunched,hobj⟩ := objects_mergeRecords records m hw
  rw [hstill.nextRef] at hr'
  rw [hstill.view,hstill.objects]
  obtain ⟨d,hd,hacc,ho⟩ := hobj r hr' hr
  obtain ⟨-,hheld,hcommitting,hlive,hfresh⟩ := hw.view_unborn hr
  have hv : (records.foldl mergeRecord m).view r =
      ⟨((records.foldl mergeRecord m).objects r).status,
        ((records.foldl mergeRecord m).objects r).assignedNodes,
        (records.foldl mergeRecord m).Registered r,0,0,0,0,(m.view r).launched⟩ := by
    simp only [held,committing,live,fresh,weigh] at hheld hcommitting hlive hfresh
    ext1 <;> simp [view,held,committing,live,fresh,weigh,hframes,hqueue,hretry,hlaunched]
    · omega
    all_goals assumption
  rw [hv]
  exact .merged hd hacc ho

theorem isQueued_eq_false_iff {id : TaskId} :
    m.isQueued id = false ↔ ∀ q ∈ m.pendingQueue, (m.objects q).taskId ≠ id := by
  simp [isQueued]

theorem Registered.park (hr : m.Registered r) (hx : m.Registered x) : (m.park x).Registered r := by
  have hiff := registered_set (r := r) (taskId_park m x) rfl
  by_cases h : r = x
  · exact hiff.mpr (Or.inl h)
  · exact hiff.mpr (Or.inr ⟨hr,fun hid => h (Registered.unique hx hr hid)⟩)

theorem enqueueRestored_eq (m : ClusterMaster) (x : Ref) :
    m.enqueueRestored x =
      if (m.objects x).status = .pending ∧ m.isQueued (m.objects x).taskId = false then m.park x
      else m := by
  simp [enqueueRestored,enqueuePending]

theorem Registered.enqueueRestored (hr : m.Registered r) (hx : m.Registered x) :
    (m.enqueueRestored x).Registered r := by
  rw [enqueueRestored_eq]
  split_ifs
  · exact hr.park hx
  · exact hr

theorem view_enqueueRestored_other (h : r ≠ x) (hx : m.Registered x) :
    (m.enqueueRestored x).view r = m.view r := by
  rw [enqueueRestored_eq]
  split_ifs
  · have hiff : (m.Registered r ∧ (m.objects r).taskId ≠ (m.objects x).taskId) = m.Registered r := by
      simp only [eq_iff_iff,and_iff_left_iff_imp]
      exact fun hr hid => h (Registered.unique hx hr hid)
    rw [view_park_ne h,hiff]
    rfl
  · rfl

theorem view_enqueueRestoreds_other (l : List Ref) (hreg : ∀ x ∈ l, m.Registered x) (hr : r ∉ l) :
    (l.foldl enqueueRestored m).view r = m.view r := by
  induction l generalizing m with
  | nil => rfl
  | cons a l ih =>
    have ha := hreg a (List.mem_cons_self ..)
    have hrest := ih (m := m.enqueueRestored a)
      (fun x hx => (hreg x (List.mem_cons_of_mem a hx)).enqueueRestored ha)
      (fun h => hr (List.mem_cons_of_mem a h))
    exact hrest.trans (view_enqueueRestored_other (fun h => hr (h ▸ List.mem_cons_self ..)) ha)

theorem queued_enqueueRestored (hx : m.Registered x) (hr : m.Registered r) (h : r ≠ x)
    (hq : m.isQueued (m.objects r).taskId = false) :
    (m.enqueueRestored x).isQueued (m.objects r).taskId = false := by
  rw [enqueueRestored_eq]
  split_ifs
  · rw [isQueued_eq_false_iff] at hq ⊢
    intro q hmem
    rw [taskId_park]
    rcases mem_insertByPriority hmem with hmem | rfl
    · exact hq q hmem
    · exact fun hid => h (Registered.unique hx hr hid.symm)
  · exact hq

theorem view_enqueueRestoreds (l : List Ref) (hreg : ∀ x ∈ l, m.Registered x)
    (hqueued : ∀ x ∈ l, m.isQueued (m.objects x).taskId = false) (hl : l.Nodup) (hr : r ∈ l) :
    (l.foldl enqueueRestored m).view r = if (m.objects r).status = .pending then
        { m.view r with status := .pending, nodes := [], held := (m.view r).held+1 }
      else m.view r := by
  induction l generalizing m with
  | nil => simp at hr
  | cons a l ih =>
    obtain ⟨hnot,hl⟩ := List.nodup_cons.mp hl
    have ha := hreg a (List.mem_cons_self ..)
    have hregs : ∀ x ∈ l, (m.enqueueRestored a).Registered x :=
      fun x hx => (hreg x (List.mem_cons_of_mem a hx)).enqueueRestored ha
    rw [List.foldl_cons]
    by_cases hra : r = a
    · subst hra
      rw [view_enqueueRestoreds_other l hregs hnot,enqueueRestored_eq]
      by_cases hs : (m.objects r).status = .pending
      · have hregr : m.Registered r = True := propext (iff_true_intro ha)
        rw [if_pos ⟨hs,hqueued r (List.mem_cons_self ..)⟩,if_pos hs,view_park_self]
        simp [view,hregr]
      · rw [if_neg (fun h => hs h.1),if_neg hs]
    · have hmem : r ∈ l := (List.mem_cons.mp hr).resolve_left hra
      have hview := view_enqueueRestored_other hra ha
      have hids : ∀ y, ((m.enqueueRestored a).objects y).taskId = (m.objects y).taskId := by
        intro y
        rw [enqueueRestored_eq]
        split_ifs
        · exact taskId_park m a y
        · rfl
      have hstatus : ((m.enqueueRestored a).objects r).status = (m.objects r).status :=
        congrArg TaskView.status hview
      rw [ih hregs (fun x hx => ?_) hl hmem,hstatus,hview]
      have hxa : x ≠ a := fun h => hnot (h ▸ hx)
      rw [hids]
      exact queued_enqueueRestored ha (hreg x (List.mem_cons_of_mem a hx)) hxa
        (hqueued x (List.mem_cons_of_mem a hx))

theorem objects_enqueueRestoreds (l : List Ref) (m : ClusterMaster) (r : Ref) :
    (l.foldl enqueueRestored m).objects r = m.objects r ∨
      (l.foldl enqueueRestored m).objects r = { m.objects r with status := .pending, assignedNodes := [] } := by
  induction l generalizing m with
  | nil => exact Or.inl rfl
  | cons a l ih =>
    have hone : (m.enqueueRestored a).objects r = m.objects r ∨
        (m.enqueueRestored a).objects r = { m.objects r with status := .pending, assignedNodes := [] } := by
      rw [enqueueRestored_eq]
      split_ifs
      · by_cases h : r = a
        · subst h
          exact Or.inr (by simp [park,modifyTask])
        · exact Or.inl (by simp [park,modifyTask,h])
      · exact Or.inl rfl
    rw [List.foldl_cons]
    rcases ih (m.enqueueRestored a) with h | h <;> rcases hone with h' | h' <;> rw [h,h'] <;> simp

theorem nextRef_foldl {α : Type} {F : ClusterMaster → α → ClusterMaster}
    (hF : ∀ s a, (F s a).nextRef = s.nextRef) (l : List α) (m : ClusterMaster) :
    (l.foldl F m).nextRef = m.nextRef := by
  induction l generalizing m with
  | nil => rfl
  | cons a l ih => exact (ih (F m a)).trans (hF m a)

theorem nextRef_enqueueRestored (m : ClusterMaster) (x : Ref) :
    (m.enqueueRestored x).nextRef = m.nextRef := by
  rw [enqueueRestored_eq]
  split_ifs <;> rfl

@[simp] theorem nextRef_enqueueRetry (m : ClusterMaster) (x : Ref) (now : ℚ) :
    (m.enqueueRetry x now).nextRef = m.nextRef := by
  unfold enqueueRetry
  split_ifs <;> rfl

@[simp] theorem nextRef_finalized (m : ClusterMaster) (x : Ref) (o : DispatchOutcome) (now : ℚ) :
    (m.finalized x o now).nextRef = m.nextRef := by
  unfold finalized
  split_ifs
  · rw [nextRef_enqueueRetry]
    rfl
  · rfl

@[simp] theorem nextRef_endDispatch (m : ClusterMaster) (cid : ℕ) (d : Dispatch) (o : DispatchOutcome) :
    (m.endDispatch cid d o).nextRef = m.nextRef := by
  unfold endDispatch setPrevOutputs
  cases o.prevOutputs <;> rfl

theorem nextRef_dispatch {d : Dispatch} (he : DispatchEffect m cid d now s) : s.nextRef = m.nextRef := by
  cases he with
  | continues hq _ => exact hq.still.nextRef
  | finalizes _ _ _ => exact nextRef_finalized m _ _ _
  | stale _ _ => exact nextRef_endDispatch m _ _ _
  | done _ => exact nextRef_endDispatch m _ _ _

theorem nextRef_timeoutOne (m : ClusterMaster) (x : Ref) (now : ℚ) :
    (m.timeoutOne now x).nextRef = m.nextRef := by
  unfold timeoutOne
  split_ifs
  · exact nextRef_enqueueRetry _ _ _
  · rfl

theorem nextRef_cancelTask (m : ClusterMaster) (id : TaskId) (reason : String) (subs : Bool) :
    (m.cancelTask id reason subs).nextRef = m.nextRef := by
  rcases cancelTask_shape m id reason subs with h | ⟨_,_,_,_,_,-,h⟩ <;> rw [h]
  rfl

theorem nextRef_refreshTasks (m : ClusterMaster) (cid : ℕ) (offline : List NodeId) (now : ℚ) :
    (m.refreshTasks cid offline now).nextRef = m.nextRef := by
  simp only [refreshTasks]
  split_ifs
  · rfl
  · exact nextRef_foldl (F := fun s r => s.refreshOne offline now r)
      (fun s a => nextRef_enqueueRetry _ a now) _ m

theorem birth_restarts (hw : m.Wf) {rnd : ℚ} (hr : m.nextRef ≤ r)
    (hr' : r < (m.restart now rnd).nextRef) :
    Birth m r (.restart now rnd) ((m.restart now rnd).objects r) ((m.restart now rnd).view r) := by
  unfold restart at hr' ⊢
  cases hfile : m.store.file with
  | none =>
    simp only [hfile] at hr'
    exact absurd hr' (not_lt.mpr hr)
  | some content =>
    simp only [hfile] at hr' ⊢
    set m₁ := (m.reboot now rnd).restoreTasks content with hm₁
    have hw₁ : m₁.Wf :=
      ((grows_reboot m now rnd).trans (grows_restoreTasks (m.reboot now rnd) content)).wf hw
    rw [nextRef_foldl nextRef_enqueueRestored] at hr'
    obtain ⟨-,hrecords⟩ := objects_insertRecords content.tasks (m.reboot now rnd)
    obtain ⟨d,hd,hobj⟩ := hrecords r hr' hr
    change m₁.objects r = d.fromDict m.config.partialRecovery at hobj
    have hempty : m₁.frames = ∅ ∧ m₁.pendingQueue = [] ∧ m₁.pendingRetry = [] ∧
        m₁.launched = m.launched := by
      have hkeep : ∀ (l : List TaskRecord) (s : ClusterMaster),
          (l.foldl insertRecord s).frames = s.frames ∧
          (l.foldl insertRecord s).pendingQueue = s.pendingQueue ∧
          (l.foldl insertRecord s).pendingRetry = s.pendingRetry ∧
          (l.foldl insertRecord s).launched = s.launched := by
        intro l
        induction l with
        | nil => exact fun s => ⟨rfl,rfl,rfl,rfl⟩
        | cons a l ih => exact fun s => ih (s.insertRecord a)
      exact hkeep content.tasks (m.reboot now rnd)
    obtain ⟨hframes,hqueue,hretry,hlaunched⟩ := hempty
    have hv₁ : m₁.view r = ⟨(m₁.objects r).status,(m₁.objects r).assignedNodes,m₁.Registered r,0,0,0,0,
        (m.view r).launched⟩ := by
      ext1 <;> simp [view,held,committing,live,fresh,weigh,hframes,hqueue,hretry,hlaunched]
    have hregs : ∀ x ∈ m₁.tasks.values, m₁.Registered x := fun x hx => hw₁.registered_iff.mp hx
    have hqueued : ∀ x ∈ m₁.tasks.values, m₁.isQueued (m₁.objects x).taskId = false := by
      intro x _
      simp [isQueued,hqueue]
    by_cases hreg : r ∈ m₁.tasks.values
    · have hv := view_enqueueRestoreds m₁.tasks.values hregs hqueued hw₁.values_nodup hreg
      have hregr : m₁.Registered r = True := propext (iff_true_intro (hregs r hreg))
      by_cases hs : (m₁.objects r).status = .pending
      · rw [if_pos hs,hv₁,hregr] at hv
        have hobj' := objects_enqueueRestoreds m₁.tasks.values m₁ r
        have hnodes : ((m₁.tasks.values.foldl enqueueRestored m₁).objects r).assignedNodes = [] :=
          congrArg TaskView.nodes hv
        have htask : (m₁.tasks.values.foldl enqueueRestored m₁).objects r =
            { m₁.objects r with status := .pending, assignedNodes := [] } := by
          rcases hobj' with h | h
          · rw [h] at hnodes ⊢
            rw [← hs,← hnodes]
          · exact h
        rw [hv]
        refine .queued hfile hd (by rw [← hobj]; exact hs) ?_
        rw [htask,hobj]
      · rw [if_neg hs] at hv
        have hobj' : (m₁.tasks.values.foldl enqueueRestored m₁).objects r = m₁.objects r := by
          rcases objects_enqueueRestoreds m₁.tasks.values m₁ r with h | h
          · exact h
          · have hstatus : ((m₁.tasks.values.foldl enqueueRestored m₁).objects r).status =
                (m₁.objects r).status := congrArg TaskView.status hv
            rw [h] at hstatus
            exact absurd hstatus.symm hs
        rw [hv,hv₁,hobj']
        exact .restored hfile hd hobj fun h => hs h.2
    · have hv := view_enqueueRestoreds_other (r := r) m₁.tasks.values hregs hreg
      have hobj' : (m₁.tasks.values.foldl enqueueRestored m₁).objects r = m₁.objects r := by
        have hkeep : ∀ (l : List Ref) (s : ClusterMaster), r ∉ l →
            (l.foldl enqueueRestored s).objects r = s.objects r := by
          intro l
          induction l with
          | nil => exact fun s _ => rfl
          | cons a l ih =>
            intro s hl
            obtain ⟨hne,hl⟩ := not_or.mp (mt List.mem_cons.mpr hl)
            rw [List.foldl_cons,ih _ hl,enqueueRestored_eq]
            split_ifs
            · simp [park,modifyTask,hne]
            · rfl
        exact hkeep _ m₁ hreg
      rw [hv,hv₁,hobj']
      exact .restored hfile hd hobj fun h => hreg (hw₁.registered_iff.mpr h.1)

/-- Each task that is new after a step is submitted, merged or restored in it. -/
theorem step_birth (hw : m.Wf) (h : machine.step m ev = some m') (hr : m.nextRef ≤ r)
    (hr' : r < m'.nextRef) : Birth m r ev (m'.objects r) (m'.view r) := by
  have hsame : m'.nextRef = m.nextRef → Birth m r ev (m'.objects r) (m'.view r) :=
    fun heq => absurd hr' (by rw [heq]; exact not_lt.mpr hr)
  cases step_effect h with
  | submits hnew =>
    have hreq : r = m.nextRef := Nat.le_antisymm (Nat.le_of_lt_succ hr') hr
    subst hreq
    exact birth_submits hw hnew
  | receives => exact birth_receives hw hr hr'
  | restarts => exact birth_restarts hw hr hr'
  | still hs _ => exact hsame hs.nextRef
  | spawns hs _ _ => exact hsame hs.nextRef
  | swaps hq _ _ => exact hsame hq.still.nextRef
  | ends => exact hsame rfl
  | callback => exact hsame rfl
  | drains => exact hsame rfl
  | collects => exact hsame rfl
  | notDue => exact hsame rfl
  | exhausted => exact hsame rfl
  | skips => exact hsame rfl
  | refuses hq _ _ => exact hsame hq.still.nextRef
  | parks hq _ _ => exact hsame hq.still.nextRef
  | requeues => exact hsame rfl
  | commits _ hq _ _ _ _ => exact hsame hq.still.nextRef
  | triggers =>
    refine hsame ?_
    simp only [triggerDispatch]
    split_ifs <;> rfl
  | retries => exact hsame (nextRef_enqueueRetry m _ _)
  | fallsBack => exact hsame (nextRef_enqueueRetry m _ _)
  | dispatches _ he => exact hsame (nextRef_dispatch he)
  | replies hq _ _ => exact hsame hq.still.nextRef
  | completes hx =>
    refine hsame ?_
    simp only [completeTask,hx]
    rfl
  | cancels _ _ => exact hsame (nextRef_cancelTask m _ _ _)
  | migrates hx hs =>
    refine hsame ?_
    simp only [migrateTask,hx,hs,if_true]
    rfl
  | degrades hx hs hbudget hsize =>
    refine hsame ?_
    simp only [degradeTask,hx,hs,hbudget,hsize,and_self,if_true]
    rfl
  | @timesOut now =>
    exact hsame (nextRef_foldl (F := fun s r => s.timeoutOne now r)
      (fun s a => nextRef_timeoutOne s a now) _ m)
  | refreshes _ => exact hsame (nextRef_refreshTasks m _ _ _)
  | cleans => exact hsame rfl

end ClusterMaster
end FusionMultiNodes

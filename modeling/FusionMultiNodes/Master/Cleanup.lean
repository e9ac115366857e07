import FusionMultiNodes.Lib.Trim
import FusionMultiNodes.Master.Absorbing
import FusionMultiNodes.Master.BatchRuns

/-! How many tasks the cleanup of the health loop leaves in the table. -/
namespace FusionMultiNodes

def MasterEvent.isCleanup : MasterEvent → Bool
  | .cleanupCompletedTasks => true
  | _ => false

theorem MasterEvent.isCleanup_iff {ev : MasterEvent} :
    ev.isCleanup = true ↔ ev = .cleanupCompletedTasks := by
  cases ev <;> simp [isCleanup]

/-- The statuses that are either counted or final, but not both. -/
theorem isCleaned_ne_isTerminal_iff {s : TaskStatus} :
    ClusterMaster.isCleaned s ≠ s.isTerminal ↔ s = .cancelled ∨ s = .timeout ∨ s = .migrated := by
  cases s <;> decide

namespace ClusterMaster

/-- `_cleanup_completed_tasks` counts the task of the id. -/
def isCleanedId (m : ClusterMaster) (id : TaskId) : Bool :=
  (m.task? id).any fun t => isCleaned t.status

/-- The task of the id is `COMPLETED`, `PARTIAL`, `FAILED` or `CANCELLED`. -/
def isTerminalId (m : ClusterMaster) (id : TaskId) : Bool :=
  (m.task? id).any fun t => t.status.isTerminal

def terminalCount (m : ClusterMaster) : ℕ := m.tasks.keys.countP m.isTerminalId

def activeCount (m : ClusterMaster) : ℕ := m.tasks.keys.countP fun id => !m.isTerminalId id

/-- The cleanup removes only final tasks, those that stand first in the table, and leaves no more
of them than configured. -/
structure CleansOldest (m : ClusterMaster) : Prop where
  only : ∀ a ∈ m.tasks.keys, a ∉ m.cleanupCompletedTasks.tasks.keys → m.isTerminalId a = true
  first : ∀ a ∈ m.tasks.keys, a ∉ m.cleanupCompletedTasks.tasks.keys →
    ∀ b ∈ m.cleanupCompletedTasks.tasks.keys, m.isTerminalId b = true →
      m.tasks.keys.idxOf a < m.tasks.keys.idxOf b
  bounded : m.cleanupCompletedTasks.terminalCount ≤ m.config.maxCompletedTasks

/-- No more counted tasks than are kept stand from a `CANCELLED`, `TIMEOUT` or `MIGRATED` task on,
and there are no more final tasks than counted ones, or than are kept. -/
structure Cleanable (m : ClusterMaster) : Prop where
  apart : ∀ id ∈ m.tasks.keys, ∀ t ∈ m.task? id,
    t.status = .cancelled ∨ t.status = .timeout ∨ t.status = .migrated →
      (m.tasks.keys.drop (m.tasks.keys.idxOf id)).countP m.isCleanedId ≤ m.config.maxCompletedTasks
  bounded : m.terminalCount ≤ max (m.tasks.keys.countP m.isCleanedId) m.config.maxCompletedTasks

variable {m m' : ClusterMaster} {ev : MasterEvent} {id : TaskId}

theorem terminalCount_add_activeCount (m : ClusterMaster) :
    m.terminalCount+m.activeCount = m.tasks.keys.length := by
  rw [terminalCount,activeCount,m.tasks.keys.length_eq_countP_add_countP m.isTerminalId]
  simp only [Bool.not_eq_true,Bool.decide_eq_false]

theorem keys_cleanup (m : ClusterMaster) : m.cleanupCompletedTasks.tasks.keys =
    trimFirst m.isCleanedId m.config.maxCompletedTasks m.tasks.keys :=
  Dict.keys_filter m.tasks _

theorem cleanup_keys_sublist (m : ClusterMaster) :
    m.cleanupCompletedTasks.tasks.keys.Sublist m.tasks.keys := by
  rw [keys_cleanup]
  exact List.filter_sublist

theorem task?_cleanup (h : id ∈ m.cleanupCompletedTasks.tasks.keys) :
    m.cleanupCompletedTasks.task? id = m.task? id := by
  obtain ⟨r,hr⟩ := Dict.mem_keys_iff.mp h
  have hkept := hr
  rw [cleanupCompletedTasks,Dict.get?_filter] at hkept
  simp only [task?,hr]
  cases hid : m.tasks.get? id with
  | none => simp [hid] at hkept
  | some x =>
    obtain ⟨hx,-⟩ := Option.filter_eq_some_iff.mp (hid ▸ hkept)
    rw [Option.some.inj hx]
    rfl

theorem isTerminalId_cleanup (h : id ∈ m.cleanupCompletedTasks.tasks.keys) :
    m.cleanupCompletedTasks.isTerminalId id = m.isTerminalId id := by
  rw [isTerminalId,task?_cleanup h,isTerminalId]

theorem mem_removed_iff (m : ClusterMaster) (a : TaskId) :
    (a ∈ m.tasks.keys ∧ a ∉ m.cleanupCompletedTasks.tasks.keys) ↔
      a ∈ trimmed m.isCleanedId m.config.maxCompletedTasks m.tasks.keys := by
  rw [keys_cleanup,mem_trimFirst]
  have hsub : a ∈ trimmed m.isCleanedId m.config.maxCompletedTasks m.tasks.keys →
      a ∈ m.tasks.keys := fun h => trimmed_sublist.subset h
  tauto

theorem cleansOldest_iff_trimsFirst (m : ClusterMaster) : m.CleansOldest ↔
    TrimsFirst m.isCleanedId m.isTerminalId m.config.maxCompletedTasks m.tasks.keys := by
  have hcount : m.cleanupCompletedTasks.terminalCount =
      m.cleanupCompletedTasks.tasks.keys.countP m.isTerminalId :=
    List.countP_congr fun id hid => by rw [isTerminalId_cleanup hid]
  constructor
  · intro h
    refine ⟨fun a ha => ?_,fun a ha b hb => ?_,?_⟩
    · obtain ⟨hmem,hgone⟩ := (mem_removed_iff m a).mpr ha
      exact h.only a hmem hgone
    · obtain ⟨hmem,hgone⟩ := (mem_removed_iff m a).mpr ha
      exact h.first a hmem hgone b (keys_cleanup m ▸ hb)
    · rw [← keys_cleanup,← hcount]
      exact h.bounded
  · intro h
    refine ⟨fun a ha hgone => ?_,fun a ha hgone b hb => ?_,?_⟩
    · exact h.only a ((mem_removed_iff m a).mp ⟨ha,hgone⟩)
    · exact h.first a ((mem_removed_iff m a).mp ⟨ha,hgone⟩) b (keys_cleanup m ▸ hb)
    · rw [hcount,keys_cleanup]
      exact h.bounded

theorem cleansOldest_iff (m : ClusterMaster) : m.CleansOldest ↔ m.Cleanable := by
  have hkinds : ∀ id, m.isCleanedId id ≠ m.isTerminalId id ↔ ∃ t ∈ m.task? id,
      t.status = .cancelled ∨ t.status = .timeout ∨ t.status = .migrated := by
    intro id
    simp only [isCleanedId,isTerminalId]
    cases m.task? id with
    | none => simp
    | some t => simpa using isCleaned_ne_isTerminal_iff (s := t.status)
  have hnodup : m.tasks.keys.Nodup := m.tasks.nodup
  rw [cleansOldest_iff_trimsFirst,trimsFirst_iff hnodup]
  constructor
  · rintro ⟨hapart,hbounded⟩
    exact ⟨fun id hid t ht hs => hapart id hid ((hkinds id).mpr ⟨t,ht,hs⟩),hbounded⟩
  · intro h
    refine ⟨fun id hid hne => ?_,h.bounded⟩
    obtain ⟨t,ht,hs⟩ := (hkinds id).mp hne
    exact h.apart id hid t ht hs

theorem TableStep.keys_prefix (h : TableStep m ev m') (hrestart : ev.isRestart = false)
    (hcleanup : ev.isCleanup = false) : m.tasks.keys <+: m'.tasks.keys := by
  cases h with
  | same hs => rw [hs]
  | puts _ _ hs =>
    rw [hs]
    exact Dict.keys_prefix_set _ _ _
  | cleans => exact nomatch hcleanup
  | @receives records _ hs =>
    rw [hs]
    clear hs hrestart hcleanup
    induction records generalizing m with
    | nil => exact List.prefix_refl _
    | cons d records ih =>
      refine List.IsPrefix.trans ?_ ih
      rcases tasks_mergeRecord m d with ht | ht
      · rw [ht]
      · rw [ht]
        exact Dict.keys_prefix_set _ _ _
  | restarts => exact nomatch hrestart

/-- The tasks that are final after a step and were not before it. -/
def endedCount (m m' : ClusterMaster) : ℕ :=
  m'.tasks.keys.countP fun id => m'.isTerminalId id && !m.isTerminalId id

theorem isTerminalId_mem (h : m.isTerminalId id = true) : id ∈ m.tasks.keys := by
  rw [isTerminalId,task?] at h
  cases hid : m.tasks.get? id with
  | none => simp [hid] at h
  | some r => exact Dict.mem_keys_iff.mpr ⟨r,hid⟩

theorem terminalCount_le (m m' : ClusterMaster) :
    m'.terminalCount ≤ m.terminalCount+m.endedCount m' := by
  have hnodup : m'.tasks.keys.Nodup := m'.tasks.nodup
  have hold : m'.tasks.keys.countP (fun id => m'.isTerminalId id && m.isTerminalId id) ≤
      m.terminalCount := by
    rw [terminalCount,List.countP_eq_length_filter,List.countP_eq_length_filter]
    refine ((hnodup.filter _).subperm fun id hid => ?_).length_le
    have hterminal : m.isTerminalId id = true := by
      have hboth := (List.mem_filter.mp hid).2
      rw [Bool.and_eq_true] at hboth
      exact hboth.2
    exact List.mem_filter.mpr ⟨isTerminalId_mem hterminal,hterminal⟩
  have hsplit : m'.terminalCount =
      m'.tasks.keys.countP (fun id => m'.isTerminalId id && m.isTerminalId id)+m.endedCount m' := by
    rw [terminalCount,endedCount]
    induction m'.tasks.keys with
    | nil => rfl
    | cons id keys ih =>
      simp only [List.countP_cons]
      cases m'.isTerminalId id <;> cases m.isTerminalId id <;> simp <;> omega
  omega

/-- A master, and for its task table: the number of steps so far, the step in which each task
entered the table, and how many tasks have become final since the last cleanup. -/
structure TableWatch where
  master : ClusterMaster
  clock : ℕ
  entered : TaskId → ℕ
  ended : ℕ

namespace TableWatch

def create (config : MasterConfig) (ha : HaState) : TableWatch :=
  ⟨ClusterMaster.create config ha,0,fun _ => 0,0⟩

/-- The time of entry after a step; a new process fills its table anew. -/
def enteredAfter (w : TableWatch) (ev : MasterEvent) (id : TaskId) : ℕ :=
  if w.master.tasks.contains id = true ∧ ev.isRestart = false then w.entered id else w.clock+1

def step (w : TableWatch) (ev : MasterEvent) : Option TableWatch :=
  (w.master.step ev).map fun m' =>
    { master := m'
      clock := w.clock+1
      entered := w.enteredAfter ev
      ended := if ev.isCleanup then 0 else w.ended+w.master.endedCount m' }

def watch : Machine TableWatch MasterEvent := ⟨step⟩

def Meets (w : TableWatch) (ev : MasterEvent) : Prop := ev.isCleanup = true → w.master.Cleanable

structure Ordered (w : TableWatch) : Prop where
  le_clock : ∀ id ∈ w.master.tasks.keys, w.entered id ≤ w.clock
  sorted : w.master.tasks.keys.Pairwise fun a b => w.entered a ≤ w.entered b

/-- The table has no more final tasks than are kept, apart from those that became final since the
last cleanup. -/
def Bounded (w : TableWatch) : Prop :=
  w.master.terminalCount ≤ w.master.config.maxCompletedTasks+w.ended

variable {w w' : TableWatch} {ev : MasterEvent} {config : MasterConfig} {ha : HaState}
  {a b id : TaskId}

theorem enteredAfter_of_mem (hrestart : ev.isRestart = false) (h : id ∈ w.master.tasks.keys) :
    w.enteredAfter ev id = w.entered id := by
  obtain ⟨r,hr⟩ := Dict.mem_keys_iff.mp h
  simp [enteredAfter,Dict.contains,hr,hrestart]

theorem enteredAfter_of_not_mem (h : id ∉ w.master.tasks.keys) :
    w.enteredAfter ev id = w.clock+1 := by
  simp [enteredAfter,Dict.contains,Dict.get?_eq_none_iff.mpr h]

theorem Ordered.enteredAfter_le (ho : w.Ordered) (ev : MasterEvent) (id : TaskId) :
    w.enteredAfter ev id ≤ w.clock+1 := by
  unfold enteredAfter
  split_ifs with hc
  · obtain ⟨r,hr⟩ := Option.isSome_iff_exists.mp hc.1
    have hclock := ho.le_clock id (Dict.mem_keys_iff.mpr ⟨r,hr⟩)
    omega
  · exact Nat.le_refl _

theorem Ordered.step (ho : w.Ordered) (h : watch.step w ev = some w') : w'.Ordered := by
  obtain ⟨m',hm,rfl⟩ := Option.map_eq_some_iff.mp h
  suffices hafter : m'.tasks.keys.Pairwise fun a b => w.enteredAfter ev a ≤ w.enteredAfter ev b from
    ⟨fun id _ => ho.enteredAfter_le ev id,hafter⟩
  cases hrestart : ev.isRestart with
  | true => exact List.pairwise_of_forall fun a b => by simp [enteredAfter,hrestart]
  | false =>
    have hsorted : w.master.tasks.keys.Pairwise fun a b =>
        w.enteredAfter ev a ≤ w.enteredAfter ev b := by
      refine ho.sorted.imp_of_mem fun {a b} ha hb hab => ?_
      rwa [enteredAfter_of_mem hrestart ha,enteredAfter_of_mem hrestart hb]
    cases hcleanup : ev.isCleanup with
    | true =>
      obtain rfl := MasterEvent.isCleanup_iff.mp hcleanup
      obtain rfl := Option.some.inj hm
      exact hsorted.sublist (cleanup_keys_sublist w.master)
    | false =>
      have hnodup : m'.tasks.keys.Nodup := m'.tasks.nodup
      obtain ⟨new,hnew⟩ := (step_effect hm).tableStep.keys_prefix hrestart hcleanup
      have hentered : ∀ id ∈ new, w.enteredAfter ev id = w.clock+1 := fun id hid =>
        enteredAfter_of_not_mem fun hmem =>
          (List.nodup_append.mp (hnew ▸ hnodup)).2.2 id hmem id hid rfl
      rw [← hnew]
      refine List.pairwise_append.mpr ⟨hsorted,?_,fun a _ b hb => ?_⟩
      · refine (List.pairwise_of_forall fun _ _ => trivial).imp_of_mem fun {a b} ha hb _ => ?_
        rw [hentered a ha,hentered b hb]
      · rw [hentered b hb]
        exact ho.enteredAfter_le ev a

theorem Bounded.step (hb : w.Bounded) (hmeets : w.Meets ev)
    (h : watch.step w ev = some w') : w'.Bounded := by
  obtain ⟨m',hm,rfl⟩ := Option.map_eq_some_iff.mp h
  have hconfig : m'.config = w.master.config := step_config hm
  simp only [Bounded,hconfig]
  split_ifs with hcleanup
  · have hclean := (cleansOldest_iff w.master).mpr (hmeets hcleanup)
    obtain rfl := MasterEvent.isCleanup_iff.mp hcleanup
    obtain rfl := Option.some.inj hm
    exact hclean.bounded
  · have hle := terminalCount_le w.master m'
    have hbefore : w.master.terminalCount ≤ w.master.config.maxCompletedTasks+w.ended := hb
    omega

/-- What every run keeps whose cleanups find a table they clean as they should. -/
theorem reaches_bounded (h : watch.Reaches Meets (create config ha) w) :
    w.Ordered ∧ w.Bounded ∧ w.master.config = config := by
  refine h.invariant (I := fun w => w.Ordered ∧ w.Bounded ∧ w.master.config = config) ?_ ?_
  · rintro w ev w' ⟨ho,hb,hconfig⟩ hmeets hstep
    refine ⟨ho.step hstep,hb.step hmeets hstep,?_⟩
    obtain ⟨m',hm,rfl⟩ := Option.map_eq_some_iff.mp hstep
    exact (step_config hm).trans hconfig
  · refine ⟨⟨fun id hid => ?_,?_⟩,?_,rfl⟩
    · exact absurd hid List.not_mem_nil
    · exact List.Pairwise.nil
    · exact Nat.zero_le _

/-- What stands before another task in the table has not entered it later. -/
theorem Ordered.entered_le (ho : w.Ordered) (hb : b ∈ w.master.tasks.keys)
    (h : w.master.tasks.keys.idxOf a < w.master.tasks.keys.idxOf b) :
    w.entered a ≤ w.entered b := by
  have hlength := List.idxOf_lt_length_of_mem hb
  have hsorted := List.pairwise_iff_getElem.mp ho.sorted _ _ (h.trans hlength) hlength h
  rwa [List.getElem_idxOf,List.getElem_idxOf] at hsorted

end TableWatch

/-- The cleanup does what it should exactly on the tables where `CANCELLED`, `TIMEOUT` and
`MIGRATED` tasks do not make a difference. In a run that cleans only such tables, the table is
bounded by the number of final tasks that are kept and the tasks that are not final. -/
theorem cleanup_bounds_table (m : ClusterMaster) (config : MasterConfig) (ha : HaState)
    (w : TableWatch) :
    (m.CleansOldest ↔ m.Cleanable) ∧
      (TableWatch.watch.Reaches TableWatch.Meets (.create config ha) w →
        w.master.tasks.keys.length ≤ config.maxCompletedTasks+w.master.activeCount+w.ended ∧
          ∀ w', TableWatch.watch.step w .cleanupCompletedTasks = some w' → w.master.Cleanable →
            w'.master.tasks.keys.length ≤ config.maxCompletedTasks+w'.master.activeCount ∧
              ∀ a ∈ w.master.tasks.keys, a ∉ w'.master.tasks.keys →
                w.master.isTerminalId a = true ∧ ∀ b ∈ w'.master.tasks.keys,
                  w'.master.isTerminalId b = true → w.entered a ≤ w.entered b) := by
  refine ⟨cleansOldest_iff m,fun hw => ?_⟩
  have hlength : ∀ {w : TableWatch}, w.Bounded → w.master.config = config →
      w.master.tasks.keys.length ≤ config.maxCompletedTasks+w.master.activeCount+w.ended := by
    intro w hb hconfig
    have hsum := terminalCount_add_activeCount w.master
    have hb' : w.master.terminalCount ≤ config.maxCompletedTasks+w.ended := hconfig ▸ hb
    omega
  obtain ⟨ho,hb,hconfig⟩ := TableWatch.reaches_bounded hw
  refine ⟨hlength hb hconfig,fun w' hstep hclean => ?_⟩
  have holdest := (cleansOldest_iff w.master).mpr hclean
  obtain ⟨-,hb',hconfig'⟩ := TableWatch.reaches_bounded (hw.tail (fun _ => hclean) hstep)
  obtain rfl := Option.some.inj hstep
  refine ⟨hlength hb' hconfig',fun a ha hgone => ⟨holdest.only a ha hgone,fun b hb ht => ?_⟩⟩
  refine ho.entered_le ((cleanup_keys_sublist w.master).subset hb) ?_
  exact holdest.first a ha hgone b hb (isTerminalId_cleanup hb ▸ ht)

def nthTask (n : ℕ) : TaskId := String.ofList (List.replicate (n+1) 't')

theorem nthTask_injective : Function.Injective nthTask := by
  intro a b h
  have hlength := congrArg List.length (String.ofList_injective h)
  simpa using hlength

/-- The waiting tasks of a peer are taken over, and cancelled one after the other. -/
def cancelRun (n : ℕ) : List MasterEvent :=
  .receiveSyncedTasks ((List.range n).map fun i => (plainTask (nthTask i)).toDict) ::
    (List.range n).map fun i => .cancelTask (nthTask i) "" true

/-- The table lists `n` tasks; the first `k` are cancelled and the others wait. -/
structure Lists (m : ClusterMaster) (n k : ℕ) : Prop where
  keys : m.tasks.keys = (List.range n).map nthTask
  get? : ∀ i < n, m.tasks.get? (nthTask i) = some i
  cancelled : ∀ i < k, (m.objects i).status = .cancelled
  waiting : ∀ i, k ≤ i → i < n → (m.objects i).status = .pending ∧ (m.objects i).subTasks = []

theorem lists_mergeRecords (config : MasterConfig) (ha : HaState) (n : ℕ) :
    let m := ((List.range n).map fun i => (plainTask (nthTask i)).toDict).foldl mergeRecord
      (create config ha)
    m.nextRef = n ∧ m.Lists n 0 := by
  induction n with
  | zero =>
    have hnone : ∀ {P : Prop} {i : ℕ}, i < 0 → P := fun hi => absurd hi (Nat.not_lt_zero _)
    exact ⟨rfl,rfl,fun _ hi => hnone hi,fun _ hi => hnone hi,fun _ _ hi => hnone hi⟩
  | succ n ih =>
    obtain ⟨hnext,hlists⟩ := ih
    simp only [List.range_succ,List.map_append,List.foldl_append,List.map_cons,List.map_nil,
      List.foldl_cons,List.foldl_nil]
    generalize ((List.range n).map fun i => (plainTask (nthTask i)).toDict).foldl mergeRecord
      (create config ha) = m at hnext hlists
    have hnew : nthTask n ∉ m.tasks.keys := by
      rw [hlists.keys,List.mem_map]
      rintro ⟨i,hi,heq⟩
      exact absurd (nthTask_injective heq) (List.mem_range.mp hi).ne
    have haccepts : m.accepts (plainTask (nthTask n)).toDict = true := by
      have hnone : m.task? (nthTask n) = none := by
        rw [task?,Dict.get?_eq_none_iff.mpr hnew,Option.map_none]
      simp only [accepts,ClusterTask.toDict,plainTask,hnone]
    rw [mergeRecord,if_pos haccepts]
    refine ⟨congrArg (·+1) hnext,?_,fun i hi => ?_,
      fun i hi => absurd hi (Nat.not_lt_zero i),fun i _ hi => ?_⟩
    · refine (Dict.keys_set_of_not_mem _ hnew).trans ?_
      rw [hlists.keys,List.range_succ,List.map_append]
      rfl
    · refine (Dict.get?_set _ _ _ _).trans ?_
      split_ifs with heq
      · rw [hnext,nthTask_injective heq]
      · have hne : i ≠ n := fun h => heq (h ▸ rfl)
        exact hlists.get? i (by omega)
    · by_cases heq : i = n
      · subst heq
        simp only [insertRecord,hnext,Function.update_self]
        exact ⟨rfl,rfl⟩
      · simp only [insertRecord,hnext,Function.update_of_ne heq]
        exact hlists.waiting i (Nat.zero_le _) (by omega)

theorem cancelSubTasks_nil (m : ClusterMaster) (reason : String) (fuel : ℕ) :
    m.cancelSubTasks reason fuel [] = m := by
  cases fuel <;> rfl

theorem Lists.cancel {n k : ℕ} (h : m.Lists n k) (hk : k < n) :
    (m.cancelTask (nthTask k) "" true).Lists n (k+1) := by
  obtain ⟨hs,hsub⟩ := h.waiting k (Nat.le_refl _) hk
  have hobjects : (m.cancelTask (nthTask k) "" true).objects = Function.update m.objects k
      { m.objects k with
        assignedNodes := []
        status := .cancelled
        cancelReason := "用户取消"
        error := "用户取消" } := by
    simp only [cancelTask,h.get? k hk,isCancellable,hs,hsub,cancelSubTasks_nil]
    simp [modifyTask,releaseTask,persistTasks,spawn,hsub]
  have htasks := tasks_cancelTask m (nthTask k) "" true
  refine ⟨htasks ▸ h.keys,htasks ▸ h.get?,fun i hi => ?_,fun i hi hn => ?_⟩
  · rw [hobjects]
    by_cases heq : i = k
    · rw [heq,Function.update_self]
    · rw [Function.update_of_ne heq]
      exact h.cancelled i (by omega)
  · have hne : i ≠ k := by omega
    rw [hobjects,Function.update_of_ne hne]
    exact h.waiting i (by omega) hn

theorem exec_cancelRun (config : MasterConfig) (ha : HaState) (n : ℕ) :
    ∃ m, machine.exec (create config ha) (cancelRun n) = some m ∧ m.Lists n n := by
  have hcancels : ∀ k ≤ n, ∃ m, machine.exec (create config ha)
      (.receiveSyncedTasks ((List.range n).map fun i => (plainTask (nthTask i)).toDict) ::
        (List.range k).map fun i => .cancelTask (nthTask i) "" true) = some m ∧ m.Lists n k := by
    intro k hk
    induction k with
    | zero =>
      refine ⟨_,rfl,?_⟩
      obtain ⟨-,hlists⟩ := lists_mergeRecords config ha n
      unfold receiveSyncedTasks
      split_ifs
      · exact ⟨hlists.keys,hlists.get?,hlists.cancelled,hlists.waiting⟩
      · exact hlists
    | succ k ih =>
      obtain ⟨m,hm,hlists⟩ := ih (by omega)
      refine ⟨_,?_,hlists.cancel hk⟩
      rw [List.range_succ,List.map_append]
      exact Machine.exec_concat hm rfl
  exact hcancels n (Nat.le_refl n)

theorem Lists.cleanup {n : ℕ} (h : m.Lists n n) :
    m.cleanupCompletedTasks.tasks.keys.length = n ∧ m.cleanupCompletedTasks.activeCount = 0 ∧
      m.cleanupCompletedTasks.terminalCount = n := by
  have htask : ∀ id ∈ m.tasks.keys, ∃ t, m.task? id = some t ∧ t.status = .cancelled := by
    intro id hid
    rw [h.keys,List.mem_map] at hid
    obtain ⟨i,hi,rfl⟩ := hid
    have hin := List.mem_range.mp hi
    exact ⟨m.objects i,by rw [task?,h.get? i hin,Option.map_some],h.cancelled i hin⟩
  have hkeys : m.cleanupCompletedTasks.tasks.keys = m.tasks.keys := by
    rw [keys_cleanup]
    refine trimFirst_eq_self ?_
    have hnone : m.tasks.keys.countP m.isCleanedId = 0 := by
      refine List.countP_eq_zero.mpr fun id hid => ?_
      obtain ⟨t,ht,hs⟩ := htask id hid
      simp [isCleanedId,ht,hs,isCleaned]
    omega
  have hlength : m.cleanupCompletedTasks.tasks.keys.length = n := by
    rw [hkeys,h.keys,List.length_map,List.length_range]
  have hterminal : m.cleanupCompletedTasks.terminalCount =
      m.cleanupCompletedTasks.tasks.keys.length := by
    refine List.countP_eq_length.mpr fun id hid => ?_
    obtain ⟨t,ht,hs⟩ := htask id (hkeys ▸ hid)
    rw [isTerminalId_cleanup hid]
    simp [isTerminalId,ht,hs,TaskStatus.isTerminal]
  have hsum := terminalCount_add_activeCount m.cleanupCompletedTasks
  omega

/-- A thousand tasks are kept; a thousand and one cancelled ones stay. -/
theorem cleanup_keeps_cancelled :
    ∃ m, machine.exec (create defaultConfig .create) (cancelRun 1001) = some m ∧
      ¬m.CleansOldest ∧ m.cleanupCompletedTasks.tasks.keys.length = 1001 ∧
      m.config.maxCompletedTasks+m.cleanupCompletedTasks.activeCount = 1000 := by
  obtain ⟨m,hm,hlists⟩ := exec_cancelRun defaultConfig .create 1001
  obtain ⟨hlength,hactive,hterminal⟩ := hlists.cleanup
  have hconfig : m.config = defaultConfig :=
    (Machine.Reaches.of_exec hm).invariant (I := fun m => m.config = defaultConfig)
      (fun _ _ _ hI _ hstep => (step_config hstep).trans hI) rfl
  have hkept : m.config.maxCompletedTasks = 1000 := hconfig ▸ rfl
  refine ⟨m,hm,fun hclean => ?_,hlength,by omega⟩
  have hbounded := hclean.bounded
  omega

end ClusterMaster
end FusionMultiNodes

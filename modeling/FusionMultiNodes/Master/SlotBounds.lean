import FusionMultiNodes.Master.CancelClosure
import FusionMultiNodes.Master.Constraints

/-! The slots of the nodes: whatever gives slots back and however often, the count of a node stays
between zero and its number of slots. -/
namespace FusionMultiNodes

def NodeInfo.InBounds (n : NodeInfo) : Prop := 0 ≤ n.activeTasks ∧ n.activeTasks ≤ n.maxTasks

def MasterEvent.InBounds (m : ClusterMaster) : MasterEvent → Prop
  | .registerNode info _ => info.InBounds
  | .updateHeartbeat id _ _ (some active) _ _ =>
    ∀ n, m.nodes.get? id = some n → 0 ≤ active ∧ active ≤ n.maxTasks
  | .updateNodeLoad id metrics _ _ _ _ =>
    ∀ n, m.nodes.get? id = some n → 0 ≤ metrics.taskQueueLen ∧ metrics.taskQueueLen ≤ n.maxTasks
  | .receiveSyncedState infos _ _ => ∀ n ∈ infos, n.InBounds
  | _ => True

def SlotsInBounds (nodes : Dict NodeId NodeInfo) : Prop :=
  ∀ id n, nodes.get? id = some n → n.InBounds

namespace SlotsInBounds

variable {nodes : Dict NodeId NodeInfo}

theorem modify (h : SlotsInBounds nodes) (id : NodeId) {f : NodeInfo → NodeInfo}
    (hf : ∀ n, nodes.get? id = some n → (f n).InBounds) : SlotsInBounds (nodes.modify id f) := by
  intro k n hn
  rw [Dict.get?_modify] at hn
  split_ifs at hn with hk
  · obtain ⟨old,hold,rfl⟩ := Option.map_eq_some_iff.mp hn
    exact hf old (hk ▸ hold)
  · exact h k n hn

theorem set (h : SlotsInBounds nodes) (id : NodeId) {n : NodeInfo} (hn : n.InBounds) :
    SlotsInBounds (nodes.set id n) := by
  intro k n' hn'
  rw [Dict.get?_set] at hn'
  split_ifs at hn'
  · exact Option.some.inj hn' ▸ hn
  · exact h k n' hn'

theorem foldl_set (h : SlotsInBounds nodes) {infos : List NodeInfo} (hi : ∀ n ∈ infos, n.InBounds) :
    SlotsInBounds (infos.foldl (fun d n => d.set n.nodeId n) nodes) := by
  induction infos generalizing nodes with
  | nil => exact h
  | cons n infos ih =>
    obtain ⟨hn,hrest⟩ := List.forall_mem_cons.mp hi
    exact ih (h.set n.nodeId hn) hrest

/-- Giving a slot back never takes a count below zero, also when none is taken. -/
theorem release (h : SlotsInBounds nodes) (ids : List NodeId) :
    SlotsInBounds (releaseNodes nodes ids) := by
  induction ids generalizing nodes with
  | nil => exact h
  | cons id ids ih =>
    refine ih (h.modify id fun n hn => ?_)
    obtain ⟨hlow,hhigh⟩ := h id n hn
    exact ⟨le_max_left _ _,max_le (hlow.trans hhigh) ((Int.sub_le_self _ (by decide)).trans hhigh)⟩

theorem occupy (h : SlotsInBounds nodes) {ids : List NodeId} (hids : ids.Nodup)
    (hfree : ∀ id ∈ ids, ∀ n, nodes.get? id = some n → n.activeTasks < n.maxTasks) :
    SlotsInBounds (occupyNodes nodes ids) := by
  induction ids generalizing nodes with
  | nil => exact h
  | cons id ids ih =>
    obtain ⟨hid,hids⟩ := List.nodup_cons.mp hids
    obtain ⟨hfirst,hrest⟩ := List.forall_mem_cons.mp hfree
    refine ih (h.modify id fun n hn => ?_) hids fun k hk n hn => ?_
    · exact ⟨Int.add_nonneg (h id n hn).1 (by decide),hfirst n hn⟩
    · have hne : k ≠ id := fun heq => hid (heq ▸ hk)
      rw [Dict.get?_modify,if_neg hne] at hn
      exact hrest k hk n hn

end SlotsInBounds

namespace ClusterMaster

variable {m m' s : ClusterMaster} {ev : MasterEvent} {cid : ℕ} {now : ℚ}

theorem inBounds_of_slots (h : SlotsInBounds m.nodes) (hs : ∀ n, m'.slots n = m.slots n) :
    SlotsInBounds m'.nodes := by
  intro id n hn
  have hslots : m.slots id = some (n.activeTasks,n.maxTasks) := by
    rw [← hs id,slots,hn,Option.map_some]
  obtain ⟨old,hold,heq⟩ := Option.map_eq_some_iff.mp hslots
  obtain ⟨hactive,hmax⟩ := Prod.mk.inj heq
  have hbounds := h id old hold
  rw [NodeInfo.InBounds,hactive,hmax] at hbounds
  exact hbounds

/-- What agents and peers say aside, a node keeps its slots or is new. -/
theorem inBounds_follow (h : SlotsInBounds m.nodes) (hev : ev.InBounds m)
    (hs : m.SlotsFollow ev m') (hload : ev.reportsLoad = false) : SlotsInBounds m'.nodes := by
  intro id n hn
  have hslots : m'.slots id = some (n.activeTasks,n.maxTasks) := by rw [slots,hn,Option.map_some]
  rcases hs hload id with hsame | hnone | ⟨-,info,now,rfl,-,hinfo⟩
  · obtain ⟨old,hold,heq⟩ := Option.map_eq_some_iff.mp (hsame.symm.trans hslots)
    obtain ⟨hactive,hmax⟩ := Prod.mk.inj heq
    have hbounds := h id old hold
    rw [NodeInfo.InBounds,hactive,hmax] at hbounds
    exact hbounds
  · cases hnone.symm.trans hslots
  · obtain ⟨hactive,hmax⟩ := Prod.mk.inj (Option.some.inj (hinfo.symm.trans hslots))
    rw [NodeInfo.InBounds,← hactive,← hmax]
    exact hev

/-- A report of an agent or a peer that is possible leaves the counts possible. -/
theorem inBounds_report (h : SlotsInBounds m.nodes) (hev : ev.InBounds m)
    (hload : ev.reportsLoad = true) (hstep : machine.step m ev = some m') :
    SlotsInBounds m'.nodes := by
  cases ev with
  | updateHeartbeat id total available active supervisor now =>
    obtain rfl := Option.some.inj hstep
    cases active with
    | none => exact absurd hload Bool.false_ne_true
    | some active => exact h.modify id fun n hn => hev n hn
  | updateNodeLoad id metrics used total supervisor now =>
    obtain rfl := Option.some.inj hstep
    unfold updateNodeLoad
    split_ifs
    · exact h.modify id fun n hn => hev n hn
    · exact h
  | receiveSyncedState infos banned now =>
    obtain rfl := Option.some.inj hstep
    exact h.foldl_set fun n hn => hev n (List.mem_of_mem_filter hn)
  | _ => exact absurd hload Bool.false_ne_true

def Releases (m m' : ClusterMaster) : Prop := ∃ ids, m'.nodes = releaseNodes m.nodes ids

theorem Releases.of_eq (h : m'.nodes = m.nodes) : m.Releases m' := ⟨[],h⟩

theorem Releases.trans (h : m.Releases s) (h' : s.Releases m') : m.Releases m' := by
  obtain ⟨ids,hids⟩ := h
  obtain ⟨ids',hids'⟩ := h'
  exact ⟨ids ++ ids',by rw [hids',hids,releaseNodes_append]⟩

theorem releases_cancelSubTasks (m : ClusterMaster) (reason : String) (fuel : ℕ)
    (stack : List TaskId) : m.Releases (m.cancelSubTasks reason fuel stack) := by
  fun_induction cancelSubTasks m reason fuel stack with
  | case1 => exact .of_eq rfl
  | case2 => exact .of_eq rfl
  | case3 _ _ _ _ _ _ ih => exact ih
  | case4 _ _ _ _ _ _ _ _ ih => exact Releases.trans ⟨_,rfl⟩ ih
  | case5 _ _ _ _ _ _ _ _ ih => exact ih

theorem releases_cancelTask (m : ClusterMaster) (id : TaskId) (reason : String) (subs : Bool) :
    m.Releases (m.cancelTask id reason subs) := by
  unfold cancelTask
  split
  · exact .of_eq rfl
  · next r _ =>
    have hrelease : m.Releases (m.releaseTask r) := ⟨_,rfl⟩
    simp only
    split_ifs
    all_goals first
      | exact .of_eq rfl
      | exact hrelease
      | exact hrelease.trans (releases_cancelSubTasks _ _ _ _)

theorem releases_finalized (m : ClusterMaster) (r : Ref) (o : DispatchOutcome) (now : ℚ) :
    m.Releases (m.finalized r o now) := by
  unfold finalized
  split_ifs
  · exact ⟨_,nodes_enqueueRetry ((m.releaseTask r).modifyTask r _) r now⟩
  · exact ⟨_,rfl⟩

theorem releases_degradeTask (m : ClusterMaster) (id : TaskId) : m.Releases (m.degradeTask id) := by
  unfold degradeTask
  split
  · exact .of_eq rfl
  · simp only
    split_ifs
    · split
      · exact .of_eq rfl
      · exact ⟨_,rfl⟩
    · exact .of_eq rfl

theorem releases_migrateTask (m : ClusterMaster) (id : TaskId) : m.Releases (m.migrateTask id) := by
  unfold migrateTask
  split
  · exact .of_eq rfl
  · split_ifs
    · exact ⟨_,rfl⟩
    · exact .of_eq rfl

theorem releases_completeTask (m : ClusterMaster) (id : TaskId) (error : String) (now : ℚ) :
    m.Releases (m.completeTask id error now) := by
  unfold completeTask
  split
  · exact .of_eq rfl
  · exact ⟨_,rfl⟩

theorem Releases.inBounds (h : m.Releases m') (hm : SlotsInBounds m.nodes) :
    SlotsInBounds m'.nodes := by
  obtain ⟨ids,hids⟩ := h
  exact hids ▸ hm.release ids

/-- The nodes that an assignment takes are different and have a free slot each. -/
theorem commits_free {r : Ref} {pc : AssignPc} {k : Caller} {ns : List NodeId} (hs : m.Selected)
    (hf : m.frames.get? cid = some (.assign r pc k)) (hc : m.Commits r now pc ns) :
    ns.Nodup ∧ ∀ id ∈ ns, ∀ n, m.nodes.get? id = some n → n.activeTasks < n.maxTasks := by
  obtain ⟨-,hc⟩ := hc
  have hslot : ∀ {id}, m.hasFreeSlot id = true → ∀ n, m.nodes.get? id = some n →
      n.activeTasks < n.maxTasks := by
    intro id hfree n hn
    obtain ⟨n',hn',-,hlt⟩ := hasFreeSlot_iff.mp hfree
    exact Option.some.inj (hn'.symm.trans hn) ▸ hlt
  cases pc with
  | localCommit requiredMem =>
    obtain ⟨hfree,rfl⟩ := hc
    refine ⟨List.nodup_singleton _,fun id hid => ?_⟩
    exact List.mem_singleton.mp hid ▸ hslot hfree
  | confirm requiredMem selected =>
    obtain ⟨-,rfl,-⟩ := hc
    refine ⟨confirmedNodes_nodup hs.named (hs.nodup cid r requiredMem selected k hf),
      fun id hid n hn => ?_⟩
    rcases mem_confirmedNodes.mp hid with ⟨-,hfree⟩ | ⟨-,n',hn',rfl⟩
    · exact hslot hfree n hn
    · obtain ⟨hget,-,hlt,-⟩ := backup_open hs.named hn'
      exact Option.some.inj (hget.symm.trans hn) ▸ hlt
  | _ => exact nomatch hc

theorem inBounds_effect (hs : m.Selected) (hm : SlotsInBounds m.nodes) (hev : ev.InBounds m)
    (hload : ev.reportsLoad = false) (he : Effect m ev m') : SlotsInBounds m'.nodes := by
  have hsame : ∀ {s : ClusterMaster}, s.nodes = m.nodes → SlotsInBounds s.nodes :=
    fun h => h.symm ▸ hm
  cases he with
  | still _ hfollow => exact inBounds_follow hm hev hfollow hload
  | spawns _ hfollow _ => exact inBounds_follow hm hev hfollow hload
  | swaps hq _ _ => exact inBounds_of_slots hm hq.slots
  | commits hc _ hnodes hf _ _ =>
    obtain ⟨hnodup,hfree⟩ := commits_free hs hf hc
    show SlotsInBounds (ClusterMaster.nodes _)
    rw [show (setFrame _ _ _).nodes = _ from hnodes]
    exact hm.occupy hnodup hfree
  | refuses hq _ _ => exact inBounds_of_slots hm hq.slots
  | parks hq _ _ => exact inBounds_of_slots hm hq.slots
  | triggers _ => exact hsame (nodes_triggerDispatch m _)
  | retries _ => exact hsame (nodes_enqueueRetry m _ _)
  | fallsBack _ _ => exact hsame (nodes_enqueueRetry m _ _)
  | dispatches _ hd =>
    cases hd with
    | continues hq _ => exact inBounds_of_slots hm hq.slots
    | finalizes => exact (releases_finalized m _ _ _).inBounds hm
    | stale => exact hsame (nodes_endDispatch m _ _ _)
    | done => exact hsame (nodes_endDispatch m _ _ _)
  | replies hq _ _ => exact inBounds_of_slots hm hq.slots
  | completes _ => exact (releases_completeTask m _ _ _).inBounds hm
  | cancels _ _ => exact (releases_cancelTask m _ _ _).inBounds hm
  | migrates _ _ => exact (releases_migrateTask m _).inBounds hm
  | degrades _ _ _ _ => exact (releases_degradeTask m _).inBounds hm
  | timesOut => exact hsame (nodes_foldl (fun s r => nodes_timeoutOne s _ r) _ m)
  | refreshes _ => exact hsame (nodes_refreshTasks m _ _ _)
  | receives => exact hsame (nodes_receiveSyncedTasks m _)
  | restarts =>
    rw [nodes_restart]
    exact fun id n hn => nomatch hn
  | _ => exact hm

theorem inBounds_step (hs : m.Selected) (hm : SlotsInBounds m.nodes) (hev : ev.InBounds m)
    (h : machine.step m ev = some m') : SlotsInBounds m'.nodes := by
  cases hload : ev.reportsLoad with
  | true => exact inBounds_report hm hev hload h
  | false => exact inBounds_effect hs hm hev hload (step_effect h)

/-- In every run of a master, whatever assignments, dispatches, timeouts, cancellations, losses of
nodes and restarts follow each other, and as long as agents and peers report possible counts, no node
has a negative count of taken slots or more taken slots than it has; and each assignment takes its
slots of different nodes that have one free. -/
theorem slots_in_bounds {config : MasterConfig} {ha : HaState}
    (h : machine.Reaches (fun m ev => ev.InBounds m) (create config ha) m) :
    SlotsInBounds m.nodes ∧
      ∀ cid r pc k now ns, m.frames.get? cid = some (.assign r pc k) → m.Commits r now pc ns →
        ns.Nodup ∧ ∀ id ∈ ns, ∀ n, m.nodes.get? id = some n → n.activeTasks < n.maxTasks := by
  have hboth : m.Selected ∧ SlotsInBounds m.nodes :=
    h.invariant (I := fun m => m.Selected ∧ SlotsInBounds m.nodes)
      (fun _ _ _ hI hev hstep => ⟨hI.1.step hstep,inBounds_step hI.1 hI.2 hev hstep⟩)
      ⟨selected_create config ha,fun id n hn => nomatch hn⟩
  exact ⟨hboth.2,fun _ _ _ _ _ _ hf hc => commits_free hboth.1 hf hc⟩

/-- The task holds a slot of `n1` and, from the retry on, one of `n2`. -/
theorem slots_in_bounds_timedOut :
    ∃ m, machine.exec (create defaultConfig HaState.create) timedOutRun = some m ∧
      (∀ id ∈ ["n1","n2"], (m.nodes.get? id).map NodeInfo.activeTasks = some 1) ∧
      SlotsInBounds m.nodes := by
  have hexec : (machine.exec (create defaultConfig HaState.create) timedOutRun).any (fun m =>
      decide (∀ id ∈ ["n1","n2"], (m.nodes.get? id).map NodeInfo.activeTasks = some 1)) = true := by
    decide +kernel
  obtain ⟨m,hm,htaken⟩ := (Option.any_eq_true _ _).mp hexec
  have hworker : ∀ id, (worker id).InBounds := fun id => ⟨le_rfl,Int.zero_le_ofNat 4⟩
  have hevents : ∀ ev ∈ timedOutRun, ∀ x, ev.InBounds x := by
    simp [timedOutRun,assignedRun,MasterEvent.InBounds,hworker]
  exact ⟨m,hm,of_decide_eq_true htaken,(slots_in_bounds (.of_exec_of_forall hevents hm)).1⟩

end ClusterMaster
end FusionMultiNodes

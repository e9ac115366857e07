import FusionMultiNodes.Master.Placement
import FusionMultiNodes.Master.Selections

/-! The constraints a task puts on its nodes, on each path that assigns it. -/
namespace FusionMultiNodes

theorem LoadRouter.selectN_subperm (r : LoadRouter) (candidates : List NodeInfo) (count : ℕ)
    (preferred : NodeId) (requiredUmaRatio : ℚ) (tier : String) (now : ℚ) :
    (r.selectN candidates count preferred requiredUmaRatio tier now).Subperm candidates := by
  have hscored : ∀ l : List NodeInfo, ((l.filterMap fun n =>
      (r.candidateScore preferred requiredUmaRatio tier now n).map fun s => (n,s)).map Prod.fst).Sublist
        l := by
    intro l
    induction l with
    | nil => exact List.nil_sublist []
    | cons n l ih =>
      cases hn : r.candidateScore preferred requiredUmaRatio tier now n with
      | none => simpa [hn] using ih.cons n
      | some s => simpa [hn] using ih.cons_cons n
  exact (List.take_sublist _ _).subperm.trans
    (((List.perm_insertionSort _ _).map Prod.fst).subperm.trans (hscored candidates).subperm)

theorem NamedNodes.nodup_ids {nodes : Dict NodeId NodeInfo} (h : NamedNodes nodes)
    {l : List NodeInfo} (hl : l.Subperm nodes.values) : (l.map NodeInfo.nodeId).Nodup := by
  have hkeys : nodes.values.map NodeInfo.nodeId = nodes.keys := by
    rw [Dict.values,Dict.keys,List.map_map]
    exact List.map_congr_left fun p hp => h p.1 p.2 (Dict.get?_eq_some_iff.mpr hp)
  obtain ⟨l',hperm,hsub⟩ := hl
  refine (hperm.map NodeInfo.nodeId).nodup_iff.mp ((hsub.map NodeInfo.nodeId).nodup ?_)
  rw [hkeys]
  exact nodes.nodup

/-- A master on a host whose clock does not go back. -/
structure ClockedMaster where
  master : ClusterMaster
  clock : ℚ

def ClockedMaster.machine : Machine ClockedMaster MasterEvent :=
  ⟨fun s ev =>
    if ∀ now ∈ ev.now?, s.clock ≤ now then
      (ClusterMaster.loop.step s.master ev).map fun m => ⟨m,ev.now?.getD s.clock⟩
    else none⟩

namespace ClusterMaster

/-- A node can take a task, as far as it need not be the pinned one. -/
structure Open (m : ClusterMaster) (t : ClusterTask) (n : NodeInfo) (now : ℚ) : Prop where
  notExcluded : n.nodeId ∉ t.excludeNodes
  notDraining : n.draining = false
  notBanned : m.isNodeBanned n.nodeId now = false
  provides : n.provides t.requiredCapability = true
  role : ∀ roles ∈ m.rolesFor t, n.role ∈ roles

structure Respects (m : ClusterMaster) (t : ClusterTask) (ns : List NodeId) (now : ℚ) : Prop where
  distinct : ns.Nodup
  pinned : t.pinnedNodeId ≠ "" → ∀ id ∈ ns, id = t.pinnedNodeId
  each : ∀ id ∈ ns, ∃ n, m.nodes.get? id = some n ∧ n.nodeId = id ∧ m.Open t n now ∧
    n.activeTasks < n.maxTasks

/-- A task that a step sets to `RUNNING` gets nodes that meet its constraints. -/
def PlacesWell (m : ClusterMaster) (ev : MasterEvent) (m' : ClusterMaster) : Prop :=
  ∀ cid now r ns, ev = .resume cid now → m.placed? ev = some (r,ns) →
    m.Respects (m.objects r) (m'.objects r).assignedNodes now

/-- The constraints that the lock section at `pc` does not look at. -/
def Suits (m : ClusterMaster) (r : Ref) (now : ℚ) : AssignPc → Prop
  | .localCommit _ =>
    ((m.objects r).pinnedNodeId ≠ "" → (m.objects r).preferredNodeId = (m.objects r).pinnedNodeId) ∧
      ∀ n, m.nodes.get? (m.objects r).preferredNodeId = some n → m.Open (m.objects r) n now
  | .confirm requiredMem selected =>
    m.looksForBackup (m.objects r) selected = true →
      ∀ n ∈ m.selectFreeNodesLocked (m.objects r) requiredMem
        (selected.filter m.hasFreeSlot ++ (m.objects r).excludeNodes)
        ((m.objects r).need-(selected.filter m.hasFreeSlot).length) now,
      ∀ roles ∈ m.rolesFor (m.objects r), n.role ∈ roles
  | _ => True

/-- The condition on a step that sets a task to `RUNNING`. -/
def Fits (m : ClusterMaster) (ev : MasterEvent) : Prop :=
  ∀ cid now r pc k, ev = .resume cid now → m.frames.get? cid = some (.assign r pc k) →
    m.admits r now pc = true → m.Suits r now pc

variable {m m' : ClusterMaster} {t : ClusterTask} {r : Ref} {ev : MasterEvent} {now requiredMem : ℚ}
  {selected ns : List NodeId} {id : NodeId} {n : NodeInfo}

theorem sortCandidates_perm (mode : ParallelMode) (l : List NodeInfo) :
    (sortCandidates mode l).Perm l := by
  unfold sortCandidates
  split_ifs <;> exact List.perm_insertionSort _ _

theorem selectNodes_subperm (m : ClusterMaster) (t : ClusterTask) (requiredMem now : ℚ) :
    (m.selectNodes t requiredMem now).Subperm
      ((m.getOnlineNodes now).filter (m.eligible t requiredMem now)) := by
  have hpreferred := List.filter_append_perm
    (fun n : NodeInfo => decide (n.nodeId = t.preferredNodeId))
    ((m.getOnlineNodes now).filter (m.eligible t requiredMem now))
  simp only [← decide_not] at hpreferred
  have hsorted : ∀ {l l' : List NodeInfo}, l.Subperm l' →
      ((sortCandidates t.mode l).take t.need).Subperm l' := fun hl =>
    (List.take_sublist _ _).subperm.trans ((sortCandidates_perm _ _).subperm.trans hl)
  simp only [selectNodes]
  split_ifs
  all_goals first
    | exact LoadRouter.selectN_subperm ..
    | exact hsorted (.refl _)
    | exact hsorted hpreferred.subperm

theorem selectFreeNodesLocked_subperm (m : ClusterMaster) (t : ClusterTask) (requiredMem : ℚ)
    (exclude : List NodeId) (count : ℕ) (now : ℚ) :
    (m.selectFreeNodesLocked t requiredMem exclude count now).Subperm (m.nodes.values.filter fun n =>
      isFree exclude n && !(m.isNodeBanned n.nodeId now) && !n.draining &&
        n.provides t.requiredCapability &&
        (decide (requiredMem ≤ 0) || decide (requiredMem ≤ n.availableMemoryGb))) :=
  (List.take_sublist _ _).subperm.trans (sortCandidates_perm _ _).subperm

theorem selected_nodup (hm : NamedNodes m.nodes) (t : ClusterTask) (requiredMem now : ℚ) :
    ((m.selectNodes t requiredMem now).map NodeInfo.nodeId).Nodup :=
  hm.nodup_ids ((m.selectNodes_subperm t requiredMem now).trans
    (List.filter_sublist.trans List.filter_sublist).subperm)

theorem selected_pinned (hpin : t.pinnedNodeId ≠ "")
    (hid : id ∈ (m.selectNodes t requiredMem now).map NodeInfo.nodeId) : id = t.pinnedNodeId := by
  obtain ⟨n,hn,rfl⟩ := List.mem_map.mp hid
  have helig := (List.mem_filter.mp ((m.selectNodes_subperm t requiredMem now).subset hn)).2
  simp only [eligible,Bool.and_eq_true,Bool.or_eq_true,decide_eq_true_eq] at helig
  exact helig.1.1.2.resolve_left hpin

theorem Open.later {later : ℚ} (h : m.Open t n now) (hle : now ≤ later) : m.Open t n later := by
  refine ⟨h.notExcluded,h.notDraining,?_,h.provides,h.role⟩
  have hban := h.notBanned
  unfold isNodeBanned at hban ⊢
  cases hget : m.bannedNodes.get? n.nodeId with
  | none => rfl
  | some unbanAt =>
    rw [hget] at hban
    exact decide_eq_false (not_lt.mpr ((not_lt.mp (of_decide_eq_false hban)).trans hle))

theorem Open.congr (h : m.Open t n now) (hconfig : m'.config = m.config)
    (hbanned : m'.bannedNodes = m.bannedNodes) : m'.Open t n now := by
  refine ⟨h.notExcluded,h.notDraining,?_,h.provides,?_⟩
  · rw [isNodeBanned,hbanned]
    exact h.notBanned
  · rw [rolesFor,hconfig]
    exact h.role

/-- What `select_nodes` returns are nodes of the table that can take the task. -/
theorem selected_open (hm : NamedNodes m.nodes)
    (hid : id ∈ (m.selectNodes t requiredMem now).map NodeInfo.nodeId) :
    ∃ n, m.nodes.get? id = some n ∧ m.Open t n now := by
  obtain ⟨n,hn,rfl⟩ := List.mem_map.mp hid
  obtain ⟨honline,helig⟩ := List.mem_filter.mp ((m.selectNodes_subperm t requiredMem now).subset hn)
  obtain ⟨id,hid⟩ := Dict.mem_values_iff.mp (List.mem_of_mem_filter honline)
  simp only [eligible,Bool.and_eq_true,Bool.not_eq_true',decide_eq_true_eq,Option.all_eq_true,
    Bool.or_eq_true] at helig
  obtain ⟨⟨⟨⟨⟨⟨hban,hdrain⟩,hroles⟩,hexclude⟩,-⟩,hprovides⟩,-⟩ := helig
  refine ⟨n,?_,hexclude,hdrain,hban,hprovides,hroles⟩
  rw [hm id n hid]
  exact hid

/-- Selections that wait hold each node once, and the pinned one only. -/
structure Selected (m : ClusterMaster) : Prop where
  wf : m.Wf
  named : NamedNodes m.nodes
  nodup : ∀ cid r requiredMem selected k,
    m.frames.get? cid = some (.assign r (.confirm requiredMem selected) k) → selected.Nodup
  pinned : ∀ cid r requiredMem selected k,
    m.frames.get? cid = some (.assign r (.confirm requiredMem selected) k) →
      (m.objects r).pinnedNodeId ≠ "" → ∀ id ∈ selected, id = (m.objects r).pinnedNodeId

theorem selected_create (config : MasterConfig) (ha : HaState) : (create config ha).Selected :=
  ⟨wf_create config ha,NamedNodes.empty,nofun,nofun⟩

theorem Selected.step (hs : m.Selected) (h : machine.step m ev = some m') : m'.Selected where
  wf := step_wf hs.wf h
  named := step_named hs.named h
  nodup cid r requiredMem selected k hf := by
    rcases step_confirm h hf with hf₀ | ⟨now,original,-,-,rfl⟩
    · exact hs.nodup cid r requiredMem selected k hf₀
    · exact selected_nodup hs.named _ _ _
  pinned cid r requiredMem selected k hf := by
    have hjob : r < m.nextRef → (m'.objects r).pinnedNodeId = (m.objects r).pinnedNodeId :=
      fun hr => ((step_evolves hs.wf h).job r hr).pinnedNodeId
    rcases step_confirm h hf with hf₀ | ⟨now,original,-,hf₀,rfl⟩
    · rw [hjob (hs.wf.ref_lt hf₀ List.mem_cons_self)]
      exact hs.pinned cid r requiredMem selected k hf₀
    · rw [hjob (hs.wf.ref_lt hf₀ List.mem_cons_self)]
      exact fun hpin id hid => selected_pinned hpin hid

/-- The nodes of a selection that waits can take its task. -/
structure Ready (m : ClusterMaster) (clock : ℚ) : Prop extends Selected m where
  opens : ∀ cid r requiredMem selected k,
    m.frames.get? cid = some (.assign r (.confirm requiredMem selected) k) →
      ∀ id ∈ selected, ∃ n, m.nodes.get? id = some n ∧ m.Open (m.objects r) n clock

theorem ready_create (config : MasterConfig) (ha : HaState) (clock : ℚ) :
    (create config ha).Ready clock :=
  ⟨selected_create config ha,nofun⟩

/-- Nobody comes between a selection and its confirmation but a thread. -/
theorem Ready.step {clock : ℚ} (hs : m.Ready clock) (h : loop.step m ev = some m')
    (hclock : ∀ now ∈ ev.now?, clock ≤ now) : m'.Ready (ev.now?.getD clock) := by
  have hle : clock ≤ ev.now?.getD clock := by
    cases hev : ev.now? with
    | none => exact le_refl _
    | some now => exact hclock now hev
  have hstep := (loop_step h).2
  refine ⟨hs.toSelected.step hstep,fun cid r requiredMem selected k hf id hid => ?_⟩
  rcases loop_confirm h hf with ⟨hthread,hf₀⟩ | ⟨now,router,frames,rfl,rfl,rfl⟩
  · obtain ⟨store,rfl⟩ := step_thread hstep hthread
    obtain ⟨n,hn,hopen⟩ := hs.opens cid r requiredMem selected k hf₀ id hid
    exact ⟨n,hn,(hopen.later hle).congr rfl rfl⟩
  · obtain ⟨n,hn,hopen⟩ := selected_open hs.named hid
    exact ⟨n,hn,hopen.congr rfl rfl⟩

theorem hasFreeSlot_iff : m.hasFreeSlot id = true ↔
    ∃ n, m.nodes.get? id = some n ∧ n.status = .online ∧ n.activeTasks < n.maxTasks := by
  simp [hasFreeSlot,Option.any_eq_true]

theorem backup_open (hm : NamedNodes m.nodes) {exclude : List NodeId} {count : ℕ}
    (hn : n ∈ m.selectFreeNodesLocked t requiredMem (exclude ++ t.excludeNodes) count now) :
    m.nodes.get? n.nodeId = some n ∧ n.nodeId ∉ exclude ∧ n.activeTasks < n.maxTasks ∧
      (m.Open t n now ↔ ∀ roles ∈ m.rolesFor t, n.role ∈ roles) := by
  obtain ⟨hvalue,hfree⟩ :=
    List.mem_filter.mp ((m.selectFreeNodesLocked_subperm t requiredMem _ count now).subset hn)
  obtain ⟨id,hid⟩ := Dict.mem_values_iff.mp hvalue
  simp only [isFree,Bool.and_eq_true,decide_eq_true_eq,List.mem_append,not_or,
    Bool.not_eq_true'] at hfree
  obtain ⟨⟨⟨⟨⟨⟨-,hexclude⟩,hslot⟩,hban⟩,hdrain⟩,hprovides⟩,-⟩ := hfree
  refine ⟨?_,hexclude.1,hslot,fun ho => ho.role,fun hrole => ?_⟩
  · rw [hm id n hid]
    exact hid
  · exact ⟨hexclude.2,hdrain,hban,hprovides,hrole⟩

/-- The nodes that are confirmed and those that are found in their place. -/
theorem mem_confirmedNodes : id ∈ m.confirmedNodes t requiredMem selected now ↔
    (id ∈ selected ∧ m.hasFreeSlot id = true) ∨
      (m.looksForBackup t selected = true ∧
        ∃ n ∈ m.selectFreeNodesLocked t requiredMem (selected.filter m.hasFreeSlot ++ t.excludeNodes)
          (t.need-(selected.filter m.hasFreeSlot).length) now, n.nodeId = id) := by
  simp only [confirmedNodes,looksForBackup,decide_eq_true_eq]
  split_ifs with hshort
  · simp [hshort,List.mem_filter]
  · simp [hshort,List.mem_filter]

theorem confirmedNodes_nodup (hm : NamedNodes m.nodes) (hselected : selected.Nodup) :
    (m.confirmedNodes t requiredMem selected now).Nodup := by
  have hconfirmed := hselected.filter m.hasFreeSlot
  simp only [confirmedNodes]
  split_ifs
  · refine List.nodup_append'.mpr ⟨hconfirmed,hm.nodup_ids ?_,?_⟩
    · exact (m.selectFreeNodesLocked_subperm ..).trans List.filter_sublist.subperm
    · intro id hid hextra
      obtain ⟨n,hn,rfl⟩ := List.mem_map.mp hextra
      exact (backup_open hm hn).2.1 hid
  · exact hconfirmed

theorem respects_local_iff (hm : NamedNodes m.nodes) (hslot : m.hasFreeSlot t.preferredNodeId = true) :
    m.Respects t [t.preferredNodeId] now ↔
      (t.pinnedNodeId ≠ "" → t.preferredNodeId = t.pinnedNodeId) ∧
        ∀ n, m.nodes.get? t.preferredNodeId = some n → m.Open t n now := by
  obtain ⟨n,hn,-,hfree⟩ := hasFreeSlot_iff.mp hslot
  constructor
  · intro hr
    refine ⟨fun hpin => hr.pinned hpin _ List.mem_cons_self,fun n' hn' => ?_⟩
    obtain ⟨n'',hn'',-,hopen,-⟩ := hr.each _ List.mem_cons_self
    obtain rfl := Option.some.inj (hn'.symm.trans hn'')
    exact hopen
  · rintro ⟨hpin,hopen⟩
    refine ⟨List.nodup_singleton _,fun hne id hid => ?_,fun id hid => ?_⟩
    · rw [List.mem_singleton.mp hid]
      exact hpin hne
    · rw [List.mem_singleton.mp hid]
      exact ⟨n,hn,hm _ n hn,hopen n hn,hfree⟩

theorem respects_confirm_iff (hm : NamedNodes m.nodes) (hnodup : selected.Nodup)
    (hpinned : t.pinnedNodeId ≠ "" → ∀ id ∈ selected, id = t.pinnedNodeId)
    (hbackup : m.looksForBackup t selected = true → t.pinnedNodeId = "") :
    m.Respects t (m.confirmedNodes t requiredMem selected now) now ↔
      (∀ id ∈ selected, m.hasFreeSlot id = true → ∀ n, m.nodes.get? id = some n → m.Open t n now) ∧
      (m.looksForBackup t selected = true →
        ∀ n ∈ m.selectFreeNodesLocked t requiredMem (selected.filter m.hasFreeSlot ++ t.excludeNodes)
          (t.need-(selected.filter m.hasFreeSlot).length) now,
        ∀ roles ∈ m.rolesFor t, n.role ∈ roles) := by
  constructor
  · intro hr
    refine ⟨fun id hid hslot n hn => ?_,fun hshort n hn => ?_⟩
    · obtain ⟨n',hn',-,hopen,-⟩ := hr.each id (mem_confirmedNodes.mpr (.inl ⟨hid,hslot⟩))
      obtain rfl := Option.some.inj (hn.symm.trans hn')
      exact hopen
    · obtain ⟨n',hn',-,hopen,-⟩ :=
        hr.each n.nodeId (mem_confirmedNodes.mpr (.inr ⟨hshort,n,hn,rfl⟩))
      obtain ⟨hget,-,-,hiff⟩ := backup_open hm hn
      obtain rfl := Option.some.inj (hget.symm.trans hn')
      exact hiff.mp hopen
  · rintro ⟨hopen,hroles⟩
    refine ⟨confirmedNodes_nodup hm hnodup,fun hpin id hid => ?_,fun id hid => ?_⟩
    · rcases mem_confirmedNodes.mp hid with ⟨hid,-⟩ | ⟨hshort,-⟩
      · exact hpinned hpin id hid
      · exact absurd (hbackup hshort) hpin
    · rcases mem_confirmedNodes.mp hid with ⟨hid,hslot⟩ | ⟨hshort,n,hn,rfl⟩
      · obtain ⟨n,hn,-,hfree⟩ := hasFreeSlot_iff.mp hslot
        exact ⟨n,hn,hm id n hn,hopen id hid hslot n hn,hfree⟩
      · obtain ⟨hget,-,hfree,hiff⟩ := backup_open hm hn
        exact ⟨n,hget,rfl,hiff.mpr (hroles hshort n hn),hfree⟩

/-- One step gives a task nodes that meet its constraints just when they meet those that its path
does not look at. -/
theorem placesWell_iff {clock : ℚ} (hs : m.Ready clock) (h : loop.step m ev = some m')
    (hclock : ∀ now ∈ ev.now?, clock ≤ now) : m.PlacesWell ev m' ↔ m.Fits ev := by
  have hplace : ∀ cid now r pc k, ev = .resume cid now → m.frames.get? cid = some (.assign r pc k) →
      ∀ ns, m.Commits r now pc ns → (m.Respects (m.objects r) ns now ↔ m.Suits r now pc) := by
    rintro cid now r pc k rfl hf ns ⟨-,hpc⟩
    cases pc with
    | localCommit mem =>
      obtain ⟨hslot,rfl⟩ := hpc
      exact respects_local_iff hs.named hslot
    | confirm mem selected =>
      obtain ⟨hbackup,rfl,-⟩ := hpc
      refine (respects_confirm_iff hs.named (hs.nodup cid r mem selected k hf)
        (hs.pinned cid r mem selected k hf) hbackup).trans (and_iff_right fun id hid _ n hn => ?_)
      obtain ⟨n',hn',hopen⟩ := hs.opens cid r mem selected k hf id hid
      obtain rfl := Option.some.inj (hn.symm.trans hn')
      exact hopen.later (hclock now rfl)
    | _ => exact absurd hpc id
  have hstep := (loop_step h).2
  constructor
  · rintro hwell cid now r pc k rfl hf hadmits
    obtain ⟨ns,hc⟩ := QuotaHistory.commits_of_admits hadmits
    have hp := placed?_eq_some_iff.mpr ⟨cid,now,pc,k,rfl,hf,hc⟩
    have hrespects := hwell cid now r ns rfl hp
    rw [(step_placed hstep hp).2.2] at hrespects
    exact (hplace cid now r pc k rfl hf ns hc).mp hrespects
  · rintro hfits cid now r ns rfl hp
    rw [(step_placed hstep hp).2.2]
    obtain ⟨cid',now',pc,k,hev,hf,hc⟩ := placed?_eq_some_iff.mp hp
    obtain ⟨rfl,rfl⟩ := MasterEvent.resume.inj hev
    exact (hplace cid now r pc k rfl hf ns hc).mpr
      (hfits cid now r pc k rfl hf (QuotaHistory.admits_of_commits hc))

end ClusterMaster

namespace ClockedMaster

open ClusterMaster

/-- In every run, each task gets nodes that meet its constraints if and only if, wherever a task is
assigned on the local path, its node meets them, and wherever others are found in the place of lost
ones, they have a role that the task allows. -/
theorem placement_constraints_iff (config : MasterConfig) (ha : HaState) (clock : ℚ)
    (es : List MasterEvent) :
    machine.Along (fun s ev t => s.master.PlacesWell ev t.master) ⟨.create config ha,clock⟩ es ↔
      machine.Along (fun s ev _ => s.master.Fits ev) ⟨.create config ha,clock⟩ es := by
  have hsplit : ∀ s ev t, machine.step s ev = some t → (∀ now ∈ ev.now?, s.clock ≤ now) ∧
      loop.step s.master ev = some t.master ∧ t.clock = ev.now?.getD s.clock := by
    intro s ev t ht
    obtain ⟨hclock,ht⟩ := Option.ite_none_right_eq_some.mp ht
    obtain ⟨m,hm,rfl⟩ := Option.map_eq_some_iff.mp ht
    exact ⟨hclock,hm,rfl⟩
  refine Machine.along_congr_of_invariant (I := fun s => s.master.Ready s.clock)
    (fun s ev t hs ht => ?_) (fun s ev t hs ht _ => ?_) (ready_create config ha clock) es
  · obtain ⟨hclock,hm,-⟩ := hsplit s ev t ht
    exact placesWell_iff hs hm hclock
  · obtain ⟨hclock,hm,hnow⟩ := hsplit s ev t ht
    rw [hnow]
    exact hs.step hm hclock

/-- A light task that prefers `n1`, which is draining. -/
def drainedRun : List MasterEvent :=
  [.registerNode (worker "n1") 0,.resume 0 0,.setNodeDraining "n1" true,
    .submit { plainTask "t1" with preferredNodeId := "n1" },.resume 1 1,.resume 1 1,.resume 1 1]

theorem local_task_on_draining_node : ¬∀ (config : MasterConfig) (ha : HaState) (clock : ℚ)
    (es : List MasterEvent),
    machine.Along (fun s ev t => s.master.PlacesWell ev t.master) ⟨.create config ha,clock⟩ es := by
  intro h
  have hexec : (machine.exec ⟨create defaultConfig .create,0⟩ drainedRun).any (fun s =>
      (machine.step s (.resume 1 1)).any fun t =>
        decide (s.master.placed? (.resume 1 1) = some (0,["n1"]) ∧
          (t.master.objects 0).assignedNodes = ["n1"] ∧
          (s.master.nodes.get? "n1").map NodeInfo.draining = some true)) = true := by
    decide +kernel
  obtain ⟨s,hs,hexec⟩ := (Option.any_eq_true _ _).mp hexec
  obtain ⟨t,ht,hexec⟩ := (Option.any_eq_true _ _).mp hexec
  obtain ⟨hp,hnodes,hdraining⟩ := of_decide_eq_true hexec
  have hwell := (h defaultConfig .create 0 (drainedRun ++ [.resume 1 1])).last hs ht 1 1 0 ["n1"] rfl hp
  rw [hnodes] at hwell
  obtain ⟨n,hn,-,hopen,-⟩ := hwell.each "n1" List.mem_cons_self
  rw [hn,Option.map_some,hopen.notDraining] at hdraining
  exact absurd hdraining (by decide)

end ClockedMaster
end FusionMultiNodes

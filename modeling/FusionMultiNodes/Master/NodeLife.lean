import FusionMultiNodes.Master.Step

/-! The life of a node between faults and bans. Bans start and end as they should; a fault
leaves a status that nothing takes back, so that a node is listed exactly as long as no fault
was reported for it. -/
namespace FusionMultiNodes

inductive NodeOp where
  | register (info : NodeInfo)
  | heartbeat (id : NodeId) (totalMemoryGb availableMemoryGb : Option ℚ)
      (activeTasks : Option ℤ) (supervisorAvailable : Option Bool)
  | drain (id : NodeId) (draining : Bool)
  | fault (id : NodeId)
  | refresh
  | unban (id : NodeId)
  | probe
  | probed (cid : ℕ) (ok : Bool)

def NodeOp.event (now : ℚ) : NodeOp → MasterEvent
  | .register info => .registerNode info now
  | .heartbeat id total available active supervisor =>
    .updateHeartbeat id total available active supervisor now
  | .drain id draining => .setNodeDraining id draining
  | .fault id => .reportFault id now
  | .refresh => .refreshNodeStatuses now
  | .unban id => .unbanNode id
  | .probe => .probeBannedNodes now
  | .probed cid ok => .probed cid ok now

/-- A master and what has been reported to it: the nodes with a fault, and the times of the
faults of a node since its record was last cleared. -/
structure NodeHistory where
  master : ClusterMaster
  clock : ℚ
  faulted : List NodeId := []
  reports : NodeId → List ℚ := fun _ => []

namespace NodeHistory

variable (s : NodeHistory)

def probing? (cid : ℕ) : Option NodeId :=
  match s.master.frames.get? cid with
  | some (.probing (id::_)) => some id
  | _ => none

/-- The ban of a node has run out and is still on record. -/
def isExpired (id : NodeId) (now : ℚ) : Bool :=
  s.master.bannedNodes.contains id && !s.master.isNodeBanned id now

/-- The operation clears the record of a node: a ban is lifted, or has run out. -/
def clears (now : ℚ) (id : NodeId) : NodeOp → Bool
  | .register info => decide (id = info.nodeId) && s.isExpired id now
  | .unban id' => decide (id = id')
  | .probe => s.isExpired id now && !s.master.nodes.contains id
  | .probed cid _ => decide (s.probing? cid = some id)
  | .heartbeat .. | .drain .. | .fault .. | .refresh => false

def reportsFault (id : NodeId) : NodeOp → Bool
  | .fault id' => decide (id = id') && s.master.nodes.contains id
  | _ => false

def record (op : NodeOp) (now : ℚ) (m : ClusterMaster) : NodeHistory where
  master := m
  clock := now
  faulted := match op with
    | .fault id => if s.master.nodes.contains id then id::s.faulted else s.faulted
    | _ => s.faulted
  reports := fun id =>
    if s.clears now id op then []
    else if s.reportsFault id op then s.reports id ++ [now]
    else s.reports id

def step (e : NodeOp × ℚ) : Option NodeHistory :=
  if s.clock ≤ e.2 then (s.master.step (e.1.event e.2)).map (s.record e.1 e.2) else none

def machine : Machine NodeHistory (NodeOp × ℚ) := ⟨step⟩

def start (config : MasterConfig) (ha : HaState) (clock : ℚ) : NodeHistory :=
  { master := .create config ha, clock := clock }

def inWindow (now t : ℚ) : Bool := decide (now-t ≤ faultWindowS)

/-- The reported fault is the third within the window, or a later one. -/
def FaultsReach (now : ℚ) (op : NodeOp) (id : NodeId) : Prop :=
  s.reportsFault id op = true ∧
    3 ≤ ((s.reports id ++ [now]).filter (inWindow now)).length

/-- The probe of a node whose ban has run out has failed. -/
def Renews (op : NodeOp) (id : NodeId) : Prop :=
  ∃ cid, op = .probed cid false ∧ s.probing? cid = some id ∧
    s.master.bannedNodes.contains id = true

/-- A node becomes banned by the faults in the window, and stays banned by a failed probe. -/
def BansRight (e : NodeOp × ℚ) (t : NodeHistory) : Prop :=
  ∀ id, s.master.isNodeBanned id e.2 = false →
    (t.master.isNodeBanned id e.2 = true ↔ s.FaultsReach e.2 e.1 id ∨ s.Renews e.1 id)

structure Eligible (now : ℚ) (id : NodeId) (n : NodeInfo) : Prop where
  known : s.master.nodes.get? id = some n
  alive : now-n.lastHeartbeat < s.master.config.heartbeatTimeout
  free : s.master.isNodeBanned id now = false
  undrained : n.draining = false

def Listed : Prop :=
  ∀ now, s.clock ≤ now → ∀ id n, s.Eligible now id n → n ∈ s.master.getOnlineNodes now

def Blameless : Prop :=
  ∀ now, s.clock ≤ now → ∀ id n, s.Eligible now id n → id ∉ s.faulted

/-- No probe fails whose node has been unbanned meanwhile. -/
def ProbesBanned (op : NodeOp) : Prop :=
  ∀ cid id, op = .probed cid false → s.probing? cid = some id →
    s.master.bannedNodes.contains id = true

variable {s : NodeHistory} {m : ClusterMaster} {id : NodeId} {now : ℚ}

def counts (m : ClusterMaster) (id : NodeId) : List ℚ := (m.faultCounts.get? id).getD []

theorem get?_foldl_unban (l : List NodeId) (m : ClusterMaster) (id : NodeId) :
    (l.foldl ClusterMaster.unbanNode m).bannedNodes.get? id =
        (if id ∈ l then none else m.bannedNodes.get? id) ∧
      (l.foldl ClusterMaster.unbanNode m).faultCounts.get? id =
        if id ∈ l then none else m.faultCounts.get? id := by
  induction l generalizing m with
  | nil => simp
  | cons a l ih =>
    rw [List.foldl_cons,(ih _).1,(ih _).2]
    simp only [ClusterMaster.unbanNode,Dict.get?_erase,List.mem_cons]
    by_cases ha : id = a <;> by_cases hl : id ∈ l <;> simp [ha,hl]

theorem foldl_unban_nodes (l : List NodeId) (m : ClusterMaster) :
    (l.foldl ClusterMaster.unbanNode m).nodes = m.nodes ∧
      (l.foldl ClusterMaster.unbanNode m).config = m.config := by
  induction l generalizing m with
  | nil => exact ⟨rfl,rfl⟩
  | cons a l ih => exact ih _

theorem mem_unknown_iff : id ∈ (s.master.expiredBans now).filter
    (fun id => !(s.master.nodes.contains id)) ↔ s.clears now id .probe = true := by
  simp only [ClusterMaster.expiredBans,List.mem_filter,clears,isExpired,Bool.and_eq_true,
    Dict.contains,Option.isSome_iff_exists,← Dict.mem_keys_iff]

theorem step_eq {op : NodeOp} {t : NodeHistory} (h : s.step (op,now) = some t) :
    s.clock ≤ now ∧ ∃ m, s.master.step (op.event now) = some m ∧ t = s.record op now m := by
  obtain ⟨hle,hs⟩ := Option.ite_none_right_eq_some.mp h
  obtain ⟨m,hm,ht⟩ := Option.map_eq_some_iff.mp hs
  exact ⟨hle,m,hm,ht.symm⟩

theorem probed_eq {cid : ℕ} {ok : Bool}
    (h : s.master.step (NodeOp.event now (.probed cid ok)) = some m) :
    ∃ id rest, s.probing? cid = some id ∧ m = s.master.probed cid id rest ok now := by
  simp only [NodeOp.event,ClusterMaster.step] at h
  split at h
  · rename_i id rest hf
    have hprobing : s.probing? cid = some id := by simp only [probing?,hf]
    exact ⟨id,rest,hprobing,(Option.some.inj h).symm⟩
  · simp at h

theorem counts_step {op : NodeOp} (h : s.master.step (op.event now) = some m) (id : NodeId) :
    counts m id = if s.clears now id op then [] else if s.reportsFault id op then
      (counts s.master id ++ [now]).filter (inWindow now) else counts s.master id := by
  cases op with
  | register info =>
    obtain rfl := Option.some.inj h
    simp only [ClusterMaster.registerNode,clears,reportsFault,isExpired,Bool.false_eq_true,if_false]
    by_cases hban : s.master.isNodeBanned info.nodeId now = true
    · rw [if_pos hban]
      by_cases hid : id = info.nodeId
      · simp [hid,hban]
      · simp [hid]
    · rw [if_neg hban]
      simp only [counts,ClusterMaster.dropExpiredBan,ClusterMaster.spawn,Bool.and_eq_true,
        Bool.not_eq_true',decide_eq_true_eq]
      by_cases hid : id = info.nodeId
      · subst hid
        split_ifs with hexp <;> simp_all [Dict.get?_erase]
      · split_ifs <;> simp_all [Dict.get?_erase]
  | heartbeat id' total available active supervisor =>
    obtain rfl := Option.some.inj h
    rfl
  | drain id' draining =>
    obtain rfl := Option.some.inj h
    rfl
  | fault id' =>
    obtain rfl := Option.some.inj h
    simp only [ClusterMaster.reportFault,clears,reportsFault,Bool.false_eq_true,if_false,
      Bool.and_eq_true,decide_eq_true_eq]
    by_cases hin : s.master.nodes.contains id' = true
    · by_cases hid : id = id'
      · subst hid
        simp only [counts,hin,if_true,and_self,Dict.get?_set_self,Option.getD_some]
        rfl
      · simp [counts,hin,hid,Dict.get?_set]
    · rw [if_neg hin]
      by_cases hid : id = id'
      · subst hid
        simp [hin]
      · simp [hid]
  | refresh =>
    obtain rfl := Option.some.inj h
    simp only [ClusterMaster.refreshNodes,clears,reportsFault,Bool.false_eq_true,if_false]
    split_ifs <;> rfl
  | unban id' =>
    obtain rfl := Option.some.inj h
    simp only [ClusterMaster.unbanNode,counts,Dict.get?_erase,clears,reportsFault,
      decide_eq_true_eq,Bool.false_eq_true,if_false]
    split_ifs <;> rfl
  | probe =>
    obtain rfl := Option.some.inj h
    simp only [ClusterMaster.probeBannedNodes,ClusterMaster.spawn,counts,
      (get?_foldl_unban _ _ _).2,mem_unknown_iff,reportsFault,Bool.false_eq_true,if_false]
    split_ifs <;> rfl
  | probed cid ok =>
    obtain ⟨id',rest,hprobing,rfl⟩ := probed_eq h
    simp only [ClusterMaster.probed,ClusterMaster.unbanNode,ClusterMaster.setFrame,counts,clears,
      reportsFault,hprobing,Option.some.injEq,decide_eq_true_eq,Bool.false_eq_true,if_false]
    cases ok <;> by_cases hid : id = id' <;> simp [Dict.get?_erase,hid,eq_comm]

theorem banDuration_pos (now : ℚ) : now < now+banDurationS := by
  norm_num [banDurationS]

theorem isNodeBanned_erase (d : Dict NodeId ℚ) (id id' : NodeId)
    (h : (d.get? id).any (fun u => decide (now < u)) = false) :
    ((d.erase id').get? id).any (fun u => decide (now < u)) = false := by
  rw [Dict.get?_erase]
  split_ifs
  · rfl
  · exact h

theorem dropExpiredBan_free (id' : NodeId) (h : m.isNodeBanned id now = false) :
    (m.dropExpiredBan id' now).isNodeBanned id now = false := by
  unfold ClusterMaster.dropExpiredBan
  split_ifs
  · exact isNodeBanned_erase _ _ _ h
  · exact h

/-- A ban starts with the faults on record, or with a failed probe. -/
theorem banned_step {op : NodeOp} (h : s.master.step (op.event now) = some m)
    (hfree : s.master.isNodeBanned id now = false) :
    m.isNodeBanned id now = true ↔ (s.reportsFault id op = true ∧
        3 ≤ ((counts s.master id ++ [now]).filter (inWindow now)).length) ∨
      ∃ cid, op = .probed cid false ∧ s.probing? cid = some id := by
  cases op with
  | register info =>
    obtain rfl := Option.some.inj h
    have hm : (s.master.registerNode info now).isNodeBanned id now = false := by
      unfold ClusterMaster.registerNode
      split_ifs
      · exact hfree
      · exact dropExpiredBan_free info.nodeId hfree
    simp [hm,reportsFault]
  | heartbeat id' total available active supervisor =>
    obtain rfl := Option.some.inj h
    have hm : (s.master.updateHeartbeat id' total available active supervisor now).isNodeBanned id
        now = false := hfree
    simp [hm,reportsFault]
  | drain id' draining =>
    obtain rfl := Option.some.inj h
    have hm : (s.master.setNodeDraining id' draining).isNodeBanned id now = false := hfree
    simp [hm,reportsFault]
  | fault id' =>
    obtain rfl := Option.some.inj h
    simp only [reportsFault,Bool.and_eq_true,decide_eq_true_eq,reduceCtorEq,false_and,exists_false,
      or_false]
    unfold ClusterMaster.reportFault
    by_cases hin : s.master.nodes.contains id' = true
    · rw [if_pos hin]
      by_cases hid : id = id'
      · subst hid
        simp only [ClusterMaster.isNodeBanned,hin,and_self,true_and,counts]
        by_cases hcount : faultThreshold ≤ (((s.master.faultCounts.get? id).getD [] ++
            [now]).filter fun t => decide (now-t ≤ faultWindowS)).length
        · rw [if_pos hcount,Dict.get?_set_self]
          exact iff_of_true (by simpa using banDuration_pos now) hcount
        · rw [if_neg hcount]
          refine iff_of_false ?_ hcount
          rw [ClusterMaster.isNodeBanned] at hfree
          rw [hfree]
          simp
      · refine iff_of_false ?_ (by simp [hid])
        rw [ClusterMaster.isNodeBanned] at hfree ⊢
        dsimp only
        split_ifs
        · rw [Dict.get?_set_ne _ _ hid,hfree]
          simp
        · rw [hfree]
          simp
    · rw [if_neg hin,hfree]
      refine iff_of_false (by simp) ?_
      rintro ⟨⟨rfl,hknown⟩,-⟩
      exact hin hknown
  | refresh =>
    obtain rfl := Option.some.inj h
    have hm : (s.master.refreshNodes now).isNodeBanned id now = false := by
      unfold ClusterMaster.refreshNodes
      dsimp only
      split_ifs <;> exact hfree
    simp [hm,reportsFault]
  | unban id' =>
    obtain rfl := Option.some.inj h
    have hm : (s.master.unbanNode id').isNodeBanned id now = false :=
      isNodeBanned_erase _ _ _ hfree
    simp [hm,reportsFault]
  | probe =>
    obtain rfl := Option.some.inj h
    have hm : (s.master.probeBannedNodes now).isNodeBanned id now = false := by
      simp only [ClusterMaster.probeBannedNodes,ClusterMaster.spawn,ClusterMaster.isNodeBanned,
        (get?_foldl_unban _ _ _).1]
      split_ifs
      · rfl
      · exact hfree
    simp [hm,reportsFault]
  | probed cid ok =>
    obtain ⟨id',rest,hprobing,rfl⟩ := probed_eq h
    cases ok with
    | true =>
      have hm : (s.master.probed cid id' rest true now).isNodeBanned id now = false :=
        isNodeBanned_erase _ _ _ hfree
      simp [hm,reportsFault]
    | false =>
      rw [ClusterMaster.isNodeBanned] at hfree
      simp only [ClusterMaster.probed,ClusterMaster.setFrame,ClusterMaster.isNodeBanned,
        Bool.false_eq_true,if_false,reportsFault,false_and,false_or,NodeOp.probed.injEq,and_true]
      by_cases hid : id = id'
      · subst hid
        rw [Dict.get?_set_self]
        exact iff_of_true (by simpa using banDuration_pos now) ⟨cid,rfl,hprobing⟩
      · rw [Dict.get?_set_ne _ _ hid,hfree]
        refine iff_of_false (by simp) ?_
        rintro ⟨cid',rfl,hp⟩
        exact hid (Option.some.inj (hp.symm.trans hprobing))

/-- A node's status tells whether it had a fault, and `OFFLINE` that it is silent; the faults
on record are those in every window from now on. -/
structure Tracked (s : NodeHistory) : Prop where
  known : ∀ id ∈ s.faulted, s.master.nodes.contains id = true
  fault : ∀ id n, s.master.nodes.get? id = some n → (n.status = .fault ↔ id ∈ s.faulted)
  sound : ∀ id n, s.master.nodes.get? id = some n → n.status ≠ .error
  silent : ∀ id n, s.master.nodes.get? id = some n → n.status = .offline →
    s.master.config.heartbeatTimeout ≤ s.clock-n.lastHeartbeat
  window : ∀ id now, s.clock ≤ now →
    (counts s.master id).filter (inWindow now) = (s.reports id).filter (inWindow now)

theorem tracked_start (config : MasterConfig) (ha : HaState) (clock : ℚ) :
    (start config ha clock).Tracked := by
  refine ⟨by simp [start],?_,?_,?_,fun _ _ _ => rfl⟩ <;>
    simp [start,ClusterMaster.create]

theorem filter_window {now later : ℚ} (h : now ≤ later) (l : List ℚ) :
    (l.filter (inWindow now)).filter (inWindow later) = l.filter (inWindow later) := by
  rw [List.filter_filter]
  apply List.filter_congr
  intro t _
  by_cases hlater : later-t ≤ faultWindowS
  · have hnow : now-t ≤ faultWindowS := by linarith
    simp [inWindow,hlater,hnow]
  · simp [inWindow,hlater]

theorem Tracked.window_step (hs : s.Tracked) {op : NodeOp} (hle : s.clock ≤ now)
    (h : s.master.step (op.event now) = some m) (id : NodeId) {later : ℚ} (hlater : now ≤ later) :
    (counts m id).filter (inWindow later) =
      ((s.record op now m).reports id).filter (inWindow later) := by
  have hwindow := hs.window id later (hle.trans hlater)
  rw [counts_step h id]
  simp only [record]
  split_ifs
  · rfl
  · rw [filter_window hlater,List.filter_append,hwindow,List.filter_append]
  · exact hwindow

theorem mem_faulted {op : NodeOp} :
    id ∈ (s.record op now m).faulted ↔ id ∈ s.faulted ∨ s.reportsFault id op = true := by
  cases op <;> simp only [record,reportsFault,Bool.false_eq_true,or_false]
  rename_i id'
  simp only [Bool.and_eq_true,decide_eq_true_eq]
  split_ifs with hin
  · rw [List.mem_cons]
    constructor
    · rintro (rfl | h)
      · exact Or.inr ⟨rfl,hin⟩
      · exact Or.inl h
    · rintro (h | ⟨rfl,-⟩)
      · exact Or.inr h
      · exact Or.inl rfl
  · refine ⟨Or.inl,?_⟩
    rintro (h | ⟨rfl,h⟩)
    · exact h
    · exact absurd h hin

inductive NodeChange (s : NodeHistory) (op : NodeOp) (now : ℚ) (id : NodeId) (n n' : NodeInfo) :
    Prop
  | fault (report : s.reportsFault id op = true) (status : n'.status = .fault)
  | beat (quiet : s.reportsFault id op = false) (alive : n'.lastHeartbeat = now)
    (status : n'.status = if n.status = .offline then .online else n.status)
  | refresh (quiet : s.reportsFault id op = false) (alive : n'.lastHeartbeat = n.lastHeartbeat)
    (status : n'.status = s.master.refreshedStatus now n)
  | same (quiet : s.reportsFault id op = false) (alive : n'.lastHeartbeat = n.lastHeartbeat)
    (status : n'.status = n.status)

theorem node_step {op : NodeOp} {n' : NodeInfo} (h : s.master.step (op.event now) = some m)
    (hn : m.nodes.get? id = some n') :
    (∃ n, s.master.nodes.get? id = some n ∧ NodeChange s op now id n n') ∨
      (s.master.nodes.get? id = none ∧ s.reportsFault id op = false ∧ n'.status = .online ∧
        n'.lastHeartbeat = now) := by
  cases op with
  | register info =>
    obtain rfl := Option.some.inj h
    unfold ClusterMaster.registerNode at hn
    split_ifs at hn
    · exact Or.inl ⟨n',hn,.same rfl rfl rfl⟩
    · simp only [ClusterMaster.spawn,Dict.get?_set] at hn
      split_ifs at hn with hid
      · obtain rfl := Option.some.inj hn
        rw [hid]
        unfold ClusterMaster.registeredNode
        cases hold : s.master.nodes.get? info.nodeId with
        | none => exact Or.inr ⟨rfl,rfl,rfl,rfl⟩
        | some old => exact Or.inl ⟨old,rfl,.beat rfl rfl rfl⟩
      · exact Or.inl ⟨n',hn,.same rfl rfl rfl⟩
  | heartbeat id' total available active supervisor =>
    obtain rfl := Option.some.inj h
    simp only [ClusterMaster.updateHeartbeat,Dict.get?_modify] at hn
    split_ifs at hn
    · obtain ⟨n,hold,rfl⟩ := Option.map_eq_some_iff.mp hn
      exact Or.inl ⟨n,hold,.beat rfl rfl rfl⟩
    · exact Or.inl ⟨n',hn,.same rfl rfl rfl⟩
  | drain id' draining =>
    obtain rfl := Option.some.inj h
    simp only [ClusterMaster.setNodeDraining,Dict.get?_modify] at hn
    split_ifs at hn
    · obtain ⟨n,hold,rfl⟩ := Option.map_eq_some_iff.mp hn
      exact Or.inl ⟨n,hold,.same rfl rfl rfl⟩
    · exact Or.inl ⟨n',hn,.same rfl rfl rfl⟩
  | fault id' =>
    obtain rfl := Option.some.inj h
    unfold ClusterMaster.reportFault at hn
    by_cases hin : s.master.nodes.contains id' = true
    · simp only [hin,if_true,Dict.get?_modify] at hn
      split_ifs at hn with hid
      · obtain ⟨n,hold,rfl⟩ := Option.map_eq_some_iff.mp hn
        exact Or.inl ⟨n,hold,.fault (by simp [reportsFault,hid,hin]) rfl⟩
      · exact Or.inl ⟨n',hn,.same (by simp [reportsFault,hid]) rfl rfl⟩
    · rw [if_neg hin] at hn
      have hquiet : s.reportsFault id (.fault id') = false := by
        simp only [reportsFault,Bool.and_eq_false_iff,decide_eq_false_iff_not]
        by_cases hid : id = id'
        · subst hid
          exact Or.inr (eq_false_of_ne_true hin)
        · exact Or.inl hid
      exact Or.inl ⟨n',hn,.same hquiet rfl rfl⟩
  | refresh =>
    obtain rfl := Option.some.inj h
    have hmap : (s.master.refreshNodes now).nodes.get? id = (s.master.nodes.get? id).map fun n =>
        { n with status := s.master.refreshedStatus now n } := by
      unfold ClusterMaster.refreshNodes
      dsimp only
      split_ifs <;> simp only [ClusterMaster.spawn,Dict.get?_mapValues]
    rw [hmap] at hn
    obtain ⟨n,hold,rfl⟩ := Option.map_eq_some_iff.mp hn
    exact Or.inl ⟨n,hold,.refresh rfl rfl rfl⟩
  | unban id' =>
    obtain rfl := Option.some.inj h
    exact Or.inl ⟨n',hn,.same rfl rfl rfl⟩
  | probe =>
    obtain rfl := Option.some.inj h
    simp only [ClusterMaster.probeBannedNodes,ClusterMaster.spawn,(foldl_unban_nodes _ _).1] at hn
    exact Or.inl ⟨n',hn,.same rfl rfl rfl⟩
  | probed cid ok =>
    obtain ⟨id',rest,-,rfl⟩ := probed_eq h
    have hnodes : (s.master.probed cid id' rest ok now).nodes = s.master.nodes := by
      cases ok <;> rfl
    rw [hnodes] at hn
    exact Or.inl ⟨n',hn,.same rfl rfl rfl⟩

theorem reportsFault_known {op : NodeOp} (h : s.reportsFault id op = true) :
    s.master.nodes.contains id = true := by
  cases op with
  | fault id' =>
    simp only [reportsFault,Bool.and_eq_true,decide_eq_true_eq] at h
    exact h.2
  | _ => simp [reportsFault] at h

theorem config_step {op : NodeOp} (h : s.master.step (op.event now) = some m) :
    m.config = s.master.config := by
  cases op with
  | register info =>
    obtain rfl := Option.some.inj h
    unfold ClusterMaster.registerNode
    split_ifs
    · rfl
    · simp only [ClusterMaster.spawn,ClusterMaster.dropExpiredBan]
      split_ifs <;> rfl
  | fault id' =>
    obtain rfl := Option.some.inj h
    unfold ClusterMaster.reportFault
    split_ifs <;> rfl
  | refresh =>
    obtain rfl := Option.some.inj h
    unfold ClusterMaster.refreshNodes
    dsimp only
    split_ifs <;> rfl
  | probe =>
    obtain rfl := Option.some.inj h
    exact (foldl_unban_nodes _ _).2
  | probed cid ok =>
    obtain ⟨id',rest,-,rfl⟩ := probed_eq h
    cases ok <;> rfl
  | heartbeat | drain | unban =>
    obtain rfl := Option.some.inj h
    rfl

theorem known_step {op : NodeOp} (h : s.master.step (op.event now) = some m)
    (hin : s.master.nodes.contains id = true) : m.nodes.contains id = true := by
  have hmodify : ∀ (id' : NodeId) (f : NodeInfo → NodeInfo),
      (s.master.nodes.modify id' f).contains id = true := by
    intro id' f
    simp only [Dict.contains,Dict.get?_modify] at hin ⊢
    split_ifs
    · simpa using hin
    · exact hin
  cases op with
  | register info =>
    obtain rfl := Option.some.inj h
    unfold ClusterMaster.registerNode
    split_ifs
    · exact hin
    · simp only [ClusterMaster.spawn,Dict.contains,Dict.get?_set] at hin ⊢
      split_ifs
      · rfl
      · exact hin
  | heartbeat id' total available active supervisor =>
    obtain rfl := Option.some.inj h
    exact hmodify id' _
  | drain id' draining =>
    obtain rfl := Option.some.inj h
    exact hmodify id' _
  | fault id' =>
    obtain rfl := Option.some.inj h
    unfold ClusterMaster.reportFault
    split_ifs
    · exact hmodify id' _
    · exact hin
  | refresh =>
    obtain rfl := Option.some.inj h
    unfold ClusterMaster.refreshNodes
    dsimp only
    split_ifs <;> simpa [ClusterMaster.spawn,Dict.contains,Dict.get?_mapValues] using hin
  | unban id' =>
    obtain rfl := Option.some.inj h
    exact hin
  | probe =>
    obtain rfl := Option.some.inj h
    simpa only [ClusterMaster.probeBannedNodes,ClusterMaster.spawn,(foldl_unban_nodes _ _).1]
      using hin
  | probed cid ok =>
    obtain ⟨id',rest,-,rfl⟩ := probed_eq h
    cases ok <;> exact hin

theorem Tracked.step (hs : s.Tracked) {op : NodeOp} {t : NodeHistory}
    (h : s.step (op,now) = some t) : t.Tracked := by
  obtain ⟨hle,m,hm,rfl⟩ := step_eq h
  refine ⟨?_,?_,?_,?_,fun id later hlater => hs.window_step hle hm id hlater⟩
  · intro id hid
    rcases mem_faulted.mp hid with hold | hnew
    · exact known_step hm (hs.known id hold)
    · exact known_step hm (reportsFault_known hnew)
  · intro id n' hn
    rw [mem_faulted]
    rcases node_step hm hn with ⟨n,hold,hchange⟩ | ⟨hnone,hquiet,honline,-⟩
    · have hfault := hs.fault id n hold
      cases hchange with
      | fault report status => exact iff_of_true status (Or.inr report)
      | beat quiet alive status =>
        rw [quiet,status]
        simp only [Bool.false_eq_true,or_false,← hfault]
        split_ifs with hoff
        · simp [hoff]
        · rfl
      | refresh quiet alive status =>
        rw [quiet,status]
        simp only [Bool.false_eq_true,or_false,← hfault]
        unfold ClusterMaster.refreshedStatus
        split_ifs with hup <;> first | rfl | (rcases hup with hup | hup <;> simp [hup])
      | same quiet alive status => simp [quiet,status,hfault]
    · have hnot : id ∉ s.faulted := by
        intro hid
        have := hs.known id hid
        simp [Dict.contains,hnone] at this
      simp [honline,hquiet,hnot]
  · intro id n' hn
    rcases node_step hm hn with ⟨n,hold,hchange⟩ | ⟨-,-,honline,-⟩
    · have hsound := hs.sound id n hold
      cases hchange with
      | fault report status => simp [status]
      | beat quiet alive status =>
        rw [status]
        split_ifs
        · simp
        · exact hsound
      | refresh quiet alive status =>
        rw [status]
        unfold ClusterMaster.refreshedStatus
        split_ifs <;> first | exact hsound | simp
      | same quiet alive status => rwa [status]
    · simp [honline]
  · intro id n' hn hoff
    have hconfig : (s.record op now m).master.config = s.master.config := config_step hm
    rw [hconfig]
    have hclock : (s.record op now m).clock = now := rfl
    rw [hclock]
    rcases node_step hm hn with ⟨n,hold,hchange⟩ | ⟨-,-,honline,-⟩
    · have hsilent := hs.silent id n hold
      cases hchange with
      | fault report status => simp [status] at hoff
      | beat quiet alive status =>
        rw [status] at hoff
        split_ifs at hoff with hwas
        exact absurd hoff hwas
      | refresh quiet alive status =>
        rw [status] at hoff
        unfold ClusterMaster.refreshedStatus at hoff
        rw [alive]
        split_ifs at hoff with hup hlate
        · exact hlate
        · have := hsilent hoff
          linarith
      | same quiet alive status =>
        have := hsilent (status ▸ hoff)
        rw [alive]
        linarith
    · simp [honline] at hoff

theorem listed_iff (hs : s.Tracked) : s.Listed ↔ s.Blameless := by
  apply forall₂_congr
  intro now hle
  refine forall₃_congr fun id n he => ?_
  have hmem : n ∈ s.master.nodes.values := Dict.mem_values_iff.mpr ⟨id,he.known⟩
  have hup : n ∈ s.master.getOnlineNodes now ↔ n.status ≠ .fault := by
    have hsound := hs.sound id n he.known
    have hsilent := hs.silent id n he.known
    have halive := he.alive
    simp only [ClusterMaster.getOnlineNodes,List.mem_filter,hmem,true_and,Bool.and_eq_true,
      Bool.or_eq_true,decide_eq_true_eq,halive,and_true]
    cases hstatus : n.status with
    | online | busy | fault => simp
    | error => exact absurd hstatus hsound
    | offline =>
      have := hsilent hstatus
      linarith
  rw [hup,ne_eq,hs.fault id n he.known]

theorem bansRight_iff (hs : s.Tracked) {op : NodeOp} {t : NodeHistory}
    (h : s.step (op,now) = some t) : s.BansRight (op,now) t ↔ s.ProbesBanned op := by
  obtain ⟨hle,m,hm,rfl⟩ := step_eq h
  have hcount : ∀ id, ((counts s.master id ++ [now]).filter (inWindow now)) =
      (s.reports id ++ [now]).filter (inWindow now) := by
    intro id
    rw [List.filter_append,hs.window id now hle,List.filter_append]
  constructor
  · intro hbans cid id hop hprobing
    by_contra hgone
    have hnone : s.master.bannedNodes.get? id = none := by
      simpa [Dict.contains] using hgone
    have hfree : s.master.isNodeBanned id now = false := by
      simp [ClusterMaster.isNodeBanned,hnone]
    have hbanned := (banned_step hm hfree).mpr (Or.inr ⟨cid,hop,hprobing⟩)
    rcases (hbans id hfree).mp hbanned with ⟨hreport,-⟩ | ⟨cid',-,-,hin⟩
    · rw [hop] at hreport
      simp [reportsFault] at hreport
    · exact hgone hin
  · intro hprobes id hfree
    refine (banned_step hm hfree).trans ?_
    rw [hcount id]
    refine or_congr Iff.rfl ?_
    constructor
    · rintro ⟨cid,hop,hprobing⟩
      exact ⟨cid,hop,hprobing,hprobes cid id hop hprobing⟩
    · rintro ⟨cid,hop,hprobing,-⟩
      exact ⟨cid,hop,hprobing⟩

/-- Along a run, bans start and end right and every node that heartbeats, is not banned and
not draining is listed, if and only if none of these nodes ever had a fault, and no probe
fails whose node was unbanned meanwhile. -/
theorem node_life_cycle_iff (config : MasterConfig) (ha : HaState) (clock : ℚ)
    (es : List (NodeOp × ℚ)) :
    machine.Along (fun s e t => s.BansRight e t ∧ t.Listed) (start config ha clock) es ↔
      machine.Along (fun s e t => s.ProbesBanned e.1 ∧ t.Blameless) (start config ha clock) es := by
  apply Machine.along_congr_of_invariant (I := Tracked)
  · intro s e t hs ht
    exact and_congr (bansRight_iff hs ht) (listed_iff (hs.step ht))
  · intro s e t hs ht _
    exact hs.step ht
  · exact tracked_start config ha clock

/-- A node is banned after three faults, heartbeats again, and a probe lifts the ban. -/
def liftedBan : List (NodeOp × ℚ) :=
  [(.register (ClusterMaster.worker "n1"),0),(.fault "n1",1),(.fault "n1",2),(.fault "n1",3),
    (.heartbeat "n1" none none none none,301),(.probe,304),(.probed 1 true,304)]

theorem unbanned_node_is_not_listed : ¬∀ (config : MasterConfig) (ha : HaState) (clock : ℚ)
    (es : List (NodeOp × ℚ)),
    machine.Along (fun s e t => s.BansRight e t ∧ t.Listed) (start config ha clock) es := by
  intro h
  have hexec : (machine.exec (start ClusterMaster.defaultConfig .create 0) liftedBan).any (fun s =>
      (machine.step s (.heartbeat "n1" none none none none,305)).any fun t =>
        (t.master.nodes.get? "n1").any fun n => decide (t.clock ≤ 305 ∧
          305-n.lastHeartbeat < t.master.config.heartbeatTimeout ∧
          t.master.isNodeBanned "n1" 305 = false ∧ n.draining = false ∧
          n ∉ t.master.getOnlineNodes 305)) = true := by
    decide +kernel
  obtain ⟨s,hs,hexec⟩ := (Option.any_eq_true _ _).mp hexec
  obtain ⟨t,ht,hexec⟩ := (Option.any_eq_true _ _).mp hexec
  obtain ⟨n,hn,hexec⟩ := (Option.any_eq_true _ _).mp hexec
  obtain ⟨hle,halive,hfree,hdrain,hnot⟩ := of_decide_eq_true hexec
  have hlast := (h _ _ _ (liftedBan ++ [(.heartbeat "n1" none none none none,305)])).last hs ht
  exact hnot (hlast.2 305 hle "n1" n ⟨hn,halive,hfree,hdrain⟩)

end NodeHistory
end FusionMultiNodes

import FusionMultiNodes.Master.NodeLife

/-! The merge of a peer's node table. It takes over every record of the peer, so that it is
harmless exactly where the local table has nothing newer. -/
namespace FusionMultiNodes

/-- The node part of a pushed state; `savedAt` is when it was taken. -/
structure SyncSnapshot where
  nodes : List NodeInfo
  bannedNodes : List (NodeId × ℚ)
  savedAt : ℚ

namespace SyncSnapshot

/-- The record a snapshot has of a node: of several the last, and none under an empty id. -/
def node? (snap : SyncSnapshot) (id : NodeId) : Option NodeInfo :=
  (snap.nodes.filter fun n => decide (n.nodeId ≠ "")).reverse.find? fun n => decide (n.nodeId = id)

/-- The snapshot has a ban of the node that has not run out. -/
def bans (snap : SyncSnapshot) (id : NodeId) (now : ℚ) : Bool :=
  snap.bannedNodes.any fun p => decide (p.1 = id) && decide (now < p.2)

/-- Two snapshots have the same records of the nodes they both have. -/
def Agrees (a b : SyncSnapshot) : Prop :=
  ∀ id x y, a.node? id = some x → b.node? id = some y → x = y

end SyncSnapshot

inductive SyncEvent where
  | change (op : NodeOp) (now : ℚ)
  | unregister (id : NodeId) (banned : Bool) (now : ℚ)
  | receive (snap : SyncSnapshot) (now : ℚ)

/-- A master, and when the record of a node last changed there, and the node was last drained
or undrained, unbanned and unregistered. -/
structure SyncHistory where
  master : ClusterMaster
  changedAt : NodeId → Option ℚ := fun _ => none
  drainedAt : NodeId → Option ℚ := fun _ => none
  unbannedAt : NodeId → Option ℚ := fun _ => none
  unregisteredAt : NodeId → Option ℚ := fun _ => none

namespace ClusterMaster

def receive (m : ClusterMaster) (snap : SyncSnapshot) (now : ℚ) : ClusterMaster :=
  m.receiveSyncedState snap.nodes snap.bannedNodes now

theorem get?_receive (m : ClusterMaster) (snap : SyncSnapshot) (now : ℚ) (id : NodeId) :
    (m.receive snap now).nodes.get? id = (snap.node? id).or (m.nodes.get? id) := by
  simp only [receive,receiveSyncedState,Dict.get?_foldl_set NodeInfo.nodeId,SyncSnapshot.node?]

theorem banned_foldl (l : List (NodeId × ℚ)) {now later : ℚ} (hle : now ≤ later)
    (d : Dict NodeId ℚ) (id : NodeId) :
    ((l.foldl (fun d p =>
        if now < p.2 ∧ ((d.get? p.1).all fun cur => decide (cur < p.2)) = true then d.set p.1 p.2
        else d) d).get? id).any (fun u => decide (later < u)) =
      ((d.get? id).any (fun u => decide (later < u)) ||
        l.any fun p => decide (p.1 = id) && decide (later < p.2)) := by
  induction l generalizing d with
  | nil => simp
  | cons p l ih =>
    rw [List.foldl_cons,ih,List.any_cons,← Bool.or_assoc]
    congr 1
    by_cases hid : p.1 = id
    · subst hid
      by_cases hrun : later < p.2
      · simp only [hle.trans_lt hrun,hrun,true_and,decide_true,Bool.and_self,Bool.or_true]
        split_ifs with hlater
        · simp [hrun]
        · cases hcur : d.get? p.1 with
          | none => simp [hcur] at hlater
          | some cur =>
            have hlast : p.2 ≤ cur := by simpa [hcur] using hlater
            simpa using hrun.trans_le hlast
      · simp only [hrun,decide_true,decide_false,Bool.and_false,Bool.or_false]
        split_ifs with hset
        · -- the new ban has run out by then, and the old one ended before it
          rw [Dict.get?_set_self]
          cases hcur : d.get? p.1 with
          | none => simpa using hrun
          | some cur =>
            have hlast : cur < p.2 := by simpa [hcur] using hset.2
            simpa using ⟨fun h => absurd h hrun,fun h => absurd (h.trans hlast) hrun⟩
        · rfl
    · have hne : id ≠ p.1 := fun h => hid h.symm
      simp only [hid,decide_false,Bool.false_and,Bool.or_false]
      split_ifs
      · rw [Dict.get?_set_ne _ _ hne]
      · rfl

/-- From the merge on, a node is banned if it was before, or is in the snapshot. -/
theorem isNodeBanned_receive_later (m : ClusterMaster) (snap : SyncSnapshot) {now later : ℚ}
    (hle : now ≤ later) (id : NodeId) :
    (m.receive snap now).isNodeBanned id later = (m.isNodeBanned id later || snap.bans id later) :=
  banned_foldl snap.bannedNodes hle m.bannedNodes id

/-- A node is banned after the merge if it was before, or is in the snapshot. -/
theorem isNodeBanned_receive (m : ClusterMaster) (snap : SyncSnapshot) (now : ℚ) (id : NodeId) :
    (m.receive snap now).isNodeBanned id now = (m.isNodeBanned id now || snap.bans id now) :=
  m.isNodeBanned_receive_later snap le_rfl id

end ClusterMaster

namespace SyncHistory

variable (s : SyncHistory)

def event : SyncEvent → MasterEvent
  | .change op now => op.event now
  | .unregister id banned now => .unregisterNode id banned now
  | .receive snap now => .receiveSyncedState snap.nodes snap.bannedNodes now

def record (e : SyncEvent) (m : ClusterMaster) : SyncHistory where
  master := m
  changedAt := fun id =>
    if m.nodes.get? id = s.master.nodes.get? id then s.changedAt id
    else match e with
      | .change _ now | .unregister _ _ now => some now
      | .receive .. => s.changedAt id
  drainedAt := match e with
    | .change (.drain id _) now => Function.update s.drainedAt id (some now)
    | _ => s.drainedAt
  unbannedAt := match e with
    | .change (.unban id) now => Function.update s.unbannedAt id (some now)
    | _ => s.unbannedAt
  unregisteredAt := match e with
    | .unregister id _ now => Function.update s.unregisteredAt id (some now)
    | _ => s.unregisteredAt

def machine : Machine SyncHistory SyncEvent :=
  ⟨fun s e => (s.master.step (event e)).map (s.record e)⟩

/-- A local change of a node came after the snapshot was taken. -/
def Outdates (changedAt : Option ℚ) (snap : SyncSnapshot) : Prop :=
  ∃ later, changedAt = some later ∧ snap.savedAt < later

/-- A merge takes back no heartbeat, no record that was changed later, and no later drain, unban
or unregistration. -/
structure MergesRight (snap : SyncSnapshot) (now : ℚ) (t : SyncHistory) : Prop where
  beats : ∀ id n n', s.master.nodes.get? id = some n → t.master.nodes.get? id = some n' →
    n.lastHeartbeat ≤ n'.lastHeartbeat
  newer : ∀ id n, Outdates (s.changedAt id) snap → s.master.nodes.get? id = some n →
    t.master.nodes.get? id = some n
  drains : ∀ id n n', Outdates (s.drainedAt id) snap → s.master.nodes.get? id = some n →
    t.master.nodes.get? id = some n' → n'.draining = n.draining
  unbans : ∀ id, Outdates (s.unbannedAt id) snap → s.master.isNodeBanned id now = false →
    t.master.isNodeBanned id now = false
  unregistered : ∀ id, Outdates (s.unregisteredAt id) snap → s.master.nodes.get? id = none →
    t.master.nodes.get? id = none

structure UpToDate (snap : SyncSnapshot) (now : ℚ) : Prop where
  beats : ∀ id n d, s.master.nodes.get? id = some n → snap.node? id = some d →
    n.lastHeartbeat ≤ d.lastHeartbeat
  newer : ∀ id n d, Outdates (s.changedAt id) snap → s.master.nodes.get? id = some n →
    snap.node? id = some d → d = n
  drains : ∀ id n d, Outdates (s.drainedAt id) snap → s.master.nodes.get? id = some n →
    snap.node? id = some d → d.draining = n.draining
  unbans : ∀ id, Outdates (s.unbannedAt id) snap → s.master.isNodeBanned id now = false →
    snap.bans id now = false
  unregistered : ∀ id, Outdates (s.unregisteredAt id) snap → s.master.nodes.get? id = none →
    snap.node? id = none

def Merges (s : SyncHistory) (e : SyncEvent) (t : SyncHistory) : Prop :=
  ∀ snap now, e = .receive snap now → s.MergesRight snap now t

theorem mergesRight_iff {snap : SyncSnapshot} {now : ℚ} {t : SyncHistory}
    (h : machine.step s (.receive snap now) = some t) :
    s.MergesRight snap now t ↔ s.UpToDate snap now := by
  have ht : t.master = s.master.receive snap now := by
    have hstep : (s.master.step (event (.receive snap now))).map (s.record (.receive snap now)) =
        some t := h
    obtain ⟨m,hm,rfl⟩ := Option.map_eq_some_iff.mp hstep
    exact (Option.some.inj hm).symm
  have hget := s.master.get?_receive snap now
  have hban := s.master.isNodeBanned_receive snap now
  rw [← ht] at hget hban
  constructor
  · rintro ⟨hbeats,hnewer,hdrains,hunbans,hgone⟩
    refine ⟨?_,?_,?_,?_,?_⟩
    · intro id n d hn hd
      exact hbeats id n d hn (by rw [hget,hd,Option.some_or])
    · intro id n d hlate hn hd
      have hafter := hnewer id n hlate hn
      rw [hget,hd,Option.some_or] at hafter
      exact Option.some.inj hafter
    · intro id n d hlate hn hd
      exact hdrains id n d hlate hn (by rw [hget,hd,Option.some_or])
    · intro id hlate hfree
      have hafter := hunbans id hlate hfree
      rw [hban,hfree,Bool.false_or] at hafter
      exact hafter
    · intro id hlate hnone
      have hafter := hgone id hlate hnone
      rw [hget,Option.or_eq_none_iff] at hafter
      exact hafter.1
  · rintro ⟨hbeats,hnewer,hdrains,hunbans,hgone⟩
    -- a record of the table comes from the snapshot or was there
    have hfrom : ∀ id n n', s.master.nodes.get? id = some n → t.master.nodes.get? id = some n' →
        snap.node? id = some n' ∨ n' = n := by
      intro id n n' hn hn'
      rw [hget,hn] at hn'
      cases hd : snap.node? id with
      | none =>
        rw [hd,Option.none_or] at hn'
        exact Or.inr (Option.some.inj hn').symm
      | some d =>
        rw [hd,Option.some_or] at hn'
        exact Or.inl hn'
    refine ⟨?_,?_,?_,?_,?_⟩
    · intro id n n' hn hn'
      rcases hfrom id n n' hn hn' with hd | rfl
      · exact hbeats id n n' hn hd
      · exact le_refl _
    · intro id n hlate hn
      rw [hget,hn]
      cases hd : snap.node? id with
      | none => rfl
      | some d => rw [hnewer id n d hlate hn hd,Option.some_or]
    · intro id n n' hlate hn hn'
      rcases hfrom id n n' hn hn' with hd | rfl
      · exact hdrains id n n' hlate hn hd
      · rfl
    · intro id hlate hfree
      rw [hban,hfree,hunbans id hlate hfree]
      rfl
    · intro id hlate hnone
      rw [hget,hgone id hlate hnone,hnone]
      rfl

end SyncHistory

namespace ClusterMaster

def SameNodes (m m' : ClusterMaster) : Prop := ∀ id, m.nodes.get? id = m'.nodes.get? id

/-- A snapshot that is delivered twice changes nothing the second time. -/
theorem receive_idempotent (m : ClusterMaster) (snap : SyncSnapshot) (now later : ℚ) :
    ((m.receive snap now).receive snap later).SameNodes (m.receive snap now) := by
  intro id
  rw [get?_receive,get?_receive,← Option.or_assoc,Option.or_self]

/-- Two snapshots commute exactly when they agree on the nodes they both have. -/
theorem receive_commutes_iff (m : ClusterMaster) (a b : SyncSnapshot) (now later : ℚ) :
    ((m.receive a now).receive b later).SameNodes ((m.receive b now).receive a later) ↔
      a.Agrees b := by
  have hboth : ∀ (a b : SyncSnapshot) (id : NodeId),
      ((m.receive a now).receive b later).nodes.get? id =
        (b.node? id).or ((a.node? id).or (m.nodes.get? id)) := by
    intro a b id
    rw [get?_receive,get?_receive]
  constructor
  · intro h id x y hx hy
    have hid := h id
    rw [hboth,hboth,hx,hy,Option.some_or,Option.some_or] at hid
    exact (Option.some.inj hid).symm
  · intro h id
    rw [hboth,hboth]
    cases hx : a.node? id with
    | none => simp
    | some x =>
      cases hy : b.node? id with
      | none => simp
      | some y => rw [h id x y hx hy]

end ClusterMaster

namespace SyncHistory

def snapshots (es : List SyncEvent) : List SyncSnapshot :=
  es.filterMap fun
    | .receive snap _ => some snap
    | _ => none

/-- Along a run from any table, every merge is right, and its snapshots can be delivered twice
and in either order, if and only if no delivered snapshot has anything older than the table and
no two of them disagree about a node. -/
theorem state_sync_merge_iff (m : ClusterMaster) (es : List SyncEvent) :
    (machine.Along Merges { master := m } es ∧
      (∀ a ∈ snapshots es, ∀ (m : ClusterMaster) (now later : ℚ),
        ((m.receive a now).receive a later).SameNodes (m.receive a now)) ∧
      ∀ a ∈ snapshots es, ∀ b ∈ snapshots es, ∀ (m : ClusterMaster) (now later : ℚ),
        ((m.receive a now).receive b later).SameNodes ((m.receive b now).receive a later)) ↔
    machine.Along (fun s e _ => ∀ snap now, e = .receive snap now → s.UpToDate snap now)
        { master := m } es ∧
      ∀ a ∈ snapshots es, ∀ b ∈ snapshots es, a.Agrees b := by
  have hmerges := Machine.along_congr (m := machine) (P := Merges)
    (Q := fun s e _ => ∀ snap now, e = .receive snap now → s.UpToDate snap now)
    (fun s e t ht => forall₃_congr fun snap now he => mergesRight_iff s (he ▸ ht))
    { master := m } es
  rw [hmerges]
  refine and_congr_right fun _ => ⟨fun h => ?_,fun h => ⟨?_,?_⟩⟩
  · intro a ha b hb
    exact (m.receive_commutes_iff a b 0 0).mp (h.2 a ha b hb m 0 0)
  · intro a _ m now later
    exact m.receive_idempotent a now later
  · intro a ha b hb m now later
    exact (m.receive_commutes_iff a b now later).mpr (h a ha b hb)

/-- The record of `n1` as a peer has it since 0 s, and the snapshot it takes at 1 s. -/
def oldSnapshot : SyncSnapshot := ⟨[ClusterMaster.worker "n1"],[],1⟩

/-- `n1` is drained at 2 s, and the snapshot arrives at 3 s: the drain is gone. -/
theorem stale_snapshot_undoes_drain : ¬∀ (m : ClusterMaster) (es : List SyncEvent),
    machine.Along Merges { master := m } es ∧
      (∀ a ∈ snapshots es, ∀ (m : ClusterMaster) (now later : ℚ),
        ((m.receive a now).receive a later).SameNodes (m.receive a now)) ∧
      ∀ a ∈ snapshots es, ∀ b ∈ snapshots es, ∀ (m : ClusterMaster) (now later : ℚ),
        ((m.receive a now).receive b later).SameNodes ((m.receive b now).receive a later) := by
  intro h
  have hrun := (h (.create ClusterMaster.defaultConfig .create)
    ([.change (.register (ClusterMaster.worker "n1")) 0,.change (.drain "n1" true) 2] ++
      [.receive oldSnapshot 3])).1
  have hexec : (machine.exec { master := .create ClusterMaster.defaultConfig .create }
      [.change (.register (ClusterMaster.worker "n1")) 0,.change (.drain "n1" true) 2]).any
      (fun s => (machine.step s (.receive oldSnapshot 3)).any fun t =>
        (s.master.nodes.get? "n1").any fun n => (t.master.nodes.get? "n1").any fun n' =>
          decide (s.drainedAt "n1" = some 2 ∧ n'.draining ≠ n.draining)) = true := by
    decide +kernel
  obtain ⟨s,hs,hexec⟩ := (Option.any_eq_true _ _).mp hexec
  obtain ⟨t,ht,hexec⟩ := (Option.any_eq_true _ _).mp hexec
  obtain ⟨n,hn,hexec⟩ := (Option.any_eq_true _ _).mp hexec
  obtain ⟨n',hn',hexec⟩ := (Option.any_eq_true _ _).mp hexec
  obtain ⟨hdrained,hne⟩ := of_decide_eq_true hexec
  have hlast := hrun.last hs ht oldSnapshot 3 rfl
  have hlate : Outdates (s.drainedAt "n1") oldSnapshot := ⟨2,hdrained,by norm_num [oldSnapshot]⟩
  exact hne (hlast.drains "n1" n n' hlate hn hn')

end SyncHistory
end FusionMultiNodes

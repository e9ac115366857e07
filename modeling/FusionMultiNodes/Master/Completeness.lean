import FusionMultiNodes.Master.Constraints

/-! How many nodes a selection finds. -/
namespace FusionMultiNodes

/-- The router has metrics of the node that are fresh, and that show the memory asked for. -/
def LoadRouter.ranks (r : LoadRouter) (requiredUmaRatio now : ℚ) (n : NodeInfo) : Bool :=
  (r.metrics.get? n.nodeId).any fun m =>
    decide (now-m.timestamp ≤ staleThreshold) &&
      (decide (requiredUmaRatio ≤ 0) || decide (requiredUmaRatio ≤ m.umaAvailableRatio))

theorem LoadRouter.isSome_candidateScore (r : LoadRouter) (preferred : NodeId)
    (requiredUmaRatio : ℚ) (tier : String) (now : ℚ) (n : NodeInfo) :
    (r.candidateScore preferred requiredUmaRatio tier now n).isSome =
      r.ranks requiredUmaRatio now n := by
  unfold candidateScore ranks
  cases r.metrics.get? n.nodeId with
  | none => rfl
  | some m =>
    simp only [Option.bind_some,Option.any_some]
    by_cases hstale : staleThreshold < now-m.timestamp
    · rw [if_pos hstale,decide_eq_false (not_le.mpr hstale)]
      rfl
    · rw [if_neg hstale]
      by_cases hshort : 0 < requiredUmaRatio ∧ m.umaAvailableRatio < requiredUmaRatio
      · simp [hshort]
      · rw [if_neg hshort]
        have hfresh := not_lt.mp hstale
        rcases not_and_or.mp hshort with hnone | henough
        · simp [hfresh,not_lt.mp hnone]
        · simp [hfresh,not_lt.mp henough]

theorem LoadRouter.length_selectN (r : LoadRouter) (candidates : List NodeInfo) (count : ℕ)
    (preferred : NodeId) (requiredUmaRatio : ℚ) (tier : String) (now : ℚ) :
    (r.selectN candidates count preferred requiredUmaRatio tier now).length =
      min count (candidates.filter (r.ranks requiredUmaRatio now)).length := by
  simp only [selectN,sortDescending,List.length_take,List.length_map,List.length_insertionSort,
    List.length_filterMap_eq_countP,Option.isSome_map,isSome_candidateScore]
  rw [List.countP_eq_length_filter]

theorem ClusterTask.need_pos (t : ClusterTask) : 0 < t.need := by
  unfold need
  split_ifs with h
  · exact Nat.one_pos
  · exact Nat.pos_of_ne_zero h

namespace ClusterMaster

/-- The node meets every constraint of a task that needs `requiredMem`. -/
structure Suitable (m : ClusterMaster) (t : ClusterTask) (requiredMem now : ℚ) (n : NodeInfo) :
    Prop where
  opened : m.Open t n now
  up : n.status = .online ∨ n.status = .busy
  alive : now-n.lastHeartbeat < m.config.heartbeatTimeout
  pinned : t.pinnedNodeId = "" ∨ n.nodeId = t.pinnedNodeId
  memory : requiredMem ≤ 0 ∨ requiredMem ≤ n.availableMemoryGb

/-- The share of their memory that the router asks of the candidates. -/
def requiredUma (requiredMem : ℚ) (candidates : List NodeInfo) : ℚ :=
  let total := (candidates.map NodeInfo.totalMemoryGb).sum
  requiredMem/max (if total = 0 then 1 else total) 1

variable {m : ClusterMaster} {t : ClusterTask} {requiredMem now : ℚ} {n : NodeInfo}

theorem suitable_iff : m.Suitable t requiredMem now n ↔
    (((decide (n.status = .online) || decide (n.status = .busy)) &&
      decide (now-n.lastHeartbeat < m.config.heartbeatTimeout)) &&
        m.eligible t requiredMem now n) = true := by
  simp only [eligible,Bool.and_eq_true,Bool.or_eq_true,decide_eq_true_eq,Bool.not_eq_true',
    Option.all_eq_true]
  constructor
  · rintro ⟨⟨hexcluded,hdraining,hbanned,hprovides,hrole⟩,hup,halive,hpinned,hmemory⟩
    exact ⟨⟨hup,halive⟩,⟨⟨⟨⟨⟨⟨hbanned,hdraining⟩,hrole⟩,hexcluded⟩,hpinned⟩,hprovides⟩,hmemory⟩⟩
  · rintro ⟨⟨hup,halive⟩,⟨⟨⟨⟨⟨⟨hbanned,hdraining⟩,hrole⟩,hexcluded⟩,hpinned⟩,hprovides⟩,hmemory⟩⟩
    exact ⟨⟨hexcluded,hdraining,hbanned,hprovides,hrole⟩,hup,halive,hpinned,hmemory⟩

instance (m : ClusterMaster) (t : ClusterTask) (requiredMem now : ℚ) :
    DecidablePred (m.Suitable t requiredMem now) := fun _ => decidable_of_iff _ suitable_iff.symm

/-- The registered nodes that meet every constraint of the task. -/
def suitableNodes (m : ClusterMaster) (t : ClusterTask) (requiredMem now : ℚ) : List NodeInfo :=
  m.nodes.values.filter fun n => decide (m.Suitable t requiredMem now n)

/-- A task that has enough suitable nodes is given as many of them as it needs. -/
def SelectsEnough (m : ClusterMaster) (t : ClusterTask) (requiredMem now : ℚ) : Prop :=
  t.need ≤ (m.suitableNodes t requiredMem now).length →
    (m.selectNodes t requiredMem now).length = t.need ∧
      ((m.selectNodes t requiredMem now).map NodeInfo.nodeId).Nodup ∧
      ∀ n ∈ m.selectNodes t requiredMem now,
        n ∈ m.nodes.values ∧ m.Suitable t requiredMem now n

def rankedNodes (m : ClusterMaster) (t : ClusterTask) (requiredMem now : ℚ) : List NodeInfo :=
  (m.suitableNodes t requiredMem now).filter
    (m.loadRouter.ranks (requiredUma requiredMem (m.suitableNodes t requiredMem now)) now)

theorem candidates_eq (m : ClusterMaster) (t : ClusterTask) (requiredMem now : ℚ) :
    (m.getOnlineNodes now).filter (m.eligible t requiredMem now) =
      m.suitableNodes t requiredMem now := by
  rw [getOnlineNodes,suitableNodes,List.filter_filter]
  congr 1
  funext n
  rw [Bool.and_comm,Bool.eq_iff_iff,← suitable_iff,decide_eq_true_eq]

theorem length_sortCandidates (mode : ParallelMode) (l : List NodeInfo) :
    (sortCandidates mode l).length = l.length :=
  (sortCandidates_perm mode l).length_eq

def preferredFirst (t : ClusterTask) (candidates : List NodeInfo) : List NodeInfo :=
  if t.preferredNodeId = "" then candidates
  else candidates.filter (fun n => decide (n.nodeId = t.preferredNodeId)) ++
    candidates.filter fun n => decide (n.nodeId ≠ t.preferredNodeId)

theorem length_preferredFirst (t : ClusterTask) (candidates : List NodeInfo) :
    (preferredFirst t candidates).length = candidates.length := by
  have hsplit := (List.filter_append_perm
    (fun n : NodeInfo => decide (n.nodeId = t.preferredNodeId)) candidates).length_eq
  simp only [← decide_not] at hsplit
  unfold preferredFirst
  split_ifs
  · rfl
  · exact hsplit

theorem selectNodes_eq (m : ClusterMaster) (t : ClusterTask) (requiredMem now : ℚ) :
    m.selectNodes t requiredMem now =
      let candidates := m.suitableNodes t requiredMem now
      let selected := m.loadRouter.selectN candidates t.need t.preferredNodeId
        (requiredUma requiredMem candidates) t.tier now
      if selected ≠ [] then selected
      else (sortCandidates t.mode (preferredFirst t candidates)).take t.need := by
  simp only [selectNodes,candidates_eq]
  rfl

/-- If the router ranks a node, then nodes that it does not rank are not looked at. -/
theorem length_selectNodes (m : ClusterMaster) (t : ClusterTask) (requiredMem now : ℚ) :
    (m.selectNodes t requiredMem now).length =
      if m.rankedNodes t requiredMem now = [] then
        min t.need (m.suitableNodes t requiredMem now).length
      else min t.need (m.rankedNodes t requiredMem now).length := by
  have hranked : (m.loadRouter.selectN (m.suitableNodes t requiredMem now) t.need t.preferredNodeId
      (requiredUma requiredMem (m.suitableNodes t requiredMem now)) t.tier now).length =
        min t.need (m.rankedNodes t requiredMem now).length :=
    LoadRouter.length_selectN ..
  rw [selectNodes_eq]
  by_cases hnone : m.rankedNodes t requiredMem now = []
  · rw [hnone,List.length_nil,Nat.min_zero,List.length_eq_zero_iff] at hranked
    simp only [hranked,hnone,ne_eq,not_true_eq_false,if_false,if_true,List.length_take,
      length_sortCandidates,length_preferredFirst]
  · have hpos : 0 < min t.need (m.rankedNodes t requiredMem now).length :=
      Nat.lt_min.mpr ⟨t.need_pos,List.length_pos_iff.mpr hnone⟩
    rw [← hranked,List.length_pos_iff] at hpos
    simp only [if_pos hpos,if_neg hnone]
    exact hranked

/-- A selection is complete just where the router ranks none of the suitable nodes, or enough. -/
theorem selects_enough_iff (hm : NamedNodes m.nodes) (t : ClusterTask) (requiredMem now : ℚ) :
    m.SelectsEnough t requiredMem now ↔
      (t.need ≤ (m.suitableNodes t requiredMem now).length →
        m.rankedNodes t requiredMem now = [] ∨
          t.need ≤ (m.rankedNodes t requiredMem now).length) := by
  have hmem : ∀ n ∈ m.selectNodes t requiredMem now,
      n ∈ m.nodes.values ∧ m.Suitable t requiredMem now n := by
    intro n hn
    have hcandidate := (m.selectNodes_subperm t requiredMem now).subset hn
    rw [candidates_eq] at hcandidate
    obtain ⟨hvalue,hsuitable⟩ := List.mem_filter.mp hcandidate
    exact ⟨hvalue,of_decide_eq_true hsuitable⟩
  refine forall_congr' fun henough => ?_
  rw [length_selectNodes]
  constructor
  · rintro ⟨hlength,-⟩
    split_ifs at hlength with hnone
    · exact .inl hnone
    · exact .inr (hlength ▸ Nat.min_le_right _ _)
  · intro hranked
    refine ⟨?_,selected_nodup hm t requiredMem now,hmem⟩
    split_ifs with hnone
    · exact Nat.min_eq_left henough
    · exact Nat.min_eq_left (hranked.resolve_left hnone)

/-- Nodes `n1` and `n2`; the router knows the load of `n1` only. -/
def halfRanked : ClusterMaster :=
  { create defaultConfig .create with
    nodes := ((∅ : Dict NodeId NodeInfo).set "n1" (worker "n1")).set "n2" (worker "n2")
    loadRouter := LoadRouter.create.updateMetrics "n1" ((worker "n1").loadMetrics 0) 0 }

theorem halfRanked_named : NamedNodes halfRanked.nodes := by
  have hempty : NamedNodes (∅ : Dict NodeId NodeInfo) := fun _ _ hn => nomatch hn
  have hone : NamedNodes ((∅ : Dict NodeId NodeInfo).set "n1" (worker "n1")) := hempty.set rfl
  have htwo : NamedNodes (((∅ : Dict NodeId NodeInfo).set "n1" (worker "n1")).set "n2" (worker "n2")) :=
    hone.set rfl
  exact htwo

def twoShards : ClusterTask := { plainTask "t1" with modelShards := [⟨0,[0,16]⟩,⟨1,[16,32]⟩] }

theorem selects_enough_one : halfRanked.SelectsEnough (plainTask "t1") 2 1 :=
  (selects_enough_iff halfRanked_named (plainTask "t1") 2 1).mpr (by decide +kernel)

theorem stale_node_not_selected : ¬∀ (m : ClusterMaster) (t : ClusterTask) (requiredMem now : ℚ),
    NamedNodes m.nodes → m.SelectsEnough t requiredMem now := by
  intro h
  have hone := (h halfRanked twoShards 2 1 halfRanked_named (by decide +kernel)).1
  have hlength : (halfRanked.selectNodes twoShards 2 1).length = 1 := by decide +kernel
  rw [hlength] at hone
  exact absurd hone (by decide)

end ClusterMaster
end FusionMultiNodes

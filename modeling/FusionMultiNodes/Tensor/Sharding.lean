import FusionMultiNodes.Lib.Dict
import Mathlib.Algebra.Order.Ring.Rat
import Mathlib.Data.List.Range

/-! The layers of a model over its shards. -/
namespace FusionMultiNodes

inductive LayerShardStatus
  | pending | loaded | failed
  deriving DecidableEq

structure LayerShard where
  shardId : ℕ
  totalShards : ℕ
  layers : List ℕ
  nodeId : String
  memoryMb : ℚ
  status : LayerShardStatus
  deriving DecidableEq

structure ShardedModelConfig where
  numHiddenLayers : Option ℕ
  memoryMb : Option ℚ

def ShardedModelConfig.totalLayers (config : ShardedModelConfig) : ℕ :=
  config.numHiddenLayers.getD 32

abbrev ShardTable := Dict String (List LayerShard)

def maxShards : ℕ := 50

def layersPerShard (totalLayers numShards : ℕ) : ℕ := max 1 (totalLayers/numShards)

/-- `range(start, end)` for the shard `i`; the last shard goes on to the end. -/
def shardLayers (totalLayers numShards i : ℕ) : List ℕ :=
  let start := i*layersPerShard totalLayers numShards
  let stop :=
    if i+1 < numShards then start+layersPerShard totalLayers numShards else totalLayers
  List.range' start (stop-start)

def modelShards (config : ShardedModelConfig) (numShards : ℕ) : List LayerShard :=
  (List.range numShards).map fun i =>
    { shardId := i
      totalShards := numShards
      layers := shardLayers config.totalLayers numShards i
      nodeId := ""
      memoryMb := config.memoryMb.getD 0/numShards
      status := .pending }

/-- `shard_model`: the table afterwards and the shards it returns; for no shards it divides by zero
and raises. -/
def shardModel (table : ShardTable) (modelName : String) (config : ShardedModelConfig)
    (numShards : ℕ) : ShardTable × List LayerShard :=
  let shards := modelShards config numShards
  let stored := table.set modelName shards
  match stored.entries with
  | [] => (stored,shards)
  | oldest::_ =>
    (if maxShards < stored.entries.length then stored.erase oldest.1 else stored,shards)

theorem flatMap_range' (width m : ℕ) :
    (List.range m).flatMap (fun i => List.range' (i*width) width) = List.range (m*width) := by
  induction m with
  | zero => simp
  | succ m ih =>
    rw [List.range_succ,List.flatMap_append,ih,List.flatMap_singleton,Nat.succ_mul,
      List.range_eq_range',List.range_eq_range',← List.range'_append_1,Nat.zero_add]

theorem range_append_rest {m n : ℕ} (h : m ≤ n) :
    List.range m ++ List.range' m (n-m) = List.range n := by
  obtain ⟨k,rfl⟩ := Nat.exists_eq_add_of_le h
  have hjoin : List.range' 0 m ++ List.range' (0+m) k = List.range' 0 (m+k) :=
    List.range'_append_1
  rw [Nat.zero_add] at hjoin
  rw [Nat.add_sub_cancel_left,List.range_eq_range',List.range_eq_range',hjoin]

theorem shardLayers_of_lt {totalLayers numShards i : ℕ} (h : i+1 < numShards) :
    shardLayers totalLayers numShards i =
      List.range' (i*layersPerShard totalLayers numShards)
        (layersPerShard totalLayers numShards) := by
  rw [shardLayers,if_pos h,Nat.add_sub_cancel_left]

theorem layers_modelShards (config : ShardedModelConfig) (m : ℕ) :
    (modelShards config (m+1)).flatMap LayerShard.layers =
      List.range (m*layersPerShard config.totalLayers (m+1)) ++
        List.range' (m*layersPerShard config.totalLayers (m+1))
          (config.totalLayers-m*layersPerShard config.totalLayers (m+1)) := by
  have hfirst : (List.range m).flatMap (fun i => shardLayers config.totalLayers (m+1) i) =
      (List.range m).flatMap fun i => List.range' (i*layersPerShard config.totalLayers (m+1))
        (layersPerShard config.totalLayers (m+1)) := by
    refine List.flatMap_congr fun i hi => shardLayers_of_lt ?_
    exact Nat.succ_lt_succ (List.mem_range.mp hi)
  have hlast : shardLayers config.totalLayers (m+1) m =
      List.range' (m*layersPerShard config.totalLayers (m+1))
        (config.totalLayers-m*layersPerShard config.totalLayers (m+1)) := by
    rw [shardLayers,if_neg (lt_irrefl _)]
  rw [modelShards,List.flatMap_map,List.range_succ,List.flatMap_append,List.flatMap_singleton,
    hfirst,flatMap_range',hlast]

/-- The shards before the last stay within the layers unless there are too many of them. -/
theorem mul_layersPerShard_le_iff (totalLayers m : ℕ) :
    m*layersPerShard totalLayers (m+1) ≤ totalLayers ↔ m ≤ totalLayers := by
  unfold layersPerShard
  rcases Nat.lt_or_ge totalLayers (m+1) with hless | hmore
  · rw [Nat.div_eq_of_lt hless,max_eq_left (Nat.zero_le 1),Nat.mul_one]
  · have hone : 1 ≤ totalLayers/(m+1) := (Nat.one_le_div_iff (Nat.succ_pos m)).mpr hmore
    rw [max_eq_right hone]
    refine iff_of_true ?_ (by omega)
    calc m*(totalLayers/(m+1)) ≤ (m+1)*(totalLayers/(m+1)) :=
          Nat.mul_le_mul_right _ (Nat.le_succ m)
      _ ≤ totalLayers := Nat.mul_div_le totalLayers (m+1)

/-- The layers of the shards, in order, are the layers of the model exactly if there is at most one
shard more than layers. -/
theorem shards_partition_layers_iff (table : ShardTable) (modelName : String)
    (config : ShardedModelConfig) (numShards : ℕ) (h : 1 ≤ numShards) :
    (shardModel table modelName config numShards).2.flatMap LayerShard.layers =
        List.range config.totalLayers ↔
      numShards ≤ config.totalLayers+1 := by
  obtain ⟨m,rfl⟩ := Nat.exists_eq_succ_of_ne_zero (Nat.one_le_iff_ne_zero.mp h)
  have hshards : (shardModel table modelName config (m+1)).2 = modelShards config (m+1) := by
    unfold shardModel
    dsimp only
    split <;> rfl
  rw [hshards,layers_modelShards,Nat.succ_le_succ_iff,← mul_layersPerShard_le_iff]
  constructor
  · intro heq
    have hlength := congrArg List.length heq
    simp only [List.length_append,List.length_range,List.length_range'] at hlength
    omega
  · exact range_append_rest

theorem shards_partition_layers_two :
    (shardModel ∅ "m" ⟨some 5,none⟩ 2).2.flatMap LayerShard.layers = List.range 5 :=
  (shards_partition_layers_iff ∅ "m" ⟨some 5,none⟩ 2 (by decide)).mpr (by decide)

/-- With two layers and four shards there is a shard of a layer that does not exist. -/
theorem missing_layer_is_sharded :
    (shardModel ∅ "m" ⟨some 2,none⟩ 4).2.flatMap LayerShard.layers ≠ List.range 2 := by
  decide +kernel

end FusionMultiNodes

import FusionMultiNodes.Lib.Grouping
import FusionMultiNodes.Lib.Json

/-! Tasks cut into shards, and the results of shards merged. -/
namespace FusionMultiNodes

inductive ShardingType
  | inference
  | ast
  | vectorize
  deriving DecidableEq

inductive ShardingStrategy
  | byFile
  | byDocument
  | byBatch
  deriving DecidableEq

/-- A dictionary of an item, of a result or of merged data. -/
abbrev Payload := Dict String Json

structure TaskShard where
  shardId : String
  parentTaskId : String
  shardingType : ShardingType
  shardIndex : ℕ
  totalShards : ℕ
  items : List Payload
  strategy : ShardingStrategy
  status : String := "pending"
  result : Payload := ∅
  error : String := ""

/-- A value as the key of a dictionary; numbers of equal value are one key. -/
inductive HashKey
  | none
  | num (x : ℚ)
  | str (s : String)
  deriving DecidableEq

def hashKey : Json → Option HashKey
  | .null => some .none
  | .bool b => some (.num (if b then 1 else 0))
  | .int n => some (.num n)
  | .float x => some (.num x.value)
  | .str s => some (.str s)
  | .arr _ | .obj _ => none

/-- `item.get(key, "__default__")` as a key. -/
def Payload.keyOf (key : String) (item : Payload) : Option HashKey :=
  hashKey ((item.get? key).getD (.str "__default__"))

def ShardingStrategy.groupField : ShardingStrategy → Option String
  | .byFile => some "file_path"
  | .byDocument => some "document_id"
  | .byBatch => none

/-- `_group_by_key`; `none` where the key of an item cannot be hashed. -/
def groupByKey (items : List Payload) (key : String) (shardSize : ℤ) :
    Option (List (List Payload)) := do
  let keyGroups ← items.foldlM (fun d item => (item.keyOf key).map fun k => d.push k item)
    (∅ : Dict HashKey (List Payload))
  let (result,batch) := keyGroups.values.foldl (fun st group => group.foldl (fillBatch shardSize) st)
    ([],[])
  some (if batch = [] then result else result ++ [batch])

/-- `_group_by_batch`; for a negative size the range is empty. -/
def groupByBatch (items : List Payload) (shardSize : ℤ) : List (List Payload) :=
  let size := shardSize.toNat
  (List.range ((items.length + size - 1) / size)).map fun i => (items.drop (i * size)).take size

def groupItems (items : List Payload) (strategy : ShardingStrategy) (shardSize : ℤ) :
    Option (List (List Payload)) :=
  match strategy with
  | .byFile => groupByKey items "file_path" shardSize
  | .byDocument => groupByKey items "document_id" shardSize
  | .byBatch => some (groupByBatch items shardSize)

structure TaskSharder where
  defaultShardSize : ℤ := 8
  maxShards : ℤ := 64
  shards : Dict String (List TaskShard) := ∅

def defaultStrategies : Dict ShardingType ShardingStrategy where
  entries := [(.inference,.byBatch),(.ast,.byFile),(.vectorize,.byDocument)]
  nodup := by decide

def defaultShardSizes : Dict ShardingType ℤ where
  entries := [(.inference,8),(.ast,1),(.vectorize,10)]
  nodup := by decide

def shardIdOf (taskId : String) (idx : ℕ) : String := taskId ++ "_shard_" ++ idx.repr

/-- The shards that `create_shards` builds from the groups. -/
def shardsOf (taskId : String) (type : ShardingType) (strategy : ShardingStrategy)
    (groups : List (List Payload)) : List TaskShard :=
  groups.mapIdx fun idx group =>
    { shardId := shardIdOf taskId idx, parentTaskId := taskId, shardingType := type
      shardIndex := idx, totalShards := groups.length, items := group, strategy := strategy }

namespace TaskSharder

variable (self : TaskSharder)

def strategyFor (type : ShardingType) (strategy : Option ShardingStrategy) : ShardingStrategy :=
  strategy.getD ((defaultStrategies.get? type).getD .byBatch)

/-- `shard_size or DEFAULT_SHARD_SIZES.get(...)`. -/
def sizeFor (type : ShardingType) (shardSize : Option ℤ) : ℤ :=
  if shardSize.getD 0 ≠ 0 then shardSize.getD 0
  else (defaultShardSizes.get? type).getD self.defaultShardSize

/-- The groups from the last one allowed on become one. -/
def capGroups (groups : List (List Payload)) : List (List Payload) :=
  if self.maxShards < groups.length then
    sliceTo groups (self.maxShards - 1) ++ [(sliceFrom groups (self.maxShards - 1)).flatten]
  else groups

/-- `create_shards`; `none` where it raises. -/
def createShards (taskId : String) (type : ShardingType) (items : List Payload)
    (strategy : Option ShardingStrategy) (shardSize : Option ℤ) :
    Option (List TaskShard × TaskSharder) :=
  if items = [] then some ([],self)
  else do
    let strat := strategyFor type strategy
    let groups := self.capGroups (← groupItems items strat (self.sizeFor type shardSize))
    let shards := shardsOf taskId type strat groups
    some (shards,{ self with shards := self.shards.set taskId shards })

def getShards (taskId : String) : List TaskShard := (self.shards.get? taskId).getD []

/-- `get_shard`: the first shard with the id. -/
def getShard (shardId : String) : Option TaskShard :=
  self.shards.values.flatten.find? fun s => s.shardId = shardId

/-- `update_shard_status`, without the time of completion; an empty result is not stored. An id
names one shard. -/
def updateShardStatus (shardId status : String) (result : Option Payload) : Bool × TaskSharder :=
  match self.getShard shardId with
  | none => (false,self)
  | some _ => (true,{ self with shards := self.shards.mapValues fun _ shards => shards.map fun s =>
      if s.shardId = shardId then
        { s with
          status := status
          result := if (result.getD ∅).entries = [] then s.result else result.getD ∅ }
      else s })

end TaskSharder

variable {items : List Payload} {key : String} {shardSize : ℤ}

/-- The keyed strategies need every key to be hashable. -/
def Groupable (strategy : ShardingStrategy) (items : List Payload) : Prop :=
  ∀ key ∈ strategy.groupField, ∀ item ∈ items, (item.keyOf key).isSome = true

theorem keyGroups_eq (hkeyed : ∀ item ∈ items, (item.keyOf key).isSome = true) :
    items.foldlM (fun d item => (item.keyOf key).map fun k => d.push k item)
        (∅ : Dict HashKey (List Payload)) =
      some (Dict.groupBy (fun item => (item.keyOf key).getD .none) items) := by
  induction items using List.reverseRecOn with
  | nil => rfl
  | append_singleton items item ih =>
    obtain ⟨k,hk⟩ := Option.isSome_iff_exists.mp (hkeyed item (by simp))
    rw [List.foldlM_append,ih fun i hi => hkeyed i (by simp [hi]),Dict.groupBy_concat]
    simp [hk]

theorem keyGroups_eq_none (hkeyed : ¬∀ item ∈ items, (item.keyOf key).isSome = true)
    (d : Dict HashKey (List Payload)) :
    items.foldlM (fun d item => (item.keyOf key).map fun k => d.push k item) d = none := by
  induction items generalizing d with
  | nil => exact absurd (by simp) hkeyed
  | cons item items ih =>
    rw [List.foldlM_cons]
    cases hk : item.keyOf key with
    | none => rfl
    | some k =>
      apply ih
      intro hrest
      exact hkeyed (List.forall_mem_cons.mpr ⟨by rw [hk]; rfl,hrest⟩)

variable (shardSize) in
/-- Items of one key stay together when the batches cut through the groups. -/
theorem groupByKey_spec (hkeyed : ∀ item ∈ items, (item.keyOf key).isSome = true) :
    ∃ groups, groupByKey items key shardSize = some groups ∧ groups.flatten.Perm items ∧
      KeepsTogether (Payload.keyOf key) items groups.flatten := by
  set g : Payload → HashKey := fun item => (item.keyOf key).getD .none with hg
  have hflat : ∀ st : List (List Payload) × List Payload,
      (if st.2 = [] then st.1 else st.1 ++ [st.2]).flatten = st.1.flatten ++ st.2 := by
    intro st
    split_ifs with h <;> simp [h]
  have hgroups : groupByKey items key shardSize =
      some (let st := (Dict.groupBy g items).values.flatten.foldl (fillBatch shardSize) ([],[])
        if st.2 = [] then st.1 else st.1 ++ [st.2]) := by
    rw [groupByKey,keyGroups_eq hkeyed,List.foldl_flatten]
    rfl
  refine ⟨_,hgroups,?_,?_⟩
  · rw [hflat,flatten_fillBatch]
    exact Dict.perm_groupBy g items
  · rw [hflat,flatten_fillBatch]
    exact (Dict.keepsTogether_groupBy g items).of_some (Dict.perm_groupBy g items) fun item hitem => by
      obtain ⟨k,hk⟩ := Option.isSome_iff_exists.mp (hkeyed item hitem)
      simp [hg,hk]

theorem flatten_groupByBatch (hsize : 1 ≤ shardSize) :
    (groupByBatch items shardSize).flatten = items := by
  obtain ⟨n,rfl⟩ := Int.eq_ofNat_of_zero_le (by omega : 0 ≤ shardSize)
  have hn : 0 < n := by omega
  rw [groupByBatch,Int.toNat_natCast,flatten_slices]
  apply List.take_of_length_le
  have hdiv := Nat.div_add_mod (items.length + n - 1) n
  have hmod := Nat.mod_lt (items.length + n - 1) hn
  rw [Nat.mul_comm] at hdiv
  omega

theorem groupItems_eq_none {strategy : ShardingStrategy} (h : ¬Groupable strategy items) :
    groupItems items strategy shardSize = none := by
  cases strategy with
  | byBatch => exact absurd (fun key hkey => nomatch hkey) h
  | byFile | byDocument =>
    have hkeyed : ¬∀ item ∈ items, (item.keyOf _).isSome = true := fun hkeyed =>
      h fun key hkey => Option.some.inj hkey ▸ hkeyed
    rw [groupItems,groupByKey,keyGroups_eq_none hkeyed]
    rfl

structure Regroups (strategy : ShardingStrategy) (items out : List Payload) : Prop where
  perm : out.Perm items
  inOrder : strategy.groupField = none → out = items
  together : ∀ key ∈ strategy.groupField, KeepsTogether (Payload.keyOf key) items out

theorem groupItems_spec {strategy : ShardingStrategy} (h : Groupable strategy items)
    (hsize : 1 ≤ shardSize) :
    ∃ groups, groupItems items strategy shardSize = some groups ∧
      Regroups strategy items groups.flatten := by
  cases strategy with
  | byBatch =>
    refine ⟨_,rfl,?_,fun _ => flatten_groupByBatch hsize,nofun⟩
    rw [flatten_groupByBatch hsize]
  | byFile =>
    obtain ⟨groups,hgroups,hperm,htogether⟩ := groupByKey_spec shardSize (h _ rfl)
    exact ⟨groups,hgroups,hperm,nofun,fun key hkey => Option.some.inj hkey ▸ htogether⟩
  | byDocument =>
    obtain ⟨groups,hgroups,hperm,htogether⟩ := groupByKey_spec shardSize (h _ rfl)
    exact ⟨groups,hgroups,hperm,nofun,fun key hkey => Option.some.inj hkey ▸ htogether⟩

namespace TaskSharder

variable {self : TaskSharder}

theorem flatten_capGroups (groups : List (List Payload)) :
    (self.capGroups groups).flatten = groups.flatten := by
  rw [capGroups]
  split_ifs
  · rw [List.flatten_append,List.flatten_singleton,← List.flatten_append,
      sliceTo_append_sliceFrom]
  · rfl

theorem length_capGroups (hmax : 1 ≤ self.maxShards) (groups : List (List Payload)) :
    ((self.capGroups groups).length : ℤ) ≤ self.maxShards := by
  rw [capGroups]
  split_ifs with h
  · have hle := length_sliceTo_le groups (by omega : 0 ≤ self.maxShards - 1)
    rw [List.length_append,List.length_singleton]
    push_cast
    omega
  · omega

variable (self) in
theorem one_le_sizeFor (type : ShardingType) {shardSize : Option ℤ}
    (hsize : ∀ n ∈ shardSize, 1 ≤ n) : 1 ≤ self.sizeFor type shardSize := by
  have hdefault : 1 ≤ (defaultShardSizes.get? type).getD self.defaultShardSize := by
    cases type with
    | inference => exact (by decide : (1 : ℤ) ≤ 8)
    | ast => exact (by decide : (1 : ℤ) ≤ 1)
    | vectorize => exact (by decide : (1 : ℤ) ≤ 10)
  rw [sizeFor]
  cases shardSize with
  | none => exact hdefault
  | some n =>
    have hn := hsize n rfl
    simp only [Option.getD_some]
    split_ifs <;> omega

end TaskSharder

structure ShardsOf (taskId : String) (type : ShardingType) (strategy : ShardingStrategy)
    (items : List Payload) (shards : List TaskShard) : Prop where
  indices : shards.map TaskShard.shardIndex = List.range shards.length
  regroups : Regroups strategy items (shards.flatMap TaskShard.items)
  each : ∀ s ∈ shards, s.shardId = shardIdOf taskId s.shardIndex ∧ s.shardingType = type ∧
    s.totalShards = shards.length

theorem length_shardsOf (taskId : String) (type : ShardingType) (strategy : ShardingStrategy)
    (groups : List (List Payload)) :
    (shardsOf taskId type strategy groups).length = groups.length := List.length_mapIdx

theorem shardsOf_spec {strategy : ShardingStrategy} {groups : List (List Payload)}
    (h : Regroups strategy items groups.flatten) (taskId : String) (type : ShardingType) :
    ShardsOf taskId type strategy items (shardsOf taskId type strategy groups) := by
  have hindices : (shardsOf taskId type strategy groups).map TaskShard.shardIndex =
      List.range groups.length := by
    apply List.ext_getElem <;> simp [shardsOf]
  have hitems : (shardsOf taskId type strategy groups).map TaskShard.items = groups := by
    apply List.ext_getElem <;> simp [shardsOf]
  refine ⟨by rw [hindices,length_shardsOf],?_,?_⟩
  · rwa [List.flatMap_def,hitems]
  · intro s hs
    obtain ⟨i,hi,rfl⟩ := List.mem_mapIdx.mp hs
    exact ⟨rfl,rfl,(length_shardsOf ..).symm⟩

namespace TaskSharder

variable {self : TaskSharder} {taskId : String} {type : ShardingType}
  {strategy : Option ShardingStrategy} {size : Option ℤ}

variable (self taskId size) in
theorem createShards_eq_none (h : ¬Groupable (strategyFor type strategy) items) :
    self.createShards taskId type items strategy size = none := by
  have hne : items ≠ [] := by
    rintro rfl
    exact h fun _ _ _ hitem => absurd hitem List.not_mem_nil
  simp only [createShards,if_neg hne,groupItems_eq_none h]
  rfl

variable (taskId) in
/-- Items that can be grouped are cut into shards, at most as many as allowed. -/
theorem createShards_spec (hmax : 1 ≤ self.maxShards) (hsize : ∀ n ∈ size, 1 ≤ n)
    (h : Groupable (strategyFor type strategy) items) :
    ∃ shards self', self.createShards taskId type items strategy size = some (shards,self') ∧
      (shards.length : ℤ) ≤ self.maxShards ∧
      ShardsOf taskId type (strategyFor type strategy) items shards := by
  by_cases hitems : items = []
  · subst hitems
    refine ⟨[],self,if_pos rfl,le_trans (by decide) hmax,rfl,
      ⟨List.Perm.refl _,fun _ => rfl,?_⟩,by simp⟩
    intro key _ k
    exact ⟨[],[],by simp,by simp⟩
  · obtain ⟨groups,hgroups,hregroups⟩ := groupItems_spec h (one_le_sizeFor self type hsize)
    let out := shardsOf taskId type (strategyFor type strategy) (self.capGroups groups)
    have hcreate : self.createShards taskId type items strategy size =
        some (out,{ self with shards := self.shards.set taskId out }) := by
      simp only [createShards,if_neg hitems,hgroups]
      rfl
    refine ⟨out,_,hcreate,?_,?_⟩
    · rw [length_shardsOf]
      exact length_capGroups hmax groups
    · exact shardsOf_spec (by rwa [flatten_capGroups]) taskId type

end TaskSharder
end FusionMultiNodes

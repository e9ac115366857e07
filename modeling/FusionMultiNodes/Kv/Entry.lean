import FusionMultiNodes.Lib.JsonLaws

/-! Cache entries and the metadata header of their binary stream. -/
namespace FusionMultiNodes

structure KVShard where
  shardId : String
  modelName : String
  layerIndex : ℤ
  nodeId : String
  tokenCount : ℤ
  sizeBytes : ℤ
  createdAt : Decimal
  accessCount : ℤ := 0
  lastAccess : Decimal := .ofNat 0
  isCompressed : Bool := false
  tensor : Option Bytes := none
  deriving DecidableEq

structure KVCacheEntry where
  cacheId : String
  modelName : String
  promptHash : String
  promptPrefix : String
  shards : List KVShard := []
  totalTokens : ℤ := 0
  totalSizeBytes : ℤ := 0
  createdAt : Decimal := .ofNat 0
  ttlSeconds : Decimal := .ofNat 3600
  accessCount : ℤ := 0
  deriving DecidableEq

namespace KVCacheEntry

def isExpired (e : KVCacheEntry) (now : Decimal) : Bool :=
  e.ttlSeconds.value < now.value - e.createdAt.value

def key (e : KVCacheEntry) : String × String := (e.modelName,e.promptHash)

/-- The node an entry belongs to: the first shard that names one. -/
def nodeIdForExport (e : KVCacheEntry) : String :=
  match e.shards.find? fun s => s.nodeId ≠ "" with
  | some s => s.nodeId
  | none => (e.shards.head?.map KVShard.nodeId).getD ""

def recomputeEntrySize (e : KVCacheEntry) : KVCacheEntry :=
  { e with totalSizeBytes := (e.shards.map KVShard.sizeBytes).sum }

end KVCacheEntry

def kvStreamMagic : Bytes := [70,77,85,75,86,84,48,49]

def kvStreamVersion : ℤ := 1

structure ShardMeta where
  shard : KVShard
  tensorLen : ℤ
  caveman : Bool
  deriving DecidableEq

structure StreamMeta where
  entry : KVCacheEntry
  shards : List ShardMeta
  deriving DecidableEq

def KVShard.payload (s : KVShard) : Bytes := s.tensor.getD []

def KVShard.meta (s : KVShard) : ShardMeta :=
  ⟨{ s with tensor := none },s.payload.length,s.isCompressed⟩

/-- `shard_d`; the metadata keys form a set, taken here in the order of its listing. -/
def ShardMeta.toJson (m : ShardMeta) : Json :=
  .obj [("shard_id",.str m.shard.shardId),("model_name",.str m.shard.modelName),
    ("layer_index",.int m.shard.layerIndex),("node_id",.str m.shard.nodeId),
    ("token_count",.int m.shard.tokenCount),("size_bytes",.int m.shard.sizeBytes),
    ("created_at",.float m.shard.createdAt),("access_count",.int m.shard.accessCount),
    ("last_access",.float m.shard.lastAccess),("is_compressed",.bool m.shard.isCompressed),
    ("tensor_len",.int m.tensorLen),
    ("tensor_compress",.str (if m.caveman then "caveman" else "none"))]

def KVCacheEntry.metaJson (e : KVCacheEntry) : Json :=
  .obj [("cache_id",.str e.cacheId),("model_name",.str e.modelName),
    ("prompt_hash",.str e.promptHash),("prompt_prefix",.str e.promptPrefix),
    ("total_tokens",.int e.totalTokens),("total_size_bytes",.int e.totalSizeBytes),
    ("created_at",.float e.createdAt),("ttl_seconds",.float e.ttlSeconds),
    ("access_count",.int e.accessCount)]

def KVCacheEntry.streamMembers (e : KVCacheEntry) : List (String × Json) :=
  [("version",.int kvStreamVersion),("entry",e.metaJson),
    ("shards",.arr (e.shards.map fun s => s.meta.toJson))]

open Json

/-- One shard of the header; `none` where a member is missing or not of its declared type. -/
def ShardMeta.ofJson (j : Json) : Option ShardMeta := do
  let shardId ← j.required asStr "shard_id"
  let modelName ← j.required asStr "model_name"
  let layerIndex ← j.required asInt "layer_index"
  let nodeId ← j.required asStr "node_id"
  let tokenCount ← j.required asInt "token_count"
  let sizeBytes ← j.required asInt "size_bytes"
  let createdAt ← j.required asFloat "created_at"
  let accessCount ← j.optional asInt "access_count" 0
  let lastAccess ← j.optional asFloat "last_access" (.ofNat 0)
  let isCompressed ← j.optional asBool "is_compressed" false
  let tensorLen ← j.optional asInt "tensor_len" 0
  let compress ← j.optional asStr "tensor_compress" ""
  return ⟨⟨shardId,modelName,layerIndex,nodeId,tokenCount,sizeBytes,createdAt,accessCount,
    lastAccess,isCompressed,none⟩,tensorLen,compress = "caveman"⟩

def KVCacheEntry.ofMetaJson (j : Json) (now : Decimal) : Option KVCacheEntry := do
  let cacheId ← j.optional asStr "cache_id" ""
  let modelName ← j.optional asStr "model_name" ""
  let promptHash ← j.optional asStr "prompt_hash" ""
  let promptPrefix ← j.optional asStr "prompt_prefix" ""
  let totalTokens ← j.optional asInt "total_tokens" 0
  let totalSizeBytes ← j.optional asInt "total_size_bytes" 0
  let createdAt ← j.optional asFloat "created_at" now
  let ttlSeconds ← j.optional asFloat "ttl_seconds" (.ofNat 3600)
  let accessCount ← j.optional asInt "access_count" 0
  return ⟨cacheId,modelName,promptHash,promptPrefix,[],totalTokens,totalSizeBytes,createdAt,
    ttlSeconds,accessCount⟩

def StreamMeta.ofJson (j : Json) (now : Decimal) : Option StreamMeta := do
  let d ← j.asObj
  let shards ← d.optional asArr "shards" []
  let entryMeta ← d.optional asObj "entry" (.obj [])
  let entry ← KVCacheEntry.ofMetaJson entryMeta now
  return ⟨entry,← shards.mapM ShardMeta.ofJson⟩

@[simp] theorem ShardMeta.ofJson_toJson (s : KVShard) :
    ShardMeta.ofJson s.meta.toJson = some s.meta := by
  cases hc : s.isCompressed <;>
    simp [ShardMeta.ofJson,ShardMeta.toJson,KVShard.meta,Json.required,Json.optional,Json.get?,
      Json.asStr,Json.asInt,Json.asFloat,Json.asBool,hc]

theorem KVCacheEntry.ofMetaJson_metaJson (e : KVCacheEntry) (now : Decimal) :
    KVCacheEntry.ofMetaJson e.metaJson now = some { e with shards := [] } := by
  simp [KVCacheEntry.ofMetaJson,KVCacheEntry.metaJson,Json.optional,Json.get?,
    Json.asStr,Json.asInt,Json.asFloat]

theorem StreamMeta.ofJson_streamMembers (e : KVCacheEntry) (now : Decimal) :
    StreamMeta.ofJson (.obj e.streamMembers) now =
      some ⟨{ e with shards := [] },e.shards.map KVShard.meta⟩ := by
  have hmap : (e.shards.map fun s => s.meta.toJson).mapM ShardMeta.ofJson =
      some (e.shards.map KVShard.meta) := by
    induction e.shards with
    | nil => rfl
    | cons s l ih => simp [ih]
  have hentry := KVCacheEntry.ofMetaJson_metaJson e now
  have hobj : e.metaJson.asObj = some e.metaJson := rfl
  simp [StreamMeta.ofJson,KVCacheEntry.streamMembers,Json.asObj,Json.optional,Json.get?,Json.asArr,
    hmap]
  simp [KVCacheEntry.metaJson,Json.asObj] at hobj hentry ⊢
  simp [hentry]

end FusionMultiNodes

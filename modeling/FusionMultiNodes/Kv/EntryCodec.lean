import FusionMultiNodes.Kv.Entry
import FusionMultiNodes.Lib.Base64

/-! Cache entries as JSON, in transfers and in the saved file. An empty tensor is written
and not read. -/
namespace FusionMultiNodes

open Json

/-- The members of a shard; the metadata keys form a set, taken here in the order of its
listing. -/
def KVShard.serialize (s : KVShard) : Json :=
  .obj ([("shard_id",.str s.shardId),("model_name",.str s.modelName),
    ("layer_index",.int s.layerIndex),("node_id",.str s.nodeId),("token_count",.int s.tokenCount),
    ("size_bytes",.int s.sizeBytes),("created_at",.float s.createdAt),
    ("access_count",.int s.accessCount),("last_access",.float s.lastAccess),
    ("is_compressed",.bool s.isCompressed)] ++
    match s.tensor with
    | none => []
    | some t => [("tensor",.str (String.ofList (Base64.encode t))),
        ("tensor_compress",.str (if s.isCompressed then "caveman" else "none"))])

def KVCacheEntry.serializeEntry (e : KVCacheEntry) : Json :=
  .obj [("cache_id",.str e.cacheId),("model_name",.str e.modelName),
    ("prompt_hash",.str e.promptHash),("prompt_prefix",.str e.promptPrefix),
    ("total_tokens",.int e.totalTokens),("total_size_bytes",.int e.totalSizeBytes),
    ("created_at",.float e.createdAt),("ttl_seconds",.float e.ttlSeconds),
    ("access_count",.int e.accessCount),("shards",.arr (e.shards.map KVShard.serialize))]

/-- The tensor of a shard; what is no base64 text counts as none, and so does an empty text. -/
def readTensor (j : Json) : Option Bytes :=
  match j.get? "tensor" with
  | some (.str t) => if t = "" then none else Base64.decode t.toList
  | _ => none

def KVShard.deserialize (j : Json) : Option KVShard := do
  let shardId ← j.required asStr "shard_id"
  let modelName ← j.required asStr "model_name"
  let layerIndex ← j.required asInt "layer_index"
  let nodeId ← j.required asStr "node_id"
  let tokenCount ← j.required asInt "token_count"
  let sizeBytes ← j.required asInt "size_bytes"
  let createdAt ← j.required asFloat "created_at"
  let accessCount ← j.optional asInt "access_count" 0
  let lastAccess ← j.optional asFloat "last_access" (.ofNat 0)
  let isCompressed ← j.optional asBool "is_compressed" false
  return ⟨shardId,modelName,layerIndex,nodeId,tokenCount,sizeBytes,createdAt,accessCount,
    lastAccess,isCompressed,readTensor j⟩

/-- `_deserialize_entry`; `none` where it raises. -/
def KVCacheEntry.deserializeEntry (j : Json) (now : Decimal) : Option KVCacheEntry := do
  let d ← j.asObj
  let shards ← (← d.optional asArr "shards" []).mapM KVShard.deserialize
  let cacheId ← d.required asStr "cache_id"
  let modelName ← d.required asStr "model_name"
  let promptHash ← d.required asStr "prompt_hash"
  let promptPrefix ← d.optional asStr "prompt_prefix" ""
  let totalTokens ← d.optional asInt "total_tokens" 0
  let totalSizeBytes ← d.optional asInt "total_size_bytes" 0
  let createdAt ← d.optional asFloat "created_at" now
  let ttlSeconds ← d.optional asFloat "ttl_seconds" (.ofNat 3600)
  let accessCount ← d.optional asInt "access_count" 0
  return ⟨cacheId,modelName,promptHash,promptPrefix,shards,totalTokens,totalSizeBytes,createdAt,
    ttlSeconds,accessCount⟩

/-- A shard as it is read back: an empty tensor is gone. -/
def KVShard.reread (s : KVShard) : KVShard :=
  { s with tensor := s.tensor.filter fun t => decide (t ≠ []) }

def KVCacheEntry.reread (e : KVCacheEntry) : KVCacheEntry :=
  { e with shards := e.shards.map KVShard.reread }

theorem Base64.encode_eq_nil {b : Bytes} : Base64.encode b = [] ↔ b = [] := by
  constructor
  · intro h
    by_contra hb
    have hlt := Base64.lt_length_encode hb
    rw [h] at hlt
    exact absurd hlt (Nat.not_lt_zero _)
  · rintro rfl
    rfl

theorem readTensor_serialize (s : KVShard) :
    readTensor s.serialize = s.tensor.filter fun t => decide (t ≠ []) := by
  cases ht : s.tensor with
  | none => simp [readTensor,KVShard.serialize,Json.get?,ht]
  | some t =>
    have hget : s.serialize.get? "tensor" = some (.str (String.ofList (Base64.encode t))) := by
      simp [KVShard.serialize,Json.get?,ht]
    have hempty : String.ofList (Base64.encode t) = "" ↔ t = [] := by
      rw [← Base64.encode_eq_nil,← String.toList_inj]
      simp
    simp only [readTensor,hget,hempty]
    by_cases h : t = []
    · simp [h,Option.filter_some]
    · simp [h,Option.filter_some]

@[simp] theorem KVShard.deserialize_serialize (s : KVShard) :
    KVShard.deserialize s.serialize = some s.reread := by
  have htensor := readTensor_serialize s
  simp only [KVShard.deserialize,htensor]
  cases ht : s.tensor <;>
    simp [KVShard.reread,KVShard.serialize,Json.required,Json.optional,Json.get?,Json.asStr,
      Json.asInt,Json.asFloat,Json.asBool,ht]

theorem KVCacheEntry.deserialize_serialize (e : KVCacheEntry) (now : Decimal) :
    KVCacheEntry.deserializeEntry e.serializeEntry now = some e.reread := by
  have hshards : (e.shards.map KVShard.serialize).mapM KVShard.deserialize =
      some (e.shards.map KVShard.reread) := by
    induction e.shards with
    | nil => rfl
    | cons s l ih => simp [ih]
  simp [KVCacheEntry.deserializeEntry,KVCacheEntry.serializeEntry,KVCacheEntry.reread,
    Json.asObj,Json.optional,Json.required,Json.get?,Json.asArr,Json.asStr,Json.asInt,Json.asFloat,
    hshards]

theorem KVShard.reread_eq_self {s : KVShard} : s.reread = s ↔ s.tensor ≠ some [] := by
  obtain ⟨_,_,_,_,_,_,_,_,_,_,t⟩ := s
  cases t with
  | none => simp [KVShard.reread]
  | some t =>
    by_cases h : t = []
    · simp [KVShard.reread,h]
    · simp [KVShard.reread,h]

theorem KVCacheEntry.reread_eq_self {e : KVCacheEntry} :
    e.reread = e ↔ ∀ s ∈ e.shards, s.tensor ≠ some [] := by
  have hmap : e.shards.map KVShard.reread = e.shards ↔ ∀ s ∈ e.shards, s.reread = s := by
    constructor
    · intro h
      exact List.map_inj_left.mp (h.trans (List.map_id' e.shards).symm)
    · intro h
      exact (List.map_congr_left h).trans (List.map_id' e.shards)
  simp only [KVShard.reread_eq_self] at hmap
  rw [← hmap]
  obtain ⟨_,_,_,_,l,_,_,_,_,_⟩ := e
  simp [KVCacheEntry.reread]

/-! What the cache goes by is read back as it was. -/

variable (e : KVCacheEntry)

end FusionMultiNodes

import FusionMultiNodes.Kv.Entry
import FusionMultiNodes.Lib.LruDict
import FusionMultiNodes.Lib.Machine

/-! The cache of one agent: store, lookup, eviction, export and import. The manager runs
on one event loop, so that each operation is one step. -/
namespace FusionMultiNodes

/-- The tensor backend: cache id, model and node to tensor bytes. -/
abbrev KVTransport := String → String → String → Option Bytes

structure KVSharingManager where
  maxLocalCacheMb : ℚ
  enableCompression : Bool
  localCache : Dict String KVCacheEntry
  localSizeBytes : ℤ
  lookupIndex : Dict (String × String) String
  dirty : Bool

namespace KVSharingManager

def create (maxLocalCacheMb : ℚ) (enableCompression : Bool) : KVSharingManager :=
  ⟨maxLocalCacheMb,enableCompression,∅,0,∅,false⟩

variable (m : KVSharingManager)

def maxBytes : ℚ := m.maxLocalCacheMb * 1024 * 1024

def evictEntry (id : String) (e : KVCacheEntry) : KVSharingManager :=
  { m with
    localCache := m.localCache.erase id
    localSizeBytes := m.localSizeBytes - e.totalSizeBytes
    lookupIndex := m.lookupIndex.erase e.key
    dirty := true }

/-- The loop of `_evict`; each round forgets an entry, so `n` entries need `n` rounds. -/
def evictLoop (needed : ℤ) : ℕ → KVSharingManager → KVSharingManager
  | 0, m => m
  | n+1, m =>
    match m.localCache.first? with
    | some (id,e) =>
      if m.maxBytes < m.localSizeBytes + needed then evictLoop needed n (m.evictEntry id e) else m
    | none => m

def evict (needed : ℤ) : KVSharingManager :=
  if m.maxBytes < needed then m else evictLoop needed m.localCache.entries.length m

/-- The bytes of an entry of the same id are taken back first. -/
def uncount (id : String) : KVSharingManager :=
  match m.localCache.get? id with
  | some prev => { m with localSizeBytes := m.localSizeBytes - prev.totalSizeBytes }
  | none => m

def makeRoom (needed : ℤ) : KVSharingManager :=
  if m.maxBytes < m.localSizeBytes + needed then m.evict needed else m

def insert (e : KVCacheEntry) : KVSharingManager :=
  { m with
    localCache := m.localCache.set e.cacheId e
    localSizeBytes := m.localSizeBytes + e.totalSizeBytes
    lookupIndex := m.lookupIndex.set e.key e.cacheId
    dirty := true }

def storeLocal (e : KVCacheEntry) : KVSharingManager × Bool :=
  if m.maxBytes < e.totalSizeBytes then (m,false)
  else (((m.uncount e.cacheId).makeRoom e.totalSizeBytes).insert e,true)

/-- An expired entry goes; `key` is the index key that goes with it. -/
def expire (e : KVCacheEntry) (key : String × String) : KVSharingManager :=
  { m with
    localCache := m.localCache.erase e.cacheId
    localSizeBytes := m.localSizeBytes - e.totalSizeBytes
    lookupIndex := m.lookupIndex.erase key }

/-- A hit is counted on the entry and on its last shard. -/
def touch (e : KVCacheEntry) (now : Decimal) : KVCacheEntry :=
  { e with
    accessCount := e.accessCount + 1
    shards := e.shards.modify (e.shards.length - 1) fun s => { s with lastAccess := now } }

def lookupLocal (model promptHash : String) (now : Decimal) :
    KVSharingManager × Option KVCacheEntry :=
  match m.lookupIndex.get? (model,promptHash) with
  | none => (m,none)
  | some id =>
    if id = "" then (m,none)
    else
      match m.localCache.get? id with
      | none => ({ m with lookupIndex := m.lookupIndex.erase (model,promptHash) },none)
      | some e =>
        if e.isExpired now then ({ m.expire e (model,promptHash) with dirty := true },none)
        else
          ({ m with localCache := (m.localCache.set id (touch e now)).moveToEnd e.cacheId },
            some (touch e now))

def lookupLocalById (id : String) (now : Decimal) : KVSharingManager × Option KVCacheEntry :=
  match m.localCache.get? id with
  | none => (m,none)
  | some e => if e.isExpired now then (m.expire e e.key,none) else (m,some e)

def fillShard (transport : KVTransport) (id nodeId : String) (s : KVShard) : KVShard :=
  match s.tensor with
  | some _ => s
  | none =>
    match transport id s.modelName nodeId with
    | none => s
    | some t =>
      { s with
        tensor := some t
        isCompressed := m.enableCompression
        sizeBytes := s.sizeBytes + t.length }

def fillEntry (transport : KVTransport) (id : String) (e : KVCacheEntry) : KVCacheEntry :=
  { e with shards := e.shards.map (m.fillShard transport id e.nodeIdForExport) }.recomputeEntrySize

def syncLocalSizeDelta (e : KVCacheEntry) (oldTotal : ℤ) : KVSharingManager :=
  if e.totalSizeBytes - oldTotal ≠ 0 ∧ m.localCache.contains e.cacheId = true then
    { m with localSizeBytes := m.localSizeBytes + (e.totalSizeBytes - oldTotal), dirty := true }
  else m

@[simp] theorem syncLocalSizeDelta_cache (e : KVCacheEntry) (old : ℤ) :
    (m.syncLocalSizeDelta e old).localCache = m.localCache := by
  unfold syncLocalSizeDelta
  split_ifs <;> rfl

@[simp] theorem syncLocalSizeDelta_index (e : KVCacheEntry) (old : ℤ) :
    (m.syncLocalSizeDelta e old).lookupIndex = m.lookupIndex := by
  unfold syncLocalSizeDelta
  split_ifs <;> rfl

/-- The part `export_bundle` and `export_stream` share: the exported entry is the cached
object itself, filled in place. The default transport does not suspend in it. -/
def exportEntry (transport : KVTransport) (id : String) (now : Decimal) :
    KVSharingManager × Option KVCacheEntry :=
  match m.lookupLocalById id now with
  | (m,none) => (m,none)
  | (m,some e) =>
    let filled := m.fillEntry transport id e
    (({ m with localCache := m.localCache.set id filled }).syncLocalSizeDelta filled
      e.totalSizeBytes,some filled)

/-- The chunks `export_stream` yields; `none` where it yields none. -/
def exportStream (transport : KVTransport) (id : String) (now : Decimal) :
    KVSharingManager × Option (List Bytes) :=
  match m.exportEntry transport id now with
  | (m,none) => (m,none)
  | (m,some e) =>
    let header := (Json.obj e.streamMembers).encode
    (m,(toBytes 4 header.length).map fun len =>
      (kvStreamMagic ++ len ++ header) :: (e.shards.map KVShard.payload).filter (· ≠ []))

/-- A bundle that cannot be decoded is refused; the tensor backend leaves the cache alone. -/
def importBundle (bundle : Option KVCacheEntry) : KVSharingManager × Bool :=
  match bundle with
  | none => (m,false)
  | some e => m.storeLocal e

/-- Gather chunks until `need` bytes are there. -/
def gather (need : ℕ) : Bytes → List Bytes → Bytes × List Bytes
  | got, [] => (got,[])
  | got, c::cs => if need ≤ got.length then (got,c::cs) else gather need (got ++ c) cs

/-- The tensors of the body; what a chunk holds past the end of a tensor is dropped. -/
def readTensors : List ℤ → List Bytes → List (Option Bytes)
  | [], _ => []
  | n::ns, chunks =>
    if n ≤ 0 then none :: readTensors ns chunks
    else
      let p := gather n.toNat [] chunks
      (if n.toNat ≤ p.1.length then some (p.1.take n.toNat) else none) :: readTensors ns p.2

def rebuildShard (s : ShardMeta) (t : Option Bytes) : KVShard :=
  match t with
  | some t => { s.shard with tensor := some t, isCompressed := s.caveman }
  | none => s.shard

def rebuildEntry (d : StreamMeta) (chunks : List Bytes) : KVCacheEntry :=
  { d.entry with
    shards := List.zipWith rebuildShard d.shards
      (readTensors (d.shards.map ShardMeta.tensorLen) chunks) }

/-- The entry a stream describes, if its header can be read. -/
def decodeStream (header : Bytes) (chunks : List Bytes) (now : Decimal) : Option KVCacheEntry :=
  if kvStreamMagic.isPrefixOf header then
    ((Json.decode ((header.drop 12).take (fromBytes ((header.drop 8).take 4)))).bind
      (StreamMeta.ofJson · now)).map (rebuildEntry · chunks)
  else none

def importStream (header : Bytes) (chunks : List Bytes) (now : Decimal) :
    KVSharingManager × Bool :=
  match decodeStream header chunks now with
  | none => (m,false)
  | some e => m.storeLocal e

/-- The length of the header, as the caller reads it off the front of the stream. -/
def headerLength (body : Bytes) : ℕ := 12 + fromBytes ((body.drop 8).take 4)

/-- Skip the first `n` bytes of a cut stream. -/
def skipBytes : ℕ → List Bytes → List Bytes
  | _, [] => []
  | n, c::cs => if n < c.length then c.drop n :: cs else skipBytes (n - c.length) cs

/-- The caller reads the header first and hands on the rest of the chunks. -/
def receiveStream (chunks : List Bytes) (now : Decimal) : KVSharingManager × Bool :=
  let n := headerLength chunks.flatten
  m.importStream (chunks.flatten.take n) (skipBytes n chunks) now

structure KVWarmRequest where
  modelName : String
  prompt : String
  promptHash : String
  totalTokens : ℤ := 0
  totalSizeBytes : ℤ := 0

def warmEntry (nodeId : String) (req : KVWarmRequest) (now : Decimal) : KVCacheEntry :=
  { cacheId := "warm-" ++ req.promptHash
    modelName := req.modelName
    promptHash := req.promptHash
    promptPrefix := String.ofList (req.prompt.toList.take 100)
    totalTokens := req.totalTokens
    totalSizeBytes := req.totalSizeBytes
    createdAt := now
    ttlSeconds := .ofNat 3600
    shards := [{
      shardId := "ws-" ++ req.promptHash
      modelName := req.modelName
      layerIndex := 0
      nodeId := nodeId
      tokenCount := req.totalTokens
      sizeBytes := req.totalSizeBytes
      createdAt := now }] }

def kvWarm (nodeId : String) (req : KVWarmRequest) (now : Decimal) : KVSharingManager × Bool :=
  m.storeLocal (warmEntry nodeId req now)

/-- An item of a saved snapshot: an entry, or what `_deserialize_entry` raises on, with
the id it carries. -/
inductive SavedItem where
  | entry (e : KVCacheEntry)
  | broken (id : Option String)

/-- `load`: known ids and expired entries are passed over, a broken item ends it. -/
def load : List SavedItem → Decimal → KVSharingManager → KVSharingManager
  | [], _, m => { m with dirty := false }
  | .broken id::rest, now, m =>
    if (id.any fun id => m.localCache.contains id) = true then load rest now m else m
  | .entry e::rest, now, m =>
    if m.localCache.contains e.cacheId = true ∨ e.isExpired now = true then load rest now m
    else load rest now (m.storeLocal e).1

def saved (now : Decimal) : List KVCacheEntry :=
  m.localCache.values.filter fun e => !e.isExpired now

end KVSharingManager

inductive KvEvent where
  | store (e : KVCacheEntry)
  | lookup (model promptHash : String) (now : Decimal)
  | lookupById (id : String) (now : Decimal)
  | exportEntry (id : String) (now : Decimal)
  | importBundle (bundle : Option KVCacheEntry)
  | importStream (header : Bytes) (chunks : List Bytes) (now : Decimal)
  | warm (nodeId : String) (req : KVSharingManager.KVWarmRequest) (now : Decimal)
  | load (items : List KVSharingManager.SavedItem) (now : Decimal)
  | save

namespace KVSharingManager

def step (transport : KVTransport) (m : KVSharingManager) : KvEvent → KVSharingManager
  | .store e => (m.storeLocal e).1
  | .lookup model promptHash now => (m.lookupLocal model promptHash now).1
  | .lookupById id now => (m.lookupLocalById id now).1
  | .exportEntry id now => (m.exportEntry transport id now).1
  | .importBundle bundle => (m.importBundle bundle).1
  | .importStream header chunks now => (m.importStream header chunks now).1
  | .warm nodeId req now => (m.kvWarm nodeId req now).1
  | .load items now => load items now m
  | .save => { m with dirty := false }

/-- The calls of `store_local` in `load`, each with the state it meets. -/
def loadCalls : List SavedItem → Decimal → KVSharingManager →
    List (KVSharingManager × KVCacheEntry)
  | [], _, _ => []
  | .broken id::rest, now, m =>
    if (id.any fun id => m.localCache.contains id) = true then loadCalls rest now m else []
  | .entry e::rest, now, m =>
    if m.localCache.contains e.cacheId = true ∨ e.isExpired now = true then loadCalls rest now m
    else (m,e) :: loadCalls rest now (m.storeLocal e).1

/-- The calls of `store_local` in a step. -/
def storeCalls (m : KVSharingManager) : KvEvent → List (KVSharingManager × KVCacheEntry)
  | .store e => [(m,e)]
  | .importBundle bundle => bundle.toList.map fun e => (m,e)
  | .importStream header chunks now => (decodeStream header chunks now).toList.map fun e => (m,e)
  | .warm nodeId req now => [(m,warmEntry nodeId req now)]
  | .load items now => loadCalls items now m
  | .lookup .. | .lookupById .. | .exportEntry .. | .save => []

def machine (transport : KVTransport) : Machine KVSharingManager KvEvent :=
  ⟨fun m ev => some (m.step transport ev)⟩

end KVSharingManager
end FusionMultiNodes

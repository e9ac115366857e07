import FusionMultiNodes.Lib.Dict
import FusionMultiNodes.Lib.Machine
import FusionMultiNodes.Lib.Utf8
import Mathlib.Algebra.Order.Ring.Rat

/-! Replicas of model shards: synchronisation, quorum writes and quorum reads. What the storage
volume and the connections do is given to each call. -/
namespace FusionMultiNodes

structure ReplicationConfig where
  replicationFactor : ℤ := 2
  verifyChecksum : Bool := true

inductive ReplicaStatus
  | active
  | failed
  | recovering
  deriving DecidableEq

structure ShardReplica where
  shardId : String
  nodeId : String
  volumeName : String
  filePath : String
  sizeBytes : ℕ := 0
  checksum : String := ""
  createdAt : ℚ := 0
  lastSynced : ℚ := 0
  status : ReplicaStatus := .active

/-- `quorum_write` may write to the replica. -/
abbrev ShardReplica.Writable (r : ShardReplica) : Prop :=
  r.status = .active ∨ r.status = .recovering

structure SyncResult where
  shardId : String
  targetNodeId : String
  success : Bool
  bytesTransferred : ℕ := 0
  checksumVerified : Bool := false
  error : String := ""

inductive FileLeft
  | written
  | untouched
  | removed
  | torn (content : Bytes)

structure SyncOutcome where
  /-- What `write_file` returns or raises. -/
  returned : Except String Bool
  left : FileLeft
  /-- Whether `read_file` gives the file after the write. -/
  readBack : Except String Bool
  /-- Whether sending raises. -/
  sent : Except String Unit
  /-- Whether the other node stores what is sent. -/
  stored : Bool

def SyncOutcome.Honest (o : SyncOutcome) : Prop :=
  match o.returned with
  | .ok true => o.left = .written
  | _ => True

def SyncOutcome.Whole (o : SyncOutcome) : Prop := ∀ content, o.left ≠ .torn content

inductive QuorumWriteResult
  | refused (error : String)
  | done (success : Bool) (okCount total quorum : ℕ)

inductive QuorumReadResult
  | refused (error : String)
  | read (data : Bytes) (readCount : ℕ)
  deriving DecidableEq

structure ShardReplicator where
  config : ReplicationConfig
  replicas : Dict String (List ShardReplica)
  shardData : Dict String Bytes
  fmpInterface : Bool
  localNodeId : Option String

/-- A replicator with the files of its storage volume and of the other nodes. A file of the volume
is known by one text: `./f` does not stand for `f`. -/
structure ShardStore where
  replicator : ShardReplicator
  volume : Dict (String × String) Bytes
  remote : Dict (String × String × String) Bytes

def QuorumWriteResult.success : QuorumWriteResult → Bool
  | .refused _ => false
  | .done success _ _ _ => success

def quorumOf (replicas : List ShardReplica) : ℕ := (replicas.length + 1) / 2

namespace ShardReplicator

variable (s : ShardReplicator)

def registerShardData (shardId : String) (data : Bytes) : ShardReplicator :=
  { s with shardData := s.shardData.set shardId data }

/-- The nodes are given by their `node_id`, if they have one. -/
def assignReplicas (shardId filePath : String) (sizeBytes : ℕ) (availableNodes : List (Option String))
    (volumeName : String) (now : ℚ) : ShardReplicator :=
  let count := min s.config.replicationFactor.toNat availableNodes.length
  let replicas := (availableNodes.take count).mapIdx fun i node =>
    { shardId := shardId, nodeId := node.getD s!"node-{i}", volumeName := volumeName
      filePath := filePath, sizeBytes := sizeBytes, createdAt := now, lastSynced := now }
  { s with replicas := s.replicas.set shardId replicas }

def getReplicas (shardId : String) : List ShardReplica := (s.replicas.get? shardId).getD []

def isRemote (nodeId : String) : Bool :=
  s.fmpInterface && s.localNodeId.any fun l => decide (nodeId ≠ l)

def setFmpInterface (localNodeId : String) : ShardReplicator :=
  { s with fmpInterface := true, localNodeId := some localNodeId }

def markReplica (status : ReplicaStatus) (shardId nodeId : String) : ShardReplicator :=
  { s with replicas := s.replicas.modify shardId fun replicas =>
      replicas.map fun r => if r.nodeId = nodeId then { r with status := status } else r }

def markReplicaFailed : String → String → ShardReplicator := s.markReplica .failed

def markReplicaRecovering : String → String → ShardReplicator := s.markReplica .recovering

def markReplicaActive : String → String → ShardReplicator := s.markReplica .active

def removeNodeReplicas (nodeId : String) : ShardReplicator :=
  { s with replicas := s.replicas.mapValues fun _ replicas =>
      replicas.map fun r => if r.nodeId = nodeId then { r with status := .failed } else r }

/-- Note a synchronisation in the first replica on a node. -/
def noteSync (nodeId checksum : String) (size : ℕ) (now : ℚ) :
    List ShardReplica → List ShardReplica
  | [] => []
  | r::rs =>
    if r.nodeId = nodeId then
      { r with lastSynced := now, checksum := checksum, sizeBytes := size }::rs
    else r::noteSync nodeId checksum size now rs

end ShardReplicator

namespace ShardStore

variable (sha256 : Bytes → String) (s : ShardStore)

/-- Write into a file of the volume, with what is left in it. -/
def write (volumeName filePath : String) (data : Bytes) (left : FileLeft) : ShardStore :=
  match left with
  | .written => { s with volume := s.volume.set (volumeName,filePath) data }
  | .untouched => s
  | .removed => { s with volume := s.volume.erase (volumeName,filePath) }
  | .torn content => { s with volume := s.volume.set (volumeName,filePath) content }

def noteSync (shardId nodeId : String) (data : Bytes) (now : ℚ) : ShardStore :=
  { s with replicator := { s.replicator with
      replicas := s.replicator.replicas.modify shardId
        (ShardReplicator.noteSync nodeId (sha256 data) data.length now) } }

/-- `_sync_via_fmp`; inside an event loop the message is only scheduled. -/
def syncViaFmp (shardId targetNodeId : String) (data : Bytes) (replica : ShardReplica)
    (inLoop : Bool) (now : ℚ) (o : SyncOutcome) : ShardStore × SyncResult :=
  match o.sent with
  | .error e => (s,{ shardId := shardId, targetNodeId := targetNodeId, success := false, error := e })
  | .ok () =>
    let delivered := !inLoop
    let t :=
      if delivered && o.stored then
        { s with remote :=
            s.remote.set (targetNodeId,replica.volumeName,replica.filePath) data }
      else s
    (t.noteSync sha256 shardId targetNodeId data now,
      { shardId := shardId, targetNodeId := targetNodeId, success := delivered
        bytesTransferred := if delivered then data.length else 0 })

/-- `_sync_local`; without a volume nothing is written. -/
def syncLocal (shardId targetNodeId : String) (data : Bytes) (replica : ShardReplica)
    (hasVolume : Bool) (now : ℚ) (o : SyncOutcome) : ShardStore × SyncResult :=
  let failed (error : String) : SyncResult :=
    { shardId := shardId, targetNodeId := targetNodeId, success := false, error := error }
  let synced (t : ShardStore) (verified : Bool) : ShardStore × SyncResult :=
    (t.noteSync sha256 shardId targetNodeId data now,
      { shardId := shardId, targetNodeId := targetNodeId, success := true
        bytesTransferred := data.length, checksumVerified := verified })
  if hasVolume then
    let t := s.write replica.volumeName replica.filePath data o.left
    match o.returned with
    | .error e => (t,failed e)
    | .ok false => (t,failed "写入存储卷失败")
    | .ok true =>
      if s.replicator.config.verifyChecksum then
        match o.readBack with
        | .error e => (t,failed e)
        | .ok readable =>
          synced t (readable &&
            decide (t.volume.get? (replica.volumeName,replica.filePath) = some data))
      else synced t true
  else synced s true

def syncToNode (shardId targetNodeId : String) (hasVolume inLoop : Bool) (now : ℚ)
    (o : SyncOutcome) : ShardStore × SyncResult :=
  let failed (error : String) : SyncResult :=
    { shardId := shardId, targetNodeId := targetNodeId, success := false, error := error }
  match s.replicator.shardData.get? shardId with
  | none => (s,failed "分片数据未注册")
  | some data =>
    match (s.replicator.getReplicas shardId).find? fun r => decide (r.nodeId = targetNodeId) with
    | none => (s,failed "目标节点未分配副本")
    | some replica =>
      if s.replicator.isRemote targetNodeId then
        s.syncViaFmp sha256 shardId targetNodeId data replica inLoop now o
      else s.syncLocal sha256 shardId targetNodeId data replica hasVolume now o

/-- The synchronisations of a list of replicas, those that are not active left out. -/
def syncEach (shardId : String) (hasVolume inLoop : Bool) (now : ℚ) (s : ShardStore) :
    List ShardReplica → (ℕ → SyncOutcome) → ShardStore
  | [],_ => s
  | r::rs,o =>
    if r.status = .active then
      syncEach shardId hasVolume inLoop now
        (s.syncToNode sha256 shardId r.nodeId hasVolume inLoop now (o 0)).1 rs fun i => o (i + 1)
    else syncEach shardId hasVolume inLoop now s rs fun i => o (i + 1)

def syncAllReplicas (shardId : String) (hasVolume inLoop : Bool) (now : ℚ)
    (o : ℕ → SyncOutcome) : ShardStore :=
  syncEach sha256 shardId hasVolume inLoop now s (s.replicator.getReplicas shardId) o

def repairReplica (shardId targetNodeId : String) (hasVolume inLoop : Bool) (now : ℚ)
    (o : SyncOutcome) : ShardStore × SyncResult :=
  let s := { s with replicator := s.replicator.markReplicaRecovering shardId targetNodeId }
  let (s,result) := s.syncToNode sha256 shardId targetNodeId hasVolume inLoop now o
  if result.success then
    ({ s with replicator := s.replicator.markReplicaActive shardId targetNodeId },result)
  else (s,result)

/-- The loop of `quorum_write`, with the successes so far. -/
def writeLoop (shardId : String) (quorum : ℕ) (inLoop : Bool) (now : ℚ) (s : ShardStore)
    (okCount : ℕ) : List ShardReplica → (ℕ → SyncOutcome) → ShardStore × ℕ
  | [],_ => (s,okCount)
  | r::rs,o =>
    let (s,okCount) :=
      if r.Writable then
        let (s,result) := s.syncToNode sha256 shardId r.nodeId true inLoop now (o 0)
        (s,if result.success then okCount + 1 else okCount)
      else (s,okCount)
    if quorum ≤ okCount then (s,okCount)
    else writeLoop shardId quorum inLoop now s okCount rs fun i => o (i + 1)

def quorumWrite (shardId : String) (data : Bytes) (hasVolume inLoop : Bool) (now : ℚ)
    (o : ℕ → SyncOutcome) : ShardStore × QuorumWriteResult :=
  if hasVolume = false then (s,.refused "no_storage_volume")
  else
    let s := { s with replicator := s.replicator.registerShardData shardId data }
    let replicas := s.replicator.getReplicas shardId
    if replicas = [] then (s,.refused "no_replicas")
    else
      let quorum := quorumOf replicas
      let (s,okCount) := s.writeLoop sha256 shardId quorum inLoop now 0 replicas o
      (s,.done (decide (quorum ≤ okCount)) okCount replicas.length quorum)

/-- The loop of `quorum_read`; `readable` says which reads of the file succeed. -/
def readLoop (quorum : ℕ) (reads : Dict String Bytes) :
    List ShardReplica → (ℕ → Bool) → Dict String Bytes
  | [],_ => reads
  | r::rs,readable =>
    if r.status ≠ .active then readLoop quorum reads rs fun i => readable (i + 1)
    else
      let data := if readable 0 then s.volume.get? (r.volumeName,r.filePath) else none
      let reads := match data with
        | some data => reads.set r.nodeId data
        | none => reads
      if quorum ≤ reads.entries.length then reads
      else readLoop quorum reads rs fun i => readable (i + 1)

def quorumRead (shardId : String) (hasVolume : Bool) (readable : ℕ → Bool) : QuorumReadResult :=
  if hasVolume = false then .refused "no_storage_volume"
  else
    let replicas := s.replicator.getReplicas shardId
    if replicas = [] then .refused "no_replicas"
    else
      let quorum := quorumOf replicas
      let reads := s.readLoop quorum ∅ replicas readable
      match reads.values with
      | [] => .refused "quorum_not_met"
      | data::rest =>
        if reads.entries.length < quorum then .refused "quorum_not_met"
        else if rest.all fun d => decide (sha256 d = sha256 data) then
          .read data reads.entries.length
        else .refused "inconsistent"

/-- The file of a shard: all its replicas have one path. -/
def location (shardId : String) : Option (String × String) :=
  (s.replicator.getReplicas shardId).head?.map fun r => (r.volumeName,r.filePath)

/-- A replica on another node is held there, and any other one in the storage volume. -/
def holds (r : ShardReplica) (data : Bytes) : Bool :=
  decide ((if s.replicator.isRemote r.nodeId then
    s.remote.get? (r.nodeId,r.volumeName,r.filePath)
  else s.volume.get? (r.volumeName,r.filePath)) = some data)

/-- The replicas that `quorum_write` may write to. -/
def writable (shardId : String) : List ShardReplica :=
  (s.replicator.getReplicas shardId).filter fun r => decide r.Writable

end ShardStore

/-- A store with, for each shard, the data of the last successful `quorum_write`, until other data
is handed to its file. -/
structure QuorumHistory where
  store : ShardStore
  promised : String → Option Bytes

inductive ShardEvent
  | registerShardData (shardId : String) (data : Bytes)
  | assignReplicas (shardId filePath : String) (sizeBytes : ℕ)
      (availableNodes : List (Option String)) (volumeName : String) (now : ℚ)
  | setFmpInterface (localNodeId : String)
  | markReplica (status : ReplicaStatus) (shardId nodeId : String)
  | removeNodeReplicas (nodeId : String)
  | syncToNode (shardId targetNodeId : String) (hasVolume inLoop : Bool) (now : ℚ)
      (o : SyncOutcome)
  | syncAllReplicas (shardId : String) (hasVolume inLoop : Bool) (now : ℚ) (o : ℕ → SyncOutcome)
  | repairReplica (shardId targetNodeId : String) (hasVolume inLoop : Bool) (now : ℚ)
      (o : SyncOutcome)
  | quorumWrite (shardId : String) (data : Bytes) (hasVolume inLoop : Bool) (now : ℚ)
      (o : ℕ → SyncOutcome)
  | quorumRead (shardId : String) (hasVolume : Bool) (readable : ℕ → Bool)
  /-- A file of the volume is evicted or deleted. -/
  | fileRemoved (volumeName filePath : String)
  /-- Another node stores what it has received at some time. -/
  | remoteStores (nodeId volumeName filePath : String) (data : Bytes)

namespace QuorumHistory

variable (sha256 : Bytes → String) (w : QuorumHistory)

def create (config : ReplicationConfig) (fmpInterface : Bool) (volume : Dict (String × String) Bytes)
    (remote : Dict (String × String × String) Bytes) : QuorumHistory :=
  ⟨⟨⟨config,∅,∅,fmpInterface,none⟩,volume,remote⟩,fun _ => none⟩

/-- The data of a shard is handed to its file again: what was promised of this file stays only if
it is the same. -/
def handed (shardId : String) : String → Option Bytes :=
  match w.store.replicator.shardData.get? shardId with
  | none => w.promised
  | some data => fun id =>
    if w.store.location id = w.store.location shardId ∧ w.promised id ≠ some data then none
    else w.promised id

def next : ShardEvent → QuorumHistory
  | .registerShardData id data =>
    { w with store := { w.store with replicator := w.store.replicator.registerShardData id data } }
  | .assignReplicas id path size nodes volumeName now =>
    { store := { w.store with
        replicator := w.store.replicator.assignReplicas id path size nodes volumeName now }
      promised := fun k => if k = id then none else w.promised k }
  | .setFmpInterface localNodeId =>
    { w with store := { w.store with
        replicator := w.store.replicator.setFmpInterface localNodeId } }
  | .markReplica status id node =>
    { w with store := { w.store with
        replicator := w.store.replicator.markReplica status id node } }
  | .removeNodeReplicas node =>
    { w with store := { w.store with replicator := w.store.replicator.removeNodeReplicas node } }
  | .syncToNode id target hasVolume inLoop now o =>
    ⟨(w.store.syncToNode sha256 id target hasVolume inLoop now o).1,w.handed id⟩
  | .syncAllReplicas id hasVolume inLoop now o =>
    ⟨w.store.syncAllReplicas sha256 id hasVolume inLoop now o,w.handed id⟩
  | .repairReplica id target hasVolume inLoop now o =>
    ⟨(w.store.repairReplica sha256 id target hasVolume inLoop now o).1,w.handed id⟩
  | .quorumWrite id data hasVolume inLoop now o =>
    let r := w.store.quorumWrite sha256 id data hasVolume inLoop now o
    { store := r.1
      promised := match r.2 with
        | .refused _ => w.promised
        | .done success _ _ _ => fun k =>
          if k = id ∧ success = true then some data
          else if w.store.location k = w.store.location id then none
          else w.promised k }
  | .quorumRead _ _ _ => w
  | .fileRemoved volumeName path =>
    { w with store := { w.store with volume := w.store.volume.erase (volumeName,path) } }
  | .remoteStores node volumeName path data =>
    { w with store := { w.store with
        remote := w.store.remote.set (node,volumeName,path) data } }

def machine : Machine QuorumHistory ShardEvent := ⟨fun w e => some (w.next sha256 e)⟩

/-- A successful write has a quorum of holders, and a successful read gives what was promised. -/
def Consistent (w : QuorumHistory) (ev : ShardEvent) (w' : QuorumHistory) : Prop :=
  match ev with
  | .quorumWrite id data hasVolume inLoop now o =>
    (w.store.quorumWrite sha256 id data hasVolume inLoop now o).2.success = true →
      quorumOf (w'.store.replicator.getReplicas id) ≤
        (w'.store.replicator.getReplicas id).countP fun r => w'.store.holds r data
  | .quorumRead id hasVolume readable =>
    ∀ data count, w.store.quorumRead sha256 id hasVolume readable = .read data count →
      ∀ d, w.promised id = some d → data = d
  | _ => True

/-- A shard that would be written again with data promised of its file. -/
def Owes (id : String) : Prop :=
  ∃ k d, w.promised k = some d ∧ w.store.location k = w.store.location id ∧
    w.store.replicator.shardData.get? id = some d

/-- A `quorum_write` outside an event loop that can succeed has no replica on another node to write
to, and a write of the volume that reports success has written the data. Where data that was promised
is written again, a failing write does not leave other data in the file. -/
def Keeps : ShardEvent → Prop
  | .quorumWrite id _ hasVolume inLoop _ o =>
    hasVolume = true →
      (inLoop = true ∨
        (w.store.writable id).length < quorumOf (w.store.replicator.getReplicas id) ∨
        ∀ r ∈ w.store.writable id, w.store.replicator.isRemote r.nodeId = false) ∧
      ∀ i, (o i).Honest
  | .syncToNode id _ _ _ _ o => w.Owes id → o.Whole
  | .syncAllReplicas id _ _ _ o => w.Owes id → ∀ i, (o i).Whole
  | .repairReplica id _ _ _ _ o => w.Owes id → o.Whole
  | _ => True

end QuorumHistory
end FusionMultiNodes

import Mathlib.Data.List.MinMax
import FusionMultiNodes.Master.NodeCodec
import FusionMultiNodes.Master.RuleEpoch

/-! A push of the whole state from one master to another. The request model of the route has no
field for the rule epoch, so that no push carries it. -/
namespace FusionMultiNodes

structure KvCacheEntry where
  cacheId : String
  modelName : String
  nodeId : NodeId
  createdAt : ℚ
  sizeMb : ℚ
  ttlSeconds : ℚ
  accessCount : ℤ
  deriving DecidableEq

structure KvDict where
  cacheId : Option String := none
  modelName : Option String := none
  nodeId : Option NodeId := none
  createdAt : Option ℚ := none
  sizeMb : Option ℚ := none
  ttlSeconds : Option ℚ := none
  accessCount : Option ℤ := none

def kvToDict (e : KvCacheEntry) : KvDict where
  cacheId := some e.cacheId
  modelName := some e.modelName
  nodeId := some e.nodeId
  createdAt := some e.createdAt
  sizeMb := some e.sizeMb
  ttlSeconds := some e.ttlSeconds
  accessCount := some e.accessCount

def kvFromDict (d : KvDict) : KvCacheEntry where
  cacheId := d.cacheId.getD ""
  modelName := d.modelName.getD ""
  nodeId := d.nodeId.getD ""
  createdAt := d.createdAt.getD 0
  sizeMb := d.sizeMb.getD 0
  ttlSeconds := d.ttlSeconds.getD 3600
  accessCount := d.accessCount.getD 0

def maxKvCache : ℕ := 500

/-- One entry of a pushed state; an entry without an id is left out. -/
def mergeKv (cache : Dict String KvCacheEntry) (dict : KvDict) : Dict String KvCacheEntry :=
  let entry := kvFromDict dict
  if entry.cacheId = "" then cache else cache.set entry.cacheId entry

def dropOldestKv (cache : Dict String KvCacheEntry) : Dict String KvCacheEntry :=
  match cache.entries.argmin fun p => p.2.createdAt with
  | some p => cache.erase p.1
  | none => cache

def trimKv (cache : Dict String KvCacheEntry) : Dict String KvCacheEntry :=
  dropOldestKv^[cache.entries.length-maxKvCache] cache

/-- A pushed state: the dictionary `receive_synced_state` is given, and the body of the request. -/
structure StateDict where
  nodes : Option (List NodeDict) := none
  kvCache : Option (List KvDict) := none
  bannedNodes : Option (List (NodeId × ℚ)) := none
  ruleEpochState : Option RuleEpochSnapshot := none
  savedAt : Option ℚ := none
  ownerMaster : Option NodeId := none

structure HASyncStateRequest where
  nodes : List NodeDict
  kvCache : List KvDict
  bannedNodes : List (NodeId × ℚ)

namespace HASyncStateRequest

/-- The request a body is read into: other keys are ignored. -/
def ofBody (body : StateDict) : HASyncStateRequest where
  nodes := body.nodes.getD []
  kvCache := body.kvCache.getD []
  bannedNodes := body.bannedNodes.getD []

def modelDump (req : HASyncStateRequest) : StateDict where
  nodes := some req.nodes
  kvCache := some req.kvCache
  bannedNodes := some req.bannedNodes

end HASyncStateRequest

structure HaTables where
  domain : NodeDomain
  kvCache : Dict String KvCacheEntry
  epoch : EpochMaster

/-- The loop that pushes: a leader's, or that of one of two active masters. -/
inductive PushLoop
  | stateSync
  | peerSync (haNodeId : NodeId)

namespace HaTables

variable (h : HaTables)

/-- The payload of `_build_state_sync_targets`, or of `_peer_sync_loop`. -/
def payload (loop : PushLoop) (now : ℚ) : StateDict where
  nodes := some (h.domain.pushed now).nodes
  kvCache := some (h.kvCache.values.map kvToDict)
  bannedNodes := some (h.domain.pushed now).bannedNodes
  ruleEpochState := some h.epoch.state.buildSnapshot
  savedAt := some now
  ownerMaster := match loop with
    | .stateSync => none
    | .peerSync haNodeId => some haNodeId

def receiveSyncedState (state : StateDict) (now : ℚ) : HaTables where
  domain := h.domain.receive ⟨state.nodes.getD [],state.bannedNodes.getD []⟩ now
  kvCache := trimKv ((state.kvCache.getD []).foldl mergeKv h.kvCache)
  epoch := match state.ruleEpochState with
    | some synced => h.epoch.receiveSyncedState synced
    | none => h.epoch

end HaTables

/-- `ha_sync_state`: what the route hands to `receive_synced_state` of the body it gets. -/
def syncStateRoute (body : StateDict) : StateDict := (HASyncStateRequest.ofBody body).modelDump

namespace StateDict

/-- Every component `receive_synced_state` looks at is what was sent. -/
structure Lossless (sent got : StateDict) : Prop where
  nodes : got.nodes = sent.nodes
  kvCache : got.kvCache = sent.kvCache
  bannedNodes : got.bannedNodes = sent.bannedNodes
  ruleEpochState : got.ruleEpochState = sent.ruleEpochState

end StateDict

/-- A standby that is not behind the leader's rule epoch, and has its confirmations. -/
structure RuleEpochState.CatchesUp (leader standby : RuleEpochState) : Prop where
  ruleEpoch : leader.ruleEpoch ≤ standby.ruleEpoch
  confirms : ∀ key record, leader.confirms.get? key = some record →
    standby.confirms.get? key = some record

namespace HaTables

/-- The route is lossless for a push, and the standby catches up through it. -/
structure PushedWhole (leader standby : HaTables) (loop : PushLoop) (sentAt now : ℚ) : Prop where
  lossless : (leader.payload loop sentAt).Lossless (syncStateRoute (leader.payload loop sentAt))
  catchesUp : leader.epoch.state.CatchesUp
    (standby.receiveSyncedState (syncStateRoute (leader.payload loop sentAt)) now).epoch.state

variable (leader standby : HaTables) (loop : PushLoop) (sentAt now : ℚ)

/-- A push leaves the standby's rule epoch and confirmations as they were. -/
theorem epoch_receive_route (body : StateDict) :
    (standby.receiveSyncedState (syncStateRoute body) now).epoch = standby.epoch := rfl

/-- No push is whole: nodes, cache entries and bans get through, the rule epoch never does, and
the standby has caught up only if it had before. -/
theorem push_never_whole :
    ¬PushedWhole leader standby loop sentAt now ∧
      (syncStateRoute (leader.payload loop sentAt)).nodes = (leader.payload loop sentAt).nodes ∧
      (syncStateRoute (leader.payload loop sentAt)).kvCache =
        (leader.payload loop sentAt).kvCache ∧
      (syncStateRoute (leader.payload loop sentAt)).bannedNodes =
        (leader.payload loop sentAt).bannedNodes ∧
      (leader.epoch.state.CatchesUp
          (standby.receiveSyncedState (syncStateRoute (leader.payload loop sentAt)) now).epoch.state ↔
        leader.epoch.state.CatchesUp standby.epoch.state) := by
  refine ⟨?_,rfl,rfl,rfl,?_⟩
  · rintro ⟨hlossless,-⟩
    exact nomatch hlossless.ruleEpochState
  · rw [epoch_receive_route]

def create : HaTables := ⟨.create,∅,.create none⟩

/-- A leader that has advanced its rule epoch to 1 pushes to a standby, which stays at 0. -/
theorem push_loses_epoch : ¬∀ (leader standby : HaTables) (loop : PushLoop) (sentAt now : ℚ),
    PushedWhole leader standby loop sentAt now := by
  intro h
  have hwhole := h { create with epoch := { EpochMaster.create none with state := ⟨1,∅⟩ } } create
    .stateSync 0 0
  have hle : (1 : ℤ) ≤ 0 := hwhole.catchesUp.ruleEpoch
  exact absurd hle (by decide)

end HaTables
end FusionMultiNodes

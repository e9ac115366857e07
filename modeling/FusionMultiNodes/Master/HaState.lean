import FusionMultiNodes.Election.Node

/-! The part of a `ClusterMaster` that knows about leadership. -/
namespace FusionMultiNodes

inductive HaMode
  | standby | activeActive
  deriving DecidableEq

structure HaState where
  election : Option MasterElection
  isLeader : Bool
  fencingToken : ℕ
  haMode : HaMode
  haNodeId : NodeId

namespace HaState

def create : HaState := ⟨none,true,0,.standby,""⟩

/-- `setup_election`, with the peers' node ids. -/
def setupElection (h : HaState) (nodeId : NodeId) (priority : ℤ) (knownNodes : List NodeId)
    (stateFile : Option ElectionSnapshot) (now rnd : ℚ) : HaState :=
  { h with
    election := some
      { MasterElection.create nodeId priority knownNodes none none stateFile now rnd with
        onElectedAttr := some .onElectedLeader
        onDemotedAttr := some .onDemotedFromLeader } }

/-- The branch of `start` for two active masters. -/
def setupActiveActive (h : HaState) (nodeId : NodeId) : HaState :=
  { h with haMode := .activeActive, haNodeId := nodeId }

def onElectedLeader (h : HaState) : HaState :=
  { h with
    isLeader := true
    fencingToken := (h.election.map MasterElection.fencingToken).getD h.fencingToken }

def onDemotedFromLeader (h : HaState) : HaState := { h with isLeader := false }

def runHook (h : HaState) : Hook → HaState
  | .onElectedLeader => h.onElectedLeader
  | .onDemotedFromLeader => h.onDemotedFromLeader

/-- A block of the election, followed by the callbacks it called. -/
def electionStep (h : HaState) (ev : MasterElection.Event) :
    Option (HaState × List ElectionMessage) :=
  h.election.bind fun e =>
    (e.step ev).map fun b => (b.fired.foldl runHook { h with election := some b.node },b.sent)

/-- The guards at the head of `assign_task`, for a task of the given owner. -/
def refuses (h : HaState) (ownerMaster : NodeId) : Bool :=
  (h.election.isSome && !h.isLeader) ||
    (decide (h.haMode = .activeActive) && decide (ownerMaster ≠ "") &&
      decide (ownerMaster ≠ h.haNodeId)) ||
    (h.election.isSome && !h.isLeader && !(h.election.any fun e => e.leaderId.isSome))

/-- The state of a new process with the same configuration. -/
def reboot (h : HaState) (now rnd : ℚ) : HaState :=
  match h.election with
  | some e =>
    { create with haMode := h.haMode, haNodeId := h.haNodeId }.setupElection e.nodeId e.priority
      e.knownNodes e.stateFile now rnd
  | none => { create with haMode := h.haMode, haNodeId := h.haNodeId }

end HaState
end FusionMultiNodes

import FusionMultiNodes.Election.Node
import FusionMultiNodes.Lib.Machine

/-! Several `MasterElection` objects and the HTTP messages between them. A packet once sent
can be delivered at any later time, any number of times or never. -/
namespace FusionMultiNodes

inductive Packet
  | request (target : NodeId) (req : VoteRequest)
  | response (voter : NodeId) (req : VoteRequest) (resp : VoteResponse)
  | heartbeat (target leaderId : NodeId) (term : ℤ)
  deriving DecidableEq

/-- The packet that carries a message of node `n`. -/
def ElectionMessage.packet (n : NodeId) : ElectionMessage → Packet
  | .requestVote p req => .request p req
  | .answer req resp => .response n req resp
  | .heartbeat p l t => .heartbeat p l t

/-- The request that is being polled, with the peer it was sent to. -/
def ElectionLoop.pending : ElectionLoop → Option (VoteRequest × NodeId)
  | .polling req p _ _ => some (req,p)
  | _ => none

/-- The vote that an event makes a node cast, with the term it is cast in. -/
def MasterElection.ballot (e : MasterElection) : MasterElection.Event → Option (ℤ × NodeId)
  | .tick now _ =>
    if e.loop = .idle ∧ e.state = .follower ∧ e.electionTimeout < now-e.lastHeartbeat then
      some (e.currentTerm+1,e.nodeId)
    else none
  | .voteRequest req _ _ =>
    if (e.adoptTerm req.term).grants req then
      some ((e.adoptTerm req.term).currentTerm,req.candidateId)
    else none
  | _ => none

/-- The masters, the packets sent so far, and two history variables: who entered the leader
state in which term, and who cast which vote in which term. -/
structure ElectionCluster where
  members : Finset NodeId
  nodes : NodeId → MasterElection
  packets : List Packet
  elected : List (NodeId × ℤ)
  ballots : List (NodeId × ℤ × NodeId)

namespace ElectionCluster

/-- Input from the network must have been sent. A vote response belongs to the pending request. -/
def Arrives (c : ElectionCluster) (n : NodeId) : MasterElection.Event → Prop
  | .voteRequest req _ _ => .request n req ∈ c.packets
  | .heartbeat l t _ _ => .heartbeat n l t ∈ c.packets
  | .voteResponse resp =>
    (c.nodes n).loop.pending.any (fun r => decide (.response r.2 r.1 resp ∈ c.packets)) = true
  | _ => True

instance (c : ElectionCluster) (n : NodeId) (ev : MasterElection.Event) :
    Decidable (c.Arrives n ev) := by
  cases ev <;> unfold Arrives <;> infer_instance

def update (c : ElectionCluster) (n : NodeId) (ev : MasterElection.Event) (b : ElectionBlock) :
    ElectionCluster where
  members := c.members
  nodes := Function.update c.nodes n b.node
  packets := c.packets ++ b.sent.map (ElectionMessage.packet n)
  elected :=
    if (c.nodes n).state ≠ .leader ∧ b.node.state = .leader then
      c.elected ++ [(n,b.node.currentTerm)]
    else c.elected
  ballots := c.ballots ++ ((c.nodes n).ballot ev).toList.map fun v => (n,v.1,v.2)

def step (c : ElectionCluster) (ev : NodeId × MasterElection.Event) : Option ElectionCluster :=
  if ev.1 ∈ c.members ∧ c.Arrives ev.1 ev.2 then
    ((c.nodes ev.1).step ev.2).map (c.update ev.1 ev.2)
  else none

def machine : Machine ElectionCluster (NodeId × MasterElection.Event) := ⟨step⟩

/-- Every master knows all the others, has loaded some state file and has sent nothing. -/
structure Initial (c : ElectionCluster) : Prop where
  created : ∀ n ∈ c.members, ∃ priority known onElected onDemoted file now rnd,
    c.nodes n = .create n priority known onElected onDemoted file now rnd ∧
    known.Nodup ∧ insert n known.toFinset = c.members
  packets : c.packets = []
  elected : c.elected = []
  ballots : c.ballots = []

theorem step_eq_some_iff {c d : ElectionCluster} {n : NodeId} {ev : MasterElection.Event} :
    machine.step c (n,ev) = some d ↔
      n ∈ c.members ∧ c.Arrives n ev ∧
        ∃ b, (c.nodes n).step ev = some b ∧ c.update n ev b = d := by
  simp only [machine,step]
  by_cases h : n ∈ c.members ∧ c.Arrives n ev
  · rw [if_pos h]
    simp [h.1,h.2,Option.map_eq_some_iff]
  · rw [if_neg h]
    constructor
    · intro hn; exact absurd hn (by simp)
    · rintro ⟨h₁,h₂,-⟩; exact absurd ⟨h₁,h₂⟩ h

end ElectionCluster
end FusionMultiNodes

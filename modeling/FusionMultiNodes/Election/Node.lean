import Mathlib.Data.Finset.Card
import Mathlib.Data.Rat.Floor
import FusionMultiNodes.Lib.Dict

/-! One `MasterElection` object. The coroutine `_election_loop` is an explicit program
counter, and every state write handed to a thread is a pending entry of `writes`. -/
namespace FusionMultiNodes

abbrev NodeId := String

inductive ElectionState
  | follower | candidate | leader
  deriving DecidableEq

structure VoteRequest where
  term : ℤ
  candidateId : NodeId
  candidatePriority : ℤ
  deriving DecidableEq

structure VoteResponse where
  term : ℤ
  voteGranted : Bool
  voterId : NodeId
  deriving DecidableEq

inductive Hook
  | onElectedLeader | onDemotedFromLeader
  deriving DecidableEq

structure ElectionSnapshot where
  currentTerm : ℤ
  votedFor : Option NodeId
  fencingToken : ℕ
  deriving DecidableEq

/-- Where `_election_loop` is suspended. A `ℕ` argument named `w` is the awaited state write. -/
inductive ElectionLoop
  | idle
  | requesting (req : VoteRequest) (peers : List NodeId) (majority w : ℕ)
  | polling (req : VoteRequest) (peer : NodeId) (rest : List NodeId) (majority : ℕ)
  | steppingDown (req : VoteRequest) (rest : List NodeId) (majority w : ℕ)
  | electing (req : VoteRequest) (rest : List NodeId) (majority w : ℕ)
  | electingLast (w : ℕ)
  | broadcasting (peer : NodeId) (rest : List NodeId)
  deriving DecidableEq

structure MasterElection where
  nodeId : NodeId
  priority : ℤ
  knownNodes : List NodeId
  electionTimeoutRange : ℚ × ℚ
  heartbeatInterval : ℚ
  /-- `self._on_elected`, the callback `_become_leader` reads. -/
  onElectedHook : Option Hook
  /-- `self._on_demoted`, the callback `_become_follower` reads. -/
  onDemotedHook : Option Hook
  /-- `self.on_elected`, a further attribute. -/
  onElectedAttr : Option Hook
  /-- `self.on_demoted`, a further attribute. -/
  onDemotedAttr : Option Hook
  state : ElectionState
  currentTerm : ℤ
  votedFor : Option NodeId
  fencingToken : ℕ
  votesReceived : Finset NodeId
  lastHeartbeat : ℚ
  lastBroadcast : ℚ
  electionTimeout : ℚ
  leaderId : Option NodeId
  loop : ElectionLoop
  /-- State writes running in threads, with the snapshot each one writes. -/
  writes : Dict ℕ ElectionSnapshot
  nextWrite : ℕ
  /-- Vote responses that wait for their state write. -/
  answers : Dict ℕ (VoteRequest × VoteResponse)
  /-- The election state file. -/
  stateFile : Option ElectionSnapshot

inductive ElectionMessage
  | requestVote (peer : NodeId) (req : VoteRequest)
  | answer (req : VoteRequest) (resp : VoteResponse)
  | heartbeat (peer leaderId : NodeId) (term : ℤ)
  deriving DecidableEq

/-- One uninterrupted block of code: the new object, what it sent and the callbacks it called. -/
structure ElectionBlock where
  node : MasterElection
  sent : List ElectionMessage
  fired : List Hook

namespace MasterElection

/-- `__init__` with the attributes left at their defaults, followed by `_load_state`. -/
def create (nodeId : NodeId) (priority : ℤ) (knownNodes : List NodeId)
    (onElected onDemoted : Option Hook) (stateFile : Option ElectionSnapshot)
    (now rnd : ℚ) : MasterElection where
  nodeId := nodeId
  priority := priority
  knownNodes := knownNodes
  electionTimeoutRange := (5,10)
  heartbeatInterval := 3
  onElectedHook := onElected
  onDemotedHook := onDemoted
  onElectedAttr := none
  onDemotedAttr := none
  state := .follower
  currentTerm := (stateFile.map ElectionSnapshot.currentTerm).getD 0
  votedFor := stateFile.bind ElectionSnapshot.votedFor
  fencingToken := (stateFile.map ElectionSnapshot.fencingToken).getD 0
  votesReceived := ∅
  lastHeartbeat := now
  lastBroadcast := 0
  electionTimeout := 5+rnd*(10-5)
  leaderId := none
  loop := .idle
  writes := ∅
  nextWrite := 0
  answers := ∅
  stateFile := stateFile

/-- `_random_timeout`, with the random draw as an argument. -/
def randomTimeout (e : MasterElection) (rnd : ℚ) : ℚ :=
  e.electionTimeoutRange.1+rnd*(e.electionTimeoutRange.2-e.electionTimeoutRange.1)

/-- The quorum `_start_election` and `_handle_vote_response` compare with. -/
def majority (e : MasterElection) : ℕ := (e.knownNodes.length+1)/2+1

def peers (e : MasterElection) : List NodeId := e.knownNodes.filter fun n => decide (n ≠ e.nodeId)

/-- `_persist_state_async` up to its `await`: the write runs in a thread from now on. -/
def persist (e : MasterElection) : MasterElection :=
  { e with
    writes := e.writes.set e.nextWrite ⟨e.currentTerm,e.votedFor,e.fencingToken⟩
    nextWrite := e.nextWrite+1 }

def becomeFollower (e : MasterElection) : MasterElection :=
  { e with state := .follower, votedFor := none, votesReceived := ∅ }

/-- The callbacks `_become_follower` calls. -/
def demotedHooks (e : MasterElection) : List Hook :=
  if e.state = .leader then e.onDemotedHook.toList else []

/-- `_become_leader` up to the state write. -/
def becomeLeader (e : MasterElection) : MasterElection :=
  ({ e with
    state := .leader
    leaderId := some e.nodeId
    fencingToken := e.fencingToken+1 }).persist

/-- The locked part of `_start_election`, up to the state write. -/
def startElection (e : MasterElection) (rnd : ℚ) : MasterElection :=
  let e₁ : MasterElection :=
    { e with
      currentTerm := e.currentTerm+1
      state := .candidate
      votedFor := some e.nodeId
      votesReceived := {e.nodeId}
      electionTimeout := e.randomTimeout rnd }
  { e₁.persist with
    loop := .requesting ⟨e₁.currentTerm,e.nodeId,e.priority⟩ e.peers e.majority e.nextWrite }

/-- The polling loop of `_start_election` goes on with the peers that are left. -/
def pollNext (e : MasterElection) (req : VoteRequest) (majority : ℕ) :
    List NodeId → MasterElection × List ElectionMessage
  | p::rest => ({ e with loop := .polling req p rest majority },[.requestVote p req])
  | [] =>
    if majority ≤ e.votesReceived.card then
      ({ e.becomeLeader with loop := .electingLast e.nextWrite },[])
    else ({ e with loop := .idle },[])

def countVote (e : MasterElection) (voter : NodeId) : MasterElection :=
  { e with votesReceived := insert voter e.votesReceived }

/-- `_handle_vote_response` for the response of the peer being polled. -/
def handleVoteResponse (e : MasterElection) (req : VoteRequest) (rest : List NodeId)
    (majority : ℕ) (resp : VoteResponse) : MasterElection × List ElectionMessage :=
  if e.currentTerm < resp.term then
    ({ ({ e with currentTerm := resp.term }).persist with
      loop := .steppingDown req rest majority e.nextWrite },[])
  else if e.state ≠ .candidate then e.pollNext req majority rest
  else if resp.voteGranted then
    if e.majority ≤ (e.countVote resp.voterId).votesReceived.card then
      ({ (e.countVote resp.voterId).becomeLeader with
        loop := .electing req rest majority e.nextWrite },[])
    else (e.countVote resp.voterId).pollNext req majority rest
  else e.pollNext req majority rest

/-- The test of `handle_vote_request`, after a higher term was taken over. -/
def grants (e : MasterElection) (req : VoteRequest) : Bool :=
  decide (e.currentTerm ≤ req.term) &&
    (decide (e.votedFor = none) || decide (e.votedFor = some req.candidateId)) &&
    (decide (e.priority ≤ req.candidatePriority) || decide (e.currentTerm < req.term))

/-- The first branch of `handle_vote_request`. -/
def adoptTerm (e : MasterElection) (term : ℤ) : MasterElection :=
  if e.currentTerm < term then ({ e with currentTerm := term }).becomeFollower else e

/-- The second branch of `handle_vote_request`. -/
def castVote (e : MasterElection) (req : VoteRequest) (now rnd : ℚ) : MasterElection :=
  if e.grants req then
    { e with
      votedFor := some req.candidateId
      lastHeartbeat := now
      electionTimeout := e.randomTimeout rnd }
  else e

/-- `handle_vote_request`. A response whose vote or term is written to disk first waits in
`answers` for that write. -/
def handleVoteRequest (e : MasterElection) (req : VoteRequest) (now rnd : ℚ) : ElectionBlock :=
  let e₁ := e.adoptTerm req.term
  let response : VoteResponse := ⟨e₁.currentTerm,e₁.grants req,e.nodeId⟩
  let hooks := if e.currentTerm < req.term then e.demotedHooks else []
  if e.currentTerm < req.term ∨ e₁.grants req = true then
    ⟨{ (e₁.castVote req now rnd).persist with
      answers := e₁.answers.set e₁.nextWrite (req,response) },[],hooks⟩
  else ⟨e₁.castVote req now rnd,[.answer req response],hooks⟩

def receiveHeartbeat (e : MasterElection) (leaderId : NodeId) (term : ℤ) (now rnd : ℚ) :
    ElectionBlock :=
  if e.currentTerm ≤ term then
    let e₁ : MasterElection :=
      { e with
        currentTerm := term
        leaderId := some leaderId
        lastHeartbeat := now
        electionTimeout := e.randomTimeout rnd }
    if e.state ≠ .follower then ⟨e₁.becomeFollower.persist,[],e.demotedHooks⟩
    else ⟨e₁.persist,[],[]⟩
  else ⟨e,[],[]⟩

/-- `_broadcast_heartbeat` goes on with the peers that are left; the callback reads the term
of the moment it is called. -/
def broadcastNext (e : MasterElection) : List NodeId → MasterElection × List ElectionMessage
  | p::rest => ({ e with loop := .broadcasting p rest },[.heartbeat p e.nodeId e.currentTerm])
  | [] => ({ e with loop := .idle },[])

/-- The branch of `_election_loop` for a leader. -/
def leaderTick (e : MasterElection) (now : ℚ) : MasterElection × List ElectionMessage :=
  if e.heartbeatInterval ≤ now-e.lastBroadcast then
    ({ e with lastHeartbeat := now, lastBroadcast := now }).broadcastNext e.peers
  else ({ e with lastHeartbeat := now },[])

/-- One iteration of `_election_loop` up to its first suspension. -/
def electionLoop (e : MasterElection) (now rnd : ℚ) : MasterElection × List ElectionMessage :=
  match e.state with
  | .follower =>
    if e.electionTimeout < now-e.lastHeartbeat then (e.startElection rnd,[]) else (e,[])
  | .candidate => (e,[])
  | .leader => e.leaderTick now

/-- The loop goes on after the state write it waits for. -/
def resumeLoop (e : MasterElection) : Option ElectionBlock :=
  match e.loop with
  | .requesting req peers majority w =>
    if e.writes.contains w then none
    else
      let r := e.pollNext req majority peers
      some ⟨r.1,r.2,[]⟩
  | .steppingDown req rest majority w =>
    if e.writes.contains w then none
    else
      let r := e.becomeFollower.pollNext req majority rest
      some ⟨r.1,r.2,e.demotedHooks⟩
  | .electing req rest majority w =>
    if e.writes.contains w then none
    else
      let r := e.pollNext req majority rest
      some ⟨r.1,r.2,e.onElectedHook.toList⟩
  | .electingLast w =>
    if e.writes.contains w then none
    else some ⟨{ e with loop := .idle },[],e.onElectedHook.toList⟩
  | _ => none

inductive Event
  | tick (now rnd : ℚ)
  | resume
  | voteResponse (resp : VoteResponse)
  | pollFailed
  | heartbeatSent
  | voteRequest (req : VoteRequest) (now rnd : ℚ)
  | heartbeat (leaderId : NodeId) (term : ℤ) (now rnd : ℚ)
  | writeDone (w : ℕ)
  | answered (w : ℕ)

/-- One uninterrupted block of code of the event loop, or the end of a writer thread. -/
def step (e : MasterElection) : Event → Option ElectionBlock
  | .tick now rnd =>
    if e.loop = .idle then
      let r := e.electionLoop now rnd
      some ⟨r.1,r.2,[]⟩
    else none
  | .resume => e.resumeLoop
  | .voteResponse resp =>
    match e.loop with
    | .polling req _ rest majority =>
      let r := e.handleVoteResponse req rest majority resp
      some ⟨r.1,r.2,[]⟩
    | _ => none
  | .pollFailed =>
    match e.loop with
    | .polling req _ rest majority =>
      let r := e.pollNext req majority rest
      some ⟨r.1,r.2,[]⟩
    | _ => none
  | .heartbeatSent =>
    match e.loop with
    | .broadcasting _ rest =>
      let r := e.broadcastNext rest
      some ⟨r.1,r.2,[]⟩
    | _ => none
  | .voteRequest req now rnd => some (e.handleVoteRequest req now rnd)
  | .heartbeat leaderId term now rnd => some (e.receiveHeartbeat leaderId term now rnd)
  | .writeDone w =>
    match e.writes.get? w with
    | some snap => some ⟨{ e with writes := e.writes.erase w, stateFile := some snap },[],[]⟩
    | none => none
  | .answered w =>
    match e.answers.get? w with
    | some (req,resp) =>
      if e.writes.contains w then none
      else some ⟨{ e with answers := e.answers.erase w },[.answer req resp],[]⟩
    | none => none

theorem step_writeDone {e : MasterElection} {w : ℕ} {b : ElectionBlock}
    (h : e.step (.writeDone w) = some b) : ∃ snap, e.writes.get? w = some snap ∧
      b = ⟨{ e with writes := e.writes.erase w, stateFile := some snap },[],[]⟩ := by
  cases hw : e.writes.get? w <;> simp only [step,hw,Option.some.injEq,reduceCtorEq] at h
  exact ⟨_,rfl,h.symm⟩

theorem step_answered {e : MasterElection} {w : ℕ} {b : ElectionBlock}
    (h : e.step (.answered w) = some b) : ∃ req resp, e.answers.get? w = some (req,resp) ∧
      b = ⟨{ e with answers := e.answers.erase w },[.answer req resp],[]⟩ := by
  cases hw : e.answers.get? w <;>
    simp only [step,hw,Option.ite_none_left_eq_some,Option.some.injEq,reduceCtorEq] at h
  exact ⟨_,_,rfl,h.2.symm⟩

end MasterElection
end FusionMultiNodes

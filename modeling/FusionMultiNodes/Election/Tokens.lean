import FusionMultiNodes.Election.Frame

/-! How often an election raises the fencing token. -/
namespace FusionMultiNodes
namespace MasterElection

/-- The token is raised by one where the node enters the leader state, and stays elsewhere. -/
def RaisesOnce (e e' : MasterElection) : Prop :=
  e'.fencingToken = e.fencingToken+(if e.state ≠ .leader ∧ e'.state = .leader then 1 else 0)

/-- The polling loop has no peer left and finds the quorum on a node that is the leader already. -/
def EndsAsLeader (e : MasterElection) (rest : List NodeId) (majority : ℕ) : Prop :=
  e.state = .leader ∧ rest = [] ∧ majority ≤ e.votesReceived.card

/-- The block runs `_become_leader` on a leader. A leader that steps down has no votes left. -/
def WinsAgain (e : MasterElection) : Event → Prop
  | .resume =>
    match e.loop with
    | .requesting _ rest majority _ => e.EndsAsLeader rest majority
    | .electing _ rest majority _ => e.EndsAsLeader rest majority
    | .steppingDown _ rest majority _ => e.state = .leader ∧ rest = [] ∧ majority = 0
    | _ => False
  | .pollFailed =>
    match e.loop with
    | .polling _ _ rest majority => e.EndsAsLeader rest majority
    | _ => False
  | .voteResponse resp =>
    match e.loop with
    | .polling _ _ rest majority => resp.term ≤ e.currentTerm ∧ e.EndsAsLeader rest majority
    | _ => False
  | _ => False

variable {e e' : MasterElection}

/-- A block that neither touches the token nor makes the node a leader. -/
theorem raisesOnce_of_eq (htoken : e'.fencingToken = e.fencingToken)
    (hstate : e'.state = e.state ∨ e'.state ≠ .leader) : e.RaisesOnce e' := by
  have hnot : ¬(e.state ≠ .leader ∧ e'.state = .leader) := by
    rintro ⟨hne,hl⟩
    rcases hstate with hs | hs
    · exact hne (hs ▸ hl)
    · exact hs hl
  simp only [RaisesOnce,if_neg hnot,htoken,Nat.add_zero]

/-- A block that raises the token and makes the node the leader, or leaves it one. -/
theorem raisesOnce_iff_of_succ (htoken : e'.fencingToken = e.fencingToken+1)
    (hl : e'.state = .leader) : e.RaisesOnce e' ↔ e.state ≠ .leader := by
  simp only [RaisesOnce,htoken,hl,and_true,Nat.add_left_cancel_iff]
  split_ifs with hs <;> simp [hs]

/-- The polling loop goes on or ends on a node with the state of `e` and the votes of `e'`. -/
theorem pollNext_raisesOnce_iff (e e' : MasterElection) (htoken : e'.fencingToken = e.fencingToken)
    (hstate : e'.state = e.state ∨ e'.state ≠ .leader) (req : VoteRequest) (m : ℕ)
    (peers : List NodeId) : e.RaisesOnce (e'.pollNext req m peers).1 ↔
      ¬(e.state = .leader ∧ peers = [] ∧ m ≤ e'.votesReceived.card) := by
  cases peers with
  | nil =>
    simp only [pollNext]
    split_ifs with hm
    · have hraise : e.RaisesOnce { e'.becomeLeader with loop := .electingLast e'.nextWrite } ↔
          e.state ≠ .leader :=
        raisesOnce_iff_of_succ (congrArg (· +1) htoken) rfl
      simp [hraise,hm]
    · have hsame : e.RaisesOnce { e' with loop := .idle } := raisesOnce_of_eq htoken hstate
      simp [hsame,hm]
  | cons p rest =>
    have hsame : e.RaisesOnce { e' with loop := .polling req p rest m } :=
      raisesOnce_of_eq htoken hstate
    simp [pollNext,hsame]

theorem handleVoteResponse_raisesOnce_iff (req : VoteRequest) (rest : List NodeId) (m : ℕ)
    (resp : VoteResponse) : e.RaisesOnce (e.handleVoteResponse req rest m resp).1 ↔
      ¬(resp.term ≤ e.currentTerm ∧ e.EndsAsLeader rest m) := by
  unfold handleVoteResponse EndsAsLeader
  by_cases hlt : e.currentTerm < resp.term
  · rw [if_pos hlt]
    have hsame : e.RaisesOnce { ({ e with currentTerm := resp.term }).persist with
        loop := .steppingDown req rest m e.nextWrite } := raisesOnce_of_eq rfl (Or.inl rfl)
    simp [hsame,hlt]
  rw [if_neg hlt]
  have hle : resp.term ≤ e.currentTerm := not_lt.mp hlt
  simp only [hle,true_and]
  by_cases hs : e.state = .candidate
  · have hnot : e.state ≠ .leader := by simp [hs]
    have hcount := pollNext_raisesOnce_iff e (e.countVote resp.voterId) rfl (Or.inl rfl) req m rest
    have hpoll := pollNext_raisesOnce_iff e e rfl (Or.inl rfl) req m rest
    simp only [hnot,false_and,not_false_eq_true,iff_true] at hcount hpoll ⊢
    simp only [hs,ne_eq,not_true_eq_false,if_false]
    split_ifs
    · exact (raisesOnce_iff_of_succ rfl rfl).mpr hnot
    · exact hcount
    · exact hpoll
  · rw [if_pos hs]
    exact pollNext_raisesOnce_iff e e rfl (Or.inl rfl) req m rest

theorem resumeLoop_raisesOnce_iff {b : ElectionBlock} (hb : e.resumeLoop = some b) :
    e.RaisesOnce b.node ↔ ¬e.WinsAgain .resume := by
  unfold resumeLoop at hb
  cases hl : e.loop with
  | requesting req rest m w =>
    simp only [hl,Option.ite_none_left_eq_some,Option.some.injEq] at hb
    obtain ⟨-,rfl⟩ := hb
    simp only [WinsAgain,hl]
    exact pollNext_raisesOnce_iff e e rfl (Or.inl rfl) req m rest
  | electing req rest m w =>
    simp only [hl,Option.ite_none_left_eq_some,Option.some.injEq] at hb
    obtain ⟨-,rfl⟩ := hb
    simp only [WinsAgain,hl]
    exact pollNext_raisesOnce_iff e e rfl (Or.inl rfl) req m rest
  | steppingDown req rest m w =>
    simp only [hl,Option.ite_none_left_eq_some,Option.some.injEq] at hb
    obtain ⟨-,rfl⟩ := hb
    have hnot : e.becomeFollower.state ≠ .leader := by simp [becomeFollower]
    have hpoll := pollNext_raisesOnce_iff e e.becomeFollower rfl (Or.inr hnot) req m rest
    simpa [WinsAgain,hl,becomeFollower] using hpoll
  | electingLast w =>
    simp only [hl,Option.ite_none_left_eq_some,Option.some.injEq] at hb
    obtain ⟨-,rfl⟩ := hb
    simp only [WinsAgain,hl,not_false_eq_true,iff_true]
    exact raisesOnce_of_eq rfl (Or.inl rfl)
  | _ => simp [hl] at hb

theorem electionLoop_raisesOnce (e : MasterElection) (now rnd : ℚ) :
    e.RaisesOnce (e.electionLoop now rnd).1 := by
  unfold electionLoop
  split
  · split_ifs
    · exact raisesOnce_of_eq rfl (Or.inr (by simp [startElection,persist]))
    · exact raisesOnce_of_eq rfl (Or.inl rfl)
  · exact raisesOnce_of_eq rfl (Or.inl rfl)
  · unfold leaderTick broadcastNext
    split_ifs
    · split <;> exact raisesOnce_of_eq rfl (Or.inl rfl)
    · exact raisesOnce_of_eq rfl (Or.inl rfl)

theorem handleVoteRequest_raisesOnce (e : MasterElection) (req : VoteRequest) (now rnd : ℚ) :
    e.RaisesOnce (e.handleVoteRequest req now rnd).node := by
  have hadopt : (e.adoptTerm req.term).fencingToken = e.fencingToken ∧
      ((e.adoptTerm req.term).state = e.state ∨ (e.adoptTerm req.term).state ≠ .leader) := by
    unfold adoptTerm
    split_ifs
    · exact ⟨rfl,Or.inr (by simp [becomeFollower])⟩
    · exact ⟨rfl,Or.inl rfl⟩
  simp only [handleVoteRequest,castVote]
  split_ifs <;> exact raisesOnce_of_eq hadopt.1 hadopt.2

theorem receiveHeartbeat_raisesOnce (e : MasterElection) (l : NodeId) (t : ℤ) (now rnd : ℚ) :
    e.RaisesOnce (e.receiveHeartbeat l t now rnd).node := by
  simp only [receiveHeartbeat]
  split_ifs
  · exact raisesOnce_of_eq rfl (Or.inr (by simp [becomeFollower,persist]))
  · exact raisesOnce_of_eq rfl (Or.inl rfl)
  · exact raisesOnce_of_eq rfl (Or.inl rfl)

/-- The token is raised exactly where an election is won, unless `_become_leader` runs on a
node that is the leader already. -/
theorem step_raisesOnce_iff {ev : Event} {b : ElectionBlock} (hb : e.step ev = some b) :
    e.RaisesOnce b.node ↔ ¬e.WinsAgain ev := by
  cases ev with
  | resume => exact resumeLoop_raisesOnce_iff hb
  | voteResponse resp =>
    simp only [step] at hb
    simp only [WinsAgain]
    cases hl : e.loop with
    | polling req p rest m =>
      simp only [hl,Option.some.injEq] at hb
      subst hb
      exact handleVoteResponse_raisesOnce_iff req rest m resp
    | _ => simp [hl] at hb
  | pollFailed =>
    simp only [step] at hb
    simp only [WinsAgain]
    cases hl : e.loop with
    | polling req p rest m =>
      simp only [hl,Option.some.injEq] at hb
      subst hb
      exact pollNext_raisesOnce_iff e e rfl (Or.inl rfl) req m rest
    | _ => simp [hl] at hb
  | tick now rnd =>
    obtain ⟨-,h⟩ := Option.ite_none_right_eq_some.mp hb
    obtain rfl := Option.some.inj h
    simp only [WinsAgain,not_false_eq_true,iff_true]
    exact electionLoop_raisesOnce e now rnd
  | heartbeatSent =>
    simp only [step] at hb
    simp only [WinsAgain,not_false_eq_true,iff_true]
    cases hl : e.loop with
    | broadcasting p rest =>
      simp only [hl,Option.some.injEq] at hb
      subst hb
      cases rest <;> exact raisesOnce_of_eq rfl (Or.inl rfl)
    | _ => simp [hl] at hb
  | voteRequest req now rnd =>
    obtain rfl := Option.some.inj hb
    simp only [WinsAgain,not_false_eq_true,iff_true]
    exact handleVoteRequest_raisesOnce e req now rnd
  | heartbeat l t now rnd =>
    obtain rfl := Option.some.inj hb
    simp only [WinsAgain,not_false_eq_true,iff_true]
    exact receiveHeartbeat_raisesOnce e l t now rnd
  | writeDone w =>
    simp only [WinsAgain,not_false_eq_true,iff_true]
    obtain ⟨snap,hw,rfl⟩ := step_writeDone hb
    exact raisesOnce_of_eq rfl (Or.inl rfl)
  | answered w =>
    simp only [WinsAgain,not_false_eq_true,iff_true]
    obtain ⟨req,resp,hw,rfl⟩ := step_answered hb
    exact raisesOnce_of_eq rfl (Or.inl rfl)

end MasterElection
end FusionMultiNodes

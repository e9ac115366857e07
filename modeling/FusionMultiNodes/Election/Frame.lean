import FusionMultiNodes.Election.Node
/-! What no block of a `MasterElection` changes. -/
namespace FusionMultiNodes
namespace MasterElection

variable {e e' e'' : MasterElection}

/-- A block assigns no configuration attribute, never lowers the token, and raises it where the
node becomes the leader. -/
structure SameMaster (e e' : MasterElection) : Prop where
  nodeId : e'.nodeId = e.nodeId
  knownNodes : e'.knownNodes = e.knownNodes
  priority : e'.priority = e.priority
  onElectedHook : e'.onElectedHook = e.onElectedHook
  onDemotedHook : e'.onDemotedHook = e.onDemotedHook
  token : e.fencingToken ≤ e'.fencingToken
  elected : e'.state = .leader → e.state = .leader ∨ e.fencingToken < e'.fencingToken

/-- A block that neither touches the token nor makes the node a leader. -/
theorem SameMaster.of_eq (hid : e'.nodeId = e.nodeId) (hknown : e'.knownNodes = e.knownNodes)
    (hpriority : e'.priority = e.priority) (hup : e'.onElectedHook = e.onElectedHook)
    (hdown : e'.onDemotedHook = e.onDemotedHook) (htoken : e'.fencingToken = e.fencingToken)
    (hstate : e'.state = e.state ∨ e'.state ≠ .leader) : e.SameMaster e' := by
  refine ⟨hid,hknown,hpriority,hup,hdown,htoken.ge,fun hl => ?_⟩
  rcases hstate with hs | hs
  · exact Or.inl (hs ▸ hl)
  · exact absurd hl hs

theorem SameMaster.trans (h : e.SameMaster e') (h' : e'.SameMaster e'') : e.SameMaster e'' := by
  refine ⟨h'.nodeId.trans h.nodeId,h'.knownNodes.trans h.knownNodes,h'.priority.trans h.priority,
    h'.onElectedHook.trans h.onElectedHook,h'.onDemotedHook.trans h.onDemotedHook,
    h.token.trans h'.token,fun hl => ?_⟩
  rcases h'.elected hl with hl' | hlt
  · exact (h.elected hl').imp_right fun hlt => lt_of_lt_of_le hlt h'.token
  · exact Or.inr (lt_of_le_of_lt h.token hlt)

theorem becomeLeader_same (e : MasterElection) : e.SameMaster e.becomeLeader :=
  ⟨rfl,rfl,rfl,rfl,rfl,Nat.le_succ _,fun _ => Or.inr (Nat.lt_succ_self _)⟩

theorem becomeFollower_same (e : MasterElection) : e.SameMaster e.becomeFollower :=
  .of_eq rfl rfl rfl rfl rfl rfl (Or.inr (by simp [becomeFollower]))

theorem loop_same (e : MasterElection) (l : ElectionLoop) : e.SameMaster { e with loop := l } :=
  .of_eq rfl rfl rfl rfl rfl rfl (Or.inl rfl)

theorem countVote_same (e : MasterElection) (v : NodeId) : e.SameMaster (e.countVote v) :=
  .of_eq rfl rfl rfl rfl rfl rfl (Or.inl rfl)

theorem pollNext_same (e : MasterElection) (req : VoteRequest) (m : ℕ) (peers : List NodeId) :
    e.SameMaster (e.pollNext req m peers).1 := by
  cases peers <;> simp only [pollNext]
  · split_ifs
    · exact (becomeLeader_same e).trans (loop_same _ _)
    · exact loop_same e _
  · exact loop_same e _

theorem handleVoteResponse_same (e : MasterElection) (req : VoteRequest) (rest : List NodeId)
    (m : ℕ) (resp : VoteResponse) : e.SameMaster (e.handleVoteResponse req rest m resp).1 := by
  have hcount := countVote_same e resp.voterId
  unfold handleVoteResponse
  split_ifs
  · exact .of_eq rfl rfl rfl rfl rfl rfl (Or.inl rfl)
  · exact pollNext_same e req m rest
  · exact hcount.trans ((becomeLeader_same _).trans (loop_same _ _))
  · exact hcount.trans (pollNext_same _ req m rest)
  · exact pollNext_same e req m rest

theorem broadcastNext_same (e : MasterElection) (peers : List NodeId) :
    e.SameMaster (e.broadcastNext peers).1 := by
  cases peers <;> exact loop_same e _

theorem electionLoop_same (e : MasterElection) (now rnd : ℚ) :
    e.SameMaster (e.electionLoop now rnd).1 := by
  unfold electionLoop
  split
  · split_ifs
    · exact .of_eq rfl rfl rfl rfl rfl rfl (Or.inr (by simp [startElection,persist]))
    · exact loop_same e e.loop
  · exact loop_same e e.loop
  · unfold leaderTick
    split_ifs
    · have hbroadcast := broadcastNext_same { e with lastHeartbeat := now, lastBroadcast := now } e.peers
      refine SameMaster.trans ?_ hbroadcast
      exact .of_eq rfl rfl rfl rfl rfl rfl (Or.inl rfl)
    · exact .of_eq rfl rfl rfl rfl rfl rfl (Or.inl rfl)

theorem resumeLoop_same {b : ElectionBlock} (hb : e.resumeLoop = some b) : e.SameMaster b.node := by
  unfold resumeLoop at hb
  split at hb
  all_goals first | (simp only [reduceCtorEq] at hb) | skip
  all_goals
    simp only [Option.ite_none_left_eq_some,Option.some.injEq] at hb
    obtain ⟨-,rfl⟩ := hb
  · exact pollNext_same e _ _ _
  · exact (becomeFollower_same e).trans (pollNext_same _ _ _ _)
  · exact pollNext_same e _ _ _
  · exact loop_same e _

theorem handleVoteRequest_same (e : MasterElection) (req : VoteRequest) (now rnd : ℚ) :
    e.SameMaster (e.handleVoteRequest req now rnd).node := by
  have hadopt : e.SameMaster (e.adoptTerm req.term) := by
    unfold adoptTerm
    split_ifs
    · refine SameMaster.trans ?_ (becomeFollower_same _)
      exact .of_eq rfl rfl rfl rfl rfl rfl (Or.inl rfl)
    · exact loop_same e e.loop
  have hcast : e.SameMaster ((e.adoptTerm req.term).castVote req now rnd) := by
    refine hadopt.trans ?_
    unfold castVote
    split_ifs <;> exact .of_eq rfl rfl rfl rfl rfl rfl (Or.inl rfl)
  by_cases hwrite : e.currentTerm < req.term ∨ (e.adoptTerm req.term).grants req = true
  · simp only [handleVoteRequest,hwrite,if_true]
    exact hcast.trans (.of_eq rfl rfl rfl rfl rfl rfl (Or.inl rfl))
  · simp only [handleVoteRequest,hwrite,if_false]
    exact hcast

theorem receiveHeartbeat_same (e : MasterElection) (l : NodeId) (t : ℤ) (now rnd : ℚ) :
    e.SameMaster (e.receiveHeartbeat l t now rnd).node := by
  simp only [receiveHeartbeat]
  split_ifs
  · exact .of_eq rfl rfl rfl rfl rfl rfl (Or.inr (by simp [becomeFollower,persist]))
  · exact .of_eq rfl rfl rfl rfl rfl rfl (Or.inl rfl)
  · exact loop_same e e.loop

theorem step_same {ev : Event} {b : ElectionBlock} (hb : e.step ev = some b) :
    e.SameMaster b.node := by
  cases ev with
  | tick now rnd =>
    simp only [step,Option.ite_none_right_eq_some,Option.some.injEq] at hb
    obtain ⟨-,rfl⟩ := hb
    exact electionLoop_same e now rnd
  | resume => exact resumeLoop_same hb
  | voteResponse resp =>
    cases hloop : e.loop <;> simp only [step,hloop,Option.some.injEq,reduceCtorEq] at hb
    subst hb
    exact handleVoteResponse_same e _ _ _ resp
  | pollFailed =>
    cases hloop : e.loop <;> simp only [step,hloop,Option.some.injEq,reduceCtorEq] at hb
    subst hb
    exact pollNext_same e _ _ _
  | heartbeatSent =>
    cases hloop : e.loop <;> simp only [step,hloop,Option.some.injEq,reduceCtorEq] at hb
    subst hb
    exact broadcastNext_same e _
  | voteRequest req now rnd =>
    simp only [step,Option.some.injEq] at hb
    subst hb
    exact handleVoteRequest_same e req now rnd
  | heartbeat l t now rnd =>
    simp only [step,Option.some.injEq] at hb
    subst hb
    exact receiveHeartbeat_same e l t now rnd
  | writeDone w =>
    obtain ⟨snap,hw,rfl⟩ := step_writeDone hb
    exact .of_eq rfl rfl rfl rfl rfl rfl (Or.inl rfl)
  | answered w =>
    obtain ⟨req,resp,hw,rfl⟩ := step_answered hb
    exact .of_eq rfl rfl rfl rfl rfl rfl (Or.inl rfl)

/-- The only callbacks a block calls are those of the two attributes. -/
theorem fired_subset {ev : Event} {b : ElectionBlock} (hb : e.step ev = some b) :
    b.fired ⊆ e.onElectedHook.toList ++ e.onDemotedHook.toList := by
  have hdemoted : e.demotedHooks ⊆ e.onElectedHook.toList ++ e.onDemotedHook.toList := by
    unfold demotedHooks
    split_ifs
    · exact List.subset_append_right _ _
    · exact List.nil_subset _
  have helected : e.onElectedHook.toList ⊆ e.onElectedHook.toList ++ e.onDemotedHook.toList :=
    List.subset_append_left _ _
  cases ev with
  | tick now rnd =>
    obtain ⟨-,hb⟩ := Option.ite_none_right_eq_some.mp hb
    exact Option.some.inj hb ▸ List.nil_subset _
  | resume =>
    simp only [step,resumeLoop] at hb
    split at hb
    all_goals first | (simp only [reduceCtorEq] at hb) | skip
    all_goals
      simp only [Option.ite_none_left_eq_some,Option.some.injEq] at hb
      obtain ⟨-,rfl⟩ := hb
    · exact List.nil_subset _
    · exact hdemoted
    · exact helected
    · exact helected
  | voteRequest req now rnd =>
    obtain rfl := Option.some.inj hb
    simp only [handleVoteRequest]
    split_ifs <;> first | exact hdemoted | exact List.nil_subset _
  | heartbeat l t now rnd =>
    obtain rfl := Option.some.inj hb
    simp only [receiveHeartbeat]
    split_ifs <;> first | exact hdemoted | exact List.nil_subset _
  | answered w =>
    obtain ⟨req,resp,-,rfl⟩ := step_answered hb
    exact List.nil_subset _
  | _ =>
    simp only [step] at hb
    split at hb
    · exact Option.some.inj hb ▸ List.nil_subset _
    · cases hb

end MasterElection
end FusionMultiNodes

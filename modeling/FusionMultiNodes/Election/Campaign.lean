import FusionMultiNodes.Election.Safety

/-! What a `MasterElection` has asked for, over any run. The invariant of one node is stated
over the vote requests that were sent, and says which peers its election has still to ask. -/
namespace FusionMultiNodes
namespace MasterElection

def currentRequest (e : MasterElection) : VoteRequest := ⟨e.currentTerm,e.nodeId,e.priority⟩

/-- The running election of a node has still to ask the peers `rest` for `req`. -/
structure Asks (e : MasterElection) (asked : NodeId → VoteRequest → Prop) (req : VoteRequest)
    (rest : List NodeId) (m : ℕ) : Prop where
  candidate : req.candidateId = e.nodeId
  term_le : req.term ≤ e.currentTerm
  quorum : m = e.majority
  nodup : rest.Nodup
  peers : ∀ q ∈ rest, q ∈ e.peers
  unasked : ∀ q ∈ rest, ¬asked q req

/-- A candidate asks for its current term, and has asked all its peers but these. -/
def AskedOthers (e : MasterElection) (asked : NodeId → VoteRequest → Prop) (req : VoteRequest)
    (rest : List NodeId) : Prop :=
  e.state = .candidate → req = e.currentRequest ∧ ∀ q ∈ e.peers, q ∉ rest → asked q req

/-- The part of the invariant that depends on where the loop is suspended. -/
def Campaigns (e : MasterElection) (asked : NodeId → VoteRequest → Prop) : ElectionLoop → Prop
  | .idle => e.state = .candidate →
      e.votesReceived.card < e.majority ∧ ∀ q ∈ e.peers, asked q e.currentRequest
  | .requesting req peers m _ => e.Asks asked req peers m ∧ e.AskedOthers asked req peers
  | .polling req p rest m => e.Asks asked req rest m ∧ e.AskedOthers asked req rest ∧
      p ∈ e.peers ∧ p ∉ rest ∧ asked p req
  | .steppingDown req rest m _ => e.Asks asked req rest m
  | .electing req rest m _ => e.Asks asked req rest m ∧ e.state ≠ .candidate
  | .electingLast _ => e.state ≠ .candidate
  | .broadcasting _ _ => e.state ≠ .candidate

/-- A response that waits for its state write was asked for, is of no later term, and grants
no vote against the candidacy of the node itself. -/
def Answers (e : MasterElection) (asked : NodeId → VoteRequest → Prop) (req : VoteRequest)
    (resp : VoteResponse) : Prop :=
  asked e.nodeId req ∧ resp.term ≤ e.currentTerm ∧
    (resp.voteGranted = true → req.term ≤ e.currentTerm ∧
      (req.term = e.currentTerm → e.state = .candidate → req.candidateId = e.nodeId))

structure Stands (e : MasterElection) (asked : NodeId → VoteRequest → Prop) : Prop where
  known : e.knownNodes.Nodup
  self_vote : e.state ≠ .follower → e.votedFor = some e.nodeId
  no_votes : e.state = .follower → e.votesReceived = ∅
  asked_le : ∀ q req, asked q req → req.candidateId = e.nodeId → req.term ≤ e.currentTerm
  answers : ∀ w req resp, e.answers.get? w = some (req,resp) → e.Answers asked req resp

structure CampaignInv (e : MasterElection) (asked : NodeId → VoteRequest → Prop) : Prop where
  stands : e.Stands asked
  loop : e.Campaigns asked e.loop

def AskedAfter (asked : NodeId → VoteRequest → Prop) (sent : List ElectionMessage) (q : NodeId)
    (req : VoteRequest) : Prop :=
  asked q req ∨ .requestVote q req ∈ sent

/-- A node asks its peers for itself, and answers what it was asked. -/
def SendsOwn (e : MasterElection) (asked : NodeId → VoteRequest → Prop) : ElectionMessage → Prop
  | .requestVote p req => p ∈ e.peers ∧ req.candidateId = e.nodeId
  | .answer req _ => asked e.nodeId req
  | .heartbeat _ _ _ => True

variable {e e' : MasterElection} {asked asked' : NodeId → VoteRequest → Prop} {req : VoteRequest}
  {rest : List NodeId} {m : ℕ}

theorem majority_pos (e : MasterElection) : 0 < e.majority := Nat.succ_pos _

theorem Stands.nodup_peers (h : e.Stands asked) : e.peers.Nodup := h.known.filter _

theorem CampaignInv.mono (h : e.CampaignInv asked) (hle : ∀ q r, asked q r → asked' q r)
    (hnew : ∀ q r, asked' q r → asked q r ∨ r.candidateId ≠ e.nodeId) : e.CampaignInv asked' := by
  have hasks : ∀ {r l k}, e.Asks asked r l k → e.Asks asked' r l k := by
    intro r l k ha
    refine ⟨ha.candidate,ha.term_le,ha.quorum,ha.nodup,ha.peers,fun q hq hq' => ?_⟩
    rcases hnew q r hq' with hold | hother
    · exact ha.unasked q hq hold
    · exact hother ha.candidate
  have hothers : ∀ {r l}, e.AskedOthers asked r l → e.AskedOthers asked' r l :=
    fun ho hs => ⟨(ho hs).1,fun q hq hq' => hle q _ ((ho hs).2 q hq hq')⟩
  obtain ⟨hst,hl⟩ := h
  refine ⟨⟨hst.known,hst.self_vote,hst.no_votes,fun q r hq hid => ?_,fun w r p hw => ?_⟩,?_⟩
  · exact hst.asked_le q r ((hnew q r hq).resolve_right fun h => h hid) hid
  · exact ⟨hle _ _ (hst.answers w r p hw).1,(hst.answers w r p hw).2⟩
  · cases hloop : e.loop <;> simp only [hloop,Campaigns] at hl ⊢
    case idle => exact fun hs => ⟨(hl hs).1,fun q hq => hle q _ ((hl hs).2 q hq)⟩
    case requesting => exact ⟨hasks hl.1,hothers hl.2⟩
    case polling => exact ⟨hasks hl.1,hothers hl.2.1,hl.2.2.1,hl.2.2.2.1,hle _ _ hl.2.2.2.2⟩
    case steppingDown => exact hasks hl
    case electing => exact ⟨hasks hl.1,hl.2⟩
    all_goals exact hl

theorem Stands.becomeLeader (h : e.Stands asked) (hs : e.state ≠ .follower) :
    e.becomeLeader.Stands asked := by
  refine ⟨h.known,fun _ => h.self_vote hs,fun hf => ?_,h.asked_le,fun w r p hw => ?_⟩
  · simp [MasterElection.becomeLeader,persist] at hf
  · obtain ⟨hasked,hterm,hgrant⟩ := h.answers w r p hw
    refine ⟨hasked,hterm,fun hg => ⟨(hgrant hg).1,fun _ hc => ?_⟩⟩
    simp [MasterElection.becomeLeader,persist] at hc

theorem Stands.becomeFollower (h : e.Stands asked) : e.becomeFollower.Stands asked := by
  refine ⟨h.known,fun hs => absurd rfl hs,fun _ => rfl,h.asked_le,fun w r p hw => ?_⟩
  obtain ⟨hasked,hterm,hgrant⟩ := h.answers w r p hw
  exact ⟨hasked,hterm,fun hg => ⟨(hgrant hg).1,fun _ hc => absurd hc (by simp [MasterElection.becomeFollower])⟩⟩

theorem Stands.raise (h : e.Stands asked) {term : ℤ} (hlt : e.currentTerm < term) :
    ({ e with currentTerm := term } : MasterElection).Stands asked := by
  refine ⟨h.known,h.self_vote,h.no_votes,fun q r hq hid => (h.asked_le q r hq hid).trans hlt.le,
    fun w r p hw => ?_⟩
  obtain ⟨hasked,hterm,hgrant⟩ := h.answers w r p hw
  refine ⟨hasked,hterm.trans hlt.le,fun hg => ⟨(hgrant hg).1.trans hlt.le,fun heq => ?_⟩⟩
  exact absurd (hgrant hg).1 (not_le.mpr (heq ▸ hlt))

theorem Stands.ask (h : e.Stands asked) {p : NodeId} (hreq : req.term ≤ e.currentTerm) :
    e.Stands (AskedAfter asked [.requestVote p req]) := by
  refine ⟨h.known,h.self_vote,h.no_votes,fun q r hq hid => ?_,fun w r resp hw => ?_⟩
  · rcases hq with hold | hnew
    · exact h.asked_le q r hold hid
    · obtain ⟨-,rfl⟩ : q = p ∧ r = req := by simpa using hnew
      exact hreq
  · exact ⟨Or.inl (h.answers w r resp hw).1,(h.answers w r resp hw).2⟩

theorem askedAfter_iff_of_forall {sent : List ElectionMessage}
    (h : ∀ q r, .requestVote q r ∉ sent) : AskedAfter asked sent = asked := by
  funext q r
  exact propext (or_iff_left (h q r))

theorem pollNext_campaign (h : e.Stands asked) (ha : e.Asks asked req rest m)
    (ho : e.AskedOthers asked req rest) :
    (e.pollNext req m rest).1.CampaignInv (AskedAfter asked (e.pollNext req m rest).2) ∧
      ∀ msg ∈ (e.pollNext req m rest).2, e.SendsOwn asked msg := by
  cases rest with
  | nil =>
    have hnone : AskedAfter asked ([] : List ElectionMessage) = asked :=
      askedAfter_iff_of_forall (by simp)
    simp only [pollNext]
    split_ifs with hq
    · have hs : e.state ≠ .follower := by
        intro hf
        have hpos := majority_pos e
        rw [h.no_votes hf,ha.quorum,Finset.card_empty] at hq
        omega
      rw [hnone]
      have hl := h.becomeLeader hs
      refine ⟨⟨⟨hl.known,hl.self_vote,hl.no_votes,hl.asked_le,hl.answers⟩,?_⟩,by simp⟩
      simp [Campaigns,becomeLeader,persist]
    · rw [hnone]
      refine ⟨⟨⟨h.known,h.self_vote,h.no_votes,h.asked_le,h.answers⟩,fun hs => ?_⟩,by simp⟩
      obtain ⟨rfl,hasked⟩ := ho hs
      refine ⟨?_,fun q hq' => hasked q hq' (by simp)⟩
      rw [ha.quorum] at hq
      exact not_le.mp hq
  | cons p rest =>
    have hst := h.ask (p := p) ha.term_le
    obtain ⟨hp,hrest⟩ := List.nodup_cons.mp ha.nodup
    simp only [pollNext]
    refine ⟨⟨⟨hst.known,hst.self_vote,hst.no_votes,hst.asked_le,hst.answers⟩,?_⟩,?_⟩
    · refine ⟨⟨ha.candidate,ha.term_le,ha.quorum,hrest,
        fun q hq => ha.peers q (List.mem_cons_of_mem _ hq),fun q hq hasked => ?_⟩,fun hs => ?_,
        ha.peers p (List.mem_cons_self ..),hp,Or.inr (by simp)⟩
      · rcases hasked with hold | hnew
        · exact ha.unasked q (List.mem_cons_of_mem _ hq) hold
        · have hqp : q = p := by simpa using hnew
          exact hp (hqp ▸ hq)
      · obtain ⟨hreq,hothers⟩ := ho hs
        refine ⟨hreq,fun q hq hq' => ?_⟩
        by_cases hqp : q = p
        · exact Or.inr (by simp [hqp])
        · exact Or.inl (hothers q hq (by simp [hqp,hq']))
    · intro msg hmsg
      rw [List.mem_singleton.mp hmsg]
      exact ⟨ha.peers p (List.mem_cons_self ..),ha.candidate⟩

/-- A block that keeps the invariant and sends nothing but what belongs to the node. -/
def KeepsCampaign (e : MasterElection) (asked : NodeId → VoteRequest → Prop) (e' : MasterElection)
    (sent : List ElectionMessage) : Prop :=
  e'.CampaignInv (AskedAfter asked sent) ∧ ∀ msg ∈ sent, e.SendsOwn asked msg

theorem KeepsCampaign.silent (h : e'.CampaignInv asked) : KeepsCampaign e asked e' [] := by
  refine ⟨?_,by simp⟩
  rw [askedAfter_iff_of_forall (by simp)]
  exact h

theorem Asks.congr (h : e.Asks asked req rest m) (hid : e'.nodeId = e.nodeId)
    (hknown : e'.knownNodes = e.knownNodes) (hterm : e.currentTerm ≤ e'.currentTerm) :
    e'.Asks asked req rest m := by
  have hpeers : e'.peers = e.peers := by simp only [MasterElection.peers,hid,hknown]
  have hmajority : e'.majority = e.majority := by simp only [majority,hknown]
  exact ⟨h.candidate.trans hid.symm,h.term_le.trans hterm,h.quorum.trans hmajority.symm,h.nodup,
    fun q hq => hpeers ▸ h.peers q hq,h.unasked⟩

/-- A node that is no candidate has no duties but to ask those it has not asked. -/
theorem Campaigns.of_ne {l : ElectionLoop} (h : e.Campaigns asked l) (hid : e'.nodeId = e.nodeId)
    (hknown : e'.knownNodes = e.knownNodes) (hterm : e.currentTerm ≤ e'.currentTerm)
    (hs : e'.state ≠ .candidate) : e'.Campaigns asked l := by
  have hpeers : e'.peers = e.peers := by simp only [MasterElection.peers,hid,hknown]
  cases l <;> simp only [Campaigns] at h ⊢
  case idle => exact fun hc => absurd hc hs
  case requesting => exact ⟨h.1.congr hid hknown hterm,fun hc => absurd hc hs⟩
  case polling =>
    exact ⟨h.1.congr hid hknown hterm,fun hc => absurd hc hs,hpeers ▸ h.2.2.1,h.2.2.2⟩
  case steppingDown => exact h.congr hid hknown hterm
  case electing => exact ⟨h.1.congr hid hknown hterm,hs⟩
  all_goals exact hs

/-- The loop has the same duties where state, term and votes are the same. -/
theorem Campaigns.of_same {l : ElectionLoop} (h : e.Campaigns asked l) (hid : e'.nodeId = e.nodeId)
    (hknown : e'.knownNodes = e.knownNodes) (hpriority : e'.priority = e.priority)
    (hterm : e'.currentTerm = e.currentTerm) (hs : e'.state = e.state)
    (hv : e'.votesReceived = e.votesReceived) : e'.Campaigns asked l := by
  have hpeers : e'.peers = e.peers := by simp only [MasterElection.peers,hid,hknown]
  have hmajority : e'.majority = e.majority := by simp only [majority,hknown]
  have hreq : e'.currentRequest = e.currentRequest := by
    simp only [currentRequest,hid,hpriority,hterm]
  have hothers : ∀ {r k}, e.AskedOthers asked r k → e'.AskedOthers asked r k := by
    intro r k ho hc
    rw [hreq,hpeers]
    exact ho (hs ▸ hc)
  cases l <;> simp only [Campaigns] at h ⊢
  case idle =>
    intro hc
    rw [hv,hmajority,hpeers,hreq]
    exact h (hs ▸ hc)
  case requesting => exact ⟨h.1.congr hid hknown hterm.ge,hothers h.2⟩
  case polling => exact ⟨h.1.congr hid hknown hterm.ge,hothers h.2.1,hpeers ▸ h.2.2.1,h.2.2.2⟩
  case steppingDown => exact h.congr hid hknown hterm.ge
  case electing => exact ⟨h.1.congr hid hknown hterm.ge,hs ▸ h.2⟩
  all_goals exact hs ▸ h

theorem startElection_campaign (h : e.Stands asked) (rnd : ℚ) :
    KeepsCampaign e asked (e.startElection rnd) [] := by
  apply KeepsCampaign.silent
  have hst := h.raise (Int.lt_succ e.currentTerm)
  have hunasked : ∀ q, ¬asked q ⟨e.currentTerm+1,e.nodeId,e.priority⟩ := by
    intro q hq
    exact absurd (h.asked_le q _ hq rfl) (not_le.mpr (Int.lt_succ _))
  refine ⟨⟨h.known,fun _ => rfl,fun hf => ?_,hst.asked_le,fun w r p hw => ?_⟩,?_⟩
  · simp [startElection,persist] at hf
  · obtain ⟨hasked,hterm,hgrant⟩ := h.answers w r p hw
    refine ⟨hasked,hterm.trans (Int.lt_succ _).le,fun hg => ⟨(hgrant hg).1.trans (Int.lt_succ _).le,
      fun heq => ?_⟩⟩
    have hle := (hgrant hg).1
    rw [heq] at hle
    exact absurd hle (not_le.mpr (Int.lt_succ e.currentTerm))
  · exact ⟨⟨rfl,le_refl _,rfl,h.nodup_peers,fun q hq => hq,fun q _ => hunasked q⟩,
      fun _ => ⟨rfl,fun q hq hq' => absurd hq hq'⟩⟩

theorem handleVoteResponse_campaign (h : e.Stands asked) (ha : e.Asks asked req rest m)
    (ho : e.AskedOthers asked req rest) (resp : VoteResponse) :
    KeepsCampaign e asked (e.handleVoteResponse req rest m resp).1
      (e.handleVoteResponse req rest m resp).2 := by
  unfold handleVoteResponse
  split_ifs with hlt hstate hgranted hmaj
  · have hst := h.raise hlt
    exact KeepsCampaign.silent ⟨⟨hst.known,hst.self_vote,hst.no_votes,hst.asked_le,hst.answers⟩,
      ha.congr rfl rfl hlt.le⟩
  · exact pollNext_campaign h ha ho
  · have hs : e.state ≠ .follower := by rw [not_not.mp hstate]; decide
    have hcv : (e.countVote resp.voterId).Stands asked :=
      ⟨h.known,h.self_vote,fun hf => absurd hf hs,h.asked_le,h.answers⟩
    have hl := hcv.becomeLeader hs
    exact KeepsCampaign.silent ⟨⟨hl.known,hl.self_vote,hl.no_votes,hl.asked_le,hl.answers⟩,
      ha.congr rfl rfl (le_refl _),by simp [becomeLeader,persist]⟩
  · have hs : e.state ≠ .follower := by rw [not_not.mp hstate]; decide
    have hcv : (e.countVote resp.voterId).Stands asked :=
      ⟨h.known,h.self_vote,fun hf => absurd hf hs,h.asked_le,h.answers⟩
    exact pollNext_campaign hcv (ha.congr rfl rfl (le_refl _)) ho
  · exact pollNext_campaign h ha ho

theorem broadcastNext_campaign (h : e.Stands asked) (hs : e.state ≠ .candidate)
    (peers : List NodeId) : KeepsCampaign e asked (e.broadcastNext peers).1
      (e.broadcastNext peers).2 := by
  cases peers with
  | nil => exact KeepsCampaign.silent ⟨⟨h.known,h.self_vote,h.no_votes,h.asked_le,h.answers⟩,
      fun hc => absurd hc hs⟩
  | cons p rest =>
    have hnone : AskedAfter asked (e.broadcastNext (p::rest)).2 = asked :=
      askedAfter_iff_of_forall (by simp [broadcastNext])
    refine ⟨?_,by simp [broadcastNext,SendsOwn]⟩
    rw [hnone]
    exact ⟨⟨h.known,h.self_vote,h.no_votes,h.asked_le,h.answers⟩,hs⟩

theorem electionLoop_campaign (h : e.CampaignInv asked) (now rnd : ℚ) :
    KeepsCampaign e asked (e.electionLoop now rnd).1 (e.electionLoop now rnd).2 := by
  unfold electionLoop
  split
  · split_ifs
    · exact startElection_campaign h.stands rnd
    · exact KeepsCampaign.silent h
  · exact KeepsCampaign.silent h
  · rename_i hs
    have hne : e.state ≠ .candidate := by rw [hs]; decide
    unfold leaderTick
    split_ifs
    · obtain ⟨hst,-⟩ := h
      exact broadcastNext_campaign (e := { e with lastHeartbeat := now, lastBroadcast := now })
        ⟨hst.known,hst.self_vote,hst.no_votes,hst.asked_le,hst.answers⟩ hne e.peers
    · obtain ⟨hst,hl⟩ := h
      exact KeepsCampaign.silent ⟨⟨hst.known,hst.self_vote,hst.no_votes,hst.asked_le,hst.answers⟩,
        hl.of_same rfl rfl rfl rfl rfl rfl⟩

theorem resumeLoop_campaign {b : ElectionBlock} (h : e.CampaignInv asked)
    (hb : e.resumeLoop = some b) : KeepsCampaign e asked b.node b.sent := by
  obtain ⟨hst,hl⟩ := h
  unfold resumeLoop at hb
  split at hb
  all_goals first | (simp only [reduceCtorEq] at hb) | skip
  all_goals
    rename_i hloop
    simp only [hloop,Campaigns] at hl
    simp only [Option.ite_none_left_eq_some,Option.some.injEq] at hb
    obtain ⟨-,rfl⟩ := hb
  · exact pollNext_campaign hst hl.1 hl.2
  · exact pollNext_campaign hst.becomeFollower (hl.congr rfl rfl (le_refl _))
      fun hc => absurd hc (by simp [becomeFollower])
  · exact pollNext_campaign hst hl.1 fun hc => absurd hc hl.2
  · exact KeepsCampaign.silent ⟨⟨hst.known,hst.self_vote,hst.no_votes,hst.asked_le,hst.answers⟩,
      fun hc => absurd hc hl⟩

theorem adoptTerm_campaign (h : e.CampaignInv asked) (term : ℤ) :
    (e.adoptTerm term).CampaignInv asked := by
  unfold adoptTerm
  split_ifs with hlt
  · have hf := (h.stands.raise hlt).becomeFollower
    exact ⟨hf,h.loop.of_ne rfl rfl hlt.le (by simp [becomeFollower])⟩
  · exact h

theorem castVote_campaign (h : e.CampaignInv asked) (req : VoteRequest) (now rnd : ℚ) :
    (e.castVote req now rnd).CampaignInv asked := by
  unfold castVote
  split_ifs with hg
  · obtain ⟨hst,hl⟩ := h
    refine ⟨⟨hst.known,fun hs => ?_,hst.no_votes,hst.asked_le,hst.answers⟩,
      hl.of_same rfl rfl rfl rfl rfl rfl⟩
    rcases (grants_iff.mp hg).2.1 with hnone | hsome
    · simp [hst.self_vote hs] at hnone
    · exact hsome.symm.trans (hst.self_vote hs)
  · exact h

theorem handleVoteRequest_campaign (h : e.CampaignInv asked) {req : VoteRequest}
    (hreq : asked e.nodeId req) (now rnd : ℚ) :
    KeepsCampaign e asked (e.handleVoteRequest req now rnd).node
      (e.handleVoteRequest req now rnd).sent := by
  have hadopt := adoptTerm_campaign h req.term
  have hid : (e.adoptTerm req.term).nodeId = e.nodeId := by
    unfold adoptTerm
    split_ifs <;> rfl
  obtain ⟨hst,hl⟩ := castVote_campaign hadopt req now rnd
  have hsame : ((e.adoptTerm req.term).castVote req now rnd).nodeId = e.nodeId ∧
      ((e.adoptTerm req.term).castVote req now rnd).currentTerm = (e.adoptTerm req.term).currentTerm ∧
      ((e.adoptTerm req.term).castVote req now rnd).state = (e.adoptTerm req.term).state ∧
      ((e.adoptTerm req.term).castVote req now rnd).answers = (e.adoptTerm req.term).answers := by
    unfold castVote
    split_ifs <;> exact ⟨hid,rfl,rfl,rfl⟩
  by_cases hwrite : e.currentTerm < req.term ∨ (e.adoptTerm req.term).grants req = true
  · simp only [handleVoteRequest,if_pos hwrite]
    refine KeepsCampaign.silent ⟨⟨hst.known,hst.self_vote,hst.no_votes,hst.asked_le,?_⟩,
      hl.of_same rfl rfl rfl rfl rfl rfl⟩
    intro w r p hw
    simp only [Dict.get?_set] at hw
    split_ifs at hw
    · obtain ⟨rfl,rfl⟩ := Prod.mk.inj (Option.some.inj hw)
      refine ⟨?_,hsame.2.1.ge,fun hg => ?_⟩
      · exact hsame.1.symm ▸ hreq
      · have hle : req.term ≤ ((e.adoptTerm req.term).castVote req now rnd).currentTerm :=
          hsame.2.1 ▸ le_adoptTerm e req.term
        refine ⟨hle,fun _ hc => ?_⟩
        have hc' : (e.adoptTerm req.term).state = .candidate := hsame.2.2.1.symm.trans hc
        have hself := hadopt.stands.self_vote (by rw [hc']; decide)
        rcases (grants_iff.mp hg).2.1 with hnone | hsome
        · simp [hself] at hnone
        · exact (Option.some.inj (hsome.symm.trans hself)).trans (hid.trans hsame.1.symm)
    · exact hst.answers w r p (hsame.2.2.2 ▸ hw)
  · have hnone : AskedAfter asked [.answer req ⟨(e.adoptTerm req.term).currentTerm,
        (e.adoptTerm req.term).grants req,e.nodeId⟩] = asked :=
      askedAfter_iff_of_forall (by simp)
    simp only [handleVoteRequest,if_neg hwrite]
    refine ⟨?_,by simpa [SendsOwn] using hreq⟩
    rw [hnone]
    exact ⟨hst,hl⟩

theorem receiveHeartbeat_campaign (h : e.CampaignInv asked) (l : NodeId) (term : ℤ) (now rnd : ℚ) :
    KeepsCampaign e asked (e.receiveHeartbeat l term now rnd).node
      (e.receiveHeartbeat l term now rnd).sent := by
  obtain ⟨hst,hl⟩ := h
  simp only [receiveHeartbeat]
  split_ifs with hle hs
  · have hf : ({ e with currentTerm := term } : MasterElection).becomeFollower.Stands asked := by
      rcases hle.lt_or_eq with hlt | rfl
      · exact (hst.raise hlt).becomeFollower
      · exact hst.becomeFollower
    exact KeepsCampaign.silent ⟨⟨hf.known,hf.self_vote,hf.no_votes,hf.asked_le,hf.answers⟩,
      hl.of_ne rfl rfl hle (by simp [becomeFollower,persist])⟩
  · have hraise : ({ e with currentTerm := term } : MasterElection).Stands asked := by
      rcases hle.lt_or_eq with hlt | rfl
      · exact hst.raise hlt
      · exact hst
    refine KeepsCampaign.silent ⟨⟨hraise.known,hraise.self_vote,hraise.no_votes,hraise.asked_le,
      hraise.answers⟩,hl.of_ne rfl rfl hle ?_⟩
    have hfollower : e.state = .follower := not_not.mp hs
    simp [persist,hfollower]
  · exact KeepsCampaign.silent ⟨hst,hl⟩

theorem step_campaign {ev : Event} {b : ElectionBlock} (h : e.CampaignInv asked)
    (hev : ∀ req now rnd, ev = .voteRequest req now rnd → asked e.nodeId req)
    (hb : e.step ev = some b) : KeepsCampaign e asked b.node b.sent := by
  have hl := h.loop
  cases ev with
  | tick now rnd =>
    obtain ⟨-,hb⟩ := Option.ite_none_right_eq_some.mp hb
    exact Option.some.inj hb ▸ electionLoop_campaign h now rnd
  | resume => exact resumeLoop_campaign h hb
  | voteResponse resp =>
    cases hloop : e.loop <;> simp only [step,hloop,Option.some.injEq,reduceCtorEq] at hb
    subst hb
    simp only [hloop,Campaigns] at hl
    exact handleVoteResponse_campaign h.stands hl.1 hl.2.1 resp
  | pollFailed =>
    cases hloop : e.loop <;> simp only [step,hloop,Option.some.injEq,reduceCtorEq] at hb
    subst hb
    simp only [hloop,Campaigns] at hl
    exact pollNext_campaign h.stands hl.1 hl.2.1
  | heartbeatSent =>
    cases hloop : e.loop <;> simp only [step,hloop,Option.some.injEq,reduceCtorEq] at hb
    subst hb
    simp only [hloop,Campaigns] at hl
    exact broadcastNext_campaign h.stands hl _
  | voteRequest req now rnd =>
    exact Option.some.inj hb ▸ handleVoteRequest_campaign h (hev req now rnd rfl) now rnd
  | heartbeat l term now rnd =>
    exact Option.some.inj hb ▸ receiveHeartbeat_campaign h l term now rnd
  | writeDone w =>
    obtain ⟨snap,hw,rfl⟩ := step_writeDone hb
    obtain ⟨hst,-⟩ := h
    exact KeepsCampaign.silent ⟨⟨hst.known,hst.self_vote,hst.no_votes,hst.asked_le,hst.answers⟩,
      hl.of_same rfl rfl rfl rfl rfl rfl⟩
  | answered w =>
    obtain ⟨req,resp,hw,rfl⟩ := step_answered hb
    obtain ⟨hst,-⟩ := h
    have hnone : AskedAfter asked [.answer req resp] = asked := askedAfter_iff_of_forall (by simp)
    refine ⟨?_,by simpa [SendsOwn] using (hst.answers w req resp hw).1⟩
    rw [hnone]
    refine ⟨⟨hst.known,hst.self_vote,hst.no_votes,hst.asked_le,fun w' r p hw' => ?_⟩,
      hl.of_same rfl rfl rfl rfl rfl rfl⟩
    simp only [Dict.get?_erase] at hw'
    split_ifs at hw'
    exact hst.answers w' r p hw'

end MasterElection

namespace ElectionCluster

open MasterElection

def Asked (c : ElectionCluster) (q : NodeId) (req : VoteRequest) : Prop :=
  .request q req ∈ c.packets

def OthersOnly (c : ElectionCluster) : Prop := ∀ n ∈ c.members, n ∉ (c.nodes n).knownNodes

structure Campaigning (c : ElectionCluster) : Prop where
  config : ∀ n ∈ c.members, (c.nodes n).nodeId = n ∧
    (c.nodes n).knownNodes.toFinset = c.members.erase n
  node : ∀ n ∈ c.members, (c.nodes n).CampaignInv c.Asked
  asked : ∀ q req resp, .response q req resp ∈ c.packets → c.Asked q req

variable {c d : ElectionCluster} {n q : NodeId} {ev : Event} {b : ElectionBlock}

theorem Campaigning.mem_peers (h : c.Campaigning) (hn : n ∈ c.members) :
    q ∈ (c.nodes n).peers ↔ q ∈ c.members ∧ q ≠ n := by
  obtain ⟨hid,hknown⟩ := h.config n hn
  have hmem : q ∈ (c.nodes n).knownNodes ↔ q ∈ c.members.erase n := by
    rw [← hknown,List.mem_toFinset]
  simp only [MasterElection.peers,List.mem_filter,decide_eq_true_eq,hid,hmem,Finset.mem_erase]
  tauto

theorem Campaigning.majority_eq (h : c.Campaigning) (hn : n ∈ c.members) :
    (c.nodes n).majority = c.members.card/2+1 := by
  have hlength : (c.nodes n).knownNodes.length = c.members.card-1 := by
    rw [← List.toFinset_card_of_nodup (h.node n hn).stands.known,(h.config n hn).2,
      Finset.card_erase_of_mem hn]
  have hpos : 0 < c.members.card := Finset.card_pos.mpr ⟨n,hn⟩
  rw [majority,hlength]
  omega

theorem asked_update {req : VoteRequest} :
    (c.update n ev b).Asked q req ↔ AskedAfter c.Asked b.sent q req := by
  refine List.mem_append.trans (or_congr Iff.rfl ?_)
  rw [List.mem_map]
  constructor
  · rintro ⟨msg,hmsg,heq⟩
    cases msg with
    | requestVote p r =>
      obtain ⟨rfl,rfl⟩ : p = q ∧ r = req := by simpa [ElectionMessage.packet] using heq
      exact hmsg
    | answer r resp => simp [ElectionMessage.packet] at heq
    | heartbeat p l t => simp [ElectionMessage.packet] at heq
  · exact fun hmsg => ⟨_,hmsg,rfl⟩

theorem response_update {req : VoteRequest} {resp : VoteResponse}
    (h : .response q req resp ∈ (c.update n ev b).packets) :
    .response q req resp ∈ c.packets ∨ (q = n ∧ .answer req resp ∈ b.sent) := by
  refine (List.mem_append.mp h).imp_right fun hmap => ?_
  obtain ⟨msg,hmsg,heq⟩ := List.mem_map.mp hmap
  cases msg with
  | requestVote p r => simp [ElectionMessage.packet] at heq
  | answer r p =>
    obtain ⟨rfl,rfl,rfl⟩ : n = q ∧ r = req ∧ p = resp := by simpa [ElectionMessage.packet] using heq
    exact ⟨rfl,hmsg⟩
  | heartbeat p l t => simp [ElectionMessage.packet] at heq

theorem Campaigning.keeps (h : c.Campaigning) (hn : n ∈ c.members) (harrives : c.Arrives n ev)
    (hb : (c.nodes n).step ev = some b) : KeepsCampaign (c.nodes n) c.Asked b.node b.sent := by
  refine step_campaign (h.node n hn) (fun req now rnd hev => ?_) hb
  subst hev
  rw [(h.config n hn).1]
  exact harrives

theorem Campaigning.step (h : c.Campaigning) (hs : machine.step c (n,ev) = some d) :
    d.Campaigning := by
  obtain ⟨hn,harrives,b,hb,rfl⟩ := step_eq_some_iff.mp hs
  obtain ⟨hnode,hsent⟩ := h.keeps hn harrives hb
  have hsame := step_same hb
  have hid := (h.config n hn).1
  have hasked : (c.update n ev b).Asked = AskedAfter c.Asked b.sent := by
    funext q req
    exact propext asked_update
  have hnodes : ∀ x, (c.update n ev b).nodes x = if x = n then b.node else c.nodes x := by
    intro x
    by_cases hx : x = n
    · subst hx
      simp [update]
    · simp [update,hx]
  constructor
  · intro x hx
    rw [hnodes]
    split_ifs with hxn
    · subst hxn
      exact ⟨hsame.nodeId.trans hid,by rw [hsame.knownNodes]; exact (h.config x hx).2⟩
    · exact h.config x hx
  · intro x hx
    rw [hnodes,hasked]
    split_ifs with hxn
    · exact hnode
    · refine (h.node x hx).mono (fun q r => Or.inl) fun q r hq => ?_
      refine hq.imp_right fun hmsg hr => hxn ?_
      have hown : r.candidateId = (c.nodes n).nodeId := (hsent _ hmsg).2
      rw [hr,(h.config x hx).1,hid] at hown
      exact hown
  · intro q req resp hmem
    rw [hasked]
    rcases response_update hmem with hold | ⟨rfl,hmsg⟩
    · exact Or.inl (h.asked q req resp hold)
    · have hans : c.Asked (c.nodes q).nodeId req := hsent _ hmsg
      exact Or.inl (hid ▸ hans)

theorem Initial.campaigning (h : c.Initial) (hothers : c.OthersOnly) : c.Campaigning := by
  have hnone : ∀ q req, ¬c.Asked q req := by
    intro q req hq
    simp [Asked,h.packets] at hq
  constructor
  · intro n hn
    obtain ⟨priority,known,up,down,file,now,rnd,hcreate,-,hmembers⟩ := h.created n hn
    have hnot := hothers n hn
    rw [hcreate] at hnot ⊢
    have hfresh : n ∉ known := hnot
    refine ⟨rfl,?_⟩
    rw [← hmembers,Finset.erase_insert (by simpa using hfresh)]
    rfl
  · intro n hn
    obtain ⟨priority,known,up,down,file,now,rnd,hcreate,hnodup,-⟩ := h.created n hn
    rw [hcreate]
    refine ⟨⟨hnodup,fun hs => absurd rfl hs,fun _ => rfl,fun q req hq => absurd hq (hnone q req),
      fun w req resp hw => ?_⟩,fun hc => absurd hc (by simp [create])⟩
    simp [create] at hw
  · intro q req resp hmem
    simp [h.packets] at hmem

theorem campaigning_of_reaches {G : ElectionCluster → NodeId × Event → Prop} (h : c.Campaigning)
    (hr : machine.Reaches G c d) : d.Campaigning :=
  hr.invariant (fun _ _ _ hx _ hs => hx.step hs) h

end ElectionCluster
end FusionMultiNodes

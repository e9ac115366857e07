import FusionMultiNodes.Election.Agreement
import FusionMultiNodes.Election.Progress

/-! When the running masters of a cluster can no longer elect a leader: `_election_loop` does
nothing for a candidate, so that only messages can move it once its election is over. -/
namespace FusionMultiNodes
namespace MasterElection

/-- The response ends the election of a candidate: it carries a later term, or the vote that
makes up the majority. -/
def Decides (e : MasterElection) (resp : VoteResponse) : Prop :=
  e.currentTerm < resp.term ∨
    (resp.voteGranted = true ∧ e.majority ≤ (e.countVote resp.voterId).votesReceived.card)

end MasterElection

namespace ElectionCluster

open MasterElection

/-- The master `n` is no candidate whose election is over for good: it is a follower or steps
down, is in a later term than another that runs, has already a majority, or a message that was
sent can still reach it and make it a follower or decide its election. -/
def Movable (c : ElectionCluster) (R : Finset NodeId) (n : NodeId) : Prop :=
  (c.nodes n).state = .follower ∨ (c.nodes n).loop.downPending = true ∨
  (∃ x ∈ R, (c.nodes x).currentTerm < (c.nodes n).currentTerm) ∨
  (c.nodes n).majority ≤ (c.nodes n).votesReceived.card ∨
  (∃ req, .request n req ∈ c.packets ∧ (c.nodes n).currentTerm < req.term) ∨
  (∃ l t, .heartbeat n l t ∈ c.packets ∧ (c.nodes n).currentTerm ≤ t) ∨
  ∃ req p resp, (c.nodes n).loop.pending = some (req,p) ∧ .response p req resp ∈ c.packets ∧
    (c.nodes n).Decides resp

def CanElect (c : ElectionCluster) (R : Finset NodeId) : Prop := ∃ n ∈ R, c.Movable R n

variable {R : Finset NodeId} {c d : ElectionCluster} {n p : NodeId} {ev : Event}
  {b : ElectionBlock} {req : VoteRequest} {rest : List NodeId} {m : ℕ}

/-- The one in the latest term of all is followed by one that is behind, or leads itself. -/
theorem led_of_behind {x f : NodeId} (hc : c.Campaigning) (hR : R ⊆ c.members)
    (hmajority : c.members.card < 2*R.card) (hx : x ∈ R) (hf : f ∈ R)
    (hmax : ∀ y ∈ R, (c.nodes y).currentTerm ≤ (c.nodes f).currentTerm)
    (hlt : (c.nodes x).currentTerm < (c.nodes f).currentTerm) :
    ∃ d, c.Continues R d ∧ d.Led R := by
  cases hs : (c.nodes f).state with
  | leader => exact ⟨c,Machine.Reaches.refl,f,hf,hs⟩
  | follower => exact Ahead.led ⟨hf,hs,hmax⟩ hc hR hmajority
  | candidate =>
    by_cases hdown : (c.nodes f).loop.downPending = true
    · obtain ⟨d,hsolo,hleader | hrests⟩ := finish_loop hf (hR hf)
      · exact ⟨d,hsolo.run,f,hf,hleader⟩
      · have hahead : Ahead R d f := by
          refine ⟨hf,by rw [hrests.state,if_pos hdown],fun y hy => ?_⟩
          rw [hrests.term]
          by_cases hyf : y = f
          · rw [hyf,hrests.term]
          · rw [hsolo.others y hyf]
            exact hmax y hy
        obtain ⟨d',hd',hled⟩ := hahead.led (campaigning_of_reaches hc hsolo.run)
          (hsolo.members ▸ hR) (hsolo.members ▸ hmajority)
        exact ⟨d',hsolo.run.trans hd',hled⟩
    · obtain ⟨d,hrun,hled | ⟨hfollower,hterm,hterms,-⟩⟩ :=
        follow hc hR hf hx hs (eq_false_of_ne_true hdown) hlt
      · exact ⟨d,hrun,hled⟩
      · have hmembers := members_of_continues hrun
        have hahead : Ahead R d x := by
          refine ⟨hx,hfollower,fun y hy => ?_⟩
          by_cases hyx : y = x
          · rw [hyx]
          · rw [hterms y hy hyx,hterm]
            exact hmax y hy
        obtain ⟨d',hd',hled⟩ := hahead.led (campaigning_of_reaches hc hrun)
          (hmembers ▸ hR) (hmembers ▸ hmajority)
        exact ⟨d',hrun.trans hd',hled⟩

theorem led_of_follower {x : NodeId} (hc : c.Campaigning) (hR : R ⊆ c.members)
    (hmajority : c.members.card < 2*R.card) (hx : x ∈ R) (hs : (c.nodes x).state = .follower) :
    ∃ d, c.Continues R d ∧ d.Led R := by
  obtain ⟨f,hf,hmax⟩ := R.exists_max_image (fun y => (c.nodes y).currentTerm) ⟨x,hx⟩
  rcases (hmax x hx).lt_or_eq with hlt | heq
  · exact led_of_behind hc hR hmajority hx hf hmax hlt
  · exact Ahead.led ⟨hx,hs,fun y hy => (hmax y hy).trans_eq heq.symm⟩ hc hR hmajority

/-- One step makes a master a follower, and the others take it from there. -/
theorem led_of_step (hc : c.Campaigning) (hR : R ⊆ c.members)
    (hmajority : c.members.card < 2*R.card) (hsolo : c.Solo R n d) (hn : n ∈ R)
    (hs : (d.nodes n).state = .follower) : ∃ d, c.Continues R d ∧ d.Led R := by
  obtain ⟨d',hd',hled⟩ := led_of_follower (campaigning_of_reaches hc hsolo.run)
    (hsolo.members ▸ hR) (hsolo.members ▸ hmajority) hn hs
  exact ⟨d',hsolo.run.trans hd',hled⟩

theorem led_of_downPending (hc : c.Campaigning) (hR : R ⊆ c.members)
    (hmajority : c.members.card < 2*R.card) (hn : n ∈ R)
    (hdown : (c.nodes n).loop.downPending = true) : ∃ d, c.Continues R d ∧ d.Led R := by
  obtain ⟨d,hsolo,hleader | hrests⟩ := finish_loop hn (hR hn)
  · exact ⟨d,hsolo.run,n,hn,hleader⟩
  · exact led_of_step hc hR hmajority hsolo hn (by rw [hrests.state,if_pos hdown])

theorem pending_eq_some (h : (c.nodes n).loop.pending = some (req,p)) :
    ∃ rest m, (c.nodes n).loop = .polling req p rest m := by
  cases hloop : (c.nodes n).loop with
  | polling r q rest m =>
    simp only [hloop,ElectionLoop.pending,Option.some.injEq,Prod.mk.injEq] at h
    exact ⟨rest,m,by rw [h.1,h.2]⟩
  | _ => simp [hloop,ElectionLoop.pending] at h

theorem led_of_response (hc : c.Campaigning) (hR : R ⊆ c.members)
    (hmajority : c.members.card < 2*R.card) (hn : n ∈ R) (hs : (c.nodes n).state = .candidate)
    {resp : VoteResponse} (hpending : (c.nodes n).loop.pending = some (req,p))
    (hpacket : .response p req resp ∈ c.packets) (hdecides : (c.nodes n).Decides resp) :
    ∃ d, c.Continues R d ∧ d.Led R := by
  obtain ⟨rest,m,hloop⟩ := pending_eq_some hpending
  have harrives : c.Arrives n (.voteResponse resp) := by
    simp [Arrives,hpending,hpacket]
  have hb : (c.nodes n).step (.voteResponse resp) =
      some ⟨((c.nodes n).handleVoteResponse req rest m resp).1,
        ((c.nodes n).handleVoteResponse req rest m resp).2,[]⟩ := by
    simp only [MasterElection.step,hloop]
  obtain ⟨hsolo,hnode⟩ := solo_step hn (hR hn) _ harrives hb
  by_cases hlt : (c.nodes n).currentTerm < resp.term
  · have hdown : ((c.update n (.voteResponse resp) ⟨((c.nodes n).handleVoteResponse req rest m resp).1,
        ((c.nodes n).handleVoteResponse req rest m resp).2,[]⟩).nodes n).loop.downPending = true := by
      rw [hnode]
      simp only [handleVoteResponse,if_pos hlt]
      rfl
    obtain ⟨d,hd,hled⟩ := led_of_downPending (campaigning_of_reaches hc hsolo.run)
      (hsolo.members ▸ hR) (hsolo.members ▸ hmajority) hn hdown
    exact ⟨d,hsolo.run.trans hd,hled⟩
  · obtain ⟨hgranted,hquorum⟩ := hdecides.resolve_left hlt
    refine ⟨_,hsolo.run,n,hn,?_⟩
    rw [hnode]
    simp only [handleVoteResponse,if_neg hlt,hs,ne_eq,not_true_eq_false,if_false,hgranted,if_true,
      if_pos hquorum]
    rfl

/-- A candidate that has its majority already wins once its polling is over. -/
theorem led_of_majority (hc : c.Campaigning) (hR : R ⊆ c.members) (hn : n ∈ R)
    (hs : (c.nodes n).state = .candidate) (hdown : (c.nodes n).loop.downPending = false)
    (hquorum : (c.nodes n).majority ≤ (c.nodes n).votesReceived.card) :
    ∃ d, c.Continues R d ∧ d.Led R := by
  obtain ⟨d,hsolo,hleader | hrests⟩ := finish_loop hn (hR hn)
  · exact ⟨d,hsolo.run,n,hn,hleader⟩
  have hc' := campaigning_of_reaches hc hsolo.run
  have hm : n ∈ d.members := hsolo.members ▸ hR hn
  have hinv := (hc'.node n hm).loop
  rw [hrests.loop] at hinv
  have hfew := (hinv (by rw [hrests.state,hdown,hs]; rfl)).1
  rw [hrests.votes hdown,hc'.majority_eq hm,hsolo.members,← hc.majority_eq (hR hn)] at hfew
  exact absurd hquorum (not_le.mpr hfew)

/-- From a state with a movable master, the running majority can elect a leader. -/
theorem CanElect.led (h : c.CanElect R) (hc : c.Campaigning) (hR : R ⊆ c.members)
    (hmajority : c.members.card < 2*R.card) : ∃ d, c.Continues R d ∧ d.Led R := by
  obtain ⟨n,hn,hmovable⟩ := h
  have hm := hR hn
  cases hs : (c.nodes n).state with
  | leader => exact ⟨c,Machine.Reaches.refl,n,hn,hs⟩
  | follower => exact led_of_follower hc hR hmajority hn hs
  | candidate =>
    by_cases hdown : (c.nodes n).loop.downPending = true
    · exact led_of_downPending hc hR hmajority hn hdown
    rcases hmovable with hfollower | hpending | ⟨x,hx,hlt⟩ | hquorum | ⟨req,hasked,hlt⟩ |
      ⟨l,t,hsent,hle⟩ | ⟨req,p,resp,hpending,hpacket,hdecides⟩
    · exact led_of_follower hc hR hmajority hn hfollower
    · exact absurd hpending hdown
    · obtain ⟨f,hf,hmax⟩ := R.exists_max_image (fun y => (c.nodes y).currentTerm) ⟨n,hn⟩
      exact led_of_behind hc hR hmajority hx hf hmax (hlt.trans_le (hmax n hn))
    · exact led_of_majority hc hR hn hs (eq_false_of_ne_true hdown) hquorum
    · obtain ⟨d,hsolo,hfollower,-⟩ := deliver_request hn hm hasked hlt
      exact led_of_step hc hR hmajority hsolo hn hfollower
    · have hb : (c.nodes n).step (.heartbeat l t 0 0) =
          some ((c.nodes n).receiveHeartbeat l t 0 0) := rfl
      obtain ⟨hsolo,hnode⟩ := solo_step hn hm (.heartbeat l t 0 0) hsent hb
      refine led_of_step hc hR hmajority hsolo hn ?_
      rw [hnode]
      simp [receiveHeartbeat,hle,hs,becomeFollower,persist]
    · exact led_of_response hc hR hmajority hn hs hpending hpacket hdecides

end ElectionCluster

namespace MasterElection

variable {e : MasterElection} {asked : NodeId → VoteRequest → Prop} {req : VoteRequest}
  {rest : List NodeId} {m : ℕ}

def Idles (e : MasterElection) : ElectionMessage → Prop
  | .requestVote _ req => req.term = e.currentTerm
  | .answer req resp => resp.term ≤ e.currentTerm ∧
      (resp.voteGranted = true → req.term = e.currentTerm → req.candidateId = e.nodeId)
  | .heartbeat _ _ _ => False

/-- The candidate is as it was, but may have gone on to a peer it has not asked before. -/
structure Stalls (e : MasterElection) (asked : NodeId → VoteRequest → Prop) (e' : MasterElection)
    (sent : List ElectionMessage) : Prop where
  state : e'.state = .candidate
  down : e'.loop.downPending = false
  term : e'.currentTerm = e.currentTerm
  undecided : e'.votesReceived.card < e.majority
  pending : ∀ req p, e'.loop.pending = some (req,p) →
    (e.loop.pending = some (req,p) ∧ e'.votesReceived = e.votesReceived) ∨ ¬asked p req
  sent : ∀ msg ∈ sent, e.Idles msg

def Leaves (e : MasterElection) : Event → Prop
  | .voteRequest req _ _ => req.term ≤ e.currentTerm
  | .heartbeat _ term _ _ => term < e.currentTerm
  | .voteResponse resp => ¬e.Decides resp
  | _ => True

theorem pollNext_stalls (hs : e.state = .candidate) (ha : e.Asks asked req rest m)
    (hterm : req.term = e.currentTerm) (hfew : e.votesReceived.card < e.majority) :
    e.Stalls asked (e.pollNext req m rest).1 (e.pollNext req m rest).2 := by
  cases rest with
  | nil =>
    have hnot : ¬m ≤ e.votesReceived.card := not_le.mpr (ha.quorum.symm ▸ hfew)
    simp only [pollNext,if_neg hnot]
    exact ⟨hs,rfl,rfl,hfew,fun _ _ h => absurd h (by simp [ElectionLoop.pending]),by simp⟩
  | cons p rest =>
    refine ⟨hs,rfl,rfl,hfew,fun r q h => Or.inr ?_,fun msg hmsg => ?_⟩
    · obtain ⟨rfl,rfl⟩ := Prod.mk.inj (Option.some.inj h)
      exact ha.unasked p (List.mem_cons_self ..)
    · rw [List.mem_singleton.mp hmsg]
      exact hterm

theorem Stalls.of_same {e' : MasterElection} (hs : e.state = .candidate)
    (hdown : e.loop.downPending = false) (hfew : e.votesReceived.card < e.majority)
    (hstate : e'.state = e.state) (hloop : e'.loop = e.loop)
    (hterm : e'.currentTerm = e.currentTerm) (hvotes : e'.votesReceived = e.votesReceived)
    {sent : List ElectionMessage} (hsent : ∀ msg ∈ sent, e.Idles msg) : e.Stalls asked e' sent :=
  ⟨hstate.trans hs,hloop ▸ hdown,hterm,hvotes ▸ hfew,
    fun _ _ h => Or.inl ⟨hloop ▸ h,hvotes⟩,hsent⟩

theorem handleVoteResponse_stalls (hs : e.state = .candidate) (ha : e.Asks asked req rest m)
    (hterm : req.term = e.currentTerm) (hfew : e.votesReceived.card < e.majority)
    {resp : VoteResponse} (hleaves : ¬e.Decides resp) :
    e.Stalls asked (e.handleVoteResponse req rest m resp).1
      (e.handleVoteResponse req rest m resp).2 := by
  obtain ⟨hlt,hquorum⟩ := not_or.mp hleaves
  simp only [handleVoteResponse,if_neg hlt,hs,ne_eq,not_true_eq_false,if_false]
  split_ifs with hgranted hmajority
  · exact absurd ⟨hgranted,hmajority⟩ hquorum
  · have hcounted : (e.countVote resp.voterId).Asks asked req rest m := ha.congr rfl rfl (le_refl _)
    have hcandidate : (e.countVote resp.voterId).state = .candidate := hs
    obtain ⟨h₁,h₂,h₃,h₄,h₅,h₆⟩ := pollNext_stalls hcandidate hcounted hterm (not_le.mp hmajority)
    refine ⟨h₁,h₂,h₃,h₄,fun r q h => Or.inr ?_,h₆⟩
    cases rest with
    | nil =>
      have hnot : ¬m ≤ (e.countVote resp.voterId).votesReceived.card := ha.quorum.symm ▸ hmajority
      simp only [pollNext,if_neg hnot] at h
      cases h
    | cons p rest =>
      obtain ⟨rfl,rfl⟩ := Prod.mk.inj (Option.some.inj h)
      exact ha.unasked p (List.mem_cons_self ..)
  · exact pollNext_stalls hs ha hterm hfew

theorem handleVoteRequest_stalls (hs : e.state = .candidate)
    (hdown : e.loop.downPending = false) (hfew : e.votesReceived.card < e.majority)
    (hle : req.term ≤ e.currentTerm) (now rnd : ℚ) :
    e.Stalls asked (e.handleVoteRequest req now rnd).node (e.handleVoteRequest req now rnd).sent := by
  have hadopt : e.adoptTerm req.term = e := by simp [adoptTerm,not_lt.mpr hle]
  by_cases hwrite : e.currentTerm < req.term ∨ e.grants req = true
  · simp only [handleVoteRequest,hadopt,if_pos hwrite]
    refine Stalls.of_same hs hdown hfew ?_ ?_ ?_ ?_ (by simp) <;>
      (simp only [persist,castVote]; split_ifs <;> rfl)
  · have hdenied : e.grants req = false := eq_false_of_ne_true fun hg => hwrite (Or.inr hg)
    simp only [handleVoteRequest,hadopt,if_neg hwrite]
    simp only [castVote,hdenied,Bool.false_eq_true,if_false]
    refine Stalls.of_same hs hdown hfew rfl rfl rfl rfl ?_
    intro msg hmsg
    rw [List.mem_singleton.mp hmsg]
    exact ⟨le_refl _,fun hg => absurd hg (by simp)⟩

theorem step_stalls {ev : Event} {b : ElectionBlock} (h : e.CampaignInv asked)
    (hs : e.state = .candidate) (hdown : e.loop.downPending = false)
    (hfew : e.votesReceived.card < e.majority) (hleaves : e.Leaves ev) (hb : e.step ev = some b) :
    e.Stalls asked b.node b.sent := by
  have hl := h.loop
  have hsame : e.Stalls asked e [] := Stalls.of_same hs hdown hfew rfl rfl rfl rfl (by simp)
  have hreq : ∀ {r k}, e.AskedOthers asked r k → r.term = e.currentTerm := by
    intro r k ho
    rw [(ho hs).1]
    rfl
  cases ev with
  | tick now rnd =>
    obtain ⟨-,hb⟩ := Option.ite_none_right_eq_some.mp hb
    simp only [electionLoop,hs] at hb
    exact Option.some.inj hb ▸ hsame
  | resume =>
    cases hloop : e.loop <;>
      simp only [step,resumeLoop,hloop,Option.ite_none_left_eq_some,Option.some.injEq,
        reduceCtorEq] at hb <;>
      simp only [hloop,Campaigns] at hl
    case requesting =>
      obtain ⟨-,rfl⟩ := hb
      exact pollNext_stalls hs hl.1 (hreq hl.2) hfew
    case steppingDown => simp [hloop,ElectionLoop.downPending] at hdown
    case electing => exact absurd hs hl.2
    case electingLast => exact absurd hs hl
  | voteResponse resp =>
    cases hloop : e.loop <;> simp only [step,hloop,Option.some.injEq,reduceCtorEq] at hb
    subst hb
    simp only [hloop,Campaigns] at hl
    exact handleVoteResponse_stalls hs hl.1 (hreq hl.2.1) hfew hleaves
  | pollFailed =>
    cases hloop : e.loop <;> simp only [step,hloop,Option.some.injEq,reduceCtorEq] at hb
    subst hb
    simp only [hloop,Campaigns] at hl
    exact pollNext_stalls hs hl.1 (hreq hl.2.1) hfew
  | heartbeatSent =>
    cases hloop : e.loop <;> simp only [step,hloop,Option.some.injEq,reduceCtorEq] at hb
    simp only [hloop,Campaigns] at hl
    exact absurd hs hl
  | voteRequest req now rnd =>
    exact Option.some.inj hb ▸ handleVoteRequest_stalls hs hdown hfew hleaves now rnd
  | heartbeat l term now rnd =>
    have hold : ¬e.currentTerm ≤ term := not_le.mpr hleaves
    simp only [step,receiveHeartbeat,if_neg hold,Option.some.injEq] at hb
    exact hb ▸ hsame
  | writeDone w =>
    obtain ⟨snap,hw,rfl⟩ := step_writeDone hb
    exact ⟨hs,hdown,rfl,hfew,hsame.pending,hsame.sent⟩
  | answered w =>
    obtain ⟨req,resp,hw,rfl⟩ := step_answered hb
    refine ⟨hs,hdown,rfl,hfew,hsame.pending,fun msg hmsg => ?_⟩
    rw [List.mem_singleton.mp hmsg]
    obtain ⟨-,hterm,hgrant⟩ := h.stands.answers w req resp hw
    exact ⟨hterm,fun hg heq => (hgrant hg).2 heq hs⟩

end MasterElection

namespace ElectionCluster

open MasterElection

variable {R : Finset NodeId} {c d : ElectionCluster} {n p : NodeId} {ev : Event}
  {b : ElectionBlock}

/-- Every running master is a candidate, and none is movable. -/
def Standstill (c : ElectionCluster) (R : Finset NodeId) : Prop :=
  ∀ n ∈ R, (c.nodes n).state = .candidate ∧ ¬c.Movable R n

theorem Standstill.not_led (h : c.Standstill R) : ¬c.Led R := by
  rintro ⟨n,hn,hs⟩
  rw [(h n hn).1] at hs
  cases hs

theorem standstill_of_not (hled : ¬c.Led R) (hcan : ¬c.CanElect R) : c.Standstill R := by
  intro n hn
  have hmovable : ¬c.Movable R n := fun h => hcan ⟨n,hn,h⟩
  cases hs : (c.nodes n).state with
  | candidate => exact ⟨rfl,hmovable⟩
  | leader => exact absurd ⟨n,hn,hs⟩ hled
  | follower => exact absurd (Or.inl hs) hmovable

theorem heartbeat_update {q l : NodeId} {t : ℤ} (h : .heartbeat q l t ∈ (c.update n ev b).packets) :
    .heartbeat q l t ∈ c.packets ∨ .heartbeat q l t ∈ b.sent := by
  refine (List.mem_append.mp h).imp_right fun hmap => ?_
  obtain ⟨msg,hmsg,heq⟩ := List.mem_map.mp hmap
  cases msg with
  | requestVote p r => simp [ElectionMessage.packet] at heq
  | answer r p => simp [ElectionMessage.packet] at heq
  | heartbeat p k u =>
    obtain ⟨rfl,rfl,rfl⟩ : p = q ∧ k = l ∧ u = t := by simpa [ElectionMessage.packet] using heq
    exact hmsg

theorem Standstill.leaves (h : c.Standstill R) (hn : n ∈ R) (harrives : c.Arrives n ev) :
    (c.nodes n).Leaves ev := by
  obtain ⟨-,-,-,-,hrequest,hheartbeat,hresponse⟩ : _ ∧ _ ∧ _ ∧ _ ∧ _ ∧ _ ∧ _ := by
    simpa only [Movable,not_or] using (h n hn).2
  cases ev with
  | voteRequest req now rnd => exact not_lt.mp fun hlt => hrequest ⟨req,harrives,hlt⟩
  | heartbeat l t now rnd => exact not_le.mp fun hle => hheartbeat ⟨l,t,harrives,hle⟩
  | voteResponse resp =>
    intro hdecides
    obtain ⟨⟨req,p⟩,hpending,hpacket⟩ := (Option.any_eq_true _ _).mp harrives
    exact hresponse ⟨req,p,resp,hpending,of_decide_eq_true hpacket,hdecides⟩
  | _ => trivial

theorem Standstill.step (h : c.Standstill R) (hc : c.Campaigning) (hR : R ⊆ c.members)
    (hn : n ∈ R) (hs : machine.step c (n,ev) = some d) : d.Standstill R := by
  have hc' := hc.step hs
  obtain ⟨hm,harrives,b,hb,rfl⟩ := step_eq_some_iff.mp hs
  have hid := (hc.config n hm).1
  have hmovable : ∀ x ∈ R, ¬_ ∧ ¬_ ∧ ¬_ ∧ ¬_ ∧ ¬_ ∧ ¬_ ∧ ¬_ := fun x hx => by
    simpa only [Movable,not_or] using (h x hx).2
  obtain ⟨-,hdown,-,hfew,-,-,-⟩ := hmovable n hn
  have hstalls := step_stalls (hc.node n hm) (h n hn).1 (eq_false_of_ne_true hdown)
    (not_le.mp hfew) (h.leaves hn harrives) hb
  have hsent := (hc.keeps hm harrives hb).2
  have hterm : ∀ x ∈ R, (c.nodes x).currentTerm = (c.nodes n).currentTerm := by
    intro x hx
    apply le_antisymm
    · exact not_lt.mp fun hlt => (hmovable x hx).2.2.1 ⟨n,hn,hlt⟩
    · exact not_lt.mp fun hlt => (hmovable n hn).2.2.1 ⟨x,hx,hlt⟩
  have hnodes : ∀ x, (c.update n ev b).nodes x = if x = n then b.node else c.nodes x := by
    intro x
    by_cases hx : x = n
    · subst hx
      simp [update]
    · simp [update,hx]
  have hterm' : ∀ x ∈ R, ((c.update n ev b).nodes x).currentTerm = (c.nodes n).currentTerm := by
    intro x hx
    rw [hnodes]
    split_ifs
    · exact hstalls.term
    · exact hterm x hx
  have hstate : ∀ x ∈ R, ((c.update n ev b).nodes x).state = .candidate ∧
      ((c.update n ev b).nodes x).loop.downPending = false ∧
      ((c.update n ev b).nodes x).votesReceived.card < ((c.update n ev b).nodes x).majority := by
    intro x hx
    rw [hnodes]
    split_ifs with hxn
    · refine ⟨hstalls.state,hstalls.down,?_⟩
      have hmajority : b.node.majority = (c.nodes n).majority := by
        simp only [majority,(step_same hb).knownNodes]
      exact hmajority ▸ hstalls.undecided
    · exact ⟨(h x hx).1,eq_false_of_ne_true (hmovable x hx).2.1,not_le.mp (hmovable x hx).2.2.2.1⟩
  intro x hx
  obtain ⟨hcandidate,hdown',hfew'⟩ := hstate x hx
  refine ⟨hcandidate,?_⟩
  rintro (hfollower | hpending | ⟨y,hy,hlt⟩ | hquorum | ⟨req,hasked,hlt⟩ | ⟨l,t,hpacket,hle⟩ |
    ⟨req,p,resp,hpending,hpacket,hdecides⟩)
  · rw [hcandidate] at hfollower
    cases hfollower
  · rw [hdown'] at hpending
    cases hpending
  · rw [hterm' x hx,hterm' y hy] at hlt
    exact lt_irrefl _ hlt
  · exact absurd hquorum (not_le.mpr hfew')
  · rw [hterm' x hx] at hlt
    rcases asked_update.mp hasked with hold | hnew
    · exact (hmovable x hx).2.2.2.2.1 ⟨req,hold,by rw [hterm x hx]; exact hlt⟩
    · exact absurd (hstalls.sent _ hnew) hlt.ne'
  · rw [hterm' x hx] at hle
    rcases heartbeat_update hpacket with hold | hnew
    · exact (hmovable x hx).2.2.2.2.2.1 ⟨l,t,hold,by rw [hterm x hx]; exact hle⟩
    · exact hstalls.sent _ hnew
  · have hx' : x ∈ (c.update n ev b).members := hR hx
    obtain ⟨rest,m,hloop⟩ := pending_eq_some hpending
    have hinv := (hc'.node x hx').loop
    simp only [hloop,Campaigns] at hinv
    have hpx : p ≠ x := ((hc'.mem_peers hx').mp hinv.2.2.1).2
    by_cases hxn : x = n
    · subst hxn
      rw [hnodes,if_pos rfl] at hpending hdecides
      have hold := (response_update hpacket).resolve_right fun hnew => hpx hnew.1
      rcases hstalls.pending req p hpending with ⟨hsame,hvotes⟩ | hunasked
      · refine (hmovable x hx).2.2.2.2.2.2 ⟨req,p,resp,hsame,hold,?_⟩
        have hknown := (step_same hb).knownNodes
        simpa only [Decides,countVote,majority,hstalls.term,hvotes,hknown] using hdecides
      · exact hunasked (hc.asked p req resp hold)
    · rw [hnodes,if_neg hxn] at hpending hdecides
      rcases response_update hpacket with hold | ⟨rfl,hnew⟩
      · exact (hmovable x hx).2.2.2.2.2.2 ⟨req,p,resp,hpending,hold,hdecides⟩
      · obtain ⟨hle,hgrant⟩ : _ ∧ _ := hstalls.sent _ hnew
        rcases hdecides with hlt | ⟨hgranted,-⟩
        · rw [hterm x hx] at hlt
          exact absurd hle (not_le.mpr hlt)
        · have hreq := (hinv.2.1 hcandidate).1
          rw [hnodes,if_neg hxn] at hreq
          have hown := hgrant hgranted (by rw [hreq]; exact hterm x hx)
          rw [hreq,hid] at hown
          exact hxn ((hc.config x (hR hx)).1.symm.trans hown)

theorem Standstill.continues (h : c.Standstill R) (hc : c.Campaigning) (hR : R ⊆ c.members)
    (hd : c.Continues R d) : ¬d.Led R := by
  have hboth : d.Standstill R ∧ d.Campaigning ∧ R ⊆ d.members := by
    refine hd.invariant (I := fun x => x.Standstill R ∧ x.Campaigning ∧ R ⊆ x.members)
      (fun x e y hx hn hs => ?_) ⟨h,hc,hR⟩
    obtain ⟨hstill,hcampaign,hsub⟩ := hx
    have hmembers : y.members = x.members := by
      obtain ⟨-,-,b,-,rfl⟩ := step_eq_some_iff.mp hs
      rfl
    exact ⟨hstill.step hcampaign hsub hn hs,hcampaign.step hs,hmembers ▸ hsub⟩
  exact hboth.1.not_led

/-- In every reachable state in which a majority runs and none of it leads, some continuation
makes one of it the leader if and only if one of it is movable. -/
theorem election_progress_iff {c₀ : ElectionCluster} (h₀ : c₀.Initial) (hothers : c₀.OthersOnly)
    (hreach : machine.Reaches Machine.Any c₀ c) (hR : R ⊆ c.members)
    (hmajority : c.members.card < 2*R.card) (hled : ¬c.Led R) :
    (∃ d, c.Continues R d ∧ d.Led R) ↔ c.CanElect R := by
  have hc := campaigning_of_reaches (h₀.campaigning hothers) hreach
  constructor
  · rintro ⟨d,hd,hleader⟩
    by_contra hcan
    exact (standstill_of_not hled hcan).continues hc hR hd hleader
  · exact fun hcan => hcan.led hc hR hmajority

theorem threeMasters_othersOnly : threeMasters.OthersOnly := by
  intro n hn
  simp only [threeMasters,Finset.mem_insert,Finset.mem_singleton] at hn
  rcases hn with rfl | rfl | rfl <;> decide

/-- Two of three masters that have just started can elect a leader. -/
theorem election_progress_two_of_three :
    ∃ d, threeMasters.Continues {"m1","m2"} d ∧ d.Led {"m1","m2"} := by
  refine (election_progress_iff threeMasters_initial threeMasters_othersOnly Machine.Reaches.refl
    (by decide) (by decide) ?_).mpr ⟨"m1",by decide,Or.inl rfl⟩
  rintro ⟨n,-,hn⟩
  cases hn

/-- All three masters time out at once, and refuse each other their votes. -/
def splitVote : List (NodeId × MasterElection.Event) :=
  [("m1",.tick 6 0),("m2",.tick 6 0),("m3",.tick 6 0),
    ("m1",.writeDone 0),("m2",.writeDone 0),("m3",.writeDone 0),
    ("m1",.resume),("m2",.resume),("m3",.resume),
    ("m2",.voteRequest ⟨1,"m1",0⟩ 6 0),("m1",.voteResponse ⟨1,false,"m2"⟩),
    ("m3",.voteRequest ⟨1,"m1",0⟩ 6 0),("m1",.voteResponse ⟨1,false,"m3"⟩),
    ("m1",.voteRequest ⟨1,"m2",0⟩ 6 0),("m2",.voteResponse ⟨1,false,"m1"⟩),
    ("m3",.voteRequest ⟨1,"m2",0⟩ 6 0),("m2",.voteResponse ⟨1,false,"m3"⟩),
    ("m1",.voteRequest ⟨1,"m3",0⟩ 6 0),("m3",.voteResponse ⟨1,false,"m1"⟩),
    ("m2",.voteRequest ⟨1,"m3",0⟩ 6 0),("m3",.voteResponse ⟨1,false,"m2"⟩)]

/-- A packet that belongs to the first term, and is no heartbeat. -/
def firstTerm : Packet → Bool
  | .request _ req => decide (req.term ≤ 1)
  | .response _ _ _ => true
  | .heartbeat _ _ _ => false

theorem split_vote_is_final :
    ¬∀ (c₀ c : ElectionCluster) (R : Finset NodeId), c₀.Initial → c₀.OthersOnly →
      machine.Reaches Machine.Any c₀ c → R ⊆ c.members → c.members.card < 2*R.card →
      ¬c.Led R → ∃ d, c.Continues R d ∧ d.Led R := by
  intro h
  have hexec : (machine.exec threeMasters splitVote).any (fun c => decide (
      (∀ n ∈ threeMasters.members, (c.nodes n).state = .candidate ∧ (c.nodes n).loop = .idle ∧
        (c.nodes n).currentTerm = 1 ∧ (c.nodes n).votesReceived.card < (c.nodes n).majority) ∧
      c.members = threeMasters.members ∧ ∀ k ∈ c.packets, firstTerm k = true)) = true := by
    decide +kernel
  obtain ⟨c,hc,hexec⟩ := (Option.any_eq_true _ _).mp hexec
  obtain ⟨hall,hmembers,hpackets⟩ := of_decide_eq_true hexec
  have hreach := Machine.Reaches.of_exec hc
  have hstill : c.Standstill c.members := by
    intro n hn
    rw [hmembers] at hn
    obtain ⟨hs,hloop,hterm,hfew⟩ := hall n hn
    refine ⟨hs,?_⟩
    rintro (hfollower | hpending | ⟨x,hx,hlt⟩ | hquorum | ⟨req,hasked,hlt⟩ | ⟨l,t,hpacket,hle⟩ |
      ⟨req,p,resp,hpending,-⟩)
    · rw [hs] at hfollower
      cases hfollower
    · rw [hloop] at hpending
      cases hpending
    · rw [hterm,(hall x (hmembers ▸ hx)).2.2.1] at hlt
      exact lt_irrefl _ hlt
    · exact absurd hquorum (not_le.mpr hfew)
    · rw [hterm] at hlt
      exact absurd (of_decide_eq_true (hpackets _ hasked)) (not_le.mpr hlt)
    · exact absurd (hpackets _ hpacket) (by simp [firstTerm])
    · rw [hloop] at hpending
      cases hpending
  have hcampaign := campaigning_of_reaches
    (threeMasters_initial.campaigning threeMasters_othersOnly) hreach
  obtain ⟨d,hd,hled⟩ := h threeMasters c c.members threeMasters_initial threeMasters_othersOnly
    hreach (Finset.Subset.refl _) (by rw [hmembers]; decide) hstill.not_led
  exact hstill.continues hcampaign (Finset.Subset.refl _) hd hled

end ElectionCluster
end FusionMultiNodes

import Mathlib.Data.Finset.Max
import FusionMultiNodes.Election.Campaign

/-! How the running masters of a cluster elect a leader. Only they take steps; what the others
have sent before can still arrive. -/
namespace FusionMultiNodes
namespace MasterElection

/-- The loop has come to rest, and the node has neither won nor started an election. -/
structure Rests (e e' : MasterElection) : Prop where
  loop : e'.loop = .idle
  term : e'.currentTerm = e.currentTerm
  priority : e'.priority = e.priority
  state : e'.state = if e.loop.downPending then .follower else e.state
  votes : e.loop.downPending = false → e'.votesReceived = e.votesReceived

end MasterElection

namespace ElectionCluster

open MasterElection

/-- Steps of the masters in `R` lead from one state to the other. -/
def Continues (R : Finset NodeId) (c d : ElectionCluster) : Prop :=
  machine.Reaches (fun _ ev => ev.1 ∈ R) c d

/-- In such a continuation only node `n` has moved. -/
structure Solo (R : Finset NodeId) (n : NodeId) (c d : ElectionCluster) : Prop where
  run : c.Continues R d
  others : ∀ x, x ≠ n → d.nodes x = c.nodes x
  packets : c.packets ⊆ d.packets
  members : d.members = c.members

variable {R : Finset NodeId} {c d d' : ElectionCluster} {n p : NodeId} {ev : Event}
  {b : ElectionBlock} {req : VoteRequest} {rest : List NodeId} {m w : ℕ}

theorem members_of_continues (h : c.Continues R d) : d.members = c.members := by
  refine h.invariant (I := fun x => x.members = c.members) (fun x e y hx _ hs => ?_) rfl
  obtain ⟨-,-,b,-,rfl⟩ := step_eq_some_iff.mp hs
  exact hx

theorem Solo.refl (R : Finset NodeId) (n : NodeId) (c : ElectionCluster) : c.Solo R n c :=
  ⟨Machine.Reaches.refl,fun _ _ => rfl,List.Subset.refl _,rfl⟩

theorem Solo.trans (h : c.Solo R n d) (h' : d.Solo R n d') : c.Solo R n d' :=
  ⟨h.run.trans h'.run,fun x hx => (h'.others x hx).trans (h.others x hx),
    List.Subset.trans h.packets h'.packets,h'.members.trans h.members⟩

theorem solo_step (hn : n ∈ R) (hm : n ∈ c.members) (ev : Event) (ha : c.Arrives n ev)
    (hb : (c.nodes n).step ev = some b) :
    c.Solo R n (c.update n ev b) ∧ (c.update n ev b).nodes n = b.node := by
  have hs : machine.step c (n,ev) = some (c.update n ev b) :=
    step_eq_some_iff.mpr ⟨hm,ha,b,hb,rfl⟩
  exact ⟨⟨Machine.Reaches.single (m := machine) (e := (n,ev)) hn hs,fun x hx => by simp [update,hx],
    List.subset_append_left _ _,rfl⟩,by simp [update]⟩

theorem finish_write (hn : n ∈ R) (hm : n ∈ c.members) (w : ℕ) :
    ∃ d writes file, c.Solo R n d ∧ writes.contains w = false ∧
      d.nodes n = { c.nodes n with writes := writes, stateFile := file } := by
  cases hw : (c.nodes n).writes.get? w with
  | none =>
    exact ⟨c,(c.nodes n).writes,(c.nodes n).stateFile,Solo.refl R n c,by simp [Dict.contains,hw],rfl⟩
  | some snap =>
    have hb : (c.nodes n).step (.writeDone w) = some ⟨{ c.nodes n with
        writes := (c.nodes n).writes.erase w, stateFile := some snap },[],[]⟩ := by
      simp only [MasterElection.step,hw]
    obtain ⟨hsolo,hnode⟩ := solo_step hn hm (.writeDone w) trivial hb
    exact ⟨_,_,_,hsolo,by simp [Dict.contains,Dict.get?_erase],hnode⟩

theorem finish_pollNext (hn : n ∈ R) {e : MasterElection} (hm : n ∈ c.members)
    (he : c.nodes n = (e.pollNext req m rest).1) :
    ∃ d, c.Solo R n d ∧
      ((d.nodes n).state = .leader ∨ d.nodes n = { e with loop := .idle }) := by
  induction rest generalizing c with
  | nil =>
    refine ⟨c,Solo.refl R n c,?_⟩
    simp only [pollNext] at he
    split_ifs at he
    · exact Or.inl (by rw [he]; rfl)
    · exact Or.inr he
  | cons p rest ih =>
    have hloop : (c.nodes n).loop = .polling req p rest m := by rw [he]; rfl
    have hb : (c.nodes n).step .pollFailed = some ⟨(e.pollNext req m rest).1,
        (e.pollNext req m rest).2,[]⟩ := by
      simp only [MasterElection.step,hloop]
      rw [he]
      cases rest <;> rfl
    obtain ⟨hsolo,hnode⟩ := solo_step hn hm .pollFailed trivial hb
    obtain ⟨d,hd,hend⟩ := ih (hsolo.members ▸ hm) hnode
    exact ⟨d,hsolo.trans hd,hend⟩

theorem finish_broadcast (hn : n ∈ R) {e : MasterElection} (hm : n ∈ c.members)
    (he : c.nodes n = (e.broadcastNext rest).1) :
    ∃ d, c.Solo R n d ∧ d.nodes n = { e with loop := .idle } := by
  induction rest generalizing c with
  | nil => exact ⟨c,Solo.refl R n c,he⟩
  | cons p rest ih =>
    have hloop : (c.nodes n).loop = .broadcasting p rest := by rw [he]; rfl
    have hb : (c.nodes n).step .heartbeatSent = some ⟨(e.broadcastNext rest).1,
        (e.broadcastNext rest).2,[]⟩ := by
      simp only [MasterElection.step,hloop]
      rw [he]
      cases rest <;> rfl
    obtain ⟨hsolo,hnode⟩ := solo_step hn hm .heartbeatSent trivial hb
    obtain ⟨d,hd,hend⟩ := ih (hsolo.members ▸ hm) hnode
    exact ⟨d,hsolo.trans hd,hend⟩

/-- The write that a suspended loop waits for ends, and the loop goes on. -/
theorem finish_wait {f : MasterElection → ElectionBlock} (hn : n ∈ R) (hm : n ∈ c.members)
    (hresume : ∀ e : MasterElection, e.loop = (c.nodes n).loop →
      e.step .resume = if e.writes.contains w then none else some (f e)) :
    ∃ d writes file, c.Solo R n d ∧
      d.nodes n = (f { c.nodes n with writes := writes, stateFile := file }).node := by
  obtain ⟨d,writes,file,hsolo,hw,hnode⟩ := finish_write hn hm w
  have hb := (hresume { c.nodes n with writes := writes, stateFile := file } rfl).trans
    (if_neg (by simp [hw]))
  obtain ⟨hstep,hnext⟩ := solo_step (c := d) hn (hsolo.members ▸ hm) .resume trivial
    (hnode ▸ hb)
  exact ⟨_,writes,file,hsolo.trans hstep,hnext.trans (by rw [hnode])⟩

/-- The loop of a running master comes to rest, unless the node becomes the leader. -/
theorem finish_loop (hn : n ∈ R) (hm : n ∈ c.members) :
    ∃ d, c.Solo R n d ∧ ((d.nodes n).state = .leader ∨ (c.nodes n).Rests (d.nodes n)) := by
  have hpoll : ∀ (d : ElectionCluster) (e : MasterElection) (req : VoteRequest)
      (rest : List NodeId) (m : ℕ), c.Solo R n d → d.nodes n = (e.pollNext req m rest).1 →
      (c.nodes n).Rests { e with loop := .idle } →
      ∃ d, c.Solo R n d ∧ ((d.nodes n).state = .leader ∨ (c.nodes n).Rests (d.nodes n)) := by
    intro d e req rest m hsolo hnode hrests
    obtain ⟨d',hsolo',hend⟩ := finish_pollNext hn (hsolo.members ▸ hm) hnode
    refine ⟨d',hsolo.trans hsolo',?_⟩
    rcases hend with hleader | hend
    · exact Or.inl hleader
    · rw [hend]
      exact Or.inr hrests
  cases hloop : (c.nodes n).loop with
  | idle => exact ⟨c,Solo.refl R n c,Or.inr ⟨hloop,rfl,rfl,by simp [hloop,ElectionLoop.downPending],fun _ => rfl⟩⟩
  | requesting req peers m w =>
    obtain ⟨d,writes,file,hsolo,hnode⟩ := finish_wait (w := w) hn hm fun e he => by
      simp only [MasterElection.step,resumeLoop,he,hloop]
      rfl
    exact hpoll d _ _ _ _ hsolo hnode
      ⟨rfl,rfl,rfl,by simp [hloop,ElectionLoop.downPending],fun _ => rfl⟩
  | polling req p rest m =>
    have hb : (c.nodes n).step .pollFailed = some ⟨((c.nodes n).pollNext req m rest).1,
        ((c.nodes n).pollNext req m rest).2,[]⟩ := by
      simp only [MasterElection.step,hloop]
    obtain ⟨hsolo,hnode⟩ := solo_step hn hm .pollFailed trivial hb
    exact hpoll _ _ _ _ _ hsolo hnode
      ⟨rfl,rfl,rfl,by simp [hloop,ElectionLoop.downPending],fun _ => rfl⟩
  | steppingDown req rest m w =>
    obtain ⟨d,writes,file,hsolo,hnode⟩ := finish_wait (w := w) hn hm fun e he => by
      simp only [MasterElection.step,resumeLoop,he,hloop]
      rfl
    exact hpoll d _ _ _ _ hsolo hnode ⟨rfl,rfl,rfl,by simp [hloop,ElectionLoop.downPending,becomeFollower],
      fun h => absurd h (by simp [hloop,ElectionLoop.downPending])⟩
  | electing req rest m w =>
    obtain ⟨d,writes,file,hsolo,hnode⟩ := finish_wait (w := w) hn hm fun e he => by
      simp only [MasterElection.step,resumeLoop,he,hloop]
      rfl
    exact hpoll d _ _ _ _ hsolo hnode
      ⟨rfl,rfl,rfl,by simp [hloop,ElectionLoop.downPending],fun _ => rfl⟩
  | electingLast w =>
    obtain ⟨d,writes,file,hsolo,hnode⟩ := finish_wait (w := w) hn hm fun e he => by
      simp only [MasterElection.step,resumeLoop,he,hloop]
      rfl
    refine ⟨d,hsolo,Or.inr ?_⟩
    rw [hnode]
    exact ⟨rfl,rfl,rfl,by simp [hloop,ElectionLoop.downPending],fun _ => rfl⟩
  | broadcasting p rest =>
    have hb : (c.nodes n).step .heartbeatSent = some ⟨((c.nodes n).broadcastNext rest).1,
        ((c.nodes n).broadcastNext rest).2,[]⟩ := by
      simp only [MasterElection.step,hloop]
    obtain ⟨hsolo,hnode⟩ := solo_step hn hm .heartbeatSent trivial hb
    obtain ⟨d,hsolo',hend⟩ := finish_broadcast hn (hsolo.members ▸ hm) hnode
    refine ⟨d,hsolo.trans hsolo',Or.inr ?_⟩
    rw [hend]
    exact ⟨rfl,rfl,rfl,by simp [hloop,ElectionLoop.downPending],fun _ => rfl⟩

theorem time_out (hn : n ∈ R) (hm : n ∈ c.members) (hidle : (c.nodes n).loop = .idle)
    (hs : (c.nodes n).state = .follower) :
    ∃ d, c.Solo R n d ∧ d.nodes n = (c.nodes n).startElection 0 := by
  have hlate : (c.nodes n).electionTimeout <
      ((c.nodes n).lastHeartbeat+(c.nodes n).electionTimeout+1)-(c.nodes n).lastHeartbeat := by
    linarith
  have hb : (c.nodes n).step
      (.tick ((c.nodes n).lastHeartbeat+(c.nodes n).electionTimeout+1) 0) =
      some ⟨(c.nodes n).startElection 0,[],[]⟩ := by
    simp only [MasterElection.step,hidle,if_true,electionLoop,hs,if_pos hlate]
  obtain ⟨hsolo,hnode⟩ := solo_step hn hm (.tick _ _) trivial hb
  exact ⟨_,hsolo,hnode⟩

theorem deliver_request (hn : n ∈ R) (hm : n ∈ c.members) (hasked : c.Asked n req)
    (hlt : (c.nodes n).currentTerm < req.term) :
    ∃ d, c.Solo R n d ∧ (d.nodes n).state = .follower ∧ (d.nodes n).currentTerm = req.term ∧
      (d.nodes n).priority = (c.nodes n).priority := by
  have hb : (c.nodes n).step (.voteRequest req 0 0) =
      some ((c.nodes n).handleVoteRequest req 0 0) := rfl
  obtain ⟨hsolo,hnode⟩ := solo_step hn hm (.voteRequest req 0 0) hasked hb
  refine ⟨_,hsolo,?_⟩
  rw [hnode]
  simp only [handleVoteRequest,adoptTerm,hlt,if_true,true_or,castVote]
  split_ifs <;> exact ⟨rfl,rfl,rfl⟩

/-- A master asked in a higher term by one of at least its priority grants its vote, and the
response is sent. -/
theorem grant_vote (hn : n ∈ R) (hm : n ∈ c.members) (hid : (c.nodes n).nodeId = n)
    (hasked : c.Asked n req) (hlt : (c.nodes n).currentTerm < req.term)
    (hpriority : (c.nodes n).priority ≤ req.candidatePriority) :
    ∃ d, c.Solo R n d ∧ .response n req ⟨req.term,true,n⟩ ∈ d.packets := by
  have hgrants : ((c.nodes n).adoptTerm req.term).grants req = true := by
    simp [adoptTerm,hlt,grants,becomeFollower,hpriority]
  have hadopt : ((c.nodes n).adoptTerm req.term).currentTerm = req.term := by
    simp [adoptTerm,hlt,becomeFollower]
  obtain ⟨e₁,w,he₁,hwrite,hanswer⟩ : ∃ e₁ w, ((c.nodes n).handleVoteRequest req 0 0).node = e₁ ∧
      (∃ snap, e₁.writes.get? w = some snap) ∧
      e₁.answers.get? w = some (req,⟨req.term,true,n⟩) := by
    refine ⟨_,((c.nodes n).adoptTerm req.term).nextWrite,rfl,?_⟩
    simp only [handleVoteRequest,hlt,true_or,if_true,castVote,hgrants,persist,hadopt,hid,
      Dict.get?_set_self]
    exact ⟨⟨_,rfl⟩,trivial⟩
  obtain ⟨snap,hsnap⟩ := hwrite
  obtain ⟨hvote,hnode⟩ := solo_step hn hm (.voteRequest req 0 0)
    (b := (c.nodes n).handleVoteRequest req 0 0) hasked rfl
  rw [he₁] at hnode
  obtain ⟨d,writes,file,hwrite,hdone,hnode'⟩ := finish_write hn
    (c := c.update n (.voteRequest req 0 0) ((c.nodes n).handleVoteRequest req 0 0)) hm w
  rw [hnode] at hnode'
  have hb : (d.nodes n).step (.answered w) = some ⟨{ d.nodes n with
      answers := (d.nodes n).answers.erase w },[.answer req ⟨req.term,true,n⟩],[]⟩ := by
    have hget : (d.nodes n).answers.get? w = some (req,⟨req.term,true,n⟩) := by
      rw [hnode']
      exact hanswer
    have hfree : (d.nodes n).writes.contains w = false := by
      rw [hnode']
      exact hdone
    simp only [MasterElection.step,hget,hfree,Bool.false_eq_true,if_false]
  obtain ⟨hanswered,-⟩ := solo_step hn ((hvote.trans hwrite).members ▸ hm) (.answered w)
    trivial hb
  exact ⟨_,(hvote.trans hwrite).trans hanswered,
    List.mem_append_right _ (by simp [ElectionMessage.packet])⟩

/-- The peer that is being polled grants its vote, and the vote is counted. -/
theorem count_vote (hn : n ∈ R) (hm : n ∈ c.members) (hpending : (c.nodes n).loop = .polling req p rest m)
    (hterm : req.term = (c.nodes n).currentTerm) (hs : (c.nodes n).state = .candidate)
    (hvote : .response p req ⟨req.term,true,p⟩ ∈ c.packets) :
    ∃ d, c.Solo R n d ∧ ((d.nodes n).state = .leader ∨
      (((c.nodes n).countVote p).votesReceived.card < (c.nodes n).majority ∧
        d.nodes n = (((c.nodes n).countVote p).pollNext req m rest).1)) := by
  have harrives : c.Arrives n (.voteResponse ⟨req.term,true,p⟩) := by
    simp [Arrives,hpending,ElectionLoop.pending,hvote]
  have hb : (c.nodes n).step (.voteResponse ⟨req.term,true,p⟩) =
      some ⟨((c.nodes n).handleVoteResponse req rest m ⟨req.term,true,p⟩).1,
        ((c.nodes n).handleVoteResponse req rest m ⟨req.term,true,p⟩).2,[]⟩ := by
    simp only [MasterElection.step,hpending]
  obtain ⟨hsolo,hnode⟩ := solo_step hn hm _ harrives hb
  refine ⟨_,hsolo,?_⟩
  rw [hnode]
  simp only [handleVoteResponse,hterm,lt_irrefl,if_false,hs,ne_eq,not_true_eq_false,if_true]
  by_cases hq : (c.nodes n).majority ≤ ((c.nodes n).countVote p).votesReceived.card
  · rw [if_pos hq]
    exact Or.inl rfl
  · rw [if_neg hq]
    exact Or.inr ⟨not_le.mp hq,rfl⟩

/-- The peers a candidate `e` has still to ask would vote for it if they run, and those that
run and were asked have voted for it. -/
structure Winning (R : Finset NodeId) (c : ElectionCluster) (e : MasterElection)
    (unasked : List NodeId) : Prop where
  candidate : e.state = .candidate
  behind : ∀ x ∈ R, x ∈ unasked →
    (c.nodes x).currentTerm < e.currentTerm ∧ (c.nodes x).priority ≤ e.priority
  voted : ∀ x ∈ R, x ∉ unasked → x ∈ e.votesReceived

theorem poll_peer (hc : c.Campaigning) (hR : R ⊆ c.members) (hn : n ∈ R)
    (hloop : (c.nodes n).loop = .polling req p rest m) (hwin : Winning R c (c.nodes n) (p::rest)) :
    ∃ d, c.Continues R d ∧ d.members = c.members ∧ ((d.nodes n).state = .leader ∨
      ∃ e, d.nodes n = (e.pollNext req m rest).1 ∧ Winning R d e rest) := by
  have hm := hR hn
  have hinv := (hc.node n hm).loop
  simp only [hloop,Campaigns] at hinv
  obtain ⟨hasks,hothers,hp,hprest,hasked⟩ := hinv
  obtain ⟨hreq,-⟩ := hothers hwin.candidate
  obtain ⟨hpm,hpn⟩ := (hc.mem_peers hm).mp hp
  have hrest : ∀ x ∈ rest, x ≠ n := fun x hx => ((hc.mem_peers hm).mp (hasks.peers x hx)).2
  by_cases hpR : p ∈ R
  · obtain ⟨hlt,hpriority⟩ := hwin.behind p hpR (List.mem_cons_self ..)
    obtain ⟨d₁,hvote,hresponse⟩ := grant_vote hpR hpm (hc.config p hpm).1 hasked
      (by rw [hreq]; exact hlt) (by rw [hreq]; exact hpriority)
    have hsame : d₁.nodes n = c.nodes n := hvote.others n (Ne.symm hpn)
    obtain ⟨d₂,hcount,hend⟩ := count_vote hn (hvote.members ▸ hm) (hsame ▸ hloop)
      (by rw [hsame,hreq]; rfl) (hsame ▸ hwin.candidate) hresponse
    refine ⟨d₂,hvote.run.trans hcount.run,hcount.members.trans hvote.members,?_⟩
    refine hend.imp_right fun h => ⟨(d₁.nodes n).countVote p,h.2,hsame ▸ hwin.candidate,?_,?_⟩
    · intro x hx hxr
      have hxp : x ≠ p := fun h => hprest (h ▸ hxr)
      rw [hcount.others x (hrest x hxr),hvote.others x hxp]
      simp only [countVote,hsame]
      exact hwin.behind x hx (List.mem_cons_of_mem _ hxr)
    · intro x hx hxr
      simp only [countVote,hsame]
      by_cases hxp : x = p
      · exact hxp ▸ Finset.mem_insert_self ..
      · exact Finset.mem_insert_of_mem (hwin.voted x hx (by simp [hxp,hxr]))
  · have hb : (c.nodes n).step .pollFailed = some ⟨((c.nodes n).pollNext req m rest).1,
        ((c.nodes n).pollNext req m rest).2,[]⟩ := by
      simp only [MasterElection.step,hloop]
    obtain ⟨hsolo,hnode⟩ := solo_step hn hm .pollFailed trivial hb
    refine ⟨_,hsolo.run,rfl,Or.inr ⟨_,hnode,hwin.candidate,?_,?_⟩⟩
    · intro x hx hxr
      rw [hsolo.others x (hrest x hxr)]
      exact hwin.behind x hx (List.mem_cons_of_mem _ hxr)
    · intro x hx hxr
      have hxp : x ≠ p := fun h => hpR (h ▸ hx)
      exact hwin.voted x hx (by simp [hxp,hxr])

/-- A candidate that goes on polling has won once there is no peer left. -/
theorem win_polls (hn : n ∈ R) {e : MasterElection} (hc : c.Campaigning) (hR : R ⊆ c.members)
    (hnode : c.nodes n = (e.pollNext req m rest).1) (hquorum : m ≤ R.card)
    (hwin : Winning R c e rest) : ∃ d, c.Continues R d ∧ (d.nodes n).state = .leader := by
  induction rest generalizing c e with
  | nil =>
    have hvotes : R.card ≤ e.votesReceived.card :=
      Finset.card_le_card fun x hx => hwin.voted x hx (by simp)
    refine ⟨c,Machine.Reaches.refl,?_⟩
    rw [hnode]
    simp only [pollNext,if_pos (hquorum.trans hvotes)]
    rfl
  | cons p rest ih =>
    have hloop : (c.nodes n).loop = .polling req p rest m := by rw [hnode]; rfl
    have hwin' : Winning R c (c.nodes n) (p::rest) := by
      rw [hnode]
      exact ⟨hwin.candidate,hwin.behind,hwin.voted⟩
    obtain ⟨d,hrun,hmembers,hend⟩ := poll_peer hc hR hn hloop hwin'
    rcases hend with hleader | ⟨e',hnode',hwin''⟩
    · exact ⟨d,hrun,hleader⟩
    · obtain ⟨d',hrun',hleader⟩ := ih (campaigning_of_reaches hc hrun) (hmembers ▸ hR) hnode' hwin''
      exact ⟨d',hrun.trans hrun',hleader⟩

/-- Node `f` is a follower, and no running master is in a later term. -/
structure Ahead (R : Finset NodeId) (c : ElectionCluster) (f : NodeId) : Prop where
  running : f ∈ R
  follower : (c.nodes f).state = .follower
  term_le : ∀ x ∈ R, (c.nodes x).currentTerm ≤ (c.nodes f).currentTerm

def Led (R : Finset NodeId) (c : ElectionCluster) : Prop := ∃ n ∈ R, (c.nodes n).state = .leader

theorem Ahead.settle {f : NodeId} (h : Ahead R c f) (hR : R ⊆ c.members) :
    ∃ d, c.Solo R f d ∧ ((d.nodes f).state = .leader ∨
      (Ahead R d f ∧ (d.nodes f).loop = .idle ∧ (d.nodes f).priority = (c.nodes f).priority)) := by
  obtain ⟨d,hsolo,hend⟩ := finish_loop h.running (hR h.running)
  refine ⟨d,hsolo,hend.imp_right fun hrests => ⟨⟨h.running,?_,fun x hx => ?_⟩,hrests.loop,
    hrests.priority⟩⟩
  · rw [hrests.state,h.follower,ite_self]
  · rw [hrests.term]
    by_cases hxf : x = f
    · rw [hxf,hrests.term]
    · rw [hsolo.others x hxf]
      exact h.term_le x hx

theorem Ahead.win {f : NodeId} (h : Ahead R c f) (hc : c.Campaigning) (hR : R ⊆ c.members)
    (hmajority : c.members.card < 2*R.card)
    (hpriority : ∀ x ∈ R, (c.nodes x).priority ≤ (c.nodes f).priority) :
    ∃ d, c.Continues R d ∧ Led R d := by
  have hf := h.running
  obtain ⟨d₁,hsolo₁,hleader | ⟨hahead,hidle,hsame⟩⟩ := h.settle hR
  · exact ⟨d₁,hsolo₁.run,f,hf,hleader⟩
  have hm₁ : f ∈ d₁.members := hsolo₁.members ▸ hR hf
  have hc₁ := campaigning_of_reaches hc hsolo₁.run
  obtain ⟨d₂,hsolo₂,hnode₂⟩ := time_out hf hm₁ hidle hahead.follower
  have hloop : (d₂.nodes f).loop = .requesting (d₂.nodes f).currentRequest (d₁.nodes f).peers
      (d₁.nodes f).majority (d₁.nodes f).nextWrite := by rw [hnode₂]; rfl
  obtain ⟨d₃,writes,file,hsolo₃,hnode₃⟩ := finish_wait (w := (d₁.nodes f).nextWrite) hf
    (hsolo₂.members ▸ hm₁) fun e he => by
      simp only [MasterElection.step,resumeLoop,he,hloop]
      rfl
  have hsolo := (hsolo₁.trans hsolo₂).trans hsolo₃
  have hc₃ := campaigning_of_reaches hc hsolo.run
  have hquorum : (d₁.nodes f).majority ≤ R.card := by
    rw [hc₁.majority_eq hm₁,hsolo₁.members]
    omega
  refine (win_polls hf hc₃ (hsolo.members ▸ hR) hnode₃ hquorum ⟨?_,?_,?_⟩).imp fun d hd =>
    ⟨hsolo.run.trans hd.1,f,hf,hd.2⟩
  · simp [hnode₂,startElection,persist]
  · intro x hx hxp
    have hxf : x ≠ f := ((hc₁.mem_peers hm₁).mp hxp).2
    rw [hsolo.others x hxf]
    simp only [hnode₂,startElection,persist,hsame]
    refine ⟨?_,hpriority x hx⟩
    rw [← hsolo₁.others x hxf]
    exact Int.lt_add_one_of_le (hahead.term_le x hx)
  · intro x hx hxp
    have hxf : x = f := by
      by_contra hne
      exact hxp ((hc₁.mem_peers hm₁).mpr ⟨hsolo₁.members ▸ hR hx,hne⟩)
    simp [hxf,hnode₂,startElection,persist,(hc₁.config f hm₁).1]

/-- The request of a candidate at rest, or on its way there, makes a node behind it a follower
of its term. -/
theorem follow {f x : NodeId} (hc : c.Campaigning) (hR : R ⊆ c.members) (hf : f ∈ R) (hx : x ∈ R)
    (hs : (c.nodes f).state = .candidate) (hdown : (c.nodes f).loop.downPending = false)
    (hlt : (c.nodes x).currentTerm < (c.nodes f).currentTerm) :
    ∃ d, c.Continues R d ∧ (Led R d ∨ ((d.nodes x).state = .follower ∧
      (d.nodes x).currentTerm = (c.nodes f).currentTerm ∧
      (∀ y ∈ R, y ≠ x → (d.nodes y).currentTerm = (c.nodes y).currentTerm) ∧
      ∀ y ∈ R, (d.nodes y).priority = (c.nodes y).priority)) := by
  have hxf : x ≠ f := fun h => absurd hlt (h ▸ lt_irrefl _)
  obtain ⟨d₁,hsolo₁,hleader | hrests⟩ := finish_loop hf (hR hf)
  · exact ⟨d₁,hsolo₁.run,Or.inl ⟨f,hf,hleader⟩⟩
  have hm₁ : f ∈ d₁.members := hsolo₁.members ▸ hR hf
  have hc₁ := campaigning_of_reaches hc hsolo₁.run
  have hinv := (hc₁.node f hm₁).loop
  rw [hrests.loop] at hinv
  have hs₁ : (d₁.nodes f).state = .candidate := by
    rw [hrests.state,hdown,hs]
    rfl
  have hasked := (hinv hs₁).2 x ((hc₁.mem_peers hm₁).mpr ⟨hsolo₁.members ▸ hR hx,hxf⟩)
  have hsame := hsolo₁.others x hxf
  obtain ⟨d₂,hsolo₂,hfollower,hterm,hpriority⟩ := deliver_request hx (hsolo₁.members ▸ hR hx) hasked
    (by rw [hsame]; exact hlt.trans_eq hrests.term.symm)
  have hterm₁ : ∀ y ∈ R, (d₁.nodes y).currentTerm = (c.nodes y).currentTerm := by
    intro y _
    by_cases hyf : y = f
    · rw [hyf,hrests.term]
    · rw [hsolo₁.others y hyf]
  refine ⟨d₂,hsolo₁.run.trans hsolo₂.run,Or.inr ⟨hfollower,?_,fun y hy hyx => ?_,fun y hy => ?_⟩⟩
  · exact hterm.trans hrests.term
  · rw [hsolo₂.others y hyx,hterm₁ y hy]
  · have hpriority₁ : (d₁.nodes y).priority = (c.nodes y).priority := by
      by_cases hyf : y = f
      · rw [hyf,hrests.priority]
      · rw [hsolo₁.others y hyf]
    by_cases hyx : y = x
    · subst hyx
      exact hpriority.trans hpriority₁
    · rw [hsolo₂.others y hyx,hpriority₁]

/-- A follower that is ahead wins, or makes the one of the highest priority win. -/
theorem Ahead.led {f : NodeId} (h : Ahead R c f) (hc : c.Campaigning) (hR : R ⊆ c.members)
    (hmajority : c.members.card < 2*R.card) : ∃ d, c.Continues R d ∧ Led R d := by
  have hf := h.running
  obtain ⟨x,hx,hbest⟩ := R.exists_max_image (fun y => (c.nodes y).priority) ⟨f,hf⟩
  by_cases hxf : x = f
  · exact h.win hc hR hmajority fun y hy => hxf ▸ hbest y hy
  obtain ⟨d₁,hsolo₁,hleader | ⟨hahead,hidle,hsame⟩⟩ := h.settle hR
  · exact ⟨d₁,hsolo₁.run,f,hf,hleader⟩
  have hm₁ : f ∈ d₁.members := hsolo₁.members ▸ hR hf
  obtain ⟨d₂,hsolo₂,hnode₂⟩ := time_out hf hm₁ hidle hahead.follower
  have hsolo := hsolo₁.trans hsolo₂
  have hc₂ := campaigning_of_reaches hc hsolo.run
  have hR₂ : R ⊆ d₂.members := hsolo.members ▸ hR
  have hterm₂ : (d₂.nodes f).currentTerm = (d₁.nodes f).currentTerm+1 := by rw [hnode₂]; rfl
  have hpriority₂ : ∀ y, (d₂.nodes y).priority = (c.nodes y).priority := by
    intro y
    by_cases hyf : y = f
    · rw [hyf,hnode₂]
      exact hsame
    · rw [hsolo.others y hyf]
  have hbehind : ∀ y ∈ R, y ≠ f → (d₂.nodes y).currentTerm < (d₂.nodes f).currentTerm := by
    intro y hy hyf
    rw [hsolo₂.others y hyf,hterm₂]
    exact Int.lt_add_one_of_le (hahead.term_le y hy)
  obtain ⟨d₃,hrun₃,hled | ⟨hfollower,hterm,hterms,hpriorities⟩⟩ := follow hc₂ hR₂ hf hx
    (by rw [hnode₂]; rfl) (by rw [hnode₂]; rfl) (hbehind x hx hxf)
  · exact ⟨d₃,hsolo.run.trans hrun₃,hled⟩
  have hrun := hsolo.run.trans hrun₃
  have hc₃ := campaigning_of_reaches hc hrun
  have hmembers := members_of_continues hrun
  have hahead₃ : Ahead R d₃ x := by
    refine ⟨hx,hfollower,fun y hy => ?_⟩
    by_cases hyx : y = x
    · rw [hyx]
    · rw [hterm,hterms y hy hyx]
      by_cases hyf : y = f
      · rw [hyf]
      · exact (hbehind y hy hyf).le
  obtain ⟨d,hd,hled⟩ := hahead₃.win hc₃ (hmembers ▸ hR) (hmembers ▸ hmajority) fun y hy => by
    rw [hpriorities y hy,hpriorities x hx,hpriority₂,hpriority₂]
    exact hbest y hy
  exact ⟨d,hrun.trans hd,hled⟩

end ElectionCluster
end FusionMultiNodes

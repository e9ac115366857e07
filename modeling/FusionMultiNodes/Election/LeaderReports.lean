import FusionMultiNodes.Election.Agreement
import FusionMultiNodes.Election.Durability

/-! What a block of a master does to its term and to the leader that it knows, and what a restart
does to a safe cluster. -/
namespace FusionMultiNodes
namespace MasterElection

/-- The event takes the node to a higher term, but for a heartbeat of it. -/
def RaisesTerm (e : MasterElection) : Event → Prop
  | .tick now _ => e.loop = .idle ∧ e.state = .follower ∧ e.electionTimeout < now-e.lastHeartbeat
  | .voteRequest req _ _ => e.currentTerm < req.term
  | .voteResponse resp => e.currentTerm < resp.term
  | _ => False

instance (e : MasterElection) (ev : Event) : Decidable (e.RaisesTerm ev) := by
  apply Event.casesOn (motive := fun ev => Decidable (e.RaisesTerm ev)) ev <;> intros <;>
    dsimp only [RaisesTerm] <;> infer_instance

def Event.isHeartbeat : Event → Bool
  | .heartbeat _ _ _ _ => true
  | _ => false

inductive LeaderStep (e : MasterElection) (ev : Event) (e' : MasterElection) : Prop
  | keeps : ev.isHeartbeat = false → e'.currentTerm = e.currentTerm → e'.leaderId = e.leaderId →
      (e'.state = e.state ∨ e'.state = .follower) → LeaderStep e ev e'
  | raises : e.RaisesTerm ev → e.currentTerm < e'.currentTerm → e'.leaderId = e.leaderId →
      (e'.state = .leader → e.state = .leader) → LeaderStep e ev e'
  | wins : ev.isHeartbeat = false → e'.currentTerm = e.currentTerm →
      e'.leaderId = some e.nodeId → e'.state = .leader → LeaderStep e ev e'
  | hears {l : NodeId} {t : ℤ} {now rnd : ℚ} : ev = .heartbeat l t now rnd → e.currentTerm ≤ t →
      e'.currentTerm = t → e'.leaderId = some l → e'.state = .follower → LeaderStep e ev e'
  | ignores {l : NodeId} {t : ℤ} {now rnd : ℚ} : ev = .heartbeat l t now rnd → t < e.currentTerm →
      e' = e → LeaderStep e ev e'

variable {e e' : MasterElection} {ev : Event} {b : ElectionBlock}

theorem LeaderStep.term_le (h : LeaderStep e ev e') : e.currentTerm ≤ e'.currentTerm := by
  cases h with
  | keeps _ hterm => exact hterm.ge
  | raises _ hlt => exact hlt.le
  | wins _ hterm => exact hterm.ge
  | hears _ hle hterm => exact hle.trans hterm.ge
  | ignores _ _ heq => exact heq ▸ le_refl _

/-- The block begins with a change that neither term nor leader show. -/
theorem LeaderStep.after {s : MasterElection} (h : LeaderStep s ev e')
    (hev : ev.isHeartbeat = false) (hraises : ¬s.RaisesTerm ev)
    (hid : s.nodeId = e.nodeId) (hterm : s.currentTerm = e.currentTerm)
    (hleader : s.leaderId = e.leaderId) (hstate : s.state = e.state ∨ s.state = .follower) :
    LeaderStep e ev e' := by
  cases h with
  | keeps _ hterm' hleader' hstate' =>
    refine .keeps hev (hterm'.trans hterm) (hleader'.trans hleader) ?_
    rcases hstate' with h' | h'
    · exact hstate.imp h'.trans h'.trans
    · exact .inr h'
  | raises hr => exact absurd hr hraises
  | wins _ hterm' hleader' hstate' =>
    exact .wins hev (hterm'.trans hterm) (hleader'.trans (congrArg some hid)) hstate'
  | hears heq => exact nomatch hev.symm.trans (congrArg Event.isHeartbeat heq)
  | ignores heq => exact nomatch hev.symm.trans (congrArg Event.isHeartbeat heq)

theorem pollNext_leaderStep (e : MasterElection) (hev : ev.isHeartbeat = false)
    (req : VoteRequest) (m : ℕ) (peers : List NodeId) :
    LeaderStep e ev (e.pollNext req m peers).1 := by
  cases peers with
  | cons p rest => exact .keeps hev rfl rfl (.inl rfl)
  | nil =>
    simp only [pollNext]
    split_ifs
    · exact .wins hev rfl rfl rfl
    · exact .keeps hev rfl rfl (.inl rfl)

theorem handleVoteResponse_leaderStep (e : MasterElection) (req : VoteRequest) (rest : List NodeId)
    (m : ℕ) (resp : VoteResponse) :
    LeaderStep e (.voteResponse resp) (e.handleVoteResponse req rest m resp).1 := by
  have hev : (Event.voteResponse resp).isHeartbeat = false := rfl
  unfold handleVoteResponse
  split_ifs with hterm
  · exact .raises hterm hterm rfl id
  · exact pollNext_leaderStep e hev req m rest
  · exact .wins hev rfl rfl rfl
  · exact (pollNext_leaderStep (e.countVote resp.voterId) hev req m rest).after hev hterm rfl rfl rfl
      (.inl rfl)
  · exact pollNext_leaderStep e hev req m rest

theorem handleVoteRequest_leaderStep (e : MasterElection) (req : VoteRequest) (now rnd : ℚ) :
    LeaderStep e (.voteRequest req now rnd) (e.handleVoteRequest req now rnd).node := by
  have hnode : (e.handleVoteRequest req now rnd).node.currentTerm = (e.adoptTerm req.term).currentTerm ∧
      (e.handleVoteRequest req now rnd).node.leaderId = (e.adoptTerm req.term).leaderId ∧
      (e.handleVoteRequest req now rnd).node.state = (e.adoptTerm req.term).state := by
    simp only [handleVoteRequest,castVote]
    split_ifs <;> exact ⟨rfl,rfl,rfl⟩
  obtain ⟨hterm,hleader,hstate⟩ := hnode
  unfold adoptTerm at hterm hleader hstate
  split_ifs at hterm hleader hstate with hlt
  · refine .raises hlt (hlt.trans_le hterm.ge) hleader fun hl => ?_
    cases hstate.symm.trans hl
  · exact .keeps rfl hterm hleader (.inl hstate)

theorem receiveHeartbeat_leaderStep (e : MasterElection) (l : NodeId) (t : ℤ) (now rnd : ℚ) :
    LeaderStep e (.heartbeat l t now rnd) (e.receiveHeartbeat l t now rnd).node := by
  unfold receiveHeartbeat
  split_ifs with hterm hstate
  · exact .hears rfl hterm rfl rfl rfl
  · exact .hears rfl hterm rfl rfl (not_not.mp hstate)
  · exact .ignores rfl (not_le.mp hterm) rfl

theorem resumeLoop_leaderStep (hb : e.resumeLoop = some b) : LeaderStep e .resume b.node := by
  have hev : Event.resume.isHeartbeat = false := rfl
  unfold resumeLoop at hb
  split at hb
  · obtain ⟨-,hb⟩ := Option.ite_none_left_eq_some.mp hb
    exact Option.some.inj hb ▸ pollNext_leaderStep e hev _ _ _
  · obtain ⟨-,hb⟩ := Option.ite_none_left_eq_some.mp hb
    exact Option.some.inj hb ▸ (pollNext_leaderStep e.becomeFollower hev _ _ _).after hev id rfl rfl rfl
      (.inr rfl)
  · obtain ⟨-,hb⟩ := Option.ite_none_left_eq_some.mp hb
    exact Option.some.inj hb ▸ pollNext_leaderStep e hev _ _ _
  · obtain ⟨-,hb⟩ := Option.ite_none_left_eq_some.mp hb
    exact Option.some.inj hb ▸ .keeps rfl rfl rfl (.inl rfl)
  · exact nomatch hb

theorem broadcastNext_leaderStep (e : MasterElection) (hev : ev.isHeartbeat = false)
    (peers : List NodeId) : LeaderStep e ev (e.broadcastNext peers).1 := by
  cases peers <;> exact .keeps hev rfl rfl (.inl rfl)

theorem electionLoop_leaderStep (e : MasterElection) (hidle : e.loop = .idle) (now rnd : ℚ) :
    LeaderStep e (.tick now rnd) (e.electionLoop now rnd).1 := by
  unfold electionLoop
  cases hs : e.state with
  | follower =>
    simp only
    split_ifs with ht
    · exact .raises ⟨hidle,hs,ht⟩ (lt_add_one _) rfl fun hl => nomatch hl
    · exact .keeps rfl rfl rfl (.inl rfl)
  | candidate => exact .keeps rfl rfl rfl (.inl rfl)
  | leader =>
    simp only [leaderTick]
    split_ifs
    · cases e.peers <;> exact .keeps rfl rfl rfl (.inl rfl)
    · exact .keeps rfl rfl rfl (.inl rfl)

theorem step_leaderStep (hb : e.step ev = some b) : LeaderStep e ev b.node := by
  cases ev with
  | tick now rnd =>
    simp only [step,Option.ite_none_right_eq_some,Option.some.injEq] at hb
    obtain ⟨hidle,rfl⟩ := hb
    exact electionLoop_leaderStep e hidle now rnd
  | resume => exact resumeLoop_leaderStep hb
  | voteResponse resp =>
    simp only [step] at hb
    split at hb
    · exact Option.some.inj hb ▸ handleVoteResponse_leaderStep e _ _ _ resp
    · cases hb
  | pollFailed =>
    have hev : Event.pollFailed.isHeartbeat = false := rfl
    simp only [step] at hb
    split at hb
    · exact Option.some.inj hb ▸ pollNext_leaderStep e hev _ _ _
    · cases hb
  | heartbeatSent =>
    simp only [step] at hb
    split at hb
    · exact Option.some.inj hb ▸ broadcastNext_leaderStep e rfl _
    · cases hb
  | voteRequest req now rnd => exact Option.some.inj hb ▸ handleVoteRequest_leaderStep e req now rnd
  | heartbeat l t now rnd => exact Option.some.inj hb ▸ receiveHeartbeat_leaderStep e l t now rnd
  | writeDone w =>
    simp only [step] at hb
    split at hb
    · exact Option.some.inj hb ▸ .keeps rfl rfl rfl (.inl rfl)
    · cases hb
  | answered w =>
    simp only [step] at hb
    split at hb
    · obtain ⟨-,hb⟩ := Option.ite_none_left_eq_some.mp hb
      exact Option.some.inj hb ▸ .keeps rfl rfl rfl (.inl rfl)
    · cases hb

/-- The state file holds the term, and the vote that the node has cast in it. -/
def Stored (e : MasterElection) : Prop :=
  e.storedTerm = e.currentTerm ∧
    ∀ x ∈ e.votedFor, e.stateFile.bind ElectionSnapshot.votedFor = some x

instance (e : MasterElection) : Decidable e.Stored := by
  unfold Stored
  infer_instance

variable {B : ℤ → NodeId → Prop} {E : ℤ → Prop} {S : ℤ → NodeId → Prop}

theorem NodeInv.restart (h : e.NodeInv B E S) (hstored : e.Stored) (now rnd : ℚ) :
    (e.restart now rnd).NodeInv B E S := by
  obtain ⟨hterm,hvote⟩ := hstored
  have hterm' : (e.restart now rnd).currentTerm = e.currentTerm := hterm
  refine ⟨⟨?_,?_,fun hs => absurd rfl hs,fun _ => rfl,?_,?_⟩,Leads.of_follower rfl,?_⟩
  · exact fun t x ht => (h.core.ballot_le t x ht).trans hterm'.ge
  · intro x hx hne
    rw [hterm'] at hx
    exact hvote x (h.core.other_kept x hx hne)
  · exact fun t ht => (h.core.won_le t ht).trans hterm'.ge
  · intro he
    rw [hterm'] at he
    exact hvote _ (h.core.won_kept he)
  · exact fun w req resp hw => nomatch hw

end MasterElection

namespace ElectionCluster

variable {c : ElectionCluster} {n : NodeId}

/-- Node `n` starts anew; what it has sent stays under way. -/
def restart (c : ElectionCluster) (n : NodeId) (now rnd : ℚ) : ElectionCluster :=
  { c with nodes := Function.update c.nodes n ((c.nodes n).restart now rnd) }

theorem Safe.restart (h : c.Safe) (hstored : (c.nodes n).Stored) (now rnd : ℚ) :
    (c.restart n now rnd).Safe where
  identity m hm := by
    by_cases hmn : m = n
    · subst hmn
      simpa [ElectionCluster.restart,MasterElection.restart,MasterElection.create] using h.identity m hm
    · simpa [ElectionCluster.restart,hmn] using h.identity m hm
  quorum m hm := by
    by_cases hmn : m = n
    · subst hmn
      simpa [ElectionCluster.restart,MasterElection.restart,MasterElection.create,
        MasterElection.majority] using h.quorum m hm
    · simpa [ElectionCluster.restart,hmn] using h.quorum m hm
  node m hm := by
    by_cases hmn : m = n
    · subst hmn
      have hnode := (h.node m hm).restart hstored now rnd
      simp only [ElectionCluster.restart,Function.update_self]
      exact hnode
    · simp only [ElectionCluster.restart,Function.update_of_ne hmn]
      exact h.node m hm
  voters := h.voters
  clean := h.clean
  carried := h.carried
  truthful := h.truthful

end ElectionCluster
end FusionMultiNodes

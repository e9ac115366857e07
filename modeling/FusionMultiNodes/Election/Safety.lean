import FusionMultiNodes.Election.Cluster
import FusionMultiNodes.Election.Frame
import FusionMultiNodes.Lib.Quorum

/-! At most one leader per term. The invariant of one node is stated over the votes `B` it
has cast, the terms `E` it has won and, term by term, the voters `S` it was supported by;
the cluster invariant adds what the packets in flight carry. -/
namespace FusionMultiNodes
/-- The step down that a vote response asked for waits for its state write. -/
def ElectionLoop.downPending : ElectionLoop → Bool
  | .steppingDown _ _ _ _ => true
  | _ => false

/-- Peers are left that the running broadcast has not reached. -/
def ElectionLoop.moreHeartbeats : ElectionLoop → Bool
  | .broadcasting _ (_::_) => true
  | _ => false

namespace MasterElection

/-- The steps that keep one vote per term: a heartbeat is sent only by a node that still is
leader, and no vote is granted while a higher term from a vote response is being written. -/
def Sound (e : MasterElection) : Event → Prop
  | .heartbeatSent => e.loop.moreHeartbeats = true → e.state = .leader
  | .voteRequest req _ _ => e.loop.downPending = true → (e.adoptTerm req.term).grants req = false
  | _ => True

instance (e : MasterElection) (ev : Event) : Decidable (e.Sound ev) := by
  apply Event.casesOn (motive := fun ev => Decidable (e.Sound ev)) ev <;> intros <;>
    dsimp only [Sound] <;> infer_instance

/-- The part of the node invariant that does not depend on the loop. -/
structure Core (e : MasterElection) (B : ℤ → NodeId → Prop) (E : ℤ → Prop) : Prop where
  ballot_le : ∀ t x, B t x → t ≤ e.currentTerm
  other_kept : ∀ x, B e.currentTerm x → x ≠ e.nodeId → e.votedFor = some x
  self_vote : e.state ≠ .follower → e.votedFor = some e.nodeId
  no_votes : e.state = .follower → e.votesReceived = ∅
  won_le : ∀ t, E t → t ≤ e.currentTerm
  won_kept : E e.currentTerm → e.votedFor = some e.nodeId

/-- The running election of a node asks for `req`, and the votes it counted were cast for it. -/
structure Polls (e : MasterElection) (S : ℤ → NodeId → Prop) (req : VoteRequest) (m : ℕ) : Prop where
  candidate : req.candidateId = e.nodeId
  quorum : m = e.majority
  term : e.state ≠ .follower → e.currentTerm = req.term
  support : ∀ v ∈ e.votesReceived, S req.term v

def Leads (e : MasterElection) (E : ℤ → Prop) : Prop := e.state = .leader → E e.currentTerm

/-- The part of the node invariant that depends on where the loop is suspended. -/
def LoopInv (e : MasterElection) (B : ℤ → NodeId → Prop) (E : ℤ → Prop) (S : ℤ → NodeId → Prop) :
    ElectionLoop → Prop
  | .idle => e.Leads E
  | .requesting req _ m _ => e.Polls S req m ∧ e.Leads E
  | .polling req _ _ m => e.Polls S req m ∧ e.Leads E
  | .electing req _ m _ => e.Polls S req m ∧ e.Leads E
  | .electingLast _ => e.Leads E
  | .broadcasting _ rest => e.Leads E ∧ ∀ q ∈ rest, q ≠ e.nodeId
  | .steppingDown req _ m _ =>
    req.candidateId = e.nodeId ∧ m = e.majority ∧
      (∀ x, B e.currentTerm x → x = e.nodeId) ∧ ¬E e.currentTerm

def Honest (e : MasterElection) (B : ℤ → NodeId → Prop) (req : VoteRequest) (resp : VoteResponse) :
    Prop :=
  resp.voteGranted = true → resp.voterId = e.nodeId ∧ B req.term req.candidateId

structure NodeInv (e : MasterElection) (B : ℤ → NodeId → Prop) (E : ℤ → Prop)
    (S : ℤ → NodeId → Prop) : Prop where
  core : e.Core B E
  loop : e.LoopInv B E S e.loop
  replies : ∀ w req resp, e.answers.get? w = some (req,resp) → e.Honest B req resp

/-- The terms won once a block that starts in `e` has ended in `e'`. -/
def WonAfter (e e' : MasterElection) (E : ℤ → Prop) (t : ℤ) : Prop :=
  E t ∨ (e.state ≠ .leader ∧ e'.state = .leader ∧ t = e'.currentTerm)

def CastAfter (e : MasterElection) (ev : Event) (B : ℤ → NodeId → Prop) (t : ℤ) (x : NodeId) : Prop :=
  B t x ∨ e.ballot ev = some (t,x)

/-- A node that enters the leader state counted a majority of votes cast for it. -/
def WinsFairly (e e' : MasterElection) (S : ℤ → NodeId → Prop) : Prop :=
  e.state ≠ .leader → e'.state = .leader →
    e.majority ≤ e'.votesReceived.card ∧ ∀ v ∈ e'.votesReceived, S e'.currentTerm v

/-- What a node may send: honest answers, and heartbeats to others for a term it has won. -/
def SendsFairly (e : MasterElection) (B : ℤ → NodeId → Prop) (E : ℤ → Prop) (e' : MasterElection) :
    ElectionMessage → Prop
  | .requestVote _ _ => True
  | .answer req resp => e'.Honest B req resp
  | .heartbeat p l t => p ≠ e.nodeId ∧ l = e.nodeId ∧ E t

variable {e e' : MasterElection} {B : ℤ → NodeId → Prop} {E : ℤ → Prop} {S S' : ℤ → NodeId → Prop}
  {req : VoteRequest} {m : ℕ}

theorem Polls.mono (h : e.Polls S req m) (hS : ∀ t v, S t v → S' t v) : e.Polls S' req m :=
  ⟨h.candidate,h.quorum,h.term,fun v hv => hS _ _ (h.support v hv)⟩

theorem NodeInv.mono (h : e.NodeInv B E S) (hS : ∀ t v, S t v → S' t v) : e.NodeInv B E S' := by
  refine ⟨h.core,?_,h.replies⟩
  have hl := h.loop
  cases hloop : e.loop <;> simp only [hloop,LoopInv] at hl ⊢
  case requesting => exact ⟨hl.1.mono hS,hl.2⟩
  case polling => exact ⟨hl.1.mono hS,hl.2⟩
  case electing => exact ⟨hl.1.mono hS,hl.2⟩
  all_goals exact hl

theorem Polls.of_follower (hc : req.candidateId = e.nodeId) (hm : m = e.majority)
    (hf : e.state = .follower) (hv : e.votesReceived = ∅) : e.Polls S req m :=
  ⟨hc,hm,fun h => absurd hf h,fun v h => by simp [hv] at h⟩

theorem Leads.of_follower (hf : e.state = .follower) : e.Leads E :=
  fun h => absurd (hf.symm.trans h) (by decide)

theorem wonAfter_iff_of_state (hs : e'.state = e.state ∨ e'.state = .follower) (t : ℤ) :
    WonAfter e e' E t ↔ E t := by
  constructor
  · rintro (h | ⟨h₁,h₂,-⟩)
    · exact h
    · rcases hs with hs | hs
      · exact absurd (hs ▸ h₂) h₁
      · exact absurd (hs.symm.trans h₂) (by decide)
  · exact Or.inl

theorem winsFairly_of_state (hs : e'.state = e.state ∨ e'.state = .follower) :
    WinsFairly e e' S := by
  intro h₁ h₂
  rcases hs with hs | hs
  · exact absurd (hs ▸ h₂) h₁
  · exact absurd (hs.symm.trans h₂) (by decide)

theorem Core.becomeLeader (h : e.Core B E) (hs : e.state ≠ .follower) :
    e.becomeLeader.Core B (WonAfter e e.becomeLeader E) where
  ballot_le := h.ballot_le
  other_kept := h.other_kept
  self_vote := fun _ => h.self_vote hs
  no_votes := fun hf => absurd hf (by simp [MasterElection.becomeLeader,persist])
  won_le := by
    rintro t (ht | ⟨-,-,rfl⟩)
    · exact h.won_le t ht
    · exact le_refl _
  won_kept := fun _ => h.self_vote hs

theorem leads_becomeLeader (h : e.Leads E) :
    e.becomeLeader.Leads (WonAfter e e.becomeLeader E) := by
  intro hl
  by_cases hs : e.state = .leader
  · exact Or.inl (h hs)
  · exact Or.inr ⟨hs,hl,rfl⟩

theorem Core.becomeFollower (h : e.Core B E) (hB : ∀ x, B e.currentTerm x → x = e.nodeId)
    (hE : ¬E e.currentTerm) : e.becomeFollower.Core B E where
  ballot_le := h.ballot_le
  other_kept := fun x hx hne => absurd (hB x hx) hne
  self_vote := fun hs => absurd rfl hs
  no_votes := fun _ => rfl
  won_le := h.won_le
  won_kept := fun he => absurd he hE

theorem pollNext_inv (hc : e.Core B E) (hp : e.Polls S req m) (hl : e.Leads E)
    (hr : ∀ w q resp, e.answers.get? w = some (q,resp) → e.Honest B q resp) (peers : List NodeId) :
    (e.pollNext req m peers).1.NodeInv B (WonAfter e (e.pollNext req m peers).1 E) S ∧
      WinsFairly e (e.pollNext req m peers).1 S ∧
      ∀ msg ∈ (e.pollNext req m peers).2, SendsFairly e B E (e.pollNext req m peers).1 msg := by
  cases peers with
  | cons p rest =>
    have hE : WonAfter e (e.pollNext req m (p::rest)).1 E = E :=
      funext fun t => propext (wonAfter_iff_of_state (Or.inl rfl) t)
    rw [hE]
    refine ⟨⟨⟨hc.1,hc.2,hc.3,hc.4,hc.5,hc.6⟩,⟨⟨hp.1,hp.2,hp.3,hp.4⟩,hl⟩,hr⟩,
      winsFairly_of_state (Or.inl rfl),?_⟩
    intro msg hmsg
    rw [List.mem_singleton.mp hmsg]
    trivial
  | nil =>
    simp only [pollNext]
    split_ifs with hq
    · have hs : e.state ≠ .follower := by
        intro hf
        have hm := hp.quorum
        simp only [hc.no_votes hf,Finset.card_empty,majority] at hq hm
        omega
      have hcl := hc.becomeLeader hs
      refine ⟨⟨⟨hcl.1,hcl.2,hcl.3,hcl.4,hcl.5,hcl.6⟩,leads_becomeLeader hl,hr⟩,?_,by simp⟩
      intro _ _
      refine ⟨hp.quorum ▸ hq,fun v hv => ?_⟩
      have hterm : e.currentTerm = req.term := hp.term hs
      exact hterm ▸ hp.support v hv
    · have hE : WonAfter e { e with loop := .idle } E = E :=
        funext fun t => propext (wonAfter_iff_of_state (Or.inl rfl) t)
      rw [hE]
      exact ⟨⟨⟨hc.1,hc.2,hc.3,hc.4,hc.5,hc.6⟩,hl,hr⟩,winsFairly_of_state (Or.inl rfl),by simp⟩

/-- A block of the loop that leaves the votes cast alone keeps the node invariant. -/
def Keeps (e : MasterElection) (B : ℤ → NodeId → Prop) (E : ℤ → Prop) (S : ℤ → NodeId → Prop)
    (e' : MasterElection) (sent : List ElectionMessage) : Prop :=
  e'.NodeInv B (WonAfter e e' E) S ∧ WinsFairly e e' S ∧
    ∀ msg ∈ sent, SendsFairly e B E e' msg

/-- A block that wins no term keeps the invariant if its last state satisfies it. -/
theorem Keeps.of_state {sent : List ElectionMessage}
    (hs : e'.state = e.state ∨ e'.state = .follower) (h : e'.NodeInv B E S)
    (hsent : ∀ msg ∈ sent, SendsFairly e B E e' msg) : Keeps e B E S e' sent := by
  have hE : WonAfter e e' E = E := funext fun t => propext (wonAfter_iff_of_state hs t)
  refine ⟨?_,winsFairly_of_state hs,hsent⟩
  rw [hE]
  exact h

theorem Core.countVote (h : e.Core B E) (hs : e.state ≠ .follower) (v : NodeId) :
    (e.countVote v).Core B E :=
  ⟨h.ballot_le,h.other_kept,h.self_vote,fun hf => absurd hf hs,h.won_le,h.won_kept⟩

theorem Polls.countVote (h : e.Polls S req m) {v : NodeId} (hv : S req.term v) :
    (e.countVote v).Polls S req m := by
  refine ⟨h.candidate,h.quorum,h.term,fun u hu => ?_⟩
  rcases Finset.mem_insert.mp hu with rfl | hu
  · exact hv
  · exact h.support u hu

theorem handleVoteResponse_inv (hc : e.Core B E) (hp : e.Polls S req m) (hl : e.Leads E)
    (hr : ∀ w q resp, e.answers.get? w = some (q,resp) → e.Honest B q resp)
    (rest : List NodeId) {resp : VoteResponse}
    (hresp : resp.voteGranted = true → S req.term resp.voterId) :
    Keeps e B E S (e.handleVoteResponse req rest m resp).1
      (e.handleVoteResponse req rest m resp).2 := by
  unfold handleVoteResponse
  split_ifs with hterm hstate hgranted hmaj
  · -- a higher term is taken over first, the step down comes after its write
    apply Keeps.of_state (Or.inl rfl) _ (by simp)
    have hB : ∀ t x, B t x → t < resp.term := fun t x h => lt_of_le_of_lt (hc.ballot_le t x h) hterm
    have hE : ∀ t, E t → t < resp.term := fun t h => lt_of_le_of_lt (hc.won_le t h) hterm
    refine ⟨⟨fun t x h => (hB t x h).le,fun x h => absurd (hB _ x h) (lt_irrefl _),hc.self_vote,
      hc.no_votes,fun t h => (hE t h).le,fun h => absurd (hE _ h) (lt_irrefl _)⟩,?_,hr⟩
    exact ⟨hp.candidate,hp.quorum,fun x h => absurd (hB _ x h) (lt_irrefl _),
      fun h => absurd (hE _ h) (lt_irrefl _)⟩
  · exact pollNext_inv hc hp hl hr rest
  · have hs : e.state ≠ .follower := by rw [not_not.mp hstate]; decide
    have hcv := hc.countVote hs resp.voterId
    have hpv := hp.countVote (hresp hgranted)
    have hcl := hcv.becomeLeader hs
    refine ⟨⟨⟨hcl.1,hcl.2,hcl.3,hcl.4,hcl.5,hcl.6⟩,?_,hr⟩,?_,by simp⟩
    · exact ⟨⟨hpv.1,hpv.2,fun _ => hp.term hs,hpv.4⟩,leads_becomeLeader (e := e.countVote resp.voterId) hl⟩
    · intro _ _
      have hreq : e.currentTerm = req.term := hp.term hs
      exact ⟨hmaj,fun v hv => hreq ▸ hpv.support v hv⟩
  · have hs : e.state ≠ .follower := by rw [not_not.mp hstate]; decide
    exact pollNext_inv (e := e.countVote resp.voterId) (hc.countVote hs resp.voterId)
      (hp.countVote (hresp hgranted)) hl hr rest
  · exact pollNext_inv hc hp hl hr rest

theorem broadcastNext_inv (hc : e.Core B E) (hl : e.Leads E)
    (hr : ∀ w q resp, e.answers.get? w = some (q,resp) → e.Honest B q resp) {peers : List NodeId}
    (hpeers : ∀ q ∈ peers, q ≠ e.nodeId) (hlead : peers ≠ [] → e.state = .leader) :
    Keeps e B E S (e.broadcastNext peers).1 (e.broadcastNext peers).2 := by
  cases peers with
  | nil =>
    exact Keeps.of_state (Or.inl rfl) ⟨⟨hc.1,hc.2,hc.3,hc.4,hc.5,hc.6⟩,hl,hr⟩
      (by simp [broadcastNext])
  | cons p rest =>
    refine Keeps.of_state (Or.inl rfl) ⟨⟨hc.1,hc.2,hc.3,hc.4,hc.5,hc.6⟩,
      ⟨hl,fun q hq => hpeers q (List.mem_cons_of_mem _ hq)⟩,hr⟩ ?_
    intro msg hmsg
    rw [List.mem_singleton.mp hmsg]
    exact ⟨hpeers p (List.mem_cons_self ..),rfl,hl (hlead (by simp))⟩

theorem startElection_inv (hc : e.Core B E) (rnd : ℚ) {B' : ℤ → NodeId → Prop}
    (hr : ∀ w q resp, e.answers.get? w = some (q,resp) → e.Honest B' q resp)
    (hB : ∀ t x, B' t x ↔ B t x ∨ (t = e.currentTerm+1 ∧ x = e.nodeId))
    (hS : S (e.currentTerm+1) e.nodeId) : Keeps e B' E S (e.startElection rnd) [] := by
  have hs : WonAfter e (e.startElection rnd) E = E := by
    funext t
    apply propext
    constructor
    · rintro (h | ⟨-,h,-⟩)
      · exact h
      · simp [startElection,persist] at h
    · exact Or.inl
  have hlt : ∀ t x, B t x → t < e.currentTerm+1 := fun t x h => by
    have := hc.ballot_le t x h; omega
  have hElt : ∀ t, E t → t < e.currentTerm+1 := fun t h => by
    have := hc.won_le t h; omega
  refine ⟨?_,fun _ h => absurd h (by simp [startElection,persist]),by simp⟩
  rw [hs]
  refine ⟨⟨?_,?_,fun _ => rfl,fun h => absurd h (by simp [startElection,persist]),
    fun t h => (hElt t h).le,fun h => absurd (hElt _ h) (lt_irrefl _)⟩,⟨?_,?_⟩,hr⟩
  · intro t x h
    rcases (hB t x).mp h with h | ⟨rfl,-⟩
    · exact (hlt t x h).le
    · exact le_refl _
  · intro x h hne
    rcases (hB _ x).mp h with h | ⟨-,hx⟩
    · exact absurd (hlt _ x h) (lt_irrefl _)
    · exact absurd hx hne
  · refine ⟨rfl,rfl,fun _ => rfl,fun v hv => ?_⟩
    have hv' : v = e.nodeId := Finset.mem_singleton.mp hv
    exact hv' ▸ hS
  · exact fun h => absurd h (by simp [startElection,persist])

theorem adoptTerm_core (hc : e.Core B E) (t : ℤ) : (e.adoptTerm t).Core B E := by
  unfold adoptTerm
  split_ifs with h
  · have hB : ∀ u x, B u x → u < t := fun u x hu => lt_of_le_of_lt (hc.ballot_le u x hu) h
    have hE : ∀ u, E u → u < t := fun u hu => lt_of_le_of_lt (hc.won_le u hu) h
    exact ⟨fun u x hu => (hB u x hu).le,fun x hu => absurd (hB _ x hu) (lt_irrefl _),
      fun hs => absurd rfl hs,fun _ => rfl,fun u hu => (hE u hu).le,
      fun hu => absurd (hE _ hu) (lt_irrefl _)⟩
  · exact hc

/-- The loop part of the invariant survives a block that makes the node a follower, or leaves
its state, term and votes alone. -/
theorem LoopInv.transfer {l : ElectionLoop} (h : e.LoopInv B E S l) {B' : ℤ → NodeId → Prop}
    (hid : e'.nodeId = e.nodeId) (hknown : e'.knownNodes = e.knownNodes)
    (hcases : (e'.state = .follower ∧ e'.votesReceived = ∅) ∨
      (e'.state = e.state ∧ e'.votesReceived = e.votesReceived ∧ e'.currentTerm = e.currentTerm))
    (hdown : (∃ r p m w, l = .steppingDown r p m w) →
      (∀ x, B' e'.currentTerm x → x = e'.nodeId) ∧ ¬E e'.currentTerm) :
    e'.LoopInv B' E S l := by
  have hmaj : e'.majority = e.majority := by simp only [majority,hknown]
  have hlead : e.Leads E → e'.Leads E := by
    intro hl
    rcases hcases with ⟨hf,-⟩ | ⟨hs,-,ht⟩
    · exact Leads.of_follower hf
    · exact fun hs' => ht ▸ hl (hs ▸ hs')
  have hpolls : ∀ req m, e.Polls S req m → e'.Polls S req m := by
    intro req m hp
    rcases hcases with ⟨hf,hv⟩ | ⟨hs,hv,ht⟩
    · exact Polls.of_follower (hid ▸ hp.candidate) (hmaj ▸ hp.quorum) hf hv
    · exact ⟨hid ▸ hp.candidate,hmaj ▸ hp.quorum,fun h' => ht ▸ hp.term (hs ▸ h'),
        fun v hv' => hp.support v (hv ▸ hv')⟩
  cases l <;> simp only [LoopInv] at h ⊢
  case idle => exact hlead h
  case requesting => exact ⟨hpolls _ _ h.1,hlead h.2⟩
  case polling => exact ⟨hpolls _ _ h.1,hlead h.2⟩
  case electing => exact ⟨hpolls _ _ h.1,hlead h.2⟩
  case electingLast => exact hlead h
  case broadcasting => exact ⟨hlead h.1,fun q hq => hid ▸ h.2 q hq⟩
  case steppingDown => exact ⟨hid ▸ h.1,hmaj ▸ h.2.1,hdown ⟨_,_,_,_,rfl⟩⟩

theorem receiveHeartbeat_inv (h : e.NodeInv B E S) (l : NodeId) {t : ℤ} (now rnd : ℚ)
    (ht : ¬E t) : Keeps e B E S (e.receiveHeartbeat l t now rnd).node
      (e.receiveHeartbeat l t now rnd).sent := by
  have hc := h.core
  unfold receiveHeartbeat
  by_cases hle : e.currentTerm ≤ t
  · have hBt : ∀ u x, B u x → u ≤ t := fun u x hu => (hc.ballot_le u x hu).trans hle
    have hEt : ∀ u, E u → u ≤ t := fun u hu => (hc.won_le u hu).trans hle
    -- a vote for another node in the term of the heartbeat is one of the current term
    have hsame : ∀ x, B t x → x ≠ e.nodeId → e.votedFor = some x ∧ t = e.currentTerm := by
      intro x hx hne
      have heq : t = e.currentTerm := le_antisymm (hc.ballot_le t x hx) hle
      exact ⟨hc.other_kept x (heq ▸ hx) hne,heq⟩
    by_cases hs : e.state ≠ .follower
    · rw [if_pos hle]
      simp only [if_pos hs]
      have hself : ∀ x, B t x → x = e.nodeId := by
        intro x hx
        by_contra hne
        have hv := (hsame x hx hne).1
        rw [hc.self_vote hs] at hv
        exact hne (Option.some.inj hv).symm
      refine Keeps.of_state (Or.inr rfl) ⟨⟨hBt,?_,fun h => absurd rfl h,fun _ => rfl,hEt,
        fun h => absurd h ht⟩,?_,h.replies⟩ (by simp)
      · exact fun x hx hne => absurd (hself x hx) hne
      · exact h.loop.transfer rfl rfl (Or.inl ⟨rfl,rfl⟩) (fun _ => ⟨hself,ht⟩)
    · rw [if_pos hle]
      simp only [if_neg hs]
      have hf : e.state = .follower := not_not.mp hs
      refine Keeps.of_state (Or.inl rfl) ⟨⟨hBt,fun x hx hne => (hsame x hx hne).1,
        fun h => absurd hf h,fun _ => hc.no_votes hf,hEt,fun h => absurd h ht⟩,?_,h.replies⟩ (by simp)
      refine h.loop.transfer rfl rfl (Or.inl ⟨hf,hc.no_votes hf⟩) ?_
      rintro ⟨r,p,m,w,hloop⟩
      refine ⟨fun x hx => ?_,ht⟩
      have hl := h.loop
      rw [hloop] at hl
      by_contra hne
      exact hne (hl.2.2.1 x ((hsame x hx hne).2 ▸ hx))
  · rw [if_neg hle]
    exact Keeps.of_state (Or.inl rfl) h (by simp)

theorem grants_iff : e.grants req = true ↔ e.currentTerm ≤ req.term ∧
    (e.votedFor = none ∨ e.votedFor = some req.candidateId) ∧
      (e.priority ≤ req.candidatePriority ∨ e.currentTerm < req.term) := by
  simp [grants,and_assoc]

theorem le_adoptTerm (e : MasterElection) (t : ℤ) : t ≤ (e.adoptTerm t).currentTerm := by
  unfold adoptTerm
  split_ifs with h
  · exact le_refl _
  · exact not_lt.mp h

/-- A granted vote goes to the one candidate the node may support in this term. -/
theorem castVote_core (hc : e.Core B E) (now rnd : ℚ) :
    (e.castVote req now rnd).Core
      (fun t x => B t x ∨ (e.grants req = true ∧ t = e.currentTerm ∧ x = req.candidateId)) E := by
  unfold castVote
  split_ifs with hg
  · have hfree : ∀ x, e.votedFor = some x → x = req.candidateId := by
      intro x hx
      rcases (grants_iff.mp hg).2.1 with h | h
      · simp [h] at hx
      · exact Option.some.inj (hx.symm.trans h)
    refine ⟨?_,?_,fun hs => congrArg some (hfree _ (hc.self_vote hs)).symm,hc.no_votes,hc.won_le,
      fun hw => congrArg some (hfree _ (hc.won_kept hw)).symm⟩
    · rintro t x (h | ⟨-,rfl,-⟩)
      · exact hc.ballot_le t x h
      · exact le_refl _
    · rintro x (h | ⟨-,-,rfl⟩) hne
      · exact congrArg some (hfree x (hc.other_kept x h hne)).symm
      · rfl
  · refine ⟨?_,?_,hc.self_vote,hc.no_votes,hc.won_le,hc.won_kept⟩
    · rintro t x (h | ⟨h,-⟩)
      · exact hc.ballot_le t x h
      · exact absurd h hg
    · rintro x (h | ⟨h,-⟩) hne
      · exact hc.other_kept x h hne
      · exact absurd h hg

theorem castVote_keeps (e : MasterElection) (req : VoteRequest) (now rnd : ℚ) :
    (e.castVote req now rnd).nodeId = e.nodeId ∧
      (e.castVote req now rnd).knownNodes = e.knownNodes ∧
      (e.castVote req now rnd).state = e.state ∧
      (e.castVote req now rnd).votesReceived = e.votesReceived ∧
      (e.castVote req now rnd).currentTerm = e.currentTerm ∧
      (e.castVote req now rnd).loop = e.loop ∧
      (e.castVote req now rnd).answers = e.answers := by
  unfold castVote
  split_ifs <;> exact ⟨rfl,rfl,rfl,rfl,rfl,rfl,rfl⟩

theorem adoptTerm_keeps (e : MasterElection) (t : ℤ) :
    (e.adoptTerm t).nodeId = e.nodeId ∧ (e.adoptTerm t).knownNodes = e.knownNodes ∧
      (e.adoptTerm t).loop = e.loop ∧ (e.adoptTerm t).answers = e.answers ∧
      (((e.adoptTerm t).state = .follower ∧ (e.adoptTerm t).votesReceived = ∅ ∧
          e.currentTerm < (e.adoptTerm t).currentTerm) ∨ e.adoptTerm t = e) := by
  unfold adoptTerm
  split_ifs with h
  · exact ⟨rfl,rfl,rfl,rfl,Or.inl ⟨rfl,rfl,h⟩⟩
  · exact ⟨rfl,rfl,rfl,rfl,Or.inr rfl⟩

/-- The votes cast after a vote request are the old ones and the granted one. -/
theorem castAfter_voteRequest (e : MasterElection) (req : VoteRequest) (now rnd : ℚ)
    (B : ℤ → NodeId → Prop) : e.CastAfter (.voteRequest req now rnd) B =
      fun t x => B t x ∨ ((e.adoptTerm req.term).grants req = true ∧
        t = (e.adoptTerm req.term).currentTerm ∧ x = req.candidateId) := by
  funext t x
  simp only [CastAfter,ballot]
  split_ifs with hg <;> simp [hg,eq_comm]

/-- `handle_vote_request` may add one vote for the term it ends in. -/
theorem handleVoteRequest_inv (h : e.NodeInv B E S) (req : VoteRequest) (now rnd : ℚ)
    (hsound : e.Sound (.voteRequest req now rnd)) :
    Keeps e (e.CastAfter (.voteRequest req now rnd) B) E S
      (e.handleVoteRequest req now rnd).node (e.handleVoteRequest req now rnd).sent := by
  rw [castAfter_voteRequest]
  obtain ⟨hid₁,hknown₁,hloop₁,hans₁,hadopt⟩ := adoptTerm_keeps e req.term
  obtain ⟨hid₂,hknown₂,hstate₂,hvotes₂,hterm₂,hloop₂,hans₂⟩ :=
    castVote_keeps (e.adoptTerm req.term) req now rnd
  have hcore : ((e.adoptTerm req.term).castVote req now rnd).Core
      (fun t x => B t x ∨ ((e.adoptTerm req.term).grants req = true ∧
        t = (e.adoptTerm req.term).currentTerm ∧ x = req.candidateId)) E :=
    castVote_core (adoptTerm_core h.core req.term) now rnd
  have hloop : ((e.adoptTerm req.term).castVote req now rnd).LoopInv
      (fun t x => B t x ∨ ((e.adoptTerm req.term).grants req = true ∧
        t = (e.adoptTerm req.term).currentTerm ∧ x = req.candidateId)) E S e.loop := by
    refine h.loop.transfer (hid₂.trans hid₁) (hknown₂.trans hknown₁) ?_ ?_
    · rcases hadopt with ⟨hf,hv,-⟩ | heq
      · exact Or.inl ⟨hstate₂.trans hf,hvotes₂.trans hv⟩
      · exact Or.inr ⟨by rw [hstate₂,heq],by rw [hvotes₂,heq],by rw [hterm₂,heq]⟩
    · rintro ⟨r,p,m,w,hl⟩
      have hno := hsound (by rw [hl]; rfl)
      have hinv := h.loop
      rw [hl] at hinv
      rw [hterm₂,hid₂,hid₁]
      rcases hadopt with ⟨-,-,hlt⟩ | heq
      · refine ⟨?_,fun hE => absurd (h.core.won_le _ hE) (not_le.mpr hlt)⟩
        rintro x (hx | ⟨hg,-⟩)
        · exact absurd (h.core.ballot_le _ x hx) (not_le.mpr hlt)
        · simp [hno] at hg
      · rw [heq]
        refine ⟨?_,hinv.2.2.2⟩
        rintro x (hx | ⟨hg,-⟩)
        · exact hinv.2.2.1 x hx
        · rw [heq] at hno; simp [hno] at hg
  -- a granted response is about the vote that was just cast
  have hhonest : (e.adoptTerm req.term).grants req = true →
      req.term = (e.adoptTerm req.term).currentTerm :=
    fun hg => le_antisymm (le_adoptTerm e req.term) (grants_iff.mp hg).1
  have hstate : ((e.adoptTerm req.term).castVote req now rnd).state = e.state ∨
      ((e.adoptTerm req.term).castVote req now rnd).state = .follower := by
    rcases hadopt with ⟨hf,-,-⟩ | heq
    · exact Or.inr (hstate₂.trans hf)
    · exact Or.inl (by rw [hstate₂,heq])
  have hreply : e.Honest (fun t x => B t x ∨ ((e.adoptTerm req.term).grants req = true ∧
      t = (e.adoptTerm req.term).currentTerm ∧ x = req.candidateId)) req
      ⟨(e.adoptTerm req.term).currentTerm,(e.adoptTerm req.term).grants req,e.nodeId⟩ :=
    fun hg => ⟨rfl,Or.inr ⟨hg,hhonest hg,rfl⟩⟩
  have hold : ∀ w q resp, e.answers.get? w = some (q,resp) →
      e.Honest (fun t x => B t x ∨ ((e.adoptTerm req.term).grants req = true ∧
        t = (e.adoptTerm req.term).currentTerm ∧ x = req.candidateId)) q resp := by
    intro w q resp hw hg
    obtain ⟨hv,hb⟩ := h.replies w q resp hw hg
    exact ⟨hv,Or.inl hb⟩
  by_cases hpersist : e.currentTerm < req.term ∨ (e.adoptTerm req.term).grants req = true
  · simp only [handleVoteRequest,if_pos hpersist]
    refine Keeps.of_state hstate ⟨⟨hcore.1,hcore.2,hcore.3,hcore.4,hcore.5,hcore.6⟩,?_,?_⟩ (by simp)
    · show LoopInv _ _ E S ((e.adoptTerm req.term).castVote req now rnd).loop
      rw [hloop₂,hloop₁]
      refine hloop.transfer rfl rfl (Or.inr ⟨rfl,rfl,rfl⟩) ?_
      rintro ⟨r,p,m,w,hl⟩
      rw [hl] at hloop
      exact hloop.2.2
    · intro w q resp hw
      have hid : ((e.adoptTerm req.term).castVote req now rnd).nodeId = e.nodeId := hid₂.trans hid₁
      rw [hans₁,Dict.get?_set] at hw
      split_ifs at hw with hnew
      · obtain ⟨rfl,rfl⟩ := Prod.mk.inj (Option.some.inj hw)
        exact fun hg => ⟨hid.symm,(hreply hg).2⟩
      · exact fun hg => ⟨(hold w q resp hw hg).1.trans hid.symm,(hold w q resp hw hg).2⟩
  · simp only [handleVoteRequest,if_neg hpersist]
    have hid : ((e.adoptTerm req.term).castVote req now rnd).nodeId = e.nodeId := hid₂.trans hid₁
    refine Keeps.of_state hstate ⟨hcore,by rw [hloop₂,hloop₁]; exact hloop,?_⟩ ?_
    · intro w q resp hw hg
      rw [hans₂,hans₁] at hw
      exact ⟨(hold w q resp hw hg).1.trans hid.symm,(hold w q resp hw hg).2⟩
    · intro msg hmsg
      rw [List.mem_singleton.mp hmsg]
      exact fun hg => ⟨hid.symm,(hreply hg).2⟩

theorem castAfter_of_ballot_none {ev : Event} (h : e.ballot ev = none) (B : ℤ → NodeId → Prop) :
    e.CastAfter ev B = B := by
  funext t x
  simp [CastAfter,h]

theorem resumeLoop_inv (h : e.NodeInv B E S) {b : ElectionBlock} (hb : e.resumeLoop = some b) :
    Keeps e B E S b.node b.sent := by
  have hc := h.core
  have hl := h.loop
  unfold resumeLoop at hb
  cases hloop : e.loop with
  | requesting req peers m w =>
    simp only [hloop,Option.ite_none_left_eq_some,Option.some.injEq] at hb hl
    obtain ⟨-,rfl⟩ := hb
    exact pollNext_inv hc hl.1 hl.2 h.replies peers
  | steppingDown req rest m w =>
    simp only [hloop,Option.ite_none_left_eq_some,Option.some.injEq] at hb hl
    obtain ⟨-,rfl⟩ := hb
    have hcf := hc.becomeFollower hl.2.2.1 hl.2.2.2
    have hp : e.becomeFollower.Polls S req m := Polls.of_follower hl.1 hl.2.1 rfl rfl
    obtain ⟨hinv,-,hsent⟩ :=
      pollNext_inv hcf hp (Leads.of_follower rfl) h.replies rest (S := S)
    have hfol : (e.becomeFollower.pollNext req m rest).1.state = .follower := by
      cases rest with
      | cons p rest => rfl
      | nil =>
        have hq : ¬m ≤ e.becomeFollower.votesReceived.card := by
          have hm := hp.quorum
          simp only [becomeFollower,Finset.card_empty,majority] at hm ⊢
          omega
        simp only [pollNext,if_neg hq]
        rfl
    have hE : e.becomeFollower.WonAfter (e.becomeFollower.pollNext req m rest).1 E = E :=
      funext fun t => propext (wonAfter_iff_of_state (Or.inr hfol) t)
    rw [hE] at hinv
    exact Keeps.of_state (Or.inr hfol) hinv hsent
  | electing req rest m w =>
    simp only [hloop,Option.ite_none_left_eq_some,Option.some.injEq] at hb hl
    obtain ⟨-,rfl⟩ := hb
    exact pollNext_inv hc hl.1 hl.2 h.replies rest
  | electingLast w =>
    simp only [hloop,Option.ite_none_left_eq_some,Option.some.injEq] at hb hl
    obtain ⟨-,rfl⟩ := hb
    exact Keeps.of_state (Or.inl rfl) ⟨⟨hc.1,hc.2,hc.3,hc.4,hc.5,hc.6⟩,hl,h.replies⟩ (by simp)
  | idle => simp [hloop] at hb
  | polling => simp [hloop] at hb
  | broadcasting => simp [hloop] at hb

theorem leaderTick_inv (h : e.NodeInv B E S) (hidle : e.loop = .idle) (hs : e.state = .leader)
    (now : ℚ) : Keeps e B E S (e.leaderTick now).1 (e.leaderTick now).2 := by
  have hc := h.core
  have hl : e.Leads E := by
    have := h.loop
    rwa [hidle] at this
  unfold leaderTick
  split_ifs with ht
  · have hc' : ({ e with lastHeartbeat := now, lastBroadcast := now } : MasterElection).Core B E :=
      ⟨hc.1,hc.2,hc.3,hc.4,hc.5,hc.6⟩
    refine broadcastNext_inv hc' hl h.replies (fun q hq => ?_) (fun _ => hs)
    simpa using (List.mem_filter.mp hq).2
  · refine Keeps.of_state (Or.inl rfl) ⟨⟨hc.1,hc.2,hc.3,hc.4,hc.5,hc.6⟩,?_,h.replies⟩ (by simp)
    show LoopInv _ _ E S e.loop
    rw [hidle]
    exact hl

theorem electionLoop_inv (h : e.NodeInv B E S) (hidle : e.loop = .idle) (now rnd : ℚ)
    (hself : e.ballot (.tick now rnd) = some (e.currentTerm+1,e.nodeId) →
      S (e.currentTerm+1) e.nodeId) :
    Keeps e (e.CastAfter (.tick now rnd) B) E S (e.electionLoop now rnd).1
      (e.electionLoop now rnd).2 := by
  have hc := h.core
  have hl : e.Leads E := by
    have := h.loop
    rwa [hidle] at this
  unfold electionLoop
  cases hs : e.state with
  | follower =>
    simp only
    split_ifs with ht
    · have hb : e.ballot (.tick now rnd) = some (e.currentTerm+1,e.nodeId) := by
        simp [ballot,hidle,hs,ht]
      refine startElection_inv hc rnd ?_ ?_ (hself hb)
      · intro w q resp hw hg
        exact ⟨(h.replies w q resp hw hg).1,Or.inl (h.replies w q resp hw hg).2⟩
      · intro t x
        simp [CastAfter,hb,eq_comm]
    · have hb : e.ballot (.tick now rnd) = none := by simp [ballot,ht]
      rw [castAfter_of_ballot_none hb]
      exact Keeps.of_state (Or.inl rfl) h (by simp)
  | candidate =>
    have hb : e.ballot (.tick now rnd) = none := by simp [ballot,hs]
    rw [castAfter_of_ballot_none hb]
    exact Keeps.of_state (Or.inl rfl) h (by simp)
  | leader =>
    have hb : e.ballot (.tick now rnd) = none := by simp [ballot,hs]
    rw [castAfter_of_ballot_none hb]
    exact leaderTick_inv h hidle hs now

/-- What must be known about the input of an event: granted votes were cast, and no heartbeat
comes for a term the node itself has won. -/
def Input (e : MasterElection) (E : ℤ → Prop) (S : ℤ → NodeId → Prop) : Event → Prop
  | .voteResponse resp =>
    ∀ req p, e.loop.pending = some (req,p) → resp.voteGranted = true → S req.term resp.voterId
  | .heartbeat _ t _ _ => ¬E t
  | _ => True

theorem step_inv {ev : Event} (h : e.NodeInv B E S) (hs : e.Sound ev) (hin : e.Input E S ev)
    (hself : ∀ t, e.ballot ev = some (t,e.nodeId) → S t e.nodeId) {b : ElectionBlock}
    (hb : e.step ev = some b) : Keeps e (e.CastAfter ev B) E S b.node b.sent := by
  have hc := h.core
  have hl := h.loop
  cases ev with
  | tick now rnd =>
    simp only [step,Option.ite_none_right_eq_some,Option.some.injEq] at hb
    obtain ⟨hidle,rfl⟩ := hb
    exact electionLoop_inv h hidle now rnd (hself _)
  | resume =>
    rw [castAfter_of_ballot_none rfl]
    exact resumeLoop_inv h hb
  | voteResponse resp =>
    rw [castAfter_of_ballot_none rfl]
    cases hloop : e.loop <;> simp only [step,hloop,Option.some.injEq,reduceCtorEq] at hb hl
    case polling req p rest m =>
      subst hb
      exact handleVoteResponse_inv hc hl.1 hl.2 h.replies rest (hin req p (by simp [ElectionLoop.pending,hloop]))
  | pollFailed =>
    rw [castAfter_of_ballot_none rfl]
    cases hloop : e.loop <;> simp only [step,hloop,Option.some.injEq,reduceCtorEq] at hb hl
    case polling req p rest m =>
      subst hb
      exact pollNext_inv hc hl.1 hl.2 h.replies rest
  | heartbeatSent =>
    rw [castAfter_of_ballot_none rfl]
    cases hloop : e.loop <;> simp only [step,hloop,Option.some.injEq,reduceCtorEq] at hb hl
    case broadcasting p rest =>
      subst hb
      refine broadcastNext_inv hc hl.1 h.replies hl.2 (fun hne => ?_)
      obtain ⟨q,rest',rfl⟩ := List.exists_cons_of_ne_nil hne
      exact hs (by rw [hloop]; rfl)
  | voteRequest req now rnd =>
    simp only [step,Option.some.injEq] at hb
    subst hb
    exact handleVoteRequest_inv h req now rnd hs
  | heartbeat l t now rnd =>
    simp only [step,Option.some.injEq] at hb
    subst hb
    rw [castAfter_of_ballot_none rfl]
    exact receiveHeartbeat_inv h l now rnd hin
  | writeDone w =>
    rw [castAfter_of_ballot_none rfl]
    obtain ⟨snap,hw,rfl⟩ := step_writeDone hb
    refine Keeps.of_state (Or.inl rfl) ⟨⟨hc.1,hc.2,hc.3,hc.4,hc.5,hc.6⟩,?_,h.replies⟩ (by simp)
    refine hl.transfer rfl rfl (Or.inr ⟨rfl,rfl,rfl⟩) ?_
    rintro ⟨r,p,m,w,hloop⟩
    rw [hloop] at hl
    exact hl.2.2
  | answered w =>
    rw [castAfter_of_ballot_none rfl]
    obtain ⟨req,resp,hw,rfl⟩ := step_answered hb
    refine Keeps.of_state (Or.inl rfl) ⟨⟨hc.1,hc.2,hc.3,hc.4,hc.5,hc.6⟩,?_,?_⟩ ?_
    · refine hl.transfer rfl rfl (Or.inr ⟨rfl,rfl,rfl⟩) ?_
      rintro ⟨r,p,m,w,hloop⟩
      rw [hloop] at hl
      exact hl.2.2
    · intro w' q resp hw'
      rw [Dict.get?_erase] at hw'
      split_ifs at hw'
      exact h.replies w' q resp hw'
    · intro msg hmsg
      rw [List.mem_singleton.mp hmsg]
      exact h.replies w _ _ hw

end MasterElection
end FusionMultiNodes

import FusionMultiNodes.Election.Node
import FusionMultiNodes.Lib.Machine

/-! One voter through its crashes. A restart builds the object anew from the state file, which
holds the snapshot whose write was the last to end. -/
namespace FusionMultiNodes

def ElectionMessage.grant? : ElectionMessage → Option (ℤ × NodeId)
  | .answer req resp => if resp.voteGranted then some (req.term,req.candidateId) else none
  | _ => none

namespace MasterElection

def restart (e : MasterElection) (now rnd : ℚ) : MasterElection :=
  .create e.nodeId e.priority e.knownNodes e.onElectedHook e.onDemotedHook e.stateFile now rnd

def storedTerm (e : MasterElection) : ℤ := (e.stateFile.map ElectionSnapshot.currentTerm).getD 0

/-- The event runs `_become_follower`, which clears `voted_for`, in a term that goes on. -/
def ClearsVote (e : MasterElection) : Event → Prop
  | .heartbeat _ term _ _ => term = e.currentTerm ∧ e.state ≠ .follower
  | .resume => ∃ req rest majority w, e.loop = .steppingDown req rest majority w
  | _ => False

/-- A vote for `x` in term `t` is granted, and its response waits for the state write. -/
def Promised (e : MasterElection) (t : ℤ) (x : NodeId) : Prop :=
  ∃ w req resp, e.answers.get? w = some (req,resp) ∧ resp.voteGranted = true ∧
    req.term = t ∧ req.candidateId = x

end MasterElection

def ElectionBlock.Grants (b : ElectionBlock) (t : ℤ) (x : NodeId) : Prop :=
  b.node.Promised t x ∨ (t,x) ∈ b.sent.filterMap ElectionMessage.grant?

/-- A voter, and the votes it has answered with `vote_granted=True` since it was set up. -/
structure Voter where
  node : MasterElection
  answered : List (ℤ × NodeId) := []

inductive VoterEvent
  | run (ev : MasterElection.Event)
  | restart (now rnd : ℚ)

namespace MasterElection

variable {e : MasterElection} {ev : Event} {b : ElectionBlock}

inductive VoteStep (e : MasterElection) (ev : Event) (b : ElectionBlock) : Prop
  | keeps : b.node.currentTerm = e.currentTerm → b.node.votedFor = e.votedFor →
      (∀ t x, b.Grants t x → e.Promised t x) → VoteStep e ev b
  | raises : e.currentTerm < b.node.currentTerm →
      (∀ t x, b.Grants t x → e.Promised t x) → VoteStep e ev b
  | clears : e.ClearsVote ev → b.node.currentTerm = e.currentTerm →
      (∀ t x, b.Grants t x → e.Promised t x) → VoteStep e ev b
  | casts {y : NodeId} : e.currentTerm ≤ b.node.currentTerm →
      (b.node.currentTerm = e.currentTerm → e.votedFor = none ∨ e.votedFor = some y) →
      b.node.votedFor = some y →
      (∀ t x, b.Grants t x → e.Promised t x ∨ (t = b.node.currentTerm ∧ x = y)) → VoteStep e ev b

theorem grants_of_silent (ha : b.node.answers = e.answers)
    (hs : b.sent.filterMap ElectionMessage.grant? = []) (t : ℤ) (x : NodeId) (h : b.Grants t x) :
    e.Promised t x := by
  rcases h with h | h
  · simpa only [Promised,ha] using h
  · simp [hs] at h

theorem pollNext_vote (e : MasterElection) (req : VoteRequest) (m : ℕ) (peers : List NodeId) :
    (e.pollNext req m peers).1.currentTerm = e.currentTerm ∧
      (e.pollNext req m peers).1.votedFor = e.votedFor ∧
      (e.pollNext req m peers).1.answers = e.answers ∧
      (e.pollNext req m peers).2.filterMap ElectionMessage.grant? = [] := by
  cases peers with
  | nil =>
    simp only [pollNext]
    split_ifs <;> exact ⟨rfl,rfl,rfl,rfl⟩
  | cons p rest => exact ⟨rfl,rfl,rfl,rfl⟩

theorem broadcastNext_vote (e : MasterElection) (peers : List NodeId) :
    (e.broadcastNext peers).1.currentTerm = e.currentTerm ∧
      (e.broadcastNext peers).1.votedFor = e.votedFor ∧
      (e.broadcastNext peers).1.answers = e.answers ∧
      (e.broadcastNext peers).2.filterMap ElectionMessage.grant? = [] := by
  cases peers <;> exact ⟨rfl,rfl,rfl,rfl⟩

theorem electionLoop_vote (e : MasterElection) (ev : Event) (now rnd : ℚ) :
    VoteStep e ev ⟨(e.electionLoop now rnd).1,(e.electionLoop now rnd).2,[]⟩ := by
  unfold electionLoop
  split
  · split_ifs
    · exact .raises (Int.lt_succ _) (grants_of_silent rfl rfl)
    · exact .keeps rfl rfl (grants_of_silent rfl rfl)
  · exact .keeps rfl rfl (grants_of_silent rfl rfl)
  · unfold leaderTick
    split_ifs
    · obtain ⟨hterm,hvote,hanswers,hsent⟩ :=
        broadcastNext_vote { e with lastHeartbeat := now, lastBroadcast := now } e.peers
      exact .keeps hterm hvote (grants_of_silent hanswers hsent)
    · exact .keeps rfl rfl (grants_of_silent rfl rfl)

theorem resumeLoop_vote (hb : e.resumeLoop = some b) : VoteStep e .resume b := by
  unfold resumeLoop at hb
  split at hb
  all_goals first | (simp only [reduceCtorEq] at hb) | skip
  all_goals
    simp only [Option.ite_none_left_eq_some,Option.some.injEq] at hb
    obtain ⟨-,rfl⟩ := hb
  · obtain ⟨hterm,hvote,hanswers,hsent⟩ := pollNext_vote e _ _ _
    exact .keeps hterm hvote (grants_of_silent hanswers hsent)
  · rename_i req rest majority w hloop
    obtain ⟨hterm,-,hanswers,hsent⟩ := pollNext_vote e.becomeFollower req majority rest
    exact .clears ⟨req,rest,majority,w,hloop⟩ hterm (grants_of_silent hanswers hsent)
  · obtain ⟨hterm,hvote,hanswers,hsent⟩ := pollNext_vote e _ _ _
    exact .keeps hterm hvote (grants_of_silent hanswers hsent)
  · exact .keeps rfl rfl (grants_of_silent rfl rfl)

theorem handleVoteResponse_vote (e : MasterElection) (ev : Event) (req : VoteRequest)
    (rest : List NodeId) (m : ℕ) (resp : VoteResponse) :
    VoteStep e ev ⟨(e.handleVoteResponse req rest m resp).1,
      (e.handleVoteResponse req rest m resp).2,[]⟩ := by
  have hpoll : ∀ e' : MasterElection, e'.currentTerm = e.currentTerm →
      e'.votedFor = e.votedFor → e'.answers = e.answers →
      VoteStep e ev ⟨(e'.pollNext req m rest).1,(e'.pollNext req m rest).2,[]⟩ := by
    intro e' hterm' hvote' hanswers'
    obtain ⟨hterm,hvote,hanswers,hsent⟩ := pollNext_vote e' req m rest
    exact .keeps (hterm.trans hterm') (hvote.trans hvote')
      (grants_of_silent (hanswers.trans hanswers') hsent)
  unfold handleVoteResponse
  split_ifs with hlt
  · exact .raises hlt (grants_of_silent rfl rfl)
  · exact hpoll e rfl rfl rfl
  · exact .keeps rfl rfl (grants_of_silent rfl rfl)
  · exact hpoll _ rfl rfl rfl
  · exact hpoll e rfl rfl rfl

theorem adoptTerm_vote (e : MasterElection) (term : ℤ) :
    (e.adoptTerm term).answers = e.answers ∧
      ((e.adoptTerm term = e ∧ term ≤ e.currentTerm) ∨
        ((e.adoptTerm term).currentTerm = term ∧ e.currentTerm < term)) := by
  unfold adoptTerm
  split_ifs with hlt
  · exact ⟨rfl,Or.inr ⟨rfl,hlt⟩⟩
  · exact ⟨rfl,Or.inl ⟨rfl,not_lt.mp hlt⟩⟩

/-- A vote that is granted is one for the current term, which was free or had that vote. -/
theorem grants_spec {req : VoteRequest} (h : (e.adoptTerm req.term).grants req = true) :
    req.term = (e.adoptTerm req.term).currentTerm ∧
      (e.currentTerm = (e.adoptTerm req.term).currentTerm →
        e.votedFor = none ∨ e.votedFor = some req.candidateId) := by
  obtain ⟨⟨hle,hfree⟩,-⟩ : (_ ∧ _) ∧ _ := by
    simpa only [grants,Bool.and_eq_true,Bool.or_eq_true,decide_eq_true_eq] using h
  rcases (adoptTerm_vote e req.term).2 with ⟨hsame,hold⟩ | ⟨hnew,hlt⟩
  · rw [hsame] at hle hfree ⊢
    exact ⟨le_antisymm hold hle,fun _ => hfree⟩
  · rw [hnew]
    exact ⟨rfl,fun heq => absurd heq hlt.ne⟩

theorem promised_set {e' : MasterElection} {w : ℕ} {req : VoteRequest} {resp : VoteResponse}
    (ha : e'.answers = e.answers.set w (req,resp)) {t : ℤ} {x : NodeId} (h : e'.Promised t x) :
    e.Promised t x ∨ (resp.voteGranted = true ∧ req.term = t ∧ req.candidateId = x) := by
  obtain ⟨w',q,r,hget,hgrant,hterm,hid⟩ := h
  rw [ha,Dict.get?_set] at hget
  split_ifs at hget
  · obtain ⟨rfl,rfl⟩ := Prod.mk.inj (Option.some.inj hget)
    exact Or.inr ⟨hgrant,hterm,hid⟩
  · exact Or.inl ⟨w',q,r,hget,hgrant,hterm,hid⟩

/-- A vote request adds at most the vote it asks for, where that is granted. -/
theorem handleVoteRequest_grants {req : VoteRequest} {now rnd : ℚ} {t : ℤ} {x : NodeId}
    (h : (e.handleVoteRequest req now rnd).Grants t x) :
    e.Promised t x ∨
      ((e.adoptTerm req.term).grants req = true ∧ req.term = t ∧ req.candidateId = x) := by
  have hanswers := (adoptTerm_vote e req.term).1
  by_cases hwrite : e.currentTerm < req.term ∨ (e.adoptTerm req.term).grants req = true
  · rcases h with hnode | hsent
    · have hset : (e.handleVoteRequest req now rnd).node.answers =
          e.answers.set (e.adoptTerm req.term).nextWrite (req,⟨(e.adoptTerm req.term).currentTerm,
            (e.adoptTerm req.term).grants req,e.nodeId⟩) := by
        simp only [handleVoteRequest,hwrite,if_true,hanswers]
      exact promised_set hset hnode
    · simp [handleVoteRequest,hwrite] at hsent
  · have hdenied : (e.adoptTerm req.term).grants req = false :=
      eq_false_of_ne_true fun hgrants => hwrite (Or.inr hgrants)
    simp only [handleVoteRequest,hwrite,if_false] at h
    refine Or.inl (grants_of_silent ?_ ?_ t x h)
    · simp only [castVote,hdenied,Bool.false_eq_true,if_false,hanswers]
    · simp [ElectionMessage.grant?,hdenied]

theorem handleVoteRequest_node (e : MasterElection) (req : VoteRequest) (now rnd : ℚ) :
    (e.handleVoteRequest req now rnd).node.currentTerm = (e.adoptTerm req.term).currentTerm ∧
      (e.handleVoteRequest req now rnd).node.votedFor =
        if (e.adoptTerm req.term).grants req then some req.candidateId
        else (e.adoptTerm req.term).votedFor := by
  simp only [handleVoteRequest,castVote]
  split_ifs <;> exact ⟨rfl,rfl⟩

theorem handleVoteRequest_vote (e : MasterElection) (req : VoteRequest) (now rnd : ℚ) :
    VoteStep e (.voteRequest req now rnd) (e.handleVoteRequest req now rnd) := by
  obtain ⟨hterm,hvote⟩ := handleVoteRequest_node e req now rnd
  have hadopt := (adoptTerm_vote e req.term).2
  by_cases hgrants : (e.adoptTerm req.term).grants req = true
  · obtain ⟨hreq,hfree⟩ := grants_spec hgrants
    rw [if_pos hgrants] at hvote
    refine .casts (y := req.candidateId) ?_ ?_ hvote ?_
    · rw [hterm]
      rcases hadopt with ⟨hsame,-⟩ | ⟨hnew,hlt⟩
      · exact (congrArg currentTerm hsame).ge
      · exact hnew.symm ▸ hlt.le
    · rw [hterm]
      exact fun heq => hfree heq.symm
    · intro t x h
      refine (handleVoteRequest_grants h).imp_right ?_
      rintro ⟨-,rfl,rfl⟩
      exact ⟨hreq.trans hterm.symm,rfl⟩
  · have hnone : ∀ t x, (e.handleVoteRequest req now rnd).Grants t x → e.Promised t x :=
      fun t x h => (handleVoteRequest_grants h).resolve_right fun h => hgrants h.1
    rw [if_neg hgrants] at hvote
    rcases hadopt with ⟨hsame,-⟩ | ⟨hnew,hlt⟩
    · rw [hsame] at hterm hvote
      exact .keeps hterm hvote hnone
    · exact .raises (by rw [hterm,hnew]; exact hlt) hnone

theorem receiveHeartbeat_vote (e : MasterElection) (l : NodeId) (term : ℤ) (now rnd : ℚ) :
    VoteStep e (.heartbeat l term now rnd) (e.receiveHeartbeat l term now rnd) := by
  simp only [receiveHeartbeat]
  split_ifs with hle hstate
  · rcases hle.lt_or_eq with hlt | heq
    · exact .raises hlt (grants_of_silent rfl rfl)
    · exact .clears ⟨heq.symm,hstate⟩ heq.symm (grants_of_silent rfl rfl)
  · rcases hle.lt_or_eq with hlt | heq
    · exact .raises hlt (grants_of_silent rfl rfl)
    · exact .keeps heq.symm rfl (grants_of_silent rfl rfl)
  · exact .keeps rfl rfl (grants_of_silent rfl rfl)

theorem step_vote (hb : e.step ev = some b) : VoteStep e ev b := by
  cases ev with
  | tick now rnd =>
    obtain ⟨-,hb⟩ := Option.ite_none_right_eq_some.mp hb
    exact Option.some.inj hb ▸ electionLoop_vote e _ now rnd
  | resume => exact resumeLoop_vote hb
  | voteResponse resp =>
    cases hloop : e.loop <;> simp only [step,hloop,Option.some.injEq,reduceCtorEq] at hb
    subst hb
    exact handleVoteResponse_vote e _ _ _ _ resp
  | pollFailed =>
    cases hloop : e.loop <;> simp only [step,hloop,Option.some.injEq,reduceCtorEq] at hb
    subst hb
    obtain ⟨hterm,hvote,hanswers,hsent⟩ := pollNext_vote e _ _ _
    exact .keeps hterm hvote (grants_of_silent hanswers hsent)
  | heartbeatSent =>
    cases hloop : e.loop <;> simp only [step,hloop,Option.some.injEq,reduceCtorEq] at hb
    subst hb
    obtain ⟨hterm,hvote,hanswers,hsent⟩ := broadcastNext_vote e _
    exact .keeps hterm hvote (grants_of_silent hanswers hsent)
  | voteRequest req now rnd => exact Option.some.inj hb ▸ handleVoteRequest_vote e req now rnd
  | heartbeat l term now rnd => exact Option.some.inj hb ▸ receiveHeartbeat_vote e l term now rnd
  | writeDone w =>
    obtain ⟨snap,hw,rfl⟩ := step_writeDone hb
    exact .keeps rfl rfl (grants_of_silent rfl rfl)
  | answered w =>
    obtain ⟨req,resp,hw,rfl⟩ := step_answered hb
    refine .keeps rfl rfl ?_
    rintro t x (⟨w',q,resp',hget,hgrant,rfl,rfl⟩ | hsent)
    · simp only [Dict.get?_erase] at hget
      split_ifs at hget
      exact ⟨w',q,resp',hget,hgrant,rfl,rfl⟩
    · obtain ⟨hgrant,hvote⟩ : resp.voteGranted = true ∧ (req.term,req.candidateId) = (t,x) := by
        simpa [ElectionMessage.grant?] using hsent
      obtain ⟨rfl,rfl⟩ := Prod.mk.inj hvote
      exact ⟨w,req,resp,hw,hgrant,rfl,rfl⟩

end MasterElection

namespace Voter

open MasterElection

variable {v u : Voter} {ev : VoterEvent}

def step (v : Voter) : VoterEvent → Option Voter
  | .run ev => (v.node.step ev).map fun b =>
      ⟨b.node,v.answered ++ b.sent.filterMap ElectionMessage.grant?⟩
  | .restart now rnd => some ⟨v.node.restart now rnd,v.answered⟩

def machine : Machine Voter VoterEvent := ⟨step⟩

/-- A vote for `x` in term `t` is answered, or its response waits for the state write. -/
def Granted (v : Voter) (t : ℤ) (x : NodeId) : Prop := (t,x) ∈ v.answered ∨ v.node.Promised t x

def OneVotePerTerm (v : Voter) : Prop :=
  ∀ t x y, (t,x) ∈ v.answered → (t,y) ∈ v.answered → x = y

/-- A block that clears the vote of a term that goes on finds none granted in it, and a restart
finds in the state file the term, and the vote if that is answered. -/
def KeepsVote (v : Voter) : VoterEvent → Prop
  | .run ev => v.node.ClearsVote ev → ∀ x, ¬v.Granted v.node.currentTerm x
  | .restart _ _ => v.node.currentTerm ≤ v.node.storedTerm ∧
      ∀ x, (v.node.currentTerm,x) ∈ v.answered →
        v.node.stateFile.bind ElectionSnapshot.votedFor = some x

/-- Granted votes are of terms gone through, one in each, and that of the current term is the
one the node has in memory. -/
structure Faithful (v : Voter) : Prop where
  term_le : ∀ t x, v.Granted t x → t ≤ v.node.currentTerm
  held : ∀ x, v.Granted v.node.currentTerm x → v.node.votedFor = some x
  one : ∀ t x y, v.Granted t x → v.Granted t y → x = y

theorem Faithful.oneVotePerTerm (h : v.Faithful) : v.OneVotePerTerm :=
  fun t x y hx hy => h.one t x y (Or.inl hx) (Or.inl hy)

theorem granted_create {nodeId : NodeId} {priority : ℤ} {known : List NodeId}
    {up down : Option Hook} {file : Option ElectionSnapshot} {now rnd : ℚ}
    {answered : List (ℤ × NodeId)} {t : ℤ} {x : NodeId} :
    (Voter.mk (.create nodeId priority known up down file now rnd) answered).Granted t x ↔
      (t,x) ∈ answered := by
  refine or_iff_left ?_
  rintro ⟨w,req,resp,hget,-⟩
  simp [create] at hget

theorem Faithful.restart {now rnd : ℚ} (hv : v.Faithful)
    (hterm : v.node.currentTerm ≤ v.node.storedTerm)
    (hvote : ∀ x, (v.node.currentTerm,x) ∈ v.answered →
      v.node.stateFile.bind ElectionSnapshot.votedFor = some x) :
    (Voter.mk (v.node.restart now rnd) v.answered).Faithful := by
  have hstored : (v.node.restart now rnd).currentTerm = v.node.storedTerm := rfl
  constructor
  · intro t x h
    have hle := hv.term_le t x (Or.inl (granted_create.mp h))
    exact hle.trans (hterm.trans hstored.ge)
  · intro x h
    have hanswered : (v.node.storedTerm,x) ∈ v.answered := granted_create.mp h
    have hle := hv.term_le _ x (Or.inl hanswered)
    rw [← le_antisymm hterm hle] at hanswered
    exact hvote x hanswered
  · intro t x y hx hy
    exact hv.one t x y (Or.inl (granted_create.mp hx)) (Or.inl (granted_create.mp hy))

theorem Faithful.run {e : Event} {b : ElectionBlock} (hv : v.Faithful)
    (hb : v.node.step e = some b) (hclear : v.node.ClearsVote e → ∀ x, ¬v.Granted v.node.currentTerm x) :
    v.node.currentTerm ≤ b.node.currentTerm ∧
      (Voter.mk b.node (v.answered ++ b.sent.filterMap ElectionMessage.grant?)).Faithful := by
  set u : Voter := ⟨b.node,v.answered ++ b.sent.filterMap ElectionMessage.grant?⟩ with hu
  have hgrants : ∀ t x, u.Granted t x → v.Granted t x ∨ b.Grants t x := by
    rintro t x (hanswered | hpromised)
    · rcases List.mem_append.mp hanswered with hold | hnew
      · exact Or.inl (Or.inl hold)
      · exact Or.inr (Or.inr hnew)
    · exact Or.inr (Or.inl hpromised)
  have hquiet : (∀ t x, b.Grants t x → v.node.Promised t x) → ∀ t x, u.Granted t x → v.Granted t x :=
    fun h t x hx => (hgrants t x hx).elim id fun hx => Or.inr (h t x hx)
  cases step_vote hb with
  | keeps hterm hvote hnone =>
    have hsub := hquiet hnone
    refine ⟨hterm.ge,⟨fun t x h => (hv.term_le t x (hsub t x h)).trans hterm.ge,fun x h => ?_,
      fun t x y hx hy => hv.one t x y (hsub t x hx) (hsub t y hy)⟩⟩
    have hold := hv.held x (hterm ▸ hsub _ x h)
    exact hvote.trans hold
  | raises hlt hnone =>
    have hsub := hquiet hnone
    refine ⟨hlt.le,⟨fun t x h => (hv.term_le t x (hsub t x h)).trans hlt.le,fun x h => ?_,
      fun t x y hx hy => hv.one t x y (hsub t x hx) (hsub t y hy)⟩⟩
    exact absurd (hv.term_le _ x (hsub _ x h)) (not_le.mpr hlt)
  | clears hclears hterm hnone =>
    have hsub := hquiet hnone
    refine ⟨hterm.ge,⟨fun t x h => (hv.term_le t x (hsub t x h)).trans hterm.ge,fun x h => ?_,
      fun t x y hx hy => hv.one t x y (hsub t x hx) (hsub t y hy)⟩⟩
    exact absurd (hterm ▸ hsub _ x h) (hclear hclears x)
  | @casts y hle hfree hvote hone =>
    have hnew : ∀ t x, u.Granted t x → v.Granted t x ∨ (t = b.node.currentTerm ∧ x = y) :=
      fun t x h => (hgrants t x h).elim Or.inl fun h => (hone t x h).imp_left Or.inr
    -- a vote granted before in the same term is the one in memory
    have hsame : ∀ x, v.Granted b.node.currentTerm x → x = y := by
      intro x hx
      have hterm := le_antisymm (hv.term_le _ x hx) hle
      have hheld := hv.held x (hterm ▸ hx)
      rcases hfree hterm with hnone | hsome
      · simp [hnone] at hheld
      · exact Option.some.inj (hheld.symm.trans hsome)
    refine ⟨hle,⟨fun t x h => ?_,fun x h => ?_,fun t x z hx hz => ?_⟩⟩
    · rcases hnew t x h with hold | ⟨rfl,-⟩
      · exact (hv.term_le t x hold).trans hle
      · exact le_refl _
    · rcases hnew _ x h with hold | ⟨-,rfl⟩
      · exact hsame x hold ▸ hvote
      · exact hvote
    · rcases hnew t x hx with hx | ⟨rfl,rfl⟩ <;> rcases hnew _ z hz with hz | ⟨hz,rfl⟩
      · exact hv.one t x z hx hz
      · exact hsame x (hz ▸ hx)
      · exact (hsame z hz).symm
      · rfl

theorem Faithful.step (hv : v.Faithful) (h : machine.step v ev = some u) (hkeeps : v.KeepsVote ev) :
    v.node.currentTerm ≤ u.node.currentTerm ∧ u.Faithful := by
  cases ev with
  | run e =>
    obtain ⟨b,hb,rfl⟩ := Option.map_eq_some_iff.mp h
    exact hv.run hb hkeeps
  | restart now rnd =>
    obtain rfl := Option.some.inj h
    exact ⟨hkeeps.1,hv.restart hkeeps.1 hkeeps.2⟩

/-- A voter that is set up with a state file, or without one. -/
def start (nodeId : NodeId) (priority : ℤ) (known : List NodeId) (onElected onDemoted : Option Hook)
    (file : Option ElectionSnapshot) (now rnd : ℚ) : Voter :=
  { node := .create nodeId priority known onElected onDemoted file now rnd }

theorem faithful_start (nodeId : NodeId) (priority : ℤ) (known : List NodeId)
    (onElected onDemoted : Option Hook) (file : Option ElectionSnapshot) (now rnd : ℚ) :
    (start nodeId priority known onElected onDemoted file now rnd).Faithful := by
  have hnone : ∀ t x, ¬(start nodeId priority known onElected onDemoted file now rnd).Granted t x := by
    intro t x h
    exact absurd (granted_create.mp h) (List.not_mem_nil)
  exact ⟨fun t x h => absurd h (hnone t x),fun x h => absurd h (hnone _ x),
    fun t x _ h => absurd h (hnone t x)⟩

/-- In every run whose steps keep the vote, the term never decreases and the voter answers at
most one candidate a vote in each term. -/
theorem vote_durability (nodeId : NodeId) (priority : ℤ) (known : List NodeId)
    (onElected onDemoted : Option Hook) (file : Option ElectionSnapshot) (now rnd : ℚ)
    (es : List VoterEvent)
    (h : machine.Along (fun v ev _ => v.KeepsVote ev)
      (start nodeId priority known onElected onDemoted file now rnd) es) :
    machine.Along (fun v _ u => v.node.currentTerm ≤ u.node.currentTerm ∧ u.OneVotePerTerm)
      (start nodeId priority known onElected onDemoted file now rnd) es := by
  have hfaithful := faithful_start nodeId priority known onElected onDemoted file now rnd
  generalize start nodeId priority known onElected onDemoted file now rnd = v at h hfaithful
  induction es generalizing v with
  | nil => trivial
  | cons ev es ih =>
    intro u hu
    obtain ⟨hkeeps,hrest⟩ := h u hu
    obtain ⟨hle,hnext⟩ := hfaithful.step hu hkeeps
    exact ⟨⟨hle,hnext.oneVotePerTerm⟩,ih u hrest hnext⟩

/-- A vote is granted, written, answered and read again by a restart. -/
def votedAndRestarted : List VoterEvent :=
  [.run (.voteRequest ⟨1,"m2",0⟩ 0 0),.run (.writeDone 0),.run (.answered 0),.restart 1 0]

theorem vote_durability_restart :
    machine.Along (fun v _ u => v.node.currentTerm ≤ u.node.currentTerm ∧ u.OneVotePerTerm)
      (start "m1" 0 ["m1","m2","m3"] none none none 0 0) votedAndRestarted := by
  apply vote_durability
  intro v₁ h₁
  refine ⟨False.elim,fun v₂ h₂ => ⟨False.elim,fun v₃ h₃ => ⟨False.elim,fun v₄ h₄ => ⟨?_,trivial⟩⟩⟩⟩
  have hall : (machine.exec (start "m1" 0 ["m1","m2","m3"] none none none 0 0)
      (votedAndRestarted.take 3)).all (fun v => decide (v.node.currentTerm ≤ v.node.storedTerm ∧
        ∀ p ∈ v.answered, v.node.stateFile.bind ElectionSnapshot.votedFor = some p.2)) = true := by
    decide +kernel
  have hexec : machine.exec (start "m1" 0 ["m1","m2","m3"] none none none 0 0)
      (votedAndRestarted.take 3) = some v₃ := by
    simp only [votedAndRestarted,List.take,Machine.exec,h₁,h₂,h₃,Option.bind_some]
  rw [hexec] at hall
  obtain ⟨hterm,hvotes⟩ := of_decide_eq_true hall
  exact ⟨hterm,fun x hx => hvotes _ hx⟩

/-- The write of a vote ends, the vote is answered, and the write of the term before it ends
last. -/
def lateWrite : List VoterEvent :=
  [.run (.heartbeat "m2" 1 0 0),.run (.voteRequest ⟨1,"m2",0⟩ 1 0),.run (.writeDone 1),
    .run (.answered 1),.run (.writeDone 0),.restart 2 0,.run (.voteRequest ⟨1,"m3",0⟩ 3 0),
    .run (.writeDone 0)]

theorem late_write_loses_vote : ¬∀ (nodeId : NodeId) (priority : ℤ) (known : List NodeId)
    (onElected onDemoted : Option Hook) (file : Option ElectionSnapshot) (now rnd : ℚ)
    (es : List VoterEvent),
    machine.Along (fun v _ u => v.node.currentTerm ≤ u.node.currentTerm ∧ u.OneVotePerTerm)
      (start nodeId priority known onElected onDemoted file now rnd) es := by
  intro h
  have hexec : (machine.exec (start "m1" 0 ["m1","m2","m3"] none none none 0 0) lateWrite).any
      (fun v => (machine.step v (.run (.answered 0))).any fun u =>
        decide ((1,"m2") ∈ u.answered ∧ (1,"m3") ∈ u.answered)) = true := by
    decide +kernel
  obtain ⟨v,hv,hexec⟩ := (Option.any_eq_true _ _).mp hexec
  obtain ⟨u,hu,hexec⟩ := (Option.any_eq_true _ _).mp hexec
  obtain ⟨hfirst,hsecond⟩ := of_decide_eq_true hexec
  have hlast := (h _ _ _ _ _ _ _ _ (lateWrite ++ [.run (.answered 0)])).last hv hu
  exact absurd (hlast.2 1 "m2" "m3" hfirst hsecond) (by decide)

end Voter
end FusionMultiNodes

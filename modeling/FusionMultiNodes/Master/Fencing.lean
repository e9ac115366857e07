import FusionMultiNodes.Agent.NodeAgent
import FusionMultiNodes.Election.Cluster
import FusionMultiNodes.Election.Tokens
import FusionMultiNodes.Master.Leadership

/-! Masters that elect their leader and an agent that gets requests from each of them. Every
request carries the token 0, so that the agent cannot tell the leaders apart. -/
namespace FusionMultiNodes

/-- A posted request, with its sender and the term of the last election the sender had won. -/
structure Posted where
  sender : NodeId
  term : Option ℤ
  request : ExecuteRequest
  deriving DecidableEq

/-- The masters, one agent, the packets of the elections, and three history variables: the
elections won, the last one first, the requests posted, and those the agent has accepted. -/
structure HaCluster where
  members : Finset NodeId
  masters : NodeId → ClusterMaster
  agent : NodeAgent
  packets : List Packet
  wins : List (NodeId × ℤ)
  posts : List Posted
  accepted : List Posted

inductive HaEvent
  | master (n : NodeId) (ev : MasterEvent)
  /-- The `i`-th request posted reaches the agent, whose sandbox gate gives a verdict on it. -/
  | execute (i : ℕ) (gate : Option String)
  | taskEnds (taskId : String)
  | agentStarts

/-- The term of an election that is won between two states of a master. -/
def ClusterMaster.wonTerm (m m' : ClusterMaster) : Option ℤ :=
  match m.ha.election, m'.ha.election with
  | some e, some e' =>
    if e.state ≠ .leader ∧ e'.state = .leader then some e'.currentTerm else none
  | _, _ => none

def ClusterMaster.sent (m : ClusterMaster) : MasterEvent → List ElectionMessage
  | .election ev => ((m.ha.electionStep ev).map Prod.snd).getD []
  | _ => []

namespace HaCluster

variable (c : HaCluster)

def lastWin (n : NodeId) : Option ℤ := (c.wins.find? fun w => decide (w.1 = n)).map Prod.snd

def Arrives (n : NodeId) : MasterEvent → Prop
  | .election (.voteRequest req _ _) => .request n req ∈ c.packets
  | .election (.heartbeat l t _ _) => .heartbeat n l t ∈ c.packets
  | .election (.voteResponse resp) =>
    ((c.masters n).ha.election.bind fun e => e.loop.pending).any
      (fun r => decide (.response r.2 r.1 resp ∈ c.packets)) = true
  | _ => True

instance (n : NodeId) (ev : MasterEvent) : Decidable (c.Arrives n ev) := by
  unfold Arrives
  split <;> infer_instance

def update (n : NodeId) (ev : MasterEvent) (m : ClusterMaster) : HaCluster :=
  { c with
    masters := Function.update c.masters n m
    packets := c.packets ++ ((c.masters n).sent ev).map (ElectionMessage.packet n)
    wins := ((c.masters n).wonTerm m).toList.map (fun t => (n,t)) ++ c.wins
    posts := c.posts ++ (m.requests.drop (c.masters n).requests.length).map fun q =>
      ⟨n,c.lastWin n,q⟩ }

def deliver (p : Posted) (gate : Option String) : HaCluster :=
  let r := c.agent.executeTask p.request gate
  { c with
    agent := r.1
    accepted := match r.2 with
      | .ok _ => c.accepted ++ [p]
      | .error _ => c.accepted }

def step : HaEvent → Option HaCluster
  | .master n ev =>
    if n ∈ c.members ∧ c.Arrives n ev then ((c.masters n).step ev).map (c.update n ev) else none
  | .execute i gate =>
    match c.posts[i]? with
    | some p => if p.request.target = c.agent.nodeId then some (c.deliver p gate) else none
    | none => none
  | .taskEnds taskId => some { c with agent := c.agent.finishTask taskId }
  | .agentStarts => some { c with agent := .create c.agent.nodeId c.agent.maxTasks }

def machine : Machine HaCluster HaEvent := ⟨step⟩

structure Initial : Prop where
  created : ∀ n ∈ c.members, ∃ config ha, ha.Configured ∧ c.masters n = .create config ha
  agent : c.agent = .create c.agent.nodeId c.agent.maxTasks
  packets : c.packets = []
  wins : c.wins = []
  posts : c.posts = []
  accepted : c.accepted = []

/-- Request `p` comes from the winner of a term, and `q` from another master that has won an
earlier term and had won no later one when it posted `q`. -/
def Outranks (p q : Posted) : Prop :=
  q.sender ≠ p.sender ∧ ∃ t, p.term = some t ∧ (∃ w ∈ c.wins, w.1 = q.sender ∧ w.2 < t) ∧
    ∀ u ∈ q.term, u < t

/-- The token of each master is raised once for each election it wins, the requests of the
winner of a later term have the greater tokens, and the agent accepts none of an earlier one after
one of a later one. -/
structure Fences (c' : HaCluster) : Prop where
  raises : ∀ n e e', (c.masters n).ha.election = some e → (c'.masters n).ha.election = some e' →
    e.RaisesOnce e'
  ordered : ∀ p ∈ c'.posts, ∀ q ∈ c'.posts, c'.Outranks p q →
    q.request.fencingToken < p.request.fencingToken
  rejects : ∀ p ∈ c.accepted, ∀ q, c'.accepted = c.accepted ++ [q] → ¬c.Outranks p q

/-- No leader ends its polling as the leader, and no master starts with a token it has not
written. -/
def KeepsCount : HaEvent → Prop
  | .master n (.election ev) => ∀ e ∈ (c.masters n).ha.election, ¬e.WinsAgain ev
  | .master n (.restart _ _) => ∀ e ∈ (c.masters n).ha.election,
      (e.stateFile.map ElectionSnapshot.fencingToken).getD 0 = e.fencingToken
  | _ => True

def OneLeaderPosts : Prop := ∀ p ∈ c.posts, ∀ q ∈ c.posts, ¬c.Outranks p q

/-- No master has its callbacks set, so that no request carries a token. -/
structure Tokenless : Prop where
  masters : ∀ n ∈ c.members, (c.masters n).Unhooked
  posts : ∀ p ∈ c.posts, p.request.fencingToken = 0
  accepted : ∀ p ∈ c.accepted, p ∈ c.posts

variable {c} {c' : HaCluster} {n : NodeId}

/-- The token of the election of one master is raised once if it wins, and stays if not. -/
def RaisesToken (m m' : ClusterMaster) : Prop :=
  ∀ e e', m.ha.election = some e → m'.ha.election = some e' → e.RaisesOnce e'

theorem raisesToken_of_ha {m m' : ClusterMaster} (h : m'.ha = m.ha) : RaisesToken m m' := by
  intro e e' he he'
  rw [h,he] at he'
  obtain rfl := Option.some.inj he'
  exact MasterElection.raisesOnce_of_eq rfl (Or.inl rfl)

theorem raisesToken_election_iff {m m' : ClusterMaster} {ev : MasterElection.Event}
    (hu : m.Unhooked) (h : ClusterMaster.machine.step m (.election ev) = some m') :
    RaisesToken m m' ↔ ∀ e ∈ m.ha.election, ¬e.WinsAgain ev := by
  obtain ⟨p,hp,rfl⟩ := ClusterMaster.step_leadership h
  obtain ⟨e,b,he,hb,heq⟩ := hu.ha.electionStep_eq hp
  have hraise := MasterElection.step_raisesOnce_iff hb
  constructor
  · intro hr e₁ he₁
    obtain rfl := Option.some.inj (he.symm.trans he₁)
    exact hraise.mp (hr e b.node he (by rw [heq]))
  · intro hw e₁ e' he₁ he'
    obtain rfl := Option.some.inj (he.symm.trans he₁)
    rw [heq] at he'
    obtain rfl := Option.some.inj he'
    exact hraise.mpr (hw e he)

theorem raisesToken_restart_iff {m m' : ClusterMaster} {now rnd : ℚ}
    (h : ClusterMaster.machine.step m (.restart now rnd) = some m') :
    RaisesToken m m' ↔ ∀ e ∈ m.ha.election,
      (e.stateFile.map ElectionSnapshot.fencingToken).getD 0 = e.fencingToken := by
  have hha : m'.ha = m.ha.reboot now rnd := (ClusterMaster.step_leadership h).ha
  cases he : m.ha.election with
  | none => simp [RaisesToken,he]
  | some e =>
    have hnew : m'.ha.election.map (fun e' => (e'.state,e'.fencingToken)) =
        some (.follower,(e.stateFile.map ElectionSnapshot.fencingToken).getD 0) := by
      simp only [hha,HaState.reboot,he]
      rfl
    obtain ⟨e',he',hpair⟩ := Option.map_eq_some_iff.mp hnew
    obtain ⟨hstate,htoken⟩ := Prod.mk.inj hpair
    simp [RaisesToken,he,he',MasterElection.RaisesOnce,hstate,htoken]

theorem step_master {ev : MasterEvent} (h : machine.step c (.master n ev) = some c') :
    n ∈ c.members ∧ ∃ m, ClusterMaster.machine.step (c.masters n) ev = some m ∧
      c' = c.update n ev m := by
  obtain ⟨⟨hn,-⟩,h⟩ := Option.ite_none_right_eq_some.mp h
  obtain ⟨m,hm,rfl⟩ := Option.map_eq_some_iff.mp h
  exact ⟨hn,m,hm,rfl⟩

theorem step_execute {i : ℕ} {gate : Option String}
    (h : machine.step c (.execute i gate) = some c') : ∃ p ∈ c.posts, c' = c.deliver p gate := by
  simp only [machine,step] at h
  cases hp : c.posts[i]? with
  | none => simp [hp] at h
  | some p =>
    simp only [hp] at h
    obtain ⟨-,h⟩ := Option.ite_none_right_eq_some.mp h
    exact ⟨p,List.mem_of_getElem? hp,(Option.some.inj h).symm⟩

theorem deliver_accepted (c : HaCluster) (p : Posted) (gate : Option String) :
    (c.deliver p gate).accepted = c.accepted ∨ (c.deliver p gate).accepted = c.accepted ++ [p] := by
  simp only [deliver]
  cases (c.agent.executeTask p.request gate).2 with
  | ok taskId => exact Or.inr rfl
  | error e => exact Or.inl rfl

structure Extends (c c' : HaCluster) : Prop where
  wins : ∀ w ∈ c.wins, w ∈ c'.wins
  posts : ∀ p ∈ c.posts, p ∈ c'.posts
  accepted : c'.accepted = c.accepted ∨ ∃ p ∈ c.posts, c'.accepted = c.accepted ++ [p]

theorem step_extends {ev : HaEvent} (h : machine.step c ev = some c') : c.Extends c' := by
  cases ev with
  | master n ev =>
    obtain ⟨-,m,-,rfl⟩ := step_master h
    exact ⟨fun w hw => List.mem_append_right _ hw,fun p hp => List.mem_append_left _ hp,Or.inl rfl⟩
  | execute i gate =>
    obtain ⟨p,hp,rfl⟩ := step_execute h
    refine ⟨fun _ hw => hw,fun _ hp => hp,?_⟩
    exact (deliver_accepted c p gate).imp_right fun ha => ⟨p,hp,ha⟩
  | taskEnds taskId =>
    obtain rfl := Option.some.inj h
    exact ⟨fun _ hw => hw,fun _ hp => hp,Or.inl rfl⟩
  | agentStarts =>
    obtain rfl := Option.some.inj h
    exact ⟨fun _ hw => hw,fun _ hp => hp,Or.inl rfl⟩

theorem Outranks.mono {p q : Posted} (h : c.Outranks p q) (hext : c.Extends c') :
    c'.Outranks p q := by
  obtain ⟨hne,t,ht,⟨w,hw,hsender,hlt⟩,hterm⟩ := h
  exact ⟨hne,t,ht,⟨w,hext.wins w hw,hsender,hlt⟩,hterm⟩

theorem Tokenless.step (hc : c.Tokenless) {ev : HaEvent} (h : machine.step c ev = some c') :
    c'.Tokenless := by
  cases ev with
  | master n ev =>
    obtain ⟨hn,m,hm,rfl⟩ := step_master h
    have hnew : m.Unhooked := (hc.masters n hn).step hm
    refine ⟨fun x hx => ?_,fun p hp => ?_,fun p hp => List.mem_append_left _ (hc.accepted p hp)⟩
    · by_cases hxn : x = n
      · subst hxn
        simpa [update] using hnew
      · simpa [update,hxn] using hc.masters x hx
    · rcases List.mem_append.mp hp with hp | hp
      · exact hc.posts p hp
      · obtain ⟨q,hq,rfl⟩ := List.mem_map.mp hp
        exact hnew.requests q (List.mem_of_mem_drop hq)
  | execute i gate =>
    obtain ⟨p,hp,rfl⟩ := step_execute h
    refine ⟨hc.masters,hc.posts,fun q hq => ?_⟩
    rcases deliver_accepted c p gate with ha | ha
    · exact hc.accepted q (ha ▸ hq)
    · rw [ha] at hq
      rcases List.mem_append.mp hq with hq | hq
      · exact hc.accepted q hq
      · exact List.mem_singleton.mp hq ▸ hp
  | taskEnds taskId =>
    obtain rfl := Option.some.inj h
    exact ⟨hc.masters,hc.posts,hc.accepted⟩
  | agentStarts =>
    obtain rfl := Option.some.inj h
    exact ⟨hc.masters,hc.posts,hc.accepted⟩

theorem Initial.tokenless (hc : c.Initial) : c.Tokenless := by
  refine ⟨fun n hn => ?_,by simp [hc.posts],by simp [hc.accepted]⟩
  obtain ⟨config,ha,hha,hm⟩ := hc.created n hn
  rw [hm]
  exact ClusterMaster.unhooked_create config hha.unhooked

theorem raises_iff (hc : c.Tokenless) {ev : HaEvent} (h : machine.step c ev = some c') :
    (∀ n, RaisesToken (c.masters n) (c'.masters n)) ↔ c.KeepsCount ev := by
  cases ev with
  | master n ev =>
    obtain ⟨hn,m,hm,rfl⟩ := step_master h
    have hone : (∀ x, RaisesToken (c.masters x) ((c.update n ev m).masters x)) ↔
        RaisesToken (c.masters n) m := by
      constructor
      · intro hall
        simpa [update] using hall n
      · intro hr x
        by_cases hx : x = n
        · subst hx
          simpa [update] using hr
        · exact raisesToken_of_ha (by simp [update,hx])
    rw [hone]
    have hstep := ClusterMaster.step_leadership hm
    cases ev with
    | election ev => exact raisesToken_election_iff (hc.masters n hn) hm
    | restart now rnd => exact raisesToken_restart_iff hm
    | _ => exact iff_of_true (raisesToken_of_ha hstep.ha) trivial
  | execute i gate =>
    obtain ⟨p,-,rfl⟩ := step_execute h
    exact iff_of_true (fun n => raisesToken_of_ha rfl) trivial
  | taskEnds taskId =>
    obtain rfl := Option.some.inj h
    exact iff_of_true (fun n => raisesToken_of_ha rfl) trivial
  | agentStarts =>
    obtain rfl := Option.some.inj h
    exact iff_of_true (fun n => raisesToken_of_ha rfl) trivial

theorem ordered_iff (hc : c.Tokenless) : (∀ p ∈ c.posts, ∀ q ∈ c.posts, c.Outranks p q →
    q.request.fencingToken < p.request.fencingToken) ↔ c.OneLeaderPosts := by
  constructor
  · intro hall p hp q hq hrank
    have hlt := hall p hp q hq hrank
    rw [hc.posts p hp] at hlt
    exact Nat.not_lt_zero _ hlt
  · intro hone p hp q hq hrank
    exact absurd hrank (hone p hp q hq)

theorem fences_iff (hc : c.Tokenless) {ev : HaEvent} (h : machine.step c ev = some c') :
    c.Fences c' ↔ c.KeepsCount ev ∧ c'.OneLeaderPosts := by
  have hraise := raises_iff hc h
  have horder := ordered_iff (hc.step h)
  have hext := step_extends h
  constructor
  · intro hf
    exact ⟨hraise.mp hf.raises,horder.mp hf.ordered⟩
  · rintro ⟨hkeeps,hone⟩
    refine ⟨hraise.mpr hkeeps,horder.mpr hone,fun p hp q hq hrank => ?_⟩
    have hqposts : q ∈ c.posts := by
      rcases hext.accepted with ha | ⟨x,hx,ha⟩
      · exact absurd (hq.symm.trans ha) (by simp)
      · have hqx : q = x := by simpa using hq.symm.trans ha
        exact hqx ▸ hx
    exact hone p (hext.posts p (hc.accepted p hp)) q (hext.posts q hqposts) (hrank.mono hext)

/-- The tokens tell the leaders apart along a run exactly as long as there is nothing to tell:
no two masters have posted requests as winners of two terms, no leader ends its polling as the
leader, and no master starts with a token it has not written. -/
theorem fencing_iff (hc : c.Initial) (es : List HaEvent) :
    machine.Along (fun c _ c' => c.Fences c') c es ↔
      machine.Along (fun c ev c' => c.KeepsCount ev ∧ c'.OneLeaderPosts) c es :=
  Machine.along_congr_of_invariant (fun _ _ _ hI h => fences_iff hI h)
    (fun _ _ _ hI h _ => hI.step h) hc.tokenless es

/-- Two masters with an election between them, and an agent. -/
def twoMasters : HaCluster where
  members := {"m1","m2"}
  masters := fun n => .create ClusterMaster.defaultConfig (HaState.create.setupElection n 10
    [if n = "m1" then "m2" else "m1"] none 0 0)
  agent := .create "n1" 4
  packets := []
  wins := []
  posts := []
  accepted := []

theorem twoMasters_initial : twoMasters.Initial :=
  ⟨fun _ _ => ⟨_,_,.election _ _ _ _ _ _,rfl⟩,rfl,rfl,rfl,rfl,rfl⟩

/-- Candidate `n` gets the vote of `p` in the given term. The writes have the numbers `w`, and
`v` at the peer. -/
def winRun (n p : NodeId) (term : ℤ) (now : ℚ) (w v : ℕ) : List HaEvent :=
  [.master n (.election (.tick now 0)),.master n (.election (.writeDone w)),
    .master n (.election .resume),
    .master p (.election (.voteRequest ⟨term,n,10⟩ now 0)),.master p (.election (.writeDone v)),
    .master p (.election (.answered v)),
    .master n (.election (.voteResponse ⟨term,true,p⟩))]

/-- Master `n` gets a task and posts it to the agent. -/
def postRun (n : NodeId) (t : TaskId) : List HaEvent :=
  (ClusterMaster.assignedRun.map fun
    | .submit _ => .master n (.submit (ClusterMaster.plainTask t))
    | ev => .master n ev) ++ [.master n (.resume 2 1),.master n (.resume 2 1)]

/-- Master `m1` wins term 1 and posts a task, master `m2` wins term 2 and posts one, and the
agent gets that of `m2` first. -/
def handoverRun : List HaEvent :=
  winRun "m1" "m2" 1 6 0 0 ++ postRun "m1" "t1" ++ winRun "m2" "m1" 2 12 1 2 ++
    postRun "m2" "t2" ++ [.execute 1 none,.execute 0 none]

theorem fencing_iff_twoMasters :
    machine.Along (fun c _ c' => c.Fences c') twoMasters (winRun "m1" "m2" 1 6 0 0) ↔
      machine.Along (fun c ev c' => c.KeepsCount ev ∧ c'.OneLeaderPosts) twoMasters
        (winRun "m1" "m2" 1 6 0 0) :=
  fencing_iff twoMasters_initial _

def taskPost (n : NodeId) (term : ℤ) (t : TaskId) : Posted :=
  ⟨n,some term,"n1",t,"inference","",0,"master"⟩

/-- The agent runs the task of the winner of term 2 and then that of the winner of term 1. -/
theorem stale_leader_accepted :
    ¬machine.Along (fun c _ c' => c.Fences c') twoMasters handoverRun ∧
      ∃ c, machine.exec twoMasters handoverRun = some c ∧
        c.accepted = [taskPost "m2" 2 "t2",taskPost "m1" 1 "t1"] ∧
        c.Outranks (taskPost "m2" 2 "t2") (taskPost "m1" 1 "t1") := by
  have hexec : (machine.exec twoMasters handoverRun.dropLast).any (fun c =>
      decide (c.wins = [("m2",2),("m1",1)] ∧ c.accepted = [taskPost "m2" 2 "t2"]) &&
      (machine.step c (.execute 0 none)).any fun c' => decide
        (c'.accepted = c.accepted ++ [taskPost "m1" 1 "t1"])) = true := by
    decide +kernel
  obtain ⟨c,hc,hs⟩ := (Option.any_eq_true _ _).mp hexec
  rw [Bool.and_eq_true,decide_eq_true_eq] at hs
  obtain ⟨⟨hwins,haccepted⟩,hnext⟩ := hs
  obtain ⟨c',hc',hs'⟩ := (Option.any_eq_true _ _).mp hnext
  have haccepted' := of_decide_eq_true hs'
  have hrank : c.Outranks (taskPost "m2" 2 "t2") (taskPost "m1" 1 "t1") :=
    ⟨by decide,2,rfl,⟨("m1",1),by simp [hwins],rfl,by decide⟩,by simp [taskPost]⟩
  have hrun : handoverRun = handoverRun.dropLast ++ [.execute 0 none] := rfl
  rw [hrun]
  constructor
  · intro halong
    exact (halong.last hc hc').rejects _ (by simp [haccepted]) _ haccepted' hrank
  · have hrank' : c'.Outranks (taskPost "m2" 2 "t2") (taskPost "m1" 1 "t1") :=
      hrank.mono (step_extends hc')
    exact ⟨c',Machine.exec_concat hc hc',by simp [haccepted',haccepted],hrank'⟩

end HaCluster
end FusionMultiNodes

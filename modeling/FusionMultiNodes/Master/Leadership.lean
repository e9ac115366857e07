import FusionMultiNodes.Election.Frame
import FusionMultiNodes.Master.Requests

/-! The leadership of a master and that of its election: `setup_election` sets two attributes
the election never reads, so the callbacks that would keep them equal are never called. -/
namespace FusionMultiNodes
namespace HaState

/-- The election has no callbacks, and the flag and the token are those of a new master. -/
structure Unhooked (h : HaState) : Prop where
  isLeader : h.isLeader = true
  token : h.fencingToken = 0
  hooks : ∀ e, h.election = some e → e.onElectedHook = none ∧ e.onDemotedHook = none
  elected : ∀ e, h.election = some e → e.state = .leader → 0 < e.fencingToken

variable {h h' : HaState}

theorem unhooked_create : create.Unhooked :=
  ⟨rfl,rfl,fun e he => by simp [create] at he,fun e he => by simp [create] at he⟩

/-- `setup_election` leaves the callbacks the election reads unset. -/
theorem Unhooked.setupElection (hh : h.Unhooked) (nodeId : NodeId) (priority : ℤ)
    (knownNodes : List NodeId) (stateFile : Option ElectionSnapshot) (now rnd : ℚ) :
    (h.setupElection nodeId priority knownNodes stateFile now rnd).Unhooked := by
  refine ⟨hh.isLeader,hh.token,fun e he => ?_,fun e he hl => ?_⟩
  · obtain rfl := Option.some.inj he
    exact ⟨rfl,rfl⟩
  · obtain rfl := Option.some.inj he
    exact absurd hl (by simp [MasterElection.create])

theorem Unhooked.setupActiveActive (hh : h.Unhooked) (nodeId : NodeId) :
    (h.setupActiveActive nodeId).Unhooked :=
  ⟨hh.isLeader,hh.token,hh.hooks,hh.elected⟩

theorem reboot_site (h : HaState) (now rnd : ℚ) :
    (h.reboot now rnd).haMode = h.haMode ∧ (h.reboot now rnd).haNodeId = h.haNodeId := by
  unfold HaState.reboot
  split <;> exact ⟨rfl,rfl⟩

theorem unhooked_reboot (h : HaState) (now rnd : ℚ) : (h.reboot now rnd).Unhooked := by
  have hbase : ({ create with haMode := h.haMode, haNodeId := h.haNodeId } : HaState).Unhooked :=
    ⟨rfl,rfl,unhooked_create.hooks,unhooked_create.elected⟩
  unfold HaState.reboot
  split
  · exact hbase.setupElection _ _ _ _ now rnd
  · exact hbase

/-- No block of the election calls anything, so the flag and the token stay. -/
theorem Unhooked.electionStep_eq (hh : h.Unhooked) {ev : MasterElection.Event}
    {p : HaState × List ElectionMessage} (hp : h.electionStep ev = some p) :
    ∃ e b, h.election = some e ∧ e.step ev = some b ∧ p.1 = { h with election := some b.node } := by
  obtain ⟨e,he,hmap⟩ := Option.bind_eq_some_iff.mp hp
  obtain ⟨b,hb,rfl⟩ := Option.map_eq_some_iff.mp hmap
  obtain ⟨hup,hdown⟩ := hh.hooks e he
  have hfired : b.fired = [] := by
    have hsub := MasterElection.fired_subset hb
    rw [hup,hdown] at hsub
    exact List.subset_nil.mp hsub
  exact ⟨e,b,he,hb,by rw [hfired]; rfl⟩

theorem Unhooked.electionStep (hh : h.Unhooked) {ev : MasterElection.Event}
    {p : HaState × List ElectionMessage} (hp : h.electionStep ev = some p) : p.1.Unhooked := by
  obtain ⟨e,b,he,hb,heq⟩ := hh.electionStep_eq hp
  rw [heq]
  have hsame := MasterElection.step_same hb
  obtain ⟨hup,hdown⟩ := hh.hooks e he
  refine ⟨hh.isLeader,hh.token,fun e' he' => ?_,fun e' he' hl => ?_⟩
  · obtain rfl := Option.some.inj he'
    exact ⟨hsame.onElectedHook.trans hup,hsame.onDemotedHook.trans hdown⟩
  · obtain rfl := Option.some.inj he'
    rcases hsame.elected hl with hl' | hlt
    · exact lt_of_lt_of_le (hh.elected e he hl') hsame.token
    · exact lt_of_le_of_lt (Nat.zero_le _) hlt

/-- The guards of `assign_task` stop only the tasks of the other one of two active masters. -/
theorem Unhooked.refuses_eq (hh : h.Unhooked) (ownerMaster : NodeId) :
    h.refuses ownerMaster = (decide (h.haMode = .activeActive) && decide (ownerMaster ≠ "") &&
      decide (ownerMaster ≠ h.haNodeId)) := by
  simp [HaState.refuses,hh.isLeader]

end HaState

/-- The ways a master is configured: alone, with an election, or as one of two active masters. -/
inductive HaState.Configured : HaState → Prop
  | single : HaState.create.Configured
  | election (nodeId : NodeId) (priority : ℤ) (knownNodes : List NodeId)
      (stateFile : Option ElectionSnapshot) (now rnd : ℚ) :
      (HaState.create.setupElection nodeId priority knownNodes stateFile now rnd).Configured
  | activeActive (nodeId : NodeId) : (HaState.create.setupActiveActive nodeId).Configured

theorem HaState.Configured.unhooked {h : HaState} (hc : h.Configured) : h.Unhooked := by
  cases hc with
  | single => exact HaState.unhooked_create
  | election => exact HaState.unhooked_create.setupElection _ _ _ _ _ _
  | activeActive => exact HaState.unhooked_create.setupActiveActive _

namespace ClusterMaster

/-- `setup_election` on a running master. -/
def setupElection (m : ClusterMaster) (nodeId : NodeId) (priority : ℤ) (knownNodes : List NodeId)
    (stateFile : Option ElectionSnapshot) (now rnd : ℚ) : ClusterMaster :=
  { m with ha := m.ha.setupElection nodeId priority knownNodes stateFile now rnd }

/-- The master has the leadership and the token of its election. -/
def LeadershipAgrees (m : ClusterMaster) : Prop :=
  ∀ e, m.ha.election = some e →
    (m.ha.isLeader = true ↔ e.state = .leader) ∧ m.ha.fencingToken = e.fencingToken

structure Unhooked (m : ClusterMaster) : Prop where
  ha : m.ha.Unhooked
  requests : ∀ q ∈ m.requests, q.fencingToken = 0

variable {m m₀ m' : ClusterMaster} {ev : MasterEvent}

theorem unhooked_create (config : MasterConfig) {ha : HaState} (hha : ha.Unhooked) :
    (create config ha).Unhooked :=
  ⟨hha,fun _ hq => absurd hq List.not_mem_nil⟩

theorem Posts.unhooked (h : m.Posts m') (hu : m.Unhooked) : m'.Unhooked := by
  obtain ⟨sent,hreq,hsent⟩ := h.requests
  refine ⟨h.ha ▸ hu.ha,fun q hq => ?_⟩
  rw [hreq] at hq
  rcases List.mem_append.mp hq with hq | hq
  · exact hu.requests q hq
  · exact (hsent q hq).trans hu.ha.token

theorem Unhooked.step (hu : m.Unhooked) (h : machine.step m ev = some m') : m'.Unhooked := by
  have hstep := step_leadership h
  cases ev with
  | election e =>
    obtain ⟨p,hp,rfl⟩ := hstep
    exact ⟨hu.ha.electionStep hp,hu.requests⟩
  | restart now rnd => exact Posts.unhooked hstep ⟨HaState.unhooked_reboot m.ha now rnd,hu.requests⟩
  | _ => exact Posts.unhooked hstep hu

theorem Unhooked.site (hu : m.Unhooked) (h : machine.step m ev = some m') :
    m'.ha.haMode = m.ha.haMode ∧ m'.ha.haNodeId = m.ha.haNodeId := by
  have hstep := step_leadership h
  cases ev with
  | election e =>
    obtain ⟨p,hp,rfl⟩ := hstep
    obtain ⟨e,b,-,-,heq⟩ := hu.ha.electionStep_eq hp
    rw [heq]
    exact ⟨rfl,rfl⟩
  | restart now rnd =>
    rw [Posts.ha hstep]
    exact HaState.reboot_site m.ha now rnd
  | _ =>
    rw [Posts.ha hstep]
    exact ⟨rfl,rfl⟩

theorem Unhooked.election_isSome (hu : m.Unhooked) (hm : m.ha.election.isSome = true)
    (h : machine.step m ev = some m') : m'.ha.election.isSome = true := by
  have hstep := step_leadership h
  cases ev with
  | election e =>
    obtain ⟨p,hp,rfl⟩ := hstep
    obtain ⟨e,b,-,-,heq⟩ := hu.ha.electionStep_eq hp
    rw [heq]
    rfl
  | restart now rnd =>
    rw [Posts.ha hstep]
    obtain ⟨e,he⟩ := Option.isSome_iff_exists.mp hm
    simp only [ClusterMaster.reboot,HaState.reboot,he]
    rfl
  | _ => exact (Posts.ha hstep) ▸ hm

/-- Wherever a run of a master with an election ends, its flag says leader, its token is 0 and its
guards let every task pass. The flag is right just where the election is won; the token is then
a different one, so that the two never agree. -/
theorem leadership_never_agrees {config : MasterConfig}
    (h₀ : machine.Reaches Machine.Any (create config HaState.create) m₀)
    {nodeId : NodeId} {priority : ℤ} {knownNodes : List NodeId}
    {stateFile : Option ElectionSnapshot} {now rnd : ℚ}
    (h : machine.Reaches Machine.Any
      (m₀.setupElection nodeId priority knownNodes stateFile now rnd) m) :
    ¬m.LeadershipAgrees ∧ (∀ owner, m.ha.refuses owner = false) ∧
      (∀ q ∈ m.requests, q.fencingToken = 0) ∧
      ∃ e, m.ha.election = some e ∧ ((m.ha.isLeader = true ↔ e.state = .leader) ↔ e.state = .leader) ∧
        (m.ha.fencingToken = e.fencingToken ↔ e.fencingToken = 0) ∧
        (e.state = .leader → e.fencingToken ≠ 0) := by
  obtain ⟨hu₀,hstandby₀⟩ : m₀.Unhooked ∧ m₀.ha.haMode = .standby :=
    h₀.invariant (I := fun m => m.Unhooked ∧ m.ha.haMode = .standby)
      (fun x _ y hx _ hstep => ⟨hx.1.step hstep,(hx.1.site hstep).1.trans hx.2⟩)
      ⟨unhooked_create config HaState.unhooked_create,rfl⟩
  have hsetup : (m₀.setupElection nodeId priority knownNodes stateFile now rnd).Unhooked :=
    ⟨hu₀.ha.setupElection _ _ _ _ _ _,hu₀.requests⟩
  obtain ⟨hu,hstandby,hsome⟩ : m.Unhooked ∧ m.ha.haMode = .standby ∧ m.ha.election.isSome = true :=
    h.invariant (I := fun m => m.Unhooked ∧ m.ha.haMode = .standby ∧ m.ha.election.isSome = true)
      (fun x _ y hx _ hstep => ⟨hx.1.step hstep,(hx.1.site hstep).1.trans hx.2.1,
        hx.1.election_isSome hx.2.2 hstep⟩) ⟨hsetup,hstandby₀,rfl⟩
  obtain ⟨e,he⟩ := Option.isSome_iff_exists.mp hsome
  have hne : e.state = .leader → e.fencingToken ≠ 0 := fun hl =>
    Nat.pos_iff_ne_zero.mp (hu.ha.elected e he hl)
  refine ⟨fun hagree => ?_,fun owner => ?_,hu.requests,e,he,?_,?_,hne⟩
  · obtain ⟨hflag,htoken⟩ := hagree e he
    exact hne (hflag.mp hu.ha.isLeader) (htoken.symm.trans hu.ha.token)
  · simp [hu.ha.refuses_eq,hstandby]
  · simp [hu.ha.isLeader]
  · rw [hu.ha.token]
    exact eq_comm

/-- A master with a peer registers a node and gets a task. -/
def followerRun : List MasterEvent :=
  [.registerNode (worker "n1") 0,.resume 0 0,.submit (plainTask "t1")] ++
    List.replicate 4 (.resume 1 0)

def follower : ClusterMaster :=
  (create defaultConfig HaState.create).setupElection "m1" 10 ["m2"] none 0 0

theorem leadership_never_agrees_follower :
    ∃ m, machine.Reaches Machine.Any follower m ∧ ¬m.LeadershipAgrees ∧ m.ha.isLeader = true ∧
      (m.objects 0).status = .pending := by
  have hexec : (machine.exec follower followerRun).any (fun m =>
      decide (m.ha.isLeader = true ∧ (m.objects 0).status = .pending)) = true := by decide +kernel
  obtain ⟨m,hm,hs⟩ := (Option.any_eq_true _ _).mp hexec
  have hrun := Machine.Reaches.of_exec hm
  obtain ⟨hflag,hs⟩ := of_decide_eq_true hs
  exact ⟨m,hrun,(leadership_never_agrees Machine.Reaches.refl hrun).1,hflag,hs⟩

/-- The master is a follower that takes itself for the leader, and assigns the task. -/
theorem follower_assigns_task :
    ¬(∀ m, machine.Reaches Machine.Any follower m → m.LeadershipAgrees) ∧
      ¬∀ m m' ev e r, machine.Reaches Machine.Any follower m → machine.step m ev = some m' →
        m.ha.election = some e → e.state ≠ .leader → (m.objects r).status = .pending →
        (m'.objects r).status ≠ .running := by
  refine ⟨fun hagree => ?_,fun hpending => ?_⟩
  · have h := hagree follower Machine.Reaches.refl _ rfl
    exact absurd (h.1.mp rfl) (by decide)
  · have hexec : (machine.exec follower followerRun).any (fun m =>
        decide (m.ha.election.any (fun e => decide (e.state ≠ .leader)) = true ∧
          (m.objects 0).status = .pending) &&
        (machine.step m (.resume 1 0)).any fun m' => decide ((m'.objects 0).status = .running)) =
        true := by
      decide +kernel
    obtain ⟨m,hm,hs⟩ := (Option.any_eq_true _ _).mp hexec
    simp only [Bool.and_eq_true,decide_eq_true_eq] at hs
    obtain ⟨⟨he,hs⟩,hnext⟩ := hs
    obtain ⟨e,he,hl⟩ := (Option.any_eq_true _ _).mp he
    obtain ⟨m',hm',hs'⟩ := (Option.any_eq_true _ _).mp hnext
    exact hpending m m' _ e 0 (Machine.Reaches.of_exec hm) hm' he (of_decide_eq_true hl) hs
      (of_decide_eq_true hs')

end ClusterMaster
end FusionMultiNodes

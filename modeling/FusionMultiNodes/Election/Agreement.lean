import FusionMultiNodes.Election.Safety

/-! Election safety of a whole cluster. The packets in flight are tied to the history: a granted
response names a vote that was cast, a heartbeat a term that was won by another node. -/
namespace FusionMultiNodes

theorem MasterElection.ballot_term {e : MasterElection} {ev : MasterElection.Event} {t : ℤ}
    {x : NodeId} (hv : e.ballot ev = some (t,x)) {b : ElectionBlock} (hb : e.step ev = some b) :
    b.node.currentTerm = t := by
  cases ev with
  | tick now rnd =>
    simp only [ballot,Option.ite_none_right_eq_some,Option.some.injEq,Prod.mk.injEq] at hv
    obtain ⟨⟨hidle,hs,ht⟩,rfl,-⟩ := hv
    simp only [step,hidle,if_true,electionLoop,hs,ht,Option.some.injEq] at hb
    subst hb
    rfl
  | voteRequest req now rnd =>
    simp only [ballot,Option.ite_none_right_eq_some,Option.some.injEq,Prod.mk.injEq] at hv
    obtain ⟨hg,rfl,-⟩ := hv
    simp only [step,handleVoteRequest,hg,or_true,if_true,Option.some.injEq] at hb
    subst hb
    exact (castVote_keeps _ req now rnd).2.2.2.2.1
  | _ => simp [ballot] at hv

namespace ElectionCluster

def Cast (c : ElectionCluster) (n : NodeId) (t : ℤ) (x : NodeId) : Prop := (n,t,x) ∈ c.ballots

def Won (c : ElectionCluster) (n : NodeId) (t : ℤ) : Prop := (n,t) ∈ c.elected

def Supports (c : ElectionCluster) (n : NodeId) (t : ℤ) (v : NodeId) : Prop := (v,t,n) ∈ c.ballots

def poll (c : ElectionCluster) : Poll NodeId ℤ := ⟨c.Cast,c.Won⟩

def Truthful (c : ElectionCluster) : Packet → Prop
  | .request _ _ => True
  | .response v req resp =>
    resp.voteGranted = true → resp.voterId = v ∧ c.Cast v req.term req.candidateId
  | .heartbeat p l t => l ≠ p ∧ c.Won l t

structure Safe (c : ElectionCluster) : Prop where
  identity : ∀ n ∈ c.members, (c.nodes n).nodeId = n
  quorum : ∀ n ∈ c.members, c.members.card/2+1 ≤ (c.nodes n).majority
  node : ∀ n ∈ c.members, (c.nodes n).NodeInv (c.Cast n) (c.Won n) (c.Supports n)
  voters : ∀ n t x, c.Cast n t x → n ∈ c.members
  clean : c.poll.Clean
  carried : ∀ n t, c.Won n t → c.poll.Carried c.members (c.members.card/2+1) n t
  truthful : ∀ p ∈ c.packets, c.Truthful p

variable {c d : ElectionCluster} {n : NodeId} {ev : MasterElection.Event} {b : ElectionBlock}

theorem Safe.winner_unique (h : c.Safe) {n m : NodeId} {t : ℤ} (hn : c.Won n t) (hm : c.Won m t) :
    n = m :=
  h.clean.winner_unique (by omega) h.carried hn hm

theorem cast_update : (c.update n ev b).Cast n = (c.nodes n).CastAfter ev (c.Cast n) := by
  funext t x
  simp [Cast,update,MasterElection.CastAfter]

theorem won_update : (c.update n ev b).Won n = (c.nodes n).WonAfter b.node (c.Won n) := by
  funext t
  simp only [Won,update,MasterElection.WonAfter]
  split_ifs with h
  · simp [h.1,h.2]
  · simp only [eq_iff_iff,iff_self_or]
    exact fun h' => absurd ⟨h'.1,h'.2.1⟩ h

theorem cast_update_ne {m : NodeId} (h : m ≠ n) : (c.update n ev b).Cast m = c.Cast m := by
  funext t x
  simp [Cast,update,h.symm]

theorem won_update_ne {m : NodeId} (h : m ≠ n) : (c.update n ev b).Won m = c.Won m := by
  funext t
  simp only [Won,update]
  split_ifs <;> simp [h]

theorem cast_mono (m : NodeId) (t : ℤ) (x : NodeId) (h : c.Cast m t x) :
    (c.update n ev b).Cast m t x :=
  List.mem_append_left _ h

theorem won_mono (m : NodeId) (t : ℤ) (h : c.Won m t) : (c.update n ev b).Won m t := by
  simp only [Won,update]
  split_ifs
  · exact List.mem_append_left _ h
  · exact h

theorem Truthful.mono {p : Packet} (h : c.Truthful p) : (c.update n ev b).Truthful p := by
  cases p with
  | request => trivial
  | response v req resp =>
    intro hg
    obtain ⟨hv,hcast⟩ := h hg
    exact ⟨hv,cast_mono _ _ _ hcast⟩
  | heartbeat p l t => exact ⟨h.1,won_mono _ _ h.2⟩

theorem supports_mono (m : NodeId) (t : ℤ) (v : NodeId) (h : c.Supports m t v) :
    (c.update n ev b).Supports m t v :=
  cast_mono v t m h

theorem cast_of_ne_term (hb : (c.nodes n).step ev = some b) {m : NodeId} {t : ℤ} {x : NodeId}
    (h : (c.update n ev b).Cast m t x) (hne : m ≠ n ∨ t ≠ b.node.currentTerm) : c.Cast m t x := by
  by_cases hm : m = n
  · subst hm
    rw [cast_update] at h
    rcases h with h | h
    · exact h
    · have ht := MasterElection.ballot_term h hb
      simp [ht] at hne
  · rwa [cast_update_ne hm] at h

theorem won_of_ne_term {m : NodeId} {t : ℤ} (h : (c.update n ev b).Won m t)
    (hne : m ≠ n ∨ t ≠ b.node.currentTerm) : c.Won m t := by
  by_cases hm : m = n
  · subst hm
    rw [won_update] at h
    rcases h with h | ⟨-,-,ht⟩
    · exact h
    · simp [ht] at hne
  · rwa [won_update_ne hm] at h

/-- The poll stays clean: what is new is about the current term of the node that moved, and
there its `voted_for` tells. -/
theorem Safe.clean_update (h : c.Safe) (hn : n ∈ c.members) (hb : (c.nodes n).step ev = some b)
    (hcore : b.node.Core ((c.update n ev b).Cast n) ((c.update n ev b).Won n)) :
    (c.update n ev b).poll.Clean := by
  have hid : b.node.nodeId = n := (MasterElection.step_same hb).nodeId.trans (h.identity n hn)
  refine ⟨fun v t x y hx hy hcx hcy => ?_,fun v t x hx hcx hw => ?_⟩
  · by_cases hnew : v = n ∧ t = b.node.currentTerm
    · obtain ⟨rfl,rfl⟩ := hnew
      have h₁ := hcore.other_kept x hcx (hid.symm ▸ hx)
      have h₂ := hcore.other_kept y hcy (hid.symm ▸ hy)
      exact Option.some.inj (h₁.symm.trans h₂)
    · have hne : v ≠ n ∨ t ≠ b.node.currentTerm := not_and_or.mp hnew
      exact h.clean.other_unique v t x y hx hy (cast_of_ne_term hb hcx hne)
        (cast_of_ne_term hb hcy hne)
  · by_cases hnew : v = n ∧ t = b.node.currentTerm
    · obtain ⟨rfl,rfl⟩ := hnew
      have h₁ := hcore.other_kept x hcx (hid.symm ▸ hx)
      have h₂ := hcore.won_kept hw
      exact hx ((Option.some.inj (h₁.symm.trans h₂)).trans hid)
    · have hne : v ≠ n ∨ t ≠ b.node.currentTerm := not_and_or.mp hnew
      exact h.clean.other_loses v t x hx (cast_of_ne_term hb hcx hne) (won_of_ne_term hw hne)

theorem Safe.input (h : c.Safe) (hn : n ∈ c.members) (harr : c.Arrives n ev) :
    (c.nodes n).Input (c.Won n) ((c.update n ev b).Supports n) ev := by
  cases ev with
  | voteResponse resp =>
    intro req p hpend hg
    simp only [Arrives,hpend,Option.any_some,decide_eq_true_eq] at harr
    obtain ⟨hv,hcast⟩ := h.truthful _ harr hg
    have hcand : req.candidateId = n := by
      have hl := (h.node n hn).loop
      cases hloop : (c.nodes n).loop <;> simp only [hloop,ElectionLoop.pending,reduceCtorEq,
        Option.some.injEq,Prod.mk.injEq] at hpend
      rw [hloop] at hl
      exact hpend.1 ▸ hl.1.candidate.trans (h.identity n hn)
    exact supports_mono n req.term resp.voterId (by rw [hv]; exact hcand ▸ hcast)
  | heartbeat l t now rnd =>
    intro hw
    have hp := h.truthful _ harr
    exact hp.1 (h.winner_unique hp.2 hw)
  | _ => trivial

theorem Safe.update (h : c.Safe) (hn : n ∈ c.members) (harr : c.Arrives n ev)
    (hsound : (c.nodes n).Sound ev) (hb : (c.nodes n).step ev = some b) :
    (c.update n ev b).Safe := by
  have hsame := MasterElection.step_same hb
  have hid := h.identity n hn
  have hmono : ∀ t v, c.Supports n t v → (c.update n ev b).Supports n t v := supports_mono n
  have hnode := (h.node n hn).mono hmono
  have hself : ∀ t, (c.nodes n).ballot ev = some (t,(c.nodes n).nodeId) →
      (c.update n ev b).Supports n t (c.nodes n).nodeId := by
    intro t ht
    show (c.update n ev b).Cast (c.nodes n).nodeId t n
    rw [hid] at ht ⊢
    rw [cast_update]
    exact Or.inr ht
  obtain ⟨hinv,hfair,hsent⟩ := MasterElection.step_inv hnode hsound (h.input hn harr) hself hb
  have hcast : (c.update n ev b).Cast n = (c.nodes n).CastAfter ev (c.Cast n) := cast_update
  have hwon : (c.update n ev b).Won n = (c.nodes n).WonAfter b.node (c.Won n) := won_update
  rw [← hcast,← hwon] at hinv
  rw [← hcast] at hsent
  have hvoters : ∀ m t x, (c.update n ev b).Cast m t x → m ∈ c.members := by
    intro m t x hm
    by_cases hmn : m = n
    · exact hmn ▸ hn
    · rw [cast_update_ne hmn] at hm
      exact h.voters m t x hm
  have hcarried : ∀ m t, (c.update n ev b).Won m t →
      (c.update n ev b).poll.Carried c.members (c.members.card/2+1) m t := by
    intro m t ht
    have hold : c.Won m t → (c.update n ev b).poll.Carried c.members (c.members.card/2+1) m t := by
      intro hm
      obtain ⟨Q,hQ,hq,hv⟩ := h.carried m t hm
      exact ⟨Q,hQ,hq,fun v hvQ => cast_mono _ _ _ (hv v hvQ)⟩
    by_cases hmn : m = n
    · subst hmn
      rw [won_update] at ht
      rcases ht with ht | ⟨h₁,h₂,rfl⟩
      · exact hold ht
      · obtain ⟨hq,hv⟩ := hfair h₁ h₂
        exact ⟨b.node.votesReceived,fun v hvQ => hvoters v _ _ (hv v hvQ),
          (h.quorum m hn).trans hq,hv⟩
    · rw [won_update_ne hmn] at ht
      exact hold ht
  refine ⟨fun m hm => ?_,fun m hm => ?_,fun m hm => ?_,hvoters,h.clean_update hn hb hinv.core,
    hcarried,fun p hp => ?_⟩
  · by_cases hmn : m = n
    · subst hmn
      simpa [ElectionCluster.update] using hsame.nodeId.trans hid
    · simpa [ElectionCluster.update,hmn] using h.identity m hm
  · by_cases hmn : m = n
    · subst hmn
      simpa [ElectionCluster.update,MasterElection.majority,hsame.knownNodes] using h.quorum m hn
    · simpa [ElectionCluster.update,hmn] using h.quorum m hm
  · by_cases hmn : m = n
    · subst hmn
      simpa [ElectionCluster.update] using hinv
    · have hkeep : ∀ t v, c.Supports m t v → (c.update n ev b).Supports m t v := supports_mono m
      have hm' := (h.node m hm).mono hkeep
      rw [cast_update_ne hmn,won_update_ne hmn]
      simpa [ElectionCluster.update,hmn] using hm'
  · rcases List.mem_append.mp hp with hp | hp
    · exact Truthful.mono (h.truthful p hp)
    · obtain ⟨msg,hmsg,rfl⟩ := List.mem_map.mp hp
      have hs := hsent msg hmsg
      cases msg with
      | requestVote => trivial
      | answer req resp =>
        intro hg
        obtain ⟨hv,hcast⟩ := hs hg
        exact ⟨hv.trans (hsame.nodeId.trans hid),hcast⟩
      | heartbeat p l t =>
        obtain ⟨hne,rfl,hw⟩ := hs
        exact ⟨fun heq => hne heq.symm,hid.symm ▸ won_mono n t hw⟩

theorem Initial.safe (h : c.Initial) : c.Safe := by
  have hcast : ∀ n t x, ¬c.Cast n t x := fun n t x hc => by simp [Cast,h.ballots] at hc
  have hwon : ∀ n t, ¬c.Won n t := fun n t hw => by simp [Won,h.elected] at hw
  refine ⟨fun n hn => ?_,fun n hn => ?_,fun n hn => ?_,fun n t x hc => absurd hc (hcast n t x),
    ⟨fun v t x _ _ _ hc => absurd hc (hcast v t x),fun v t x _ hc => absurd hc (hcast v t x)⟩,
    fun n t hw => absurd hw (hwon n t),fun p hp => by simp [h.packets] at hp⟩
  all_goals obtain ⟨priority,known,onElected,onDemoted,file,now,rnd,heq,hnodup,hmem⟩ := h.created n hn
  · rw [heq]
    rfl
  · rw [heq]
    have hcard : c.members.card ≤ known.length+1 := by
      rw [← hmem,← List.toFinset_card_of_nodup hnodup]
      exact Finset.card_insert_le n known.toFinset
    simp only [MasterElection.majority,MasterElection.create]
    omega
  · rw [heq]
    refine ⟨⟨fun t x hc => absurd hc (hcast n t x),fun x hc => absurd hc (hcast n _ x),
      fun hs => absurd rfl hs,fun _ => rfl,fun t hw => absurd hw (hwon n t),
      fun hw => absurd hw (hwon n _)⟩,?_,?_⟩
    · exact MasterElection.Leads.of_follower rfl
    · intro w req resp hw
      simp [MasterElection.create] at hw

theorem Safe.step (h : c.Safe) {ev : NodeId × MasterElection.Event}
    (hsound : (c.nodes ev.1).Sound ev.2) (hstep : machine.step c ev = some d) : d.Safe := by
  obtain ⟨hn,harr,b,hb,rfl⟩ := step_eq_some_iff.mp hstep
  exact h.update hn harr hsound hb

/-- At most one node enters the leader state in each term, as long as every heartbeat is sent by
a node that still is leader and no vote is granted while a step down is pending. -/
theorem one_leader_per_term {c₀ : ElectionCluster} (h₀ : c₀.Initial)
    (hrun : machine.Reaches (fun c ev => (c.nodes ev.1).Sound ev.2) c₀ c) {n m : NodeId} {t : ℤ}
    (hn : (n,t) ∈ c.elected) (hm : (m,t) ∈ c.elected) : n = m := by
  have hsafe : c.Safe :=
    hrun.invariant (fun x ev y hx hsound hstep => hx.step hsound hstep) h₀.safe
  exact hsafe.winner_unique hn hm

/-- Three masters of equal priority that have just started. -/
def threeMasters : ElectionCluster where
  members := {"m1","m2","m3"}
  nodes n :=
    .create n 0 (if n = "m1" then ["m2","m3"] else if n = "m2" then ["m1","m3"] else ["m1","m2"])
      none none none 0 0
  packets := []
  elected := []
  ballots := []

theorem threeMasters_initial : threeMasters.Initial := by
  refine ⟨fun n hn => ⟨0,_,none,none,none,0,0,rfl,?_⟩,rfl,rfl,rfl⟩
  simp only [threeMasters,Finset.mem_insert,Finset.mem_singleton] at hn
  rcases hn with rfl | rfl | rfl <;> decide

/-- `m1` wins term 1 with the vote of `m2`. -/
def firstElection : List (NodeId × MasterElection.Event) :=
  [("m1",.tick 6 0),("m1",.writeDone 0),("m1",.resume),
    ("m2",.voteRequest ⟨1,"m1",0⟩ 6 0),("m2",.writeDone 0),("m2",.answered 0),
    ("m1",.voteResponse ⟨1,true,"m2"⟩)]

/-- `m2` and `m3` ask for votes of term 2 while `m1` sends its heartbeats. The vote of `m1` makes
`m3` leader, the heartbeat that `m1` then sends to `m3` already has term 2, `m3` steps down and
forgets its vote, and grants the request of `m2`. -/
def lateHeartbeat : List (NodeId × MasterElection.Event) :=
  [("m1",.writeDone 1),("m1",.resume),
    ("m3",.voteRequest ⟨1,"m1",0⟩ 6 0),("m3",.writeDone 0),("m3",.answered 0),
    ("m1",.voteResponse ⟨1,true,"m3"⟩),("m1",.writeDone 2),("m1",.resume),
    ("m2",.tick 12 0),("m2",.writeDone 1),("m2",.resume),("m2",.pollFailed),
    ("m3",.tick 12 0),("m3",.writeDone 1),("m3",.resume),
    ("m1",.tick 12 0),("m1",.voteRequest ⟨2,"m3",0⟩ 12 0),("m1",.writeDone 3),("m1",.answered 3),
    ("m3",.voteResponse ⟨2,true,"m1"⟩),("m1",.heartbeatSent),("m3",.heartbeat "m1" 2 13 0),
    ("m3",.voteRequest ⟨2,"m2",0⟩ 13 0),("m3",.writeDone 4),("m3",.answered 4),
    ("m2",.voteResponse ⟨2,true,"m3"⟩)]

theorem one_leader_per_term_first_election :
    threeMasters.Initial ∧ ∃ c, ("m1",1) ∈ c.elected ∧
      machine.Reaches (fun c ev => (c.nodes ev.1).Sound ev.2) threeMasters c ∧
      ∀ n m t, (n,t) ∈ c.elected → (m,t) ∈ c.elected → n = m := by
  have hexec : ((machine.restrict fun c ev => (c.nodes ev.1).Sound ev.2).exec threeMasters
      firstElection).map elected = some [("m1",1)] := by decide +kernel
  obtain ⟨c,hc,helected⟩ := Option.map_eq_some_iff.mp hexec
  have hrun := (Machine.Reaches.of_exec hc).of_restrict
  refine ⟨threeMasters_initial,c,by simp [helected],hrun,fun n m t hn hm => ?_⟩
  exact one_leader_per_term threeMasters_initial hrun hn hm

theorem two_leaders_in_one_term :
    ¬∀ c₀ c : ElectionCluster, c₀.Initial → machine.Reaches Machine.Any c₀ c →
      ∀ n m t, (n,t) ∈ c.elected → (m,t) ∈ c.elected → n = m := by
  intro h
  have hexec : (machine.exec threeMasters (firstElection ++ lateHeartbeat)).map elected =
      some [("m1",1),("m3",2),("m2",2)] := by decide +kernel
  obtain ⟨c,hc,helected⟩ := Option.map_eq_some_iff.mp hexec
  have hrun := Machine.Reaches.of_exec hc
  have heq := h threeMasters c threeMasters_initial hrun "m3" "m2" 2 (by simp [helected])
    (by simp [helected])
  exact absurd heq (by decide)

end ElectionCluster
end FusionMultiNodes

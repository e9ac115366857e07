import FusionMultiNodes.Election.LeaderReports
import FusionMultiNodes.Lib.JsonLaws
import FusionMultiNodes.Master.HaState

/-! What masters tell their clients about the leadership: epoch, leader and token. -/
namespace FusionMultiNodes

/-- `hmac.new(secret, msg, "sha256")`, as a term in both. -/
structure LeaderToken where
  secret : String
  message : String
  deriving DecidableEq

namespace HaState

variable (h : HaState)

def leaderEpoch : ℤ := (h.election.map MasterElection.currentTerm).getD 0

def currentLeaderId : NodeId :=
  match h.election.bind MasterElection.leaderId with
  | some l => if l = "" then h.haNodeId else l
  | none => h.haNodeId

def tokenMessage (epoch : ℤ) (leaderId : NodeId) : String :=
  String.ofList (intRepr epoch ++ ':'::leaderId.toList)

def leaderToken (secret : String) : LeaderToken :=
  ⟨secret,tokenMessage h.leaderEpoch h.currentLeaderId⟩

/-- The flag is `FUSION_LEADER_TOKEN_ENFORCE`. -/
def leaderTokenEnforce (enforce : Bool) : Bool := h.election.isSome && enforce

/-- `_check_leader_token` answers 409; `none` is a request without a token. -/
def refusesToken (enforce : Bool) (secret : String) (presented : Option LeaderToken) : Bool :=
  h.leaderTokenEnforce enforce && presented.any fun t => decide (t ≠ h.leaderToken secret)

theorem tokenMessage_inj {t t' : ℤ} {l l' : NodeId} (h : tokenMessage t l = tokenMessage t' l') :
    t = t' ∧ l = l' := by
  have hends : ∀ l : NodeId, Json.EndsNumber (':'::l.toList) :=
    fun l => Json.endsNumber_cons (by decide)
  have hread := congrArg Json.readNumber (String.ofList_injective h)
  rw [Json.readNumber_intRepr t (hends l),Json.readNumber_intRepr t' (hends l')] at hread
  obtain ⟨hterm,hrest⟩ := Prod.mk.inj (Option.some.inj hread)
  exact ⟨Json.int.inj hterm,String.toList_injective (List.cons.inj hrest).2⟩

end HaState

namespace MasterElection

/-- The term of the leader that a block makes contact with: one whose heartbeat it accepts, or the
node itself. -/
def contact (e : MasterElection) (ev : Event) (e' : MasterElection) : Option ℤ :=
  match ev with
  | .heartbeat _ t _ _ => if e.currentTerm ≤ t then some t else none
  | _ => if e.state ≠ .leader ∧ e'.state = .leader then some e'.currentTerm else none

end MasterElection

structure LeaderWatch where
  cluster : ElectionCluster
  /-- History variable: the term in which a master was last in contact with a leader. -/
  contacts : NodeId → Option ℤ

inductive LeaderEvent
  | run (n : NodeId) (ev : MasterElection.Event)
  | restart (n : NodeId) (now rnd : ℚ)

namespace LeaderWatch

variable (w : LeaderWatch)

/-- What a master with an election knows about leadership. -/
def ha (n : NodeId) : HaState := { HaState.create with election := some (w.cluster.nodes n) }

def step : LeaderEvent → Option LeaderWatch
  | .run n ev => (w.cluster.step (n,ev)).map fun c =>
    ⟨c,Function.update w.contacts n
      (((w.cluster.nodes n).contact ev (c.nodes n)).or (w.contacts n))⟩
  | .restart n now rnd =>
    if n ∈ w.cluster.members then
      some ⟨w.cluster.restart n now rnd,Function.update w.contacts n none⟩
    else none

def machine : Machine LeaderWatch LeaderEvent := ⟨step⟩

structure Initial : Prop where
  cluster : w.cluster.Initial
  contacts : w.contacts = fun _ => none

/-- The master is in contact with a leader of its current term. -/
def InContact (n : NodeId) : Prop :=
  (w.cluster.nodes n).state ≠ .candidate ∧ w.contacts n = some (w.cluster.nodes n).currentTerm

structure Identifies : Prop where
  agree : ∀ a ∈ w.cluster.members, ∀ b ∈ w.cluster.members,
    (w.ha a).leaderEpoch = (w.ha b).leaderEpoch → (w.ha a).currentLeaderId ≠ "" →
      (w.ha b).currentLeaderId ≠ "" → (w.ha a).currentLeaderId = (w.ha b).currentLeaderId
  silent : ∀ a ∈ w.cluster.members, ¬w.InContact a → (w.ha a).currentLeaderId = ""

structure TokensIdentify (w' : LeaderWatch) (secret : String) : Prop where
  monotone : ∀ a ∈ w.cluster.members, (w.ha a).leaderEpoch ≤ (w'.ha a).leaderEpoch
  same : ∀ a ∈ w.cluster.members, ∀ b ∈ w'.cluster.members,
    (w.ha a).leaderToken secret = (w'.ha b).leaderToken secret →
      (w.ha a).leaderEpoch = (w'.ha b).leaderEpoch ∧
      (w.ha a).currentLeaderId = (w'.ha b).currentLeaderId ∧
      ((w.ha a).currentLeaderId ≠ "" → ∀ l,
        (l,(w.ha a).leaderEpoch) ∈ w'.cluster.elected ↔ l = (w.ha a).currentLeaderId)
  refused : ∀ a ∈ w.cluster.members, ∀ b ∈ w'.cluster.members,
    ((w.ha a).leaderEpoch ≠ (w'.ha b).leaderEpoch ∨
      (w.ha a).currentLeaderId ≠ (w'.ha b).currentLeaderId) →
    (w'.ha b).refusesToken true secret (some ((w.ha a).leaderToken secret)) = true

def Renews : LeaderEvent → Prop
  | .run n ev => (w.cluster.nodes n).Sound ev ∧
    ((w.cluster.nodes n).RaisesTerm ev → (w.ha n).currentLeaderId = "")
  | .restart n _ _ => (w.cluster.nodes n).Stored

instance : ∀ ev, Decidable (w.Renews ev)
  | .run n ev => inferInstanceAs (Decidable ((w.cluster.nodes n).Sound ev ∧
    ((w.cluster.nodes n).RaisesTerm ev → (w.ha n).currentLeaderId = "")))
  | .restart n _ _ => inferInstanceAs (Decidable (w.cluster.nodes n).Stored)

variable {w} {w' w₀ : LeaderWatch} {n l : NodeId} {e : LeaderEvent}

theorem currentLeaderId_ne_iff :
    (w.ha n).currentLeaderId ≠ "" ↔ ∃ l, (w.cluster.nodes n).leaderId = some l ∧ l ≠ "" := by
  simp only [HaState.currentLeaderId,ha,HaState.create,Option.bind_some]
  cases (w.cluster.nodes n).leaderId with
  | none => simp
  | some l =>
    by_cases hl : l = ""
    · simp [hl]
    · simp [hl]

theorem currentLeaderId_eq (hl : (w.cluster.nodes n).leaderId = some l) :
    (w.ha n).currentLeaderId = l := by
  simp only [HaState.currentLeaderId,ha,HaState.create,Option.bind_some,hl]
  split_ifs with h
  · exact h.symm
  · rfl

structure Sound (w : LeaderWatch) : Prop where
  safe : w.cluster.Safe
  leads : ∀ n ∈ w.cluster.members, (w.cluster.nodes n).state = .leader →
    (w.cluster.nodes n).leaderId = some n
  reports : ∀ n ∈ w.cluster.members, ∀ l, (w.cluster.nodes n).leaderId = some l → l ≠ "" →
    w.InContact n ∧ w.cluster.Won l (w.cluster.nodes n).currentTerm

theorem Initial.sound (h : w.Initial) : w.Sound := by
  refine ⟨h.cluster.safe,fun n hn hl => ?_,fun n hn l hl => ?_⟩ <;>
    obtain ⟨_,_,_,_,_,_,_,heq,-⟩ := h.cluster.created n hn <;> rw [heq] at hl <;> exact nomatch hl

theorem run_cases {ev : MasterElection.Event} (h : w.step (.run n ev) = some w') :
    ∃ b, n ∈ w.cluster.members ∧ w.cluster.Arrives n ev ∧ (w.cluster.nodes n).step ev = some b ∧
      w' = ⟨w.cluster.update n ev b,Function.update w.contacts n
        (((w.cluster.nodes n).contact ev b.node).or (w.contacts n))⟩ := by
  obtain ⟨c,hc,rfl⟩ := Option.map_eq_some_iff.mp h
  obtain ⟨hn,harr,b,hb,rfl⟩ := ElectionCluster.step_eq_some_iff.mp hc
  refine ⟨b,hn,harr,hb,?_⟩
  simp [ElectionCluster.update]

theorem restart_cases {now rnd : ℚ} (h : w.step (.restart n now rnd) = some w') :
    n ∈ w.cluster.members ∧
      w' = ⟨w.cluster.restart n now rnd,Function.update w.contacts n none⟩ := by
  obtain ⟨hn,h⟩ := Option.ite_none_right_eq_some.mp h
  exact ⟨hn,(Option.some.inj h).symm⟩

theorem contact_of_not_heartbeat {x y : MasterElection} {ev : MasterElection.Event}
    (hev : ev.isHeartbeat = false) :
    x.contact ev y = if x.state ≠ .leader ∧ y.state = .leader then some y.currentTerm else none := by
  cases ev with
  | heartbeat => exact nomatch hev
  | _ => rfl

theorem Sound.reports_run (hs : w.Sound) {ev : MasterElection.Event} {b : ElectionBlock}
    (hn : n ∈ w.cluster.members) (harr : w.cluster.Arrives n ev)
    (hb : (w.cluster.nodes n).step ev = some b)
    (hraises : (w.cluster.nodes n).RaisesTerm ev → (w.ha n).currentLeaderId = "")
    (hl : b.node.leaderId = some l) (hne : l ≠ "") :
    (b.node.state ≠ .candidate ∧ ((w.cluster.nodes n).contact ev b.node).or (w.contacts n) =
      some b.node.currentTerm) ∧ (w.cluster.update n ev b).Won l b.node.currentTerm := by
  cases MasterElection.step_leaderStep hb with
  | keeps hev hterm hleader hstate =>
    obtain ⟨⟨hcand,hcontact⟩,hwon⟩ := hs.reports n hn l (hleader.symm.trans hl) hne
    have hnone : (w.cluster.nodes n).contact ev b.node = none := by
      rw [contact_of_not_heartbeat hev]
      refine if_neg fun ⟨hnot,hled⟩ => ?_
      rcases hstate with h | h
      · exact hnot (h.symm.trans hled)
      · exact nomatch h.symm.trans hled
    refine ⟨⟨?_,?_⟩,?_⟩
    · rcases hstate with h | h
      · exact h ▸ hcand
      · exact fun hc => nomatch h.symm.trans hc
    · rw [hnone,hterm]
      exact hcontact
    · rw [hterm]
      exact ElectionCluster.won_mono l _ hwon
  | raises hr _ hleader _ =>
    exact absurd (hraises hr) (currentLeaderId_ne_iff.mpr ⟨l,hleader.symm.trans hl,hne⟩)
  | wins hev hterm hleader hstate =>
    obtain rfl : n = l := by
      rw [hs.safe.identity n hn] at hleader
      exact Option.some.inj (hleader.symm.trans hl)
    have hcand : b.node.state ≠ .candidate := fun hc => nomatch hstate.symm.trans hc
    rw [contact_of_not_heartbeat hev]
    by_cases hled : (w.cluster.nodes n).state = .leader
    · obtain ⟨⟨-,hcontact⟩,hwon⟩ := hs.reports n hn n (hs.leads n hn hled) hne
      refine ⟨⟨hcand,?_⟩,?_⟩
      · rw [if_neg fun h => h.1 hled,hterm]
        exact hcontact
      · rw [hterm]
        exact ElectionCluster.won_mono n _ hwon
    · refine ⟨⟨hcand,?_⟩,?_⟩
      · rw [if_pos ⟨hled,hstate⟩]
        rfl
      · rw [ElectionCluster.won_update]
        exact .inr ⟨hled,hstate,rfl⟩
  | @hears l' t now rnd hev hle hterm hleader hstate =>
    subst hev
    obtain rfl : l' = l := Option.some.inj (hleader.symm.trans hl)
    have hwon := (hs.safe.truthful _ harr).2
    refine ⟨⟨fun hc => (nomatch hstate.symm.trans hc),?_⟩,?_⟩
    · simp [MasterElection.contact,hle,hterm]
    · rw [hterm]
      exact ElectionCluster.won_mono l' t hwon
  | @ignores l' t now rnd hev hlt heq =>
    subst hev
    rw [heq] at hl ⊢
    obtain ⟨⟨hcand,hcontact⟩,hwon⟩ := hs.reports n hn l hl hne
    refine ⟨⟨hcand,?_⟩,ElectionCluster.won_mono l _ hwon⟩
    simp [MasterElection.contact,not_le.mpr hlt,hcontact]

theorem Sound.run (hs : w.Sound) {ev : MasterElection.Event} (h : w.step (.run n ev) = some w')
    (he : w.Renews (.run n ev)) : w'.Sound := by
  obtain ⟨b,hn,harr,hb,rfl⟩ := run_cases h
  refine ⟨hs.safe.update hn harr he.1 hb,fun m hm hled => ?_,fun m hm l hl hne => ?_⟩
  · by_cases hmn : m = n
    · subst hmn
      simp only [ElectionCluster.update,Function.update_self] at hled ⊢
      cases MasterElection.step_leaderStep hb with
      | keeps _ _ hleader hstate =>
        rcases hstate with h | h
        · exact hleader.trans (hs.leads m hn (h.symm.trans hled))
        · cases h.symm.trans hled
      | raises _ _ hleader hstate => exact hleader.trans (hs.leads m hn (hstate hled))
      | wins _ _ hleader _ => exact hleader.trans (congrArg some (hs.safe.identity m hn))
      | hears _ _ _ _ hstate => cases hstate.symm.trans hled
      | ignores _ _ heq =>
        rw [heq] at hled ⊢
        exact hs.leads m hn hled
    · simp only [ElectionCluster.update,Function.update_of_ne hmn] at hled ⊢
      exact hs.leads m hm hled
  · by_cases hmn : m = n
    · subst hmn
      simp only [ElectionCluster.update,Function.update_self] at hl
      obtain ⟨⟨hcand,hcontact⟩,hwon⟩ := hs.reports_run hn harr hb he.2 hl hne
      simp only [InContact,ElectionCluster.update,Function.update_self]
      exact ⟨⟨hcand,hcontact⟩,hwon⟩
    · simp only [ElectionCluster.update,Function.update_of_ne hmn] at hl
      obtain ⟨hcontact,hwon⟩ := hs.reports m hm l hl hne
      simp only [InContact,ElectionCluster.update,Function.update_of_ne hmn]
      exact ⟨hcontact,ElectionCluster.won_mono l _ hwon⟩

theorem Sound.restart (hs : w.Sound) {now rnd : ℚ} (h : w.step (.restart n now rnd) = some w')
    (he : w.Renews (.restart n now rnd)) : w'.Sound := by
  obtain ⟨-,rfl⟩ := restart_cases h
  refine ⟨hs.safe.restart he now rnd,fun m hm hled => ?_,fun m hm l hl hne => ?_⟩
  · by_cases hmn : m = n
    · subst hmn
      simp only [ElectionCluster.restart,Function.update_self] at hled
      cases hled
    · simp only [ElectionCluster.restart,Function.update_of_ne hmn] at hled ⊢
      exact hs.leads m hm hled
  · by_cases hmn : m = n
    · subst hmn
      simp only [ElectionCluster.restart,Function.update_self] at hl
      cases hl
    · simp only [ElectionCluster.restart,Function.update_of_ne hmn] at hl
      obtain ⟨hcontact,hwon⟩ := hs.reports m hm l hl hne
      simp only [InContact,ElectionCluster.restart,Function.update_of_ne hmn]
      exact ⟨hcontact,hwon⟩

theorem Sound.step (hs : w.Sound) (h : w.step e = some w') (he : w.Renews e) : w'.Sound := by
  cases e with
  | run n ev => exact hs.run h he
  | restart n now rnd => exact hs.restart h he

theorem Sound.identifies (hs : w.Sound) : w.Identifies := by
  constructor
  · intro a ha b hb hepoch hida hidb
    obtain ⟨la,hla,hnea⟩ := currentLeaderId_ne_iff.mp hida
    obtain ⟨lb,hlb,hneb⟩ := currentLeaderId_ne_iff.mp hidb
    have hwona := (hs.reports a ha la hla hnea).2
    have hwonb := (hs.reports b hb lb hlb hneb).2
    have hterm : (w.cluster.nodes a).currentTerm = (w.cluster.nodes b).currentTerm := hepoch
    rw [hterm] at hwona
    rw [currentLeaderId_eq hla,currentLeaderId_eq hlb]
    exact hs.safe.winner_unique hwona hwonb
  · intro a ha hcontact
    by_contra hid
    obtain ⟨l,hl,hne⟩ := currentLeaderId_ne_iff.mp hid
    exact hcontact (hs.reports a ha l hl hne).1

def Later (w w' : LeaderWatch) : Prop :=
  w'.cluster.members = w.cluster.members ∧
    ∀ n, (w.cluster.nodes n).currentTerm ≤ (w'.cluster.nodes n).currentTerm

theorem step_later (h : w.step e = some w') (he : w.Renews e) : w.Later w' := by
  cases e with
  | run n ev =>
    obtain ⟨b,-,-,hb,rfl⟩ := run_cases h
    refine ⟨rfl,fun m => ?_⟩
    by_cases hmn : m = n
    · subst hmn
      simp only [ElectionCluster.update,Function.update_self]
      exact (MasterElection.step_leaderStep hb).term_le
    · simp only [ElectionCluster.update,Function.update_of_ne hmn]
      exact le_refl _
  | restart n now rnd =>
    obtain ⟨-,rfl⟩ := restart_cases h
    refine ⟨rfl,fun m => ?_⟩
    by_cases hmn : m = n
    · subst hmn
      simp only [ElectionCluster.restart,Function.update_self]
      exact he.1.ge
    · simp only [ElectionCluster.restart,Function.update_of_ne hmn]
      exact le_refl _

theorem Sound.tokensIdentify (hs : w'.Sound) (hlater : w.Later w') (secret : String) :
    w.TokensIdentify w' secret := by
  obtain ⟨hmembers,hterm⟩ := hlater
  have hsame : ∀ a b, (w.ha a).leaderToken secret = (w'.ha b).leaderToken secret →
      (w.ha a).leaderEpoch = (w'.ha b).leaderEpoch ∧
        (w.ha a).currentLeaderId = (w'.ha b).currentLeaderId := fun a b h =>
    HaState.tokenMessage_inj (LeaderToken.mk.inj h).2
  refine ⟨fun a _ => hterm a,fun a _ b hb h => ?_,fun a _ b _ hdiffers => ?_⟩
  · obtain ⟨hepoch,hid⟩ := hsame a b h
    refine ⟨hepoch,hid,fun hne l => ?_⟩
    rw [hid] at hne ⊢
    rw [hepoch]
    obtain ⟨lb,hlb,hneb⟩ := currentLeaderId_ne_iff.mp hne
    rw [currentLeaderId_eq hlb]
    have hwon := (hs.reports b hb lb hlb hneb).2
    constructor
    · exact fun hl => hs.safe.winner_unique hl hwon
    · rintro rfl
      exact hwon
  · have htoken : (w.ha a).leaderToken secret ≠ (w'.ha b).leaderToken secret := fun h => by
      obtain ⟨hepoch,hid⟩ := hsame a b h
      exact hdiffers.elim (absurd hepoch) (absurd hid)
    exact decide_eq_true htoken

/-- In every state of a run, epochs and ids identify who leads, and no token outlives a change, as
long as the terms are raised of masters only that report no leader. -/
theorem leader_token_identifies (h₀ : w₀.Initial) (secret : String)
    (h : machine.Reaches (fun w e => w.Renews e) w₀ w)
    (h' : machine.Reaches (fun w e => w.Renews e) w w') :
    w'.Identifies ∧ w.TokensIdentify w' secret := by
  have hstep : ∀ x e y, x.Sound → x.Renews e → machine.step x e = some y → y.Sound :=
    fun x e y hx he hxy => hx.step hxy he
  have hs := h.invariant hstep h₀.sound
  have hs' := h'.invariant hstep hs
  have hlater : w.Later w' := by
    refine h'.relates (I := Sound) (fun x => ⟨rfl,fun n => le_refl _⟩) ?_ hstep
      (fun x e y _ he hxy => step_later hxy he) hs
    exact fun x y z hxy hyz =>
      ⟨hyz.1.trans hxy.1,fun n => (hxy.2 n).trans (hyz.2 n)⟩
  exact ⟨hs'.identifies,hs'.tokensIdentify hlater secret⟩

def started : LeaderWatch := ⟨ElectionCluster.threeMasters,fun _ => none⟩

theorem started_initial : started.Initial := ⟨ElectionCluster.threeMasters_initial,rfl⟩

/-- The first heartbeat of `m1`, which has just won term 1. -/
def firstHeartbeat : List (NodeId × MasterElection.Event) :=
  [("m1",.writeDone 1),("m1",.resume),("m1",.pollFailed),("m1",.writeDone 2),("m1",.resume),
    ("m1",.tick 12 0),("m2",.heartbeat "m1" 1 13 0)]

def ledRun : List LeaderEvent :=
  (ElectionCluster.firstElection ++ firstHeartbeat).map fun p => .run p.1 p.2

theorem leader_token_identifies_led : ∃ w w', machine.Reaches (fun w e => w.Renews e) started w ∧
    machine.Reaches (fun w e => w.Renews e) w w' ∧ (w'.ha "m2").currentLeaderId = "m1" ∧
      w'.Identifies ∧ w.TokensIdentify w' "secret" := by
  have hexec : ((machine.restrict fun w e => w.Renews e).exec started ledRun).map
      (fun w => (w.ha "m2").currentLeaderId) = some "m1" := by decide +kernel
  obtain ⟨w,hw,hid⟩ := Option.map_eq_some_iff.mp hexec
  have hrun := (Machine.Reaches.of_exec hw).of_restrict
  exact ⟨started,w,.refl,hrun,hid,leader_token_identifies started_initial "secret" .refl hrun⟩

/-- Then `m1` is heard of no more, and `m2` stands for term 2: it reports `m1` for it. -/
theorem candidate_reports_old_leader : ¬∀ (w₀ w w' : LeaderWatch) (secret : String), w₀.Initial →
    machine.Reaches Machine.Any w₀ w → machine.Reaches Machine.Any w w' →
      w'.Identifies ∧ w.TokensIdentify w' secret := by
  intro h
  have hexec : (machine.exec started (ledRun ++ [.run "m2" (.tick 30 0)])).any (fun w =>
      decide ((w.cluster.nodes "m2").state = .candidate ∧ (w.ha "m2").currentLeaderId = "m1" ∧
        "m2" ∈ w.cluster.members)) = true := by decide +kernel
  obtain ⟨w,hw,hs⟩ := (Option.any_eq_true _ _).mp hexec
  obtain ⟨hcand,hid,hmem⟩ := of_decide_eq_true hs
  have hall := h started started w "secret" started_initial .refl (Machine.Reaches.of_exec hw)
  have hnone := hall.1.silent "m2" hmem fun hcontact => hcontact.1 hcand
  exact absurd (hid.symm.trans hnone) (by decide)

end LeaderWatch
end FusionMultiNodes

import FusionMultiNodes.Lib.CompactJson
import FusionMultiNodes.Master.RuleEpochRuns

/-! The relay of confirmations between masters that sync their state, on a network that reads,
replays and makes up requests: what a master holds was confirmed under its own cluster token. -/
namespace FusionMultiNodes

structure Confirm where
  confirmId : String
  nodeId : String
  action : String
  epoch : ℤ
  ts : String
  deriving DecidableEq

namespace Confirm

def payload (c : Confirm) : Json :=
  .obj [("confirm_id",.str c.confirmId),("node_id",.str c.nodeId),("action",.str c.action),
    ("epoch",.int c.epoch),("ts",.str c.ts)]

def record (c : Confirm) (receivedAt : Decimal) : Json :=
  .obj [("confirm_id",.str c.confirmId),("node_id",.str c.nodeId),("action",.str c.action),
    ("epoch",.int c.epoch),("ts",.str c.ts),("received_at",.float receivedAt)]

theorem canonical_inj {c d : Confirm} (h : c.payload.canonical = d.payload.canonical) : c = d := by
  have hsort : ∀ e : Confirm, e.payload.sortKeys =
      .obj [("action",.str e.action),("confirm_id",.str e.confirmId),("epoch",.int e.epoch),
        ("node_id",.str e.nodeId),("ts",.str e.ts)] := by
    intro e
    have hlow : "epoch" ≤ "ts" ∧ "action" ≤ "epoch" ∧ "node_id" ≤ "ts" ∧ "confirm_id" ≤ "epoch" := by
      decide
    have hhigh : ¬"node_id" ≤ "action" ∧ ¬"node_id" ≤ "epoch" ∧ ¬"confirm_id" ≤ "action" := by
      decide
    simp only [payload,Json.sortKeys,Json.sortKeysMembers,Json.sortMembers,
      List.insertionSort_cons,List.insertionSort_nil,List.orderedInsert,hlow,hhigh,if_true,if_false]
  have hsame := Json.sortKeys_of_canonical h
  rw [hsort,hsort] at hsame
  simp only [Json.obj.injEq,List.cons.injEq,Prod.mk.injEq,Json.str.injEq,Json.int.injEq] at hsame
  obtain ⟨⟨-,haction⟩,⟨-,hid⟩,⟨-,hepoch⟩,⟨-,hnode⟩,⟨-,hts⟩,-⟩ := hsame
  cases c
  cases d
  simp_all

end Confirm

/-- HKDF over a cluster token and a label, and HMAC in hexadecimal digits. -/
structure MacScheme (Key : Type) where
  derive : String → String → Key
  mac : Key → Bytes → String

variable {Key : Type}

/-- The MAC of a text under the key for a token and a label. -/
def MacScheme.sign (scheme : MacScheme Key) (token info : String) (text : Bytes) : String :=
  scheme.mac (scheme.derive token info) text

/-- Among the tokens, labels and texts in use no two have the same MAC, and a MAC is digits. -/
structure MacScheme.SoundOn (scheme : MacScheme Key) (used : Set (String × String × Bytes)) :
    Prop where
  separate : Set.InjOn (fun p : String × String × Bytes => scheme.sign p.1 p.2.1 p.2.2) used
  hex : ∀ key text, scheme.mac key text ≠ "" ∧ ∀ c ∈ (scheme.mac key text).toList, c.toNat < 128

def auditChainInfo : String := "fusion-multinode-audit-chain-v1"

def confirmRelayInfo : String := "fusion-multinode-confirm-relay-v1"

/-- `verify_mac` for the MAC that is expected; comparing with other characters than ASCII raises. -/
def verifyMac (expected mac : String) : Option Bool :=
  if mac = "" then some false
  else if mac.toList.all fun c => decide (c.toNat < 128) then some (decide (expected = mac))
  else none

def MacScheme.confirmMac (scheme : MacScheme Key) (token : String) (c : Confirm) : String :=
  scheme.sign token confirmRelayInfo c.payload.canonical

/-- The masters, each with the token it has loaded, and the network: who confirmed what under which
token, the MACs and tokens that got out, and the state syncs under way. -/
structure RelayWorld where
  masters : String → EpochMaster
  tokens : String → String
  posts : List (String × Confirm)
  macs : List String
  leaked : List String
  syncs : List RuleEpochSnapshot

inductive RelayEvent
  /-- `post_confirm` of an agent or a guard with this token. -/
  | post (token : String) (c : Confirm)
  /-- A node with this token signs a record of its audit chain. -/
  | chain (token : String) (text : Bytes)
  | leak (token : String)
  /-- A request for the confirm route of a master, from anywhere. -/
  | deliver (id : String) (c : Confirm) (mac : String) (receivedAt : Decimal) (now : ℚ)
  /-- A master restarts with a new cluster token. -/
  | rotate (id : String) (token : String)
  | push (id : String)
  | sync (id : String) (place : ℕ)
  /-- Anything else of a master. -/
  | other (id : String) (e : EpochEvent)

namespace RelayWorld

def start (tokens : String → String) : RelayWorld :=
  ⟨fun _ => EpochMaster.create none,tokens,[],[],[],[]⟩

variable (scheme : MacScheme Key) (w : RelayWorld)

def setMaster (id : String) (m : EpochMaster) : RelayWorld :=
  { w with masters := Function.update w.masters id m }

def verdict (id : String) (c : Confirm) (mac : String) : Option Bool :=
  verifyMac (scheme.confirmMac (w.tokens id) c) mac

/-- The events of a master that neither come from the confirm route nor bring the state of another. -/
def isOther : EpochEvent → Bool
  | .receiveConfirm .. | .receiveSyncedState _ => false
  | _ => true

def step : RelayEvent → Option RelayWorld
  | .post token c =>
    some { w with posts := (token,c)::w.posts, macs := scheme.confirmMac token c::w.macs }
  | .chain token text =>
    some { w with macs := scheme.sign token auditChainInfo text::w.macs }
  | .leak token => some { w with leaked := token::w.leaked }
  | .deliver id c mac receivedAt now =>
    some (w.setMaster id ((w.masters id).receiveConfirm c.confirmId c.nodeId c.action c.epoch c.ts
      ((w.verdict scheme id c mac).getD false) receivedAt now))
  | .rotate id token =>
    ((w.masters id).step .restart).map fun m =>
      { w.setMaster id m with tokens := Function.update w.tokens id token }
  | .push id => some { w with syncs := w.syncs ++ [(w.masters id).state.buildSnapshot] }
  | .sync id place =>
    w.syncs[place]?.map fun s => w.setMaster id ((w.masters id).receiveSyncedState s)
  | .other id e =>
    if isOther e then ((w.masters id).step e).map fun m => w.setMaster id m else none

def machine : Machine RelayWorld RelayEvent := ⟨step scheme⟩

/-- What is signed and checked is in use, and the network makes up no MAC under a token it does not
know. -/
def Unforged (used : Set (String × String × Bytes)) : RelayEvent → Prop
  | .post token c => (token,confirmRelayInfo,c.payload.canonical) ∈ used
  | .chain token text => (token,auditChainInfo,text) ∈ used
  | .deliver id c mac _ _ =>
    (w.tokens id,confirmRelayInfo,c.payload.canonical) ∈ used ∧
      (mac ∈ w.macs ∨ ∀ token info text, (token,info,text) ∈ used →
        mac = scheme.sign token info text → token ∈ w.leaked)
  | _ => True

/-- The record is of a confirmation that somebody made, or that somebody made up with a token that
had got out. -/
def Authentic (record : Json) : Prop :=
  ∃ token c receivedAt, record = Confirm.record c receivedAt ∧
    ((token,c) ∈ w.posts ∨ token ∈ w.leaked)

end RelayWorld

def AllRecords {α : Type} (P : Json → Prop) (confirms : Dict α Json) : Prop :=
  ∀ p ∈ confirms.entries, P p.2

namespace AllRecords

variable {α : Type} {P Q : Json → Prop} {confirms : Dict α Json}

theorem empty : AllRecords P (∅ : Dict α Json) := fun _ h => nomatch h

theorem mono (h : AllRecords P confirms) (hPQ : ∀ v, P v → Q v) : AllRecords Q confirms :=
  fun p hp => hPQ p.2 (h p hp)

theorem set [DecidableEq α] (h : AllRecords P confirms) (k : α) {v : Json} (hv : P v) :
    AllRecords P (confirms.set k v) := by
  intro p hp
  rcases Dict.mem_set_iff.mp hp with rfl | ⟨hp,-⟩
  · exact hv
  · exact h p hp

theorem trim (h : AllRecords P confirms) (max : ℕ) : AllRecords P (trim max confirms) :=
  fun p hp => h p ((reverse_take_sublist max confirms.entries).subset hp)

theorem mergeConfirms {confirms : Dict (String × String) Json} (h : AllRecords P confirms)
    {raw : Dict String Json} (hraw : AllRecords P raw) :
    AllRecords P (mergeConfirms confirms raw) := by
  unfold FusionMultiNodes.mergeConfirms
  unfold AllRecords at hraw
  generalize raw.entries = l at hraw
  induction l generalizing confirms with
  | nil => exact h
  | cons p l ih =>
    obtain ⟨hp,hl⟩ := List.forall_mem_cons.mp hraw
    refine ih ?_ hl
    unfold mergeConfirm
    split
    · split_ifs
      · exact h.set _ hp
      · exact h
    · exact h

theorem buildSnapshot {s : RuleEpochState} (h : AllRecords P s.confirms) :
    AllRecords P s.buildSnapshot.confirms := by
  have hfold : ∀ (l : List ((String × String) × Json)) (d : Dict String Json),
      (∀ p ∈ l, P p.2) → AllRecords P d →
      AllRecords P (l.foldl (fun d p => d.set (joinKey p.1) p.2) d) := by
    intro l
    induction l with
    | nil => exact fun d _ hd => hd
    | cons p l ih =>
      intro d hl hd
      obtain ⟨hp,hl⟩ := List.forall_mem_cons.mp hl
      exact ih _ hl (hd.set _ hp)
  exact hfold _ ∅ h .empty

end AllRecords

/-- The table after a confirmation: of too many the oldest goes. -/
def keepConfirm (confirms : Dict (String × String) Json) (c : Confirm) (receivedAt : Decimal) :
    Dict (String × String) Json :=
  if maxConfirms < (confirms.set (c.confirmId,c.nodeId) (c.record receivedAt)).entries.length then
    trim ((confirms.set (c.confirmId,c.nodeId) (c.record receivedAt)).entries.length - 1)
      (confirms.set (c.confirmId,c.nodeId) (c.record receivedAt))
  else confirms.set (c.confirmId,c.nodeId) (c.record receivedAt)

theorem AllRecords.keepConfirm {P : Json → Prop} {confirms : Dict (String × String) Json}
    (h : AllRecords P confirms) {c : Confirm} {receivedAt : Decimal} (hc : P (c.record receivedAt)) :
    AllRecords P (keepConfirm confirms c receivedAt) := by
  unfold FusionMultiNodes.keepConfirm
  split_ifs
  · exact (h.set _ hc).trim _
  · exact h.set _ hc

theorem length_keepConfirm {confirms : Dict (String × String) Json}
    (h : confirms.entries.length ≤ maxConfirms) (c : Confirm) (receivedAt : Decimal) :
    (keepConfirm confirms c receivedAt).entries.length ≤ maxConfirms := by
  have hset := EpochMaster.length_set_le confirms (c.confirmId,c.nodeId) (c.record receivedAt)
  unfold keepConfirm
  split_ifs with hmany
  · exact (length_trim _ _).trans (by omega)
  · exact Nat.not_lt.mp hmany

theorem get?_keepConfirm {confirms : Dict (String × String) Json}
    (h : confirms.entries.length ≤ maxConfirms) (c : Confirm) (receivedAt : Decimal) :
    (keepConfirm confirms c receivedAt).get? (c.confirmId,c.nodeId) = some (c.record receivedAt) := by
  unfold keepConfirm
  split_ifs with hmany
  · cases hold : confirms.get? (c.confirmId,c.nodeId) with
    | some v =>
      rw [Dict.length_set_of_some hold] at hmany
      exact absurd hmany (Nat.not_lt.mpr h)
    | none =>
      have hentries : (confirms.set (c.confirmId,c.nodeId) (c.record receivedAt)).entries =
          confirms.entries ++ [((c.confirmId,c.nodeId),c.record receivedAt)] := by
        have hnot : ¬confirms.contains (c.confirmId,c.nodeId) = true := by
          simp [Dict.contains,hold]
        rw [Dict.set,dif_neg hnot]
      rw [Dict.length_set_of_none hold] at hmany ⊢
      rw [Dict.get?_eq_some_iff]
      show _ ∈ (List.take _ (List.reverse _)).reverse
      have hpos : 0 < confirms.entries.length := by
        unfold maxConfirms at hmany
        omega
      obtain ⟨n,hn⟩ := Nat.exists_eq_succ_of_ne_zero hpos.ne'
      rw [hentries,List.reverse_append,Nat.add_sub_cancel,hn,List.mem_reverse]
      exact List.mem_cons_self
  · exact Dict.get?_set_self ..

namespace EpochMaster

variable {P Q : Json → Prop} {m m' : EpochMaster} {e : EpochEvent}

theorem receiveConfirm_verified (m : EpochMaster) (c : Confirm) (receivedAt : Decimal) (now : ℚ) :
    m.receiveConfirm c.confirmId c.nodeId c.action c.epoch c.ts true receivedAt now =
      { m with
        state := ⟨m.state.ruleEpoch,keepConfirm m.state.confirms c receivedAt⟩
      }.markRuleEpochDirty now := rfl

theorem confirms_markRuleEpochDirty (m : EpochMaster) (now : ℚ) :
    (m.markRuleEpochDirty now).state.confirms = m.state.confirms := by
  unfold markRuleEpochDirty
  split_ifs <;> rfl

/-- The records of a master in memory, in its file and in its writes meet a condition, and there
are not too many. -/
structure Holds (P : Json → Prop) (m : EpochMaster) : Prop where
  memory : AllRecords P m.state.confirms
  file : ∀ s, m.file = some s → AllRecords P s.confirms
  writing : ∀ s ∈ m.writing, AllRecords P s.confirms
  bounded : m.state.confirms.entries.length ≤ maxConfirms

theorem Holds.mono (h : m.Holds P) (hPQ : ∀ v, P v → Q v) : m.Holds Q :=
  ⟨h.memory.mono hPQ,fun s hs => (h.file s hs).mono hPQ,fun s hs => (h.writing s hs).mono hPQ,
    h.bounded⟩

theorem holds_create {file : Option RuleEpochSnapshot}
    (h : ∀ s, file = some s → AllRecords P s.confirms) : (create file).Holds P := by
  refine ⟨?_,h,fun s hs => (nomatch hs),?_⟩
  · cases file with
    | none => exact .empty
    | some s => exact (AllRecords.empty.mergeConfirms (h s rfl)).trim _
  · cases file with
    | none => exact Nat.zero_le _
    | some s => exact length_trim ..

/-- A step that leaves the confirmations alone or starts a write of them. -/
theorem Holds.of_writes (h : m.Holds P) (hstate : m'.state.confirms = m.state.confirms)
    (hfile : m'.file = m.file)
    (hwriting : ∀ s ∈ m'.writing, s ∈ m.writing ∨ s.confirms = m.state.buildSnapshot.confirms) :
    m'.Holds P := by
  refine ⟨hstate ▸ h.memory,hfile ▸ h.file,fun s hs => ?_,hstate ▸ h.bounded⟩
  rcases hwriting s hs with hs | hs
  · exact h.writing s hs
  · exact hs ▸ h.memory.buildSnapshot

theorem Holds.persistRuleEpoch (h : m.Holds P) : m.persistRuleEpoch.Holds P := by
  refine h.of_writes rfl rfl fun s hs => ?_
  rcases List.mem_append.mp hs with hs | hs
  · exact Or.inl hs
  · exact Or.inr (List.mem_singleton.mp hs ▸ rfl)

theorem Holds.markRuleEpochDirty (h : m.Holds P) (now : ℚ) : (m.markRuleEpochDirty now).Holds P := by
  unfold EpochMaster.markRuleEpochDirty
  split_ifs
  · exact (h.of_writes rfl rfl fun s hs => Or.inl hs : Holds P { m with lastEpochPersist := now
      }).persistRuleEpoch
  · exact h.of_writes rfl rfl fun s hs => Or.inl hs

theorem Holds.receiveConfirm (h : m.Holds P) {c : Confirm} {verified : Bool} {receivedAt : Decimal}
    (hc : verified = true → P (c.record receivedAt)) (now : ℚ) :
    (m.receiveConfirm c.confirmId c.nodeId c.action c.epoch c.ts verified receivedAt now).Holds P := by
  cases verified with
  | false => exact h
  | true =>
    rw [receiveConfirm_verified]
    have hkept : Holds P { m with
        state := ⟨m.state.ruleEpoch,keepConfirm m.state.confirms c receivedAt⟩ } :=
      ⟨h.memory.keepConfirm (hc rfl),h.file,h.writing,
        length_keepConfirm h.bounded c receivedAt⟩
    exact hkept.markRuleEpochDirty now

theorem Holds.receiveSyncedState (h : m.Holds P) {s : RuleEpochSnapshot}
    (hs : AllRecords P s.confirms) : (m.receiveSyncedState s).Holds P := by
  have hepoch : Holds P (if m.state.ruleEpoch < s.ruleEpoch then
      { m with state := { m.state with ruleEpoch := s.ruleEpoch }, changed := true } else m) := by
    split_ifs
    · exact h.of_writes rfl rfl fun s hs => Or.inl hs
    · exact h
  unfold EpochMaster.receiveSyncedState
  dsimp only
  split_ifs at hepoch ⊢
  any_goals exact hepoch
  all_goals
    refine Holds.persistRuleEpoch ⟨?_,h.file,h.writing,length_trim ..⟩
    exact (h.memory.mergeConfirms hs).trim _

/-- The end of a write of the epoch file, whatever becomes of the loop. -/
theorem Holds.landed (h : m.Holds P) {s : RuleEpochSnapshot} {place : ℕ}
    (hplace : m.writing[place]? = some s) (hconfirms : m'.state.confirms = m.state.confirms)
    (hfile : m'.file = some s ∨ m'.file = m.file)
    (hwriting : m'.writing = m.writing.eraseIdx place) : m'.Holds P := by
  refine ⟨hconfirms ▸ h.memory,fun s' hs' => ?_,fun s' hs' => ?_,hconfirms ▸ h.bounded⟩
  · rcases hfile with hfile | hfile
    · rw [hfile] at hs'
      exact Option.some.inj hs' ▸ h.writing s (List.mem_of_getElem? hplace)
    · exact h.file s' (hfile ▸ hs')
  · rw [hwriting] at hs'
    exact h.writing s' (List.mem_of_mem_eraseIdx hs')

theorem Holds.writeEnds (h : m.Holds P) {place : ℕ} {written : Bool}
    (hs : m.step (.writeEnds place written) = some m') : m'.Holds P := by
  simp only [step] at hs
  split at hs
  · cases hs
  · next s hplace =>
    have hfile : (if written then some s else m.file) = some s ∨
        (if written then some s else m.file) = m.file := by
      cases written
      · exact Or.inr rfl
      · exact Or.inl rfl
    generalize (if written then some s else m.file) = file at hs hfile
    split at hs
    · split_ifs at hs <;> obtain rfl := Option.some.inj hs <;>
        exact h.landed hplace rfl hfile rfl
    · obtain rfl := Option.some.inj hs
      exact h.landed hplace rfl hfile rfl

theorem Holds.step_other (h : m.Holds P) (he : RelayWorld.isOther e = true)
    (hs : m.step e = some m') : m'.Holds P := by
  cases e with
  | advanceRuleEpoch refused =>
    cases refused <;> obtain rfl := Option.some.inj hs
    · exact h.of_writes rfl rfl fun s hs => Or.inl hs
    · exact h
  | broadcastEnds now =>
    obtain ⟨-,hs⟩ := Option.ite_none_left_eq_some.mp hs
    obtain rfl := Option.some.inj hs
    have hended : Holds P { m with broadcasting := m.broadcasting - 1 } :=
      h.of_writes rfl rfl fun s hs => Or.inl hs
    exact hended.markRuleEpochDirty now
  | receiveRuleEpoch epoch now =>
    obtain rfl := Option.some.inj hs
    unfold EpochMaster.receiveRuleEpoch
    split_ifs
    · exact h
    · have hraised : Holds P { m with state := { m.state with ruleEpoch := epoch } } :=
        h.of_writes rfl rfl fun s hs => Or.inl hs
      exact hraised.markRuleEpochDirty now
  | receiveConfirm => exact nomatch he
  | receiveSyncedState => exact nomatch he
  | taskStore dirty =>
    obtain rfl := Option.some.inj hs
    exact h.of_writes rfl rfl fun s hs => Or.inl hs
  | loopWakes =>
    simp only [step] at hs
    split at hs
    · split_ifs at hs <;> obtain rfl := Option.some.inj hs <;>
        exact h.of_writes rfl rfl fun s hs => Or.inl hs
    · cases hs
  | tasksSaved dirty now =>
    simp only [step] at hs
    split at hs
    · split_ifs at hs <;> obtain rfl := Option.some.inj hs
      · refine h.of_writes rfl rfl fun s hs => ?_
        rcases List.mem_append.mp hs with hs | hs
        · exact Or.inl hs
        · exact Or.inr (List.mem_singleton.mp hs ▸ rfl)
      · exact h.of_writes rfl rfl fun s hs => Or.inl hs
    · cases hs
  | writeEnds place written => exact h.writeEnds hs
  | stop =>
    obtain rfl := Option.some.inj hs
    exact Holds.persistRuleEpoch (h.of_writes rfl rfl fun s hs => Or.inl hs)
  | restart =>
    obtain rfl := Option.some.inj hs
    exact (holds_create h.file).of_writes rfl rfl fun s hs => Or.inl hs

end EpochMaster

namespace RelayWorld

variable {scheme : MacScheme Key} {used : Set (String × String × Bytes)} {w w' : RelayWorld}

/-- A MAC is of something in use, and under the label of the relay it is of a confirmation that was
made. -/
def Signed (scheme : MacScheme Key) (used : Set (String × String × Bytes)) (w : RelayWorld)
    (mac : String) : Prop :=
  ∃ token info text, (token,info,text) ∈ used ∧ mac = scheme.sign token info text ∧
    (info = confirmRelayInfo → ∃ c, (token,c) ∈ w.posts ∧ text = c.payload.canonical)

structure Inv (scheme : MacScheme Key) (used : Set (String × String × Bytes)) (w : RelayWorld) :
    Prop where
  masters : ∀ id, (w.masters id).Holds w.Authentic
  syncs : ∀ s ∈ w.syncs, AllRecords w.Authentic s.confirms
  macs : ∀ mac ∈ w.macs, w.Signed scheme used mac

theorem inv_start (scheme : MacScheme Key) (used : Set (String × String × Bytes))
    (tokens : String → String) : Inv scheme used (start tokens) :=
  ⟨fun _ => EpochMaster.holds_create fun _ h => (nomatch h),fun _ h => (nomatch h),
    fun _ h => (nomatch h)⟩

theorem Authentic.mono (hposts : ∀ p ∈ w.posts, p ∈ w'.posts)
    (hleaked : ∀ t ∈ w.leaked, t ∈ w'.leaked) (record : Json) (h : w.Authentic record) :
    w'.Authentic record := by
  obtain ⟨token,c,receivedAt,hrecord,hfrom⟩ := h
  exact ⟨token,c,receivedAt,hrecord,hfrom.imp (hposts _) (hleaked _)⟩

theorem Signed.mono (hposts : ∀ p ∈ w.posts, p ∈ w'.posts) {mac : String}
    (h : w.Signed scheme used mac) : w'.Signed scheme used mac := by
  obtain ⟨token,info,text,hused,hmac,hpost⟩ := h
  refine ⟨token,info,text,hused,hmac,fun hinfo => ?_⟩
  obtain ⟨c,hc,htext⟩ := hpost hinfo
  exact ⟨c,hposts _ hc,htext⟩

theorem Inv.learn (h : Inv scheme used w) (hmasters : w'.masters = w.masters)
    (hsyncs : w'.syncs = w.syncs) (hposts : ∀ p ∈ w.posts, p ∈ w'.posts)
    (hleaked : ∀ t ∈ w.leaked, t ∈ w'.leaked)
    (hmacs : ∀ mac ∈ w'.macs, mac ∈ w.macs ∨ w'.Signed scheme used mac) : Inv scheme used w' := by
  have hmono := Authentic.mono hposts hleaked
  refine ⟨fun id => ?_,fun s hs => ?_,fun mac hmac => ?_⟩
  · rw [hmasters]
    exact (h.masters id).mono hmono
  · rw [hsyncs] at hs
    exact (h.syncs s hs).mono hmono
  · rcases hmacs mac hmac with hold | hnew
    · exact (h.macs mac hold).mono hposts
    · exact hnew

theorem Inv.setMaster (h : Inv scheme used w) {id : String} {m : EpochMaster}
    (hm : m.Holds w.Authentic) : Inv scheme used (w.setMaster id m) := by
  refine ⟨fun k => ?_,h.syncs,h.macs⟩
  by_cases hk : k = id
  · subst hk
    show (Function.update w.masters k m k).Holds w.Authentic
    rwa [Function.update_self]
  · show (Function.update w.masters id m k).Holds w.Authentic
    rw [Function.update_of_ne hk]
    exact h.masters k

theorem verifyMac_eq_true {expected mac : String} (h : verifyMac expected mac = some true) :
    expected = mac := by
  unfold verifyMac at h
  split_ifs at h
  · cases h
  · exact of_decide_eq_true (Option.some.inj h)

theorem verdict_confirmMac (sound : scheme.SoundOn used) (w : RelayWorld) (id : String)
    (c : Confirm) : w.verdict scheme id c (scheme.confirmMac (w.tokens id) c) = some true := by
  obtain ⟨hne,hascii⟩ : scheme.confirmMac (w.tokens id) c ≠ "" ∧
      ∀ d ∈ (scheme.confirmMac (w.tokens id) c).toList, d.toNat < 128 := sound.hex _ _
  have hall : ((scheme.confirmMac (w.tokens id) c).toList.all fun c => decide (c.toNat < 128)) = true :=
    List.all_eq_true.mpr fun d hd => decide_eq_true (hascii d hd)
  rw [verdict,verifyMac,if_neg hne,if_pos hall,decide_eq_true rfl]

/-- What a master takes was confirmed under the token it has now: an older token and the MAC of an
audit record do not do. -/
theorem Inv.confirmed (h : Inv scheme used w) (sound : scheme.SoundOn used) {id mac : String}
    {c : Confirm} {receivedAt : Decimal} {now : ℚ}
    (hnet : w.Unforged scheme used (.deliver id c mac receivedAt now))
    (htaken : w.verdict scheme id c mac = some true) :
    (w.tokens id,c) ∈ w.posts ∨ w.tokens id ∈ w.leaked := by
  have hmac : scheme.confirmMac (w.tokens id) c = mac := verifyMac_eq_true htaken
  obtain ⟨hchecked,hseen | hmade⟩ := hnet
  · obtain ⟨token,info,text,hused,hsigned,hpost⟩ := h.macs mac hseen
    have hsame := sound.separate hchecked hused (hmac.trans hsigned)
    simp only [Prod.mk.injEq] at hsame
    obtain ⟨htoken,hinfo,htext⟩ := hsame
    obtain ⟨d,hd,hbytes⟩ := hpost hinfo.symm
    obtain rfl := Confirm.canonical_inj (htext.trans hbytes)
    exact Or.inl (htoken ▸ hd)
  · exact Or.inr (hmade _ _ _ hchecked hmac.symm)

theorem Inv.step (h : Inv scheme used w) (sound : scheme.SoundOn used) {e : RelayEvent}
    (hnet : w.Unforged scheme used e) (hs : w.step scheme e = some w') : Inv scheme used w' := by
  cases e with
  | post token c =>
    obtain rfl := Option.some.inj hs
    refine h.learn rfl rfl (fun p hp => List.mem_cons_of_mem _ hp) (fun t ht => ht) fun mac hmac => ?_
    rcases List.mem_cons.mp hmac with rfl | hmac
    · exact Or.inr ⟨token,confirmRelayInfo,_,hnet,rfl,fun _ => ⟨c,List.mem_cons_self,rfl⟩⟩
    · exact Or.inl hmac
  | chain token text =>
    obtain rfl := Option.some.inj hs
    refine h.learn rfl rfl (fun p hp => hp) (fun t ht => ht) fun mac hmac => ?_
    rcases List.mem_cons.mp hmac with rfl | hmac
    · exact Or.inr ⟨token,auditChainInfo,text,hnet,rfl,fun hinfo => absurd hinfo (by decide)⟩
    · exact Or.inl hmac
  | leak token =>
    obtain rfl := Option.some.inj hs
    exact h.learn rfl rfl (fun p hp => hp) (fun t ht => List.mem_cons_of_mem _ ht)
      fun mac hmac => Or.inl hmac
  | deliver id c mac receivedAt now =>
    obtain rfl := Option.some.inj hs
    refine h.setMaster ((h.masters id).receiveConfirm (fun hverified => ?_) now)
    have htaken : w.verdict scheme id c mac = some true := by
      cases hv : w.verdict scheme id c mac with
      | none => rw [hv] at hverified; cases hverified
      | some b => rw [hv] at hverified; exact congrArg some hverified
    exact ⟨w.tokens id,c,receivedAt,rfl,h.confirmed sound hnet htaken⟩
  | rotate id token =>
    obtain rfl := Option.some.inj hs
    have hrestarted := (h.masters id).step_other (e := .restart) rfl rfl
    have hset : Inv scheme used (w.setMaster id _) := h.setMaster hrestarted
    exact ⟨hset.masters,hset.syncs,hset.macs⟩
  | push id =>
    obtain rfl := Option.some.inj hs
    refine ⟨h.masters,fun s hs => ?_,h.macs⟩
    rcases List.mem_append.mp hs with hs | hs
    · exact h.syncs s hs
    · exact List.mem_singleton.mp hs ▸ (h.masters id).memory.buildSnapshot
  | sync id place =>
    obtain ⟨s,hplace,rfl⟩ := Option.map_eq_some_iff.mp hs
    exact h.setMaster ((h.masters id).receiveSyncedState (h.syncs s (List.mem_of_getElem? hplace)))
  | other id e =>
    obtain ⟨he,hs⟩ := Option.ite_none_right_eq_some.mp hs
    obtain ⟨m,hm,rfl⟩ := Option.map_eq_some_iff.mp hs
    exact h.setMaster ((h.masters id).step_other he hm)

theorem Inv.reaches (sound : scheme.SoundOn used) {tokens : String → String}
    (hw : (machine scheme).Reaches (Unforged scheme · used) (start tokens) w) : Inv scheme used w :=
  hw.invariant (fun _ _ _ h hnet hs => h.step sound hnet hs) (inv_start scheme used tokens)

end RelayWorld

open RelayWorld in
/-- In every run of a network that makes up no MAC under a token it does not know, every record of
every master is of a confirmation that somebody made or that came with a token that had got out; a
request is taken only with the token the master has at that time, and one made with it is taken,
kept and found. -/
theorem confirm_relay_authentic {Key : Type} (scheme : MacScheme Key)
    (used : Set (String × String × Bytes)) (sound : scheme.SoundOn used)
    (tokens : String → String) (w : RelayWorld)
    (hw : (machine scheme).Reaches (Unforged scheme · used) (start tokens) w) (id : String) :
    (AllRecords w.Authentic (w.masters id).state.confirms ∧
      (w.masters id).state.confirms.entries.length ≤ maxConfirms) ∧
    (∀ c mac receivedAt now, w.Unforged scheme used (.deliver id c mac receivedAt now) →
      w.verdict scheme id c mac = some true →
        (w.tokens id,c) ∈ w.posts ∨ w.tokens id ∈ w.leaked) ∧
    ∀ c receivedAt now w', w.step scheme
        (.deliver id c (scheme.confirmMac (w.tokens id) c) receivedAt now) = some w' →
      (w'.masters id).state.confirms.get? (c.confirmId,c.nodeId) = some (c.record receivedAt) := by
  have h := Inv.reaches sound hw
  refine ⟨⟨(h.masters id).memory,(h.masters id).bounded⟩,?_,?_⟩
  · intro c mac receivedAt now hnet htaken
    exact h.confirmed sound hnet htaken
  · intro c receivedAt now w' hs
    obtain rfl := Option.some.inj hs
    show ((Function.update w.masters id _ id).state.confirms.get? _) = _
    rw [Function.update_self,verdict_confirmMac sound,Option.getD_some,
      EpochMaster.receiveConfirm_verified,EpochMaster.confirms_markRuleEpochDirty]
    exact get?_keepConfirm (h.masters id).bounded c receivedAt

def MacScheme.plain : MacScheme Bytes where
  derive := fun token info => encodeUtf8 (token.toList ++ info.toList)
  mac := fun key text => String.ofList
    ('0'::(key ++ text).flatMap fun b => [Json.hexChar (b.toNat / 16),Json.hexChar (b.toNat % 16)])

theorem MacScheme.plain_hex (key text : Bytes) : MacScheme.plain.mac key text ≠ "" ∧
    ∀ c ∈ (MacScheme.plain.mac key text).toList, c.toNat < 128 := by
  have hdigit : ∀ n < 16, (Json.hexChar n).toNat < 128 := by decide
  refine ⟨fun h => ?_,fun c hc => ?_⟩
  · have hlist := congrArg String.toList h
    rw [MacScheme.plain,String.toList_ofList] at hlist
    cases hlist
  · rw [MacScheme.plain,String.toList_ofList] at hc
    rcases List.mem_cons.mp hc with rfl | hc
    · decide
    · obtain ⟨b,-,hb⟩ := List.mem_flatMap.mp hc
      have hlt : b.toNat < 256 := b.toNat_lt
      simp only [List.mem_cons,List.not_mem_nil,or_false] at hb
      rcases hb with rfl | rfl
      · exact hdigit _ (by omega)
      · exact hdigit _ (by omega)

open RelayWorld in
/-- An agent confirms a deletion, and the request comes to a master with the token of the agent. -/
theorem confirm_relay_authentic_delivered :
    let c : Confirm := ⟨"c1","n1","delete",3,"now"⟩
    let mac := MacScheme.plain.confirmMac "secret" c
    let w : RelayWorld := { start (fun _ => "secret") with posts := [("secret",c)], macs := [mac] }
    ((w.step MacScheme.plain (.deliver "m1" c mac (.ofNat 5) 9)).map fun w =>
      (w.masters "m1").state.confirms.get? ("c1","n1")) =
      some (some (c.record (.ofNat 5))) := by
  intro c mac w
  have hsound : MacScheme.plain.SoundOn {("secret",confirmRelayInfo,c.payload.canonical)} :=
    ⟨Set.injOn_singleton ..,MacScheme.plain_hex⟩
  have hposted : (machine MacScheme.plain).Reaches (Unforged MacScheme.plain ·
      {("secret",confirmRelayInfo,c.payload.canonical)}) (start fun _ => "secret") w :=
    Machine.Reaches.single (e := .post "secret" c) (Set.mem_singleton _) rfl
  exact congrArg some ((confirm_relay_authentic MacScheme.plain _ hsound _ w hposted "m1").2.2
    c (.ofNat 5) 9 _ rfl)

end FusionMultiNodes

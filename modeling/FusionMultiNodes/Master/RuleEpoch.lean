import FusionMultiNodes.Lib.Dict
import FusionMultiNodes.Lib.Json
import FusionMultiNodes.Lib.Machine

/-! The rule epoch of masters and agents: broadcasts, state syncs, relayed confirmations, and the
epoch file with its persist loop. -/
namespace FusionMultiNodes

structure RuleEpochState where
  ruleEpoch : ℤ
  confirms : Dict (String × String) Json

/-- The contents of `rule_epoch.json`, and the part of a state sync. -/
structure RuleEpochSnapshot where
  ruleEpoch : ℤ
  confirms : Dict String Json

def maxConfirms : ℕ := 10000

def epochPersistThrottle : ℚ := 5

/-- `k.split("|", 1)` where there is a separator. -/
def splitBar : List Char → Option (List Char × List Char)
  | [] => none
  | c::s => if c = '|' then some ([],s) else (splitBar s).map fun p => (c::p.1,p.2)

def confirmKey (k : String) : Option (String × String) :=
  (splitBar k.toList).map fun p => (String.ofList p.1,String.ofList p.2)

def joinKey (k : String × String) : String := String.ofList (k.1.toList ++ '|'::k.2.toList)

def Json.isDict : Json → Bool
  | .obj _ => true
  | _ => false

theorem reverse_take_sublist {α : Type} (max : ℕ) (l : List α) :
    List.Sublist (l.reverse.take max).reverse l := by
  have h := (List.take_sublist max l.reverse).reverse
  rwa [List.reverse_reverse] at h

def trim {α β : Type} (max : ℕ) (d : Dict α β) : Dict α β :=
  ⟨(d.entries.reverse.take max).reverse,
    d.nodup.sublist ((reverse_take_sublist max d.entries).map Prod.fst)⟩

/-- One entry of a snapshot; a key without a separator and a value that is no dict are left out. -/
def mergeConfirm (confirms : Dict (String × String) Json) (p : String × Json) :
    Dict (String × String) Json :=
  match confirmKey p.1 with
  | some key => if p.2.isDict then confirms.set key p.2 else confirms
  | none => confirms

def mergeConfirms (confirms : Dict (String × String) Json) (raw : Dict String Json) :
    Dict (String × String) Json :=
  raw.entries.foldl mergeConfirm confirms

namespace RuleEpochState

def buildSnapshot (s : RuleEpochState) : RuleEpochSnapshot :=
  ⟨s.ruleEpoch,s.confirms.entries.foldl (fun d p => d.set (joinKey p.1) p.2) ∅⟩

/-- `_load_rule_epoch_state` on a new master. -/
def load : Option RuleEpochSnapshot → RuleEpochState
  | none => ⟨0,∅⟩
  | some s => ⟨if s.ruleEpoch < 0 then 0 else s.ruleEpoch,trim maxConfirms (mergeConfirms ∅ s.confirms)⟩

end RuleEpochState

inductive PersistLoop
  | sleeping
  | savingTasks
  /-- Its write of the epoch file, by its place among the writes under way. -/
  | flushing (place : ℕ)
  | stopped

/-- A master's rule epoch, with the writes of the epoch file under way in the order in which they
started. `changed` says whether the epoch, a confirmation or a write came up since the pass of the
persist loop began, and `saved` is the epoch after the last pass without one. -/
structure EpochMaster where
  state : RuleEpochState
  ruleEpochDirty : Bool
  lastEpochPersist : ℚ
  persistDirty : Bool
  /-- The broadcasts of advanced epochs that are under way. -/
  broadcasting : ℕ
  file : Option RuleEpochSnapshot
  writing : List RuleEpochSnapshot
  loop : PersistLoop
  changed : Bool
  saved : ℤ

inductive EpochEvent
  /-- The epoch is advanced and its broadcast begins; `refused` on a standby. -/
  | advanceRuleEpoch (refused : Bool)
  | broadcastEnds (now : ℚ)
  | receiveRuleEpoch (epoch : ℤ) (now : ℚ)
  /-- `verified` says whether the MAC is right. -/
  | receiveConfirm (confirmId nodeId action : String) (epoch : ℤ) (ts : String) (verified : Bool)
      (receivedAt : Decimal) (now : ℚ)
  | receiveSyncedState (synced : RuleEpochSnapshot)
  /-- The task store is marked or has been written. -/
  | taskStore (dirty : Bool)
  | loopWakes
  /-- The loop has written the task store. -/
  | tasksSaved (dirty : Bool) (now : ℚ)
  /-- A write of the epoch file ends, with success or with a disk error. -/
  | writeEnds (place : ℕ) (written : Bool)
  | stop
  | restart

namespace EpochMaster

variable (m : EpochMaster)

def create (file : Option RuleEpochSnapshot) : EpochMaster where
  state := RuleEpochState.load file
  ruleEpochDirty := false
  lastEpochPersist := 0
  persistDirty := false
  broadcasting := 0
  file := file
  writing := []
  loop := .sleeping
  changed := false
  saved := (RuleEpochState.load file).ruleEpoch

/-- `_persist_rule_epoch_async` up to its thread. -/
def persistRuleEpoch : EpochMaster :=
  { m with writing := m.writing ++ [m.state.buildSnapshot], changed := true }

def markRuleEpochDirty (now : ℚ) : EpochMaster :=
  if epochPersistThrottle ≤ now - m.lastEpochPersist then
    { m with lastEpochPersist := now }.persistRuleEpoch
  else { m with ruleEpochDirty := true, changed := true }

def receiveRuleEpoch (epoch : ℤ) (now : ℚ) : EpochMaster :=
  if epoch ≤ m.state.ruleEpoch then m
  else { m with state := { m.state with ruleEpoch := epoch } }.markRuleEpochDirty now

def receiveConfirm (confirmId nodeId action : String) (epoch : ℤ) (ts : String) (verified : Bool)
    (receivedAt : Decimal) (now : ℚ) : EpochMaster :=
  if verified = false then m
  else
    let record : Json := .obj [("confirm_id",.str confirmId),("node_id",.str nodeId),
      ("action",.str action),("epoch",.int epoch),("ts",.str ts),("received_at",.float receivedAt)]
    let confirms := m.state.confirms.set (confirmId,nodeId) record
    let confirms := if maxConfirms < confirms.entries.length then
      trim (confirms.entries.length - 1) confirms else confirms
    { m with state := { m.state with confirms := confirms } }.markRuleEpochDirty now

/-- The rule epoch part of `receive_synced_state`. -/
def receiveSyncedState (synced : RuleEpochSnapshot) : EpochMaster :=
  let m := if m.state.ruleEpoch < synced.ruleEpoch then
    { m with state := { m.state with ruleEpoch := synced.ruleEpoch }, changed := true } else m
  if synced.confirms.entries = [] then m
  else
    { m with state := { m.state with
        confirms := trim maxConfirms (mergeConfirms m.state.confirms synced.confirms) }
      }.persistRuleEpoch

/-- The pass of the loop ends; where nothing came up meanwhile, the epoch counts as saved. -/
def passEnds : EpochMaster :=
  { m with loop := .sleeping, saved := if m.changed then m.saved else m.state.ruleEpoch }

def step : EpochEvent → Option EpochMaster
  | .advanceRuleEpoch refused =>
    if refused then some m
    else some { m with
      state := { m.state with ruleEpoch := m.state.ruleEpoch + 1 }
      broadcasting := m.broadcasting + 1
      changed := true }
  | .broadcastEnds now =>
    if m.broadcasting = 0 then none
    else some ({ m with broadcasting := m.broadcasting - 1 }.markRuleEpochDirty now)
  | .receiveRuleEpoch epoch now => some (m.receiveRuleEpoch epoch now)
  | .receiveConfirm confirmId nodeId action epoch ts verified receivedAt now =>
    some (m.receiveConfirm confirmId nodeId action epoch ts verified receivedAt now)
  | .receiveSyncedState synced => some (m.receiveSyncedState synced)
  | .taskStore dirty => some { m with persistDirty := dirty }
  | .loopWakes =>
    match m.loop with
    | .sleeping =>
      let m := { m with changed := false }
      if m.persistDirty = false then some m.passEnds else some { m with loop := .savingTasks }
    | _ => none
  | .tasksSaved dirty now =>
    match m.loop with
    | .savingTasks =>
      let m := { m with persistDirty := dirty }
      if m.ruleEpochDirty then
        some { m with
          ruleEpochDirty := false
          lastEpochPersist := now
          loop := .flushing m.writing.length
          writing := m.writing ++ [m.state.buildSnapshot] }
      else some m.passEnds
    | _ => none
  | .writeEnds place written =>
    match m.writing[place]? with
    | none => none
    | some snapshot =>
      let t := { m with
        file := if written then some snapshot else m.file
        writing := m.writing.eraseIdx place }
      match m.loop with
      | .flushing own =>
        if place = own then some (if written then t.passEnds else { t with loop := .sleeping })
        else some { t with loop := .flushing (if place < own then own - 1 else own) }
      | _ => some t
  | .stop => some { m with loop := .stopped }.persistRuleEpoch
  | .restart => some { create m.file with saved := m.saved }

end EpochMaster

structure EpochWorld where
  masters : String → EpochMaster
  agents : String → ℤ

inductive EpochWorldEvent
  | master (id : String) (e : EpochEvent)
  /-- A broadcast reaches an agent. -/
  | agentReceives (id : String) (epoch : ℤ)

namespace EpochWorld

variable (w : EpochWorld)

def create (files : String → Option RuleEpochSnapshot) : EpochWorld :=
  ⟨fun id => EpochMaster.create (files id),fun _ => 0⟩

def step : EpochWorldEvent → Option EpochWorld
  | .master id e => ((w.masters id).step e).map fun m =>
    { w with masters := fun k => if k = id then m else w.masters k }
  | .agentReceives id epoch =>
    some { w with agents := fun k => if k = id then epoch else w.agents k }

def machine : Machine EpochWorld EpochWorldEvent := ⟨step⟩

end EpochWorld

namespace EpochMaster

variable (m : EpochMaster)

/-- A step that ends a pass of the persist loop without a disk error, with nothing that came up
since the pass began. -/
def EndsPass : EpochEvent → Prop
  | .loopWakes => m.persistDirty = false
  | .tasksSaved _ _ => m.ruleEpochDirty = false ∧ m.changed = false
  | .writeEnds place written =>
    written = true ∧ m.changed = false ∧ ∃ own, m.loop = .flushing own ∧ place = own
  | _ => False

/-- No epoch goes back but in a restart, a restart does not go back behind the last pass, and after
a pass the file is what the master has. -/
structure Durable (m : EpochMaster) (e : EpochEvent) (m' : EpochMaster) : Prop where
  monotone : e ≠ .restart → m.state.ruleEpoch ≤ m'.state.ruleEpoch
  restarts : e = .restart → m.saved ≤ m'.state.ruleEpoch
  saved : m.EndsPass e → RuleEpochState.load m'.file = m'.state

/-- The file has to be written again: the epoch is marked or not yet, or a write is under way. -/
def Unsaved : Prop := m.ruleEpochDirty = true ∨ m.broadcasting ≠ 0 ∨ m.writing ≠ []

def Keeps : EpochEvent → Prop
  | .receiveConfirm confirmId _ _ _ _ verified _ _ => verified = true → '|' ∉ confirmId.toList
  | .receiveSyncedState synced =>
    m.state.ruleEpoch < synced.ruleEpoch → synced.confirms.entries ≠ []
  | .loopWakes => m.persistDirty = false → ¬m.Unsaved
  | .tasksSaved _ _ => m.ruleEpochDirty = false → m.changed = false → ¬m.Unsaved
  | .writeEnds place written => place = 0 ∧ written = true
  | _ => True

end EpochMaster

namespace EpochWorld

def Durable (w : EpochWorld) (ev : EpochWorldEvent) (w' : EpochWorld) : Prop :=
  match ev with
  | .master id e => (w.masters id).Durable e (w'.masters id)
  | .agentReceives id _ => w.agents id ≤ w'.agents id

def Keeps (w : EpochWorld) : EpochWorldEvent → Prop
  | .master id e => (w.masters id).Keeps e
  | .agentReceives id epoch => w.agents id ≤ epoch

end EpochWorld
end FusionMultiNodes

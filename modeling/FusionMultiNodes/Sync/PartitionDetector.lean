import Mathlib.Algebra.Order.Ring.Rat
import FusionMultiNodes.Lib.Dict
import FusionMultiNodes.Lib.Machine

/-! `PartitionDetector`, and the edges it reports to its callbacks. -/
namespace FusionMultiNodes

inductive PartitionState
  | connected | partially | partitioned
  deriving DecidableEq

inductive PartitionCall
  | onPartition (disconnected : List String)
  | onReconnect
  deriving DecidableEq

def PartitionCall.isPartition : PartitionCall → Bool
  | .onPartition _ => true
  | .onReconnect => false

/-- The calls take turns; `first` tells whether the first one is `on_partition`. -/
def TakeTurns : Bool → List PartitionCall → Prop
  | _, [] => True
  | first, c::calls => c.isPartition = first ∧ TakeTurns (!first) calls

def turnAfter : Bool → List PartitionCall → Bool
  | first, [] => first
  | first, _::calls => turnAfter (!first) calls

theorem takeTurns_append {first : Bool} {calls : List PartitionCall} {c : PartitionCall} :
    TakeTurns first (calls ++ [c]) ↔ TakeTurns first calls ∧ c.isPartition = turnAfter first calls := by
  induction calls generalizing first with
  | nil => simp [TakeTurns,turnAfter]
  | cons a calls ih => simp [TakeTurns,turnAfter,ih,and_assoc]

theorem turnAfter_append (first : Bool) (calls : List PartitionCall) (c : PartitionCall) :
    turnAfter first (calls ++ [c]) = !turnAfter first calls := by
  induction calls generalizing first with
  | nil => rfl
  | cons a calls ih => exact ih (!first)

structure PartitionDetector where
  heartbeatTimeout : ℚ
  lastHeartbeat : Dict String ℚ
  state : PartitionState
  degraded : Bool
  /-- Whether the callbacks are registered. -/
  hasOnPartition : Bool
  hasOnReconnect : Bool
  /-- History variable: the calls of the callbacks. -/
  calls : List PartitionCall

namespace PartitionDetector

variable (d : PartitionDetector) (now : ℚ)

def create (heartbeatTimeout : ℚ) : PartitionDetector :=
  ⟨heartbeatTimeout,∅,.connected,false,false,false,[]⟩

def registerCallbacks (onPartition onReconnect : Bool) : PartitionDetector :=
  { d with hasOnPartition := onPartition, hasOnReconnect := onReconnect }

/-- The peer has not been heard of for longer than the timeout. -/
def Past (last : ℚ) : Prop := d.heartbeatTimeout < now-last

instance (last : ℚ) : Decidable (d.Past now last) := by unfold Past; infer_instance

def reconnect : PartitionDetector :=
  { d with
    degraded := false
    state := .connected
    calls := if d.hasOnReconnect then d.calls ++ [.onReconnect] else d.calls }

def updateHeartbeat (id : String) : PartitionDetector :=
  let d := { d with lastHeartbeat := d.lastHeartbeat.set id now }
  if d.degraded then d.reconnect else d

def disconnected : List String :=
  (d.lastHeartbeat.entries.filter fun p => decide (d.Past now p.2)).map Prod.fst

def checkPartition : PartitionDetector :=
  let disconnected := d.disconnected now
  if disconnected ≠ [] ∧ d.degraded = false then
    { d with
      degraded := true
      state := .partitioned
      calls :=
        if d.hasOnPartition then d.calls ++ [.onPartition disconnected] else d.calls }
  else if disconnected = [] ∧ d.degraded = true then d.reconnect
  else d

end PartitionDetector

structure PartitionWatch where
  detector : PartitionDetector
  clock : ℚ

inductive PartitionEvent
  | heartbeat (id : String) (now : ℚ)
  | check (now : ℚ)

def PartitionEvent.time : PartitionEvent → ℚ
  | .heartbeat _ now => now
  | .check now => now

namespace PartitionWatch

open PartitionDetector

def start (heartbeatTimeout clock : ℚ) : PartitionWatch :=
  ⟨(create heartbeatTimeout).registerCallbacks true true,clock⟩

variable (w : PartitionWatch)

def react : PartitionEvent → PartitionDetector
  | .heartbeat id now => w.detector.updateHeartbeat now id
  | .check now => w.detector.checkPartition now

def step (e : PartitionEvent) : Option PartitionWatch :=
  if w.clock ≤ e.time then some ⟨w.react e,e.time⟩ else none

def machine : Machine PartitionWatch PartitionEvent := ⟨step⟩

/-- After a check the detector is degraded exactly if a tracked peer is past the timeout, the
callbacks take turns, and `on_reconnect` is called only where no tracked peer is past it. -/
structure Edges (w : PartitionWatch) (e : PartitionEvent) (w' : PartitionWatch) : Prop where
  degraded : ∀ now, e = .check now → (w'.detector.degraded = true ↔
    ∃ id last, w'.detector.lastHeartbeat.get? id = some last ∧ w'.detector.Past now last)
  turns : TakeTurns true w'.detector.calls
  reconnected : w'.detector.calls = w.detector.calls ++ [.onReconnect] →
    ∀ id last, w'.detector.lastHeartbeat.get? id = some last → ¬w'.detector.Past e.time last

/-- A heartbeat that ends a partition comes when all other peers are heard of. -/
def EndsWhole (w : PartitionWatch) : PartitionEvent → Prop
  | .heartbeat id now => w.detector.degraded = true → 0 ≤ w.detector.heartbeatTimeout ∧
      ∀ id' last, id' ≠ id → w.detector.lastHeartbeat.get? id' = some last → ¬w.detector.Past now last
  | .check _ => True

/-- The callbacks are registered, they have taken turns, and the next one is known. -/
structure Turned (d : PartitionDetector) : Prop where
  onPartition : d.hasOnPartition = true
  onReconnect : d.hasOnReconnect = true
  turns : TakeTurns true d.calls
  next : turnAfter true d.calls = !d.degraded

theorem turned_start (heartbeatTimeout clock : ℚ) : Turned (start heartbeatTimeout clock).detector :=
  ⟨rfl,rfl,trivial,rfl⟩

variable {w} {w' : PartitionWatch} {d : PartitionDetector} {now : ℚ}

theorem mem_disconnected {id : String} : id ∈ d.disconnected now ↔
    ∃ last, d.lastHeartbeat.get? id = some last ∧ d.Past now last := by
  simp [disconnected,Dict.get?_eq_some_iff]

theorem calls_reconnect (h : Turned d) : d.reconnect.calls = d.calls ++ [.onReconnect] :=
  if_pos h.onReconnect

theorem Turned.reconnect (h : Turned d) (hd : d.degraded = true) : Turned d.reconnect := by
  have hcalls := calls_reconnect h
  refine ⟨h.onPartition,h.onReconnect,?_,?_⟩
  · rw [hcalls,takeTurns_append,h.next,hd]
    exact ⟨h.turns,rfl⟩
  · rw [hcalls,turnAfter_append,h.next,hd]
    rfl

theorem not_reconnected {calls : List PartitionCall} : calls ≠ calls ++ [.onReconnect] := by
  simp

theorem checkPartition_spec (h : Turned d) (now : ℚ) :
    Turned (d.checkPartition now) ∧
      (d.checkPartition now).lastHeartbeat = d.lastHeartbeat ∧
      (d.checkPartition now).heartbeatTimeout = d.heartbeatTimeout ∧
      ((d.checkPartition now).degraded = true ↔ d.disconnected now ≠ []) ∧
      ((d.checkPartition now).calls = d.calls ++ [.onReconnect] → d.disconnected now = []) := by
  unfold checkPartition
  by_cases hdown : d.disconnected now = []
  · cases hd : d.degraded with
    | true => simpa [hdown,hd] using ⟨h.reconnect hd,rfl,rfl,rfl⟩
    | false => simpa [hdown,hd] using h
  · cases hd : d.degraded with
    | true => simpa [hdown,hd] using h
    | false =>
      have hturn : Turned { d with
          degraded := true
          state := .partitioned
          calls := d.calls ++ [.onPartition (d.disconnected now)] } := by
        refine ⟨h.onPartition,h.onReconnect,?_,?_⟩
        · rw [takeTurns_append,h.next,hd]
          exact ⟨h.turns,rfl⟩
        · rw [turnAfter_append,h.next,hd]
          rfl
      simpa [hdown,hd,h.onPartition] using hturn

theorem edges_check (h : Turned w.detector) (now clock : ℚ) :
    Edges w (.check now) ⟨w.detector.checkPartition now,clock⟩ := by
  obtain ⟨hturned,hlast,htimeout,hdegraded,hcalls⟩ := checkPartition_spec h now
  have hdown : w.detector.disconnected now ≠ [] ↔
      ∃ id last, w.detector.lastHeartbeat.get? id = some last ∧ w.detector.Past now last := by
    simp only [← mem_disconnected]
    refine ⟨List.exists_mem_of_ne_nil _,?_⟩
    rintro ⟨id,hid⟩ hnil
    rw [hnil] at hid
    exact absurd hid List.not_mem_nil
  have hpast : ∀ last, (w.detector.checkPartition now).Past now last ↔ w.detector.Past now last :=
    fun last => by rw [Past,Past,htimeout]
  refine ⟨?_,hturned.turns,?_⟩
  · rintro _ ⟨rfl⟩
    simp only [hlast,hpast]
    exact hdegraded.trans hdown
  · intro hreconnect id last hget hpast'
    refine absurd (hcalls hreconnect) (hdown.mpr ⟨id,last,?_,(hpast last).mp hpast'⟩)
    exact hlast ▸ hget

theorem updateHeartbeat_healthy (hd : d.degraded = false) (id : String) :
    d.updateHeartbeat now id = { d with lastHeartbeat := d.lastHeartbeat.set id now } := by
  simp [updateHeartbeat,hd]

theorem updateHeartbeat_degraded (hd : d.degraded = true) (id : String) :
    d.updateHeartbeat now id =
      ({ d with lastHeartbeat := d.lastHeartbeat.set id now } : PartitionDetector).reconnect := by
  simp [updateHeartbeat,hd]

theorem Turned.set (h : Turned d) (table : Dict String ℚ) :
    Turned { d with lastHeartbeat := table } :=
  ⟨h.1,h.2,h.3,h.4⟩

theorem Turned.updateHeartbeat (h : Turned d) (id : String) : Turned (d.updateHeartbeat now id) := by
  cases hd : d.degraded with
  | false => exact updateHeartbeat_healthy hd id ▸ h.set _
  | true =>
    rw [updateHeartbeat_degraded hd]
    exact (h.set _).reconnect hd

theorem edges_heartbeat_iff (h : Turned w.detector) (id : String) (now clock : ℚ) :
    Edges w (.heartbeat id now) ⟨w.detector.updateHeartbeat now id,clock⟩ ↔
      EndsWhole w (.heartbeat id now) := by
  cases hd : w.detector.degraded with
  | false =>
    apply iff_of_true
    · refine ⟨nofun,(h.updateHeartbeat id).turns,fun hcalls => ?_⟩
      rw [updateHeartbeat_healthy hd] at hcalls
      exact absurd hcalls not_reconnected
    · intro hd'
      exact absurd (hd'.symm.trans hd) (by decide)
  | true =>
    have hcalls : (w.detector.updateHeartbeat now id).calls =
        w.detector.calls ++ [.onReconnect] := by
      rw [updateHeartbeat_degraded hd]
      exact calls_reconnect (h.set _)
    have htable : (w.detector.updateHeartbeat now id).lastHeartbeat =
        w.detector.lastHeartbeat.set id now := by
      rw [updateHeartbeat_degraded hd]
      rfl
    have hpast : ∀ last, (w.detector.updateHeartbeat now id).Past
        (PartitionEvent.heartbeat id now).time last ↔ w.detector.Past now last := by
      intro last
      rw [updateHeartbeat_degraded hd]
      rfl
    have hself : ¬w.detector.Past now now ↔ 0 ≤ w.detector.heartbeatTimeout := by
      simp [Past]
    constructor
    · intro he _
      have halive := he.reconnected hcalls
      simp only [htable,hpast] at halive
      refine ⟨hself.mp (halive id now (Dict.get?_set_self _ _ _)),fun id' last hne hget => ?_⟩
      exact halive id' last ((Dict.get?_set_ne _ _ hne).trans hget)
    · intro hw
      obtain ⟨htimeout,hothers⟩ := hw hd
      refine ⟨nofun,(h.updateHeartbeat id).turns,fun _ id' last hget => ?_⟩
      simp only [htable,hpast] at hget ⊢
      rw [Dict.get?_set] at hget
      split_ifs at hget with hid
      · cases hget
        exact hself.mpr htimeout
      · exact hothers id' last hid hget

/-- In every run the detector's edges are right, if and only if no heartbeat ends a partition
while another peer is past the timeout. -/
theorem partition_edges_iff (heartbeatTimeout clock : ℚ) (es : List PartitionEvent) :
    machine.Along Edges (start heartbeatTimeout clock) es ↔
      machine.Along (fun w e _ => EndsWhole w e) (start heartbeatTimeout clock) es := by
  apply Machine.along_congr_of_invariant (I := fun w => Turned w.detector)
  · intro w e w' h hw
    obtain ⟨-,hw⟩ := Option.ite_none_right_eq_some.mp hw
    cases hw
    cases e with
    | heartbeat id now => exact edges_heartbeat_iff h id now _
    | check now => exact iff_of_true (edges_check h now _) trivial
  · intro w e w' h hw _
    obtain ⟨-,hw⟩ := Option.ite_none_right_eq_some.mp hw
    cases hw
    cases e with
    | heartbeat id now => exact h.updateHeartbeat id
    | check now => exact (checkPartition_spec h now).1
  · exact turned_start heartbeatTimeout clock

def onePeerReturns : List PartitionEvent :=
  [.heartbeat "a" 0,.heartbeat "b" 0,.check 31]

/-- The detector calls `on_reconnect` while the other one is still past the timeout. -/
theorem reconnects_with_dead_peer : ¬∀ (heartbeatTimeout clock : ℚ) (es : List PartitionEvent),
    machine.Along Edges (start heartbeatTimeout clock) es := by
  intro h
  have hexec : (machine.exec (start 30 0) onePeerReturns).any (fun w =>
      (machine.step w (.heartbeat "a" 32)).any fun w' =>
        decide (w'.detector.calls = w.detector.calls ++ [.onReconnect] ∧
          w'.detector.lastHeartbeat.get? "b" = some 0 ∧ w'.detector.Past 32 0)) = true := by
    decide +kernel
  obtain ⟨w,hw,hexec⟩ := (Option.any_eq_true _ _).mp hexec
  obtain ⟨w',hw',hexec⟩ := (Option.any_eq_true _ _).mp hexec
  obtain ⟨hcalls,hlast,hpast⟩ := of_decide_eq_true hexec
  have hedges := (h 30 0 (onePeerReturns ++ [.heartbeat "a" 32])).last hw hw'
  exact hedges.reconnected hcalls "b" 0 hlast hpast

end PartitionWatch
end FusionMultiNodes

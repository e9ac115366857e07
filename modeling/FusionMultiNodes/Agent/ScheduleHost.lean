import FusionMultiNodes.Agent.ScheduleSpec
import FusionMultiNodes.Lib.Dict
import FusionMultiNodes.Lib.Machine

/-! The schedule host of a resident node: its tables, its file and its loop. A fire is suspended
while its task runs, and everything else may happen meanwhile. -/
namespace FusionMultiNodes

structure ScheduleRun where
  seq : ℕ
  taskId : String
  status : String
  startedAt : ℚ
  finishedAt : ℚ := 0
  error : String := ""
  result : Json := .obj []

structure ScheduleFile where
  schedules : List ScheduleSpec
  runs : Dict String (List ScheduleRun)

structure ScheduleHost where
  resident : Bool
  schedules : Dict String ScheduleSpec
  nextRun : Dict String ℚ
  runs : Dict String (List ScheduleRun)
  seq : Dict String ℕ
  running : Bool

/-- The dictionary a task ends with, and its `error`. -/
structure ExecutorResult where
  error : String
  body : Json

structure Firing where
  scheduleId : String
  spec : ScheduleSpec
  run : ScheduleRun

inductive ScheduleLoop
  | off
  | sleeping
  /-- The schedules that are due after the one that fires, and the time of the tick. -/
  | firing (f : Firing) (due : List String) (now : ℚ)

def seqText (n : ℕ) : List Char :=
  (List.replicate (6 - (natDigits n).length) 0 ++ natDigits n).map Digit.char

/-- The task id of the `n`-th fire of a schedule. -/
def fireTaskId (scheduleId : String) (n : ℕ) : String :=
  String.ofList (scheduleId.toList ++ '-'::seqText n)

theorem seqText_inj {m n : ℕ} (h : seqText m = seqText n) : m = n := by
  have hzeros : ∀ k, (List.replicate k (0 : Digit)).foldl (fun a d => 10 * a + d.val) 0 = 0 := by
    intro k
    induction k with
    | zero => rfl
    | succ k ih => exact ih
  have hvalue : ∀ n, ofDigits (List.replicate (6 - (natDigits n).length) 0 ++ natDigits n) = n := by
    intro n
    rw [ofDigits,List.foldl_append,hzeros]
    exact ofDigits_natDigits n
  rw [← hvalue m,map_char_inj h,hvalue]

theorem dash_not_mem_seqText (n : ℕ) : '-' ∉ seqText n := by
  have hdigit : ∀ d : Digit, d.char ≠ '-' := by decide
  intro h
  obtain ⟨d,-,hd⟩ := List.mem_map.mp h
  exact hdigit d hd

theorem fireTaskId_inj {id id' : String} {m n : ℕ} (h : fireTaskId id m = fireTaskId id' n) :
    id = id' ∧ m = n := by
  have hlist : id.toList ++ '-'::seqText m = id'.toList ++ '-'::seqText n :=
    String.ofList_injective h
  obtain ⟨hid,hseq⟩ := append_sep_inj (dash_not_mem_seqText m) (dash_not_mem_seqText n) hlist
  exact ⟨String.toList_injective hid,seqText_inj hseq⟩

namespace ScheduleHost

def create (resident : Bool) : ScheduleHost := ⟨resident,∅,∅,∅,∅,false⟩

variable (h : ScheduleHost) (zone : LocalZone)

def setDefault {α : Type} (d : Dict String α) (key : String) (value : α) : Dict String α :=
  if d.contains key then d else d.set key value

/-- Set the next run; `.error` with what is left where `next_run_at` raises. -/
def plan (id : String) (spec : ScheduleSpec) (now : ℚ) : Except ScheduleHost ScheduleHost :=
  match spec.nextRunAt zone now with
  | some t => .ok { h with nextRun := h.nextRun.set id t }
  | none => .error h

/-- The id of a registration, which is generated where none is given. -/
def idOf (spec : ScheduleSpec) (generated : String) : String :=
  if spec.scheduleId = "" then generated else spec.scheduleId

/-- `register` up to `save`; `.error` where it raises. -/
def register (spec : ScheduleSpec) (generated : String) (now : ℚ) :
    Except ScheduleHost ScheduleHost :=
  if h.resident = false then .error h
  else if spec.validate.isSome then .error h
  else
    let id := idOf spec generated
    { h with
      schedules := h.schedules.set id { spec with scheduleId := id }
      seq := setDefault h.seq id 0
      runs := setDefault h.runs id [] }.plan zone id spec now

def remove (id : String) : Option ScheduleHost :=
  if h.schedules.contains id then
    some { h with
      schedules := h.schedules.erase id
      nextRun := h.nextRun.erase id
      runs := h.runs.erase id
      seq := h.seq.erase id }
  else none

/-- `set_enabled` up to `save`; `none` for an unknown schedule. -/
def setEnabled (id : String) (enabled : Bool) (now : ℚ) :
    Option (Except ScheduleHost ScheduleHost) :=
  (h.schedules.get? id).map fun spec =>
    let h := { h with schedules := h.schedules.set id { spec with enabled := enabled } }
    if enabled then h.plan zone id spec now else .ok { h with nextRun := h.nextRun.set id 0 }

def payload : ScheduleFile := ⟨h.schedules.values,h.runs⟩

def lastRuns (runs : List ScheduleRun) : List ScheduleRun :=
  runs.drop (runs.length - maxRunsPerSchedule)

def loadSchedule (now : ℚ) (spec : ScheduleSpec) : Except ScheduleHost ScheduleHost :=
  if spec.validate.isSome then .ok h
  else { h with
    schedules := h.schedules.set spec.scheduleId spec
    seq := setDefault h.seq spec.scheduleId 0 }.plan zone spec.scheduleId spec now

def loadRuns (p : String × List ScheduleRun) : ScheduleHost :=
  if h.schedules.contains p.1 then
    { h with
      runs := h.runs.set p.1 (lastRuns p.2)
      seq := match (lastRuns p.2).map ScheduleRun.seq with
        | [] => h.seq
        | n::ns => h.seq.set p.1 (ns.foldl max n) }
  else h

/-- `load`; the first schedule whose next run raises ends it. -/
def load (now : ℚ) (file : ScheduleFile) : Except ScheduleHost ScheduleHost := do
  let h ← file.schedules.foldlM (fun h spec => h.loadSchedule zone now spec) h
  .ok (file.runs.entries.foldl loadRuns h)

def due (now : ℚ) : List String :=
  (h.schedules.entries.filter fun p =>
    p.2.enabled && (h.nextRun.get? p.1).any fun t => decide (t ≤ now)).map Prod.fst

/-- The end of `_fire`: the run is recorded and the next one is set. -/
def record (f : Firing) (outcome : Except String ExecutorResult) (now : ℚ) :
    Except ScheduleHost ScheduleHost :=
  let result := match outcome with
    | .ok r => r
    | .error e => ⟨e,.obj [("error",.str e)]⟩
  let run :=
    if result.error ≠ "" then
      { f.run with finishedAt := now, status := "failed", error := result.error }
    else { f.run with finishedAt := now, status := "completed", result := result.body }
  let runs := lastRuns ((h.runs.get? f.scheduleId).getD [] ++ [run])
  { h with runs := h.runs.set f.scheduleId runs }.plan zone f.scheduleId f.spec now

end ScheduleHost

/-- A node with its host, the loop and the file, and the fires of all times by schedule and
number. -/
structure ScheduleNode where
  host : ScheduleHost
  loop : ScheduleLoop
  file : Option ScheduleFile
  fired : List (String × ℕ)

inductive ScheduleEvent
  /-- `written` says whether `save` succeeds. -/
  | register (spec : ScheduleSpec) (generated : String) (now : ℚ) (written : Bool)
  | remove (id : String) (written : Bool)
  | setEnabled (id : String) (enabled : Bool) (now : ℚ) (written : Bool)
  | tick (now : ℚ)
  | fireEnds (outcome : Except String ExecutorResult) (now : ℚ)
  | stop
  /-- The cancelled loop raises out of the await where it stands. -/
  | loopCancelled
  | loopExits
  | stopSaves (written : Bool)
  /-- The process ends; a new one loads the file and, unless that raises, starts its loop, which
  `NodeAgent.start` itself does not come to. -/
  | restart (now : ℚ)

namespace ScheduleNode

variable (zone : LocalZone)

/-- A node whose loop has been started. `NodeAgent.start` awaits the number that `load` returns,
which raises, and never comes to `ScheduleHost.start`. -/
def create (resident : Bool) : ScheduleNode :=
  ⟨{ ScheduleHost.create resident with running := true },.sleeping,none,[]⟩

variable (n : ScheduleNode)

def saves (h : ScheduleHost) (written : Bool) : ScheduleNode :=
  { n with host := h, file := if written then some h.payload else n.file }

/-- The end of a call that saves unless it raises. -/
def settle (written : Bool) : Except ScheduleHost ScheduleHost → ScheduleNode
  | .ok h => n.saves h written
  | .error h => { n with host := h }

/-- Fire the schedules that are due, up to the first await. -/
def fireFrom (n : ScheduleNode) (now : ℚ) : List String → ScheduleNode
  | [] => { n with loop := .sleeping }
  | id::due =>
    match n.host.schedules.get? id with
    | none => fireFrom { n with host := { n.host with nextRun := n.host.nextRun.erase id } } now due
    | some spec =>
      let seq := (n.host.seq.get? id).getD 0 + 1
      { n with
        host := { n.host with seq := n.host.seq.set id seq }
        loop := .firing ⟨id,spec,⟨seq,fireTaskId id seq,"running",now,0,"",.obj []⟩⟩ due now
        fired := n.fired ++ [(id,seq)] }

def step : ScheduleEvent → Option ScheduleNode
  | .register spec generated now written =>
    some (n.settle written (n.host.register zone spec generated now))
  | .remove id written =>
    match n.host.remove id with
    | some h => some (n.saves h written)
    | none => some n
  | .setEnabled id enabled now written =>
    match n.host.setEnabled zone id enabled now with
    | some attempt => some (n.settle written attempt)
    | none => some n
  | .tick now =>
    match n.loop with
    | .sleeping => if n.host.running then some (n.fireFrom now (n.host.due now)) else none
    | _ => none
  | .fireEnds outcome now =>
    match n.loop with
    | .firing f due started =>
      -- an exception ends the tick, and the loop logs it
      match n.host.record zone f outcome now with
      | .ok h => some (fireFrom { n with host := h } started due)
      | .error h => some { n with host := h, loop := .sleeping }
    | _ => none
  | .stop => some { n with host := { n.host with running := false } }
  | .loopCancelled =>
    match n.loop with
    | .off => none
    | _ => if n.host.running then none else some { n with loop := .off }
  | .loopExits =>
    match n.loop with
    | .sleeping => if n.host.running then none else some { n with loop := .off }
    | _ => none
  | .stopSaves written =>
    match n.loop with
    | .off => if n.host.running then none else some (n.saves n.host written)
    | _ => none
  | .restart now =>
    let h := ScheduleHost.create n.host.resident
    match n.file.elim (.ok h) (h.load zone now) with
    | .ok h => some { n with host := { h with running := true }, loop := .sleeping }
    | .error h => some { n with host := h, loop := .off }

def machine : Machine ScheduleNode ScheduleEvent := ⟨fun n => n.step zone⟩

/-- The tables of next runs and of runs have exactly the registered schedules, what is fired is
registered and enabled, no two fires have one task id, and each history is bounded. -/
structure Consistent (n n' : ScheduleNode) : Prop where
  nextRun : ∀ id, n'.host.nextRun.contains id = n'.host.schedules.contains id
  runs : ∀ id, n'.host.runs.contains id = n'.host.schedules.contains id
  enabled : ∀ x, n'.fired = n.fired ++ [x] →
    ∃ spec, n'.host.schedules.get? x.1 = some spec ∧ spec.enabled = true
  distinct : (n'.fired.map fun x => fireTaskId x.1 x.2).Nodup
  bounded : ∀ id runs, n'.host.runs.get? id = some runs → runs.length ≤ maxRunsPerSchedule

/-- The first of the due schedules that is still registered is enabled, and its counter is not
behind the fires under its id. -/
def StartsKept (due : List String) : Prop :=
  ∀ id spec, due.find? (fun id => n.host.schedules.contains id) = some id →
    n.host.schedules.get? id = some spec →
    spec.enabled = true ∧ ∀ x ∈ n.fired, x.1 = id → x.2 ≤ (n.host.seq.get? id).getD 0

/-- An interval that `float` cannot hold is registered only for a schedule that has its entries, and
is in no file that is loaded. A fire ends while its schedule is registered. -/
def Keeps : ScheduleEvent → Prop
  | .register spec generated _ _ => n.host.resident = true → spec.validate = none →
      spec.IsFinite ∨ n.host.schedules.contains (ScheduleHost.idOf spec generated) = true
  | .tick now => n.StartsKept (n.host.due now)
  | .fireEnds _ _ =>
    match n.loop with
    | .firing f due _ => n.host.schedules.contains f.scheduleId = true ∧
        (f.spec.IsFinite → n.StartsKept due)
    | _ => True
  | .restart _ => ∀ file ∈ n.file, ∀ spec ∈ file.schedules, spec.IsFinite
  | _ => True

end ScheduleNode
end FusionMultiNodes

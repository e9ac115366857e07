import FusionMultiNodes.Lib.IntText
import FusionMultiNodes.Lib.Json

/-! Specifications of timed tasks: their checks and the time of the next run. -/
namespace FusionMultiNodes

/-- The fields of `time.struct_time` that are used. -/
structure StructTime where
  tmYear : ℤ
  tmMon : ℤ
  tmMday : ℤ
  tmHour : ℤ
  tmMin : ℤ
  tmSec : ℤ
  tmWday : ℤ
  tmYday : ℤ
  tmIsdst : ℤ

/-- The local time zone: `time.localtime` and `time.mktime`. -/
structure LocalZone where
  localtime : ℚ → StructTime
  mktime : StructTime → ℚ

/-- From here on `float` of an integer raises `OverflowError`. -/
def floatLimit : ℕ := 2^1024-2^970

def schedulableTaskTypes : List String := ["inference","embedding"]

def scheduleKinds : List String := ["interval","daily","weekly"]

def maxRunsPerSchedule : ℕ := 50

def minIntervalSeconds : ℤ := 60

structure ScheduleSpec where
  scheduleId : String
  kind : String
  everySeconds : ℤ := 0
  atText : String := ""
  weekday : ℤ := -1
  taskType : String := "inference"
  modelName : String := ""
  params : Json := .obj []
  timeoutSeconds : ℚ := 300
  enabled : Bool := true

inductive ScheduleError
  | kind
  | taskType
  | everySeconds
  | atText
  | weekday
  deriving DecidableEq

namespace ScheduleSpec

variable (spec : ScheduleSpec)

def parseAt : Option (ℤ × ℤ) :=
  match spec.atText.toList.splitOn ':' with
  | [hour,minute] => do
    let hh ← intOfText hour
    let mm ← intOfText minute
    if 0 ≤ hh ∧ hh ≤ 23 ∧ 0 ≤ mm ∧ mm ≤ 59 then some (hh,mm) else none
  | _ => none

def validate : Option ScheduleError :=
  if spec.kind ∉ scheduleKinds then some .kind
  else if spec.taskType ∉ schedulableTaskTypes then some .taskType
  else if spec.kind = "interval" then
    if spec.everySeconds < minIntervalSeconds then some .everySeconds else none
  else if spec.parseAt.isNone then some .atText
  else if spec.kind = "weekly" ∧ ¬(0 ≤ spec.weekday ∧ spec.weekday ≤ 6) then some .weekday
  else none

/-- `float` holds the interval. -/
def IsFinite : Prop := spec.kind = "interval" → spec.everySeconds < floatLimit

instance : Decidable spec.IsFinite := by
  unfold IsFinite
  infer_instance

/-- The time of the next run; `none` where it raises. -/
def nextRunAt (zone : LocalZone) (now : ℚ) : Option ℚ :=
  if spec.kind = "interval" then
    if spec.everySeconds < floatLimit then some (now + spec.everySeconds) else none
  else
    let (hh,mm) := spec.parseAt.getD (0,0)
    let nowDt := zone.localtime now
    let base := zone.mktime
      { nowDt with tmHour := hh, tmMin := mm, tmSec := 0, tmIsdst := -1 }
    if now < base then some base
    else if spec.kind = "daily" then some (base + 86400)
    else
      let daysAhead := (spec.weekday - nowDt.tmWday) % 7
      some (base + (if daysAhead = 0 then 7 else daysAhead : ℤ) * 86400)

theorem isSome_nextRunAt_iff (zone : LocalZone) (now : ℚ) :
    (spec.nextRunAt zone now).isSome = true ↔ spec.IsFinite := by
  by_cases hkind : spec.kind = "interval"
  · rw [nextRunAt,if_pos hkind,IsFinite]
    split_ifs with hlimit
    · exact iff_of_true rfl fun _ => hlimit
    · exact iff_of_false nofun fun h => hlimit (h hkind)
  · refine iff_of_true ?_ fun h => absurd h hkind
    rw [nextRunAt,if_neg hkind]
    simp only
    split_ifs <;> rfl

end ScheduleSpec
end FusionMultiNodes

import FusionMultiNodes.Agent.ScheduleSpec
import FusionMultiNodes.Lib.Civil
import Mathlib.Data.Rat.Floor
import Mathlib.Order.Bounds.Basic

/-! The next run of a schedule in a zone of a fixed offset, against the times the schedule asks
for. -/
namespace FusionMultiNodes

/-- `time.localtime` and `time.mktime` where the clocks are `offset` seconds ahead of UTC. -/
def LocalZone.fixed (offset : ℤ) : LocalZone where
  localtime t :=
    let days := (⌊t⌋ + offset) / 86400
    let rem := (⌊t⌋ + offset) % 86400
    let (year,mon,mday) := Civil.civilFromDays days
    { tmYear := year, tmMon := mon, tmMday := mday
      tmHour := rem / 3600, tmMin := rem % 3600 / 60, tmSec := rem % 60
      tmWday := (days + 3) % 7, tmYday := days - Civil.daysFromCivil year 1 1 + 1, tmIsdst := 0 }
  mktime tm := (Civil.daysFromCivil tm.tmYear tm.tmMon tm.tmMday * 86400 + tm.tmHour * 3600 +
    tm.tmMin * 60 + tm.tmSec - offset : ℤ)

namespace ScheduleSpec

variable (spec : ScheduleSpec)

/-- The times that a schedule asks for, seen from `now`: whole intervals from there, or the
beginning of its minute on each day or on its weekday. -/
def Due (zone : LocalZone) (now t : ℚ) : Prop :=
  if spec.kind = "interval" then ∃ k : ℤ, t = now + k * spec.everySeconds
  else
    (⌊t⌋ : ℚ) = t ∧ spec.parseAt = some ((zone.localtime t).tmHour,(zone.localtime t).tmMin) ∧
      (zone.localtime t).tmSec = 0 ∧
      (spec.kind = "weekly" → (zone.localtime t).tmWday = spec.weekday)

variable {spec} {now t : ℚ} {offset : ℤ} {at' : ℤ × ℤ}

/-- The time of day of a schedule, on the day with a number. -/
def onDay (offset : ℤ) (at' : ℤ × ℤ) (d : ℤ) : ℤ := d * 86400 + at'.1 * 3600 + at'.2 * 60 - offset

theorem parseAt_bounds (h : spec.parseAt = some at') :
    0 ≤ at'.1 ∧ at'.1 ≤ 23 ∧ 0 ≤ at'.2 ∧ at'.2 ≤ 59 := by
  rw [parseAt] at h
  split at h
  · obtain ⟨hh,-,h⟩ := Option.bind_eq_some_iff.mp h
    obtain ⟨mm,-,h⟩ := Option.bind_eq_some_iff.mp h
    obtain ⟨hbounds,hat⟩ := Option.ite_none_right_eq_some.mp h
    exact Option.some.inj hat ▸ hbounds
  · exact nomatch h

/-- A schedule with a time of day is due at that time of some day. -/
theorem due_iff (hkind : spec.kind ≠ "interval") (hat : spec.parseAt = some at') :
    spec.Due (.fixed offset) now t ↔ ∃ d : ℤ, t = onDay offset at' d ∧
      (spec.kind = "weekly" → (d + 3) % 7 = spec.weekday) := by
  obtain ⟨hh0,hh1,hm0,hm1⟩ := parseAt_bounds hat
  rw [Due,if_neg hkind,hat]
  simp only [LocalZone.fixed,Option.some.injEq,Prod.ext_iff]
  constructor
  · rintro ⟨ht,⟨hhour,hmin⟩,hsec,hweekday⟩
    have hfloor : ⌊t⌋ = onDay offset at' ((⌊t⌋ + offset) / 86400) := by
      rw [onDay]
      omega
    exact ⟨_,ht.symm.trans (congrArg _ hfloor),hweekday⟩
  · rintro ⟨d,rfl,hweekday⟩
    rw [Int.floor_intCast]
    have hday : (onDay offset at' d + offset) / 86400 = d := by
      rw [onDay]
      omega
    rw [hday]
    refine ⟨rfl,⟨?_,?_⟩,?_,hweekday⟩ <;> rw [onDay] <;> omega

theorem isLeast_onDay_iff (hkind : spec.kind ≠ "interval") (hat : spec.parseAt = some at') (n : ℤ) :
    IsLeast {t | now < t ∧ spec.Due (.fixed offset) now t} (onDay offset at' n) ↔
      (⌊now⌋ < onDay offset at' n ∧ (spec.kind = "weekly" → (n + 3) % 7 = spec.weekday)) ∧
        ∀ d, ⌊now⌋ < onDay offset at' d → (spec.kind = "weekly" → (d + 3) % 7 = spec.weekday) →
          n ≤ d := by
  have hmono : ∀ d d', onDay offset at' d ≤ onDay offset at' d' ↔ d ≤ d' := by
    intro d d'
    rw [onDay,onDay]
    omega
  constructor
  · rintro ⟨⟨hnow,hdue⟩,hleast⟩
    obtain ⟨d,hd,hweekday⟩ := (due_iff hkind hat).mp hdue
    obtain rfl : n = d := le_antisymm ((hmono _ _).mp (Int.cast_injective hd).le)
      ((hmono _ _).mp (Int.cast_injective hd).ge)
    refine ⟨⟨Int.floor_lt.mpr hnow,hweekday⟩,fun d' hnow' hweekday' => ?_⟩
    have hle := hleast ⟨Int.floor_lt.mp hnow',(due_iff hkind hat).mpr ⟨d',rfl,hweekday'⟩⟩
    exact (hmono _ _).mp (by exact_mod_cast hle)
  · rintro ⟨⟨hnow,hweekday⟩,hleast⟩
    refine ⟨⟨Int.floor_lt.mp hnow,(due_iff hkind hat).mpr ⟨n,rfl,hweekday⟩⟩,?_⟩
    rintro t ⟨hnow',hdue⟩
    obtain ⟨d,rfl,hweekday'⟩ := (due_iff hkind hat).mp hdue
    exact_mod_cast (hmono _ _).mpr (hleast d (Int.floor_lt.mpr hnow') hweekday')

/-- The day of the next run: today, tomorrow, or the day the weekday names. -/
theorem nextRunAt_fixed (hkind : spec.kind ≠ "interval") (hat : spec.parseAt = some at') :
    spec.nextRunAt (.fixed offset) now =
      let today := (⌊now⌋ + offset) / 86400
      let ahead := (spec.weekday - (today + 3) % 7) % 7
      some ((onDay offset at' (if ⌊now⌋ < onDay offset at' today then today
        else if spec.kind = "daily" then today + 1
        else today + if ahead = 0 then 7 else ahead) : ℤ) : ℚ) := by
  have hbase : (LocalZone.fixed offset).mktime { (LocalZone.fixed offset).localtime now with
      tmHour := at'.1, tmMin := at'.2, tmSec := 0, tmIsdst := -1 } =
      onDay offset at' ((⌊now⌋ + offset) / 86400) := by
    simp only [LocalZone.fixed,Civil.daysFromCivil_civilFromDays,onDay]
    norm_cast
    omega
  have hnext : ∀ d k : ℤ, ((onDay offset at' d : ℤ) : ℚ) + k * 86400 = onDay offset at' (d + k) := by
    intro d k
    rw [onDay,onDay]
    push_cast
    ring
  have hwday : ((LocalZone.fixed offset).localtime now).tmWday =
      ((⌊now⌋ + offset) / 86400 + 3) % 7 := rfl
  rw [nextRunAt,if_neg hkind,hat]
  simp only [Option.getD_some,hbase]
  simp only [hwday,← Int.floor_lt]
  split_ifs with hlate hdaily hahead
  · rfl
  · exact congrArg some (by exact_mod_cast hnext _ 1)
  · exact congrArg some (hnext _ 7)
  · exact congrArg some (hnext _ _)

/-- What the checks leave: an interval, or a time of day and for a weekly schedule a weekday. -/
theorem validate_eq_none (h : spec.validate = none) :
    spec.kind = "interval" ∧ 60 ≤ spec.everySeconds ∨
      spec.kind ≠ "interval" ∧ (∃ at', spec.parseAt = some at') ∧
        (spec.kind = "daily" ∨ spec.kind = "weekly" ∧ 0 ≤ spec.weekday ∧ spec.weekday ≤ 6) := by
  rw [validate] at h
  split_ifs at h with hkind htask hinterval hevery hat hweekday
  · exact .inl ⟨hinterval,by simpa [minIntervalSeconds] using hevery⟩
  · refine .inr ⟨hinterval,Option.ne_none_iff_exists'.mp (by simpa using hat),?_⟩
    have hkinds : spec.kind = "daily" ∨ spec.kind = "weekly" := by
      simpa [scheduleKinds,hinterval] using hkind
    exact hkinds.imp_right fun hweekly => ⟨hweekly,by tauto⟩

theorem isLeast_interval (hkind : spec.kind = "interval") (hevery : 60 ≤ spec.everySeconds)
    (zone : LocalZone) :
    IsLeast {t | now < t ∧ spec.Due zone now t} (now + spec.everySeconds) := by
  have hpos : (0 : ℚ) < spec.everySeconds := by
    exact_mod_cast (by omega : 0 < spec.everySeconds)
  refine ⟨⟨by simpa using hpos,?_⟩,?_⟩
  · rw [Due,if_pos hkind]
    exact ⟨1,by simp⟩
  · rintro t ⟨hnow,hdue⟩
    rw [Due,if_pos hkind] at hdue
    obtain ⟨k,rfl⟩ := hdue
    have hk : 0 < (k : ℚ) := pos_of_mul_pos_left (by linarith) hpos.le
    have hk1 : (1 : ℚ) ≤ k := by exact_mod_cast hk
    nlinarith

/-- A time is found, and it is the first one after `now` that the schedule asks for. -/
def FindsNext (spec : ScheduleSpec) (zone : LocalZone) (now : ℚ) : Prop :=
  ∃ t, spec.nextRunAt zone now = some t ∧ IsLeast {t | now < t ∧ spec.Due zone now t} t

theorem findsNext_interval_iff (hkind : spec.kind = "interval") (hevery : 60 ≤ spec.everySeconds)
    (zone : LocalZone) : spec.FindsNext zone now ↔ spec.IsFinite := by
  rw [FindsNext,nextRunAt,if_pos hkind,IsFinite]
  split_ifs with hlimit
  · exact iff_of_true ⟨_,rfl,isLeast_interval hkind hevery zone⟩ fun _ => hlimit
  · refine iff_of_false ?_ fun h => hlimit (h hkind)
    rintro ⟨t,ht,-⟩
    cases ht

/-- A weekly schedule for Thursdays, at one in the morning. -/
def thursdays : ScheduleSpec :=
  { scheduleId := "s", kind := "weekly", atText := "01:00", weekday := 3 }

end ScheduleSpec
end FusionMultiNodes

import Mathlib.Algebra.Order.Group.Int

/-! The Gregorian calendar without end: the number of a day and its date. -/
namespace FusionMultiNodes
namespace Civil

/-- A date in a year that begins with March, so that a leap day is its last one. -/
structure MarchDate where
  year : ℤ
  month : ℤ
  day : ℤ

def MarchDate.number (date : MarchDate) : ℤ :=
  365 * date.year + date.year / 4 - date.year / 100 + date.year / 400 +
    (153 * date.month + 2) / 5 + date.day - 1

/-- The date of a day: 400 years, centuries, four years and years are taken off in turn. -/
def MarchDate.ofNumber (n : ℤ) : MarchDate :=
  let n400 := n % 146097
  let c := min (n400 / 36524) 3
  let n100 := n400 - 36524 * c
  let q := n100 / 1461
  let n4 := n100 % 1461
  let y := min (n4 / 365) 3
  let doy := n4 - 365 * y
  let month := (5 * doy + 2) / 153
  ⟨400 * (n / 146097) + 100 * c + 4 * q + y,month,doy - (153 * month + 2) / 5 + 1⟩

theorem leapDays {e c q y : ℤ} (hc : 0 ≤ c ∧ c ≤ 3) (hq : 0 ≤ q ∧ q ≤ 24) (hy : 0 ≤ y ∧ y ≤ 3) :
    let year := 400 * e + 100 * c + 4 * q + y
    365 * year + year / 4 - year / 100 + year / 400 =
      146097 * e + 36524 * c + 1461 * q + 365 * y := by
  intro year
  have h4 : year / 4 = 100 * e + 25 * c + q := by omega
  have h100 : year / 100 = 4 * e + c := by omega
  have h400 : year / 400 = e := by omega
  omega

theorem MarchDate.month_ofNumber (n : ℤ) :
    0 ≤ (ofNumber n).month ∧ (ofNumber n).month ≤ 11 := by
  simp only [ofNumber]
  omega

theorem MarchDate.number_ofNumber (n : ℤ) : (ofNumber n).number = n := by
  simp only [ofNumber,number]
  rw [leapDays] <;> omega

def daysFromCivil (year month day : ℤ) : ℤ :=
  if month ≤ 2 then (⟨year - 1,month + 9,day⟩ : MarchDate).number - 719468
  else (⟨year,month - 3,day⟩ : MarchDate).number - 719468

def MarchDate.toCivil (date : MarchDate) : ℤ × ℤ × ℤ :=
  if date.month < 10 then (date.year,date.month + 3,date.day)
  else (date.year + 1,date.month - 9,date.day)

theorem daysFromCivil_toCivil {date : MarchDate} (hlow : 0 ≤ date.month) (hhigh : date.month ≤ 11) :
    daysFromCivil date.toCivil.1 date.toCivil.2.1 date.toCivil.2.2 = date.number - 719468 := by
  rw [MarchDate.toCivil]
  split_ifs with h
  · rw [daysFromCivil,if_neg (by dsimp only; omega),add_sub_cancel_right]
  · rw [daysFromCivil,if_pos (by dsimp only; omega),add_sub_cancel_right,sub_add_cancel]

def civilFromDays (n : ℤ) : ℤ × ℤ × ℤ := (MarchDate.ofNumber (n + 719468)).toCivil

theorem daysFromCivil_civilFromDays (n : ℤ) :
    daysFromCivil (civilFromDays n).1 (civilFromDays n).2.1 (civilFromDays n).2.2 = n := by
  obtain ⟨hlow,hhigh⟩ := MarchDate.month_ofNumber (n + 719468)
  rw [civilFromDays,daysFromCivil_toCivil hlow hhigh,MarchDate.number_ofNumber,add_sub_cancel_right]

example : civilFromDays 0 = (1970,1,1) := by decide

example : civilFromDays 19782 = (2024,2,29) := by decide

end Civil
end FusionMultiNodes

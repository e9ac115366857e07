import Mathlib.Data.Nat.Digits.Lemmas
import Mathlib.Data.List.DropRight
import Mathlib.Data.Rat.Defs

/-! Numerals. A float stands here by the decimal that its `repr` writes out, so that
reading and writing numbers is exact. -/
namespace FusionMultiNodes

abbrev Digit := Fin 10

instance neZero_ten : NeZero 10 := ⟨by decide⟩

def Digit.char (d : Digit) : Char := Char.ofNat (48 + d.val)

def digit? (c : Char) : Option Digit :=
  if h : 48 ≤ c.toNat ∧ c.toNat < 58 then some ⟨c.toNat - 48,by omega⟩ else none

@[simp] theorem digit?_char (d : Digit) : digit? d.char = some d := by
  revert d
  decide

/-- The decimal digits of `n`, most significant first. -/
def natDigits (n : ℕ) : List Digit :=
  if n = 0 then [0] else (Nat.digits 10 n).reverse.map (Fin.ofNat 10)

/-- The digits that `int` and `str` convert at most. -/
def maxStrDigits : ℕ := 4300

/-- An integer that `int` and `str` convert. -/
def hasText (n : ℤ) : Bool := decide (n.natAbs < 10^maxStrDigits)

def ofDigits (ds : List Digit) : ℕ := ds.foldl (fun a d => 10 * a + d.val) 0

theorem ofDigits_reverse (l : List ℕ) (h : ∀ d ∈ l, d < 10) :
    ofDigits (l.reverse.map (Fin.ofNat 10)) = Nat.ofDigits 10 l := by
  induction l with
  | nil => rfl
  | cons a l ih =>
    have hrec := ih fun d hd => h d (List.mem_cons_of_mem a hd)
    have ha : (Fin.ofNat 10 a).val = a := Nat.mod_eq_of_lt (h a (List.mem_cons_self ..))
    simp only [ofDigits] at hrec
    simp only [ofDigits,List.reverse_cons,List.map_append,List.foldl_append,List.map_cons,
      List.map_nil,List.foldl_cons,List.foldl_nil,hrec,ha,Nat.ofDigits_cons]
    omega

@[simp] theorem ofDigits_natDigits (n : ℕ) : ofDigits (natDigits n) = n := by
  unfold natDigits
  split_ifs with h
  · simp [h,ofDigits]
  · rw [ofDigits_reverse _ fun d hd => Nat.digits_lt_base (by omega) hd,Nat.ofDigits_digits]

theorem natDigits_cases (n : ℕ) : natDigits n = [0] ∨ ∃ d ds, d ≠ 0 ∧ natDigits n = d::ds := by
  unfold natDigits
  split_ifs with h
  · exact Or.inl rfl
  · right
    have hne : Nat.digits 10 n ≠ [] := Nat.digits_ne_nil_iff_ne_zero.mpr h
    have hlast := Nat.getLast_digit_ne_zero 10 h
    have hlt : (Nat.digits 10 n).getLast hne < 10 :=
      Nat.digits_lt_base (by omega) (List.getLast_mem hne)
    refine ⟨Fin.ofNat 10 ((Nat.digits 10 n).getLast hne),
      (Nat.digits 10 n).dropLast.reverse.map (Fin.ofNat 10),?_,?_⟩
    · intro h0
      apply hlast
      have hval := congrArg Fin.val h0
      simpa [Nat.mod_eq_of_lt hlt] using hval
    · conv_lhs => rw [← List.dropLast_append_getLast hne]
      simp

/-- The fraction digits as `repr` writes them: no trailing zero, but at least one digit. -/
def normalFrac (ds : List Digit) : List Digit :=
  match ds.rdropWhile fun d => decide (d = 0) with
  | [] => [0]
  | l => l

theorem normalFrac_idem (ds : List Digit) : normalFrac (normalFrac ds) = normalFrac ds := by
  unfold normalFrac
  cases h : ds.rdropWhile fun d => decide (d = 0) with
  | nil => rfl
  | cons a l =>
    have hdrop := List.rdropWhile_idempotent (fun d : Digit => decide (d = 0)) ds
    rw [h] at hdrop
    simp only [hdrop]

structure Decimal where
  neg : Bool
  whole : ℕ
  frac : List Digit
  canonical : normalFrac frac = frac
  deriving DecidableEq

namespace Decimal

def ofNat (n : ℕ) : Decimal := ⟨false,n,[0],rfl⟩

instance : Inhabited Decimal := ⟨ofNat 0⟩

def value (x : Decimal) : ℚ :=
  (if x.neg then -1 else 1) * (x.whole + ofDigits x.frac / 10 ^ x.frac.length)

def isZero (x : Decimal) : Bool := x.whole = 0 && x.frac = [0]

/-- The digits `ds` with the point after the first `point` of them. -/
def place (neg : Bool) (ds : List Digit) (point : ℤ) : Decimal :=
  let zeros := List.replicate point.natAbs 0
  if 0 ≤ point then
    ⟨neg,ofDigits ((ds ++ zeros).take point.natAbs),normalFrac (ds.drop point.natAbs),
      normalFrac_idem _⟩
  else ⟨neg,0,normalFrac (zeros ++ ds),normalFrac_idem _⟩

theorem place_append (neg : Bool) (ds fs : List Digit) (h : normalFrac fs = fs) :
    place neg (ds ++ fs) ds.length = ⟨neg,ofDigits ds,fs,h⟩ := by
  simp [place,h]

def repr (x : Decimal) : List Char :=
  (if x.neg then ['-'] else []) ++
    (natDigits x.whole).map Digit.char ++ '.'::x.frac.map Digit.char

end Decimal

def intRepr (n : ℤ) : List Char :=
  (if n < 0 then ['-'] else []) ++ (natDigits n.natAbs).map Digit.char

theorem natDigits_inj {m n : ℕ} (h : natDigits m = natDigits n) : m = n := by
  have hread := ofDigits_natDigits m
  rw [h,ofDigits_natDigits] at hread
  exact hread.symm

theorem map_char_inj {ds es : List Digit} (h : ds.map Digit.char = es.map Digit.char) : ds = es := by
  have hread := congrArg (List.map digit?) h
  simp only [List.map_map,Function.comp_def,digit?_char] at hread
  exact List.map_injective_iff.mpr (Option.some_injective _) hread

theorem underscore_not_mem_digits (ds : List Digit) : '_' ∉ ds.map Digit.char := by
  have hdigit : ∀ d : Digit, d.char ≠ '_' := by decide
  intro h
  obtain ⟨d,-,hd⟩ := List.mem_map.mp h
  exact hdigit d hd

/-- What stands behind the last separator determines both parts. -/
theorem append_sep_inj {c : Char} {a b p q : List Char} (hp : c ∉ p) (hq : c ∉ q)
    (h : a ++ c::p = b ++ c::q) : a = b ∧ p = q := by
  rcases List.append_eq_append_iff.mp h with ⟨t,hb,ht⟩ | ⟨t,ha,ht⟩
  · cases t with
    | nil =>
      rw [List.nil_append] at ht
      exact ⟨by rw [hb,List.append_nil],(List.cons.inj ht).2⟩
    | cons x t =>
      have hmem : c ∈ p := by
        rw [(List.cons.inj ht).2]
        exact List.mem_append_right t (List.mem_cons_self ..)
      exact absurd hmem hp
  · cases t with
    | nil =>
      rw [List.nil_append] at ht
      exact ⟨by rw [ha,List.append_nil],(List.cons.inj ht).2.symm⟩
    | cons x t =>
      have hmem : c ∈ q := by
        rw [(List.cons.inj ht).2]
        exact List.mem_append_right t (List.mem_cons_self ..)
      exact absurd hmem hq

end FusionMultiNodes

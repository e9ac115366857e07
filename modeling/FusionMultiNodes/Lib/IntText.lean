import FusionMultiNodes.Lib.Decimal

/-! Integers that are read from text, with the digits and blanks of every script. -/
namespace FusionMultiNodes

/-- The zeros of the scripts with decimal digits, in Unicode 14. -/
def decimalZeros : List ℕ :=
  [0x30,0x660,0x6F0,0x7C0,0x966,0x9E6,0xA66,0xAE6,0xB66,0xBE6,0xC66,0xCE6,0xD66,0xDE6,
    0xE50,0xED0,0xF20,0x1040,0x1090,0x17E0,0x1810,0x1946,0x19D0,0x1A80,0x1A90,0x1B50,
    0x1BB0,0x1C40,0x1C50,0xA620,0xA8D0,0xA900,0xA9D0,0xA9F0,0xAA50,0xABF0,0xFF10,0x104A0,
    0x10D30,0x11066,0x110F0,0x11136,0x111D0,0x112F0,0x11450,0x114D0,0x11650,0x116C0,
    0x11730,0x118E0,0x11950,0x11C50,0x11D50,0x11DA0,0x16A60,0x16AC0,0x16B50,0x1D7CE,
    0x1D7D8,0x1D7E2,0x1D7EC,0x1D7F6,0x1E140,0x1E2F0,0x1E950,0x1FBF0]

def decimal? (c : Char) : Option Digit :=
  (decimalZeros.find? fun z => decide (z ≤ c.toNat ∧ c.toNat < z+10)).map fun z =>
    Fin.ofNat 10 (c.toNat-z)

/-- The blanks that may stand around a number. -/
def isBlank (c : Char) : Bool :=
  let n := c.toNat
  (9 ≤ n && n ≤ 13) || n = 0x20 || n = 0x85 || n = 0xA0 || n = 0x1680 ||
    (0x2000 ≤ n && n ≤ 0x200A) || n = 0x2028 || n = 0x2029 || n = 0x202F || n = 0x205F || n = 0x3000

def trimBlanks (s : List Char) : List Char := (s.dropWhile isBlank).rdropWhile isBlank

/-- Digits with single underscores between them. -/
def readDigits (afterDigit : Bool) : List Char → Option (List Digit)
  | [] => if afterDigit then some [] else none
  | c::s =>
    if c = '_' then if afterDigit then readDigits false s else none
    else do
      let d ← decimal? c
      let ds ← readDigits true s
      some (d::ds)

/-- `int` of a text; `none` where it raises `ValueError`, as for more than 4300 digits. -/
def intOfText (s : List Char) : Option ℤ :=
  let magnitude (r : List Char) : Option ℤ :=
    (readDigits false r).bind fun ds =>
      if ds.length ≤ maxStrDigits then some (ofDigits ds) else none
  match trimBlanks s with
  | '-'::r => (magnitude r).map fun n => -n
  | '+'::r => magnitude r
  | r => magnitude r

example : intOfText "\u00a0-٠_९".toList = some (-9) := by decide

end FusionMultiNodes

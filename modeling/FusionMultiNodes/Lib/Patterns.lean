import Mathlib.Data.List.Basic

/-! File name patterns as `fnmatch` reads them, and patterns with stars with the regular expressions
that a program makes of them. -/
namespace FusionMultiNodes

section Glob

inductive GlobToken
  | star
  | any
  | char (c : Char)
  /-- Characters of some ranges, or all others. -/
  | set (negated : Bool) (ranges : List (Char × Char))

/-- The ranges of a class; a character that is not part of a range is one with itself. -/
def classRanges : List Char → List (Char × Char)
  | [] => []
  | [a] => [(a,a)]
  | [a,b] => [(a,a),(b,b)]
  | a::b::c::s => if b = '-' then (a,c)::classRanges s else (a,a)::classRanges (b::c::s)

/-- The body of a class and what follows its closing bracket; a bracket at the start belongs to the
body. -/
def takeClass (s : List Char) : Option (Bool × List Char × List Char) :=
  let negated := s.head? = some '!'
  let s := if negated then s.tail else s
  let first := if s.head? = some ']' then [']'] else []
  let rest := s.drop first.length
  match rest.dropWhile fun c => decide (c ≠ ']') with
  | [] => none
  | _::after => some (negated,first ++ rest.takeWhile fun c => decide (c ≠ ']'),after)

def globTokens : ℕ → List Char → List GlobToken
  | 0,_ | _,[] => []
  | n+1,c::s =>
    if c = '*' then .star::globTokens n s
    else if c = '?' then .any::globTokens n s
    else if c = '[' then
      match takeClass s with
      | none => .char c::globTokens n s
      | some (negated,body,after) => .set negated (classRanges body)::globTokens n after
    else .char c::globTokens n s

def GlobToken.accepts (x : Char) : GlobToken → Bool
  | star => false
  | any => true
  | char c => decide (x = c)
  | set negated ranges => negated != ranges.any fun r => decide (r.1 ≤ x ∧ x ≤ r.2)

/-- The tokens match the whole text; what follows a star matches some end of it. -/
def matchTokens : List GlobToken → List Char → Bool
  | [] => fun s => s.isEmpty
  | .star::ts => fun s => s.tails.any (matchTokens ts)
  | t::ts => fun
    | [] => false
    | x::s => t.accepts x && matchTokens ts s

/-- `fnmatch.fnmatch` on a system where names have one case. -/
def fnmatch (name pattern : List Char) : Bool :=
  matchTokens (globTokens pattern.length pattern) name

end Glob

section Wildcard

/-- What can be left of a text when characters that pass are taken off its front. -/
def restsAfter (passes : Char → Bool) : List Char → List (List Char)
  | [] => [[]]
  | x::s => (x::s)::if passes x then restsAfter passes s else []

/-- The characters of the pattern stand in place, and a star stands for characters that pass. -/
def wildMatch (same : Char → Char → Bool) (passes : Char → Bool) : List Char → List Char → Bool
  | [] => fun s => s.isEmpty
  | c::p => fun s =>
    if c = '*' then (restsAfter passes s).any (wildMatch same passes p)
    else match s with
      | [] => false
      | x::s => same c x && wildMatch same passes p s

/-- `"\n"` is the one character that a dot does not match. -/
def notNewline (x : Char) : Bool := decide (x ≠ '\n')

/-- `re.fullmatch` of an expression in which only dots, and stars behind them, are special. -/
def fullmatch : List Char → List Char → Bool
  | [] => fun s => s.isEmpty
  | '.' :: '*' :: r => fun s => (restsAfter notNewline s).any (fullmatch r)
  | c::r => fun
    | [] => false
    | x::s => (if c = '.' then notNewline x else decide (c = x)) && fullmatch r s

def starsToDots (pattern : List Char) : List Char :=
  pattern.flatMap fun c => if c = '*' then ['.','*'] else [c]

def Literal (pattern s : List Char) : Prop :=
  wildMatch (fun c x => decide (c = x)) (fun _ => true) pattern s = true

def Dotted (pattern s : List Char) : Prop :=
  wildMatch (fun c x => if c = '.' then notNewline x else decide (c = x)) notNewline pattern s = true

theorem wildMatch_of_ne {same : Char → Char → Bool} {passes : Char → Bool} {c : Char}
    (h : c ≠ '*') (p s : List Char) : wildMatch same passes (c::p) s = match s with
      | [] => false
      | x::s => same c x && wildMatch same passes p s :=
  if_neg h

theorem fullmatch_star (r s : List Char) :
    fullmatch ('.' :: '*' :: r) s = (restsAfter notNewline s).any (fullmatch r) := rfl

theorem fullmatch_cons {c : Char} {r : List Char} (h : r.head? ≠ some '*') (s : List Char) :
    fullmatch (c::r) s = match s with
      | [] => false
      | x::s => (if c = '.' then notNewline x else decide (c = x)) && fullmatch r s := by
  rw [fullmatch.eq_3]
  intro r' hc hr
  exact h (by rw [hr]; rfl)

theorem head?_starsToDots (pattern : List Char) : (starsToDots pattern).head? ≠ some '*' := by
  cases pattern with
  | nil => exact fun h => nomatch h
  | cons c p =>
    rw [starsToDots,List.flatMap_cons]
    split_ifs with hc
    · exact fun h => absurd (Option.some.inj h) (by decide)
    · exact fun h => hc (Option.some.inj h)

/-- The expression that is made of a pattern reads its dots as any character. -/
theorem fullmatch_starsToDots (pattern s : List Char) :
    fullmatch (starsToDots pattern) s = true ↔ Dotted pattern s := by
  unfold Dotted
  induction pattern generalizing s with
  | nil => rfl
  | cons c p ih =>
    by_cases hc : c = '*'
    · subst hc
      show fullmatch ('.' :: '*' :: starsToDots p) s = true ↔ (restsAfter notNewline s).any _ = true
      rw [fullmatch_star,List.any_eq_true,List.any_eq_true]
      exact exists_congr fun rest => and_congr_right fun _ => ih rest
    · have hcons : starsToDots (c::p) = c::starsToDots p := by
        rw [starsToDots,List.flatMap_cons,if_neg hc]
        rfl
      rw [hcons,fullmatch_cons (head?_starsToDots p),wildMatch_of_ne hc]
      cases s with
      | nil => rfl
      | cons x s =>
        rw [Bool.and_eq_true,Bool.and_eq_true]
        exact and_congr_right fun _ => ih s

end Wildcard

end FusionMultiNodes

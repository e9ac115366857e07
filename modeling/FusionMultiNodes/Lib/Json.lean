import FusionMultiNodes.Lib.Decimal
import FusionMultiNodes.Lib.Dict
import FusionMultiNodes.Lib.Utf8

/-! JSON documents as `json.dumps` writes them, with and without `ensure_ascii`, and
`json.loads` reads them: what is written is read back, and no proper part of a written object
reads as a document. -/
namespace FusionMultiNodes

/-- A document whose fractions are of the type `F`. -/
inductive Json (F : Type := Decimal) where
  | null
  | bool (b : Bool)
  | int (n : ℤ)
  | float (x : F)
  | str (s : String)
  | arr (l : List (Json F))
  | obj (ms : List (String × Json F))

namespace Json

/-- `d.get(key)` of a decoded object: of several members with one key the last counts. -/
def get? {F : Type} (key : String) : Json F → Option (Json F)
  | .obj ms => (ms.reverse.find? fun m => decide (m.1 = key)).map Prod.snd
  | _ => none

def hexChar (n : ℕ) : Char := if n < 10 then Char.ofNat (48 + n) else Char.ofNat (87 + n)

def escapeChar (c : Char) : List Char :=
  if c = '"' then ['\\','"']
  else if c = '\\' then ['\\','\\']
  else if c = '\n' then ['\\','n']
  else if c = '\r' then ['\\','r']
  else if c = '\t' then ['\\','t']
  else if c = Char.ofNat 12 then ['\\','f']
  else if c = Char.ofNat 8 then ['\\','b']
  else if c.toNat < 32 then ['\\','u','0','0',hexChar (c.toNat / 16),hexChar (c.toNat % 16)]
  else [c]

def hexUnit (u : ℕ) : List Char :=
  ['\\','u',hexChar (u / 4096 % 16),hexChar (u / 256 % 16),hexChar (u / 16 % 16),hexChar (u % 16)]

/-- The escapes of `ensure_ascii`: what is not printable ASCII becomes UTF-16 code units. -/
def escapeAscii (c : Char) : List Char :=
  if c.toNat < 127 then escapeChar c
  else if c.toNat < 0x10000 then hexUnit c.toNat
  else hexUnit (0xD800 + (c.toNat - 0x10000) / 0x400) ++
    hexUnit (0xDC00 + (c.toNat - 0x10000) % 0x400)

section
variable (esc : Char → List Char)

def quote (s : String) : List Char := '"'::s.toList.flatMap esc ++ ['"']

mutual
/-- `json.dumps` with the characters of strings escaped by `esc`. -/
def write : Json → List Char
  | .null => ['n','u','l','l']
  | .bool true => ['t','r','u','e']
  | .bool false => ['f','a','l','s','e']
  | .int n => intRepr n
  | .float x => x.repr
  | .str s => quote esc s
  | .arr [] => ['[',']']
  | .arr (v::vs) => '['::write v ++ writeElems vs
  | .obj [] => ['{','}']
  | .obj (m::ms) => '{' :: quote esc m.1 ++ ':' :: ' ' :: write m.2 ++ writeMembers ms

def writeElems : List Json → List Char
  | [] => [']']
  | v::vs => ',' :: ' ' :: write v ++ writeElems vs

def writeMembers : List (String × Json) → List Char
  | [] => ['}']
  | m::ms => ',' :: ' ' :: quote esc m.1 ++ ':' :: ' ' :: write m.2 ++ writeMembers ms
end

end

def dumps (v : Json) : List Char := write escapeChar v

def dumpsAscii (v : Json) : List Char := write escapeAscii v

def takeDigits : List Char → List Digit × List Char
  | [] => ([],[])
  | c::s =>
    match digit? c with
    | some d => (d::(takeDigits s).1,(takeDigits s).2)
    | none => ([],c::s)

def takeInt : List Char → Option (List Digit × List Char)
  | [] => none
  | c::s =>
    match digit? c with
    | some d => if d = 0 then some ([0],s) else some (d::(takeDigits s).1,(takeDigits s).2)
    | none => none

def takeFrac : List Char → List Digit × List Char
  | [] => ([],[])
  | c::s => if c = '.' ∧ (takeDigits s).1 ≠ [] then takeDigits s else ([],c::s)

def takeSign (s : List Char) : Bool × List Char :=
  if s.head? = some '-' then (true,s.tail)
  else if s.head? = some '+' then (false,s.tail)
  else (false,s)

def takeExp : List Char → Option ℤ × List Char
  | [] => (none,[])
  | c::s =>
    if (c = 'e' ∨ c = 'E') ∧ (takeDigits (takeSign s).2).1 ≠ [] then
      (some ((if (takeSign s).1 then -1 else 1) * ofDigits (takeDigits (takeSign s).2).1),
        (takeDigits (takeSign s).2).2)
    else (none,c::s)

def numberOf (neg : Bool) (ds fs : List Digit) : Option ℤ → Json
  | some e => .float (Decimal.place neg (ds ++ fs) (ds.length + e))
  | none =>
    if fs = [] then .int ((if neg then -1 else 1) * ofDigits ds)
    else .float (Decimal.place neg (ds ++ fs) ds.length)

def readUnsigned (neg : Bool) (s : List Char) : Option (Json × List Char) :=
  (takeInt s).map fun p =>
    (numberOf neg p.1 (takeFrac p.2).1 (takeExp (takeFrac p.2).2).1,(takeExp (takeFrac p.2).2).2)

def readNumber : List Char → Option (Json × List Char)
  | [] => none
  | c::s => if c = '-' then readUnsigned true s else readUnsigned false (c::s)

def hex? (c : Char) : Option ℕ :=
  if 48 ≤ c.toNat ∧ c.toNat < 58 then some (c.toNat - 48)
  else if 97 ≤ c.toNat ∧ c.toNat < 103 then some (c.toNat - 87)
  else if 65 ≤ c.toNat ∧ c.toNat < 71 then some (c.toNat - 55)
  else none

def hex4 (a b c d : Char) : Option ℕ :=
  match hex? a,hex? b,hex? c,hex? d with
  | some a,some b,some c,some d => some (4096 * a + 256 * b + 16 * c + d)
  | _,_,_,_ => none

def unescape (c : Char) : Option ℕ :=
  if c = '"' then some 34
  else if c = '\\' then some 92
  else if c = '/' then some 47
  else if c = 'b' then some 8
  else if c = 'f' then some 12
  else if c = 'n' then some 10
  else if c = 'r' then some 13
  else if c = 't' then some 9
  else none

def readHex : List Char → Option (Option ℕ × List Char)
  | a::b::c::d::r => (hex4 a b c d).map fun u => (some u,r)
  | _ => none

/-- One code point of a string body; `none` inside for the closing quote. -/
def readPoint : List Char → Option (Option ℕ × List Char)
  | [] => none
  | c::s =>
    if c = '"' then some (none,s)
    else if c ≠ '\\' then if c.toNat < 32 then none else some (some c.toNat,s)
    else
      match s with
      | [] => none
      | e::r => if e = 'u' then readHex r else (unescape e).map fun u => (some u,r)

/-- The code points of a string body, up to and without its closing quote. -/
def readPoints : ℕ → List Char → Option (List ℕ × List Char)
  | 0, _ => none
  | n+1, s =>
    match readPoint s with
    | none => none
    | some (none,r) => some ([],r)
    | some (some u,r) => (readPoints n r).map fun p => (u::p.1,p.2)

/-- Join the halves of surrogate pairs; a lone half is no character. -/
def joinPairs : List ℕ → Option (List Char)
  | [] => some []
  | u::us =>
    if u < 0xD800 ∨ 0xE000 ≤ u then (joinPairs us).map (Char.ofNat u :: ·)
    else
      match us with
      | [] => none
      | l::us =>
        if u < 0xDC00 ∧ 0xDC00 ≤ l ∧ l < 0xE000 then
          (joinPairs us).map (Char.ofNat (0x10000 + 0x400 * (u - 0xD800) + (l - 0xDC00)) :: ·)
        else none

def readString (s : List Char) : Option (String × List Char) :=
  (readPoints (s.length + 1) s).bind fun p => (joinPairs p.1).map fun cs => (String.ofList cs,p.2)

def isBlank (c : Char) : Bool := c = ' ' || c = '\t' || c = '\n' || c = '\r'

def skipBlanks (s : List Char) : List Char := s.dropWhile isBlank

def expect : List Char → List Char → Option (List Char)
  | [], s => some s
  | _::_, [] => none
  | w::ws, c::s => if w = c then expect ws s else none

/-- After an item of a list: the list closes, or a comma brings `more`. -/
def readRest {α : Type} (close : Char) (more : List Char → Option (List α × List Char)) (a : α)
    (s : List Char) : Option (List α × List Char) :=
  match skipBlanks s with
  | [] => none
  | c::r =>
    if c = close then some ([a],r)
    else if c = ',' then (more (skipBlanks r)).map fun q => (a::q.1,q.2)
    else none

mutual
/-- The value at the front and what follows it; `none` where the decoder raises. -/
def readValue : ℕ → List Char → Option (Json × List Char)
  | 0, _ => none
  | _+1, [] => none
  | n+1, c::s =>
    if c = '"' then (readString s).map fun p => (.str p.1,p.2)
    else if c = '{' then
      if (skipBlanks s).head? = some '}' then some (.obj [],(skipBlanks s).tail)
      else (readMembers n (skipBlanks s)).map fun p => (.obj p.1,p.2)
    else if c = '[' then
      if (skipBlanks s).head? = some ']' then some (.arr [],(skipBlanks s).tail)
      else (readElems n (skipBlanks s)).map fun p => (.arr p.1,p.2)
    else if c = 'n' then (expect ['u','l','l'] s).map fun r => (.null,r)
    else if c = 't' then (expect ['r','u','e'] s).map fun r => (.bool true,r)
    else if c = 'f' then (expect ['a','l','s','e'] s).map fun r => (.bool false,r)
    else readNumber (c::s)

def readElems : ℕ → List Char → Option (List Json × List Char)
  | 0, _ => none
  | n+1, s => (readValue n s).bind fun p => readRest ']' (readElems n) p.1 p.2

def readMembers : ℕ → List Char → Option (List (String × Json) × List Char)
  | 0, _ => none
  | n+1, s =>
    (expect ['"'] s).bind fun s => (readString s).bind fun k =>
    (expect [':'] (skipBlanks k.2)).bind fun s => (readValue n (skipBlanks s)).bind fun p =>
      readRest '}' (readMembers n) (k.1,p.1) p.2
end

def loads (s : List Char) : Option Json :=
  (readValue (s.length + 1) (skipBlanks s)).bind fun p =>
    if skipBlanks p.2 = [] then some p.1 else none

/-- `json.dumps(v, ensure_ascii=False).encode("utf-8")`. -/
def encode (v : Json) : Bytes := encodeUtf8 (dumps v)

def encodeAscii (v : Json) : Bytes := encodeUtf8 (dumpsAscii v)

/-- `json.loads(b.decode("utf-8"))`; `none` where either raises. -/
def decode (b : Bytes) : Option Json := (decodeUtf8 b).bind loads

def asStr : Json → Option String
  | .str s => some s
  | _ => none

def asInt : Json → Option ℤ
  | .int n => some n
  | _ => none

def asFloat : Json → Option Decimal
  | .float x => some x
  | _ => none

def asBool : Json → Option Bool
  | .bool b => some b
  | _ => none

def asArr : Json → Option (List Json)
  | .arr l => some l
  | _ => none

def asObj : Json → Option Json
  | .obj ms => some (.obj ms)
  | _ => none

def required {α : Type} (read : Json → Option α) (key : String) (j : Json) : Option α :=
  (j.get? key).bind read

def optional {α : Type} (read : Json → Option α) (key : String) (default : α) (j : Json) :
    Option α :=
  match j.get? key with
  | some v => read v
  | none => some default

end Json

abbrev JsonDict := Dict String Json

/-- A dictionary display: of several entries with one key the last counts. -/
def dictOf (l : List (String × Json)) : JsonDict := l.foldl (fun d p => d.set p.1 p.2) ∅

def Json.ofDict (d : JsonDict) : Json := .obj d.entries

@[simp] theorem dictOf_entries (d : JsonDict) : dictOf d.entries = d := by
  apply Dict.ext_entries
  exact Dict.entries_foldl_set (d := (∅ : JsonDict)) d.nodup

end FusionMultiNodes

import Mathlib.Data.List.Sort
import FusionMultiNodes.Lib.JsonLaws

/-! JSON without blanks and with sorted keys, as bytes to be signed are written: what is written is
read back, so that equal bytes come from equal documents. -/
namespace FusionMultiNodes
namespace Json

mutual
/-- `json.dumps(v, separators=(",", ":"), ensure_ascii=False)`. -/
def compact : Json → List Char
  | .null => ['n','u','l','l']
  | .bool true => ['t','r','u','e']
  | .bool false => ['f','a','l','s','e']
  | .int n => intRepr n
  | .float x => x.repr
  | .str s => quote escapeChar s
  | .arr [] => ['[',']']
  | .arr (v::vs) => '['::compact v ++ compactElems vs
  | .obj [] => ['{','}']
  | .obj (m::ms) => '{' :: quote escapeChar m.1 ++ ':' :: compact m.2 ++ compactMembers ms

def compactElems : List Json → List Char
  | [] => [']']
  | v::vs => ',' :: compact v ++ compactElems vs

def compactMembers : List (String × Json) → List Char
  | [] => ['}']
  | m::ms => ',' :: quote escapeChar m.1 ++ ':' :: compact m.2 ++ compactMembers ms
end

def sortMembers (ms : List (String × Json)) : List (String × Json) :=
  ms.insertionSort fun a b => a.1 ≤ b.1

mutual
/-- The document with the members of its objects sorted by their keys. -/
def sortKeys : Json → Json
  | .arr vs => .arr (sortKeysElems vs)
  | .obj ms => .obj (sortMembers (sortKeysMembers ms))
  | v => v

def sortKeysElems : List Json → List Json
  | [] => []
  | v::vs => sortKeys v::sortKeysElems vs

def sortKeysMembers : List (String × Json) → List (String × Json)
  | [] => []
  | m::ms => (m.1,sortKeys m.2)::sortKeysMembers ms
end

/-- `json.dumps(v, sort_keys=True, separators=(",", ":"), ensure_ascii=False).encode("utf-8")`. -/
def canonical (v : Json) : Bytes := encodeUtf8 (compact (sortKeys v))

theorem starts_compact (v : Json) : Starts (compact v) := by
  have hwrite := starts_write escapeChar v
  cases v with
  | null => exact ⟨_,_,by rw [compact],by decide⟩
  | bool b => cases b <;> exact ⟨_,_,by rw [compact],by decide⟩
  | int n =>
    rw [write] at hwrite
    rwa [compact]
  | float x =>
    rw [write] at hwrite
    rwa [compact]
  | str s => exact ⟨'"',_,by rw [compact,quote]; rfl,by decide⟩
  | arr l =>
    cases l with
    | nil => exact ⟨_,_,by rw [compact],by decide⟩
    | cons a l => exact ⟨'[',_,by rw [compact]; rfl,by decide⟩
  | obj l =>
    cases l with
    | nil => exact ⟨_,_,by rw [compact],by decide⟩
    | cons a l => exact ⟨'{',_,by rw [compact]; rfl,by decide⟩

theorem endsNumber_compactElems (vs : List Json) (r : List Char) :
    EndsNumber (compactElems vs ++ r) := by
  cases vs <;> rw [compactElems] <;> exact endsNumber_cons (by decide)

theorem endsNumber_compactMembers (ms : List (String × Json)) (r : List Char) :
    EndsNumber (compactMembers ms ++ r) := by
  cases ms <;> rw [compactMembers] <;> exact endsNumber_cons (by decide)

theorem readRest_compact {α : Type} {close : Char} (h : close ≠ ',')
    (more : List Char → Option (List α × List Char)) (a : α) (r : List Char) :
    readRest close more a (',' :: r) = (more (skipBlanks r)).map fun q => (a::q.1,q.2) := by
  have hcomma : skipBlanks (',' :: r) = ',' :: r := skipBlanks_of_head (by decide)
  simp [readRest,hcomma,h.symm]

theorem readMembers_compactKey (k : String) (n : ℕ) (s : List Char) :
    readMembers (n+1) (quote escapeChar k ++ ':' :: s) =
      (readValue n (skipBlanks s)).bind fun p => readRest '}' (readMembers n) (k,p.1) p.2 := by
  have hcolon : skipBlanks (':' :: s) = ':' :: s := skipBlanks_of_head (by decide)
  rw [quote_append,readMembers]
  simp [expect,escapes_escapeChar.readString_quote,hcolon]

mutual
theorem readValue_compact :
    ∀ (v : Json) (n : ℕ) (r : List Char), (compact v).length ≤ n →
    EndsNumber r → readValue n (compact v ++ r) = some (v,r)
  | v, 0, r, h, _ => absurd h (Nat.not_le.mpr (starts_compact v).length_pos)
  | .null, n+1, r, _, _ => by
    have hword := expect_self ['u','l','l'] r
    simp only [List.cons_append,List.nil_append] at hword
    simp [compact,readValue,hword]
  | .bool true, n+1, r, _, _ => by
    have hword := expect_self ['r','u','e'] r
    simp only [List.cons_append,List.nil_append] at hword
    simp [compact,readValue,hword]
  | .bool false, n+1, r, _, _ => by
    have hword := expect_self ['a','l','s','e'] r
    simp only [List.cons_append,List.nil_append] at hword
    simp [compact,readValue,hword]
  | .int k, n+1, r, _, hr => by
    rw [compact,readValue_number (starts_number_int k) n r,readNumber_intRepr k hr]
  | .float x, n+1, r, _, hr => by
    rw [compact,readValue_number (starts_number_float x) n r,readNumber_repr x hr]
  | .str s, n+1, r, _, _ => by
    have hread := escapes_escapeChar.readString_quote s r
    simp [compact,quote,readValue,hread]
  | .arr [], n+1, r, _, _ => by simp [compact,readValue,skipBlanks,isBlank]
  | .arr (v::vs), n+1, r, h, _ => by
    obtain ⟨c,s,hs,hc,-,hbracket⟩ := starts_compact v
    have helems := readElems_compact v vs n r (by simp [compact] at h ⊢; omega)
    rw [hs,List.append_assoc,List.cons_append] at helems
    simp [compact,readValue,hs,skipBlanks_of_head hc,hbracket,helems]
  | .obj [], n+1, r, _, _ => by simp [compact,readValue,skipBlanks,isBlank]
  | .obj ((k,v)::ms), n+1, r, h, _ => by
    have hmembers := readMembers_compact k v ms n r (by simp [compact] at h ⊢; omega)
    have hquote : isBlank '"' = false := by decide
    rw [List.append_assoc,List.append_assoc,quote_append escapeChar] at hmembers
    rw [compact,List.cons_append,List.append_assoc,List.cons_append,List.append_assoc,
      quote_append escapeChar]
    simp only [List.cons_append] at hmembers ⊢
    simp [readValue,skipBlanks_of_head hquote,hmembers]

theorem readElems_compact :
    ∀ (v : Json) (vs : List Json) (n : ℕ) (r : List Char),
    (compact v ++ compactElems vs).length ≤ n →
    readElems n (compact v ++ compactElems vs ++ r) = some (v::vs,r)
  | v, vs, 0, r, h => by
    have hpos := (starts_compact v).length_pos
    simp only [List.length_append] at h
    omega
  | v, [], n+1, r, h => by
    have hv := readValue_compact v n (compactElems [] ++ r) (by simp [compactElems] at h ⊢; omega)
      (endsNumber_compactElems [] r)
    have hclose : isBlank ']' = false := by decide
    rw [List.append_assoc,readElems,hv,Option.bind_some,compactElems]
    exact readRest_close hclose (readElems n) v r
  | v, w::ws, n+1, r, h => by
    have hv := readValue_compact v n (compactElems (w::ws) ++ r)
      (by simp [compactElems] at h ⊢; omega) (endsNumber_compactElems (w::ws) r)
    have hws := readElems_compact w ws n r (by simp [compactElems] at h ⊢; omega)
    have hskip := (starts_compact w).skipBlanks (compactElems ws ++ r)
    rw [List.append_assoc] at hws ⊢
    rw [readElems,hv,Option.bind_some,compactElems]
    simp only [List.cons_append,List.append_assoc]
    rw [readRest_compact (by decide),hskip,hws,Option.map_some]

theorem readMembers_compact :
    ∀ (k : String) (v : Json) (ms : List (String × Json)) (n : ℕ) (r : List Char),
    (quote escapeChar k ++ ':' :: compact v ++ compactMembers ms).length ≤ n →
    readMembers n (quote escapeChar k ++ ':' :: compact v ++ compactMembers ms ++ r) =
      some ((k,v)::ms,r)
  | k, v, ms, 0, r, h => by simp [quote] at h
  | k, v, [], n+1, r, h => by
    have hv := readValue_compact v n (compactMembers [] ++ r) (by simp [quote] at h ⊢; omega)
      (endsNumber_compactMembers [] r)
    have hskip := (starts_compact v).skipBlanks (compactMembers [] ++ r)
    have hclose : isBlank '}' = false := by decide
    rw [List.append_assoc,List.append_assoc,List.cons_append,readMembers_compactKey,hskip,hv,
      Option.bind_some,compactMembers]
    exact readRest_close hclose (readMembers n) (k,v) r
  | k, v, (l,w)::ms, n+1, r, h => by
    have hv := readValue_compact v n (compactMembers ((l,w)::ms) ++ r)
      (by simp [quote] at h ⊢; omega) (endsNumber_compactMembers ((l,w)::ms) r)
    have hms := readMembers_compact l w ms n r (by simp [compactMembers] at h ⊢; omega)
    have hskip := (starts_compact v).skipBlanks (compactMembers ((l,w)::ms) ++ r)
    have hkey : ∀ t, skipBlanks (quote escapeChar l ++ t) = quote escapeChar l ++ t :=
      fun t => skipBlanks_of_head (by decide)
    rw [List.append_assoc,List.append_assoc,List.cons_append,readMembers_compactKey,hskip,hv,
      Option.bind_some,compactMembers]
    simp only [List.append_assoc,List.cons_append] at hms ⊢
    rw [readRest_compact (by decide),hkey,hms,Option.map_some]
end

theorem loads_compact (v : Json) : loads (compact v) = some v := by
  have hskip := (starts_compact v).skipBlanks []
  have hread := readValue_compact v ((compact v).length + 1) [] (by omega) endsNumber_nil
  simp only [List.append_nil] at hskip hread
  rw [loads,hskip,hread]
  rfl

/-- Equal canonical bytes come from documents that are equal but for the order of members. -/
theorem sortKeys_of_canonical {v w : Json} (h : canonical v = canonical w) :
    sortKeys v = sortKeys w := by
  have htext : compact (sortKeys v) = compact (sortKeys w) := by
    have hdecoded := congrArg decodeUtf8 h
    rw [canonical,canonical,decodeUtf8_encodeUtf8,decodeUtf8_encodeUtf8] at hdecoded
    exact Option.some.inj hdecoded
  have hread := congrArg loads htext
  rw [loads_compact,loads_compact] at hread
  exact Option.some.inj hread

end Json
end FusionMultiNodes

import FusionMultiNodes.Lib.Json

/-! The two laws of the JSON codec. Reading is the left inverse of writing, and reading
what a longer text starts with gives the same value at the front of the longer text. -/
namespace FusionMultiNodes
namespace Json

/-- `r` cannot go on a number that stands before it. -/
def EndsNumber (r : List Char) : Prop :=
  ∀ c, r.head? = some c → digit? c = none ∧ c ≠ '.' ∧ c ≠ 'e' ∧ c ≠ 'E'

theorem endsNumber_nil : EndsNumber [] := by simp [EndsNumber]

theorem endsNumber_cons {c : Char} {r : List Char}
    (h : digit? c = none ∧ c ≠ '.' ∧ c ≠ 'e' ∧ c ≠ 'E') : EndsNumber (c::r) := by
  simpa [EndsNumber] using h

theorem takeDigits_append (ds : List Digit) {r : List Char}
    (hr : ∀ c, r.head? = some c → digit? c = none) :
    takeDigits (ds.map Digit.char ++ r) = (ds,r) := by
  induction ds with
  | nil =>
    cases r with
    | nil => rfl
    | cons c r => simp [takeDigits,hr c rfl]
  | cons d ds ih => simp [takeDigits,ih]

theorem takeInt_natDigits (n : ℕ) {r : List Char}
    (hr : ∀ c, r.head? = some c → digit? c = none) :
    takeInt ((natDigits n).map Digit.char ++ r) = some (natDigits n,r) := by
  rcases natDigits_cases n with h | ⟨d,ds,hd,h⟩
  · simp [h,takeInt]
  · simp [h,takeInt,hd,takeDigits_append ds hr]

theorem takeFrac_ends {r : List Char} (hr : EndsNumber r) : takeFrac r = ([],r) := by
  cases r with
  | nil => rfl
  | cons c r => simp [takeFrac,(hr c rfl).2.1]

theorem takeExp_ends {r : List Char} (hr : EndsNumber r) : takeExp r = (none,r) := by
  cases r with
  | nil => rfl
  | cons c r => simp [takeExp,(hr c rfl).2.2.1,(hr c rfl).2.2.2]

theorem takeFrac_digits {ds : List Digit} (h : ds ≠ []) {r : List Char} (hr : EndsNumber r) :
    takeFrac ('.'::(ds.map Digit.char ++ r)) = (ds,r) := by
  have hdigits := takeDigits_append ds fun c hc => (hr c hc).1
  simp [takeFrac,hdigits,h]

theorem char_ne_minus (d : Digit) : d.char ≠ '-' := by
  revert d
  decide

theorem readNumber_digits (n : ℕ) (r : List Char) :
    readNumber ((natDigits n).map Digit.char ++ r) =
      readUnsigned false ((natDigits n).map Digit.char ++ r) := by
  rcases natDigits_cases n with h | ⟨d,ds,-,h⟩ <;> simp [h,readNumber,char_ne_minus]

theorem readNumber_signed (neg : Bool) (n : ℕ) (r : List Char) :
    readNumber ((if neg then ['-'] else []) ++ ((natDigits n).map Digit.char ++ r)) =
      readUnsigned neg ((natDigits n).map Digit.char ++ r) := by
  cases neg with
  | true => simp [readNumber]
  | false => simpa using readNumber_digits n r

theorem readNumber_intRepr (n : ℤ) {r : List Char} (hr : EndsNumber r) :
    readNumber (intRepr n ++ r) = some (.int n,r) := by
  have hsign := readNumber_signed (decide (n < 0)) n.natAbs r
  have hint := takeInt_natDigits n.natAbs fun c hc => (hr c hc).1
  simp only [decide_eq_true_eq] at hsign
  rw [intRepr,List.append_assoc,hsign]
  simp only [readUnsigned,hint,Option.map_some,takeFrac_ends hr,takeExp_ends hr,numberOf,
    ofDigits_natDigits,if_true,Option.some.injEq,Prod.mk.injEq,and_true,Json.int.injEq,
    decide_eq_true_eq]
  split_ifs <;> omega

theorem normalFrac_ne_nil (ds : List Digit) : normalFrac ds ≠ [] := by
  unfold normalFrac
  split <;> simp_all

theorem digit?_dot : digit? '.' = none := by decide

theorem readNumber_repr (x : Decimal) {r : List Char} (hr : EndsNumber r) :
    readNumber (x.repr ++ r) = some (.float x,r) := by
  have hne : x.frac ≠ [] := x.canonical ▸ normalFrac_ne_nil x.frac
  have hint := takeInt_natDigits (r := '.'::(x.frac.map Digit.char ++ r)) x.whole
    fun c hc => by simp only [List.head?_cons,Option.some.injEq] at hc; rw [← hc,digit?_dot]
  have hfrac := takeFrac_digits hne hr
  have hplace := Decimal.place_append x.neg (natDigits x.whole) x.frac x.canonical
  have hsign := readNumber_signed x.neg x.whole ('.'::(x.frac.map Digit.char ++ r))
  rw [Decimal.repr,List.append_assoc,List.append_assoc,List.cons_append,hsign]
  simp only [readUnsigned,hint,Option.map_some,hfrac,takeExp_ends hr,numberOf,if_neg hne,hplace,
    ofDigits_natDigits]

theorem hex?_hexChar {n : ℕ} (h : n < 16) : hex? (hexChar n) = some n := by
  interval_cases n <;> decide

theorem readPoint_escapeChar (c : Char) (r : List Char) :
    readPoint (escapeChar c ++ r) = some (some c.toNat,r) := by
  unfold escapeChar
  split_ifs with h₁ h₂ h₃ h₄ h₅ h₆ h₇ h₈
  · subst h₁; simp [readPoint,unescape]
  · subst h₂; simp [readPoint,unescape]
  · subst h₃; simp [readPoint,unescape]
  · subst h₄; simp [readPoint,unescape]
  · subst h₅; simp [readPoint,unescape]
  · subst h₆; simp [readPoint,unescape]
  · subst h₇; simp [readPoint,unescape]
  · have hhigh := hex?_hexChar (n := c.toNat / 16) (by omega)
    have hlow := hex?_hexChar (n := c.toNat % 16) (by omega)
    have hzero : hex? '0' = some 0 := by decide
    simp only [readPoint,List.cons_append,readHex,hex4,hzero,hhigh,hlow]
    simp
    omega
  · simp [readPoint,h₁,h₂,h₈]

theorem readPoint_hexUnit {u : ℕ} (h : u < 65536) (r : List Char) :
    readPoint (hexUnit u ++ r) = some (some u,r) := by
  have h₁ := hex?_hexChar (show u / 4096 % 16 < 16 by omega)
  have h₂ := hex?_hexChar (show u / 256 % 16 < 16 by omega)
  have h₃ := hex?_hexChar (show u / 16 % 16 < 16 by omega)
  have h₄ := hex?_hexChar (show u % 16 < 16 by omega)
  simp only [hexUnit,readPoint,List.cons_append,List.nil_append,readHex,hex4,h₁,h₂,h₃,h₄]
  simp
  omega

/-- Each character is written by code units that the reader takes in one by one and joins to
the character again. -/
def Escapes (esc : Char → List Char) : Prop :=
  ∀ c, ∃ us : List ℕ, us.length ≤ (esc c).length ∧
    (∀ n r, readPoints (n + us.length) (esc c ++ r) =
      (readPoints n r).map fun p => (us ++ p.1,p.2)) ∧
    ∀ vs, joinPairs (us ++ vs) = (joinPairs vs).map (c :: ·)

theorem readPoints_unit {u n : ℕ} {w r : List Char} (h : readPoint (w ++ r) = some (some u,r)) :
    readPoints (n + 1) (w ++ r) = (readPoints n r).map fun p => (u::p.1,p.2) := by
  rw [readPoints,h]

theorem joinPairs_char (c : Char) (vs : List ℕ) :
    joinPairs (c.toNat::vs) = (joinPairs vs).map (c :: ·) := by
  have hc : c.toNat < 0xD800 ∨ 0xE000 ≤ c.toNat := by
    rcases c.valid with h | h
    · exact Or.inl h
    · exact Or.inr (by have := h.1; simp only [Char.toNat,UInt32.toNat] at *; omega)
  rw [joinPairs.eq_def]
  simp [hc,Char.ofNat_toNat]

theorem escapes_escapeChar : Escapes escapeChar := by
  intro c
  refine ⟨[c.toNat],?_,fun n r => readPoints_unit (readPoint_escapeChar c r),joinPairs_char c⟩
  unfold escapeChar
  split_ifs <;> simp

theorem char_lt (c : Char) : c.toNat < 0x110000 := by
  rcases c.valid with h | h
  · simp only [Char.toNat,UInt32.toNat] at *; omega
  · have := h.2; simp only [Char.toNat,UInt32.toNat] at *; omega

theorem joinPairs_pair {c : Char} (h : 0x10000 ≤ c.toNat) (vs : List ℕ) :
    joinPairs ((0xD800 + (c.toNat - 0x10000) / 0x400)::
      (0xDC00 + (c.toNat - 0x10000) % 0x400)::vs) = (joinPairs vs).map (c :: ·) := by
  have hlt := char_lt c
  have hhigh : ¬(0xD800 + (c.toNat - 0x10000) / 0x400 < 0xD800 ∨
      0xE000 ≤ 0xD800 + (c.toNat - 0x10000) / 0x400) := by omega
  have hlow : 0xD800 + (c.toNat - 0x10000) / 0x400 < 0xDC00 ∧
      0xDC00 ≤ 0xDC00 + (c.toNat - 0x10000) % 0x400 ∧
      0xDC00 + (c.toNat - 0x10000) % 0x400 < 0xE000 := by omega
  have hjoin : 0x10000 + 0x400 * (0xD800 + (c.toNat - 0x10000) / 0x400 - 0xD800) +
      (0xDC00 + (c.toNat - 0x10000) % 0x400 - 0xDC00) = c.toNat := by omega
  rw [joinPairs.eq_def]
  simp only [if_neg hhigh,if_pos hlow,hjoin,Char.ofNat_toNat]

theorem escapes_escapeAscii : Escapes escapeAscii := by
  intro c
  have hlt := char_lt c
  unfold escapeAscii
  split_ifs with hascii hbmp
  · exact escapes_escapeChar c
  · exact ⟨[c.toNat],by simp [hexUnit],fun n r => readPoints_unit (readPoint_hexUnit hbmp r),
      joinPairs_char c⟩
  · refine ⟨[0xD800 + (c.toNat - 0x10000) / 0x400,0xDC00 + (c.toNat - 0x10000) % 0x400],
      by simp [hexUnit],?_,joinPairs_pair (Nat.le_of_not_lt hbmp)⟩
    intro n r
    have hhigh : 0xD800 + (c.toNat - 0x10000) / 0x400 < 65536 := by omega
    have hlow : 0xDC00 + (c.toNat - 0x10000) % 0x400 < 65536 := by omega
    rw [List.append_assoc]
    show readPoints (n + 1 + 1) _ = _
    rw [readPoints_unit (readPoint_hexUnit hhigh _),readPoints_unit (readPoint_hexUnit hlow r)]
    cases readPoints n r <;> rfl

theorem Escapes.readPoints_quote {esc : Char → List Char} (h : Escapes esc) (cs : List Char) :
    ∃ us : List ℕ, us.length ≤ (cs.flatMap esc).length ∧ joinPairs us = some cs ∧
      ∀ n r, us.length < n → readPoints n (cs.flatMap esc ++ '"'::r) = some (us,r) := by
  induction cs with
  | nil =>
    refine ⟨[],Nat.le_refl 0,by rw [joinPairs],fun n r hn => ?_⟩
    obtain ⟨n,rfl⟩ := Nat.exists_eq_succ_of_ne_zero hn.ne'
    simp [readPoints,readPoint]
  | cons c cs ih =>
    obtain ⟨us,hlen,hread,hjoin⟩ := h c
    obtain ⟨vs,hvlen,hvjoin,hvread⟩ := ih
    refine ⟨us ++ vs,?_,by rw [hjoin,hvjoin]; rfl,fun n r hn => ?_⟩
    · simp only [List.flatMap_cons,List.length_append]
      omega
    · rw [List.length_append] at hn
      obtain ⟨m,rfl⟩ : ∃ m, n = m + us.length := ⟨n - us.length,by omega⟩
      rw [List.flatMap_cons,List.append_assoc,hread,hvread m r (by omega)]
      rfl

theorem Escapes.readString_quote {esc : Char → List Char} (h : Escapes esc) (s : String)
    (r : List Char) : readString (s.toList.flatMap esc ++ '"'::r) = some (s,r) := by
  obtain ⟨us,hlen,hjoin,hread⟩ := h.readPoints_quote s.toList
  rw [readString,hread _ _ (by simp only [List.length_append,List.length_cons]; omega)]
  simp [hjoin]

theorem skipBlanks_of_head {c : Char} {s : List Char} (h : isBlank c = false) :
    skipBlanks (c::s) = c::s := by
  simp [skipBlanks,h]

theorem skipBlanks_blank (s : List Char) : skipBlanks (' '::s) = skipBlanks s := by
  simp [skipBlanks,isBlank]

def Starts (s : List Char) : Prop :=
  ∃ c r, s = c::r ∧ isBlank c = false ∧ c ≠ '}' ∧ c ≠ ']'

theorem Starts.skipBlanks {s : List Char} (h : Starts s) (r : List Char) :
    skipBlanks (s ++ r) = s ++ r := by
  obtain ⟨c,s,rfl,hc,-⟩ := h
  exact skipBlanks_of_head hc

theorem starts_digits (n : ℕ) (r : List Char) : Starts ((natDigits n).map Digit.char ++ r) := by
  have hdigit : ∀ d : Digit, isBlank d.char = false ∧ d.char ≠ '}' ∧ d.char ≠ ']' := by decide
  rcases natDigits_cases n with h | ⟨d,ds,-,h⟩
  · exact ⟨_,_,by rw [h]; rfl,hdigit 0⟩
  · exact ⟨_,_,by rw [h]; rfl,hdigit d⟩

theorem starts_signed (neg : Bool) (n : ℕ) (r : List Char) :
    Starts ((if neg then ['-'] else []) ++ ((natDigits n).map Digit.char ++ r)) := by
  cases neg with
  | true => exact ⟨'-',_,rfl,by decide⟩
  | false => exact starts_digits n r

theorem starts_write (esc : Char → List Char) (v : Json) : Starts (write esc v) := by
  cases v with
  | null => exact ⟨_,_,by rw [write],by decide⟩
  | bool b => cases b <;> exact ⟨_,_,by rw [write],by decide⟩
  | int n =>
    have h := starts_signed (decide (n < 0)) n.natAbs []
    simpa [write,intRepr] using h
  | float x =>
    have h := starts_signed x.neg x.whole ('.'::x.frac.map Digit.char)
    simpa [write,Decimal.repr] using h
  | str s => exact ⟨_,_,by rw [write,quote]; rfl,by decide⟩
  | arr l =>
    cases l with
    | nil => exact ⟨_,_,by rw [write],by decide⟩
    | cons v vs => exact ⟨_,_,by rw [write]; rfl,by decide⟩
  | obj ms =>
    cases ms with
    | nil => exact ⟨_,_,by rw [write],by decide⟩
    | cons m ms => exact ⟨_,_,by rw [write]; rfl,by decide⟩

theorem endsNumber_writeElems (esc : Char → List Char) (vs : List Json) (r : List Char) :
    EndsNumber (writeElems esc vs ++ r) := by
  cases vs with
  | nil => rw [writeElems]; exact endsNumber_cons (by decide)
  | cons v vs => rw [writeElems]; exact endsNumber_cons (by decide)

theorem endsNumber_writeMembers (esc : Char → List Char) (ms : List (String × Json))
    (r : List Char) :
    EndsNumber (writeMembers esc ms ++ r) := by
  cases ms with
  | nil => rw [writeMembers]; exact endsNumber_cons (by decide)
  | cons m ms => rw [writeMembers]; exact endsNumber_cons (by decide)

theorem expect_self (w r : List Char) : expect w (w ++ r) = some r := by
  induction w with
  | nil => rfl
  | cons c w ih => simpa [expect] using ih

def StartsNumber (s : List Char) : Prop :=
  ∃ c r, s = c::r ∧ c ≠ '"' ∧ c ≠ '{' ∧ c ≠ '[' ∧ c ≠ 'n' ∧ c ≠ 't' ∧ c ≠ 'f'

theorem startsNumber_signed (neg : Bool) (n : ℕ) (r : List Char) :
    StartsNumber ((if neg then ['-'] else []) ++ ((natDigits n).map Digit.char ++ r)) := by
  have hdigit : ∀ d : Digit, d.char ≠ '"' ∧ d.char ≠ '{' ∧ d.char ≠ '[' ∧ d.char ≠ 'n' ∧
      d.char ≠ 't' ∧ d.char ≠ 'f' := by decide
  cases neg with
  | true => exact ⟨'-',_,rfl,by decide⟩
  | false =>
    rcases natDigits_cases n with h | ⟨d,ds,-,h⟩
    · exact ⟨_,_,by rw [h]; rfl,hdigit 0⟩
    · exact ⟨_,_,by rw [h]; rfl,hdigit d⟩

theorem readValue_number {s : List Char} (h : StartsNumber s) (n : ℕ) (r : List Char) :
    readValue (n+1) (s ++ r) = readNumber (s ++ r) := by
  obtain ⟨c,s,rfl,h₁,h₂,h₃,h₄,h₅,h₆⟩ := h
  simp [readValue,h₁,h₂,h₃,h₄,h₅,h₆]

theorem starts_number_int (k : ℤ) : StartsNumber (intRepr k) := by
  simpa [intRepr] using startsNumber_signed (decide (k < 0)) k.natAbs []

theorem starts_number_float (x : Decimal) : StartsNumber x.repr := by
  simpa [Decimal.repr] using startsNumber_signed x.neg x.whole ('.'::x.frac.map Digit.char)

theorem quote_append (esc : Char → List Char) (s : String) (r : List Char) :
    quote esc s ++ r = '"'::(s.toList.flatMap esc ++ '"'::r) := by
  simp [quote]

theorem Starts.length_pos {s : List Char} (h : Starts s) : 0 < s.length := by
  obtain ⟨c,r,rfl,-⟩ := h
  simp

theorem readRest_close {α : Type} {close : Char} (h : isBlank close = false)
    (more : List Char → Option (List α × List Char)) (a : α) (r : List Char) :
    readRest close more a (close::r) = some ([a],r) := by
  simp [readRest,skipBlanks_of_head h]

theorem readRest_comma {α : Type} {close : Char} (h : close ≠ ',')
    (more : List Char → Option (List α × List Char)) (a : α) (r : List Char) :
    readRest close more a (',' :: ' ' :: r) =
      (more (skipBlanks r)).map fun q => (a::q.1,q.2) := by
  have hcomma : skipBlanks (',' :: ' ' :: r) = ',' :: ' ' :: r := skipBlanks_of_head (by decide)
  simp [readRest,hcomma,h.symm,skipBlanks_blank]

theorem readMembers_key {esc : Char → List Char} (hesc : Escapes esc) (k : String) (n : ℕ)
    (s : List Char) :
    readMembers (n+1) (quote esc k ++ ':' :: ' ' :: s) =
      (readValue n (skipBlanks s)).bind fun p => readRest '}' (readMembers n) (k,p.1) p.2 := by
  have hcolon : skipBlanks (':' :: ' ' :: s) = ':' :: ' ' :: s := skipBlanks_of_head (by decide)
  rw [quote_append,readMembers]
  simp [expect,hesc.readString_quote,hcolon,skipBlanks_blank]

mutual
theorem readValue_write {esc : Char → List Char} (hesc : Escapes esc) :
    ∀ (v : Json) (n : ℕ) (r : List Char), (write esc v).length ≤ n →
    EndsNumber r → readValue n (write esc v ++ r) = some (v,r)
  | v, 0, r, h, _ => absurd h (Nat.not_le.mpr (starts_write esc v).length_pos)
  | .null, n+1, r, _, _ => by
    have hword := expect_self ['u','l','l'] r
    simp only [List.cons_append,List.nil_append] at hword
    simp [write,readValue,hword]
  | .bool true, n+1, r, _, _ => by
    have hword := expect_self ['r','u','e'] r
    simp only [List.cons_append,List.nil_append] at hword
    simp [write,readValue,hword]
  | .bool false, n+1, r, _, _ => by
    have hword := expect_self ['a','l','s','e'] r
    simp only [List.cons_append,List.nil_append] at hword
    simp [write,readValue,hword]
  | .int k, n+1, r, _, hr => by
    rw [write,readValue_number (starts_number_int k) n r,readNumber_intRepr k hr]
  | .float x, n+1, r, _, hr => by
    rw [write,readValue_number (starts_number_float x) n r,readNumber_repr x hr]
  | .str s, n+1, r, _, _ => by
    have hread := hesc.readString_quote s r
    simp [write,quote,readValue,hread]
  | .arr [], n+1, r, _, _ => by simp [write,readValue,skipBlanks,isBlank]
  | .arr (v::vs), n+1, r, h, _ => by
    obtain ⟨c,s,hs,hc,-,hbracket⟩ := starts_write esc v
    have helems := readElems_write hesc v vs n r (by simp [write] at h ⊢; omega)
    rw [hs,List.append_assoc,List.cons_append] at helems
    simp [write,readValue,hs,skipBlanks_of_head hc,hbracket,helems]
  | .obj [], n+1, r, _, _ => by simp [write,readValue,skipBlanks,isBlank]
  | .obj ((k,v)::ms), n+1, r, h, _ => by
    have hmembers := readMembers_write hesc k v ms n r (by simp [write] at h ⊢; omega)
    have hquote : isBlank '"' = false := by decide
    rw [List.append_assoc,List.append_assoc,quote_append esc] at hmembers
    rw [write,List.cons_append,List.append_assoc,List.cons_append,List.append_assoc,
      quote_append esc]
    simp only [List.cons_append] at hmembers ⊢
    simp [readValue,skipBlanks_of_head hquote,hmembers]

theorem readElems_write {esc : Char → List Char} (hesc : Escapes esc) :
    ∀ (v : Json) (vs : List Json) (n : ℕ) (r : List Char),
    (write esc v ++ writeElems esc vs).length ≤ n →
    readElems n (write esc v ++ writeElems esc vs ++ r) = some (v::vs,r)
  | v, vs, 0, r, h => by
    have hpos := (starts_write esc v).length_pos
    simp only [List.length_append] at h
    omega
  | v, [], n+1, r, h => by
    have hv := readValue_write hesc v n (writeElems esc [] ++ r)
      (by simp [writeElems] at h ⊢; omega)
      (endsNumber_writeElems esc [] r)
    have hclose : isBlank ']' = false := by decide
    rw [List.append_assoc,readElems,hv,Option.bind_some,writeElems]
    exact readRest_close hclose (readElems n) v r
  | v, w::ws, n+1, r, h => by
    have hv := readValue_write hesc v n (writeElems esc (w::ws) ++ r)
      (by simp [writeElems] at h ⊢; omega) (endsNumber_writeElems esc (w::ws) r)
    have hws := readElems_write hesc w ws n r (by simp [writeElems] at h ⊢; omega)
    have hskip := (starts_write esc w).skipBlanks (writeElems esc ws ++ r)
    rw [List.append_assoc] at hws ⊢
    rw [readElems,hv,Option.bind_some,writeElems]
    simp only [List.cons_append,List.append_assoc]
    rw [readRest_comma (by decide),hskip,hws,Option.map_some]

theorem readMembers_write {esc : Char → List Char} (hesc : Escapes esc) :
    ∀ (k : String) (v : Json) (ms : List (String × Json)) (n : ℕ) (r : List Char),
    (quote esc k ++ ':' :: ' ' :: write esc v ++ writeMembers esc ms).length ≤ n →
    readMembers n (quote esc k ++ ':' :: ' ' :: write esc v ++ writeMembers esc ms ++ r) =
      some ((k,v)::ms,r)
  | k, v, ms, 0, r, h => by simp [quote] at h
  | k, v, [], n+1, r, h => by
    have hv := readValue_write hesc v n (writeMembers esc [] ++ r) (by simp [quote] at h ⊢; omega)
      (endsNumber_writeMembers esc [] r)
    have hskip := (starts_write esc v).skipBlanks (writeMembers esc [] ++ r)
    have hclose : isBlank '}' = false := by decide
    rw [List.append_assoc,List.append_assoc,List.cons_append,List.cons_append,readMembers_key hesc,
      hskip,hv,Option.bind_some,writeMembers]
    exact readRest_close hclose (readMembers n) (k,v) r
  | k, v, (l,w)::ms, n+1, r, h => by
    have hv := readValue_write hesc v n (writeMembers esc ((l,w)::ms) ++ r)
      (by simp [quote] at h ⊢; omega) (endsNumber_writeMembers esc ((l,w)::ms) r)
    have hms := readMembers_write hesc l w ms n r (by simp [writeMembers] at h ⊢; omega)
    have hskip := (starts_write esc v).skipBlanks (writeMembers esc ((l,w)::ms) ++ r)
    have hkey : ∀ t, skipBlanks (quote esc l ++ t) = quote esc l ++ t :=
      fun t => skipBlanks_of_head (by decide)
    rw [List.append_assoc,List.append_assoc,List.cons_append,List.cons_append,readMembers_key hesc,
      hskip,hv,Option.bind_some,writeMembers]
    simp only [List.append_assoc,List.cons_append] at hms ⊢
    rw [readRest_comma (by decide),hkey,hms,Option.map_some]
end

theorem loads_write {esc : Char → List Char} (hesc : Escapes esc) (v : Json) :
    loads (write esc v) = some v := by
  have hskip := (starts_write esc v).skipBlanks []
  have hread := readValue_write hesc v ((write esc v).length + 1) [] (by omega) endsNumber_nil
  simp only [List.append_nil] at hskip hread
  rw [loads,hskip,hread]
  rfl

theorem loads_dumps (v : Json) : loads (dumps v) = some v := loads_write escapes_escapeChar v

theorem loads_dumpsAscii (v : Json) : loads (dumpsAscii v) = some v :=
  loads_write escapes_escapeAscii v

def Over (r : List Char) : Prop :=
  ∃ c s, r = c::s ∧ digit? c = none ∧ c ≠ '.' ∧ c ≠ 'e' ∧ c ≠ 'E'

theorem takeDigits_extend {s r : List Char} {ds : List Digit} (h : takeDigits s = (ds,r))
    (hr : r ≠ []) (t : List Char) : takeDigits (s ++ t) = (ds,r ++ t) := by
  induction s generalizing ds with
  | nil =>
    obtain ⟨-,rfl⟩ := Prod.mk.inj h
    exact absurd rfl hr
  | cons c s ih =>
    cases hc : digit? c with
    | none =>
      simp only [takeDigits,hc,Prod.mk.injEq] at h
      obtain ⟨rfl,rfl⟩ := h
      simp [takeDigits,hc]
    | some d =>
      simp only [takeDigits,hc,Prod.mk.injEq] at h
      have hrest : takeDigits s = ((takeDigits s).1,r) := Prod.ext rfl h.2
      have hrec := ih hrest
      simp [takeDigits,hc,hrec,← h.1]

theorem takeInt_extend {s r : List Char} {ds : List Digit} (h : takeInt s = some (ds,r))
    (hr : r ≠ []) (t : List Char) : takeInt (s ++ t) = some (ds,r ++ t) := by
  cases s with
  | nil => simp [takeInt] at h
  | cons c s =>
    cases hc : digit? c with
    | none => simp [takeInt,hc] at h
    | some d =>
      simp only [takeInt,hc,List.cons_append] at h ⊢
      split_ifs at h ⊢ with hd
      · obtain ⟨rfl,rfl⟩ := Prod.mk.inj (Option.some.inj h)
        rfl
      · obtain ⟨rfl,hrest⟩ := Prod.mk.inj (Option.some.inj h)
        have hdigits : takeDigits s = ((takeDigits s).1,r) := Prod.ext rfl hrest
        rw [takeDigits_extend hdigits hr t]

theorem takeExp_extend {s r : List Char} {e : Option ℤ} (h : takeExp s = (e,r)) (hr : Over r)
    (t : List Char) : takeExp (s ++ t) = (e,r ++ t) := by
  obtain ⟨d,r,rfl,-,-,he,hE⟩ := hr
  cases s with
  | nil => simp [takeExp] at h
  | cons c s =>
    by_cases hc : (c = 'e' ∨ c = 'E') ∧ (takeDigits (takeSign s).2).1 ≠ []
    · rw [takeExp,if_pos hc] at h
      obtain ⟨rfl,hrest⟩ := Prod.mk.inj h
      have hs : (takeSign s).2 ≠ [] := by
        intro hnil
        exact hc.2 (by rw [hnil]; rfl)
      have hsign : takeSign (s ++ t) = ((takeSign s).1,(takeSign s).2 ++ t) := by
        cases s with
        | nil => simp [takeSign] at hs
        | cons a s =>
          by_cases hminus : a = '-'
          · simp [takeSign,hminus]
          · by_cases hplus : a = '+'
            · simp [takeSign,hplus]
            · simp [takeSign,hminus,hplus]
      have hdigits : takeDigits (takeSign s).2 = ((takeDigits (takeSign s).2).1,d::r) :=
        Prod.ext rfl hrest
      have hlong := takeDigits_extend hdigits (by simp) t
      have hnow : (c = 'e' ∨ c = 'E') ∧ (takeDigits (takeSign (s ++ t)).2).1 ≠ [] := by
        rw [hsign,hlong]
        exact hc
      rw [List.cons_append,takeExp,if_pos hnow,hsign,hlong]
    · rw [takeExp,if_neg hc] at h
      obtain ⟨rfl,hrest⟩ := Prod.mk.inj h
      obtain ⟨rfl,rfl⟩ := List.cons.inj hrest
      simp [takeExp,he,hE]

theorem takeFrac_extend {s r : List Char} {ds : List Digit} (h : takeFrac s = (ds,r))
    (hr : r ≠ []) (hdot : r.head? ≠ some '.') (t : List Char) :
    takeFrac (s ++ t) = (ds,r ++ t) := by
  cases s with
  | nil =>
    obtain ⟨-,rfl⟩ := Prod.mk.inj h
    exact absurd rfl hr
  | cons c s =>
    simp only [takeFrac] at h
    split_ifs at h with hc
    · have hdigits := takeDigits_extend h hr t
      have hnow : c = '.' ∧ (takeDigits (s ++ t)).1 ≠ [] := by
        rw [hdigits]
        exact ⟨hc.1,by rw [h] at hc; exact hc.2⟩
      rw [List.cons_append,takeFrac,if_pos hnow,hdigits]
    · obtain ⟨rfl,rfl⟩ := Prod.mk.inj h
      have hc : c ≠ '.' := by simpa using hdot
      simp [takeFrac,hc]

theorem Over.ne_nil {r : List Char} (h : Over r) : r ≠ [] := by
  obtain ⟨c,r,rfl,-⟩ := h
  simp

theorem takeExp_ne_nil {s : List Char} (h : (takeExp s).2 ≠ []) : s ≠ [] := by
  rintro rfl
  exact h rfl

theorem takeFrac_ne_nil {s : List Char} (h : (takeFrac s).2 ≠ []) : s ≠ [] := by
  rintro rfl
  exact h rfl

theorem takeExp_dot {s : List Char} (h : s.head? = some '.') : (takeExp s).2 = s := by
  cases s with
  | nil => rfl
  | cons c s =>
    obtain rfl := Option.some.inj h
    simp [takeExp]

theorem readUnsigned_extend {neg : Bool} {s r : List Char} {v : Json}
    (h : readUnsigned neg s = some (v,r)) (hr : Over r) (t : List Char) :
    readUnsigned neg (s ++ t) = some (v,r ++ t) := by
  obtain ⟨⟨ds,s₁⟩,hint,hrest⟩ := Option.map_eq_some_iff.mp h
  obtain ⟨rfl,rfl⟩ := Prod.mk.inj hrest
  have hover : Over (takeExp (takeFrac s₁).2).2 := hr
  have hdot : (takeFrac s₁).2.head? ≠ some '.' := by
    intro hd
    obtain ⟨c,u,hu,-,hc,-⟩ := hover
    rw [takeExp_dot hd] at hu
    rw [hu] at hd
    exact hc (Option.some.inj hd)
  have hne := takeExp_ne_nil hover.ne_nil
  have hfrac : takeFrac (s₁ ++ t) = ((takeFrac s₁).1,(takeFrac s₁).2 ++ t) :=
    takeFrac_extend rfl hne hdot t
  have hexp' : takeExp ((takeFrac s₁).2 ++ t) =
      ((takeExp (takeFrac s₁).2).1,(takeExp (takeFrac s₁).2).2 ++ t) :=
    takeExp_extend rfl hover t
  have hint' := takeInt_extend hint (takeFrac_ne_nil hne) t
  simp only [readUnsigned,hint',Option.map_some,hfrac,hexp']

theorem readNumber_extend {s r : List Char} {v : Json} (h : readNumber s = some (v,r))
    (hr : Over r) (t : List Char) : readNumber (s ++ t) = some (v,r ++ t) := by
  cases s with
  | nil => simp [readNumber] at h
  | cons c s =>
    by_cases hc : c = '-'
    · rw [readNumber,if_pos hc] at h
      rw [List.cons_append,readNumber,if_pos hc,readUnsigned_extend h hr]
    · rw [readNumber,if_neg hc] at h
      rw [List.cons_append,readNumber,if_neg hc,← List.cons_append,readUnsigned_extend h hr]

theorem readHex_extend {s r : List Char} {u : Option ℕ} (h : readHex s = some (u,r))
    (t : List Char) : readHex (s ++ t) = some (u,r ++ t) := by
  match s with
  | [] | [_] | [_,_] | [_,_,_] => simp [readHex] at h
  | a::b::c::d::s =>
    obtain ⟨x,hx,hrest⟩ := Option.map_eq_some_iff.mp h
    obtain ⟨rfl,rfl⟩ := Prod.mk.inj hrest
    simp [readHex,hx]

theorem readPoint_extend {s r : List Char} {u : Option ℕ} (h : readPoint s = some (u,r))
    (t : List Char) : readPoint (s ++ t) = some (u,r ++ t) := by
  cases s with
  | nil => simp [readPoint] at h
  | cons c s =>
    by_cases hquote : c = '"'
    · simp only [readPoint,hquote,if_true,Option.some.injEq,Prod.mk.injEq] at h
      simp [readPoint,hquote,h.1,h.2]
    · by_cases hback : c = '\\'
      · subst hback
        cases s with
        | nil => simp [readPoint] at h
        | cons e s =>
          by_cases hu : e = 'u'
          · simp only [readPoint,hu,if_true] at h
            have hlong := readHex_extend (by simpa using h) t
            simpa [readPoint,hu] using hlong
          · simp only [readPoint,hu] at h
            simp only [List.cons_append,readPoint,hu]
            simp at h ⊢
            obtain ⟨x,hx,rfl,rfl⟩ := h
            exact ⟨x,hx,rfl,rfl⟩
      · simp only [readPoint,if_neg hquote,ne_eq,hback,not_false_eq_true,if_true] at h
        simp only [List.cons_append,readPoint,if_neg hquote,ne_eq,hback,not_false_eq_true,if_true]
        split_ifs at h ⊢ with hctl
        obtain ⟨rfl,rfl⟩ := Prod.mk.inj (Option.some.inj h)
        rfl

theorem readPoints_extend {n : ℕ} {s r : List Char} {us : List ℕ}
    (h : readPoints n s = some (us,r)) {m : ℕ} (hm : n ≤ m) (t : List Char) :
    readPoints m (s ++ t) = some (us,r ++ t) := by
  induction n generalizing s us m with
  | zero => simp [readPoints] at h
  | succ n ih =>
    obtain ⟨m,rfl⟩ := Nat.exists_eq_succ_of_ne_zero (Nat.ne_zero_of_lt hm)
    cases hpoint : readPoint s with
    | none => simp [readPoints,hpoint] at h
    | some p =>
      obtain ⟨u,s₁⟩ := p
      have hlong := readPoint_extend hpoint t
      cases u with
      | none =>
        simp only [readPoints,hpoint,Option.some.injEq,Prod.mk.injEq] at h
        simp [readPoints,hlong,h.1,h.2]
      | some u =>
        simp only [readPoints,hpoint] at h
        obtain ⟨⟨us',r'⟩,hus,hrest⟩ := Option.map_eq_some_iff.mp h
        obtain ⟨rfl,rfl⟩ := Prod.mk.inj hrest
        simp [readPoints,hlong,ih hus (Nat.le_of_succ_le_succ hm)]

theorem readString_extend {s r : List Char} {k : String} (h : readString s = some (k,r))
    (t : List Char) : readString (s ++ t) = some (k,r ++ t) := by
  obtain ⟨⟨us,r'⟩,hus,hrest⟩ := Option.bind_eq_some_iff.mp h
  obtain ⟨cs,hcs,hk⟩ := Option.map_eq_some_iff.mp hrest
  obtain ⟨rfl,rfl⟩ := Prod.mk.inj hk
  have hlong := readPoints_extend hus (m := (s ++ t).length + 1) (by simp) t
  rw [readString,hlong,Option.bind_some,hcs,Option.map_some]

theorem skipBlanks_extend {s r : List Char} {c : Char} (h : skipBlanks s = c::r) (t : List Char) :
    skipBlanks (s ++ t) = c::(r ++ t) := by
  induction s with
  | nil => simp [skipBlanks] at h
  | cons a s ih =>
    by_cases ha : isBlank a = true
    · simp only [skipBlanks,List.cons_append,List.dropWhile_cons,ha,if_true] at h ⊢
      exact ih h
    · simp only [skipBlanks,List.cons_append,List.dropWhile_cons,ha,Bool.false_eq_true,
        if_false] at h ⊢
      obtain ⟨rfl,rfl⟩ := List.cons.inj h
      rfl

theorem expect_extend {w s r : List Char} (h : expect w s = some r) (t : List Char) :
    expect w (s ++ t) = some (r ++ t) := by
  induction w generalizing s with
  | nil => simpa [expect] using h
  | cons a w ih =>
    cases s with
    | nil => simp [expect] at h
    | cons c s =>
      simp only [expect,List.cons_append] at h ⊢
      split_ifs at h ⊢ with hac
      exact ih h

theorem readRest_extend {α : Type} {close : Char} {a : α} {s r t : List Char} {l : List α}
    {more more' : List Char → Option (List α × List Char)}
    (hnil : more [] = none)
    (hmore : ∀ s l r, more s = some (l,r) → more' (s ++ t) = some (l,r ++ t))
    (h : readRest close more a s = some (l,r)) :
    readRest close more' a (s ++ t) = some (l,r ++ t) := by
  cases hs : skipBlanks s with
  | nil => simp [readRest,hs] at h
  | cons c u =>
    have hlong := skipBlanks_extend hs t
    simp only [readRest,hs] at h
    simp only [readRest,hlong]
    split_ifs at h ⊢ with hclose hcomma
    · obtain ⟨rfl,rfl⟩ := Prod.mk.inj (Option.some.inj h)
      rfl
    · obtain ⟨⟨l',r'⟩,hl,hrest⟩ := Option.map_eq_some_iff.mp h
      obtain ⟨rfl,rfl⟩ := Prod.mk.inj hrest
      have hskip : skipBlanks (u ++ t) = skipBlanks u ++ t := by
        cases hu : skipBlanks u with
        | nil => simp [hu,hnil] at hl
        | cons d w => rw [skipBlanks_extend hu,List.cons_append]
      rw [hskip,hmore _ _ _ hl,Option.map_some]

theorem readRest_over {α : Type} {close : Char} (hclose : close = ']' ∨ close = '}') {a : α}
    {s : List Char} {more : List Char → Option (List α × List Char)}
    (h : (readRest close more a s).isSome = true) : Over s := by
  cases s with
  | nil => simp [readRest,skipBlanks] at h
  | cons c s =>
    refine ⟨c,s,rfl,?_⟩
    by_cases hc : isBlank c = true
    · simp only [isBlank,Bool.or_eq_true,decide_eq_true_eq] at hc
      rcases hc with ((rfl | rfl) | rfl) | rfl <;> decide
    · have hskip : skipBlanks (c::s) = c::s := skipBlanks_of_head (by simpa using hc)
      simp only [readRest,hskip] at h
      split_ifs at h with h₁ h₂
      · rcases hclose with rfl | rfl <;> (subst h₁; decide)
      · subst h₂
        decide
      · simp at h

def IsObj (v : Json) : Prop := ∃ ms, v = .obj ms

theorem numberOf_ne_obj (neg : Bool) (ds fs : List Digit) (e : Option ℤ)
    (ms : List (String × Json)) : numberOf neg ds fs e ≠ .obj ms := by
  cases e with
  | none => simp only [numberOf]; split_ifs <;> simp
  | some e => simp [numberOf]

theorem readNumber_ne_obj (s r : List Char) (ms : List (String × Json)) :
    readNumber s ≠ some (.obj ms,r) := by
  have hunsigned : ∀ neg s, readUnsigned neg s ≠ some (.obj ms,r) := by
    intro neg s h
    obtain ⟨p,-,hp⟩ := Option.map_eq_some_iff.mp h
    exact numberOf_ne_obj _ _ _ _ ms (Prod.mk.inj hp).1
  cases s with
  | nil => simp [readNumber]
  | cons c s =>
    rw [readNumber]
    split_ifs
    · exact hunsigned true s
    · exact hunsigned false (c::s)

structure Extends (n m : ℕ) (t : List Char) : Prop where
  value : ∀ s v r, readValue n s = some (v,r) → Over r ∨ IsObj v →
    readValue m (s ++ t) = some (v,r ++ t)
  elems : ∀ s l r, readElems n s = some (l,r) → readElems m (s ++ t) = some (l,r ++ t)
  members : ∀ s l r, readMembers n s = some (l,r) → readMembers m (s ++ t) = some (l,r ++ t)

theorem readValue_nil (n : ℕ) : readValue n [] = none := by
  cases n <;> rfl

theorem readElems_nil (n : ℕ) : readElems n [] = none := by
  cases n with
  | zero => rfl
  | succ n => rw [readElems,readValue_nil,Option.bind_none]

theorem readMembers_nil (n : ℕ) : readMembers n [] = none := by
  cases n <;> simp [readMembers,expect]

theorem Extends.readElems {n m : ℕ} {t : List Char} (h : Extends n m t) (s : List Char)
    (l : List Json) (r : List Char) (hs : readElems (n+1) s = some (l,r)) :
    readElems (m+1) (s ++ t) = some (l,r ++ t) := by
  obtain ⟨⟨v,u⟩,hv,hrest⟩ := Option.bind_eq_some_iff.mp hs
  have hover : Over u := readRest_over (Or.inl rfl) (Option.isSome_of_eq_some hrest)
  rw [Json.readElems,h.value s v u hv (Or.inl hover),Option.bind_some]
  exact readRest_extend (readElems_nil n) h.elems hrest

theorem Extends.readMembers {n m : ℕ} {t : List Char} (h : Extends n m t) (s : List Char)
    (l : List (String × Json)) (r : List Char) (hs : readMembers (n+1) s = some (l,r)) :
    readMembers (m+1) (s ++ t) = some (l,r ++ t) := by
  obtain ⟨s₁,h₁,hs⟩ := Option.bind_eq_some_iff.mp hs
  obtain ⟨⟨k,s₂⟩,h₂,hs⟩ := Option.bind_eq_some_iff.mp hs
  obtain ⟨s₃,h₃,hs⟩ := Option.bind_eq_some_iff.mp hs
  obtain ⟨⟨v,u⟩,hv,hrest⟩ := Option.bind_eq_some_iff.mp hs
  have hover : Over u := readRest_over (Or.inr rfl) (Option.isSome_of_eq_some hrest)
  have hcolon : skipBlanks (s₂ ++ t) = skipBlanks s₂ ++ t := by
    cases hu : skipBlanks s₂ with
    | nil => simp [hu,expect] at h₃
    | cons d w => rw [skipBlanks_extend hu,List.cons_append]
  have hvalue : skipBlanks (s₃ ++ t) = skipBlanks s₃ ++ t := by
    cases hu : skipBlanks s₃ with
    | nil => simp [hu,readValue_nil] at hv
    | cons d w => rw [skipBlanks_extend hu,List.cons_append]
  rw [Json.readMembers,expect_extend h₁ t,Option.bind_some,readString_extend h₂ t,Option.bind_some,
    hcolon,expect_extend h₃ t,Option.bind_some,hvalue,h.value _ v u hv (Or.inl hover),
    Option.bind_some]
  exact readRest_extend (readMembers_nil n) h.members hrest

/-- The end of a word, a string or a list does not depend on what comes later. -/
theorem map_extend {α : Type} {f : α → Json} {o o' : Option (α × List Char)} {v : Json}
    {r t : List Char} (ho : ∀ a u, o = some (a,u) → o' = some (a,u ++ t))
    (h : o.map (fun p => (f p.1,p.2)) = some (v,r)) :
    o'.map (fun p => (f p.1,p.2)) = some (v,r ++ t) := by
  obtain ⟨⟨a,u⟩,ha,hrest⟩ := Option.map_eq_some_iff.mp h
  obtain ⟨rfl,rfl⟩ := Prod.mk.inj hrest
  rw [ho a u ha,Option.map_some]

theorem word_extend {w s r t : List Char} {v k : Json}
    (h : (expect w s).map (fun u => (k,u)) = some (v,r)) :
    (expect w (s ++ t)).map (fun u => (k,u)) = some (v,r ++ t) := by
  obtain ⟨u,hu,hrest⟩ := Option.map_eq_some_iff.mp h
  obtain ⟨rfl,rfl⟩ := Prod.mk.inj hrest
  rw [expect_extend hu t,Option.map_some]

theorem list_extend {α : Type} {f : List α → Json} {close : Char} {s r t : List Char} {v : Json}
    {more more' : List Char → Option (List α × List Char)} (hnil : more [] = none)
    (hmore : ∀ s l r, more s = some (l,r) → more' (s ++ t) = some (l,r ++ t))
    (h : (if (skipBlanks s).head? = some close then some (f [],(skipBlanks s).tail)
      else (more (skipBlanks s)).map fun p => (f p.1,p.2)) = some (v,r)) :
    (if (skipBlanks (s ++ t)).head? = some close then some (f [],(skipBlanks (s ++ t)).tail)
      else (more' (skipBlanks (s ++ t))).map fun p => (f p.1,p.2)) = some (v,r ++ t) := by
  cases hu : skipBlanks s with
  | nil => simp [hu,hnil] at h
  | cons d w =>
    rw [hu] at h
    rw [skipBlanks_extend hu t]
    by_cases hd : some d = some close
    · rw [List.head?_cons,if_pos hd] at h ⊢
      obtain ⟨rfl,rfl⟩ := Prod.mk.inj (Option.some.inj h)
      rfl
    · rw [List.head?_cons,if_neg hd] at h ⊢
      exact map_extend (hmore (d::w)) h

theorem Extends.readValue {n m : ℕ} {t : List Char} (h : Extends n m t) (s : List Char) (v : Json)
    (r : List Char) (hs : readValue (n+1) s = some (v,r)) (hr : Over r ∨ IsObj v) :
    readValue (m+1) (s ++ t) = some (v,r ++ t) := by
  cases s with
  | nil => simp [readValue_nil] at hs
  | cons c s =>
    rw [Json.readValue] at hs
    rw [List.cons_append,Json.readValue]
    by_cases h₁ : c = '"'
    · rw [if_pos h₁] at hs ⊢
      exact map_extend (fun k u hk => readString_extend hk t) hs
    rw [if_neg h₁] at hs ⊢
    by_cases h₂ : c = '{'
    · rw [if_pos h₂] at hs ⊢
      exact list_extend (readMembers_nil n) h.members hs
    rw [if_neg h₂] at hs ⊢
    by_cases h₃ : c = '['
    · rw [if_pos h₃] at hs ⊢
      exact list_extend (readElems_nil n) h.elems hs
    rw [if_neg h₃] at hs ⊢
    by_cases h₄ : c = 'n'
    · rw [if_pos h₄] at hs ⊢
      exact word_extend hs
    rw [if_neg h₄] at hs ⊢
    by_cases h₅ : c = 't'
    · rw [if_pos h₅] at hs ⊢
      exact word_extend hs
    rw [if_neg h₅] at hs ⊢
    by_cases h₆ : c = 'f'
    · rw [if_pos h₆] at hs ⊢
      exact word_extend hs
    rw [if_neg h₆] at hs ⊢
    -- a number is no object, so something stands behind it
    have hover : Over r := by
      rcases hr with hr | ⟨ms,rfl⟩
      · exact hr
      · exact absurd hs (readNumber_ne_obj _ _ _)
    exact readNumber_extend hs hover t

theorem extends_of_le (n : ℕ) : ∀ m, n ≤ m → ∀ t, Extends n m t := by
  induction n with
  | zero =>
    intro m _ t
    exact ⟨by simp [readValue],by simp [readElems],by simp [readMembers]⟩
  | succ n ih =>
    intro m hm t
    obtain ⟨m,rfl⟩ := Nat.exists_eq_succ_of_ne_zero (Nat.ne_zero_of_lt hm)
    have h := ih m (Nat.le_of_succ_le_succ hm) t
    exact ⟨h.readValue,h.readElems,h.readMembers⟩

/-- No proper part at the front of a written object is a document. -/
theorem loads_part {ms : List (String × Json)} {p t : List Char}
    (h : dumps (.obj ms) = p ++ t) (ht : t ≠ []) : loads p = none := by
  have hhead : ∃ s, dumps (.obj ms) = '{'::s := by
    cases ms with
    | nil => exact ⟨_,by rw [dumps,write]⟩
    | cons m ms => exact ⟨_,by rw [dumps,write]; rfl⟩
  obtain ⟨s,hs⟩ := hhead
  cases p with
  | nil => rfl
  | cons c p =>
    obtain rfl : '{' = c := by
      rw [hs,List.cons_append] at h
      exact (List.cons.inj h).1
    have hskip : skipBlanks ('{'::p) = '{'::p := skipBlanks_of_head (by decide)
    by_contra hload
    obtain ⟨v,hv⟩ := Option.ne_none_iff_exists'.mp hload
    rw [loads,hskip] at hv
    obtain ⟨⟨w,r⟩,hread,-⟩ := Option.bind_eq_some_iff.mp hv
    have hobj : IsObj w := by
      rw [readValue] at hread
      simp only [if_neg (by decide : '{' ≠ '"'),if_true] at hread
      split_ifs at hread
      · exact ⟨_,(Prod.mk.inj (Option.some.inj hread)).1.symm⟩
      · obtain ⟨q,-,hq⟩ := Option.map_eq_some_iff.mp hread
        exact ⟨_,(Prod.mk.inj hq).1.symm⟩
    have hlen : ('{'::p).length + 1 ≤ (dumps (.obj ms)).length + 1 := by
      rw [h,List.length_append]
      omega
    have hlong := (extends_of_le _ _ hlen t).value _ _ _ hread (Or.inr hobj)
    have hfull := readValue_write escapes_escapeChar (.obj ms) ((dumps (.obj ms)).length + 1) []
      (Nat.le_succ _) endsNumber_nil
    change readValue _ (dumps (.obj ms) ++ []) = _ at hfull
    rw [List.append_nil,h] at hfull
    rw [h,hfull] at hlong
    have hnil : [] = r ++ t := (Prod.mk.inj (Option.some.inj hlong)).2
    exact ht (List.append_eq_nil_iff.mp hnil.symm).2

@[simp] theorem decode_encode (v : Json) : decode (encode v) = some v := by
  simp [decode,encode,loads_dumps]

@[simp] theorem decode_encodeAscii (v : Json) : decode (encodeAscii v) = some v := by
  simp [decode,encodeAscii,loads_dumpsAscii]

theorem decode_part {ms : List (String × Json)} {p t : Bytes}
    (h : encode (.obj ms) = p ++ t) (ht : t ≠ []) : decode p = none := by
  cases hp : decodeUtf8 p with
  | none => rw [decode,hp,Option.bind_none]
  | some cs =>
    obtain ⟨hcs,u,hu⟩ := decodeUtf8_eq_some_of_part h hp
    have hne : u ≠ [] := by
      rintro rfl
      rw [List.append_nil] at hu
      rw [encode,← hu,hcs] at h
      exact ht (List.self_eq_append_right.mp h)
    rw [decode,hp,Option.bind_some,loads_part hu.symm hne]

end Json
end FusionMultiNodes

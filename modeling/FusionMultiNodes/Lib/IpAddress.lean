import Mathlib.Data.Nat.Digits.Defs
import Mathlib.Tactic.SplitIfs

/-! IP addresses and the texts that stand for them. -/
namespace FusionMultiNodes

inductive IpAddr
  | v4 (n : ℕ)
  | v6 (n : ℕ)
  deriving DecidableEq

namespace IpAddr

def decimal? (c : Char) : Option ℕ :=
  if '0' ≤ c ∧ c ≤ '9' then some (c.toNat - '0'.toNat) else none

def hex? (c : Char) : Option ℕ :=
  if '0' ≤ c ∧ c ≤ '9' then some (c.toNat - '0'.toNat)
  else if 'a' ≤ c ∧ c ≤ 'f' then some (c.toNat - 'a'.toNat + 10)
  else if 'A' ≤ c ∧ c ≤ 'F' then some (c.toNat - 'A'.toNat + 10)
  else none

def octal? (c : Char) : Option ℕ :=
  if '0' ≤ c ∧ c ≤ '7' then some (c.toNat - '0'.toNat) else none

def number (base : ℕ) (digit? : Char → Option ℕ) (s : List Char) : Option ℕ :=
  if s = [] then none
  else s.foldl (fun n c => n.bind fun n => (digit? c).map fun d => n*base+d) (some 0)

def octet? (s : List Char) : Option ℕ :=
  if 3 < s.length ∨ (s ≠ ['0'] ∧ s.head? = some '0') then none
  else (number 10 decimal? s).filter fun n => decide (n ≤ 255)

def join (base : ℕ) (digits : List ℕ) : ℕ := digits.foldl (fun n d => n*base+d) 0

def v4? (s : List Char) : Option ℕ :=
  if (s.splitOn '.').length = 4 then ((s.splitOn '.').mapM octet?).map (join 256) else none

/-- A group of an IPv6 address; `none` for an empty one. -/
def group? (s : List Char) : Option (Option ℕ) :=
  if s = [] then some none
  else if 4 < s.length then none
  else (number 16 hex? s).map some

def groups? (parts : List (List Char)) : Option (List (Option ℕ)) :=
  match parts.getLast? with
  | none => none
  | some last =>
    if '.' ∈ last then
      (v4? last).bind fun n =>
        (parts.dropLast.mapM group?).map fun gs => gs ++ [some (n/65536),some (n%65536)]
    else parts.mapM group?

/-- The groups beside a `::`; an end of the text may belong to it. -/
def side? (gs : List (Option ℕ)) (outer : Option (Option ℕ)) : Option (List ℕ) :=
  if outer = some none then if gs.length = 1 then some [] else none
  else gs.mapM id

def ofGroups? (gs : List (Option ℕ)) : Option ℕ :=
  match (List.range gs.length).filter fun i =>
      decide (0 < i) && decide (i+1 < gs.length) && decide (gs[i]? = some none) with
  | [] => if gs.length = 8 then (gs.mapM id).map (join 65536) else none
  | [i] =>
    (side? (gs.take i) gs.head?).bind fun hi =>
      (side? (gs.drop (i+1)) gs.getLast?).bind fun lo =>
        if hi.length+lo.length < 8 then
          some (join 65536 (hi ++ List.replicate (8-(hi.length+lo.length)) 0 ++ lo))
        else none
  | _ => none

def v6? (s : List Char) : Option ℕ :=
  let parts := s.splitOn ':'
  if parts.length < 3 then none
  else (groups? parts).bind fun gs => if gs.length ≤ 9 then ofGroups? gs else none

/-- `ipaddress.ip_address`; the scope of an IPv6 address says nothing of the address. -/
def ipAddress (s : List Char) : Option IpAddr :=
  match v4? s with
  | some n => some (.v4 n)
  | none =>
    if '/' ∈ s then none
    else match s.splitOn '%' with
      | [addr] => (v6? addr).map .v6
      | [addr,scope] => if scope = [] then none else (v6? addr).map .v6
      | _ => none

def atonNumber? : List Char → Option ℕ
  | '0' :: 'x' :: digits => number 16 hex? digits
  | '0' :: 'X' :: digits => number 16 hex? digits
  | '0' :: digits => if digits = [] then some 0 else number 8 octal? digits
  | digits => number 10 decimal? digits

/-- `inet_aton`: the last number fills the bytes that are left. -/
def inetAton (s : List Char) : Option ℕ :=
  ((s.splitOn '.').mapM atonNumber?).bind fun
    | [a] => if a < 2^32 then some a else none
    | [a,b] => if a < 2^8 ∧ b < 2^24 then some (a*2^24+b) else none
    | [a,b,c] => if a < 2^8 ∧ b < 2^8 ∧ c < 2^16 then some (a*2^24+b*2^16+c) else none
    | [a,b,c,d] =>
      if a < 2^8 ∧ b < 2^8 ∧ c < 2^8 ∧ d < 2^8 then some (a*2^24+b*2^16+c*2^8+d) else none
    | _ => none

def inNetwork (bits n network len : ℕ) : Bool := decide (n/2^(bits-len) = network/2^(bits-len))

def isLoopback : IpAddr → Bool
  | .v4 n => inNetwork 32 n (127*2^24) 8
  | .v6 n => decide (n = 1)

def isLinkLocal : IpAddr → Bool
  | .v4 n => inNetwork 32 n (169*2^24+254*2^16) 16
  | .v6 n => inNetwork 128 n (0xfe80*2^112) 10

def isUnspecified : IpAddr → Bool
  | .v4 n => decide (n = 0)
  | .v6 n => decide (n = 0)

def isMulticast : IpAddr → Bool
  | .v4 n => inNetwork 32 n (224*2^24) 4
  | .v6 n => inNetwork 128 n (0xff00*2^112) 8

/-- The reserved networks of IPv6: their first 16 bits and the lengths of the prefixes. -/
def reservedNetworks : List (ℕ × ℕ) :=
  [(0x0000,8),(0x0100,8),(0x0200,7),(0x0400,6),(0x0800,5),(0x1000,4),(0x4000,3),(0x6000,3),
    (0x8000,3),(0xa000,3),(0xc000,3),(0xe000,4),(0xf000,5),(0xf800,6),(0xfe00,9)]

def isReserved : IpAddr → Bool
  | .v4 n => inNetwork 32 n (240*2^24) 4
  | .v6 n => reservedNetworks.any fun p => inNetwork 128 n (p.1*2^112) p.2

def unmap : IpAddr → IpAddr
  | .v4 n => .v4 n
  | .v6 n => if n/2^32 = 0xffff then .v4 (n%2^32) else .v6 n

/-- The address whose kind is asked for: that of an IPv4-mapped one is asked for from Python 3.13
on. -/
def seen (looksThrough : Bool) (ip : IpAddr) : IpAddr := if looksThrough then ip.unmap else ip

theorem unmap_v6 (n : ℕ) :
    (v6 n).unmap = if n/2^32 = 0xffff then .v4 (n%2^32) else .v6 n := rfl

theorem unmap_unmap (ip : IpAddr) : ip.unmap.unmap = ip.unmap := by
  cases ip with
  | v4 n => rfl
  | v6 n =>
    rw [unmap_v6]
    split_ifs with h
    · rfl
    · rw [unmap_v6,if_neg h]

theorem unmap_eq_self_of_not_reserved {ip : IpAddr} (h : ip.isReserved = false) :
    ip.unmap = ip := by
  cases ip with
  | v4 n => rfl
  | v6 n =>
    rw [unmap_v6]
    split_ifs with hn
    · have hzero : inNetwork 128 n (0*2^112) 8 = true := by
        unfold inNetwork
        refine decide_eq_true ?_
        have hlt : n < 2^48 := by omega
        rw [Nat.zero_mul,Nat.zero_div]
        exact Nat.div_eq_of_lt (by omega)
      have hany := List.any_eq_false.mp h (0,8) (by decide)
      exact absurd hzero hany
    · rfl

@[simp] theorem seen_true (ip : IpAddr) : ip.seen true = ip.unmap := rfl

@[simp] theorem seen_false (ip : IpAddr) : ip.seen false = ip := rfl

@[simp] theorem seen_v4 (looksThrough : Bool) (n : ℕ) : (v4 n).seen looksThrough = v4 n := by
  cases looksThrough <;> rfl

theorem splitOn_of_not_mem {a : Char} {s : List Char} (h : a ∉ s) : s.splitOn a = [s] := by
  have hjoin : ([a].intercalate [s]).splitOn a = [s] :=
    List.splitOn_intercalate a (by simpa using h) (by simp)
  simpa using hjoin

theorem mem_of_length_splitOn {a : Char} {s : List Char} (h : (s.splitOn a).length ≠ 1) :
    a ∈ s := by
  by_contra hnot
  rw [splitOn_of_not_mem hnot] at h
  exact h rfl

theorem colon_of_v6? {s : List Char} {n : ℕ} (h : v6? s = some n) : ':' ∈ s := by
  unfold v6? at h
  dsimp only at h
  split_ifs at h with hlength
  exact mem_of_length_splitOn (by omega)

theorem dot_or_colon {s : List Char} {ip : IpAddr} (h : ipAddress s = some ip) :
    '.' ∈ s ∨ ':' ∈ s := by
  unfold ipAddress at h
  cases hv4 : v4? s with
  | some n =>
    unfold v4? at hv4
    split_ifs at hv4 with hlength
    exact Or.inl (mem_of_length_splitOn (by omega))
  | none =>
    right
    simp only [hv4] at h
    split_ifs at h with hslash
    have hjoin : ['%'].intercalate (s.splitOn '%') = s := List.intercalate_splitOn '%'
    split at h
    · rename_i addr hsplit
      obtain ⟨n,hn,-⟩ := Option.map_eq_some_iff.mp h
      rw [hsplit] at hjoin
      rw [← hjoin]
      simpa using colon_of_v6? hn
    · rename_i addr scope hsplit
      split_ifs at h with hscope
      obtain ⟨n,hn,-⟩ := Option.map_eq_some_iff.mp h
      rw [hsplit] at hjoin
      rw [← hjoin]
      simp [List.intercalate,colon_of_v6? hn]
    · exact nomatch h

def dotted (n : ℕ) : List Char :=
  ['.'].intercalate
    ([n/2^24,n/2^16%256,n/2^8%256,n%256].map fun octet => Nat.toDigits 10 octet)

theorem octet_digits : ∀ octet < 256, octet? (Nat.toDigits 10 octet) = some octet ∧
    ∀ c ∈ Nat.toDigits 10 octet, c ∈ "0123456789".toList := by
  have hall : ∀ octet < 256, octet? (Nat.toDigits 10 octet) = some octet ∧
      (Nat.toDigits 10 octet).all (fun c => decide (c ∈ "0123456789".toList)) = true := by
    decide +kernel
  exact fun octet hlt => ⟨(hall octet hlt).1,fun c hc =>
    of_decide_eq_true (List.all_eq_true.mp (hall octet hlt).2 c hc)⟩

theorem v4?_dotted {n : ℕ} (h : n < 2^32) : v4? (dotted n) = some n := by
  have hlt : ∀ octet ∈ [n/2^24,n/2^16%256,n/2^8%256,n%256],octet < 256 := by
    simp only [List.mem_cons,List.not_mem_nil,or_false]
    omega
  have hsplit : (dotted n).splitOn '.' =
      [n/2^24,n/2^16%256,n/2^8%256,n%256].map fun octet => Nat.toDigits 10 octet := by
    refine List.splitOn_intercalate '.' (fun l hl hdot => ?_) (by simp)
    obtain ⟨octet,hmem,rfl⟩ := List.mem_map.mp hl
    exact absurd ((octet_digits octet (hlt octet hmem)).2 '.' hdot) (by decide)
  have hread : ([n/2^24,n/2^16%256,n/2^8%256,n%256].map fun octet => Nat.toDigits 10 octet).mapM
      octet? = some [n/2^24,n/2^16%256,n/2^8%256,n%256] := by
    simp only [List.mem_cons,List.not_mem_nil,or_false,forall_eq_or_imp,forall_eq] at hlt
    simp only [List.map_cons,List.map_nil,List.mapM_cons,List.mapM_nil,
      (octet_digits _ hlt.1).1,(octet_digits _ hlt.2.1).1,(octet_digits _ hlt.2.2.1).1,
      (octet_digits _ hlt.2.2.2).1]
    rfl
  have hjoin : join 256 [n/2^24,n/2^16%256,n/2^8%256,n%256] = n := by
    simp only [join,List.foldl_cons,List.foldl_nil]
    omega
  rw [v4?,hsplit,hread,if_pos (by simp),Option.map_some,hjoin]

theorem dotted_chars {n : ℕ} (h : n < 2^32) {c : Char} (hc : c ∈ dotted n) :
    c ∈ "0123456789.".toList := by
  have hdigit : ∀ octet < 256, c ∈ Nat.toDigits 10 octet → c ∈ "0123456789.".toList := by
    intro octet hlt hmem
    exact List.mem_append_left ['.'] ((octet_digits octet hlt).2 c hmem)
  have hdot : '.' ∈ "0123456789.".toList := by decide +kernel
  simp only [dotted,List.intercalate,List.map_cons,List.map_nil,List.intersperse,List.flatten_cons,
    List.flatten_nil,List.mem_append,List.mem_singleton,List.not_mem_nil,or_false] at hc
  rcases hc with hc | rfl | hc | rfl | hc | rfl | hc
  · exact hdigit _ (by omega) hc
  · exact hdot
  · exact hdigit _ (by omega) hc
  · exact hdot
  · exact hdigit _ (by omega) hc
  · exact hdot
  · exact hdigit _ (by omega) hc

theorem inetAton_lt {s : List Char} {n : ℕ} (h : inetAton s = some n) : n < 2^32 := by
  obtain ⟨numbers,-,hn⟩ := Option.bind_eq_some_iff.mp h
  split at hn
  case h_5 => exact nomatch hn
  all_goals
    split_ifs at hn with hlt
    obtain rfl := Option.some.inj hn
    omega

/-- The length of the prefix that a dotted mask stands for: a mask of the network, or else one of the
host. -/
def maskLength? (mask : ℕ) : Option ℕ :=
  ((List.range 33).find? fun len => decide (mask = 2^32-2^(32-len))).or
    ((List.range 33).find? fun len => decide (mask = 2^(32-len)-1))

def prefixLength? (bits : ℕ) (s : List Char) : Option ℕ :=
  (number 10 decimal? s).filter fun n => decide (n ≤ bits)

def v4Network? (addr mask : List Char) : Option (IpAddr × ℕ) :=
  (v4? addr).bind fun n =>
    ((prefixLength? 32 mask).or ((v4? mask).bind maskLength?)).map fun len => (.v4 n,len)

def v6Network? (addr mask : List Char) : Option (IpAddr × ℕ) :=
  match ipAddress addr with
  | some (.v6 n) => (prefixLength? 128 mask).map fun len => (.v6 n,len)
  | _ => none

/-- `ipaddress.ip_network` that lets host bits be set: an address in the network and the length of
its prefix. -/
def ipNetwork (s : List Char) : Option (IpAddr × ℕ) :=
  match s.splitOn '/' with
  | [addr] => (ipAddress addr).map fun ip =>
    (ip,match ip with
      | .v4 _ => 32
      | .v6 _ => 128)
  | [addr,mask] => (v4Network? addr mask).or (v6Network? addr mask)
  | _ => none

def isIn : IpAddr → IpAddr × ℕ → Bool
  | .v4 n,(.v4 network,len) => inNetwork 32 n network len
  | .v6 n,(.v6 network,len) => inNetwork 128 n network len
  | _,_ => false

end IpAddr
end FusionMultiNodes

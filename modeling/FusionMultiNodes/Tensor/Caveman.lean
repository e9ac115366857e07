import Mathlib.Data.Finset.Card
import Mathlib.Data.List.Sort
import Mathlib.Data.Rat.Floor
import Mathlib.Data.UInt
import FusionMultiNodes.Lib.Lists
import FusionMultiNodes.Lib.Dict
import FusionMultiNodes.Lib.Utf8

/-! `CavemanCompressor`: the dictionary, difference and zlib codecs, and the choice between
them. -/
namespace FusionMultiNodes

structure Zlib where
  compress : ℕ → Bytes → Bytes
  decompress : Bytes → Option Bytes

structure CompressStats where
  originalBytes : ℕ
  compressedBytes : ℕ
  ratio : ℚ
  method : String

/-- A code has two bytes and is looked up in the reverse table; both tables are empty together. -/
structure CavemanCompressor where
  dictionarySize : ℕ
  dictionary : Dict ℤ Bytes
  reverseDict : Dict Bytes ℤ
  stats : CompressStats
  size : dictionarySize ≤ 65536
  codes : ∀ token code, dictionary.get? token = some code →
    code.length = 2 ∧ reverseDict.get? code = some token
  both : dictionary.entries = [] ↔ reverseDict.entries = []

namespace CavemanCompressor

def create (dictionarySize : ℤ) : CavemanCompressor where
  dictionarySize := min dictionarySize.toNat 65536
  dictionary := ∅
  reverseDict := ∅
  stats := ⟨0,0,0,""⟩
  size := min_le_right _ _
  codes := fun _ _ h => absurd h (by simp)
  both := ⟨fun _ => rfl,fun _ => rfl⟩

/-- `Counter(tokens).most_common(n)`: equal counts stay in the order of their first occurrence. -/
def mostCommon (tokens : List ℤ) (n : ℕ) : List ℤ :=
  ((tokens.reverse.dedup.reverse).insertionSort fun a b => tokens.count b ≤ tokens.count a).take n

theorem length_mostCommon_le (tokens : List ℤ) (n : ℕ) : (mostCommon tokens n).length ≤ n :=
  List.length_take_le n _

def shortCode (i : ℕ) : Bytes := bigEndian 2 i

theorem shortCode_inj {i j : ℕ} (hi : i < 65536) (hj : j < 65536) (h : shortCode i = shortCode j) :
    i = j := by
  have hdecode := congrArg fromBytes h
  rwa [shortCode,shortCode,fromBytes_bigEndian (by omega),fromBytes_bigEndian (by omega)]
    at hdecode

/-- The codes from `i` on, in the order of the tokens. -/
def assignCodes (i : ℕ) : List ℤ → Dict ℤ Bytes → Dict Bytes ℤ → Dict ℤ Bytes × Dict Bytes ℤ
  | [], d, r => (d,r)
  | token::tokens, d, r =>
    assignCodes (i + 1) tokens (d.set token (shortCode i)) (r.set (shortCode i) token)

/-- The codes below `i` are given out, and the reverse table leads back from each. -/
structure Coded (i : ℕ) (d : Dict ℤ Bytes) (r : Dict Bytes ℤ) : Prop where
  codes : ∀ token code, d.get? token = some code →
    (∃ j < i, code = shortCode j) ∧ r.get? code = some token
  both : d.entries = [] ↔ r.entries = []

theorem Coded.empty : Coded 0 ∅ ∅ := ⟨fun _ _ h => absurd h (by simp),fun _ => rfl,fun _ => rfl⟩

theorem Coded.assign {i : ℕ} {d : Dict ℤ Bytes} {r : Dict Bytes ℤ} (h : Coded i d r)
    (hi : i < 65536) (token : ℤ) :
    Coded (i + 1) (d.set token (shortCode i)) (r.set (shortCode i) token) := by
  constructor
  · intro t code hcode
    rw [Dict.get?_set] at hcode
    split_ifs at hcode with ht
    · cases hcode
      exact ⟨⟨i,Nat.lt_succ_self i,rfl⟩,by rw [Dict.get?_set_self,ht]⟩
    · obtain ⟨⟨j,hj,rfl⟩,hr⟩ := h.codes t code hcode
      have hne : shortCode j ≠ shortCode i := fun he =>
        absurd (shortCode_inj (by omega) hi he) (by omega)
      exact ⟨⟨j,by omega,rfl⟩,by rw [Dict.get?_set_ne r token hne,hr]⟩
  · constructor
    · intro he
      exact absurd he (Dict.entries_set_ne_nil d token (shortCode i))
    · intro he
      exact absurd he (Dict.entries_set_ne_nil r (shortCode i) token)

theorem Coded.assignCodes {tokens : List ℤ} {i : ℕ} {d : Dict ℤ Bytes} {r : Dict Bytes ℤ}
    (h : Coded i d r) (hi : i + tokens.length ≤ 65536) :
    Coded (i + tokens.length) (assignCodes i tokens d r).1 (assignCodes i tokens d r).2 := by
  induction tokens generalizing i d r with
  | nil => exact h
  | cons token tokens ih =>
    simp only [List.length_cons] at hi
    have hstep : Coded (i + 1) (d.set token (shortCode i)) (r.set (shortCode i) token) :=
      h.assign (by omega) token
    have hrest := ih hstep (by omega)
    rwa [List.length_cons,show i + (tokens.length + 1) = i + 1 + tokens.length by omega]

def buildDictionary (c : CavemanCompressor) (tokens : List ℤ) : CavemanCompressor :=
  let common := mostCommon tokens c.dictionarySize
  have h : Coded (0 + common.length) (assignCodes 0 common ∅ ∅).1 (assignCodes 0 common ∅ ∅).2 := by
    apply Coded.empty.assignCodes
    rw [Nat.zero_add]
    exact (length_mostCommon_le tokens c.dictionarySize).trans c.size
  { c with
    dictionary := (assignCodes 0 common ∅ ∅).1
    reverseDict := (assignCodes 0 common ∅ ∅).2
    codes := fun token code hcode => by
      obtain ⟨⟨j,-,rfl⟩,hr⟩ := h.codes token code hcode
      exact ⟨length_bigEndian 2 j,hr⟩
    both := h.both }

/-- `_dict_compress`, for a dictionary that is not empty. -/
def dictEncode (dictionary : Dict ℤ Bytes) : Bytes → Bytes
  | a::b::c::d::rest =>
    match dictionary.get? (fromBytes [a,b,c,d]) with
    | some code => 0x01::code ++ dictEncode dictionary rest
    | none => 0x02::a::dictEncode dictionary (b::c::d::rest)
  | x::rest => 0x02::x::dictEncode dictionary rest
  | [] => []

def packToken (token : ℤ) : Option Bytes :=
  if 0 ≤ token then toBytes 4 token.toNat else none

/-- `_dict_decompress`, for a dictionary that is not empty; a record that is cut off ends it. -/
def dictDecode (reverseDict : Dict Bytes ℤ) : Bytes → Option Bytes
  | [] => some []
  | ctrl::rest =>
    if ctrl = 0x01 then
      match rest with
      | a::b::rest =>
        match reverseDict.get? [a,b] with
        | some token => do
          let chunk ← packToken token
          let tail ← dictDecode reverseDict rest
          return chunk ++ tail
        | none => (dictDecode reverseDict rest).map fun tail => a::b::tail
      | _ => some []
    else if ctrl = 0x02 then
      match rest with
      | x::rest => (dictDecode reverseDict rest).map fun tail => x::tail
      | [] => some []
    else (dictDecode reverseDict rest).map fun tail => ctrl::tail

theorem packToken_fromBytes (a b c d : UInt8) :
    packToken (fromBytes [a,b,c,d]) = some [a,b,c,d] := by
  rw [packToken,if_pos (Int.natCast_nonneg _),Int.toNat_natCast]
  exact toBytes_fromBytes [a,b,c,d]

theorem dictDecode_raw (r : Dict Bytes ℤ) (x : UInt8) (rest : Bytes) :
    dictDecode r (0x02::x::rest) = (dictDecode r rest).map fun tail => x::tail := by
  have hne : ¬(0x02 : UInt8) = 0x01 := by decide
  rw [dictDecode.eq_def]
  simp only [if_neg hne,if_true]

theorem dictDecode_coded {r : Dict Bytes ℤ} {code : Bytes} {token : ℤ} {chunk : Bytes}
    (hlen : code.length = 2) (hr : r.get? code = some token) (hchunk : packToken token = some chunk)
    (rest : Bytes) :
    dictDecode r (0x01::code ++ rest) = (dictDecode r rest).map fun tail => chunk ++ tail := by
  match code,hlen with
  | [a,b],_ =>
    show dictDecode r (0x01::a::b::rest) = _
    rw [dictDecode,if_pos rfl]
    simp only [hr,hchunk,Option.bind_eq_bind,Option.bind_some]
    cases dictDecode r rest <;> rfl

theorem dictDecode_dictEncode (c : CavemanCompressor) (data : Bytes) :
    dictDecode c.reverseDict (dictEncode c.dictionary data) = some data := by
  fun_induction dictEncode c.dictionary data with
  | case1 a b x d rest code hcode ih =>
    obtain ⟨hlen,hr⟩ := c.codes _ code hcode
    rw [dictDecode_coded hlen hr (packToken_fromBytes a b x d),ih]
    rfl
  | case2 a b x d rest hcode ih => rw [dictDecode_raw,ih]; rfl
  | case3 x rest hshort ih => rw [dictDecode_raw,ih]; rfl
  | case4 => rfl

def dictCompress (c : CavemanCompressor) (data : Bytes) : Bytes :=
  if c.dictionary.entries = [] then data else dictEncode c.dictionary data

def dictDecompress (c : CavemanCompressor) (data : Bytes) : Option Bytes :=
  if c.reverseDict.entries = [] then some data else dictDecode c.reverseDict data

theorem dictDecompress_dictCompress (c : CavemanCompressor) (data : Bytes) :
    c.dictDecompress (c.dictCompress data) = some data := by
  by_cases hd : c.dictionary.entries = []
  · rw [dictDecompress,dictCompress,if_pos hd,if_pos (c.both.mp hd)]
  · have hr : c.reverseDict.entries ≠ [] := fun h => hd (c.both.mpr h)
    rw [dictDecompress,dictCompress,if_neg hd,if_neg hr]
    exact dictDecode_dictEncode c data

def diffCompress (z : Zlib) : Bytes → Bytes
  | x::y::data => z.compress 1 (x::deltas x (y::data))
  | data => data

def diffDecompress (z : Zlib) (data : Bytes) : Option Bytes :=
  match z.decompress data with
  | none => none
  | some [] => some []
  | some (x::ds) => some (x::partialSums x ds)

theorem diffDecompress_diffCompress {z : Zlib} {data : Bytes}
    (lossless : ∀ level b, z.decompress (z.compress level b) = some b) (hlen : 2 ≤ data.length) :
    diffDecompress z (diffCompress z data) = some data := by
  match data,hlen with
  | x::y::data,_ =>
    simp only [diffDecompress,diffCompress,lossless]
    rw [partialSums_deltas]

/-- One byte or none is stored as it is, which is no zlib stream. -/
theorem diffDecompress_diffCompress_short {z : Zlib} {data : Bytes}
    (header : ∀ b : Bytes, b.length < 2 → z.decompress b = none) (hlen : data.length < 2) :
    diffDecompress z (diffCompress z data) = none := by
  have hraw : diffCompress z data = data := by
    match data,hlen with
    | [],_ => rfl
    | [_],_ => rfl
  simp only [diffDecompress,hraw,header data hlen]

/-- The windows `data[i : i + 4]` for `i` in `range(0, len(data) - 4, 4)`. -/
def windows (data : Bytes) : List Bytes :=
  (List.range ((data.length - 4 + 3) / 4)).map fun i => (data.drop (4 * i)).take 4

def hasRepeatedPattern (data : Bytes) : Bool :=
  if data.length < 8 then false
  else
    let counted : Finset Bytes × ℕ := (windows data).foldl
      (fun s window => (insert window s.1,if window ∈ s.1 then s.2 + 1 else s.2)) (∅,0)
    decide ((counted.2 : ℚ) / (max counted.1.card 1 : ℕ) > 1 / 10)

def selectMethod (data : Bytes) : String :=
  if data.length < 64 then "dict"
  else if hasRepeatedPattern data then "diff"
  else "zlib"

def compressWith (c : CavemanCompressor) (z : Zlib) (data : Bytes) (method : String) : Bytes :=
  if method = "zlib" then z.compress 3 data
  else if method = "diff" then diffCompress z data
  else if method = "dict" then c.dictCompress data
  else data

/-- `compress`: the compressed data and the statistics, which it also keeps. -/
def compress (c : CavemanCompressor) (z : Zlib) (data : Bytes) (method : String) :
    (Bytes × CompressStats) × CavemanCompressor :=
  let method := if method = "auto" then selectMethod data else method
  let compressed := c.compressWith z data method
  let stats : CompressStats :=
    ⟨data.length,compressed.length,(compressed.length : ℚ) / (max data.length 1 : ℕ),method⟩
  ((compressed,stats),{ c with stats := stats })

def decompress (c : CavemanCompressor) (z : Zlib) (data : Bytes) (method : String) : Option Bytes :=
  if method = "zlib" then z.decompress data
  else if method = "diff" then diffDecompress z data
  else if method = "dict" then c.dictDecompress data
  else some data

theorem selectMethod_short {data : Bytes} (h : data.length < 64) : selectMethod data = "dict" :=
  if_pos h

theorem decompress_compressWith {z : Zlib} (c : CavemanCompressor) (data : Bytes) (method : String)
    (lossless : ∀ level b, z.decompress (z.compress level b) = some b)
    (header : ∀ b : Bytes, b.length < 2 → z.decompress b = none) :
    c.decompress z (c.compressWith z data method) method = some data ↔
      ¬(method = "diff" ∧ data.length < 2) := by
  rw [decompress,compressWith]
  by_cases hzlib : method = "zlib"
  · simp [hzlib,lossless]
  · by_cases hdiff : method = "diff"
    · rw [if_neg hzlib,if_neg hzlib,if_pos hdiff,if_pos hdiff]
      by_cases hlen : data.length < 2
      · simp [diffDecompress_diffCompress_short header hlen,hdiff,hlen]
      · simp [diffDecompress_diffCompress lossless (Nat.le_of_not_lt hlen),hlen]
    · by_cases hdict : method = "dict"
      · simp [hdict,dictDecompress_dictCompress]
      · simp [hzlib,hdiff,hdict]

/-- Compression is undone by the recorded method, except that the difference codec stores fewer
than two bytes as they are and then reads them as a zlib stream. -/
theorem decompress_compress_iff {z : Zlib} (c : CavemanCompressor) (data : Bytes) (method : String)
    (lossless : ∀ level b, z.decompress (z.compress level b) = some b)
    (header : ∀ b : Bytes, b.length < 2 → z.decompress b = none) :
    (c.compress z data method).2.decompress z (c.compress z data method).1.1
        (c.compress z data method).1.2.method = some data ↔
      ¬(method = "diff" ∧ data.length < 2) := by
  have hround := c.decompress_compressWith data
    (if method = "auto" then selectMethod data else method) lossless header
  have hmethod : (if method = "auto" then selectMethod data else method) = "diff" ∧
      data.length < 2 ↔ method = "diff" ∧ data.length < 2 := by
    apply and_congr_left
    intro hlen
    split_ifs with hauto
    · simp [hauto,selectMethod_short (show data.length < 64 by omega)]
    · rfl
  rwa [hmethod] at hround

def headerZlib : Zlib where
  compress _ b := 0x78::0x01::b
  decompress
    | 0x78::_::b => some b
    | _ => none

theorem headerZlib_header (b : Bytes) (h : b.length < 2) : headerZlib.decompress b = none := by
  match b,h with
  | [],_ => rfl
  | [x],_ => simp [headerZlib]

theorem decompress_compress_iff_marker :
    ¬("dict" = "diff" ∧ [(0x01 : UInt8),0x02,0x01].length < 2) ∧
      let c := (create 1024).buildDictionary [7,258,7]
      let r := c.compress headerZlib [0x01,0x02,0x01] "dict"
      r.2.decompress headerZlib r.1.1 r.1.2.method = some [0x01,0x02,0x01] := by
  have hcond : ¬("dict" = "diff" ∧ [(0x01 : UInt8),0x02,0x01].length < 2) := by decide
  exact ⟨hcond,(decompress_compress_iff ((create 1024).buildDictionary [7,258,7])
    [0x01,0x02,0x01] "dict" (fun _ _ => rfl) headerZlib_header).mpr hcond⟩

theorem diff_one_byte_lost :
    (∀ level b, headerZlib.decompress (headerZlib.compress level b) = some b) ∧
      let r := (create 1024).compress headerZlib [7] "diff"
      r.1.2.method = "diff" ∧ r.2.decompress headerZlib r.1.1 r.1.2.method ≠ some [7] := by
  refine ⟨fun _ _ => rfl,rfl,?_⟩
  decide

end CavemanCompressor
end FusionMultiNodes

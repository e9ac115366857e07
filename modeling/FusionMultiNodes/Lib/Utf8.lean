import Mathlib.Data.List.Basic
import Mathlib.Data.List.Induction
import Mathlib.Algebra.Group.Nat.Defs

/-! Octets: UTF-8 text and big-endian integers. -/
namespace FusionMultiNodes

abbrev Bytes := List UInt8

def encodeUtf8 (s : List Char) : Bytes := s.flatMap String.utf8EncodeChar

/-- `bytes.decode("utf-8")`; `none` where it raises. -/
def decodeUtf8 (b : Bytes) : Option (List Char) := b.toByteArray.utf8Decode?.map Array.toList

theorem toByteArray_encodeUtf8 (s : List Char) : (encodeUtf8 s).toByteArray = s.utf8Encode := rfl

@[simp] theorem decodeUtf8_encodeUtf8 (s : List Char) : decodeUtf8 (encodeUtf8 s) = some s := by
  simp [decodeUtf8,toByteArray_encodeUtf8]

theorem length_le_encodeUtf8 (s : List Char) : s.length ≤ (encodeUtf8 s).length := by
  induction s with
  | nil => exact Nat.le_refl 0
  | cons c s ih =>
    have hc : 0 < (String.utf8EncodeChar c).length := by
      rw [String.length_utf8EncodeChar]
      exact c.utf8Size_pos
    simp only [encodeUtf8,List.flatMap_cons,List.length_append,List.length_cons] at ih ⊢
    omega

theorem encodeUtf8_append (s t : List Char) : encodeUtf8 (s ++ t) = encodeUtf8 s ++ encodeUtf8 t :=
  List.flatMap_append

theorem length_encodeUtf8_ascii {s : List Char} (h : ∀ c ∈ s, c.toNat < 128) :
    (encodeUtf8 s).length = s.length := by
  induction s with
  | nil => rfl
  | cons c s ih =>
    have hc : (String.utf8EncodeChar c).length = 1 := by
      have hlt := h c (.head _)
      rw [String.length_utf8EncodeChar,Char.utf8Size_eq_one_iff,UInt32.le_iff_toNat_le]
      show c.toNat ≤ 127
      omega
    have hs := ih fun d hd => h d (.tail _ hd)
    simp only [encodeUtf8,List.flatMap_cons,List.length_append,List.length_cons] at hs ⊢
    omega

theorem toByteArray_inj {a b : Bytes} (h : a.toByteArray = b.toByteArray) : a = b := by
  simpa using congrArg (fun x : ByteArray => x.data.toList) h

theorem utf8EncodeChar_ascii {c : Char} (h : ∀ b ∈ String.utf8EncodeChar c, b.toNat < 128) :
    String.utf8EncodeChar c = [UInt8.ofNat c.toNat] ∧ c.toNat < 128 := by
  have hle : c.val.toNat ≤ 127 := by
    by_contra hgt
    unfold String.utf8EncodeChar at h
    simp only [if_neg hgt] at h
    split_ifs at h
    all_goals
      have hbyte := h _ List.mem_cons_self
      simp at hbyte
      omega
  have hone : String.utf8EncodeChar c = [UInt8.ofNat c.toNat] := if_pos hle
  exact ⟨hone,Nat.lt_succ_of_le hle⟩

/-- The characters of a text; where all are ASCII, one for each byte. -/
def charsByByte (s : String) : List Char :=
  if s.toByteArray.data.toList.all fun b => decide (b.toNat < 128) then
    s.toByteArray.data.toList.map fun b => Char.ofNat b.toNat
  else s.toList

theorem toList_eq_charsByByte (s : String) : s.toList = charsByByte s := by
  unfold charsByByte
  split_ifs with hascii
  · have hbytes : s.toByteArray.data.toList = encodeUtf8 s.toList := by
      have hencode : s.toByteArray = (encodeUtf8 s.toList).toByteArray := by
        rw [toByteArray_encodeUtf8]
        conv_lhs => rw [← String.ofList_toList (s := s)]
        rfl
      rw [hencode]
      simp
    have h := fun b hb => of_decide_eq_true (List.all_eq_true.mp hascii b hb)
    rw [hbytes] at h ⊢
    generalize s.toList = l at h
    induction l with
    | nil => rfl
    | cons c l ih =>
      simp only [encodeUtf8,List.flatMap_cons,List.forall_mem_append] at h ih ⊢
      obtain ⟨hc,hlt⟩ := utf8EncodeChar_ascii h.1
      have hchar : Char.ofNat (UInt8.ofNat c.toNat).toNat = c := by
        rw [UInt8.toNat_ofNat',Nat.mod_eq_of_lt (by omega),Char.ofNat_toNat]
      rw [hc,List.singleton_append,List.map_cons,hchar,← ih h.2]
  · rfl

/-- What a prefix of encoded text decodes to is a prefix of the text. -/
theorem decodeUtf8_eq_some_of_part {s cs : List Char} {p t : Bytes} (h : encodeUtf8 s = p ++ t)
    (hp : decodeUtf8 p = some cs) : encodeUtf8 cs = p ∧ cs <+: s := by
  obtain ⟨a,ha,rfl⟩ := Option.map_eq_some_iff.mp hp
  have hencode : a.toList.utf8Encode = p.toByteArray := by
    have hget := ByteArray.utf8Encode_get_utf8Decode? (b := p.toByteArray)
      (h := Option.isSome_of_eq_some ha)
    simpa only [ha,Option.get_some] using hget
  refine ⟨toByteArray_inj hencode,?_⟩
  apply List.isPrefix_of_utf8Encode_append_eq_utf8Encode t.toByteArray
  rw [hencode,← toByteArray_encodeUtf8,h,List.toByteArray_append]

def fromBytes (b : Bytes) : ℕ := b.foldl (fun a x => 256 * a + x.toNat) 0

/-- The `width` octets of `n`, most significant first. -/
def bigEndian : ℕ → ℕ → Bytes
  | 0, _ => []
  | k+1, n => bigEndian k (n / 256) ++ [UInt8.ofNat n]

/-- `n.to_bytes(width, "big")`; `none` where it raises `OverflowError`. -/
def toBytes (width n : ℕ) : Option Bytes :=
  if n < 256 ^ width then some (bigEndian width n) else none

@[simp] theorem length_bigEndian (k n : ℕ) : (bigEndian k n).length = k := by
  induction k generalizing n with
  | zero => rfl
  | succ k ih => simp [bigEndian,ih]

theorem fromBytes_bigEndian {k n : ℕ} (h : n < 256 ^ k) : fromBytes (bigEndian k n) = n := by
  induction k generalizing n with
  | zero =>
    have hn : n = 0 := by simpa using h
    simp [hn,bigEndian,fromBytes]
  | succ k ih =>
    have hdiv : n / 256 < 256 ^ k := by
      apply Nat.div_lt_of_lt_mul
      rwa [Nat.pow_succ,Nat.mul_comm] at h
    have hrec := ih hdiv
    simp only [fromBytes] at hrec
    simp only [bigEndian,fromBytes,List.foldl_append,List.foldl_cons,List.foldl_nil,hrec,
      UInt8.toNat_ofNat']
    omega

theorem fromBytes_append_singleton (b : Bytes) (x : UInt8) :
    fromBytes (b ++ [x]) = 256 * fromBytes b + x.toNat := by
  simp only [fromBytes,List.foldl_append,List.foldl_cons,List.foldl_nil]

theorem fromBytes_lt (b : Bytes) : fromBytes b < 256 ^ b.length := by
  induction b using List.reverseRecOn with
  | nil => simp [fromBytes]
  | append_singleton b x ih =>
    have hx : x.toNat < 256 := x.toNat_lt
    rw [fromBytes_append_singleton,List.length_append,List.length_singleton,Nat.pow_succ]
    omega

theorem bigEndian_fromBytes (b : Bytes) : bigEndian b.length (fromBytes b) = b := by
  induction b using List.reverseRecOn with
  | nil => rfl
  | append_singleton b x ih =>
    have hx : x.toNat < 256 := x.toNat_lt
    have hdiv : (256 * fromBytes b + x.toNat) / 256 = fromBytes b := by omega
    have hmod : UInt8.ofNat (256 * fromBytes b + x.toNat) = x := by
      apply UInt8.toNat_inj.mp
      rw [UInt8.toNat_ofNat']
      omega
    rw [fromBytes_append_singleton,List.length_append,List.length_singleton]
    show bigEndian b.length ((256 * fromBytes b + x.toNat) / 256) ++ _ = _
    rw [hdiv,ih,hmod]

theorem toBytes_fromBytes (b : Bytes) : toBytes b.length (fromBytes b) = some b := by
  rw [toBytes,if_pos (fromBytes_lt b),bigEndian_fromBytes]

end FusionMultiNodes

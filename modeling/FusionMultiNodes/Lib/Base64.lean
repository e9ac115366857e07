import FusionMultiNodes.Lib.Utf8

/-! Base64 text: `base64.b64encode`, and `base64.b64decode` without validation. -/
namespace FusionMultiNodes
namespace Base64

def sextet? (c : Char) : Option ℕ :=
  if 65 ≤ c.toNat ∧ c.toNat < 91 then some (c.toNat - 65)
  else if 97 ≤ c.toNat ∧ c.toNat < 123 then some (c.toNat - 71)
  else if 48 ≤ c.toNat ∧ c.toNat < 58 then some (c.toNat + 4)
  else if c = '+' then some 62
  else if c = '/' then some 63
  else none

/-- The scan of the decoder: `quad` characters of the current group have been read, `left`
holds their bits that are not written yet, `pads` padding characters follow them. Other
characters are passed over; padding that fills a group ends the text. -/
def scan : ℕ → ℕ → ℕ → List Char → Option Bytes
  | quad, _, _, [] => if quad = 0 then some [] else none
  | quad, left, pads, c::s =>
    if c = '=' then
      if 2 ≤ quad ∧ 4 ≤ quad + pads + 1 then some [] else
        scan quad left (if 2 ≤ quad then pads + 1 else pads) s
    else
      match sextet? c with
      | none => scan quad left pads s
      | some x =>
        match quad with
        | 0 => scan 1 x 0 s
        | 1 => (scan 2 (x % 16) 0 s).map (UInt8.ofNat (4 * left + x / 16) :: ·)
        | 2 => (scan 3 (x % 4) 0 s).map (UInt8.ofNat (16 * left + x / 4) :: ·)
        | _ => (scan 0 0 0 s).map (UInt8.ofNat (64 * left + x) :: ·)

def decode (s : List Char) : Option Bytes :=
  if s.all fun c => decide (c.toNat < 128) then scan 0 0 0 s else none

def sextetChar (x : ℕ) : Char :=
  if x < 26 then Char.ofNat (65 + x)
  else if x < 52 then Char.ofNat (71 + x)
  else if x < 62 then Char.ofNat (x - 4)
  else if x = 62 then '+'
  else '/'

def encode : Bytes → List Char
  | [] => []
  | [a] => [sextetChar (a.toNat / 4),sextetChar (a.toNat % 4 * 16),'=','=']
  | [a,b] => [sextetChar (a.toNat / 4),sextetChar (a.toNat % 4 * 16 + b.toNat / 16),
      sextetChar (b.toNat % 16 * 4),'=']
  | a::b::c::rest => sextetChar (a.toNat / 4)::sextetChar (a.toNat % 4 * 16 + b.toNat / 16)::
      sextetChar (b.toNat % 16 * 4 + c.toNat / 64)::sextetChar (c.toNat % 64)::encode rest

theorem sextetChar_spec : ∀ x < 64, sextet? (sextetChar x) = some x ∧ sextetChar x ≠ '=' ∧
    (sextetChar x).toNat < 128 := by
  decide

theorem scan_sextet {x : ℕ} (h : x < 64) (quad left pads : ℕ) (s : List Char) :
    scan quad left pads (sextetChar x::s) =
      match quad with
      | 0 => scan 1 x 0 s
      | 1 => (scan 2 (x % 16) 0 s).map (UInt8.ofNat (4 * left + x / 16) :: ·)
      | 2 => (scan 3 (x % 4) 0 s).map (UInt8.ofNat (16 * left + x / 4) :: ·)
      | _ => (scan 0 0 0 s).map (UInt8.ofNat (64 * left + x) :: ·) := by
  obtain ⟨hvalue,hpad,-⟩ := sextetChar_spec x h
  rw [scan,if_neg hpad,hvalue]

theorem ofNat_eq {n : ℕ} {a : UInt8} (h : n = a.toNat) : UInt8.ofNat n = a := by
  rw [h,UInt8.ofNat_toNat]

theorem scan_group (a b c : UInt8) (s : List Char) :
    scan 0 0 0 (sextetChar (a.toNat / 4)::sextetChar (a.toNat % 4 * 16 + b.toNat / 16)::
      sextetChar (b.toNat % 16 * 4 + c.toNat / 64)::sextetChar (c.toNat % 64)::s) =
      (scan 0 0 0 s).map fun r => a::b::c::r := by
  have ha : a.toNat < 256 := a.toNat_lt
  have hb : b.toNat < 256 := b.toNat_lt
  have hc : c.toNat < 256 := c.toNat_lt
  simp only [scan_sextet (show a.toNat / 4 < 64 by omega),
    scan_sextet (show a.toNat % 4 * 16 + b.toNat / 16 < 64 by omega),
    scan_sextet (show b.toNat % 16 * 4 + c.toNat / 64 < 64 by omega),
    scan_sextet (show c.toNat % 64 < 64 by omega)]
  rw [ofNat_eq (a := a) (by omega),ofNat_eq (a := b) (by omega),ofNat_eq (a := c) (by omega)]
  cases scan 0 0 0 s <;> rfl

theorem scan_encode (b : Bytes) : scan 0 0 0 (encode b) = some b := by
  fun_induction encode b with
  | case1 => rfl
  | case2 a =>
    have ha : a.toNat < 256 := a.toNat_lt
    simp only [scan_sextet (show a.toNat / 4 < 64 by omega),
      scan_sextet (show a.toNat % 4 * 16 < 64 by omega)]
    rw [ofNat_eq (a := a) (by omega)]
    rfl
  | case3 a b =>
    have ha : a.toNat < 256 := a.toNat_lt
    have hb : b.toNat < 256 := b.toNat_lt
    simp only [scan_sextet (show a.toNat / 4 < 64 by omega),
      scan_sextet (show a.toNat % 4 * 16 + b.toNat / 16 < 64 by omega),
      scan_sextet (show b.toNat % 16 * 4 < 64 by omega)]
    rw [ofNat_eq (a := a) (by omega),ofNat_eq (a := b) (by omega)]
    rfl
  | case4 a b c rest ih => rw [scan_group,ih]; rfl

/-- What holds of the alphabet and of the padding holds of every text. -/
theorem forall_encode {P : Char → Prop} (h : ∀ x < 64, P (sextetChar x)) (hpad : P '=')
    (b : Bytes) : ∀ c ∈ encode b, P c := by
  fun_induction encode b with
  | case1 => simp
  | case2 a =>
    have ha : a.toNat < 256 := a.toNat_lt
    simp [h (a.toNat / 4) (by omega),h (a.toNat % 4 * 16) (by omega),hpad]
  | case3 a b =>
    have ha : a.toNat < 256 := a.toNat_lt
    have hb : b.toNat < 256 := b.toNat_lt
    simp [h (a.toNat / 4) (by omega),h (a.toNat % 4 * 16 + b.toNat / 16) (by omega),
      h (b.toNat % 16 * 4) (by omega),hpad]
  | case4 a b c rest ih =>
    have ha : a.toNat < 256 := a.toNat_lt
    have hb : b.toNat < 256 := b.toNat_lt
    have hc : c.toNat < 256 := c.toNat_lt
    simp only [List.mem_cons,forall_eq_or_imp]
    exact ⟨h _ (by omega),h _ (by omega),h _ (by omega),h _ (by omega),ih⟩

theorem encode_ascii (b : Bytes) : ∀ c ∈ encode b, c.toNat < 128 :=
  forall_encode (fun x hx => (sextetChar_spec x hx).2.2) (by decide) b

theorem length_encode (b : Bytes) : (encode b).length = 4 * ((b.length + 2) / 3) := by
  fun_induction encode b with
  | case1 => rfl
  | case2 a => simp only [List.length_cons,List.length_nil]
  | case3 a b => simp only [List.length_cons,List.length_nil]
  | case4 a b c rest ih =>
    simp only [List.length_cons]
    omega

@[simp] theorem decode_encode (b : Bytes) : decode (encode b) = some b := by
  have hascii : (encode b).all (fun c => decide (c.toNat < 128)) = true := by
    rw [List.all_eq_true]
    exact fun c hc => decide_eq_true (encode_ascii b c hc)
  rw [decode,if_pos hascii,scan_encode]

theorem lt_length_encode {b : Bytes} (h : b ≠ []) : b.length < (encode b).length := by
  have hpos := List.length_pos_iff.mpr h
  rw [length_encode]
  omega

end Base64
end FusionMultiNodes

import Mathlib.Tactic

/-! # Little-endian words

`encode w n` is the `w` low bytes of `n`, least significant first, and `decode` reads such a word
back. The signed 64-bit words are the two's complement ones.
-/

namespace LittleEndian
set_option autoImplicit false

def encode : ℕ → ℕ → List UInt8
  | 0, _ => []
  | w + 1, n => UInt8.ofNat (n % 256) :: encode w (n / 256)

def decode : List UInt8 → ℕ
  | [] => 0
  | b :: bs => b.toNat + 256 * decode bs

theorem length_encode (w n : ℕ) : (encode w n).length = w := by
  induction w generalizing n with
  | zero => rfl
  | succ w ih => rw [encode, List.length_cons, ih]

theorem decode_encode (w n : ℕ) (h : n < 256 ^ w) : decode (encode w n) = n := by
  induction w generalizing n with
  | zero =>
    have h0 : n = 0 := by simpa using h
    rw [h0]
    rfl
  | succ w ih =>
    have hdiv : n / 256 < 256 ^ w := by
      rw [Nat.div_lt_iff_lt_mul (by norm_num)]
      rwa [pow_succ] at h
    have hbyte : (UInt8.ofNat (n % 256)).toNat = n % 256 := by
      rw [UInt8.toNat_ofNat']
      omega
    rw [encode, decode, hbyte, ih _ hdiv]
    omega

theorem encode_decode (bs : List UInt8) : encode bs.length (decode bs) = bs := by
  induction bs with
  | nil => rfl
  | cons b bs ih =>
    have hb := b.toNat_lt
    have hlow : (b.toNat + 256 * decode bs) % 256 = b.toNat := by omega
    have hhigh : (b.toNat + 256 * decode bs) / 256 = decode bs := by omega
    rw [List.length_cons, decode, encode, hlow, hhigh, ih, UInt8.ofNat_toNat]

theorem decode_concat (bs : List UInt8) (b : UInt8) :
    decode (bs ++ [b]) = decode bs + 256 ^ bs.length * b.toNat := by
  induction bs with
  | nil => simp [decode]
  | cons c bs ih =>
    rw [List.cons_append, decode, decode, ih, List.length_cons, pow_succ]
    ring

theorem decode_lt (bs : List UInt8) : decode bs < 256 ^ bs.length := by
  induction bs with
  | nil => exact Nat.one_pos
  | cons b bs ih =>
    have hb := b.toNat_lt
    rw [List.length_cons, decode, pow_succ]
    omega

def encodeU16 (x : UInt16) : List UInt8 := encode 2 x.toNat

def decodeU16 (bs : List UInt8) : UInt16 := UInt16.ofNat (decode bs)

def encodeU32 (x : UInt32) : List UInt8 := encode 4 x.toNat

def decodeU32 (bs : List UInt8) : UInt32 := UInt32.ofNat (decode bs)

def encodeU64 (x : UInt64) : List UInt8 := encode 8 x.toNat

def decodeU64 (bs : List UInt8) : UInt64 := UInt64.ofNat (decode bs)

def encodeI64 (x : Int64) : List UInt8 := encode 8 x.toUInt64.toNat

def decodeI64 (bs : List UInt8) : Int64 := (UInt64.ofNat (decode bs)).toInt64

def encodeI32 (x : Int32) : List UInt8 := encode 4 x.toUInt32.toNat

def decodeI32 (bs : List UInt8) : Int32 := (UInt32.ofNat (decode bs)).toInt32

theorem length_encodeU16 (x : UInt16) : (encodeU16 x).length = 2 := length_encode _ _

theorem decodeU16_encodeU16 (x : UInt16) : decodeU16 (encodeU16 x) = x := by
  have hx : x.toNat < 256 ^ 2 := x.toNat_lt
  rw [decodeU16, encodeU16, decode_encode 2 _ hx, UInt16.ofNat_toNat]

theorem length_encodeU32 (x : UInt32) : (encodeU32 x).length = 4 := length_encode _ _

theorem length_encodeI64 (x : Int64) : (encodeI64 x).length = 8 := length_encode _ _

theorem decodeU32_encodeU32 (x : UInt32) : decodeU32 (encodeU32 x) = x := by
  have hx : x.toNat < 256 ^ 4 := x.toNat_lt
  rw [decodeU32, encodeU32, decode_encode 4 _ hx, UInt32.ofNat_toNat]

theorem length_encodeU64 (x : UInt64) : (encodeU64 x).length = 8 := length_encode _ _

theorem decodeU64_encodeU64 (x : UInt64) : decodeU64 (encodeU64 x) = x := by
  have hx : x.toNat < 256 ^ 8 := x.toNat_lt
  rw [decodeU64, encodeU64, decode_encode 8 _ hx, UInt64.ofNat_toNat]

theorem decodeI64_encodeI64 (x : Int64) : decodeI64 (encodeI64 x) = x := by
  have hx : x.toUInt64.toNat < 256 ^ 8 := x.toUInt64.toNat_lt
  rw [decodeI64, encodeI64, decode_encode 8 _ hx, UInt64.ofNat_toNat]
  rfl

theorem encodeI64_decodeI64 {bs : List UInt8} (h : bs.length = 8) :
    encodeI64 (decodeI64 bs) = bs := by
  have hlt := decode_lt bs
  rw [h] at hlt
  have hword : (UInt64.ofNat (decode bs)).toNat = decode bs := UInt64.toNat_ofNat_of_lt' hlt
  have hsigned : (UInt64.ofNat (decode bs)).toInt64.toUInt64 = UInt64.ofNat (decode bs) := rfl
  rw [encodeI64, decodeI64, hsigned, hword, ← h, encode_decode]

theorem length_encodeI32 (x : Int32) : (encodeI32 x).length = 4 := length_encode _ _

theorem decodeI32_encodeI32 (x : Int32) : decodeI32 (encodeI32 x) = x := by
  have hx : x.toUInt32.toNat < 256 ^ 4 := x.toUInt32.toNat_lt
  rw [decodeI32, encodeI32, decode_encode 4 _ hx, UInt32.ofNat_toNat]
  rfl

/-- The `n` bytes from offset `a`. -/
def slice (bs : List UInt8) (a n : ℕ) : List UInt8 := (bs.drop a).take n

theorem length_slice {bs : List UInt8} {a n : ℕ} (h : a + n ≤ bs.length) :
    (slice bs a n).length = n := by
  rw [slice, List.length_take, List.length_drop]
  omega

theorem slice_append {bs : List UInt8} {a n : ℕ} (h : a + n ≤ bs.length) (xs : List UInt8) :
    slice (bs ++ xs) a n = slice bs a n := by
  rw [slice, slice, List.drop_append_of_le_length (by omega),
    List.take_append_of_le_length (by rw [List.length_drop]; omega)]

/-- Reading a record field by field: where a field of `n` bytes starts, it is the slice, and the
rest of the record starts after it. -/
theorem read_field {bs xs ys : List UInt8} {a n : ℕ} (h : bs.drop a = xs ++ ys)
    (hn : xs.length = n) : slice bs a n = xs ∧ bs.drop (a + n) = ys := by
  constructor
  · rw [slice, h]
    exact List.take_left' hn
  · rw [← List.drop_drop, h]
    exact List.drop_left' hn

theorem drop_eq_slice (bs : List UInt8) (a n : ℕ) :
    bs.drop a = slice bs a n ++ bs.drop (a + n) := by
  rw [slice, ← List.drop_drop, List.take_append_drop]

theorem getD_of_drop {bs xs : List UInt8} {a : ℕ} {x : UInt8} (h : bs.drop a = x :: xs)
    (fallback : UInt8) : bs.getD a fallback = x := by
  have hget : (bs.drop a)[0]? = bs[a]? := List.getElem?_drop
  rw [List.getD_eq_getElem?_getD, ← hget, h]
  rfl

end LittleEndian

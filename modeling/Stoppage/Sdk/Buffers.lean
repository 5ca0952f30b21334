import Stoppage.Chain.State
import Stoppage.Chain.Layout
import Stoppage.Lib.Fallible

/-! # `packages/sdk`: integers as bytes

The two ways in which the SDK writes an integer: the methods of `Buffer`, which throw when the
value is out of range, and the loops over the bits of a `bigint`, which wrap. A `number` is an
integer here, as all of the values that reach these functions are.
-/

namespace Stoppage.Sdk
open LittleEndian
set_option autoImplicit false

/-- What the builders throw: an `Error` of their own, or a `RangeError` of a `Buffer` method. -/
inductive SdkError
  | error (message : String)
  | rangeError
deriving DecidableEq

def FitsI64 (value : ℤ) : Prop := -2 ^ 63 ≤ value ∧ value < 2 ^ 63

def FitsU32 (value : ℤ) : Prop := 0 ≤ value ∧ value < 2 ^ 32

/-! ## Methods of `Buffer` -/

/-- `Buffer.alloc(n)` -/
def alloc (n : ℕ) : Bytes := List.replicate n 0

def writeAt (buf : Bytes) (offset : ℕ) (bs : Bytes) : Bytes :=
  buf.take offset ++ (bs ++ buf.drop (offset + bs.length))

/-- `buf.writeUInt32LE(value)` on a buffer of four bytes. -/
def writeUInt32LE (value : ℤ) : Except SdkError Bytes :=
  if 0 ≤ value ∧ value < 2 ^ 32 then .ok (encode 4 value.toNat) else .error .rangeError

/-- `buf.writeBigInt64LE(value)` on a buffer of eight bytes. -/
def writeBigInt64LE (value : ℤ) : Except SdkError Bytes :=
  if -2 ^ 63 ≤ value ∧ value < 2 ^ 63 then .ok (encode 8 (value % 2 ^ 64).toNat)
  else .error .rangeError

/-! ## Loops over a `bigint` -/

/-- `value & 0xff` -/
def lowByte (value : ℤ) : UInt8 := UInt8.ofNat (value % 256).toNat

/-- The loop `buf[i] = Number(v & 0xffn); v >>= 8n`. -/
def writeLowBytes : ℕ → ℤ → Bytes
  | 0, _ => []
  | n + 1, value => lowByte value :: writeLowBytes n (value / 256)

def writeU64LE (value : ℤ) : Bytes := writeLowBytes 8 value

/-- The argument is `BigInt.asUintN(64, value)`. -/
def writeI64LE (value : ℤ) : Bytes := writeU64LE (value % 2 ^ 64)

/-! ## What the programs read -/

/-- A field written right behind the ones before it. -/
theorem writeAt_alloc {front bs : Bytes} {offset n : ℕ} (hfront : front.length = offset) :
    writeAt (front ++ alloc n) offset bs = (front ++ bs) ++ alloc (n - bs.length) := by
  have hdrop : (front ++ alloc n).drop (offset + bs.length) = alloc (n - bs.length) := by
    rw [← List.drop_drop, List.drop_left' hfront, alloc, List.drop_replicate]
    rfl
  rw [writeAt, List.take_left' hfront, hdrop, List.append_assoc]

theorem FitsU32.exists_toNat {value : ℤ} (h : FitsU32 value) :
    ∃ x : UInt32, (x.toNat : ℤ) = value := by
  obtain ⟨hlow, hhigh⟩ := h
  have hx : (UInt32.ofNat value.toNat).toNat = value.toNat := by
    rw [UInt32.toNat_ofNat_of_lt']
    show value.toNat < 2 ^ 32
    omega
  refine ⟨UInt32.ofNat value.toNat, ?_⟩
  rw [hx]
  exact Int.toNat_of_nonneg hlow

theorem writeUInt32LE_eq_ok {value : ℤ} {bs : Bytes} : writeUInt32LE value = .ok bs ↔
    ∃ x : UInt32, (x.toNat : ℤ) = value ∧ bs = encodeU32 x := by
  unfold writeUInt32LE
  constructor
  · intro h
    split at h
    · rename_i hfits
      obtain ⟨x, rfl⟩ := FitsU32.exists_toNat hfits
      cases h
      exact ⟨x, rfl, by rw [encodeU32, Int.toNat_natCast]⟩
    · cases h
  · rintro ⟨x, rfl, rfl⟩
    have hx := x.toNat_lt
    rw [if_pos (by omega), encodeU32, Int.toNat_natCast]

theorem writeUInt32LE_toNat (x : UInt32) : writeUInt32LE x.toNat = .ok (encodeU32 x) :=
  writeUInt32LE_eq_ok.mpr ⟨x, rfl, rfl⟩

theorem writeUInt32LE_natCast {n : ℕ} {bs : Bytes} :
    writeUInt32LE n = .ok bs ↔ n < 2 ^ 32 ∧ bs = encode 4 n := by
  rw [writeUInt32LE_eq_ok]
  constructor
  · rintro ⟨x, hx, rfl⟩
    have hn : x.toNat = n := by exact_mod_cast hx
    exact ⟨hn ▸ x.toNat_lt, by rw [encodeU32, hn]⟩
  · rintro ⟨hn, rfl⟩
    have hx := UInt32.toNat_ofNat_of_lt' hn
    exact ⟨UInt32.ofNat n, by rw [hx], by rw [encodeU32, hx]⟩

theorem writeLowBytes_natCast (n v : ℕ) : writeLowBytes n v = encode n v := by
  induction n generalizing v with
  | zero => rfl
  | succ n ih =>
    have hlow : ((v : ℤ) % 256).toNat = v % 256 := by omega
    have hhigh : (v : ℤ) / 256 = (v / 256 : ℕ) := by omega
    rw [writeLowBytes, encode, lowByte, hlow, hhigh, ih]

/-- The bits from the last one written on do not matter. -/
theorem writeLowBytes_add (n : ℕ) (v k : ℤ) :
    writeLowBytes n (v + 256 ^ n * k) = writeLowBytes n v := by
  induction n generalizing v with
  | zero => rfl
  | succ n ih =>
    have hshift : v + 256 ^ (n + 1) * k = v + 256 * (256 ^ n * k) := by ring
    have hlow : (v + 256 * (256 ^ n * k)) % 256 = v % 256 := Int.add_mul_emod_self_left _ _ _
    have hhigh : (v + 256 * (256 ^ n * k)) / 256 = v / 256 + 256 ^ n * k :=
      Int.add_mul_ediv_left _ _ (by norm_num)
    rw [writeLowBytes, writeLowBytes, lowByte, lowByte, hshift, hlow, hhigh, ih]

theorem toNat_ofInt (v : ℤ) : ((UInt64.ofInt v).toNat : ℤ) = v % 2 ^ 64 := by
  have hnonneg : 0 ≤ v % 2 ^ 64 := Int.emod_nonneg _ (by norm_num)
  have hlt : v % 2 ^ 64 < 2 ^ 64 := Int.emod_lt_of_pos _ (by norm_num)
  have hword : (UInt64.ofInt v).toNat = (v % 2 ^ 64).toNat :=
    Fallible.toNat_ofNat_of_lt (show (v % 2 ^ 64).toNat < 2 ^ 64 by omega)
  rw [hword]
  exact Int.toNat_of_nonneg hnonneg

theorem writeU64LE_eq (v : ℤ) : writeU64LE v = encodeU64 (UInt64.ofInt v) := by
  have hsplit : v = ((UInt64.ofInt v).toNat : ℤ) + 256 ^ 8 * (v / 2 ^ 64) := by
    rw [toNat_ofInt]
    exact (Int.emod_add_mul_ediv v (2 ^ 64)).symm
  calc writeU64LE v = writeLowBytes 8 (((UInt64.ofInt v).toNat : ℤ) + 256 ^ 8 * (v / 2 ^ 64)) := by
        rw [writeU64LE, ← hsplit]
    _ = encodeU64 (UInt64.ofInt v) := by
      rw [writeLowBytes_add, writeLowBytes_natCast, encodeU64]

theorem writeI64LE_eq (v : ℤ) : writeI64LE v = encodeI64 (Int64.ofInt v) := by
  have hword : (Int64.ofInt v).toUInt64.toNat = (UInt64.ofInt v).toNat := by
    have hunsigned := toNat_ofInt v
    have hsigned : (Int64.ofInt v).toUInt64.toNat = (v % 2 ^ 64).toNat :=
      BitVec.toNat_ofInt (n := 64) v
    omega
  have hmod : UInt64.ofInt (v % 2 ^ 64) = UInt64.ofInt v := by
    rw [UInt64.ofInt, UInt64.ofInt, Int.emod_emod_of_dvd _ dvd_rfl]
  rw [writeI64LE, writeU64LE_eq, hmod, encodeU64, encodeI64, hword]

theorem toInt_emod (x : Int64) : x.toInt % 2 ^ 64 = x.toUInt64.toNat := by
  have hword := BitVec.toNat_ofInt (n := 64) x.toInt
  have hx : BitVec.ofInt 64 x.toInt = x.toBitVec := BitVec.ofInt_toInt
  rw [hx] at hword
  have hnonneg : 0 ≤ x.toInt % 2 ^ 64 := Int.emod_nonneg _ (by norm_num)
  show _ = ((x.toBitVec.toNat : ℕ) : ℤ)
  rw [hword]
  exact (Int.toNat_of_nonneg hnonneg).symm

theorem writeI64LE_toInt (x : Int64) : writeI64LE x.toInt = encodeI64 x := by
  rw [writeI64LE, writeU64LE, toInt_emod, writeLowBytes_natCast, encodeI64]

theorem writeBigInt64LE_toInt (x : Int64) : writeBigInt64LE x.toInt = .ok (encodeI64 x) := by
  have hlow := x.le_toInt
  have hhigh := x.toInt_lt
  rw [writeBigInt64LE, if_pos ⟨hlow, hhigh⟩, toInt_emod, Int.toNat_natCast, encodeI64]

end Stoppage.Sdk

import Stoppage.Sdk.Txline

/-! # `packages/sdk`: the 64-bit words

The readers of `escrow.ts` next to the writers, and `encodeI64` of `settlement.ts`. A read throws,
`none` here, when a byte of it lies behind the end of the buffer.
-/

namespace Stoppage.Sdk
open LittleEndian
set_option autoImplicit false

/-- The loop `result = (result << 8n) | BigInt(buf[offset + i])`, with `i` from `n - 1` down. -/
def readHighBytes (buf : Bytes) (offset : ℕ) : ℕ → ℕ → Option ℕ
  | 0, result => some result
  | i + 1, result => do
    let b ← buf[offset + i]?
    readHighBytes buf offset i ((result <<< 8) ||| b.toNat)

def readU64LE (buf : Bytes) (offset : ℕ) : Option ℤ :=
  (readHighBytes buf offset 8 0).map Nat.cast

def readI64LE (buf : Bytes) (offset : ℕ) : Option ℤ := do
  let u ← readU64LE buf offset
  pure (asIntN 64 u)

/-! ## The fold from the top byte -/

theorem shiftLeft_or_byte (result : ℕ) (b : UInt8) :
    (result <<< 8) ||| b.toNat = result * 256 + b.toNat := by
  rw [← Nat.shiftLeft_add_eq_or_of_lt (b.toNat_lt), Nat.shiftLeft_eq]

/-- The bytes are put below what has been read so far. -/
theorem readHighBytes_eq (front bs rest : Bytes) (result : ℕ) :
    readHighBytes (front ++ (bs ++ rest)) front.length bs.length result =
      some (result * 256 ^ bs.length + decode bs) := by
  -- The loop starts at the last byte, so the induction takes the word apart there.
  induction bs using List.reverseRecOn generalizing rest result with
  | nil =>
    rw [List.length_nil, readHighBytes, pow_zero, Nat.mul_one]
    rfl
  | append_singleton bs b ih =>
    have hlast : (front ++ ((bs ++ [b]) ++ rest))[front.length + bs.length]? = some b := by
      simp
    have hrest : front ++ ((bs ++ [b]) ++ rest) = front ++ (bs ++ (b :: rest)) := by
      rw [List.append_assoc bs, List.singleton_append]
    rw [List.length_append, List.length_singleton, readHighBytes, hlast]
    show readHighBytes _ _ bs.length _ = _
    rw [hrest, ih, shiftLeft_or_byte, decode_concat, pow_succ]
    exact congrArg some (by ring)

theorem readU64LE_eq (front rest : Bytes) {bs : Bytes} (hlen : bs.length = 8) :
    readU64LE (front ++ (bs ++ rest)) front.length = some (decode bs : ℤ) := by
  have hread := readHighBytes_eq front bs rest 0
  rw [hlen, Nat.zero_mul, Nat.zero_add] at hread
  rw [readU64LE, hread]
  rfl

theorem readU64LE_short {buf : Bytes} {offset : ℕ} (h : buf.length < offset + 8) :
    readU64LE buf offset = none := by
  have hlast : buf[offset + 7]? = none := List.getElem?_eq_none (by omega)
  rw [readU64LE, readHighBytes, hlast]
  rfl

/-! ## What the writers left is read -/

theorem length_writeLowBytes (n : ℕ) (v : ℤ) : (writeLowBytes n v).length = n := by
  induction n generalizing v with
  | zero => rfl
  | succ n ih => rw [writeLowBytes, List.length_cons, ih]

theorem decode_writeU64LE (v : ℤ) : (decode (writeU64LE v) : ℤ) = v % 2 ^ 64 := by
  have hlt : (UInt64.ofInt v).toNat < 256 ^ 8 := (UInt64.ofInt v).toNat_lt
  rw [writeU64LE_eq, encodeU64, decode_encode 8 _ hlt, toNat_ofInt]

theorem asIntN_emod (v : ℤ) : asIntN 64 (v % 2 ^ 64) = asIntN 64 v := by
  have hcast : (2 : ℤ) ^ 64 = ((2 ^ 64 : ℕ) : ℤ) := by norm_num
  rw [asIntN, asIntN, hcast, Int.emod_bmod]

theorem emod_asIntN (v : ℤ) : asIntN 64 v % 2 ^ 64 = v % 2 ^ 64 := by
  have hcast : (2 : ℤ) ^ 64 = ((2 ^ 64 : ℕ) : ℤ) := by norm_num
  rw [asIntN, hcast, Int.bmod_emod]

theorem asIntN_of_fits {v : ℤ} (h : FitsI64 v) : asIntN 64 v = v := by
  obtain ⟨hlow, hhigh⟩ := h
  rw [asIntN, Int.bmod_eq_of_le]
  · push_cast
    omega
  · push_cast
    omega

/-- Every 64-bit word is the unsigned value of its bytes, and the signed one as well. -/
theorem writeU64LE_decode {bs : Bytes} (hlen : bs.length = 8) : writeU64LE (decode bs) = bs := by
  rw [writeU64LE, writeLowBytes_natCast, ← hlen, encode_decode]

theorem writeI64LE_asIntN_decode {bs : Bytes} (hlen : bs.length = 8) :
    writeI64LE (asIntN 64 (decode bs)) = bs := by
  have hlt : (decode bs : ℤ) < 2 ^ 64 := by
    have hbytes := decode_lt bs
    rw [hlen] at hbytes
    exact_mod_cast hbytes
  rw [writeI64LE, emod_asIntN, Int.emod_eq_of_lt (Int.natCast_nonneg _) hlt, writeU64LE_decode hlen]

theorem encodeI64_eq_writeI64LE (val : ℤ) : encodeI64 val = writeI64LE val := by
  rw [encodeI64, asUintN, emod_asIntN, map_lowByte, writeI64LE, writeU64LE]

section Buffer
variable (front rest : Bytes)

theorem readU64LE_writeU64LE {v : ℤ} (hlow : 0 ≤ v) (hhigh : v < 2 ^ 64) :
    readU64LE (front ++ (writeU64LE v ++ rest)) front.length = some v := by
  have hlen : (writeU64LE v).length = 8 := length_writeLowBytes 8 v
  rw [readU64LE_eq front rest hlen, decode_writeU64LE, Int.emod_eq_of_lt hlow hhigh]

theorem readI64LE_writeI64LE {v : ℤ} (h : FitsI64 v) :
    readI64LE (front ++ (writeI64LE v ++ rest)) front.length = some v := by
  have hnonneg : 0 ≤ v % 2 ^ 64 := Int.emod_nonneg _ (by norm_num)
  have hlt : v % 2 ^ 64 < 2 ^ 64 := Int.emod_lt_of_pos _ (by norm_num)
  rw [readI64LE, writeI64LE, readU64LE_writeU64LE front rest hnonneg hlt]
  show some (asIntN 64 (v % 2 ^ 64)) = some v
  rw [asIntN_emod, asIntN_of_fits h]

theorem writeU64LE_readU64LE {bs : Bytes} (hlen : bs.length = 8) :
    (readU64LE (front ++ (bs ++ rest)) front.length).map writeU64LE = some bs := by
  rw [readU64LE_eq front rest hlen, Option.map_some, writeU64LE_decode hlen]

theorem writeI64LE_readI64LE {bs : Bytes} (hlen : bs.length = 8) :
    (readI64LE (front ++ (bs ++ rest)) front.length).map writeI64LE = some bs := by
  rw [readI64LE, readU64LE_eq front rest hlen]
  show some (writeI64LE (asIntN 64 (decode bs))) = some bs
  rw [writeI64LE_asIntN_decode hlen]

end Buffer

/-! ## The readers of the account parsers -/

theorem run_word {α : Type} {f : Bytes → α} {buf : Bytes} {offset : ℕ} :
    Borsh.run (f <$> Borsh.bytes 8) (buf.drop offset) =
      if offset + 8 ≤ buf.length then some (f (slice buf offset 8)) else none := by
  have hlen : 8 ≤ (buf.drop offset).length ↔ offset + 8 ≤ buf.length := by
    rw [List.length_drop]
    omega
  show Option.map Prod.fst ((Borsh.bytes 8 (buf.drop offset)).bind fun r => some (f r.1, r.2)) = _
  rw [Borsh.bytes, if_congr hlen rfl rfl]
  split <;> rfl

theorem readU64LE_eq_slice (buf : Bytes) (offset : ℕ) : readU64LE buf offset =
    if offset + 8 ≤ buf.length then some (decode (slice buf offset 8) : ℤ) else none := by
  split
  case isTrue hlong =>
    have hfront : (buf.take offset).length = offset := by
      rw [List.length_take]
      omega
    have hread := readU64LE_eq (buf.take offset) (buf.drop (offset + 8)) (length_slice hlong)
    rwa [← drop_eq_slice, List.take_append_drop, hfront] at hread
  case isFalse hshort => exact readU64LE_short (by omega)

/-- `readU64LE` takes the word that a reader which goes through the account in order takes. -/
theorem readU64LE_eq_run (buf : Bytes) (offset : ℕ) : readU64LE buf offset =
    (Borsh.run Borsh.u64 (buf.drop offset)).map fun x => (x.toNat : ℤ) := by
  rw [readU64LE_eq_slice, Borsh.u64, run_word]
  split
  case isTrue hlong =>
    have hlt := decode_lt (slice buf offset 8)
    rw [length_slice hlong] at hlt
    rw [Option.map_some, decodeU64, UInt64.toNat_ofNat_of_lt' hlt]
  case isFalse => rfl

theorem readI64LE_eq_run (buf : Bytes) (offset : ℕ) : readI64LE buf offset =
    (Borsh.run Borsh.i64 (buf.drop offset)).map Int64.toInt := by
  rw [readI64LE, readU64LE_eq_slice, Borsh.i64, run_word]
  split
  case isTrue hlong =>
    exact congrArg some Int64.toInt_ofNat'.symm
  case isFalse => rfl

/-! ## One format -/

/-- **The 64-bit codecs are inverse to each other**, wherever in a buffer the word stands, and the
two signed encoders write the same bytes. -/
theorem word_codecs_inverse :
    (∀ (front rest : Bytes) (v : ℤ), 0 ≤ v → v < 2 ^ 64 →
      readU64LE (front ++ (writeU64LE v ++ rest)) front.length = some v) ∧
    (∀ front rest b : Bytes, b.length = 8 →
      (readU64LE (front ++ (b ++ rest)) front.length).map writeU64LE = some b) ∧
    (∀ (front rest : Bytes) (v : ℤ), -2 ^ 63 ≤ v → v < 2 ^ 63 →
      readI64LE (front ++ (writeI64LE v ++ rest)) front.length = some v) ∧
    (∀ front rest b : Bytes, b.length = 8 →
      (readI64LE (front ++ (b ++ rest)) front.length).map writeI64LE = some b) ∧
    ∀ val : ℤ, encodeI64 val = writeI64LE val := by
  refine ⟨?_, ?_, ?_, ?_, encodeI64_eq_writeI64LE⟩
  · intro front rest v hlow hhigh
    exact readU64LE_writeU64LE front rest hlow hhigh
  · intro front rest b hlen
    exact writeU64LE_readU64LE front rest hlen
  · intro front rest v hlow hhigh
    exact readI64LE_writeI64LE front rest ⟨hlow, hhigh⟩
  · intro front rest b hlen
    exact writeI64LE_readI64LE front rest hlen

/-- The top bytes: the largest unsigned word and the smallest signed one, between other bytes. -/
theorem word_codecs_inverse_at_ends :
    readU64LE ([9] ++ (writeU64LE (2 ^ 64 - 1) ++ [8])) 1 = some (2 ^ 64 - 1) ∧
    readI64LE ([9] ++ (writeI64LE (-2 ^ 63) ++ [8])) 1 = some (-2 ^ 63) ∧
    (readI64LE ([9] ++ ([0, 0, 0, 0, 0, 0, 0, 128] ++ [8])) 1).map writeI64LE =
      some [0, 0, 0, 0, 0, 0, 0, 128] ∧
    encodeI64 (-1) = writeI64LE (-1) :=
  ⟨word_codecs_inverse.1 [9] [8] _ (by norm_num) (by norm_num),
    word_codecs_inverse.2.2.1 [9] [8] _ (by norm_num) (by norm_num),
    word_codecs_inverse.2.2.2.1 [9] [8] _ rfl, word_codecs_inverse.2.2.2.2 (-1)⟩

end Stoppage.Sdk

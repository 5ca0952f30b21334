import Mathlib.Tactic

/-! # Hexadecimal text

Two digits a byte, the high one first. Writing uses the lower-case digits; reading takes both cases
and stops at the first pair that is none.
-/

namespace Hex
set_option autoImplicit false

def digit (n : ℕ) : Char := Char.ofNat (if n < 10 then 48 + n else 87 + n)

def value (c : Char) : Option ℕ :=
  if '0' ≤ c ∧ c ≤ '9' then some (c.toNat - 48)
  else if 'a' ≤ c ∧ c ≤ 'f' then some (c.toNat - 87)
  else if 'A' ≤ c ∧ c ≤ 'F' then some (c.toNat - 55)
  else none

def encode : List UInt8 → List Char
  | [] => []
  | b :: bs => digit (b.toNat / 16) :: digit (b.toNat % 16) :: encode bs

def decode : List Char → List UInt8
  | a :: b :: rest =>
    match value a, value b with
    | some x, some y => UInt8.ofNat (16 * x + y) :: decode rest
    | _, _ => []
  | _ => []

theorem value_digit : ∀ n < 16, value (digit n) = some n := by decide

theorem decode_encode (bs : List UInt8) : decode (encode bs) = bs := by
  induction bs with
  | nil => rfl
  | cons b bs ih =>
    have hb := b.toNat_lt
    have hbyte : 16 * (b.toNat / 16) + b.toNat % 16 = b.toNat := Nat.div_add_mod _ _
    rw [encode, decode, value_digit _ (by omega), value_digit _ (Nat.mod_lt _ (by norm_num))]
    simp only [ih, hbyte, UInt8.ofNat_toNat]

end Hex

import Stoppage.Lib.Double

/-! # Integers as text

How a double that is an integer is written: all digits below `2 ^ 53`, from there on the shortest
digits that are read back as the same double, filled up with zeros below `10 ^ 21` and with an
exponent above. Small integers have different texts.
-/

namespace Decimal
set_option autoImplicit false

/-- The shortest multiples of `10 ^ e` around `n`, if one has `n` as its double. -/
def significand (n e : ℕ) : Option ℕ :=
  let down := n / 10 ^ e
  let isNumber := fun s => Double.ofNat (s * 10 ^ e) = n
  if isNumber down ∧ (¬ isNumber (down + 1) ∨ 2 * (n % 10 ^ e) ≤ 10 ^ e) then some down
  else if isNumber (down + 1) then some (down + 1) else none

/-- The significand with the largest exponent up to the given one. -/
def shortest (n : ℕ) : ℕ → ℕ × ℕ
  | 0 => (n, 0)
  | e + 1 => match significand n (e + 1) with
    | some s => (s, e + 1)
    | none => shortest n e

def digits (n : ℕ) : List Char := Nat.toDigits 10 n

/-- One digit, a point if there are more, and the exponent of the first. -/
def scientific (e : ℕ) : List Char → List Char
  | [] => []
  | [d] => d :: 'e' :: '+' :: digits e
  | d :: ds => d :: '.' :: (ds ++ 'e' :: '+' :: digits (e + ds.length))

def ofNat (n : ℕ) : List Char :=
  if n < 2 ^ 53 then digits n
  else
    let r := shortest n (digits n).length
    if n < 10 ^ 21 then digits r.1 ++ List.replicate r.2 '0' else scientific r.2 (digits r.1)

def ofInt (z : ℤ) : List Char := if z < 0 then '-' :: ofNat z.natAbs else ofNat z.natAbs

/-! ## The characters of a number -/

def NumberChar (c : Char) : Prop := c.isDigit = true ∨ c = '.' ∨ c = 'e' ∨ c = '+' ∨ c = '-'

theorem toNat_of_isDigit {c : Char} (h : c.isDigit = true) : 48 ≤ c.toNat ∧ c.toNat ≤ 57 := by
  rw [Char.isDigit, Bool.and_eq_true, decide_eq_true_eq, decide_eq_true_eq] at h
  exact ⟨UInt32.le_iff_toNat_le.mp h.1, UInt32.le_iff_toNat_le.mp h.2⟩

theorem NumberChar.ascii {c : Char} (h : NumberChar c) :
    c.toNat < 0x80 ∧ c ≠ ':' ∧ c ≠ Char.ofNat 0 := by
  rcases h with hdigit | rfl | rfl | rfl | rfl
  · have hrange := toNat_of_isDigit hdigit
    refine ⟨by omega, ?_, ?_⟩
    · rintro rfl
      exact absurd hrange (by decide)
    · rintro rfl
      exact absurd hrange (by decide)
  · decide
  · decide
  · decide
  · decide

theorem numberChar_of_mem_digits {n : ℕ} {c : Char} (h : c ∈ digits n) : NumberChar c :=
  .inl (Nat.isDigit_of_mem_toDigits (by norm_num) le_rfl h)

theorem digits_ne_nil (n : ℕ) : digits n ≠ [] := Nat.toDigits_ne_nil

theorem length_ofNat_le {n k : ℕ} (hk : 0 < k) (hk' : k ≤ 15) (h : n < 10 ^ k) :
    (ofNat n).length ≤ k := by
  have hpow : 10 ^ k ≤ 10 ^ 15 := Nat.pow_le_pow_right (by norm_num) hk'
  rw [ofNat, if_pos (by omega)]
  exact Nat.toDigits_length 10 n k hk h

theorem length_ofInt_le {z : ℤ} {k : ℕ} (hk : 0 < k) (hk' : k ≤ 15) (h : z.natAbs < 10 ^ k) :
    (ofInt z).length ≤ k + 1 := by
  have hdigits := length_ofNat_le hk hk' h
  rw [ofInt]
  split
  · rw [List.length_cons]
    omega
  · omega

theorem numberChar_of_mem_scientific {e : ℕ} {ds : List Char} (h : ∀ c ∈ ds, NumberChar c) :
    ∀ c ∈ scientific e ds, NumberChar c := by
  have hexponent : ∀ k, ∀ c ∈ 'e' :: '+' :: digits k, NumberChar c := by
    intro k c hc
    rcases List.mem_cons.mp hc with rfl | hc
    · exact .inr (.inr (.inl rfl))
    rcases List.mem_cons.mp hc with rfl | hc
    · exact .inr (.inr (.inr (.inl rfl)))
    · exact numberChar_of_mem_digits hc
  match ds with
  | [] => exact fun _ hc => absurd hc List.not_mem_nil
  | [d] =>
    rintro c hc
    rcases List.mem_cons.mp hc with rfl | hc
    · exact h c (List.mem_singleton_self c)
    · exact hexponent e c hc
  | d :: d' :: ds =>
    rintro c hc
    rcases List.mem_cons.mp hc with rfl | hc
    · exact h c List.mem_cons_self
    rcases List.mem_cons.mp hc with rfl | hc
    · exact .inr (.inl rfl)
    rcases List.mem_append.mp hc with hc | hc
    · exact h c (List.mem_cons_of_mem _ hc)
    · exact hexponent _ c hc

theorem scientific_ne_nil {e : ℕ} {ds : List Char} (h : ds ≠ []) : scientific e ds ≠ [] := by
  match ds with
  | [] => exact absurd rfl h
  | [d] => exact List.cons_ne_nil _ _
  | d :: d' :: ds => exact List.cons_ne_nil _ _

theorem numberChar_of_mem_ofNat {n : ℕ} : ∀ c ∈ ofNat n, NumberChar c := by
  have hzero : NumberChar '0' := .inl (by decide)
  intro c hc
  rw [ofNat] at hc
  split_ifs at hc
  · exact numberChar_of_mem_digits hc
  · rcases List.mem_append.mp hc with hc | hc
    · exact numberChar_of_mem_digits hc
    · rwa [List.eq_of_mem_replicate hc]
  · exact numberChar_of_mem_scientific (fun _ => numberChar_of_mem_digits) c hc

theorem ofNat_ne_nil (n : ℕ) : ofNat n ≠ [] := by
  rw [ofNat]
  split_ifs
  · exact digits_ne_nil n
  · exact List.append_ne_nil_of_left_ne_nil (digits_ne_nil _) _
  · exact scientific_ne_nil (digits_ne_nil _)

theorem numberChar_of_mem_ofInt {z : ℤ} : ∀ c ∈ ofInt z, NumberChar c := by
  intro c hc
  rw [ofInt] at hc
  split at hc
  · rcases List.mem_cons.mp hc with rfl | hc
    · exact .inr (.inr (.inr (.inr rfl)))
    · exact numberChar_of_mem_ofNat c hc
  · exact numberChar_of_mem_ofNat c hc

theorem ofInt_ne_nil (z : ℤ) : ofInt z ≠ [] := by
  rw [ofInt]
  split
  · exact List.cons_ne_nil _ _
  · exact ofNat_ne_nil _

/-! ## Different texts -/

theorem ofNat_injOn {m n : ℕ} (hm : m < 2 ^ 53) (hn : n < 2 ^ 53) (h : ofNat m = ofNat n) :
    m = n := by
  rw [ofNat, ofNat, if_pos hm, if_pos hn] at h
  rw [← Nat.ofDigitChars_ten_toDigits (n := m), ← Nat.ofDigitChars_ten_toDigits (n := n)]
  exact congrArg (Nat.ofDigitChars 10 · 0) h

theorem minus_notMem_ofNat {n : ℕ} (hn : n < 2 ^ 53) : '-' ∉ ofNat n := by
  rw [ofNat, if_pos hn]
  intro hmem
  have hdigit := Nat.isDigit_of_mem_toDigits (by norm_num) le_rfl hmem
  exact absurd hdigit (by decide)

/-- **Small integers are written differently.** -/
theorem ofInt_injOn {y z : ℤ} (hy : y.natAbs < 2 ^ 53) (hz : z.natAbs < 2 ^ 53)
    (h : ofInt y = ofInt z) : y = z := by
  rw [ofInt, ofInt] at h
  split_ifs at h with hyneg hzneg hzneg
  · have habs := ofNat_injOn hy hz (List.cons.inj h).2
    omega
  · exact absurd (h ▸ List.mem_cons_self) (minus_notMem_ofNat hz)
  · exact absurd (h ▸ List.mem_cons_self) (minus_notMem_ofNat hy)
  · have habs := ofNat_injOn hy hz h
    omega

end Decimal

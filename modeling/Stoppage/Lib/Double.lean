import Mathlib.Tactic

/-! # Integers as doubles

A double carries 53 significant bits. An integer below `2 ^ 53` is one, and any other is rounded to
the nearest, in the middle between two to the one with the even significand. The range of exponents
is not considered: all integers here are far below its end.
-/

namespace Double
set_option autoImplicit false

/-- The distance between the doubles around `n`, where it is not below one. -/
def ulp (n : ℕ) : ℕ := 2 ^ (n.log2 - 52)

/-- Whether the nearest multiple of `u` is the one below. -/
def RoundsDown (n u : ℕ) : Prop := 2 * (n % u) < u ∨ 2 * (n % u) = u ∧ n / u % 2 = 0

instance (n u : ℕ) : Decidable (RoundsDown n u) := inferInstanceAs (Decidable (_ ∨ _))

/-- The nearest double. -/
def ofNat (n : ℕ) : ℕ :=
  if RoundsDown n (ulp n) then n / ulp n * ulp n else (n / ulp n + 1) * ulp n

def ofInt (z : ℤ) : ℤ := if z < 0 then -(ofNat z.natAbs : ℤ) else ofNat z.natAbs

/-! ## Binades -/

theorem ulp_pos (n : ℕ) : 0 < ulp n := Nat.two_pow_pos _

theorem ulp_of_lt {n : ℕ} (h : n < 2 ^ 53) : ulp n = 1 := by
  rcases Nat.eq_zero_or_pos n with rfl | hpos
  · rfl
  · have hlog := (Nat.log2_lt hpos.ne').mpr h
    rw [ulp, Nat.sub_eq_zero_of_le (by omega), pow_zero]

/-- From `2 ^ 53` on, the numbers with the same leading bit are so many steps. -/
theorem pow_log2 {n : ℕ} (h : 2 ^ 53 ≤ n) : 2 ^ n.log2 = 2 ^ 52 * ulp n := by
  have hlog := (Nat.le_log2 (by omega)).mpr h
  rw [ulp, ← pow_add]
  congr 1
  omega

theorem ulp_eq {m n k : ℕ} (hlow : 2 ^ k ≤ m) (hhigh : m < 2 ^ (k + 1)) (hn : n.log2 = k) :
    ulp m = ulp n := by
  have hm : m.log2 = k := (Nat.log2_eq_iff (by have := Nat.two_pow_pos k; omega)).mpr ⟨hlow, hhigh⟩
  rw [ulp, ulp, hm, hn]

theorem div_bounds {n : ℕ} (h : 2 ^ 53 ≤ n) :
    2 ^ 52 ≤ n / ulp n ∧ n / ulp n < 2 ^ 53 := by
  have hself := Nat.log2_self_le (n := n) (by omega)
  have hlt := Nat.lt_log2_self (n := n)
  rw [pow_succ, pow_log2 h] at hlt
  rw [pow_log2 h] at hself
  constructor
  · exact (Nat.le_div_iff_mul_le (ulp_pos n)).mpr hself
  · rw [Nat.div_lt_iff_lt_mul (ulp_pos n)]
    calc n < 2 ^ 52 * ulp n * 2 := hlt
      _ = 2 ^ 53 * ulp n := by ring

/-- Between the same two multiples of the step, the step is the same. -/
theorem ulp_of_div {m n : ℕ} (h : 2 ^ 53 ≤ n) (hcell : m / ulp n = n / ulp n) : ulp m = ulp n := by
  obtain ⟨hlow, hhigh⟩ := div_bounds h
  rw [← hcell] at hlow hhigh
  refine ulp_eq (k := n.log2) ?_ ?_ rfl
  · rw [pow_log2 h]
    exact (Nat.le_div_iff_mul_le (ulp_pos n)).mp hlow
  · rw [pow_succ, pow_log2 h]
    calc m < 2 ^ 53 * ulp n := (Nat.div_lt_iff_lt_mul (ulp_pos n)).mp hhigh
      _ = 2 ^ 52 * ulp n * 2 := by ring

/-! ## Rounding -/

theorem ofNat_of_dvd {n : ℕ} (h : ulp n ∣ n) : ofNat n = n := by
  have hdown : RoundsDown n (ulp n) := by
    refine .inl ?_
    rw [Nat.mod_eq_zero_of_dvd h]
    exact ulp_pos n
  rw [ofNat, if_pos hdown, Nat.div_mul_cancel h]

/-- **Small integers are doubles.** -/
theorem ofNat_of_lt {n : ℕ} (h : n < 2 ^ 53) : ofNat n = n := by
  apply ofNat_of_dvd
  rw [ulp_of_lt h]
  exact one_dvd n

theorem le_ofNat {n : ℕ} (h : 2 ^ 53 ≤ n) : 2 ^ n.log2 ≤ ofNat n := by
  obtain ⟨hlow, -⟩ := div_bounds h
  rw [pow_log2 h, ofNat]
  split
  · exact Nat.mul_le_mul_right _ hlow
  · exact Nat.mul_le_mul_right _ (hlow.trans (Nat.le_succ _))

theorem pow_le_ofNat {n k : ℕ} (hk : 53 ≤ k) (h : 2 ^ k ≤ n) : 2 ^ k ≤ ofNat n := by
  have h53 : 2 ^ 53 ≤ n := (Nat.pow_le_pow_right (by norm_num) hk).trans h
  have hlog := (Nat.le_log2 (n := n) (by omega)).mpr h
  exact (Nat.pow_le_pow_right (by norm_num) hlog).trans (le_ofNat h53)

theorem ofNat_le {n : ℕ} (h : 2 ^ 53 ≤ n) : ofNat n ≤ 2 ^ (n.log2 + 1) := by
  obtain ⟨-, hhigh⟩ := div_bounds h
  have htop : 2 ^ (n.log2 + 1) = 2 ^ 53 * ulp n := by
    rw [pow_succ, pow_log2 h]
    ring
  rw [htop, ofNat]
  split
  · exact Nat.mul_le_mul_right _ hhigh.le
  · exact Nat.mul_le_mul_right _ hhigh

theorem ofNat_congr {m n : ℕ} (h : 2 ^ 53 ≤ n) (hcell : m / ulp n = n / ulp n)
    (hside : RoundsDown m (ulp n) ↔ RoundsDown n (ulp n)) : ofNat m = ofNat n := by
  rw [ofNat, ofNat, ulp_of_div h hcell, hcell]
  simp only [hside]

theorem lt_ofNat {k n : ℕ} (hk : k < 2 ^ 53) (h : k < n) : k < ofNat n := by
  by_cases hn : n < 2 ^ 53
  · rwa [ofNat_of_lt hn]
  · exact hk.trans_le (pow_le_ofNat le_rfl (Nat.le_of_not_lt hn))

/-- Rounding an integer of 64 bits cannot be seen modulo `2 ^ 64` unless it is exact. -/
theorem ofNat_modEq_iff {n : ℕ} (h : n < 2 ^ 64) :
    (ofNat n : ℤ) ≡ n [ZMOD 2 ^ 64] ↔ ofNat n = n := by
  constructor
  · intro hmod
    by_cases hsmall : n < 2 ^ 53
    · exact ofNat_of_lt hsmall
    · -- The double lies in the binade of `n` or is the end of it.
      have h53 := Nat.le_of_not_lt hsmall
      have hlow := le_ofNat h53
      have hhigh := ofNat_le h53
      have hself := Nat.log2_self_le (n := n) (by omega)
      have hlt := Nat.lt_log2_self (n := n)
      have hlog : 2 ^ n.log2 ≤ 2 ^ 63 :=
        Nat.pow_le_pow_right (by norm_num) (Nat.le_of_lt_succ ((Nat.log2_lt (by omega)).mpr h))
      rw [pow_succ] at hhigh hlt
      have hdvd := Int.modEq_iff_dvd.mp hmod
      omega
  · intro hexact
    rw [hexact]

/-! ## Signed integers -/

theorem ofInt_of_natAbs_lt {z : ℤ} (h : z.natAbs < 2 ^ 53) : ofInt z = z := by
  rw [ofInt, ofNat_of_lt h]
  split <;> omega

/-- The sign stays, and what lies outside a range of small integers stays outside. -/
theorem lt_ofInt {k z : ℤ} (hnonneg : 0 ≤ k) (hk : k < 2 ^ 53) (h : k < z) : k < ofInt z := by
  have hround := lt_ofNat (k := k.toNat) (n := z.natAbs) (by omega) (by omega)
  rw [ofInt, if_neg (by omega)]
  omega

theorem ofInt_lt {k z : ℤ} (hnonneg : 0 ≤ k) (hk : k < 2 ^ 53) (h : z < -k) : ofInt z < -k := by
  have hround := lt_ofNat (k := k.toNat) (n := z.natAbs) (by omega) (by omega)
  rw [ofInt, if_pos (by omega)]
  omega

/-! ## Which integers a double determines -/

section Cell
variable {n : ℕ} (h : 2 ^ 53 ≤ n)
include h

theorem top_eq : 2 ^ (n.log2 + 1) = 2 ^ 53 * ulp n := by
  rw [pow_succ, pow_log2 h]
  ring

theorem cell_lt {r : ℕ} (hr : r < ulp n) : n / ulp n * ulp n + r < 2 ^ (n.log2 + 1) := by
  obtain ⟨-, hhigh⟩ := div_bounds h
  rw [top_eq h]
  calc n / ulp n * ulp n + r < n / ulp n * ulp n + ulp n := Nat.add_lt_add_left hr _
    _ = (n / ulp n + 1) * ulp n := (Nat.succ_mul _ _).symm
    _ ≤ 2 ^ 53 * ulp n := Nat.mul_le_mul_right _ hhigh

theorem ofNat_cell {r : ℕ} (hr : r < ulp n)
    (hside : (2 * r < ulp n ∨ 2 * r = ulp n ∧ n / ulp n % 2 = 0) ↔ RoundsDown n (ulp n)) :
    ofNat (n / ulp n * ulp n + r) = ofNat n := by
  have hdiv : (n / ulp n * ulp n + r) / ulp n = n / ulp n := by
    rw [Nat.mul_comm, Nat.mul_add_div (ulp_pos n), Nat.div_eq_of_lt hr, Nat.add_zero]
  have hmod : (n / ulp n * ulp n + r) % ulp n = r := by
    rw [Nat.mul_comm, Nat.mul_add_mod, Nat.mod_eq_of_lt hr]
  refine ofNat_congr h hdiv ?_
  rw [RoundsDown, hdiv, hmod]
  exact hside

theorem next_multiple (heven : n / ulp n % 2 = 0) :
    (n / ulp n + 1) * ulp n < 2 ^ (n.log2 + 1) ∧
      ofNat ((n / ulp n + 1) * ulp n) = (n / ulp n + 1) * ulp n := by
  obtain ⟨hlow, hhigh⟩ := div_bounds h
  have hlt : (n / ulp n + 1) * ulp n < 2 ^ (n.log2 + 1) := by
    rw [top_eq h]
    exact Nat.mul_lt_mul_of_pos_right (by omega) (ulp_pos n)
  refine ⟨hlt, ofNat_of_dvd ?_⟩
  rw [ulp_eq (k := n.log2) ?_ hlt rfl]
  · exact Nat.dvd_mul_left _ _
  · rw [pow_log2 h]
    exact Nat.mul_le_mul_right _ (by omega)

end Cell

/-- In a step of at least four, some other integer has the same nearest double. -/
theorem exists_same {n : ℕ} (h : 2 ^ 54 ≤ n) :
    ∃ m, m ≠ n ∧ m < 2 ^ (n.log2 + 1) ∧ ofNat m = ofNat n := by
  have h53 : 2 ^ 53 ≤ n := by omega
  have hstep : 4 ≤ ulp n := by
    have hlog := (Nat.le_log2 (n := n) (by omega)).mpr h
    rw [ulp]
    exact Nat.pow_le_pow_right (n := 2) (i := 2) (by norm_num) (by omega)
  have hn : n / ulp n * ulp n + n % ulp n = n := Nat.div_add_mod' n (ulp n)
  have hrest := Nat.mod_lt n (ulp_pos n)
  have hside : RoundsDown n (ulp n) ↔
      2 * (n % ulp n) < ulp n ∨ 2 * (n % ulp n) = ulp n ∧ n / ulp n % 2 = 0 := Iff.rfl
  by_cases hdown : RoundsDown n (ulp n)
  · by_cases hzero : n % ulp n = 0
    · -- `n` is a double; the next integer is rounded down to it.
      refine ⟨n / ulp n * ulp n + 1, by omega, cell_lt h53 (by omega), ofNat_cell h53 (by omega) ?_⟩
      exact iff_of_true (.inl (by omega)) hdown
    · refine ⟨n / ulp n * ulp n + 0, by omega, cell_lt h53 (by omega), ofNat_cell h53 (by omega) ?_⟩
      exact iff_of_true (.inl (by omega)) hdown
  · by_cases heven : n / ulp n % 2 = 0
    · obtain ⟨hlt, hnext⟩ := next_multiple h53 heven
      refine ⟨(n / ulp n + 1) * ulp n, ?_, hlt, ?_⟩
      · rw [Nat.succ_mul]
        omega
      · rw [hnext, ofNat, if_neg hdown]
    · by_cases hlast : n % ulp n + 1 < ulp n
      · refine ⟨n / ulp n * ulp n + (n % ulp n + 1), by omega, cell_lt h53 hlast,
          ofNat_cell h53 hlast ?_⟩
        have hup := hside.not.mp hdown
        exact iff_of_false (by omega) hdown
      · refine ⟨n / ulp n * ulp n + (n % ulp n - 1), by omega, cell_lt h53 (by omega),
          ofNat_cell h53 (by omega) ?_⟩
        exact iff_of_false (by omega) hdown

/-- Between `2 ^ 53` and `2 ^ 54` the even integers are doubles, and the odd ones are rounded to
the multiples of four. -/
theorem ofNat_of_lt_pow54 {n : ℕ} (hlow : 2 ^ 53 ≤ n) (hhigh : n < 2 ^ 54) :
    ofNat n = if n % 2 = 0 then n else if n % 4 = 1 then n - 1 else n + 1 := by
  have hlog : n.log2 = 53 := (Nat.log2_eq_iff (by omega)).mpr ⟨hlow, hhigh⟩
  have hulp : ulp n = 2 := by
    rw [ulp, hlog]
    rfl
  rw [ofNat, hulp]
  have hside : RoundsDown n 2 ↔ 2 * (n % 2) < 2 ∨ 2 * (n % 2) = 2 ∧ n / 2 % 2 = 0 := Iff.rfl
  split
  · rename_i hdown
    have hcase := hside.mp hdown
    split_ifs <;> omega
  · rename_i hup
    have hcase := hside.not.mp hup
    split_ifs <;> omega

/-- **The integers that their nearest double determines** among those of 64 bits. -/
theorem determines_iff {n : ℕ} (hn : n < 2 ^ 64) :
    (∀ m < 2 ^ 64, ofNat m = ofNat n → m = n) ↔
      n < 2 ^ 53 ∨ 2 ^ 53 < n ∧ n < 2 ^ 54 ∧ n % 4 = 2 := by
  constructor
  · intro hall
    by_contra hnot
    by_cases hlarge : 2 ^ 54 ≤ n
    · obtain ⟨m, hne, hlt, hsame⟩ := exists_same hlarge
      have hlog := (Nat.log2_lt (n := n) (by omega)).mpr hn
      exact hne (hall m (hlt.trans_le (Nat.pow_le_pow_right (by norm_num) hlog)) hsame)
    · have hmid := ofNat_of_lt_pow54 (n := n) (by omega) (by omega)
      -- A multiple of four shares its double with the next integer, an odd one with its neighbour.
      by_cases hodd : n % 2 = 1
      · by_cases hone : n % 4 = 1
        · have hbelow := ofNat_of_lt_pow54 (n := n - 1) (by omega) (by omega)
          have hsame := hall (n - 1) (by omega) (by rw [hbelow, hmid]; split_ifs <;> omega)
          omega
        · have habove : ofNat (n + 1) = n + 1 := by
            by_cases hlast : n + 1 = 2 ^ 54
            · rw [hlast]
              decide +kernel
            · rw [ofNat_of_lt_pow54 (by omega) (by omega)]
              split_ifs <;> omega
          have hsame := hall (n + 1) (by omega) (by rw [habove, hmid]; split_ifs <;> omega)
          omega
      · have hnext := ofNat_of_lt_pow54 (n := n + 1) (by omega) (by omega)
        have hsame := hall (n + 1) (by omega) (by rw [hnext, hmid]; split_ifs <;> omega)
        omega
  · rintro (hsmall | ⟨hlow, hhigh, hrest⟩) m hm hsame
    · rw [ofNat_of_lt hsmall] at hsame
      by_cases hm : m < 2 ^ 53
      · rwa [ofNat_of_lt hm] at hsame
      · have hle := pow_le_ofNat le_rfl (Nat.le_of_not_lt hm)
        omega
    · have hmid := ofNat_of_lt_pow54 hlow.le hhigh
      rw [if_pos (by omega)] at hmid
      by_cases hsmall : m < 2 ^ 53
      · rw [ofNat_of_lt hsmall, hmid] at hsame
        exact hsame
      · by_cases hlarge : m < 2 ^ 54
        · rw [ofNat_of_lt_pow54 (by omega) hlarge, hmid] at hsame
          split_ifs at hsame <;> omega
        · have hle := pow_le_ofNat (k := 54) (by norm_num) (Nat.le_of_not_lt hlarge)
          omega

/-! ## Fractions -/

/-- The exponent of the leading bit. -/
def exponent (q : ℚ) : ℤ :=
  let e := (q.num.natAbs.log2 : ℤ) - q.den.log2
  if (2 : ℚ) ^ e ≤ |q| then e else e - 1

/-- The nearest integer, in the middle between two the even one. -/
def roundEven (q : ℚ) : ℤ :=
  let n := ⌊q⌋
  if q - n < 1 / 2 then n else if 1 / 2 < q - n then n + 1 else if n % 2 = 0 then n else n + 1

def ofRat (q : ℚ) : ℚ :=
  let step := (2 : ℚ) ^ (exponent q - 52)
  roundEven (q / step) * step

end Double

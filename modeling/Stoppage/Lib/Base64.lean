import Mathlib.Tactic

/-! # Base64 text

Three bytes are four digits, and padding fills up the last group. Reading accepts both alphabets,
passes over every other character and stops at the first padding, so that of several padded texts
in a row only the first is read.
-/

namespace Base64
set_option autoImplicit false

def digit (n : ℕ) : Char :=
  if n < 26 then Char.ofNat (65 + n)
  else if n < 52 then Char.ofNat (71 + n)
  else if n < 62 then Char.ofNat (n - 4)
  else if n = 62 then '+' else '/'

/-- The standard alphabet and the one for URLs. -/
def value (c : Char) : Option ℕ :=
  if 'A' ≤ c ∧ c ≤ 'Z' then some (c.toNat - 65)
  else if 'a' ≤ c ∧ c ≤ 'z' then some (c.toNat - 71)
  else if '0' ≤ c ∧ c ≤ '9' then some (c.toNat + 4)
  else if c = '+' ∨ c = '-' then some 62
  else if c = '/' ∨ c = '_' then some 63
  else none

def encode : List UInt8 → List Char
  | [] => []
  | [a] => [digit (a.toNat / 4), digit (a.toNat % 4 * 16), '=', '=']
  | [a, b] =>
    [digit (a.toNat / 4), digit (a.toNat % 4 * 16 + b.toNat / 16), digit (b.toNat % 16 * 4), '=']
  | a :: b :: c :: bs =>
    digit (a.toNat / 4) :: digit (a.toNat % 4 * 16 + b.toNat / 16) ::
      digit (b.toNat % 16 * 4 + c.toNat / 64) :: digit (c.toNat % 64) :: encode bs

/-- The bytes of the digits; a group that is not full leaves out the bits beyond its last byte. -/
def unpack : List ℕ → List UInt8
  | w :: x :: y :: z :: ns =>
    UInt8.ofNat (w * 4 + x / 16) :: UInt8.ofNat (x % 16 * 16 + y / 4) ::
      UInt8.ofNat (y % 4 * 64 + z) :: unpack ns
  | [w, x, y] => [UInt8.ofNat (w * 4 + x / 16), UInt8.ofNat (x % 16 * 16 + y / 4)]
  | [w, x] => [UInt8.ofNat (w * 4 + x / 16)]
  | _ => []

/-- The digits before the first padding. -/
def digits : List Char → List ℕ
  | [] => []
  | c :: s =>
    if c = '=' then []
    else
      match value c with
      | some n => n :: digits s
      | none => digits s

def decode (s : List Char) : List UInt8 := unpack (digits s)

/-! ## What is read of a text -/

/-- The characters that matter for reading. -/
def Significant (c : Char) : Bool := c = '=' || (value c).isSome

theorem decode_filter (s : List Char) : decode (s.filter Significant) = decode s := by
  have hdigits : digits (s.filter Significant) = digits s := by
    induction s with
    | nil => rfl
    | cons c s ih =>
      by_cases hpad : c = '='
      · subst hpad
        rfl
      · cases hc : value c with
        | none => simp [Significant, digits, hpad, hc, ih]
        | some n => simp [Significant, digits, hpad, hc, ih]
  rw [decode, hdigits, decode]

theorem filter_dropWhile {p : Char → Bool} (hp : ∀ c, p c = true → Significant c = false)
    (s : List Char) : (s.dropWhile p).filter Significant = s.filter Significant := by
  induction s with
  | nil => rfl
  | cons c s ih =>
    cases hc : p c with
    | true => rw [List.dropWhile_cons_of_pos hc, ih, List.filter_cons_of_neg (by rw [hp c hc]; simp)]
    | false => rw [List.dropWhile_cons_of_neg (by rw [hc]; simp)]

/-! ## Reading what was written -/

theorem value_digit : ∀ n < 64, value (digit n) = some n := by decide

theorem digit_ne_pad : ∀ n < 64, digit n ≠ '=' := by decide

theorem digits_cons {n : ℕ} (h : n < 64) (s : List Char) :
    digits (digit n :: s) = n :: digits s := by
  rw [digits, if_neg (digit_ne_pad n h), value_digit n h]

theorem digits_pad (s : List Char) : digits ('=' :: s) = [] := rfl

theorem ofNat_of_eq {b : UInt8} {n : ℕ} (h : n = b.toNat) : UInt8.ofNat n = b := by
  rw [h, UInt8.ofNat_toNat]

/-- Behind a text of whole groups reading goes on, behind any other it stops. -/
theorem decode_encode_append (bs : List UInt8) (s : List Char) :
    decode (encode bs ++ s) = if bs.length % 3 = 0 then bs ++ decode s else bs := by
  induction bs using encode.induct with
  | case1 => rfl
  | case2 a =>
    have ha := a.toNat_lt
    have hfirst : UInt8.ofNat (a.toNat / 4 * 4 + a.toNat % 4 * 16 / 16) = a :=
      ofNat_of_eq (by omega)
    have hlength : ¬ [a].length % 3 = 0 := Nat.one_ne_zero
    rw [if_neg hlength]
    simp only [decode, encode, List.cons_append, digits_cons (show a.toNat / 4 < 64 by omega),
      digits_cons (show a.toNat % 4 * 16 < 64 by omega), digits_pad, unpack, hfirst]
  | case3 a b =>
    have ha := a.toNat_lt
    have hb := b.toNat_lt
    have hfirst : UInt8.ofNat (a.toNat / 4 * 4 + (a.toNat % 4 * 16 + b.toNat / 16) / 16) = a :=
      ofNat_of_eq (by omega)
    have hsecond : UInt8.ofNat ((a.toNat % 4 * 16 + b.toNat / 16) % 16 * 16 +
        b.toNat % 16 * 4 / 4) = b := ofNat_of_eq (by omega)
    have hlength : ¬ [a, b].length % 3 = 0 := two_ne_zero
    rw [if_neg hlength]
    simp only [decode, encode, List.cons_append, digits_cons (show a.toNat / 4 < 64 by omega),
      digits_cons (show a.toNat % 4 * 16 + b.toNat / 16 < 64 by omega),
      digits_cons (show b.toNat % 16 * 4 < 64 by omega), digits_pad, unpack, hfirst, hsecond]
  | case4 a b c bs ih =>
    have ha := a.toNat_lt
    have hb := b.toNat_lt
    have hc := c.toNat_lt
    have hfirst : UInt8.ofNat (a.toNat / 4 * 4 + (a.toNat % 4 * 16 + b.toNat / 16) / 16) = a :=
      ofNat_of_eq (by omega)
    have hsecond : UInt8.ofNat ((a.toNat % 4 * 16 + b.toNat / 16) % 16 * 16 +
        (b.toNat % 16 * 4 + c.toNat / 64) / 4) = b := ofNat_of_eq (by omega)
    have hthird : UInt8.ofNat ((b.toNat % 16 * 4 + c.toNat / 64) % 4 * 64 + c.toNat % 64) = c :=
      ofNat_of_eq (by omega)
    have hlength : (a :: b :: c :: bs).length % 3 = bs.length % 3 := by
      simp only [List.length_cons]
      omega
    rw [hlength]
    simp only [decode] at ih
    simp only [decode, encode, List.cons_append, digits_cons (show a.toNat / 4 < 64 by omega),
      digits_cons (show a.toNat % 4 * 16 + b.toNat / 16 < 64 by omega),
      digits_cons (show b.toNat % 16 * 4 + c.toNat / 64 < 64 by omega),
      digits_cons (show c.toNat % 64 < 64 by omega), unpack, hfirst, hsecond, hthird, ih]
    split <;> rfl

/-- What is read of several texts in a row. -/
def joined : List (List UInt8) → List UInt8
  | [] => []
  | bs :: bss => if bs.length % 3 = 0 then bs ++ joined bss else bs

theorem joined_singleton (bs : List UInt8) : joined [bs] = bs := by
  rw [joined, joined, List.append_nil, ite_self]

theorem decode_flatten (bss : List (List UInt8)) :
    decode (bss.map encode).flatten = joined bss := by
  induction bss with
  | nil => rfl
  | cons bs bss ih => rw [List.map_cons, List.flatten_cons, decode_encode_append, ih, joined]

theorem significant_digit : ∀ n < 64, Significant (digit n) = true := by decide

theorem significant_encode (bs : List UInt8) : (encode bs).filter Significant = encode bs := by
  have hpad : Significant '=' = true := rfl
  induction bs using encode.induct with
  | case1 => rfl
  | case2 a =>
    have ha := a.toNat_lt
    simp only [encode, List.filter_cons, List.filter_nil, hpad,
      significant_digit _ (show a.toNat / 4 < 64 by omega),
      significant_digit _ (show a.toNat % 4 * 16 < 64 by omega), if_true]
  | case3 a b =>
    have ha := a.toNat_lt
    have hb := b.toNat_lt
    simp only [encode, List.filter_cons, List.filter_nil, hpad,
      significant_digit _ (show a.toNat / 4 < 64 by omega),
      significant_digit _ (show a.toNat % 4 * 16 + b.toNat / 16 < 64 by omega),
      significant_digit _ (show b.toNat % 16 * 4 < 64 by omega), if_true]
  | case4 a b c bs ih =>
    have ha := a.toNat_lt
    have hb := b.toNat_lt
    have hc := c.toNat_lt
    simp only [encode, List.filter_cons, ih,
      significant_digit _ (show a.toNat / 4 < 64 by omega),
      significant_digit _ (show a.toNat % 4 * 16 + b.toNat / 16 < 64 by omega),
      significant_digit _ (show b.toNat % 16 * 4 + c.toNat / 64 < 64 by omega),
      significant_digit _ (show c.toNat % 64 < 64 by omega), if_true]

/-- Spaces between the texts change nothing. -/
theorem decode_intercalate (bss : List (List UInt8)) :
    decode ([' '].intercalate (bss.map encode)) = joined bss := by
  have hflat : ([' '].intercalate (bss.map encode)).filter Significant =
      (bss.map encode).flatten := by
    induction bss with
    | nil => rfl
    | cons bs bss ih =>
      cases bss with
      | nil => simp [List.intercalate, significant_encode]
      | cons bs' bss =>
        rw [List.map_cons, List.map_cons, List.intercalate_cons_cons, ← List.map_cons]
        have hnone : [' '].filter Significant = [] := rfl
        rw [List.filter_append, List.filter_append, significant_encode, hnone, ih,
          List.flatten_cons, List.append_nil]
  rw [← decode_filter, hflat, decode_flatten]

end Base64

import Stoppage.Lib.Double
import Mathlib.Data.List.DropRight

/-! # Numbers read from text

The conversion of a string of code units to a double: white space around the number is skipped,
nothing at all is zero, and what is no number is not a number. A decimal has digits with a point and
an exponent; integers can also be given in base 2, 8 and 16.
-/

namespace NumberText
set_option autoImplicit false

inductive JsNumber
  | finite (x : ℚ)
  | infinite (negative : Bool)
  | nan
deriving DecidableEq

/-- What is neither zero nor missing. -/
def JsNumber.truthy : JsNumber → Bool
  | .finite x => decide (x ≠ 0)
  | .infinite _ => true
  | .nan => false

def isDigit (u : UInt16) : Bool := decide (48 ≤ u.toNat ∧ u.toNat ≤ 57)

/-- White space and the ends of lines. -/
def isSpace (u : UInt16) : Bool :=
  let n := u.toNat
  (9 ≤ n && n ≤ 13) || n == 0x20 || n == 0xA0 || n == 0x1680 || (0x2000 ≤ n && n ≤ 0x200A) ||
    n == 0x2028 || n == 0x2029 || n == 0x202F || n == 0x205F || n == 0x3000 || n == 0xFEFF

def trim (s : List UInt16) : List UInt16 := (s.dropWhile isSpace).rdropWhile isSpace

/-- The value of a digit or a letter. -/
def digitValue (u : UInt16) : ℕ :=
  let n := u.toNat
  if n ≤ 57 then n - 48 else if 97 ≤ n then n - 87 else n - 55

/-- The digits of a base up to 16. -/
def isDigitOf (base : ℕ) (u : UInt16) : Bool :=
  let n := u.toNat
  decide (48 ≤ n ∧ n ≤ 57 ∨ 65 ≤ n ∧ n ≤ 70 ∨ 97 ≤ n ∧ n ≤ 102) && decide (digitValue u < base)

/-- A non-empty sequence of digits. -/
def natural (base : ℕ) (s : List UInt16) : Option ℕ :=
  if s ≠ [] ∧ s.all (isDigitOf base) then
    some (s.foldl (fun n u => n * base + digitValue u) 0)
  else none

/-- A sequence of digits with a sign, which may be missing. -/
def integer (s : List UInt16) : Option ℤ :=
  match s with
  | 43 :: ds => (natural 10 ds).map fun n => (n : ℤ)
  | 45 :: ds => (natural 10 ds).map fun n => -(n : ℤ)
  | ds => (natural 10 ds).map fun n => (n : ℤ)

def isExponentMark (u : UInt16) : Bool := decide (u = 69 ∨ u = 101)

/-- Digits with a point among them, and an exponent. -/
def decimal (s : List UInt16) : Option ℚ := do
  let mantissa := s.takeWhile fun u => !isExponentMark u
  let exponent ← match s.dropWhile fun u => !isExponentMark u with
    | [] => some 0
    | _ :: e => integer e
  let whole := mantissa.takeWhile (· ≠ 46)
  let fraction := (mantissa.dropWhile (· ≠ 46)).drop 1
  let n ← natural 10 (whole ++ fraction)
  some (n * (10 : ℚ) ^ (exponent - fraction.length))

def signedDecimal (s : List UInt16) : Option ℚ :=
  match s with
  | 43 :: us => decimal us
  | 45 :: us => (decimal us).map (- ·)
  | us => decimal us

/-- The number that is written, before it is rounded. -/
def literal (s : List UInt16) : Option ℚ :=
  match s with
  | [] => some 0
  | 48 :: u :: ds =>
    if u = 120 ∨ u = 88 then (natural 16 ds).map fun n => (n : ℚ)
    else if u = 111 ∨ u = 79 then (natural 8 ds).map fun n => (n : ℚ)
    else if u = 98 ∨ u = 66 then (natural 2 ds).map fun n => (n : ℚ)
    else signedDecimal s
  | _ => signedDecimal s

/-- The nearest double, if it is finite. -/
def toDouble (q : ℚ) : Option ℚ :=
  let x := if |q| < 1 / 2 ^ 1022 then (Double.roundEven (q * 2 ^ 1074) : ℚ) / 2 ^ 1074
    else Double.ofRat q
  if |x| < 2 ^ 1024 then some x else none

/-- The finite number that a string stands for. -/
def number (s : List UInt16) : Option ℚ := (literal (trim s)).bind toDouble

/-- A text with nothing in it. -/
def Blank (s : List UInt16) : Prop := trim s = []

instance (s : List UInt16) : Decidable (Blank s) := inferInstanceAs (Decidable (_ = _))

theorem toDouble_zero : toDouble 0 = some 0 := by
  have hsmall : |(0 : ℚ)| < 1 / 2 ^ 1022 := by
    rw [abs_zero]
    positivity
  have hround : Double.roundEven (0 * 2 ^ 1074) = 0 := by
    rw [zero_mul]
    decide +kernel
  have hrange : |(0 : ℚ)| < 2 ^ 1024 := by
    rw [abs_zero]
    positivity
  rw [toDouble, if_pos hsmall, hround, Int.cast_zero, zero_div]
  exact if_pos hrange

/-- Nothing counts as zero. -/
theorem number_of_blank {s : List UInt16} (h : Blank s) : number s = some 0 := by
  rw [number, h, literal, Option.bind_some, toDouble_zero]

end NumberText

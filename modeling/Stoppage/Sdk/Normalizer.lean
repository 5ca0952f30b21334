import Stoppage.Lib.Utf16
import Stoppage.Lib.Decimal
import Mathlib.Data.List.DropRight

/-! # `packages/txline`: the id of a match

`matchIdFromFixture` of `normalizer.ts`, on names of any code units. What `toUpperCase` makes of a
string is left open.
-/

namespace Stoppage.Normalizer
set_option autoImplicit false

/-- `\s`, which is also what `trim` takes off. -/
def isSpace (u : UInt16) : Bool :=
  let n := u.toNat
  (9 ≤ n && n ≤ 13) || n == 0x20 || n == 0xA0 || n == 0x1680 || (0x2000 ≤ n && n ≤ 0x200A) ||
    n == 0x2028 || n == 0x2029 || n == 0x202F || n == 0x205F || n == 0x3000 || n == 0xFEFF

def trim (s : List UInt16) : List UInt16 := (s.dropWhile isSpace).rdropWhile isSpace

/-- `s.split(/\s+/)` for a string with no space at its ends. -/
def splitOnSpaces (s : List UInt16) : List (List UInt16) := (s.splitOnP isSpace).filter (· ≠ [])

def code (toUpperCase : List UInt16 → List UInt16) (name : Option (List UInt16)) : List UInt16 :=
  let trimmed := trim (name.getD [])
  if trimmed = [] then Utf16.ofString "UNK"
  else
    let last := (splitOnSpaces trimmed).getLast?.getD []
    if 3 ≤ last.length then toUpperCase (last.take 3) else toUpperCase last

structure Fixture where
  fixtureId : ℕ
  participant1 : Option (List UInt16)
  participant2 : Option (List UInt16)

def matchIdFromFixture (toUpperCase : List UInt16 → List UInt16) (fixture : Fixture) :
    List UInt16 :=
  code toUpperCase fixture.participant1 ++ (Utf16.ofString "-" ++ (code toUpperCase fixture.participant2 ++
    (Utf16.ofString "-" ++ Utf16.ofChars (Decimal.ofNat fixture.fixtureId))))

/-! ## Which ids are ASCII -/

theorem ascii_number (n : ℕ) : Utf16.Ascii (Utf16.ofChars (Decimal.ofNat n)) :=
  Utf16.ascii_ofChars fun _ hc => (Decimal.numberChar_of_mem_ofNat _ hc).ascii.1

theorem ascii_matchId_iff (toUpperCase : List UInt16 → List UInt16) (fixture : Fixture) :
    Utf16.Ascii (matchIdFromFixture toUpperCase fixture) ↔
      Utf16.Ascii (code toUpperCase fixture.participant1) ∧
        Utf16.Ascii (code toUpperCase fixture.participant2) := by
  have hdash : Utf16.Ascii (Utf16.ofString "-") := by decide
  have hnumber := ascii_number fixture.fixtureId
  simp only [matchIdFromFixture, Utf16.ascii_append]
  tauto

/-- An id ends with a character of a number. -/
theorem exists_getLast_matchId (toUpperCase : List UInt16 → List UInt16) (fixture : Fixture) :
    ∃ u, (matchIdFromFixture toUpperCase fixture).getLast? = some u ∧ 0 < u.toNat ∧
      u.toNat < 0x80 := by
  obtain ⟨cs, c, hcs⟩ := List.eq_nil_or_concat' (Decimal.ofNat fixture.fixtureId) |>.resolve_left
    (Decimal.ofNat_ne_nil _)
  have hchar : Decimal.NumberChar c := by
    apply Decimal.numberChar_of_mem_ofNat (n := fixture.fixtureId)
    rw [hcs]
    exact List.mem_append_right _ (List.mem_singleton_self c)
  obtain ⟨hascii, -, hnul⟩ := hchar.ascii
  have hunits : Utf16.units c = [UInt16.ofNat c.toNat] := if_pos (by omega)
  refine ⟨UInt16.ofNat c.toNat, ?_, ?_, ?_⟩
  · simp only [matchIdFromFixture, hcs, Utf16.ofChars_append, ← List.append_assoc]
    show (_ ++ (Utf16.units c ++ [])).getLast? = _
    rw [List.append_nil, hunits, List.getLast?_concat]
  · rw [Utf16.toNat_ofNat (by omega)]
    by_contra hzero
    refine hnul ?_
    rw [← Char.ofNat_toNat c]
    congr 1
    omega
  · rwa [Utf16.toNat_ofNat (by omega)]

end Stoppage.Normalizer

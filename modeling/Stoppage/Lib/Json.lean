import Stoppage.Lib.Utf16
import Stoppage.Lib.Hex
import Stoppage.Lib.Delimited

/-! # JSON text

Values are numbers, strings and objects; a string is any list of code units. What is written for a
string can be read back, so a value is determined by its text as soon as numbers are: the text of a
number is a parameter, of which only the alphabet matters.
-/

namespace Json
open Delimited
set_option autoImplicit false

/-! ## Strings -/

def unit (c : Char) : UInt16 := UInt16.ofNat c.toNat

def hexUnit (n : ℕ) : UInt16 := unit (Hex.digit n)

/-- `\u` and four digits. -/
def escapeHex (u : UInt16) : List UInt16 :=
  [unit '\\', unit 'u', hexUnit (u.toNat / 4096), hexUnit (u.toNat / 256 % 16),
    hexUnit (u.toNat / 16 % 16), hexUnit (u.toNat % 16)]

/-- The units that are escaped by one character, and that character. -/
def short (u : UInt16) : Option UInt16 :=
  if u = unit '"' ∨ u = unit '\\' then some u
  else if u = 0x08 then some (unit 'b')
  else if u = 0x09 then some (unit 't')
  else if u = 0x0A then some (unit 'n')
  else if u = 0x0C then some (unit 'f')
  else if u = 0x0D then some (unit 'r')
  else none

def escapeUnit (u : UInt16) : List UInt16 :=
  match short u with
  | some e => [unit '\\', e]
  | none => if u.toNat < 0x20 ∨ Utf16.isHigh u ∨ Utf16.isLow u then escapeHex u else [u]

/-- Two halves of a pair stay as they are. -/
def escape : List UInt16 → List UInt16
  | [] => []
  | [u] => escapeUnit u
  | u :: v :: us =>
    if Utf16.isHigh u ∧ Utf16.isLow v then u :: v :: escape us
    else escapeUnit u ++ escape (v :: us)

def quote (s : List UInt16) : List UInt16 := unit '"' :: (escape s ++ [unit '"'])

/-! ## Reading a string back -/

def long (e : UInt16) : UInt16 :=
  if e = unit 'b' then 0x08 else if e = unit 't' then 0x09 else if e = unit 'n' then 0x0A
  else if e = unit 'f' then 0x0C else if e = unit 'r' then 0x0D else e

def hexValue (u : UInt16) : ℕ := (Hex.value (Char.ofNat u.toNat)).getD 0

def push (u : UInt16) (r : List UInt16 × List UInt16) : List UInt16 × List UInt16 :=
  (u :: r.1, r.2)

/-- What the next unit is: a character, the one behind a backslash, or a digit after `\u`. -/
inductive Mode
  | plain
  | slash
  | hex (missing value : ℕ)

/-- The units up to the closing quotation mark, and what is behind it. -/
def unescape : Mode → List UInt16 → List UInt16 × List UInt16
  | _, [] => ([], [])
  | .plain, u :: us =>
    if u = unit '"' then ([], us)
    else if u = unit '\\' then unescape .slash us
    else push u (unescape .plain us)
  | .slash, u :: us =>
    if u = unit 'u' then unescape (.hex 3 0) us else push (long u) (unescape .plain us)
  | .hex missing value, u :: us =>
    if missing = 0 then push (UInt16.ofNat (16 * value + hexValue u)) (unescape .plain us)
    else unescape (.hex (missing - 1) (16 * value + hexValue u)) us

theorem hexValue_hexUnit : ∀ n < 16, hexValue (hexUnit n) = n := by decide

theorem unescape_quote (rest : List UInt16) :
    unescape .plain (unit '"' :: rest) = ([], rest) := if_pos rfl

theorem unescape_slash (rest : List UInt16) :
    unescape .plain (unit '\\' :: rest) = unescape .slash rest := by
  rw [unescape, if_neg (by decide), if_pos rfl]

theorem unescape_raw {u : UInt16} (hquote : u ≠ unit '"') (hslash : u ≠ unit '\\')
    (rest : List UInt16) : unescape .plain (u :: rest) = push u (unescape .plain rest) := by
  rw [unescape, if_neg hquote, if_neg hslash]

theorem unescape_digit {missing n : ℕ} (hn : n < 16) (value : ℕ) (rest : List UInt16) :
    unescape (.hex (missing + 1) value) (hexUnit n :: rest) =
      unescape (.hex missing (16 * value + n)) rest := by
  rw [unescape, if_neg (Nat.succ_ne_zero missing), hexValue_hexUnit n hn, Nat.add_sub_cancel]

theorem unescape_hex (u : UInt16) (rest : List UInt16) :
    unescape .plain (escapeHex u ++ rest) = push u (unescape .plain rest) := by
  have hu := u.toNat_lt
  have hvalue : 16 * (16 * (16 * (16 * 0 + u.toNat / 4096) + u.toNat / 256 % 16) +
      u.toNat / 16 % 16) + u.toNat % 16 = u.toNat := by
    omega
  show unescape .plain (unit '\\' :: unit 'u' :: hexUnit (u.toNat / 4096) ::
    hexUnit (u.toNat / 256 % 16) :: hexUnit (u.toNat / 16 % 16) :: hexUnit (u.toNat % 16) :: rest) = _
  rw [unescape_slash, unescape, if_pos rfl, unescape_digit (by omega), unescape_digit (by omega),
    unescape_digit (by omega), unescape, if_pos rfl, hexValue_hexUnit _ (by omega), hvalue,
    UInt16.ofNat_toNat]

theorem short_eq_some {u e : UInt16} (h : short u = some e) : e ≠ unit 'u' ∧ long e = u := by
  rw [short] at h
  split_ifs at h with h1 h2 h3 h4 h5 h6
  · obtain rfl := Option.some.inj h
    rcases h1 with rfl | rfl <;> decide
  · obtain rfl := Option.some.inj h
    rw [h2]
    decide
  · obtain rfl := Option.some.inj h
    rw [h3]
    decide
  · obtain rfl := Option.some.inj h
    rw [h4]
    decide
  · obtain rfl := Option.some.inj h
    rw [h5]
    decide
  · obtain rfl := Option.some.inj h
    rw [h6]
    decide

theorem short_eq_none {u : UInt16} (h : short u = none) : u ≠ unit '"' ∧ u ≠ unit '\\' := by
  rw [short] at h
  split at h
  · cases h
  · rename_i hnot
    exact not_or.mp hnot

theorem unescape_unit (u : UInt16) (rest : List UInt16) :
    unescape .plain (escapeUnit u ++ rest) = push u (unescape .plain rest) := by
  rw [escapeUnit]
  cases hshort : short u with
  | some e =>
    obtain ⟨he, hlong⟩ := short_eq_some hshort
    show unescape .plain (unit '\\' :: e :: rest) = _
    rw [unescape_slash, unescape, if_neg he, hlong]
  | none =>
    obtain ⟨hquote, hslash⟩ := short_eq_none hshort
    dsimp only
    split
    · exact unescape_hex u rest
    · exact unescape_raw hquote hslash rest

/-- Neither half of a pair is a character that ends a string or escapes. -/
theorem surrogate_raw {u : UInt16} (h : 0xD800 ≤ u.toNat) : u ≠ unit '"' ∧ u ≠ unit '\\' := by
  constructor
  · rintro rfl
    exact absurd h (by decide)
  · rintro rfl
    exact absurd h (by decide)

/-- **What is written for a string is read back.** -/
theorem unescape_escape (s : List UInt16) (rest : List UInt16) :
    unescape .plain (escape s ++ unit '"' :: rest) = (s, rest) := by
  induction s using escape.induct with
  | case1 => exact unescape_quote rest
  | case2 u =>
    rw [escape, unescape_unit, unescape_quote]
    rfl
  | case3 u v us hpair ih =>
    obtain ⟨huq, hus⟩ := surrogate_raw hpair.1.1
    obtain ⟨hvq, hvs⟩ := surrogate_raw (u := v) (Nat.le_of_lt (lt_of_lt_of_le (by norm_num) hpair.2.1))
    rw [escape, if_pos hpair, List.cons_append, List.cons_append, unescape_raw huq hus,
      unescape_raw hvq hvs, ih]
    rfl
  | case4 u v us hpair ih =>
    rw [escape, if_neg hpair, List.append_assoc, unescape_unit, ih]
    rfl

theorem quote_append_inj {s s' rest rest' : List UInt16} (h : quote s ++ rest = quote s' ++ rest') :
    s = s' ∧ rest = rest' := by
  rw [quote, quote, List.cons_append, List.cons_append, List.append_assoc, List.append_assoc] at h
  have hread := congrArg (unescape .plain) (List.cons.inj h).2
  rw [List.singleton_append, List.singleton_append, unescape_escape, unescape_escape] at hread
  exact Prod.mk.inj hread

/-! ## Escaped text is well formed -/

theorem wellFormed_escapeUnit (u : UInt16) : Utf16.WellFormed (escapeUnit u) := by
  have hhex : ∀ n < 16, (hexUnit n).toNat < 0x80 := by decide
  have hshort : ∀ e, short u = some e → e.toNat < 0x80 := by
    intro e h
    rw [short] at h
    split_ifs at h with h1
    · obtain rfl := Option.some.inj h
      rcases h1 with rfl | rfl <;> decide
    all_goals
      obtain rfl := Option.some.inj h
      decide
  rw [escapeUnit]
  cases hu : short u with
  | some e =>
    refine Utf16.Ascii.wellFormed ?_
    intro x hx
    rcases List.mem_cons.mp hx with rfl | hx
    · decide
    · rw [List.mem_singleton.mp hx]
      exact hshort e hu
  | none =>
    dsimp only
    split
    · have hbound := u.toNat_lt
      refine Utf16.Ascii.wellFormed ?_
      simp only [escapeHex, Utf16.Ascii, List.forall_mem_cons]
      exact ⟨by decide, by decide, hhex _ (by omega), hhex _ (by omega), hhex _ (by omega),
        hhex _ (by omega), fun _ h => absurd h List.not_mem_nil⟩
    · rename_i hraw
      exact Utf16.wellFormed_single fun h => hraw (.inr h)

theorem wellFormed_quote (s : List UInt16) : Utf16.WellFormed (quote s) := by
  have hmark : Utf16.WellFormed [unit '"'] := Utf16.wellFormed_single (by decide)
  have hescape : Utf16.WellFormed (escape s) := by
    induction s using escape.induct with
    | case1 => rfl
    | case2 u => exact wellFormed_escapeUnit u
    | case3 u v us hpair ih =>
      rw [escape, if_pos hpair]
      exact (Utf16.wellFormed_pair hpair.1 hpair.2).append ih
    | case4 u v us hpair ih =>
      rw [escape, if_neg hpair]
      exact (wellFormed_escapeUnit u).append ih
  exact hmark.append (hescape.append hmark)

/-! ## Values -/

mutual
inductive Value (N : Type)
  | number (x : N)
  | string (s : List UInt16)
  | object (members : Members N)

/-- The members of an object, in the order of their insertion. -/
inductive Members (N : Type)
  | nil
  | cons (key : List UInt16) (value : Value N) (rest : Members N)
end

/-- `object[key]` -/
def Members.get {N : Type} (key : List UInt16) : Members N → Option (Value N)
  | .nil => none
  | .cons k v rest => if k = key then some v else rest.get key

section Text
variable {N : Type} (numberText : N → List UInt16)

mutual
def stringify : Value N → List UInt16
  | .number x => numberText x
  | .string s => quote s
  | .object .nil => [unit '{', unit '}']
  | .object (.cons key value rest) =>
    unit '{' :: (quote key ++ unit ':' :: (stringify value ++ stringifyRest rest))

/-- The members after the first. -/
def stringifyRest : Members N → List UInt16
  | .nil => [unit '}']
  | .cons key value rest =>
    unit ',' :: (quote key ++ unit ':' :: (stringify value ++ stringifyRest rest))
end

/-- The units that numbers are written with. -/
def NumberUnit (u : UInt16) : Prop :=
  0x30 ≤ u.toNat ∧ u.toNat ≤ 0x39 ∨ u = unit '-' ∨ u = unit '+' ∨ u = unit '.' ∨ u = unit 'e'

instance (u : UInt16) : Decidable (NumberUnit u) := inferInstanceAs (Decidable (_ ∨ _))

/-- Different numbers have different texts, none of which is empty. -/
structure Numerals : Prop where
  injective : Function.Injective numberText
  nonempty : ∀ x, numberText x ≠ []
  alphabet : ∀ x, ∀ u ∈ numberText x, NumberUnit u

variable {numberText}

theorem outside_rest (ms : Members N) (rest : List UInt16) :
    Outside NumberUnit (stringifyRest numberText ms ++ rest) := by
  cases ms with
  | nil => exact outside_cons (by decide)
  | cons => exact outside_cons (by decide)

theorem head_number (hn : Numerals numberText) (x : N) {u : UInt16} {us rest : List UInt16}
    (h : numberText x ++ rest = u :: us) : NumberUnit u := by
  cases htext : numberText x with
  | nil => exact absurd htext (hn.nonempty x)
  | cons v vs =>
    rw [htext] at h
    obtain ⟨rfl, -⟩ := List.cons.inj h
    apply hn.alphabet x
    rw [htext]
    exact List.mem_cons_self

/-- One member and what follows it, given that its value and the rest are determined. -/
theorem member_inj {key key' : List UInt16} {v v' : Value N} {ms ms' : Members N}
    {rest rest' : List UInt16}
    (hvalue : ∀ {r r' : List UInt16}, Outside NumberUnit r → Outside NumberUnit r' →
      stringify numberText v ++ r = stringify numberText v' ++ r' → v = v' ∧ r = r')
    (hmembers : stringifyRest numberText ms ++ rest = stringifyRest numberText ms' ++ rest' →
      ms = ms' ∧ rest = rest')
    (h : quote key ++ unit ':' :: (stringify numberText v ++ stringifyRest numberText ms) ++ rest =
      quote key' ++ unit ':' :: (stringify numberText v' ++ stringifyRest numberText ms') ++ rest') :
    key = key' ∧ v = v' ∧ ms = ms' ∧ rest = rest' := by
  rw [List.append_assoc, List.append_assoc] at h
  obtain ⟨hkey, hbehind⟩ := quote_append_inj h
  rw [List.cons_append, List.cons_append, List.append_assoc, List.append_assoc] at hbehind
  obtain ⟨hv, hafter⟩ := hvalue (outside_rest ms rest) (outside_rest ms' rest')
    (List.cons.inj hbehind).2
  obtain ⟨hms, hrest⟩ := hmembers hafter
  exact ⟨hkey, hv, hms, hrest⟩

mutual
/-- **A value is determined by its text**, whatever follows it that is no part of a number. -/
theorem stringify_inj (hn : Numerals numberText) : ∀ (v v' : Value N) {rest rest' : List UInt16},
    Outside NumberUnit rest → Outside NumberUnit rest' →
    stringify numberText v ++ rest = stringify numberText v' ++ rest' → v = v' ∧ rest = rest'
  | .number x, .number y, rest, rest', hrest, hrest', h => by
    rw [stringify, stringify] at h
    obtain ⟨htext, hsame⟩ := append_inj (hn.alphabet x) (hn.alphabet y) hrest hrest' h
    exact ⟨congrArg Value.number (hn.injective htext), hsame⟩
  | .number x, .string s, rest, rest', _, _, h => by
    rw [stringify] at h
    exact absurd (head_number hn x h) (by decide)
  | .number x, .object .nil, rest, rest', _, _, h => by
    rw [stringify] at h
    exact absurd (head_number hn x h) (by decide)
  | .number x, .object (.cons _ _ _), rest, rest', _, _, h => by
    rw [stringify] at h
    exact absurd (head_number hn x h) (by decide)
  | .string s, .number x, rest, rest', _, _, h => by
    rw [stringify, stringify] at h
    exact absurd (head_number hn x h.symm) (by decide)
  | .string s, .string s', rest, rest', _, _, h => by
    rw [stringify, stringify] at h
    obtain ⟨hs, hsame⟩ := quote_append_inj h
    exact ⟨congrArg Value.string hs, hsame⟩
  | .string s, .object .nil, rest, rest', _, _, h => by
    rw [stringify, stringify] at h
    exact absurd (List.cons.inj h).1 (by decide)
  | .string s, .object (.cons _ _ _), rest, rest', _, _, h => by
    rw [stringify, stringify] at h
    exact absurd (List.cons.inj h).1 (by decide)
  | .object .nil, .number x, rest, rest', _, _, h => by
    rw [stringify, stringify] at h
    exact absurd (head_number hn x h.symm) (by decide)
  | .object .nil, .string s, rest, rest', _, _, h => by
    rw [stringify, stringify] at h
    exact absurd (List.cons.inj h).1 (by decide)
  | .object .nil, .object .nil, rest, rest', _, _, h => by
    rw [stringify] at h
    exact ⟨rfl, List.append_cancel_left h⟩
  | .object .nil, .object (.cons _ _ _), rest, rest', _, _, h => by
    rw [stringify, stringify] at h
    exact absurd (List.cons.inj (List.cons.inj h).2).1 (by decide)
  | .object (.cons _ _ _), .number x, rest, rest', _, _, h => by
    rw [stringify, stringify] at h
    exact absurd (head_number hn x h.symm) (by decide)
  | .object (.cons _ _ _), .string s, rest, rest', _, _, h => by
    rw [stringify, stringify] at h
    exact absurd (List.cons.inj h).1 (by decide)
  | .object (.cons _ _ _), .object .nil, rest, rest', _, _, h => by
    rw [stringify, stringify] at h
    exact absurd (List.cons.inj (List.cons.inj h).2).1 (by decide)
  | .object (.cons key v ms), .object (.cons key' v' ms'), rest, rest', _, _, h => by
    rw [stringify, stringify] at h
    obtain ⟨rfl, rfl, rfl, hsame⟩ := member_inj (stringify_inj hn v v') (stringifyRest_inj hn ms ms')
      (List.cons.inj h).2
    exact ⟨rfl, hsame⟩

theorem stringifyRest_inj (hn : Numerals numberText) : ∀ (ms ms' : Members N)
    {rest rest' : List UInt16},
    stringifyRest numberText ms ++ rest = stringifyRest numberText ms' ++ rest' →
      ms = ms' ∧ rest = rest'
  | .nil, .nil, rest, rest', h => ⟨rfl, List.append_cancel_left h⟩
  | .nil, .cons _ _ _, rest, rest', h => by
    rw [stringifyRest, stringifyRest] at h
    exact absurd (List.cons.inj h).1 (by decide)
  | .cons _ _ _, .nil, rest, rest', h => by
    rw [stringifyRest, stringifyRest] at h
    exact absurd (List.cons.inj h).1 (by decide)
  | .cons key v ms, .cons key' v' ms', rest, rest', h => by
    rw [stringifyRest, stringifyRest] at h
    obtain ⟨rfl, rfl, rfl, hsame⟩ := member_inj (stringify_inj hn v v') (stringifyRest_inj hn ms ms')
      (List.cons.inj h).2
    exact ⟨rfl, hsame⟩
end

theorem stringify_injective (hn : Numerals numberText) :
    Function.Injective (stringify numberText) := by
  intro v v' h
  have hempty : Outside NumberUnit [] := fun u hu => absurd hu (Option.not_mem_none u)
  refine (stringify_inj hn v v' hempty hempty ?_).1
  rw [h]

/-! ## Values have well-formed text -/

theorem NumberUnit.ascii {u : UInt16} (h : NumberUnit u) : u.toNat < 0x80 := by
  rcases h with ⟨-, hle⟩ | rfl | rfl | rfl | rfl
  · omega
  all_goals decide

theorem wellFormed_member {mark : UInt16} (hmark : ¬ (Utf16.isHigh mark ∨ Utf16.isLow mark))
    (key : List UInt16) {text rest : List UInt16} (htext : Utf16.WellFormed text)
    (hrest : Utf16.WellFormed rest) :
    Utf16.WellFormed (mark :: (quote key ++ unit ':' :: (text ++ rest))) := by
  have hcolon : Utf16.WellFormed [unit ':'] := Utf16.wellFormed_single (by decide)
  have hvalue : Utf16.WellFormed (unit ':' :: (text ++ rest)) := hcolon.append (htext.append hrest)
  exact (Utf16.wellFormed_single hmark).append ((wellFormed_quote key).append hvalue)

mutual
theorem wellFormed_stringify (hn : Numerals numberText) :
    ∀ v : Value N, Utf16.WellFormed (stringify numberText v)
  | .number x => by
    rw [stringify]
    exact Utf16.Ascii.wellFormed fun u hu => (hn.alphabet x u hu).ascii
  | .string s => by
    rw [stringify]
    exact wellFormed_quote s
  | .object .nil => by
    rw [stringify]
    exact Utf16.Ascii.wellFormed (by decide)
  | .object (.cons key v ms) => by
    rw [stringify]
    exact wellFormed_member (by decide) key (wellFormed_stringify hn v)
      (wellFormed_stringifyRest hn ms)

theorem wellFormed_stringifyRest (hn : Numerals numberText) :
    ∀ ms : Members N, Utf16.WellFormed (stringifyRest numberText ms)
  | .nil => by
    rw [stringifyRest]
    exact Utf16.wellFormed_single (by decide)
  | .cons key v ms => by
    rw [stringifyRest]
    exact wellFormed_member (by decide) key (wellFormed_stringify hn v)
      (wellFormed_stringifyRest hn ms)
end

end Text

end Json

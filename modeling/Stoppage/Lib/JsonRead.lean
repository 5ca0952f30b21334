import Stoppage.Lib.Json

/-! # Reading JSON text

The grammar of numbers, strings and objects, and of documents that hold arrays and words as well,
with white space between tokens. What is read of a token of a number is a parameter, as its text is.
Reading what was written gives it back; written text has no control characters, so it stays on one
line.
-/

namespace Json
open Delimited
set_option autoImplicit false

/-! ## Tokens -/

def isSpace (u : UInt16) : Bool := u = 0x20 || u = 0x09 || u = 0x0A || u = 0x0D

def skip (text : List UInt16) : List UInt16 := text.dropWhile isSpace

/-- The characters of a number, in which the exponent may be large as well. -/
def inNumber (u : UInt16) : Bool := decide (NumberUnit u) || u = unit 'E'

/-- The string is closed, and nothing in it is a control character or escaped in a wrong way. -/
def closed : Mode → List UInt16 → Bool
  | _, [] => false
  | .plain, u :: us =>
    if u = unit '"' then true
    else if u = unit '\\' then closed .slash us
    else decide (0x20 ≤ u.toNat) && closed .plain us
  | .slash, u :: us =>
    if u = unit 'u' then closed (.hex 3 0) us
    else decide (u ∈ ['"', '\\', '/', 'b', 'f', 'n', 'r', 't'].map unit) && closed .plain us
  | .hex missing value, u :: us =>
    (Hex.value (Char.ofNat u.toNat)).isSome &&
      (if missing = 0 then closed .plain us else closed (.hex (missing - 1) value) us)

/-- A string from behind its first quotation mark on, and what follows it. -/
def readString (text : List UInt16) : Option (List UInt16 × List UInt16) :=
  if closed .plain text then some (unescape .plain text) else none

/-- What follows the mark. -/
def expect (mark : Char) (text : List UInt16) : Option (List UInt16) :=
  match skip text with
  | u :: us => if u = unit mark then some us else none
  | [] => none

/-- A key with its colon. -/
def readKey (text : List UInt16) : Option (List UInt16 × List UInt16) := do
  let text ← expect '"' text
  let (key, text) ← readString text
  let text ← expect ':' text
  pure (key, text)

/-! ## Values -/

section Read
variable {N : Type} (number : List UInt16 → Option N)

mutual
def readValue : ℕ → List UInt16 → Option (Value N × List UInt16)
  | 0, _ => none
  | fuel + 1, text =>
    match skip text with
    | [] => none
    | u :: us =>
      if u = unit '"' then (readString us).map fun r => (.string r.1, r.2)
      else if u = unit '{' then
        match expect '}' us with
        | some rest => some (.object .nil, rest)
        | none => do
          let (key, us) ← readKey us
          let (value, us) ← readValue fuel us
          let (members, us) ← readRest fuel us
          pure (.object (.cons key value members), us)
      else (number ((u :: us).takeWhile inNumber)).map fun x =>
        (.number x, (u :: us).dropWhile inNumber)

/-- The members after the first, with the closing brace. -/
def readRest : ℕ → List UInt16 → Option (Members N × List UInt16)
  | 0, _ => none
  | fuel + 1, text =>
    match skip text with
    | [] => none
    | u :: us =>
      if u = unit '}' then some (.nil, us)
      else if u = unit ',' then do
        let (key, us) ← readKey us
        let (value, us) ← readValue fuel us
        let (members, us) ← readRest fuel us
        pure (.cons key value members, us)
      else none
end

/-- `JSON.parse(text)`; every call of the reader takes a character, so the fuel is enough. -/
def parse (text : List UInt16) : Option (Value N) :=
  match readValue number (text.length + 1) text with
  | some (value, rest) => if skip rest = [] then some value else none
  | none => none

end Read

/-! ## Documents

Every kind of value, which is only read. -/

inductive Document (N : Type)
  | null
  | boolean (b : Bool)
  | number (x : N)
  | string (s : List UInt16)
  | array (items : List (Document N))
  | object (members : List (List UInt16 × Document N))

/-- What follows a word. -/
def expectWord (word : List Char) (text : List UInt16) : Option (List UInt16) :=
  if (word.map unit).isPrefixOf text then some (text.drop word.length) else none

section Documents
variable {N : Type} (number : List UInt16 → Option N)

mutual
def readDocument : ℕ → List UInt16 → Option (Document N × List UInt16)
  | 0, _ => none
  | fuel + 1, text =>
    match skip text with
    | [] => none
    | u :: us =>
      if u = unit '"' then (readString us).map fun r => (.string r.1, r.2)
      else if u = unit '{' then
        match expect '}' us with
        | some rest => some (.object [], rest)
        | none => do
          let (key, us) ← readKey us
          let (value, us) ← readDocument fuel us
          let (members, us) ← readMembers fuel us
          pure (.object ((key, value) :: members), us)
      else if u = unit '[' then
        match expect ']' us with
        | some rest => some (.array [], rest)
        | none => do
          let (item, us) ← readDocument fuel us
          let (items, us) ← readItems fuel us
          pure (.array (item :: items), us)
      else if u = unit 'n' then (expectWord ['u', 'l', 'l'] us).map fun rest => (.null, rest)
      else if u = unit 't' then
        (expectWord ['r', 'u', 'e'] us).map fun rest => (.boolean true, rest)
      else if u = unit 'f' then
        (expectWord ['a', 'l', 's', 'e'] us).map fun rest => (.boolean false, rest)
      else (number ((u :: us).takeWhile inNumber)).map fun x =>
        (.number x, (u :: us).dropWhile inNumber)

/-- The members after the first, with the closing brace. -/
def readMembers : ℕ → List UInt16 → Option (List (List UInt16 × Document N) × List UInt16)
  | 0, _ => none
  | fuel + 1, text =>
    match skip text with
    | [] => none
    | u :: us =>
      if u = unit '}' then some ([], us)
      else if u = unit ',' then do
        let (key, us) ← readKey us
        let (value, us) ← readDocument fuel us
        let (members, us) ← readMembers fuel us
        pure ((key, value) :: members, us)
      else none

/-- The items after the first, with the closing bracket. -/
def readItems : ℕ → List UInt16 → Option (List (Document N) × List UInt16)
  | 0, _ => none
  | fuel + 1, text =>
    match skip text with
    | [] => none
    | u :: us =>
      if u = unit ']' then some ([], us)
      else if u = unit ',' then do
        let (item, us) ← readDocument fuel us
        let (items, us) ← readItems fuel us
        pure (item :: items, us)
      else none
end

/-- `JSON.parse(text)` of any text; every call takes a character here as well. -/
def parseDocument (text : List UInt16) : Option (Document N) :=
  match readDocument number (text.length + 1) text with
  | some (document, rest) => if skip rest = [] then some document else none
  | none => none

theorem parseDocument_nil : parseDocument number [] = none := rfl

end Documents

/-! ## Strings that were written are closed -/

theorem closed_slash (rest : List UInt16) :
    closed .plain (unit '\\' :: rest) = closed .slash rest := by
  rw [closed, if_neg (by decide), if_pos rfl]

theorem closed_raw {u : UInt16} (hquote : u ≠ unit '"') (hslash : u ≠ unit '\\')
    (hprintable : 0x20 ≤ u.toNat) (rest : List UInt16) :
    closed .plain (u :: rest) = closed .plain rest := by
  rw [closed, if_neg hquote, if_neg hslash, decide_eq_true hprintable, Bool.true_and]

theorem isSome_hexUnit : ∀ n < 16, (Hex.value (Char.ofNat (hexUnit n).toNat)).isSome = true := by
  decide

theorem closed_digit {missing n value : ℕ} (hn : n < 16) (rest : List UInt16) :
    closed (.hex (missing + 1) value) (hexUnit n :: rest) = closed (.hex missing value) rest := by
  rw [closed, isSome_hexUnit n hn, Bool.true_and, if_neg (Nat.succ_ne_zero missing),
    Nat.add_sub_cancel]

theorem closed_hex (u : UInt16) (rest : List UInt16) :
    closed .plain (escapeHex u ++ rest) = closed .plain rest := by
  have hu := u.toNat_lt
  show closed .plain (unit '\\' :: unit 'u' :: hexUnit (u.toNat / 4096) ::
    hexUnit (u.toNat / 256 % 16) :: hexUnit (u.toNat / 16 % 16) :: hexUnit (u.toNat % 16) :: rest) = _
  rw [closed_slash, closed, if_pos rfl, closed_digit (by omega), closed_digit (by omega),
    closed_digit (by omega), closed, isSome_hexUnit _ (by omega), Bool.true_and, if_pos rfl]

theorem short_mem {u e : UInt16} (h : short u = some e) :
    e ∈ ['"', '\\', '/', 'b', 'f', 'n', 'r', 't'].map unit := by
  rw [short] at h
  split_ifs at h with h1
  · obtain rfl := Option.some.inj h
    rcases h1 with rfl | rfl <;> decide
  all_goals
    obtain rfl := Option.some.inj h
    decide

theorem closed_unit (u : UInt16) (rest : List UInt16) :
    closed .plain (escapeUnit u ++ rest) = closed .plain rest := by
  rw [escapeUnit]
  cases hshort : short u with
  | some e =>
    show closed .plain (unit '\\' :: e :: rest) = _
    rw [closed_slash, closed, if_neg (short_eq_some hshort).1, decide_eq_true (short_mem hshort),
      Bool.true_and]
  | none =>
    obtain ⟨hquote, hslash⟩ := short_eq_none hshort
    dsimp only
    split
    · exact closed_hex u rest
    · rename_i hraw
      exact closed_raw hquote hslash (not_lt.mp (not_or.mp hraw).1) rest

theorem closed_escape (s : List UInt16) (rest : List UInt16) :
    closed .plain (escape s ++ unit '"' :: rest) = true := by
  have hquote : closed .plain (unit '"' :: rest) = true := if_pos rfl
  induction s using escape.induct with
  | case1 => exact hquote
  | case2 u => rw [escape, closed_unit, hquote]
  | case3 u v us hpair ih =>
    obtain ⟨huq, hus⟩ := surrogate_raw hpair.1.1
    have hlow : 0xD800 ≤ v.toNat := Nat.le_of_lt (lt_of_lt_of_le (by norm_num) hpair.2.1)
    obtain ⟨hvq, hvs⟩ := surrogate_raw hlow
    rw [escape, if_pos hpair, List.cons_append, List.cons_append,
      closed_raw huq hus (le_trans (by norm_num) hpair.1.1),
      closed_raw hvq hvs (le_trans (by norm_num) hlow), ih]
  | case4 u v us hpair ih =>
    rw [escape, if_neg hpair, List.append_assoc, closed_unit, ih]

theorem readString_quote (s rest : List UInt16) :
    readString (escape s ++ unit '"' :: rest) = some (s, rest) := by
  rw [readString, if_pos (closed_escape s rest), unescape_escape]

/-! ## Values that were written are read back -/

theorem skip_cons {u : UInt16} (h : isSpace u = false) (us : List UInt16) :
    skip (u :: us) = u :: us := by
  rw [skip, List.dropWhile_cons_of_neg (by rw [h]; exact Bool.false_ne_true)]

theorem expect_cons {mark : Char} (h : isSpace (unit mark) = false) (us : List UInt16) :
    expect mark (unit mark :: us) = some us := by
  rw [expect, skip_cons h]
  exact if_pos rfl

theorem readKey_quote (key rest : List UInt16) :
    readKey (quote key ++ unit ':' :: rest) = some (key, rest) := by
  have hquote : quote key ++ unit ':' :: rest =
      unit '"' :: (escape key ++ unit '"' :: (unit ':' :: rest)) := by
    rw [quote, List.cons_append, List.append_assoc, List.singleton_append]
  rw [readKey, hquote, expect_cons (by decide)]
  simp only [Option.bind_eq_bind, Option.bind_some, readString_quote]
  rw [expect_cons (by decide)]
  rfl

section Roundtrip
variable {N : Type} {numberText : N → List UInt16} {number : List UInt16 → Option N}

theorem inNumber_of_numberUnit {u : UInt16} (h : NumberUnit u) : inNumber u = true := by
  rw [inNumber, decide_eq_true h, Bool.true_or]

theorem isSpace_of_inNumber {u : UInt16} (h : inNumber u = true) : isSpace u = false := by
  rw [inNumber, Bool.or_eq_true, decide_eq_true_iff, decide_eq_true_iff] at h
  rcases h with (⟨hlow, hhigh⟩ | rfl | rfl | rfl | rfl) | rfl
  · have hne {v : UInt16} (hv : v.toNat < 0x30) : u ≠ v := by
      rintro rfl
      omega
    rw [isSpace, decide_eq_false (hne (by decide)), decide_eq_false (hne (by decide)),
      decide_eq_false (hne (by decide)), decide_eq_false (hne (by decide))]
    rfl
  all_goals decide

/-- What may stand behind a value. -/
def Ends (rest : List UInt16) : Prop := Outside (fun u => inNumber u = true) rest

theorem ends_stringifyRest (ms : Members N) (rest : List UInt16) :
    Ends (stringifyRest numberText ms ++ rest) := by
  cases ms with
  | nil => exact outside_cons (by decide)
  | cons => exact outside_cons (by decide)

theorem takeWhile_number {xs rest : List UInt16} (hxs : ∀ u ∈ xs, inNumber u = true)
    (hrest : Ends rest) : (xs ++ rest).takeWhile inNumber = xs ∧
      (xs ++ rest).dropWhile inNumber = rest := by
  have hnone : rest.takeWhile inNumber = [] ∧ rest.dropWhile inNumber = rest := by
    cases rest with
    | nil => exact ⟨rfl, rfl⟩
    | cons u us =>
      have hu : ¬ inNumber u = true := hrest u rfl
      exact ⟨List.takeWhile_cons_of_neg hu, List.dropWhile_cons_of_neg hu⟩
  rw [List.takeWhile_append_of_pos hxs, List.dropWhile_append_of_pos hxs, hnone.1, hnone.2,
    List.append_nil]
  exact ⟨rfl, rfl⟩

theorem length_number_pos (hn : Numerals numberText) (x : N) : 0 < (numberText x).length :=
  List.length_pos_iff.mpr (hn.nonempty x)

theorem readValue_number (hn : Numerals numberText) {x : N} (hread : number (numberText x) = some x)
    {rest : List UInt16} (hrest : Ends rest) (fuel : ℕ) :
    readValue number (fuel + 1) (numberText x ++ rest) = some (.number x, rest) := by
  have halphabet : ∀ u ∈ numberText x, inNumber u = true :=
    fun u hu => inNumber_of_numberUnit (hn.alphabet x u hu)
  obtain ⟨htake, hdrop⟩ := takeWhile_number halphabet hrest
  cases htext : numberText x with
  | nil => exact absurd htext (hn.nonempty x)
  | cons u us =>
    have hu : inNumber u = true := halphabet u (htext ▸ List.mem_cons_self)
    have hquote : u ≠ unit '"' := by
      rintro rfl
      exact absurd hu (by decide)
    have hbrace : u ≠ unit '{' := by
      rintro rfl
      exact absurd hu (by decide)
    rw [htext, List.cons_append] at htake hdrop
    rw [readValue, List.cons_append, skip_cons (isSpace_of_inNumber hu)]
    simp only [if_neg hquote, if_neg hbrace]
    rw [htake, hdrop, ← htext, hread]
    rfl

theorem readValue_quote (s rest : List UInt16) (fuel : ℕ) :
    readValue number (fuel + 1) (quote s ++ rest) = some (.string s, rest) := by
  rw [quote, List.cons_append, List.append_assoc, List.singleton_append, readValue,
    skip_cons (by decide)]
  simp only [if_true]
  rw [readString_quote]
  rfl

section Member
variable {key text tail rest : List UInt16} {v : Value N} {ms : Members N} {fuel : ℕ}

/-- The first member with its brace, when what stands behind its colon is read. -/
theorem readValue_member (hvalue : readValue number fuel (text ++ (tail ++ rest)) =
      some (v, tail ++ rest)) (hmembers : readRest number fuel (tail ++ rest) = some (ms, rest)) :
    readValue number (fuel + 1) (unit '{' :: (quote key ++ unit ':' :: (text ++ tail)) ++ rest) =
      some (.object (.cons key v ms), rest) := by
  have hbrace : expect '}' (quote key ++ unit ':' :: (text ++ (tail ++ rest))) = none := by
    rw [quote, List.cons_append, expect, skip_cons (by decide)]
    exact if_neg (by decide)
  rw [List.cons_append, List.append_assoc, List.cons_append, List.append_assoc, readValue,
    skip_cons (by decide)]
  simp only [if_neg (show unit '{' ≠ unit '"' by decide), if_true]
  rw [hbrace]
  simp only [readKey_quote, Option.bind_eq_bind, Option.bind_some, hvalue, hmembers]
  rfl

theorem readRest_member (hvalue : readValue number fuel (text ++ (tail ++ rest)) =
      some (v, tail ++ rest)) (hmembers : readRest number fuel (tail ++ rest) = some (ms, rest)) :
    readRest number (fuel + 1) (unit ',' :: (quote key ++ unit ':' :: (text ++ tail)) ++ rest) =
      some (.cons key v ms, rest) := by
  rw [List.cons_append, List.append_assoc, List.cons_append, List.append_assoc, readRest,
    skip_cons (by decide)]
  simp only [if_neg (show unit ',' ≠ unit '}' by decide), if_true, readKey_quote,
    Option.bind_eq_bind, Option.bind_some, hvalue, hmembers]
  rfl

/-- The texts of a member leave a unit of fuel for its brace or its comma. -/
theorem exists_fuel {mark : UInt16}
    (h : (mark :: (quote key ++ unit ':' :: (text ++ tail))).length ≤ fuel) :
    ∃ n, fuel = n + 1 ∧ text.length ≤ n ∧ tail.length ≤ n := by
  rw [List.length_cons, List.length_append, List.length_cons, List.length_append] at h
  exact ⟨fuel - 1, by omega, by omega, by omega⟩

end Member

mutual
/-- **A value is read back**, whatever follows it that is no part of a number. -/
theorem readValue_stringify (hn : Numerals numberText)
    (hread : ∀ x, number (numberText x) = some x) : ∀ (v : Value N) {fuel : ℕ} {rest : List UInt16},
    (stringify numberText v).length ≤ fuel → Ends rest →
      readValue number fuel (stringify numberText v ++ rest) = some (v, rest)
  | .number x, fuel, rest, hfuel, hrest => by
    rw [stringify] at hfuel ⊢
    obtain ⟨n, rfl⟩ := Nat.exists_eq_add_of_lt (lt_of_lt_of_le (length_number_pos hn x) hfuel)
    rw [Nat.zero_add]
    exact readValue_number hn (hread x) hrest n
  | .string s, fuel, rest, hfuel, hrest => by
    rw [stringify, quote, List.length_cons] at hfuel
    obtain ⟨n, rfl⟩ := Nat.exists_eq_add_of_lt (lt_of_lt_of_le (Nat.succ_pos _) hfuel)
    rw [stringify, Nat.zero_add]
    exact readValue_quote s rest n
  | .object .nil, fuel, rest, hfuel, hrest => by
    rw [stringify] at hfuel ⊢
    obtain ⟨n, rfl⟩ := Nat.exists_eq_add_of_lt (lt_of_lt_of_le (Nat.succ_pos 1) hfuel)
    rw [List.cons_append, List.singleton_append, Nat.zero_add, readValue, skip_cons (by decide)]
    simp only [if_neg (show unit '{' ≠ unit '"' by decide), if_true]
    rw [expect_cons (by decide)]
  | .object (.cons key v ms), fuel, rest, hfuel, hrest => by
    rw [stringify] at hfuel ⊢
    obtain ⟨n, rfl, hv, hms⟩ := exists_fuel hfuel
    exact readValue_member (readValue_stringify hn hread v hv (ends_stringifyRest ms rest))
      (readRest_stringifyRest hn hread ms hms)

theorem readRest_stringifyRest (hn : Numerals numberText)
    (hread : ∀ x, number (numberText x) = some x) :
    ∀ (ms : Members N) {fuel : ℕ} {rest : List UInt16},
    (stringifyRest numberText ms).length ≤ fuel →
      readRest number fuel (stringifyRest numberText ms ++ rest) = some (ms, rest)
  | .nil, fuel, rest, hfuel => by
    rw [stringifyRest] at hfuel ⊢
    obtain ⟨n, rfl⟩ := Nat.exists_eq_add_of_lt (lt_of_lt_of_le Nat.one_pos hfuel)
    rw [List.singleton_append, Nat.zero_add, readRest, skip_cons (by decide)]
    simp only [if_true]
  | .cons key v ms, fuel, rest, hfuel => by
    rw [stringifyRest] at hfuel ⊢
    obtain ⟨n, rfl, hv, hms⟩ := exists_fuel hfuel
    exact readRest_member (readValue_stringify hn hread v hv (ends_stringifyRest ms rest))
      (readRest_stringifyRest hn hread ms hms)
end

/-- **`JSON.parse` reads what `JSON.stringify` wrote.** -/
theorem parse_stringify (hn : Numerals numberText) (hread : ∀ x, number (numberText x) = some x)
    (v : Value N) : parse number (stringify numberText v) = some v := by
  have hempty : Ends [] := fun u hu => absurd hu (Option.not_mem_none u)
  have hvalue := readValue_stringify hn hread v (Nat.le_succ _) hempty
  rw [List.append_nil] at hvalue
  rw [parse, hvalue]
  exact if_pos rfl

/-! ## Written text stays on one line -/

/-- No control character. -/
def Printable (text : List UInt16) : Prop := ∀ u ∈ text, 0x20 ≤ u.toNat

instance (s : List UInt16) : Decidable (Printable s) := List.decidableBAll _ s

theorem Printable.cons {u : UInt16} {text : List UInt16} (hu : 0x20 ≤ u.toNat)
    (h : Printable text) : Printable (u :: text) := List.forall_mem_cons.mpr ⟨hu, h⟩

theorem Printable.append {s t : List UInt16} (hs : Printable s) (ht : Printable t) :
    Printable (s ++ t) := List.forall_mem_append.mpr ⟨hs, ht⟩

theorem printable_escapeUnit (u : UInt16) : Printable (escapeUnit u) := by
  have hhex : ∀ n < 16, 0x20 ≤ (hexUnit n).toNat := by decide
  have hbound := u.toNat_lt
  rw [escapeUnit]
  cases hu : short u with
  | some e =>
    have he : Printable (['"', '\\', '/', 'b', 'f', 'n', 'r', 't'].map unit) := by decide
    simp only [Printable, List.forall_mem_cons]
    exact ⟨by decide, he e (short_mem hu), fun _ h => absurd h List.not_mem_nil⟩
  | none =>
    dsimp only
    split
    · simp only [escapeHex, Printable, List.forall_mem_cons]
      exact ⟨by decide, by decide, hhex _ (by omega), hhex _ (by omega), hhex _ (by omega),
        hhex _ (by omega), fun _ h => absurd h List.not_mem_nil⟩
    · rename_i hraw
      exact List.forall_mem_singleton.mpr (not_lt.mp (not_or.mp hraw).1)

theorem printable_quote (s : List UInt16) : Printable (quote s) := by
  have hescape : Printable (escape s) := by
    induction s using escape.induct with
    | case1 => exact fun u hu => absurd hu List.not_mem_nil
    | case2 u => exact printable_escapeUnit u
    | case3 u v us hpair ih =>
      rw [escape, if_pos hpair]
      exact .cons (le_trans (by norm_num) hpair.1.1) (.cons (le_trans (by norm_num) hpair.2.1) ih)
    | case4 u v us hpair ih =>
      rw [escape, if_neg hpair]
      exact (printable_escapeUnit u).append ih
  exact .cons (by decide) (hescape.append (List.forall_mem_singleton.mpr (by decide)))

theorem NumberUnit.printable {u : UInt16} (h : NumberUnit u) : 0x20 ≤ u.toNat := by
  rcases h with ⟨hle, -⟩ | rfl | rfl | rfl | rfl
  · omega
  all_goals decide

theorem printable_member {mark : UInt16} (hmark : 0x20 ≤ mark.toNat) (key : List UInt16)
    {text rest : List UInt16} (htext : Printable text) (hrest : Printable rest) :
    Printable (mark :: (quote key ++ unit ':' :: (text ++ rest))) :=
  .cons hmark ((printable_quote key).append (.cons (by decide) (htext.append hrest)))

mutual
theorem printable_stringify (hn : Numerals numberText) :
    ∀ v : Value N, Printable (stringify numberText v)
  | .number x => by
    rw [stringify]
    exact fun u hu => (hn.alphabet x u hu).printable
  | .string s => by
    rw [stringify]
    exact printable_quote s
  | .object .nil => by
    rw [stringify]
    decide
  | .object (.cons key v ms) => by
    rw [stringify]
    exact printable_member (by decide) key (printable_stringify hn v) (printable_stringifyRest hn ms)

theorem printable_stringifyRest (hn : Numerals numberText) :
    ∀ ms : Members N, Printable (stringifyRest numberText ms)
  | .nil => by
    rw [stringifyRest]
    decide
  | .cons key v ms => by
    rw [stringifyRest]
    exact printable_member (by decide) key (printable_stringify hn v) (printable_stringifyRest hn ms)
end

end Roundtrip

end Json

import Stoppage.Lib.Utf8

/-! # Text in UTF-16 code units

A string is any list of code units, also one with surrogates that have no partner. Its characters
take each of those for the replacement character, and its bytes are the UTF-8 of its characters.
Reading bytes back always gives well-formed units, so what comes back of a string with a lone
surrogate is another string with the same bytes.
-/

namespace Utf16
set_option autoImplicit false

/-! ## Units and characters -/

def isHigh (u : UInt16) : Prop := 0xD800 ≤ u.toNat ∧ u.toNat < 0xDC00

def isLow (u : UInt16) : Prop := 0xDC00 ≤ u.toNat ∧ u.toNat < 0xE000

instance (u : UInt16) : Decidable (isHigh u) := inferInstanceAs (Decidable (_ ∧ _))

instance (u : UInt16) : Decidable (isLow u) := inferInstanceAs (Decidable (_ ∧ _))

/-- A unit on its own; `Char.ofNat` does not take surrogates. -/
def single (u : UInt16) : Char :=
  if isHigh u ∨ isLow u then Utf8.replacement else Char.ofNat u.toNat

def pair (u v : UInt16) : Char :=
  Char.ofNat (0x10000 + 0x400 * (u.toNat - 0xD800) + (v.toNat - 0xDC00))

def toChars : List UInt16 → List Char
  | [] => []
  | [u] => [single u]
  | u :: v :: us => if isHigh u ∧ isLow v then pair u v :: toChars us else single u :: toChars (v :: us)

def units (c : Char) : List UInt16 :=
  if c.toNat < 0x10000 then [UInt16.ofNat c.toNat]
  else [UInt16.ofNat (0xD800 + (c.toNat - 0x10000) / 0x400),
    UInt16.ofNat (0xDC00 + (c.toNat - 0x10000) % 0x400)]

def ofChars (cs : List Char) : List UInt16 := cs.flatMap units

theorem ofChars_append (cs ds : List Char) : ofChars (cs ++ ds) = ofChars cs ++ ofChars ds :=
  List.flatMap_append

theorem toNat_ofNat {n : ℕ} (h : n < 0x10000) : (UInt16.ofNat n).toNat = n :=
  UInt16.toNat_ofNat_of_lt' h

theorem toChars_cons_of_not_high {u : UInt16} (h : ¬ isHigh u) (us : List UInt16) :
    toChars (u :: us) = single u :: toChars us := by
  cases us with
  | nil => rfl
  | cons v us => rw [toChars, if_neg fun hpair => h hpair.1]

theorem toChars_units_append (c : Char) (us : List UInt16) :
    toChars (units c ++ us) = c :: toChars us := by
  have hc : Char.ofNat c.toNat = c := Char.ofNat_toNat c
  have hvalid : c.toNat < 0xD800 ∨ 0xDFFF < c.toNat ∧ c.toNat < 0x110000 := c.valid
  rw [units]
  split
  · rename_i hsmall
    have hu := toNat_ofNat hsmall
    have hhigh : ¬ isHigh (UInt16.ofNat c.toNat) := by
      rw [isHigh, hu]
      omega
    have hlow : ¬ isLow (UInt16.ofNat c.toNat) := by
      rw [isLow, hu]
      omega
    rw [List.singleton_append, toChars_cons_of_not_high hhigh, single,
      if_neg (not_or.mpr ⟨hhigh, hlow⟩), hu, hc]
  · rename_i hlarge
    have hu := toNat_ofNat (n := 0xD800 + (c.toNat - 0x10000) / 0x400) (by omega)
    have hv := toNat_ofNat (n := 0xDC00 + (c.toNat - 0x10000) % 0x400) (by omega)
    have hpair : isHigh (UInt16.ofNat (0xD800 + (c.toNat - 0x10000) / 0x400)) ∧
        isLow (UInt16.ofNat (0xDC00 + (c.toNat - 0x10000) % 0x400)) := by
      rw [isHigh, isLow, hu, hv]
      omega
    have hvalue : 0x10000 + 0x400 * (0xD800 + (c.toNat - 0x10000) / 0x400 - 0xD800) +
        (0xDC00 + (c.toNat - 0x10000) % 0x400 - 0xDC00) = c.toNat := by
      omega
    rw [List.cons_append, List.singleton_append, toChars, if_pos hpair, pair, hu, hv, hvalue, hc]

theorem toChars_ofChars_append (cs : List Char) (us : List UInt16) :
    toChars (ofChars cs ++ us) = cs ++ toChars us := by
  induction cs with
  | nil => rfl
  | cons c cs ih =>
    show toChars ((units c ++ ofChars cs) ++ us) = _
    rw [List.append_assoc, toChars_units_append, ih, List.cons_append]

theorem toChars_ofChars (cs : List Char) : toChars (ofChars cs) = cs := by
  have h := toChars_ofChars_append cs []
  rw [List.append_nil] at h
  exact h.trans (List.append_nil cs)

/-- No text starts with the second half of a pair. -/
theorem toChars_append (s : List UInt16) {t : List UInt16} (h : ∀ u ∈ t.head?, ¬ isLow u) :
    toChars (s ++ t) = toChars s ++ toChars t := by
  induction s using toChars.induct with
  | case1 => rfl
  | case2 u =>
    cases t with
    | nil => rfl
    | cons v t =>
      have hv : ¬ isLow v := h v rfl
      have hcons : toChars (u :: v :: t) = single u :: toChars (v :: t) := by
        rw [toChars, if_neg fun hpair => hv hpair.2]
      rw [List.singleton_append, hcons]
      rfl
  | case3 u v us hpair ih =>
    rw [List.cons_append, List.cons_append, toChars, if_pos hpair, ih, toChars, if_pos hpair,
      List.cons_append]
  | case4 u v us hpair ih =>
    rw [List.cons_append] at ih
    rw [List.cons_append, List.cons_append, toChars, if_neg hpair, ih, toChars, if_neg hpair,
      List.cons_append]

def ofString (s : String) : List UInt16 := ofChars s.toList

/-! ## Bytes -/

def encode (s : List UInt16) : List UInt8 := Utf8.encode (toChars s)

def decode (bs : List UInt8) : List UInt16 := ofChars (Utf8.decode bs)

theorem encode_ofChars (cs : List Char) : encode (ofChars cs) = Utf8.encode cs := by
  rw [encode, toChars_ofChars]

theorem encode_append (s : List UInt16) {t : List UInt16} (h : ∀ u ∈ t.head?, ¬ isLow u) :
    encode (s ++ t) = encode s ++ encode t := by
  rw [encode, toChars_append s h, Utf8.encode_append, encode, encode]

theorem encode_ofChars_append (cs : List Char) (t : List UInt16) :
    encode (ofChars cs ++ t) = Utf8.encode cs ++ encode t := by
  rw [encode, toChars_ofChars_append, Utf8.encode_append, encode]

theorem decode_encode (s : List UInt16) : decode (encode s) = ofChars (toChars s) := by
  rw [decode, encode, Utf8.decode_encode]

/-- What is read back has the same bytes. -/
theorem encode_decode_encode (s : List UInt16) : encode (decode (encode s)) = encode s := by
  rw [decode_encode, encode_ofChars, encode]

/-! ## Lengths -/

def Ascii (s : List UInt16) : Prop := ∀ u ∈ s, u.toNat < 0x80

instance (s : List UInt16) : Decidable (Ascii s) := List.decidableBAll _ s

theorem length_utf8 (c : Char) : (String.utf8EncodeChar c).length =
    if c.toNat < 0x80 then 1 else if c.toNat < 0x800 then 2 else if c.toNat < 0x10000 then 3
    else 4 := by
  have hnat : c.val.toNat = c.toNat := rfl
  rw [String.utf8EncodeChar, hnat]
  split_ifs <;> first | rfl | omega

theorem toNat_charOfNat {n : ℕ} (h : n.isValidChar) : (Char.ofNat n).toNat = n := by
  rw [Char.ofNat, dif_pos h]
  rfl

theorem toNat_single (u : UInt16) :
    (single u).toNat = if isHigh u ∨ isLow u then 0xFFFD else u.toNat := by
  have hu := u.toNat_lt
  rw [single]
  split
  · rfl
  · rename_i hnot
    rw [isHigh, isLow] at hnot
    refine toNat_charOfNat ?_
    rw [Nat.isValidChar]
    omega

theorem toNat_pair {u v : UInt16} (hu : isHigh u) (hv : isLow v) :
    (pair u v).toNat = 0x10000 + 0x400 * (u.toNat - 0xD800) + (v.toNat - 0xDC00) := by
  rw [isHigh] at hu
  rw [isLow] at hv
  refine toNat_charOfNat ?_
  rw [Nat.isValidChar]
  omega

theorem length_single (u : UInt16) : 1 ≤ (String.utf8EncodeChar (single u)).length ∧
    ((String.utf8EncodeChar (single u)).length = 1 ↔ u.toNat < 0x80) := by
  have hsurrogate : isHigh u ∨ isLow u → 0xD800 ≤ u.toNat := by
    rw [isHigh, isLow]
    omega
  rw [length_utf8, toNat_single]
  by_cases hu : isHigh u ∨ isLow u
  · have := hsurrogate hu
    rw [if_pos hu, if_neg (by decide), if_neg (by decide), if_pos (by decide)]
    omega
  · simp only [if_neg hu]
    split_ifs <;> omega

theorem length_pair {u v : UInt16} (hu : isHigh u) (hv : isLow v) :
    (String.utf8EncodeChar (pair u v)).length = 4 := by
  rw [length_utf8, toNat_pair hu hv, if_neg (by omega), if_neg (by omega), if_neg (by omega)]

theorem ascii_cons {u : UInt16} {us : List UInt16} :
    Ascii (u :: us) ↔ u.toNat < 0x80 ∧ Ascii us := List.forall_mem_cons

theorem ascii_append {s t : List UInt16} : Ascii (s ++ t) ↔ Ascii s ∧ Ascii t :=
  List.forall_mem_append

theorem forall_mem_ofChars {P : UInt16 → Prop} {cs : List Char}
    (h : ∀ c ∈ cs, c.toNat < 0x80 ∧ P (UInt16.ofNat c.toNat)) : ∀ u ∈ ofChars cs, P u := by
  intro u hu
  obtain ⟨c, hc, huc⟩ := List.mem_flatMap.mp hu
  obtain ⟨hsmall, hP⟩ := h c hc
  rw [units, if_pos (by omega), List.mem_singleton] at huc
  rw [huc]
  exact hP

theorem ascii_ofChars {cs : List Char} (h : ∀ c ∈ cs, c.toNat < 0x80) : Ascii (ofChars cs) := by
  refine forall_mem_ofChars fun c hc => ⟨h c hc, ?_⟩
  have hsmall := h c hc
  rw [toNat_ofNat (by omega)]
  exact hsmall

theorem length_ofChars {cs : List Char} (h : ∀ c ∈ cs, c.toNat < 0x80) :
    (ofChars cs).length = cs.length := by
  induction cs with
  | nil => rfl
  | cons c cs ih =>
    obtain ⟨hsmall, hrest⟩ := List.forall_mem_cons.mp h
    have hunits : units c = [UInt16.ofNat c.toNat] := by rw [units, if_pos (by omega)]
    rw [ofChars, List.flatMap_cons, hunits, List.length_append, List.length_singleton, ← ofChars,
      ih hrest, List.length_cons, Nat.add_comm]

/-- A byte between characters emits at most one unit, and none if it begins a character. -/
theorem length_start_le (b : ℕ) :
    (ofChars (Utf8.start b).1).length + (Utf8.start b).2.toList.length ≤ 1 := by
  rw [Utf8.start]
  split_ifs with hascii
  · rw [length_ofChars (List.forall_mem_singleton.mpr ?_)]
    · exact le_rfl
    · rwa [toNat_charOfNat (.inl (by omega))]
  all_goals exact Nat.le_refl 1

/-- A character that has begun stands for one unit more. -/
theorem length_step_le (p : Option Utf8.Pending) (b : ℕ) :
    (ofChars (Utf8.step p b).1).length + (Utf8.step p b).2.toList.length ≤ p.toList.length + 1 := by
  have hstart := length_start_le b
  cases p with
  | none => exact hstart.trans (Nat.le_add_left _ _)
  | some p =>
    rw [Utf8.step]
    split_ifs
    · rw [Utf8.Pending.add]
      split_ifs
      · rw [ofChars, List.flatMap_singleton, units]
        split_ifs
        · exact Nat.le_succ 1
        · exact le_refl 2
      · exact Nat.le_succ 1
    · have hcons : ofChars (Utf8.replacement :: (Utf8.start b).1) =
          0xFFFD :: ofChars (Utf8.start b).1 := rfl
      dsimp only
      rw [hcons, List.length_cons, Option.toList_some, List.length_singleton]
      omega

theorem length_decode_le (bs : List UInt8) : (decode bs).length ≤ bs.length := by
  have hfrom (p : Option Utf8.Pending) :
      (ofChars (Utf8.decodeFrom p bs)).length ≤ bs.length + p.toList.length := by
    induction bs generalizing p with
    | nil => cases p <;> exact le_rfl
    | cons b bs ih =>
      have hstep := length_step_le p b.toNat
      have hrest := ih (Utf8.step p b.toNat).2
      rw [Utf8.decodeFrom_cons, ofChars_append, List.length_append, List.length_cons]
      omega
  exact hfrom none

/-- A string has at least as many bytes as units, and as many only if it is ASCII. -/
theorem length_encode (s : List UInt16) :
    s.length ≤ (encode s).length ∧ ((encode s).length = s.length ↔ Ascii s) := by
  induction s using toChars.induct with
  | case1 => exact ⟨le_rfl, iff_of_true rfl fun _ h => absurd h List.not_mem_nil⟩
  | case2 u =>
    have hsingle := length_single u
    have hbytes : (encode [u]).length = (String.utf8EncodeChar (single u)).length := by
      rw [encode, toChars, Utf8.encode_cons, List.length_append]
      rfl
    have hascii : Ascii [u] ↔ u.toNat < 0x80 := by
      rw [ascii_cons]
      exact and_iff_left fun _ h => absurd h List.not_mem_nil
    rw [hbytes, hascii, List.length_singleton]
    exact hsingle
  | case3 u v us hpair ih =>
    have hbytes : (encode (u :: v :: us)).length = 4 + (encode us).length := by
      rw [encode, toChars, if_pos hpair, Utf8.encode_cons, List.length_append,
        length_pair hpair.1 hpair.2, encode]
    have hhigh : ¬ Ascii (u :: v :: us) := by
      rw [ascii_cons]
      have hu := hpair.1
      rw [isHigh] at hu
      omega
    rw [hbytes, List.length_cons, List.length_cons]
    exact ⟨by omega, iff_of_false (by omega) hhigh⟩
  | case4 u v us hpair ih =>
    have hsingle := length_single u
    have hbytes : (encode (u :: v :: us)).length =
        (String.utf8EncodeChar (single u)).length + (encode (v :: us)).length := by
      rw [encode, toChars, if_neg hpair, Utf8.encode_cons, List.length_append, encode]
    have hlength : (u :: v :: us).length = (v :: us).length + 1 := rfl
    rw [hbytes, ascii_cons, ← ih.2, ← hsingle.2, hlength]
    omega

theorem Ascii.ofChars_toChars {s : List UInt16} (h : Ascii s) : ofChars (toChars s) = s := by
  induction s with
  | nil => rfl
  | cons u us ih =>
    obtain ⟨hu, hus⟩ := ascii_cons.mp h
    have hhigh : ¬ isHigh u := by
      rw [isHigh]
      omega
    have hsingle : units (single u) = [u] := by
      have hnot : ¬ (isHigh u ∨ isLow u) := by
        rw [isHigh, isLow]
        omega
      rw [units, toNat_single, if_neg hnot, if_pos u.toNat_lt, UInt16.ofNat_toNat]
    rw [toChars_cons_of_not_high hhigh]
    show units (single u) ++ ofChars (toChars us) = _
    rw [hsingle, ih hus, List.singleton_append]

/-! ## Well-formed strings -/

/-- Every surrogate has its partner. -/
def WellFormed (s : List UInt16) : Prop := ofChars (toChars s) = s

theorem Ascii.wellFormed {s : List UInt16} (h : Ascii s) : WellFormed s := h.ofChars_toChars

theorem wellFormed_ofChars (cs : List Char) : WellFormed (ofChars cs) := by
  rw [WellFormed, toChars_ofChars]

theorem wellFormed_iff {s : List UInt16} : WellFormed s ↔ ∃ cs, s = ofChars cs := by
  constructor
  · exact fun h => ⟨_, h.symm⟩
  · rintro ⟨cs, rfl⟩
    exact wellFormed_ofChars cs

theorem WellFormed.append {s t : List UInt16} (hs : WellFormed s) (ht : WellFormed t) :
    WellFormed (s ++ t) := by
  obtain ⟨cs, rfl⟩ := wellFormed_iff.mp hs
  obtain ⟨ds, rfl⟩ := wellFormed_iff.mp ht
  rw [← ofChars_append]
  exact wellFormed_ofChars _

theorem WellFormed.encode_append {s : List UInt16} (h : WellFormed s) (t : List UInt16) :
    encode (s ++ t) = encode s ++ encode t := by
  obtain ⟨cs, rfl⟩ := wellFormed_iff.mp h
  rw [encode_ofChars_append, encode_ofChars]

theorem wellFormed_single {u : UInt16} (h : ¬ (isHigh u ∨ isLow u)) : WellFormed [u] := by
  show units (single u) ++ [] = [u]
  rw [units, toNat_single, if_neg h, if_pos u.toNat_lt, UInt16.ofNat_toNat]
  rfl

theorem wellFormed_pair {u v : UInt16} (hu : isHigh u) (hv : isLow v) : WellFormed [u, v] := by
  have hpair : toChars [u, v] = [pair u v] := if_pos ⟨hu, hv⟩
  have hcode := toNat_pair hu hv
  rw [isHigh] at hu
  rw [isLow] at hv
  have hhigh : 0xD800 + (0x10000 + 0x400 * (u.toNat - 0xD800) + (v.toNat - 0xDC00) - 0x10000) /
      0x400 = u.toNat := by
    omega
  have hlow : 0xDC00 + (0x10000 + 0x400 * (u.toNat - 0xD800) + (v.toNat - 0xDC00) - 0x10000) %
      0x400 = v.toNat := by
    omega
  have hflat : ofChars [pair u v] = units (pair u v) := List.append_nil _
  rw [WellFormed, hpair, hflat, units, hcode, if_neg (by omega), hhigh, hlow, UInt16.ofNat_toNat,
    UInt16.ofNat_toNat]

/-- **Well-formed strings have different bytes.** -/
theorem WellFormed.encode_inj {s t : List UInt16} (hs : WellFormed s) (ht : WellFormed t)
    (h : encode s = encode t) : s = t := by
  rw [← hs, ← ht, Utf8.encode_injective h]

end Utf16

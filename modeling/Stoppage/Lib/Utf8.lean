import Mathlib.Tactic

/-! # Lossy UTF-8

Text as a list of characters, and its bytes. Decoding never fails: it goes through the input byte by
byte, and each maximal piece that starts like a character and does not go on like one is read as the
replacement character. So what has been encoded is read back, and of text that was cut inside a
character the whole characters are, with one replacement character behind them.
-/

namespace Utf8
set_option autoImplicit false

/-! ## Encoding -/

def encode (cs : List Char) : List UInt8 := cs.flatMap String.utf8EncodeChar

theorem encode_cons (c : Char) (cs : List Char) :
    encode (c :: cs) = String.utf8EncodeChar c ++ encode cs := rfl

theorem encode_append (cs ds : List Char) : encode (cs ++ ds) = encode cs ++ encode ds :=
  List.flatMap_append

/-! ## Decoding -/

def replacement : Char := Char.ofNat 0xFFFD

/-- A character that has begun: its value so far, how many bytes are missing, and the bounds of the
next one. -/
structure Pending where
  value : ℕ
  missing : ℕ
  low : ℕ
  high : ℕ
deriving DecidableEq

/-- A byte between characters: what it emits, and the character it begins. -/
def start (b : ℕ) : List Char × Option Pending :=
  if b < 0x80 then ([Char.ofNat b], none)
  else if b < 0xC2 then ([replacement], none)
  else if b < 0xE0 then ([], some ⟨b % 32, 1, 0x80, 0xBF⟩)
  else if b < 0xF0 then
    ([], some ⟨b % 16, 2, if b = 0xE0 then 0xA0 else 0x80, if b = 0xED then 0x9F else 0xBF⟩)
  else if b < 0xF5 then
    ([], some ⟨b % 8, 3, if b = 0xF0 then 0x90 else 0x80, if b = 0xF4 then 0x8F else 0xBF⟩)
  else ([replacement], none)

/-- A byte that continues a character. -/
def Pending.add (p : Pending) (b : ℕ) : List Char × Option Pending :=
  if p.missing = 1 then ([Char.ofNat (64 * p.value + b % 64)], none)
  else ([], some ⟨64 * p.value + b % 64, p.missing - 1, 0x80, 0xBF⟩)

/-- A byte that does not continue the character that has begun is taken as the first of another. -/
def step : Option Pending → ℕ → List Char × Option Pending
  | none, b => start b
  | some p, b =>
    if p.low ≤ b ∧ b ≤ p.high then p.add b else (replacement :: (start b).1, (start b).2)

def decodeFrom : Option Pending → List UInt8 → List Char
  | none, [] => []
  | some _, [] => [replacement]
  | p, b :: bs => (step p b.toNat).1 ++ decodeFrom (step p b.toNat).2 bs

def decode (bs : List UInt8) : List Char := decodeFrom none bs

theorem decodeFrom_cons (p : Option Pending) (b : UInt8) (bs : List UInt8) :
    decodeFrom p (b :: bs) = (step p b.toNat).1 ++ decodeFrom (step p b.toNat).2 bs := by
  cases p <;> rfl

/-- The characters that the bytes emit, and what has begun at their end. -/
def run : Option Pending → List UInt8 → List Char × Option Pending
  | p, [] => ([], p)
  | p, b :: bs =>
    let r := run (step p b.toNat).2 bs
    ((step p b.toNat).1 ++ r.1, r.2)

theorem decodeFrom_append (p : Option Pending) (xs ys : List UInt8) :
    decodeFrom p (xs ++ ys) = (run p xs).1 ++ decodeFrom (run p xs).2 ys := by
  induction xs generalizing p with
  | nil => rfl
  | cons x xs ih => rw [List.cons_append, decodeFrom_cons, ih, run, List.append_assoc]

theorem step_ofNat (p : Option Pending) {n : ℕ} (h : n < 256) :
    step p (UInt8.ofNat n).toNat = step p n := by
  rw [UInt8.toNat_ofNat', Nat.mod_eq_of_lt h]

/-! ## One character -/

/-- The bytes take the decoder from `p` to the character and emit nothing before. -/
def Leads (c : Char) : Option Pending → List UInt8 → Prop
  | _, [] => False
  | p, [b] => step p b.toNat = ([c], none)
  | p, b :: bs => ∃ q, step p b.toNat = ([], some q) ∧ 0 < q.low ∧ Leads c (some q) bs

theorem step_continue {p : Pending} {b : ℕ} (hlow : p.low ≤ b) (hhigh : b ≤ p.high) :
    step (some p) b = p.add b := if_pos ⟨hlow, hhigh⟩

theorem step_tail {value missing low high n : ℕ} (hlow : low ≤ n % 64 + 128)
    (hhigh : n % 64 + 128 ≤ high) (hmore : missing ≠ 1) :
    step (some ⟨value, missing, low, high⟩) (UInt8.ofNat (n % 64 + 128)).toNat =
      ([], some ⟨64 * value + n % 64, missing - 1, 0x80, 0xBF⟩) := by
  have hbits : (n % 64 + 128) % 64 = n % 64 := by omega
  rw [step_ofNat _ (by omega), step_continue hlow hhigh, Pending.add, if_neg hmore, hbits]

theorem step_last {value low high n v : ℕ} (hlow : low ≤ n % 64 + 128)
    (hhigh : n % 64 + 128 ≤ high) (hv : 64 * value + n % 64 = v) :
    step (some ⟨value, 1, low, high⟩) (UInt8.ofNat (n % 64 + 128)).toNat =
      ([Char.ofNat v], none) := by
  have hbits : (n % 64 + 128) % 64 = n % 64 := by omega
  rw [step_ofNat _ (by omega), step_continue hlow hhigh, Pending.add, if_pos rfl, hbits, hv]

theorem leads_char (c : Char) : Leads c none (String.utf8EncodeChar c) := by
  have hc : Char.ofNat c.toNat = c := Char.ofNat_toNat c
  have hvalid : c.toNat < 0xD800 ∨ 0xDFFF < c.toNat ∧ c.toNat < 0x110000 := c.valid
  have hnat : c.val.toNat = c.toNat := rfl
  rw [String.utf8EncodeChar, hnat]
  generalize c.toNat = v at hc hvalid
  split_ifs with h1 h2 h3
  · show step none (UInt8.ofNat v).toNat = _
    rw [step_ofNat none (by omega), step, start, if_pos (by omega), hc]
  · refine ⟨⟨v / 64, 1, 0x80, 0xBF⟩, ?_, Nat.succ_pos _, ?_⟩
    · rw [step_ofNat none (by omega), step, start, if_neg (by omega), if_neg (by omega),
        if_pos (by omega)]
      have hbits : (v / 64 % 32 + 192) % 32 = v / 64 := by omega
      rw [hbits]
    · rw [Leads, step_last (by omega) (by omega) (Nat.div_add_mod v 64), hc]
  · -- The bounds of the second byte leave out short forms and the surrogates.
    have hlow : (if v / 4096 % 16 + 224 = 0xE0 then 0xA0 else 0x80) ≤ v / 64 % 64 + 128 := by
      split <;> omega
    have hhigh : v / 64 % 64 + 128 ≤ (if v / 4096 % 16 + 224 = 0xED then 0x9F else 0xBF) := by
      split <;> omega
    refine ⟨⟨v / 4096, 2, if v / 4096 % 16 + 224 = 0xE0 then 0xA0 else 0x80,
      if v / 4096 % 16 + 224 = 0xED then 0x9F else 0xBF⟩, ?_, ?_, ?_⟩
    · have hbits : (v / 4096 % 16 + 224) % 16 = v / 4096 := by omega
      rw [step_ofNat none (by omega), step, start, if_neg (by omega), if_neg (by omega),
        if_neg (by omega), if_pos (by omega), hbits]
    · show 0 < (if v / 4096 % 16 + 224 = 0xE0 then 0xA0 else 0x80)
      split <;> omega
    · refine ⟨_, step_tail hlow hhigh (by omega), Nat.succ_pos _, ?_⟩
      rw [Leads, step_last (by omega) (by omega) (v := v) (by omega), hc]
  · have hlow : (if v / 262144 % 8 + 240 = 0xF0 then 0x90 else 0x80) ≤ v / 4096 % 64 + 128 := by
      split <;> omega
    have hhigh : v / 4096 % 64 + 128 ≤ (if v / 262144 % 8 + 240 = 0xF4 then 0x8F else 0xBF) := by
      split <;> omega
    refine ⟨⟨v / 262144, 3, if v / 262144 % 8 + 240 = 0xF0 then 0x90 else 0x80,
      if v / 262144 % 8 + 240 = 0xF4 then 0x8F else 0xBF⟩, ?_, ?_, ?_⟩
    · have hbits : (v / 262144 % 8 + 240) % 8 = v / 262144 := by omega
      rw [step_ofNat none (by omega), step, start, if_neg (by omega), if_neg (by omega),
        if_neg (by omega), if_neg (by omega), if_pos (by omega), hbits]
    · show 0 < (if v / 262144 % 8 + 240 = 0xF0 then 0x90 else 0x80)
      split <;> omega
    · refine ⟨_, step_tail hlow hhigh (by omega), Nat.succ_pos _, ?_⟩
      refine ⟨_, step_tail (by omega) (by omega) (by omega), Nat.succ_pos _, ?_⟩
      rw [Leads, step_last (by omega) (by omega) (v := v) (by omega), hc]

theorem Leads.run {c : Char} {p : Option Pending} {bs : List UInt8} (h : Leads c p bs) :
    run p bs = ([c], none) := by
  induction bs generalizing p with
  | nil => exact h.elim
  | cons b bs ih =>
    cases bs with
    | nil =>
      have hstep : step p b.toNat = ([c], none) := h
      rw [Utf8.run, hstep]
      rfl
    | cons b' bs =>
      obtain ⟨q, hstep, -, hrest⟩ := h
      rw [Utf8.run, hstep, ih hrest]
      rfl

/-- A character that is cut off has begun, and emits nothing. -/
theorem Leads.run_take {c : Char} {p : Option Pending} {bs : List UInt8} (h : Leads c p bs)
    {k : ℕ} (hpos : 0 < k) (hk : k < bs.length) :
    ∃ q, Utf8.run p (bs.take k) = ([], some q) ∧ 0 < q.low := by
  induction k generalizing p bs with
  | zero => omega
  | succ k ih =>
    match bs with
    | [] => exact h.elim
    | [b] =>
      rw [List.length_singleton] at hk
      omega
    | b :: b' :: bs =>
      obtain ⟨q, hstep, hlow, hrest⟩ := h
      rw [List.take_succ_cons, Utf8.run, hstep]
      by_cases hzero : k = 0
      · subst hzero
        exact ⟨q, rfl, hlow⟩
      · have hlength : k < (b' :: bs).length := by
          rw [List.length_cons] at hk
          omega
        obtain ⟨q', hrun, hlow'⟩ := ih hrest (Nat.pos_of_ne_zero hzero) hlength
        rw [hrun]
        exact ⟨q', rfl, hlow'⟩

/-! ## Text -/

theorem decode_char_append (c : Char) (bs : List UInt8) :
    decode (String.utf8EncodeChar c ++ bs) = c :: decode bs := by
  rw [decode, decodeFrom_append, (leads_char c).run]
  rfl

/-- **What has been encoded is read back.** -/
theorem decode_encode_append (cs : List Char) (bs : List UInt8) :
    decode (encode cs ++ bs) = cs ++ decode bs := by
  induction cs with
  | nil => rfl
  | cons c cs ih => rw [encode_cons, List.append_assoc, decode_char_append, ih, List.cons_append]

theorem decode_encode (cs : List Char) : decode (encode cs) = cs := by
  have h := decode_encode_append cs []
  rw [List.append_nil] at h
  exact h.trans (List.append_nil cs)

theorem encode_injective : Function.Injective encode :=
  Function.LeftInverse.injective decode_encode

def nul : Char := Char.ofNat 0

theorem decode_zeros (n : ℕ) : decode (List.replicate n 0) = List.replicate n nul := by
  induction n with
  | zero => rfl
  | succ n ih =>
    rw [List.replicate_succ, List.replicate_succ, ← ih]
    rfl

/-- A character that is cut off is replaced, and the zeros behind it are read. -/
theorem decode_cut_append (c : Char) {k : ℕ} (hpos : 0 < k)
    (hk : k < (String.utf8EncodeChar c).length) (n : ℕ) :
    decode ((String.utf8EncodeChar c).take k ++ List.replicate n 0) =
      replacement :: List.replicate n nul := by
  obtain ⟨q, hrun, hlow⟩ := (leads_char c).run_take hpos hk
  rw [decode, decodeFrom_append, hrun, List.nil_append]
  cases n with
  | zero => rfl
  | succ n =>
    have hout : ¬ (q.low ≤ 0 ∧ 0 ≤ q.high) := by omega
    have hzero : step (some q) (0 : UInt8).toNat = (replacement :: [nul], none) := if_neg hout
    rw [List.replicate_succ, decodeFrom_cons, hzero, List.replicate_succ]
    exact congrArg (fun cs => replacement :: nul :: cs) (decode_zeros n)

/-- Where a text is cut: in front of a character or inside it. -/
theorem exists_cut (cs : List Char) {k : ℕ} (hk : k < (encode cs).length) :
    ∃ front c back p, cs = front ++ c :: back ∧ p < (String.utf8EncodeChar c).length ∧
      k = (encode front).length + p ∧
      (encode cs).take k = encode front ++ (String.utf8EncodeChar c).take p := by
  induction cs generalizing k with
  | nil => exact absurd hk (Nat.not_lt_zero k)
  | cons c cs ih =>
    by_cases hfirst : k < (String.utf8EncodeChar c).length
    · refine ⟨[], c, cs, k, rfl, hfirst, (Nat.zero_add k).symm, ?_⟩
      rw [encode_cons, List.take_append_of_le_length hfirst.le]
      rfl
    · have hsplit : k = (String.utf8EncodeChar c).length + (k - (String.utf8EncodeChar c).length) := by
        omega
      have hrest : k - (String.utf8EncodeChar c).length < (encode cs).length := by
        rw [encode_cons, List.length_append] at hk
        omega
      obtain ⟨front, d, back, p, rfl, hp, hlength, htake⟩ := ih hrest
      refine ⟨c :: front, d, back, p, rfl, hp, ?_, ?_⟩
      · rw [encode_cons, List.length_append]
        omega
      · rw [encode_cons, hsplit, List.take_length_add_append, htake, encode_cons, List.append_assoc]

end Utf8

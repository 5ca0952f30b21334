import Stoppage.Lib.LittleEndian

/-! # Reading records off a byte string

A reader takes a value from the front of its input and leaves the rest. `Reads p bs x` says that
the reader finds `x` behind the bytes `bs`, whatever follows them; one rule for each way of putting
readers together turns the layout of a record into the proof that it is read back. The readers are
those of the Borsh format: fixed-width words, arrays, vectors and strings behind their length,
options behind a tag, and the variants of an enumeration.
-/

namespace Borsh
open LittleEndian
set_option autoImplicit false

abbrev Reader (α : Type) := StateT (List UInt8) Option α

variable {α β : Type}

def Reads (p : Reader α) (bs : List UInt8) (x : α) : Prop :=
  ∀ rest, p (bs ++ rest) = some (x, rest)

/-! ## Composition -/

theorem Reads.pure (x : α) : Reads (pure x) [] x := fun _ => rfl

theorem Reads.bind {p : Reader α} {q : α → Reader β} {xs ys : List UInt8} {x : α} {y : β}
    (hp : Reads p xs x) (hq : Reads (q x) ys y) : Reads (p >>= q) (xs ++ ys) y := by
  intro rest
  have hfirst : p (xs ++ (ys ++ rest)) = some (x, ys ++ rest) := hp _
  rw [List.append_assoc]
  show (p (xs ++ (ys ++ rest))).bind (fun a => q a.1 a.2) = _
  rw [hfirst]
  exact hq rest

theorem Reads.map {p : Reader α} {bs : List UInt8} {x : α} (h : Reads p bs x) (f : α → β) :
    Reads (f <$> p) bs (f x) := by
  intro rest
  show (p (bs ++ rest)).bind (fun a => some (f a.1, a.2)) = _
  rw [h]
  rfl

/-- The value at the front of the input; what follows it is ignored. -/
def run (p : Reader α) (bs : List UInt8) : Option α := (p bs).map Prod.fst

theorem Reads.run {p : Reader α} {bs : List UInt8} {x : α} (h : Reads p bs x) :
    run p bs = some x := by
  have hall := h []
  rw [List.append_nil] at hall
  rw [Borsh.run, hall]
  rfl

theorem Reads.run_append {p : Reader α} {bs : List UInt8} {x : α} (h : Reads p bs x)
    (rest : List UInt8) : Borsh.run p (bs ++ rest) = some x := by
  rw [Borsh.run, h]
  rfl

/-- The value that the input consists of, with nothing left over. -/
def runAll (p : Reader α) (bs : List UInt8) : Option α :=
  (p bs).bind fun r => if r.2 = [] then some r.1 else none

theorem Reads.runAll {p : Reader α} {bs : List UInt8} {x : α} (h : Reads p bs x) :
    runAll p bs = some x := by
  have hall := h []
  rw [List.append_nil] at hall
  rw [Borsh.runAll, hall]
  rfl

/-! ## Bytes -/

def bytes (n : ℕ) : Reader (List UInt8) := fun bs =>
  if n ≤ bs.length then some (bs.take n, bs.drop n) else none

def byte : Reader UInt8
  | [] => none
  | b :: bs => some (b, bs)

def array (n : ℕ) : Reader (List.Vector UInt8 n) := fun bs =>
  if h : n ≤ bs.length then
    some (⟨bs.take n, by rw [List.length_take, Nat.min_eq_left h]⟩, bs.drop n)
  else none

theorem reads_bytes {xs : List UInt8} {n : ℕ} (h : xs.length = n) : Reads (bytes n) xs xs := by
  intro rest
  have hlong : n ≤ (xs ++ rest).length := by
    rw [List.length_append]
    omega
  rw [bytes, if_pos hlong, List.take_left' h, List.drop_left' h]

theorem reads_byte (b : UInt8) : Reads byte [b] b := fun _ => rfl

theorem reads_array {n : ℕ} (xs : List.Vector UInt8 n) : Reads (array n) xs.1 xs := by
  intro rest
  have hlong : n ≤ (xs.1 ++ rest).length := by
    rw [List.length_append, xs.2]
    omega
  have htake : (xs.1 ++ rest).take n = xs.1 := List.take_left' xs.2
  have hdrop : (xs.1 ++ rest).drop n = rest := List.drop_left' xs.2
  rw [array, dif_pos hlong, hdrop]
  exact congrArg (fun v => some (v, rest)) (Subtype.ext htake)

/-! ## Words -/

def u16 : Reader UInt16 := decodeU16 <$> bytes 2

theorem reads_u16 (x : UInt16) : Reads u16 (encodeU16 x) x := by
  have h := (reads_bytes (length_encodeU16 x)).map decodeU16
  rw [decodeU16_encodeU16] at h
  exact h

def u32 : Reader UInt32 := decodeU32 <$> bytes 4

theorem reads_u32 (x : UInt32) : Reads u32 (encodeU32 x) x := by
  have h := (reads_bytes (length_encodeU32 x)).map decodeU32
  rw [decodeU32_encodeU32] at h
  exact h

def i32 : Reader Int32 := decodeI32 <$> bytes 4

theorem reads_i32 (x : Int32) : Reads i32 (encodeI32 x) x := by
  have h := (reads_bytes (length_encodeI32 x)).map decodeI32
  rw [decodeI32_encodeI32] at h
  exact h

def u64 : Reader UInt64 := decodeU64 <$> bytes 8

theorem reads_u64 (x : UInt64) : Reads u64 (encodeU64 x) x := by
  have h := (reads_bytes (length_encodeU64 x)).map decodeU64
  rw [decodeU64_encodeU64] at h
  exact h

def i64 : Reader Int64 := decodeI64 <$> bytes 8

theorem reads_i64 (x : Int64) : Reads i64 (encodeI64 x) x := by
  have h := (reads_bytes (length_encodeI64 x)).map decodeI64
  rw [decodeI64_encodeI64] at h
  exact h

/-! ## Tags -/

/-- A value by its tag. -/
def tagged (f : UInt8 → Option α) : Reader α := do
  let b ← byte
  StateT.lift (f b)

theorem reads_tagged {f : UInt8 → Option α} {b : UInt8} {x : α} (h : f b = some x) :
    Reads (tagged f) [b] x := by
  intro rest
  show (StateT.lift (f b) : Reader α) rest = _
  rw [h]
  rfl

def bool : Reader Bool :=
  tagged fun b => if b = 0 then some false else if b = 1 then some true else none

theorem reads_bool (b : Bool) : Reads bool [if b then 1 else 0] b := by
  cases b with
  | false => exact reads_tagged rfl
  | true => exact reads_tagged rfl

/-- An option: a tag, and the value behind it if there is one. -/
def option (p : Reader α) : Reader (Option α) := do
  let present ← bool
  if present then some <$> p else pure none

theorem reads_none (p : Reader α) : Reads (option p) [0] none := fun _ => rfl

theorem reads_some {p : Reader α} {bs : List UInt8} {x : α} (h : Reads p bs x) :
    Reads (option p) ([1] ++ bs) (some x) := by
  intro rest
  show (some <$> p) (bs ++ rest) = _
  exact h.map some rest

/-! ## Vectors and strings -/

/-- So many values, one after the other. -/
def many (p : Reader α) : ℕ → Reader (List α)
  | 0 => pure []
  | n + 1 => do
    let x ← p
    let xs ← many p n
    pure (x :: xs)

/-- A vector of values: its length in four bytes, then the values. -/
def vector (p : Reader α) : Reader (List α) := do
  let n ← u32
  many p n.toNat

theorem reads_many {p : Reader α} {xs : List α} {bss : List (List UInt8)}
    (h : List.Forall₂ (fun bs x => Reads p bs x) bss xs) :
    Reads (many p xs.length) bss.flatten xs := by
  induction h with
  | nil => exact Reads.pure []
  | @cons bs x bss xs hx _ ih => exact hx.bind (ih.map fun xs => x :: xs)

theorem reads_vector {p : Reader α} {xs : List α} {bss : List (List UInt8)}
    (h : List.Forall₂ (fun bs x => Reads p bs x) bss xs) (hlength : xs.length < 2 ^ 32) :
    Reads (vector p) (encode 4 xs.length ++ bss.flatten) xs := by
  have hword : encodeU32 (UInt32.ofNat xs.length) = encode 4 xs.length := by
    rw [encodeU32, UInt32.toNat_ofNat_of_lt' hlength]
  have hcount := reads_u32 (UInt32.ofNat xs.length)
  rw [hword] at hcount
  refine hcount.bind ?_
  rw [UInt32.toNat_ofNat_of_lt' hlength]
  exact reads_many h

/-- A vector of bytes: its length in four bytes, then the bytes. -/
def vec : Reader (List UInt8) := do
  let n ← u32
  bytes n.toNat

theorem reads_vec {xs : List UInt8} (h : xs.length < 2 ^ 32) :
    Reads vec (encode 4 xs.length ++ xs) xs := by
  have hword : encodeU32 (UInt32.ofNat xs.length) = encode 4 xs.length := by
    rw [encodeU32, UInt32.toNat_ofNat_of_lt' h]
  have hlength := reads_u32 (UInt32.ofNat xs.length)
  rw [hword] at hlength
  refine hlength.bind (reads_bytes ?_)
  exact (UInt32.toNat_ofNat_of_lt' h).symm

def string : Reader String := do
  let bs ← vec
  StateT.lift (String.fromUTF8? bs.toByteArray)

theorem reads_string {s : String} {bs : List UInt8} (hbytes : bs.toByteArray = s.toByteArray)
    (h : bs.length < 2 ^ 32) : Reads string (encode 4 bs.length ++ bs) s := by
  have htext : String.fromUTF8? bs.toByteArray = some s := by
    rw [hbytes, String.fromUTF8?, dif_pos s.isValidUTF8]
    rfl
  have hlast : Reads (StateT.lift (String.fromUTF8? bs.toByteArray)) [] s := by
    intro rest
    rw [htext]
    rfl
  have hall := (reads_vec h).bind (q := fun bs => StateT.lift (String.fromUTF8? bs.toByteArray))
    hlast
  rw [List.append_nil] at hall
  exact hall

end Borsh

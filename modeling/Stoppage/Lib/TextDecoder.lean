import Stoppage.Lib.Utf16

/-! # Decoding a stream of bytes

A decoder keeps the character that has begun between one piece of the input and the next, and takes
a byte order mark away from the front of the text. However the bytes are cut, also inside a
character, their text is the same.
-/

set_option autoImplicit false

/-- Between two pieces: the character that has begun, and whether a character has been seen. -/
structure TextDecoder where
  pending : Option Utf8.Pending
  bomSeen : Bool

namespace TextDecoder

def new : TextDecoder := ⟨none, false⟩

def bom : Char := Char.ofNat 0xFEFF

def stripBom : List Char → List Char
  | [] => []
  | c :: cs => if c = bom then cs else c :: cs

/-- The next characters of the text. -/
def serialize (bomSeen : Bool) (cs : List Char) : List Char := if bomSeen then cs else stripBom cs

/-- `decoder.decode(bytes, { stream: true })` -/
def stream (d : TextDecoder) (bytes : List UInt8) : List UInt16 × TextDecoder :=
  let r := Utf8.run d.pending bytes
  (Utf16.ofChars (serialize d.bomSeen r.1), ⟨r.2, d.bomSeen || !r.1.isEmpty⟩)

/-- `decoder.decode()`, at the end of the stream. -/
def flush (d : TextDecoder) : List UInt16 :=
  Utf16.ofChars (serialize d.bomSeen (Utf8.decodeFrom d.pending []))

def text (bytes : List UInt8) : List UInt16 := Utf16.ofChars (stripBom (Utf8.decode bytes))

theorem serialize_append (seen : Bool) (cs ds : List Char) :
    serialize seen (cs ++ ds) = serialize seen cs ++ serialize (seen || !cs.isEmpty) ds := by
  cases seen with
  | true => rfl
  | false =>
    cases cs with
    | nil => rfl
    | cons c cs =>
      simp only [serialize, stripBom, List.cons_append]
      split_ifs <;> simp_all

theorem run_append (p : Option Utf8.Pending) (xs ys : List UInt8) :
    Utf8.run p (xs ++ ys) = ((Utf8.run p xs).1 ++ (Utf8.run (Utf8.run p xs).2 ys).1,
      (Utf8.run (Utf8.run p xs).2 ys).2) := by
  induction xs generalizing p with
  | nil => rfl
  | cons x xs ih =>
    rw [List.cons_append, Utf8.run, ih, Utf8.run]
    simp only [List.append_assoc]

theorem stream_nil (d : TextDecoder) : d.stream [] = ([], d) := by
  obtain ⟨pending, bomSeen⟩ := d
  cases bomSeen <;> rfl

theorem stream_append (d : TextDecoder) (xs ys : List UInt8) : d.stream (xs ++ ys) =
    ((d.stream xs).1 ++ ((d.stream xs).2.stream ys).1, ((d.stream xs).2.stream ys).2) := by
  have hempty (cs ds : List Char) : (cs ++ ds).isEmpty = (cs.isEmpty && ds.isEmpty) := by
    cases cs <;> rfl
  simp only [stream, run_append, serialize_append, Utf16.ofChars_append, hempty, Bool.not_and,
    Bool.or_assoc]

/-- The stream and what its end brings are the text of the bytes. -/
theorem stream_flush (bytes : List UInt8) :
    (new.stream bytes).1 ++ (new.stream bytes).2.flush = text bytes := by
  have hrun := Utf8.decodeFrom_append none bytes []
  rw [List.append_nil] at hrun
  rw [stream, flush, ← Utf16.ofChars_append]
  dsimp only
  rw [← serialize_append]
  exact congrArg (fun cs => Utf16.ofChars (stripBom cs)) hrun.symm

/-- The end of a stream brings a replacement character at most. -/
theorem flush_eq (d : TextDecoder) :
    d.flush = [] ∨ d.flush = Utf16.ofChars [Utf8.replacement] := by
  obtain ⟨pending, bomSeen⟩ := d
  cases pending <;> cases bomSeen <;> simp [flush, serialize, stripBom, Utf8.decodeFrom] <;> decide

/-- A text without a byte order mark is the text of its bytes. -/
theorem text_encode {cs : List Char} (h : cs.head? ≠ some bom) :
    text (Utf8.encode cs) = Utf16.ofChars cs := by
  rw [text, Utf8.decode_encode]
  cases cs with
  | nil => rfl
  | cons c cs => rw [stripBom, if_neg fun hc => h (congrArg some hc)]

end TextDecoder

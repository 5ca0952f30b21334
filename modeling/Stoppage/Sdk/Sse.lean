import Stoppage.Lib.Framing
import Stoppage.Lib.JsonRead
import Stoppage.Lib.TextDecoder
import Stoppage.Sdk.Escrow

/-! # `packages/txline`: reading a stream of events

`collectSseStream` keeps a buffer of text, cuts it at blank lines as the pieces of a response come in
and reads what is left at the end as one more block. What it collects does not depend on the pieces:
it is what the paragraphs of the whole text carry. `Number` and the value of a JSON number are
parameters.
-/

namespace Stoppage.Sse
open Framing Json Escrow Sdk Fallible
set_option autoImplicit false

/-! ## Messages -/

def cr : UInt16 := unit '\r'

def lf : UInt16 := unit '\n'

/-- `text.split(/\r?\n/)` -/
def splitLines (text : JsString) : List JsString := lines cr lf text

structure SseMessage (ν : Type) where
  id : Option JsString
  event : Option JsString
  data : JsString
  retry : Option ν

def field (rawLine : JsString) : JsString := rawLine.takeWhile (· ≠ unit ':')

def value (rawLine : JsString) : JsString :=
  match rawLine.dropWhile (· ≠ unit ':') with
  | [] => []
  | _ :: rest => if rest.head? = some (unit ' ') then rest.tail else rest

section Message
variable {ν : Type} (toNumber : JsString → ν)

/-- One turn of the loop over the lines of a block. -/
def SseMessage.read (message : SseMessage ν) (rawLine : JsString) : SseMessage ν :=
  if rawLine = [] ∨ rawLine.head? = some (unit ':') then message
  else
    { data := if field rawLine = Utf16.ofString "data" then message.data ++ (value rawLine ++ [lf])
        else message.data
      event := if field rawLine = Utf16.ofString "event" then some (value rawLine)
        else message.event
      id := if field rawLine = Utf16.ofString "id" then some (value rawLine) else message.id
      retry := if field rawLine = Utf16.ofString "retry" then some (toNumber (value rawLine))
        else message.retry }

/-- `data.replace(/\n$/, "")` -/
def dropNewline (data : JsString) : JsString :=
  if data.getLast? = some lf then data.dropLast else data

/-- Parse a single SSE block (text between blank-line separators). -/
def parseSseBlock (block : JsString) : Option (SseMessage ν) :=
  let message := (splitLines block).foldl (SseMessage.read toNumber) ⟨none, none, [], none⟩
  let message := { message with data := dropNewline message.data }
  if message.data ≠ [] ∨ message.event.getD [] ≠ [] ∨ message.id.getD [] ≠ [] then some message
  else none

end Message

section Collect
variable {ν N : Type} (toNumber : JsString → ν) (number : JsString → Option N)

/-- Parse SSE data as JSON, falling back to raw string. -/
def parseSseData (data : JsString) : Document N := (parseDocument number data).getD (.string data)

/-- `data && typeof data === "object"`, which holds of arrays too. -/
def isObject : Document N → Bool
  | .array _ => true
  | .object _ => true
  | _ => false

/-- What a block adds to the updates. -/
def pushed (block : JsString) : List (Document N) :=
  match parseSseBlock toNumber block with
  | none => []
  | some message =>
    if message.data = [] then []
    else if isObject (parseSseData number message.data) then [parseSseData number message.data]
    else []

/-! ## The loops -/

structure Scan (N : Type) where
  buffer : JsString
  updates : List (Document N)

/-- One turn of the inner loop: `buffer.match(/\r?\n\r?\n/)` and the block in front of the match. -/
def cutBlock (s : Scan N) : Option (Scan N) :=
  (cutBlank cr lf s.buffer).map fun p => ⟨p.2, s.updates ++ pushed toNumber number p.1⟩

/-- At most `n` turns of the inner loop. -/
def cutBlocks : ℕ → Scan N → Scan N
  | 0, s => s
  | n + 1, s =>
    match cutBlock toNumber number s with
    | none => s
    | some s' => cutBlocks n s'

structure Reading (N : Type) where
  decoder : TextDecoder
  scan : Scan N

/-- One turn of the outer loop. -/
def Reading.read (r : Reading N) (value : Bytes) : Reading N :=
  let (text, decoder) := r.decoder.stream value
  let buffer := r.scan.buffer ++ text
  ⟨decoder, cutBlocks toNumber number buffer.length ⟨buffer, r.scan.updates⟩⟩

/-- Read a complete SSE response body and collect all JSON messages into an array. The body is the
list of the chunks that its reader returns. -/
def collectSseStream (body : Option (List Bytes)) : Except SdkError (List (Document N)) := do
  let chunks ← getOr (.error "Response has no body") body
  let r := chunks.foldl (Reading.read toNumber number) ⟨TextDecoder.new, ⟨[], []⟩⟩
  let buffer := r.scan.buffer ++ r.decoder.flush
  pure (r.scan.updates ++ pushed toNumber number buffer)

/-! ## What the blocks of a text carry -/

def dataLine (rawLine : JsString) : Option JsString :=
  if field rawLine = Utf16.ofString "data" then some (value rawLine) else none

/-- The data of a block: the values of its `data` lines. -/
def blockData (block : List JsString) : JsString := [lf].intercalate (block.filterMap dataLine)

/-- The data, if it is JSON text of an object or an array. -/
def payload (block : List JsString) : Option (Document N) :=
  (parseDocument number (blockData block)).filter isObject

/-- The blocks of a text: its lines between blank lines. -/
def blocks (text : JsString) : List (List JsString) := paragraphs (splitLines text)

variable {toNumber number}

theorem payload_nil : payload number [] = none := rfl

/-! ## The data of a message -/

theorem read_data (message : SseMessage ν) (rawLine : JsString) :
    (message.read toNumber rawLine).data =
      message.data ++ ((dataLine rawLine).map (· ++ [lf])).getD [] := by
  rw [SseMessage.read, dataLine]
  by_cases hskip : rawLine = [] ∨ rawLine.head? = some (unit ':')
  · -- A line that is skipped has no field.
    have hfield : field rawLine ≠ Utf16.ofString "data" := by
      cases rawLine with
      | nil => decide
      | cons u rest =>
        obtain rfl : u = unit ':' := by simpa using hskip
        exact fun h => absurd h (List.cons_ne_nil _ _).symm
    rw [if_pos hskip, if_neg hfield]
    exact (List.append_nil _).symm
  · rw [if_neg hskip]
    by_cases hfield : field rawLine = Utf16.ofString "data"
    · simp only [if_pos hfield]
      rfl
    · simp only [if_neg hfield]
      exact (List.append_nil _).symm

variable (toNumber) in
theorem foldl_read_data (ls : List JsString) (message : SseMessage ν) :
    (ls.foldl (SseMessage.read toNumber) message).data =
      message.data ++ (ls.filterMap dataLine).flatMap (· ++ [lf]) := by
  induction ls generalizing message with
  | nil => exact (List.append_nil _).symm
  | cons l ls ih =>
    rw [List.foldl_cons, ih, read_data, List.append_assoc, List.filterMap_cons]
    cases dataLine l <;> rfl

theorem flatMap_newline {v : JsString} {vs : List JsString} :
    (v :: vs).flatMap (· ++ [lf]) = [lf].intercalate (v :: vs) ++ [lf] := by
  induction vs generalizing v with
  | nil => simp
  | cons w vs ih =>
    rw [List.flatMap_cons, ih]
    simp [List.intercalate]

theorem dropNewline_flatMap (vs : List JsString) :
    dropNewline (vs.flatMap (· ++ [lf])) = [lf].intercalate vs := by
  cases vs with
  | nil => rfl
  | cons v vs => rw [flatMap_newline, dropNewline, if_pos List.getLast?_concat, List.dropLast_concat]

theorem filterMap_nonblank (ls : List JsString) :
    (nonblank ls).filterMap dataLine = ls.filterMap dataLine := by
  rw [nonblank]
  induction ls with
  | nil => rfl
  | cons l ls ih =>
    by_cases hl : l = []
    · subst hl
      have hnone : dataLine [] = none := by decide
      rw [List.filter_cons_of_neg (by simp), ih, List.filterMap_cons_none hnone]
    · rw [List.filter_cons_of_pos (by simpa using hl), List.filterMap_cons, List.filterMap_cons, ih]

/-- What the code pushes for a block is what the lines of the block carry. -/
theorem pushed_eq (block : JsString) : pushed toNumber number block =
    (payload number (nonblank (splitLines block))).toList := by
  have hdata := foldl_read_data toNumber (splitLines block) ⟨none, none, [], none⟩
  rw [List.nil_append] at hdata
  rw [pushed, parseSseBlock, payload, blockData, filterMap_nonblank, ← dropNewline_flatMap, ← hdata]
  generalize (splitLines block).foldl (SseMessage.read toNumber) ⟨none, none, [], none⟩ = message
  by_cases hempty : dropNewline message.data = []
  · rw [hempty, parseDocument_nil]
    split
    · rfl
    · rename_i heq
      split_ifs at heq
      obtain rfl := Option.some.inj heq
      exact if_pos rfl
  · simp only [ne_eq, hempty, not_false_eq_true, true_or, if_true, if_false]
    rw [parseSseData]
    cases parseDocument number (dropNewline message.data) with
    | none => rfl
    | some document =>
      rw [Option.getD_some, Option.filter_some]
      split_ifs <;> rfl

variable (toNumber number)

/-- The updates of the blocks are those of the paragraphs of their lines. -/
theorem flatMap_pushed (bs : List JsString) : bs.flatMap (pushed toNumber number) =
    ((bs.map fun b => nonblank (splitLines b)).filter (· ≠ [])).filterMap (payload number) := by
  induction bs with
  | nil => rfl
  | cons b bs ih =>
    rw [List.flatMap_cons, ih, pushed_eq, List.map_cons]
    by_cases hb : nonblank (splitLines b) = []
    · rw [List.filter_cons_of_neg (by simp [hb]), hb, payload_nil]
      rfl
    · rw [List.filter_cons_of_pos (by simp [hb]), List.filterMap_cons]
      cases payload number (nonblank (splitLines b)) <;> rfl

/-- The payloads of a text, from the pieces that its buffer is cut into. -/
theorem payloads_of_text (text : JsString) : (blocks text).filterMap (payload number) =
    ((blankLine cr lf).drain text).1.flatMap (pushed toNumber number) ++
      pushed toNumber number ((blankLine cr lf).drain text).2 := by
  have hpieces := flatMap_pushed toNumber number
    (((blankLine cr lf).drain text).1 ++ [((blankLine cr lf).drain text).2])
  rw [List.flatMap_append, List.flatMap_singleton] at hpieces
  rw [blocks, splitLines, paragraphs_lines, hpieces]
  rfl

/-! ## The loops drain the buffer -/

theorem cutBlocks_eq (n : ℕ) (s : Scan N) : cutBlocks toNumber number n s =
    ⟨((blankLine cr lf).pieces n s.buffer).2,
      s.updates ++ ((blankLine cr lf).pieces n s.buffer).1.flatMap (pushed toNumber number)⟩ := by
  induction n generalizing s with
  | zero => rw [cutBlocks, Cutter.pieces, List.flatMap_nil, List.append_nil]
  | succ n ih =>
    cases hcut : cutBlank cr lf s.buffer with
    | none =>
      rw [cutBlocks, cutBlock, hcut, Cutter.pieces_of_none hcut, List.flatMap_nil, List.append_nil]
      rfl
    | some p =>
      rw [cutBlocks, cutBlock, hcut, Cutter.pieces_of_some hcut, List.flatMap_cons,
        ← List.append_assoc]
      exact ih ⟨p.2, s.updates ++ pushed toNumber number p.1⟩

/-- **The inner loop ends on every buffer**, after no more turns than the buffer is long. -/
theorem cutBlocks_ends (s : Scan N) :
    cutBlock toNumber number (cutBlocks toNumber number s.buffer.length s) = none ∧
      ∀ n, s.buffer.length ≤ n →
        cutBlocks toNumber number n s = cutBlocks toNumber number s.buffer.length s := by
  refine ⟨?_, fun n hn => ?_⟩
  · rw [cutBlock, cutBlocks_eq, Option.map_eq_none_iff]
    exact (blankLine cr lf).cut_drain s.buffer
  · rw [cutBlocks_eq, cutBlocks_eq, Cutter.pieces_eq_drain hn, Cutter.pieces_eq_drain le_rfl]

theorem read_eq (r : Reading N) (value : Bytes) : r.read toNumber number value =
    ⟨(r.decoder.stream value).2,
      ⟨((blankLine cr lf).drain (r.scan.buffer ++ (r.decoder.stream value).1)).2,
        r.scan.updates ++ ((blankLine cr lf).drain
          (r.scan.buffer ++ (r.decoder.stream value).1)).1.flatMap (pushed toNumber number)⟩⟩ :=
  congrArg (Reading.mk _) (cutBlocks_eq toNumber number _ _)

/-- What the chunks leave: the decoder behind their bytes, the rest of their text, and the updates of
the blocks in front of it. -/
theorem foldl_read (chunks : List Bytes) (d : TextDecoder) (buffer : JsString)
    (updates : List (Document N)) (hbuffer : cutBlank cr lf buffer = none) :
    chunks.foldl (Reading.read toNumber number) ⟨d, ⟨buffer, updates⟩⟩ =
      ⟨(d.stream chunks.flatten).2,
        ⟨((blankLine cr lf).drain (buffer ++ (d.stream chunks.flatten).1)).2,
          updates ++ ((blankLine cr lf).drain
            (buffer ++ (d.stream chunks.flatten).1)).1.flatMap (pushed toNumber number)⟩⟩ := by
  induction chunks generalizing d buffer updates with
  | nil =>
    rw [List.flatten_nil, TextDecoder.stream_nil, List.append_nil,
      Cutter.drain_of_none (c := blankLine cr lf) hbuffer, List.flatMap_nil, List.append_nil]
    rfl
  | cons chunk chunks ih =>
    have hrest : cutBlank cr lf ((blankLine cr lf).drain (buffer ++ (d.stream chunk).1)).2 = none :=
      (blankLine cr lf).cut_drain _
    rw [List.foldl_cons, read_eq, ih _ _ _ hrest, List.flatten_cons, TextDecoder.stream_append]
    dsimp only
    rw [← List.append_assoc, Cutter.drain_append (buffer ++ (d.stream chunk).1), List.flatMap_append,
      List.append_assoc]

theorem lf_not_mem_flush (d : TextDecoder) : lf ∉ d.flush := by
  rcases d.flush_eq with h | h <;> rw [h] <;> decide

/-- A blank line is complete when its last line feed is there: what is left in the decoder stands
behind the last one. -/
theorem drain_text (bytes : Bytes) : (blankLine cr lf).drain (TextDecoder.text bytes) =
    (((blankLine cr lf).drain (TextDecoder.new.stream bytes).1).1,
      ((blankLine cr lf).drain (TextDecoder.new.stream bytes).1).2 ++
        (TextDecoder.new.stream bytes).2.flush) := by
  have hrest := (blankLine cr lf).cut_drain (TextDecoder.new.stream bytes).1
  have hlast : (blankLine cr lf).cut (((blankLine cr lf).drain
      (TextDecoder.new.stream bytes).1).2 ++ (TextDecoder.new.stream bytes).2.flush) = none :=
    cutBlank_append_of_not_mem hrest (lf_not_mem_flush _)
  rw [← TextDecoder.stream_flush, Cutter.drain_append, Cutter.drain_of_none hlast, List.append_nil]

/-- What is collected: the updates of the blocks in front of blank lines, and of the text behind the
last one. -/
theorem collectSseStream_drain (chunks : List Bytes) :
    collectSseStream toNumber number (some chunks) =
      .ok (((blankLine cr lf).drain (TextDecoder.text chunks.flatten)).1.flatMap
          (pushed toNumber number) ++
        pushed toNumber number ((blankLine cr lf).drain (TextDecoder.text chunks.flatten)).2) := by
  have hfold := foldl_read toNumber number chunks TextDecoder.new [] [] rfl
  rw [List.nil_append, List.nil_append] at hfold
  rw [collectSseStream, getOr_some, ok_bind, drain_text]
  dsimp only
  rw [hfold]
  rfl

/-- **What is collected are the payloads of the blocks of the text**, in order. -/
theorem collectSseStream_eq (chunks : List Bytes) : collectSseStream toNumber number (some chunks) =
    .ok ((blocks (TextDecoder.text chunks.flatten)).filterMap (payload number)) := by
  rw [collectSseStream_drain, payloads_of_text toNumber number]

/-- In terms of a text that was sent, whatever the chunks of its bytes. -/
theorem collectSseStream_text {cs : List Char} (hbom : cs.head? ≠ some TextDecoder.bom)
    {chunks : List Bytes} (hbytes : chunks.flatten = Utf8.encode cs) :
    collectSseStream toNumber number (some chunks) =
      .ok ((blocks (Utf16.ofChars cs)).filterMap (payload number)) := by
  rw [collectSseStream_eq, hbytes, TextDecoder.text_encode hbom]

/-- **However a stream is cut into chunks, what is collected of it is the same**: the payloads of the
blocks of its text. And on every buffer the inner loop ends. -/
theorem collected_of_any_chunks :
    (∀ chunks : List Bytes,
      collectSseStream toNumber number (some chunks) =
        collectSseStream toNumber number (some [chunks.flatten]) ∧
      collectSseStream toNumber number (some chunks) =
        .ok ((blocks (TextDecoder.text chunks.flatten)).filterMap (payload number))) ∧
    ∀ s : Scan N,
      cutBlock toNumber number (cutBlocks toNumber number s.buffer.length s) = none ∧
      ∀ n, s.buffer.length ≤ n →
        cutBlocks toNumber number n s = cutBlocks toNumber number s.buffer.length s := by
  refine ⟨fun chunks => ⟨?_, collectSseStream_eq toNumber number chunks⟩, cutBlocks_ends toNumber number⟩
  rw [collectSseStream_eq, collectSseStream_eq, List.flatten_singleton]

end Collect

/-- A JSON object in the sense of the grammar. -/
def isRecord {N : Type} : Document N → Bool
  | .object _ => true
  | _ => false

/-- The payload `[]` is not a JSON object, and is collected: `typeof` calls it an object. -/
theorem array_collected :
    collectSseStream (fun _ => ()) (fun _ => (none : Option Unit))
        (some [Utf8.encode "data: []\n\n".toList]) = .ok [.array []] ∧
      ((blocks (TextDecoder.text (Utf8.encode "data: []\n\n".toList))).filterMap fun block =>
        (parseDocument (fun _ => (none : Option Unit)) (blockData block)).filter isRecord) = [] :=
  ⟨rfl, rfl⟩

/-- Both line endings, and a blank line between them. -/
example : blocks (Utf16.ofString "a\r\n\n\r\nb\nc\r\n") =
    [[Utf16.ofString "a"], [Utf16.ofString "b", Utf16.ofString "c"]] := by decide

end Stoppage.Sse

import Stoppage.Lib.JsonRead
import Stoppage.Lib.Latest
import Stoppage.Quant.Snapshot

/-! # `apps/agent/src/eventLedger.ts`: the file of match events

One line of JSON an event; a file that has reached its limit is renamed before the next line is
written, and replaces the one renamed before it. `readEvents` reads the current file only. So what
it returns are the latest events of all exactly when none of the events in an older file is among
the latest.
-/

namespace Stoppage.Agent.EventLedger
open Escrow Quant Latest
set_option autoImplicit false

def maxLedgerBytes : ℕ := 1000000

def maxReturnedEvents : ℕ := 60

variable {N : Type}

/-! ## Events -/

/-- The fields that `isMatchEvent` checks, but for the `id`. -/
def HasFields (o : Object N) : Prop :=
  (o.number "occurredAt").isSome ∧ (o.string "matchId").isSome ∧ (o.string "label").isSome ∧
    (o.string "kind").isSome

instance (o : Object N) : Decidable (HasFields o) := inferInstanceAs (Decidable (_ ∧ _))

/-- A `MatchEvent`: any object with these fields. -/
abbrev MatchEvent (N : Type) := {o : Object N // (o.string "id").isSome ∧ HasFields o}

def MatchEvent.occurredAt (e : MatchEvent N) : N := (e.1.number "occurredAt").get e.2.2.1

/-- `Omit<MatchEvent, "id">` -/
abbrev NewEvent (N : Type) := {o : Object N // Json.Members.get (key "id") o = none ∧ HasFields o}

def NewEvent.occurredAt (e : NewEvent N) : N := (e.1.number "occurredAt").get e.2.2.1

def isMatchEvent : Json.Value N → Option (MatchEvent N)
  | .object o => if h : (Object.string o "id").isSome ∧ HasFields o then some ⟨o, h⟩ else none
  | _ => none

/-- `{ ...o, name: value }` of an object without that property. -/
def withMember (name : JsString) (value : Json.Value N) : Object N → Object N
  | .nil => .cons name value .nil
  | .cons k v rest => .cons k v (withMember name value rest)

theorem get_withMember {name : JsString} {value : Json.Value N} {o : Object N}
    (h : Json.Members.get name o = none) (k : JsString) :
    Json.Members.get k (withMember name value o) =
      if k = name then some value else Json.Members.get k o := by
  induction o using withMember.induct with
  | case1 =>
    show (if name = k then some value else none) = if k = name then some value else none
    simp only [eq_comm]
  | case2 l v rest ih =>
    rw [Json.Members.get] at h
    split_ifs at h with hl
    show (if l = k then some v else Json.Members.get k (withMember name value rest)) =
      if k = name then some value else if l = k then some v else Json.Members.get k rest
    rw [ih h]
    by_cases hk : l = k
    · rw [if_pos hk, if_pos hk, if_neg fun hname => hl (hk.trans hname)]
    · rw [if_neg hk, if_neg hk]

theorem hasFields_withId {o : Object N} (h : Json.Members.get (key "id") o = none)
    (hfields : HasFields o) (value : Json.Value N) : HasFields (withMember (key "id") value o) := by
  have hother (name : String) (hname : key name ≠ key "id") :
      Json.Members.get (key name) (withMember (key "id") value o) =
        Json.Members.get (key name) o := by
    rw [get_withMember h, if_neg hname]
  rw [HasFields, Object.number, Object.string, Object.string, Object.string] at hfields ⊢
  rwa [hother "occurredAt" (by decide), hother "matchId" (by decide), hother "label" (by decide),
    hother "kind" (by decide)]

section Files
variable (numberText : N → JsString)

/-- The event with its `id`: the time and some random characters. -/
def NewEvent.entry (event : NewEvent N) (random : JsString) : MatchEvent N :=
  ⟨withMember (key "id")
      (.string (numberText event.occurredAt ++ Json.unit '-' :: random)) event.1, by
    rw [Object.string, get_withMember event.2.1, if_pos rfl]
    exact ⟨rfl, hasFields_withId event.2.1 event.2.2 _⟩⟩

/-! ## Files -/

/-- The file and the one it was renamed to, `.1`. -/
structure Files where
  file : Option Bytes
  rotated : Option Bytes

def Files.empty : Files := ⟨none, none⟩

def newline : UInt16 := Json.unit '\n'

def line (e : MatchEvent N) : JsString := Json.stringify numberText (.object e.1) ++ [newline]

def rotateIfNeeded (files : Files) : Files :=
  match files.file with
  | none => files
  | some bytes => if bytes.length < maxLedgerBytes then files else ⟨none, some bytes⟩

def append (files : Files) (event : NewEvent N) (random : JsString) : Files :=
  let files := rotateIfNeeded files
  let entry := event.entry numberText random
  { files with file := some (files.file.getD [] ++ Utf16.encode (line numberText entry)) }

def ledger (events : List (NewEvent N × JsString)) : Files :=
  events.foldl (fun files e => append numberText files e.1 e.2) Files.empty

end Files

section Reading
variable [LinearOrder N] (number : JsString → Option N)

def sortEvents (events : List (MatchEvent N)) : List (MatchEvent N) :=
  events.mergeSort fun a b => decide (b.occurredAt ≤ a.occurredAt)

def eventsOf (raw : JsString) : List (MatchEvent N) :=
  ((raw.splitOn newline).filter (· ≠ [])).filterMap fun text =>
    (Json.parse number text).bind isMatchEvent

def readEvents (files : Files) : List (MatchEvent N) :=
  match files.file with
  | none => []
  | some bytes => (sortEvents (eventsOf number (Utf16.decode bytes))).take maxReturnedEvents

end Reading

/-! ## Generations -/

section Generations
variable (numberText : N → JsString)

/-- The events of the current file, those of the file before it, and those of no file. -/
structure Generations (N : Type) where
  lost : List (MatchEvent N)
  old : List (MatchEvent N)
  kept : List (MatchEvent N)

def Generations.empty : Generations N := ⟨[], [], []⟩

def Generations.gone (g : Generations N) : List (MatchEvent N) := g.lost ++ g.old

def size (e : MatchEvent N) : ℕ := (Utf16.encode (line numberText e)).length

def total (es : List (MatchEvent N)) : ℕ := (es.map (size numberText)).sum

/-- One more event, in a file of its own if the current one has reached the limit. -/
def Generations.add (g : Generations N) (e : MatchEvent N) : Generations N :=
  if total numberText g.kept < maxLedgerBytes then { g with kept := g.kept ++ [e] }
  else ⟨g.lost ++ g.old, g.kept, [e]⟩

def entries (events : List (NewEvent N × JsString)) : List (MatchEvent N) :=
  events.map fun e => e.1.entry numberText e.2

def generations (es : List (MatchEvent N)) : Generations N :=
  es.foldl (Generations.add numberText) .empty

theorem generations_concat (es : List (MatchEvent N)) (e : MatchEvent N) :
    generations numberText (es ++ [e]) = (generations numberText es).add numberText e := by
  rw [generations, List.foldl_concat, generations]

theorem generations_append (es : List (MatchEvent N)) :
    (generations numberText es).gone ++ (generations numberText es).kept = es := by
  induction es using List.reverseRecOn with
  | nil => rfl
  | append_singleton es e ih =>
    rw [generations_concat, Generations.add]
    split_ifs
    · show (generations numberText es).gone ++ ((generations numberText es).kept ++ [e]) = _
      rw [← List.append_assoc, ih]
    · show (generations numberText es).gone ++ (generations numberText es).kept ++ [e] = _
      rw [ih]

/-! ## The files hold the last two generations -/

def content (es : List (MatchEvent N)) : Option Bytes :=
  if es = [] then none else some (es.flatMap fun e => Utf16.encode (line numberText e))

structure Holds (g : Generations N) (files : Files) : Prop where
  file : files.file = content numberText g.kept
  rotated : files.rotated = content numberText g.old

variable {numberText}

theorem content_concat (es : List (MatchEvent N)) (e : MatchEvent N) :
    content numberText (es ++ [e]) =
      some ((content numberText es).getD [] ++ Utf16.encode (line numberText e)) := by
  rw [content, if_neg (List.append_ne_nil_of_right_ne_nil _ (List.cons_ne_nil e [])),
    List.flatMap_append, List.flatMap_singleton, content]
  split_ifs with hes
  · rw [hes]
    rfl
  · rfl

theorem length_content (es : List (MatchEvent N)) :
    (es.flatMap fun e => Utf16.encode (line numberText e)).length = total numberText es :=
  List.length_flatMap

theorem Holds.append {g : Generations N} {files : Files} (h : Holds numberText g files)
    (event : NewEvent N) (random : JsString) :
    Holds numberText (g.add numberText (event.entry numberText random))
      (append numberText files event random) := by
  have hrotate : Holds numberText
      (if total numberText g.kept < maxLedgerBytes then g else ⟨g.lost ++ g.old, g.kept, []⟩)
      (rotateIfNeeded files) := by
    rw [rotateIfNeeded, h.file, content]
    by_cases hempty : g.kept = []
    · have hsmall : total numberText g.kept < maxLedgerBytes := by
        have hzero : total numberText [] = 0 := rfl
        rw [hempty, hzero]
        decide
      rw [if_pos hempty, if_pos hsmall]
      exact h
    · rw [if_neg hempty]
      dsimp only
      rw [length_content]
      split_ifs
      · exact h
      · exact ⟨rfl, by rw [content, if_neg hempty]⟩
  rw [Generations.add]
  split_ifs at hrotate ⊢
  · refine ⟨?_, hrotate.rotated⟩
    rw [content_concat, ← hrotate.file]
    rfl
  · refine ⟨?_, hrotate.rotated⟩
    rw [← List.nil_append [event.entry numberText random], content_concat, ← hrotate.file]
    rfl

theorem holds_ledger (events : List (NewEvent N × JsString)) :
    Holds numberText (generations numberText (entries numberText events))
      (ledger numberText events) := by
  induction events using List.reverseRecOn with
  | nil => exact ⟨rfl, rfl⟩
  | append_singleton events e ih =>
    rw [entries, List.map_append, List.map_singleton, generations_concat, ledger,
      List.foldl_concat]
    exact ih.append e.1 e.2

end Generations

/-! ## Reading -/

section Reading
variable {numberText : N → JsString} {number : JsString → Option N}

theorem wellFormed_line (hn : Json.Numerals numberText) (e : MatchEvent N) :
    Utf16.WellFormed (line numberText e) :=
  (Json.wellFormed_stringify hn _).append (Utf16.wellFormed_single (by decide))

theorem decode_lines (hn : Json.Numerals numberText) (es : List (MatchEvent N)) :
    Utf16.decode (es.flatMap fun e => Utf16.encode (line numberText e)) =
      es.flatMap (line numberText) := by
  have hlines : Utf16.WellFormed (es.flatMap (line numberText)) ∧
      Utf16.encode (es.flatMap (line numberText)) =
        es.flatMap fun e => Utf16.encode (line numberText e) := by
    induction es with
    | nil => exact ⟨rfl, rfl⟩
    | cons e es ih =>
      have hline := wellFormed_line hn e
      rw [List.flatMap_cons, List.flatMap_cons, hline.encode_append, ih.2]
      exact ⟨hline.append ih.1, rfl⟩
  rw [← hlines.2, Utf16.decode_encode]
  exact hlines.1

theorem newline_notMem (hn : Json.Numerals numberText) (v : Json.Value N) :
    ∀ u ∈ Json.stringify numberText v, (u == newline) = false := by
  intro u hu
  have hprintable := Json.printable_stringify hn v u hu
  rw [beq_eq_false_iff_ne]
  rintro rfl
  exact absurd hprintable (by decide)

theorem splitOn_lines (hn : Json.Numerals numberText) (es : List (MatchEvent N)) :
    (es.flatMap (line numberText)).splitOn newline =
      es.map (fun e => Json.stringify numberText (.object e.1)) ++ [[]] := by
  rw [List.splitOn_eq_splitOnP]
  induction es with
  | nil => rfl
  | cons e es ih =>
    rw [List.flatMap_cons, line, List.append_assoc, List.singleton_append,
      List.splitOnP_append_cons_of_forall_mem (newline_notMem hn _) _ (beq_self_eq_true newline), ih]
    rfl

theorem stringify_object_ne_nil (o : Object N) : Json.stringify numberText (.object o) ≠ [] := by
  cases o with
  | nil =>
    rw [Json.stringify]
    exact List.cons_ne_nil _ _
  | cons =>
    rw [Json.stringify]
    exact List.cons_ne_nil _ _

theorem isMatchEvent_object (e : MatchEvent N) : isMatchEvent (.object e.1) = some e :=
  dif_pos e.2

/-- The lines of a file are read back. -/
theorem eventsOf_lines (hn : Json.Numerals numberText)
    (hread : ∀ x, number (numberText x) = some x) (es : List (MatchEvent N)) :
    eventsOf number (es.flatMap (line numberText)) = es := by
  have htexts : (es.map (fun e : MatchEvent N => Json.stringify numberText (.object e.1)) ++
      [[]]).filter (· ≠ []) = es.map fun e => Json.stringify numberText (.object e.1) := by
    rw [List.filter_append, List.filter_eq_self.mpr, List.filter_cons_of_neg (by decide),
      List.filter_nil, List.append_nil]
    rw [List.forall_mem_map]
    exact fun e _ => decide_eq_true (stringify_object_ne_nil e.1)
  have hevent (e : MatchEvent N) :
      (Json.parse number (Json.stringify numberText (.object e.1))).bind isMatchEvent = some e := by
    rw [Json.parse_stringify hn hread, Option.bind_some, isMatchEvent_object]
  rw [eventsOf, splitOn_lines hn, htexts, List.filterMap_map]
  calc es.filterMap _ = es.filterMap some := List.filterMap_congr fun e _ => hevent e
    _ = es := List.filterMap_some

variable [LinearOrder N]

theorem readEvents_eq (hn : Json.Numerals numberText)
    (hread : ∀ x, number (numberText x) = some x) (events : List (NewEvent N × JsString)) :
    readEvents number (ledger numberText events) =
      (sortEvents (generations numberText (entries numberText events)).kept).take
        maxReturnedEvents := by
  rw [readEvents, (holds_ledger events).file, content]
  split_ifs with hempty
  · rw [hempty, sortEvents, List.mergeSort_nil, List.take_nil]
  · dsimp only
    rw [decode_lines hn, eventsOf_lines hn hread]

theorem sortEvents_falling (es : List (MatchEvent N)) :
    (sortEvents es).Pairwise fun a b => b.occurredAt ≤ a.occurredAt := by
  refine (List.pairwise_mergeSort ?_ ?_ es).imp fun h => of_decide_eq_true h
  · intro a b c hab hbc
    exact decide_eq_true ((of_decide_eq_true hbc).trans (of_decide_eq_true hab))
  · intro a b
    rw [Bool.or_eq_true, decide_eq_true_iff, decide_eq_true_iff]
    exact le_total _ _

/-- **When `readEvents` returns the latest events**: each event of an older file has as many events
of the current one at its time or later as are returned. -/
theorem ledger_tail_iff (hn : Json.Numerals numberText)
    (hread : ∀ x, number (numberText x) = some x) (events : List (NewEvent N × JsString)) :
    IsLatest MatchEvent.occurredAt maxReturnedEvents (entries numberText events)
        (readEvents number (ledger numberText events)) ↔
      ∀ e ∈ (generations numberText (entries numberText events)).gone, maxReturnedEvents ≤
        countFrom MatchEvent.occurredAt e.occurredAt
          (generations numberText (entries numberText events)).kept := by
  rw [readEvents_eq hn hread]
  nth_rewrite 1 [← generations_append numberText (entries numberText events)]
  exact isLatest_take_iff (List.mergeSort_perm _ _) (sortEvents_falling _)

end Reading

/-! ## A file that fills up -/

section Filling
variable (numberText : N → JsString)

theorem two_le_size (e : MatchEvent N) : 2 ≤ size numberText e := by
  have hobject : 1 ≤ (Json.stringify numberText (.object e.1)).length := by
    cases e.1 <;> exact Nat.succ_pos _
  have hline : 2 ≤ (line numberText e).length := by
    rw [line, List.length_append, List.length_singleton]
    omega
  exact hline.trans (Utf16.length_encode _).1

variable {numberText}

theorem total_concat (es : List (MatchEvent N)) (e : MatchEvent N) :
    total numberText (es ++ [e]) = total numberText es + size numberText e := by
  rw [total, List.map_append, List.sum_append, List.map_singleton, List.sum_singleton, total]

/-- The first events of a sequence. -/
def firsts (f : ℕ → MatchEvent N) (n : ℕ) : List (MatchEvent N) := (List.range n).map f

theorem firsts_succ (f : ℕ → MatchEvent N) (n : ℕ) : firsts f (n + 1) = firsts f n ++ [f n] := by
  rw [firsts, List.range_succ, List.map_append, List.map_singleton, firsts]

theorem le_total_firsts (f : ℕ → MatchEvent N) (n : ℕ) : 2 * n ≤ total numberText (firsts f n) := by
  induction n with
  | zero => exact Nat.zero_le _
  | succ n ih =>
    have hsize := two_le_size numberText (f n)
    rw [firsts_succ, total_concat]
    omega

theorem generations_firsts (f : ℕ → MatchEvent N) {n : ℕ}
    (hsmall : ∀ k < n, total numberText (firsts f k) < maxLedgerBytes) :
    generations numberText (firsts f n) = ⟨[], [], firsts f n⟩ := by
  induction n with
  | zero => rfl
  | succ n ih =>
    rw [firsts_succ, generations_concat, ih fun k hk => hsmall k (Nat.lt_succ_of_lt hk),
      Generations.add, if_pos (hsmall n (Nat.lt_succ_self n))]

/-- **One event too many**: the first event behind a full file is alone in the current one. -/
theorem exists_filled (numberText : N → JsString) (f : ℕ → MatchEvent N) : ∃ n, 0 < n ∧ n ≤ 500000 ∧
    generations numberText (firsts f (n + 1)) = ⟨[], firsts f n, [f n]⟩ := by
  have hmany : maxLedgerBytes ≤ total numberText (firsts f 500000) := le_total_firsts f 500000
  have hfull : ∃ n, maxLedgerBytes ≤ total numberText (firsts f n) :=
    ⟨500000, hmany⟩
  have hsmall : ∀ k < Nat.find hfull, total numberText (firsts f k) < maxLedgerBytes :=
    fun k hk => Nat.lt_of_not_le (Nat.find_min hfull hk)
  refine ⟨Nat.find hfull, (Nat.find_pos hfull).mpr ?_, Nat.find_min' hfull hmany, ?_⟩
  · show ¬ 1000000 ≤ 0
    decide
  · rw [firsts_succ, generations_concat, generations_firsts f hsmall, Generations.add,
      if_neg (Nat.not_lt_of_le (Nat.find_spec hfull))]
    rfl

end Filling

namespace Sample
open Quant.Sample

/-- Digits with a minus in front of them or not. -/
def integer : List Char → ℤ
  | '-' :: digits => -(Nat.ofDigitChars 10 digits 0)
  | digits => Nat.ofDigitChars 10 digits 0

/-- An integer that is written with all its digits. -/
def smallNumber (text : JsString) : Option Small :=
  if h : (integer (Utf16.toChars text)).natAbs < 2 ^ 53 ∧
      Utf16.ofChars (Decimal.ofInt (integer (Utf16.toChars text))) = text then
    some ⟨integer (Utf16.toChars text), h.1⟩
  else none

theorem integer_ofInt {z : ℤ} (hz : z.natAbs < 2 ^ 53) : integer (Decimal.ofInt z) = z := by
  have hdigits : Decimal.ofNat z.natAbs = Nat.toDigits 10 z.natAbs := if_pos hz
  rw [Decimal.ofInt]
  by_cases hneg : z < 0
  · rw [if_pos hneg, integer, hdigits, Nat.ofDigitChars_ten_toDigits, Int.ofNat_natAbs_of_nonpos
      hneg.le, neg_neg]
  · rw [if_neg hneg, integer.eq_2, hdigits, Nat.ofDigitChars_ten_toDigits,
      Int.natAbs_of_nonneg (not_lt.mp hneg)]
    rintro digits hminus
    exact Decimal.minus_notMem_ofNat hz (hminus ▸ .head _)

theorem smallNumber_smallText (x : Small) : smallNumber (smallText x) = some x := by
  have hinteger : integer (Utf16.toChars (smallText x)) = x.1 := by
    rw [smallText, Utf16.toChars_ofChars, integer_ofInt x.2]
  have htext : (integer (Utf16.toChars (smallText x))).natAbs < 2 ^ 53 ∧
      Utf16.ofChars (Decimal.ofInt (integer (Utf16.toChars (smallText x)))) = smallText x := by
    rw [hinteger]
    exact ⟨x.2, rfl⟩
  rw [smallNumber, dif_pos htext]
  exact congrArg some (Subtype.ext hinteger)

def observed : NewEvent Small := ⟨members
  [("occurredAt", small 1700000000 (by decide)), ("kind", .string (key "txline_observed")),
    ("label", .string (key "Kick-off")), ("matchId", .string (key "fixture-1")),
    ("source", .string (key "txline"))], by decide⟩

/-- Six digits, another number for each event. -/
def randomDigits (i : ℕ) : JsString := Utf16.ofChars (Nat.toDigits 10 (100000 + i))

theorem randomDigits_injective : Function.Injective randomDigits := by
  intro i j h
  have hdigits : Nat.toDigits 10 (100000 + i) = Nat.toDigits 10 (100000 + j) := by
    rw [← Utf16.toChars_ofChars (Nat.toDigits 10 (100000 + i)),
      ← Utf16.toChars_ofChars (Nat.toDigits 10 (100000 + j))]
    exact congrArg Utf16.toChars h
  have hnumber := congrArg (Nat.ofDigitChars 10 · 0) hdigits
  simp only [Nat.ofDigitChars_ten_toDigits] at hnumber
  omega

theorem length_randomDigits {i : ℕ} (h : i ≤ 500000) : (randomDigits i).length = 6 := by
  have hascii : ∀ c ∈ Nat.toDigits 10 (100000 + i), c.toNat < 0x80 := by
    intro c hc
    have hdigit := Nat.isDigit_of_mem_toDigits (by decide) le_rfl hc
    rw [Char.isDigit, Bool.and_eq_true, decide_eq_true_iff, decide_eq_true_iff] at hdigit
    have hle := UInt32.le_iff_toNat_le.mp hdigit.2
    exact hle.trans_lt (by decide)
  have hle := (Nat.length_toDigits_le_iff (n := 100000 + i) (k := 6) (by decide : 1 < 10)
    (by decide)).mpr (by omega)
  have hgt := (Nat.length_toDigits_le_iff (n := 100000 + i) (k := 5) (by decide : 1 < 10)
    (by decide)).not.mpr (by omega)
  rw [randomDigits, Utf16.length_ofChars hascii]
  omega

def burst (n : ℕ) : List (NewEvent Small × JsString) :=
  (List.range n).map fun i => (observed, randomDigits i)

theorem entries_burst (n : ℕ) : entries smallText (burst n) =
    firsts (fun i => observed.entry smallText (randomDigits i)) n := by
  rw [entries, burst, List.map_map]
  rfl

end Sample

theorem ledger_tail_iff_first : IsLatest MatchEvent.occurredAt maxReturnedEvents
    (entries Quant.Sample.smallText [(Sample.observed, [])])
    (readEvents Sample.smallNumber (ledger Quant.Sample.smallText [(Sample.observed, [])])) :=
  (ledger_tail_iff Quant.Sample.smallNumerals Sample.smallNumber_smallText _).mpr
    fun _ he => absurd he List.not_mem_nil

/-- In a burst of events with different ids, all but the last are in the file that was renamed, and
only the last one is returned. -/
theorem rotation_hides_events : ∃ n, 0 < n ∧
    ((Sample.burst (n + 1)).map Prod.snd).Nodup ∧
    (∀ id ∈ (Sample.burst (n + 1)).map Prod.snd, id.length = 6) ∧
    ¬ IsLatest MatchEvent.occurredAt maxReturnedEvents
      (entries Quant.Sample.smallText (Sample.burst (n + 1)))
      (readEvents Sample.smallNumber (ledger Quant.Sample.smallText (Sample.burst (n + 1)))) := by
  obtain ⟨n, hpos, hle, hfilled⟩ := exists_filled Quant.Sample.smallText
    fun i => Sample.observed.entry Quant.Sample.smallText (Sample.randomDigits i)
  have hids : (Sample.burst (n + 1)).map Prod.snd =
      (List.range (n + 1)).map Sample.randomDigits := by
    rw [Sample.burst, List.map_map]
    rfl
  refine ⟨n, hpos, ?_, ?_, ?_⟩
  · rw [hids]
    exact List.nodup_range.map Sample.randomDigits_injective
  · rw [hids, List.forall_mem_map]
    exact fun i hi => Sample.length_randomDigits ((Nat.le_of_lt_succ (List.mem_range.mp hi)).trans hle)
  · have hlast : readEvents Sample.smallNumber
        (ledger Quant.Sample.smallText (Sample.burst (n + 1))) =
          [Sample.observed.entry Quant.Sample.smallText (Sample.randomDigits n)] := by
      rw [readEvents_eq Quant.Sample.smallNumerals Sample.smallNumber_smallText,
        Sample.entries_burst, hfilled, sortEvents, List.mergeSort_singleton]
      rfl
    have hmany : 2 ≤ min maxReturnedEvents (n + 1) := le_min (by decide) (Nat.succ_le_succ hpos)
    rintro ⟨-, hlength, -⟩
    rw [hlast, Sample.entries_burst, firsts, List.length_map, List.length_range] at hlength
    exact absurd (hmany.trans hlength.ge) (Nat.not_succ_le_self 1)

end Stoppage.Agent.EventLedger

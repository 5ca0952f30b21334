import Stoppage.Lib.Json
import Stoppage.Sdk.Quote

/-! # `packages/quant`: the commitment to a snapshot

`snapshot.ts` on objects with their properties in any order, and the two instructions that store and
check the hash. Numbers are given by their text, strings are any code units.
-/

namespace Stoppage.Quant
open Fallible Escrow
set_option autoImplicit false

/-! ## Snapshots -/

/-- `ScoreState` and `CornersState`. -/
structure SideState (N : Type) where
  home : N
  away : N
deriving DecidableEq

structure CardsState (N : Type) where
  homeYellow : N
  homeRed : N
  awayYellow : N
  awayRed : N
deriving DecidableEq

structure PricingSnapshot (N : Type) where
  matchId : JsString
  fixtureId : N
  minute : N
  score : SideState N
  corners : SideState N
  cards : CardsState N
  seq : N
  ts : N
deriving DecidableEq

section
variable {N : Type}

/-! ## Objects -/

abbrev Object (N : Type) := Json.Members N

def key (name : String) : JsString := Utf16.ofString name

def Object.number (o : Object N) (name : String) : Option N :=
  match Json.Members.get (key name) o with
  | some (.number x) => some x
  | _ => none

def Object.string (o : Object N) (name : String) : Option JsString :=
  match Json.Members.get (key name) o with
  | some (.string s) => some s
  | _ => none

def Object.object (o : Object N) (name : String) : Option (Object N) :=
  match Json.Members.get (key name) o with
  | some (.object ms) => some ms
  | _ => none

def sideOf (o : Object N) : Option (SideState N) := do
  let away ← o.number "away"
  let home ← o.number "home"
  pure { home, away }

def cardsOf (o : Object N) : Option (CardsState N) := do
  let awayRed ← o.number "awayRed"
  let awayYellow ← o.number "awayYellow"
  let homeRed ← o.number "homeRed"
  let homeYellow ← o.number "homeYellow"
  pure { homeYellow, homeRed, awayYellow, awayRed }

/-- The fields of an object; `none` if one is missing or has another type. -/
def snapshotOf (s : Object N) : Option (PricingSnapshot N) := do
  let matchId ← s.string "matchId"
  let fixtureId ← s.number "fixtureId"
  let minute ← s.number "minute"
  let score ← sideOf (← s.object "score")
  let corners ← sideOf (← s.object "corners")
  let cards ← cardsOf (← s.object "cards")
  let seq ← s.number "seq"
  let ts ← s.number "ts"
  pure { matchId, fixtureId, minute, score, corners, cards, seq, ts }

/-! ## The canonical text -/

def members : List (String × Json.Value N) → Json.Members N
  | [] => .nil
  | (name, value) :: rest => .cons (key name) value (members rest)

def sideLiteral (s : SideState N) : Json.Value N :=
  .object (members [("away", .number s.away), ("home", .number s.home)])

/-- The object literal of `canonicalSnapshotJson`. -/
def literal (s : PricingSnapshot N) : Json.Value N :=
  .object (members
    [("matchId", .string s.matchId), ("fixtureId", .number s.fixtureId),
      ("minute", .number s.minute), ("score", sideLiteral s.score),
      ("corners", sideLiteral s.corners),
      ("cards", .object (members
        [("awayRed", .number s.cards.awayRed), ("awayYellow", .number s.cards.awayYellow),
          ("homeRed", .number s.cards.homeRed), ("homeYellow", .number s.cards.homeYellow)])),
      ("seq", .number s.seq), ("ts", .number s.ts)])

/-- Build the canonical JSON string that `hashSnapshot` digests. -/
def canonicalSnapshotJson (numberText : N → JsString) (s : Object N) : Option JsString :=
  (snapshotOf s).map fun fields => Json.stringify numberText (literal fields)

def hashSnapshot (sha256 : Bytes → Bytes) (numberText : N → JsString) (s : Object N) :
    Option JsString :=
  (canonicalSnapshotJson numberText s).map fun text => hexText (sha256 (Utf16.encode text))

theorem literal_injective : Function.Injective (literal (N := N)) := by
  intro a b h
  obtain ⟨matchId, fixtureId, minute, ⟨home, away⟩, ⟨cornersHome, cornersAway⟩,
    ⟨homeYellow, homeRed, awayYellow, awayRed⟩, seq, ts⟩ := a
  simp only [literal, sideLiteral, members, Json.Value.object.injEq, Json.Members.cons.injEq,
    Json.Value.string.injEq, Json.Value.number.injEq, true_and, and_true] at h
  obtain ⟨rfl, rfl, rfl, ⟨rfl, rfl⟩, ⟨rfl, rfl⟩, ⟨rfl, rfl, rfl, rfl⟩, rfl, rfl⟩ := h
  rfl

/-- **The bytes of a snapshot determine it.** -/
theorem encode_canonical_inj {numberText : N → JsString} (hn : Json.Numerals numberText)
    {o o' : Object N} {text text' : JsString} (h : canonicalSnapshotJson numberText o = some text)
    (h' : canonicalSnapshotJson numberText o' = some text') :
    Utf16.encode text = Utf16.encode text' ↔ snapshotOf o = snapshotOf o' := by
  obtain ⟨a, ha, rfl⟩ := Option.map_eq_some_iff.mp h
  obtain ⟨b, hb, rfl⟩ := Option.map_eq_some_iff.mp h'
  rw [ha, hb, Option.some_inj]
  constructor
  · intro hbytes
    have htext := (Json.wellFormed_stringify hn (literal a)).encode_inj
      (Json.wellFormed_stringify hn (literal b)) hbytes
    exact literal_injective (Json.stringify_injective hn htext)
  · rintro rfl
    rfl

end

/-! ## Storing and checking -/

/-- **The commitment to a snapshot.** After `attest_pricing` has stored the hash of one snapshot,
`verify_pricing` accepts the bytes of another exactly when both agree in every field. -/
theorem snapshot_commitment_iff {N : Type} {numberText : N → JsString}
    (hn : Json.Numerals numberText) {rt : Runtime} {ctx ctx' : TxContext} {s t u : Chain}
    {agent : Pubkey} {agentSignature : List.Vector UInt8 64} {q : Quote} {o o' : Object N}
    {hash text text' : JsString} {ix ix' : TransactionInstruction}
    {instruction instruction' : Instruction}
    (htext : canonicalSnapshotJson numberText o = some text)
    (htext' : canonicalSnapshotJson numberText o' = some text')
    (hcollision : rt.sha256 (Utf16.encode text') = rt.sha256 (Utf16.encode text) →
      Utf16.encode text' = Utf16.encode text)
    (hhash : hashSnapshot rt.sha256 numberText o = some hash)
    (hq : q.snapshotHash.1 = hexBytes hash)
    (hix : buildAttestPricingIx (q.params agent agentSignature) = .ok ix)
    (hentry : MarketProgram.attestPricingEntry ix = some instruction)
    (hexec : exec rt ctx instruction s = .ok t)
    (hstays : u.pricingReceipt q.market = t.pricingReceipt q.market)
    (hix' : buildVerifyPricingIx q.market (Utf16.encode text') = .ok ix')
    (hentry' : MarketProgram.verifyPricingEntry ix' = some instruction') :
    (∃ v, exec rt ctx' instruction' u = .ok v) ↔ snapshotOf o = snapshotOf o' := by
  obtain ⟨fairValue, bid, ask, -, -, -, -, hstored⟩ := exists_stored hix hentry hexec
  obtain rfl := Option.some.inj ((buildVerifyPricingIx_ok hix').symm.trans hentry')
  have hbytes : q.snapshotHash.1 = rt.sha256 (Utf16.encode text) := by
    rw [hashSnapshot, htext] at hhash
    rw [hq, ← Option.some.inj hhash, hexBytes_hexText]
  rw [hstored] at hstays
  rw [eq_comm, ← encode_canonical_inj hn htext' htext]
  refine (MarketProgram.verifyPricing_succeeds_iff hstays).trans ?_
  show rt.sha256 (Utf16.encode text') = q.snapshotHash.1 ↔ _
  rw [hbytes]
  exact ⟨hcollision, fun hsame => congrArg rt.sha256 hsame⟩

namespace Sample
open Stoppage.Sample

/-- Integers that are written with all their digits. -/
abbrev Small := { z : ℤ // z.natAbs < 2 ^ 53 }

def smallText (x : Small) : JsString := Utf16.ofChars (Decimal.ofInt x.1)

theorem numberUnit_of_char {c : Char} (h : Decimal.NumberChar c) :
    ∀ u ∈ Utf16.units c, Json.NumberUnit u := by
  intro u hu
  have hsmall := h.ascii.1
  rw [Utf16.units, if_pos (by omega), List.mem_singleton] at hu
  rcases h with hdigit | rfl | rfl | rfl | rfl
  · have hrange := Decimal.toNat_of_isDigit hdigit
    refine .inl ?_
    rw [hu, Utf16.toNat_ofNat (by omega)]
    omega
  all_goals
    rw [hu]
    decide

theorem smallNumerals : Json.Numerals smallText where
  injective := by
    intro x y h
    have hchars := congrArg Utf16.toChars h
    rw [smallText, smallText, Utf16.toChars_ofChars, Utf16.toChars_ofChars] at hchars
    exact Subtype.ext (Decimal.ofInt_injOn x.2 y.2 hchars)
  nonempty := by
    intro x h
    have hchars := congrArg Utf16.toChars h
    rw [smallText, Utf16.toChars_ofChars] at hchars
    exact Decimal.ofInt_ne_nil x.1 hchars
  alphabet := by
    intro x u hu
    obtain ⟨c, hc, huc⟩ := List.mem_flatMap.mp hu
    exact numberUnit_of_char (Decimal.numberChar_of_mem_ofInt c hc) u huc

def digest : List.Vector UInt8 32 :=
  ⟨[179, 94, 106, 27, 238, 40, 176, 132, 37, 94, 112, 17, 224, 221, 233, 192, 139, 52, 225, 245,
    149, 155, 21, 194, 133, 39, 110, 244, 102, 117, 97, 96], rfl⟩

/-- A world whose hash function gives this digest. -/
def hashing : Runtime := { runtime with sha256 := fun _ => digest.1 }

def small (z : ℤ) (h : z.natAbs < 2 ^ 53) : Json.Value Small := .number ⟨z, h⟩

def quoted : Object Small := members
  [("matchId", .string (Utf16.ofString "BRØ-AIK-18257865")),
    ("fixtureId", small 18257865 (by decide)), ("minute", small 63 (by decide)),
    ("score", .object (members [("home", small 2 (by decide)), ("away", small 1 (by decide))])),
    ("corners", .object (members [("home", small 5 (by decide)), ("away", small 3 (by decide))])),
    ("cards", .object (members [("homeYellow", small 1 (by decide)),
      ("homeRed", small 0 (by decide)), ("awayYellow", small 2 (by decide)),
      ("awayRed", small 0 (by decide))])),
    ("seq", small 412 (by decide)), ("ts", small 1755000000000 (by decide))]

/-- The same snapshot with its properties in another order, and one more. -/
def rebuilt : Object Small := members
  [("ts", small 1755000000000 (by decide)), ("seq", small 412 (by decide)),
    ("source", .string (Utf16.ofString "feed")),
    ("score", .object (members [("away", small 1 (by decide)), ("home", small 2 (by decide))])),
    ("corners", .object (members [("away", small 3 (by decide)), ("home", small 5 (by decide))])),
    ("cards", .object (members [("awayRed", small 0 (by decide)),
      ("awayYellow", small 2 (by decide)), ("homeRed", small 0 (by decide)),
      ("homeYellow", small 1 (by decide))])),
    ("matchId", .string (Utf16.ofString "BRØ-AIK-18257865")),
    ("fixtureId", small 18257865 (by decide)), ("minute", small 63 (by decide))]

def committed : Quote := { Escrow.Sample.quote (13 / 25) with snapshotHash := digest }

theorem exists_attested : ∃ ix instruction ctx s t,
    buildAttestPricingIx (committed.params alice Escrow.Sample.signature) = .ok ix ∧
      MarketProgram.attestPricingEntry ix = some instruction ∧
      exec hashing ctx instruction s = .ok t :=
  Escrow.Sample.exists_of_attestation [setUp, create 1700001000 echo] genesis (by decide +kernel)

/-- The text that both give, of which `digest` is the SHA-256 digest. -/
def text : JsString := (canonicalSnapshotJson smallText quoted).getD []

end Sample

/-- A snapshot is committed to and checked with its properties in another order. -/
theorem snapshot_commitment_iff_sample : ∃ ctx s t, exec Sample.hashing ctx
    (.verifyPricing Stoppage.Sample.market (Utf16.encode Sample.text)) s = .ok t := by
  obtain ⟨ix, instruction, ctx, s, t, hix, hentry, hexec⟩ := Sample.exists_attested
  have htext : canonicalSnapshotJson Sample.smallText Sample.quoted = some Sample.text := by
    decide +kernel
  have htext' : canonicalSnapshotJson Sample.smallText Sample.rebuilt = some Sample.text := by
    decide +kernel
  obtain ⟨ix', hix'⟩ := exists_of_isOk (x := buildVerifyPricingIx Stoppage.Sample.market
    (Utf16.encode Sample.text)) (by decide +kernel)
  have hhash : hashSnapshot Sample.hashing.sha256 Sample.smallText Sample.quoted =
      some (hexText Sample.digest.1) := by
    rw [hashSnapshot, htext]
    rfl
  have hiff : (∃ u, exec Sample.hashing ctx
      (.verifyPricing Stoppage.Sample.market (Utf16.encode Sample.text)) t = .ok u) ↔
        snapshotOf Sample.quoted = snapshotOf Sample.rebuilt :=
    snapshot_commitment_iff Sample.smallNumerals htext htext' (fun _ => rfl) hhash
      (q := Sample.committed) (hexBytes_hexText _).symm hix hentry hexec rfl hix'
      (buildVerifyPricingIx_ok hix')
  obtain ⟨u, hu⟩ := hiff.mpr (by decide +kernel)
  exact ⟨ctx, t, u, hu⟩

end Stoppage.Quant
